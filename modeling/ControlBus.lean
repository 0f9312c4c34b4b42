import ControlBus.Main
import ControlBus.Config.Strict
import ControlBus.Simulation.Step
import ControlBus.Proofs.KeyspaceLaws
import ControlBus.Proofs.LogPlaces
import ControlBus.Proofs.RecordMerge
import ControlBus.Proofs.KeyStates
import ControlBus.Proofs.MemoryLaws
import ControlBus.Proofs.CoalescingHistory
import ControlBus.Proofs.JsonText
import ControlBus.Proofs.OrderedHistory
import ControlBus.Proofs.WorkingSet
import ControlBus.Proofs.PlainScheduler
import ControlBus.Proofs.SchedulerRuns
import ControlBus.Proofs.SwitchboardLaws
import ControlBus.Proofs.WakeUps
import ControlBus.Proofs.SelectionInvariants
import ControlBus.Proofs.Stations
import ControlBus.Proofs.StationOps
import ControlBus.Proofs.WakeUpRuns
import ControlBus.Proofs.Fairness
import ControlBus.Proofs.RetryQueueLaws
import ControlBus.Proofs.Transactions
import ControlBus.Proofs.PopSizes
import ControlBus.Proofs.WorkAccounts
import ControlBus.Proofs.WorkRuns
import ControlBus.Proofs.RowLaws
import ControlBus.Proofs.Notices
import ControlBus.Proofs.Mirror
import ControlBus.Proofs.Commands
import ControlBus.Proofs.MirrorSteps
import ControlBus.Proofs.MirrorRuns
import ControlBus.Proofs.ChangeReports
import ControlBus.Proofs.Deliveries
import ControlBus.Proofs.BusyStores
import ControlBus.Proofs.Replicas
import ControlBus.Proofs.ReplicaRuns
import ControlBus.Proofs.Relabelling
import ControlBus.Proofs.Overtaking
import ControlBus.Proofs.ScriptRuns
import ControlBus.Proofs.PendingPeriods
import ControlBus.Proofs.DrainOrders
import ControlBus.Proofs.TransactionBodies
import ControlBus.Proofs.Peers
import ControlBus.Proofs.AllOrNothing
import ControlBus.Proofs.KeySearch
import ControlBus.Proofs.VouchedRows
import ControlBus.Proofs.Removals
import ControlBus.Proofs.TakingOut
import ControlBus.Proofs.Routing
import ControlBus.Proofs.Loads
import ControlBus.Proofs.StationLoads
import ControlBus.Proofs.Draining
import ControlBus.Proofs.Forwarding
import ControlBus.Proofs.MessageHistory
import ControlBus.Proofs.PuttingOff
import ControlBus.Proofs.LoopAccounts
import ControlBus.Proofs.LoopTallies
import ControlBus.Proofs.Rereads
import ControlBus.Proofs.MergedCopies
import ControlBus.Proofs.KeyViews
import ControlBus.Proofs.TableSights
import ControlBus.Proofs.TableIsolation
import ControlBus.Proofs.Globs
import ControlBus.Proofs.ChangeWords
import ControlBus.Proofs.StoreRuns
import ControlBus.Proofs.Clearing
import ControlBus.Proofs.Listings
import ControlBus.Proofs.Followers
import ControlBus.Proofs.Completions
import ControlBus.Proofs.GlobExpressions
import ControlBus.Proofs.Selections
import ControlBus.Proofs.FailedSources
import ControlBus.Proofs.EventSignals
import ControlBus.Proofs.KeyChanges
import ControlBus.Proofs.KeyspaceFeed
import ControlBus.Proofs.TimerGrid
import ControlBus.Proofs.TimerRuns
import ControlBus.Proofs.Peeking
import ControlBus.Proofs.StuckItems
import ControlBus.Proofs.LetterCase
import ControlBus.Proofs.SettingsTree
import ControlBus.Proofs.TableSettings
import ControlBus.Proofs.RandomSetRuns
import ControlBus.Proofs.FieldOrder
import ControlBus.Proofs.StoredContainers
import ControlBus.Proofs.ReadyKeys
import ControlBus.Proofs.SelectionMoves
