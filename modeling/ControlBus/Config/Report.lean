-- How an effective configuration is shown: as a text of one line per setting, or in the
-- interchange format, spread over lines.
import ControlBus.Config.Basic
import ControlBus.Json.Value

namespace ControlBus.BusConfig

/-! ## In the interchange format -/

/-- A line end and the blanks that indent the next line. -/
def newLine (depth : Nat) : List Char := '\n' :: List.replicate (2 * depth) ' '

/-- An object over several lines; one without members stays on one. -/
def objectLines (depth : Nat) (members : List (String × List Char)) : List Char :=
  if members.isEmpty then ['\x7b', '\x7d']
  else
    '\x7b' :: Json.separated (members.map fun m =>
      newLine (depth + 1) ++ Json.written m.1 ++ ':' :: ' ' :: m.2)
    ++ newLine depth ++ ['\x7d']

def number (n : Int) : List Char := (toString n).toList

def truth (b : Bool) : List Char := (toString b).toList

def channelLines (depth : Nat) (c : ChannelConfig) : List Char :=
  objectLines depth [("batch_size", number c.batchSize), ("priority", number c.priority)]

def storeLines (depth : Nat) (c : StoreConfig) : List Char :=
  objectLines depth [
    ("backend", Json.written c.backend.setting),
    ("database_url", (c.databaseUrl.map Json.written).getD ['n', 'u', 'l', 'l']),
    ("max_connections", number c.maxConnections),
    ("notification_buffer_size", number c.notificationBufferSize),
    ("max_payload_size", number c.maxPayloadSize),
    ("keyspace_notifications", truth c.keyspaceNotifications)]

/-- The configuration in the interchange format. -/
def document (c : BusConfig) : String :=
  String.ofList (objectLines 0 [
    ("multiplexer", objectLines 1 [("wait_timeout_ms", number c.multiplexer.waitTimeoutMs)]),
    ("channel_defaults", channelLines 1 c.channelDefaults),
    ("channels", objectLines 1 (c.channels.map fun e => (e.1, channelLines 2 e.2))),
    ("store", storeLines 1 c.store),
    ("retry", objectLines 1 [("stuck_threshold_secs", number c.retry.stuckThresholdSecs)])])

/-! ## As text -/

/-- The line of a table's settings. -/
def channelSummary (c : BusConfig) (table : String) : String :=
  let settings := c.channel table
  s!"channels.{table}: batch_size={settings.batchSize} priority={settings.priority}"

/-- One line per setting, then one per table: the configured tables by name, and `tables`. -/
def summary (c : BusConfig) (tables : List String) : List String :=
  [s!"multiplexer.wait_timeout_ms   = {c.multiplexer.waitTimeoutMs}",
   s!"channel_defaults.batch_size   = {c.channelDefaults.batchSize}",
   s!"channel_defaults.priority     = {c.channelDefaults.priority}",
   s!"store.backend                 = {c.store.backend.title}",
   "store.database_url            = " ++ (if c.store.databaseUrl.isSome then "<set>" else "<unset>"),
   s!"store.notification_buffer     = {c.store.notificationBufferSize}",
   s!"store.max_payload_size        = {c.store.maxPayloadSize}",
   s!"store.keyspace_notifications  = {c.store.keyspaceNotifications}",
   s!"retry.stuck_threshold_secs    = {c.retry.stuckThresholdSecs}"]
  ++ (((Assoc.keys c.channels).mergeSort fun a b => decide (a ≤ b)) ++ tables).map c.channelSummary

end ControlBus.BusConfig
