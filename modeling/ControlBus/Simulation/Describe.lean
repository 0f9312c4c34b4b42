-- How the state of a simulated process is shown in one line.
import ControlBus.Simulation.World

namespace ControlBus.Simulation.Describe

/-- A named group of values. Braces are written by their code. -/
def group (name : String) (parts : List (String × String)) : String :=
  name ++ " \x7b " ++ ", ".intercalate (parts.map fun p => p.1 ++ ": " ++ p.2) ++ " \x7d"

def number (n : Nat) : String := toString n

/-- A value that differs from run to run. -/
def hidden : String := "*"

/-- A length of time: in milliseconds below a second, else in seconds with the digits needed. -/
def duration (ms : Nat) : String :=
  if ms = 0 then "0ns"
  else if ms < 1000 then s!"{ms}ms"
  else
    let part := String.ofList
      (((Nat.toDigits 10 (1000 + ms % 1000)).drop 1).reverse.dropWhile (· = '0')).reverse
    s!"{ms / 1000}" ++ (if part.isEmpty then "" else "." ++ part) ++ "s"

def multiplexerStats (s : MultiplexerStats) : String :=
  group "MultiplexerStats" [
    ("selects", number s.selects), ("dispatches", number s.dispatches),
    ("timeouts", number s.timeouts), ("empty_skips", number s.emptySkips),
    ("errors", number s.errors)]

def multiplexer (m : Multiplexer ι) : String :=
  group "EventMultiplexer" [
    ("registered", number m.registrations.length), ("ready", number m.workingSet.length),
    ("stats", multiplexerStats m.stats)]

def executorStats (s : ExecutorStats) : String :=
  group "ExecutorStats" [
    ("executions", number s.executions), ("sweeps", number s.sweeps),
    ("popped", number s.popped), ("handled", number s.handled), ("retried", number s.retried),
    ("resurfaced", number s.resurfaced), ("pop_failures", number s.popFailures)]

def executor (channel : String) (e : Executor) : String :=
  group "BatchedConsumptionLoop" [
    ("channel", Text.quoted channel), ("batch_size", number e.batchSize),
    ("pending", number e.pending.length), ("retry", number e.retry.size),
    ("stats", executorStats e.stats)]

def loopStats (s : LoopStats) : String :=
  group "LoopStats" [
    ("iterations", number s.iterations), ("executions", number s.executions),
    ("timeouts", number s.timeouts), ("execute_errors", number s.executeErrors),
    ("sweep_errors", number s.sweepErrors), ("source_failures", number s.sourceFailures),
    ("last_error_at", if s.lastErrorAt.isSome then s!"Some({hidden})" else "None")]

def eventLoop (l : EventLoop ι) : String :=
  group "EventLoop" [
    ("instance_id", hidden), ("multiplexer", multiplexer l.multiplexer),
    ("wait_timeout", duration l.waitTimeout), ("stats", loopStats l.stats)]

def registry (b : Switchboard) : String :=
  group "SubscriberRegistry" [
    ("subscribers", number b.subscriptions.length), ("buffer_size", number b.capacity)]

def relationalStore (s : RelationalStore) : String :=
  group "PostgresStore" [
    ("pool_size", hidden), ("registry", registry s.board),
    ("max_payload_size", number s.maxPayload), ("keyspace_events", toString s.announcing)]

/-- A store in a database; a store in memory is not shown. -/
def store : Backend → String
  | .memory _ => ""
  | .relational s => relationalStore s

end ControlBus.Simulation.Describe
