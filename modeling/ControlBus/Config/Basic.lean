-- The configuration of a bus: its parts with their defaults, the settings of a table, and
-- what makes a configuration unusable.
import ControlBus.Assoc
import ControlBus.Error
import ControlBus.Text.Integer
import ControlBus.Text.Lowercase

namespace ControlBus

/-- How long one wait for events may last. -/
structure WaitConfig where
  waitTimeoutMs : Nat := 1000
deriving Repr, DecidableEq

/-- How a channel is dispatched. -/
structure ChannelConfig where
  /-- The most items popped at once. -/
  batchSize : Nat := 128
  /-- Channels of higher priority go first. -/
  priority : Int := 0
deriving Repr, DecidableEq

/-- Where the store keeps its data. -/
inductive StoreBackend where
  | inMemory
  | postgres
deriving Repr, DecidableEq

namespace StoreBackend

/-- The name of a backend in settings. -/
def setting : StoreBackend → String
  | inMemory => "in_memory"
  | postgres => "postgres"

/-- The name of a backend in reports. -/
def title : StoreBackend → String
  | inMemory => "InMemory"
  | postgres => "Postgres"

/-- The backend with this name in settings. -/
def ofSetting? (name : String) : Option StoreBackend :=
  [inMemory, postgres].find? (·.setting = name)

end StoreBackend

structure StoreConfig where
  backend : StoreBackend := .inMemory
  databaseUrl : Option String := none
  maxConnections : Nat := 10
  /-- The size of a subscription's inbox. -/
  notificationBufferSize : Nat := 1024
  /-- The largest payload, in bytes. -/
  maxPayloadSize : Nat := 7800
  /-- Whether changes of keys are announced. -/
  keyspaceNotifications : Bool := true
deriving Repr, DecidableEq

structure RetryConfig where
  /-- How long a parked item may wait before it is reported. -/
  stuckThresholdSecs : Nat := 300
deriving Repr, DecidableEq

structure BusConfig where
  multiplexer : WaitConfig := {}
  /-- The settings of tables that have none of their own. -/
  channelDefaults : ChannelConfig := {}
  channels : Assoc String ChannelConfig := []
  store : StoreConfig := {}
  retry : RetryConfig := {}
deriving Repr, DecidableEq

/-- The largest payload size that may be configured. -/
def maxPayloadCeiling : Nat := 8000

namespace BusConfig

/-- The settings of a table: those under its name, else those under the same name in other case,
else the defaults. -/
def channel (c : BusConfig) (table : String) : ChannelConfig :=
  match Assoc.get? c.channels table with
  | some settings => settings
  | none =>
    match c.channels.find? fun e => Text.sameIgnoringAsciiCase e.1 table with
    | some (_, settings) => settings
    | none => c.channelDefaults

/-- The settings of a table whose batches are empty. -/
def emptyBatch? (c : BusConfig) : Option String :=
  (c.channels.find? fun e => e.2.batchSize = 0).map (·.1)

/-- Refuse a zero. -/
def positive (field context : String) (n : Nat) : Except ConfigError Unit :=
  if n = 0 then .error (.invalidValue field "0" context) else .ok ()

/-- Refuse a configuration that cannot work; the first reason found is given. -/
def validate (c : BusConfig) : Except ConfigError Unit := do
  positive "multiplexer.wait_timeout_ms" "wait timeout must be greater than 0"
    c.multiplexer.waitTimeoutMs
  positive "channel_defaults.batch_size" "batch size must be greater than 0"
    c.channelDefaults.batchSize
  match c.emptyBatch? with
  | some table => positive s!"channels.{table}.batch_size" "batch size must be greater than 0" 0
  | none => pure ()
  positive "store.notification_buffer_size"
    "notification buffer must hold at least one notification" c.store.notificationBufferSize
  if maxPayloadCeiling < c.store.maxPayloadSize then
    throw (.invalidValue "store.max_payload_size" (toString c.store.maxPayloadSize)
      s!"cannot exceed {maxPayloadCeiling} bytes")
  if c.store.backend = .postgres && c.store.databaseUrl.isNone then
    throw (.missingField "store.database_url" "postgres store backend")

end BusConfig

end ControlBus
