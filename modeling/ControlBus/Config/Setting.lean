-- Trees of settings, as files and the environment give them, and the configuration that a tree
-- stands for. Values are converted where their kind does not fit: a text that writes a number
-- is a number, a number that is not zero is true.
import ControlBus.Config.Basic
import ControlBus.Text.Binary64

namespace ControlBus

/-- A tree of settings. -/
inductive Setting where
  | nothing
  | flag (b : Bool)
  | whole (n : Int)
  | decimal (x : Text.Binary64)
  | text (s : String)
  | list (items : List Setting)
  | table (entries : List (String × Setting))

namespace Setting

/-! ## Conversions -/

/-- A word for yes or no. -/
def wordFlag? (word : String) : Option Bool :=
  if ["true", "on", "yes"].contains word then some true
  else if ["false", "off", "no"].contains word then some false
  else none

/-- A whole number of a signed word of 64 bits. -/
def signed? : Setting → Option Int
  | whole n => some n
  | flag b => some b.toNat
  | decimal x => some (x.toIntWithin (-(Text.maxSigned64 : Int) - 1) Text.maxSigned64)
  | text s =>
    match wordFlag? (Text.lowercase s) with
    | some b => some b.toNat
    | none => Text.integer? s.toList >>= Text.signed64?
  | _ => none

/-- A whole number of an unsigned word of 64 bits. -/
def unsigned? : Setting → Option Nat
  | whole n => Text.unsigned64? n
  | flag b => some b.toNat
  | decimal x => some (x.toIntWithin 0 Text.maxUnsigned64).toNat
  | text s =>
    match wordFlag? (Text.lowercase s) with
    | some b => some b.toNat
    | none => Text.unsignedText64? s.toList
  | _ => none

/-- A truth value. -/
def flag? : Setting → Option Bool
  | flag b => some b
  | whole n => some (n ≠ 0)
  | decimal x => some !x.isZero
  | text s =>
    let word := Text.lowercase s
    if word = "1" then some true else if word = "0" then some false else wordFlag? word
  | _ => none

/-- A text. -/
def text? : Setting → Option String
  | text s => some s
  | flag b => some (toString b)
  | whole n => some (toString n)
  | decimal x => some x.text
  | _ => none

/-- A text, or nothing. -/
def optionalText? : Setting → Option (Option String)
  | nothing => some none
  | v => v.text?.map some

/-- The backend that a text names in any case, or that the only key of a table names. -/
def backend? : Setting → Option StoreBackend
  | text s => named s
  | table [(s, _)] => named s
  | _ => none
where
  named (s : String) : Option StoreBackend := StoreBackend.ofSetting? (Text.lowercase s)

/-- The parts of a structure: a table, in which unknown keys are passed over, or a list of the
parts in order. -/
def parts? (names : List String) : Setting → Option (Assoc String Setting)
  | table entries => some entries
  | list items => some (names.zip items)
  | _ => none

/-- A part that has a value of its own when it is absent. -/
def partOr (parts : Assoc String Setting) (name : String) (absent : α)
    (read : Setting → Option α) : Option α :=
  match Assoc.get? parts name with
  | some v => read v
  | none => some absent

end Setting

/-! ## The configuration of a tree -/

open Setting (partOr)

def WaitConfig.ofSetting? (v : Setting) : Option WaitConfig := do
  let d : WaitConfig := {}
  let parts ← v.parts? ["wait_timeout_ms"]
  return { waitTimeoutMs := ← partOr parts "wait_timeout_ms" d.waitTimeoutMs Setting.unsigned? }

def ChannelConfig.ofSetting? (v : Setting) : Option ChannelConfig := do
  let d : ChannelConfig := {}
  let parts ← v.parts? ["batch_size", "priority"]
  return {
    batchSize := ← partOr parts "batch_size" d.batchSize Setting.unsigned?
    priority := ← partOr parts "priority" d.priority fun v => v.signed? >>= Text.signed32? }

def StoreConfig.ofSetting? (v : Setting) : Option StoreConfig := do
  let d : StoreConfig := {}
  let parts ← v.parts? ["backend", "database_url", "max_connections", "notification_buffer_size",
    "max_payload_size", "keyspace_notifications"]
  return {
    backend := ← partOr parts "backend" d.backend Setting.backend?
    databaseUrl := ← partOr parts "database_url" d.databaseUrl Setting.optionalText?
    maxConnections := ← partOr parts "max_connections" d.maxConnections fun v => do
      Text.unsigned32? (← v.unsigned?)
    notificationBufferSize := ← partOr parts "notification_buffer_size"
      d.notificationBufferSize Setting.unsigned?
    maxPayloadSize := ← partOr parts "max_payload_size" d.maxPayloadSize Setting.unsigned?
    keyspaceNotifications := ← partOr parts "keyspace_notifications" d.keyspaceNotifications
      Setting.flag? }

def RetryConfig.ofSetting? (v : Setting) : Option RetryConfig := do
  let d : RetryConfig := {}
  let parts ← v.parts? ["stuck_threshold_secs"]
  return { stuckThresholdSecs :=
    ← partOr parts "stuck_threshold_secs" d.stuckThresholdSecs Setting.unsigned? }

/-- The settings of tables by name. -/
def channelsOfSetting? : Setting → Option (Assoc String ChannelConfig)
  | .table entries => entries.mapM fun e => do return (e.1, ← ChannelConfig.ofSetting? e.2)
  | _ => none

def BusConfig.ofSetting? (v : Setting) : Option BusConfig := do
  let d : BusConfig := {}
  let parts ← v.parts? ["multiplexer", "channel_defaults", "channels", "store", "retry"]
  return {
    multiplexer := ← partOr parts "multiplexer" d.multiplexer WaitConfig.ofSetting?
    channelDefaults := ← partOr parts "channel_defaults" d.channelDefaults
      ChannelConfig.ofSetting?
    channels := ← partOr parts "channels" d.channels channelsOfSetting?
    store := ← partOr parts "store" d.store StoreConfig.ofSetting?
    retry := ← partOr parts "retry" d.retry RetryConfig.ofSetting? }

end ControlBus
