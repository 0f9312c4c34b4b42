-- Configurations in the interchange format. Values must have exactly the right kind: a number
-- is no text, and a whole number has no point.
import ControlBus.Config.Basic
import ControlBus.Json.Reader

namespace ControlBus

open Json (part partOr)

/-- A whole number that fits an unsigned word of 64 bits. -/
def Json.unsigned64? (v : Json) : Option Nat := v.whole? >>= Text.unsigned64?

/-- A text, or nothing. -/
def Json.optionalText? : Json → Option (Option String)
  | .null => some none
  | v => v.text?.map some

def WaitConfig.ofJson? (v : Json) : Option WaitConfig := do
  let d : WaitConfig := {}
  let parts ← v.parts? ["wait_timeout_ms"]
  return { waitTimeoutMs := ← partOr parts "wait_timeout_ms" d.waitTimeoutMs Json.unsigned64? }

def ChannelConfig.ofJson? (v : Json) : Option ChannelConfig := do
  let d : ChannelConfig := {}
  let parts ← v.parts? ["batch_size", "priority"]
  return {
    batchSize := ← partOr parts "batch_size" d.batchSize Json.unsigned64?
    priority := ← partOr parts "priority" d.priority fun v => v.whole? >>= Text.signed32? }

def StoreConfig.ofJson? (v : Json) : Option StoreConfig := do
  let d : StoreConfig := {}
  let parts ← v.parts? ["backend", "database_url", "max_connections", "notification_buffer_size",
    "max_payload_size", "keyspace_notifications"]
  return {
    backend := ← partOr parts "backend" d.backend (Json.choice? StoreBackend.ofSetting?)
    databaseUrl := ← partOr parts "database_url" d.databaseUrl Json.optionalText?
    maxConnections := ← partOr parts "max_connections" d.maxConnections fun v =>
      v.whole? >>= Text.unsigned32?
    notificationBufferSize := ← partOr parts "notification_buffer_size"
      d.notificationBufferSize Json.unsigned64?
    maxPayloadSize := ← partOr parts "max_payload_size" d.maxPayloadSize Json.unsigned64?
    keyspaceNotifications := ← partOr parts "keyspace_notifications" d.keyspaceNotifications
      Json.bool? }

def RetryConfig.ofJson? (v : Json) : Option RetryConfig := do
  let d : RetryConfig := {}
  let parts ← v.parts? ["stuck_threshold_secs"]
  return { stuckThresholdSecs :=
    ← partOr parts "stuck_threshold_secs" d.stuckThresholdSecs Json.unsigned64? }

/-- The settings of tables by name; of two for one name the later counts. -/
def channelsOfJson? (v : Json) : Option (Assoc String ChannelConfig) := do
  (← v.members?).foldlM (fun m e => do return Assoc.put m e.1 (← ChannelConfig.ofJson? e.2)) []

def BusConfig.ofJson? (v : Json) : Option BusConfig := do
  let d : BusConfig := {}
  let parts ← v.parts? ["multiplexer", "channel_defaults", "channels", "store", "retry"]
  return {
    multiplexer := ← partOr parts "multiplexer" d.multiplexer WaitConfig.ofJson?
    channelDefaults := ← partOr parts "channel_defaults" d.channelDefaults ChannelConfig.ofJson?
    channels := ← partOr parts "channels" d.channels channelsOfJson?
    store := ← partOr parts "store" d.store StoreConfig.ofJson?
    retry := ← partOr parts "retry" d.retry RetryConfig.ofJson? }

/-- The configuration that a text describes. -/
def BusConfig.ofText? (text : String) : Option BusConfig :=
  Json.ofString? text >>= BusConfig.ofJson?

/-- The store settings that a text describes. -/
def StoreConfig.ofText? (text : String) : Option StoreConfig :=
  Json.ofString? text >>= StoreConfig.ofJson?

end ControlBus
