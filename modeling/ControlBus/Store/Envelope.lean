-- The envelope in which a notification crosses the database: channel and payload as one text
-- of bounded length.
import ControlBus.Error
import ControlBus.Json.Reader

namespace ControlBus

/-- A notification on its way through the database. -/
structure Envelope where
  channel : String
  payload : String
deriving Repr, DecidableEq

namespace Envelope

/-- The longest envelope that the database takes, in bytes. -/
def maxBytes : Nat := 7999

/-- Channel and payload, in this order and without blanks. -/
def textChars (e : Envelope) : List Char :=
  '\x7b' :: Json.written "channel" ++ ':' :: Json.written e.channel
    ++ ',' :: Json.written "payload" ++ ':' :: Json.written e.payload ++ ['\x7d']

/-- The text of an envelope. -/
def text (e : Envelope) : String := String.ofList e.textChars

/-- The text of an envelope that is short enough. -/
def encode (channel payload : String) : Except BusError String :=
  let text := text { channel, payload }
  if maxBytes < text.utf8ByteSize then .error (.payloadTooLarge text.utf8ByteSize maxBytes)
  else .ok text

/-- The envelope that a text describes. -/
def decode (text : String) : Option Envelope := do
  let parts ← (← Json.ofString? text).parts? ["channel", "payload"]
  return { channel := ← Json.part parts "channel" Json.text?
           payload := ← Json.part parts "payload" Json.text? }

end Envelope

end ControlBus
