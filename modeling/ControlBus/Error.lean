-- What can go wrong on the bus, and the one wording of each cause.
import ControlBus.Text.Unprintable

namespace ControlBus

/-! ## Quoted text

For messages and state dumps what would not show is written as an escape, so that two different
texts never read the same. -/

namespace Text

/-- The escape of a code point by its number in hexadecimal. -/
def codePointEscape (c : Char) : List Char :=
  ['\\', 'u', '\x7b'] ++ Nat.toDigits 16 c.toNat ++ ['\x7d']

/-- A character inside double quotes. -/
def quotedChar (c : Char) : List Char :=
  if c = '\x00' then ['\\', '0']
  else if c = '\t' then ['\\', 't']
  else if c = '\r' then ['\\', 'r']
  else if c = '\n' then ['\\', 'n']
  else if c = '\\' then ['\\', '\\']
  else if c = '"' then ['\\', '"']
  else if isUnprintable c then codePointEscape c
  else [c]

/-- A text between double quotes. -/
def quoted (s : String) : String :=
  String.ofList ('"' :: s.toList.flatMap quotedChar ++ ['"'])

end Text

/-! ## Errors -/

/-- Errors of the stores, the channels and the scheduler. -/
inductive BusError where
  /-- A store operation failed. -/
  | store (operation message : String)
  /-- A store script failed as a whole. -/
  | scriptFailed (script message : String)
  /-- A value could not be written or read as text. -/
  | serialization (message : String)
  | payloadTooLarge (size limit : Nat)
  /-- The notifications of a source have ended for good. -/
  | transportClosed (source : String)
  | invalidPattern (pattern message : String)
  | configuration (message : String)
deriving Repr, DecidableEq

namespace BusError

/-- The text shown for an error. -/
def message : BusError → String
  | store operation message => s!"Store error: {operation}: {message}"
  | scriptFailed script message => s!"Atomic script {script} failed: {message}"
  | serialization message => s!"Serialization error: {message}"
  | payloadTooLarge size limit =>
    s!"Payload too large: {size} bytes exceeds limit of {limit} bytes"
  | transportClosed source => s!"Notification transport closed for {source}"
  | invalidPattern pattern message => s!"Invalid channel pattern '{pattern}': {message}"
  | configuration message => s!"Configuration error: {message}"

/-- Whether the store failed, rather than local reading of what it gave. -/
def isStoreFailure : BusError → Bool
  | store .. | scriptFailed .. => true
  | _ => false

end BusError

/-- What a database connection can report. -/
inductive DatabaseFault where
  | poolTimedOut
  | poolClosed
  /-- The server refused a statement. -/
  | rejected (message : String)
  | rowNotFound
  | protocol (detail : String)
  | io (detail : String)
  | columnNotFound (column : String)
  /-- The address of the database is not one. -/
  | badAddress (detail : String)
deriving Repr, DecidableEq

/-- A database fault as a store error: the pool, the statement or else the connection failed. -/
def DatabaseFault.toError : DatabaseFault → BusError
  | poolTimedOut => .store "pool" "connection pool timed out"
  | poolClosed => .store "pool" "connection pool is closed"
  | rejected message => .store "query" message
  | rowNotFound => .store "connection"
      "no rows returned by a query that expected to return at least one row"
  | protocol detail => .store "connection" s!"encountered unexpected or invalid data: {detail}"
  | io detail => .store "connection" s!"error communicating with database: {detail}"
  | columnNotFound column => .store "connection" s!"no column found for name: {column}"
  | badAddress detail => .store "connection" s!"error with configuration: {detail}"

/-- Why a configuration is refused. -/
inductive ConfigError where
  /-- A source of settings cannot be read, or does not have the shape of a configuration. -/
  | unreadable (source error : String)
  | missingField (field context : String)
  | invalidValue (field value context : String)
deriving Repr, DecidableEq

namespace ConfigError

/-- The text shown for a refused configuration. -/
def message : ConfigError → String
  | unreadable source error => s!"Failed to load configuration from '{source}': {error}"
  | missingField field context =>
    s!"Missing required configuration field '{field}' in {context}"
  | invalidValue field value context => s!"Invalid value '{value}' for field '{field}': {context}"

/-- A refused configuration among the bus errors. -/
def toBusError (e : ConfigError) : BusError := .configuration e.message

end ConfigError

/-- What reading a tree of settings can report. -/
inductive SettingsFault where
  | notFound (property : String)
  | other (message : String)
deriving Repr, DecidableEq

/-- A settings fault as a configuration error. -/
def SettingsFault.toError : SettingsFault → BusError
  | notFound property =>
    .configuration s!"configuration property {Text.quoted property} not found"
  | other message => .configuration message

end ControlBus
