-- A database as the relational store sees it: three tables of rows, the statements that the
-- store sends, and what each statement does and answers.
import ControlBus.Store.Keyspace

namespace ControlBus

/-- An entry of a list; entries of a list follow one another by their sequence numbers. -/
structure ListRow where
  key : String
  seq : Nat
  value : String
deriving Repr, DecidableEq

/-- A member of a set. -/
structure SetRow where
  key : String
  member : String
deriving Repr, DecidableEq

/-- A field of a record; fields follow one another by their sequence numbers. -/
structure FieldRow where
  key : String
  field : String
  value : String
  seq : Nat
deriving Repr, DecidableEq

/-- The rows of the three tables, and the next sequence number. -/
structure Rows where
  lists : List ListRow := []
  sets : List SetRow := []
  fields : List FieldRow := []
  nextSeq : Nat := 1
deriving Repr, DecidableEq

/-- The three tables by name. -/
inductive RowTable where
  | lists | sets | fields
deriving Repr, DecidableEq

def RowTable.name : RowTable → String
  | lists => "orchbus_lists"
  | sets => "orchbus_sets"
  | fields => "orchbus_hashes"

/-- The database channel that carries all notifications. -/
def eventChannel : String := "orchbus_events"

/-- A statement whose answer has type `α`. -/
inductive Statement : Type → Type where
  | createTable (t : RowTable) : Statement Unit
  | listen : Statement Unit
  | begin : Statement Unit
  | commit : Statement Unit
  /-- Take a lock that is held to the end of the transaction. -/
  | lock (resource : String) : Statement Unit
  | notify (envelope : String) : Statement Unit
  | countEntries (key : String) : Statement Nat
  | appendEntry (key value : String) : Statement Unit
  /-- Delete the first entries of a list; answers them with their sequence numbers. -/
  | popEntries (key : String) (limit : Nat) : Statement (List ListRow)
  | countMembers (key : String) : Statement Nat
  /-- Add a member; answers how many rows are new. -/
  | addMember (key member : String) : Statement Nat
  /-- Remove a member; answers how many rows are gone. -/
  | removeMember (key member : String) : Statement Nat
  /-- Delete members in random order; answers them. -/
  | popMembers (key : String) (limit : Nat) : Statement (List String)
  /-- Write a field: its value is replaced, its sequence number stays. -/
  | writeField (key field value : String) : Statement Unit
  /-- Delete the fields of a record; answers them. -/
  | takeFields (key : String) : Statement (List FieldRow)
  | readFields (key : String) : Statement FieldList
  /-- Delete every row of a key in one table; answers how many are gone. -/
  | deleteKey (t : RowTable) (key : String) : Statement Nat
  /-- The keys in any table that a search pattern takes, in rising order. -/
  | findKeys (pattern : String) : Statement (List String)

namespace Statement

/-- The text of a statement. -/
def sql : Statement α → String
  | createTable .lists => "CREATE TABLE IF NOT EXISTS orchbus_lists ( key TEXT NOT NULL, "
      ++ "seq BIGSERIAL NOT NULL, value TEXT NOT NULL, PRIMARY KEY (key, seq) )"
  | createTable .sets => "CREATE TABLE IF NOT EXISTS orchbus_sets ( key TEXT NOT NULL, "
      ++ "member TEXT NOT NULL, PRIMARY KEY (key, member) )"
  | createTable .fields => "CREATE TABLE IF NOT EXISTS orchbus_hashes ( key TEXT NOT NULL, "
      ++ "field TEXT NOT NULL, value TEXT NOT NULL, seq BIGSERIAL NOT NULL, "
      ++ "PRIMARY KEY (key, field) )"
  | listen => "LISTEN \"orchbus_events\""
  | begin => "BEGIN"
  | commit => "COMMIT"
  | lock _ => "SELECT pg_advisory_xact_lock(hashtext($1))"
  | notify _ => "SELECT pg_notify($1, $2)"
  | countEntries _ => "SELECT COUNT(*) FROM orchbus_lists WHERE key = $1"
  | appendEntry .. => "INSERT INTO orchbus_lists (key, value) VALUES ($1, $2)"
  | popEntries .. => "DELETE FROM orchbus_lists WHERE (key, seq) IN ( "
      ++ "SELECT key, seq FROM orchbus_lists WHERE key = $1 "
      ++ "ORDER BY seq LIMIT $2 FOR UPDATE SKIP LOCKED ) RETURNING seq, value"
  | countMembers _ => "SELECT COUNT(*) FROM orchbus_sets WHERE key = $1"
  | addMember .. =>
      "INSERT INTO orchbus_sets (key, member) VALUES ($1, $2) ON CONFLICT DO NOTHING"
  | removeMember .. => "DELETE FROM orchbus_sets WHERE key = $1 AND member = $2"
  | popMembers .. => "DELETE FROM orchbus_sets WHERE (key, member) IN ( "
      ++ "SELECT key, member FROM orchbus_sets WHERE key = $1 "
      ++ "ORDER BY random() LIMIT $2 FOR UPDATE SKIP LOCKED ) RETURNING member"
  | writeField .. => "INSERT INTO orchbus_hashes (key, field, value) VALUES ($1, $2, $3) "
      ++ "ON CONFLICT (key, field) DO UPDATE SET value = EXCLUDED.value"
  | takeFields _ => "DELETE FROM orchbus_hashes WHERE key = $1 RETURNING field, value, seq"
  | readFields _ => "SELECT field, value FROM orchbus_hashes WHERE key = $1 ORDER BY seq"
  | deleteKey t _ => "DELETE FROM " ++ t.name ++ " WHERE key = $1"
  | findKeys _ => "SELECT key FROM orchbus_lists WHERE key LIKE $1 "
      ++ "UNION SELECT key FROM orchbus_sets WHERE key LIKE $1 "
      ++ "UNION SELECT key FROM orchbus_hashes WHERE key LIKE $1 ORDER BY 1"

/-- The values bound to the places of a statement, as texts. -/
def bound : Statement α → List String
  | createTable _ | listen | begin | commit => []
  | lock resource => [resource]
  | notify envelope => [eventChannel, envelope]
  | countEntries key | countMembers key | takeFields key | readFields key | deleteKey _ key =>
    [key]
  | appendEntry key value => [key, value]
  | popEntries key limit | popMembers key limit => [key, toString limit]
  | addMember key member | removeMember key member => [key, member]
  | writeField key field value => [key, field, value]
  | findKeys pattern => [pattern]

end Statement

/-! ## Search patterns -/

namespace Like

/-- Whether `f` holds of a text or of what is left of it after some of its first characters. -/
def anyRest (f : List Char → Bool) : List Char → Bool
  | [] => f []
  | c :: s => f (c :: s) || anyRest f s

/-- Whether a search pattern takes a text: a percent sign takes any run, an underscore any one
character, and a backslash lets the next character stand for itself. -/
def accepts : List Char → List Char → Bool
  | [], s => s.isEmpty
  | '%' :: p, s => anyRest (accepts p) s
  | '\\' :: c :: p, s =>
    match s with
    | d :: s => c = d && accepts p s
    | [] => false
  | '_' :: p, s =>
    match s with
    | _ :: s => accepts p s
    | [] => false
  | c :: p, s =>
    match s with
    | d :: s => c = d && accepts p s
    | [] => false

end Like

/-! ## What statements do -/

/-- The choices that the database leaves open, for each statement by its number: the order of a
random draw, and the order in which deleted rows are answered. -/
structure RowOrder where
  draw : Nat → List String → List String
  entries : Nat → List ListRow → List ListRow
  fields : Nat → List FieldRow → List FieldRow

namespace Rows

/-- Rows by rising sequence number. -/
def entriesBySeq (rows : List ListRow) : List ListRow :=
  rows.mergeSort fun a b => a.seq ≤ b.seq

def fieldsBySeq (rows : List FieldRow) : List FieldRow :=
  rows.mergeSort fun a b => a.seq ≤ b.seq

def entriesOf (r : Rows) (key : String) : List ListRow :=
  entriesBySeq (r.lists.filter (·.key = key))

def membersOf (r : Rows) (key : String) : List String :=
  (r.sets.filter (·.key = key)).map (·.member)

def fieldsOf (r : Rows) (key : String) : List FieldRow :=
  fieldsBySeq (r.fields.filter (·.key = key))

/-- Every key of the three tables, in rising order. -/
def keys (r : Rows) : List String :=
  Keyspace.sorted (r.lists.map (·.key) ++ r.sets.map (·.key) ++ r.fields.map (·.key))

/-- Write a field. -/
def writeField (key field value : String) (r : Rows) : Rows :=
  if r.fields.any fun f => f.key = key && f.field = field then
    { r with
      fields := r.fields.map fun f =>
        if f.key = key && f.field = field then { f with value } else f
      nextSeq := r.nextSeq + 1 }
  else
    { r with
      fields := r.fields ++ [{ key, field, value, seq := r.nextSeq }]
      nextSeq := r.nextSeq + 1 }

/-- Run the statement with number `n`. -/
def answer (order : RowOrder) (n : Nat) : Statement α → Rows → α × Rows
  | .createTable _, r => ((), r)
  | .listen, r => ((), r)
  | .begin, r => ((), r)
  | .commit, r => ((), r)
  | .lock _, r => ((), r)
  | .notify _, r => ((), r)
  | .countEntries key, r => ((r.entriesOf key).length, r)
  | .appendEntry key value, r =>
    ((), { r with lists := r.lists ++ [{ key, seq := r.nextSeq, value }]
                  nextSeq := r.nextSeq + 1 })
  | .popEntries key limit, r =>
    let popped := (r.entriesOf key).take limit
    (order.entries n popped, { r with lists := r.lists.filter fun e => !popped.contains e })
  | .countMembers key, r => ((r.membersOf key).length, r)
  | .addMember key member, r =>
    if r.sets.contains { key, member } then (0, r)
    else (1, { r with sets := r.sets ++ [{ key, member }] })
  | .removeMember key member, r =>
    (r.sets.count { key, member }, { r with sets := r.sets.filter (· ≠ { key, member }) })
  | .popMembers key limit, r =>
    let popped := (order.draw n (r.membersOf key)).take limit
    (popped, { r with sets := r.sets.filter fun s => !(s.key = key && popped.contains s.member) })
  | .writeField key field value, r => ((), r.writeField key field value)
  | .takeFields key, r =>
    (order.fields n (r.fieldsOf key), { r with fields := r.fields.filter (·.key ≠ key) })
  | .readFields key, r => ((r.fieldsOf key).map fun f => (f.field, f.value), r)
  | .deleteKey .lists key, r =>
    (r.lists.countP (·.key = key), { r with lists := r.lists.filter (·.key ≠ key) })
  | .deleteKey .sets key, r =>
    (r.sets.countP (·.key = key), { r with sets := r.sets.filter (·.key ≠ key) })
  | .deleteKey .fields key, r =>
    (r.fields.countP (·.key = key), { r with fields := r.fields.filter (·.key ≠ key) })
  | .findKeys pattern, r =>
    (r.keys.filter fun k => Like.accepts pattern.toList k.toList, r)

end Rows

/-- The orders of a database that draws in rising order and answers deleted rows newest
first. -/
def RowOrder.newestFirst : RowOrder where
  draw _ members := Keyspace.sorted members
  entries _ rows := (Rows.entriesBySeq rows).reverse
  fields _ rows := (Rows.fieldsBySeq rows).reverse

end ControlBus
