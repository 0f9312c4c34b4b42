-- Store scripts: the changes that a store makes as a whole or not at all, and what they give.
import ControlBus.Assoc
import ControlBus.Error
import ControlBus.Table

namespace ControlBus

/-- A change of the store that nobody sees half done. -/
inductive Script where
  /-- Append entries to a list, then publish one payload. -/
  | pushAndPublish (list : String) (entries : List String) (channel payload : String)
  /-- Take up to `max` entries from the front of a list. -/
  | popFront (list : String) (max : Nat)
  /-- Merge fields into the staged fields of a key and mark the key pending; the token is
  published only if the key was not pending before. -/
  | stageWrite (layout : Layout) (key : String) (fields : FieldList) (token : String)
  /-- Drop the staged fields of a key, mark the key for deletion and as pending. -/
  | stageDelete (layout : Layout) (key : String) (token : String)
  /-- Take up to `max` pending keys in random order. A key marked for deletion first loses its
  visible record; then its staged fields move into the visible record. -/
  | coalescedPop (layout : Layout) (max : Nat)
  /-- Forget all pending keys, their staged fields and the marks for deletion. -/
  | coalescedClear (layout : Layout)
deriving Repr, DecidableEq

/-- The name of a script in errors. -/
def Script.name : Script → String
  | pushAndPublish .. => "list_push_and_publish"
  | popFront .. => "list_pop_front"
  | stageWrite .. => "stage_write"
  | stageDelete .. => "stage_delete"
  | coalescedPop .. => "coalesced_pop"
  | coalescedClear .. => "coalesced_clear"

/-- A popped key with its staged fields. No fields mean that the key was deleted. -/
abbrev Popped := String × FieldList

/-- What a script gives. -/
inductive Output where
  | count (n : Nat)
  | entries (entries : List String)
  | records (records : List Popped)
deriving Repr, DecidableEq

namespace Output

/-! ## The text of an output in errors -/

def listText (items : List String) : String := "[" ++ ", ".intercalate items ++ "]"

def pairText (a b : String) : String := "(" ++ a ++ ", " ++ b ++ ")"

def fieldText (f : String × String) : String := pairText (Text.quoted f.1) (Text.quoted f.2)

/-- An output by its kind and content, texts in quotes. -/
def text : Output → String
  | count n => s!"Count({n})"
  | entries es => "Entries(" ++ listText (es.map Text.quoted) ++ ")"
  | records rs =>
    "Records(" ++ listText (rs.map fun r => pairText (Text.quoted r.1)
      (listText (r.2.map fieldText))) ++ ")"

/-- The error of a script that gave another kind of output than its caller expects. -/
def unexpected (script : String) (o : Output) : BusError :=
  .scriptFailed script s!"unexpected script output: {o.text}"

/-! ## Outputs by kind -/

def toCount (script : String) : Output → Except BusError Nat
  | count n => .ok n
  | o => .error (o.unexpected script)

def toEntries (script : String) : Output → Except BusError (List String)
  | entries es => .ok es
  | o => .error (o.unexpected script)

def toRecords (script : String) : Output → Except BusError (List Popped)
  | records rs => .ok rs
  | o => .error (o.unexpected script)

end Output

end ControlBus
