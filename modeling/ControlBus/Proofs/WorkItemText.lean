-- The text of a work item tells the whole item: whatever its key and fields hold, decoding the
-- text gives the item back.
import ControlBus.Proofs.JsonText
import ControlBus.WorkItem

namespace ControlBus.WorkItem

open Json

/-! ## The value of an item -/

def fieldJson (f : String × String) : Json := array [string (some f.1), string (some f.2)]

/-- The members of an item's text: their names, their values and the texts of these. -/
def members (item : WorkItem) : List (String × Json × List Char) :=
  [("key", string (some item.key), written item.key),
   ("operation", string (some item.operation.word), written item.operation.word),
   ("fields", array (item.fields.map fieldJson),
     '[' :: separated (item.fields.map writtenField) ++ [']'])]

theorem encodeChars_eq (item : WorkItem) :
    item.encodeChars =
      '\x7b' :: separated (item.members.map fun m => writtenMember m.1 m.2.2) ++ ['\x7d'] := by
  simp [encodeChars, members, separated, writtenMember]

/-! ## Reading it back -/

theorem reads_field (f : String × String) : Reads (fieldJson f) (writtenField f) := by
  have h := reads_array [(string (some f.1), written f.1), (string (some f.2), written f.2)]
    (by simp [reads_written])
  simpa [separated, fieldJson, writtenField] using h

theorem reads_fields (fields : FieldList) :
    Reads (array (fields.map fieldJson)) ('[' :: separated (fields.map writtenField) ++ [']']) := by
  have h := reads_array (fields.map fun f => (fieldJson f, writtenField f)) (by
    intro p hp
    obtain ⟨f, -, rfl⟩ := List.mem_map.mp hp
    exact reads_field f)
  simpa [Function.comp_def] using h

theorem reads_encodeChars (item : WorkItem) :
    Reads (object (item.members.map fun m => (some m.1, m.2.1))) item.encodeChars := by
  rw [encodeChars_eq]
  refine reads_object (by simp [members]) ?_
  intro m hm
  simp only [members, List.mem_cons, List.not_mem_nil, or_false] at hm
  rcases hm with rfl | rfl | rfl
  · exact reads_written item.key
  · exact reads_written item.operation.word
  · exact reads_fields item.fields

theorem ofWord_word (o : Operation) : Operation.ofWord? o.word = some o := by
  cases o <;> decide

theorem mapM_textPair (fields : FieldList) :
    fields.mapM (textPair? ∘ fieldJson) = some fields := by
  induction fields with
  | nil => rfl
  | cons f rest ih => simp [fieldJson, textPair?, text?, ih]

theorem ofJson_members (item : WorkItem) :
    ofJson? (object (item.members.map fun m => (some m.1, m.2.1))) = some item := by
  have hparts : (object (item.members.map fun m => (some m.1, m.2.1))).parts?
      ["key", "operation", "fields"] = some (item.members.map fun m => (m.1, m.2.1)) := by
    simp [parts?, members?, members]
  rw [ofJson?, hparts]
  simp [members, part, partOr, Assoc.get?, text?, choice?, ofWord_word, array?, mapM_textPair]

/-- The text of an item is read back as the item. -/
theorem decode_encode (item : WorkItem) : decode item.encode = some item := by
  rw [decode, encode, ofString?, String.toList_ofList, ofChars_of_reads (reads_encodeChars item)]
  exact ofJson_members item

/-! ## What the text is -/

/-- The text of an item is an object of its key, its operation and its fields, in this order. -/
theorem ofString_encode (item : WorkItem) :
    ofString? item.encode = some (object
      [(some "key", string (some item.key)),
       (some "operation", string (some item.operation.word)),
       (some "fields", array (item.fields.map fieldJson))]) := by
  rw [encode, ofString?, String.toList_ofList, ofChars_of_reads (reads_encodeChars item)]
  rfl

/-- Whatever characters its key, fields and values hold, an item is written as an object that names
all its parts, and the text is read back as the very item. So no two items have the same text, and
any other text that says an item leads to a text that says the same. -/
theorem texts_tell_items_apart :
    (∀ item : WorkItem, ofString? item.encode = some (object
      [(some "key", string (some item.key)),
       (some "operation", string (some item.operation.word)),
       (some "fields", array (item.fields.map fieldJson))])) ∧
    (∀ item : WorkItem, decode item.encode = some item) ∧
    Function.Injective encode ∧
    ∀ text item, decode text = some item → decode item.encode = decode text := by
  refine ⟨ofString_encode, decode_encode, ?_, ?_⟩
  · intro item item' hsame
    have hback := decode_encode item
    rw [hsame, decode_encode item'] at hback
    exact (Option.some.inj hback).symm
  · intro text item hsays
    rw [decode_encode, hsays]

end ControlBus.WorkItem
