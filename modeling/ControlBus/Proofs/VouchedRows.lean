-- Rows that vouch for their removal. A row stays only if its coming could be announced, and what is
-- announced when it goes takes no more room.
import ControlBus.Proofs.Notices
import ControlBus.Proofs.RowLaws

namespace ControlBus

/-! ## The room that an announcement takes -/

/-- The size of a text between its quotes, in bytes. -/
def Json.escapedSize (text : String) : Nat :=
  (String.ofList (text.toList.flatMap writtenChar)).utf8ByteSize

theorem Json.escapedSize_append (a b : String) :
    escapedSize (a ++ b) = escapedSize a + escapedSize b := by
  simp [escapedSize]

theorem Envelope.size_text (e : Envelope) :
    e.text.utf8ByteSize = Json.escapedSize e.channel + Json.escapedSize e.payload + 27 := by
  have hname : (String.ofList (Json.written "channel")).utf8ByteSize = 9 := by decide
  have hpart : (String.ofList (Json.written "payload")).utf8ByteSize = 9 := by decide
  have hquoted : ∀ text : String,
      (String.ofList (Json.written text)).utf8ByteSize = Json.escapedSize text + 2 := by
    intro text
    rw [Json.written, ← List.singleton_append, String.ofList_append, String.ofList_append,
      String.utf8ByteSize_append, String.utf8ByteSize_append, Json.escapedSize]
    have hquote : (String.ofList ['"']).utf8ByteSize = 1 := by decide
    omega
  have hsplit : e.textChars = ['\x7b'] ++ (Json.written "channel" ++ ([':'] ++
      (Json.written e.channel ++ ([','] ++ (Json.written "payload" ++ ([':'] ++
        (Json.written e.payload ++ ['\x7d']))))))) := by
    simp [textChars]
  have hmarks : (String.ofList ['\x7b']).utf8ByteSize = 1 ∧ (String.ofList [':']).utf8ByteSize = 1 ∧
      (String.ofList [',']).utf8ByteSize = 1 ∧ (String.ofList ['\x7d']).utf8ByteSize = 1 := by
    decide
  obtain ⟨hopen, hcolon, hcomma, hclose⟩ := hmarks
  rw [text, hsplit]
  simp only [String.ofList_append, String.utf8ByteSize_append, hname, hpart, hquoted, hopen, hcolon,
    hcomma, hclose]
  omega

/-- What is announced when a key changes. -/
def Announcement.change (key : String) (tag : ChangeTag) : Announcement :=
  ⟨keyspaceChannel key, tag.word⟩

theorem Announcement.fits_change_iff {key : String} {tag : ChangeTag} :
    (change key tag).Fits ↔
      Json.escapedSize keyspaceStem + Json.escapedSize key + Json.escapedSize tag.word + 27 ≤
        Envelope.maxBytes := by
  rw [Fits, Envelope.size_text]
  simp only [change, envelope, keyspaceChannel, Json.escapedSize_append]

/-- A change of a key can be announced, if changes are announced at all. -/
def Passable (announcing : Bool) (key : String) (tag : ChangeTag) : Prop :=
  announcing = true → (Announcement.change key tag).Fits

variable {announcing : Bool} {key : String}

/-- A change takes no more room to announce than another one with a key and a word as large. -/
theorem Passable.mono {tag tag' : ChangeTag} {key' : String} (h : Passable announcing key tag)
    (hkey : Json.escapedSize key' ≤ Json.escapedSize key)
    (htag : Json.escapedSize tag'.word ≤ Json.escapedSize tag.word) :
    Passable announcing key' tag' := by
  intro hannouncing
  have hfits := Announcement.fits_change_iff.mp (h hannouncing)
  exact Announcement.fits_change_iff.mpr (by omega)

/-- Of all words about a key, the one about new list entries takes the most room, the one about its
removal the least, and all others the same. -/
theorem Passable.lpop (h : Passable announcing key .rpush) : Passable announcing key .lpop :=
  h.mono (Nat.le_refl _) (by decide)

theorem Passable.srem (h : Passable announcing key .sadd) : Passable announcing key .srem :=
  h.mono (Nat.le_refl _) (by decide)

theorem Passable.spop (h : Passable announcing key .sadd) : Passable announcing key .spop :=
  h.mono (Nat.le_refl _) (by decide)

theorem Passable.del {tag : ChangeTag} (h : Passable announcing key tag) :
    Passable announcing key .del :=
  h.mono (Nat.le_refl _) (by cases tag <;> decide)

/-- The visible record of a key is announced in less room than its staged fields. -/
theorem Passable.recordKey {t : TableName}
    (h : Passable announcing (t.layout.stagingKey key) .hset) :
    Passable announcing (t.layout.recordKey key) .hset := by
  refine h.mono ?_ (Nat.le_refl _)
  simp only [Layout.stagingKey, Layout.recordKey, TableName.layout, Json.escapedSize_append]
  omega

/-! ## Rows that vouch for their removal -/

namespace Rows

/-- Every row has come with an announcement that could be made. -/
structure Vouched (announcing : Bool) (r : Rows) : Prop where
  valid : r.Valid
  lists : ∀ e ∈ r.lists, Passable announcing e.key .rpush
  sets : ∀ row ∈ r.sets, Passable announcing row.key .sadd
  fields : ∀ f ∈ r.fields, Passable announcing f.key .hset

theorem vouched_empty (announcing : Bool) : Vouched announcing {} :=
  ⟨valid_empty, by simp, by simp, by simp⟩

variable {r : Rows} {order : RowOrder} {n : Nat}

theorem Vouched.appendEntry (h : r.Vouched announcing) (hkey : Passable announcing key .rpush)
    (value : String) : (answer order n (.appendEntry key value) r).2.Vouched announcing where
  valid := h.valid.appendEntry key value
  lists e he := by
    rcases List.mem_append.mp he with he | he
    · exact h.lists e he
    · rwa [List.mem_singleton.mp he]
  sets := h.sets
  fields := h.fields

theorem Vouched.popEntries (h : r.Vouched announcing) (key : String) (limit : Nat) :
    (answer order n (.popEntries key limit) r).2.Vouched announcing where
  valid := h.valid.popEntries key limit
  lists e he := h.lists e (List.mem_filter.mp he).1
  sets := h.sets
  fields := h.fields

theorem Vouched.addMember (h : r.Vouched announcing) (hkey : Passable announcing key .sadd)
    (member : String) : (answer order n (.addMember key member) r).2.Vouched announcing where
  valid := h.valid.addMember key member
  lists := by
    simp only [answer]
    split <;> exact h.lists
  sets row hrow := by
    rcases (mem_addMember key member row).mp hrow with hrow | rfl
    · exact h.sets row hrow
    · exact hkey
  fields := by
    simp only [answer]
    split <;> exact h.fields

theorem Vouched.filterSets (h : r.Vouched announcing) (p : SetRow → Bool) :
    ({ r with sets := r.sets.filter p } : Rows).Vouched announcing where
  valid := ⟨h.valid.lists, h.valid.listsOld, h.valid.sets.filter _, h.valid.fields,
    h.valid.fieldsOld, h.valid.single⟩
  lists := h.lists
  sets row hrow := h.sets row (List.mem_filter.mp hrow).1
  fields := h.fields

theorem Vouched.writeField (h : r.Vouched announcing) (hkey : Passable announcing key .hset)
    (field value : String) : (r.writeField key field value).Vouched announcing := by
  have hvalid := h.valid.writeField key field value
  rcases writeField_cases key field value r with ⟨-, heq⟩ | ⟨-, heq⟩
  · rw [heq] at hvalid ⊢
    refine ⟨hvalid, h.lists, h.sets, ?_⟩
    intro f hf
    obtain ⟨g, hg, rfl⟩ := List.mem_map.mp hf
    rw [(rewritten_frame key field value g).1]
    exact h.fields g hg
  · rw [heq] at hvalid ⊢
    refine ⟨hvalid, h.lists, h.sets, ?_⟩
    intro f hf
    rcases List.mem_append.mp hf with hf | hf
    · exact h.fields f hf
    · rwa [List.mem_singleton.mp hf]

theorem Vouched.dropFields (h : r.Vouched announcing) (key : String) :
    ({ r with fields := r.fields.filter (·.key ≠ key) } : Rows).Vouched announcing where
  valid := h.valid.dropFields key
  lists := h.lists
  sets := h.sets
  fields f hf := h.fields f (List.mem_filter.mp hf).1

theorem Vouched.dropEntries (h : r.Vouched announcing) (key : String) :
    ({ r with lists := r.lists.filter (·.key ≠ key) } : Rows).Vouched announcing where
  valid := h.valid.dropEntries key
  lists e he := h.lists e (List.mem_filter.mp he).1
  sets := h.sets
  fields := h.fields

/-! ### What the removal of a row can rely on -/

theorem Vouched.of_entriesOf (h : r.Vouched announcing) (hsome : r.entriesOf key ≠ []) :
    Passable announcing key .rpush := by
  rw [h.valid.entriesOf] at hsome
  obtain ⟨e, he⟩ := List.exists_mem_of_ne_nil _ hsome
  obtain ⟨he, hkey⟩ := List.mem_filter.mp he
  simpa [of_decide_eq_true hkey] using h.lists e he

theorem Vouched.of_membersOf (h : r.Vouched announcing) (hsome : r.membersOf key ≠ []) :
    Passable announcing key .sadd := by
  obtain ⟨member, hm⟩ := List.exists_mem_of_ne_nil _ hsome
  exact h.sets ⟨key, member⟩ (mem_membersOf.mp hm)

theorem Vouched.of_fieldsOf (h : r.Vouched announcing) (hsome : r.fieldsOf key ≠ []) :
    Passable announcing key .hset := by
  rw [h.valid.fieldsOf] at hsome
  obtain ⟨f, hf⟩ := List.exists_mem_of_ne_nil _ hsome
  obtain ⟨hf, hkey⟩ := List.mem_filter.mp hf
  simpa [of_decide_eq_true hkey] using h.fields f hf

/-- Members drawn from a set and those left in it are the members that were in it. -/
theorem Valid.perm_popMembers (h : r.Valid)
    (hdraw : ∀ members : List String, members.Nodup → (order.draw n members).Perm members)
    (key : String) (limit : Nat) :
    ((answer order n (.popMembers key limit) r).1 ++
      (answer order n (.popMembers key limit) r).2.membersOf key).Perm (r.membersOf key) := by
  have hperm := hdraw _ (h.nodup_membersOf key)
  have hpopped : (answer order n (.popMembers key limit) r).1 =
      (order.draw n (r.membersOf key)).take limit := rfl
  have hnodup : (answer order n (.popMembers key limit) r).1.Nodup := by
    rw [hpopped]
    exact (hperm.nodup_iff.mpr (h.nodup_membersOf key)).sublist (List.take_sublist ..)
  have hsub : ∀ member ∈ (answer order n (.popMembers key limit) r).1,
      member ∈ r.membersOf key := by
    rw [hpopped]
    exact fun member hin => hperm.mem_iff.mp (List.mem_of_mem_take hin)
  have hleft : ∀ member, member ∈ (answer order n (.popMembers key limit) r).2.membersOf key ↔
      member ∈ r.membersOf key ∧ member ∉ (answer order n (.popMembers key limit) r).1 := by
    intro member
    rw [mem_membersOf, mem_popMembers, mem_membersOf]
    simp only [true_and]
  have hstay := (@Valid.popMembers r order n h key limit).nodup_membersOf key
  generalize (answer order n (.popMembers key limit) r).1 = popped at hnodup hsub hleft ⊢
  generalize (answer order n (.popMembers key limit) r).2.membersOf key = left at hleft hstay ⊢
  have hboth : (popped ++ left).Nodup :=
    hnodup.append hstay fun member hin hin' => ((hleft member).mp hin').2 hin
  rw [List.perm_ext_iff_of_nodup hboth (h.nodup_membersOf key)]
  intro member
  rw [List.mem_append, hleft]
  constructor
  · rintro (hin | hin)
    · exact hsub member hin
    · exact hin.1
  · intro hin
    by_cases hm : member ∈ popped
    · exact .inl hm
    · exact .inr ⟨hin, hm⟩

end Rows

end ControlBus
