-- What each statement does to the lists, sets and records that rows make up. Rows of one key are
-- read in the order of their sequence numbers, and these rise as rows come in, so the order in
-- which a database answers deleted rows does not matter.
import ControlBus.Proofs.RecordMerge
import ControlBus.Store.Relation
import Mathlib.Data.List.Nodup
import Mathlib.Data.List.Perm.Basic

namespace ControlBus

/-! ## Lists of rows -/

/-- Rows whose numbers rise are in order already. -/
theorem mergeSort_of_rising {α : Type} {seq : α → Nat} {rows : List α}
    (h : rows.Pairwise (seq · < seq ·)) : rows.mergeSort (fun a b => seq a ≤ seq b) = rows := by
  apply List.mergeSort_of_pairwise
  apply h.imp
  intro a b hab
  simpa using Nat.le_of_lt hab

theorem eq_of_rising {α : Type} {seq : α → Nat} {rows : List α}
    (h : rows.Pairwise (seq · < seq ·)) {a b : α} (ha : a ∈ rows) (hb : b ∈ rows)
    (hseq : seq a = seq b) : a = b := by
  obtain ⟨i, hi, rfl⟩ := List.getElem_of_mem ha
  obtain ⟨j, hj, rfl⟩ := List.getElem_of_mem hb
  rcases Nat.lt_trichotomy i j with hij | rfl | hij
  · exact absurd hseq (Nat.ne_of_lt (List.pairwise_iff_getElem.mp h i j hi hj hij))
  · rfl
  · exact absurd hseq.symm (Nat.ne_of_lt (List.pairwise_iff_getElem.mp h j i hj hi hij))

/-- Rows whose numbers differ have one order, however they are given. -/
theorem mergeSort_of_perm {α : Type} {seq : α → Nat} {rows given : List α}
    (h : rows.Pairwise (seq · < seq ·)) (hp : given.Perm rows) :
    given.mergeSort (fun a b => seq a ≤ seq b) = rows := by
  have hsorted : (given.mergeSort fun a b => decide (seq a ≤ seq b)).Pairwise
      fun a b => decide (seq a ≤ seq b) = true := by
    apply List.pairwise_mergeSort
    · intro a b c hab hbc
      simp only [decide_eq_true_eq] at hab hbc ⊢
      omega
    · intro a b
      simpa using Nat.le_total _ _
  have hperm : (given.mergeSort fun a b => seq a ≤ seq b).Perm rows :=
    (List.mergeSort_perm ..).trans hp
  have hrows : rows.Pairwise fun a b => decide (seq a ≤ seq b) = true := by
    apply h.imp
    intro a b hab
    simpa using Nat.le_of_lt hab
  refine hperm.eq_of_pairwise ?_ hsorted hrows
  intro a b ha hb hab hba
  have hseq : seq a = seq b := by
    simp only [decide_eq_true_eq] at hab hba
    omega
  exact eq_of_rising h (hperm.mem_iff.mp ha) hb hseq

/-- Rows in order are read as nothing just if there are none. -/
theorem map_mergeSort_eq_nil {α β : Type} {le : α → α → Bool} {f : α → β} {rows : List α} :
    (rows.mergeSort le).map f = [] ↔ rows.isEmpty = true := by
  rw [List.map_eq_nil_iff, ← List.length_eq_zero_iff, List.length_mergeSort,
    List.length_eq_zero_iff, List.isEmpty_iff]

/-- What is left of a list without repetitions once its first entries are struck off. -/
theorem filter_not_take {α : Type} [BEq α] [LawfulBEq α] {l : List α} (h : l.Nodup) (n : Nat) :
    l.filter (fun a => !(l.take n).contains a) = l.drop n := by
  have hsplit : l.take n ++ l.drop n = l := List.take_append_drop n l
  have hapart := (List.nodup_append.mp (hsplit.symm ▸ h)).2.2
  conv => lhs; arg 2; rw [← hsplit]
  rw [List.filter_append, List.filter_eq_nil_iff.mpr, List.filter_eq_self.mpr, List.nil_append]
  · intro a ha
    simp only [Bool.not_eq_true', List.contains_eq_mem, decide_eq_false_iff_not]
    intro hin
    exact hapart a hin a ha rfl
  · intro a ha
    simp [ha]

theorem nodup_of_rising {α : Type} {seq : α → Nat} {rows : List α}
    (h : rows.Pairwise (seq · < seq ·)) : rows.Nodup := by
  apply h.imp
  rintro a b hab rfl
  exact Nat.lt_irrefl _ hab

namespace Rows

/-! ## What rows make up -/

/-- The entries of a list, first to last. -/
def list (r : Rows) (key : String) : List String := (r.entriesOf key).map (·.value)

/-- The fields of a record in the order in which they were first written. -/
def record (r : Rows) (key : String) : Record := (r.fieldsOf key).map fun f => (f.field, f.value)

/-- Rows as statements leave them: numbers rise, and no member or field is there twice. -/
structure Valid (r : Rows) : Prop where
  lists : r.lists.Pairwise (·.seq < ·.seq)
  listsOld : ∀ e ∈ r.lists, e.seq < r.nextSeq
  sets : r.sets.Nodup
  fields : r.fields.Pairwise (·.seq < ·.seq)
  fieldsOld : ∀ f ∈ r.fields, f.seq < r.nextSeq
  single : r.fields.Pairwise fun f g => ¬ (f.key = g.key ∧ f.field = g.field)

theorem valid_empty : Valid {} := ⟨.nil, by simp, .nil, .nil, by simp, .nil⟩

variable {r : Rows} {order : RowOrder} {n : Nat}

theorem Valid.entriesOf (h : r.Valid) (key : String) :
    r.entriesOf key = r.lists.filter (·.key = key) := mergeSort_of_rising (h.lists.filter _)

theorem Valid.fieldsOf (h : r.Valid) (key : String) :
    r.fieldsOf key = r.fields.filter (·.key = key) := mergeSort_of_rising (h.fields.filter _)

theorem mem_membersOf {key member : String} :
    member ∈ r.membersOf key ↔ { key, member } ∈ r.sets := by
  simp only [membersOf, List.mem_map, List.mem_filter, decide_eq_true_eq]
  constructor
  · rintro ⟨⟨key, member⟩, ⟨hrow, rfl⟩, rfl⟩
    exact hrow
  · intro hrow
    exact ⟨_, ⟨hrow, rfl⟩, rfl⟩

theorem Valid.nodup_membersOf (h : r.Valid) (key : String) : (r.membersOf key).Nodup := by
  refine (h.sets.filter _).map_on ?_
  rintro ⟨k, m⟩ hrow ⟨k', m'⟩ hrow' hm
  simp only [List.mem_filter, decide_eq_true_eq] at hrow hrow' hm
  rw [hrow.2, hrow'.2, hm]

/-! ## Lists -/

theorem list_congr {r' : Rows} (h : r'.lists = r.lists) (j : String) : r'.list j = r.list j := by
  unfold list entriesOf
  rw [h]

theorem record_congr {r' : Rows} (h : r'.fields = r.fields) (j : String) :
    r'.record j = r.record j := by
  unfold record fieldsOf
  rw [h]

theorem Valid.appendEntry (h : r.Valid) (key value : String) :
    (answer order n (.appendEntry key value) r).2.Valid := by
  refine ⟨?_, ?_, h.sets, h.fields, ?_, h.single⟩
  · simp only [answer]
    rw [List.pairwise_append]
    refine ⟨h.lists, List.pairwise_singleton .., ?_⟩
    intro e he e' he'
    rw [List.mem_singleton.mp he']
    exact h.listsOld e he
  · intro e he
    simp only [answer, List.mem_append, List.mem_singleton] at he ⊢
    rcases he with he | rfl
    · exact Nat.lt_succ_of_lt (h.listsOld e he)
    · exact Nat.lt_succ_self _
  · intro f hf
    exact Nat.lt_succ_of_lt (h.fieldsOld f hf)

theorem list_appendEntry (h : r.Valid) (key value j : String) :
    (answer order n (.appendEntry key value) r).2.list j =
      if key = j then r.list j ++ [value] else r.list j := by
  unfold list
  rw [(h.appendEntry key value).entriesOf, h.entriesOf]
  simp only [answer, List.filter_append, List.map_append]
  by_cases hj : key = j
  · simp [hj]
  · simp [hj]

theorem Valid.popEntries (h : r.Valid) (key : String) (limit : Nat) :
    (answer order n (.popEntries key limit) r).2.Valid where
  lists := h.lists.filter _
  listsOld e he := h.listsOld e (List.mem_filter.mp he).1
  sets := h.sets
  fields := h.fields
  fieldsOld := h.fieldsOld
  single := h.single

theorem list_popEntries (h : r.Valid) (key : String) (limit : Nat) (j : String) :
    (answer order n (.popEntries key limit) r).2.list j =
      if key = j then (r.list j).drop limit else r.list j := by
  unfold list
  rw [(h.popEntries key limit).entriesOf, h.entriesOf]
  simp only [answer, h.entriesOf]
  rw [List.filter_comm]
  by_cases hj : key = j
  · subst hj
    rw [filter_not_take (nodup_of_rising (h.lists.filter _)), if_pos rfl, List.map_drop]
  · rw [if_neg hj, List.filter_eq_self.mpr]
    intro e he
    simp only [Bool.not_eq_true', List.contains_eq_mem, decide_eq_false_iff_not]
    intro hin
    have hkey := (List.mem_filter.mp (List.mem_of_mem_take hin)).2
    have hkey' := (List.mem_filter.mp he).2
    simp only [decide_eq_true_eq] at hkey hkey'
    exact hj (hkey.symm.trans hkey')

/-- However the deleted entries are answered, in order they are the first entries of the list. -/
theorem popEntries_answer (h : r.Valid) (key : String) (limit : Nat)
    (horder : ∀ rows, (order.entries n rows).Perm rows) :
    (entriesBySeq (answer order n (.popEntries key limit) r).1).map (·.value) =
      (r.list key).take limit := by
  have hrising : ((r.entriesOf key).take limit).Pairwise (·.seq < ·.seq) := by
    rw [h.entriesOf]
    exact (h.lists.filter _).sublist (List.take_sublist ..)
  rw [list, ← List.map_take]
  congr 1
  exact mergeSort_of_perm hrising (horder _)

/-! ## Sets -/

theorem Valid.addMember (h : r.Valid) (key member : String) :
    (answer order n (.addMember key member) r).2.Valid := by
  simp only [answer]
  split
  · exact h
  · rename_i hnew
    refine ⟨h.lists, h.listsOld, ?_, h.fields, h.fieldsOld, h.single⟩
    rw [List.nodup_append]
    refine ⟨h.sets, List.nodup_singleton _, ?_⟩
    intro row hrow row' hrow' heq
    rw [heq, List.mem_singleton.mp hrow'] at hrow
    exact hnew (by simpa using hrow)

theorem mem_addMember (key member : String) (row : SetRow) :
    row ∈ (answer order n (.addMember key member) r).2.sets ↔
      row ∈ r.sets ∨ row = { key, member } := by
  simp only [answer]
  split
  · rename_i hin
    have hin : { key, member } ∈ r.sets := by simpa using hin
    constructor
    · exact Or.inl
    · rintro (hrow | rfl)
      · exact hrow
      · exact hin
  · simp

theorem Valid.removeMember (h : r.Valid) (key member : String) :
    (answer order n (.removeMember key member) r).2.Valid :=
  ⟨h.lists, h.listsOld, h.sets.filter _, h.fields, h.fieldsOld, h.single⟩

theorem mem_removeMember (key member : String) (row : SetRow) :
    row ∈ (answer order n (.removeMember key member) r).2.sets ↔
      row ∈ r.sets ∧ row ≠ { key, member } := by
  simp [answer]

theorem Valid.popMembers (h : r.Valid) (key : String) (limit : Nat) :
    (answer order n (.popMembers key limit) r).2.Valid :=
  ⟨h.lists, h.listsOld, h.sets.filter _, h.fields, h.fieldsOld, h.single⟩

theorem mem_popMembers (key : String) (limit : Nat) (row : SetRow) :
    row ∈ (answer order n (.popMembers key limit) r).2.sets ↔
      row ∈ r.sets ∧
        ¬ (row.key = key ∧ row.member ∈ (answer order n (.popMembers key limit) r).1) := by
  simp only [answer, List.mem_filter, Bool.not_eq_true', Bool.and_eq_false_iff,
    decide_eq_false_iff_not, List.contains_eq_mem, not_and_or]

/-! ## Records -/

/-- The fields of a key among some rows. -/
def fieldsAmong (rows : List FieldRow) (key : String) : Record :=
  (rows.filter (·.key = key)).map fun f => (f.field, f.value)

theorem Valid.record (h : r.Valid) (key : String) : r.record key = fieldsAmong r.fields key := by
  rw [Rows.record, h.fieldsOf, fieldsAmong]

/-- A row with a new value, if it is the one of this field. -/
def rewritten (key field value : String) (f : FieldRow) : FieldRow :=
  if f.key = key && f.field = field then { f with value } else f

theorem rewritten_frame (key field value : String) (f : FieldRow) :
    (rewritten key field value f).key = f.key ∧ (rewritten key field value f).field = f.field ∧
      (rewritten key field value f).seq = f.seq := by
  unfold rewritten
  split <;> simp

theorem rewritten_of_ne {key field value : String} {f : FieldRow}
    (h : ¬ (f.key = key ∧ f.field = field)) : rewritten key field value f = f := by
  unfold rewritten
  rw [if_neg]
  simpa using h

theorem fieldsAmong_rewritten_of_ne {key j : String} (hj : key ≠ j) (field value : String)
    (rows : List FieldRow) :
    fieldsAmong (rows.map (rewritten key field value)) j = fieldsAmong rows j := by
  induction rows with
  | nil => rfl
  | cons f rest ih =>
    unfold fieldsAmong at ih ⊢
    rw [List.map_cons, List.filter_cons, List.filter_cons, (rewritten_frame key field value f).1]
    by_cases hf : f.key = j
    · have hother : rewritten key field value f = f :=
        rewritten_of_ne fun hkey => hj (hkey.1.symm.trans hf)
      simp [hf, hother, ih]
    · simp [hf, ih]

theorem put_of_not_mem {key : String} {field : String} {rows : List FieldRow}
    (h : ∀ f ∈ rows, ¬ (f.key = key ∧ f.field = field)) (value : String) :
    Assoc.put (fieldsAmong rows key) field value = fieldsAmong rows key ++ [(field, value)] := by
  induction rows with
  | nil => rfl
  | cons f rest ih =>
    have hrest := ih fun g hg => h g (List.mem_cons_of_mem f hg)
    unfold fieldsAmong at hrest ⊢
    rw [List.filter_cons]
    by_cases hf : f.key = key
    · have hfield : f.field ≠ field := fun hfield => h f List.mem_cons_self ⟨hf, hfield⟩
      simp [hf, Assoc.put, hfield, hrest]
    · simp [hf, hrest]

theorem put_of_mem {key field : String} {rows : List FieldRow}
    (hsingle : rows.Pairwise fun f g => ¬ (f.key = g.key ∧ f.field = g.field))
    (h : ∃ f ∈ rows, f.key = key ∧ f.field = field) (value : String) :
    Assoc.put (fieldsAmong rows key) field value =
      fieldsAmong (rows.map (rewritten key field value)) key := by
  induction rows with
  | nil => simp at h
  | cons f rest ih =>
    obtain ⟨hfirst, hrest⟩ := List.pairwise_cons.mp hsingle
    unfold fieldsAmong at ih ⊢
    rw [List.map_cons, List.filter_cons, List.filter_cons, (rewritten_frame key field value f).1]
    by_cases hf : f.key = key ∧ f.field = field
    · obtain ⟨rfl, rfl⟩ := hf
      have hsame : rest.map (rewritten f.key f.field value) = rest := by
        apply (List.map_congr_left ?_).trans (List.map_id rest)
        intro g hg
        apply rewritten_of_ne
        intro hgf
        exact hfirst g hg ⟨hgf.1.symm, hgf.2.symm⟩
      simp [hsame, Assoc.put, rewritten]
    · have hin : ∃ g ∈ rest, g.key = key ∧ g.field = field := by
        obtain ⟨g, hg, hgf⟩ := h
        rcases List.mem_cons.mp hg with rfl | hg
        · exact absurd hgf hf
        · exact ⟨g, hg, hgf⟩
      have hput := ih hrest hin
      rw [rewritten_of_ne hf]
      by_cases hkey : f.key = key
      · have hfield : f.field ≠ field := fun hfield => hf ⟨hkey, hfield⟩
        simp [hkey, Assoc.put, hfield, hput]
      · simp [hkey, hput]

theorem writeField_cases (key field value : String) (r : Rows) :
    ((∃ f ∈ r.fields, f.key = key ∧ f.field = field) ∧ r.writeField key field value =
      { r with fields := r.fields.map (rewritten key field value), nextSeq := r.nextSeq + 1 }) ∨
    ((∀ f ∈ r.fields, ¬ (f.key = key ∧ f.field = field)) ∧ r.writeField key field value =
      { r with
        fields := r.fields ++ [{ key, field, value, seq := r.nextSeq }]
        nextSeq := r.nextSeq + 1 }) := by
  unfold writeField
  split
  · rename_i hany
    left
    refine ⟨?_, rfl⟩
    simpa using hany
  · rename_i hany
    right
    refine ⟨?_, rfl⟩
    simpa using hany

theorem Valid.writeField (h : r.Valid) (key field value : String) :
    (r.writeField key field value).Valid := by
  have hlists : ∀ e ∈ r.lists, e.seq < r.nextSeq + 1 := fun e he =>
    Nat.lt_succ_of_lt (h.listsOld e he)
  rcases writeField_cases key field value r with ⟨-, heq⟩ | ⟨hnew, heq⟩
  · rw [heq]
    refine ⟨h.lists, hlists, h.sets, ?_, ?_, ?_⟩
    · rw [List.pairwise_map]
      simpa [rewritten_frame] using h.fields
    · intro f hf
      obtain ⟨g, hg, rfl⟩ := List.mem_map.mp hf
      rw [(rewritten_frame key field value g).2.2]
      exact Nat.lt_succ_of_lt (h.fieldsOld g hg)
    · rw [List.pairwise_map]
      simpa [rewritten_frame] using h.single
  · rw [heq]
    refine ⟨h.lists, hlists, h.sets, ?_, ?_, ?_⟩
    · rw [List.pairwise_append]
      refine ⟨h.fields, List.pairwise_singleton .., ?_⟩
      intro f hf g hg
      rw [List.mem_singleton.mp hg]
      exact h.fieldsOld f hf
    · intro f hf
      rcases List.mem_append.mp hf with hf | hf
      · exact Nat.lt_succ_of_lt (h.fieldsOld f hf)
      · rw [List.mem_singleton.mp hf]
        exact Nat.lt_succ_self _
    · rw [List.pairwise_append]
      refine ⟨h.single, List.pairwise_singleton .., ?_⟩
      intro f hf g hg
      rw [List.mem_singleton.mp hg]
      exact hnew f hf

theorem record_writeField (h : r.Valid) (key field value j : String) :
    (r.writeField key field value).record j =
      if key = j then Assoc.put (r.record j) field value else r.record j := by
  rw [(h.writeField key field value).record, h.record]
  rcases writeField_cases key field value r with ⟨hin, heq⟩ | ⟨hnew, heq⟩
  · rw [heq]
    by_cases hj : key = j
    · subst hj
      rw [if_pos rfl, put_of_mem h.single hin]
    · rw [if_neg hj, fieldsAmong_rewritten_of_ne hj]
  · rw [heq]
    by_cases hj : key = j
    · subst hj
      rw [if_pos rfl, put_of_not_mem hnew]
      simp [fieldsAmong]
    · simp [fieldsAmong, hj]

theorem Valid.dropFields (h : r.Valid) (key : String) :
    ({ r with fields := r.fields.filter (·.key ≠ key) } : Rows).Valid where
  lists := h.lists
  listsOld := h.listsOld
  sets := h.sets
  fields := h.fields.filter _
  fieldsOld f hf := h.fieldsOld f (List.mem_filter.mp hf).1
  single := h.single.filter _

theorem record_dropFields (h : r.Valid) (key j : String) :
    ({ r with fields := r.fields.filter (·.key ≠ key) } : Rows).record j =
      if key = j then [] else r.record j := by
  rw [(h.dropFields key).record, h.record, fieldsAmong, fieldsAmong, List.filter_comm]
  by_cases hj : key = j
  · subst hj
    rw [if_pos rfl, List.map_eq_nil_iff, List.filter_filter, List.filter_eq_nil_iff]
    simp
  · rw [if_neg hj, List.filter_eq_self.mpr]
    intro f hf
    have hkey : f.key = j := by simpa using (List.mem_filter.mp hf).2
    simpa [hkey] using Ne.symm hj

/-- However the deleted fields are answered, in order they are the record. -/
theorem takeFields_answer (h : r.Valid) (key : String)
    (horder : ∀ rows, (order.fields n rows).Perm rows) :
    (fieldsBySeq (answer order n (.takeFields key) r).1).map (fun f => (f.field, f.value)) =
      r.record key := by
  have hrising : (r.fieldsOf key).Pairwise (·.seq < ·.seq) := by
    rw [h.fieldsOf]
    exact h.fields.filter _
  rw [Rows.record]
  congr 1
  exact mergeSort_of_perm hrising (horder _)

/-! ## Removal of a key of any kind -/

theorem Valid.dropEntries (h : r.Valid) (key : String) :
    ({ r with lists := r.lists.filter (·.key ≠ key) } : Rows).Valid where
  lists := h.lists.filter _
  listsOld e he := h.listsOld e (List.mem_filter.mp he).1
  sets := h.sets
  fields := h.fields
  fieldsOld := h.fieldsOld
  single := h.single

theorem list_dropEntries (h : r.Valid) (key j : String) :
    ({ r with lists := r.lists.filter (·.key ≠ key) } : Rows).list j =
      if key = j then [] else r.list j := by
  rw [list, list, (h.dropEntries key).entriesOf, h.entriesOf, List.filter_comm]
  by_cases hj : key = j
  · subst hj
    rw [if_pos rfl, List.map_eq_nil_iff, List.filter_filter, List.filter_eq_nil_iff]
    simp
  · rw [if_neg hj, List.filter_eq_self.mpr]
    intro e he
    have hkey : e.key = j := by simpa using (List.mem_filter.mp he).2
    simpa [hkey] using Ne.symm hj

theorem Valid.dropMembers (h : r.Valid) (key : String) :
    ({ r with sets := r.sets.filter (·.key ≠ key) } : Rows).Valid :=
  ⟨h.lists, h.listsOld, h.sets.filter _, h.fields, h.fieldsOld, h.single⟩

theorem countP_lists (h : r.Valid) (key : String) :
    r.lists.countP (·.key = key) = (r.list key).length := by
  rw [list, h.entriesOf, List.length_map, List.countP_eq_length_filter]

theorem countP_sets (r : Rows) (key : String) :
    r.sets.countP (·.key = key) = (r.membersOf key).length := by
  rw [membersOf, List.length_map, List.countP_eq_length_filter]

theorem countP_fields (h : r.Valid) (key : String) :
    r.fields.countP (·.key = key) = (r.record key).length := by
  rw [h.record, fieldsAmong, List.length_map, List.countP_eq_length_filter]

end Rows

end ControlBus
