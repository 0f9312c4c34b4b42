-- The store in a database against the store in memory, step by step. While rows picture the
-- contents in memory and what was issued is the same, each step of an operation on rows has the
-- result of its counterpart in memory, and leaves it so.
import ControlBus.Proofs.KeyStates
import ControlBus.Proofs.Notices
import ControlBus.Proofs.RowLaws
import ControlBus.Proofs.Transactions

namespace ControlBus

/-! ## Contents without empty containers -/

namespace Keyspace

/-- Stored sets are in order, and no stored container is empty. -/
structure Tidy (k : Keyspace) : Prop where
  sets : k.SetsValid
  lists : ∀ key, Assoc.get? k.lists key ≠ some []
  members : ∀ key x, Assoc.get? k.sets key = some x → x.members ≠ []
  records : ∀ key, Assoc.get? k.records key ≠ some []

variable {k : Keyspace}

/-- A touch only owes an announcement. -/
theorem touch_cases (key : String) (tag : ChangeTag) (k : Keyspace) :
    ∃ owed, k.touch key tag = { k with outbox := k.outbox ++ owed } := by
  unfold touch
  split
  · exact ⟨_, rfl⟩
  · exact ⟨[], by simp⟩

theorem Tidy.withList (h : k.Tidy) (key : String) (entries : List String) :
    (k.withList key entries).Tidy := by
  refine ⟨h.sets, ?_, h.members, h.records⟩
  intro j
  unfold Keyspace.withList
  by_cases he : entries.isEmpty
  · simp only [he, if_true, Assoc.get?_erase]
    split
    · simp
    · exact h.lists j
  · simp only [he, Bool.false_eq_true, if_false, Assoc.get?_put]
    split
    · simpa using he
    · exact h.lists j

theorem Tidy.withSet (h : k.Tidy) (key : String) {x : RandomSet} (hx : x.Valid) :
    (k.withSet key x).Tidy := by
  refine ⟨h.sets.withSet key hx, h.lists, ?_, h.records⟩
  intro j y hy
  unfold Keyspace.withSet at hy
  by_cases he : x.isEmpty
  · simp only [he, if_true, Assoc.get?_erase] at hy
    split at hy
    · cases hy
    · exact h.members j y hy
  · simp only [he, Bool.false_eq_true, if_false, Assoc.get?_put] at hy
    split at hy
    · cases hy
      simpa [RandomSet.isEmpty] using he
    · exact h.members j y hy

/-- Put a record under a key. -/
def withRecord (key : String) (fields : Record) (k : Keyspace) : Keyspace :=
  { k with records := Assoc.put k.records key fields }

theorem record_withRecord (key : String) (fields : Record) (j : String) :
    (k.withRecord key fields).record j = if key = j then fields else k.record j := by
  simp only [withRecord, record, Assoc.get?_put]
  split <;> rfl

theorem withRecord_withRecord (key : String) (a b : Record) :
    (k.withRecord key a).withRecord key b = k.withRecord key b := by
  simp only [withRecord, Assoc.put_put_self]

theorem Tidy.withRecord (h : k.Tidy) (key : String) {fields : Record} (hf : fields ≠ []) :
    (k.withRecord key fields).Tidy := by
  refine ⟨h.sets, h.lists, h.members, ?_⟩
  intro j
  simp only [Keyspace.withRecord, Assoc.get?_put]
  split
  · simpa using hf
  · exact h.records j

def withoutList (key : String) (k : Keyspace) : Keyspace :=
  { k with lists := Assoc.erase k.lists key }

def withoutSet (key : String) (k : Keyspace) : Keyspace :=
  { k with sets := Assoc.erase k.sets key }

def withoutRecord (key : String) (k : Keyspace) : Keyspace :=
  { k with records := Assoc.erase k.records key }

theorem list_withoutList (key j : String) :
    (k.withoutList key).list j = if key = j then [] else k.list j := by
  simp only [withoutList, list, Assoc.get?_erase]
  split <;> rfl

theorem members_withoutSet (key j : String) :
    (k.withoutSet key).members j = if key = j then [] else k.members j := by
  simp only [withoutSet, members, set, Assoc.get?_erase]
  split <;> rfl

theorem record_withoutRecord (key j : String) :
    (k.withoutRecord key).record j = if key = j then [] else k.record j := by
  simp only [withoutRecord, record, Assoc.get?_erase]
  split <;> rfl

theorem Tidy.withoutList (h : k.Tidy) (key : String) : (k.withoutList key).Tidy := by
  refine ⟨h.sets, ?_, h.members, h.records⟩
  intro j
  simp only [Keyspace.withoutList, Assoc.get?_erase]
  split
  · simp
  · exact h.lists j

theorem Tidy.withoutSet (h : k.Tidy) (key : String) : (k.withoutSet key).Tidy := by
  refine ⟨?_, h.lists, ?_, h.records⟩
  · intro j
    simp only [Keyspace.withoutSet, set, Assoc.get?_erase]
    split
    · exact RandomSet.valid_empty
    · exact h.sets j
  · intro j x hx
    simp only [Keyspace.withoutSet, Assoc.get?_erase] at hx
    split at hx
    · cases hx
    · exact h.members j x hx

theorem Tidy.withoutRecord (h : k.Tidy) (key : String) : (k.withoutRecord key).Tidy := by
  refine ⟨h.sets, h.lists, h.members, ?_⟩
  intro j
  simp only [Keyspace.withoutRecord, Assoc.get?_erase]
  split
  · simp
  · exact h.records j

/-- A key holds something just if one of its containers is not empty. -/
theorem Tidy.holds_iff (h : k.Tidy) (key : String) :
    k.holds key = true ↔ k.list key ≠ [] ∨ k.members key ≠ [] ∨ k.record key ≠ [] := by
  have hlists := h.lists key
  have hmembers := h.members key
  have hrecords := h.records key
  simp only [holds, Assoc.has, list, Keyspace.members, set, record, Bool.or_eq_true]
  cases hl : Assoc.get? k.lists key <;> cases hs : Assoc.get? k.sets key <;>
    cases hr : Assoc.get? k.records key <;> grind

end Keyspace

/-- A database that answers just the rows that it deletes, in any order. -/
structure RowOrder.Orderly (order : RowOrder) : Prop where
  entries : ∀ n rows, (order.entries n rows).Perm rows
  fields : ∀ n rows, (order.fields n rows).Perm rows

/-! ## Rows that picture contents -/

/-- The rows hold the same lists, sets and records as the contents in memory. -/
structure Pictures (k : Keyspace) (r : Rows) : Prop where
  tidy : k.Tidy
  valid : r.Valid
  lists : ∀ key, r.list key = k.list key
  members : ∀ key m, { key, member := m } ∈ r.sets ↔ m ∈ k.members key
  records : ∀ key, r.record key = k.record key

namespace Pictures

variable {k : Keyspace} {r : Rows} {order : RowOrder} {n : Nat}

/-- What is announced does not show in the contents. -/
theorem owing (h : Pictures k r) (outbox : List Announcement) : Pictures { k with outbox } r :=
  ⟨⟨h.tidy.sets, h.tidy.lists, h.tidy.members, h.tidy.records⟩, h.valid, h.lists, h.members,
    h.records⟩

/-- Only what is stored counts, not how. -/
theorem congr (h : Pictures k r) {k' : Keyspace} (ht : k'.Tidy)
    (hlists : ∀ key, k'.list key = k.list key) (hmembers : ∀ key, k'.members key = k.members key)
    (hrecords : ∀ key, k'.record key = k.record key) : Pictures k' r where
  tidy := ht
  valid := h.valid
  lists key := (h.lists key).trans (hlists key).symm
  members key m := by
    rw [hmembers]
    exact h.members key m
  records key := (h.records key).trans (hrecords key).symm

/-- To write a list as it is changes nothing. -/
theorem of_withList {key : String} (h : Pictures (k.withList key (k.list key)) r) (ht : k.Tidy) :
    Pictures k r := by
  refine h.congr ht ?_ (fun _ => rfl) (fun _ => rfl)
  intro j
  rw [Keyspace.list_withList]
  split
  · rename_i hj
    rw [hj]
  · rfl

/-- To write a set as it is changes nothing. -/
theorem of_withSet {key : String} (h : Pictures (k.withSet key (k.set key)) r) (ht : k.Tidy) :
    Pictures k r := by
  refine h.congr ht (fun _ => rfl) ?_ (fun _ => rfl)
  intro j
  rw [Keyspace.members_withSet]
  split
  · rename_i hj
    rw [← hj]
    rfl
  · rfl

/-- To remove a list without entries changes nothing. -/
theorem of_withoutList {key : String} (h : Pictures (k.withoutList key) r) (ht : k.Tidy)
    (hnone : k.list key = []) : Pictures k r := by
  refine h.congr ht ?_ (fun _ => rfl) (fun _ => rfl)
  intro j
  rw [Keyspace.list_withoutList]
  split
  · rename_i hj
    rw [← hj, hnone]
  · rfl

/-- To remove a set without members changes nothing. -/
theorem of_withoutSet {key : String} (h : Pictures (k.withoutSet key) r) (ht : k.Tidy)
    (hnone : k.members key = []) : Pictures k r := by
  refine h.congr ht (fun _ => rfl) ?_ (fun _ => rfl)
  intro j
  rw [Keyspace.members_withoutSet]
  split
  · rename_i hj
    rw [← hj, hnone]
  · rfl

/-- To remove a record without fields changes nothing. -/
theorem of_withoutRecord {key : String} (h : Pictures (k.withoutRecord key) r) (ht : k.Tidy)
    (hnone : k.record key = []) : Pictures k r := by
  refine h.congr ht (fun _ => rfl) (fun _ => rfl) ?_
  intro j
  rw [Keyspace.record_withoutRecord]
  split
  · rename_i hj
    rw [← hj, hnone]
  · rfl

theorem perm_membersOf (h : Pictures k r) (key : String) :
    (r.membersOf key).Perm (k.members key) := by
  rw [List.perm_ext_iff_of_nodup (h.valid.nodup_membersOf key) (h.tidy.sets.nodup key)]
  intro m
  rw [Rows.mem_membersOf]
  exact h.members key m

theorem appendEntry (h : Pictures k r) (key entry : String) :
    Pictures (k.withList key (k.list key ++ [entry]))
      (Rows.answer order n (.appendEntry key entry) r).2 where
  tidy := h.tidy.withList key _
  valid := h.valid.appendEntry key entry
  lists j := by
    rw [Rows.list_appendEntry h.valid, Keyspace.list_withList, h.lists]
    by_cases hj : key = j
    · simp [hj]
    · simp [hj]
  members := h.members
  records := h.records

theorem popEntries (h : Pictures k r) (key : String) (limit : Nat) :
    Pictures (k.withList key ((k.list key).drop limit))
      (Rows.answer order n (.popEntries key limit) r).2 where
  tidy := h.tidy.withList key _
  valid := h.valid.popEntries key limit
  lists j := by
    rw [Rows.list_popEntries h.valid, Keyspace.list_withList, h.lists]
    by_cases hj : key = j
    · simp [hj]
    · simp [hj]
  members := h.members
  records := h.records

/-- A change of one set, by its members. -/
theorem changeSet (h : Pictures k r) (key : String) {x : RandomSet} (hx : x.Valid) {r' : Rows}
    (hr : r'.Valid) (hlists : r'.lists = r.lists) (hfields : r'.fields = r.fields)
    (hothers : ∀ row, row.key ≠ key → (row ∈ r'.sets ↔ row ∈ r.sets))
    (hmembers : ∀ m, { key, member := m } ∈ r'.sets ↔ m ∈ x.members) :
    Pictures (k.withSet key x) r' where
  tidy := h.tidy.withSet key hx
  valid := hr
  lists j := (Rows.list_congr hlists j).trans (h.lists j)
  members j m := by
    rw [Keyspace.members_withSet]
    by_cases hj : key = j
    · subst hj
      rw [if_pos rfl]
      exact hmembers m
    · rw [if_neg hj, hothers _ (Ne.symm hj)]
      exact h.members j m
  records j := (Rows.record_congr hfields j).trans (h.records j)

theorem addMember (h : Pictures k r) (key m : String) :
    Pictures (k.withSet key ((k.set key).insert m).2)
      (Rows.answer order n (.addMember key m) r).2 := by
  refine h.changeSet key (RandomSet.valid_insert (h.tidy.sets key) m) (h.valid.addMember key m)
    ?_ ?_ ?_ ?_
  · simp only [Rows.answer]
    split <;> rfl
  · simp only [Rows.answer]
    split <;> rfl
  · intro row hrow
    rw [Rows.mem_addMember]
    constructor
    · rintro (h | rfl)
      · exact h
      · exact absurd rfl hrow
    · exact Or.inl
  · intro m'
    rw [Rows.mem_addMember, h.members, Keyspace.members,
      RandomSet.members_insert (h.tidy.sets key)]
    split
    · rename_i hm
      constructor
      · rintro (h | heq)
        · exact h
        · cases heq
          exact hm
      · exact Or.inl
    · simp

theorem removeMember (h : Pictures k r) (key m : String) :
    Pictures (k.withSet key ((k.set key).remove m).2)
      (Rows.answer order n (.removeMember key m) r).2 := by
  refine h.changeSet key (RandomSet.valid_remove (h.tidy.sets key) m) (h.valid.removeMember key m)
    rfl rfl ?_ ?_
  · intro row hrow
    rw [Rows.mem_removeMember]
    constructor
    · exact And.left
    · intro h
      exact ⟨h, fun heq => hrow (heq ▸ rfl)⟩
  · intro m'
    rw [Rows.mem_removeMember, h.members, RandomSet.mem_remove (h.tidy.sets key)]
    simp [Keyspace.members]

theorem writeField (h : Pictures k r) (key field value : String) :
    Pictures (k.withRecord key (Assoc.put (k.record key) field value))
      (r.writeField key field value) where
  tidy := h.tidy.withRecord key (Assoc.put_ne_nil _ _ _)
  valid := h.valid.writeField key field value
  lists j := by
    refine (Rows.list_congr ?_ j).trans (h.lists j)
    rcases Rows.writeField_cases key field value r with ⟨-, heq⟩ | ⟨-, heq⟩ <;> rw [heq]
  members j m := by
    have hsets : (r.writeField key field value).sets = r.sets := by
      rcases Rows.writeField_cases key field value r with ⟨-, heq⟩ | ⟨-, heq⟩ <;> rw [heq]
    rw [hsets]
    exact h.members j m
  records j := by
    rw [Rows.record_writeField h.valid, h.records, Keyspace.record_withRecord]
    by_cases hj : key = j
    · simp [hj]
    · simp [hj]

theorem dropFields (h : Pictures k r) (key : String) :
    Pictures (k.withoutRecord key) { r with fields := r.fields.filter (·.key ≠ key) } where
  tidy := h.tidy.withoutRecord key
  valid := h.valid.dropFields key
  lists := h.lists
  members := h.members
  records j := by
    refine (Rows.record_dropFields h.valid key j).trans ?_
    rw [h.records, Keyspace.record_withoutRecord]

theorem dropEntries (h : Pictures k r) (key : String) :
    Pictures (k.withoutList key) { r with lists := r.lists.filter (·.key ≠ key) } where
  tidy := h.tidy.withoutList key
  valid := h.valid.dropEntries key
  lists j := by
    refine (Rows.list_dropEntries h.valid key j).trans ?_
    rw [h.lists, Keyspace.list_withoutList]
  members := h.members
  records := h.records

theorem dropMembers (h : Pictures k r) (key : String) :
    Pictures (k.withoutSet key) { r with sets := r.sets.filter (·.key ≠ key) } where
  tidy := h.tidy.withoutSet key
  valid := h.valid.dropMembers key
  lists := h.lists
  members j m := by
    have hsame := h.members j m
    simp only [List.mem_filter, Keyspace.members_withoutSet]
    by_cases hj : key = j
    · simp [hj]
    · simpa [hj, Ne.symm hj] using hsame
  records := h.records

end Pictures

/-! ## Steps -/

/-- The store pictures the contents, and it has issued what was owed before and what the contents
owe. No statement of it is refused. -/
structure Mirrors (before : List Announcement) (k : Keyspace) (s : RelationalStore) : Prop where
  contents : Pictures k s.working
  faultless : s.faults = []
  orderly : s.order.Orderly
  announcing : s.announcing = k.announcing
  issued : s.issued = before ++ k.outbox

namespace RelationalStore

/-- The store after a statement of the open transaction that was not refused. -/
def sent {α : Type} (st : Statement α) (s : RelationalStore) : RelationalStore :=
  { s.noted st with working := (s.answered st).2 }

theorem issued_noted {α : Type} (st : Statement α) (s : RelationalStore) :
    (s.noted st).issued = s.issued ++ (Sent.mk st.sql st.bound).announcement?.toList := by
  cases h : (Sent.mk st.sql st.bound).announcement? <;> simp [issued, noted, h]

end RelationalStore

open RelationalStore

variable {α β : Type} {k k' : Keyspace} {s : RelationalStore} {before : List Announcement}

namespace Mirrors

theorem run_send (h : Mirrors before k s) (st : Statement α) :
    (send st).run s = (.ok (s.answered st).1, s.sent st) := by
  rw [RelationalStore.run_send, h.faultless]
  rfl

/-- A statement that sends no notification changes the rows only. -/
theorem sent (h : Mirrors before k s) {st : Statement α} (hq : st.notifies = false)
    (hc : Pictures k' (s.answered st).2) (ha : k'.announcing = k.announcing)
    (ho : k'.outbox = k.outbox) : Mirrors before k' (s.sent st) where
  contents := hc
  faultless := h.faultless
  orderly := h.orderly
  announcing := h.announcing.trans ha.symm
  issued := by
    rw [ho, ← h.issued]
    refine (s.issued_noted st).trans ?_
    rw [Statement.announcement_of_quiet hq]
    exact List.append_nil _

theorem run_notify (h : Mirrors before k s) {a : Announcement} (ha : a.Fits) :
    ∃ s', (notify a.channel a.payload).run s = (.ok (), s') ∧
      Mirrors before (k.announce a.channel a.payload) s' := by
  have hencode : Envelope.encode a.channel a.payload = .ok a.envelope.text := by
    unfold Envelope.encode
    exact if_neg (Nat.not_lt.mpr ha)
  refine ⟨{ s.sent (.notify a.envelope.text) with
    notices := s.notices ++ [a.envelope.text] }, ?_, ?_⟩
  · unfold notify
    rw [hencode, StoreOp.run_bind, StoreOp.run_lift]
    dsimp only
    rw [StoreOp.run_bind, h.run_send]
    rfl
  · refine ⟨h.contents.owing _, h.faultless, h.orderly, h.announcing, ?_⟩
    refine (s.issued_noted (.notify a.envelope.text)).trans ?_
    rw [a.announcement_notify, h.issued]
    simp [Keyspace.announce]

end Mirrors

/-- From these contents, an operation on rows that picture them has this result and leaves rows
that picture these contents, if all that is announced fits. -/
structure Follows (k : Keyspace) (op : Op α) (result : α × Keyspace) : Prop where
  tidy : result.2.Tidy
  grows : k.outbox <+: result.2.outbox
  runs : ∀ before s, Mirrors before k s → (∀ a ∈ result.2.outbox, a.Fits) →
    ∃ s', op.run s = (.ok result.1, s') ∧ Mirrors before result.2 s'

theorem Keyspace.Tidy.owing (h : k.Tidy) (outbox : List Announcement) :
    ({ k with outbox } : Keyspace).Tidy := ⟨h.sets, h.lists, h.members, h.records⟩

theorem Keyspace.Tidy.touch (h : k.Tidy) (key : String) (tag : ChangeTag) :
    (k.touch key tag).Tidy := by
  obtain ⟨owed, howed⟩ := Keyspace.touch_cases key tag k
  rw [howed]
  exact h.owing _

namespace Follows

variable {op : Op α} {next : α → Op β} {a : α} {first : α × Keyspace} {result : β × Keyspace}

theorem pure (ht : k.Tidy) (a : α) : Follows k (Pure.pure a) (a, k) where
  tidy := ht
  grows := List.prefix_refl _
  runs _ s h _ := ⟨s, rfl, h⟩

theorem bind (h : Follows k op first) (hn : Follows first.2 (next first.1) result) :
    Follows k (op >>= next) result where
  tidy := hn.tidy
  grows := h.grows.trans hn.grows
  runs before s hm hfits := by
    obtain ⟨s₁, hrun, hm₁⟩ := h.runs before s hm fun a ha => hfits a (hn.grows.subset ha)
    obtain ⟨s₂, hrun₂, hm₂⟩ := hn.runs before s₁ hm₁ hfits
    refine ⟨s₂, ?_, hm₂⟩
    rw [StoreOp.run_bind, hrun]
    exact hrun₂

/-- A statement that sends no notification, and what is done with its answer. -/
theorem sendThen {st : Statement α} (k' : Keyspace) (hq : st.notifies = false)
    (ha : k'.announcing = k.announcing) (ho : k'.outbox = k.outbox) (htidy : result.2.Tidy)
    (hgrows : k'.outbox <+: result.2.outbox)
    (h : ∀ r (order : RowOrder) n, Pictures k r → order.Orderly →
      Pictures k' (Rows.answer order n st r).2 ∧
        Follows k' (next (Rows.answer order n st r).1) result) :
    Follows k (send st >>= next) result where
  tidy := htidy
  grows := ho ▸ hgrows
  runs before s hm hfits := by
    obtain ⟨hc, hnext⟩ := h s.working s.order (s.sentCount + 1) hm.contents hm.orderly
    obtain ⟨s', hrun, hm'⟩ := hnext.runs before _ (hm.sent hq hc ha ho) hfits
    refine ⟨s', ?_, hm'⟩
    rw [StoreOp.run_bind, hm.run_send]
    exact hrun

/-- A statement that only asks. -/
theorem ask {st : Statement α} (hq : st.notifies = false) (ht : k.Tidy)
    (h : ∀ r (order : RowOrder) n, Pictures k r → Rows.answer order n st r = (a, r)) :
    Follows k (send st) (a, k) where
  tidy := ht
  grows := List.prefix_refl _
  runs before s hm hfits := by
    have hanswer : s.answered st = (a, s.working) := h s.working s.order _ hm.contents
    refine ⟨s.sent st, ?_, hm.sent hq ?_ rfl rfl⟩
    · rw [hm.run_send, hanswer]
    · rw [hanswer]
      exact hm.contents

theorem notify (ht : k.Tidy) (channel payload : String) :
    Follows k (notify channel payload) ((), k.announce channel payload) := by
  refine ⟨ht.owing _, List.prefix_append _ _, ?_⟩
  intro before s hm hfits
  apply hm.run_notify (a := ⟨channel, payload⟩)
  apply hfits
  simp [Keyspace.announce]

theorem touch (ht : k.Tidy) (key : String) (tag : ChangeTag) :
    Follows k (touch key tag) ((), k.touch key tag) where
  tidy := ht.touch key tag
  grows := by
    obtain ⟨owed, howed⟩ := Keyspace.touch_cases key tag k
    rw [howed]
    exact List.prefix_append _ _
  runs before s hm hfits := by
    unfold RelationalStore.touch
    rw [StoreOp.run_bind, StoreOp.run_get]
    dsimp only
    rw [hm.announcing]
    unfold Keyspace.touch at hfits ⊢
    split
    · rename_i hannouncing
      rw [if_pos hannouncing] at hfits
      exact (notify ht (keyspaceChannel key) tag.word).runs before s hm hfits
    · exact ⟨s, rfl, hm⟩

/-- A touch that only an answer follows. -/
theorem touchThen (ht : k.Tidy) (key : String) (tag : ChangeTag) (a : α) :
    Follows k (do RelationalStore.touch key tag; return a) (a, k.touch key tag) :=
  (touch ht key tag).bind (pure (touch ht key tag).tidy a)

end Follows

end ControlBus
