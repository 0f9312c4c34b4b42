-- What a listing of a table shows, and what a follower of the table is told at the start. A listing
-- goes by the names of stored keys of every kind, and its pattern takes no line break: it shows
-- lists and sets that are called like records, and passes over records whose keys are more than one
-- line.
import ControlBus.Channel.Change
import ControlBus.Proofs.Globs
import ControlBus.Proofs.StoreRuns
import ControlBus.Proofs.TableSights
import Mathlib.Data.String.Basic

namespace ControlBus

/-! ## Reading records -/

namespace TableReader

variable (t : TableName) (m : MemoryStore)

/-- A reader gets the record of a key. -/
def Visible (key : String) : Prop := ∃ fields, ((get t key).run m).1 = .ok (some fields)

/-- What a listing answers. -/
def listing : List String :=
  (m.contents.keysMatching (t.recordStem ++ "*")).filterMap t.keyOfRecord?

variable {t m}

theorem get_eq_some_iff {key : String} {fields : Record} :
    ((get t key).run m).1 = .ok (some fields) ↔
      fields ≠ [] ∧ m.contents.record (t.recordKey key) = fields := by
  rw [run_get]
  cases m.contents.record (t.recordKey key) with
  | nil => simp
  | cons f rest =>
    simp only [List.isEmpty_cons, Bool.false_eq_true, if_false, Except.ok.injEq, Option.some.injEq]
    constructor
    · rintro rfl
      exact ⟨List.cons_ne_nil f rest, rfl⟩
    · exact And.right

theorem visible_iff {key : String} :
    Visible t m key ↔ m.contents.record (t.recordKey key) ≠ [] := by
  simp only [Visible, get_eq_some_iff]
  constructor
  · rintro ⟨fields, hne, hfields⟩
    rwa [hfields]
  · exact fun h => ⟨_, h, rfl⟩

/-! ## One listing -/

/-- Keys are in the order of the names of their records. -/
theorem lt_of_recordKey_lt {j k : String} (h : t.recordKey j < t.recordKey k) : j < k := by
  rcases lt_trichotomy j k with hlt | rfl | hgt
  · exact hlt
  · exact absurd h (lt_irrefl _)
  · have hback : t.recordKey k < t.recordKey j := by
      rw [String.lt_iff_toList_lt] at hgt ⊢
      simp only [TableName.recordKey, String.toList_append]
      exact List.append_left_lt hgt
    exact absurd h (lt_asymm hback)

theorem rising_listing : (listing t m).Pairwise (· < ·) := by
  refine List.Pairwise.filterMap _ ?_ (Keyspace.rising_sorted _)
  intro a a' hlt k hk k' hk'
  rw [TableName.keyOfRecord?_eq_some] at hk hk'
  rw [hk, hk'] at hlt
  exact lt_of_recordKey_lt hlt

theorem mem_listing_iff (htidy : m.contents.Tidy) {key : String} :
    key ∈ listing t m ↔ '\n' ∉ key.toList ∧
      (m.contents.list (t.recordKey key) ≠ [] ∨ m.contents.members (t.recordKey key) ≠ [] ∨
        Visible t m key) := by
  have hnamed : key ∈ listing t m ↔
      t.recordKey key ∈ m.contents.keysMatching (t.recordStem ++ "*") := by
    simp only [listing, List.mem_filterMap, TableName.keyOfRecord?_eq_some, exists_eq_right]
  rw [hnamed, Keyspace.mem_keysMatching_iff, TableName.lists_recordKey_iff, htidy.holds_iff,
    visible_iff, and_comm]

/-! ## Reading what is listed -/

/-- The fields of a key, if it has a record. -/
def found? (t : TableName) (m : MemoryStore) (key : String) : Option (String × FieldList) :=
  if (m.contents.record (t.recordKey key)).isEmpty then none
  else some (key, m.contents.record (t.recordKey key))

theorem run_getAll_memory (keys : List String) :
    (getAll t keys).run m = (.ok (keys.filterMap (found? t m)), m) := by
  induction keys with
  | nil => rfl
  | cons key rest ih =>
    have hget : (get t key).run m = (.ok ((found? t m key).map (·.2)), m) := by
      refine Prod.ext ?_ rfl
      rw [run_get, found?]
      split <;> rfl
    have hhere : ((found? t m key).map (·.2)).toList.map (key, ·) = (found? t m key).toList := by
      unfold found?
      split <;> rfl
    rw [getAll, StoreOp.run_bind, hget]
    dsimp only
    rw [StoreOp.run_bind, ih, hhere]
    cases hfound : found? t m key with
    | none => simp [hfound]; rfl
    | some r => simp [hfound]; rfl

theorem run_dump_memory : (dump t).run m = (.ok ((listing t m).filterMap (found? t m)), m) := by
  rw [dump, StoreOp.run_bind]
  exact run_getAll_memory (listing t m)

/-! ## What a follower is told at the start -/

/-- The changes with which a follower begins. -/
def dumped (t : TableName) (m : MemoryStore) : List WorkItem :=
  ((listing t m).filterMap (found? t m)).map fun r =>
    { key := r.1, operation := .set, fields := r.2 }

theorem found?_eq_some {key : String} {r : String × FieldList} :
    found? t m key = some r ↔ r.1 = key ∧ ((get t key).run m).1 = .ok (some r.2) := by
  obtain ⟨k, fields⟩ := r
  rw [run_get, found?]
  split
  · simp
  · simp [eq_comm]

theorem mem_dumped_iff (htidy : m.contents.Tidy) {item : WorkItem} :
    item ∈ dumped t m ↔ item.operation = .set ∧ '\n' ∉ item.key.toList ∧
      ((get t item.key).run m).1 = .ok (some item.fields) := by
  simp only [dumped, List.mem_map, List.mem_filterMap, found?_eq_some, mem_listing_iff htidy]
  constructor
  · rintro ⟨r, ⟨key, ⟨hline, -⟩, rfl, hget⟩, rfl⟩
    exact ⟨rfl, hline, hget⟩
  · rintro ⟨hset, hline, hget⟩
    obtain ⟨key, operation, fields⟩ := item
    dsimp only at hset hline hget
    subst hset
    exact ⟨(key, fields), ⟨key, ⟨hline, Or.inr (Or.inr ⟨fields, hget⟩)⟩, rfl, hget⟩, rfl⟩

theorem rising_dumped : (dumped t m).Pairwise (·.key < ·.key) := by
  refine List.pairwise_map.mpr (List.Pairwise.filterMap _ ?_ rising_listing)
  intro j k hlt r hr r' hr'
  rw [(found?_eq_some.mp hr).1, (found?_eq_some.mp hr').1]
  exact hlt

end TableReader

/-- In memory a consumer of changes is always attached. -/
theorem ChangeConsumer.run_attach_memory (t : TableName) (m : MemoryStore) :
    (attach t).run m =
      (.ok { table := t
             buffer := { name := t.name, subscription := m.board.nextId }
             ahead := TableReader.dumped t m },
        { m with board := (m.board.subscribe [] [t.keyspacePattern]).2 }) := by
  have hsubscribe : (SharedStore.subscribe [] [t.keyspacePattern]).run m =
      (.ok m.board.nextId, { m with board := (m.board.subscribe [] [t.keyspacePattern]).2 }) := rfl
  rw [attach, StoreOp.run_bind, hsubscribe]
  dsimp only
  rw [StoreOp.run_bind, SharedStore.run_orAbandon, TableReader.run_dump_memory]
  rfl

/-! ## Listings and records -/

namespace TableReader

/-- In every state that a store in memory can reach, a listing is rising and shows just the keys of
one line under whose names anything is stored, be it a record, a list or a set. So it shows exactly
the records that can be read just if their keys are all of one line and no list and no set is called
like a record that is not there. A follower begins with the records whose keys are of one line, each
once, with its fields and in the order of the keys. -/
theorem a_listing_shows_whatever_has_a_name_of_one_line (config : StoreConfig) (draws : List Nat)
    (acts : List StoreAct) (t : TableName) :
    let m := (config.drawingStore draws).after acts
    let other (key : String) : Prop :=
      m.contents.list (t.recordKey key) ≠ [] ∨ m.contents.members (t.recordKey key) ≠ []
    ∃ listed, ((keys t).run m).1 = .ok listed ∧ listed.Pairwise (· < ·) ∧
      (∀ key, key ∈ listed ↔ '\n' ∉ key.toList ∧ (other key ∨ Visible t m key)) ∧
      ((∀ key, key ∈ listed ↔ Visible t m key) ↔
        (∀ key, Visible t m key → '\n' ∉ key.toList) ∧
          ∀ key, '\n' ∉ key.toList → other key → Visible t m key) ∧
      ∃ c m', (ChangeConsumer.attach t).run m = (.ok c, m') ∧ m'.contents = m.contents ∧
        c.ahead.Pairwise (·.key < ·.key) ∧
        ∀ item, item ∈ c.ahead ↔ item.operation = .set ∧ '\n' ∉ item.key.toList ∧
          ((get t item.key).run m).1 = .ok (some item.fields) := by
  intro m other
  have htidy : m.contents.Tidy := ((MemoryStore.Settled.start config draws).after acts).tidy
  have hlisted : ∀ key, key ∈ listing t m ↔
      '\n' ∉ key.toList ∧ (other key ∨ Visible t m key) := by
    intro key
    rw [mem_listing_iff htidy, or_assoc]
  refine ⟨listing t m, rfl, rising_listing, hlisted, ?_, ?_⟩
  · simp only [hlisted]
    constructor
    · intro h
      refine ⟨fun key hkey => ((h key).mpr hkey).1, fun key hline hother => ?_⟩
      exact (h key).mp ⟨hline, Or.inl hother⟩
    · rintro ⟨hlines, hothers⟩ key
      constructor
      · rintro ⟨hline, hother | hkey⟩
        · exact hothers key hline hother
        · exact hkey
      · exact fun hkey => ⟨hlines key hkey, Or.inr hkey⟩
  · refine ⟨_, _, ChangeConsumer.run_attach_memory t m, rfl, rising_dumped, ?_⟩
    exact fun item => mem_dumped_iff htidy

/-- The listing shows the list `T:q`, which no reader gets, and passes over a record whose key has a
line break. A follower is told nothing. -/
theorem a_listing_passes_over_a_line_break :
    let t : TableName := { name := "T" }
    let m := (({} : StoreConfig).drawingStore []).after
      [.use (.command (.pushBack "T:q" ["x"])),
        .use (.command (.mergeFields "T:a\nb" [("f", "1")]))]
    ((keys t).run m).1 = .ok ["q"] ∧
      ((get t "q").run m).1 = .ok none ∧
      ((get t "a\nb").run m).1 = .ok (some [("f", "1")]) ∧
      ∃ c m', (ChangeConsumer.attach t).run m = (.ok c, m') ∧ c.ahead = [] := by
  intro t m
  have hstored : ["T:q", "T:a\nb"].filter (Text.Glob.accepts "T:*") = ["T:q"] := by decide +kernel
  have hsorted : Keyspace.sorted ["T:q"] = ["T:q"] := by
    rw [Keyspace.sorted, List.mergeSort_singleton]
    rfl
  have hlisting : listing t m = ["q"] := by
    change (Keyspace.sorted (["T:q", "T:a\nb"].filter (Text.Glob.accepts "T:*"))).filterMap
      t.keyOfRecord? = _
    rw [hstored, hsorted]
    decide +kernel
  have hget : ((get t "q").run m).1 = .ok none := by decide +kernel
  refine ⟨congrArg Except.ok hlisting, hget, by decide +kernel, _, _,
    ChangeConsumer.run_attach_memory t m, ?_⟩
  have hnone : found? t m "q" = none := by decide +kernel
  rw [dumped, hlisting, List.filterMap_cons, hnone]
  rfl

end TableReader

end ControlBus
