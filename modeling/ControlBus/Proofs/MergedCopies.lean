-- A copy of a coalescing table that is built from popped work items alone. An item does not tell
-- whether its key was marked for deletion before the fields in it were staged, so the copy keeps
-- the fields that such a pop drops, and these are all in which copy and table ever differ.
import ControlBus.Proofs.LogPlaces
import ControlBus.Proofs.PendingPeriods

namespace ControlBus

namespace Record

/-- Of two lists of fields merged, the later has the word. -/
theorem value_merge (r : Record) {fields : Record} (h : (Assoc.keys fields).Nodup)
    (field : String) :
    value? (merge r fields) field = (value? fields field).or (value? r field) := by
  induction fields generalizing r with
  | nil => rfl
  | cons f rest ih =>
    obtain ⟨name, value⟩ := f
    obtain ⟨hnew, hrest⟩ := List.nodup_cons.mp h
    rw [merge_cons, ih _ hrest]
    by_cases hname : name = field
    · subst hname
      have hnone : value? rest name = none := by
        by_contra hsome
        obtain ⟨v, hv⟩ := Option.ne_none_iff_exists'.mp hsome
        exact hnew (Assoc.mem_keys_of_get? hv)
      rw [hnone, value?, Assoc.get?_put_self, value?, Assoc.get?, if_pos rfl]
      rfl
    · simp only [value?, Assoc.get?_put_of_ne _ _ hname, Assoc.get?, if_neg hname]

end Record

/-! ## Copies -/

/-- A copy of the records of a table; an absent key has no fields. -/
abbrev MergedCopy := String → Record

/-- What a work item makes of the record of its key: fields are merged as the table merges them. -/
def WorkItem.mergedInto (item : WorkItem) (r : Record) : Record :=
  match item.operation with
  | .set => r.merge item.fields
  | .del => []

namespace MergedCopy

def apply (c : MergedCopy) (item : WorkItem) : MergedCopy := fun key =>
  if key = item.key then item.mergedInto (c key) else c key

def applyAll (c : MergedCopy) (items : List WorkItem) : MergedCopy := items.foldl apply c

variable {c : MergedCopy} {items : List WorkItem} {item : WorkItem}

theorem applyAll_elsewhere {key : String} (h : key ∉ items.map (·.key)) :
    c.applyAll items key = c key := by
  induction items generalizing c with
  | nil => rfl
  | cons item rest ih =>
    rw [List.map_cons, List.mem_cons, not_or] at h
    exact (ih h.2).trans (if_neg h.1)

/-- Of items with different keys each takes effect by itself. -/
theorem applyAll_mem (hnodup : (items.map (·.key)).Nodup) (hitem : item ∈ items) :
    c.applyAll items item.key = item.mergedInto (c item.key) := by
  induction items generalizing c with
  | nil => cases hitem
  | cons first rest ih =>
    obtain ⟨hfirst, hrest⟩ := List.nodup_cons.mp hnodup
    change applyAll (c.apply first) rest item.key = _
    rcases List.mem_cons.mp hitem with rfl | hin
    · rw [applyAll_elsewhere hfirst]
      exact if_pos rfl
    · rw [ih hrest hin, apply, if_neg]
      intro hsame
      exact hfirst (List.mem_map.mpr ⟨item, hin, hsame⟩)

end MergedCopy

/-! ## What one pop does to a record -/

namespace Ledger

variable {l : Ledger} {v : KeyState}

theorem item_key (key : String) (l : Ledger) : (l.item key).key = key := by
  unfold item
  split <;> rfl

/-- The item of a waiting key tells all that a pop does to the record but one thing: whether the
record loses its old fields first. -/
theorem Agrees.item_tells (h : l.Agrees v) (hw : l.waiting ≠ []) (key : String) :
    (Assoc.keys (l.item key).fields).Nodup ∧
      (((l.item key).operation = .del ∧ l.record = []) ∨
        ((l.item key).operation = .set ∧ (l.item key).fields ≠ [] ∧
          l.record = Record.merge (if v.marked then [] else v.visible) (l.item key).fields)) := by
  obtain ⟨older, c, hlast⟩ := (List.eq_nil_or_concat l.waiting).resolve_left hw
  rw [List.concat_eq_append] at hlast
  have hget : l.waiting.getLast? = some c := by simp [hlast]
  rw [item, hget]
  cases c with
  | del =>
    refine ⟨List.nodup_nil, Or.inl ⟨rfl, ?_⟩⟩
    rw [record, hlast, ← List.append_assoc, replay_snoc]
    rfl
  | set fields =>
    have hstaged : replay [] l.waiting ≠ [] := by
      rw [hlast, replay_snoc]
      intro hnone
      exact h.written fields (by simp [hlast]) (Record.merge_eq_nil.mp hnone).2
    refine ⟨nodup_replay l.waiting List.nodup_nil, Or.inr ⟨rfl, hstaged, ?_⟩⟩
    rw [← h.merged, KeyState.merged, h.staged]
    rfl

/-- Only pops let changes land. -/
theorem landed_append {k : String} {history events : List TableEvent}
    (h : ∀ e ∈ events, ∀ keys, e ≠ .popped keys) :
    (ofHistory k (history ++ events)).landed = (ofHistory k history).landed := by
  induction events using List.reverseRecOn with
  | nil => rw [List.append_nil]
  | append_singleton events e ih =>
    rw [← List.append_assoc, ofHistory_snoc, ← ih fun e he => h e (List.mem_append_left _ he)]
    have hlast := h e (by simp)
    cases e with
    | changed key c =>
      simp only [note]
      split <;> rfl
    | popped keys => exact absurd rfl (hlast keys)
    | cleared => rfl

end Ledger

namespace TableRun

variable {t : TableName} {r : TableRun}

/-- A pop answers one item for each key whose record it may change. The item tells all of the
change but one thing: whether the record lost its old fields first. -/
theorem Faithful.pop_records (h : r.Faithful t) (ha : t.layout.Apart) (max : Nat) :
    ∃ items r', r.pop max = (.ok items, r') ∧ r'.Faithful t ∧ (items.map (·.key)).Nodup ∧
      ∀ k, let visible := r.store.contents.record (t.recordKey k)
        let visible' := r'.store.contents.record (t.recordKey k)
        (k ∉ items.map (·.key) ∧ visible' = visible) ∨
        ∃ item ∈ items, item.key = k ∧ (Assoc.keys item.fields).Nodup ∧
          ((item.operation = .del ∧ visible' = []) ∨
            (item.operation = .set ∧ item.fields ≠ [] ∧
              visible' = Record.merge (if k ∈ r.store.contents.members t.deleteSet then []
                else visible) item.fields)) := by
  obtain ⟨keys, r', hpop, -, hhistory, hr'⟩ := h.pop ha max
  obtain ⟨items, _, hsame, -, hnodup, hpending, -⟩ := h.pop_ends ha max
  obtain ⟨hitems, rfl⟩ := Prod.mk.inj (hpop.symm.trans hsame)
  cases hitems
  refine ⟨_, r', hpop, hr', hnodup, ?_⟩
  intro k visible visible'
  have hbefore := h.replays.agrees k
  have hafter := (hr'.replays.agrees k).visible
  rw [hhistory, Ledger.ofHistory_snoc, Ledger.note] at hafter
  by_cases hk : k ∈ keys
  · right
    rw [if_pos hk] at hafter
    have hitem : (r.ledger k).item k ∈ keys.map fun k => (r.ledger k).item k :=
      List.mem_map_of_mem hk
    have hwaiting : (r.ledger k).waiting ≠ [] := by
      have hin := (hpending _ hitem).1
      rw [Ledger.item_key] at hin
      exact hbefore.pending.mp (decide_eq_true hin)
    obtain ⟨hfields, htells⟩ := hbefore.item_tells hwaiting k
    refine ⟨_, hitem, Ledger.item_key k _, hfields, ?_⟩
    have hvisible : visible' = (r.ledger k).record := hafter
    rw [hvisible]
    simp only [Keyspace.keyState, decide_eq_true_eq] at htells
    exact htells
  · left
    rw [if_neg hk] at hafter
    refine ⟨?_, hafter.trans hbefore.visible.symm⟩
    intro hin
    obtain ⟨item, hitem, hkey⟩ := List.mem_map.mp hin
    obtain ⟨j, hj, rfl⟩ := List.mem_map.mp hitem
    rw [Ledger.item_key] at hkey
    exact hk (hkey ▸ hj)

/-- What producers do leaves the visible records alone. -/
theorem Faithful.produce_visible (h : r.Faithful t) (ha : t.layout.Apart) {a : TableAct}
    (hproduce : ∀ max, a ≠ .pop max) (k : String) :
    (r.act t a).store.contents.record (t.recordKey k) =
      r.store.contents.record (t.recordKey k) := by
  have hlanded : ∃ events, (r.act t a).history = r.history ++ events ∧
      ∀ e ∈ events, ∀ keys, e ≠ .popped keys := by
    cases a with
    | set key fields =>
      refine ⟨_, rfl, ?_⟩
      unfold eventsOfSet
      split <;> simp
    | del key => exact ⟨_, rfl, by simp⟩
    | setBatch items =>
      refine ⟨_, rfl, ?_⟩
      intro e he keys
      obtain ⟨item, -, hin⟩ := List.mem_flatMap.mp he
      unfold eventsOfSet at hin
      split at hin
      · cases hin
      · rw [List.mem_singleton.mp hin]
        exact TableEvent.noConfusion
    | delBatch keys => exact ⟨_, rfl, by simp⟩
    | clear => exact ⟨_, rfl, by simp⟩
    | pop max => exact absurd rfl (hproduce max)
  obtain ⟨events, hhistory, hevents⟩ := hlanded
  have hbefore := (h.replays.agrees k).visible
  have hafter := ((h.act ha a).replays.agrees k).visible
  rw [hhistory, Ledger.landed_append hevents] at hafter
  exact hafter.trans hbefore.symm

end TableRun

/-! ## Runs -/

/-- What a pop found in the store, and what it answered. -/
structure Popping where
  contents : Keyspace
  items : List WorkItem

namespace Popping

/-- A pop drops a field of a key: the key is marked for deletion, and the fields that the pop
answers for it do not bring the field back. -/
def Drops (t : TableName) (key field : String) (p : Popping) : Prop :=
  key ∈ p.contents.members t.deleteSet ∧
    (Record.value? (p.contents.record (t.recordKey key)) field).isSome ∧
    ∃ item ∈ p.items, item.key = key ∧ item.operation = .set ∧
      Record.value? item.fields field = none

/-- A pop settles a field of a key: it answers that the key was deleted, or gives the field. -/
def Settles (key field : String) (p : Popping) : Prop :=
  ∃ item ∈ p.items, item.key = key ∧
    (item.operation = .del ∨ (Record.value? item.fields field).isSome)

variable (p : Popping) (field : String) {t : TableName} {key : String} {item : WorkItem}

theorem eq_of_key (hnodup : (p.items.map (·.key)).Nodup) (hitem : item ∈ p.items)
    {other : WorkItem} (hother : other ∈ p.items) (hkey : other.key = item.key) : other = item :=
  List.inj_on_of_nodup_map hnodup hother hitem hkey

theorem drops_iff (hnodup : (p.items.map (·.key)).Nodup) (hitem : item ∈ p.items) :
    p.Drops t item.key field ↔ item.key ∈ p.contents.members t.deleteSet ∧
      (Record.value? (p.contents.record (t.recordKey item.key)) field).isSome ∧
      item.operation = .set ∧ Record.value? item.fields field = none := by
  constructor
  · rintro ⟨hmarked, hold, other, hother, hkey, hset, hnone⟩
    obtain rfl := p.eq_of_key hnodup hitem hother hkey
    exact ⟨hmarked, hold, hset, hnone⟩
  · rintro ⟨hmarked, hold, hset, hnone⟩
    exact ⟨hmarked, hold, item, hitem, rfl, hset, hnone⟩

theorem settles_iff (hnodup : (p.items.map (·.key)).Nodup) (hitem : item ∈ p.items) :
    p.Settles item.key field ↔
      item.operation = .del ∨ (Record.value? item.fields field).isSome := by
  constructor
  · rintro ⟨other, hother, hkey, h⟩
    obtain rfl := p.eq_of_key hnodup hitem hother hkey
    exact h
  · exact fun h => ⟨item, hitem, rfl, h⟩

theorem not_drops (h : key ∉ p.items.map (·.key)) : ¬ p.Drops t key field := by
  rintro ⟨-, -, item, hitem, rfl, -⟩
  exact h (List.mem_map_of_mem hitem)

theorem not_settles (h : key ∉ p.items.map (·.key)) : ¬ p.Settles key field := by
  rintro ⟨item, hitem, rfl, -⟩
  exact h (List.mem_map_of_mem hitem)

end Popping

/-- A pop has dropped the field and none has settled it since. -/
def Dropped (t : TableName) (key field : String) (log : List Popping) : Prop :=
  ∃ before p after, log = before ++ p :: after ∧ p.Drops t key field ∧
    ∀ q ∈ after, ¬ q.Settles key field

theorem dropped_snoc {t : TableName} {key field : String} {log : List Popping} {p : Popping} :
    Dropped t key field (log ++ [p]) ↔
      p.Drops t key field ∨ (Dropped t key field log ∧ ¬ p.Settles key field) := by
  constructor
  · rintro ⟨before, q, after, hlog, hdrops, hnone⟩
    rcases place_snoc hlog with ⟨-, rfl, -⟩ | ⟨rest, rfl, hearlier⟩
    · exact .inl hdrops
    · exact .inr ⟨⟨before, q, rest, hearlier, hdrops, fun x hx => hnone x (by simp [hx])⟩,
        hnone p (by simp)⟩
  · rintro (hdrops | ⟨⟨before, q, after, rfl, hdrops, hnone⟩, hlast⟩)
    · exact ⟨log, p, [], rfl, hdrops, fun q hq => nomatch hq⟩
    · refine ⟨before, q, after ++ [p], by simp, hdrops, ?_⟩
      intro x hx
      rcases List.mem_append.mp hx with hx | hx
      · exact hnone x hx
      · rw [List.mem_singleton.mp hx]
        exact hlast

/-- A field in the copy against the field in the table: they are the same, but for a field that was
dropped: that one the copy still has. -/
structure FieldFollows (dropped : Prop) (copy visible : Option String) : Prop where
  agrees : ¬ dropped → copy = visible
  keeps : dropped → copy.isSome ∧ visible = none

theorem FieldFollows.congr {dropped dropped' : Prop} {copy visible : Option String}
    (h : FieldFollows dropped copy visible) (hsame : dropped' ↔ dropped) :
    FieldFollows dropped' copy visible :=
  ⟨fun hnot => h.agrees (mt hsame.mpr hnot), fun hd => h.keeps (hsame.mp hd)⟩

/-- The same fields are merged into both, but if the key is marked the table has lost the old
one. -/
theorem FieldFollows.merged {dropped dropped' marked : Prop} [Decidable marked]
    {given copy visible : Option String} (h : FieldFollows dropped copy visible)
    (hdropped : dropped' ↔
      (marked ∧ visible.isSome ∧ given = none) ∨ (dropped ∧ ¬ given.isSome)) :
    FieldFollows dropped' (given.or copy) (given.or (if marked then none else visible)) := by
  cases given with
  | some value =>
    have hnot : ¬ dropped' := by simp [hdropped]
    exact ⟨fun _ => rfl, fun hd => absurd hd hnot⟩
  | none =>
    simp only [Option.isSome_none, Bool.false_eq_true, not_false_eq_true, and_true] at hdropped
    simp only [Option.none_or]
    by_cases hmarked : marked
    · rw [if_pos hmarked]
      cases visible with
      | some value =>
        have hcopy : copy = some value := h.agrees fun hd => nomatch (h.keeps hd).2
        refine ⟨fun hnot => absurd (hdropped.mpr (Or.inl ⟨hmarked, rfl⟩)) hnot, fun _ => ?_⟩
        exact ⟨by rw [hcopy]; rfl, rfl⟩
      | none => exact h.congr (by simp [hdropped])
    · rw [if_neg hmarked]
      exact h.congr (by simp [hdropped, hmarked])

/-- A coalescing table at work, a copy of it built from the items that its pops answer, and what
each pop found. -/
structure CopyRun where
  table : TableRun
  copy : MergedCopy := fun _ => []
  log : List Popping := []

namespace CopyRun

def act (t : TableName) (r : CopyRun) : TableAct → CopyRun
  | .pop max =>
    match r.table.pop max with
    | (.ok items, table) =>
      { table, copy := r.copy.applyAll items, log := r.log ++ [⟨r.table.store.contents, items⟩] }
    | (.error _, table) => { r with table }
  | a => { r with table := r.table.act t a }

def run (t : TableName) (r : CopyRun) (acts : List TableAct) : CopyRun := acts.foldl (act t) r

/-- The visible record of a key. -/
def visible (t : TableName) (r : CopyRun) (key : String) : Record :=
  r.table.store.contents.record (t.recordKey key)

/-- The copy has records of the same keys as the table, and follows it in every field. -/
structure Follows (t : TableName) (r : CopyRun) : Prop where
  table : r.table.Faithful t
  keys : ∀ k, r.copy k = [] ↔ r.visible t k = []
  fields : ∀ k field, FieldFollows (Dropped t k field r.log)
    (Record.value? (r.copy k) field) (Record.value? (r.visible t k) field)

variable {t : TableName} {r : CopyRun}

theorem follows_start (t : TableName) (announcing : Bool) (draws : List Nat) (board : Switchboard)
    (maxPayload : Nat) (signal : TokenCounter) :
    Follows t { table := TableRun.start t announcing draws board maxPayload signal } where
  table := TableRun.faithful_start t announcing draws board maxPayload signal
  keys _ := ⟨fun _ => rfl, fun _ => rfl⟩
  fields k field := by
    refine ⟨fun _ => rfl, ?_⟩
    rintro ⟨before, p, after, hlog, -⟩
    exact absurd hlog.symm (List.append_ne_nil_of_right_ne_nil _ (List.cons_ne_nil p after))

theorem Follows.pop (h : r.Follows t) (ha : t.layout.Apart) (max : Nat) :
    (r.act t (.pop max)).Follows t := by
  obtain ⟨items, table, hpop, htable, hnodup, hrecords⟩ := h.table.pop_records ha max
  have hact : r.act t (.pop max) = { table, copy := r.copy.applyAll items
                                     log := r.log ++ [⟨r.table.store.contents, items⟩] } := by
    simp only [CopyRun.act, hpop]
  let p : Popping := ⟨r.table.store.contents, items⟩
  rw [hact]
  refine ⟨htable, ?_, ?_⟩
  · intro k
    rcases hrecords k with ⟨hk, hsame⟩ |
      ⟨item, hitem, rfl, -, ⟨hdel, hgone⟩ | ⟨hset, hne, hmerged⟩⟩
    · simp only [visible, hsame, MergedCopy.applyAll_elsewhere hk]
      exact h.keys k
    · simp only [visible, hgone, MergedCopy.applyAll_mem hnodup hitem, WorkItem.mergedInto, hdel]
    · simp only [visible, hmerged, MergedCopy.applyAll_mem hnodup hitem, WorkItem.mergedInto, hset,
        Record.merge_eq_nil, hne, and_false]
  · intro k field
    rcases hrecords k with ⟨hk, hsame⟩ |
      ⟨item, hitem, rfl, hfields, ⟨hdel, hgone⟩ | ⟨hset, -, hmerged⟩⟩
    · simp only [visible, hsame, MergedCopy.applyAll_elsewhere hk]
      apply (h.fields k field).congr
      rw [dropped_snoc, or_iff_right (p.not_drops field hk), and_iff_left (p.not_settles field hk)]
    · simp only [visible, hgone, MergedCopy.applyAll_mem hnodup hitem, WorkItem.mergedInto, hdel]
      refine ⟨fun _ => rfl, fun hdropped => ?_⟩
      rw [dropped_snoc, p.drops_iff field hnodup hitem, p.settles_iff field hnodup hitem,
        hdel] at hdropped
      simp at hdropped
    · simp only [visible, hmerged, MergedCopy.applyAll_mem hnodup hitem, WorkItem.mergedInto, hset,
        Record.value_merge _ hfields, apply_ite (Record.value? · field)]
      apply (h.fields item.key field).merged
      rw [dropped_snoc, p.drops_iff field hnodup hitem, p.settles_iff field hnodup hitem, hset]
      simp only [true_and, reduceCtorEq, false_or]
      exact Iff.rfl

theorem Follows.act (h : r.Follows t) (ha : t.layout.Apart) (a : TableAct) :
    (r.act t a).Follows t := by
  by_cases hpop : ∃ max, a = .pop max
  · obtain ⟨max, rfl⟩ := hpop
    exact h.pop ha max
  · have hproduce : ∀ max, a ≠ .pop max := fun max ha => hpop ⟨max, ha⟩
    have hact : r.act t a = { r with table := r.table.act t a } := by
      cases a with
      | pop max => exact absurd rfl (hproduce max)
      | _ => rfl
    have hvisible : ∀ k, (r.act t a).visible t k = r.visible t k := by
      intro k
      rw [hact]
      exact h.table.produce_visible ha hproduce k
    refine ⟨by rw [hact]; exact h.table.act ha a, ?_, ?_⟩
    · intro k
      rw [hvisible, hact]
      exact h.keys k
    · intro k field
      rw [hvisible, hact]
      exact h.fields k field

theorem Follows.run (h : r.Follows t) (ha : t.layout.Apart) (acts : List TableAct) :
    (r.run t acts).Follows t := by
  induction acts generalizing r with
  | nil => exact h
  | cons a rest ih => exact ih (h.act ha a)

/-- Whatever producers and the consumer do, and whichever keys the pops pick: the copy has records
of just the keys that are visible, and in each the visible value of every field, unless a pop has
dropped the field. A pop drops a field if it answers new fields without it for a key marked for
deletion; then the copy has it and the visible record does not, until a pop answers that the key was
deleted or gives the field again. -/
theorem a_copy_differs_only_in_dropped_fields (name : String) (announcing : Bool)
    (draws : List Nat) (board : Switchboard) (maxPayload : Nat) (signal : TokenCounter)
    (acts : List TableAct) (key : String) :
    let t : TableName := { name }
    let r := CopyRun.run t
      { table := TableRun.start t announcing draws board maxPayload signal } acts
    ∃ seen, (TableReader.get t key).run r.table.store = (.ok seen, r.table.store) ∧
      (r.copy key = [] ↔ seen = none) ∧
      ∀ field, let visible := seen.bind (Record.value? · field)
        (¬ Dropped t key field r.log → Record.value? (r.copy key) field = visible) ∧
        (Dropped t key field r.log →
          (Record.value? (r.copy key) field).isSome ∧ visible = none) := by
  intro t r
  have h : r.Follows t := (follows_start t announcing draws board maxPayload signal).run
    (TableName.apart name) acts
  refine ⟨if (r.visible t key).isEmpty then none else some (r.visible t key), rfl, ?_, ?_⟩
  · rw [h.keys key]
    cases r.visible t key <;> simp
  · intro field visible
    have hfield := h.fields key field
    have hvisible : visible = Record.value? (r.visible t key) field := by
      simp only [visible]
      cases r.visible t key <;> rfl
    rw [hvisible]
    exact ⟨hfield.agrees, hfield.keeps⟩

/-- A record is deleted and written anew before a pop. The pop answers the new fields only. -/
theorem a_copy_keeps_a_dropped_field :
    let t : TableName := { name := "T" }
    let acts : List TableAct :=
      [.set "k" [("b", "2")], .pop 1, .del "k", .set "k" [("a", "1")], .pop 1]
    let table := TableRun.start t false [] (.ofBufferSize 16) 64
      { name := "T", subscription := 0, pending := 0 }
    let r := CopyRun.run t { table } acts
    r.log.map (·.items) = [[{ key := "k", operation := .set, fields := [("b", "2")] }],
      [{ key := "k", operation := .set, fields := [("a", "1")] }]] ∧
    r.copy "k" = [("b", "2"), ("a", "1")] ∧
    ((TableReader.get t "k").run r.table.store).1 = .ok (some [("a", "1")]) := by
  decide +kernel

end CopyRun

end ControlBus
