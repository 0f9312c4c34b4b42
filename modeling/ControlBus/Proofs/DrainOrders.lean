-- In which order, and in how large batches, the pending keys of a table are popped makes no
-- difference in the end. What a pop does to one key depends on the parts of this key alone, so
-- once all keys are popped the store holds the same, and the same items have been handed out.
import ControlBus.Proofs.ScriptRuns
import ControlBus.Proofs.Stations
import Mathlib.Algebra.GroupWithZero.Nat
import Mathlib.Data.Finset.Dedup

namespace ControlBus

/-! ## Equal contents -/

namespace Keyspace

variable {k k' : Keyspace}

/-- The same lists, the same sets of members, and the same records with their fields in the same
order, each under the same key. -/
structure Matches (k k' : Keyspace) : Prop where
  lists : ∀ key, Assoc.get? k.lists key = Assoc.get? k'.lists key
  sets : ∀ key, (Assoc.get? k.sets key).map (·.members.toFinset) =
    (Assoc.get? k'.sets key).map (·.members.toFinset)
  records : ∀ key, Assoc.get? k.records key = Assoc.get? k'.records key

/-- An option that is never an empty list is known by the list that stands for it. -/
theorem option_eq_of_getD {α : Type} {a b : Option (List α)} (ha : a ≠ some []) (hb : b ≠ some [])
    (h : a.getD [] = b.getD []) : a = b := by
  cases a <;> cases b <;> simp_all

/-- Tidy contents are known by what they answer. -/
theorem Tidy.matches (h : k.Tidy) (h' : k'.Tidy) (hlists : ∀ j, k.list j = k'.list j)
    (hsets : ∀ j x, x ∈ k.members j ↔ x ∈ k'.members j)
    (hrecords : ∀ j, k.record j = k'.record j) : k.Matches k' where
  lists key := option_eq_of_getD (h.lists key) (h'.lists key) (hlists key)
  records key := option_eq_of_getD (h.records key) (h'.records key) (hrecords key)
  sets key := by
    have hsame := hsets key
    simp only [Keyspace.members, Keyspace.set] at hsame
    cases hk : Assoc.get? k.sets key with
    | none =>
      cases hk' : Assoc.get? k'.sets key with
      | none => rfl
      | some x =>
        rw [hk, hk'] at hsame
        have hnil := List.eq_nil_iff_forall_not_mem.mpr fun m hm => by
          simpa using (hsame m).mpr hm
        exact absurd hnil (h'.members key x hk')
    | some x =>
      cases hk' : Assoc.get? k'.sets key with
      | none =>
        rw [hk, hk'] at hsame
        have hnil := List.eq_nil_iff_forall_not_mem.mpr fun m hm => by
          simpa using (hsame m).mp hm
        exact absurd hnil (h.members key x hk)
      | some y =>
        rw [hk, hk'] at hsame
        exact congrArg some (Finset.ext fun m => by simpa using hsame m)

/-! ## What popping some keys makes of the contents -/

variable {l : Layout} {keys more : List String} {s s' s'' : Keyspace}

/-- The parts of the popped keys have landed, and nothing else has changed. -/
structure Landed (l : Layout) (keys : List String) (s s' : Keyspace) : Prop where
  states : ∀ k, s'.keyState l k =
    if k ∈ keys then (s.keyState l k).unpend.land else s.keyState l k
  lists : ∀ j, s'.list j = s.list j
  sets : ∀ j, j ≠ l.pendingSet → j ≠ l.deleteSet → ∀ x, x ∈ s'.members j ↔ x ∈ s.members j
  records : ∀ j, (∀ k, j ≠ l.stagingKey k ∧ j ≠ l.recordKey k) → s'.record j = s.record j

namespace Landed

theorem refl (l : Layout) (s : Keyspace) : Landed l [] s s :=
  ⟨fun _ => rfl, fun _ => rfl, fun _ _ _ _ => Iff.rfl, fun _ _ => rfl⟩

theorem trans (h : Landed l keys s s') (h' : Landed l more s' s'')
    (hapart : keys.Disjoint more) : Landed l (keys ++ more) s s'' where
  states k := by
    rw [h'.states, h.states]
    by_cases hk : k ∈ keys
    · have hnot : k ∉ more := fun hm => hapart hk hm
      simp [hk, hnot]
    · simp [hk]
  lists j := (h'.lists j).trans (h.lists j)
  sets j hp hd x := (h'.sets j hp hd x).trans (h.sets j hp hd x)
  records j hj := (h'.records j hj).trans (h.records j hj)

/-- What was pending is popped or pending still. -/
theorem perm_pending (h : Landed l keys s s') (hv : s.SetsValid) (hv' : s'.SetsValid)
    (hnodup : keys.Nodup) (hin : ∀ k ∈ keys, k ∈ s.members l.pendingSet) :
    (s.members l.pendingSet).Perm (keys ++ s'.members l.pendingSet) := by
  have hleft : ∀ k, k ∈ s'.members l.pendingSet ↔ k ∈ s.members l.pendingSet ∧ k ∉ keys := by
    intro k
    have hpending := congrArg KeyState.pending (h.states k)
    by_cases hk : k ∈ keys
    · simpa [keyState, KeyState.unpend, KeyState.land, hk] using hpending
    · simpa [keyState, hk] using hpending
  have hapart : keys.Disjoint (s'.members l.pendingSet) := fun k hk hk' => ((hleft k).mp hk').2 hk
  refine (List.perm_ext_iff_of_nodup (hv.nodup _) (hnodup.append (hv'.nodup _) hapart)).mpr ?_
  intro k
  rw [List.mem_append, hleft]
  by_cases hk : k ∈ keys
  · simp [hk, hin k hk]
  · simp [hk]

/-- Popping the same keys in another order leaves the same. -/
theorem unique {keys' : List String} (h : Landed l keys s s') (h' : Landed l keys' s s'')
    (hkeys : ∀ k, k ∈ keys ↔ k ∈ keys') (ht : s'.Tidy) (ht' : s''.Tidy) : s'.Matches s'' := by
  have hstates : ∀ k, s'.keyState l k = s''.keyState l k := by
    intro k
    rw [h.states, h'.states]
    simp only [hkeys]
  refine ht.matches ht' (fun j => (h.lists j).trans (h'.lists j).symm) ?_ ?_
  · intro j x
    have hx := hstates x
    by_cases hp : j = l.pendingSet
    · subst hp
      simpa [keyState] using congrArg KeyState.pending hx
    · by_cases hd : j = l.deleteSet
      · subst hd
        simpa [keyState] using congrArg KeyState.marked hx
      · exact (h.sets j hp hd x).trans (h'.sets j hp hd x).symm
  · intro j
    by_cases hstaging : ∃ k, j = l.stagingKey k
    · obtain ⟨k, rfl⟩ := hstaging
      exact congrArg KeyState.staged (hstates k)
    · by_cases hrecord : ∃ k, j = l.recordKey k
      · obtain ⟨k, rfl⟩ := hrecord
        exact congrArg KeyState.visible (hstates k)
      · have helse : ∀ k, j ≠ l.stagingKey k ∧ j ≠ l.recordKey k :=
          fun k => ⟨fun he => hstaging ⟨k, he⟩, fun he => hrecord ⟨k, he⟩⟩
        exact (h.records j helse).trans (h'.records j helse).symm

end Landed

/-- Materializing a key touches no record of another kind. -/
theorem record_materialize_elsewhere (h : s.SetsValid) (key : String) {j : String}
    (hj : ∀ k, j ≠ l.stagingKey k ∧ j ≠ l.recordKey k) :
    (s.materialize l key).2.record j = s.record j := by
  obtain ⟨hstaging, hrecord⟩ := hj key
  simp only [materialize, record_mergeFields, record_takeRecord, record_honourDelete h,
    hstaging.symm, hrecord.symm, and_false, if_false]

theorem record_materializeAll_elsewhere (h : s.SetsValid) (keys : List String) {j : String}
    (hj : ∀ k, j ≠ l.stagingKey k ∧ j ≠ l.recordKey k) :
    (s.materializeAll l keys).2.record j = s.record j := by
  induction keys generalizing s with
  | nil => rfl
  | cons key rest ih =>
    exact (ih (h.materialize l key)).trans (record_materialize_elsewhere h key hj)

theorem mem_materializeAll_elsewhere (h : s.SetsValid) (keys : List String) {j : String}
    (hj : j ≠ l.deleteSet) (x : String) :
    x ∈ (s.materializeAll l keys).2.members j ↔ x ∈ s.members j := by
  induction keys generalizing s with
  | nil => rfl
  | cons key rest ih =>
    have hsame : (s.materialize l key).2.members j = (s.honourDelete l key).members j :=
      members_congr ((mergeFields_frame _ _ j).2.trans (takeRecord_frame _ j).2)
    rw [materializeAll, ih (h.materialize l key), hsame, mem_honourDelete h]
    simp [hj]

/-- A pop lands the keys that it draws. -/
theorem landed_coalescedPop (h : s.SetsValid) (ha : l.Apart) (max : Nat) :
    Landed l (s.popMembers l.pendingSet max).1 s (run (.coalescedPop l max) s).2 := by
  obtain ⟨hvalid, -, -, hother⟩ := popMembers_spec h l.pendingSet max
  refine ⟨(run_coalescedPop h ha max).2, fun j => ?_, fun j hp hd x => ?_, fun j hj => ?_⟩
  · exact (list_materializeAll l _ j).trans (popMembers_frame l.pendingSet max j).1
  · refine (mem_materializeAll_elsewhere hvalid _ hd x).trans ?_
    rw [hother j hp.symm]
  · exact (record_materializeAll_elsewhere hvalid _ hj).trans
      (popMembers_frame l.pendingSet max j).2

/-- What a pop answers for a key. -/
def stagedItem (l : Layout) (s : Keyspace) (key : String) : WorkItem :=
  Popped.toItem (key, (s.keyState l key).staged)

end Keyspace

/-! ## What producers leave -/

namespace Production

/-- The scripts that the store runs for a producer. -/
def scripts : Production → List Script
  | set t key fields => CoalescingState.writeScripts t key fields
  | del t key => [.stageDelete t.layout key wakeToken]
  | setBatch t items => items.flatMap fun e => CoalescingState.writeScripts t e.1 e.2
  | delBatch t keys => keys.map fun k => .stageDelete t.layout k wakeToken
  | clear t => [.coalescedClear t.layout]
  | queueSet t key fields => pushed t [{ key, operation := .set, fields }]
  | queueDel t key => pushed t [{ key, operation := .del }]
  | push t item => pushed t [item]
  | pushBatch t items => pushed t items
where
  pushed (t : TableName) (items : List WorkItem) : List Script :=
    [.pushAndPublish t.queue (items.map WorkItem.encode) t.channel wakeToken]

theorem run_pushed {s : MemoryStore} (h : s.failuresDue = 0) (t : TableName)
    (items : List WorkItem) :
    ((OrderedQueue.pushBatch t items).run s).2 = s.afterScripts (scripts.pushed t items) := by
  rw [scripts.pushed, MemoryStore.afterScripts_one, OrderedQueue.pushBatch,
    MemoryStore.run_evalCount h rfl]

theorem run_scripts {s : MemoryStore} (h : s.failuresDue = 0) (p : Production) :
    p.run s = s.afterScripts p.scripts := by
  cases p with
  | set t key fields => rw [run, CoalescingState.run_set t h, scripts]
  | del t key => rw [run, CoalescingState.run_del t h, scripts]
  | setBatch t items => rw [run, CoalescingState.run_setBatch t h, scripts]
  | delBatch t keys => rw [run, CoalescingState.run_delBatch t h, scripts]
  | clear t => rw [run, CoalescingState.run_clear t h, scripts]
  | queueSet t key fields => exact run_pushed h t _
  | queueDel t key => exact run_pushed h t _
  | push t item => exact run_pushed h t _
  | pushBatch t items => exact run_pushed h t items

/-- Producers leave no container empty. -/
theorem tidy_runs (productions : List Production) {s : MemoryStore} (h : s.failuresDue = 0)
    (ht : s.contents.Tidy) :
    (productions.foldl run s).failuresDue = 0 ∧ (productions.foldl run s).contents.Tidy := by
  induction productions generalizing s with
  | nil => exact ⟨h, ht⟩
  | cons p rest ih =>
    rw [List.foldl_cons, p.run_scripts h]
    exact ih h (ht.runAll p.scripts)

end Production

/-! ## Popping batch after batch -/

namespace CoalescingConsumer

/-- Pop batches of these sizes; answers all their items. -/
def popAll {σ : Type} [SharedStore σ] :
    List Nat → CoalescingConsumer → σ → Except BusError (List WorkItem) × CoalescingConsumer × σ
  | [], c, s => (.ok [], c, s)
  | max :: rest, c, s =>
    match c.pop max s with
    | (.error e, c, s) => (.error e, c, s)
    | (.ok items, c, s) =>
      let (more, c, s) := popAll rest c s
      (more.map (items ++ ·), c, s)

/-- The keys that a pop has taken from a store. -/
structure Takes (t : TableName) (keys : List String) (s s' : MemoryStore) : Prop where
  ready : s'.failuresDue = 0
  tidy : s'.contents.Tidy
  nodup : keys.Nodup
  pending : ∀ k ∈ keys, k ∈ s.contents.members t.layout.pendingSet
  landed : Keyspace.Landed t.layout keys s.contents s'.contents

variable {t : TableName} {keys more : List String} {s s' s'' : MemoryStore}

theorem Takes.refl (h : s.failuresDue = 0) (ht : s.contents.Tidy) : Takes t [] s s :=
  ⟨h, ht, List.nodup_nil, by simp, Keyspace.Landed.refl t.layout s.contents⟩

theorem Takes.perm_pending (h : Takes t keys s s') (ht : s.contents.Tidy) :
    (s.contents.members t.layout.pendingSet).Perm
      (keys ++ s'.contents.members t.layout.pendingSet) :=
  h.landed.perm_pending ht.sets h.tidy.sets h.nodup h.pending

/-- A later pop takes other keys, and answers for them what was staged from the first. -/
theorem Takes.trans (h : Takes t keys s s') (h' : Takes t more s' s'') (ht : s.contents.Tidy) :
    Takes t (keys ++ more) s s'' ∧
      more.map (s'.contents.stagedItem t.layout) = more.map (s.contents.stagedItem t.layout) := by
  have hperm := h.perm_pending ht
  have hall := (List.nodup_append.mp (hperm.nodup_iff.mp (ht.sets.nodup _))).2.2
  have hapart : keys.Disjoint more := fun k hk hk' => hall k hk k (h'.pending k hk') rfl
  refine ⟨⟨h'.ready, h'.tidy, h.nodup.append h'.nodup hapart, ?_, h.landed.trans h'.landed hapart⟩,
    ?_⟩
  · intro k hk
    rcases List.mem_append.mp hk with hk | hk
    · exact h.pending k hk
    · exact hperm.symm.subset (List.mem_append_right _ (h'.pending k hk))
  · apply List.map_congr_left
    intro k hk
    have hnot : k ∉ keys := fun hin => hapart hin hk
    rw [Keyspace.stagedItem, h.landed.states, if_neg hnot, Keyspace.stagedItem]

/-- A pop answers for each key that it takes what is staged for it. -/
theorem pop_takes (c : CoalescingConsumer) (ha : c.table.layout.Apart) (hready : s.failuresDue = 0)
    (ht : s.contents.Tidy) (max : Nat) :
    ∃ keys c' s', c.pop max s = (.ok (keys.map (s.contents.stagedItem c.table.layout)), c', s') ∧
      c'.table = c.table ∧ Takes c.table keys s s' ∧
      keys.length = min max (s.contents.members c.table.layout.pendingSet).length := by
  by_cases hmax : max = 0
  · subst hmax
    exact ⟨[], _, s, rfl, rfl, Takes.refl hready ht, by simp⟩
  · obtain ⟨-, hperm, hlength, -⟩ :=
      Keyspace.popMembers_spec ht.sets c.table.layout.pendingSet max
    have hnodup := Keyspace.nodup_popMembers ht.sets c.table.layout.pendingSet max
    have hlanded := Keyspace.landed_coalescedPop ht.sets ha max
    have hpop := c.pop_ready hmax hready (Keyspace.run_coalescedPop ht.sets ha max).1
    rw [List.map_map] at hpop
    refine ⟨_, _, _, hpop, rfl, ⟨hready, (ht.run _).owing [], hnodup, ?_, ?_⟩, hlength⟩
    · exact fun k hk => hperm.symm.subset (List.mem_append_left _ hk)
    · exact ⟨hlanded.states, hlanded.lists, hlanded.sets, hlanded.records⟩

/-- Batch after batch, pops take as many keys as the sizes of the batches allow. -/
theorem popAll_takes (sizes : List Nat) (c : CoalescingConsumer) (ha : c.table.layout.Apart)
    (hready : s.failuresDue = 0) (ht : s.contents.Tidy) :
    ∃ keys c' s', popAll sizes c s =
        (.ok (keys.map (s.contents.stagedItem c.table.layout)), c', s') ∧
      Takes c.table keys s s' ∧
      keys.length = min sizes.sum (s.contents.members c.table.layout.pendingSet).length := by
  induction sizes generalizing c s with
  | nil => exact ⟨[], c, s, rfl, Takes.refl hready ht, by simp⟩
  | cons max rest ih =>
    obtain ⟨keys, c₁, s₁, hpop, htable, htakes, hlength⟩ := c.pop_takes ha hready ht max
    have hrest := ih c₁ (htable ▸ ha) htakes.ready htakes.tidy
    rw [htable] at hrest
    obtain ⟨more, c₂, s₂, hmore, htakes', hlength'⟩ := hrest
    obtain ⟨hall, hitems⟩ := htakes.trans htakes' ht
    have hleft := (htakes.perm_pending ht).length_eq
    refine ⟨keys ++ more, c₂, s₂, ?_, hall, ?_⟩
    · rw [popAll, hpop]
      dsimp only
      rw [hmore, hitems, List.map_append]
      rfl
    · rw [List.length_append] at hleft ⊢
      rw [List.sum_cons]
      omega

/-- The keys that are popped do not depend on how the draws fall, as far as their number and their
items go. -/
theorem popAll_drawing (draws sizes : List Nat) (c : CoalescingConsumer)
    (ha : c.table.layout.Apart) (hready : s.failuresDue = 0) (ht : s.contents.Tidy) :
    ∃ keys c' s', popAll sizes c { s with contents := { s.contents with draws } } =
        (.ok (keys.map (s.contents.stagedItem c.table.layout)), c', s') ∧
      Takes c.table keys s s' ∧
      (s'.contents.members c.table.layout.pendingSet).length =
        (s.contents.members c.table.layout.pendingSet).length - sizes.sum := by
  obtain ⟨keys, c', s', hpop, htakes, hlength⟩ := popAll_takes sizes c ha
    (s := { s with contents := { s.contents with draws } }) hready
    ⟨ht.sets, ht.lists, ht.members, ht.records⟩
  have hlanded := htakes.landed
  have htakes' : Takes c.table keys s s' :=
    ⟨htakes.ready, htakes.tidy, htakes.nodup, htakes.pending,
      hlanded.states, hlanded.lists, hlanded.sets, hlanded.records⟩
  refine ⟨keys, c', s', hpop, htakes', ?_⟩
  have hall := (htakes'.perm_pending ht).length_eq
  have htaken : keys.length =
    min sizes.sum (s.contents.members c.table.layout.pendingSet).length := hlength
  rw [List.length_append] at hall
  omega

/-- Whatever producers of any tables have done: in batches of which sizes the pending keys of a
table are popped, and which keys the pops pick, makes no difference once none is left. The same
items have been handed out, and the store holds the same lists, sets and records. No pop fails,
and none is left as soon as the batches are large enough together. -/
theorem pop_order_is_unobservable (name : String) (announcing : Bool) (draws₀ : List Nat)
    (board : Switchboard) (maxPayload : Nat) (productions : List Production)
    (signal : TokenCounter) (stats : ChannelStats) :
    let t : TableName := { name }
    let s := productions.foldl Production.run
      { contents := { announcing, draws := draws₀ }, board, maxPayload }
    let c : CoalescingConsumer := { table := t, signal, stats }
    let pending (s : MemoryStore) := (s.contents.set t.pendingSet).members
    let drain (draws sizes : List Nat) :=
      popAll sizes c { s with contents := { s.contents with draws } }
    ∀ draws sizes draws' sizes', ∃ items items' c₁ c₂ s₁ s₂,
      drain draws sizes = (.ok items, c₁, s₁) ∧
      drain draws' sizes' = (.ok items', c₂, s₂) ∧
      (pending s₁).length = (pending s).length - sizes.sum ∧
      (pending s₂).length = (pending s).length - sizes'.sum ∧
      (pending s₁ = [] → pending s₂ = [] →
        items.Perm items' ∧ s₁.contents.Matches s₂.contents) := by
  intro t s c pending drain draws sizes draws' sizes'
  have ha : t.layout.Apart := TableName.apart name
  obtain ⟨hready, ht⟩ : s.failuresDue = 0 ∧ s.contents.Tidy :=
    Production.tidy_runs productions rfl (Keyspace.tidy_start announcing draws₀)
  obtain ⟨keys, c₁, s₁, hrun, htakes, hleft⟩ := popAll_drawing draws sizes c ha hready ht
  obtain ⟨keys', c₂, s₂, hrun', htakes', hleft'⟩ := popAll_drawing draws' sizes' c ha hready ht
  refine ⟨_, _, c₁, c₂, s₁, s₂, hrun, hrun', hleft, hleft', ?_⟩
  intro hnone hnone'
  have hperm : (pending s).Perm (keys ++ pending s₁) := htakes.perm_pending ht
  have hperm' : (pending s).Perm (keys' ++ pending s₂) := htakes'.perm_pending ht
  rw [hnone, List.append_nil] at hperm
  rw [hnone', List.append_nil] at hperm'
  have hkeys : keys.Perm keys' := hperm.symm.trans hperm'
  exact ⟨hkeys.map _, htakes.landed.unique htakes'.landed (fun k => hkeys.mem_iff) htakes.tidy
    htakes'.tidy⟩

end CoalescingConsumer

end ControlBus
