-- Coalescing tables as scripts in a row. What producers and consumers of a coalescing table ask of
-- a store in memory comes down to scripts, run one after the other, and these depend on what is
-- stored alone, not on who listens.
import ControlBus.Proofs.CoalescingHistory
import ControlBus.Proofs.MirrorRuns

namespace ControlBus

/-! ## Scripts in a row -/

/-- A payload and its channel, as a switchboard takes them. -/
def Announcement.message (a : Announcement) : String × String := (a.channel, a.payload)

/-- Run scripts one after the other; answers what they announce, oldest first. -/
def Keyspace.runAll : List Script → Keyspace → List Announcement × Keyspace
  | [], k => ([], k)
  | script :: rest, k =>
    let k := (run script k).2
    let (more, k') := runAll rest { k with outbox := [] }
    (k.outbox ++ more, k')

theorem Keyspace.runAll_append (scripts more : List Script) (k : Keyspace) :
    runAll (scripts ++ more) k =
      ((runAll scripts k).1 ++ (runAll more (runAll scripts k).2).1,
        (runAll more (runAll scripts k).2).2) := by
  induction scripts generalizing k with
  | nil => rfl
  | cons script rest ih => simp only [List.cons_append, runAll, ih, List.append_assoc]

theorem Switchboard.publishAll_append (said more : List (String × String)) (b : Switchboard) :
    b.publishAll (said ++ more) = (b.publishAll said).publishAll more := List.foldl_append

namespace MemoryStore

/-- The store after scripts, none of which was due to fail. -/
def afterScripts (scripts : List Script) (s : MemoryStore) : MemoryStore :=
  { s with
    contents := (s.contents.runAll scripts).2
    board := s.board.publishAll ((s.contents.runAll scripts).1.map Announcement.message) }

theorem afterScripts_one (script : Script) (s : MemoryStore) :
    s.afterScripts [script] = s.afterScript script := by
  simp only [afterScripts, Keyspace.runAll, List.append_nil]
  rfl

theorem afterScripts_append (scripts more : List Script) (s : MemoryStore) :
    s.afterScripts (scripts ++ more) = (s.afterScripts scripts).afterScripts more := by
  simp only [afterScripts, Keyspace.runAll_append, List.map_append, Switchboard.publishAll_append]

theorem afterScripts_cons (script : Script) (rest : List Script) (s : MemoryStore) :
    s.afterScripts (script :: rest) = (s.afterScripts [script]).afterScripts rest :=
  afterScripts_append [script] rest s

end MemoryStore

/-! ## Scripts keep the contents tidy -/

namespace Keyspace

variable {k : Keyspace}

/-- Contents without keys. -/
theorem tidy_start (announcing : Bool) (draws : List Nat) :
    ({ announcing, draws } : Keyspace).Tidy :=
  ⟨fun _ => RandomSet.valid_empty, by simp, by simp, by simp⟩

theorem Tidy.popFront (h : k.Tidy) (key : String) (max : Nat) : (k.popFront key max).2.Tidy := by
  unfold Keyspace.popFront
  dsimp only
  split
  · exact h
  · exact (h.withList key _).touch key .lpop

theorem Tidy.run (h : k.Tidy) (script : Script) : (k.run script).2.Tidy := by
  cases script with
  | pushAndPublish list entries channel payload =>
    exact (Follows.pushAndPublish h list entries channel payload).tidy
  | popFront list max => exact h.popFront list max
  | stageWrite l key fields token => exact (Follows.stageWrite h l key fields token).tidy
  | stageDelete l key token => exact (Follows.stageDelete h l key token).tidy
  | coalescedPop l max => exact (Follows.materializeAll (h.popMembers l.pendingSet max) l _).tidy
  | coalescedClear l =>
    have hpop := h.popMembers l.pendingSet (k.setSize l.pendingSet)
    have hdrop := (Follows.dropStaged hpop l
      (k.popMembers l.pendingSet (k.setSize l.pendingSet)).1).tidy
    exact (Follows.delete hdrop l.deleteSet).tidy

theorem Tidy.runAll (h : k.Tidy) (scripts : List Script) : (k.runAll scripts).2.Tidy := by
  induction scripts generalizing k with
  | nil => exact h
  | cons script rest ih => exact ih ((h.run script).owing [])

/-! ## What scripts announce -/

/-- All that is announced on the way tells of changed keys. -/
def Touches (s s' : Keyspace) : Prop :=
  ∃ more, s'.outbox = s.outbox ++ more ∧
    ∀ a ∈ more, ∃ key, ∃ tag : ChangeTag, a = ⟨keyspaceChannel key, tag.word⟩

namespace Touches

variable {s s' s'' : Keyspace}

theorem refl (s : Keyspace) : Touches s s := ⟨[], (List.append_nil _).symm, by simp⟩

theorem trans (h : Touches s s') (h' : Touches s' s'') : Touches s s'' := by
  obtain ⟨more, hmore, htags⟩ := h
  obtain ⟨further, hfurther, htags'⟩ := h'
  refine ⟨more ++ further, by rw [hfurther, hmore, List.append_assoc], ?_⟩
  intro a ha
  rcases List.mem_append.mp ha with ha | ha
  · exact htags a ha
  · exact htags' a ha

theorem touch (s' : Keyspace) (ho : s'.outbox = s.outbox) (key : String) (tag : ChangeTag) :
    Touches s (s'.touch key tag) := by
  unfold Keyspace.touch
  split
  · refine ⟨[⟨keyspaceChannel key, tag.word⟩], by rw [announce, ho], ?_⟩
    intro a ha
    exact ⟨key, tag, List.mem_singleton.mp ha⟩
  · exact ⟨[], by rw [ho, List.append_nil], by simp⟩

theorem addMember (key member : String) : Touches s (s.addMember key member).2 := by
  unfold Keyspace.addMember
  split
  · exact touch (s.withSet key _) rfl key .sadd
  · exact refl s

theorem removeMember (key member : String) : Touches s (s.removeMember key member).2 := by
  unfold Keyspace.removeMember
  split
  · exact touch (s.withSet key _) rfl key .srem
  · exact refl s

theorem popMembers (key : String) (max : Nat) : Touches s (s.popMembers key max).2 := by
  unfold Keyspace.popMembers
  dsimp only
  split
  · exact refl s
  · exact touch (withSet key _ { s with draws := _ }) rfl key .spop

theorem mergeFields (key : String) (fields : FieldList) : Touches s (s.mergeFields key fields) := by
  unfold Keyspace.mergeFields
  split
  · exact refl s
  · exact touch { s with records := _ } rfl key .hset

theorem takeRecord (key : String) : Touches s (s.takeRecord key).2 := by
  unfold Keyspace.takeRecord
  split
  · exact touch { s with records := _ } rfl key .del
  · exact refl s

theorem delete (key : String) : Touches s (s.delete key).2 := by
  unfold Keyspace.delete
  split
  · exact touch { s with lists := _, sets := _, records := _ } rfl key .del
  · exact refl s

theorem honourDelete (l : Layout) (key : String) : Touches s (s.honourDelete l key) := by
  have hremove := removeMember (s := s) l.deleteSet key
  unfold Keyspace.honourDelete
  split
  · rename_i marked heq
    rw [heq] at hremove
    exact hremove.trans (takeRecord (l.recordKey key))
  · rename_i unmarked heq
    rw [heq] at hremove
    exact hremove

theorem materialize (l : Layout) (key : String) : Touches s (s.materialize l key).2 :=
  (honourDelete l key).trans ((takeRecord (l.stagingKey key)).trans
    (mergeFields (l.recordKey key) _))

theorem materializeAll (l : Layout) (keys : List String) :
    Touches s (s.materializeAll l keys).2 := by
  induction keys generalizing s with
  | nil => exact refl s
  | cons key rest ih => exact (materialize l key).trans ih

theorem dropStaged (l : Layout) (keys : List String) : Touches s (s.dropStaged l keys) := by
  induction keys generalizing s with
  | nil => exact refl s
  | cons key rest ih => exact (takeRecord (l.stagingKey key)).trans ih

theorem coalescedPop (l : Layout) (max : Nat) : Touches s (s.run (.coalescedPop l max)).2 :=
  (popMembers l.pendingSet max).trans (materializeAll l _)

theorem coalescedClear (l : Layout) : Touches s (s.run (.coalescedClear l)).2 :=
  (popMembers l.pendingSet _).trans ((dropStaged l _).trans (delete l.deleteSet))

/-- No token is announced on the way. -/
theorem count_token (h : Touches s s') (channel : String) :
    s'.outbox.count ⟨channel, wakeToken⟩ = s.outbox.count ⟨channel, wakeToken⟩ := by
  obtain ⟨more, hmore, htags⟩ := h
  rw [hmore, List.count_append, Nat.add_eq_left, List.count_eq_zero]
  intro hin
  obtain ⟨key, tag, heq⟩ := htags _ hin
  have hword : wakeToken = tag.word := congrArg Announcement.payload heq
  cases tag <;> exact absurd hword (by decide)

end Touches

/-- A key sends its token just if it was not pending. -/
theorem count_markPending (h : k.SetsValid) (l : Layout) (key : String) :
    (k.markPending l key wakeToken).2.outbox.count ⟨l.channel, wakeToken⟩ =
      k.outbox.count ⟨l.channel, wakeToken⟩ + if key ∈ k.members l.pendingSet then 0 else 1 := by
  have hadd := Touches.addMember (s := k) l.pendingSet key
  have hnew := addMember_fst h l.pendingSet key
  unfold markPending
  split
  · rename_i k' heq
    rw [heq] at hadd hnew
    have hnot : key ∉ k.members l.pendingSet := by simpa using hnew
    rw [if_neg hnot, announce, List.count_append, hadd.count_token, List.count_singleton_self]
  · rename_i k' heq
    rw [heq] at hadd hnew
    have hin : key ∈ k.members l.pendingSet := by simpa using hnew
    rw [if_pos hin, hadd.count_token]
    rfl

theorem count_stageWrite (h : k.SetsValid) (l : Layout) (key : String) (fields : FieldList) :
    (k.run (.stageWrite l key fields wakeToken)).2.outbox.count ⟨l.channel, wakeToken⟩ =
      k.outbox.count ⟨l.channel, wakeToken⟩ + if key ∈ k.members l.pendingSet then 0 else 1 := by
  have hframe := mergeFields_frame (s := k) (l.stagingKey key) fields
  have hmark := count_markPending (h.of_eq fun j => (hframe j).2) l key
  rw [members_congr (hframe l.pendingSet).2, (Touches.mergeFields _ _).count_token] at hmark
  exact hmark

theorem count_stageDelete (h : k.SetsValid) (ha : l.Apart) (key : String) :
    (k.run (.stageDelete l key wakeToken)).2.outbox.count ⟨l.channel, wakeToken⟩ =
      k.outbox.count ⟨l.channel, wakeToken⟩ + if key ∈ k.members l.pendingSet then 0 else 1 := by
  have hframe := takeRecord_frame (s := k) (l.stagingKey key)
  have htake : (k.takeRecord (l.stagingKey key)).2.SetsValid := h.of_eq fun j => (hframe j).2
  have hmark := count_markPending (htake.addMember l.deleteSet key) l key
  have hsame : key ∈ (((k.takeRecord (l.stagingKey key)).2.addMember l.deleteSet key).2).members
      l.pendingSet ↔ key ∈ k.members l.pendingSet := by
    rw [mem_addMember htake, members_congr (hframe l.pendingSet).2]
    simp [ha.sets]
  simp only [hsame] at hmark
  rw [(Touches.addMember _ _).count_token, (Touches.takeRecord _).count_token] at hmark
  exact hmark

end Keyspace

/-! ## What producers run -/

namespace CoalescingState

variable (t : TableName) {s : MemoryStore}

/-- The script of a write; a write without fields runs none. -/
def writeScripts (key : String) (fields : FieldList) : List Script :=
  if fields.isEmpty then [] else [.stageWrite t.layout key fields wakeToken]

theorem run_set (h : s.failuresDue = 0) (key : String) (fields : FieldList) :
    (set t key fields).run s = (.ok (), s.afterScripts (writeScripts t key fields)) := by
  unfold set writeScripts
  split
  · rfl
  · obtain ⟨n, hn⟩ := s.contents.run_stageWrite_fst t.layout key fields wakeToken
    rw [StoreOp.run_bind, MemoryStore.run_evalCount h hn, MemoryStore.afterScripts_one]
    rfl

theorem run_del (h : s.failuresDue = 0) (key : String) :
    (del t key).run s = (.ok (), s.afterScripts [.stageDelete t.layout key wakeToken]) := by
  obtain ⟨n, hn⟩ := s.contents.run_stageDelete_fst t.layout key wakeToken
  rw [del, StoreOp.run_bind, MemoryStore.run_evalCount h hn, MemoryStore.afterScripts_one]
  rfl

theorem run_setBatch (h : s.failuresDue = 0) (items : List (String × FieldList)) :
    (setBatch t items).run s =
      (.ok (), s.afterScripts (items.flatMap fun e => writeScripts t e.1 e.2)) := by
  induction items generalizing s with
  | nil => rfl
  | cons e rest ih =>
    rw [setBatch, StoreOp.run_bind, run_set t h, List.flatMap_cons,
      MemoryStore.afterScripts_append]
    exact ih h

theorem run_delBatch (h : s.failuresDue = 0) (keys : List String) :
    (delBatch t keys).run s =
      (.ok (), s.afterScripts (keys.map fun k => .stageDelete t.layout k wakeToken)) := by
  induction keys generalizing s with
  | nil => rfl
  | cons key rest ih =>
    rw [List.map_cons, MemoryStore.afterScripts_cons, delBatch, StoreOp.run_bind, run_del t h]
    exact ih h

/-- Clearing answers the number of keys it draws. -/
theorem run_clear (h : s.failuresDue = 0) :
    (clear t).run s =
      (.ok (s.contents.popMembers t.pendingSet (s.contents.setSize t.pendingSet)).1.length,
        s.afterScripts [.coalescedClear t.layout]) := by
  rw [MemoryStore.afterScripts_one]
  exact MemoryStore.run_evalCount h rfl

end CoalescingState

/-! ## What consumers run -/

theorem Keyspace.keys_materializeAll (l : Layout) (keys : List String) (k : Keyspace) :
    (k.materializeAll l keys).1.map (·.1) = keys := by
  induction keys generalizing k with
  | nil => rfl
  | cons key rest ih =>
    have hrest := ih (k.materialize l key).2
    exact congrArg (key :: ·) hrest

theorem Popped.key_toItem (p : Popped) : p.toItem.key = p.1 := by
  unfold toItem
  split <;> rfl

namespace CoalescingConsumer

/-- The script of a pop; a pop of nothing runs none. -/
def popScripts (t : TableName) (max : Nat) : List Script :=
  if max = 0 then [] else [.coalescedPop t.layout max]

/-- A pop answers an item for each key that it draws. -/
theorem run_pop (c : CoalescingConsumer) {s : MemoryStore} (h : s.failuresDue = 0) (max : Nat) :
    ∃ items c', c.pop max s = (.ok items, c', s.afterScripts (popScripts c.table max)) ∧
      c'.table = c.table ∧
      items.map (·.key) = (s.contents.popMembers c.table.pendingSet max).1 := by
  by_cases hmax : max = 0
  · subst hmax
    refine ⟨[], _, rfl, rfl, ?_⟩
    simp [Keyspace.popMembers, RandomSet.drawMany]
  · have hout : (Keyspace.run (.coalescedPop c.table.layout max) s.contents).1 =
        .records ((s.contents.popMembers c.table.pendingSet max).2.materializeAll c.table.layout
          (s.contents.popMembers c.table.pendingSet max).1).1 := rfl
    have hkeys := Keyspace.keys_materializeAll c.table.layout
      (s.contents.popMembers c.table.pendingSet max).1
      (s.contents.popMembers c.table.pendingSet max).2
    generalize ((s.contents.popMembers c.table.pendingSet max).2.materializeAll c.table.layout
      (s.contents.popMembers c.table.pendingSet max).1).1 = records at hout hkeys
    have hitems : (records.map Popped.toItem).map (·.key) =
        (s.contents.popMembers c.table.pendingSet max).1 := by
      rw [← hkeys, List.map_map]
      exact List.map_congr_left fun p _ => p.key_toItem
    rw [popScripts, if_neg hmax, MemoryStore.afterScripts_one]
    exact ⟨_, _, c.pop_ready hmax h hout, rfl, hitems⟩

end CoalescingConsumer

/-! ## Runs of a table -/

namespace TableAct

/-- The scripts that an act runs. -/
def scripts (t : TableName) : TableAct → List Script
  | .set key fields => CoalescingState.writeScripts t key fields
  | .del key => [.stageDelete t.layout key wakeToken]
  | .setBatch items => items.flatMap fun e => CoalescingState.writeScripts t e.1 e.2
  | .delBatch keys => keys.map fun k => .stageDelete t.layout k wakeToken
  | .clear => [.coalescedClear t.layout]
  | .pop max => CoalescingConsumer.popScripts t max

end TableAct

namespace TableRun

variable {t : TableName} {r : TableRun}

theorem store_act (hready : r.store.failuresDue = 0) (ht : r.consumer.table = t) (a : TableAct) :
    (r.act t a).store = r.store.afterScripts (a.scripts t) ∧ (r.act t a).consumer.table = t := by
  cases a with
  | set key fields =>
    refine ⟨?_, ht⟩
    rw [act, produce, CoalescingState.run_set t hready]
    rfl
  | del key =>
    refine ⟨?_, ht⟩
    rw [act, produce, CoalescingState.run_del t hready]
    rfl
  | setBatch items =>
    refine ⟨?_, ht⟩
    rw [act, produce, CoalescingState.run_setBatch t hready]
    rfl
  | delBatch keys =>
    refine ⟨?_, ht⟩
    rw [act, produce, CoalescingState.run_delBatch t hready]
    rfl
  | clear =>
    refine ⟨?_, ht⟩
    rw [act, produce, CoalescingState.run_clear t hready]
    rfl
  | pop max =>
    obtain ⟨items, c', hpop, hc', -⟩ := r.consumer.run_pop hready max
    rw [act, pop, hpop]
    subst ht
    exact ⟨rfl, hc'⟩

/-- A run of a table is a run of scripts. -/
theorem store_run (hready : r.store.failuresDue = 0) (ht : r.consumer.table = t)
    (acts : List TableAct) :
    (r.run t acts).store = r.store.afterScripts (acts.flatMap (·.scripts t)) := by
  induction acts generalizing r with
  | nil => rfl
  | cons a rest ih =>
    obtain ⟨hstore, htable⟩ := store_act hready ht a
    rw [List.flatMap_cons, MemoryStore.afterScripts_append, ← hstore]
    apply ih
    · rw [hstore]
      exact hready
    · exact htable

end TableRun

end ControlBus
