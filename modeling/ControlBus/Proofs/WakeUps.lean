-- Wake-ups as the store gives them: whoever changes the store with a script, work that appears
-- where there was none comes with a token for everybody who listens to its table.
import ControlBus.Channel.Consumer
import ControlBus.Proofs.KeyStates
import ControlBus.Proofs.MemoryLaws
import ControlBus.Proofs.SwitchboardLaws

namespace ControlBus

/-! ## Work -/

/-- The two ways in which a table holds work in the store. -/
inductive WorkKind where
  | queued
  | coalesced
deriving DecidableEq

/-- What waits to be popped: the entries of the queue, or the pending keys. -/
def WorkKind.work (kind : WorkKind) (t : TableName) (c : Keyspace) : List String :=
  match kind with
  | queued => c.list t.queue
  | coalesced => c.members t.pendingSet

namespace MemoryStore

/-- A store whose sets are in order and whose notifications get through. -/
structure Sane (s : MemoryStore) : Prop where
  working : s.board.Working
  valid : s.contents.SetsValid

/-- A change of the store after which nobody misses anything: listeners go on listening, what
they have not read is not lost, and whoever listens to a table without work can read something
once there is work. -/
structure Wakes (s s' : MemoryStore) : Prop where
  sane : s'.Sane
  listens : ∀ id channel, s.board.Listens id channel → s'.board.Listens id channel
  unread : ∀ id channel, s.board.Listens id channel → s.board.inbox id ≠ [] →
    s'.board.inbox id ≠ []
  roused : ∀ (kind : WorkKind) (t : TableName) id, s.board.Listens id t.channel →
    kind.work t s.contents = [] → kind.work t s'.contents ≠ [] → s'.board.inbox id ≠ []

variable {s s' s'' : MemoryStore}

theorem Wakes.refl (h : s.Sane) : Wakes s s where
  sane := h
  listens _ _ hl := hl
  unread _ _ _ hne := hne
  roused _ _ _ _ he hne := absurd he hne

theorem Wakes.trans (h : Wakes s s') (h' : Wakes s' s'') : Wakes s s'' where
  sane := h'.sane
  listens id channel hl := h'.listens id channel (h.listens id channel hl)
  unread id channel hl hne :=
    h'.unread id channel (h.listens id channel hl) (h.unread id channel hl hne)
  roused kind t id hl he hne := by
    have hl' := h.listens id t.channel hl
    by_cases hmid : kind.work t s'.contents = []
    · exact h'.roused kind t id hl' hmid hne
    · exact h'.unread id t.channel hl' (h.roused kind t id hl he hmid)

/-- Failures that are due, or no longer due, are no concern of anybody who waits. -/
theorem wakes_failures (h : s.Sane) (n : Nat) : Wakes s { s with failuresDue := n } where
  sane := ⟨h.working, h.valid⟩
  listens _ _ hl := hl
  unread _ _ _ hne := hne
  roused _ _ _ _ he hne := absurd he hne

/-- A script wakes everybody if it announces the work that it makes. -/
theorem wakes_afterScript {script : Script} (h : s.Sane)
    (hv : (Keyspace.run script s.contents).2.SetsValid)
    (hnew : ∀ (kind : WorkKind) (t : TableName), kind.work t s.contents = [] →
      kind.work t (Keyspace.run script s.contents).2 ≠ [] →
      ∃ payload, (⟨t.channel, payload⟩ : Announcement) ∈
        (Keyspace.run script s.contents).2.outbox) :
    Wakes s (s.afterScript script) where
  sane := ⟨h.working.publishAll _, hv⟩
  listens id channel hl := (hl.publishAll _).1
  unread id channel hl hne := (hl.publishAll _).2 hne
  roused kind t id hl he hne := by
    obtain ⟨payload, hp⟩ := hnew kind t he hne
    exact hl.rouseAll h.working (List.mem_map.mpr ⟨_, hp, rfl⟩)

/-- A script that makes no work needs no announcement. -/
theorem wakes_of_shrink {script : Script} (h : s.Sane)
    (hv : (Keyspace.run script s.contents).2.SetsValid)
    (hshrink : ∀ (kind : WorkKind) (t : TableName), kind.work t s.contents = [] →
      kind.work t (Keyspace.run script s.contents).2 = []) :
    Wakes s (s.afterScript script) :=
  wakes_afterScript h hv fun kind t he hne => absurd (hshrink kind t he) hne

end MemoryStore

/-! ## Scripts that make work -/

namespace Keyspace

variable {s : Keyspace}

theorem markPending_list (l : Layout) (key token j : String) :
    (s.markPending l key token).2.list j = s.list j := by
  have hf := (addMember_frame (s := s) l.pendingSet key j).1
  unfold markPending
  split
  · rename_i s' hs
    rw [hs] at hf
    exact hf
  · rename_i s' hs
    rw [hs] at hf
    exact hf

theorem mem_markPending (h : s.SetsValid) (l : Layout) (key token j x : String) :
    x ∈ (s.markPending l key token).2.members j ↔ x ∈ s.members j ∨ j = l.pendingSet ∧ x = key := by
  rw [← mem_addMember h]
  unfold markPending
  split
  · rename_i s' hs
    rw [hs]
    rfl
  · rename_i s' hs
    rw [hs]

/-- A key that was not pending sends the token. -/
theorem announced_markPending (h : s.SetsValid) {l : Layout} {key : String}
    (hnot : key ∉ s.members l.pendingSet) (token : String) :
    (⟨l.channel, token⟩ : Announcement) ∈ (s.markPending l key token).2.outbox := by
  have hfst := addMember_fst h l.pendingSet key
  unfold markPending
  split
  · simp [announce]
  · rename_i s' hs
    rw [hs] at hfst
    simp [hnot] at hfst

end Keyspace

namespace MemoryStore

variable {s : MemoryStore}

theorem wakes_push (h : s.Sane) (t : TableName) (entries : List String) :
    Wakes s (s.afterScript (.pushAndPublish t.queue entries t.channel wakeToken)) := by
  refine wakes_afterScript h
    (h.valid.of_eq fun j => (Keyspace.pushBack_frame t.queue entries j).1) fun kind u he hne => ?_
  cases kind with
  | queued =>
    have hlist := Keyspace.list_pushBack (s := s.contents) t.queue entries u.queue
    by_cases hq : t.queue = u.queue
    · have hchannel : t.channel = u.channel := by
        rw [TableName.channel, TableName.channel, TableName.queue_inj hq]
      refine ⟨wakeToken, ?_⟩
      rw [← hchannel]
      simp [Keyspace.run, Keyspace.announce]
    · rw [if_neg hq] at hlist
      exact absurd (hlist.trans he) hne
  | coalesced =>
    have hsame : (Keyspace.run (.pushAndPublish t.queue entries t.channel wakeToken)
        s.contents).2.members u.pendingSet = s.contents.members u.pendingSet :=
      Keyspace.members_congr (Keyspace.pushBack_frame t.queue entries u.pendingSet).1
    exact absurd (hsame.trans he) hne

/-- Marking a key pending, after changes that touch no queue and no pending set. -/
theorem wakes_markPending (h : s.Sane) {script : Script} {c : Keyspace} {t : TableName}
    {key : String} (hrun : (Keyspace.run script s.contents).2 =
      (c.markPending t.layout key wakeToken).2) (hc : c.SetsValid)
    (hlist : ∀ u : TableName, c.list u.queue = s.contents.list u.queue)
    (hset : ∀ u : TableName, c.members u.pendingSet = s.contents.members u.pendingSet) :
    Wakes s (s.afterScript script) := by
  refine wakes_afterScript h ?_ fun kind u he hne => ?_
  · rw [hrun]
    exact hc.markPending t.layout key wakeToken
  rw [hrun] at hne ⊢
  cases kind with
  | queued =>
    have hsame := Keyspace.markPending_list (s := c) t.layout key wakeToken u.queue
    exact absurd ((hsame.trans (hlist u)).trans he) hne
  | coalesced =>
    obtain ⟨x, hx⟩ := List.exists_mem_of_ne_nil _ hne
    have hempty : c.members u.pendingSet = [] := (hset u).trans he
    rcases (Keyspace.mem_markPending hc t.layout key wakeToken u.pendingSet x).mp hx with
      hold | ⟨hpending, -⟩
    · rw [hempty] at hold
      cases hold
    · have hchannel : t.channel = u.channel := by
        rw [TableName.channel, TableName.channel, TableName.pendingSet_inj hpending.symm]
      have hnot : key ∉ c.members t.layout.pendingSet := by
        rw [← hpending, hempty]
        exact List.not_mem_nil
      refine ⟨wakeToken, ?_⟩
      rw [← hchannel]
      exact Keyspace.announced_markPending hc hnot wakeToken

theorem wakes_stageWrite (h : s.Sane) (t : TableName) (key : String) (fields : FieldList) :
    Wakes s (s.afterScript (.stageWrite t.layout key fields wakeToken)) :=
  wakes_markPending h (c := s.contents.mergeFields (t.layout.stagingKey key) fields) rfl
    (h.valid.of_eq fun j => (Keyspace.mergeFields_frame _ fields j).2)
    (fun u => (Keyspace.mergeFields_frame _ fields u.queue).1)
    (fun u => Keyspace.members_congr (Keyspace.mergeFields_frame _ fields u.pendingSet).2)

theorem wakes_stageDelete (h : s.Sane) (t : TableName) (key : String) :
    Wakes s (s.afterScript (.stageDelete t.layout key wakeToken)) := by
  have hv : (s.contents.takeRecord (t.layout.stagingKey key)).2.SetsValid :=
    h.valid.of_eq fun j => (Keyspace.takeRecord_frame _ j).2
  refine wakes_markPending h
    (c := ((s.contents.takeRecord (t.layout.stagingKey key)).2.addMember t.layout.deleteSet key).2)
    rfl (hv.addMember t.layout.deleteSet key) (fun u => ?_) (fun u => ?_)
  · exact (Keyspace.addMember_frame t.layout.deleteSet key u.queue).1.trans
      (Keyspace.takeRecord_frame _ u.queue).1
  · rw [Keyspace.members_addMember hv,
      if_neg fun hs => TableName.pendingSet_ne_deleteSet u t hs.1.symm]
    exact Keyspace.members_congr (Keyspace.takeRecord_frame _ u.pendingSet).2

end MemoryStore

/-! ## Scripts that take work -/

namespace Keyspace

variable {s : Keyspace}

theorem list_materializeAll (l : Layout) (keys : List String) (j : String) :
    (s.materializeAll l keys).2.list j = s.list j := by
  induction keys generalizing s with
  | nil => rfl
  | cons key rest ih =>
    refine ih.trans ?_
    have hremove := (removeMember_frame (s := s) l.deleteSet key j).1
    have hhonour : (s.honourDelete l key).list j = s.list j := by
      unfold honourDelete
      split
      · rename_i s' hs
        rw [hs] at hremove
        exact (takeRecord_frame _ j).1.trans hremove
      · rename_i s' hs
        rw [hs] at hremove
        exact hremove
    exact ((mergeFields_frame _ _ j).1.trans (takeRecord_frame _ j).1).trans hhonour

theorem length_materializeAll (l : Layout) (keys : List String) :
    (s.materializeAll l keys).1.length = keys.length := by
  induction keys generalizing s with
  | nil => rfl
  | cons key rest ih => simp [materializeAll, ih]

theorem mem_of_mem_materializeAll (h : s.SetsValid) {l : Layout} {keys : List String}
    {j x : String} (hx : x ∈ (s.materializeAll l keys).2.members j) : x ∈ s.members j := by
  induction keys generalizing s with
  | nil => exact hx
  | cons key rest ih =>
    have hx' := ih (h.materialize l key) hx
    have hsame : (s.materialize l key).2.members j = (s.honourDelete l key).members j :=
      members_congr ((mergeFields_frame _ _ j).2.trans (takeRecord_frame _ j).2)
    rw [hsame, mem_honourDelete h] at hx'
    exact hx'.1

theorem mem_of_mem_popMembers (h : s.SetsValid) {key : String} {max : Nat} {j x : String}
    (hx : x ∈ (s.popMembers key max).2.members j) : x ∈ s.members j := by
  by_cases hj : key = j
  · subst hj
    exact ((mem_popMembers h key max x).mp hx).1
  · rwa [(popMembers_spec h key max).2.2.2 j hj] at hx

theorem mem_of_mem_delete {key j x : String} (hx : x ∈ (s.delete key).2.members j) :
    x ∈ s.members j := by
  unfold members at hx
  rw [(delete_spec key j).2.1] at hx
  split at hx
  · cases hx
  · exact hx

theorem mem_of_mem_coalescedClear (h : s.SetsValid) {l : Layout} {j x : String}
    (hx : x ∈ (run (.coalescedClear l) s).2.members j) : x ∈ s.members j := by
  have hdropped := mem_of_mem_delete hx
  rw [members_congr (dropStaged_frame l _ j).2] at hdropped
  exact mem_of_mem_popMembers h hdropped

theorem list_coalescedClear (l : Layout) (j : String) :
    (run (.coalescedClear l) s).2.list j = if l.deleteSet = j then [] else s.list j := by
  simp only [run]
  rw [(delete_spec l.deleteSet j).1, (dropStaged_frame l _ j).1,
    (popMembers_frame l.pendingSet _ j).1]

end Keyspace

namespace MemoryStore

variable {s : MemoryStore}

theorem wakes_popFront (h : s.Sane) (queue : String) (max : Nat) :
    Wakes s (s.afterScript (.popFront queue max)) := by
  refine wakes_of_shrink h (h.valid.of_eq fun j => (Keyspace.popFront_frame queue max j).1)
    fun kind t he => ?_
  cases kind with
  | queued =>
    refine (Keyspace.list_popFront (s := s.contents) queue max t.queue).trans ?_
    rw [show s.contents.list t.queue = [] from he]
    simp
  | coalesced =>
    exact (Keyspace.members_congr (Keyspace.popFront_frame queue max t.pendingSet).1).trans he

theorem wakes_coalescedPop (h : s.Sane) (l : Layout) (max : Nat) :
    Wakes s (s.afterScript (.coalescedPop l max)) := by
  have hv := (Keyspace.popMembers_spec h.valid l.pendingSet max).1
  refine wakes_of_shrink h (h.valid.coalescedPop l max) ?_
  intro kind t he
  cases kind with
  | queued =>
    exact ((Keyspace.list_materializeAll l _ t.queue).trans
      (Keyspace.popMembers_frame l.pendingSet max t.queue).1).trans he
  | coalesced =>
    apply List.eq_nil_iff_forall_not_mem.mpr
    intro x hx
    have hin := Keyspace.mem_of_mem_popMembers h.valid (Keyspace.mem_of_mem_materializeAll hv hx)
    rw [show s.contents.members t.pendingSet = [] from he] at hin
    cases hin

theorem wakes_coalescedClear (h : s.Sane) (l : Layout) :
    Wakes s (s.afterScript (.coalescedClear l)) := by
  refine wakes_of_shrink h (h.valid.coalescedClear l) ?_
  intro kind t he
  cases kind with
  | queued =>
    refine (Keyspace.list_coalescedClear l t.queue).trans ?_
    rw [show s.contents.list t.queue = [] from he]
    exact ite_self _
  | coalesced =>
    apply List.eq_nil_iff_forall_not_mem.mpr
    intro x hx
    have hin := Keyspace.mem_of_mem_coalescedClear h.valid hx
    rw [show s.contents.members t.pendingSet = [] from he] at hin
    cases hin

end MemoryStore

/-! ## Operations -/

namespace StoreOp

variable {α β : Type}

/-- An operation after which nobody misses anything, whether it succeeds or not. -/
def Rouses (op : StoreOp MemoryStore α) : Prop :=
  ∀ s : MemoryStore, s.Sane → s.Wakes (op.run s).2

theorem rouses_pure (a : α) : Rouses (pure a) := fun _ h => MemoryStore.Wakes.refl h

theorem Rouses.bind {op : StoreOp MemoryStore α} {next : α → StoreOp MemoryStore β}
    (h : op.Rouses) (hnext : ∀ a, (next a).Rouses) : (op >>= next).Rouses := by
  intro s hs
  have hop := h s hs
  rw [run_bind]
  rcases hr : op.run s with ⟨result, s'⟩
  rw [hr] at hop
  cases result with
  | ok a => exact hop.trans (hnext a s' hop.sane)
  | error e => exact hop

/-- A failure that is due changes nothing that anybody waits for. -/
theorem rouses_script {script : Script} (read : Output → Except BusError α)
    (h : ∀ s : MemoryStore, s.Sane → s.Wakes (s.afterScript script)) :
    Rouses (do liftM (read (← SharedStore.eval script)) : StoreOp MemoryStore α) := by
  intro s hs
  rw [MemoryStore.run_reading]
  cases s.failuresDue with
  | zero => exact h s hs
  | succ n => exact MemoryStore.wakes_failures hs n

end StoreOp

theorem OrderedQueue.rouses_pushBatch (t : TableName) (items : List WorkItem) :
    StoreOp.Rouses (OrderedQueue.pushBatch t items) :=
  StoreOp.rouses_script _ fun _ h => MemoryStore.wakes_push h t _

namespace CoalescingState

theorem rouses_set (t : TableName) (key : String) (fields : FieldList) :
    StoreOp.Rouses (set t key fields) := by
  unfold set
  split
  · exact StoreOp.rouses_pure ()
  · exact StoreOp.Rouses.bind
      (StoreOp.rouses_script _ fun _ h => MemoryStore.wakes_stageWrite h t key fields)
      fun _ => StoreOp.rouses_pure ()

theorem rouses_del (t : TableName) (key : String) : StoreOp.Rouses (del t key) :=
  StoreOp.Rouses.bind (StoreOp.rouses_script _ fun _ h => MemoryStore.wakes_stageDelete h t key)
    fun _ => StoreOp.rouses_pure ()

theorem rouses_setBatch (t : TableName) (items : List (String × FieldList)) :
    StoreOp.Rouses (setBatch t items) := by
  induction items with
  | nil => exact StoreOp.rouses_pure ()
  | cons e rest ih => exact (rouses_set t e.1 e.2).bind fun _ => ih

theorem rouses_delBatch (t : TableName) (keys : List String) :
    StoreOp.Rouses (delBatch t keys) := by
  induction keys with
  | nil => exact StoreOp.rouses_pure ()
  | cons key rest ih => exact (rouses_del t key).bind fun _ => ih

theorem rouses_clear (t : TableName) : StoreOp.Rouses (clear t) :=
  StoreOp.rouses_script _ fun _ h => MemoryStore.wakes_coalescedClear h t.layout

end CoalescingState

/-! ## Posts -/

/-- While the store exists a look at a subscription does not fail, and brings what one inbox can
hold. -/
theorem drainSubscription_live (name : String) (id : Nat) {b : Switchboard} (h : b.live = true) :
    (∀ e, (drainSubscription name id b).1 ≠ .failed e) ∧
      (drainSubscription name id b).2.1 = (b.inbox id).take b.capacity ∧
      (drainSubscription name id b).2.2 = (b.read b.capacity id).2 := by
  have hopen : b.exhausted id = false := by simp [Switchboard.exhausted, h]
  unfold drainSubscription
  rw [if_neg (by simp [hopen])]
  refine ⟨fun e => ?_, rfl, rfl⟩
  dsimp only
  split <;> simp

/-- Where a consumer stands: what it waits for, and how it notices. -/
structure Post where
  kind : WorkKind
  table : TableName
  signal : TokenCounter

namespace Post

def work (p : Post) (s : MemoryStore) : List String := p.kind.work p.table s.contents

def Listens (p : Post) (s : MemoryStore) : Prop :=
  s.board.Listens p.signal.subscription p.table.channel

/-- If there is work, the count says so or something is still to be read. -/
def Awake (p : Post) (s : MemoryStore) : Prop :=
  p.work s ≠ [] → 0 < p.signal.pending ∨ s.board.inbox p.signal.subscription ≠ []

variable {p : Post} {s s' : MemoryStore}

theorem Awake.wakes (h : p.Awake s) (hl : p.Listens s) (hw : s.Wakes s') : p.Awake s' := by
  intro hne
  by_cases he : p.work s = []
  · exact Or.inr (hw.roused p.kind p.table _ hl he hne)
  · rcases h he with hpending | hunread
    · exact Or.inl hpending
    · exact Or.inr (hw.unread _ _ hl hunread)

/-- A change of the board alone, which takes nothing from this post's inbox. -/
theorem Awake.board (h : p.Awake s) {b : Switchboard}
    (hb : b.inbox p.signal.subscription = s.board.inbox p.signal.subscription) :
    p.Awake { s with board := b } := by
  intro hne
  rw [show ({ s with board := b } : MemoryStore).board = b from rfl, hb]
  exact h hne

/-- A post after a look at its inbox: it stands where it stood, and what there was to read is
counted. -/
structure Took (p q : Post) (s : MemoryStore) : Prop where
  kind : q.kind = p.kind
  table : q.table = p.table
  subscription : q.signal.subscription = p.signal.subscription
  counted : p.signal.pending ≤ q.signal.pending
  read : 0 < q.signal.pending ∨ s.board.inbox p.signal.subscription = []

/-- Tokens that are taken in move from the inbox to the count. -/
theorem poll_spec (p : Post) (hw : s.board.Working) :
    (∀ e, (p.signal.poll s.board).1 ≠ .failed e) ∧
      p.Took { p with signal := (p.signal.poll s.board).2.1 } s ∧
      (p.signal.poll s.board).2.2 = (s.board.read s.board.capacity p.signal.subscription).2 := by
  have hdrain := drainSubscription_live p.signal.name p.signal.subscription hw.live
  unfold TokenCounter.poll
  rcases hd : drainSubscription p.signal.name p.signal.subscription s.board with ⟨reading, got, b⟩
  rw [hd] at hdrain
  obtain ⟨hread, hgot, hb⟩ := hdrain
  subst hgot hb
  refine ⟨hread, ⟨rfl, rfl, rfl, Nat.le_add_right _ _, ?_⟩, rfl⟩
  cases hin : s.board.inbox p.signal.subscription with
  | nil => exact Or.inr rfl
  | cons token rest =>
    have hcapacity := hw.capacity
    simp only [List.length_take, List.length_cons]
    omega

theorem Took.awake {q : Post} (h : p.Took q s) (ha : p.Awake s) (hc : s'.contents = s.contents) :
    q.Awake s' := by
  intro hne
  rw [work, h.kind, h.table, hc] at hne
  rcases ha hne with hpending | hunread
  · exact Or.inl (Nat.lt_of_lt_of_le hpending h.counted)
  · exact Or.inl (h.read.resolve_right hunread)

end Post

namespace Consumer

/-- The post of a consumer that is woken by tokens. -/
def post? : Consumer → Option Post
  | ordered c => some ⟨.queued, c.table, c.signal⟩
  | coalescing c => some ⟨.coalesced, c.table, c.signal⟩
  | _ => none

variable {c : Consumer} {p : Post}

theorem subscription_post (h : c.post? = some p) : c.subscription = p.signal.subscription := by
  cases c <;> cases h <;> rfl

theorem hasData_post (h : c.post? = some p) : c.hasData = decide (0 < p.signal.pending) := by
  cases c <;> cases h <;> rfl

theorem poll_post (h : c.post? = some p) (b : Switchboard) :
    (c.poll b).1 = (p.signal.poll b).1 ∧
      (c.poll b).2.1.post? = some { p with signal := (p.signal.poll b).2.1 } ∧
      (c.poll b).2.2 = (p.signal.poll b).2.2 := by
  cases c <;> cases h <;> exact ⟨rfl, rfl, rfl⟩

theorem afterRead_post (h : c.post? = some p) :
    c.afterRead.post? = some { p with signal := p.signal.afterRead } := by
  cases c <;> cases h <;> rfl

theorem rearm_post (h : c.post? = some p) :
    c.rearm.post? = some { p with signal := p.signal.rearm } := by
  cases c <;> cases h <;> rfl

/-- What a pop leaves to a consumer's post: it still stands where it stood, nobody misses
anything, and if the pop succeeded and left work, the count says so. -/
structure Served (p : Post) (s : MemoryStore) (result : Except BusError (List WorkItem))
    (c' : Consumer) (s' : MemoryStore) : Prop where
  wakes : s.Wakes s'
  post : ∃ p', c'.post? = some p' ∧ p'.kind = p.kind ∧ p'.table = p.table ∧
    p'.signal.subscription = p.signal.subscription ∧
    (result.isOk = true → p'.work s' ≠ [] → 0 < p'.signal.pending)

theorem pending_settle_full (signal : TokenCounter) {popped max : Nat} (h : max ≤ popped) :
    0 < (signal.settle popped max).pending := by
  simp only [TokenCounter.settle, h, if_true]
  exact Nat.lt_of_lt_of_le Nat.zero_lt_one (Nat.le_max_right signal.pending 1)

theorem served_ordered (c : OrderedConsumer) {s : MemoryStore} (hs : s.Sane) {max : Nat}
    (hmax : max ≠ 0) :
    Served ⟨.queued, c.table, c.signal⟩ s (c.pop max s).1 (.ordered (c.pop max s).2.1)
      (c.pop max s).2.2 := by
  cases hd : s.failuresDue with
  | succ n =>
    rw [c.pop_due hmax hd]
    exact ⟨MemoryStore.wakes_failures hs n, _, rfl, rfl, rfl, rfl, fun hok => by cases hok⟩
  | zero =>
    rw [c.pop_ready hmax hd rfl]
    refine ⟨MemoryStore.wakes_popFront hs c.table.queue max, _, rfl, rfl, rfl, rfl, ?_⟩
    intro _ hwork
    by_cases hfull : max ≤ ((s.contents.list c.table.queue).take max).length
    · exact pending_settle_full c.signal hfull
    · have hleft : (s.contents.list c.table.queue).drop max = [] := by
        rw [List.length_take] at hfull
        exact List.drop_eq_nil_of_le (by omega)
      have hlist := Keyspace.list_popFront (s := s.contents) c.table.queue max c.table.queue
      rw [if_pos rfl, hleft] at hlist
      exact absurd hlist hwork

theorem served_coalescing (c : CoalescingConsumer) {s : MemoryStore} (hs : s.Sane) {max : Nat}
    (hmax : max ≠ 0) :
    Served ⟨.coalesced, c.table, c.signal⟩ s (c.pop max s).1 (.coalescing (c.pop max s).2.1)
      (c.pop max s).2.2 := by
  cases hd : s.failuresDue with
  | succ n =>
    rw [c.pop_due hmax hd]
    exact ⟨MemoryStore.wakes_failures hs n, _, rfl, rfl, rfl, rfl, fun hok => by cases hok⟩
  | zero =>
    obtain ⟨hv, hperm, hlength, -⟩ :=
      Keyspace.popMembers_spec hs.valid c.table.layout.pendingSet max
    have hout : (Keyspace.run (.coalescedPop c.table.layout max) s.contents).1 =
        .records ((s.contents.popMembers c.table.layout.pendingSet max).2.materializeAll
          c.table.layout (s.contents.popMembers c.table.layout.pendingSet max).1).1 := rfl
    rw [c.pop_ready hmax hd hout]
    refine ⟨MemoryStore.wakes_coalescedPop hs c.table.layout max, _, rfl, rfl, rfl, rfl, ?_⟩
    intro _ hwork
    rw [Keyspace.length_materializeAll, hlength]
    by_cases hfull : max ≤ min max (s.contents.members c.table.layout.pendingSet).length
    · exact pending_settle_full c.signal hfull
    · have hleft : (s.contents.popMembers c.table.layout.pendingSet max).2.members
          c.table.layout.pendingSet = [] := by
        have htotal := hperm.length_eq
        rw [List.length_append, hlength] at htotal
        exact List.eq_nil_of_length_eq_zero (by omega)
      obtain ⟨x, hx⟩ := List.exists_mem_of_ne_nil _ hwork
      have hin := Keyspace.mem_of_mem_materializeAll hv hx
      rw [show c.table.pendingSet = c.table.layout.pendingSet from rfl, hleft] at hin
      cases hin

theorem pop_post (h : c.post? = some p) {s : MemoryStore} (hs : s.Sane) {max : Nat}
    (hmax : 1 ≤ max) : Served p s (c.pop max s).1 (c.pop max s).2.1 (c.pop max s).2.2 := by
  cases c with
  | ordered c =>
    cases h
    exact served_ordered c hs (Nat.ne_of_gt hmax)
  | coalescing c =>
    cases h
    exact served_coalescing c hs (Nat.ne_of_gt hmax)
  | change c => cases h
  | message c => cases h

end Consumer

end ControlBus
