-- The load of a consumer: what waits for it in the store, what it has counted, and what it has
-- not read yet. Its own pop never makes the load more, though a full batch forces the count back
-- up, and the pop of another consumer does not either, if it sends nothing on this one's channel.
import ControlBus.Proofs.WakeUps

namespace ControlBus

/-! ## Subscriptions to one channel -/

/-- An offer changes nothing about what a subscription asks for. -/
theorem Subscription.offer_asks (capacity : Nat) (channel payload : String) (s : Subscription) :
    (s.offer capacity channel payload).2.channels = s.channels ∧
      (s.offer capacity channel payload).2.patterns = s.patterns := by
  unfold offer
  split
  · exact ⟨rfl, rfl⟩
  · split
    · exact ⟨rfl, rfl⟩
    · split <;> exact ⟨rfl, rfl⟩

namespace Switchboard

/-- Every subscription asks for one channel, by its name. -/
def Single (b : Switchboard) : Prop :=
  ∀ s ∈ b.subscriptions, ∃ channel, s.channels = [channel] ∧ s.patterns = []

variable {b : Switchboard} {id : Nat} {channel on : String}

theorem single_ofBufferSize (size : Nat) : (ofBufferSize size).Single := by
  simp [Single, ofBufferSize]

theorem Single.publish (h : b.Single) (channel payload : String) :
    (b.publish channel payload).2.Single := by
  intro s hs
  obtain ⟨p, hp, rfl⟩ := List.mem_map.mp hs
  obtain ⟨a, ha, rfl⟩ := List.mem_map.mp (List.mem_filter.mp hp).1
  obtain ⟨hchannels, hpatterns⟩ := Subscription.offer_asks b.capacity channel payload a
  rw [hchannels, hpatterns]
  exact h a ha

theorem Single.publishAll (h : b.Single) (payloads : List (String × String)) :
    (b.publishAll payloads).Single := by
  induction payloads generalizing b with
  | nil => exact h
  | cons p rest ih => exact ih (h.publish p.1 p.2)

theorem Single.subscribe (h : b.Single) (channel : String) :
    (b.subscribe [channel] []).2.Single := by
  intro s hs
  rcases List.mem_append.mp hs with hs | hs
  · exact h s hs
  · rw [List.mem_singleton.mp hs]
    exact ⟨channel, rfl, rfl⟩

theorem Single.read (h : b.Single) (n other : Nat) : (b.read n other).2.Single := by
  intro s hs
  obtain ⟨a, ha, rfl⟩ := List.mem_map.mp hs
  split
  · exact h a ha
  · exact h a ha

/-- What is sent on another channel does not arrive. -/
theorem Single.inbox_publish (h : b.Single) (hl : b.Listens id on) (hne : channel ≠ on)
    (payload : String) : (b.publish channel payload).2.inbox id = b.inbox id := by
  obtain ⟨s, hs, hh, hc⟩ := hl
  obtain ⟨c, hchannels, hpatterns⟩ := h s (List.mem_of_find?_eq_some hs)
  rw [hchannels, List.mem_singleton] at hc
  subst hc
  have hinterest : s.interest channel = none := by
    simp [Subscription.interest, hchannels, hpatterns, hne]
  rw [inbox_of_subscription (subscription_publish channel payload hs hh),
    inbox_of_subscription hs]
  simp [Subscription.offer, hinterest]

theorem Single.inbox_publishAll (h : b.Single) (hl : b.Listens id on)
    {payloads : List (String × String)} (hne : ∀ p ∈ payloads, p.1 ≠ on) :
    (b.publishAll payloads).inbox id = b.inbox id := by
  induction payloads generalizing b with
  | nil => rfl
  | cons p rest ih =>
    have hrest := ih (h.publish p.1 p.2) (hl.publish p.1 p.2).1
      fun q hq => hne q (List.mem_cons_of_mem p hq)
    exact hrest.trans (h.inbox_publish hl (hne p List.mem_cons_self) p.2)

end Switchboard

/-! ## Calls of eval -/

/-- A call of `eval`: a script, and the store that it meets. -/
structure EvalCall where
  store : MemoryStore
  script : Script

namespace EvalCall

def failed (c : EvalCall) : Bool := !(c.store.eval c.script).1.isOk

/-- The store after the call. -/
def after (c : EvalCall) : MemoryStore := (c.store.eval c.script).2

/-- The channels on which a call that does not fail sends something. -/
def channels (c : EvalCall) : List String :=
  if c.failed then [] else (Keyspace.run c.script c.store.contents).2.outbox.map (·.channel)

/-- A call fails if a failure is due, and then it only counts down. -/
theorem cases (c : EvalCall) :
    (∃ n, c.store.failuresDue = n + 1 ∧ c.failed = true ∧
      c.after = { c.store with failuresDue := n }) ∨
    (c.store.failuresDue = 0 ∧ c.failed = false ∧ c.after = c.store.afterScript c.script) := by
  unfold failed after
  rw [MemoryStore.eval_eq]
  cases hd : c.store.failuresDue with
  | succ n => exact .inl ⟨n, rfl, rfl, rfl⟩
  | zero => exact .inr ⟨rfl, rfl, rfl⟩

/-- Nothing arrives where the call sends nothing. -/
theorem inbox_after (c : EvalCall) (hb : c.store.board.Single) {id : Nat} {on : String}
    (hl : c.store.board.Listens id on) (hquiet : on ∉ c.channels) :
    c.after.board.inbox id = c.store.board.inbox id := by
  rcases c.cases with ⟨n, -, -, hafter⟩ | ⟨-, hfine, hafter⟩
  · rw [hafter]
  · rw [hafter]
    refine hb.inbox_publishAll hl ?_
    intro p hp hon
    obtain ⟨a, ha, rfl⟩ := List.mem_map.mp hp
    simp only [channels, hfine, Bool.false_eq_true, if_false] at hquiet
    exact hquiet (List.mem_map.mpr ⟨a, ha, hon⟩)

theorem single_after (c : EvalCall) (hb : c.store.board.Single) : c.after.board.Single := by
  rcases c.cases with ⟨n, -, -, hafter⟩ | ⟨-, -, hafter⟩
  · rw [hafter]
    exact hb
  · rw [hafter]
    exact hb.publishAll _

end EvalCall

/-! ## Pops take work away -/

namespace Keyspace

variable {s : Keyspace}

theorem length_work_popFront (queue : String) (max : Nat) (kind : WorkKind) (t : TableName) :
    (kind.work t (run (.popFront queue max) s).2).length ≤ (kind.work t s).length := by
  cases kind with
  | queued =>
    change ((s.popFront queue max).2.list t.queue).length ≤ (s.list t.queue).length
    rw [list_popFront]
    split
    · simp
    · exact Nat.le_refl _
  | coalesced =>
    exact Nat.le_of_eq (congrArg List.length (members_congr (popFront_frame queue max _).1))

/-- What a pop leaves of a set was there before, once each. -/
theorem length_members_materializeAll (h : s.SetsValid) (l : Layout) (keys : List String)
    (j : String) : ((s.materializeAll l keys).2.members j).length ≤ (s.members j).length :=
  (List.subperm_of_subset ((h.materializeAll l keys).nodup j)
    fun _ hx => mem_of_mem_materializeAll h hx).length_le

theorem length_members_popMembers (h : s.SetsValid) (key : String) (max : Nat) (j : String) :
    ((s.popMembers key max).2.members j).length ≤ (s.members j).length := by
  obtain ⟨hv, hperm, -, hothers⟩ := popMembers_spec h key max
  by_cases hj : key = j
  · subst hj
    rw [hperm.length_eq, List.length_append]
    exact Nat.le_add_left _ _
  · exact Nat.le_of_eq (congrArg List.length (hothers j hj))

theorem length_work_coalescedPop (h : s.SetsValid) (l : Layout) (max : Nat) (kind : WorkKind)
    (t : TableName) :
    (kind.work t (run (.coalescedPop l max) s).2).length ≤ (kind.work t s).length := by
  have hv := (popMembers_spec h l.pendingSet max).1
  cases kind with
  | queued =>
    exact Nat.le_of_eq (congrArg List.length ((list_materializeAll l _ t.queue).trans
      (popMembers_frame l.pendingSet max t.queue).1))
  | coalesced =>
    exact Nat.le_trans (length_members_materializeAll hv l _ t.pendingSet)
      (length_members_popMembers h l.pendingSet max t.pendingSet)

end Keyspace

/-- A settled count and what is left make up no more than the count before and what there was:
only a full batch, which takes at least one unit, can force the count up. -/
theorem TokenCounter.pending_settle_le (signal : TokenCounter) {max popped left total : Nat}
    (hmax : 1 ≤ max) (h : left + popped ≤ total) :
    left + (signal.settle popped max).pending ≤ total + signal.pending := by
  have hsettled : (signal.settle popped max).pending =
      if max ≤ popped then Nat.max signal.pending 1 else 0 := rfl
  rw [hsettled]
  split
  · have hforced : Nat.max signal.pending 1 ≤ signal.pending + 1 :=
      Nat.max_le.mpr ⟨Nat.le_add_right signal.pending 1, Nat.le_add_left 1 signal.pending⟩
    omega
  · omega

/-! ## Loads -/

namespace Post

variable {p : Post} {s : MemoryStore}

/-- What waits in the store, what is counted, and what can still be read. -/
def load (p : Post) (s : MemoryStore) : Nat :=
  (p.work s).length + p.signal.pending + (s.board.inbox p.signal.subscription).length

/-- The script with which a consumer pops at most `max`. -/
def popScript (p : Post) (max : Nat) : Script :=
  match p.kind with
  | .queued => .popFront p.table.queue max
  | .coalesced => .coalescedPop p.table.layout max

theorem load_eq_zero (h : p.load s = 0) : p.work s = [] ∧ p.signal.pending = 0 := by
  have hparts : (p.work s).length + p.signal.pending +
      (s.board.inbox p.signal.subscription).length = 0 := h
  exact ⟨List.eq_nil_of_length_eq_zero (by omega), by omega⟩

/-- A look moves tokens from the inbox to the count. -/
theorem load_poll (p : Post) (hw : s.board.Working) :
    ({ p with signal := (p.signal.poll s.board).2.1 } : Post).load
      { s with board := (p.signal.poll s.board).2.2 } = p.load s := by
  have hdrain := drainSubscription_live p.signal.name p.signal.subscription hw.live
  unfold TokenCounter.poll
  rcases hd : drainSubscription p.signal.name p.signal.subscription s.board with ⟨reading, got, b⟩
  rw [hd] at hdrain
  obtain ⟨-, hgot, hb⟩ := hdrain
  subst hgot hb
  have hinbox := Switchboard.inbox_read (b := s.board) s.board.capacity p.signal.subscription
    p.signal.subscription
  rw [if_pos rfl] at hinbox
  simp only [load, hinbox, List.length_take, List.length_drop]
  change (p.work s).length + _ + _ = _
  omega

theorem load_afterRead (p : Post) (s : MemoryStore) :
    ({ p with signal := p.signal.afterRead } : Post).load s ≤ p.load s ∧
      (0 < p.signal.pending →
        ({ p with signal := p.signal.afterRead } : Post).load s + 1 ≤ p.load s) := by
  have hload : ({ p with signal := p.signal.afterRead } : Post).load s =
      (p.work s).length + (p.signal.pending - 1) +
        (s.board.inbox p.signal.subscription).length := rfl
  have hbefore : p.load s = (p.work s).length + p.signal.pending +
      (s.board.inbox p.signal.subscription).length := rfl
  omega

theorem load_rearm (p : Post) (s : MemoryStore) :
    ({ p with signal := p.signal.rearm } : Post).load s = p.load s + 1 := by
  have hload : ({ p with signal := p.signal.rearm } : Post).load s =
      (p.work s).length + (p.signal.pending + 1) +
        (s.board.inbox p.signal.subscription).length := rfl
  have hbefore : p.load s = (p.work s).length + p.signal.pending +
      (s.board.inbox p.signal.subscription).length := rfl
  omega

theorem length_work_popScript (hs : s.contents.SetsValid) (q : Post) (max : Nat)
    (kind : WorkKind) (t : TableName) :
    (kind.work t (Keyspace.run (q.popScript max) s.contents).2).length ≤
      (kind.work t s.contents).length := by
  unfold popScript
  cases q.kind with
  | queued => exact Keyspace.length_work_popFront q.table.queue max kind t
  | coalesced => exact Keyspace.length_work_coalescedPop hs q.table.layout max kind t

/-- A pop for another consumer adds nothing, if it sends nothing on this one's channel. -/
theorem load_pop (p : Post) {q : Post} {max : Nat} (hs : s.Sane) (hb : s.board.Single)
    (hl : p.Listens s) (hquiet : p.table.channel ∉ (EvalCall.mk s (q.popScript max)).channels) :
    p.load (EvalCall.mk s (q.popScript max)).after ≤ p.load s := by
  have hinbox := (EvalCall.mk s (q.popScript max)).inbox_after hb hl hquiet
  have hwork : (p.work (EvalCall.mk s (q.popScript max)).after).length ≤ (p.work s).length := by
    rcases (EvalCall.mk s (q.popScript max)).cases with ⟨n, -, -, hafter⟩ | ⟨-, -, hafter⟩
    · rw [hafter]
      exact Nat.le_refl _
    · rw [hafter]
      exact length_work_popScript hs.valid q max p.kind p.table
  unfold load
  rw [hinbox]
  change _ + _ + (s.board.inbox p.signal.subscription).length ≤ _
  omega

end Post

namespace Consumer

variable {c : Consumer} {p : Post} {s : MemoryStore} {max : Nat}

/-- A pop is one call of `eval`. If the call succeeds, what is left and the settled count make up
no more than there was before; if it fails, nothing has changed. -/
structure PopsBy (p : Post) (call : EvalCall) (result : Except BusError (List WorkItem))
    (c' : Consumer) (s' : MemoryStore) : Prop where
  store : s' = call.after
  failed : result.isOk = !call.failed
  post : ∃ p', c'.post? = some p' ∧ p'.kind = p.kind ∧ p'.table = p.table ∧
    p'.signal.subscription = p.signal.subscription ∧
    (p'.work s').length + p'.signal.pending ≤ (p.work call.store).length + p.signal.pending

theorem popsBy_ordered (c : OrderedConsumer) (s : MemoryStore) (hmax : 1 ≤ max) :
    PopsBy ⟨.queued, c.table, c.signal⟩ ⟨s, .popFront c.table.queue max⟩ (c.pop max s).1
      (.ordered (c.pop max s).2.1) (c.pop max s).2.2 := by
  rcases (EvalCall.mk s (.popFront c.table.queue max)).cases with
    ⟨n, hdue, hfailed, hafter⟩ | ⟨hdue, hfailed, hafter⟩
  · rw [c.pop_due (Nat.ne_of_gt hmax) hdue]
    exact ⟨hafter.symm, by rw [hfailed]; rfl, _, rfl, rfl, rfl, rfl, Nat.le_refl _⟩
  · rw [c.pop_ready (Nat.ne_of_gt hmax) hdue rfl]
    refine ⟨hafter.symm, by rw [hfailed]; rfl, _, rfl, rfl, rfl, rfl, ?_⟩
    have htaken : ((s.contents.popFront c.table.queue max).2.list c.table.queue).length +
        ((s.contents.list c.table.queue).take max).length ≤
          (s.contents.list c.table.queue).length := by
      rw [Keyspace.list_popFront, if_pos rfl, List.length_drop, List.length_take]
      omega
    exact c.signal.pending_settle_le hmax htaken

theorem popsBy_coalescing (c : CoalescingConsumer) (hs : s.Sane) (hmax : 1 ≤ max) :
    PopsBy ⟨.coalesced, c.table, c.signal⟩ ⟨s, .coalescedPop c.table.layout max⟩ (c.pop max s).1
      (.coalescing (c.pop max s).2.1) (c.pop max s).2.2 := by
  rcases (EvalCall.mk s (.coalescedPop c.table.layout max)).cases with
    ⟨n, hdue, hfailed, hafter⟩ | ⟨hdue, hfailed, hafter⟩
  · rw [c.pop_due (Nat.ne_of_gt hmax) hdue]
    exact ⟨hafter.symm, by rw [hfailed]; rfl, _, rfl, rfl, rfl, rfl, Nat.le_refl _⟩
  · obtain ⟨hv, hperm, -, -⟩ :=
      Keyspace.popMembers_spec hs.valid c.table.layout.pendingSet max
    have hout : (Keyspace.run (.coalescedPop c.table.layout max) s.contents).1 =
        .records ((s.contents.popMembers c.table.layout.pendingSet max).2.materializeAll
          c.table.layout (s.contents.popMembers c.table.layout.pendingSet max).1).1 := rfl
    rw [c.pop_ready (Nat.ne_of_gt hmax) hdue hout]
    refine ⟨hafter.symm, by rw [hfailed]; rfl, _, rfl, rfl, rfl, rfl, ?_⟩
    rw [Keyspace.length_materializeAll]
    have hleft := Keyspace.length_members_materializeAll hv c.table.layout
      (s.contents.popMembers c.table.layout.pendingSet max).1 c.table.layout.pendingSet
    have htotal := hperm.length_eq
    rw [List.length_append, Nat.add_comm] at htotal
    exact c.signal.pending_settle_le hmax
      (Nat.le_trans (Nat.add_le_add_right hleft _) (Nat.le_of_eq htotal.symm))

theorem popsBy (h : c.post? = some p) (hs : s.Sane) (hmax : 1 ≤ max) :
    PopsBy p ⟨s, p.popScript max⟩ (c.pop max s).1 (c.pop max s).2.1 (c.pop max s).2.2 := by
  cases c with
  | ordered c =>
    cases h
    exact popsBy_ordered c s hmax
  | coalescing c =>
    cases h
    exact popsBy_coalescing c hs hmax
  | change c => cases h
  | message c => cases h

end Consumer

end ControlBus
