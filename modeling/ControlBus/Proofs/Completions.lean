-- What reaches those who follow an executor's completed items. The stream keeps a fixed number of
-- them, while a batch may be of any size: of what one operation completes a follower gets the last
-- items that the stream keeps, and the others are counted as lost.
import ControlBus.Proofs.OrderedHistory
import ControlBus.Proofs.WorkRuns
import Mathlib.Algebra.GroupWithZero.Nat

namespace ControlBus

/-! ## A stream that keeps its last values -/

namespace Broadcast

variable {α : Type} {capacity : Nat}

/-- A stream on which some values were sent. -/
def carrying (capacity : Nat) (values : List α) : Broadcast α where
  capacity
  sent := values.length
  recent := values.reverse.take capacity

theorem send_carrying (a : α) (values : List α) :
    (carrying capacity values).send a = carrying capacity (values ++ [a]) := by
  have hrecent : (a :: values.reverse.take capacity).take capacity =
      (a :: values.reverse).take capacity := by
    cases capacity with
    | zero => rfl
    | succ n =>
      rw [List.take_succ_cons, List.take_succ_cons, List.take_take,
        Nat.min_eq_left (Nat.le_succ n)]
  simp only [send, carrying, List.reverse_append, List.reverse_singleton, List.singleton_append,
    List.length_append, List.length_singleton, hrecent]

/-- Whoever has read the stream up to some value gets the last of the values sent since. -/
theorem receive_carrying (before new : List α) :
    (carrying capacity (before ++ new)).receive before.length =
      (new.drop (new.length - capacity), new.length - capacity) := by
  have hmissing : (before ++ new).length - before.length = new.length := by
    rw [List.length_append, Nat.add_sub_cancel_left]
  have hkept : ((before ++ new).reverse.take capacity).take new.length =
      new.reverse.take capacity := by
    rw [List.reverse_append, List.take_take, Nat.min_comm, ← List.take_take,
      ← List.length_reverse, List.take_left']
    rfl
  simp only [receive, carrying, hmissing, hkept]
  refine Prod.ext ?_ ?_
  · rw [List.take_reverse, List.reverse_reverse]
  · simp only [List.length_take, List.length_reverse, List.length_append]
    omega

theorem sendAll_carrying (values new : List α) :
    new.foldl (fun b a => b.send a) (carrying capacity values) =
      carrying capacity (values ++ new) := by
  induction new generalizing values with
  | nil => rw [List.foldl_nil, List.append_nil]
  | cons a rest ih =>
    rw [List.foldl_cons, send_carrying, ih, List.append_assoc, List.singleton_append]

end Broadcast

/-! ## What an operation completes -/

namespace Executor

variable {ω : Type} {p : Workplace ω}

/-- From one state of an executor to a later one these items were completed and sent out. -/
structure Completes (done : List WorkItem) (e : Executor) (n : Notes) (e' : Executor) (n' : Notes) :
    Prop where
  noted : n'.completed = n.completed ++ done
  sent : e'.completed = done.foldl (fun b item => b.send item) e.completed

theorem Completes.trans {done more : List WorkItem} {e e' e'' : Executor} {n n' n'' : Notes}
    (h : Completes done e n e' n') (h' : Completes more e' n' e'' n'') :
    Completes (done ++ more) e n e'' n'' where
  noted := by rw [h'.noted, h.noted, List.append_assoc]
  sent := by rw [h'.sent, h.sent, List.foldl_append]

theorem handleOne_completes (item : WorkItem) (e : Executor) (w : ω) (n : Notes) :
    Completes (if (p.handle item w).1 = .done then [item] else []) e n
      (e.handleOne p.noted item (w, n)).1 (e.handleOne p.noted item (w, n)).2.2 := by
  simp only [handleOne, Workplace.noted]
  rcases p.handle item w with ⟨verdict, w'⟩
  cases verdict with
  | done => exact ⟨n.completed_handle_done item, rfl⟩
  | retry c => exact ⟨(n.completed_handle_retry item c).trans (List.append_nil _).symm, rfl⟩

/-- Of the items handed over some are completed, and all if the handler never puts one off. -/
theorem drainItems_completes (items : List WorkItem) (e : Executor) (w : ω) (n : Notes) :
    ∃ done, done.Sublist items ∧ ((∀ item w, (p.handle item w).1 = .done) → done = items) ∧
      Completes done e n (drainItems p.noted items e (w, n)).1
        (drainItems p.noted items e (w, n)).2.2 := by
  induction items generalizing e w n with
  | nil => exact ⟨[], .slnil, fun _ => rfl, (List.append_nil _).symm, rfl⟩
  | cons item rest ih =>
    have hone := handleOne_completes (p := p) item e w n
    rw [drainItems]
    rw [handleOne_noted] at hone ⊢
    obtain ⟨done, hsome, hall, hrest⟩ := ih
      { (e.handleOne p item w).1 with pending := rest } (e.handleOne p item w).2
      (n.handle item (p.handle item w).1)
    refine ⟨_, ?_, ?_, hone.trans ⟨hrest.noted, hrest.sent⟩⟩
    · split
      · exact hsome.cons_cons item
      · exact hsome.cons item
    · intro hdone
      rw [if_pos (hdone item w), hall hdone, List.singleton_append]

/-- An execution completes some of the items that its pop brought. -/
theorem execute_completes {e : Executor} (hpending : e.pending = []) (w : ω) (n : Notes) :
    ∃ done, done.Sublist ((p.pop e.batchSize w).1.toOption.getD []) ∧
      ((∀ item w, (p.handle item w).1 = .done) →
        done = (p.pop e.batchSize w).1.toOption.getD []) ∧
      Completes done e n (e.execute p.noted (w, n)).2.1 (e.execute p.noted (w, n)).2.2.2 := by
  simp only [execute, Workplace.noted]
  rcases p.pop e.batchSize w with ⟨found, w'⟩
  cases found with
  | error err => exact ⟨[], .slnil, fun _ => rfl, (List.append_nil _).symm, rfl⟩
  | ok items =>
    have hdrain := drainItems_completes (p := p) (e.pending ++ items)
      { e with
        pending := e.pending ++ items
        stats := { e.stats with
          executions := e.stats.executions + 1
          popped := e.stats.popped + items.length } } w' (n.pop items)
    obtain ⟨done, hsome, hall, hcompletes⟩ := hdrain
    rw [hpending, List.nil_append] at hsome hall
    exact ⟨done, hsome, hall, hcompletes.noted, hcompletes.sent⟩

/-- A sweep completes at most a batch. -/
theorem sweep_completes {e : Executor} (hpending : e.pending = []) (w : ω) (n : Notes) :
    ∃ done, done.length ≤ e.batchSize ∧
      Completes done e n (e.sweep p.noted (w, n)).1 (e.sweep p.noted (w, n)).2.2 := by
  simp only [sweep, Workplace.noted]
  rcases p.resolved w with ⟨resolved, w'⟩
  dsimp only
  have hlength := e.retry.length_takeReady resolved (p.now w') e.batchSize
  rcases htake : e.retry.takeReady resolved (p.now w') e.batchSize with ⟨items, retry⟩
  rw [htake] at hlength
  obtain ⟨done, hsome, -, hcompletes⟩ := drainItems_completes (p := p) (e.pending ++ items)
    { e with
      retry
      pending := e.pending ++ items
      stats := { e.stats with
        sweeps := e.stats.sweeps + 1
        resurfaced := e.stats.resurfaced + items.length } } w' n
  rw [hpending, List.nil_append] at hsome
  exact ⟨done, Nat.le_trans hsome.length_le hlength, hcompletes.noted, hcompletes.sent⟩

end Executor

/-! ## Runs with a follower -/

/-- Whether an act hands items to the handler. -/
def WorkAct.hands {ω : Type} : WorkAct ω → Bool
  | execute => true
  | sweep => true
  | resize _ => false
  | meanwhile _ => false

/-- What one operation of an executor has completed. -/
structure Batch where
  /-- The batch size of the executor. -/
  limit : Nat
  items : List WorkItem
deriving Repr, DecidableEq

/-- How many of the items completed in a batch the stream has dropped before its end. -/
def Batch.overrun (b : Batch) : Nat := b.items.length - completedCapacity

/-- A run of an executor with somebody who follows what it completes. -/
structure FollowedRun (ω : Type) where
  inner : WorkRun (ω × Notes)
  /-- How much of the stream the follower has seen. -/
  position : Nat
  received : List WorkItem := []
  lost : Nat := 0
  /-- What each operation has completed since. -/
  batches : List Batch := []

namespace FollowedRun

variable {ω : Type} (p : Workplace ω)

/-- Somebody begins to follow an executor. -/
def start (inner : WorkRun (ω × Notes)) : FollowedRun ω where
  inner
  position := inner.executor.completed.sent

/-- One act. The follower takes what there is after every execution and every sweep. -/
def act (r : FollowedRun ω) (a : WorkAct ω) : FollowedRun ω :=
  let inner := r.inner.act p.noted a.noted
  if a.hands then
    let (got, lost) := inner.executor.completed.receive r.position
    { inner
      position := inner.executor.completed.sent
      received := r.received ++ got
      lost := r.lost + lost
      batches := r.batches ++ [{
        limit := r.inner.executor.batchSize
        items := inner.world.2.completed.drop r.inner.world.2.completed.length }] }
  else { r with inner }

def run (r : FollowedRun ω) (acts : List (WorkAct ω)) : FollowedRun ω := acts.foldl (act p) r

/-- All that was completed since the follower began. -/
def completed (r : FollowedRun ω) : List WorkItem := r.batches.flatMap (·.items)

/-- The follower has seen the stream to its end and got of each batch what the stream kept. -/
structure UpToDate (before : List WorkItem) (r : FollowedRun ω) : Prop where
  settled : Executor.Settled r.inner.executor r.inner.world.2
  stream : r.inner.executor.completed =
    .carrying completedCapacity r.inner.world.2.completed
  position : r.position = r.inner.world.2.completed.length
  noted : r.inner.world.2.completed = before ++ r.completed
  received : r.received = r.batches.flatMap fun b => b.items.drop b.overrun
  lost : r.lost = (r.batches.map Batch.overrun).sum

variable {p} {before : List WorkItem} {r : FollowedRun ω}

/-- What any act completes; nothing, unless it hands items to the handler. -/
theorem completes_act (h : Executor.Settled r.inner.executor r.inner.world.2) (a : WorkAct ω) :
    ∃ done, Executor.Completes done r.inner.executor r.inner.world.2
        (r.inner.act p.noted a.noted).executor (r.inner.act p.noted a.noted).world.2 ∧
      (a.hands = false → done = []) ∧
      ((∀ max w, ((p.pop max w).1.toOption.getD []).length ≤ max) →
        done.length ≤ r.inner.executor.batchSize) := by
  obtain ⟨⟨e, w, n⟩, position, received, lost, batches⟩ := r
  cases a with
  | execute =>
    obtain ⟨done, hsome, -, hdone⟩ := Executor.execute_completes (p := p) h.pending w n
    refine ⟨done, hdone, nofun, fun hpop => ?_⟩
    exact Nat.le_trans hsome.length_le (hpop e.batchSize w)
  | sweep =>
    obtain ⟨done, hlength, hdone⟩ := Executor.sweep_completes (p := p) h.pending w n
    exact ⟨done, hdone, nofun, fun _ => hlength⟩
  | resize size => exact ⟨[], ⟨(List.append_nil _).symm, rfl⟩, fun _ => rfl, fun _ => Nat.zero_le _⟩
  | meanwhile f => exact ⟨[], ⟨(List.append_nil _).symm, rfl⟩, fun _ => rfl, fun _ => Nat.zero_le _⟩

/-- The stream goes on carrying what is noted as completed. -/
theorem UpToDate.stream_act (h : r.UpToDate before) {a : WorkAct ω} {done : List WorkItem}
    (hdone : Executor.Completes done r.inner.executor r.inner.world.2
      (r.inner.act p.noted a.noted).executor (r.inner.act p.noted a.noted).world.2) :
    (r.inner.act p.noted a.noted).executor.completed =
      .carrying completedCapacity (r.inner.act p.noted a.noted).world.2.completed := by
  rw [hdone.sent, h.stream, Broadcast.sendAll_carrying, hdone.noted]

/-- After an operation the follower gets the end of what it has completed. -/
theorem UpToDate.act_eq (h : r.UpToDate before) {a : WorkAct ω} (hhands : a.hands = true)
    {done : List WorkItem}
    (hdone : Executor.Completes done r.inner.executor r.inner.world.2
      (r.inner.act p.noted a.noted).executor (r.inner.act p.noted a.noted).world.2) :
    r.act p a =
      { inner := r.inner.act p.noted a.noted
        position := (r.inner.act p.noted a.noted).executor.completed.sent
        received := r.received ++ done.drop (done.length - completedCapacity)
        lost := r.lost + (done.length - completedCapacity)
        batches := r.batches ++ [{ limit := r.inner.executor.batchSize, items := done }] } := by
  have hgot : (r.inner.act p.noted a.noted).executor.completed.receive r.position =
      (done.drop (done.length - completedCapacity), done.length - completedCapacity) := by
    rw [h.stream_act hdone, hdone.noted, h.position, Broadcast.receive_carrying]
  have hitems : (r.inner.act p.noted a.noted).world.2.completed.drop
      r.inner.world.2.completed.length = done := by
    rw [hdone.noted, List.drop_left]
  simp only [FollowedRun.act, hhands, if_true, hgot, hitems]

theorem UpToDate.act (h : r.UpToDate before) (a : WorkAct ω) : (r.act p a).UpToDate before := by
  obtain ⟨done, hdone, hnothing, -⟩ := completes_act (p := p) h.settled a
  have hsettled := WorkRun.settled_act (p := p) h.settled a
  have hstream := h.stream_act hdone
  cases hhands : a.hands with
  | false =>
    have hact : r.act p a = { r with inner := r.inner.act p.noted a.noted } := by
      simp only [FollowedRun.act, hhands, Bool.false_eq_true, if_false]
    have hsame : (r.inner.act p.noted a.noted).world.2.completed = r.inner.world.2.completed := by
      rw [hdone.noted, hnothing hhands, List.append_nil]
    rw [hact]
    refine ⟨hsettled, hstream, ?_, ?_, h.received, h.lost⟩
    · exact h.position.trans (congrArg List.length hsame).symm
    · exact hsame.trans h.noted
  | true =>
    rw [h.act_eq hhands hdone]
    refine ⟨hsettled, hstream, congrArg Broadcast.sent hstream, ?_, ?_, ?_⟩
    · simp [hdone.noted, h.noted, completed]
    · simp [h.received, Batch.overrun]
    · simp [h.lost, Batch.overrun]

theorem UpToDate.run (h : r.UpToDate before) (acts : List (WorkAct ω)) :
    (r.run p acts).UpToDate before := by
  induction acts generalizing r with
  | nil => exact h
  | cons a rest ih => exact ih (h.act a)

/-- Whoever begins to follow is up to date. -/
theorem UpToDate.restart (h : r.UpToDate before) :
    (start r.inner).UpToDate r.inner.world.2.completed where
  settled := h.settled
  stream := h.stream
  position := congrArg Broadcast.sent h.stream
  noted := (List.append_nil _).symm
  received := rfl
  lost := rfl

theorem upToDate_start (batchSize threshold : Nat) (world : ω) :
    (start ⟨Executor.ofSettings batchSize threshold, world, {}⟩).UpToDate [] where
  settled := WorkRun.settled_start batchSize threshold
  stream := rfl
  position := rfl
  noted := rfl
  received := rfl
  lost := rfl

theorem inner_act (r : FollowedRun ω) (a : WorkAct ω) :
    (r.act p a).inner = r.inner.act p.noted a.noted := by
  unfold act
  dsimp only
  split <;> rfl

theorem inner_run (r : FollowedRun ω) (acts : List (WorkAct ω)) :
    (r.run p acts).inner = r.inner.run p.noted (acts.map WorkAct.noted) := by
  induction acts generalizing r with
  | nil => rfl
  | cons a rest ih =>
    refine (ih (r.act p a)).trans ?_
    rw [inner_act]
    rfl

/-- No operation completes more than a batch, if no pop brings more than it is asked for. -/
theorem within_run (hpop : ∀ max w, ((p.pop max w).1.toOption.getD []).length ≤ max)
    (h : r.UpToDate before) (hr : ∀ b ∈ r.batches, b.items.length ≤ b.limit)
    (acts : List (WorkAct ω)) : ∀ b ∈ (r.run p acts).batches, b.items.length ≤ b.limit := by
  induction acts generalizing r with
  | nil => exact hr
  | cons a rest ih =>
    refine ih (h.act a) ?_
    obtain ⟨done, hdone, -, hlength⟩ := completes_act (p := p) h.settled a
    cases hhands : a.hands with
    | false =>
      have hact : (r.act p a).batches = r.batches := by
        simp only [FollowedRun.act, hhands, Bool.false_eq_true, if_false]
      rwa [hact]
    | true =>
      rw [h.act_eq hhands hdone]
      intro b hb
      rcases List.mem_append.mp hb with hb | hb
      · exact hr b hb
      · rw [List.mem_singleton.mp hb]
        exact hlength hpop

/-! ## What a follower misses -/

theorem length_received (batches : List Batch) :
    (batches.flatMap fun b => b.items.drop b.overrun).length + (batches.map Batch.overrun).sum =
      (batches.flatMap (·.items)).length := by
  induction batches with
  | nil => rfl
  | cons b rest ih =>
    have hb : b.overrun ≤ b.items.length := Nat.sub_le ..
    simp only [List.flatMap_cons, List.length_append, List.length_drop, List.map_cons,
      List.sum_cons]
    omega

theorem received_eq_iff (batches : List Batch) :
    (batches.flatMap fun b => b.items.drop b.overrun) = batches.flatMap (·.items) ↔
      ∀ b ∈ batches, b.items.length ≤ completedCapacity := by
  constructor
  · intro h b hb
    have hlength := length_received batches
    rw [h] at hlength
    have hnone : (batches.map Batch.overrun).sum = 0 := by omega
    have hover := List.sum_eq_zero_iff_forall_eq_nat.mp hnone b.overrun (List.mem_map_of_mem hb)
    exact Nat.sub_eq_zero_iff_le.mp hover
  · intro h
    rw [← List.flatMap_congr]
    intro b hb
    rw [Batch.overrun, Nat.sub_eq_zero_iff_le.mpr (h b hb), List.drop_zero]

/-- Whoever begins to follow an executor in the middle of its run is up to date. -/
theorem upToDate_joining (p : Workplace ω) (batchSize threshold : Nat) (world : ω)
    (earlier : List (WorkAct ω)) :
    let begun := WorkRun.run p.noted ⟨Executor.ofSettings batchSize threshold, world, {}⟩
      (earlier.map WorkAct.noted)
    (start begun).UpToDate begun.world.2.completed := by
  intro begun
  have hearlier := (upToDate_start batchSize threshold world).run (p := p) earlier
  have hinner : ((start ⟨Executor.ofSettings batchSize threshold, world, {}⟩).run p earlier).inner =
      begun := inner_run _ earlier
  rw [← hinner]
  exact hearlier.restart

/-- If no pop brings more than it is asked for, batches that the stream can keep are received as a
whole. -/
theorem received_of_limits {begun : WorkRun (ω × Notes)}
    (hpop : ∀ max w, ((p.pop max w).1.toOption.getD []).length ≤ max)
    (h : (start begun).UpToDate begun.world.2.completed) (acts : List (WorkAct ω)) :
    let r := (start begun).run p acts
    (∀ b ∈ r.batches, b.items.length ≤ b.limit) ∧
      ((∀ b ∈ r.batches, b.limit ≤ completedCapacity) → r.received = r.completed) := by
  intro r
  have hwithin := within_run hpop h (by simp [start]) acts
  refine ⟨hwithin, fun hsmall => ?_⟩
  rw [(h.run acts).received]
  exact (received_eq_iff r.batches).mpr fun b hb => Nat.le_trans (hwithin b hb) (hsmall b hb)

/-- Whatever the channel, the handler and the batch size: somebody who begins to follow an executor
at any time, and takes what there is after every execution and every sweep, gets of what each of
them completes the last items, as many as the stream keeps, in order and each once, and the others
are counted as lost. So a follower gets every completed item just if no operation completes more
than the stream keeps, and it does if no batch may be larger. -/
theorem a_follower_gets_what_the_stream_keeps (p : Workplace ω) (batchSize threshold : Nat)
    (world : ω) (earlier acts : List (WorkAct ω)) :
    let e := Executor.ofSettings batchSize threshold
    let begun := WorkRun.run p.noted ⟨e, world, {}⟩ (earlier.map WorkAct.noted)
    let r := (start begun).run p acts
    r.inner.forget = WorkRun.run p ⟨e, world⟩ (earlier ++ acts) ∧
    r.inner.world.2.completed = begun.world.2.completed ++ r.completed ∧
    r.received = (r.batches.flatMap fun b => b.items.drop b.overrun) ∧
    r.lost = (r.batches.map Batch.overrun).sum ∧
    r.received.length + r.lost = r.completed.length ∧
    (r.received = r.completed ↔ ∀ b ∈ r.batches, b.items.length ≤ completedCapacity) ∧
    ((∀ max w, ((p.pop max w).1.toOption.getD []).length ≤ max) →
      (∀ b ∈ r.batches, b.items.length ≤ b.limit) ∧
      ((∀ b ∈ r.batches, b.limit ≤ completedCapacity) → r.received = r.completed)) := by
  intro e begun r
  have hbegun : (start begun).UpToDate begun.world.2.completed :=
    upToDate_joining p batchSize threshold world earlier
  have hr : r.UpToDate begun.world.2.completed := hbegun.run acts
  have hall : r.received = r.completed ↔ ∀ b ∈ r.batches, b.items.length ≤ completedCapacity := by
    rw [hr.received]
    exact received_eq_iff r.batches
  refine ⟨?_, hr.noted, hr.received, hr.lost, ?_, hall, ?_⟩
  · have hwhole : r.inner =
        WorkRun.run p.noted ⟨e, world, {}⟩ ((earlier ++ acts).map WorkAct.noted) := by
      rw [List.map_append, WorkRun.run, List.foldl_append]
      exact inner_run (start begun) acts
    rw [hwhole]
    exact WorkRun.forget_run p ⟨e, world, {}⟩ (earlier ++ acts)
  · rw [hr.received, hr.lost]
    exact length_received r.batches
  · exact fun hpop => received_of_limits hpop hbegun acts

end FollowedRun

/-- A consumer over a store in memory pops no more than it is asked for. -/
theorem Bench.length_pop {η : Type}
    (handle : WorkItem → Surroundings MemoryStore η → Verdict × Surroundings MemoryStore η)
    (max : Nat) (b : Bench MemoryStore η) :
    (((Bench.workplace handle).pop max b).1.toOption.getD []).length ≤ max := by
  change ((b.consumer.pop max b.around.store).1.toOption.getD []).length ≤ max
  cases hresult : (b.consumer.pop max b.around.store).1 with
  | error err => exact Nat.zero_le _
  | ok items => exact b.consumer.length_pop max (MemoryStore.moderate _) hresult

/-- Whoever follows an executor that works off a consumer over a store in memory gets every
completed item, if the stream can keep the largest batch. -/
theorem Bench.followers_get_all {η : Type}
    (handle : WorkItem → Surroundings MemoryStore η → Verdict × Surroundings MemoryStore η)
    (batchSize threshold : Nat) (b : Bench MemoryStore η)
    (earlier acts : List (WorkAct (Bench MemoryStore η))) :
    let p := Bench.workplace handle
    let begun := WorkRun.run p.noted ⟨Executor.ofSettings batchSize threshold, b, {}⟩
      (earlier.map WorkAct.noted)
    let r := (FollowedRun.start begun).run p acts
    (∀ b ∈ r.batches, b.limit ≤ completedCapacity) → r.received = r.completed := by
  intro p begun r
  have hbegun := FollowedRun.upToDate_joining p batchSize threshold b earlier
  exact (FollowedRun.received_of_limits (Bench.length_pop handle) hbegun acts).2

/-- What producers have queued for a table a consumer of it pops. -/
theorem Bench.pop_queued {η : Type}
    (handle : WorkItem → Surroundings MemoryStore η → Verdict × Surroundings MemoryStore η)
    (c : OrderedConsumer) {around : Surroundings MemoryStore η} (items : List WorkItem)
    (hready : around.store.failuresDue = 0)
    (hqueued : around.store.contents.list c.table.queue = items.map WorkItem.encode) {max : Nat}
    (hmax : items.length ≤ max) :
    ((Bench.workplace handle).pop max { consumer := .ordered c, around }).1 = .ok items := by
  have hentries : around.store.contents.list c.table.queue =
      (items.map QueueEntry.item).map QueueEntry.text := by
    rw [hqueued, List.map_map]
    rfl
  have hworks : works ((items.map QueueEntry.item).take max) = items := by
    rw [List.take_of_length_le (by simpa using hmax), works, List.filterMap_map]
    exact List.filterMap_some
  obtain ⟨c', s', hpop, -⟩ := (c.pop_entries around.store max hentries).1 (Or.inr hready)
  change (c.pop max around.store).1 = _
  rw [hpop, hworks]

namespace FollowedRun

/-- The handler does whatever it is handed. -/
def doingAll : Workplace (Bench MemoryStore Unit) :=
  Bench.workplace fun _ around => (.done, around)

/-- A consumer of a table, as it is attached to an empty store, -/
def newConsumer (t : TableName) : OrderedConsumer where
  table := t
  signal := { name := t.name, subscription := 1, pending := 0 }

/-- and the store. -/
def newStore (t : TableName) : MemoryStore :=
  ((OrderedConsumer.attach t).run (MemoryStore.empty 16 64 true)).2

example (t : TableName) : (OrderedConsumer.attach t).run (MemoryStore.empty 16 64 true) =
    (.ok (newConsumer t), newStore t) := rfl

/-- An attached consumer for which some items are queued. -/
def queuedBench (t : TableName) (items : List WorkItem) : Bench MemoryStore Unit where
  consumer := .ordered (newConsumer t)
  around := { store := ((OrderedQueue.pushBatch t items).run (newStore t)).2, rest := () }

/-- Queued items are all done in one batch. -/
theorem run_queued (t : TableName) (size : Nat) {items : List WorkItem}
    (hsize : items.length ≤ max size 1) :
    let r := (start ⟨Executor.ofSettings 1 300, queuedBench t items, {}⟩).run doingAll
      [.resize size, .execute]
    r.completed = items ∧ r.received = items.drop (items.length - completedCapacity) ∧
      r.lost = items.length - completedCapacity := by
  intro r
  have hpush : (OrderedQueue.pushBatch t items).run (newStore t) =
      (.ok _, (newStore t).afterScript
        (.pushAndPublish t.queue (items.map WorkItem.encode) t.channel wakeToken)) :=
    MemoryStore.run_evalCount rfl rfl
  have hready : (queuedBench t items).around.store.failuresDue = 0 := by
    rw [queuedBench, hpush]
    rfl
  have hqueued : (queuedBench t items).around.store.contents.list t.queue =
      items.map WorkItem.encode :=
    (OrderedQueue.run_pushBatch t items (newStore t)).2.trans (if_pos rfl)
  have hpop : (doingAll.pop (max size 1) (queuedBench t items)).1 = .ok items :=
    Bench.pop_queued _ (newConsumer t) items hready hqueued hsize
  have hresized := (upToDate_start 1 300 (queuedBench t items)).act (p := doingAll) (.resize size)
  obtain ⟨done, -, hall, hdone⟩ := Executor.execute_completes (p := doingAll)
    hresized.settled.pending (queuedBench t items) {}
  have hitems : done = items := by
    rw [hall fun _ _ => rfl]
    exact congrArg (fun found => found.toOption.getD []) hpop
  have hact : r = _ := hresized.act_eq (a := .execute) rfl hdone
  rw [hact, hitems]
  exact ⟨List.append_nil items, List.nil_append _, Nat.zero_add _⟩

/-- A batch of 1025 items is queued, popped and done. The follower gets all but the first. -/
theorem a_follower_misses_an_item_of_a_large_batch :
    let items : List WorkItem := List.replicate 1025 { key := "k", operation := .set }
    let r := (start ⟨Executor.ofSettings 1 300, queuedBench { name := "T" } items, {}⟩).run doingAll
      [.resize 1025, .execute]
    r.completed = items ∧ r.received = items.drop 1 ∧ r.lost = 1 ∧ r.received ≠ r.completed := by
  intro items r
  have hlength : items.length = 1025 := List.length_replicate
  have hover : 1025 - completedCapacity = 1 := rfl
  obtain ⟨hcompleted, hreceived, hlost⟩ :=
    run_queued { name := "T" } 1025 (Nat.le_of_eq hlength)
  rw [hlength, hover] at hreceived hlost
  refine ⟨hcompleted, hreceived, hlost, fun hsame => ?_⟩
  have hshort := congrArg List.length (hreceived.symm.trans (hsame.trans hcompleted))
  rw [List.length_drop, hlength] at hshort
  exact absurd hshort (by decide)

end FollowedRun

end ControlBus
