-- Runs of an executor. Whatever its handler answers and whatever others do meanwhile, its books
-- balance after every operation, and no operation hands over more than a batch. This holds of
-- the consumers of all four kinds, on every store.
import ControlBus.Proofs.PopSizes
import ControlBus.Proofs.WorkAccounts

namespace ControlBus

/-! ## Runs at any workplace -/

/-- What happens to an executor, in a world `ω`. -/
inductive WorkAct (ω : Type) where
  | execute
  | sweep
  | resize (batchSize : Nat)
  /-- Something else happens to the world: others use the store, a constraint is reported as
  resolved, the channel takes in what has arrived, time passes. -/
  | meanwhile (f : ω → ω)

/-- An executor and its world. -/
structure WorkRun (ω : Type) where
  executor : Executor
  world : ω

namespace WorkRun

variable {ω : Type}

def act (p : Workplace ω) (r : WorkRun ω) : WorkAct ω → WorkRun ω
  | .execute => ⟨(r.executor.execute p r.world).2.1, (r.executor.execute p r.world).2.2⟩
  | .sweep => ⟨(r.executor.sweep p r.world).1, (r.executor.sweep p r.world).2⟩
  | .resize n => { r with executor := r.executor.withBatchSize n }
  | .meanwhile f => { r with world := f r.world }

def run (p : Workplace ω) (r : WorkRun ω) (acts : List (WorkAct ω)) : WorkRun ω :=
  acts.foldl (act p) r

end WorkRun

/-- What happens, where everything is noted. -/
def WorkAct.noted {ω : Type} : WorkAct ω → WorkAct (ω × Notes)
  | execute => execute
  | sweep => sweep
  | resize n => resize n
  | meanwhile f => meanwhile fun w => (f w.1, w.2)

namespace WorkRun

variable {ω : Type} (p : Workplace ω)

/-- The run without the notes. -/
def forget (r : WorkRun (ω × Notes)) : WorkRun ω := ⟨r.executor, r.world.1⟩

theorem forget_act (r : WorkRun (ω × Notes)) (a : WorkAct ω) :
    (r.act p.noted a.noted).forget = r.forget.act p a := by
  obtain ⟨e, w, n⟩ := r
  cases a with
  | execute =>
    obtain ⟨n', h⟩ := e.execute_noted p w n
    simp only [act, WorkAct.noted, forget, h]
  | sweep =>
    obtain ⟨n', h⟩ := e.sweep_noted p w n
    simp only [act, WorkAct.noted, forget, h]
  | resize n => rfl
  | meanwhile f => rfl

/-- Notes change nothing in a run. -/
theorem forget_run (r : WorkRun (ω × Notes)) (acts : List (WorkAct ω)) :
    (r.run p.noted (acts.map WorkAct.noted)).forget = r.forget.run p acts := by
  induction acts generalizing r with
  | nil => rfl
  | cons a rest ih =>
    rw [run, run, List.map_cons, List.foldl_cons, List.foldl_cons, ← forget_act]
    exact ih _

variable {p} {r : WorkRun (ω × Notes)}

theorem settled_act (h : Executor.Settled r.executor r.world.2) (a : WorkAct ω) :
    Executor.Settled (r.act p.noted a.noted).executor (r.act p.noted a.noted).world.2 := by
  obtain ⟨e, w, n⟩ := r
  cases a with
  | execute => exact (Executor.execute_settles h w).settled
  | sweep =>
    obtain ⟨calls, hcalls, hsettles⟩ := Executor.sweep_settles (p := p) h w
    exact hsettles.settled
  | resize size =>
    have hb := h.balanced
    exact ⟨h.pending, hb.sorted, hb.items, hb.popped, hb.handled, hb.parked⟩
  | meanwhile f => exact h

/-- Every operation leaves the books settled. -/
theorem settled_run (h : Executor.Settled r.executor r.world.2) (acts : List (WorkAct ω)) :
    Executor.Settled (r.run p.noted (acts.map WorkAct.noted)).executor
      (r.run p.noted (acts.map WorkAct.noted)).world.2 := by
  induction acts generalizing r with
  | nil => exact h
  | cons a rest ih => exact ih (settled_act h a)

theorem settled_start (batchSize threshold : Nat) :
    Executor.Settled (Executor.ofSettings batchSize threshold) {} where
  pending := rfl
  balanced := ⟨List.nodup_nil, List.Perm.refl _, rfl, rfl, rfl⟩

end WorkRun

/-! ## Runs over a consumer -/

/-- What an executor and its handler share with others. -/
structure Surroundings (σ η : Type) where
  store : σ
  /-- Constraints reported as resolved that the executor has not looked at, oldest first. -/
  resolved : List Constraint := []
  now : Nat := 0
  rest : η

/-- The consumer of an executor, and all around it. -/
structure Bench (σ η : Type) where
  consumer : Consumer
  around : Surroundings σ η

namespace Bench

variable {σ η : Type} [SharedStore σ]

/-- The workplace at a bench. The handler may look at all around it and change it. -/
def workplace (handle : WorkItem → Surroundings σ η → Verdict × Surroundings σ η) :
    Workplace (Bench σ η) where
  pop max b :=
    let (items, consumer, store) := b.consumer.pop max b.around.store
    (items, { consumer, around := { b.around with store } })
  rearm b := { b with consumer := b.consumer.rearm }
  handle item b :=
    let (verdict, around) := handle item b.around
    (verdict, { b with around })
  resolved b := (b.around.resolved, { b with around := { b.around with resolved := [] } })
  now b := b.around.now

variable (handle : WorkItem → Surroundings σ η → Verdict × Surroundings σ η)

/-- An execution calls the handler once for each popped item, so at most as often as a batch is
long. -/
theorem execute_calls {e : Executor} {n : Notes} (h : Executor.Settled e n) (b : Bench σ η)
    (hs : SharedStore.Moderate b.around.store) :
    ∃ calls ≤ e.batchSize,
      (e.execute (workplace handle).noted (b, n)).2.2.2.handled.length =
        n.handled.length + calls := by
  have hsettles := Executor.execute_settles (p := workplace handle) h b
  refine ⟨_, ?_, hsettles.calls⟩
  have hpop : ∀ items, (b.consumer.pop e.batchSize b.around.store).1 = .ok items →
      items.length ≤ e.batchSize := fun items => b.consumer.length_pop e.batchSize hs
  change ((b.consumer.pop e.batchSize b.around.store).1.toOption.getD []).length ≤ e.batchSize
  cases hresult : (b.consumer.pop e.batchSize b.around.store).1 with
  | error err => exact Nat.zero_le _
  | ok items => exact hpop items hresult

/-- An execution whose pop fails is counted, as is the failure, and makes the consumer ready
again. -/
theorem execute_failing {e : Executor} {n : Notes} {b : Bench σ η} {err : BusError} {c : Consumer}
    {s : σ} (h : b.consumer.pop e.batchSize b.around.store = (.error err, c, s)) :
    e.execute (workplace handle).noted (b, n) =
      (.error err,
        { e with
          stats := { e.stats with
            executions := e.stats.executions + 1
            popFailures := e.stats.popFailures + 1 } },
        { consumer := c.rearm, around := { b.around with store := s } }, n) := by
  simp only [Executor.execute, Workplace.noted, workplace, h]

end Bench

namespace WorkRun

variable {σ η : Type} [SharedStore σ]

/-- Whatever the handler answers and whatever else happens: between operations no item is on its
way to the handler, what was popped is what was completed and what the retry queue holds, and the
counters say so. An execution or a sweep calls the handler at most as often as a batch is long,
on every store that gives no more than it is asked for, as the store in memory and the store in a
database do. An execution whose pop fails calls it never, and changes two counters and the
consumer only. -/
theorem every_item_is_accounted_for
    (handle : WorkItem → Surroundings σ η → Verdict × Surroundings σ η)
    (batchSize threshold : Nat) (bench : Bench σ η) (acts : List (WorkAct (Bench σ η))) :
    let p := Bench.workplace handle
    let e := Executor.ofSettings batchSize threshold
    let r := WorkRun.run p.noted ⟨e, bench, {}⟩ (acts.map WorkAct.noted)
    let stats := r.executor.stats
    let notes := r.world.2
    r.forget = WorkRun.run p ⟨e, bench⟩ acts ∧
    r.executor.pending = [] ∧
    notes.popped.Perm (notes.completed ++ r.executor.retry.items) ∧
    stats.popped = notes.popped.length ∧
    stats.handled = notes.completed.length ∧
    stats.popped + stats.resurfaced = stats.handled + stats.retried ∧
    stats.retried = stats.resurfaced + r.executor.retry.size ∧
    stats.popped = stats.handled + r.executor.retry.size ∧
    (SharedStore.Moderate r.world.1.around.store → ∃ calls ≤ r.executor.batchSize,
      (r.executor.execute p.noted r.world).2.2.2.handled.length = notes.handled.length + calls) ∧
    (∀ s : MemoryStore, SharedStore.Moderate s) ∧
    (∀ s : RelationalStore, (∀ n rows, (s.order.entries n rows).length = rows.length) →
      SharedStore.Moderate s) ∧
    (∃ calls ≤ r.executor.batchSize,
      (r.executor.sweep p.noted r.world).2.2.handled.length = notes.handled.length + calls) ∧
    ∀ err c s,
      r.world.1.consumer.pop r.executor.batchSize r.world.1.around.store = (.error err, c, s) →
      r.executor.execute p.noted r.world =
        (.error err,
          { r.executor with
            stats := { stats with
              executions := stats.executions + 1
              popFailures := stats.popFailures + 1 } },
          { consumer := c.rearm, around := { r.world.1.around with store := s } }, notes) := by
  intro p e r stats notes
  have hsettled : Executor.Settled r.executor notes :=
    settled_run (settled_start batchSize threshold) acts
  have hbalanced := hsettled.balanced
  have hcounters := hbalanced.counters
  have hparked := hbalanced.parked
  simp only [List.length_nil, Nat.zero_add] at hcounters
  have hhanded : r.executor.stats.popped + r.executor.stats.resurfaced =
      r.executor.stats.handled + r.executor.stats.retried := by omega
  refine ⟨forget_run p _ acts, hsettled.pending, hbalanced.items, hbalanced.popped,
    hbalanced.handled, hhanded, hparked, hcounters, ?_, MemoryStore.moderate, ?_, ?_, ?_⟩
  · intro hs
    exact Bench.execute_calls handle hsettled r.world.1 hs
  · intro s hs
    exact s.moderate hs
  · obtain ⟨calls, hcalls, hsettles⟩ := Executor.sweep_settles (p := p) hsettled r.world.1
    exact ⟨calls, hcalls, hsettles.calls⟩
  · intro err c s hpop
    exact Bench.execute_failing handle hpop

end WorkRun

end ControlBus
