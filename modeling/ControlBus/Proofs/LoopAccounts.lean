-- The books of an event loop. Loop and multiplexer count for themselves, on different branches.
-- Each iteration enters its outcome with both, makes one execution if it dispatched, and sweeps
-- every member once, whatever members do and however they fail.
import ControlBus.Proofs.WakeUpRuns
import Mathlib.Algebra.GroupWithZero.Nat
import Mathlib.Data.List.Induction

namespace ControlBus

/-! ## Outcomes -/

namespace Iteration

/-- The member that an iteration executed. -/
def executed : Iteration → List Nat
  | dispatched id => [id]
  | _ => []

/-- The member whose source failed. -/
def failed : Iteration → List Nat
  | sourceFailed id => [id]
  | _ => []

end Iteration

def Selection.iteration : Selection → Iteration
  | ready id => .dispatched id
  | failed id _ => .sourceFailed id
  | timeout => .timeout

/-! ## The counters of the multiplexer -/

/-- The counters that outcomes of selections move, and the dispatches of each source by number. -/
structure Books where
  dispatches : Nat
  timeouts : Nat
  errors : Nat
  counts : List Nat

/-- What an outcome means for the counters; a look that comes to nothing moves none. -/
def Books.note (b : Books) : Option Selection → Books
  | none => b
  | some (.ready id) =>
    { b with dispatches := b.dispatches + 1, counts := b.counts.modify id (· + 1) }
  | some (.failed _ _) => { b with errors := b.errors + 1 }
  | some .timeout => { b with timeouts := b.timeouts + 1 }

theorem sum_modify_succ {counts : List Nat} {id : Nat} (h : id < counts.length) :
    (counts.modify id (· + 1)).sum = counts.sum + 1 := by
  induction counts generalizing id with
  | nil => simp at h
  | cons n rest ih =>
    cases id with
    | zero => simp [Nat.add_right_comm]
    | succ id =>
      have hrest : id < rest.length := by simpa using h
      simp [ih hrest, Nat.add_assoc]

theorem filterMap_range {n : Nat} {numbers : List Nat} (h : ∀ i ∈ numbers, i < n) :
    numbers.filterMap ((List.range n)[·]?) = numbers := by
  induction numbers with
  | nil => rfl
  | cons i rest ih =>
    rw [List.filterMap_cons, List.getElem?_range (h i List.mem_cons_self)]
    exact congrArg (i :: ·) (ih fun j hj => h j (List.mem_cons_of_mem _ hj))

/-- The books after the outcomes of all iterations, with `n` sources. -/
def Books.of (n : Nat) (outcomes : List Iteration) : Books where
  dispatches := (outcomes.flatMap Iteration.executed).length
  timeouts := outcomes.count .timeout
  errors := (outcomes.flatMap Iteration.failed).length
  counts := (List.range n).map fun i => (outcomes.flatMap Iteration.executed).count i

theorem map_count_snoc (n id : Nat) (dispatched : List Nat) :
    (List.range n).map (fun i => (dispatched ++ [id]).count i) =
      ((List.range n).map fun i => dispatched.count i).modify id (· + 1) := by
  apply List.ext_getElem?
  intro j
  rw [List.getElem?_modify, List.getElem?_map, List.getElem?_map]
  by_cases hj : j < n
  · rw [List.getElem?_range hj]
    by_cases hij : id = j
    · subst hij
      simp [List.count_append]
    · simp [List.count_append, hij]
  · rw [List.getElem?_eq_none (by simpa using hj)]
    rfl

theorem sum_counts {n : Nat} {dispatched : List Nat} (h : ∀ i ∈ dispatched, i < n) :
    ((List.range n).map fun i => dispatched.count i).sum = dispatched.length := by
  induction dispatched using List.reverseRecOn with
  | nil => simp
  | append_singleton rest id ih =>
    have hid : id < ((List.range n).map fun i => rest.count i).length := by
      simpa using h id (by simp)
    rw [map_count_snoc, sum_modify_succ hid, ih fun i hi => h i (List.mem_append_left _ hi)]
    simp

/-- An outcome more is an entry more. -/
theorem Books.note_of {n : Nat} {outcome : Selection} (outcomes : List Iteration) :
    (Books.of n outcomes).note (some outcome) = Books.of n (outcomes ++ [outcome.iteration]) := by
  cases outcome with
  | timeout =>
    simp [Books.of, Books.note, Selection.iteration, Iteration.executed, Iteration.failed]
  | failed id e =>
    simp [Books.of, Books.note, Selection.iteration, Iteration.executed, Iteration.failed]
  | ready id =>
    have hcounts := map_count_snoc n id (outcomes.flatMap Iteration.executed)
    simp [Books.of, Books.note, Selection.iteration, Iteration.executed,
      Iteration.failed] at hcounts ⊢
    exact hcounts.symm

namespace Multiplexer

variable {ι σ : Type}

/-- The registered sources, by number. -/
def sources (m : Multiplexer ι) : List ι := m.registrations.map (·.source)

def books (m : Multiplexer ι) : Books where
  dispatches := m.stats.dispatches
  timeouts := m.stats.timeouts
  errors := m.stats.errors
  counts := m.registrations.map (·.dispatches)

/-- From one multiplexer to the next an outcome has been entered in the books and nothing else. -/
structure Enters (outcome : Option Selection) (m m' : Multiplexer ι) : Prop where
  books : m'.books = m.books.note outcome
  selects : m'.stats.selects = m.stats.selects
  sources : m'.sources = m.sources
  known : ∀ id, outcome = some (.ready id) → id < m.sources.length

variable {m m' m'' : Multiplexer ι} {outcome : Option Selection}

/-- A look that came to nothing may go before. -/
theorem Enters.after (h : Enters outcome m' m'') (hbefore : Enters none m m') :
    Enters outcome m m'' where
  books := by rw [h.books, hbefore.books, Books.note]
  selects := h.selects.trans hbefore.selects
  sources := h.sources.trans hbefore.sources
  known id hid := hbefore.sources ▸ h.known id hid

theorem passOver_tallies (ops : SourceOps ι σ) (id : Nat) (todo : List (Registration ι))
    (set : List ReadyKey) (w : σ) :
    (passOver ops id todo set w).registrations.map (fun r => (r.source, r.dispatches)) =
      todo.map fun r => (r.source, r.dispatches) := by
  induction todo generalizing id set w with
  | nil => rfl
  | cons r rest ih =>
    cases hc : r.closed with
    | true => simp [passOver, hc, ih]
    | false =>
      rcases hp : ops.poll r.source w with ⟨reading, w'⟩
      cases reading with
      | failed e => simp [passOver, hc, hp]
      | pending =>
        by_cases hj : (!r.ready && ops.hasData r.source w') = true <;>
          simp [passOver, hc, hp, hj, ih]
      | units n =>
        by_cases hj : (!r.ready && ops.hasData r.source w') = true <;>
          simp [passOver, hc, hp, hj, ih]

/-- A look at the sources moves no counter. -/
theorem enters_poll (ops : SourceOps ι σ) (m : Multiplexer ι) (w : σ) :
    Enters none m (poll ops m w).2.1 := by
  have htallies := passOver_tallies ops 0 m.registrations m.workingSet w
  have hsources := congrArg (List.map Prod.fst) htallies
  have hcounts := congrArg (List.map Prod.snd) htallies
  simp only [List.map_map, Function.comp_def] at hsources hcounts
  refine ⟨?_, rfl, hsources, fun _ h => nomatch h⟩
  simp only [poll, books, Books.note, hcounts]

theorem enters_dispatch (ops : SourceOps ι σ) {id : Nat} {r : Registration ι}
    (hr : m.registrations[id]? = some r) (w : σ) :
    Enters (some (.ready id)) m (dispatch ops m id r w).1 where
  books := by
    simp only [dispatch, books, Books.note, Books.mk.injEq, true_and]
    exact map_set_eq_modify (· + 1) hr rfl
  selects := rfl
  sources := map_set_eq hr rfl
  known _ hid := by
    cases hid
    rw [sources, List.length_map]
    exact (List.getElem?_eq_some_iff.mp hr).1

/-- A source without data whose turn has come is passed over and keeps its count. -/
theorem enters_skip {id : Nat} {r : Registration ι} (hr : m.registrations[id]? = some r) :
    Enters none m { m with
      registrations := m.registrations.set id { r with ready := false }
      stats := { m.stats with emptySkips := m.stats.emptySkips + 1 } } where
  books := by
    simp only [books, Books.note, Books.mk.injEq, true_and]
    exact map_set_eq hr rfl
  selects := rfl
  sources := map_set_eq hr rfl
  known _ h := nomatch h

theorem enters_dispatchFrom (ops : SourceOps ι σ) (set : List ReadyKey) (m : Multiplexer ι)
    (w : σ) :
    Enters ((dispatchFrom ops set m w).1.map .ready) m (dispatchFrom ops set m w).2.1 := by
  induction set generalizing m with
  | nil => exact ⟨rfl, rfl, rfl, fun _ h => nomatch h⟩
  | cons k rest ih =>
    rw [dispatchFrom]
    cases hr : m.registrations[k.id]? with
    | none => exact ih m
    | some r =>
      dsimp only
      by_cases hdata : ops.hasData r.source w = true
      · rw [if_pos hdata]
        have hentry := enters_dispatch ops (m := { m with workingSet := rest }) hr w
        exact ⟨hentry.books, hentry.selects, hentry.sources, hentry.known⟩
      · rw [if_neg hdata]
        exact (ih _).after (enters_skip hr)

theorem enters_report (m : Multiplexer ι) (failure : Nat × BusError) :
    Enters (m.report failure).1 m (m.report failure).2 :=
  ⟨rfl, rfl, rfl, fun _ h => nomatch h⟩

theorem enters_turn (ops : SourceOps ι σ) (m : Multiplexer ι) (w : σ) :
    Enters (turn ops m w).1 m (turn ops m w).2.1 := by
  have hpoll := enters_poll ops m w
  unfold turn
  rcases hp : poll ops m w with ⟨failure, m', w'⟩
  rw [hp] at hpoll
  cases failure with
  | some failure => exact (enters_report m' failure).after hpoll
  | none => exact (enters_dispatchFrom ops m'.workingSet m' w').after hpoll

theorem enters_await (ops : SourceOps ι σ) (events : List (σ → σ)) (m : Multiplexer ι) (w : σ) :
    Enters (await ops events m w).1 m (await ops events m w).2.1 := by
  induction events generalizing m w with
  | nil =>
    have hturn := enters_turn ops m w
    rw [await_eq]
    rcases ht : turn ops m w with ⟨outcome, m', w'⟩
    rw [ht] at hturn
    cases outcome <;> exact hturn
  | cons event rest ih =>
    have hturn := enters_turn ops m w
    rw [await_eq]
    rcases ht : turn ops m w with ⟨outcome, m', w'⟩
    rw [ht] at hturn
    cases outcome with
    | some outcome => exact hturn
    | none => exact (ih m' (event w')).after hturn

/-- A selection counts that it was begun, and enters its one outcome. -/
theorem enters_select (ops : SourceOps ι σ) (events : Multiplexer ι → σ → List (σ → σ))
    (m : Multiplexer ι) (w : σ) :
    Enters (some (select ops events m w).1)
      { m with stats := { m.stats with selects := m.stats.selects + 1 } }
      (select ops events m w).2.1 := by
  have hturn := enters_turn ops
    { m with stats := { m.stats with selects := m.stats.selects + 1 } } w
  rw [select, attempt_eq]
  rcases ht : turn ops _ w with ⟨outcome, m₁, w₁⟩
  rw [ht] at hturn
  cases outcome with
  | some outcome => exact hturn
  | none =>
    have hawait := (enters_await ops (events m₁ w₁) m₁ w₁).after hturn
    dsimp only
    rcases ha : await ops (events m₁ w₁) m₁ w₁ with ⟨outcome, m₂, w₂⟩
    rw [ha] at hawait
    cases outcome with
    | some outcome => exact hawait
    | none =>
      refine Enters.after ⟨rfl, rfl, rfl, ?_⟩ hawait
      intro id hnone
      cases hnone

end Multiplexer

/-! ## Watching the members -/

/-- What the loop calls a member for. -/
inductive Duty where
  | execute
  | sweep
deriving DecidableEq

/-- A call that the loop made to a member, and whether it succeeded. -/
structure Call (ι : Type) where
  duty : Duty
  member : ι
  ok : Bool

namespace Call

variable {ι : Type}

/-- What was called for, and of whom. -/
def order (c : Call ι) : Duty × ι := (c.duty, c.member)

def failedAt (duty : Duty) (c : Call ι) : Bool := c.duty = duty && !c.ok

end Call

/-- A world of members and the calls made to them so far. -/
structure Watched (ι σ : Type) where
  world : σ
  calls : List (Call ι) := []

variable {ι σ : Type}

namespace Watched

def change (f : σ → σ) (w : Watched ι σ) : Watched ι σ := { w with world := f w.world }

/-- What came of a step that makes no call. -/
def uncalled {α β : Type} (w : Watched ι σ) (out : α × β × σ) : α × β × Watched ι σ :=
  (out.1, out.2.1, { w with world := out.2.2 })

end Watched

/-- The same sources, in a world in which calls of members are written down. -/
def SourceOps.watched (ops : SourceOps ι σ) : SourceOps ι (Watched ι σ) where
  poll a w := ((ops.poll a w.world).1, { w with world := (ops.poll a w.world).2 })
  hasData a w := ops.hasData a w.world
  hasMore a w := ops.hasMore a w.world
  afterRead a := Watched.change (ops.afterRead a)

/-- The same members, each execution and each sweep of which is written down. -/
def MemberOps.watched (ops : MemberOps ι σ) : MemberOps ι (Watched ι σ) where
  toSourceOps := ops.toSourceOps.watched
  execute a w :=
    let (result, world) := ops.execute a w.world
    (result, { world, calls := w.calls ++ [⟨.execute, a, result.isOk⟩] })
  sweep a w :=
    let (result, world) := ops.sweep a w.world
    (result, { world, calls := w.calls ++ [⟨.sweep, a, result.isOk⟩] })
  now w := ops.now w.world

namespace Multiplexer

variable (ops : SourceOps ι σ)

theorem passOver_watched (id : Nat) (todo : List (Registration ι)) (set : List ReadyKey)
    (w : Watched ι σ) :
    passOver ops.watched id todo set w =
      { passOver ops id todo set w.world with
        world := { w with world := (passOver ops id todo set w.world).world } } := by
  induction todo generalizing id set w with
  | nil => rfl
  | cons r rest ih =>
    cases hc : r.closed with
    | true => simp [passOver, hc, ih]
    | false =>
      have hpoll : ops.watched.poll r.source w =
          ((ops.poll r.source w.world).1, { w with world := (ops.poll r.source w.world).2 }) := rfl
      have hdata : ∀ v, ops.watched.hasData r.source { w with world := v } =
          ops.hasData r.source v := fun _ => rfl
      rcases hp : ops.poll r.source w.world with ⟨reading, v⟩
      rw [hp] at hpoll
      cases reading with
      | failed e => simp [passOver, hc, hp, hpoll]
      | pending =>
        by_cases hj : (!r.ready && ops.hasData r.source v) = true <;>
          simp only [passOver, hc, hp, hpoll, hdata, hj, ih] <;> rfl
      | units n =>
        by_cases hj : (!r.ready && ops.hasData r.source v) = true <;>
          simp only [passOver, hc, hp, hpoll, hdata, hj, ih] <;> rfl

theorem poll_watched (m : Multiplexer ι) (w : Watched ι σ) :
    poll ops.watched m w = w.uncalled (poll ops m w.world) := by
  simp only [poll, passOver_watched]
  rfl

theorem dispatchFrom_watched (set : List ReadyKey) (m : Multiplexer ι) (w : Watched ι σ) :
    dispatchFrom ops.watched set m w = w.uncalled (dispatchFrom ops set m w.world) := by
  induction set generalizing m with
  | nil => rfl
  | cons k rest ih =>
    rw [dispatchFrom, dispatchFrom]
    cases m.registrations[k.id]? with
    | none => exact ih m
    | some r =>
      have hdata : ops.watched.hasData r.source w = ops.hasData r.source w.world := rfl
      dsimp only
      rw [hdata]
      split
      · rfl
      · exact ih _

theorem turn_watched (m : Multiplexer ι) (w : Watched ι σ) :
    turn ops.watched m w = w.uncalled (turn ops m w.world) := by
  rw [turn, turn, poll_watched]
  rcases poll ops m w.world with ⟨failure, m', v⟩
  cases failure with
  | some failure => rfl
  | none =>
    simp only [Watched.uncalled, dispatchNext, dispatchFrom_watched]

theorem await_watched (events : List (σ → σ)) (m : Multiplexer ι) (w : Watched ι σ) :
    await ops.watched (events.map Watched.change) m w =
      w.uncalled (await ops events m w.world) := by
  induction events generalizing m w with
  | nil =>
    rw [await_eq, await_eq, turn_watched]
    rcases turn ops m w.world with ⟨outcome, m', v⟩
    cases outcome <;> rfl
  | cons event rest ih =>
    rw [await_eq, await_eq, turn_watched]
    rcases turn ops m w.world with ⟨outcome, m', v⟩
    cases outcome with
    | some outcome => rfl
    | none => exact ih m' _

/-- Watched or not, a selection comes out the same, and it calls no member. -/
theorem select_watched (events : Multiplexer ι → σ → List (σ → σ)) (m : Multiplexer ι)
    (w : Watched ι σ) :
    select ops.watched (fun m w => (events m w.world).map Watched.change) m w =
      w.uncalled (select ops events m w.world) := by
  rw [select, select, attempt_eq, attempt_eq, turn_watched]
  rcases turn ops _ w.world with ⟨outcome, m', v⟩
  cases outcome with
  | some outcome => rfl
  | none =>
    simp only [Watched.uncalled, await_watched]
    rcases await ops (events m' v) m' v with ⟨outcome, m'', v'⟩
    cases outcome <;> rfl

end Multiplexer

/-! ## One iteration -/

/-- From one state of the counters to another these outcomes and these calls have been counted. -/
structure LoopStats.Counts (outcomes : List Iteration) (calls : List (Call ι))
    (s s' : LoopStats) : Prop where
  executions : s'.executions = s.executions + (outcomes.flatMap Iteration.executed).length
  timeouts : s'.timeouts = s.timeouts + outcomes.count .timeout
  failures : s'.sourceFailures = s.sourceFailures + (outcomes.flatMap Iteration.failed).length
  executeErrors : s'.executeErrors = s.executeErrors + calls.countP (Call.failedAt .execute)
  sweepErrors : s'.sweepErrors = s.sweepErrors + calls.countP (Call.failedAt .sweep)

theorem LoopStats.Counts.trans {s s' s'' : LoopStats} {before after : List Iteration}
    {first next : List (Call ι)} (h : Counts before first s s') (h' : Counts after next s' s'') :
    Counts (before ++ after) (first ++ next) s s'' where
  executions := by
    rw [h'.executions, h.executions, List.flatMap_append, List.length_append, Nat.add_assoc]
  timeouts := by rw [h'.timeouts, h.timeouts, List.count_append, Nat.add_assoc]
  failures := by
    rw [h'.failures, h.failures, List.flatMap_append, List.length_append, Nat.add_assoc]
  executeErrors := by
    rw [h'.executeErrors, h.executeErrors, List.countP_append, Nat.add_assoc]
  sweepErrors := by rw [h'.sweepErrors, h.sweepErrors, List.countP_append, Nat.add_assoc]

namespace EventLoop

variable {ops : MemberOps ι σ}

theorem sweepAll_watched (ops : MemberOps ι σ) (rs : List (Registration ι)) (w : Watched ι σ) :
    ∃ made, sweepAll ops.watched rs w =
        ((sweepAll ops rs w.world).1,
          { world := (sweepAll ops rs w.world).2, calls := w.calls ++ made }) ∧
      made.map Call.order = rs.map (fun r => (.sweep, r.source)) ∧
      made.countP (Call.failedAt .sweep) = (sweepAll ops rs w.world).1 ∧
      made.countP (Call.failedAt .execute) = 0 := by
  induction rs generalizing w with
  | nil => exact ⟨[], by simp [sweepAll], rfl, rfl, rfl⟩
  | cons r rest ih =>
    rcases hs : ops.sweep r.source w.world with ⟨result, v⟩
    have hcall : ops.watched.sweep r.source w =
        (result, { world := v, calls := w.calls ++ [⟨.sweep, r.source, result.isOk⟩] }) := by
      simp only [MemberOps.watched, hs]
    obtain ⟨made, hrun, horders, hswept, hexecuted⟩ :=
      ih { world := v, calls := w.calls ++ [⟨.sweep, r.source, result.isOk⟩] }
    refine ⟨⟨.sweep, r.source, result.isOk⟩ :: made, ?_, ?_, ?_, ?_⟩
    · simp only [sweepAll, hcall, hrun, hs, List.append_assoc, List.singleton_append]
    · rw [List.map_cons, horders]
      rfl
    · rw [List.countP_cons, hswept]
      cases hok : result.isOk <;> simp [sweepAll, hs, Call.failedAt, hok]
    · rw [List.countP_cons, hexecuted]
      rfl

/-- A sweep calls every member once, in order, and counts the calls that fail. -/
theorem sweep_watched (ops : MemberOps ι σ) (l : EventLoop ι) (w : Watched ι σ) :
    ∃ made, l.sweep ops.watched w = ((l.sweep ops w.world).1,
        { world := (l.sweep ops w.world).2, calls := w.calls ++ made }) ∧
      made.map Call.order = l.multiplexer.sources.map (.sweep, ·) ∧
      (l.sweep ops w.world).1.stats.iterations = l.stats.iterations ∧
      LoopStats.Counts [] made l.stats (l.sweep ops w.world).1.stats := by
  obtain ⟨made, hrun, horders, hswept, hexecuted⟩ :=
    sweepAll_watched ops l.multiplexer.registrations w
  have hnow : ∀ v calls, ops.watched.now ⟨v, calls⟩ = ops.now v := fun _ _ => rfl
  refine ⟨made, ?_, ?_, ?_⟩
  · simp only [EventLoop.sweep, hrun, hnow]
    split <;> rfl
  · rw [horders, Multiplexer.sources, List.map_map]
    rfl
  · rw [EventLoop.sweep]
    rcases hsweep : sweepAll ops l.multiplexer.registrations w.world with ⟨failures, v⟩
    rw [hsweep] at hswept
    have hexecuteErrors := congrArg (l.stats.executeErrors + ·) hexecuted.symm
    have hsweepErrors := congrArg (l.stats.sweepErrors + ·) hswept.symm
    dsimp only
    split
    · rename_i hzero
      subst hzero
      exact ⟨rfl, rfl, rfl, rfl, hexecuteErrors, hsweepErrors⟩
    · exact ⟨rfl, rfl, rfl, rfl, hexecuteErrors, hsweepErrors⟩

/-- What a selection calls for is done once, and counted whether it succeeds or not. -/
theorem settle_watched (ops : MemberOps ι σ) (outcome : Selection) {l : EventLoop ι}
    (hknown : ∀ id, outcome = .ready id → id < l.multiplexer.sources.length) (w : Watched ι σ) :
    ∃ made, l.settle ops.watched outcome w =
        ((l.settle ops outcome w.world).1, (l.settle ops outcome w.world).2.1,
          { world := (l.settle ops outcome w.world).2.2, calls := w.calls ++ made }) ∧
      made.map Call.order =
        (outcome.iteration.executed.filterMap (l.multiplexer.sources[·]?)).map (.execute, ·) ∧
      (l.settle ops outcome w.world).2.1.stats.iterations = l.stats.iterations ∧
      LoopStats.Counts [outcome.iteration] made l.stats
        (l.settle ops outcome w.world).2.1.stats := by
  cases outcome with
  | timeout => exact ⟨[], by simp [settle], rfl, rfl, rfl, rfl, rfl, rfl, rfl⟩
  | failed id e =>
    exact ⟨[], by simp [settle, MemberOps.watched], rfl, rfl, rfl, rfl, rfl, rfl, rfl⟩
  | ready id =>
    have hid : id < l.multiplexer.registrations.length := by
      simpa [Multiplexer.sources] using hknown id rfl
    have hr := List.getElem?_eq_getElem hid
    rcases he : ops.execute l.multiplexer.registrations[id].source w.world with ⟨result, v⟩
    refine ⟨[⟨.execute, l.multiplexer.registrations[id].source, result.isOk⟩], ?_, ?_, ?_⟩
    · cases result <;> simp [settle, execute, hr, MemberOps.watched, he]
    · simp [Selection.iteration, Iteration.executed, Multiplexer.sources, hr, Call.order]
    · cases result with
      | ok =>
        have hdone : l.settle ops (.ready id) w.world = (.dispatched id,
            { l with stats := { l.stats with executions := l.stats.executions + 1 } }, v) := by
          simp only [settle, execute, hr, he]
        rw [hdone]
        exact ⟨rfl, rfl, rfl, rfl, rfl, rfl⟩
      | error e =>
        have hdone : l.settle ops (.ready id) w.world = (.dispatched id,
            { l with stats := { l.stats with
                executions := l.stats.executions + 1
                executeErrors := l.stats.executeErrors + 1
                lastErrorAt := some (ops.now v) } }, v) := by
          simp only [settle, execute, hr, he]
        rw [hdone]
        exact ⟨rfl, rfl, rfl, rfl, rfl, rfl⟩

theorem settle_iteration (ops : MemberOps ι σ) (outcome : Selection) (l : EventLoop ι) (w : σ) :
    (l.settle ops outcome w).1 = outcome.iteration := by
  cases outcome <;> rfl

theorem sweep_multiplexer (ops : MemberOps ι σ) (l : EventLoop ι) (w : σ) :
    (l.sweep ops w).1.multiplexer = l.multiplexer := by
  simp only [EventLoop.sweep]
  split <;> rfl

/-- What is left of an iteration once its outcome is known: an execution if that is a dispatch, then
one sweep of every member, all of it counted. -/
theorem finish_watched (ops : MemberOps ι σ) (outcome : Selection) {l : EventLoop ι}
    (hknown : ∀ id, outcome = .ready id → id < l.multiplexer.sources.length) (w : Watched ι σ) :
    ∃ made, l.finish ops.watched outcome w =
        ((l.finish ops outcome w.world).1, (l.finish ops outcome w.world).2.1,
          { world := (l.finish ops outcome w.world).2.2, calls := w.calls ++ made }) ∧
      (l.finish ops outcome w.world).1 = outcome.iteration ∧
      made.map Call.order =
        (outcome.iteration.executed.filterMap (l.multiplexer.sources[·]?)).map (.execute, ·) ++
          l.multiplexer.sources.map (.sweep, ·) ∧
      (l.finish ops outcome w.world).2.1.stats.iterations = l.stats.iterations ∧
      LoopStats.Counts [outcome.iteration] made l.stats
        (l.finish ops outcome w.world).2.1.stats ∧
      (l.finish ops outcome w.world).2.1.multiplexer = l.multiplexer := by
  have hiteration := settle_iteration ops outcome l w.world
  have hmultiplexer := settle_multiplexer ops outcome l w.world
  obtain ⟨first, hsettle, hexecuted, hkept, hcounts⟩ := settle_watched ops outcome hknown w
  rcases hdone : l.settle ops outcome w.world with ⟨iteration, l', v⟩
  rw [hdone] at hiteration hmultiplexer hsettle hkept hcounts
  obtain ⟨next, hsweep, hswept, hkept', hcounts'⟩ :=
    sweep_watched ops l' { world := v, calls := w.calls ++ first }
  have hfinish : l.finish ops outcome w.world =
      (iteration, (l'.sweep ops v).1, (l'.sweep ops v).2) := by
    simp only [finish, hdone]
  rw [hfinish]
  refine ⟨first ++ next, ?_, hiteration, ?_, hkept'.trans hkept, hcounts.trans hcounts', ?_⟩
  · simp only [finish, hsettle, hsweep, List.append_assoc]
  · rw [List.map_append, hexecuted, hswept, hmultiplexer]
  · exact (sweep_multiplexer ops l' v).trans hmultiplexer

/-- Watched or not, an iteration comes out the same. It makes one execution if its outcome is a
dispatch, then one sweep of every member, and both components have counted all of it. -/
theorem runOnce_watched (ops : MemberOps ι σ) (events : Multiplexer ι → σ → List (σ → σ))
    (l : EventLoop ι) (w : Watched ι σ) :
    ∃ outcome made,
      runOnce ops.watched (fun m w => (events m w.world).map Watched.change) l w =
        ((runOnce ops events l w.world).1, (runOnce ops events l w.world).2.1,
          { world := (runOnce ops events l w.world).2.2, calls := w.calls ++ made }) ∧
      (runOnce ops events l w.world).1 = outcome.iteration ∧
      made.map Call.order =
        (outcome.iteration.executed.filterMap (l.multiplexer.sources[·]?)).map (.execute, ·) ++
          l.multiplexer.sources.map (.sweep, ·) ∧
      (runOnce ops events l w.world).2.1.stats.iterations = l.stats.iterations + 1 ∧
      LoopStats.Counts [outcome.iteration] made l.stats
        (runOnce ops events l w.world).2.1.stats ∧
      Multiplexer.Enters (some outcome)
        { l.multiplexer with
          stats := { l.multiplexer.stats with selects := l.multiplexer.stats.selects + 1 } }
        (runOnce ops events l w.world).2.1.multiplexer := by
  have henters := Multiplexer.enters_select ops.toSourceOps events l.multiplexer w.world
  have hselect := Multiplexer.select_watched ops.toSourceOps events l.multiplexer w
  have hbegin : l.begin.multiplexer = l.multiplexer := rfl
  have hops : ops.watched.toSourceOps = ops.toSourceOps.watched := rfl
  rcases hs : l.multiplexer.select ops.toSourceOps events w.world with ⟨outcome, m, v⟩
  rw [hs] at henters hselect
  have hsources : m.sources = l.multiplexer.sources := henters.sources
  obtain ⟨made, hfinish, hiteration, horders, hkept, hcounts, hmultiplexer⟩ :=
    finish_watched ops outcome (l := { l.begin with multiplexer := m })
      (fun id hid => hsources ▸ henters.known id (congrArg some hid)) { w with world := v }
  have hrun : runOnce ops events l w.world =
      finish ops outcome { l.begin with multiplexer := m } v := by
    simp only [runOnce, hbegin, hs]
  rw [hrun]
  refine ⟨outcome, made, ?_, hiteration, hsources ▸ horders, hkept, ?_, ?_⟩
  · simp only [runOnce, hbegin, hops, hselect, Watched.uncalled]
    exact hfinish
  · exact ⟨hcounts.executions, hcounts.timeouts, hcounts.failures, hcounts.executeErrors,
      hcounts.sweepErrors⟩
  · rw [hmultiplexer]
    exact henters

end EventLoop

end ControlBus
