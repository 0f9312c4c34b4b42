-- Runs of an event loop whose members are watched. Its counters, those of its multiplexer and the
-- calls that were made tell the same of every iteration, however members join and fail.
import ControlBus.Proofs.LoopAccounts

namespace ControlBus

variable {σ : Type}

/-- What happens to a loop and around it. -/
inductive TallyAct (σ : Type) where
  /-- One more member joins. -/
  | enroll (priority : Int)
  /-- Others change the world. -/
  | change (f : σ → σ)
  /-- One iteration; `events` tells what happens while it waits. -/
  | iterate (events : Multiplexer Nat → σ → List (σ → σ))

/-- A loop whose members are numbered in the order in which they joined, and what was seen of it. -/
structure TallyRun (σ : Type) where
  loop : EventLoop Nat
  world : Watched Nat σ
  /-- For each member, how many iterations there had been when it joined. -/
  joined : List Nat := []
  outcomes : List Iteration := []

namespace TallyRun

def start (waitTimeout : Nat) (world : σ) : TallyRun σ where
  loop := { waitTimeout }
  world := { world }

def act (ops : MemberOps Nat σ) (r : TallyRun σ) : TallyAct σ → TallyRun σ
  | .enroll priority =>
    { r with
      loop := (r.loop.register r.loop.multiplexer.registrations.length priority).2
      joined := r.joined ++ [r.outcomes.length] }
  | .change f => { r with world := r.world.change f }
  | .iterate events =>
    let (outcome, loop, world) := r.loop.runOnce ops.watched
      (fun m w => (events m w.world).map Watched.change) r.world
    { r with loop, world, outcomes := r.outcomes ++ [outcome] }

def run (ops : MemberOps Nat σ) (acts : List (TallyAct σ)) (r : TallyRun σ) : TallyRun σ :=
  acts.foldl (act ops) r

/-- The same act when nobody watches. -/
def bare (ops : MemberOps Nat σ) (l : EventLoop Nat × σ) : TallyAct σ → EventLoop Nat × σ
  | .enroll priority => ((l.1.register l.1.multiplexer.registrations.length priority).2, l.2)
  | .change f => (l.1, f l.2)
  | .iterate events => (l.1.runOnce ops events l.2).2

def orders (r : TallyRun σ) : List (Duty × Nat) := r.world.calls.map Call.order

def executed (r : TallyRun σ) : List Nat := r.outcomes.flatMap Iteration.executed

theorem count_calls (duty duty' : Duty) (members : List Nat) (i : Nat) :
    (members.map (duty, ·)).count (duty', i) = if duty = duty' then members.count i else 0 := by
  induction members with
  | nil => simp
  | cons member rest ih =>
    rw [List.map_cons, List.count_cons, ih, List.count_cons]
    by_cases hd : duty = duty' <;> simp [hd]

/-- The counters and the calls are those of the outcomes. -/
structure Tallied (r : TallyRun σ) : Prop where
  numbered : r.loop.multiplexer.sources = List.range r.joined.length
  known : ∀ order ∈ r.orders, order.2 < r.joined.length
  iterations : r.loop.stats.iterations = r.outcomes.length
  selects : r.loop.multiplexer.stats.selects = r.outcomes.length
  counts : LoopStats.Counts r.outcomes r.world.calls {} r.loop.stats
  books : r.loop.multiplexer.books = Books.of r.joined.length r.outcomes
  executions : ∀ i, r.orders.count (.execute, i) = r.executed.count i
  sweeps : ∀ i start, r.joined[i]? = some start →
    r.orders.count (.sweep, i) + start = r.outcomes.length

variable {r : TallyRun σ}

theorem tallied_start (waitTimeout : Nat) (world : σ) : (start waitTimeout world).Tallied where
  numbered := rfl
  known _ h := nomatch h
  iterations := rfl
  selects := rfl
  counts := ⟨rfl, rfl, rfl, rfl, rfl⟩
  books := rfl
  executions _ := rfl
  sweeps _ _ h := nomatch h

theorem Tallied.executed_lt (h : r.Tallied) {i : Nat} (hi : i ∈ r.executed) :
    i < r.joined.length := by
  have hcount : 0 < r.orders.count (.execute, i) := by
    rw [h.executions]
    exact List.count_pos_iff.mpr hi
  exact h.known _ (List.count_pos_iff.mp hcount)

/-- A member that joins has not been called yet, and no counter moves. -/
theorem Tallied.enroll (h : r.Tallied) (ops : MemberOps Nat σ) (priority : Int) :
    (r.act ops (.enroll priority)).Tallied where
  numbered := by
    have hlength : r.loop.multiplexer.registrations.length = r.joined.length := by
      have hnumbered := congrArg List.length h.numbered
      simpa [Multiplexer.sources] using hnumbered
    have hsources := h.numbered
    simp only [Multiplexer.sources] at hsources
    simp [act, EventLoop.register, Multiplexer.add, Multiplexer.sources, hsources, hlength,
      List.range_succ]
  known order horder := by
    have hlt := h.known order horder
    simp only [act, List.length_append, List.length_singleton]
    omega
  iterations := h.iterations
  selects := h.selects
  counts := h.counts
  books := by
    have hnew : r.executed.count r.joined.length = 0 :=
      List.count_eq_zero.mpr fun hin => Nat.lt_irrefl _ (h.executed_lt hin)
    have hbooks := h.books
    simp only [Multiplexer.books, Books.of, Books.mk.injEq] at hbooks
    simp only [act, EventLoop.register, Multiplexer.add, Multiplexer.books, Books.of,
      Books.mk.injEq, List.map_append, List.length_append, List.length_singleton,
      List.range_succ, hbooks, true_and]
    rw [executed] at hnew
    simp [hnew]
  executions := h.executions
  sweeps i start hi := by
    by_cases hlt : i < r.joined.length
    · rw [act, List.getElem?_append_left hlt] at hi
      exact h.sweeps i start hi
    · have hnever : r.orders.count (.sweep, i) = 0 :=
        List.count_eq_zero.mpr fun hin => hlt (h.known _ hin)
      have hstart : start = r.outcomes.length := by
        rw [act, List.getElem?_append_right (Nat.le_of_not_lt hlt)] at hi
        simpa [eq_comm] using (List.mem_of_getElem? hi)
      change r.orders.count (.sweep, i) + start = r.outcomes.length
      rw [hnever, hstart, Nat.zero_add]

/-- The calls of an iteration of `n` members: one execution at most, then one sweep of each. -/
def iterationCalls (n : Nat) (outcome : Iteration) : List (Duty × Nat) :=
  outcome.executed.map (.execute, ·) ++ (List.range n).map (.sweep, ·)

theorem count_execute_iterationCalls (n : Nat) (outcome : Iteration) (i : Nat) :
    (iterationCalls n outcome).count (.execute, i) = outcome.executed.count i := by
  rw [iterationCalls, List.count_append, count_calls, count_calls, if_pos rfl,
    if_neg Duty.noConfusion, Nat.add_zero]

theorem count_sweep_iterationCalls {n i : Nat} (hi : i < n) (outcome : Iteration) :
    (iterationCalls n outcome).count (.sweep, i) = 1 := by
  rw [iterationCalls, List.count_append, count_calls, count_calls, if_neg Duty.noConfusion,
    if_pos rfl, Nat.zero_add, List.nodup_range.count, if_pos (List.mem_range.mpr hi)]

theorem lt_of_mem_iterationCalls {n : Nat} {outcome : Iteration}
    (h : ∀ i ∈ outcome.executed, i < n) {order : Duty × Nat}
    (horder : order ∈ iterationCalls n outcome) : order.2 < n := by
  rcases List.mem_append.mp horder with hin | hin
  · obtain ⟨i, hi, rfl⟩ := List.mem_map.mp hin
    exact h i hi
  · obtain ⟨i, hi, rfl⟩ := List.mem_map.mp hin
    exact List.mem_range.mp hi

/-- One iteration: its outcome is entered by loop and multiplexer, and its calls are made. -/
theorem Tallied.iteration (h : r.Tallied) (ops : MemberOps Nat σ)
    (events : Multiplexer Nat → σ → List (σ → σ)) :
    ∃ (outcome : Selection) (l : EventLoop Nat) (world : Watched Nat σ) (made : List (Call Nat)),
      r.act ops (.iterate events) =
        { r with loop := l, world, outcomes := r.outcomes ++ [outcome.iteration] } ∧
      world.calls = r.world.calls ++ made ∧
      made.map Call.order = iterationCalls r.joined.length outcome.iteration ∧
      (∀ i ∈ outcome.iteration.executed, i < r.joined.length) ∧
      l.stats.iterations = r.loop.stats.iterations + 1 ∧
      LoopStats.Counts [outcome.iteration] made r.loop.stats l.stats ∧
      l.multiplexer.stats.selects = r.loop.multiplexer.stats.selects + 1 ∧
      l.multiplexer.sources = r.loop.multiplexer.sources ∧
      l.multiplexer.books = r.loop.multiplexer.books.note (some outcome) := by
  obtain ⟨outcome, made, hrun, houtcome, horders, hiterations, hcounts, henters⟩ :=
    EventLoop.runOnce_watched ops events r.loop r.world
  have hknown : ∀ i ∈ outcome.iteration.executed, i < r.joined.length := by
    intro i hi
    cases outcome with
    | ready id =>
      rw [List.mem_singleton.mp hi]
      have hid := henters.known id rfl
      change id < r.loop.multiplexer.sources.length at hid
      rwa [h.numbered, List.length_range] at hid
    | failed id e => cases hi
    | timeout => cases hi
  rw [h.numbered, filterMap_range hknown] at horders
  let out := r.loop.runOnce ops events r.world.world
  refine ⟨outcome, out.2.1, { world := out.2.2, calls := r.world.calls ++ made }, made, ?_, rfl,
    horders, hknown, hiterations, hcounts, henters.selects, henters.sources, henters.books⟩
  simp only [act, hrun, houtcome, out]

/-- An iteration adds one outcome to the counters and one sweep to the calls of every member. -/
theorem Tallied.iterate (h : r.Tallied) (ops : MemberOps Nat σ)
    (events : Multiplexer Nat → σ → List (σ → σ)) : (r.act ops (.iterate events)).Tallied := by
  obtain ⟨outcome, l, world, made, hact, hcalls, hmade, hknown, hiterations, hcounts, hselects,
    hsources, hbooks⟩ := h.iteration ops events
  have horders : world.calls.map Call.order =
      r.orders ++ iterationCalls r.joined.length outcome.iteration := by
    rw [hcalls, List.map_append, hmade, orders]
  have hlength : (r.outcomes ++ [outcome.iteration]).length = r.outcomes.length + 1 :=
    List.length_append
  rw [hact]
  constructor
  case numbered => exact hsources.trans h.numbered
  case known =>
    intro order horder
    rw [orders, horders] at horder
    rcases List.mem_append.mp horder with hold | hnew
    · exact h.known order hold
    · exact lt_of_mem_iterationCalls hknown hnew
  case iterations => rw [hiterations, h.iterations, hlength]
  case selects => rw [hselects, h.selects, hlength]
  case counts =>
    dsimp only
    rw [hcalls]
    exact h.counts.trans hcounts
  case books => rw [hbooks, h.books, Books.note_of]
  case executions =>
    intro i
    rw [orders, horders, List.count_append, h.executions, count_execute_iterationCalls, executed,
      executed, List.flatMap_append, List.count_append, List.flatMap_singleton]
  case sweeps =>
    intro i start hi
    have hlt : i < r.joined.length := (List.getElem?_eq_some_iff.mp hi).1
    have hsweeps := h.sweeps i start hi
    rw [orders, horders, List.count_append, count_sweep_iterationCalls hlt, hlength]
    omega

/-- Loop and multiplexer have counted the same: each iteration ended in one of three ways, each
dispatch was one execution of the member that it is booked on, and every member was swept once in
each iteration since it joined. -/
structure Balanced (r : TallyRun σ) : Prop where
  iterations : r.loop.stats.iterations = r.outcomes.length
  selects : r.loop.multiplexer.stats.selects = r.loop.stats.iterations
  complete : r.loop.stats.iterations =
    r.loop.stats.executions + r.loop.stats.timeouts + r.loop.stats.sourceFailures
  executions : r.loop.stats.executions = r.loop.multiplexer.stats.dispatches
  shares : r.loop.stats.executions = (r.loop.multiplexer.registrations.map (·.dispatches)).sum
  timeouts : r.loop.stats.timeouts = r.loop.multiplexer.stats.timeouts
  failures : r.loop.stats.sourceFailures = r.loop.multiplexer.stats.errors
  executed : ∀ i s, r.loop.multiplexer.registrations[i]? = some s →
    s.dispatches = r.orders.count (.execute, i)
  joined : r.joined.length = r.loop.multiplexer.registrations.length
  swept : ∀ i start, r.joined[i]? = some start →
    r.orders.count (.sweep, i) + start = r.loop.stats.iterations
  executeErrors : r.loop.stats.executeErrors = r.world.calls.countP (Call.failedAt .execute)
  sweepErrors : r.loop.stats.sweepErrors = r.world.calls.countP (Call.failedAt .sweep)

theorem length_outcomes (outcomes : List Iteration) :
    outcomes.length = (outcomes.flatMap Iteration.executed).length + outcomes.count .timeout +
      (outcomes.flatMap Iteration.failed).length := by
  induction outcomes with
  | nil => rfl
  | cons outcome rest ih =>
    rw [List.flatMap_cons, List.flatMap_cons, List.length_append, List.length_append,
      List.count_cons, List.length_cons, ih]
    cases outcome <;> simp [Iteration.executed, Iteration.failed] <;> omega

theorem Tallied.balanced (h : r.Tallied) : r.Balanced := by
  have hbooks := h.books
  simp only [Multiplexer.books, Books.of, Books.mk.injEq] at hbooks
  obtain ⟨hdispatches, htimeouts, herrors, hcounts⟩ := hbooks
  have hexecutions : r.loop.stats.executions = r.executed.length := by
    simpa [executed] using h.counts.executions
  have hlost : r.loop.stats.timeouts = r.outcomes.count .timeout := by
    simpa using h.counts.timeouts
  have hfailures : r.loop.stats.sourceFailures = (r.outcomes.flatMap Iteration.failed).length := by
    simpa using h.counts.failures
  have hjoined : r.joined.length = r.loop.multiplexer.registrations.length := by
    have hnumbered := congrArg List.length h.numbered
    simpa [Multiplexer.sources, eq_comm] using hnumbered
  refine ⟨h.iterations, h.selects.trans h.iterations.symm, ?_, ?_, ?_, ?_, ?_, ?_, hjoined,
    ?_, ?_, ?_⟩
  · rw [h.iterations, hexecutions, hlost, hfailures]
    exact length_outcomes r.outcomes
  · exact hexecutions.trans hdispatches.symm
  · rw [hexecutions, hcounts]
    exact (sum_counts fun i hi => h.executed_lt hi).symm
  · exact hlost.trans htimeouts.symm
  · exact hfailures.trans herrors.symm
  · intro i s hs
    rw [h.executions]
    have hcount := congrArg (fun counts => counts[i]?) hcounts
    have hi : i < r.joined.length := by
      rw [hjoined]
      exact (List.getElem?_eq_some_iff.mp hs).1
    simpa [hs, List.getElem?_range hi, executed] using hcount
  · intro i start hi
    rw [h.iterations]
    exact h.sweeps i start hi
  · simpa using h.counts.executeErrors
  · simpa using h.counts.sweepErrors

theorem Tallied.act (h : r.Tallied) (ops : MemberOps Nat σ) (a : TallyAct σ) :
    (r.act ops a).Tallied := by
  cases a with
  | enroll priority => exact h.enroll ops priority
  | change f => exact ⟨h.numbered, h.known, h.iterations, h.selects, h.counts, h.books,
      h.executions, h.sweeps⟩
  | iterate events => exact h.iterate ops events

/-- The observer changes nothing. -/
theorem act_bare (ops : MemberOps Nat σ) (r : TallyRun σ) (a : TallyAct σ) :
    ((r.act ops a).loop, (r.act ops a).world.world) = bare ops (r.loop, r.world.world) a := by
  cases a with
  | enroll priority => rfl
  | change f => rfl
  | iterate events =>
    obtain ⟨outcome, made, hrun, -⟩ := EventLoop.runOnce_watched ops events r.loop r.world
    simp only [TallyRun.act, hrun, bare]

theorem Tallied.run (h : r.Tallied) (ops : MemberOps Nat σ) (acts : List (TallyAct σ)) :
    (r.run ops acts).Tallied := by
  induction acts generalizing r with
  | nil => exact h
  | cons a rest ih => exact ih (h.act ops a)

theorem run_bare (ops : MemberOps Nat σ) (acts : List (TallyAct σ)) (r : TallyRun σ) :
    ((r.run ops acts).loop, (r.run ops acts).world.world) =
      acts.foldl (bare ops) (r.loop, r.world.world) := by
  induction acts generalizing r with
  | nil => rfl
  | cons a rest ih =>
    rw [List.foldl_cons, ← act_bare]
    exact ih (r.act ops a)

/-- Whatever members do, whenever they join, whatever comes of the selections and however executions
and sweeps fail, the books balance, and they are those of the same run with nobody watching. -/
theorem every_iteration_is_accounted_for (ops : MemberOps Nat σ) (waitTimeout : Nat) (world : σ)
    (acts : List (TallyAct σ)) :
    let r := (start waitTimeout world).run ops acts
    r.Balanced ∧
      (r.loop, r.world.world) = acts.foldl (bare ops) ({ waitTimeout }, world) :=
  ⟨((tallied_start waitTimeout world).run ops acts).balanced, run_bare ops acts _⟩

end TallyRun

end ControlBus
