-- An executor keeps to the docket of the items that its handler puts off: at a workplace where all
-- calls, reports and sweeps are logged, the retry queue holds just what the log says.
import ControlBus.Proofs.Dockets
import ControlBus.Proofs.Overtaking
import ControlBus.Proofs.RandomSetLaws
import Mathlib.Data.List.Nodup

namespace ControlBus

open WorkItem

/-! ## The retry queue and its docket -/

namespace Docket

/-- The retry queue holds the items of the docket, but for the first of those released: these are on
their way to the handler. -/
structure Kept (todo : List WorkItem) (d : Docket) (q : RetryQueue) : Prop where
  ready : d.ready.map (·.1.item) = todo ++ q.ready.map (·.item)
  blocked : ∀ c, ((Assoc.get? q.blocked c).getD []).map (·.item) =
    (d.waiting.filter fun s => s.constraint = c).map (·.item)

variable {todo : List WorkItem} {d : Docket} {q : RetryQueue}

theorem kept_start (threshold : Nat) : Kept [] {} { threshold } where
  ready := rfl
  blocked _ := rfl

theorem Kept.park (h : Kept todo d q) (item : WorkItem) (c : Constraint) (since now : Nat) :
    Kept todo { d with waiting := d.waiting ++ [⟨item, c, since⟩] } (q.park item c now) where
  ready := h.ready
  blocked c' := by
    have hold := h.blocked c'
    simp only [RetryQueue.park, Assoc.get?_put, List.filter_append, List.map_append, ← hold]
    by_cases hc : c = c'
    · subst hc
      simp
    · simp [hc]

theorem Kept.release (h : Kept todo d q) (r : Constraint × Nat) :
    Kept todo (d.release r) (q.release r.1) := by
  have hat := h.blocked r.1
  unfold RetryQueue.release
  cases hget : Assoc.get? q.blocked r.1 with
  | none =>
    rw [hget, Option.getD_none, List.map_nil] at hat
    have hempty := List.map_eq_nil_iff.mp hat.symm
    refine ⟨?_, fun c => ?_⟩
    · simp only [Docket.release, hempty, List.map_nil, List.append_nil]
      exact h.ready
    · rw [filter_waiting_release]
      by_cases hc : c = r.1
      · rw [if_pos hc, hc, hget]
        rfl
      · rw [if_neg hc]
        exact h.blocked c
  | some parked =>
    rw [hget, Option.getD_some] at hat
    refine ⟨?_, fun c => ?_⟩
    · have hmapped : ((d.waiting.filter fun s => s.constraint = r.1).map
          fun s => (s, r.2)).map (fun p => p.1.item) = parked.map (·.item) := by
        rw [hat, List.map_map]
        rfl
      simp only [Docket.release, List.map_append, hmapped, h.ready, List.append_assoc]
    · rw [filter_waiting_release, Assoc.get?_erase]
      by_cases hc : c = r.1
      · rw [if_pos hc, if_pos hc.symm]
        rfl
      · rw [if_neg hc, if_neg (Ne.symm hc)]
        exact h.blocked c

theorem Kept.releaseAll (h : Kept todo d q) (reports : List (Constraint × Nat)) :
    Kept todo (reports.foldl Docket.release d)
      ((reports.map (·.1)).foldl RetryQueue.release q) := by
  induction reports generalizing d q with
  | nil => exact h
  | cons r rest ih => exact ih (h.release r)

theorem Kept.reportStuck (h : Kept todo d q) (now : Nat) : Kept todo d (q.reportStuck now) where
  ready := h.ready
  blocked c := by
    have hget : Assoc.get? (q.reportStuck now).blocked c = (Assoc.get? q.blocked c).map
        (List.map fun p => { p with stuck := p.stuck || q.threshold ≤ now - p.since }) :=
      Assoc.get?_mapValues ..
    rw [hget, ← h.blocked c]
    cases Assoc.get? q.blocked c with
    | none => rfl
    | some parked => simp

/-- A sweep takes the first items that are released. -/
theorem Kept.takeReady (h : Kept [] d q) (now max : Nat) :
    Kept (q.takeReady (d.reports.map (·.1)) now max).1 (d.enter .swept)
      (q.takeReady (d.reports.map (·.1)) now max).2 := by
  have hall := (h.releaseAll d.reports).reportStuck now
  unfold RetryQueue.takeReady
  generalize ((d.reports.map (·.1)).foldl RetryQueue.release q).reportStuck now = q' at hall ⊢
  refine ⟨?_, hall.blocked⟩
  change (d.reports.foldl Docket.release d).ready.map (·.1.item) = _
  rw [hall.ready, List.nil_append, ← List.map_append, List.take_append_drop]

end Docket

/-! ## Workplaces where everything is recorded -/

variable {σ η : Type}

/-- A handler that may report constraints as resolved while it is called. -/
abbrev ReportingHandler (σ η : Type) :=
  WorkItem → Surroundings σ η → Verdict × List Constraint × Surroundings σ η

/-- The handler with its reports, which come after all that have come in before. -/
def ReportingHandler.plain (handle : ReportingHandler σ η) (item : WorkItem)
    (around : Surroundings σ η) : Verdict × Surroundings σ η :=
  match handle item around with
  | (verdict, reports, after) => (verdict, { after with resolved := around.resolved ++ reports })

/-- A bench, how many items its consumer has brought, and what has happened to items put off. -/
structure Recorded (σ η : Type) where
  bench : Bench σ η
  popped : Nat := 0
  log : WorkLog := []

namespace Recorded

variable [SharedStore σ] (handle : ReportingHandler σ η)

/-- The workplace at a bench. Every popped item gets a ticket, which the handler does not see, and
a log is kept. -/
def workplace : Workplace (Recorded σ η) where
  pop max w :=
    match (Bench.workplace handle.plain).pop max w.bench with
    | (.ok items, bench) =>
      (.ok (withTickets w.popped items), { w with bench, popped := w.popped + items.length })
    | (.error e, bench) => (.error e, { w with bench })
  rearm w := { w with bench := (Bench.workplace handle.plain).rearm w.bench }
  handle item w :=
    match handle item.bare w.bench.around with
    | (verdict, reports, after) =>
      (verdict,
       { w with
         bench := { w.bench with
           around := { after with resolved := w.bench.around.resolved ++ reports } }
         log := w.log ++ .handed item verdict :: reports.map .resolved })
  resolved w :=
    (w.bench.around.resolved,
     { w with
       bench := { w.bench with around := { w.bench.around with resolved := [] } }
       log := w.log ++ [.swept] })
  now w := w.bench.around.now

/-- Neither tickets nor the log change what happens. -/
theorem labels_workplace :
    (workplace handle).Labels bare Recorded.bench (Bench.workplace handle.plain) where
  pop max w := by
    unfold workplace
    dsimp only
    rcases (Bench.workplace handle.plain).pop max w.bench with ⟨result, bench⟩
    cases result with
    | error e => rfl
    | ok items => simp only [Except.map, map_bare_withTickets]
  rearm w := rfl
  handle item w := rfl
  resolved w := rfl
  now w := rfl

end Recorded

/-- What happens to an executor. -/
inductive LoopStep (σ η : Type) where
  | execute
  | sweep
  /-- Somebody reports a constraint as resolved. -/
  | resolve (c : Constraint)
  /-- Others use the store, the consumer takes in what has arrived, time passes. -/
  | meanwhile (f : Bench σ η → Bench σ η)

namespace Bench

/-- A constraint is reported as resolved. -/
def resolve (c : Constraint) (b : Bench σ η) : Bench σ η :=
  { b with around := { b.around with resolved := b.around.resolved ++ [c] } }

/-- Something happens that leaves the reports alone. -/
def elsewhere (f : Bench σ η → Bench σ η) (b : Bench σ η) : Bench σ η :=
  { f b with around := { (f b).around with resolved := b.around.resolved } }

end Bench

namespace LoopStep

def plain : LoopStep σ η → WorkAct (Bench σ η)
  | execute => .execute
  | sweep => .sweep
  | resolve c => .meanwhile (Bench.resolve c)
  | meanwhile f => .meanwhile (Bench.elsewhere f)

def recorded : LoopStep σ η → WorkAct (Recorded σ η)
  | execute => .execute
  | sweep => .sweep
  | resolve c => .meanwhile fun w =>
    { w with bench := w.bench.resolve c, log := w.log ++ [.resolved c] }
  | meanwhile f => .meanwhile fun w => { w with bench := w.bench.elsewhere f }

def isSweep : LoopStep σ η → Bool
  | sweep => true
  | _ => false

end LoopStep

/-! ## An executor keeps to its docket -/

namespace Executor

variable {e : Executor} {w : Recorded σ η} {todo : List WorkItem}

/-- The log is faithful, and the retry queue and the reports are those of the docket, while the
first items released are on their way to the handler. -/
structure Docketed (todo : List WorkItem) (e : Executor) (w : Recorded σ η) : Prop where
  faithful : Docket.Faithful w.log
  kept : Docket.Kept todo (Docket.ofLog w.log) e.retry
  reports : (Docket.ofLog w.log).reports.map (·.1) = w.bench.around.resolved
  tickets : ∀ item verdict, .handed item verdict ∈ w.log → item.ticket < w.popped

theorem Docketed.withExecutor (h : Docketed todo e w) {e' : Executor} (he : e'.retry = e.retry) :
    Docketed todo e' w := ⟨h.faithful, he ▸ h.kept, h.reports, h.tickets⟩

/-- A report is entered. -/
theorem Docketed.resolve (h : Docketed todo e w) (c : Constraint) (bench : Bench σ η)
    (hbench : bench.around.resolved = w.bench.around.resolved ++ [c]) :
    Docketed todo e { w with bench, log := w.log ++ [.resolved c] } where
  faithful := h.faithful.snoc (by simp)
  kept := by
    rw [Docket.ofLog_snoc]
    exact ⟨h.kept.ready, h.kept.blocked⟩
  reports := by
    rw [Docket.ofLog_snoc, hbench, ← h.reports]
    simp [Docket.enter]
  tickets item verdict hmem := by
    refine h.tickets item verdict ?_
    simpa using hmem

theorem Docketed.resolveAll (h : Docketed todo e w) (reports : List Constraint)
    (bench : Bench σ η) (hbench : bench.around.resolved = w.bench.around.resolved ++ reports) :
    Docketed todo e { w with bench, log := w.log ++ reports.map .resolved } := by
  induction reports generalizing w with
  | nil =>
    rw [List.append_nil] at hbench
    rw [List.map_nil, List.append_nil]
    exact ⟨h.faithful, h.kept, h.reports.trans hbench.symm, h.tickets⟩
  | cons c rest ih =>
    have hone := h.resolve c (w.bench.resolve c) rfl
    have hrest := ih hone (by
      rw [hbench]
      simp [Bench.resolve])
    simpa using hrest

/-- New items on their way to the handler: none of them has been handed over. -/
structure NewItems (todo : List WorkItem) (w : Recorded σ η) : Prop where
  nodup : todo.Nodup
  tickets : ∀ item ∈ todo, item.ticket < w.popped
  new : ∀ item ∈ todo, ∀ verdict, .handed item verdict ∉ w.log

theorem newItems_withTickets (hw : ∀ item verdict, .handed item verdict ∈ w.log →
    item.ticket < w.popped) (items : List WorkItem) (bench : Bench σ η) :
    NewItems (withTickets w.popped items)
      { w with bench, popped := w.popped + items.length } := by
  have htickets := map_ticket_withTickets w.popped items
  have hrange : ∀ item ∈ withTickets w.popped items,
      w.popped ≤ item.ticket ∧ item.ticket < w.popped + items.length := by
    intro item hitem
    have hmem := List.mem_map_of_mem (f := ticket) hitem
    rw [htickets, List.mem_range'_1] at hmem
    exact hmem
  refine ⟨?_, fun item hitem => (hrange item hitem).2, fun item hitem verdict hmem => ?_⟩
  · apply List.Nodup.of_map ticket
    rw [htickets]
    exact List.nodup_range'
  · have hold := hw item verdict hmem
    have hnew := (hrange item hitem).1
    omega

/-- A call of the handler is entered, if it is not out of turn. -/
theorem Docketed.called {item : WorkItem} {verdict : Verdict} (h : Docketed todo e w)
    (hadmits : (Docket.ofLog w.log).Admits w.log item) (hticket : item.ticket < w.popped)
    {rest : List WorkItem} {e' : Executor}
    (hkept : Docket.Kept rest ((Docket.ofLog w.log).enter (.handed item verdict)) e'.retry) :
    Docketed rest e' { w with log := w.log ++ [.handed item verdict] } := by
  refine ⟨h.faithful.snoc ?_, ?_, ?_, ?_⟩
  · intro item' verdict' he
    cases he
    exact hadmits
  · rw [Docket.ofLog_snoc]
    exact hkept
  · rw [Docket.ofLog_snoc]
    exact h.reports
  · intro item' verdict' hmem
    rcases List.mem_append.mp hmem with hmem | hmem
    · exact h.tickets item' verdict' hmem
    · cases List.mem_singleton.mp hmem
      exact hticket

variable [SharedStore σ] (handle : ReportingHandler σ η)

theorem Docketed.handleOne {item : WorkItem} (h : Docketed todo e w)
    (hadmits : (Docket.ofLog w.log).Admits w.log item) (hticket : item.ticket < w.popped)
    {rest : List WorkItem}
    (hrest : (Docket.leaving item (Docket.ofLog w.log).ready).map (·.1.item) =
      rest ++ e.retry.ready.map (·.item)) :
    Docketed rest (e.handleOne (Recorded.workplace handle) item w).1
      (e.handleOne (Recorded.workplace handle) item w).2 := by
  rcases hhandle : handle item.bare w.bench.around with ⟨verdict, reports, after⟩
  have hcalled : ∀ e' : Executor,
      Docket.Kept rest ((Docket.ofLog w.log).enter (.handed item verdict)) e'.retry →
      Docketed rest e'
        { w with
          bench := { w.bench with
            around := { after with resolved := w.bench.around.resolved ++ reports } }
          log := w.log ++ .handed item verdict :: reports.map .resolved } := by
    intro e' hkept
    have hall := (h.called hadmits hticket hkept).resolveAll reports { w.bench with
      around := { after with resolved := w.bench.around.resolved ++ reports } } rfl
    simpa using hall
  unfold Executor.handleOne
  simp only [Recorded.workplace, hhandle]
  cases verdict with
  | done =>
    refine hcalled _ ⟨hrest, fun c => ?_⟩
    rw [h.kept.blocked c]
    simp [Docket.enter, Docket.putOff]
  | retry c =>
    have hparked := Docket.Kept.park (d := { Docket.ofLog w.log with
      ready := Docket.leaving item (Docket.ofLog w.log).ready }) ⟨hrest, h.kept.blocked⟩ item c
      (Docket.ofLog w.log).clock after.now
    exact hcalled _ ⟨hparked.ready, hparked.blocked⟩

/-! ### Items on their way to the handler -/

/-- A call is logged together with the reports that come in meanwhile. It leaves the items that are
released where they are. -/
theorem handleOne_logs (item : WorkItem) (e : Executor) (w : Recorded σ η) :
    (∃ verdict, ∃ reports : List Constraint,
      (e.handleOne (Recorded.workplace handle) item w).2.log =
        w.log ++ .handed item verdict :: reports.map .resolved) ∧
      (e.handleOne (Recorded.workplace handle) item w).2.popped = w.popped ∧
      (e.handleOne (Recorded.workplace handle) item w).1.retry.ready = e.retry.ready ∧
      (e.handleOne (Recorded.workplace handle) item w).1.batchSize = e.batchSize := by
  unfold Executor.handleOne
  simp only [Recorded.workplace]
  rcases handle item.bare w.bench.around with ⟨verdict, reports, after⟩
  cases verdict with
  | done => exact ⟨⟨.done, reports, rfl⟩, rfl, rfl, rfl⟩
  | retry c => exact ⟨⟨.retry c, reports, rfl⟩, rfl, rfl, rfl⟩

/-- The first item on its way is the first one released. -/
theorem Docketed.again {item : WorkItem} {rest : List WorkItem}
    (h : Docketed (item :: rest) e w) :
    Docketed rest (e.handleOne (Recorded.workplace handle) item w).1
      (e.handleOne (Recorded.workplace handle) item w).2 := by
  have hready := h.kept.ready
  rw [List.cons_append] at hready
  obtain ⟨p, tail, hcons, hitem, htail⟩ := List.map_eq_cons_iff.mp hready
  have hheld := (h.faithful.sound.ready p (by simp [hcons])).1
  refine h.handleOne handle (.inr ⟨p, tail, hcons, hitem⟩) ?_ ?_
  · have hticket := h.tickets p.1.item _ (List.mem_of_getElem? hheld.1)
    rwa [hitem] at hticket
  · simp only [hcons, Docket.leaving, hitem, if_true]
    exact htail

theorem Docketed.first {item : WorkItem} {rest : List WorkItem} (h : Docketed [] e w)
    (hitems : NewItems (item :: rest) w) :
    Docketed [] (e.handleOne (Recorded.workplace handle) item w).1
        (e.handleOne (Recorded.workplace handle) item w).2 ∧
      NewItems rest (e.handleOne (Recorded.workplace handle) item w).2 := by
  obtain ⟨⟨verdict, reports, hlog⟩, hpopped, -, -⟩ :=
    handleOne_logs handle item e w
  have hnew := hitems.new item List.mem_cons_self
  obtain ⟨hother, -⟩ := h.faithful.sound.fresh hnew
  have hnodup := List.nodup_cons.mp hitems.nodup
  refine ⟨h.handleOne handle (.inl hnew) (hitems.tickets item List.mem_cons_self) ?_,
    hnodup.2, ?_, ?_⟩
  · rw [Docket.leaving_eq_self hother]
    exact h.kept.ready
  · intro y hy
    rw [hpopped]
    exact hitems.tickets y (List.mem_cons_of_mem _ hy)
  · intro y hy v hmem
    rw [hlog] at hmem
    rcases List.mem_append.mp hmem with hmem | hmem
    · exact hitems.new y (List.mem_cons_of_mem _ hy) v hmem
    · rcases List.mem_cons.mp hmem with heq | hmem
      · cases heq
        exact hnodup.1 hy
      · simp at hmem

/-- What every call keeps is kept until all items have been handed over. -/
theorem drainItems_keeping {ω : Type} (q : Workplace ω) (keep : List WorkItem → Executor → ω → Prop)
    (hstep : ∀ item rest e w, keep (item :: rest) e w →
      keep rest (e.handleOne q item w).1 (e.handleOne q item w).2)
    (hpending : ∀ todo e w pending, keep todo e w → keep todo { e with pending } w)
    (items : List WorkItem) (e : Executor) (w : ω) (h : keep items e w) :
    keep [] (drainItems q items e w).1 (drainItems q items e w).2 := by
  induction items generalizing e w with
  | nil => exact hpending _ _ _ _ h
  | cons item rest ih => exact ih _ _ (hpending _ _ _ _ (hstep item rest e w h))

/-- While items are handed over, all that is released stays where it is, and each of the items is
logged. -/
theorem drainItems_logs (items : List WorkItem) (e : Executor) (w : Recorded σ η) :
    (drainItems (Recorded.workplace handle) items e w).1.retry.ready = e.retry.ready ∧
      (drainItems (Recorded.workplace handle) items e w).1.batchSize = e.batchSize ∧
      (drainItems (Recorded.workplace handle) items e w).1.pending = [] ∧
      w.log <+: (drainItems (Recorded.workplace handle) items e w).2.log ∧
      ∀ item ∈ items, ∃ k verdict, w.log.length ≤ k ∧
        (drainItems (Recorded.workplace handle) items e w).2.log[k]? =
          some (.handed item verdict) := by
  induction items generalizing e w with
  | nil => exact ⟨rfl, rfl, rfl, List.prefix_refl _, by simp⟩
  | cons item rest ih =>
    obtain ⟨⟨verdict, reports, hlog⟩, -, hready, hsize⟩ :=
      handleOne_logs handle item e w
    rw [drainItems]
    obtain ⟨hready', hsize', hpending, hprefix, hall⟩ :=
      ih { (e.handleOne (Recorded.workplace handle) item w).1 with pending := rest }
        (e.handleOne (Recorded.workplace handle) item w).2
    have hgrows : w.log <+: (e.handleOne (Recorded.workplace handle) item w).2.log := by
      rw [hlog]
      exact List.prefix_append ..
    refine ⟨hready'.trans hready, hsize'.trans hsize, hpending, hgrows.trans hprefix, ?_⟩
    intro x hx
    rcases List.mem_cons.mp hx with rfl | hx
    · refine ⟨w.log.length, verdict, Nat.le_refl _, ?_⟩
      refine WorkLog.getElem?_of_prefix hprefix ?_
      rw [hlog]
      simp
    · obtain ⟨k, v, hk, hat⟩ := hall x hx
      exact ⟨k, v, Nat.le_trans hgrows.length_le hk, hat⟩

/-! ### Operations -/

/-- Between operations nothing is on its way to the handler. -/
structure Steady (e : Executor) (w : Recorded σ η) : Prop where
  pending : e.pending = []
  docketed : Docketed [] e w

/-- What a sweep begins with: the reports are taken, and the first items released are on their
way. -/
theorem sweep_eq (h : e.pending = []) :
    ∃ stats, e.sweep (Recorded.workplace handle) w =
      let taken := e.retry.takeReady w.bench.around.resolved w.bench.around.now e.batchSize
      drainItems (Recorded.workplace handle) taken.1
        { e with retry := taken.2, pending := taken.1, stats }
        { w with
          bench := { w.bench with around := { w.bench.around with resolved := [] } }
          log := w.log ++ [.swept] } := by
  unfold Executor.sweep
  simp only [drain, h, List.nil_append]
  exact ⟨_, rfl⟩

theorem Steady.sweep (h : Steady e w) :
    Steady (e.sweep (Recorded.workplace handle) w).1
      (e.sweep (Recorded.workplace handle) w).2 := by
  have hd := h.docketed
  have htaken := hd.kept.takeReady w.bench.around.now e.batchSize
  rw [hd.reports] at htaken
  obtain ⟨stats, hsweep⟩ := sweep_eq (w := w) handle h.pending
  rw [hsweep]
  generalize e.retry.takeReady w.bench.around.resolved w.bench.around.now e.batchSize = taken at *
  dsimp only
  refine ⟨(drainItems_logs handle taken.1 _ _).2.2.1, ?_⟩
  refine drainItems_keeping (Recorded.workplace handle) Docketed
    (fun _ _ _ _ hagain => hagain.again handle) (fun _ _ _ _ hkeep => hkeep.withExecutor rfl)
    taken.1 _ _
    ⟨hd.faithful.snoc (by simp), ?_, ?_, ?_⟩
  · rw [Docket.ofLog_snoc]
    exact htaken
  · rw [Docket.ofLog_snoc]
    rfl
  · intro item verdict hmem
    refine hd.tickets item verdict ?_
    simpa using hmem

/-- What an execution hands over is new. -/
theorem Steady.execute (h : Steady e w) :
    Steady (e.execute (Recorded.workplace handle) w).2.1
        (e.execute (Recorded.workplace handle) w).2.2 ∧
      (e.execute (Recorded.workplace handle) w).2.1.retry.ready = e.retry.ready ∧
      (e.execute (Recorded.workplace handle) w).2.1.batchSize = e.batchSize ∧
      w.log <+: (e.execute (Recorded.workplace handle) w).2.2.log := by
  have hd := h.docketed
  have hresolved : ((Bench.workplace handle.plain).pop e.batchSize w.bench).2.around.resolved =
      w.bench.around.resolved := rfl
  unfold Executor.execute
  simp only [Recorded.workplace]
  rcases hpop : (Bench.workplace handle.plain).pop e.batchSize w.bench with ⟨found, bench⟩
  rw [hpop] at hresolved
  cases found with
  | error err =>
    refine ⟨⟨h.pending, ?_⟩, rfl, rfl, List.prefix_refl _⟩
    exact ⟨hd.faithful, hd.kept, hd.reports.trans hresolved.symm, hd.tickets⟩
  | ok items =>
    simp only [drain, h.pending, List.nil_append]
    have hnew := newItems_withTickets hd.tickets items bench
    have hbegun : Docketed []
        { e with
          pending := withTickets w.popped items
          stats := { e.stats with
            executions := e.stats.executions + 1
            popped := e.stats.popped + (withTickets w.popped items).length } }
        { w with bench, popped := w.popped + items.length } := by
      refine ⟨hd.faithful, hd.kept, hd.reports.trans hresolved.symm, fun item verdict hmem => ?_⟩
      exact Nat.lt_of_lt_of_le (hd.tickets item verdict hmem) (Nat.le_add_right ..)
    obtain ⟨hready, hsize, hpending, hprefix, -⟩ :=
      drainItems_logs handle (withTickets w.popped items) _ _
    have hdone := drainItems_keeping (Recorded.workplace handle)
      (fun items e w => Docketed [] e w ∧ NewItems items w)
      (fun _ _ _ _ hkeep => hkeep.1.first handle hkeep.2)
      (fun _ _ _ _ hkeep => ⟨hkeep.1.withExecutor rfl, hkeep.2⟩) (withTickets w.popped items) _ _
      ⟨hbegun, hnew⟩
    exact ⟨⟨hpending, hdone.1⟩, hready, hsize, hprefix⟩

end Executor

end ControlBus
