-- The books of an executor. Items come from the channel and go to the handler, which completes
-- them or puts them off; those put off come back once their constraint is resolved. However this
-- goes, no item is lost or doubled, the counters tell the truth, and no step takes more than a
-- batch.
import ControlBus.Proofs.RetryQueueLaws
import ControlBus.Work.Executor

namespace ControlBus

/-! ## Notes of what an executor does -/

/-- The items that pops have brought, and the items handed to the handler, each with what the
handler answered, oldest first. -/
structure Notes where
  popped : List WorkItem := []
  handled : List (WorkItem × Verdict) := []

namespace Notes

/-- The items that the handler has done. -/
def completed (n : Notes) : List WorkItem :=
  n.handled.filterMap fun h => if h.2 = .done then some h.1 else none

def pop (items : List WorkItem) (n : Notes) : Notes := { n with popped := n.popped ++ items }

def handle (item : WorkItem) (verdict : Verdict) (n : Notes) : Notes :=
  { n with handled := n.handled ++ [(item, verdict)] }

theorem completed_handle_done (item : WorkItem) (n : Notes) :
    (n.handle item .done).completed = n.completed ++ [item] := by
  simp [handle, completed]

theorem completed_handle_retry (item : WorkItem) (c : Constraint) (n : Notes) :
    (n.handle item (.retry c)).completed = n.completed := by
  simp [handle, completed]

end Notes

variable {ω : Type}

/-- A workplace at which everything is noted. -/
def Workplace.noted (p : Workplace ω) : Workplace (ω × Notes) where
  pop max w :=
    match p.pop max w.1 with
    | (.ok items, inner) => (.ok items, inner, w.2.pop items)
    | (.error e, inner) => (.error e, inner, w.2)
  rearm w := (p.rearm w.1, w.2)
  handle item w :=
    ((p.handle item w.1).1, (p.handle item w.1).2, w.2.handle item (p.handle item w.1).1)
  resolved w := ((p.resolved w.1).1, (p.resolved w.1).2, w.2)
  now w := p.now w.1

namespace Executor

variable (p : Workplace ω)

/-! ## Taking notes changes nothing -/

theorem handleOne_noted (item : WorkItem) (e : Executor) (w : ω) (n : Notes) :
    e.handleOne p.noted item (w, n) =
      ((e.handleOne p item w).1, (e.handleOne p item w).2, n.handle item (p.handle item w).1) := by
  simp only [handleOne, Workplace.noted]
  rcases p.handle item w with ⟨verdict, w'⟩
  cases verdict <;> rfl

theorem drainItems_noted (items : List WorkItem) (e : Executor) (w : ω) (n : Notes) :
    ∃ n', drainItems p.noted items e (w, n) =
      ((drainItems p items e w).1, (drainItems p items e w).2, n') := by
  induction items generalizing e w n with
  | nil => exact ⟨n, rfl⟩
  | cons item rest ih =>
    simp only [drainItems, handleOne_noted]
    exact ih _ _ _

theorem execute_noted (e : Executor) (w : ω) (n : Notes) :
    ∃ n', e.execute p.noted (w, n) =
      ((e.execute p w).1, (e.execute p w).2.1, (e.execute p w).2.2, n') := by
  simp only [execute, Workplace.noted]
  rcases p.pop e.batchSize w with ⟨found, w'⟩
  cases found with
  | error err => exact ⟨n, rfl⟩
  | ok items =>
    obtain ⟨n', h⟩ := drainItems_noted p (e.pending ++ items)
      { e with
        pending := e.pending ++ items
        stats := { e.stats with
          executions := e.stats.executions + 1
          popped := e.stats.popped + items.length } }
      w' (n.pop items)
    exact ⟨n', congrArg (Prod.mk (Except.ok ())) h⟩

theorem sweep_noted (e : Executor) (w : ω) (n : Notes) :
    ∃ n', e.sweep p.noted (w, n) = ((e.sweep p w).1, (e.sweep p w).2, n') :=
  drainItems_noted p ..

/-! ## The books -/

/-- The books balance while these items are on their way to the handler. -/
structure Balanced (todo : List WorkItem) (e : Executor) (n : Notes) : Prop where
  sorted : e.retry.Sorted
  items : n.popped.Perm (todo ++ (n.completed ++ e.retry.items))
  popped : e.stats.popped = n.popped.length
  handled : e.stats.handled = n.completed.length
  parked : e.stats.retried = e.stats.resurfaced + e.retry.size

variable {p} {todo : List WorkItem} {e : Executor} {n : Notes}

/-- Everything that came from the channel is on its way, done, or put off. -/
theorem Balanced.counters (h : Balanced todo e n) :
    e.stats.popped = todo.length + e.stats.handled + e.retry.size := by
  have hlength := h.items.length_eq
  simp only [List.length_append, RetryQueue.length_items] at hlength
  rw [h.popped, h.handled]
  omega

theorem Balanced.handleOne {item : WorkItem} (h : Balanced (item :: todo) e n) (w : ω) :
    Balanced todo (e.handleOne p.noted item (w, n)).1 (e.handleOne p.noted item (w, n)).2.2 := by
  simp only [Executor.handleOne, Workplace.noted]
  rcases p.handle item w with ⟨verdict, w'⟩
  cases verdict with
  | done =>
    refine ⟨h.sorted, ?_, h.popped, ?_, h.parked⟩
    · rw [Notes.completed_handle_done, List.append_assoc, List.singleton_append]
      refine h.items.trans ?_
      rw [List.cons_append]
      exact (List.perm_middle.symm).trans (List.perm_middle.symm.append_left todo)
    · rw [Notes.completed_handle_done, List.length_append, ← h.handled]
      rfl
  | retry c =>
    have hpark := e.retry.perm_park item c (p.now w')
    refine ⟨h.sorted.park item c _, ?_, h.popped, ?_, ?_⟩
    · rw [Notes.completed_handle_retry]
      refine h.items.trans ?_
      rw [List.cons_append]
      refine List.perm_middle.symm.trans ((?_ : List.Perm _ _).append_left todo)
      exact List.perm_middle.symm.trans (hpark.symm.append_left n.completed)
    · rw [Notes.completed_handle_retry]
      exact h.handled
    · have hsize := hpark.length_eq
      rw [List.length_cons, RetryQueue.length_items, RetryQueue.length_items] at hsize
      have hparked := h.parked
      dsimp only
      omega

/-- Between operations nothing is on its way to the handler. -/
structure Settled (e : Executor) (n : Notes) : Prop where
  pending : e.pending = []
  balanced : Balanced [] e n

/-- The executor has settled again with the same batch size, after this many calls of the
handler. -/
structure Settles (calls : Nat) (e : Executor) (n : Notes) (e' : Executor) (n' : Notes) : Prop where
  settled : Settled e' n'
  batch : e'.batchSize = e.batchSize
  calls : n'.handled.length = n.handled.length + calls

theorem handleOne_frame (item : WorkItem) (e : Executor) (w : ω) :
    (e.handleOne p item w).1.batchSize = e.batchSize := by
  unfold handleOne
  split <;> rfl

/-- Handing over items settles the books, with one call of the handler for each of them. -/
theorem drainItems_settles (items : List WorkItem) {e : Executor} {n : Notes}
    (h : Balanced items e n) (w : ω) :
    Settles items.length e n (drainItems p.noted items e (w, n)).1
      (drainItems p.noted items e (w, n)).2.2 := by
  induction items generalizing e n w with
  | nil => exact ⟨⟨rfl, h.sorted, h.items, h.popped, h.handled, h.parked⟩, rfl, rfl⟩
  | cons item rest ih =>
    have hone := h.handleOne (p := p) w
    have hbatch := handleOne_frame (p := p.noted) item e (w, n)
    rw [drainItems]
    rw [handleOne_noted] at hone hbatch ⊢
    obtain ⟨hsettled, hbatch', hcalls⟩ := ih
      (e := { (e.handleOne p item w).1 with pending := rest })
      ⟨hone.sorted, hone.items, hone.popped, hone.handled, hone.parked⟩ (e.handleOne p item w).2
    refine ⟨hsettled, hbatch'.trans hbatch, hcalls.trans ?_⟩
    simp only [Notes.handle, List.length_append, List.length_cons, List.length_nil]
    omega

/-- An execution hands over what its pop brought; one whose pop fails hands over nothing. -/
theorem execute_settles (h : Settled e n) (w : ω) :
    Settles ((p.pop e.batchSize w).1.toOption.getD []).length e n
      (e.execute p.noted (w, n)).2.1 (e.execute p.noted (w, n)).2.2.2 := by
  have hb := h.balanced
  simp only [execute, Workplace.noted]
  rcases p.pop e.batchSize w with ⟨found, w'⟩
  cases found with
  | error err =>
    exact ⟨⟨h.pending, hb.sorted, hb.items, hb.popped, hb.handled, hb.parked⟩, rfl, rfl⟩
  | ok items =>
    have hpopped : Balanced items
        { e with
          pending := e.pending ++ items
          stats := { e.stats with
            executions := e.stats.executions + 1
            popped := e.stats.popped + items.length } }
        (n.pop items) := by
      refine ⟨hb.sorted, ?_, ?_, hb.handled, hb.parked⟩
      · exact (hb.items.append_right items).trans List.perm_append_comm
      · simp [Notes.pop, hb.popped]
    obtain ⟨hsettled, hbatch, hcalls⟩ := drainItems_settles (p := p) items hpopped w'
    simp only [h.pending, List.nil_append] at hsettled hbatch hcalls
    simp only [drain, h.pending, List.nil_append]
    exact ⟨hsettled, hbatch, hcalls⟩

/-- A sweep hands over at most a batch of what was put off. -/
theorem sweep_settles (h : Settled e n) (w : ω) :
    ∃ calls ≤ e.batchSize, Settles calls e n (e.sweep p.noted (w, n)).1
      (e.sweep p.noted (w, n)).2.2 := by
  have hb := h.balanced
  simp only [sweep, Workplace.noted]
  rcases p.resolved w with ⟨resolved, w'⟩
  dsimp only
  have hperm := RetryQueue.perm_takeReady hb.sorted resolved (p.now w') e.batchSize
  have hlength := e.retry.length_takeReady resolved (p.now w') e.batchSize
  have hsorted := hb.sorted.takeReady resolved (p.now w') e.batchSize
  rcases htake : e.retry.takeReady resolved (p.now w') e.batchSize with ⟨items, retry⟩
  rw [htake] at hperm hlength hsorted
  have htaken : Balanced items
      { e with
        retry
        pending := e.pending ++ items
        stats := { e.stats with
          sweeps := e.stats.sweeps + 1
          resurfaced := e.stats.resurfaced + items.length } } n := by
    refine ⟨hsorted, ?_, hb.popped, hb.handled, ?_⟩
    · exact hb.items.trans ((hperm.symm.append_left n.completed).trans
        (List.perm_append_comm_assoc ..))
    · have hsize := hperm.length_eq
      rw [List.length_append, RetryQueue.length_items, RetryQueue.length_items] at hsize
      have hparked := hb.parked
      dsimp only at hsize ⊢
      omega
  obtain ⟨hsettled, hbatch, hcalls⟩ := drainItems_settles (p := p) items htaken w'
  refine ⟨items.length, hlength, ?_⟩
  simp only [h.pending, List.nil_append] at hsettled hbatch hcalls
  simp only [drain, h.pending, List.nil_append]
  exact ⟨hsettled, hbatch, hcalls⟩

end Executor

end ControlBus
