-- An executor never looks into an item. Where every item carries a label that only the executor
-- sees, it does what it does without labels, so labels may be used to tell equal items apart.
import ControlBus.Work.Executor

namespace ControlBus

/-! ## Values under keys -/

namespace Assoc

variable {κ α β : Type} [DecidableEq κ]

/-- Change every value, each under its key. -/
def mapValues (f : α → β) (m : Assoc κ α) : Assoc κ β := m.map fun e => (e.1, f e.2)

variable (f : α → β) (m : Assoc κ α) (k : κ)

theorem get?_mapValues : get? (mapValues f m) k = (get? m k).map f := by
  induction m with
  | nil => rfl
  | cons e rest ih =>
    obtain ⟨k', a⟩ := e
    change (if k' = k then some (f a) else get? (mapValues f rest) k) = _
    rw [ih, get?]
    split <;> rfl

theorem put_mapValues (a : α) : put (mapValues f m) k (f a) = mapValues f (put m k a) := by
  induction m with
  | nil => rfl
  | cons e rest ih =>
    obtain ⟨k', b⟩ := e
    change (if k' = k then (k', f a) :: mapValues f rest
      else (k', f b) :: put (mapValues f rest) k (f a)) = _
    rw [ih, put]
    split <;> rfl

theorem erase_mapValues : erase (mapValues f m) k = mapValues f (erase m k) := by
  simp only [erase, mapValues, List.filter_map, Function.comp_def]

end Assoc

/-! ## The retry queue -/

def Parked.relabel (f : WorkItem → WorkItem) (p : Parked) : Parked := { p with item := f p.item }

namespace RetryQueue

/-- The same queue with other labels on its items. -/
def relabel (f : WorkItem → WorkItem) (q : RetryQueue) : RetryQueue :=
  { q with
    blocked := Assoc.mapValues (List.map (Parked.relabel f)) q.blocked
    ready := q.ready.map (Parked.relabel f) }

variable (f : WorkItem → WorkItem) (q : RetryQueue)

theorem park_relabel (item : WorkItem) (c : Constraint) (now : Nat) :
    (q.relabel f).park (f item) c now = (q.park item c now).relabel f := by
  have hlist : (Assoc.get? (q.relabel f).blocked c).getD [] ++
        [({ item := f item, since := now } : Parked)] =
      ((Assoc.get? q.blocked c).getD [] ++ [({ item, since := now } : Parked)]).map
        (Parked.relabel f) := by
    rw [relabel, Assoc.get?_mapValues, List.map_append]
    cases Assoc.get? q.blocked c <;> rfl
  rw [park, hlist, relabel, Assoc.put_mapValues]
  rfl

theorem release_relabel (c : Constraint) :
    (q.relabel f).release c = (q.release c).relabel f := by
  have hget : Assoc.get? (q.relabel f).blocked c =
      (Assoc.get? q.blocked c).map (List.map (Parked.relabel f)) := Assoc.get?_mapValues ..
  unfold release
  rw [hget]
  cases Assoc.get? q.blocked c with
  | none => rfl
  | some parked => simp only [Option.map_some, relabel, Assoc.erase_mapValues, List.map_append]

theorem releaseAll_relabel (resolved : List Constraint) :
    resolved.foldl release (q.relabel f) = (resolved.foldl release q).relabel f := by
  induction resolved generalizing q with
  | nil => rfl
  | cons c rest ih => rw [List.foldl_cons, release_relabel, ih, List.foldl_cons]

theorem reportStuck_relabel (now : Nat) :
    (q.relabel f).reportStuck now = (q.reportStuck now).relabel f := by
  simp only [reportStuck, relabel, Assoc.mapValues, List.map_map, Function.comp_def,
    Parked.relabel]
  rfl

theorem takeReady_relabel (resolved : List Constraint) (now max : Nat) :
    (q.relabel f).takeReady resolved now max =
      ((q.takeReady resolved now max).1.map f, (q.takeReady resolved now max).2.relabel f) := by
  unfold takeReady
  rw [releaseAll_relabel, reportStuck_relabel]
  generalize (resolved.foldl release q).reportStuck now = r
  simp only [relabel, List.map_take, List.map_drop, List.map_map, Function.comp_def, Parked.relabel]

end RetryQueue

/-! ## The executor -/

def Broadcast.relabel {α : Type} (f : α → α) (b : Broadcast α) : Broadcast α :=
  { b with recent := b.recent.map f }

theorem Broadcast.send_relabel {α : Type} (f : α → α) (b : Broadcast α) (a : α) :
    (b.relabel f).send (f a) = (b.send a).relabel f := by
  simp only [send, relabel, ← List.map_cons, List.map_take]

/-- The same executor with other labels on all its items. -/
def Executor.relabel (f : WorkItem → WorkItem) (e : Executor) : Executor :=
  { e with
    pending := e.pending.map f
    retry := e.retry.relabel f
    completed := e.completed.relabel f }

variable {ω ω' : Type}

/-- A workplace `q` where items carry labels, over the workplace `p` where they carry none. What
pops bring at `p` is what they bring at `q` without the labels, and the handler of `q` does with
a labelled item what the handler of `p` does with the bare one. -/
structure Workplace.Labels (bare : WorkItem → WorkItem) (inner : ω' → ω) (q : Workplace ω')
    (p : Workplace ω) : Prop where
  pop : ∀ max w, p.pop max (inner w) =
    ((q.pop max w).1.map (List.map bare), inner (q.pop max w).2)
  rearm : ∀ w, p.rearm (inner w) = inner (q.rearm w)
  handle : ∀ item w, p.handle (bare item) (inner w) =
    ((q.handle item w).1, inner (q.handle item w).2)
  resolved : ∀ w, p.resolved (inner w) = ((q.resolved w).1, inner (q.resolved w).2)
  now : ∀ w, p.now (inner w) = q.now w

namespace Workplace.Labels

variable {bare : WorkItem → WorkItem} {inner : ω' → ω} {q : Workplace ω'} {p : Workplace ω}

theorem handleOne (h : q.Labels bare inner p) (item : WorkItem) (e : Executor) (w : ω') :
    (e.relabel bare).handleOne p (bare item) (inner w) =
      ((e.handleOne q item w).1.relabel bare, inner (e.handleOne q item w).2) := by
  simp only [Executor.handleOne, h.handle]
  rcases q.handle item w with ⟨verdict, w'⟩
  cases verdict with
  | done => simp only [Executor.relabel, Broadcast.send_relabel]
  | retry c => simp only [Executor.relabel, h.now, RetryQueue.park_relabel]

theorem drainItems (h : q.Labels bare inner p) (items : List WorkItem) (e : Executor) (w : ω') :
    Executor.drainItems p (items.map bare) (e.relabel bare) (inner w) =
      ((Executor.drainItems q items e w).1.relabel bare,
        inner (Executor.drainItems q items e w).2) := by
  induction items generalizing e w with
  | nil => rfl
  | cons item rest ih =>
    simp only [List.map_cons, Executor.drainItems, h.handleOne]
    exact ih { (e.handleOne q item w).1 with pending := rest } (e.handleOne q item w).2

theorem execute (h : q.Labels bare inner p) (e : Executor) (w : ω') :
    (e.relabel bare).execute p (inner w) =
      ((e.execute q w).1, (e.execute q w).2.1.relabel bare, inner (e.execute q w).2.2) := by
  have hpop : p.pop (e.relabel bare).batchSize (inner w) =
      ((q.pop e.batchSize w).1.map (List.map bare), inner (q.pop e.batchSize w).2) := h.pop ..
  simp only [Executor.execute, hpop]
  rcases q.pop e.batchSize w with ⟨result, w'⟩
  cases result with
  | error err => simp only [Except.map, h.rearm, Executor.relabel]
  | ok items =>
    have hdrain := h.drainItems (e.pending ++ items)
      { e with
        pending := e.pending ++ items
        stats := { e.stats with
          executions := e.stats.executions + 1
          popped := e.stats.popped + items.length } } w'
    simp only [Executor.relabel, List.map_append] at hdrain
    simp only [Except.map, Executor.drain, Executor.relabel, List.length_map, hdrain]

theorem sweep (h : q.Labels bare inner p) (e : Executor) (w : ω') :
    (e.relabel bare).sweep p (inner w) =
      ((e.sweep q w).1.relabel bare, inner (e.sweep q w).2) := by
  unfold Executor.sweep
  rw [h.resolved]
  rcases hresolved : q.resolved w with ⟨resolved, w'⟩
  dsimp only
  have htake :
      (e.relabel bare).retry.takeReady resolved (p.now (inner w')) (e.relabel bare).batchSize =
        ((e.retry.takeReady resolved (q.now w') e.batchSize).1.map bare,
          (e.retry.takeReady resolved (q.now w') e.batchSize).2.relabel bare) := by
    rw [h.now]
    exact e.retry.takeReady_relabel bare ..
  rw [htake]
  rcases e.retry.takeReady resolved (q.now w') e.batchSize with ⟨items, retry⟩
  have hdrain := h.drainItems (e.pending ++ items)
    { e with
      retry
      pending := e.pending ++ items
      stats := { e.stats with
        sweeps := e.stats.sweeps + 1
        resurfaced := e.stats.resurfaced + items.length } } w'
  simp only [Executor.relabel, List.map_append] at hdrain
  simp only [Executor.drain, Executor.relabel, List.length_map, hdrain]

end Workplace.Labels

end ControlBus
