-- A scheduler that keeps no working set: whenever it decides, it polls every open source and
-- takes the best of those with data. The multiplexer decides the same where the poll of one source
-- leaves it to the others whether they have data.
import ControlBus.Proofs.WorkingSet

namespace ControlBus

/-! ## The plain scheduler -/

/-- All that the plain scheduler knows of a source. -/
structure PlainSource (ι : Type) where
  source : ι
  priority : Int
  /-- The time of the last dispatch; zero for never. -/
  stamp : Nat := 0
  closed : Bool := false

/-- A scheduler that remembers no source as ready. -/
structure PlainScheduler (ι : Type) where
  sources : List (PlainSource ι) := []
  clock : Nat := 0

namespace PlainSource

variable {ι σ : Type}

/-- Whether a source may be dispatched now. -/
def eligible (ops : SourceOps ι σ) (w : σ) (r : PlainSource ι) : Bool :=
  !r.closed && ops.hasData r.source w

/-- Whether a source goes first even if it was registered later. -/
def outranks (a b : PlainSource ι) : Bool :=
  b.priority < a.priority || (a.priority = b.priority && a.stamp < b.stamp)

end PlainSource

namespace PlainScheduler

variable {ι σ : Type}

/-- Poll the open sources in order, their numbers counted from `id`. The first that fails is
closed and ends the pass. -/
def passOver (ops : SourceOps ι σ) :
    Nat → List (PlainSource ι) → σ → List (PlainSource ι) × Option (Nat × BusError) × σ
  | _, [], w => ([], none, w)
  | id, r :: rest, w =>
    if r.closed then
      let (rest, failure, w) := passOver ops (id + 1) rest w
      (r :: rest, failure, w)
    else
      match ops.poll r.source w with
      | (.failed e, w) => ({ r with closed := true } :: rest, some (id, e), w)
      | (_, w) =>
        let (rest, failure, w) := passOver ops (id + 1) rest w
        (r :: rest, failure, w)

/-- The best source that may be dispatched, with its number: the highest priority, then the
oldest dispatch, then the earliest registration. -/
def best (ops : SourceOps ι σ) (w : σ) : Nat → List (PlainSource ι) → Option (Nat × PlainSource ι)
  | _, [] => none
  | id, r :: rest =>
    if r.eligible ops w then
      match best ops w (id + 1) rest with
      | some (j, s) => if s.outranks r then some (j, s) else some (id, r)
      | none => some (id, r)
    else best ops w (id + 1) rest

/-- Dispatch the best source, if there is one. -/
def dispatch (ops : SourceOps ι σ) (p : PlainScheduler ι) (w : σ) :
    Option Nat × PlainScheduler ι × σ :=
  match best ops w 0 p.sources with
  | none => (none, p, w)
  | some (id, r) =>
    (some id, { sources := p.sources.set id { r with stamp := p.clock + 1 }, clock := p.clock + 1 },
     ops.afterRead r.source w)

/-- One pass, and the dispatch that it leads to. -/
def turn (ops : SourceOps ι σ) (p : PlainScheduler ι) (w : σ) :
    Option Selection × PlainScheduler ι × σ :=
  match passOver ops 0 p.sources w with
  | (sources, some (id, e), w) => (some (.failed id e), { p with sources }, w)
  | (sources, none, w) =>
    let (chosen, p, w) := dispatch ops { p with sources } w
    (chosen.map .ready, p, w)

/-- Take turns, now and after each of the coming events, until one has an outcome. -/
def await (ops : SourceOps ι σ) :
    List (σ → σ) → PlainScheduler ι → σ → Option Selection × PlainScheduler ι × σ
  | events, p, w =>
    match turn ops p w, events with
    | (some outcome, p, w), _ => (some outcome, p, w)
    | (none, p, w), event :: rest => await ops rest p (event w)
    | (none, p, w), [] => (none, p, w)

/-- Take one turn, and if nothing comes of it wait for the events to the end of the wait. -/
def attempt (ops : SourceOps ι σ) (events : PlainScheduler ι → σ → List (σ → σ))
    (p : PlainScheduler ι) (w : σ) : Option Selection × PlainScheduler ι × σ :=
  match turn ops p w with
  | (some outcome, p, w) => (some outcome, p, w)
  | (none, p, w) => await ops (events p w) p w

def select (ops : SourceOps ι σ) (events : PlainScheduler ι → σ → List (σ → σ))
    (p : PlainScheduler ι) (w : σ) : Selection × PlainScheduler ι × σ :=
  match attempt ops events p w with
  | (some outcome, p, w) => (outcome, p, w)
  | (none, p, w) => (.timeout, p, w)

variable {ops : SourceOps ι σ} {w : σ}

theorem passOver_read (id : Nat) {r : PlainSource ι} (hc : r.closed = false)
    (rest : List (PlainSource ι)) {w' : σ} {reading : Reading}
    (hp : ops.poll r.source w = (reading, w')) (hread : ∀ e, reading ≠ .failed e) :
    passOver ops id (r :: rest) w =
      (r :: (passOver ops (id + 1) rest w').1, (passOver ops (id + 1) rest w').2) := by
  cases reading with
  | failed e => exact absurd rfl (hread e)
  | pending => simp [passOver, hc, hp]
  | units n => simp [passOver, hc, hp]

/-! ## Turns, one after another -/

/-- With no events to come, a wait is one turn. -/
theorem await_nil (ops : SourceOps ι σ) (p : PlainScheduler ι) (w : σ) :
    await ops [] p w = p.turn ops w := by
  rw [await.eq_def]
  dsimp only
  rcases p.turn ops w with ⟨outcome, p', w'⟩
  cases outcome <;> rfl

theorem await_some {event : σ → σ} {rest : List (σ → σ)} {p p' : PlainScheduler ι} {w' : σ}
    {outcome : Selection} (h : p.turn ops w = (some outcome, p', w')) :
    await ops (event :: rest) p w = (some outcome, p', w') := by
  rw [await.eq_def]
  simp [h]

theorem await_none {event : σ → σ} {rest : List (σ → σ)} {p p' : PlainScheduler ι} {w' : σ}
    (h : p.turn ops w = (none, p', w')) :
    await ops (event :: rest) p w = await ops rest p' (event w') := by
  rw [await.eq_def]
  simp [h]

theorem select_some {events : PlainScheduler ι → σ → List (σ → σ)} {p p' : PlainScheduler ι}
    {w' : σ} {outcome : Selection} (h : p.turn ops w = (some outcome, p', w')) :
    p.select ops events w = (outcome, p', w') := by
  simp [select, attempt, h]

/-- A selection whose first turn comes to nothing is decided by the wait. -/
theorem select_none {events : PlainScheduler ι → σ → List (σ → σ)} {p p' : PlainScheduler ι}
    {w' : σ} (h : p.turn ops w = (none, p', w')) :
    p.select ops events w =
      ((await ops (events p' w') p' w').1.getD .timeout,
        (await ops (events p' w') p' w').2) := by
  simp only [select, attempt, h]
  rcases await ops (events p' w') p' w' with ⟨outcome, p₂, w₂⟩
  cases outcome <;> rfl

/-! ## The best source -/

def key (r : PlainSource ι) (id : Nat) : ReadyKey := ⟨r.priority, r.stamp, id⟩

/-- Of two sources the one registered later goes first just if it outranks the other. -/
theorem before_iff_outranks {r s : PlainSource ι} {i j : Nat} (hij : i < j) :
    (key s j).before (key r i) = true ↔ s.outranks r = true := by
  rw [ReadyKey.before_iff]
  simp only [PlainSource.outranks, key, Bool.or_eq_true, Bool.and_eq_true, decide_eq_true_eq]
  omega

theorem before_iff_not_outranks {r s : PlainSource ι} {i j : Nat} (hij : i < j) :
    (key r i).before (key s j) = true ↔ s.outranks r = false := by
  rw [ReadyKey.before_iff]
  simp only [PlainSource.outranks, key, Bool.or_eq_false_iff, Bool.and_eq_false_iff,
    decide_eq_false_iff_not]
  omega

theorem best_eq_none {sources : List (PlainSource ι)} (id : Nat)
    (h : ∀ r ∈ sources, r.eligible ops w = false) : best ops w id sources = none := by
  induction sources generalizing id with
  | nil => rfl
  | cons r rest ih =>
    rw [best, if_neg (by simp [h r List.mem_cons_self])]
    exact ih (id + 1) fun s hs => h s (List.mem_cons_of_mem r hs)

/-- The best source of a list is one of its eligible sources. -/
theorem best_mem {sources : List (PlainSource ι)} {id j : Nat} {s : PlainSource ι}
    (h : best ops w id sources = some (j, s)) :
    ∃ i, j = id + i ∧ sources[i]? = some s ∧ s.eligible ops w = true := by
  induction sources generalizing id with
  | nil => cases h
  | cons r rest ih =>
    have hrest : best ops w (id + 1) rest = some (j, s) →
        ∃ i, j = id + i ∧ (r :: rest)[i]? = some s ∧ s.eligible ops w = true := by
      intro hb
      obtain ⟨i, hj, hs, he⟩ := ih hb
      exact ⟨i + 1, by omega, by simpa using hs, he⟩
    rw [best] at h
    split at h
    · rename_i hr
      split at h
      · rename_i j' s' hb
        split at h
        · exact hrest (hb.trans h)
        · cases h
          exact ⟨0, rfl, rfl, hr⟩
      · cases h
        exact ⟨0, rfl, rfl, hr⟩
    · exact hrest h

/-- An eligible source whose key is before those of all others is the best. -/
theorem best_eq_some {sources : List (PlainSource ι)} (id : Nat) {i : Nat} {r : PlainSource ι}
    (hr : sources[i]? = some r) (he : r.eligible ops w = true)
    (hfirst : ∀ j s, sources[j]? = some s → s.eligible ops w = true → j ≠ i →
      (key r (id + i)).before (key s (id + j)) = true) :
    best ops w id sources = some (id + i, r) := by
  induction sources generalizing id i with
  | nil => cases hr
  | cons a rest ih =>
    cases i with
    | zero =>
      cases hr
      rw [best, if_pos he]
      split
      · rename_i j s hb
        obtain ⟨n, rfl, hs, hse⟩ := best_mem hb
        have hbefore := hfirst (n + 1) s (by simpa using hs) hse (by omega)
        rw [(before_iff_not_outranks (by omega)).mp hbefore]
        rfl
      · rfl
    | succ i =>
      have hrest : best ops w (id + 1) rest = some (id + (i + 1), r) := by
        rw [show id + (i + 1) = id + 1 + i by omega]
        refine ih (id + 1) (by simpa using hr) ?_
        intro j s hs hse hne
        have hbefore := hfirst (j + 1) s (by simpa using hs) hse (by omega)
        rwa [show id + 1 + i = id + (i + 1) by omega, show id + 1 + j = id + (j + 1) by omega]
      rw [best, hrest]
      split
      · rename_i ha
        have hbefore := hfirst 0 a rfl ha (by omega)
        simp only [(before_iff_outranks (by omega)).mp hbefore, if_true]
      · rfl

end PlainScheduler

/-! ## The multiplexer without its working set -/

def Registration.plain {ι : Type} (r : Registration ι) : PlainSource ι where
  source := r.source
  priority := r.priority
  stamp := r.stamp
  closed := r.closed

/-- No poll of another source decides whether this one has data. -/
def SourceOps.Owns {ι σ : Type} (ops : SourceOps ι σ) (b : ι) : Prop :=
  ∀ a w, a ≠ b → ops.hasData b (ops.poll a w).2 = ops.hasData b w

/-- No poll of a source decides whether another one has data. -/
structure OwnData {ι σ : Type} (ops : SourceOps ι σ) : Prop where
  poll : ∀ a b w, a ≠ b → ops.hasData b (ops.poll a w).2 = ops.hasData b w

theorem OwnData.owns {ι σ : Type} {ops : SourceOps ι σ} (h : OwnData ops) (b : ι) :
    ops.Owns b := fun a w hab => h.poll a b w hab

namespace Multiplexer

variable {ι σ : Type} {ops : SourceOps ι σ}

def plain (m : Multiplexer ι) : PlainScheduler ι where
  sources := m.registrations.map Registration.plain
  clock := m.clock

theorem plain_source {m : Multiplexer ι} {i : Nat} {r : Registration ι}
    (h : m.registrations[i]? = some r) : m.plain.sources[i]? = some r.plain := by
  rw [plain, List.getElem?_map, h]
  rfl

/-! ## One pass -/

/-- The outcome of a pass that has `r` before its other sources. -/
def Pass.cons (r : Registration ι) (p : Pass ι σ) : Pass ι σ :=
  { p with registrations := r :: p.registrations }

theorem passOver_closed (id : Nat) {r : Registration ι} (hc : r.closed = true)
    (rest : List (Registration ι)) (set : List ReadyKey) (w : σ) :
    passOver ops id (r :: rest) set w = (passOver ops (id + 1) rest set w).cons r := by
  rw [passOver, if_pos hc]
  rfl

theorem passOver_failed (id : Nat) {r : Registration ι} (hc : r.closed = false)
    (rest : List (Registration ι)) (set : List ReadyKey) {w w' : σ} {e : BusError}
    (hp : ops.poll r.source w = (.failed e, w')) :
    passOver ops id (r :: rest) set w =
      ⟨{ r with closed := true, ready := false } :: rest,
       if r.ready then set.erase (r.key id) else set, w', some (id, e)⟩ := by
  simp [passOver, hc, hp]

/-- A source that did not fail joins the working set if it has data and is not in it. -/
theorem passOver_read (id : Nat) {r : Registration ι} (hc : r.closed = false)
    (rest : List (Registration ι)) (set : List ReadyKey) {w w' : σ} {reading : Reading}
    (hp : ops.poll r.source w = (reading, w')) (hread : ∀ e, reading ≠ .failed e) :
    passOver ops id (r :: rest) set w =
      if !r.ready && ops.hasData r.source w' then
        (passOver ops (id + 1) rest ((r.key id).insert set) w').cons { r with ready := true }
      else (passOver ops (id + 1) rest set w').cons r := by
  cases reading with
  | failed e => exact absurd rfl (hread e)
  | pending => simp [passOver, hc, hp, Pass.cons]
  | units n => simp [passOver, hc, hp, Pass.cons]

/-- A source is closed, or its poll fails, or its poll brings something or nothing. -/
theorem poll_cases (ops : SourceOps ι σ) (r : Registration ι) (w : σ) :
    r.closed = true ∨
      (∃ e w', r.closed = false ∧ ops.poll r.source w = (.failed e, w')) ∨
      ∃ reading w', r.closed = false ∧ ops.poll r.source w = (reading, w') ∧
        ∀ e, reading ≠ .failed e := by
  cases hc : r.closed with
  | true => exact Or.inl rfl
  | false =>
    rcases hp : ops.poll r.source w with ⟨reading, w'⟩
    cases reading with
    | failed e => exact Or.inr (Or.inl ⟨e, w', rfl, rfl⟩)
    | pending => exact Or.inr (Or.inr ⟨.pending, w', rfl, rfl, by simp⟩)
    | units n => exact Or.inr (Or.inr ⟨.units n, w', rfl, rfl, by simp⟩)

/-- The working set has no part in what a pass polls, closes and reports. -/
theorem passOver_plain (ops : SourceOps ι σ) (id : Nat) (todo : List (Registration ι))
    (set : List ReadyKey) (w : σ) :
    PlainScheduler.passOver ops id (todo.map Registration.plain) w =
      ((passOver ops id todo set w).registrations.map Registration.plain,
       (passOver ops id todo set w).failure, (passOver ops id todo set w).world) := by
  induction todo generalizing id set w with
  | nil => rfl
  | cons r rest ih =>
    have hclosed : r.plain.closed = r.closed := rfl
    have hsource : r.plain.source = r.source := rfl
    rcases poll_cases ops r w with hc | ⟨e, w', hc, hp⟩ | ⟨reading, w', hc, hp, hread⟩
    · rw [passOver_closed id hc, List.map_cons, PlainScheduler.passOver, hclosed, if_pos hc,
        ih (id + 1) set w]
      rfl
    · rw [passOver_failed id hc rest set hp, List.map_cons, PlainScheduler.passOver, hclosed,
        hsource, hc, hp]
      rfl
    · rw [passOver_read id hc rest set hp hread, List.map_cons,
        PlainScheduler.passOver_read id (hclosed.trans hc) _ (hsource ▸ hp) hread]
      split
      · rw [ih (id + 1) ((r.key id).insert set) w']
        rfl
      · rw [ih (id + 1) set w']
        rfl

/-- The sources seen so far and those to come stay in step with the working set. -/
theorem passOver_consistent (ops : SourceOps ι σ) (done todo : List (Registration ι))
    (set : List ReadyKey) (w : σ) (h : Consistent (done ++ todo) set) :
    Consistent (done ++ (passOver ops done.length todo set w).registrations)
      (passOver ops done.length todo set w).workingSet := by
  induction todo generalizing done set w with
  | nil => exact h
  | cons r rest ih =>
    have hr : (done ++ r :: rest)[done.length]? = some r := by simp
    have hset : ∀ x, (done ++ r :: rest).set done.length x = done ++ x :: rest := by simp
    have hgo : ∀ x set' w', Consistent (done ++ x :: rest) set' →
        Consistent (done ++ ((passOver ops (done.length + 1) rest set' w').cons x).registrations)
          ((passOver ops (done.length + 1) rest set' w').cons x).workingSet := by
      intro x set' w' h'
      have := ih (done ++ [x]) set' w' (by simpa using h')
      simpa [Pass.cons] using this
    rcases poll_cases ops r w with hc | ⟨e, w', hc, hp⟩ | ⟨reading, w', hc, hp, hread⟩
    · rw [passOver_closed _ hc]
      exact hgo r set w h
    · rw [passOver_failed _ hc rest set hp, ← hset]
      exact h.erase hr rfl
    · rw [passOver_read _ hc rest set hp hread]
      split
      · rename_i hjoin
        have hready : r.ready = false := by simp_all
        refine hgo _ _ w' ?_
        rw [← hset]
        exact h.enter hr hready rfl hc
      · exact hgo r set w' h

/-- A pass does not change whether a source that it has already seen has data. -/
theorem hasData_passOver {a : ι} (hown : ops.Owns a) (id : Nat) (todo : List (Registration ι))
    (set : List ReadyKey) (w : σ) (ha : ∀ r ∈ todo, r.source ≠ a) :
    ops.hasData a (passOver ops id todo set w).world = ops.hasData a w := by
  induction todo generalizing id set w with
  | nil => rfl
  | cons r rest ih =>
    have hrest : ∀ s ∈ rest, s.source ≠ a := fun s hs => ha s (List.mem_cons_of_mem r hs)
    have hpoll := hown r.source w (ha r List.mem_cons_self)
    rcases poll_cases ops r w with hc | ⟨e, w', hc, hp⟩ | ⟨reading, w', hc, hp, hread⟩
    · rw [passOver_closed id hc]
      exact ih (id + 1) set w hrest
    · rw [passOver_failed id hc rest set hp, ← hpoll, hp]
    · rw [hp] at hpoll
      rw [passOver_read id hc rest set hp hread, ← hpoll]
      split
      · exact ih (id + 1) _ w' hrest
      · exact ih (id + 1) set w' hrest

/-- After a pass that no source ended, an open source with data is marked ready, unless it has
them from the poll of another one. -/
theorem passOver_covers (ops : SourceOps ι σ) (id : Nat) (todo : List (Registration ι))
    (set : List ReadyKey) (w : σ) (hd : (todo.map (·.source)).Nodup)
    (hf : (passOver ops id todo set w).failure = none) :
    ∀ r ∈ (passOver ops id todo set w).registrations, ops.Owns r.source → r.closed = false →
      ops.hasData r.source (passOver ops id todo set w).world = true → r.ready = true := by
  induction todo generalizing id set w with
  | nil => simp [passOver]
  | cons r rest ih =>
    obtain ⟨hnew, hd'⟩ := List.nodup_cons.mp hd
    have hother : ∀ s ∈ rest, s.source ≠ r.source := fun s hs he =>
      hnew (List.mem_map.mpr ⟨s, hs, he⟩)
    rcases poll_cases ops r w with hc | ⟨e, w', hc, hp⟩ | ⟨reading, w', hc, hp, hread⟩
    · rw [passOver_closed id hc] at hf ⊢
      intro s hs hown hopen
      rcases List.mem_cons.mp hs with rfl | hs
      · rw [hc] at hopen
        cases hopen
      · exact ih (id + 1) set w hd' hf s hs hown hopen
    · rw [passOver_failed id hc rest set hp] at hf
      cases hf
    · rw [passOver_read id hc rest set hp hread] at hf ⊢
      split at hf
      · rename_i hjoin
        rw [if_pos hjoin]
        intro s hs hown hopen
        rcases List.mem_cons.mp hs with rfl | hs
        · exact fun _ => rfl
        · exact ih (id + 1) _ w' hd' hf s hs hown hopen
      · rename_i hstay
        rw [if_neg hstay]
        intro s hs hown hopen hdata
        rcases List.mem_cons.mp hs with rfl | hs
        · have hdata' : ops.hasData s.source w' = true := by
            rw [← hasData_passOver hown (id + 1) rest set w' hother]
            exact hdata
          simpa [hdata'] using hstay
        · exact ih (id + 1) set w' hd' hf s hs hown hopen hdata

/-! ## One dispatch -/

/-- An entry replaced by one that reads as a change of what it read before. -/
theorem map_set_eq_modify {α β : Type} {f : α → β} {l : List α} {i : Nat} {a b : α} (g : β → β)
    (ha : l[i]? = some a) (hb : f b = g (f a)) : (l.set i b).map f = (l.map f).modify i g := by
  obtain ⟨hi, rfl⟩ := List.getElem?_eq_some_iff.mp ha
  apply List.ext_getElem?
  intro j
  rw [List.getElem?_map, List.getElem?_modify, List.getElem?_map, List.getElem?_set]
  by_cases hij : i = j
  · subst hij
    simp [hi, hb]
  · simp [hij]

theorem map_set_eq {α β : Type} {f : α → β} {l : List α} {i : Nat} {a b : α}
    (ha : l[i]? = some a) (hb : f b = f a) : (l.set i b).map f = l.map f := by
  rw [map_set_eq_modify (fun x => x) ha hb]
  exact List.modify_id i _

theorem plain_set_ready {rs : List (Registration ι)} {i : Nat} {r : Registration ι}
    (hr : rs[i]? = some r) (b : Bool) :
    (rs.set i { r with ready := b }).map Registration.plain = rs.map Registration.plain :=
  map_set_eq hr rfl

/-- The multiplexer after it has passed over an entry without data. -/
def passedOver (id : Nat) (r : Registration ι) (m : Multiplexer ι) : Multiplexer ι :=
  { m with
    registrations := m.registrations.set id { r with ready := false }
    stats := { m.stats with emptySkips := m.stats.emptySkips + 1 } }

theorem dispatchFrom_data {k : ReadyKey} (rest : List ReadyKey) {m : Multiplexer ι}
    {r : Registration ι} {w : σ} (hr : m.registrations[k.id]? = some r)
    (hdata : ops.hasData r.source w = true) :
    dispatchFrom ops (k :: rest) m w =
      (some k.id, dispatch ops { m with workingSet := rest } k.id r w) := by
  simp [dispatchFrom, hr, hdata]

theorem dispatchFrom_empty {k : ReadyKey} (rest : List ReadyKey) {m : Multiplexer ι}
    {r : Registration ι} {w : σ} (hr : m.registrations[k.id]? = some r)
    (hdata : ops.hasData r.source w = false) :
    dispatchFrom ops (k :: rest) m w = dispatchFrom ops rest (m.passedOver k.id r) w := by
  simp [dispatchFrom, hr, hdata, passedOver]

/-- If the first source of the working set has data and the set covers all sources with data, it
is the one that the plain scheduler finds. -/
theorem best_of_sorted {rs : List (Registration ι)} {k : ReadyKey} {rest : List ReadyKey}
    {r : Registration ι} {w : σ} (h : Consistent rs (k :: rest))
    (hcover : ∀ r ∈ rs, r.closed = false → ops.hasData r.source w = true → r.ready = true)
    (hr : rs[k.id]? = some r) (hdata : ops.hasData r.source w = true) :
    PlainScheduler.best ops w 0 (rs.map Registration.plain) = some (k.id, r.plain) := by
  obtain ⟨hready, hkey⟩ := h.key_eq List.mem_cons_self hr
  have hget : (rs.map Registration.plain)[k.id]? = some r.plain := by
    rw [List.getElem?_map, hr]
    rfl
  have heligible : r.plain.eligible ops w = true := by
    simp [PlainSource.eligible, Registration.plain, h.opened _ _ hr hready, hdata]
  have hbest := PlainScheduler.best_eq_some 0 hget heligible fun j s hs he hne => ?_
  · rwa [Nat.zero_add] at hbest
  rw [Nat.zero_add, Nat.zero_add]
  -- Another eligible source has its key in the set too, behind the first one.
  rw [List.getElem?_map, Option.map_eq_some_iff] at hs
  obtain ⟨x, hx, rfl⟩ := hs
  simp only [PlainSource.eligible, Registration.plain, Bool.and_eq_true, Bool.not_eq_true'] at he
  have hxr : x.ready = true := hcover x (List.mem_of_getElem? hx) he.1 he.2
  have hin : x.key j ∈ k :: rest := (h.mem _).mpr ⟨x, hx, hxr, rfl⟩
  rcases List.mem_cons.mp hin with heq | hin
  · exact absurd (congrArg ReadyKey.id heq) hne
  · have hbefore := (List.pairwise_cons.mp h.sorted).1 _ hin
    rwa [← hkey] at hbefore

theorem consistent_dispatch {m : Multiplexer ι} {k : ReadyKey} {rest : List ReadyKey}
    {r : Registration ι} (h : Consistent m.registrations (k :: rest))
    (hr : m.registrations[k.id]? = some r) (w : σ) :
    Consistent (dispatch ops { m with workingSet := rest } k.id r w).1.registrations
      (dispatch ops { m with workingSet := rest } k.id r w).1.workingSet := by
  have hopen := h.opened _ _ hr (h.key_eq List.mem_cons_self hr).1
  have hlt : k.id < m.registrations.length := (List.getElem?_eq_some_iff.mp hr).1
  simp only [dispatch]
  cases hmore : ops.hasMore r.source w with
  | false => exact h.pop rfl
  | true =>
    have hpop := h.pop (r := { r with ready := false }) rfl
    have henter := hpop.enter (x := { r with
      stamp := m.clock + 1, dispatches := r.dispatches + 1, ready := true })
      (List.getElem?_set_self hlt) rfl rfl hopen
    rwa [List.set_set] at henter

theorem consistent_dispatchFrom (ops : SourceOps ι σ) {set : List ReadyKey} {m : Multiplexer ι}
    (h : Consistent m.registrations set) (w : σ) :
    Consistent (dispatchFrom ops set m w).2.1.registrations
      (dispatchFrom ops set m w).2.1.workingSet := by
  induction set generalizing m with
  | nil => exact h
  | cons k rest ih =>
    obtain ⟨r, hr, -, -⟩ := (h.mem k).mp List.mem_cons_self
    cases hdata : ops.hasData r.source w with
    | true =>
      rw [dispatchFrom_data rest hr hdata]
      exact consistent_dispatch h hr w
    | false =>
      rw [dispatchFrom_empty rest hr hdata]
      exact ih (h.pop rfl)

theorem passedOver_plain {m : Multiplexer ι} {id : Nat} {r : Registration ι}
    (hr : m.registrations[id]? = some r) : (m.passedOver id r).plain = m.plain := by
  simp only [plain, passedOver, plain_set_ready hr false]

/-- Going through the working set finds the source that the plain scheduler finds. -/
theorem dispatchFrom_plain (ops : SourceOps ι σ) (set : List ReadyKey) (m : Multiplexer ι)
    (w : σ) (h : Consistent m.registrations set)
    (hcover : ∀ r ∈ m.registrations, r.closed = false → ops.hasData r.source w = true →
      r.ready = true) :
    m.plain.dispatch ops w =
      ((dispatchFrom ops set m w).1, (dispatchFrom ops set m w).2.1.plain,
        (dispatchFrom ops set m w).2.2) := by
  induction set generalizing m with
  | nil =>
    have hnone : PlainScheduler.best ops w 0 m.plain.sources = none := by
      refine PlainScheduler.best_eq_none 0 ?_
      intro s hs
      obtain ⟨x, hx, rfl⟩ := List.mem_map.mp hs
      obtain ⟨i, hi⟩ := List.mem_iff_getElem?.mp hx
      cases he : x.plain.eligible ops w with
      | false => rfl
      | true =>
        simp only [PlainSource.eligible, Registration.plain, Bool.and_eq_true,
          Bool.not_eq_true'] at he
        cases (h.mem (x.key i)).mpr ⟨x, hi, hcover x hx he.1 he.2, rfl⟩
    rw [PlainScheduler.dispatch, hnone]
    rfl
  | cons k rest ih =>
    obtain ⟨r, hr, hready, hkey⟩ := (h.mem k).mp List.mem_cons_self
    cases hdata : ops.hasData r.source w with
    | true =>
      rw [dispatchFrom_data rest hr hdata]
      have hbest : PlainScheduler.best ops w 0 m.plain.sources = some (k.id, r.plain) :=
        best_of_sorted h hcover hr hdata
      rw [PlainScheduler.dispatch, hbest]
      simp only [dispatch, plain, List.map_set]
      rfl
    | false =>
      rw [dispatchFrom_empty rest hr hdata, ← passedOver_plain hr]
      refine ih _ (h.pop rfl) ?_
      intro x hx hopen hxdata
      obtain ⟨i, hi⟩ := List.mem_iff_getElem?.mp hx
      rw [passedOver, List.getElem?_set] at hi
      split at hi
      · split at hi
        · cases hi
          rw [hdata] at hxdata
          cases hxdata
        · cases hi
      · exact hcover x (List.mem_of_getElem? hi) hopen hxdata

end Multiplexer

end ControlBus
