-- What a selection keeps of the world in which the sources live, when no source fails: whatever
-- polls and events keep, up to the one dispatch that it ends with.
import ControlBus.Proofs.SchedulerRuns

namespace ControlBus

/-- What polls do to a world: they keep `holds` and never fail, and each of them gives its own
source `seen`, which the polls of others keep. -/
structure PollsKeep {ι σ : Type} (ops : SourceOps ι σ) (holds : σ → Prop) (seen : ι → σ → Prop) :
    Prop where
  keeps : ∀ a w, holds w → holds (ops.poll a w).2
  reads : ∀ a w, holds w → ∀ e, (ops.poll a w).1 ≠ .failed e
  self : ∀ a w, holds w → seen a (ops.poll a w).2
  others : ∀ a b w, holds w → a ≠ b → seen a w → seen a (ops.poll b w).2

namespace PlainScheduler

variable {ι σ : Type} {ops : SourceOps ι σ} {holds : σ → Prop} {seen : ι → σ → Prop}

/-- No source has failed. -/
def AllOpen (p : PlainScheduler ι) : Prop := ∀ r ∈ p.sources, r.closed = false

/-! ## A pass -/

theorem passOver_cons (hk : PollsKeep ops holds seen) (id : Nat) {r : PlainSource ι}
    (hc : r.closed = false) (rest : List (PlainSource ι)) {w : σ} (h : holds w) :
    passOver ops id (r :: rest) w =
      (r :: (passOver ops (id + 1) rest (ops.poll r.source w).2).1,
        (passOver ops (id + 1) rest (ops.poll r.source w).2).2) :=
  passOver_read id hc rest rfl (hk.reads r.source w h)

theorem seen_passOver (hk : PollsKeep ops holds seen) (id : Nat) {todo : List (PlainSource ι)}
    (hopen : ∀ r ∈ todo, r.closed = false) {a : ι} (ha : ∀ r ∈ todo, a ≠ r.source) {w : σ}
    (h : holds w) (hs : seen a w) : seen a (passOver ops id todo w).2.2 := by
  induction todo generalizing id w with
  | nil => exact hs
  | cons r rest ih =>
    rw [passOver_cons hk id (hopen r List.mem_cons_self) rest h]
    exact ih (id + 1) (fun s hs => hopen s (List.mem_cons_of_mem r hs))
      (fun s hs => ha s (List.mem_cons_of_mem r hs)) (hk.keeps r.source w h)
      (hk.others a r.source w h (ha r List.mem_cons_self) hs)

/-- A pass looks at every source and leaves all of them as they are. -/
theorem passOver_keeps (hk : PollsKeep ops holds seen) (id : Nat) {todo : List (PlainSource ι)}
    (hopen : ∀ r ∈ todo, r.closed = false) (hd : (todo.map (·.source)).Nodup) {w : σ}
    (h : holds w) :
    ∃ w', passOver ops id todo w = (todo, none, w') ∧ holds w' ∧
      ∀ r ∈ todo, seen r.source w' := by
  induction todo generalizing id w with
  | nil => exact ⟨w, rfl, h, by simp⟩
  | cons r rest ih =>
    obtain ⟨hnew, hd'⟩ := List.nodup_cons.mp hd
    have hopen' : ∀ s ∈ rest, s.closed = false := fun s hs => hopen s (List.mem_cons_of_mem r hs)
    have hpolled := hk.keeps r.source w h
    obtain ⟨w', hrest, hw', hseen⟩ := ih (id + 1) hopen' hd' hpolled
    have hr : seen r.source w' := by
      have hother : ∀ s ∈ rest, r.source ≠ s.source := fun s hs he =>
        hnew (List.mem_map.mpr ⟨s, hs, he.symm⟩)
      have := seen_passOver hk (id + 1) hopen' hother hpolled (hk.self r.source w h)
      rwa [hrest] at this
    refine ⟨w', ?_, hw', fun s hs => ?_⟩
    · rw [passOver_cons hk id (hopen r List.mem_cons_self) rest h, hrest]
    · rcases List.mem_cons.mp hs with rfl | hs
      · exact hr
      · exact hseen s hs

/-! ## A selection -/

/-- How a selection may end: with the dispatch of a source that has data, in a world that is as
it should be, or with a world in which all sources were looked at and none has data. -/
def EndsWell (ops : SourceOps ι σ) (holds : σ → Prop) (seen : ι → σ → Prop)
    (p : PlainScheduler ι) (outcome : Selection) (w' : σ) : Prop :=
  match outcome with
  | .ready id => ∃ r w, p.sources[id]? = some r ∧ holds w ∧ ops.hasData r.source w = true ∧
      w' = ops.afterRead r.source w
  | .failed _ _ => False
  | .timeout => holds w' ∧ ∀ r ∈ p.sources, ops.hasData r.source w' = false ∧ seen r.source w'

theorem EndsWell.mono {holds' : σ → Prop} {p : PlainScheduler ι} {outcome : Selection} {w : σ}
    (h : p.EndsWell ops holds seen outcome w) (himp : ∀ v, holds v → holds' v) :
    p.EndsWell ops holds' seen outcome w := by
  cases outcome with
  | ready id =>
    obtain ⟨r, v, hr, hv, hdata, hw⟩ := h
    exact ⟨r, v, hr, himp v hv, hdata, hw⟩
  | failed id e => exact h
  | timeout => exact ⟨himp w h.1, h.2⟩

theorem turn_ends (hk : PollsKeep ops holds seen) {p : PlainScheduler ι} (hopen : p.AllOpen)
    (hd : p.names.Nodup) {w : σ} (h : holds w) :
    (p.turn ops w).2.1.AllOpen ∧
      p.EndsWell ops holds seen ((p.turn ops w).1.getD .timeout) (p.turn ops w).2.2 ∧
      ((p.turn ops w).1 = none → (p.turn ops w).2.1 = p) := by
  obtain ⟨w', hpass, hw', hseen⟩ := passOver_keeps hk 0 hopen hd h
  simp only [turn, hpass, dispatch]
  cases hb : best ops w' 0 p.sources with
  | none =>
    refine ⟨hopen, ⟨hw', fun r hr => ⟨?_, hseen r hr⟩⟩, fun _ => rfl⟩
    have hnot := (best_eq_none_iff 0).mp hb r hr
    simpa [PlainSource.eligible, hopen r hr] using hnot
  | some found =>
    obtain ⟨id, r⟩ := found
    obtain ⟨i, hi, hr, he⟩ := best_mem hb
    rw [Nat.zero_add] at hi
    subst hi
    have hdata : ops.hasData r.source w' = true := (Bool.and_eq_true_iff.mp he).2
    refine ⟨fun s hs => ?_, ⟨r, w', hr, hw', hdata, rfl⟩, fun hnone => by cases hnone⟩
    rcases List.mem_or_eq_of_mem_set hs with hs | rfl
    · exact hopen s hs
    · exact hopen r (List.mem_of_getElem? hr)

theorem await_ends (hk : PollsKeep ops holds seen) {p : PlainScheduler ι} (hopen : p.AllOpen)
    (hd : p.names.Nodup) {events : List (σ → σ)} (hev : ∀ e ∈ events, ∀ w, holds w → holds (e w))
    {w : σ} (h : holds w) :
    (p.await ops events w).2.1.AllOpen ∧
      p.EndsWell ops holds seen ((p.await ops events w).1.getD .timeout)
        (p.await ops events w).2.2 := by
  induction events generalizing w with
  | nil =>
    obtain ⟨hopen', hends, -⟩ := turn_ends hk hopen hd h
    rw [await_nil]
    exact ⟨hopen', hends⟩
  | cons event rest ih =>
    obtain ⟨hopen', hends, hsame⟩ := turn_ends hk hopen hd h
    rcases ht : p.turn ops w with ⟨outcome, p', w'⟩
    rw [ht] at hopen' hends hsame
    cases outcome with
    | some outcome =>
      rw [await_some ht]
      exact ⟨hopen', hends⟩
    | none =>
      have hp : p' = p := hsame rfl
      subst hp
      rw [await_none ht]
      exact ih (fun e he => hev e (List.mem_cons_of_mem event he))
        (hev event List.mem_cons_self w' hends.1)

theorem select_ends (hk : PollsKeep ops holds seen) {p : PlainScheduler ι} (hopen : p.AllOpen)
    (hd : p.names.Nodup) (events : PlainScheduler ι → σ → List (σ → σ))
    (hev : ∀ p w, ∀ e ∈ events p w, ∀ v, holds v → holds (e v)) {w : σ} (h : holds w) :
    (p.select ops events w).2.1.AllOpen ∧
      p.EndsWell ops holds seen (p.select ops events w).1 (p.select ops events w).2.2 := by
  obtain ⟨hopen', hends, hsame⟩ := turn_ends hk hopen hd h
  rcases ht : p.turn ops w with ⟨outcome, p', w'⟩
  rw [ht] at hopen' hends hsame
  cases outcome with
  | some outcome =>
    rw [select_some ht]
    exact ⟨hopen', hends⟩
  | none =>
    have hp : p' = p := hsame rfl
    subst hp
    rw [select_none ht]
    exact await_ends hk hopen hd (hev p' w') hends.1

end PlainScheduler

end ControlBus
