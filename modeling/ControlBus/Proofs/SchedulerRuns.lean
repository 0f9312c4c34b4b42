-- Runs of the multiplexer beside runs of the plain scheduler: both decide the same, whatever others
-- do to the sources between selections, as long as the poll of one source leaves it to the others
-- whether they have data.
import ControlBus.Proofs.Selections
import Mathlib.Data.List.Induction
import Mathlib.Tactic.Set

namespace ControlBus

namespace PlainScheduler

variable {ι σ : Type} {ops : SourceOps ι σ}

theorem best_eq_none_iff {w : σ} {sources : List (PlainSource ι)} (id : Nat) :
    best ops w id sources = none ↔ ∀ r ∈ sources, r.eligible ops w = false := by
  refine ⟨fun h => ?_, best_eq_none id⟩
  induction sources generalizing id with
  | nil => simp
  | cons r rest ih =>
    rw [best] at h
    split at h
    · split at h
      · split at h <;> cases h
      · cases h
    · rename_i hr
      intro s hs
      rcases List.mem_cons.mp hs with rfl | hs
      · simpa using hr
      · exact ih (id + 1) h s hs

theorem dispatch_none {p : PlainScheduler ι} {w : σ} (h : (p.dispatch ops w).1 = none) :
    p.dispatch ops w = (none, p, w) ∧ ∀ r ∈ p.sources, r.eligible ops w = false := by
  unfold dispatch at h ⊢
  cases hb : best ops w 0 p.sources with
  | none => exact ⟨rfl, (best_eq_none_iff 0).mp hb⟩
  | some found =>
    rw [hb] at h
    cases h

/-- A turn that comes to nothing leaves no open source with data. -/
theorem turn_none {p p' : PlainScheduler ι} {w w' : σ} (h : p.turn ops w = (none, p', w')) :
    ∀ r ∈ p'.sources, r.eligible ops w' = false := by
  unfold turn at h
  split at h
  · cases h
  · rename_i sources v hp
    rcases hd : dispatch ops { p with sources } v with ⟨chosen, p₁, w₁⟩
    rw [hd] at h
    cases chosen with
    | some id => cases h
    | none =>
      obtain ⟨heq, hall⟩ := dispatch_none (p := { p with sources }) (w := v) (by rw [hd])
      rw [hd] at heq
      cases heq
      cases h
      exact hall

/-- From here to the end of the wait no pass finds an open source with data. -/
def Quiet (ops : SourceOps ι σ) : List (σ → σ) → PlainScheduler ι → σ → Prop
  | events, p, w => ∃ p' w', p.turn ops w = (none, p', w') ∧
      (∀ r ∈ p'.sources, r.eligible ops w' = false) ∧
      match events with
      | [] => True
      | event :: rest => Quiet ops rest p' (event w')

/-- No pass of a selection, the first one included, finds an open source with data. -/
def QuietThroughout (ops : SourceOps ι σ) (events : PlainScheduler ι → σ → List (σ → σ))
    (p : PlainScheduler ι) (w : σ) : Prop :=
  ∃ p' w', p.turn ops w = (none, p', w') ∧ (∀ r ∈ p'.sources, r.eligible ops w' = false) ∧
    Quiet ops (events p' w') p' w'

theorem quiet_of_await {events : List (σ → σ)} {p : PlainScheduler ι} {w : σ}
    (h : (await ops events p w).1 = none) : Quiet ops events p w := by
  induction events generalizing p w with
  | nil =>
    rw [await_nil] at h
    rw [Quiet.eq_def]
    rcases ht : p.turn ops w with ⟨outcome, p', w'⟩
    rw [ht] at h
    cases outcome with
    | some outcome => cases h
    | none => exact ⟨p', w', ht, turn_none ht, trivial⟩
  | cons event rest ih =>
    rw [Quiet.eq_def]
    rcases ht : p.turn ops w with ⟨outcome, p', w'⟩
    cases outcome with
    | some outcome =>
      rw [await_some ht] at h
      cases h
    | none =>
      rw [await_none ht] at h
      exact ⟨p', w', ht, turn_none ht, ih h⟩

/-- A turn never answers that nothing happened. -/
theorem turn_ne_timeout (ops : SourceOps ι σ) (p : PlainScheduler ι) (w : σ) :
    (p.turn ops w).1 ≠ some .timeout := by
  unfold turn
  split
  · simp
  · simp

theorem await_ne_timeout (ops : SourceOps ι σ) (events : List (σ → σ)) (p : PlainScheduler ι)
    (w : σ) :
    (p.await ops events w).1 ≠ some .timeout := by
  induction events generalizing p w with
  | nil =>
    rw [await_nil]
    exact turn_ne_timeout ops p w
  | cons event rest ih =>
    have hturn := turn_ne_timeout ops p w
    rcases ht : p.turn ops w with ⟨outcome, p', w'⟩
    rw [ht] at hturn
    cases outcome with
    | some outcome =>
      rw [await_some ht]
      exact hturn
    | none =>
      rw [await_none ht]
      exact ih p' (event w')

/-- A selection that comes to nothing was quiet from its first pass to its last. -/
theorem quiet_of_select {events : PlainScheduler ι → σ → List (σ → σ)} {p : PlainScheduler ι}
    {w : σ} (h : (p.select ops events w).1 = .timeout) : p.QuietThroughout ops events w := by
  have hturn := turn_ne_timeout ops p w
  rcases ht : p.turn ops w with ⟨outcome, p', w'⟩
  rw [ht] at hturn
  cases outcome with
  | some outcome =>
    rw [select_some ht] at h
    exact absurd (congrArg some h) hturn
  | none =>
    rw [select_none ht] at h
    refine ⟨p', w', ht, turn_none ht, quiet_of_await ?_⟩
    have hawait := await_ne_timeout ops (events p' w') p' w'
    cases ha : (await ops (events p' w') p' w').1 with
    | none => rfl
    | some outcome =>
      rw [ha] at h hawait
      exact absurd (congrArg some h) hawait

end PlainScheduler

namespace Multiplexer

variable {ι σ : Type} {ops : SourceOps ι σ}

/-! ## Turns of the multiplexer -/

/-- A turn of the multiplexer is a turn of the plain scheduler. -/
theorem turn_plain (hown : OwnData ops) {m : Multiplexer ι} (h : m.Sound) (w : σ) :
    m.plain.turn ops w =
      ((turn ops m w).1, (turn ops m w).2.1.plain, (turn ops m w).2.2) := by
  have hpass : PlainScheduler.passOver ops 0 m.plain.sources w = _ :=
    passOver_plain ops 0 m.registrations m.workingSet w
  have hcons : Consistent (passOver ops 0 m.registrations m.workingSet w).registrations _ :=
    passOver_consistent ops [] m.registrations m.workingSet w h.consistent
  have hcovers := passOver_covers ops 0 m.registrations m.workingSet w h.nodup_sources
  rw [PlainScheduler.turn, hpass, turn, poll]
  cases hf : (passOver ops 0 m.registrations m.workingSet w).failure with
  | some failure => rfl
  | none =>
    have hd := dispatchFrom_plain ops
      (passOver ops 0 m.registrations m.workingSet w).workingSet
      { m with
        registrations := (passOver ops 0 m.registrations m.workingSet w).registrations
        workingSet := (passOver ops 0 m.registrations m.workingSet w).workingSet }
      (passOver ops 0 m.registrations m.workingSet w).world hcons
      fun r hr => hcovers hf r hr (hown.owns r.source)
    simp only [dispatchNext, plain] at hd ⊢
    rw [hd]

/-! ## Whole selections -/

theorem await_plain (hown : OwnData ops) (events : List (σ → σ)) {m : Multiplexer ι}
    (h : m.Sound) (w : σ) :
    m.plain.await ops events w =
      ((await ops events m w).1, (await ops events m w).2.1.plain,
        (await ops events m w).2.2) := by
  induction events generalizing m w with
  | nil =>
    rw [await_eq, PlainScheduler.await_nil, turn_plain hown h w]
    rcases turn ops m w with ⟨outcome, m', w'⟩
    cases outcome <;> rfl
  | cons event rest ih =>
    have hsound := turn_sound ops h w
    have hturn := turn_plain hown h w
    rw [await_eq]
    rcases ht : turn ops m w with ⟨outcome, m', w'⟩
    rw [ht] at hsound hturn
    cases outcome with
    | some outcome => exact PlainScheduler.await_some hturn
    | none =>
      rw [PlainScheduler.await_none hturn]
      exact ih hsound (event w')

/-- A selection of the multiplexer is a selection of the plain scheduler. -/
theorem select_plain (hown : OwnData ops) (events : PlainScheduler ι → σ → List (σ → σ))
    {m : Multiplexer ι} (h : m.Sound) (w : σ) :
    m.plain.select ops events w =
      ((select ops (fun m => events m.plain) m w).1,
        (select ops (fun m => events m.plain) m w).2.1.plain,
        (select ops (fun m => events m.plain) m w).2.2) := by
  set counted : Multiplexer ι :=
    { m with stats := { m.stats with selects := m.stats.selects + 1 } } with hcounted
  have hcountedSound : counted.Sound := ⟨h.consistent, h.distinct⟩
  have hsound := turn_sound ops hcountedSound w
  have hturn := turn_plain hown hcountedSound w
  have hplain : m.plain = counted.plain := rfl
  rw [select, attempt_eq, hplain]
  rcases ht : turn ops counted w with ⟨outcome, m₁, w₁⟩
  rw [ht] at hsound hturn
  cases outcome with
  | some outcome => exact PlainScheduler.select_some hturn
  | none =>
    rw [PlainScheduler.select_none hturn]
    simp only [await_plain hown (events m₁.plain w₁) hsound w₁]
    rcases await ops (events m₁.plain w₁) m₁ w₁ with ⟨outcome, m₂, w₂⟩
    cases outcome <;> rfl

end Multiplexer

/-! ## Sources with a backlog -/

/-- Sources with so many units of work each. The poll of a broken source fails, and the poll of
another one hands a unit to the source that it feeds. -/
def backlogs (feeds : Nat → Option Nat) (broken : Nat → Option BusError) :
    SourceOps Nat (Nat → Nat) where
  poll i w :=
    match broken i, feeds i with
    | some e, _ => (.failed e, w)
    | none, some j => (.pending, fun k => if k = j then w k + 1 else w k)
    | none, none => (.pending, w)
  hasData i w := 0 < w i
  hasMore i w := 1 < w i
  afterRead i w k := if k = i then w k - 1 else w k

/-- Sources that feed nobody have data of their own. -/
theorem ownData_backlogs (broken : Nat → Option BusError) :
    OwnData (backlogs (fun _ => none) broken) where
  poll a b w _ := by
    simp only [backlogs]
    cases broken a <;> rfl

/-! ## Runs -/

/-- What happens to a scheduler whose sources are numbered in the order of registration. -/
inductive SchedulerAct (σ : Type) where
  | add (priority : Int)
  /-- A selection; `events` tells what happens while it waits. -/
  | select (events : PlainScheduler Nat → σ → List (σ → σ))
  /-- Others change the sources. -/
  | change (f : σ → σ)

/-- A scheduler, the world of its sources, and the outcomes of all selections so far. -/
structure SchedulerRun (μ σ : Type) where
  scheduler : μ
  world : σ
  outcomes : List Selection := []

variable {σ : Type}

namespace Multiplexer

def act (ops : SourceOps Nat σ) (r : SchedulerRun (Multiplexer Nat) σ) :
    SchedulerAct σ → SchedulerRun (Multiplexer Nat) σ
  | .add priority =>
    { r with scheduler := (r.scheduler.add r.scheduler.registrations.length priority).2 }
  | .select events =>
    let (outcome, scheduler, world) :=
      r.scheduler.select ops (fun m => events m.plain) r.world
    { scheduler, world, outcomes := r.outcomes ++ [outcome] }
  | .change f => { r with world := f r.world }

def run (ops : SourceOps Nat σ) (acts : List (SchedulerAct σ)) (world : σ) :
    SchedulerRun (Multiplexer Nat) σ := acts.foldl (act ops) { scheduler := {}, world }

end Multiplexer

namespace PlainScheduler

def act (ops : SourceOps Nat σ) (r : SchedulerRun (PlainScheduler Nat) σ) :
    SchedulerAct σ → SchedulerRun (PlainScheduler Nat) σ
  | .add priority =>
    { r with scheduler := { r.scheduler with
        sources := r.scheduler.sources ++ [{ source := r.scheduler.sources.length, priority }] } }
  | .select events =>
    let (outcome, scheduler, world) := r.scheduler.select ops events r.world
    { scheduler, world, outcomes := r.outcomes ++ [outcome] }
  | .change f => { r with world := f r.world }

def run (ops : SourceOps Nat σ) (acts : List (SchedulerAct σ)) (world : σ) :
    SchedulerRun (PlainScheduler Nat) σ := acts.foldl (act ops) { scheduler := {}, world }

end PlainScheduler

namespace SchedulerRun

/-- The working set is in step with the sources, and these are numbered in order. -/
structure Sound (r : SchedulerRun (Multiplexer Nat) σ) : Prop where
  consistent : Consistent r.scheduler.registrations r.scheduler.workingSet
  numbered : r.scheduler.plain.Numbered

/-- Two runs side by side: the plain scheduler knows just what the multiplexer knows beside its
working set. -/
structure Alike (r : SchedulerRun (Multiplexer Nat) σ)
    (q : SchedulerRun (PlainScheduler Nat) σ) : Prop extends Sound r where
  scheduler : q.scheduler = r.scheduler.plain
  world : q.world = r.world
  outcomes : q.outcomes = r.outcomes

variable {r : SchedulerRun (Multiplexer Nat) σ} {q : SchedulerRun (PlainScheduler Nat) σ}
  {ops : SourceOps Nat σ}

theorem Sound.multiplexer (h : r.Sound) : r.scheduler.Sound :=
  ⟨h.consistent, h.numbered ▸ List.nodup_range⟩

theorem Sound.act (h : r.Sound) (ops : SourceOps Nat σ) (a : SchedulerAct σ) :
    (Multiplexer.act ops r a).Sound := by
  cases a with
  | add priority =>
    exact ⟨h.consistent.add rfl, Multiplexer.numbered_add h.numbered priority⟩
  | select events =>
    obtain ⟨hsound, u, -, hdecides⟩ := Multiplexer.select_decides ops (fun _ _ => True)
      h.multiplexer (fun m => events m.plain) (fun _ _ _ _ _ => trivial) r.world
    exact ⟨hsound.consistent, hdecides.numbered h.numbered⟩
  | change f => exact ⟨h.consistent, h.numbered⟩

theorem sound_run (ops : SourceOps Nat σ) (acts : List (SchedulerAct σ)) (world : σ) :
    (Multiplexer.run ops acts world).Sound := by
  induction acts using List.reverseRecOn with
  | nil => exact ⟨Consistent.empty, rfl⟩
  | append_singleton acts a ih =>
    rw [Multiplexer.run, List.foldl_append]
    exact ih.act ops a

theorem Alike.act (h : Alike r q) (hown : OwnData ops) (a : SchedulerAct σ) :
    Alike (Multiplexer.act ops r a) (PlainScheduler.act ops q a) := by
  have hsound := h.toSound.act ops a
  cases a with
  | add priority =>
    refine ⟨hsound, ?_, h.world, h.outcomes⟩
    simp [PlainScheduler.act, h.scheduler, Multiplexer.act, Multiplexer.add, Multiplexer.plain,
      Registration.plain]
  | select events =>
    have hselect := Multiplexer.select_plain hown events h.multiplexer r.world
    simp only [PlainScheduler.act, h.scheduler, h.world, h.outcomes, hselect]
    exact ⟨hsound, rfl, rfl, rfl⟩
  | change f => exact ⟨hsound, h.scheduler, congrArg f h.world, h.outcomes⟩

theorem alike_run (hown : OwnData ops) (acts : List (SchedulerAct σ)) (world : σ) :
    Alike (Multiplexer.run ops acts world) (PlainScheduler.run ops acts world) := by
  induction acts using List.reverseRecOn with
  | nil => exact ⟨⟨Consistent.empty, rfl⟩, rfl, rfl, rfl⟩
  | append_singleton acts a ih =>
    rw [Multiplexer.run, PlainScheduler.run, List.foldl_append, List.foldl_append]
    exact ih.act hown a

/-- As long as no poll of a source decides whether another one has data, the multiplexer selects
what a scheduler without a working set selects, and leaves everything else as that one does. A
selection that comes to nothing has seen no open source with data in any of its passes. -/
theorem the_working_set_changes_no_outcome (ops : SourceOps Nat σ) (hown : OwnData ops)
    (acts : List (SchedulerAct σ)) (world : σ) :
    let r := Multiplexer.run ops acts world
    let q := PlainScheduler.run ops acts world
    r.outcomes = q.outcomes ∧ r.world = q.world ∧ r.scheduler.plain = q.scheduler ∧
      ∀ events : PlainScheduler Nat → σ → List (σ → σ),
        (r.scheduler.select ops (fun m => events m.plain) r.world).1 = .timeout →
          q.scheduler.QuietThroughout ops events q.world := by
  intro r q
  have h : Alike r q := alike_run hown acts world
  refine ⟨h.outcomes.symm, h.world.symm, h.scheduler.symm, ?_⟩
  intro events hout
  have hselect := Multiplexer.select_plain hown events h.multiplexer r.world
  rw [← h.scheduler, ← h.world] at hselect
  rw [← h.world] at hout
  have hplain : (q.scheduler.select ops events q.world).1 = .timeout := by
    rw [hselect]
    exact hout
  exact PlainScheduler.quiet_of_select hplain

/-- Two backlogs of different priorities are worked off, the better one first. -/
theorem backlogs_are_worked_off_alike :
    let ops := backlogs (fun _ => none) (fun _ => none)
    let acts := [.add 0, .add 10] ++ List.replicate 4 (.select fun _ _ => [])
    let world := fun i => 2 - i
    OwnData ops ∧
      (Multiplexer.run ops acts world).outcomes = (PlainScheduler.run ops acts world).outcomes ∧
      (PlainScheduler.run ops acts world).outcomes = [.ready 1, .ready 0, .ready 0, .timeout] := by
  intro ops acts world
  have hown : OwnData ops := ownData_backlogs _
  exact ⟨hown, (the_working_set_changes_no_outcome ops hown acts world).1, by decide⟩

/-- If the poll of a source hands a unit to one that was polled before, that one is not in the
working set when the choice is made, be its priority ever so high. -/
theorem a_source_fed_by_a_later_poll_is_not_seen :
    let ops := backlogs (fun i => if i = 1 then some 0 else none) (fun _ => none)
    let acts := [.add 10, .add 0, .select fun _ _ => []]
    let world := fun i => i
    (Multiplexer.run ops acts world).outcomes = [.ready 1] ∧
      (PlainScheduler.run ops acts world).outcomes = [.ready 0] := by
  decide

end SchedulerRun

end ControlBus
