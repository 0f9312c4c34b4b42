-- Selections move by move. A selection that waits sleeps only after a look that finds the working
-- set empty; after any other it goes through the working set again. As long as no poll of a source
-- decides about the data of another one, it then finds whom to dispatch, so it never goes round
-- without sleeping. Whatever sources do, the notes about them agree after every move.
import ControlBus.Proofs.ReadyKeys
import Mathlib.Logic.Function.Iterate

namespace ControlBus

/-! ## Moves -/

/-- Where a selection stands. -/
inductive Stage where
  /-- Before its first look at the sources. -/
  | look
  /-- Before it goes through the working set. -/
  | choose
  /-- Before a look at the sources in its wait. -/
  | wait
  | done (outcome : Selection)

/-- The source that was dispatched in a selection, if it is done with a dispatch. -/
def Stage.dispatched : Stage → List Nat
  | look | choose | wait => []
  | done outcome => dispatchedBy (some outcome)

/-- A selection on its way. -/
structure Underway (ι σ : Type) where
  stage : Stage
  /-- What is still to happen in the world before the wait is over. -/
  events : List (σ → σ)
  scheduler : Multiplexer ι
  world : σ
  /-- How often it has gone through the working set. -/
  rounds : Nat := 0

variable {ι σ : Type} {ops : SourceOps ι σ}

/-- A multiplexer that has counted one more wait in vain. -/
def Multiplexer.timedOut (m : Multiplexer ι) : Multiplexer ι :=
  { m with stats := { m.stats with timeouts := m.stats.timeouts + 1 } }

namespace Underway

/-- A selection that is only counted yet. -/
def begin (events : List (σ → σ)) (m : Multiplexer ι) (w : σ) : Underway ι σ where
  stage := .look
  events
  scheduler := { m with stats := { m.stats with selects := m.stats.selects + 1 } }
  world := w

/-- It comes to a stage, with these sources in this world. -/
def arrive (s : Underway ι σ) (stage : Stage) (m : Multiplexer ι) (w : σ) : Underway ι σ :=
  { s with stage, scheduler := m, world := w }

/-- It ends with a failed source. -/
def fail (s : Underway ι σ) (failure : Nat × BusError) (m : Multiplexer ι) (w : σ) :
    Underway ι σ :=
  s.arrive (.done (.failed failure.1 failure.2)) (m.report failure).2 w

/-- Sleep up to the next event, or to the end of the wait. -/
def sleep (s : Underway ι σ) (m : Multiplexer ι) (w : σ) : Underway ι σ :=
  match s.events with
  | event :: rest => { s.arrive .wait m (event w) with events := rest }
  | [] => s.arrive (.done .timeout) m.timedOut w

/-- The next move of a selection. -/
def move (ops : SourceOps ι σ) (s : Underway ι σ) : Underway ι σ :=
  match s.stage with
  | .look =>
    match Multiplexer.poll ops s.scheduler s.world with
    | (some failure, m, w) => s.fail failure m w
    | (none, m, w) => s.arrive .choose m w
  | .choose =>
    match Multiplexer.dispatchNext ops s.scheduler s.world with
    | (some id, m, w) => { s.arrive (.done (.ready id)) m w with rounds := s.rounds + 1 }
    | (none, m, w) => { s.arrive .wait m w with rounds := s.rounds + 1 }
  | .wait =>
    match Multiplexer.poll ops s.scheduler s.world with
    | (some failure, m, w) => s.fail failure m w
    | (none, m, w) => if m.workingSet = [] then s.sleep m w else s.arrive .choose m w
  | .done _ => s

/-- What a move can be. -/
inductive Moves (ops : SourceOps ι σ) (s : Underway ι σ) : Underway ι σ → Prop where
  | failed {failure : Nat × BusError} {m : Multiplexer ι} {w : σ}
      (stage : s.stage = .look ∨ s.stage = .wait)
      (seen : Multiplexer.poll ops s.scheduler s.world = (some failure, m, w)) :
      Moves ops s (s.fail failure m w)
  | looked {m : Multiplexer ι} {w : σ} (stage : s.stage = .look)
      (seen : Multiplexer.poll ops s.scheduler s.world = (none, m, w)) :
      Moves ops s (s.arrive .choose m w)
  | dispatched {id : Nat} {m : Multiplexer ι} {w : σ} (stage : s.stage = .choose)
      (chosen : Multiplexer.dispatchNext ops s.scheduler s.world = (some id, m, w)) :
      Moves ops s { s.arrive (.done (.ready id)) m w with rounds := s.rounds + 1 }
  | idle {m : Multiplexer ι} {w : σ} (stage : s.stage = .choose)
      (chosen : Multiplexer.dispatchNext ops s.scheduler s.world = (none, m, w)) :
      Moves ops s { s.arrive .wait m w with rounds := s.rounds + 1 }
  | slept {m : Multiplexer ι} {w : σ} (stage : s.stage = .wait)
      (seen : Multiplexer.poll ops s.scheduler s.world = (none, m, w))
      (empty : m.workingSet = []) : Moves ops s (s.sleep m w)
  | found {m : Multiplexer ι} {w : σ} (stage : s.stage = .wait)
      (seen : Multiplexer.poll ops s.scheduler s.world = (none, m, w))
      (filled : m.workingSet ≠ []) : Moves ops s (s.arrive .choose m w)
  | ended {outcome : Selection} (stage : s.stage = .done outcome) : Moves ops s s

variable {s t : Underway ι σ}

theorem moves (ops : SourceOps ι σ) (s : Underway ι σ) : Moves ops s (s.move ops) := by
  unfold move
  cases hstage : s.stage with
  | look =>
    rcases hp : Multiplexer.poll ops s.scheduler s.world with ⟨failure, m, w⟩
    cases failure with
    | some failure => exact .failed (Or.inl hstage) hp
    | none => exact .looked hstage hp
  | choose =>
    rcases hd : Multiplexer.dispatchNext ops s.scheduler s.world with ⟨chosen, m, w⟩
    cases chosen with
    | some id => exact .dispatched hstage hd
    | none => exact .idle hstage hd
  | wait =>
    rcases hp : Multiplexer.poll ops s.scheduler s.world with ⟨failure, m, w⟩
    cases failure with
    | some failure => exact .failed (Or.inr hstage) hp
    | none =>
      dsimp only
      split
      · rename_i hempty
        exact .slept hstage hp hempty
      · rename_i hfilled
        exact .found hstage hp hfilled
  | done outcome => exact .ended hstage

/-- What a sleep does to all but the world. -/
theorem sleep_cases (s : Underway ι σ) (m : Multiplexer ι) (w : σ) :
    (∃ event rest, s.events = event :: rest ∧
      s.sleep m w = { s.arrive .wait m (event w) with events := rest }) ∨
    s.events = [] ∧ s.sleep m w = s.arrive (.done .timeout) m.timedOut w := by
  unfold sleep
  cases s.events with
  | nil => exact Or.inr ⟨rfl, rfl⟩
  | cons event rest => exact Or.inl ⟨event, rest, rfl, rfl⟩

namespace Moves

/-! ## What every move keeps -/

theorem sources (h : Moves ops s t) : t.scheduler.sources = s.scheduler.sources := by
  have hpoll := (Multiplexer.enters_poll ops s.scheduler s.world).sources
  have hdispatch :=
    (Multiplexer.enters_dispatchFrom ops s.scheduler.workingSet s.scheduler s.world).sources
  cases h with
  | failed _ seen => exact (congrArg (·.2.1.sources) seen).symm.trans hpoll
  | looked _ seen => exact (congrArg (·.2.1.sources) seen).symm.trans hpoll
  | dispatched _ chosen => exact (congrArg (·.2.1.sources) chosen).symm.trans hdispatch
  | idle _ chosen => exact (congrArg (·.2.1.sources) chosen).symm.trans hdispatch
  | @slept m w _ seen =>
    have hm : m.sources = s.scheduler.sources :=
      (congrArg (·.2.1.sources) seen).symm.trans hpoll
    obtain ⟨event, rest, -, hsleep⟩ | ⟨-, hsleep⟩ := s.sleep_cases m w <;>
      exact hsleep ▸ hm
  | found _ seen => exact (congrArg (·.2.1.sources) seen).symm.trans hpoll
  | ended => rfl

/-- After every move the notes agree about the dispatches up to then. -/
theorem inStep (h : Moves ops s t) {history : List Nat}
    (hs : s.scheduler.InStep (history ++ s.stage.dispatched)) :
    t.scheduler.InStep (history ++ t.stage.dispatched) := by
  have hpoll := hs.poll ops s.world
  have hdispatch := hs.dispatchNext ops s.world
  cases h with
  | @failed failure m w stage seen =>
    rw [seen] at hpoll
    have hnone : s.stage.dispatched = [] := by
      obtain stage | stage := stage <;> rw [stage] <;> rfl
    rw [hnone] at hpoll
    exact hpoll.report failure
  | looked stage seen =>
    rw [seen, stage] at hpoll
    exact hpoll
  | dispatched stage chosen =>
    rw [chosen, stage, Stage.dispatched, List.append_nil] at hdispatch
    exact hdispatch
  | idle stage chosen =>
    rw [chosen, stage, Stage.dispatched, List.append_nil] at hdispatch
    exact hdispatch
  | @slept m w stage seen =>
    rw [seen, stage] at hpoll
    obtain ⟨event, rest, -, hsleep⟩ | ⟨-, hsleep⟩ := s.sleep_cases m w <;> rw [hsleep]
    · exact hpoll
    · exact hpoll.stats _ rfl
  | found stage seen =>
    rw [seen, stage] at hpoll
    exact hpoll
  | ended => exact hs

end Moves

theorem sources_after (ops : SourceOps ι σ) (s : Underway ι σ) (n : Nat) :
    ((move ops)^[n] s).scheduler.sources = s.scheduler.sources :=
  Function.Iterate.rec (fun u : Underway ι σ => u.scheduler.sources = s.scheduler.sources)
    rfl (fun u hu => (moves ops u).sources.trans hu) n

theorem inStep_after (ops : SourceOps ι σ) {history : List Nat}
    (h : s.scheduler.InStep (history ++ s.stage.dispatched)) (n : Nat) :
    ((move ops)^[n] s).scheduler.InStep (history ++ ((move ops)^[n] s).stage.dispatched) :=
  Function.Iterate.rec
    (fun u : Underway ι σ => u.scheduler.InStep (history ++ u.stage.dispatched))
    h (fun u hu => (moves ops u).inStep hu) n

end Underway

/-! ## Looks that start from an empty working set -/

namespace Multiplexer

/-- A key is that of a source that has data after a pass over sources numbered from `id`. -/
def Pass.Vouches (ops : SourceOps ι σ) (id : Nat) (p : Pass ι σ) (k : ReadyKey) : Prop :=
  ∃ i r, p.registrations[i]? = some r ∧ k.id = id + i ∧ ops.hasData r.source p.world = true

theorem Pass.Vouches.cons {id : Nat} {p : Pass ι σ} {k : ReadyKey}
    (h : p.Vouches ops (id + 1) k) (r : Registration ι) : (p.cons r).Vouches ops id k := by
  obtain ⟨i, x, hx, hk, hdata⟩ := h
  exact ⟨i + 1, x, hx, by omega, hdata⟩

/-- Who joins the working set in a pass that no source ended has data at its end. -/
theorem passOver_vouches (hown : OwnData ops) (id : Nat) {todo : List (Registration ι)}
    (set : List ReadyKey) (w : σ) (hd : (todo.map (·.source)).Nodup)
    (hf : (passOver ops id todo set w).failure = none) {k : ReadyKey}
    (hk : k ∈ (passOver ops id todo set w).workingSet) :
    k ∈ set ∨ (passOver ops id todo set w).Vouches ops id k := by
  induction todo generalizing id set w with
  | nil => exact Or.inl hk
  | cons r rest ih =>
    obtain ⟨hnew, hd'⟩ := List.nodup_cons.mp hd
    rcases poll_cases ops r w with hc | ⟨e, w', hc, hp⟩ | ⟨reading, w', hc, hp, hread⟩
    · rw [passOver_closed id hc] at hf hk ⊢
      exact (ih (id + 1) set w hd' hf hk).imp_right fun h => h.cons r
    · rw [passOver_failed id hc rest set hp] at hf
      cases hf
    · rw [passOver_read id hc rest set hp hread] at hf hk ⊢
      split at hf
      · rename_i hjoin
        rw [if_pos hjoin] at hk ⊢
        rcases ih (id + 1) _ w' hd' hf hk with hin | hvouched
        · rcases ReadyKey.mem_insert.mp hin with rfl | hin
          · -- The polls that come after that of this source leave its data alone.
            have hkeep := hasData_passOver (hown.owns r.source) (id + 1) rest
              ((r.key id).insert set) w' fun s hs he => hnew (List.mem_map.mpr ⟨s, hs, he⟩)
            rw [Bool.and_eq_true] at hjoin
            exact Or.inr ⟨0, { r with ready := true }, rfl, rfl, hkeep.trans hjoin.2⟩
          · exact Or.inl hin
        · exact Or.inr (hvouched.cons _)
      · rename_i hstay
        rw [if_neg hstay] at hk ⊢
        exact (ih (id + 1) set w' hd' hf hk).imp_right fun h => h.cons r

variable {m m' : Multiplexer ι} {w w' : σ}

/-- If a look fills an empty working set, there is somebody to dispatch. -/
theorem dispatch_after_look (hown : OwnData ops) (hd : m.sources.Nodup)
    (hempty : m.workingSet = []) (hlook : poll ops m w = (none, m', w'))
    (hfilled : m'.workingSet ≠ []) : ∃ id, (dispatchNext ops m' w').1 = some id := by
  have hf : (passOver ops 0 m.registrations m.workingSet w).failure = none :=
    congrArg Prod.fst hlook
  have hm : (poll ops m w).2.1 = m' := congrArg (·.2.1) hlook
  have hw : (poll ops m w).2.2 = w' := congrArg (·.2.2) hlook
  subst hm hw
  obtain ⟨k, rest, hset⟩ := List.exists_cons_of_ne_nil hfilled
  have hin : k ∈ (poll ops m w).2.1.workingSet := hset ▸ List.mem_cons_self
  rcases passOver_vouches hown 0 m.workingSet w hd hf hin with hin | ⟨i, r, hr, hk, hdata⟩
  · rw [hempty] at hin
    cases hin
  · have hkey : (poll ops m w).2.1.registrations[k.id]? = some r := by
      rw [hk, Nat.zero_add]
      exact hr
    have hdata : ops.hasData r.source (poll ops m w).2.2 = true := hdata
    refine ⟨k.id, ?_⟩
    rw [dispatchNext, hset, dispatchFrom_data rest hkey hdata]

theorem workingSet_of_none_from {set : List ReadyKey}
    (h : (dispatchFrom ops set m w).1 = none) :
    (dispatchFrom ops set m w).2.1.workingSet = [] := by
  induction set generalizing m with
  | nil => rfl
  | cons k rest ih =>
    rw [dispatchFrom] at h ⊢
    cases hr : m.registrations[k.id]? with
    | none =>
      rw [hr] at h
      exact ih h
    | some r =>
      rw [hr] at h
      dsimp only at h ⊢
      split at h
      · cases h
      · rename_i hdata
        rw [if_neg hdata]
        exact ih h

/-- Going through the working set without finding anybody empties it. -/
theorem workingSet_of_none (h : (dispatchNext ops m w).1 = none) :
    (dispatchNext ops m w).2.1.workingSet = [] :=
  workingSet_of_none_from h

/-- Nobody is dispatched from an empty working set, and nothing changes. -/
theorem dispatchNext_nil (ops : SourceOps ι σ) (h : m.workingSet = []) (w : σ) :
    dispatchNext ops m w = (none, m, w) := by
  rw [dispatchNext, h, dispatchFrom, ← h]

end Multiplexer

namespace Underway

variable {s t : Underway ι σ}

/-! ## Selections that do not spin -/

/-- A selection goes through the working set once before it waits, and again only if its last look
has found somebody to dispatch. -/
structure Steady (ops : SourceOps ι σ) (s : Underway ι σ) : Prop where
  distinct : s.scheduler.sources.Nodup
  look : s.stage = .look → s.rounds = 0
  choose : s.stage = .choose → s.rounds = 0 ∨
    s.rounds = 1 ∧ ∃ id, (Multiplexer.dispatchNext ops s.scheduler s.world).1 = some id
  wait : s.stage = .wait → s.rounds = 1 ∧ s.scheduler.workingSet = []
  rounds : s.rounds ≤ 2

theorem Steady.begin {m : Multiplexer ι} (h : m.sources.Nodup) (events : List (σ → σ)) (w : σ) :
    (begin events m w).Steady ops where
  distinct := h
  look _ := rfl
  choose hstage := nomatch hstage
  wait hstage := nomatch hstage
  rounds := Nat.zero_le _

/-- Only the first time it may find nobody. -/
theorem Steady.first (h : s.Steady ops) (hchoose : s.stage = .choose) {m : Multiplexer ι} {w : σ}
    (hnone : Multiplexer.dispatchNext ops s.scheduler s.world = (none, m, w)) : s.rounds = 0 := by
  rcases h.choose hchoose with hfirst | ⟨-, id, hid⟩
  · exact hfirst
  · rw [hnone] at hid
    cases hid

theorem Moves.steady (hown : OwnData ops) (h : Moves ops s t) (hs : s.Steady ops) :
    t.Steady ops := by
  have hdistinct : t.scheduler.sources.Nodup := h.sources ▸ hs.distinct
  cases h with
  | failed => exact ⟨hdistinct, nofun, nofun, nofun, hs.rounds⟩
  | looked stage => exact ⟨hdistinct, nofun, fun _ => Or.inl (hs.look stage), nofun, hs.rounds⟩
  | dispatched stage =>
    refine ⟨hdistinct, nofun, nofun, nofun, ?_⟩
    have := hs.choose stage
    dsimp only
    omega
  | idle stage chosen =>
    have hfirst := hs.first stage chosen
    have hempty := Multiplexer.workingSet_of_none (congrArg Prod.fst chosen)
    rw [chosen] at hempty
    refine ⟨hdistinct, nofun, nofun, fun _ => ⟨congrArg (· + 1) hfirst, hempty⟩, ?_⟩
    dsimp only
    omega
  | @slept m w stage seen empty =>
    obtain ⟨event, rest, -, hsleep⟩ | ⟨-, hsleep⟩ := s.sleep_cases m w <;>
      rw [hsleep] at hdistinct ⊢
    · exact ⟨hdistinct, nofun, nofun, fun _ => ⟨(hs.wait stage).1, empty⟩, hs.rounds⟩
    · exact ⟨hdistinct, nofun, nofun, nofun, hs.rounds⟩
  | found stage seen filled =>
    obtain ⟨honce, hempty⟩ := hs.wait stage
    have hsome := Multiplexer.dispatch_after_look hown hs.distinct hempty seen filled
    exact ⟨hdistinct, nofun, fun _ => Or.inr ⟨honce, hsome⟩, nofun, hs.rounds⟩
  | ended => exact hs

theorem Steady.after (hown : OwnData ops) (h : s.Steady ops) (n : Nat) :
    ((move ops)^[n] s).Steady ops :=
  Function.Iterate.rec (fun u : Underway ι σ => u.Steady ops)
    h (fun u hu => (moves ops u).steady hown hu) n

/-- If a look in a wait sends the selection back to the working set, there is somebody to
dispatch. -/
theorem Moves.found_somebody (hown : OwnData ops) (h : Moves ops s t) (hs : s.Steady ops)
    (hwait : s.stage = .wait) (hchoose : t.stage = .choose) :
    ∃ id, (Multiplexer.dispatchNext ops t.scheduler t.world).1 = some id := by
  cases h with
  | failed => cases hchoose
  | looked stage => cases hwait.symm.trans stage
  | dispatched => cases hchoose
  | idle => cases hchoose
  | @slept m w =>
    obtain ⟨event, rest, -, hsleep⟩ | ⟨-, hsleep⟩ := s.sleep_cases m w <;>
      rw [hsleep] at hchoose <;> cases hchoose
  | found _ seen filled =>
    exact Multiplexer.dispatch_after_look hown hs.distinct (hs.wait hwait).2 seen filled
  | ended => cases hwait.symm.trans hchoose

theorem move_of_chosen (hchoose : s.stage = .choose) {id : Nat}
    (hid : (Multiplexer.dispatchNext ops s.scheduler s.world).1 = some id) :
    (s.move ops).stage = .done (.ready id) := by
  rw [move, hchoose]
  rcases hd : Multiplexer.dispatchNext ops s.scheduler s.world with ⟨chosen, m, w⟩
  rw [hd] at hid
  cases hid
  rfl

/-! ## How long it takes -/

/-- How many moves are left at most. -/
def movesLeft (s : Underway ι σ) : Nat :=
  match s.stage with
  | .look => s.events.length + 4
  | .choose => if s.rounds = 0 then s.events.length + 3 else 1
  | .wait => s.events.length + 2
  | .done _ => 0

theorem Moves.movesLeft_lt (h : Moves ops s t) (hs : s.Steady ops) :
    (∃ outcome, s.stage = .done outcome) ∨ t.movesLeft < s.movesLeft := by
  cases h with
  | failed stage =>
    right
    obtain stage | stage := stage <;> simp [movesLeft, stage, fail, arrive]
  | looked stage =>
    right
    simp [movesLeft, stage, arrive, hs.look stage]
  | dispatched stage =>
    right
    simp only [movesLeft, stage, arrive]
    split <;> omega
  | idle stage chosen =>
    right
    have hfirst := hs.first stage chosen
    simp [movesLeft, stage, arrive, hfirst]
  | @slept m w stage =>
    right
    obtain ⟨event, rest, hevents, hsleep⟩ | ⟨-, hsleep⟩ := s.sleep_cases m w <;>
      rw [hsleep]
    · simp [movesLeft, stage, arrive, hevents]
    · simp [movesLeft, stage, arrive]
  | found stage =>
    right
    simp [movesLeft, stage, arrive, (hs.wait stage).1]
  | ended stage => exact Or.inl ⟨_, stage⟩

theorem Steady.movesLeft_after (hown : OwnData ops) (h : s.Steady ops) (n : Nat) :
    ((move ops)^[n] s).movesLeft ≤ s.movesLeft - n := by
  induction n with
  | zero => exact Nat.le_refl _
  | succ n ih =>
    rw [Function.iterate_succ_apply']
    rcases (moves ops _).movesLeft_lt (h.after hown n) with ⟨outcome, hdone⟩ | hlt
    · have hstays : (move ops ((move ops)^[n] s)).movesLeft = 0 := by
        rw [move, hdone]
        simp [movesLeft, hdone]
      omega
    · omega

/-! ## What it comes to -/

/-- The result of a selection that is done. -/
def result? (s : Underway ι σ) : Option (Selection × Multiplexer ι × σ) :=
  match s.stage with
  | .done outcome => some (outcome, s.scheduler, s.world)
  | _ => none

/-- Wait, and find at the end that nothing has come. -/
def waitOut (ops : SourceOps ι σ) (events : List (σ → σ)) (m : Multiplexer ι) (w : σ) :
    Selection × Multiplexer ι × σ :=
  match Multiplexer.await ops events m w with
  | (some outcome, m, w) => (outcome, m, w)
  | (none, m, w) => (.timeout, m.timedOut, w)

theorem waitOut_eq (ops : SourceOps ι σ) (events : List (σ → σ)) (m : Multiplexer ι) (w : σ) :
    waitOut ops events m w =
      match Multiplexer.poll ops m w with
      | (some failure, m, w) => (.failed failure.1 failure.2, (m.report failure).2, w)
      | (none, m, w) =>
        match Multiplexer.dispatchNext ops m w, events with
        | (some id, m, w), _ => (.ready id, m, w)
        | (none, m, w), event :: rest => waitOut ops rest m (event w)
        | (none, m, w), [] => (.timeout, m.timedOut, w) := by
  rw [waitOut, Multiplexer.await.eq_def]
  dsimp only
  rcases Multiplexer.poll ops m w with ⟨failure, m', w'⟩
  cases failure with
  | some failure => rfl
  | none =>
    rcases hd : Multiplexer.dispatchNext ops m' w' with ⟨chosen, m'', w''⟩
    cases chosen with
    | some id => simp only [hd]
    | none => cases events <;> simp only [hd, waitOut]

/-- Dispatch, or wait if there is nobody. -/
def chooseOrWait (ops : SourceOps ι σ) (events : List (σ → σ)) (m : Multiplexer ι) (w : σ) :
    Selection × Multiplexer ι × σ :=
  match Multiplexer.dispatchNext ops m w with
  | (some id, m, w) => (.ready id, m, w)
  | (none, m, w) => waitOut ops events m w

/-- What the rest of a selection comes to. -/
def comesTo (ops : SourceOps ι σ) (s : Underway ι σ) : Selection × Multiplexer ι × σ :=
  match s.stage with
  | .look =>
    match Multiplexer.poll ops s.scheduler s.world with
    | (some failure, m, w) => (.failed failure.1 failure.2, (m.report failure).2, w)
    | (none, m, w) => chooseOrWait ops s.events m w
  | .choose => chooseOrWait ops s.events s.scheduler s.world
  | .wait => waitOut ops s.events s.scheduler s.world
  | .done outcome => (outcome, s.scheduler, s.world)

theorem comesTo_begin (ops : SourceOps ι σ) (events : List (σ → σ)) (m : Multiplexer ι) (w : σ) :
    (begin events m w).comesTo ops = Multiplexer.select ops (fun _ _ => events) m w := by
  rw [Multiplexer.select, Multiplexer.attempt]
  simp only [begin, comesTo]
  rcases Multiplexer.poll ops _ w with ⟨failure, m', w'⟩
  cases failure with
  | some failure => rfl
  | none =>
    simp only [chooseOrWait]
    rcases Multiplexer.dispatchNext ops m' w' with ⟨chosen, m'', w''⟩
    cases chosen <;> rfl

theorem Moves.comesTo (hown : OwnData ops) (h : Moves ops s t) (hs : s.Steady ops) :
    t.comesTo ops = s.comesTo ops := by
  cases h with
  | @failed failure m w stage seen =>
    obtain stage | stage := stage
    · simp only [Underway.comesTo, stage, seen, fail, arrive]
    · simp only [Underway.comesTo, stage, waitOut_eq, seen, fail, arrive]
  | looked stage seen => simp only [Underway.comesTo, stage, seen, arrive]
  | dispatched stage chosen =>
    simp only [Underway.comesTo, stage, chooseOrWait, chosen, arrive]
  | idle stage chosen => simp only [Underway.comesTo, stage, chooseOrWait, chosen, arrive]
  | @slept m w stage seen empty =>
    have hnone := Multiplexer.dispatchNext_nil ops empty w
    obtain ⟨event, rest, hevents, hsleep⟩ | ⟨hevents, hsleep⟩ := s.sleep_cases m w <;>
      simp only [hsleep, Underway.comesTo, stage, arrive] <;>
      rw [waitOut_eq ops s.events, seen, hevents] <;> simp only [hnone]
  | @found m w stage seen filled =>
    obtain ⟨id, hid⟩ :=
      Multiplexer.dispatch_after_look hown hs.distinct (hs.wait stage).2 seen filled
    rcases hd : Multiplexer.dispatchNext ops m w with ⟨chosen, m', w'⟩
    rw [hd] at hid
    cases hid
    simp only [Underway.comesTo, stage, arrive, chooseOrWait, waitOut_eq, seen, hd]
  | ended => rfl

theorem Steady.comesTo_after (hown : OwnData ops) (h : s.Steady ops) (n : Nat) :
    ((move ops)^[n] s).comesTo ops = s.comesTo ops := by
  induction n with
  | zero => rfl
  | succ n ih =>
    rw [Function.iterate_succ_apply', (moves ops _).comesTo hown (h.after hown n), ih]

/-- With no moves left a selection is done, and has come to what it was to come to. -/
theorem result_of_movesLeft (h : s.movesLeft = 0) : s.result? = some (s.comesTo ops) := by
  unfold movesLeft at h
  cases hstage : s.stage with
  | done outcome => simp only [result?, comesTo, hstage]
  | look => simp [hstage] at h
  | wait => simp [hstage] at h
  | choose =>
    rw [hstage] at h
    dsimp only at h
    split at h <;> omega

end Underway

/-! ## Runs -/

/-- What happens to a multiplexer whose sources are numbered in the order of registration. -/
inductive MultiplexerAct (σ : Type) where
  | add (priority : Int)
  /-- A selection; `events` tells what happens while it waits. -/
  | select (events : Multiplexer Nat → σ → List (σ → σ))
  /-- A selection that is given up after so many moves, if it is not done by then. -/
  | giveUp (events : List (σ → σ)) (moves : Nat)
  /-- Others change the sources. -/
  | change (f : σ → σ)

/-- A multiplexer, the world of its sources, and whom it has dispatched so far. -/
structure MultiplexerRun (σ : Type) where
  scheduler : Multiplexer Nat := {}
  world : σ
  dispatched : List Nat := []

namespace MultiplexerRun

variable {r : MultiplexerRun σ}

def act (ops : SourceOps Nat σ) (r : MultiplexerRun σ) : MultiplexerAct σ → MultiplexerRun σ
  | .add priority =>
    { r with scheduler := (r.scheduler.add r.scheduler.registrations.length priority).2 }
  | .select events =>
    let (outcome, scheduler, world) := r.scheduler.select ops events r.world
    { scheduler, world, dispatched := r.dispatched ++ dispatchedBy (some outcome) }
  | .giveUp events moves =>
    let s := (Underway.move ops)^[moves] (.begin events r.scheduler r.world)
    { scheduler := s.scheduler, world := s.world,
      dispatched := r.dispatched ++ s.stage.dispatched }
  | .change f => { r with world := f r.world }

def run (ops : SourceOps Nat σ) (acts : List (MultiplexerAct σ)) (world : σ) : MultiplexerRun σ :=
  acts.foldl (act ops) { world }

/-- The notes agree, and every source has the number of its registration. -/
structure Kept (r : MultiplexerRun σ) : Prop where
  inStep : r.scheduler.InStep r.dispatched
  numbered : r.scheduler.sources = List.range r.scheduler.sources.length

theorem Kept.distinct (h : r.Kept) : r.scheduler.sources.Nodup :=
  h.numbered ▸ List.nodup_range

theorem Kept.act (h : r.Kept) (ops : SourceOps Nat σ) (a : MultiplexerAct σ) :
    (r.act ops a).Kept := by
  cases a with
  | add priority =>
    refine ⟨h.inStep.add _ priority, ?_⟩
    have hnumbered := h.numbered
    simp only [Multiplexer.sources, List.length_map] at hnumbered
    simp [MultiplexerRun.act, Multiplexer.add, Multiplexer.sources, List.range_succ,
      ← hnumbered]
  | select events =>
    have hsources : (r.scheduler.select ops events r.world).2.1.sources = r.scheduler.sources :=
      (Multiplexer.enters_select ops events r.scheduler r.world).sources
    refine ⟨h.inStep.select ops events r.world, ?_⟩
    simp only [MultiplexerRun.act, hsources]
    exact h.numbered
  | giveUp events moves =>
    have hbegun : (Underway.begin events r.scheduler r.world).scheduler.InStep
        (r.dispatched ++ Stage.look.dispatched) :=
      (List.append_nil r.dispatched).symm ▸ h.inStep.stats _ rfl
    have hsources := Underway.sources_after ops (.begin events r.scheduler r.world) moves
    refine ⟨Underway.inStep_after ops hbegun moves, ?_⟩
    simp only [MultiplexerRun.act, hsources]
    exact h.numbered
  | change f => exact ⟨h.inStep, h.numbered⟩

theorem kept_run (ops : SourceOps Nat σ) (acts : List (MultiplexerAct σ)) (world : σ) :
    (run ops acts world).Kept := by
  have hstart : Kept { world } := ⟨Multiplexer.InStep.new, rfl⟩
  have hall : ∀ r : MultiplexerRun σ, r.Kept → (acts.foldl (act ops) r).Kept := by
    induction acts with
    | nil => exact fun r h => h
    | cons a rest ih => exact fun r h => ih (r.act ops a) (h.act ops a)
  exact hall _ hstart

/-- Whatever has happened: the working set has the present keys of the ready sources and nothing
else, no closed source is ready, the stamps of sources that were ever dispatched differ and are not
ahead of the clock, and the clock counts the dispatches. As long as no poll of a source decides
about the data of another one, the next selection goes through the working set at most twice. A
look in its wait that finds somebody is followed by a dispatch, and after at most four moves and
one more for each event it is done and has come to what `select` answers. -/
theorem working_set_is_in_order (ops : SourceOps Nat σ) (acts : List (MultiplexerAct σ))
    (world : σ) :
    let r := run ops acts world
    r.scheduler.InOrder ∧ r.scheduler.clock = r.dispatched.length ∧
    (OwnData ops → ∀ events : List (σ → σ),
      let moves n := (Underway.move ops)^[n] (.begin events r.scheduler r.world)
      (∀ n, (moves n).rounds ≤ 2) ∧
      (∀ n, (moves n).stage = .wait → (moves (n + 1)).stage = .choose →
        ∃ id, (moves (n + 2)).stage = .done (.ready id)) ∧
      ∀ n, events.length + 4 ≤ n →
        (moves n).result? = some (r.scheduler.select ops (fun _ _ => events) r.world)) := by
  intro r
  have hkept : r.Kept := kept_run ops acts world
  refine ⟨hkept.inStep.inOrder, hkept.inStep.dated.clock, ?_⟩
  intro hown events moves
  have hbegun : (Underway.begin events r.scheduler r.world).Steady ops :=
    .begin hkept.distinct events r.world
  have hsteady : ∀ n, (moves n).Steady ops := hbegun.after hown
  have hnext : ∀ n, moves (n + 1) = (moves n).move ops := fun n =>
    Function.iterate_succ_apply' _ n _
  refine ⟨fun n => (hsteady n).rounds, ?_, ?_⟩
  · intro n hwait hchoose
    rw [hnext] at hchoose
    obtain ⟨id, hid⟩ := ((moves n).moves ops).found_somebody hown (hsteady n) hwait hchoose
    exact ⟨id, by rw [hnext, hnext, Underway.move_of_chosen hchoose hid]⟩
  · intro n hn
    have hleft : (moves n).movesLeft ≤ events.length + 4 - n := hbegun.movesLeft_after hown n
    rw [Underway.result_of_movesLeft (by omega), hbegun.comesTo_after hown,
      Underway.comesTo_begin]

end MultiplexerRun

end ControlBus
