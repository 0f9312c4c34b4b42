-- Who is dispatched when: as long as no poll of a source gives another one data or takes it, every
-- dispatch goes to the source with data that is first by priority and then by the time of its last
-- dispatch. So nobody of a lower priority goes before it, and among equals nobody goes twice while
-- another one waits.
import ControlBus.Proofs.SchedulerRuns
import Mathlib.Data.List.Nodup
import Mathlib.Data.List.Perm.Subperm

namespace ControlBus

/-! ## Times of dispatches -/

/-- In a history of dispatches a number occurs last at this time, counted from one; at time zero
if it never occurs. -/
def LastAt (history : List Nat) (i time : Nat) : Prop :=
  (time = 0 ∧ i ∉ history) ∨
    ∃ before after, history = before ++ i :: after ∧ i ∉ after ∧ time = before.length + 1

namespace LastAt

variable {history : List Nat} {i j time other : Nat}

theorem never (h : i ∉ history) : LastAt history i 0 := Or.inl ⟨rfl, h⟩

theorem now (history : List Nat) (i : Nat) : LastAt (history ++ [i]) i (history.length + 1) :=
  Or.inr ⟨history, [], rfl, by simp, rfl⟩

theorem earlier (h : LastAt history i time) (hij : i ≠ j) : LastAt (history ++ [j]) i time := by
  rcases h with ⟨h0, hnot⟩ | ⟨before, after, rfl, hafter, ht⟩
  · exact Or.inl ⟨h0, by simp [hnot, hij]⟩
  · exact Or.inr ⟨before, after ++ [j], by simp, by simp [hafter, hij], ht⟩

/-- Whoever goes last at a later time than somebody who went at a given place of the history
went after that place. -/
theorem mem_after {before after : List Nat} (h : LastAt (before ++ j :: after) i time)
    (hij : i ≠ j) (ht : before.length + 1 ≤ time) : i ∈ after := by
  rcases h with ⟨rfl, -⟩ | ⟨before', after', heq, -, rfl⟩
  · omega
  · have hget : (before ++ j :: after)[before'.length]? = some i := by rw [heq]; simp
    rw [List.getElem?_append_right (by omega)] at hget
    cases hk : before'.length - before.length with
    | zero =>
      rw [hk, List.getElem?_cons_zero] at hget
      exact absurd (Option.some.inj hget).symm hij
    | succ k =>
      rw [hk, List.getElem?_cons_succ] at hget
      exact List.mem_of_getElem? hget

/-- The last time is at least as late as any other. -/
theorem le_of_split {before after : List Nat} (h : LastAt (before ++ i :: after) i time) :
    before.length + 1 ≤ time := by
  rcases h with ⟨-, hnot⟩ | ⟨before', after', heq, hafter, rfl⟩
  · simp at hnot
  · refine Nat.le_of_not_lt fun hlt => hafter ?_
    have hsplit := congrArg (List.drop (before'.length + 1)) heq
    have hdrop : (before' ++ i :: after').drop (before'.length + 1) = after' := by simp
    rw [hdrop, List.drop_append_of_le_length (by omega)] at hsplit
    rw [← hsplit]
    simp

end LastAt

/-! ## The best source goes first -/

namespace PlainScheduler

variable {ι σ : Type} {ops : SourceOps ι σ}

/-- The best source is the first one or the best of the others, and it goes before the one that
it is not. -/
theorem best_cons {w : σ} {id j : Nat} {a s : PlainSource ι} {rest : List (PlainSource ι)}
    (h : best ops w id (a :: rest) = some (j, s)) :
    ((id, a) = (j, s) ∧ ∀ j' s', best ops w (id + 1) rest = some (j', s') →
      (key a id).before (key s' j') = true) ∨
    (best ops w (id + 1) rest = some (j, s) ∧
      (a.eligible ops w = true → (key s j).before (key a id) = true)) := by
  rw [best] at h
  split at h
  · split at h
    · rename_i j' s' hb
      obtain ⟨i, hlater, -, -⟩ := best_mem hb
      split at h
      · rename_i hout
        right
        cases h
        exact ⟨hb, fun _ => (before_iff_outranks (by omega)).mpr hout⟩
      · rename_i hout
        left
        refine ⟨Option.some.inj h, ?_⟩
        intro j'' s'' hb'
        cases hb.symm.trans hb'
        exact (before_iff_not_outranks (by omega)).mpr (eq_false_of_ne_true hout)
    · rename_i hb
      left
      refine ⟨Option.some.inj h, ?_⟩
      intro j' s' hb'
      cases hb.symm.trans hb'
  · rename_i hidle
    right
    exact ⟨h, fun he => absurd he hidle⟩

/-- The keys of all other eligible sources come after that of the best one. -/
theorem best_first {w : σ} {sources : List (PlainSource ι)} {id j : Nat} {s : PlainSource ι}
    (h : best ops w id sources = some (j, s)) {i : Nat} {r : PlainSource ι}
    (hr : sources[i]? = some r) (he : r.eligible ops w = true) (hne : id + i ≠ j) :
    (key s j).before (key r (id + i)) = true := by
  induction sources generalizing id j s i r with
  | nil => cases hr
  | cons a rest ih =>
    rcases best_cons h with ⟨heq, hhead⟩ | ⟨hb, hhead⟩
    · cases heq
      cases i with
      | zero => exact absurd rfl hne
      | succ i =>
        rw [List.getElem?_cons_succ] at hr
        rw [show id + (i + 1) = id + 1 + i by omega]
        cases hb : best ops w (id + 1) rest with
        | none =>
          have hnone := (best_eq_none_iff (id + 1)).mp hb r (List.mem_of_getElem? hr)
          rw [he] at hnone
          cases hnone
        | some found =>
          -- The head goes before the best of the rest, which is this source or goes before it.
          obtain ⟨j, s⟩ := found
          by_cases hij : id + 1 + i = j
          · obtain ⟨k, hk, hs, -⟩ := best_mem hb
            obtain rfl : k = i := by omega
            cases hr.symm.trans hs
            rw [hij]
            exact hhead j r hb
          · exact ReadyKey.before_trans (hhead j s hb) (ih hb hr he hij)
    · cases i with
      | zero =>
        cases hr
        exact hhead he
      | succ i =>
        rw [List.getElem?_cons_succ] at hr
        rw [show id + (i + 1) = id + 1 + i by omega] at hne ⊢
        exact ih hb hr he hne

/-! ## What passes and turns do to the times -/

theorem passOver_stamps (ops : SourceOps ι σ) (id : Nat) (todo : List (PlainSource ι)) (w : σ) :
    (passOver ops id todo w).1.map (·.stamp) = todo.map (·.stamp) := by
  induction todo generalizing id w with
  | nil => rfl
  | cons r rest ih =>
    cases hc : r.closed with
    | true => simp [passOver, hc, ih]
    | false =>
      rcases hp : ops.poll r.source w with ⟨reading, w'⟩
      cases reading with
      | failed e => simp [passOver, hc, hp]
      | pending => simp [passOver, hc, hp, ih]
      | units n => simp [passOver, hc, hp, ih]

/-- The scheduler after a pass, and the world that the pass leaves. -/
def look (ops : SourceOps ι σ) (p : PlainScheduler ι) (w : σ) : PlainScheduler ι × σ :=
  ({ p with sources := (passOver ops 0 p.sources w).1 }, (passOver ops 0 p.sources w).2.2)

/-- A turn either leaves all as its pass has left it, or it dispatches the best source. -/
theorem turn_cases (ops : SourceOps ι σ) (p : PlainScheduler ι) (w : σ) :
    ((∀ id, (p.turn ops w).1 ≠ some (.ready id)) ∧ (p.turn ops w).2.1 = (p.look ops w).1) ∨
      ∃ id r, (p.turn ops w).1 = some (.ready id) ∧
        best ops (p.look ops w).2 0 (p.look ops w).1.sources = some (id, r) ∧
        (p.turn ops w).2.1 =
          { sources := (p.look ops w).1.sources.set id { r with stamp := p.clock + 1 }
            clock := p.clock + 1 } := by
  unfold turn look
  rcases passOver ops 0 p.sources w with ⟨sources, failure, v⟩
  cases failure with
  | some failure => exact Or.inl ⟨by simp, rfl⟩
  | none =>
    simp only [dispatch]
    cases hb : best ops v 0 sources with
    | none => exact Or.inl ⟨by simp, rfl⟩
    | some found => exact Or.inr ⟨found.1, found.2, rfl, rfl, rfl⟩

/-- The scheduler knows of every source when it was dispatched last. -/
structure Dated (history : List Nat) (p : PlainScheduler ι) : Prop where
  clock : p.clock = history.length
  known : ∀ i ∈ history, i < p.sources.length
  stamps : ∀ i time, (p.sources.map (·.stamp))[i]? = some time → LastAt history i time

variable {history : List Nat} {p : PlainScheduler ι}

theorem Dated.look (h : p.Dated history) (w : σ) : (p.look ops w).1.Dated history := by
  have hstamps := passOver_stamps ops 0 p.sources w
  have hlength := congrArg List.length hstamps
  rw [List.length_map, List.length_map] at hlength
  exact ⟨h.clock, fun i hi => hlength.symm ▸ h.known i hi,
    fun i time ht => h.stamps i time (hstamps ▸ ht)⟩

/-- A source that joins has never been dispatched. -/
theorem Dated.join (h : p.Dated history) {r : PlainSource ι} (hr : r.stamp = 0) :
    Dated history { p with sources := p.sources ++ [r] } where
  clock := h.clock
  known i hi := by
    have hlt := h.known i hi
    rw [List.length_append]
    omega
  stamps i time ht := by
    rw [List.map_append, List.getElem?_append] at ht
    split at ht
    · exact h.stamps i time ht
    · rename_i hi
      obtain rfl : time = 0 := by simpa [hr] using List.mem_of_getElem? ht
      rw [List.length_map] at hi
      exact LastAt.never fun hin => hi (h.known i hin)

theorem Dated.dispatch (h : p.Dated history) {i : Nat} {r : PlainSource ι}
    (hr : p.sources[i]? = some r) :
    Dated (history ++ [i])
      { sources := p.sources.set i { r with stamp := p.clock + 1 }, clock := p.clock + 1 } where
  clock := by simp [h.clock]
  known j hj := by
    rw [List.length_set]
    rcases List.mem_append.mp hj with hj | hj
    · exact h.known j hj
    · rw [List.mem_singleton.mp hj]
      exact (List.getElem?_eq_some_iff.mp hr).1
  stamps j time hj := by
    rw [List.map_set, List.getElem?_set] at hj
    split at hj
    · rename_i hij
      subst hij
      split at hj
      · cases hj
        rw [h.clock]
        exact LastAt.now history i
      · cases hj
    · rename_i hij
      exact (h.stamps j time hj).earlier (Ne.symm hij)

end PlainScheduler

/-! ## What a selection sees when it decides -/

/-- The source that a selection dispatched, if it dispatched one. -/
def Selection.dispatched? : Selection → Option Nat
  | .ready id => some id
  | _ => none

/-- A dispatch, and what the multiplexer saw when it decided on it. -/
structure Dispatch (ι σ : Type) where
  id : Nat
  sources : List (Registration ι)
  world : σ

namespace Dispatch

variable {ι σ : Type}

/-- Source `i` is open, has this priority and has data. -/
def Offers (ops : SourceOps ι σ) (d : Dispatch ι σ) (i : Nat) (priority : Int) : Prop :=
  ∃ r, d.sources[i]? = some r ∧ r.closed = false ∧ r.priority = priority ∧
    ops.hasData r.source d.world = true

instance (ops : SourceOps ι σ) (d : Dispatch ι σ) (i : Nat) (priority : Int) :
    Decidable (d.Offers ops i priority) :=
  decidable_of_iff
    (d.sources[i]?.any fun r =>
      !r.closed && r.priority == priority && ops.hasData r.source d.world)
    (by cases h : d.sources[i]? <;> simp [Offers, h, and_assoc])

/-- After these dispatches the choice fell on the source with data that comes first. -/
structure Chosen (ops : SourceOps ι σ) (history : List Nat) (d : Dispatch ι σ) : Prop where
  dated : ∀ i r, d.sources[i]? = some r → LastAt history i r.stamp
  first : ∃ r, d.sources[d.id]? = some r ∧ d.Offers ops d.id r.priority ∧
    ∀ i s, d.sources[i]? = some s → d.Offers ops i s.priority → i ≠ d.id →
      (r.key d.id).before (s.key i) = true

end Dispatch

namespace Multiplexer

variable {ι σ : Type} {ops : SourceOps ι σ}

/-- The multiplexer and the world after the last pass of a wait, when its outcome is decided. -/
def lastLookOfWait (ops : SourceOps ι σ) : List (σ → σ) → Multiplexer ι → σ → Multiplexer ι × σ
  | [], m, w => (poll ops m w).2
  | event :: rest, m, w =>
    match turn ops m w with
    | (none, m, w) => lastLookOfWait ops rest m (event w)
    | _ => (poll ops m w).2

/-- The multiplexer and the world after the last pass of a selection, when its outcome is
decided. -/
def lastLook (ops : SourceOps ι σ) (events : Multiplexer ι → σ → List (σ → σ))
    (m : Multiplexer ι) (w : σ) : Multiplexer ι × σ :=
  let m := { m with stats := { m.stats with selects := m.stats.selects + 1 } }
  match turn ops m w with
  | (none, m, w) => lastLookOfWait ops (events m w) m w
  | _ => (poll ops m w).2

/-- What was dispatched, as seen in a look. -/
def seen (look : Multiplexer ι × σ) (id : Nat) : Dispatch ι σ where
  id
  sources := look.1.registrations
  world := look.2

theorem lastLookOfWait_none {event : σ → σ} {rest : List (σ → σ)} {m m' : Multiplexer ι}
    {w w' : σ} (h : turn ops m w = (none, m', w')) :
    lastLookOfWait ops (event :: rest) m w = lastLookOfWait ops rest m' (event w') := by
  simp [lastLookOfWait, h]

theorem lastLookOfWait_some {event : σ → σ} {rest : List (σ → σ)} {m m' : Multiplexer ι}
    {w w' : σ} {outcome : Selection} (h : turn ops m w = (some outcome, m', w')) :
    lastLookOfWait ops (event :: rest) m w = (poll ops m w).2 := by
  simp [lastLookOfWait, h]

/-- A look of the multiplexer is a look of the plain scheduler. -/
theorem poll_plain (ops : SourceOps ι σ) (m : Multiplexer ι) (w : σ) :
    m.plain.look ops w = ((poll ops m w).2.1.plain, (poll ops m w).2.2) := by
  have hpass : PlainScheduler.passOver ops 0 m.plain.sources w = _ :=
    passOver_plain ops 0 m.registrations m.workingSet w
  simp only [PlainScheduler.look, hpass]
  rfl

/-- Whatever a selection or a part of it comes to, the multiplexer goes on knowing when every
source was dispatched last, and a dispatch was decided in the last look. -/
def Fair (ops : SourceOps ι σ) (history : List Nat) (outcome : Option Selection)
    (look : Multiplexer ι × σ) (m : Multiplexer ι) : Prop :=
  ((∀ id, outcome ≠ some (.ready id)) ∧ m.plain.Dated history) ∨
    ∃ id, outcome = some (.ready id) ∧ m.plain.Dated (history ++ [id]) ∧
      (seen look id).Chosen ops history

theorem offers_seen {look : Multiplexer ι × σ} {id i : Nat} {r : Registration ι}
    (hr : look.1.registrations[i]? = some r) :
    (seen look id).Offers ops i r.priority ↔ r.plain.eligible ops look.2 = true := by
  simp [Dispatch.Offers, seen, hr, PlainSource.eligible, Registration.plain]

theorem turn_fair (hown : OwnData ops) {history : List Nat} {m : Multiplexer ι} (h : m.Sound)
    (hd : m.plain.Dated history) (w : σ) :
    Fair ops history (turn ops m w).1 (poll ops m w).2 (turn ops m w).2.1 := by
  have hturn := turn_plain hown h w
  have hdated : (m.plain.look ops w).1.Dated history := hd.look w
  have hcases := PlainScheduler.turn_cases ops m.plain w
  rw [poll_plain] at hdated hcases
  rw [hturn] at hcases
  rcases hcases with ⟨hnone, hkeep⟩ | ⟨id, r, hout, hbest, hnew⟩
  · refine Or.inl ⟨hnone, ?_⟩
    rw [show (turn ops m w).2.1.plain = _ from hkeep]
    exact hdated
  · obtain ⟨i, hi, hr, he⟩ := PlainScheduler.best_mem hbest
    obtain rfl : id = i := by omega
    refine Or.inr ⟨id, hout, ?_, ?_, ?_⟩
    · rw [show (turn ops m w).2.1.plain = _ from hnew]
      exact hdated.dispatch hr
    · intro i s hs
      refine hdated.stamps i s.stamp ?_
      rw [List.getElem?_map, plain_source hs]
      rfl
    · obtain ⟨x, hx, rfl⟩ := Option.map_eq_some_iff.mp (List.getElem?_map ▸ hr)
      refine ⟨x, hx, (offers_seen hx).mpr he, fun j s hs hoffers hne => ?_⟩
      have hfirst := PlainScheduler.best_first hbest (plain_source hs)
        ((offers_seen hs).mp hoffers) (by rwa [Nat.zero_add])
      rwa [Nat.zero_add] at hfirst

theorem await_fair (hown : OwnData ops) {history : List Nat} (events : List (σ → σ))
    {m : Multiplexer ι} (h : m.Sound) (hd : m.plain.Dated history) (w : σ) :
    Fair ops history (await ops events m w).1 (lastLookOfWait ops events m w)
      (await ops events m w).2.1 := by
  induction events generalizing m w with
  | nil =>
    have hturn := turn_fair hown h hd w
    rw [await_eq, lastLookOfWait]
    rcases ht : turn ops m w with ⟨outcome, m', w'⟩
    rw [ht] at hturn
    cases outcome <;> exact hturn
  | cons event rest ih =>
    have hturn := turn_fair hown h hd w
    have hsound := turn_sound ops h w
    rw [await_eq]
    rcases ht : turn ops m w with ⟨outcome, m', w'⟩
    rw [ht] at hturn hsound
    cases outcome with
    | some outcome =>
      rw [lastLookOfWait_some ht]
      exact hturn
    | none =>
      rw [lastLookOfWait_none ht]
      obtain ⟨-, hd'⟩ | ⟨id, hid, -⟩ := hturn
      · exact ih hsound hd' (event w')
      · cases hid

theorem select_fair (hown : OwnData ops) (events : Multiplexer ι → σ → List (σ → σ))
    {history : List Nat} {m : Multiplexer ι} (h : m.Sound) (hd : m.plain.Dated history) (w : σ) :
    Fair ops history (some (select ops events m w).1) (lastLook ops events m w)
      (select ops events m w).2.1 := by
  have hcounted : Sound
      { m with stats := { m.stats with selects := m.stats.selects + 1 } } :=
    ⟨h.consistent, h.distinct⟩
  have hturn := turn_fair hown hcounted hd w
  have hsound := turn_sound ops hcounted w
  rw [select, attempt_eq, lastLook]
  dsimp only
  rcases ht : turn ops { m with stats := { m.stats with selects := m.stats.selects + 1 } } w
    with ⟨outcome, m', w'⟩
  rw [ht] at hturn hsound
  cases outcome with
  | some outcome => exact hturn
  | none =>
    obtain ⟨-, hd'⟩ | ⟨id, hid, -⟩ := hturn
    · have hawait := await_fair hown (events m' w') hsound hd' w'
      dsimp only
      rcases ha : await ops (events m' w') m' w' with ⟨outcome, m'', w''⟩
      rw [ha] at hawait
      cases outcome with
      | some outcome => exact hawait
      | none =>
        obtain ⟨-, hd''⟩ | ⟨id, hid, -⟩ := hawait
        · exact Or.inl ⟨by simp, hd''⟩
        · cases hid
    · cases hid

/-! ## The dispatches of a run -/

variable {r : SchedulerRun (Multiplexer Nat) σ} {ops : SourceOps Nat σ}

/-- The dispatch that comes of a step of a run, if one does. -/
def dispatchOf (ops : SourceOps Nat σ) (r : SchedulerRun (Multiplexer Nat) σ) :
    SchedulerAct σ → Option (Dispatch Nat σ)
  | .select events =>
    match (r.scheduler.select ops (fun m => events m.plain) r.world).1 with
    | .ready id => some (seen (r.scheduler.lastLook ops (fun m => events m.plain) r.world) id)
    | _ => none
  | _ => none

/-- All dispatches that come of some steps, oldest first. -/
def dispatches (ops : SourceOps Nat σ) :
    List (SchedulerAct σ) → SchedulerRun (Multiplexer Nat) σ → List (Dispatch Nat σ)
  | [], _ => []
  | a :: rest, r => (dispatchOf ops r a).toList ++ dispatches ops rest (act ops r a)

theorem act_fair (hown : OwnData ops) (h : r.scheduler.Sound) {history : List Nat}
    (hd : r.scheduler.plain.Dated history) (a : SchedulerAct σ) :
    (dispatchOf ops r a = none ∧ (act ops r a).scheduler.plain.Dated history) ∨
      ∃ d, dispatchOf ops r a = some d ∧ d.Chosen ops history ∧
        (act ops r a).scheduler.plain.Dated (history ++ [d.id]) := by
  cases a with
  | add priority =>
    have hjoin := hd.join (r := ⟨r.scheduler.registrations.length, priority, 0, false⟩) rfl
    refine Or.inl ⟨rfl, ?_⟩
    simp only [act, add, plain, List.map_append] at hjoin ⊢
    exact hjoin
  | select events =>
    have hfair := select_fair hown (fun m => events m.plain) h hd r.world
    rcases hs : r.scheduler.select ops (fun m => events m.plain) r.world with ⟨outcome, m, w⟩
    rw [hs] at hfair
    simp only [dispatchOf, act, hs]
    obtain ⟨hnone, hd'⟩ | ⟨id, hid, hd', hchosen⟩ := hfair
    · refine Or.inl ⟨?_, hd'⟩
      cases outcome with
      | ready id => exact absurd rfl (hnone id)
      | failed id e => rfl
      | timeout => rfl
    · cases hid
      exact Or.inr ⟨_, rfl, hchosen, hd'⟩
  | change f => exact Or.inl ⟨rfl, hd⟩

/-- Every dispatch of a run is chosen with regard to all that came before it. -/
theorem dispatches_chosen (hown : OwnData ops) (acts : List (SchedulerAct σ)) (h : r.Sound)
    {history : List Nat} (hd : r.scheduler.plain.Dated history)
    {before after : List (Dispatch Nat σ)} {d : Dispatch Nat σ}
    (hsplit : dispatches ops acts r = before ++ d :: after) :
    d.Chosen ops (history ++ before.map (·.id)) := by
  induction acts generalizing r history before with
  | nil => simp [dispatches] at hsplit
  | cons a rest ih =>
    have hnext := h.act ops a
    rw [dispatches] at hsplit
    rcases act_fair hown h.multiplexer hd a with ⟨hnone, hd'⟩ | ⟨e, hsome, hchosen, hd'⟩
    · rw [hnone] at hsplit
      exact ih hnext hd' hsplit
    · rw [hsome] at hsplit
      cases before with
      | nil =>
        cases hsplit
        simpa using hchosen
      | cons x before =>
        simp only [Option.toList_some, List.cons_append, List.cons.injEq] at hsplit
        obtain ⟨rfl, hsplit⟩ := hsplit
        simpa using ih hnext hd' hsplit

/-- The dispatches are what the selections of the run answered. -/
theorem outcomes_dispatches (ops : SourceOps Nat σ) (acts : List (SchedulerAct σ))
    (r : SchedulerRun (Multiplexer Nat) σ) :
    (acts.foldl (act ops) r).outcomes.filterMap Selection.dispatched? =
      r.outcomes.filterMap Selection.dispatched? ++ (dispatches ops acts r).map (·.id) := by
  induction acts generalizing r with
  | nil => simp [dispatches]
  | cons a rest ih =>
    rw [List.foldl_cons, ih, dispatches, List.map_append, ← List.append_assoc]
    congr 1
    cases a with
    | add priority => simp [act, dispatchOf]
    | change f => simp [act, dispatchOf]
    | select events =>
      simp only [act, dispatchOf]
      rcases r.scheduler.select ops (fun m => events m.plain) r.world with ⟨outcome, m, w⟩
      cases outcome <;> simp [Selection.dispatched?, seen]

end Multiplexer

/-! ## Fairness -/

namespace Dispatch

variable {ι σ : Type} {ops : SourceOps ι σ} {history : List Nat} {d e : Dispatch ι σ}

theorem offers_priority {i : Nat} {p : Int} (h : d.Offers ops i p) :
    ∃ r, d.sources[i]? = some r ∧ r.priority = p ∧ d.Offers ops i r.priority := by
  obtain ⟨r, hr, hopen, rfl, hdata⟩ := h
  exact ⟨r, hr, rfl, r, hr, hopen, rfl, hdata⟩

/-- Nobody with data has a higher priority than who is dispatched. -/
theorem Chosen.highest (h : d.Chosen ops history) :
    ∃ p, d.Offers ops d.id p ∧ ∀ i q, d.Offers ops i q → q ≤ p := by
  obtain ⟨r, hr, hoffers, hfirst⟩ := h.first
  refine ⟨r.priority, hoffers, fun i q hi => ?_⟩
  obtain ⟨s, hs, rfl, hi'⟩ := offers_priority hi
  by_cases hne : i = d.id
  · rw [hne, hr] at hs
    cases hs
    exact Int.le_refl _
  · have hbefore := hfirst i s hs hi' hne
    rw [ReadyKey.before_iff] at hbefore
    simp only [Registration.key] at hbefore
    omega

/-- Somebody who is dispatched again goes after all equals with data: these have had their turn
since then. -/
theorem Chosen.again {before after : List Nat} (h : e.Chosen ops (before ++ e.id :: after))
    {p : Int} {i : Nat} (he : e.Offers ops e.id p) (hi : e.Offers ops i p) (hne : i ≠ e.id) :
    i ∈ after := by
  obtain ⟨r, hr, -, hfirst⟩ := h.first
  obtain ⟨x, hx, rfl, -⟩ := offers_priority he
  obtain ⟨s, hs, hps, hi'⟩ := offers_priority hi
  rw [hr] at hx
  cases hx
  have hbefore := hfirst i s hs hi' hne
  rw [ReadyKey.before_iff] at hbefore
  simp only [Registration.key, hps] at hbefore
  have hlast : before.length + 1 ≤ r.stamp := (h.dated _ r hr).le_of_split
  exact (h.dated i s hs).mem_after hne (by omega)

end Dispatch

/-- A list in which two entries are alike splits at these entries. -/
theorem exists_repeat {α β : Type} {f : α → β} {l : List α} (h : ¬ (l.map f).Nodup) :
    ∃ before x between y after, l = before ++ x :: (between ++ y :: after) ∧ f x = f y := by
  induction l with
  | nil => simp at h
  | cons a rest ih =>
    by_cases ha : f a ∈ rest.map f
    · obtain ⟨y, hy, hfy⟩ := List.mem_map.mp ha
      obtain ⟨between, after, rfl⟩ := List.append_of_mem hy
      exact ⟨[], a, between, y, after, rfl, hfy.symm⟩
    · obtain ⟨before, x, between, y, after, rfl, hxy⟩ :=
        ih fun hrest => h (List.nodup_cons.mpr ⟨ha, hrest⟩)
      exact ⟨a :: before, x, between, y, after, rfl, hxy⟩

/-- If between two turns of one member of a group all others have theirs, a window with no more
dispatches than the group has members contains none of them twice. -/
theorem nodup_window {α : Type} {id : α → Nat} {window : List α} {group : List Nat}
    (hgroup : group.Nodup) (hlength : window.length ≤ group.length)
    (hagain : ∀ before x between y after, window = before ++ x :: (between ++ y :: after) →
      id x = id y → ∀ i ∈ group, i ≠ id y → i ∈ between.map id) : (window.map id).Nodup := by
  by_cases hnodup : (window.map id).Nodup
  · exact hnodup
  · obtain ⟨before, x, between, y, after, hw, hxy⟩ := exists_repeat hnodup
    have hothers : group.erase (id y) ⊆ between.map id := by
      intro i hi
      obtain ⟨hne, hin⟩ := hgroup.mem_erase_iff.mp hi
      exact hagain before x between y after hw hxy i hin hne
    have hle := ((hgroup.erase (id y)).subperm hothers).length_le
    rw [List.length_map] at hle
    have hmembers : group.length ≤ (group.erase (id y)).length + 1 := by
      rw [List.length_erase]
      split <;> omega
    rw [hw] at hlength
    simp only [List.length_append, List.length_cons] at hlength
    omega

namespace SchedulerRun

variable {σ : Type} {ops : SourceOps Nat σ} {acts : List (SchedulerAct σ)} {world : σ}

theorem chosen_of_run (hown : OwnData ops) {before after : List (Dispatch Nat σ)}
    {d : Dispatch Nat σ}
    (h : Multiplexer.dispatches ops acts { scheduler := {}, world } = before ++ d :: after) :
    d.Chosen ops (before.map (·.id)) := by
  have hdated : ({} : Multiplexer Nat).plain.Dated [] :=
    ⟨rfl, by simp, by simp [Multiplexer.plain]⟩
  have hsound : Sound ({ scheduler := {}, world } : SchedulerRun (Multiplexer Nat) σ) :=
    ⟨Consistent.empty, rfl⟩
  simpa using Multiplexer.dispatches_chosen hown acts hsound hdated h

/-- Between two dispatches of one source every other one of its priority that has data at the
second has had its turn. -/
theorem between_dispatches (hown : OwnData ops) {before between after : List (Dispatch Nat σ)}
    {d e : Dispatch Nat σ}
    (h : Multiplexer.dispatches ops acts { scheduler := {}, world } =
      before ++ d :: (between ++ e :: after)) (hid : d.id = e.id) {p : Int} {i : Nat}
    (he : e.Offers ops e.id p) (hi : e.Offers ops i p) (hne : i ≠ e.id) :
    i ∈ between.map (·.id) := by
  have hsplit : Multiplexer.dispatches ops acts { scheduler := {}, world } =
      (before ++ d :: between) ++ e :: after := by
    rw [h]
    simp
  have hchosen := chosen_of_run hown hsplit
  rw [List.map_append, List.map_cons, hid] at hchosen
  exact hchosen.again he hi hne

/-- Only this group has data at this priority or a higher one, and all of it has. -/
def Leads (ops : SourceOps Nat σ) (group : List Nat) (p : Int)
    (d : Dispatch Nat σ) : Prop :=
  (∀ i ∈ group, d.Offers ops i p) ∧ ∀ i q, d.Offers ops i q → p ≤ q → i ∈ group

/-- While a group leads, any as many dispatches in a row as it has members go round the group. -/
theorem window_perm (hown : OwnData ops) {before window after : List (Dispatch Nat σ)}
    (h : Multiplexer.dispatches ops acts { scheduler := {}, world } = before ++ window ++ after)
    {group : List Nat} {p : Int} (hgroup : group.Nodup)
    (hleads : ∀ d ∈ window, Leads ops group p d) (hlength : window.length = group.length) :
    (window.map (·.id)).Perm group := by
  have hmember : ∀ d ∈ window, d.id ∈ group := by
    intro d hd
    obtain ⟨before', after', rfl⟩ := List.append_of_mem hd
    have hsplit : Multiplexer.dispatches ops acts { scheduler := {}, world } =
        (before ++ before') ++ d :: (after' ++ after) := by
      rw [h]
      simp
    obtain ⟨q, hq, hmax⟩ := (chosen_of_run hown hsplit).highest
    obtain ⟨i, hi⟩ := List.exists_mem_of_length_pos (l := group) (by
      rw [← hlength]
      exact List.length_pos_of_mem hd)
    exact (hleads d hd).2 d.id q hq (hmax i p ((hleads d hd).1 i hi))
  have hnodup : (window.map (·.id)).Nodup := by
    refine nodup_window hgroup (Nat.le_of_eq hlength) ?_
    intro before' x between y after' hw hxy i hi hne
    have hy : y ∈ window := by rw [hw]; simp
    have hsplit : Multiplexer.dispatches ops acts { scheduler := {}, world } =
        (before ++ before') ++ x :: (between ++ y :: (after' ++ after)) := by
      rw [h, hw]
      simp
    exact between_dispatches hown hsplit hxy ((hleads y hy).1 _ (hmember y hy))
      ((hleads y hy).1 i hi) hne
  refine (hnodup.subperm ?_).perm_of_length_le (by simp [hlength])
  intro i hi
  obtain ⟨d, hd, rfl⟩ := List.mem_map.mp hi
  exact hmember d hd

/-- As long as no poll of a source decides whether another one has data, and whatever others do to
the sources: a dispatch goes to a source with data than which no other has a higher priority.
Before a source is dispatched again, every other one of its priority that then has data is
dispatched. So while a group of one priority leads, as many dispatches in a row as it has members
contain each of them just once, and twice as many contain them all. -/
theorem dispatches_are_fair (ops : SourceOps Nat σ) (hown : OwnData ops)
    (acts : List (SchedulerAct σ)) (world : σ) :
    let log := Multiplexer.dispatches ops acts { scheduler := {}, world }
    (Multiplexer.run ops acts world).outcomes.filterMap Selection.dispatched? = log.map (·.id) ∧
    (∀ d ∈ log, ∃ p, d.Offers ops d.id p ∧ ∀ i q, d.Offers ops i q → q ≤ p) ∧
    (∀ before d between e after, log = before ++ d :: (between ++ e :: after) → d.id = e.id →
      ∀ p i, e.Offers ops e.id p → e.Offers ops i p → i ≠ e.id → i ∈ between.map (·.id)) ∧
    ∀ before window after, log = before ++ window ++ after →
      ∀ (group : List Nat) (p : Int), group.Nodup → (∀ d ∈ window, Leads ops group p d) →
        (window.length = group.length → ∀ i ∈ group, (window.map (·.id)).count i = 1) ∧
        (window.length = 2 * group.length → ∀ i ∈ group, i ∈ window.map (·.id)) := by
  intro log
  refine ⟨?_, ?_, ?_, ?_⟩
  · exact Multiplexer.outcomes_dispatches ops acts { scheduler := {}, world }
  · intro d hd
    obtain ⟨before, after, hlog⟩ := List.append_of_mem hd
    exact (chosen_of_run hown hlog).highest
  · intro before d between e after hlog hid p i he hi hne
    exact between_dispatches hown hlog hid he hi hne
  · intro before window after hlog group p hgroup hleads
    constructor
    · intro hlength i hi
      rw [(window_perm hown hlog hgroup hleads hlength).count_eq]
      exact List.count_eq_one_of_mem hgroup hi
    · intro hlength i hi
      have hfirst : log = before ++ window.take group.length ++
          (window.drop group.length ++ after) := by
        rw [List.append_assoc, ← List.append_assoc (window.take _), List.take_append_drop, hlog,
          List.append_assoc]
      have hperm := window_perm hown hfirst hgroup (fun d hd => hleads d (List.mem_of_mem_take hd))
        (by rw [List.length_take]; omega)
      obtain ⟨d, hd, rfl⟩ := List.mem_map.mp (hperm.mem_iff.mpr hi)
      exact List.mem_map_of_mem (List.mem_of_mem_take hd)

/-- Two backlogs of one priority take turns. -/
theorem backlogs_take_turns :
    let ops := backlogs (fun _ => none) (fun _ => none)
    let acts := [.add 0, .add 0] ++ List.replicate 4 (.select fun _ _ => [])
    let log := Multiplexer.dispatches ops acts { scheduler := {}, world := fun _ => 2 }
    OwnData ops ∧ log.map (·.id) = [0, 1, 0, 1] ∧
      ∀ before d between e after, log = before ++ d :: (between ++ e :: after) → d.id = e.id →
        ∀ p i, e.Offers ops e.id p → e.Offers ops i p → i ≠ e.id → i ∈ between.map (·.id) := by
  intro ops acts log
  have hown : OwnData ops := ownData_backlogs _
  exact ⟨hown, by decide, (dispatches_are_fair ops hown acts fun _ => 2).2.2.1⟩

/-- A source that is fed by a later poll has data when the choice is made, and still one of a lower
priority goes before it. -/
theorem a_source_fed_by_a_later_poll_is_overtaken :
    let ops := backlogs (fun i => if i = 1 then some 0 else none) (fun _ => none)
    let acts := [.add 10, .add 0, .select fun _ _ => []]
    ∃ d ∈ Multiplexer.dispatches ops acts { scheduler := {}, world := fun i => i },
      d.id = 1 ∧ d.Offers ops 1 0 ∧ d.Offers ops 0 10 := by
  decide

end SchedulerRun

end ControlBus
