-- Sources that fail. The selection whose poll fails answers with the failure and has done nothing
-- else but poll, and from then on no selection has anything to do with the source. If no poll
-- decides whether other sources have data, the others are dispatched by priority and age as before.
import ControlBus.Proofs.Fairness
import ControlBus.Proofs.LoopAccounts
import ControlBus.Proofs.Selections

namespace ControlBus

/-! ## The calls of a selection -/

/-- A call that a selection made to a source. -/
inductive SourceCall where
  /-- The source was polled, and this is what came of it. -/
  | polled (id : Nat) (reading : Reading)
  /-- The source had a dispatch accounted for. -/
  | dispatched (id : Nat)
deriving Repr, DecidableEq

namespace SourceCall

def source : SourceCall → Nat
  | polled id _ => id
  | dispatched id => id

/-- A poll that did not fail. -/
def Fine : SourceCall → Prop
  | polled _ reading => ∀ e, reading ≠ .failed e
  | dispatched _ => False

end SourceCall

/-- A world of sources and the calls made to them. -/
structure Logged (σ : Type) where
  world : σ
  calls : List SourceCall := []

namespace Logged

variable {σ : Type}

def change (f : σ → σ) (w : Logged σ) : Logged σ := { w with world := f w.world }

def call (c : SourceCall) (world : σ) (w : Logged σ) : Logged σ where
  world
  calls := w.calls ++ [c]

end Logged

/-- The same sources, whose calls are written down. -/
def SourceOps.logged {σ : Type} (ops : SourceOps Nat σ) : SourceOps Nat (Logged σ) where
  poll i w :=
    let (reading, world) := ops.poll i w.world
    (reading, w.call (.polled i reading) world)
  hasData i w := ops.hasData i w.world
  hasMore i w := ops.hasMore i w.world
  afterRead i w := w.call (.dispatched i) (ops.afterRead i w.world)

theorem forgets_logged {σ : Type} (ops : SourceOps Nat σ) :
    Forgets Logged.world ops.logged ops where
  poll _ _ := rfl
  hasData _ _ := rfl
  hasMore _ _ := rfl
  afterRead _ _ := rfl

/-- The call that decides on an outcome, after the polls that brought nothing bad. -/
def Selection.deciding : Selection → Option SourceCall
  | .ready id => some (.dispatched id)
  | .failed id e => some (.polled id (.failed e))
  | .timeout => none

/-- What a selection did and what it answered. -/
structure Session where
  calls : List SourceCall
  outcome : Selection

namespace Session

/-- The selection called a source or answered with it. -/
def Concerns (s : Session) (i : Nat) : Prop :=
  (∃ c ∈ s.calls, c.source = i) ∨ s.outcome.source? = some i

/-- A selection polls without failure until the call that decides on its outcome. -/
def Sound (s : Session) : Prop :=
  ∃ looks, (∀ c ∈ looks, c.Fine) ∧ s.calls = looks ++ s.outcome.deciding.toList

variable {s : Session} {i : Nat} {e : BusError}

/-- Who finds a poll that failed finds it in the answer. -/
theorem Sound.failed_iff (h : s.Sound) :
    SourceCall.polled i (.failed e) ∈ s.calls ↔ s.outcome = .failed i e := by
  obtain ⟨looks, hfine, hcalls⟩ := h
  rw [hcalls, List.mem_append]
  constructor
  · rintro (hin | hin)
    · exact absurd rfl (hfine _ hin e)
    · cases ho : s.outcome with
      | ready id => simp [ho, Selection.deciding] at hin
      | timeout => simp [ho, Selection.deciding] at hin
      | failed id e' =>
        simp only [ho, Selection.deciding, Option.toList_some, List.mem_singleton] at hin
        cases hin
        rfl
  · intro ho
    right
    simp [ho, Selection.deciding]

end Session

/-! ## One selection -/

namespace PlainScheduler

variable {σ : Type} {ops : SourceOps Nat σ} {p p' : PlainScheduler Nat}

/-- The calls on the way to a decision: polls of open sources, none of which fails. -/
theorem leads_calls (hn : p.Numbered) {v w : Logged σ}
    (h : Leads ops.logged (fun v v' => v'.calls = v.calls) p v w) :
    ∃ looks, w.calls = v.calls ++ looks ∧ ∀ c ∈ looks, c.Fine ∧ p.Opened c.source := by
  induction h with
  | refl => exact ⟨[], by simp⟩
  | @tail u w' _ hstir ih =>
    obtain ⟨looks, hcalls, hlooks⟩ := ih
    cases hstir with
    | meanwhile hsame => exact ⟨looks, hsame.trans hcalls, hlooks⟩
    | @look r _ known opened read =>
      obtain ⟨i, hi⟩ := List.mem_iff_getElem?.mp known
      have hsource := hn.source_eq hi
      refine ⟨looks ++ [.polled r.source (ops.poll r.source u.world).1], ?_, ?_⟩
      · rw [← List.append_assoc, ← hcalls]
        rfl
      · intro c hc
        rcases List.mem_append.mp hc with hc | hc
        · exact hlooks c hc
        · rw [List.mem_singleton] at hc
          subst hc
          exact ⟨read, r, by rwa [SourceCall.source, hsource], opened⟩

end PlainScheduler

/-- What a selection does to its sources: it polls open ones, and the last call decides. -/
theorem Multiplexer.select_calls {σ : Type} (ops : SourceOps Nat σ) {m : Multiplexer Nat}
    (h : m.Sound) (hn : m.plain.Numbered)
    (events : Multiplexer Nat → Logged σ → List (Logged σ → Logged σ))
    (hev : ∀ m w, ∀ e ∈ events m w, ∀ v, (e v).calls = v.calls) (w : σ) :
    let out := m.select ops.logged events { world := w }
    (∃ looks, (∀ c ∈ looks, c.Fine ∧ m.plain.Opened c.source) ∧
      out.2.2.calls = looks ++ out.1.deciding.toList) ∧
    (∀ i, out.1.source? = some i → m.plain.Opened i) ∧
    ∀ i, out.2.1.plain.Closed i ↔ m.plain.Closed i ∨ out.1.failed? = some i := by
  intro out
  obtain ⟨-, u, hu, hdecides⟩ := m.select_decides ops.logged (fun v v' => v'.calls = v.calls) h
    events hev { world := w }
  change PlainScheduler.Decides ops.logged _ m.plain u out.1 out.2.1.plain out.2.2 at hdecides
  refine ⟨?_, fun i => hdecides.opened, hdecides.closed_iff⟩
  rcases out with ⟨outcome, m', w'⟩
  dsimp only at hdecides ⊢
  generalize m'.plain = p' at hdecides
  cases hdecides with
  | @failed id r e v _ looks known opened fails =>
    obtain ⟨made, hcalls, hmade⟩ := PlainScheduler.leads_calls hn (hu.trans looks)
    refine ⟨made, hmade, ?_⟩
    have hcall : w'.calls = v.calls ++ [.polled r.source (ops.logged.poll r.source v).1] :=
      (congrArg (fun out => out.2.calls) fails).symm
    rw [hcall, fails, hcalls, hn.source_eq known]
    rfl
  | @ready id r v looks pass known eligible =>
    obtain ⟨made, hcalls, hmade⟩ := PlainScheduler.leads_calls hn (hu.trans looks)
    refine ⟨made, hmade, ?_⟩
    have hcall : (ops.logged.afterRead r.source v).calls =
        v.calls ++ [.dispatched r.source] := rfl
    rw [hcall, hcalls, hn.source_eq known]
    rfl
  | timeout looks pass idle =>
    obtain ⟨made, hcalls, hmade⟩ := PlainScheduler.leads_calls hn (hu.trans looks)
    exact ⟨made, hmade, by simpa [Selection.deciding] using hcalls⟩

/-! ## A selection that fails -/

/-- A source is polled, or others do something. -/
inductive Polled {ι σ : Type} (ops : SourceOps ι σ) (others : σ → σ → Prop) : σ → σ → Prop where
  | poll (a : ι) (w : σ) : Polled ops others w (ops.poll a w).2
  | meanwhile {w w' : σ} (h : others w w') : Polled ops others w w'

namespace Multiplexer

variable {ι σ : Type} {ops : SourceOps ι σ}

/-- No source has been dispatched from one multiplexer to the other. -/
structure Undisturbed (m m' : Multiplexer ι) : Prop where
  clock : m'.clock = m.clock
  stamps : m'.registrations.map (·.stamp) = m.registrations.map (·.stamp)
  counts : m'.registrations.map (·.dispatches) = m.registrations.map (·.dispatches)

theorem stamps_plain (m : Multiplexer ι) :
    m.plain.sources.map (·.stamp) = m.registrations.map (·.stamp) := by
  rw [plain, List.map_map]
  rfl

/-- A selection that answers a failure has dispatched nobody, and has done nothing to the world
but poll. -/
theorem select_failed {others : σ → σ → Prop} {events : Multiplexer ι → σ → List (σ → σ)}
    (hev : ∀ m w, ∀ e ∈ events m w, ∀ v, others v (e v)) {m m' : Multiplexer ι} (h : m.Sound)
    {w w' : σ} {i : Nat} {e : BusError}
    (hs : select ops events m w = (.failed i e, m', w')) :
    Undisturbed m m' ∧ Relation.ReflTransGen (Polled ops others) w w' := by
  obtain ⟨-, u, hu, hdecides⟩ := select_decides ops others h events hev w
  have hbooks := (enters_select ops events m w).books
  rw [hs] at hdecides hbooks
  have hcounts : m'.registrations.map (·.dispatches) = m.registrations.map (·.dispatches) :=
    congrArg Books.counts hbooks
  generalize hp : m'.plain = p' at hdecides
  cases hdecides with
  | @failed _ r _ v _ looks known opened fails =>
    have hclock : m'.clock = m.clock := congrArg PlainScheduler.clock hp
    have hstamps : m'.plain.sources.map (·.stamp) = m.plain.sources.map (·.stamp) := by
      rw [hp]
      exact map_set_eq known rfl
    rw [stamps_plain, stamps_plain] at hstamps
    refine ⟨⟨hclock, hstamps, hcounts⟩, ?_⟩
    have hlast : Polled ops others v (ops.poll r.source v).2 := .poll r.source v
    rw [fails] at hlast
    refine Relation.ReflTransGen.tail ?_ hlast
    refine Relation.ReflTransGen.mono ?_ _ _ (hu.trans looks)
    intro a b hstir
    cases hstir with
    | look => exact .poll _ _
    | meanwhile h => exact .meanwhile h

end Multiplexer

/-! ## Runs -/

variable {σ : Type}

/-- The events of a wait, in a world in which calls are written down. -/
def Logged.events (events : PlainScheduler Nat → σ → List (σ → σ))
    (p : PlainScheduler Nat) (w : Logged σ) : List (Logged σ → Logged σ) :=
  (events p w.world).map Logged.change

theorem same_events (events : List (σ → σ)) :
    Multiplexer.SameEvents Logged.world (events.map Logged.change) events := by
  induction events with
  | nil => exact .nil
  | cons e rest ih => exact .cons (fun _ => rfl) ih

namespace Multiplexer

/-- What the selection of a step did, if the step is one. -/
def sessionOf (ops : SourceOps Nat σ) (r : SchedulerRun (Multiplexer Nat) σ) :
    SchedulerAct σ → Option Session
  | .select events =>
    let (outcome, _, w) := r.scheduler.select ops.logged
      (fun m => Logged.events events m.plain) { world := r.world }
    some { calls := w.calls, outcome }
  | _ => none

/-- What the selections of some steps did, oldest first. -/
def sessions (ops : SourceOps Nat σ) : List (SchedulerAct σ) →
    SchedulerRun (Multiplexer Nat) σ → List Session
  | [], _ => []
  | a :: rest, r => (sessionOf ops r a).toList ++ sessions ops rest (act ops r a)

theorem sessions_snoc (ops : SourceOps Nat σ) (acts : List (SchedulerAct σ))
    (a : SchedulerAct σ) (r : SchedulerRun (Multiplexer Nat) σ) :
    sessions ops (acts ++ [a]) r =
      sessions ops acts r ++ (sessionOf ops (acts.foldl (act ops) r) a).toList := by
  induction acts generalizing r with
  | nil => simp [sessions]
  | cons x rest ih =>
    rw [List.cons_append, sessions, ih, sessions, List.append_assoc]
    rfl

end Multiplexer

namespace SchedulerRun

/-- What sessions tell of the sources that are closed after them. -/
structure Told (sessions : List Session) (p : PlainScheduler Nat) : Prop where
  sound : ∀ s ∈ sessions, s.Sound
  closed : ∀ i, p.Closed i ↔ ∃ s ∈ sessions, s.outcome.failed? = some i
  apart : sessions.Pairwise fun s t => ∀ i, s.outcome.failed? = some i → ¬ t.Concerns i

variable {r : SchedulerRun (Multiplexer Nat) σ}

/-- A selection answers what its session says. It has to do with open sources only, and closes
the one that it answers has failed. -/
theorem Sound.session (h : r.Sound) (ops : SourceOps Nat σ)
    (events : PlainScheduler Nat → σ → List (σ → σ)) :
    ∃ s, Multiplexer.sessionOf ops r (.select events) = some s ∧ s.Sound ∧
      (∀ i, s.Concerns i → r.scheduler.plain.Opened i) ∧
      (Multiplexer.act ops r (.select events)).outcomes = r.outcomes ++ [s.outcome] ∧
      ∀ i, (Multiplexer.act ops r (.select events)).scheduler.plain.Closed i ↔
        r.scheduler.plain.Closed i ∨ s.outcome.failed? = some i := by
  have hforget := Multiplexer.select_forgets (forgets_logged ops)
    (fun m => Logged.events events m.plain) (fun m => events m.plain)
    (fun m w => same_events _) r.scheduler { world := r.world }
  obtain ⟨⟨looks, hlooks, hcalls⟩, hopened, hclosed⟩ :=
    Multiplexer.select_calls ops h.multiplexer h.numbered
      (fun m => Logged.events events m.plain) (by
        intro m w e he v
        obtain ⟨f, -, rfl⟩ := List.mem_map.mp he
        rfl) r.world
  simp only [Multiplexer.sessionOf, Multiplexer.act]
  rcases hs : r.scheduler.select ops.logged (fun m => Logged.events events m.plain)
    { world := r.world } with ⟨outcome, m, w⟩
  rw [hs] at hforget hcalls hopened hclosed
  rw [hforget]
  refine ⟨_, rfl, ⟨looks, fun c hc => (hlooks c hc).1, hcalls⟩, ?_, rfl, hclosed⟩
  rintro i (⟨c, hc, rfl⟩ | hi)
  · dsimp only at hc hcalls hopened
    rw [hcalls] at hc
    rcases List.mem_append.mp hc with hc | hc
    · exact (hlooks c hc).2
    · refine hopened _ ?_
      cases outcome with
      | ready id =>
        simp only [Selection.deciding, Option.toList_some, List.mem_singleton] at hc
        subst hc
        rfl
      | failed id e =>
        simp only [Selection.deciding, Option.toList_some, List.mem_singleton] at hc
        subst hc
        rfl
      | timeout => simp [Selection.deciding] at hc
  · exact hopened i hi

/-- A further session has nothing to do with the sources that have failed before. -/
theorem Told.act {sessions : List Session} (ht : Told sessions r.scheduler.plain) (h : r.Sound)
    (ops : SourceOps Nat σ) (a : SchedulerAct σ) :
    Told (sessions ++ (Multiplexer.sessionOf ops r a).toList)
      (Multiplexer.act ops r a).scheduler.plain := by
  cases a with
  | add priority =>
    rw [show Multiplexer.sessionOf ops r (.add priority) = none from rfl, Option.toList_none,
      List.append_nil]
    exact ⟨ht.sound, fun i => (r.scheduler.closed_add priority i).trans (ht.closed i), ht.apart⟩
  | change f =>
    rw [show Multiplexer.sessionOf ops r (.change f) = none from rfl, Option.toList_none,
      List.append_nil]
    exact ht
  | select events =>
    obtain ⟨s, hs, hsound, hconcerns, -, hclosed⟩ := h.session ops events
    rw [hs, Option.toList_some]
    refine ⟨?_, ?_, ?_⟩
    · intro t htold
      rcases List.mem_append.mp htold with htold | htold
      · exact ht.sound t htold
      · rw [List.mem_singleton.mp htold]
        exact hsound
    · intro i
      rw [hclosed, ht.closed]
      constructor
      · rintro (⟨t, htold, hi⟩ | hi)
        · exact ⟨t, List.mem_append_left _ htold, hi⟩
        · exact ⟨s, by simp, hi⟩
      · rintro ⟨t, htold, hi⟩
        rcases List.mem_append.mp htold with htold | htold
        · exact Or.inl ⟨t, htold, hi⟩
        · rw [List.mem_singleton.mp htold] at hi
          exact Or.inr hi
    · refine List.pairwise_append.mpr ⟨ht.apart, List.pairwise_singleton _ _, ?_⟩
      intro t htold s' hs' i hi hs
      rw [List.mem_singleton.mp hs'] at hs
      exact (PlainScheduler.opened_iff.mp (hconcerns i hs)).2 ((ht.closed i).mpr ⟨t, htold, hi⟩)

variable (ops : SourceOps Nat σ) (acts : List (SchedulerAct σ)) (world : σ)

theorem told_run :
    Told (Multiplexer.sessions ops acts { scheduler := {}, world })
      (Multiplexer.run ops acts world).scheduler.plain := by
  induction acts using List.reverseRecOn with
  | nil => exact ⟨by simp [Multiplexer.sessions], by simp [Multiplexer.sessions, Multiplexer.run,
      Multiplexer.plain, PlainScheduler.Closed], .nil⟩
  | append_singleton acts a ih =>
    rw [Multiplexer.sessions_snoc, Multiplexer.run, List.foldl_append]
    exact ih.act (sound_run ops acts world) ops a

theorem outcomes_sessions :
    (Multiplexer.sessions ops acts { scheduler := {}, world }).map (·.outcome) =
      (Multiplexer.run ops acts world).outcomes := by
  induction acts using List.reverseRecOn with
  | nil => rfl
  | append_singleton acts a ih =>
    rw [Multiplexer.sessions_snoc, Multiplexer.run, List.foldl_append, List.map_append, ih]
    change (Multiplexer.run ops acts world).outcomes ++ _ =
      (Multiplexer.act ops (Multiplexer.run ops acts world) a).outcomes
    cases a with
    | add priority => simp [Multiplexer.sessionOf, Multiplexer.act]
    | change f => simp [Multiplexer.sessionOf, Multiplexer.act]
    | select events =>
      obtain ⟨s, hs, -, -, hout, -⟩ := (sound_run ops acts world).session ops events
      rw [hout]
      congr 1
      change ((Multiplexer.sessionOf ops (Multiplexer.run ops acts world) _).toList).map _ = _
      rw [hs]
      rfl

/-- A selection that fails dispatches nobody and only polls. -/
theorem fails_quietly {events : PlainScheduler Nat → σ → List (σ → σ)} {i : Nat} {e : BusError}
    {m : Multiplexer Nat} {w : σ}
    (hs : (Multiplexer.run ops acts world).scheduler.select ops (fun m => events m.plain)
      (Multiplexer.run ops acts world).world = (.failed i e, m, w)) :
    (Multiplexer.run ops acts world).scheduler.Undisturbed m ∧
      Relation.ReflTransGen (Polled ops fun v v' => ∃ p u, ∃ e ∈ events p u, v' = e v)
        (Multiplexer.run ops acts world).world w :=
  Multiplexer.select_failed (fun m u e he _ => ⟨m.plain, u, e, he, rfl⟩)
    (sound_run ops acts world).multiplexer hs

/-! ## The sources that have not failed -/

/-- The multiplexer knows of every source when the run dispatched it last. -/
theorem dated_run {ops : SourceOps Nat σ} (hown : OwnData ops) :
    (Multiplexer.run ops acts world).scheduler.plain.Dated
      ((Multiplexer.run ops acts world).outcomes.filterMap Selection.dispatched?) := by
  induction acts using List.reverseRecOn with
  | nil => exact ⟨rfl, by simp [Multiplexer.run], by simp [Multiplexer.run, Multiplexer.plain]⟩
  | append_singleton acts a ih =>
    have hsnoc := Multiplexer.outcomes_dispatches ops [a] (Multiplexer.run ops acts world)
    rw [Multiplexer.run, List.foldl_append]
    change (Multiplexer.act ops (Multiplexer.run ops acts world) a).scheduler.plain.Dated
      ((List.foldl (Multiplexer.act ops) (Multiplexer.run ops acts world) [a]).outcomes.filterMap _)
    rw [hsnoc, Multiplexer.dispatches, Multiplexer.dispatches, List.append_nil]
    obtain ⟨hnone, hd⟩ | ⟨d, hsome, -, hd⟩ :=
      Multiplexer.act_fair hown (sound_run ops acts world).multiplexer ih a
    · rw [hnone]
      simpa using hd
    · rw [hsome]
      exact hd

/-- How the next selection comes out unless a source fails: the source is dispatched that is first
by priority and then by the time of its last dispatch, or no pass has seen an open source with
data. -/
structure CarriesOn (ops : SourceOps Nat σ) (r : SchedulerRun (Multiplexer Nat) σ)
    (events : PlainScheduler Nat → σ → List (σ → σ)) : Prop where
  ready : ∀ i m w,
    r.scheduler.select ops (fun m => events m.plain) r.world = (.ready i, m, w) →
      (Multiplexer.seen (r.scheduler.lastLook ops (fun m => events m.plain) r.world) i).Chosen
        ops (r.outcomes.filterMap Selection.dispatched?)
  timeout : ∀ m w,
    r.scheduler.select ops (fun m => events m.plain) r.world = (.timeout, m, w) →
      r.scheduler.plain.QuietThroughout ops events r.world

theorem carries_on {ops : SourceOps Nat σ} (hown : OwnData ops)
    (events : PlainScheduler Nat → σ → List (σ → σ)) :
    CarriesOn ops (Multiplexer.run ops acts world) events where
  ready i m w hs := by
    have hfair := Multiplexer.select_fair hown (fun m => events m.plain)
      (sound_run ops acts world).multiplexer (dated_run acts world hown)
      (Multiplexer.run ops acts world).world
    rw [hs] at hfair
    obtain ⟨hnone, -⟩ | ⟨id, hid, -, hchosen⟩ := hfair
    · exact absurd rfl (hnone i)
    · cases hid
      exact hchosen
  timeout m w hs := by
    have hplain := Multiplexer.select_plain hown events (sound_run ops acts world).multiplexer
      (Multiplexer.run ops acts world).world
    refine PlainScheduler.quiet_of_select ?_
    rw [hplain, hs]

/-- Whatever sources do when they are called: a poll that fails is the last call of its selection,
which answers with just that failure; no answer is a failure but for such a poll. It is the only
failure of the source that is ever answered, and no later selection calls or dispatches the source
or keeps it in the working set. A selection that answers a failure changes no stamp and no count
of a dispatch and leaves the world as polls do. As long as no poll of a source decides whether
another one has data, whoever has data is dispatched in the order of priorities and ages when no
source fails. -/
theorem failed_sources_are_reported_once (ops : SourceOps Nat σ) (acts : List (SchedulerAct σ))
    (world : σ) :
    let r := Multiplexer.run ops acts world
    let sessions := Multiplexer.sessions ops acts { scheduler := {}, world }
    sessions.map (·.outcome) = r.outcomes ∧
    (∀ before s after i e, sessions = before ++ s :: after →
      SourceCall.polled i (.failed e) ∈ s.calls →
        s.outcome = .failed i e ∧
        (∃ looks, s.calls = looks ++ [.polled i (.failed e)] ∧ ∀ c ∈ looks, c.Fine) ∧
        (∀ t ∈ before, t.outcome.failed? ≠ some i) ∧ (∀ t ∈ after, ¬ t.Concerns i) ∧
        ∀ k ∈ r.scheduler.workingSet, k.id ≠ i) ∧
    (∀ s ∈ sessions, ∀ i e, s.outcome = .failed i e →
      SourceCall.polled i (.failed e) ∈ s.calls) ∧
    (r.outcomes.filterMap Selection.failed?).Nodup ∧
    (∀ (events : PlainScheduler Nat → σ → List (σ → σ)) i e m w,
      r.scheduler.select ops (fun m => events m.plain) r.world = (.failed i e, m, w) →
        r.scheduler.Undisturbed m ∧ Relation.ReflTransGen
          (Polled ops fun v v' => ∃ p u, ∃ e ∈ events p u, v' = e v) r.world w) ∧
    (OwnData ops → ∀ events, CarriesOn ops r events) := by
  intro r sessions
  have ht : Told sessions r.scheduler.plain := told_run ops acts world
  have hout : sessions.map (·.outcome) = r.outcomes := outcomes_sessions ops acts world
  have hconsistent := (sound_run ops acts world).consistent
  refine ⟨hout, ?_, ?_, ?_, fun events i e m w hs => fails_quietly ops acts world hs,
    carries_on acts world⟩
  · intro before s after i e hsplit hpoll
    have hs : s ∈ sessions := by simp [hsplit]
    have houtcome := (ht.sound s hs).failed_iff.mp hpoll
    have hfailed : s.outcome.failed? = some i := by rw [houtcome]; rfl
    have hapart := ht.apart
    rw [hsplit, List.pairwise_append, List.pairwise_cons] at hapart
    obtain ⟨-, ⟨hafter, -⟩, hbefore⟩ := hapart
    refine ⟨houtcome, ?_, ?_, fun t ht => hafter t ht i hfailed, ?_⟩
    · obtain ⟨looks, hfine, hcalls⟩ := ht.sound s hs
      rw [houtcome] at hcalls
      exact ⟨looks, hcalls, hfine⟩
    · intro t ht hi
      exact hbefore t ht s List.mem_cons_self i hi (Or.inr (Selection.source?_of_failed? hfailed))
    · rintro k hk rfl
      obtain ⟨x, hx, hready, -⟩ := (hconsistent.mem k).mp hk
      have hopen : r.scheduler.plain.Opened k.id :=
        ⟨x.plain, Multiplexer.plain_source hx, hconsistent.opened _ x hx hready⟩
      exact (PlainScheduler.opened_iff.mp hopen).2 ((ht.closed _).mpr ⟨s, hs, hfailed⟩)
  · intro s hs i e houtcome
    exact (ht.sound s hs).failed_iff.mpr houtcome
  · rw [← hout, List.filterMap_map, List.Nodup, List.pairwise_filterMap]
    refine ht.apart.imp ?_
    intro s t hapart i hi j hj hij
    subst hij
    exact hapart i hi (Or.inr (Selection.source?_of_failed? hj))

/-- A source that fails is answered for once, and the others are dispatched in their order. -/
theorem a_broken_backlog_is_left_out :
    let broken := fun i => if i = 0 then some (.transportClosed "feed") else none
    let ops := backlogs (fun _ => none) broken
    let acts := [.add 0, .add 0, .add 10] ++ List.replicate 4 (.select fun _ _ => [])
    let r := Multiplexer.run ops acts fun _ => 1
    r.outcomes = [.failed 0 (.transportClosed "feed"), .ready 2, .ready 1, .timeout] ∧
      (r.outcomes.filterMap Selection.failed?).Nodup ∧ OwnData ops ∧
      ∀ events, CarriesOn ops r events := by
  intro broken ops acts r
  obtain ⟨-, -, -, honce, -, horder⟩ :=
    failed_sources_are_reported_once ops acts fun _ => 1
  have hown : OwnData ops := ownData_backlogs broken
  exact ⟨by decide, honce, hown, horder hown⟩

/-- After a failure a source of high priority has data when the choice is made, from the poll of a
later one, and that one goes before it. -/
theorem a_source_fed_by_a_later_poll_waits_after_a_failure :
    let broken := fun i => if i = 0 then some (.transportClosed "feed") else none
    let ops := backlogs (fun i => if i = 2 then some 1 else none) broken
    let acts := [.add 0, .add 10, .add 0] ++ List.replicate 2 (.select fun _ _ => [])
    let world := fun i => if i = 2 then 1 else 0
    (Multiplexer.run ops acts world).outcomes =
        [.failed 0 (.transportClosed "feed"), .ready 2] ∧
      ∃ d ∈ Multiplexer.dispatches ops acts { scheduler := {}, world },
        d.id = 2 ∧ d.Offers ops 2 0 ∧ d.Offers ops 1 10 := by
  decide

end SchedulerRun

end ControlBus
