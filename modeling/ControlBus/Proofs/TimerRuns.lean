-- Timers in a multiplexer, beside any other sources. Each look finds the ticks that the grid of the
-- timer has for it, and no more dispatches come of them than periods are over.
import ControlBus.Proofs.LogPlaces
import ControlBus.Proofs.LoopAccounts
import ControlBus.Proofs.TimerGrid

namespace ControlBus

/-! ## What a selection leaves behind -/

namespace Multiplexer

variable {ι σ : Type} {ops : SourceOps ι σ} {holds : σ → Prop} {m : Multiplexer ι} {w : σ}

/-- A world as an outcome leaves it: as it was all along, after a last dispatch if there was one. -/
def Leaves (ops : SourceOps ι σ) (holds : σ → Prop) (m : Multiplexer ι) (w : σ) :
    Option Selection → Prop
  | some (.ready id) => ∃ a u, m.sources[id]? = some a ∧ holds u ∧ ops.hasData a u = true ∧
      w = ops.afterRead a u
  | _ => holds w

theorem holds_passOver (hpoll : ∀ a w, holds w → holds (ops.poll a w).2) (id : Nat)
    (todo : List (Registration ι)) (set : List ReadyKey) (h : holds w) :
    holds (passOver ops id todo set w).world := by
  induction todo generalizing id set w with
  | nil => exact h
  | cons r rest ih =>
    have hw := hpoll r.source w h
    rcases poll_cases ops r w with hc | ⟨e, w', hc, hp⟩ | ⟨reading, w', hc, hp, hread⟩
    · rw [passOver_closed id hc]
      exact ih (id + 1) set h
    · rw [passOver_failed id hc rest set hp]
      rwa [hp] at hw
    · rw [hp] at hw
      rw [passOver_read id hc rest set hp hread]
      split
      · exact ih (id + 1) _ hw
      · exact ih (id + 1) _ hw

theorem leaves_dispatchFrom (set : List ReadyKey) (m : Multiplexer ι) (h : holds w) :
    Leaves ops holds m (dispatchFrom ops set m w).2.2
      ((dispatchFrom ops set m w).1.map .ready) := by
  induction set generalizing m with
  | nil => exact h
  | cons k rest ih =>
    rw [dispatchFrom]
    cases hr : m.registrations[k.id]? with
    | none => exact ih m
    | some r =>
      dsimp only
      by_cases hdata : ops.hasData r.source w = true
      · rw [if_pos hdata]
        refine ⟨r.source, w, ?_, h, hdata, rfl⟩
        rw [sources, List.getElem?_map, hr]
        rfl
      · rw [if_neg hdata]
        have hskip := ih { m with
          registrations := m.registrations.set k.id { r with ready := false }
          stats := { m.stats with emptySkips := m.stats.emptySkips + 1 } }
        have hsources := (enters_skip hr).sources
        unfold Leaves at hskip ⊢
        rwa [hsources] at hskip

theorem leaves_turn (hpoll : ∀ a w, holds w → holds (ops.poll a w).2) (m : Multiplexer ι)
    (h : holds w) : Leaves ops holds m (turn ops m w).2.2 (turn ops m w).1 := by
  have hpass := holds_passOver hpoll 0 m.registrations m.workingSet h
  have hsources := (enters_poll ops m w).sources
  unfold turn
  rcases hp : poll ops m w with ⟨failure, m', w'⟩
  rw [hp] at hsources
  have hw' : holds w' := by
    rw [poll] at hp
    rw [← (Prod.mk.inj (Prod.mk.inj hp).2).2]
    exact hpass
  cases failure with
  | some failure => exact hw'
  | none =>
    have hdispatch : Leaves ops holds m' (dispatchFrom ops m'.workingSet m' w').2.2
        ((dispatchFrom ops m'.workingSet m' w').1.map .ready) :=
      leaves_dispatchFrom m'.workingSet m' hw'
    unfold Leaves at hdispatch ⊢
    rwa [hsources] at hdispatch

theorem leaves_await (hpoll : ∀ a w, holds w → holds (ops.poll a w).2) {events : List (σ → σ)}
    (hevents : ∀ e ∈ events, ∀ w, holds w → holds (e w)) (m : Multiplexer ι) (h : holds w) :
    Leaves ops holds m (await ops events m w).2.2 (await ops events m w).1 := by
  induction events generalizing m w with
  | nil =>
    have hturn := leaves_turn hpoll m h
    rw [await_eq]
    rcases ht : turn ops m w with ⟨outcome, m', w'⟩
    rw [ht] at hturn
    cases outcome <;> exact hturn
  | cons event rest ih =>
    have hturn := leaves_turn hpoll m h
    have hsources := (enters_turn ops m w).sources
    rw [await_eq]
    rcases ht : turn ops m w with ⟨outcome, m', w'⟩
    rw [ht] at hturn hsources
    cases outcome with
    | some outcome => exact hturn
    | none =>
      have hrest := ih (fun e he => hevents e (List.mem_cons_of_mem event he)) m'
        (hevents event List.mem_cons_self w' hturn)
      unfold Leaves at hrest ⊢
      rwa [hsources] at hrest

/-- What looks and events keep holds up to the one dispatch that a selection may end with. -/
theorem leaves_select (hpoll : ∀ a w, holds w → holds (ops.poll a w).2)
    {events : Multiplexer ι → σ → List (σ → σ)}
    (hevents : ∀ m w, ∀ e ∈ events m w, ∀ v, holds v → holds (e v)) (m : Multiplexer ι)
    (h : holds w) :
    Leaves ops holds m (select ops events m w).2.2 (some (select ops events m w).1) := by
  have hturn := leaves_turn hpoll
    { m with stats := { m.stats with selects := m.stats.selects + 1 } } h
  have hsources := (enters_turn ops
    { m with stats := { m.stats with selects := m.stats.selects + 1 } } w).sources
  rw [select, attempt_eq]
  rcases ht : turn ops _ w with ⟨outcome, m₁, w₁⟩
  rw [ht] at hturn hsources
  cases outcome with
  | some outcome => exact hturn
  | none =>
    have hawait := leaves_await hpoll (hevents m₁ w₁) m₁ hturn
    dsimp only
    rcases ha : await ops (events m₁ w₁) m₁ w₁ with ⟨outcome, m₂, w₂⟩
    rw [ha] at hawait
    unfold Leaves at hawait ⊢
    rw [hsources] at hawait
    cases outcome with
    | some outcome => exact hawait
    | none => exact hawait

end Multiplexer

/-! ## What is seen of a timer -/

/-- What was seen to happen to a timer, and when. -/
inductive TimerMark where
  /-- It began, anew if it had begun before. -/
  | began (now : Nat)
  /-- It was looked at, told what it had for the look, and was left due at some instant. -/
  | looked (now : Nat) (reading : Reading) (due : Nat)
  | dispatched (now : Nat)
deriving Repr, DecidableEq

def TimerMark.isDispatch : TimerMark → Bool
  | dispatched _ => true
  | _ => false

/-- The time since a timer began. -/
structure Stint where
  start : Nat := 0
  /-- When it was looked at last; when it began, if nobody has looked since. -/
  last : Nat := 0
  dispatches : Nat := 0
deriving Repr, DecidableEq

namespace Stint

def enter (s : Stint) : TimerMark → Stint
  | .began now => { start := now, last := now }
  | .looked now _ _ => { s with last := now }
  | .dispatched _ => { s with dispatches := s.dispatches + 1 }

/-- The stint at the end of a log. -/
def ofLog (log : List TimerMark) : Stint := log.foldl enter {}

theorem ofLog_snoc (log : List TimerMark) (m : TimerMark) :
    ofLog (log ++ [m]) = (ofLog log).enter m := by
  simp [ofLog]

/-- What is true of a mark after a stint. A look never fails and has something to tell just if a
point of the grid has come since the look before; then it tells of one tick at least, and of as many
as there are such points at most; and it leaves the timer due at the next point of the grid. A
dispatch is at most as late in number as the periods that are over, and none comes before the first
of them is. -/
def Admits (period : Nat) (s : Stint) : TimerMark → Prop
  | .began now => s.last ≤ now
  | .looked now reading due =>
    s.last ≤ now ∧ (∀ e, reading ≠ .failed e) ∧
    ((∃ n, reading = .units n) ↔
      ∃ k, 1 ≤ k ∧ s.last < s.start + k * period ∧ s.start + k * period ≤ now) ∧
    (∀ n, reading = .units n → 1 ≤ n ∧ n ≤ (Timer.gridPoints s.start period s.last now).ncard) ∧
    IsLeast {t | Timer.OnGrid s.start period t ∧ now < t} due
  | .dispatched now =>
    s.last ≤ now ∧ s.dispatches + 1 ≤ (now - s.start) / period ∧ s.start + period ≤ now

end Stint

/-! ## A timer among other sources -/

/-- A timer and the other sources, and what was seen of the timer. -/
structure TimerScene (σ : Type) where
  timer : Timer
  others : σ
  /-- How many calls have been made, of the timer or of others. -/
  calls : Nat := 0
  log : List TimerMark := []

namespace TimerScene

variable {σ : Type}

/-- The calls of a scene are made at the instants of a clock. -/
def now (clock : Nat → Nat) (s : TimerScene σ) : Nat := clock s.calls

def look (clock : Nat → Nat) (s : TimerScene σ) : Reading × TimerScene σ :=
  let (reading, timer) := s.timer.poll (s.now clock)
  (reading,
   { s with
     timer
     calls := s.calls + 1
     log := s.log ++ [.looked (s.now clock) reading timer.due] })

def dispatch (clock : Nat → Nat) (s : TimerScene σ) : TimerScene σ :=
  { s with
    timer := s.timer.afterRead
    calls := s.calls + 1
    log := s.log ++ [.dispatched (s.now clock)] }

def reset (clock : Nat → Nat) (s : TimerScene σ) : TimerScene σ :=
  { s with
    timer := s.timer.reset (s.now clock)
    calls := s.calls + 1
    log := s.log ++ [.began (s.now clock)] }

/-- Something that does not concern the timer. It takes its time. -/
def aside (f : σ → σ) (s : TimerScene σ) : TimerScene σ :=
  { s with others := f s.others, calls := s.calls + 1 }

end TimerScene

/-- Other sources, and the timer beside them. -/
def SourceOps.besideTimer {ι σ : Type} (ops : SourceOps ι σ) (clock : Nat → Nat) :
    SourceOps (Option ι) (TimerScene σ) where
  poll
    | none, s => s.look clock
    | some a, s => ((ops.poll a s.others).1, s.aside fun w => (ops.poll a w).2)
  hasData
    | none, s => s.timer.hasData
    | some a, s => ops.hasData a s.others
  hasMore
    | none, _ => false
    | some a, s => ops.hasMore a s.others
  afterRead
    | none, s => s.dispatch clock
    | some a, s => s.aside (ops.afterRead a)

namespace TimerScene

variable {σ : Type} {clock : Nat → Nat} {period : Nat} {s : TimerScene σ}

/-- The timer keeps to its grid, its log tells so, and for each dispatch since it began, and for the
one that is due if it has data, a period is over. -/
structure Kept (clock : Nat → Nat) (period : Nat) (s : TimerScene σ) : Prop where
  same : s.timer.period = period
  aligned : s.timer.Aligned (Stint.ofLog s.log).start (Stint.ofLog s.log).last
  past : (Stint.ofLog s.log).last ≤ s.now clock
  account : (Stint.ofLog s.log).dispatches + s.timer.hasData.toNat ≤
    Timer.periods (Stint.ofLog s.log).start period (Stint.ofLog s.log).last
  admitted : ∀ before m after, s.log = before ++ m :: after →
    (Stint.ofLog before).Admits period m

theorem Kept.periods_le (h : s.Kept clock period) :
    Timer.periods (Stint.ofLog s.log).start period (Stint.ofLog s.log).last ≤
      Timer.periods (Stint.ofLog s.log).start period (s.now clock) := Timer.periods_mono h.past

theorem now_le_next (hclock : Monotone clock) (s : TimerScene σ) :
    s.now clock ≤ clock (s.calls + 1) := hclock (Nat.le_succ s.calls)

theorem Kept.aside (h : s.Kept clock period) (hclock : Monotone clock) (f : σ → σ) :
    (s.aside f).Kept clock period :=
  ⟨h.same, h.aligned, h.past.trans (now_le_next hclock s), h.account, h.admitted⟩

theorem Kept.reset (h : s.Kept clock period) (hclock : Monotone clock) :
    (s.reset clock).Kept clock period := by
  have hstint : Stint.ofLog (s.reset clock).log =
      { start := s.now clock, last := s.now clock } := Stint.ofLog_snoc ..
  constructor
  case same => exact h.same
  case aligned =>
    rw [hstint]
    exact h.aligned.reset (s.now clock)
  case past =>
    rw [hstint]
    exact now_le_next hclock s
  case account =>
    rw [hstint]
    exact Nat.zero_le _
  case admitted => exact law_snoc h.admitted h.past

theorem Kept.look (h : s.Kept clock period) (hclock : Monotone clock) :
    (s.look clock).2.Kept clock period := by
  obtain ⟨haligned, n, hreading, htimer, hfew, hsome⟩ := h.aligned.poll h.past
  rw [h.same] at hfew hsome
  have hperiod : 0 < period := h.same ▸ h.aligned.period
  have hsame : (s.timer.poll (s.now clock)).2.period = period := by rw [htimer, h.same]
  have hmark : (Stint.ofLog s.log).Admits period (.looked (s.now clock)
      (s.timer.poll (s.now clock)).1 (s.timer.poll (s.now clock)).2.due) := by
    have hticks : n ≠ 0 ↔ Timer.periods (Stint.ofLog s.log).start period (Stint.ofLog s.log).last <
        Timer.periods (Stint.ofLog s.log).start period (s.now clock) := by omega
    have hdue := haligned.isLeast
    rw [hsame] at hdue
    refine ⟨h.past, ?_, ?_, ?_, hdue⟩
    · rw [hreading]
      split <;> simp
    · rw [Timer.exists_point_iff hperiod h.aligned.began h.past, ← hticks, hreading]
      by_cases hn : n = 0 <;> simp [hn]
    · rw [Timer.ncard_gridPoints hperiod h.aligned.began h.past, hreading]
      intro k hk
      by_cases hn : n = 0
      · simp [hn] at hk
      · obtain rfl : n = k := by simpa [hn] using hk
        exact ⟨Nat.pos_of_ne_zero hn, hfew⟩
  have hstint : Stint.ofLog (s.look clock).2.log =
      { Stint.ofLog s.log with last := s.now clock } := Stint.ofLog_snoc ..
  have hscene : (s.look clock).2.timer = (s.timer.poll (s.now clock)).2 := rfl
  constructor
  case same => exact hsame
  case aligned =>
    rw [hstint]
    exact haligned
  case past =>
    rw [hstint]
    exact now_le_next hclock s
  case account =>
    have haccount := h.account
    have hmono := h.periods_le
    rw [hstint, hscene, htimer]
    simp only [Timer.hasData] at haccount ⊢
    by_cases hn : n = 0
    · rw [hn, Nat.add_zero]
      exact haccount.trans hmono
    · have hone := Bool.toNat_le (decide (0 < s.timer.expirations + n))
      omega
  case admitted => exact law_snoc h.admitted hmark

/-- A dispatch of a timer that has data takes the period that was over for it. -/
theorem Kept.dispatch (h : s.Kept clock period) (hclock : Monotone clock)
    (hdata : s.timer.hasData = true) : (s.dispatch clock).Kept clock period := by
  have haccount := h.account
  rw [hdata, Bool.toNat_true] at haccount
  have hmono := h.periods_le
  have hperiod : 0 < period := h.same ▸ h.aligned.period
  have hmark : (Stint.ofLog s.log).Admits period (.dispatched (s.now clock)) := by
    have hfirst := (Timer.point_le_iff hperiod (h.aligned.began.trans h.past) 1).mpr (by omega)
    rw [Nat.one_mul] at hfirst
    exact ⟨h.past, haccount.trans hmono, hfirst⟩
  have hstint : Stint.ofLog (s.dispatch clock).log =
      { Stint.ofLog s.log with dispatches := (Stint.ofLog s.log).dispatches + 1 } :=
    Stint.ofLog_snoc ..
  constructor
  case same => exact h.same
  case aligned =>
    rw [hstint]
    exact h.aligned.afterRead
  case past =>
    rw [hstint]
    exact h.past.trans (now_le_next hclock s)
  case account =>
    rw [hstint]
    exact haccount
  case admitted => exact law_snoc h.admitted hmark

end TimerScene

/-! ## Runs -/

/-- What happens to a timer and to the multiplexer that holds it. -/
inductive TimerAct (ι σ : Type) where
  /-- A further source is registered. -/
  | add (source : ι) (priority : Int)
  /-- The timer is looked at by hand. -/
  | look
  | reset
  /-- Others change their sources, or time just passes. -/
  | change (f : σ → σ)
  /-- A selection; `events` tells what others do between the looks of its wait. -/
  | select (events : Multiplexer (Option ι) → TimerScene σ → List (σ → σ))

structure TimerRun (ι σ : Type) where
  scheduler : Multiplexer (Option ι)
  scene : TimerScene σ

namespace TimerRun

variable {ι σ : Type}

def enroll (m : Multiplexer (Option ι)) (source : ι × Int) : Multiplexer (Option ι) :=
  (m.add (some source.1) source.2).2

/-- Some sources are registered, and then the timer, which has just begun. -/
def start (clock : Nat → Nat) (name : String) (period : Nat) (others : List (ι × Int))
    (priority : Int) (world : σ) : TimerRun ι σ where
  scheduler := ((others.foldl enroll {}).add none priority).2
  scene :=
    { timer := .start name period (clock 0)
      others := world
      calls := 1
      log := [.began (clock 0)] }

def act (ops : SourceOps ι σ) (clock : Nat → Nat) (r : TimerRun ι σ) :
    TimerAct ι σ → TimerRun ι σ
  | .add source priority => { r with scheduler := enroll r.scheduler (source, priority) }
  | .look => { r with scene := (r.scene.look clock).2 }
  | .reset => { r with scene := r.scene.reset clock }
  | .change f => { r with scene := r.scene.aside f }
  | .select events =>
    let (_, scheduler, scene) := r.scheduler.select (ops.besideTimer clock)
      (fun m s => (events m s).map TimerScene.aside) r.scene
    { scheduler, scene }

def run (ops : SourceOps ι σ) (clock : Nat → Nat) (r : TimerRun ι σ)
    (acts : List (TimerAct ι σ)) : TimerRun ι σ :=
  acts.foldl (act ops clock) r

variable {ops : SourceOps ι σ} {clock : Nat → Nat} {period k : Nat} {r : TimerRun ι σ}

/-- The timer is source `k`, and the multiplexer has counted its dispatches. -/
structure Booked (k : Nat) (m : Multiplexer (Option ι)) (s : TimerScene σ) : Prop where
  timer : m.sources[k]? = some none
  others : ∀ id, m.sources[id]? = some none → id = k
  count : m.books.counts[k]? = some (s.log.countP TimerMark.isDispatch)

structure Sound (clock : Nat → Nat) (period k : Nat) (r : TimerRun ι σ) : Prop where
  kept : r.scene.Kept clock period
  booked : Booked k r.scheduler r.scene

theorem sources_enroll (m : Multiplexer (Option ι)) (source : ι × Int) :
    (enroll m source).sources = m.sources ++ [some source.1] := by
  simp [enroll, Multiplexer.add, Multiplexer.sources]

theorem counts_enroll (m : Multiplexer (Option ι)) (source : ι × Int) :
    (enroll m source).books.counts = m.books.counts ++ [0] := by
  simp [enroll, Multiplexer.add, Multiplexer.books]

theorem enrolled (others : List (ι × Int)) :
    (others.foldl enroll {}).sources = others.map (fun source => some source.1) ∧
      (others.foldl enroll {}).books.counts = List.replicate others.length 0 := by
  induction others using List.reverseRecOn with
  | nil => exact ⟨rfl, rfl⟩
  | append_singleton rest source ih =>
    rw [List.foldl_append, List.foldl_cons, List.foldl_nil, sources_enroll, counts_enroll, ih.1,
      ih.2, List.map_append, List.length_append]
    exact ⟨rfl, List.replicate_succ'.symm⟩

theorem Booked.enroll {m : Multiplexer (Option ι)} {s : TimerScene σ} (h : Booked k m s)
    (source : ι × Int) : Booked k (enroll m source) s := by
  have hk := (List.getElem?_eq_some_iff.mp h.timer).1
  have hcount := (List.getElem?_eq_some_iff.mp h.count).1
  constructor
  case timer =>
    rw [sources_enroll, List.getElem?_append_left hk]
    exact h.timer
  case others =>
    intro id hid
    rw [sources_enroll] at hid
    rcases Nat.lt_or_ge id m.sources.length with hlt | hge
    · rw [List.getElem?_append_left hlt] at hid
      exact h.others id hid
    · rw [List.getElem?_append_right hge] at hid
      have hmem := List.mem_of_getElem? hid
      simp at hmem
  case count =>
    rw [counts_enroll, List.getElem?_append_left hcount]
    exact h.count

/-- Marks that are no dispatches change no count. -/
theorem Booked.aside {m : Multiplexer (Option ι)} {s s' : TimerScene σ} (h : Booked k m s)
    (hcount : s'.log.countP TimerMark.isDispatch = s.log.countP TimerMark.isDispatch) :
    Booked k m s' :=
  ⟨h.timer, h.others, hcount ▸ h.count⟩

/-- The multiplexer counts for the timer just the outcomes that name it. -/
theorem Booked.enters {m m' : Multiplexer (Option ι)} {s s' : TimerScene σ} (h : Booked k m s)
    {outcome : Selection} (henters : Multiplexer.Enters (some outcome) m m')
    (hcount : s'.log.countP TimerMark.isDispatch =
      s.log.countP TimerMark.isDispatch + (if outcome = .ready k then 1 else 0)) :
    Booked k m' s' := by
  constructor
  case timer =>
    rw [henters.sources]
    exact h.timer
  case others =>
    rw [henters.sources]
    exact h.others
  case count =>
    rw [henters.books, hcount]
    have hbefore := h.count
    cases outcome with
    | timeout => exact hbefore
    | failed id e => exact hbefore
    | ready id =>
      rw [Books.note, List.getElem?_modify, hbefore]
      by_cases hid : id = k <;> simp [hid]

theorem sound_start (hclock : Monotone clock) (name : String) (hperiod : 0 < period)
    (others : List (ι × Int)) (priority : Int) (world : σ) :
    Sound clock period others.length (start clock name period others priority world) := by
  obtain ⟨hsources, hcounts⟩ := enrolled others
  constructor
  case kept =>
    refine ⟨rfl, Timer.aligned_start name hperiod (clock 0), hclock (Nat.zero_le 1), ?_, ?_⟩
    · exact Nat.zero_le _
    · intro before m after hsplit
      obtain ⟨rfl, hm⟩ | ⟨m', hbefore, hrest⟩ := List.cons_eq_append_iff.mp hsplit
      · cases hm
        exact Nat.zero_le _
      · simp at hrest
  case booked =>
    have hall : (start clock name period others priority world).scheduler.sources =
        others.map (fun source => some source.1) ++ [none] := by
      rw [← hsources]
      simp [start, Multiplexer.add, Multiplexer.sources]
    have hzero : (start clock name period others priority world).scheduler.books.counts =
        List.replicate others.length 0 ++ [0] := by
      rw [← hcounts]
      simp [start, Multiplexer.add, Multiplexer.books]
    constructor
    case timer =>
      rw [hall, List.getElem?_append_right (by simp), List.length_map, Nat.sub_self]
      rfl
    case others =>
      intro id hid
      rw [hall] at hid
      rcases Nat.lt_or_ge id (others.map fun source => some source.1).length with hlt | hge
      · rw [List.getElem?_append_left hlt] at hid
        have hmem := List.mem_of_getElem? hid
        simp at hmem
      · have hlt := (List.getElem?_eq_some_iff.mp hid).1
        rw [List.length_append] at hlt
        rw [List.length_map] at hlt hge
        exact Nat.le_antisymm (Nat.le_of_lt_succ hlt) hge
    case count =>
      rw [hzero, List.getElem?_append_right (by simp), List.length_replicate, Nat.sub_self]
      rfl

/-- Kept, and with so many dispatches in the log. -/
def Counted (clock : Nat → Nat) (period n : Nat) (s : TimerScene σ) : Prop :=
  s.Kept clock period ∧ s.log.countP TimerMark.isDispatch = n

theorem counted_look (hclock : Monotone clock) {n : Nat} {s : TimerScene σ}
    (h : Counted clock period n s) : Counted clock period n (s.look clock).2 :=
  ⟨h.1.look hclock, (List.countP_append ..).trans h.2⟩

theorem counted_aside (hclock : Monotone clock) {n : Nat} {s : TimerScene σ}
    (h : Counted clock period n s) (f : σ → σ) : Counted clock period n (s.aside f) :=
  ⟨h.1.aside hclock f, h.2⟩

theorem Sound.select (hclock : Monotone clock) (h : Sound clock period k r)
    (events : Multiplexer (Option ι) → TimerScene σ → List (σ → σ)) :
    Sound clock period k (r.act ops clock (.select events)) := by
  have hpoll : ∀ a s, Counted clock period (r.scene.log.countP TimerMark.isDispatch) s →
      Counted clock period (r.scene.log.countP TimerMark.isDispatch)
        ((ops.besideTimer clock).poll a s).2 := by
    intro a s hs
    cases a with
    | none => exact counted_look hclock hs
    | some a => exact counted_aside hclock hs fun w => (ops.poll a w).2
  have hevents : ∀ (m : Multiplexer (Option ι)) (s : TimerScene σ),
      ∀ e ∈ (events m s).map TimerScene.aside, ∀ v,
        Counted clock period (r.scene.log.countP TimerMark.isDispatch) v →
        Counted clock period (r.scene.log.countP TimerMark.isDispatch) (e v) := by
    intro m s e he v hv
    obtain ⟨f, -, rfl⟩ := List.mem_map.mp he
    exact counted_aside hclock hv f
  have hleaves := Multiplexer.leaves_select hpoll hevents r.scheduler ⟨h.kept, rfl⟩
  have henters := Multiplexer.enters_select (ops.besideTimer clock)
    (fun m s => (events m s).map TimerScene.aside) r.scheduler r.scene
  have hbegun : Booked k { r.scheduler with
      stats := { r.scheduler.stats with selects := r.scheduler.stats.selects + 1 } } r.scene :=
    ⟨h.booked.timer, h.booked.others, h.booked.count⟩
  rcases hs : r.scheduler.select (ops.besideTimer clock)
    (fun m s => (events m s).map TimerScene.aside) r.scene with ⟨outcome, m, s⟩
  rw [hs] at hleaves henters
  have hact : r.act ops clock (.select events) = ⟨m, s⟩ := by simp only [act, hs]
  rw [hact]
  cases outcome with
  | timeout => exact ⟨hleaves.1, hbegun.enters henters (by simpa using hleaves.2)⟩
  | failed id e => exact ⟨hleaves.1, hbegun.enters henters (by simpa using hleaves.2)⟩
  | ready id =>
    obtain ⟨a, u, hsource, ⟨hu, hcount⟩, hdata, rfl⟩ := hleaves
    cases a with
    | none =>
      obtain rfl := h.booked.others id hsource
      refine ⟨hu.dispatch hclock hdata, hbegun.enters henters ?_⟩
      simp [SourceOps.besideTimer, TimerScene.dispatch, TimerMark.isDispatch, hcount]
    | some a =>
      have hother : id ≠ k := by
        rintro rfl
        have hnone := hsource.symm.trans h.booked.timer
        cases hnone
      have hsame : ((ops.besideTimer clock).afterRead (some a) u).log.countP TimerMark.isDispatch =
          r.scene.log.countP TimerMark.isDispatch := hcount
      refine ⟨hu.aside hclock (ops.afterRead a), hbegun.enters henters ?_⟩
      simpa [hother] using hsame

theorem Sound.act (hclock : Monotone clock) (h : Sound clock period k r) (a : TimerAct ι σ) :
    Sound clock period k (r.act ops clock a) := by
  cases a with
  | add source priority => exact ⟨h.kept, h.booked.enroll (source, priority)⟩
  | look =>
    exact ⟨h.kept.look hclock, h.booked.aside (counted_look hclock ⟨h.kept, rfl⟩).2⟩
  | reset => exact ⟨h.kept.reset hclock, h.booked.aside (List.countP_append ..)⟩
  | change f => exact ⟨h.kept.aside hclock f, h.booked.aside rfl⟩
  | select events => exact h.select hclock events

theorem Sound.run (hclock : Monotone clock) (h : Sound clock period k r)
    (acts : List (TimerAct ι σ)) : Sound clock period k (r.run ops clock acts) := by
  induction acts generalizing r with
  | nil => exact h
  | cons a rest ih => exact ih (h.act hclock a)

/-- A timer whose period is a whole number of milliseconds keeps to its grid, whatever sources stand
beside it and at whatever instants it is looked at. The loop of a look comes to an end, in one way,
and the look tells and leaves what the loop does. Whenever the timer is looked at it has something
to tell just if a point of the grid has come since the look before, one tick at least and no more
ticks than there are such points, and it is due at the next point afterwards. It is dispatched no
more often than periods are over since it began or was reset, and never before the first one is;
the multiplexer counts these dispatches and no others for it. -/
theorem timer_keeps_its_grid (ops : SourceOps ι σ) (clock : Nat → Nat) (hclock : Monotone clock)
    (name : String) (period : Nat) (hperiod : 0 < period) (others : List (ι × Int))
    (priority : Int) (world : σ) (acts : List (TimerAct ι σ)) :
    let r := (start clock name period others priority world).run ops clock acts
    let log := r.scene.log
    (∀ now, ∃ n next,
      (∀ n' next', Timer.Takes period now r.scene.timer.due n' next' ↔ n' = n ∧ next' = next) ∧
      r.scene.timer.poll now = (if n = 0 then .pending else .units n,
        { r.scene.timer with due := next, expirations := r.scene.timer.expirations + n })) ∧
    (∀ before m after, log = before ++ m :: after → (Stint.ofLog before).Admits period m) ∧
    (Stint.ofLog log).dispatches ≤ (r.scene.now clock - (Stint.ofLog log).start) / period ∧
    r.scheduler.books.counts[others.length]? = some (log.countP TimerMark.isDispatch) := by
  intro r log
  have hsound : r.Sound clock period others.length :=
    (sound_start hclock name hperiod others priority world).run hclock acts
  refine ⟨fun now => ?_, hsound.kept.admitted, ?_, hsound.booked.count⟩
  · obtain ⟨n, next, htakes, hlook⟩ :=
      r.scene.timer.takes_poll now (by rw [hsound.kept.same]; exact hperiod)
    rw [hsound.kept.same] at htakes
    exact ⟨n, next, htakes, hlook⟩
  · have haccount := hsound.kept.account
    exact (Nat.le_of_add_right_le haccount).trans hsound.kept.periods_le

/-- Two calls in good time, and all later ones late. -/
def lateClock (calls : Nat) : Nat := if calls < 2 then 4 * calls else 40 + calls

/-- A source that never has anything. -/
def silence : SourceOps Unit Unit where
  poll _ w := (.pending, w)
  hasData _ _ := false
  hasMore _ _ := false
  afterRead _ w := w

theorem a_timer_looked_at_late :
    Monotone lateClock ∧ 0 < 10 ∧
      let r := (start lateClock "tick" 10 [((), 0)] 0 ()).run silence lateClock
        [.look, .select fun _ _ => [], .look]
      r.scene.log = [.began 0, .looked 4 .pending 10, .looked 43 (.units 1) 50, .dispatched 44,
        .looked 45 .pending 50] ∧
      (Stint.ofLog r.scene.log).dispatches ≤ 4 := by
  have hclock : Monotone lateClock := by
    intro i j hij
    simp only [lateClock]
    split <;> split <;> omega
  obtain ⟨-, -, hfew, -⟩ := timer_keeps_its_grid silence lateClock hclock "tick" 10 (by decide)
    [((), 0)] 0 () [.look, .select fun _ _ => [], .look]
  exact ⟨hclock, by decide, by decide +kernel, hfew⟩

end TimerRun

end ControlBus
