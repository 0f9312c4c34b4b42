-- The signals of an event against the looks and the dispatches that account for them, whatever
-- other sources stand beside the event and whenever signals come.
import ControlBus.Proofs.LogPlaces
import ControlBus.Proofs.SchedulerRuns
import ControlBus.Scheduler.Event
import Mathlib.Algebra.GroupWithZero.Nat
import Mathlib.Data.List.Induction

namespace ControlBus

/-! ## What is seen of an event -/

/-- What was seen to happen to an event, and to the multiplexer that holds it. -/
inductive Mark where
  | signalled
  /-- The event was looked at, and so many signals were taken in. -/
  | looked (n : Nat)
  /-- The event was dispatched, and so many signals are done with. -/
  | dispatched (n : Nat)
  /-- A selection began. -/
  | began
  /-- A selection ended. -/
  | ended (outcome : Selection)
deriving Repr, DecidableEq

namespace Mark

@[simp]
def units : Mark → Nat
  | looked n => n
  | _ => 0

@[simp]
def spent : Mark → Nat
  | dispatched n => n
  | _ => 0

/-- A mark that a selection leaves while it is not decided. -/
def Idle : Mark → Prop
  | signalled | looked _ => True
  | _ => False

end Mark

/-- How many signals have been given. -/
def given (log : List Mark) : Nat := log.count .signalled

/-- How many signals have been taken in by looks. -/
def takenIn (log : List Mark) : Nat := (log.map Mark.units).sum

/-- How many signals have been accounted for by dispatches. -/
def spent (log : List Mark) : Nat := (log.map Mark.spent).sum

section

variable (log more : List Mark) (m : Mark)

@[simp]
theorem given_nil : given [] = 0 := rfl

@[simp]
theorem takenIn_nil : takenIn [] = 0 := rfl

@[simp]
theorem spent_nil : spent [] = 0 := rfl

@[simp]
theorem given_cons : given (m :: log) = given log + if m = .signalled then 1 else 0 := by
  simp [given, List.count_cons]

@[simp]
theorem takenIn_cons : takenIn (m :: log) = m.units + takenIn log := by simp [takenIn]

@[simp]
theorem spent_cons : spent (m :: log) = m.spent + spent log := by simp [spent]

@[simp]
theorem given_append : given (log ++ more) = given log + given more := List.count_append

@[simp]
theorem takenIn_append : takenIn (log ++ more) = takenIn log + takenIn more := by
  simp [takenIn]

@[simp]
theorem spent_append : spent (log ++ more) = spent log + spent more := by
  simp [spent]

end

/-- What is true of a selection that ends after this log, if the event is source `k`. It has
dispatched the event just if it answers with it. If it answers that nothing happened, it has
looked at the event, and no signal that was taken in is left. -/
structure Ends (k : Nat) (log : List Mark) (outcome : Selection) : Prop where
  session : ∃ before marks, log = before ++ .began :: marks ∧ Mark.began ∉ marks ∧
    ((∃ n, Mark.dispatched n ∈ marks) ↔ outcome = .ready k) ∧
    (outcome = .timeout → ∃ n, Mark.looked n ∈ marks)
  idle : outcome = .timeout → spent log = takenIn log

/-- When a mark may come after a log. -/
def Lawful (k : Nat) (log : List Mark) : Mark → Prop
  | .signalled | .began => True
  | .looked n => takenIn log + n = given log
  | .dispatched n => 0 < n ∧ spent log + n = takenIn log
  | .ended outcome => Ends k log outcome

/-- Dispatches and answers that nothing happened come when all signals have been taken in. -/
def Prompt (log : List Mark) : Mark → Prop
  | .dispatched _ | .ended .timeout => takenIn log = given log
  | _ => True

/-- Every mark of a log obeys a law about what may come after what. -/
def Obeys (law : List Mark → Mark → Prop) (log : List Mark) : Prop :=
  ∀ before m after, log = before ++ m :: after → law before m

namespace Obeys

variable {law : List Mark → Mark → Prop} {log : List Mark}

theorem nil : Obeys law [] := by
  intro before m after h
  cases before <;> cases h

theorem snoc (h : Obeys law log) {m : Mark} (hm : law log m) : Obeys law (log ++ [m]) :=
  law_snoc h hm

theorem of_snoc {m : Mark} (h : Obeys law (log ++ [m])) : Obeys law log ∧ law log m :=
  ⟨fun before x after hsplit => h before x (after ++ [m]) (by simp [hsplit]), h log m [] rfl⟩

theorem of_append {more : List Mark} (h : Obeys law (log ++ more)) : Obeys law log :=
  fun before x after hsplit => h before x (after ++ more) (by simp [hsplit])

/-- Marks that a law allows anywhere. -/
theorem append (h : Obeys law log) {more : List Mark} (hmore : ∀ m ∈ more, ∀ l, law l m) :
    Obeys law (log ++ more) := by
  induction more using List.reverseRecOn with
  | nil => simpa using h
  | append_singleton rest m ih =>
    rw [← List.append_assoc]
    exact (ih fun x hx => hmore x (List.mem_append_left _ hx)).snoc
      (hmore m (by simp) (log ++ rest))

end Obeys

/-! ## What the laws mean -/

theorem exists_dispatched {log : List Mark} (h : 0 < spent log) :
    ∃ n, Mark.dispatched n ∈ log := by
  induction log with
  | nil => simp at h
  | cons m rest ih =>
    cases m with
    | dispatched n => exact ⟨n, List.mem_cons_self⟩
    | signalled | looked | began | ended =>
      obtain ⟨n, hn⟩ := ih (by simpa using h)
      exact ⟨n, List.mem_cons_of_mem _ hn⟩

section

variable {k : Nat} {log l l₁ l₂ l₃ : List Mark} {m n : Nat}

/-- Nothing is taken in that was not given, and nothing is spent that was not taken in. -/
theorem Obeys.balance (h : Obeys (Lawful k) log) :
    spent log ≤ takenIn log ∧ takenIn log ≤ given log := by
  induction log using List.reverseRecOn with
  | nil => simp
  | append_singleton rest m ih =>
    obtain ⟨hrest, hm⟩ := h.of_snoc
    obtain ⟨hspent, htaken⟩ := ih hrest
    cases m with
    | signalled | began | ended =>
      simp
      omega
    | looked n =>
      simp [Lawful] at hm ⊢
      omega
    | dispatched n =>
      simp [Lawful] at hm ⊢
      omega

/-- A dispatch that comes when all signals up to some point are accounted for answers one that
came after that point. -/
theorem Obeys.signalled_of_dispatched (h : Obeys (Lawful k) (l ++ l₁ ++ .dispatched n :: l₂))
    (hl : given l ≤ spent (l ++ l₁)) : Mark.signalled ∈ l₁ := by
  obtain ⟨hpos, hn⟩ := h (l ++ l₁) (.dispatched n) l₂ rfl
  have htaken := h.of_append.balance.2
  rw [given_append] at htaken
  have hgiven : 0 < given l₁ := by omega
  exact List.count_pos_iff.mp hgiven

/-- If a selection answers that nothing happened, although a signal was given and taken in, the
signal has been dispatched. -/
theorem Obeys.dispatched_of_timeout
    (h : Obeys (Lawful k) (l ++ .signalled :: l₁ ++ .ended .timeout :: l₂))
    (hl : given l < takenIn (l ++ .signalled :: l₁)) : ∃ n, Mark.dispatched n ∈ l₁ := by
  have hidle : spent (l ++ .signalled :: l₁) = takenIn (l ++ .signalled :: l₁) :=
    (h (l ++ .signalled :: l₁) (.ended .timeout) l₂ rfl).idle rfl
  obtain ⟨hspent, htaken⟩ := h.of_append.of_append.balance
  simp [← hidle] at hl
  exact exists_dispatched (by omega)

/-- Between two dispatches there is a signal, if signals come between selections and between the
looks of a wait only. -/
theorem Obeys.signalled_between (h : Obeys (Lawful k) log) (hp : Obeys Prompt log)
    (hlog : log = l ++ .dispatched m :: (l₁ ++ .dispatched n :: l₂)) : Mark.signalled ∈ l₁ := by
  have hsplit : log = (l ++ [.dispatched m]) ++ l₁ ++ .dispatched n :: l₂ := by simp [hlog]
  obtain ⟨-, hm⟩ := h l (.dispatched m) _ hlog
  have hall : takenIn l = given l := hp l (.dispatched m) _ hlog
  refine (hsplit ▸ h).signalled_of_dispatched ?_
  simp
  omega

/-- Whenever signals come: from the last look before a dispatch to the next dispatch there is a
signal. -/
theorem Obeys.signalled_since_look (h : Obeys (Lawful k) log) {a : Nat}
    (hlog : log = l ++ .looked a :: (l₁ ++ .dispatched m :: (l₂ ++ .dispatched n :: l₃))) :
    Mark.signalled ∈ l₁ ++ l₂ := by
  have hsplit : log =
      (l ++ [.looked a]) ++ (l₁ ++ .dispatched m :: l₂) ++ .dispatched n :: l₃ := by simp [hlog]
  have hlook : takenIn l + a = given l := h l (.looked a) _ hlog
  obtain ⟨-, hm⟩ := h (l ++ .looked a :: l₁) (.dispatched m) (l₂ ++ .dispatched n :: l₃)
    (by simp [hlog])
  have hsignal := (hsplit ▸ h).signalled_of_dispatched (by
    simp at hm ⊢
    omega)
  simpa using hsignal

/-- From a signal to an answer that nothing happened there is a dispatch, if signals come between
selections and between the looks of a wait only. -/
theorem Obeys.dispatched_between (h : Obeys (Lawful k) log) (hp : Obeys Prompt log)
    (hlog : log = l ++ .signalled :: (l₁ ++ .ended .timeout :: l₂)) :
    ∃ n, Mark.dispatched n ∈ l₁ := by
  have hsplit : log = l ++ .signalled :: l₁ ++ .ended .timeout :: l₂ := by simp [hlog]
  have hall : takenIn (l ++ .signalled :: l₁) = given (l ++ .signalled :: l₁) :=
    hp _ (.ended .timeout) l₂ hsplit
  refine (hsplit ▸ h).dispatched_of_timeout ?_
  rw [hall, given_append, given_cons, if_pos rfl]
  omega

/-- Whenever signals come: from a signal to an answer that nothing happened there is a dispatch,
if the event was looked at in between. -/
theorem Obeys.dispatched_since_look (h : Obeys (Lawful k) log)
    (hlog : log = l ++ .signalled :: (l₁ ++ .ended .timeout :: l₂))
    (hlook : Mark.looked n ∈ l₁) : ∃ n, Mark.dispatched n ∈ l₁ := by
  have hsplit : log = l ++ .signalled :: l₁ ++ .ended .timeout :: l₂ := by simp [hlog]
  obtain ⟨x, y, hxy⟩ := List.append_of_mem hlook
  have hread : takenIn (l ++ .signalled :: x) + n = given (l ++ .signalled :: x) :=
    h (l ++ .signalled :: x) (.looked n) (y ++ .ended .timeout :: l₂) (by simp [hlog, hxy])
  refine (hsplit ▸ h).dispatched_of_timeout ?_
  simp [hxy] at hread ⊢
  omega

/-- Whenever signals come: a selection that begins after a signal answers that nothing happened
only if there is a dispatch in between. -/
theorem Obeys.dispatched_before_timeout (h : Obeys (Lawful k) log)
    (hlog : log = l ++ .signalled :: (l₁ ++ .ended .timeout :: l₂)) (hbegan : Mark.began ∈ l₁) :
    ∃ n, Mark.dispatched n ∈ l₁ := by
  obtain ⟨before, marks, hsession, hnot, -, hlooked⟩ :=
    (h (l ++ .signalled :: l₁) (.ended .timeout) l₂ (by simp [hlog])).session
  obtain ⟨n, hn⟩ := hlooked rfl
  -- The selection that ends began last, so it lies behind the signal as a whole.
  refine h.dispatched_since_look hlog (n := n) ?_
  obtain ⟨x, -, hx⟩ | ⟨x, -, hx⟩ := List.append_eq_append_iff.mp hsession
  · cases x with
    | nil => cases hx
    | cons y x =>
      obtain ⟨-, rfl⟩ := List.cons.inj hx
      simp [hn]
  · cases x with
    | nil => cases hx
    | cons y x =>
      obtain ⟨-, rfl⟩ := List.cons.inj hx
      exact absurd (by simp [hbegan]) hnot

end

/-! ## The event among other sources -/

/-- An event, the world of the other sources, and what was seen of the event. -/
structure Scene (τ : Type) where
  event : Event
  others : τ
  /-- The signals that come just before each of the next calls of a source, in the middle of
  whatever the multiplexer does. Who signals may change the other sources first. -/
  coming : List (List (τ → τ)) := []
  log : List Mark := []

/-- What others do between selections and between the looks of a wait. -/
inductive Outside (τ : Type) where
  /-- Signal the event, after some change of the other sources: noting a resolved constraint,
  say. -/
  | signal (note : τ → τ)
  /-- Change the other sources. -/
  | change (f : τ → τ)

namespace Scene

variable {τ : Type}

def mark (m : Mark) (s : Scene τ) : Scene τ := { s with log := s.log ++ [m] }

def signal (note : τ → τ) (s : Scene τ) : Scene τ :=
  { s with
    event := s.event.notify 1
    others := note s.others
    log := s.log ++ [.signalled] }

/-- The signals come that come before the next call. -/
def land (s : Scene τ) : Scene τ :=
  match s.coming with
  | [] => s
  | notes :: rest => notes.foldl (fun s note => s.signal note) { s with coming := rest }

/-- Look at the event. -/
def look (s : Scene τ) : Reading × Scene τ :=
  let (reading, event) := s.event.poll
  (reading, { s with event, log := s.log ++ [.looked s.event.signals] })

/-- Dispatch the event. -/
def dispatch (s : Scene τ) : Scene τ :=
  { s with event := s.event.afterRead, log := s.log ++ [.dispatched s.event.buffered] }

def outside (s : Scene τ) : Outside τ → Scene τ
  | .signal note => s.signal note
  | .change f => { s with others := f s.others }

end Scene

/-- The sources of a scene: source `k` is the event. -/
def SourceOps.besides {τ : Type} (ops : SourceOps Nat τ) (k : Nat) : SourceOps Nat (Scene τ) where
  poll i s :=
    let s := s.land
    if i = k then s.look
    else
      let (reading, others) := ops.poll i s.others
      (reading, { s with others })
  hasData i s := if i = k then s.event.hasData else ops.hasData i s.others
  hasMore i s := if i = k then false else ops.hasMore i s.others
  afterRead i s :=
    let s := s.land
    if i = k then s.dispatch else { s with others := ops.afterRead i s.others }

/-! ## Steps of a scene -/

namespace Scene

variable {τ : Type} {ops : SourceOps Nat τ} {k : Nat} {s s' : Scene τ}

/-- What happens to an event while a selection is not decided. -/
inductive Step : Scene τ → Scene τ → Prop where
  | signal (note : τ → τ) (s : Scene τ) : Step s (s.signal note)
  | look (s : Scene τ) : Step s s.look.2
  /-- The event has no part in this. -/
  | aside {s s' : Scene τ} (event : s'.event = s.event) (log : s'.log = s.log)
      (coming : s.coming = [] → s'.coming = []) : Step s s'

abbrev Steps : Scene τ → Scene τ → Prop := Relation.ReflTransGen Step

/-- Every signal is somewhere: not looked at, looked at, or dispatched. The log tells how it got
there. -/
structure Sound (k : Nat) (s : Scene τ) : Prop where
  signals : takenIn s.log + s.event.signals = given s.log
  buffered : spent s.log + s.event.buffered = takenIn s.log
  lawful : Obeys (Lawful k) s.log

theorem look_event (s : Scene τ) :
    s.look.2.event =
      { s.event with signals := 0, buffered := s.event.buffered + s.event.signals } := by
  simp only [look, Event.poll]
  split
  · rename_i h
    rcases s with ⟨⟨name, signals, buffered⟩, others, coming, log⟩
    simp_all
  · rfl

theorem Step.sound (h : Step s s') (hs : s.Sound k) : s'.Sound k := by
  obtain ⟨hsignals, hbuffered, hlawful⟩ := hs
  cases h with
  | signal note =>
    have hlog : (s.signal note).log = s.log ++ [.signalled] := rfl
    have hevent : (s.signal note).event = s.event.notify 1 := rfl
    refine ⟨?_, ?_, hlawful.snoc trivial⟩
    · simp [hlog, hevent, Event.notify]
      omega
    · simpa [hlog, hevent, Event.notify] using hbuffered
  | look =>
    have hlog : s.look.2.log = s.log ++ [.looked s.event.signals] := rfl
    refine ⟨?_, ?_, hlawful.snoc hsignals⟩
    · simpa [hlog, look_event] using hsignals
    · simp [hlog, look_event]
      omega
  | aside event log coming =>
    exact ⟨log ▸ event ▸ hsignals, log ▸ event ▸ hbuffered, log ▸ hlawful⟩

/-- How a scene may grow while a selection is not decided. -/
structure Grows (s s' : Scene τ) : Prop where
  marks : ∃ marks, s'.log = s.log ++ marks ∧ ∀ m ∈ marks, m.Idle
  coming : s.coming = [] → s'.coming = []

theorem Grows.refl (s : Scene τ) : Grows s s := ⟨⟨[], by simp⟩, fun h => h⟩

theorem Grows.trans {s'' : Scene τ} (h : Grows s s') (h' : Grows s' s'') : Grows s s'' := by
  obtain ⟨⟨marks, hlog, hmarks⟩, hcoming⟩ := h
  obtain ⟨⟨marks', hlog', hmarks'⟩, hcoming'⟩ := h'
  refine ⟨⟨marks ++ marks', by rw [hlog', hlog, List.append_assoc], ?_⟩,
    fun hs => hcoming' (hcoming hs)⟩
  intro m hm
  rcases List.mem_append.mp hm with hm | hm
  · exact hmarks m hm
  · exact hmarks' m hm

theorem Step.grows (h : Step s s') : Grows s s' := by
  cases h with
  | signal note => exact ⟨⟨[.signalled], rfl, by simp [Mark.Idle]⟩, fun hs => hs⟩
  | look => exact ⟨⟨[.looked s.event.signals], rfl, by simp [Mark.Idle]⟩, fun hs => hs⟩
  | aside event log coming => exact ⟨⟨[], by simp [log]⟩, coming⟩

theorem Steps.sound (h : Steps s s') (hs : s.Sound k) : s'.Sound k := by
  induction h with
  | refl => exact hs
  | tail _ step ih => exact step.sound ih

theorem Steps.grows (h : Steps s s') : Grows s s' := by
  induction h with
  | refl => exact .refl s
  | tail _ step ih => exact ih.trans step.grows

/-! ## Calls -/

theorem land_nil (h : s.coming = []) : s.land = s := by rw [land, h]

theorem signals_steps (notes : List (τ → τ)) (s : Scene τ) :
    Steps s (notes.foldl (fun s note => s.signal note) s) := by
  induction notes generalizing s with
  | nil => exact .refl
  | cons note notes ih => exact (ih (s.signal note)).head (.signal note s)

theorem land_steps (s : Scene τ) : Steps s s.land := by
  unfold land
  split
  · exact .refl
  · rename_i notes rest hcoming
    have hpop : Step s { s with coming := rest } := by
      refine .aside rfl rfl fun hnil => ?_
      rw [hcoming] at hnil
      cases hnil
    exact (signals_steps notes _).head hpop

/-- What neither signals nor their being awaited change is as before they came. -/
theorem land_keeps {α : Type} (f : Scene τ → α) (hsignal : ∀ note v, f (signal note v) = f v)
    (hcoming : ∀ v rest, f { v with coming := rest } = f v) (s : Scene τ) : f s.land = f s := by
  unfold land
  split
  · rfl
  · rename_i notes rest hnext
    rw [← hcoming s rest]
    generalize ({ s with coming := rest } : Scene τ) = v
    clear hnext
    induction notes generalizing v with
    | nil => rfl
    | cons note notes ih => exact (ih (v.signal note)).trans (hsignal note v)

theorem land_buffered (s : Scene τ) : s.land.event.buffered = s.event.buffered :=
  land_keeps (·.event.buffered) (fun _ _ => rfl) (fun _ _ => rfl) s

theorem poll_self (ops : SourceOps Nat τ) (k : Nat) (s : Scene τ) :
    (ops.besides k).poll k s = s.land.look := by
  simp [SourceOps.besides]

theorem poll_steps (ops : SourceOps Nat τ) (k i : Nat) (s : Scene τ) :
    Steps s ((ops.besides k).poll i s).2 := by
  by_cases hi : i = k
  · subst hi
    rw [poll_self]
    exact (land_steps s).tail (.look s.land)
  · have hpoll : ((ops.besides k).poll i s).2 =
        { s.land with others := (ops.poll i s.land.others).2 } := by
      simp [SourceOps.besides, hi]
    rw [hpoll]
    exact (land_steps s).tail (.aside rfl rfl fun h => h)

/-- A look at the event never fails. -/
theorem look_reads (s : Scene τ) (e : BusError) : s.look.1 ≠ .failed e := by
  simp only [look, Event.poll]
  split <;> simp

theorem outside_step (s : Scene τ) (o : Outside τ) : Step s (s.outside o) := by
  cases o with
  | signal note => exact .signal note s
  | change f => exact .aside rfl rfl fun h => h

theorem outside_steps (s : Scene τ) (os : List (Outside τ)) : Steps s (os.foldl outside s) := by
  induction os generalizing s with
  | nil => exact .refl
  | cons o os ih => exact (ih (s.outside o)).head (outside_step s o)

/-- No look at another source decides whether the event has data. -/
theorem owns_event (ops : SourceOps Nat τ) (k : Nat) : (ops.besides k).Owns k := by
  intro i s hi
  simp [SourceOps.besides, hi, Event.hasData, land_buffered]

/-- A dispatch of the event takes all that was looked at. -/
theorem Sound.dispatch (h : s.Sound k) (hdata : 0 < s.event.buffered) : s.dispatch.Sound k := by
  obtain ⟨hsignals, hbuffered, hlawful⟩ := h
  have hlog : s.dispatch.log = s.log ++ [.dispatched s.event.buffered] := rfl
  have hevent : s.dispatch.event = s.event.afterRead := rfl
  refine ⟨?_, ?_, hlawful.snoc ⟨hdata, hbuffered⟩⟩
  · simpa [hlog, hevent, Event.afterRead] using hsignals
  · simpa [hlog, hevent, Event.afterRead] using hbuffered

/-! ## A selection -/

variable {p p' : PlainScheduler Nat}

theorem leads_steps (h : PlainScheduler.Leads (ops.besides k) Steps p s s') : Steps s s' := by
  induction h with
  | refl => exact .refl
  | tail _ stir ih =>
    cases stir with
    | look => exact ih.trans (poll_steps ops k _ _)
    | meanwhile h => exact ih.trans h

/-- A pass that no source ends looks at the event. If no signal comes in the middle of it, none
is left that was not taken in. -/
theorem pass_looks (hn : p.Numbered) (hk : p.Opened k)
    (hpass : PlainScheduler.passOver (ops.besides k) 0 p.sources s = (p.sources, none, s')) :
    (∃ marks n, s'.log = s.log ++ marks ∧ Mark.looked n ∈ marks) ∧
      (s.coming = [] → s'.event.signals = 0) := by
  obtain ⟨r, hr, hopen⟩ := hk
  have hevent : ∃ r ∈ p.sources, r.source = k ∧ r.closed = false :=
    ⟨r, List.mem_of_getElem? hr, hn.source_eq hr, hopen⟩
  constructor
  · refine (PlainScheduler.passOver_sees (Grows s)
      (fun v => ∃ marks n, v.log = s.log ++ marks ∧ Mark.looked n ∈ marks)
      ?_ ?_ ?_ 0 (.refl s) hpass (Or.inr hevent)).2
    · exact fun i v hv => hv.trans (poll_steps ops k i v).grows
    · intro v hv
      obtain ⟨marks, hlog, -⟩ := (hv.trans (land_steps v).grows).marks
      rw [poll_self]
      refine ⟨marks ++ [.looked v.land.event.signals], v.land.event.signals, ?_, by simp⟩
      rw [← List.append_assoc, ← hlog]
      rfl
    · rintro i v - - ⟨marks, n, hlog, hn⟩
      obtain ⟨more, hmore, -⟩ := (poll_steps ops k i v).grows.marks
      exact ⟨marks ++ more, n, by rw [hmore, hlog, List.append_assoc], List.mem_append_left _ hn⟩
  · intro hcoming
    refine (PlainScheduler.passOver_sees (fun v => v.coming = [])
      (fun v => v.event.signals = 0) ?_ ?_ ?_ 0 hcoming hpass (Or.inr hevent)).2
    · exact fun i v hv => (poll_steps ops k i v).grows.coming hv
    · intro v _
      rw [poll_self, look_event]
    · intro i v hi hv hsignals
      simp [SourceOps.besides, hi, land_nil hv, hsignals]

/-- What a selection has done when it answers. -/
structure Answers (k : Nat) (s s' : Scene τ) (outcome : Selection) : Prop where
  sound : s'.Sound k
  session : ∃ marks, s'.log = s.log ++ marks ∧ Mark.began ∉ marks ∧
    ((∃ n, Mark.dispatched n ∈ marks) ↔ outcome = .ready k) ∧
    (outcome = .timeout → ∃ n, Mark.looked n ∈ marks)
  idle : outcome = .timeout → s'.event.buffered = 0
  /-- Unless signals come in the middle of a pass. -/
  calm : s.coming = [] → s'.coming = [] ∧ (Obeys Prompt s.log → Obeys Prompt s'.log) ∧
    (outcome = .timeout → s'.event.signals = 0)

theorem Grows.calm (h : Grows s s') (hp : Obeys Prompt s.log) : Obeys Prompt s'.log := by
  obtain ⟨marks, hlog, hidle⟩ := h.marks
  rw [hlog]
  refine hp.append fun m hm l => ?_
  have := hidle m hm
  cases m with
  | signalled | looked => trivial
  | began | dispatched | ended => exact this.elim

theorem Grows.session (h : Grows s s') :
    ∃ marks, s'.log = s.log ++ marks ∧ Mark.began ∉ marks ∧ ∀ n, Mark.dispatched n ∉ marks := by
  obtain ⟨marks, hlog, hidle⟩ := h.marks
  exact ⟨marks, hlog, fun hm => hidle _ hm, fun n hm => hidle _ hm⟩

/-- A selection that came to nothing for the event: it stays with whatever was looked at. -/
theorem Steps.answers (h : Steps s s') (hs : s.Sound k) {outcome : Selection}
    (hready : outcome ≠ .ready k) (htimeout : outcome ≠ .timeout) : Answers k s s' outcome where
  sound := h.sound hs
  session := by
    obtain ⟨marks, hlog, hbegan, hnone⟩ := h.grows.session
    refine ⟨marks, hlog, hbegan, ⟨fun ⟨n, hn⟩ => absurd hn (hnone n), fun h => absurd h hready⟩,
      fun h => absurd h htimeout⟩
  idle h := absurd h htimeout
  calm hcoming := ⟨h.grows.coming hcoming, h.grows.calm, fun h => absurd h htimeout⟩

/-- A selection that dispatches the event takes all that was looked at. Signals that come after
the last look stay where they are. -/
theorem answers_dispatch (h : Steps s s') (hs : s.Sound k) (hdata : 0 < s'.event.buffered)
    (hcalm : s.coming = [] → s'.event.signals = 0) :
    Answers k s ((ops.besides k).afterRead k s') (.ready k) := by
  have hafter : (ops.besides k).afterRead k s' = s'.land.dispatch := by simp [SourceOps.besides]
  have hlog : s'.land.dispatch.log = s'.land.log ++ [.dispatched s'.land.event.buffered] := rfl
  have hland : Steps s s'.land := h.trans (land_steps s')
  have hsound : s'.land.Sound k := Steps.sound hland hs
  have hgrows : Grows s s'.land := Steps.grows hland
  rw [hafter]
  refine ⟨hsound.dispatch (land_buffered s' ▸ hdata), ?_, fun h => (nomatch h), fun hcoming => ?_⟩
  · obtain ⟨marks, hmarks, hbegan, -⟩ := hgrows.session
    refine ⟨marks ++ [.dispatched s'.land.event.buffered], ?_, by simp [hbegan], by simp,
      fun h => (nomatch h)⟩
    rw [hlog, hmarks, List.append_assoc]
  · have hstill : s'.land = s' := land_nil ((Steps.grows h).coming hcoming)
    rw [hstill] at hsound hgrows ⊢
    refine ⟨hgrows.coming hcoming, fun hp => (hgrows.calm hp).snoc ?_, fun h => (nomatch h)⟩
    have hsignals := hsound.signals
    rwa [hcalm hcoming] at hsignals

/-- What a last turn leads to, that comes after some steps. -/
theorem decides_answers (hn : p.Numbered) (hk : p.Opened k) (hs : s.Sound k) {u v : Scene τ}
    (hu : Steps s u) {outcome : Selection}
    (hdecides : PlainScheduler.Decides (ops.besides k) Steps p u outcome p' v) :
    Answers k s v outcome ∧ outcome.failed? ≠ some k := by
  cases hdecides with
  | @failed id r e w _ looks known opened fails =>
    have hid : id ≠ k := by
      rintro rfl
      rw [hn.source_eq known, poll_self] at fails
      exact look_reads w.land e (congrArg Prod.fst fails)
    have hlast : Steps w v := by
      have := poll_steps ops k r.source w
      rwa [fails] at this
    have hall : Steps s v := (hu.trans (leads_steps looks)).trans hlast
    refine ⟨Steps.answers hall hs (by simp) (by simp), ?_⟩
    simpa [Selection.failed?] using hid
  | @ready id r w looks pass known eligible =>
    refine ⟨?_, by simp [Selection.failed?]⟩
    have hall : Steps s w := hu.trans (leads_steps looks)
    rw [hn.source_eq known]
    by_cases hid : id = k
    · subst hid
      have hdata : 0 < w.event.buffered := by
        simpa [PlainSource.eligible, hn.source_eq known, SourceOps.besides, Event.hasData] using
          (Bool.and_eq_true_iff.mp eligible).2
      exact answers_dispatch hall hs hdata
        fun hcoming => (pass_looks hn hk pass).2 (Steps.grows hu |>.coming hcoming)
    · have hland : (ops.besides k).afterRead id w =
          { w.land with others := ops.afterRead id w.land.others } := by
        simp [SourceOps.besides, hid]
      have hafter : Steps s ((ops.besides k).afterRead id w) := by
        rw [hland]
        exact (hall.trans (land_steps w)).tail (.aside rfl rfl fun h => h)
      exact Steps.answers hafter hs (by simpa using hid) (by simp)
  | timeout looks pass idle =>
    refine ⟨?_, by simp [Selection.failed?]⟩
    have hall : Steps s v := hu.trans (leads_steps looks)
    obtain ⟨⟨marks, n, hlog, hlooked⟩, hsignals⟩ := pass_looks hn hk pass
    have hgrows : Grows s v := Steps.grows hall
    have hbefore : Grows s u := Steps.grows hu
    refine ⟨Steps.sound hall hs, ?_, fun _ => ?_,
      fun hcoming =>
        ⟨hgrows.coming hcoming, hgrows.calm, fun _ => hsignals (hbefore.coming hcoming)⟩⟩
    · obtain ⟨more, hmore, -⟩ := hbefore.marks
      obtain ⟨all, hall, hbegan, hnone⟩ := hgrows.session
      have heq : all = more ++ marks := by
        rw [hlog, hmore, List.append_assoc] at hall
        exact (List.append_cancel_left hall).symm
      refine ⟨all, hall, hbegan, ⟨?_, fun h => absurd h (by simp)⟩,
        fun _ => ⟨n, heq ▸ List.mem_append_right _ hlooked⟩⟩
      rintro ⟨n, hn⟩
      exact absurd hn (hnone n)
    · -- Signals that were taken in are the data of the event, whatever the others are polled for.
      obtain ⟨r, hr, hopen⟩ := hk
      have hown : (ops.besides k).Owns r.source := hn.source_eq hr ▸ owns_event ops k
      have hnot := idle r (List.mem_of_getElem? hr) hown
      simpa [PlainSource.eligible, hopen, hn.source_eq hr, SourceOps.besides, Event.hasData]
        using hnot

/-- A selection answers as it has done, and keeps the event open. -/
theorem select_answers (ops : SourceOps Nat τ) {m : Multiplexer Nat} (hm : m.Sound)
    (hn : m.plain.Numbered) (hk : m.plain.Opened k) (hs : s.Sound k)
    (events : Multiplexer Nat → Scene τ → List (Scene τ → Scene τ))
    (hev : ∀ m v, ∀ e ∈ events m v, ∀ u, Steps u (e u)) :
    let out := m.select (ops.besides k) events s
    out.2.1.Sound ∧ out.2.1.plain.Numbered ∧ out.2.1.plain.Opened k ∧
      Answers k s out.2.2 out.1 := by
  intro out
  obtain ⟨hsound, u, hu, hdecides⟩ := m.select_decides (ops.besides k) Steps hm events hev s
  change PlainScheduler.Decides _ _ m.plain u out.1 out.2.1.plain out.2.2 at hdecides
  obtain ⟨hanswers, halive⟩ := decides_answers hn hk hs (leads_steps hu) hdecides
  refine ⟨hsound, hdecides.numbered hn, ?_, hanswers⟩
  obtain ⟨hlt, hopen⟩ := PlainScheduler.opened_iff.mp hk
  have hlength := congrArg List.length hdecides.names_eq
  rw [PlainScheduler.names, PlainScheduler.names, List.length_map, List.length_map] at hlength
  refine PlainScheduler.opened_iff.mpr ⟨hlength ▸ hlt, fun hc => ?_⟩
  exact ((hdecides.closed_iff k).mp hc).elim hopen halive

end Scene

/-! ## Runs -/

/-- What happens to a multiplexer that holds an event. -/
inductive SignalAct (τ : Type) where
  /-- A further source is registered. -/
  | add (priority : Int)
  | outside (o : Outside τ)
  /-- A selection; `events` tells what others do between the looks of its wait. -/
  | select (events : PlainScheduler Nat → Scene τ → List (List (Outside τ)))

/-- A multiplexer and the scene of its sources. -/
structure SignalRun (τ : Type) where
  scheduler : Multiplexer Nat
  scene : Scene τ

namespace SignalRun

variable {τ : Type}

/-- A multiplexer in which sources of these priorities have been registered. -/
def registered (priorities : List Int) : Multiplexer Nat :=
  priorities.foldl (fun m priority => (m.add m.registrations.length priority).2) {}

/-- Some sources are registered, and then the event. -/
def start (name : String) (priorities : List Int) (priority : Int) (others : τ)
    (coming : List (List (τ → τ))) : SignalRun τ where
  scheduler := registered (priorities ++ [priority])
  scene := { event := { name }, others, coming }

def waits (events : PlainScheduler Nat → Scene τ → List (List (Outside τ)))
    (p : PlainScheduler Nat) (s : Scene τ) : List (Scene τ → Scene τ) :=
  (events p s).map fun os s => os.foldl Scene.outside s

def act (ops : SourceOps Nat τ) (k : Nat) (r : SignalRun τ) : SignalAct τ → SignalRun τ
  | .add priority =>
    { r with scheduler := (r.scheduler.add r.scheduler.registrations.length priority).2 }
  | .outside o => { r with scene := r.scene.outside o }
  | .select events =>
    let (outcome, scheduler, scene) := r.scheduler.select (ops.besides k)
      (fun m => waits events m.plain) (r.scene.mark .began)
    { scheduler, scene := scene.mark (.ended outcome) }

def run (ops : SourceOps Nat τ) (name : String) (priorities : List Int) (priority : Int)
    (others : τ) (coming : List (List (τ → τ))) (acts : List (SignalAct τ)) :
    SignalRun τ :=
  acts.foldl (act ops priorities.length) (start name priorities priority others coming)

variable {ops : SourceOps Nat τ} {k : Nat} {r : SignalRun τ}

/-- The event is registered as source `k`, and every signal of it is accounted for. -/
structure Sound (k : Nat) (r : SignalRun τ) : Prop where
  consistent : Consistent r.scheduler.registrations r.scheduler.workingSet
  numbered : r.scheduler.plain.Numbered
  opened : r.scheduler.plain.Opened k
  scene : r.scene.Sound k

/-- No signal comes in the middle of a pass, and none has. -/
def Calm (r : SignalRun τ) : Prop := r.scene.coming = [] ∧ Obeys Prompt r.scene.log

theorem opened_add {m : Multiplexer Nat} (h : m.plain.Opened k) (priority : Int) :
    (m.add m.registrations.length priority).2.plain.Opened k := by
  obtain ⟨hlt, hopen⟩ := PlainScheduler.opened_iff.mp h
  refine PlainScheduler.opened_iff.mpr ⟨?_, fun hc => hopen ((m.closed_add priority k).mp hc)⟩
  simp only [Multiplexer.add, Multiplexer.plain, List.length_map, List.length_append] at hlt ⊢
  omega

theorem registered_snoc (priorities : List Int) (priority : Int) :
    registered (priorities ++ [priority]) = ((registered priorities).add
      (registered priorities).registrations.length priority).2 := by
  simp [registered]

theorem registered_sound (priorities : List Int) :
    Consistent (registered priorities).registrations (registered priorities).workingSet ∧
      (registered priorities).plain.Numbered ∧
      (registered priorities).registrations.length = priorities.length ∧
      ∀ i, ¬ (registered priorities).plain.Closed i := by
  induction priorities using List.reverseRecOn with
  | nil => exact ⟨Consistent.empty, rfl, rfl, fun i ⟨r, hr, _⟩ => nomatch hr⟩
  | append_singleton rest priority ih =>
    obtain ⟨hconsistent, hnumbered, hlength, hopen⟩ := ih
    rw [registered_snoc]
    refine ⟨hconsistent.add rfl, Multiplexer.numbered_add hnumbered priority, ?_, fun i hi => ?_⟩
    · simp [Multiplexer.add, hlength]
    · exact hopen i ((Multiplexer.closed_add _ priority i).mp hi)

theorem sound_start (name : String) (priorities : List Int) (priority : Int)
    (others : τ) (coming : List (List (τ → τ))) :
    (start name priorities priority others coming).Sound priorities.length := by
  obtain ⟨hconsistent, hnumbered, hlength, hopen⟩ := registered_sound (priorities ++ [priority])
  refine ⟨hconsistent, hnumbered, PlainScheduler.opened_iff.mpr ⟨?_, hopen _⟩, rfl, rfl, .nil⟩
  rw [Multiplexer.plain, List.length_map, start, hlength]
  simp

/-- A mark that is not about signals changes no account. -/
theorem mark_sound {s : Scene τ} (h : s.Sound k) {m : Mark} (hm : Lawful k s.log m)
    (hgiven : given [m] = 0) (hunits : m.units = 0) (hspent : m.spent = 0) :
    (s.mark m).Sound k := by
  refine ⟨?_, ?_, h.lawful.snoc hm⟩
  · have hlog : takenIn (s.log ++ [m]) + s.event.signals = given (s.log ++ [m]) := by
      rw [takenIn_append, given_append, hgiven, takenIn_cons, hunits]
      exact h.signals
    exact hlog
  · have hlog : spent (s.log ++ [m]) + s.event.buffered = takenIn (s.log ++ [m]) := by
      rw [spent_append, takenIn_append, spent_cons, takenIn_cons, hunits, hspent]
      exact h.buffered
    exact hlog

/-- A selection keeps the event open, and answers as it has done. -/
theorem Sound.answers (h : r.Sound k)
    {events : PlainScheduler Nat → Scene τ → List (List (Outside τ))} {outcome : Selection}
    {m : Multiplexer Nat} {s : Scene τ}
    (hs : r.scheduler.select (ops.besides k) (fun m => waits events m.plain)
      (r.scene.mark .began) = (outcome, m, s)) :
    m.Sound ∧ m.plain.Numbered ∧ m.plain.Opened k ∧
      Scene.Answers k (r.scene.mark .began) s outcome := by
  have hscene : (r.scene.mark .began).Sound k := mark_sound h.scene trivial rfl rfl rfl
  have hsound : r.scheduler.Sound := ⟨h.consistent, h.numbered ▸ List.nodup_range⟩
  have hanswers := Scene.select_answers ops hsound h.numbered h.opened hscene
    (fun m => waits events m.plain) (by
      intro m v e he u
      obtain ⟨os, -, rfl⟩ := List.mem_map.mp he
      exact Scene.outside_steps u os)
  rwa [hs] at hanswers

theorem Sound.select (h : r.Sound k)
    (events : PlainScheduler Nat → Scene τ → List (List (Outside τ))) :
    (act ops k r (.select events)).Sound k ∧
      (r.Calm → (act ops k r (.select events)).Calm) := by
  simp only [act]
  rcases hs : r.scheduler.select (ops.besides k) (fun m => waits events m.plain)
    (r.scene.mark .began) with ⟨outcome, m, s⟩
  obtain ⟨hsound, hnumbered, hopened, hanswers⟩ := h.answers hs
  have hends : Ends k s.log outcome := by
    obtain ⟨marks, hlog, hbegan, hready, htimeout⟩ := hanswers.session
    have hbalance := hanswers.sound.buffered
    refine ⟨⟨r.scene.log, marks, ?_, hbegan, hready, htimeout⟩, fun hout => ?_⟩
    · simpa [Scene.mark] using hlog
    · rwa [hanswers.idle hout] at hbalance
  refine ⟨⟨hsound.consistent, hnumbered, hopened,
    mark_sound hanswers.sound hends rfl rfl rfl⟩, fun hc => ?_⟩
  obtain ⟨hcoming, hprompt, hsignals⟩ := hanswers.calm hc.1
  refine ⟨hcoming, (hprompt (hc.2.snoc trivial)).snoc ?_⟩
  cases outcome with
  | timeout =>
    have hall := hanswers.sound.signals
    rwa [hsignals rfl] at hall
  | ready | failed => trivial

theorem Sound.act (h : r.Sound k) (a : SignalAct τ) :
    (act ops k r a).Sound k ∧ (r.Calm → (SignalRun.act ops k r a).Calm) := by
  cases a with
  | add priority =>
    refine ⟨⟨h.consistent.add rfl, Multiplexer.numbered_add h.numbered priority,
      opened_add h.opened priority, h.scene⟩, fun hc => hc⟩
  | outside o =>
    have hstep := Scene.outside_step r.scene o
    exact ⟨⟨h.consistent, h.numbered, h.opened, hstep.sound h.scene⟩,
      fun hc => ⟨hstep.grows.coming hc.1, hstep.grows.calm hc.2⟩⟩
  | select events => exact h.select events

variable (ops) (name : String) (priorities : List Int) (priority : Int) (others : τ)
  (coming : List (List (τ → τ))) (acts : List (SignalAct τ))

theorem sound_run :
    (run ops name priorities priority others coming acts).Sound priorities.length ∧
      (coming = [] → (run ops name priorities priority others coming acts).Calm) := by
  induction acts using List.reverseRecOn with
  | nil =>
    exact ⟨sound_start name priorities priority others coming, fun hc => ⟨hc, .nil⟩⟩
  | append_singleton acts a ih =>
    rw [run, List.foldl_append]
    exact ⟨(ih.1.act a).1, fun hc => (ih.1.act a).2 (ih.2 hc)⟩

/-- Whatever sources stand beside an event, and whenever its signals come, be it in the middle of
a pass: each signal is taken in by one look and accounted for by one dispatch, or still on its
way. A look takes all signals given so far, a dispatch all that were taken in; it has at least
one, and none that the dispatch before has accounted for. Once the event was looked at, or a new
selection has begun, after a signal, no selection answers that nothing happened until the event
has been dispatched. If signals come between selections and between the looks of a wait, there is
one between any two dispatches, and from a signal to an answer that nothing happened the event is
dispatched. -/
theorem signals_are_neither_lost_nor_made_up (ops : SourceOps Nat τ) (name : String)
    (priorities : List Int) (priority : Int) (others : τ)
    (coming : List (List (τ → τ))) (acts : List (SignalAct τ)) :
    let k := priorities.length
    let r := run ops name priorities priority others coming acts
    let log := r.scene.log
    takenIn log + r.scene.event.signals = given log ∧
    spent log + r.scene.event.buffered = takenIn log ∧
    (∀ l n after, log = l ++ .looked n :: after → takenIn l + n = given l) ∧
    (∀ l n after, log = l ++ .dispatched n :: after → 0 < n ∧ spent l + n = takenIn l) ∧
    (∀ l outcome after, log = l ++ .ended outcome :: after → Ends k l outcome) ∧
    (∀ l a l₁ m l₂ n l₃,
      log = l ++ .looked a :: (l₁ ++ .dispatched m :: (l₂ ++ .dispatched n :: l₃)) →
        Mark.signalled ∈ l₁ ++ l₂) ∧
    (∀ l l₁ l₂, log = l ++ .signalled :: (l₁ ++ .ended .timeout :: l₂) →
      (Mark.began ∈ l₁ ∨ ∃ n, Mark.looked n ∈ l₁) → ∃ n, Mark.dispatched n ∈ l₁) ∧
    (coming = [] →
      (∀ l m l₁ n l₂, log = l ++ .dispatched m :: (l₁ ++ .dispatched n :: l₂) →
        Mark.signalled ∈ l₁) ∧
      ∀ l l₁ l₂, log = l ++ .signalled :: (l₁ ++ .ended .timeout :: l₂) →
        ∃ n, Mark.dispatched n ∈ l₁) := by
  intro k r log
  obtain ⟨hsound, hcalm⟩ := sound_run ops name priorities priority others coming acts
  have hlawful : Obeys (Lawful k) log := hsound.scene.lawful
  refine ⟨hsound.scene.signals, hsound.scene.buffered, ?_, ?_, ?_, ?_, ?_, fun hcoming => ⟨?_, ?_⟩⟩
  · exact fun l n after hlog => hlawful l (.looked n) after hlog
  · exact fun l n after hlog => hlawful l (.dispatched n) after hlog
  · exact fun l outcome after hlog => hlawful l (.ended outcome) after hlog
  · exact fun l a l₁ m l₂ n l₃ hlog => hlawful.signalled_since_look hlog
  · rintro l l₁ l₂ hlog (hbegan | ⟨n, hlook⟩)
    · exact hlawful.dispatched_before_timeout hlog hbegan
    · exact hlawful.dispatched_since_look hlog hlook
  · exact fun l m l₁ n l₂ hlog => hlawful.signalled_between (hcalm hcoming).2 hlog
  · exact fun l l₁ l₂ hlog => hlawful.dispatched_between (hcalm hcoming).2 hlog

/-- A signal that comes between the look at an event and its dispatch is taken in by the next
selection only, which dispatches the event once more. One that comes after the last look of a wait
does not keep the wait from ending. -/
theorem signals_in_the_middle_of_a_selection_are_answered_later :
    let ops := backlogs (fun _ => none) (fun _ => none)
    let twice := run ops "e" [] 0 (fun _ => 0) [[id], [id]]
      [.select fun _ _ => [], .select fun _ _ => []]
    let late := run ops "e" [] 0 (fun _ => 0) [[], [], [], [id]]
      [.add 0, .select fun _ _ => []]
    (∃ l m l₁ n l₂, twice.scene.log = l ++ .dispatched m :: (l₁ ++ .dispatched n :: l₂) ∧
      Mark.signalled ∉ l₁) ∧
    ∃ l l₁ l₂, late.scene.log = l ++ .signalled :: (l₁ ++ .ended .timeout :: l₂) ∧
      ∀ n, Mark.dispatched n ∉ l₁ := by
  refine ⟨⟨[.began, .signalled, .looked 1, .signalled], 1, [.ended (.ready 0), .began, .looked 1],
    1, [.ended (.ready 0)], by decide, by decide⟩, ?_⟩
  exact ⟨[.began, .looked 0, .looked 0], [], [], by decide, by simp⟩

end SignalRun

end ControlBus
