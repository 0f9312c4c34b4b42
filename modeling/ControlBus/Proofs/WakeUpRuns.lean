-- Runs of an event loop over stations: in whatever order things happen, no station that has work
-- to pop is ever forgotten.
import ControlBus.Proofs.StationOps

namespace ControlBus

/-! ## Iterations -/

namespace EventLoop

variable {ι σ : Type} {ops : MemberOps ι σ}

theorem execute_world {id : Nat} {l : EventLoop ι} {r : Registration ι}
    (hr : l.multiplexer.registrations[id]? = some r) (w : σ) :
    (l.execute ops id w).2 = (ops.execute r.source w).2 := by
  simp only [execute, hr]
  rcases ops.execute r.source w with ⟨result, w'⟩
  cases result <;> rfl

theorem settle_multiplexer (ops : MemberOps ι σ) (outcome : Selection) (l : EventLoop ι) (w : σ) :
    (settle ops outcome l w).2.1.multiplexer = l.multiplexer := by
  cases outcome with
  | timeout => rfl
  | failed id e => rfl
  | ready id =>
    simp only [settle, execute]
    split
    · rfl
    · split <;> rfl

theorem finish_multiplexer (ops : MemberOps ι σ) (outcome : Selection) (l : EventLoop ι) (w : σ) :
    (finish ops outcome l w).2.1.multiplexer = l.multiplexer := by
  rw [← settle_multiplexer ops outcome l w]
  simp only [finish, sweep]
  split <;> rfl

/-- An iteration ends with a sweep of all members. -/
theorem finish_world (ops : MemberOps ι σ) (outcome : Selection) (l : EventLoop ι) (w : σ) :
    (finish ops outcome l w).2.2 =
      (sweepAll ops l.multiplexer.registrations (settle ops outcome l w).2.2).2 := by
  rw [← settle_multiplexer ops outcome l w]
  simp only [finish, sweep]
  split <;> rfl

theorem finish_eq_timeout (ops : MemberOps ι σ) {outcome : Selection} {l : EventLoop ι} {w : σ}
    (h : (finish ops outcome l w).1 = .timeout) : outcome = .timeout := by
  cases outcome with
  | timeout => rfl
  | failed id e => cases h
  | ready id => cases h

theorem sweepAll_keeps (ops : MemberOps ι σ) {P : σ → Prop} (hp : ∀ a w, P w → P (ops.sweep a w).2)
    (rs : List (Registration ι)) {w : σ} (h : P w) : P (sweepAll ops rs w).2 := by
  induction rs generalizing w with
  | nil => exact h
  | cons r rest ih => exact ih (hp r.source w h)

end EventLoop

/-! ## Selections among stations -/

namespace Staff

variable {η : Type} (staff : Staff η)

theorem ownData : OwnData staff.ops.toSourceOps where
  poll i j w hij := by
    change Plant.consumerIs Consumer.hasData j (w.poll i).2 = Plant.consumerIs Consumer.hasData j w
    cases hi : w.stations[i]? with
    | none => simp only [Plant.poll, hi]
    | some st => simp [Plant.poll, hi, Plant.consumerIs, Plant.change, hij]

theorem pollsKeep {n : Nat} {E : Happening η → Prop} {Q : Plant η → Prop}
    (hQ : Plant.Lasting E Q) :
    PollsKeep staff.ops.toSourceOps (fun w => w.Attentive n ∧ Q w) Plant.Looked where
  keeps i w h := ⟨(h.1.poll i).1, hQ.poll w i h.1.posted h.2⟩
  reads i _ h := (h.1.poll i).2.1
  self i _ h := (h.1.poll i).2.2
  others _ _ _ h hij hlook := h.1.looked_poll hij hlook

/-- A station that was looked at and shows no data has no work. -/
theorem no_work {w : Plant η} {n : Nat} (h : w.Attentive n) {i : Nat} {st : Station} {p : Post}
    (hi : w.stations[i]? = some st) (hp : st.consumer.post? = some p) (hlook : w.Looked i)
    (hdata : staff.ops.hasData i w = false) : p.work w.store = [] := by
  have hzero : ¬ 0 < p.signal.pending := by
    have hshow : st.consumer.hasData = false := by
      simpa [ops, Plant.consumerIs, hi] using hdata
    rw [Consumer.hasData_post hp] at hshow
    simpa using hshow
  by_contra hne
  rcases h.awake i st hi p hp hne with hpos | hin
  · exact hzero hpos
  · exact hin ((hlook st p hi hp).resolve_left hzero)

/-- Handlers and resolutions that leave the store and the stations alone. -/
structure KeepsToItself : Prop where
  handle : ∀ i item s e, ∀ h ∈ (staff.handle i item s e).2, ∃ f, h = .elsewhere f
  resolved : ∀ i s e, ∀ h ∈ (staff.resolved i s e).2, ∃ f, h = .elsewhere f

theorem store_elsewhere {events : List (Happening η)} (h : ∀ e ∈ events, ∃ f, e = .elsewhere f)
    (w : Plant η) : (w.happenAll events).store = w.store := by
  induction events generalizing w with
  | nil => rfl
  | cons e rest ih =>
    obtain ⟨f, rfl⟩ := h e List.mem_cons_self
    exact ih (fun e he => h e (List.mem_cons_of_mem _ he)) _

variable {staff}

theorem KeepsToItself.sweep (h : staff.KeepsToItself) (i : Nat) (w : Plant η) :
    (staff.sweep i w).2.store = w.store := by
  simp only [Staff.sweep]
  cases hi : w.stations[i]? with
  | none => rfl
  | some st =>
    exact (Executor.sweep_keeps (p := staff.workplace i) (P := fun v => v.store = w.store)
      (fun item v hv => (store_elsewhere (h.handle i item v.store v.rest) v).trans hv)
      (fun v hv => (store_elsewhere (h.resolved i v.store v.rest) v).trans hv) st.executor rfl).1

end Staff

/-! ## Runs -/

/-- What happens to an event loop and around it. -/
inductive LoopAct (η : Type) where
  | happen (e : Happening η)
  /-- A station becomes a member of the loop; nothing becomes a member twice. -/
  | enroll (i : Nat) (priority : Int)
  /-- One iteration; `waits` tells what happens from each look at the members to the next. -/
  | iterate (waits : List (List (Happening η)))

/-- An event loop and the stations among which it selects. -/
structure LoopRun (η : Type) where
  plant : Plant η
  loop : EventLoop Nat

namespace LoopRun

variable {η : Type}

/-- An empty store with any size of inboxes, and a loop without members. -/
def start (announcing : Bool) (draws : List Nat) (bufferSize maxPayload waitTimeout : Nat)
    (rest : η) : LoopRun η where
  plant := {
    store := { contents := { announcing, draws }, board := .ofBufferSize bufferSize, maxPayload }
    rest }
  loop := { waitTimeout }

def members (r : LoopRun η) : List Nat := r.loop.multiplexer.plain.names

def events (waits : List (List (Happening η))) : List (Plant η → Plant η) :=
  waits.map fun batch w => w.happenAll batch

def iterate (staff : Staff η) (waits : List (List (Happening η))) (r : LoopRun η) :
    Iteration × LoopRun η :=
  let (iteration, loop, plant) := r.loop.runOnce staff.ops (fun _ _ => events waits) r.plant
  (iteration, { plant, loop })

/-- The selection with which the next iteration begins. -/
def select (staff : Staff η) (waits : List (List (Happening η))) (r : LoopRun η) :
    Selection × Multiplexer Nat × Plant η :=
  r.loop.multiplexer.select staff.ops.toSourceOps (fun _ _ => events waits) r.plant

/-- The loop once that selection is made. -/
def selected (staff : Staff η) (waits : List (List (Happening η))) (r : LoopRun η) :
    EventLoop Nat :=
  { r.loop.begin with multiplexer := (r.select staff waits).2.1 }

def act (staff : Staff η) (r : LoopRun η) : LoopAct η → LoopRun η
  | .happen e => { r with plant := r.plant.happen e }
  | .enroll i priority =>
    if i < r.plant.stations.length ∧ i ∉ r.members then
      { r with loop := (r.loop.register i priority).2 }
    else r
  | .iterate waits => (r.iterate staff waits).2

def run (staff : Staff η) (acts : List (LoopAct η)) (r : LoopRun η) : LoopRun η :=
  acts.foldl (act staff) r

/-- An iteration does what its selection calls for, then sweeps all members. -/
theorem iterate_plant (staff : Staff η) (waits : List (List (Happening η))) (r : LoopRun η) :
    (r.iterate staff waits).2.plant =
      (EventLoop.sweepAll staff.ops (r.selected staff waits).multiplexer.registrations
        ((r.selected staff waits).settle staff.ops (r.select staff waits).1
          (r.select staff waits).2.2).2.2).2 :=
  EventLoop.finish_world ..

theorem iterate_multiplexer (staff : Staff η) (waits : List (List (Happening η)))
    (r : LoopRun η) :
    (r.iterate staff waits).2.loop.multiplexer = (r.select staff waits).2.1 :=
  EventLoop.finish_multiplexer ..

theorem select_of_iterate {staff : Staff η} {waits : List (List (Happening η))} {r : LoopRun η}
    (h : (r.iterate staff waits).1 = .timeout) : (r.select staff waits).1 = .timeout :=
  EventLoop.finish_eq_timeout staff.ops (l := r.selected staff waits)
    (w := (r.select staff waits).2.2) h

/-- Nobody sleeps over work, and the loop has lost no member. -/
structure Vigilant (r : LoopRun η) : Prop where
  plant : ∃ n, r.plant.Attentive n ∧ ∀ i ∈ r.members, i < n
  sound : r.loop.multiplexer.Sound
  opened : r.loop.multiplexer.plain.AllOpen

variable {r : LoopRun η}

theorem vigilant_start (announcing : Bool) (draws : List Nat)
    (bufferSize maxPayload waitTimeout : Nat) (rest : η) :
    (start announcing draws bufferSize maxPayload waitTimeout rest).Vigilant := by
  refine ⟨⟨0, ⟨⟨?_, ?_, ?_, List.nodup_nil⟩, Nat.le_refl 0, ?_⟩, ?_⟩,
    ⟨Consistent.empty, List.nodup_nil⟩, ?_⟩
  · exact ⟨Switchboard.working_ofBufferSize bufferSize, fun _ => RandomSet.valid_empty⟩
  · intro d hd
    cases hd
  · intro st hst
    cases hst
  · intro i st hst
    cases hst
  · intro i hi
    cases hi
  · intro s hs
    cases hs

theorem Vigilant.enroll (h : r.Vigilant) {i : Nat} (hlt : i < r.plant.stations.length)
    (hnew : i ∉ r.members) (priority : Int) :
    ({ r with loop := (r.loop.register i priority).2 } : LoopRun η).Vigilant := by
  obtain ⟨n, hplant, hmembers⟩ := h.plant
  have hsources : (r.loop.register i priority).2.multiplexer.plain.sources =
      r.loop.multiplexer.plain.sources ++ [{ source := i, priority }] := by
    simp [EventLoop.register, Multiplexer.add, Multiplexer.plain, Registration.plain]
  have hnames : (r.loop.register i priority).2.multiplexer.plain.names = r.members ++ [i] := by
    rw [PlainScheduler.names, hsources, List.map_append]
    rfl
  refine ⟨⟨_, hplant.all, ?_⟩, ⟨h.sound.consistent.add rfl, ?_⟩, ?_⟩
  · intro j hj
    rw [members, hnames] at hj
    rcases List.mem_append.mp hj with hj | hj
    · exact Nat.lt_of_lt_of_le (hmembers j hj) hplant.manned
    · rw [List.mem_singleton.mp hj]
      exact hlt
  · rw [hnames]
    exact (List.perm_append_singleton _ _).nodup_iff.mpr
      (List.nodup_cons.mpr ⟨hnew, h.sound.distinct⟩)
  · intro s hs
    rw [hsources] at hs
    rcases List.mem_append.mp hs with hs | hs
    · exact h.opened s hs
    · rw [List.mem_singleton.mp hs]

/-! ## One iteration -/

/-- A selection ends with a dispatch among attentive stations, or after a look at all members
that shows no work. What lasts, lasts until then. -/
theorem Vigilant.select_lasts (h : r.Vigilant) {n : Nat} (hplant : r.plant.Attentive n)
    {E : Happening η → Prop} {Q : Plant η → Prop} (hQ : Plant.Lasting E Q) (hq : Q r.plant)
    (staff : Staff η) {waits : List (List (Happening η))}
    (hwaits : ∀ batch ∈ waits, ∀ e ∈ batch, E e) :
    (r.select staff waits).2.1.Sound ∧ (r.select staff waits).2.1.plain.AllOpen ∧
      (r.select staff waits).2.1.plain.names = r.members ∧
      r.loop.multiplexer.plain.EndsWell staff.ops.toSourceOps (fun w => w.Attentive n ∧ Q w)
        Plant.Looked (r.select staff waits).1 (r.select staff waits).2.2 := by
  have hplain := Multiplexer.select_plain staff.ownData (fun _ _ => events waits) h.sound r.plant
  have hsound : (r.select staff waits).2.1.Sound :=
    Multiplexer.select_sound staff.ops.toSourceOps h.sound (fun _ _ => events waits) r.plant
  have hnames : (r.select staff waits).2.1.plain.names = r.members :=
    Multiplexer.select_names staff.ops.toSourceOps h.sound (fun _ _ => events waits) r.plant
  have hevents : ∀ e ∈ events waits, ∀ w : Plant η, w.Attentive n ∧ Q w →
      (e w).Attentive n ∧ Q (e w) := by
    intro e he w hw
    obtain ⟨batch, hbatch, rfl⟩ := List.mem_map.mp he
    exact hQ.happenAll_attentive (hwaits batch hbatch) hw
  obtain ⟨hopen, hends⟩ := PlainScheduler.select_ends (staff.pollsKeep hQ) h.opened
    h.sound.distinct (fun _ _ => events waits) (fun _ _ => hevents) ⟨hplant, hq⟩
  rw [hplain] at hopen hends
  exact ⟨hsound, hopen, hnames, hends⟩

theorem Vigilant.select (h : r.Vigilant) {n : Nat} (hplant : r.plant.Attentive n)
    (staff : Staff η) (waits : List (List (Happening η))) :
    (r.select staff waits).2.1.Sound ∧ (r.select staff waits).2.1.plain.AllOpen ∧
      (r.select staff waits).2.1.plain.names = r.members ∧
      r.loop.multiplexer.plain.EndsWell staff.ops.toSourceOps (Plant.Attentive n) Plant.Looked
        (r.select staff waits).1 (r.select staff waits).2.2 := by
  obtain ⟨hsound, hopen, hnames, hends⟩ := h.select_lasts hplant Plant.lasting_true trivial staff
    fun batch (_ : batch ∈ waits) _ _ => trivial
  exact ⟨hsound, hopen, hnames, hends.mono fun _ hv => hv.1⟩

/-- The member that is executed is the one whose source was dispatched, and it had data. -/
theorem Vigilant.ready (h : r.Vigilant) {n : Nat} (hplant : r.plant.Attentive n)
    {E : Happening η → Prop} {Q : Plant η → Prop} (hQ : Plant.Lasting E Q) (hq : Q r.plant)
    (staff : Staff η) {waits : List (List (Happening η))}
    (hwaits : ∀ batch ∈ waits, ∀ e ∈ batch, E e) {id : Nat}
    (hout : (r.select staff waits).1 = .ready id) :
    ∃ x v, (r.select staff waits).2.1.registrations[id]? = some x ∧ x.source ∈ r.members ∧
      (v.Attentive n ∧ Q v) ∧ Plant.consumerIs Consumer.hasData x.source v = true ∧
      (r.select staff waits).2.2 = v.changeConsumer x.source Consumer.afterRead ∧
      ((r.selected staff waits).settle staff.ops (r.select staff waits).1
        (r.select staff waits).2.2).2.2 =
          (staff.execute x.source (r.select staff waits).2.2).2 := by
  obtain ⟨-, -, hnames, hends⟩ := h.select_lasts hplant hQ hq staff hwaits
  rw [hout] at hends ⊢
  obtain ⟨s, v, hs, hv, hdata, hw⟩ := hends
  have hname : (r.select staff waits).2.1.plain.names[id]? = some s.source := by
    rw [hnames, members, PlainScheduler.names, List.getElem?_map, hs]
    rfl
  have hmember : s.source ∈ r.members := hnames ▸ List.mem_of_getElem? hname
  rw [PlainScheduler.names, Multiplexer.plain, List.map_map, List.getElem?_map,
    Option.map_eq_some_iff] at hname
  obtain ⟨x, hx, hsource⟩ := hname
  replace hsource : x.source = s.source := hsource
  rw [← hsource] at hmember hdata hw
  have hexecuted : ((r.selected staff waits).execute staff.ops id (r.select staff waits).2.2).2 =
      _ := EventLoop.execute_world hx _
  exact ⟨x, v, hx, hmember, hv, hdata, hw, hexecuted⟩

/-- After a timeout of the selection every member is there and has no work. -/
theorem Vigilant.no_work (h : r.Vigilant) {staff : Staff η} {waits : List (List (Happening η))}
    (hout : (r.select staff waits).1 = .timeout) {i : Nat} (hi : i ∈ r.members) :
    ∃ st p, (r.select staff waits).2.2.stations[i]? = some st ∧ st.consumer.post? = some p ∧
      p.work (r.select staff waits).2.2.store = [] := by
  obtain ⟨n, hplant, hmembers⟩ := h.plant
  obtain ⟨-, -, -, hends⟩ := h.select hplant staff waits
  rw [hout] at hends
  obtain ⟨hattentive, hall⟩ := hends
  have hlt := Nat.lt_of_lt_of_le (hmembers i hi) hattentive.manned
  have hst := List.getElem?_eq_getElem hlt
  obtain ⟨-, p, hp, -⟩ := hattentive.posted.stations _ (List.getElem_mem hlt)
  obtain ⟨x, hx, rfl⟩ := List.mem_map.mp hi
  obtain ⟨hdata, hlook⟩ := hall x hx
  exact ⟨_, p, hst, hp, staff.no_work hattentive hst hp hlook hdata⟩

/-- What is done about a selection wakes everybody again. -/
theorem Vigilant.settle (h : r.Vigilant) {n : Nat} (hplant : r.plant.Attentive n)
    (staff : Staff η) (waits : List (List (Happening η))) :
    ((r.selected staff waits).settle staff.ops (r.select staff waits).1
      (r.select staff waits).2.2).2.2.Attentive n := by
  obtain ⟨-, -, -, hends⟩ := h.select hplant staff waits
  cases hout : (r.select staff waits).1 with
  | timeout =>
    rw [hout] at hends
    exact hends.1
  | failed id e =>
    rw [hout] at hends
    exact hends.elim
  | ready id =>
    obtain ⟨x, v, -, -, ⟨hv, -⟩, -, hw, hexecuted⟩ := h.ready hplant Plant.lasting_true trivial
      staff (fun batch (_ : batch ∈ waits) _ _ => trivial) hout
    rw [← hout, hexecuted, hw]
    exact staff.execute_wakes (hv.afterRead x.source)

theorem Vigilant.iterate (h : r.Vigilant) (staff : Staff η)
    (waits : List (List (Happening η))) : (r.iterate staff waits).2.Vigilant := by
  obtain ⟨n, hplant, hmembers⟩ := h.plant
  obtain ⟨hsound, hopen, hnames, -⟩ := h.select hplant staff waits
  have hmultiplexer := iterate_multiplexer staff waits r
  refine ⟨⟨n, ?_, ?_⟩, hmultiplexer ▸ hsound, hmultiplexer ▸ hopen⟩
  · rw [iterate_plant]
    apply EventLoop.sweepAll_keeps staff.ops (P := Plant.Attentive n)
    · intro i w hw
      exact staff.sweep_wakes hw i
    · exact h.settle hplant staff waits
  · intro i hi
    rw [members, hmultiplexer, hnames] at hi
    exact hmembers i hi

/-- After a timeout only the sweep is left, and the store stays as it is if the handlers leave it
alone. -/
theorem store_of_timeout {staff : Staff η} {waits : List (List (Happening η))}
    (h : (r.iterate staff waits).1 = .timeout) (hquiet : staff.KeepsToItself) :
    (r.iterate staff waits).2.plant.store = (r.select staff waits).2.2.store := by
  rw [iterate_plant, select_of_iterate h]
  apply EventLoop.sweepAll_keeps staff.ops
    (P := fun w => w.store = (r.select staff waits).2.2.store)
  · intro i w hw
    exact (hquiet.sweep i w).trans hw
  · rfl

/-! ## Whole runs -/

theorem Vigilant.act (h : r.Vigilant) (staff : Staff η) (a : LoopAct η) :
    (r.act staff a).Vigilant := by
  cases a with
  | happen e =>
    obtain ⟨n, hplant, hmembers⟩ := h.plant
    exact ⟨⟨n, hplant.keeps (hplant.posted.happen e), hmembers⟩, h.sound, h.opened⟩
  | enroll i priority =>
    simp only [LoopRun.act]
    split
    · rename_i hnew
      exact h.enroll hnew.1 hnew.2 priority
    · exact h
  | iterate waits => exact h.iterate staff waits

theorem Vigilant.run (h : r.Vigilant) (staff : Staff η) (acts : List (LoopAct η)) :
    (r.run staff acts).Vigilant := by
  induction acts generalizing r with
  | nil => exact h
  | cons a rest ih => exact ih (h.act staff a)

/-- In whatever order producers, constructors, failures, handlers and iterations come: a station
with work to pop has counted a token or can still read one. So an iteration times out only if no
member has work when its selection ends, nor when it returns if the sweep makes none. -/
theorem no_wake_up_is_lost (staff : Staff η) (announcing : Bool) (draws : List Nat)
    (bufferSize maxPayload waitTimeout : Nat) (rest : η) (acts : List (LoopAct η)) :
    let r := run staff acts (start announcing draws bufferSize maxPayload waitTimeout rest)
    (∀ st ∈ r.plant.stations, ∃ p, st.consumer.post? = some p ∧
      (p.work r.plant.store ≠ [] →
        0 < p.signal.pending ∨ r.plant.store.board.inbox p.signal.subscription ≠ [])) ∧
    ∀ waits, (r.iterate staff waits).1 = .timeout →
      ∀ i ∈ r.members, ∃ st p, (r.select staff waits).2.2.stations[i]? = some st ∧
        st.consumer.post? = some p ∧ p.work (r.select staff waits).2.2.store = [] ∧
        (staff.KeepsToItself → p.work (r.iterate staff waits).2.plant.store = []) := by
  intro r
  have h : r.Vigilant :=
    (vigilant_start announcing draws bufferSize maxPayload waitTimeout rest).run staff acts
  obtain ⟨n, hplant, -⟩ := h.plant
  constructor
  · intro st hst
    obtain ⟨-, p, hp, -⟩ := hplant.posted.stations st hst
    obtain ⟨i, hi⟩ := List.mem_iff_getElem?.mp hst
    exact ⟨p, hp, hplant.awake i st hi p hp⟩
  · intro waits hout i hi
    obtain ⟨st, p, hst, hp, hnone⟩ := h.no_work (select_of_iterate hout) hi
    refine ⟨st, p, hst, hp, hnone, ?_⟩
    intro hquiet
    rw [store_of_timeout hout hquiet]
    exact hnone

end LoopRun

end ControlBus
