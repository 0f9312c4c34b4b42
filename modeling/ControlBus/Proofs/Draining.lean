-- An event loop whose producers have stopped: every dispatch takes a unit off the loads of the
-- members, unless its call of eval fails, so the loop drains; and an iteration that times out
-- finds all loads gone, so it is quiet from then on. The failed calls are no others than the errors
-- the loop counts itself.
import ControlBus.Proofs.StationLoads
import ControlBus.Proofs.WakeUpRuns

namespace ControlBus

/-- What happens to a loop when no producer operates and nobody becomes a member any more. -/
def LoopAct.Quiet {η : Type} : LoopAct η → Prop
  | .happen e => e.Quiet
  | .enroll _ _ => False
  | .iterate waits => ∀ batch ∈ waits, ∀ e ∈ batch, e.Quiet

/-- A station that was looked at and shows no data has no load. -/
theorem Staff.unloaded {η : Type} (staff : Staff η) {w : Plant η} {n : Nat} (h : w.Attentive n)
    {i : Nat} {p : Post} (hp : w.post? i = some p) (hlook : w.Looked i)
    (hdata : staff.ops.hasData i w = false) : w.load i = 0 := by
  obtain ⟨st, hi, hpost⟩ := Plant.exists_station hp
  have hzero : ¬ 0 < p.signal.pending := by
    simpa [Staff.ops, Plant.consumerIs, hi, Consumer.hasData_post hpost] using hdata
  have hread := (hlook st p hi hpost).resolve_left hzero
  rw [Plant.load_of_post hp, Post.load, staff.no_work h hi hpost hlook hdata, hread,
    Nat.eq_zero_of_not_pos hzero]
  rfl

/-! ## Errors that are counted -/

/-- An execution fails just if its pop does. -/
theorem Executor.execute_isOk {ω : Type} (p : Workplace ω) (e : Executor) (w : ω) :
    (e.execute p w).1.isOk = (p.pop e.batchSize w).1.isOk := by
  unfold execute
  dsimp only
  rcases p.pop e.batchSize w with ⟨result, w'⟩
  cases result <;> rfl

theorem Staff.execute_isOk {η : Type} (staff : Staff η) {w v : Plant η} {i : Nat}
    (hv : v = w.happenAll (staff.meanwhile i w.store w.rest)) (h : v.Posted) {call : EvalCall}
    (hcall : v.evalCall? i = some call) : (staff.execute i w).1.isOk = !call.failed := by
  obtain ⟨st, p, hst, hp, rfl⟩ := Plant.exists_of_evalCall hcall
  have hb := (h.stations st (List.mem_of_getElem? hst)).batch
  rw [← (h.pop_call hst hp hb).1, Staff.execute, ← hv]
  simp only [hst]
  exact Executor.execute_isOk (staff.workplace i) st.executor v

namespace EventLoop

variable {ι σ : Type} {ops : MemberOps ι σ}

theorem execute_errors {id : Nat} {l : EventLoop ι} {r : Registration ι}
    (hr : l.multiplexer.registrations[id]? = some r) (w : σ) :
    (l.execute ops id w).1.stats.executeErrors =
      l.stats.executeErrors + if (ops.execute r.source w).1.isOk then 0 else 1 := by
  simp only [execute, hr]
  rcases ops.execute r.source w with ⟨result, w'⟩
  cases result <;> rfl

theorem finish_errors (ops : MemberOps ι σ) (outcome : Selection) (l : EventLoop ι) (w : σ) :
    (finish ops outcome l w).2.1.stats.executeErrors =
      (settle ops outcome l w).2.1.stats.executeErrors := by
  simp only [finish, sweep]
  split <;> rfl

end EventLoop

namespace LoopRun

variable {η : Type} {staff : Staff η} {r : LoopRun η} {waits : List (List (Happening η))}

/-! ## What can be told of a run -/

/-- The loads of all members: what waits for them, what they have counted, what they have not
read. -/
def load (r : LoopRun η) : Nat := r.plant.totalLoad r.members

/-- The channels on which the members are woken. -/
def wakeChannels (r : LoopRun η) : List String :=
  r.members.filterMap fun i => r.plant.wakeChannel? i

/-- The call of `eval` that an iteration makes: the member that is executed pops. -/
def evalCall? (staff : Staff η) (waits : List (List (Happening η))) (r : LoopRun η) :
    Option EvalCall :=
  match r.select staff waits with
  | (.ready id, m, w) =>
    (m.registrations[id]?).bind fun x =>
      (w.happenAll (staff.meanwhile x.source w.store w.rest)).evalCall? x.source
  | _ => none

/-- What the iterations of a run did, in order. -/
def outcomes (staff : Staff η) : List (LoopAct η) → LoopRun η → List Iteration
  | [], _ => []
  | .iterate waits :: rest, r =>
    (r.iterate staff waits).1 :: outcomes staff rest (r.iterate staff waits).2
  | a :: rest, r => outcomes staff rest (r.act staff a)

/-- The calls of `eval` that the iterations of a run made, in order. -/
def evalCalls (staff : Staff η) : List (LoopAct η) → LoopRun η → List EvalCall
  | [], _ => []
  | .iterate waits :: rest, r =>
    (r.evalCall? staff waits).toList ++ evalCalls staff rest (r.iterate staff waits).2
  | a :: rest, r => evalCalls staff rest (r.act staff a)

/-! ## One iteration -/

/-- The plant when an iteration has done what its selection called for. -/
def settled (staff : Staff η) (waits : List (List (Happening η))) (r : LoopRun η) : Plant η :=
  ((r.selected staff waits).settle staff.ops (r.select staff waits).1
    (r.select staff waits).2.2).2.2

/-- What lasts outlives the sweep with which an iteration ends. -/
theorem iterate_lasts {E : Happening η → Prop} {Q : Plant η → Prop} (hs : staff.Within E)
    (hQ : Plant.Lasting E Q) {n : Nat} (h : (r.settled staff waits).Attentive n)
    (hq : Q (r.settled staff waits)) : Q (r.iterate staff waits).2.plant := by
  rw [iterate_plant]
  exact (EventLoop.sweepAll_keeps staff.ops (P := fun w => w.Attentive n ∧ Q w)
    (fun i _ hw => hs.sweep hQ i hw) _ ⟨h, hq⟩).2

theorem Vigilant.members_iterate (h : r.Vigilant) (staff : Staff η)
    (waits : List (List (Happening η))) : (r.iterate staff waits).2.members = r.members := by
  obtain ⟨n, hplant, -⟩ := h.plant
  obtain ⟨-, -, hnames, -⟩ := h.select hplant staff waits
  rw [members, iterate_multiplexer, hnames]

theorem Vigilant.exists_post (h : r.Vigilant) : ∀ i ∈ r.members, ∃ p, r.plant.post? i = some p := by
  obtain ⟨n, hplant, hmembers⟩ := h.plant
  intro i hi
  exact hplant.posted.exists_post (Nat.lt_of_lt_of_le (hmembers i hi) hplant.manned)

/-- Whatever the handlers do, an iteration changes nothing about who has subscribed to what. -/
theorem Vigilant.separate_iterate (h : r.Vigilant) (hs : r.plant.store.Separate)
    (staff : Staff η) (waits : List (List (Happening η))) :
    (r.iterate staff waits).2.plant.store.Separate := by
  obtain ⟨n, hplant, hmembers⟩ := h.plant
  have hwaits : ∀ batch ∈ waits, ∀ e ∈ batch, (fun _ : Happening η => True) e :=
    fun _ _ _ _ => trivial
  refine iterate_lasts staff.within_true Plant.lasting_separate (h.settle hplant staff waits) ?_
  obtain ⟨-, -, -, hends⟩ := h.select_lasts hplant Plant.lasting_separate hs staff hwaits
  cases hout : (r.select staff waits).1 with
  | timeout =>
    rw [hout] at hends
    rw [settled, hout]
    exact hends.1.2
  | failed id e =>
    rw [hout] at hends
    exact hends.elim
  | ready id =>
    obtain ⟨x, v, -, hmember, ⟨hv, hvsep⟩, -, hw, hexecuted⟩ :=
      h.ready hplant Plant.lasting_separate hs staff hwaits hout
    rw [settled, hexecuted, hw]
    exact staff.separate_execute (hv.afterRead x.source) (hmembers x.source hmember) hvsep

/-- What the member that is executed asks of the store when it pops. -/
theorem evalCall_of_ready {id : Nat} (hout : (r.select staff waits).1 = .ready id)
    {x : Registration Nat} (hx : (r.select staff waits).2.1.registrations[id]? = some x) :
    r.evalCall? staff waits = ((r.select staff waits).2.2.happenAll (staff.meanwhile x.source
      (r.select staff waits).2.2.store (r.select staff waits).2.2.rest)).evalCall? x.source := by
  unfold evalCall?
  rcases hselect : r.select staff waits with ⟨outcome, m, w⟩
  rw [hselect] at hout hx
  cases hout
  simp only [hx, Option.bind_some]

/-- The member that was dispatched is still at its post when it pops. -/
theorem exists_call {id n : Nat} (hout : (r.select staff waits).1 = .ready id)
    {x : Registration Nat} (hx : (r.select staff waits).2.1.registrations[id]? = some x)
    (hbut : (r.select staff waits).2.2.AttentiveBut n x.source) (hlt : x.source < n) :
    ∃ call, r.evalCall? staff waits = some call ∧
      ((r.select staff waits).2.2.happenAll (staff.meanwhile x.source
        (r.select staff waits).2.2.store (r.select staff waits).2.2.rest)).evalCall? x.source =
          some call := by
  have hmeanwhile := hbut.posted.happenAll (staff.meanwhile x.source
    (r.select staff waits).2.2.store (r.select staff waits).2.2.rest)
  obtain ⟨call, hcall⟩ := hmeanwhile.posted.exists_evalCall
    (Nat.lt_of_lt_of_le hlt (Nat.le_trans hbut.manned hmeanwhile.manned))
  exact ⟨call, (evalCall_of_ready hout hx).trans hcall, hcall⟩

/-- The loop counts an error for an iteration just if its call of `eval` fails. -/
theorem Vigilant.errors_iterate (h : r.Vigilant) (staff : Staff η)
    (waits : List (List (Happening η))) :
    (r.iterate staff waits).2.loop.stats.executeErrors = r.loop.stats.executeErrors +
      (r.evalCall? staff waits).toList.countP EvalCall.failed := by
  obtain ⟨n, hplant, hmembers⟩ := h.plant
  have herrors : (r.iterate staff waits).2.loop.stats.executeErrors =
      ((r.selected staff waits).settle staff.ops (r.select staff waits).1
        (r.select staff waits).2.2).2.1.stats.executeErrors :=
    EventLoop.finish_errors ..
  rw [herrors]
  obtain ⟨-, -, -, hends⟩ := h.select hplant staff waits
  cases hout : (r.select staff waits).1 with
  | timeout =>
    have hnone : r.evalCall? staff waits = none := by
      unfold evalCall?
      rcases hselect : r.select staff waits with ⟨outcome, m, w⟩
      rw [hselect] at hout
      cases hout
      rfl
    rw [hnone]
    rfl
  | failed id e =>
    rw [hout] at hends
    exact hends.elim
  | ready id =>
    obtain ⟨x, v, hx, hmember, ⟨hv, -⟩, -, hw, -⟩ := h.ready hplant Plant.lasting_true trivial
      staff (fun batch (_ : batch ∈ waits) _ _ => trivial) hout
    have hbut := hv.afterRead x.source
    rw [← hw] at hbut
    obtain ⟨call, hmade, hcall⟩ := exists_call hout hx hbut (hmembers x.source hmember)
    have hresult := staff.execute_isOk rfl (hbut.posted.happenAll _).posted hcall
    have hcounted : ((r.selected staff waits).execute staff.ops id
        (r.select staff waits).2.2).1.stats.executeErrors =
          r.loop.stats.executeErrors + if (!call.failed) = true then 0 else 1 :=
      hresult ▸ EventLoop.execute_errors hx _
    refine hcounted.trans ?_
    rw [hmade, Option.toList_some, List.countP_singleton]
    cases call.failed <;> rfl

section Quiet

variable (h : r.Vigilant) (hsep : r.plant.store.Separate) (hs : staff.Within Happening.Quiet)
  (hwaits : ∀ batch ∈ waits, ∀ e ∈ batch, e.Quiet)

include h hsep hs hwaits

/-- After a dispatch the loads are at most what they were, and less if its call of `eval` did not
fail; and there was something to do. -/
theorem Vigilant.eases_of_ready {id : Nat} (hout : (r.select staff waits).1 = .ready id)
    (hquiet : ∀ call, r.evalCall? staff waits = some call →
      ∀ channel ∈ r.wakeChannels, channel ∉ call.channels) :
    ∃ i call, r.evalCall? staff waits = some call ∧ i ∈ r.members ∧ 0 < r.plant.load i ∧
      Plant.EasesBy r.members i (call.failed = false) r.plant (r.iterate staff waits).2.plant := by
  obtain ⟨n, hplant, hmembers⟩ := h.plant
  obtain ⟨x, v, hx, hmember, ⟨hv, hvsep, hveases⟩, hdata, hw, hexecuted⟩ :=
    h.ready hplant (Plant.lasting_eases r.members r.plant) ⟨hsep, .refl _ _⟩ staff hwaits hout
  obtain ⟨p, hp⟩ := h.exists_post x.source hmember
  obtain ⟨q, hq, -, -⟩ := hveases x.source hmember p hp
  have hread := Plant.load_afterRead hq hdata
  have hload := hveases.load hmember hp
  have hdispatched : Plant.EasesBy r.members x.source True r.plant
      (v.changeConsumer x.source Consumer.afterRead) :=
    ⟨hveases.trans (Plant.eases_afterRead _ v _), fun _ => Nat.lt_of_lt_of_le hread hload⟩
  have hbut := hv.afterRead x.source
  rw [← hw] at hdispatched hbut
  have hwsep : (r.select staff waits).2.2.store.Separate := hw ▸ hvsep
  obtain ⟨call, hmade, hcall⟩ := exists_call hout hx hbut (hmembers x.source hmember)
  have hdone := hs.eases_execute hbut hmember h.exists_post hwsep hdispatched hcall
    fun j hj channel hchannel => hquiet call hmade channel
      (List.mem_filterMap.mpr ⟨j, hj, hchannel⟩)
  rw [← hexecuted] at hdone
  exact ⟨x.source, call, hmade, hmember, Nat.lt_of_lt_of_le (Nat.zero_lt_of_lt hread) hload,
    (iterate_lasts hs (Plant.lasting_easesBy hmember hp _) (h.settle hplant staff waits) hdone).2⟩

/-- After a timeout nothing is left to do. -/
theorem Vigilant.unloaded_of_timeout (hout : (r.select staff waits).1 = .timeout) :
    Plant.Eases r.members r.plant (r.iterate staff waits).2.plant ∧
      ∀ i ∈ r.members, (r.iterate staff waits).2.plant.load i = 0 := by
  obtain ⟨n, hplant, hmembers⟩ := h.plant
  obtain ⟨-, -, -, hends⟩ := h.select_lasts hplant (Plant.lasting_eases r.members r.plant)
    ⟨hsep, .refl _ _⟩ staff hwaits
  rw [hout] at hends
  obtain ⟨⟨hattentive, hwsep, hweases⟩, hall⟩ := hends
  have hsettled : r.settled staff waits = (r.select staff waits).2.2 := by
    rw [settled, hout]
    rfl
  have hsweep : Plant.Eases r.members (r.select staff waits).2.2
      (r.iterate staff waits).2.plant := by
    refine (iterate_lasts hs (Plant.lasting_eases r.members _) (h.settle hplant staff waits) ?_).2
    rw [hsettled]
    exact ⟨hwsep, .refl _ _⟩
  refine ⟨hweases.trans hsweep, fun i hi => Nat.le_zero.mp ?_⟩
  have hlt := Nat.lt_of_lt_of_le (hmembers i hi) hattentive.manned
  obtain ⟨p, hp⟩ := hattentive.posted.exists_post hlt
  obtain ⟨s, hmem, rfl⟩ := List.mem_map.mp hi
  obtain ⟨hdata, hlook⟩ := hall s hmem
  rw [← staff.unloaded hattentive hp hlook hdata]
  exact hsweep.load hi hp

/-- An iteration takes a unit off the loads, unless its call of `eval` fails, or it times out and
nothing is left. -/
theorem Vigilant.quiet_iterate (hquiet : ∀ call, r.evalCall? staff waits = some call →
      ∀ channel ∈ r.wakeChannels, channel ∉ call.channels) :
    Plant.Eases r.members r.plant (r.iterate staff waits).2.plant ∧
      ((∃ id, (r.iterate staff waits).1 = .dispatched id) ∧ 0 < r.load ∧
          (r.iterate staff waits).2.load + 1 ≤
            r.load + (r.evalCall? staff waits).toList.countP EvalCall.failed ∨
        (r.iterate staff waits).1 = .timeout ∧ (r.iterate staff waits).2.load = 0) := by
  have houtcome : (r.iterate staff waits).1 = ((r.selected staff waits).settle staff.ops
      (r.select staff waits).1 (r.select staff waits).2.2).1 := rfl
  have hload : (r.iterate staff waits).2.load =
      (r.iterate staff waits).2.plant.totalLoad r.members := by
    rw [load, h.members_iterate]
  cases hout : (r.select staff waits).1 with
  | ready id =>
    rw [hout] at houtcome
    obtain ⟨i, call, hcall, hi, hpos, heases⟩ := h.eases_of_ready hsep hs hwaits hout hquiet
    refine ⟨heases.eases, Or.inl ⟨⟨id, houtcome⟩, ?_, ?_⟩⟩
    · exact Nat.lt_of_lt_of_le hpos (List.le_sum_of_mem (List.mem_map_of_mem hi))
    · have htotal : (r.iterate staff waits).2.plant.totalLoad r.members ≤ r.load :=
        heases.eases.total h.exists_post
      rw [hload, hcall, Option.toList_some, List.countP_singleton]
      cases hfailed : call.failed with
      | true => exact Nat.add_le_add_right htotal 1
      | false => exact heases.total hi h.exists_post hfailed
  | timeout =>
    rw [hout] at houtcome
    obtain ⟨heases, hnone⟩ := h.unloaded_of_timeout hsep hs hwaits hout
    refine ⟨heases, Or.inr ⟨houtcome, ?_⟩⟩
    rw [hload]
    refine List.sum_eq_zero fun n hn => ?_
    obtain ⟨i, hi, rfl⟩ := List.mem_map.mp hn
    exact hnone i hi
  | failed id e =>
    obtain ⟨n, hplant, -⟩ := h.plant
    obtain ⟨-, -, -, hends⟩ := h.select hplant staff waits
    rw [hout] at hends
    exact hends.elim

end Quiet

/-! ## Whole runs -/

/-- Over a run the loop counts as many errors as calls of `eval` fail. -/
theorem Vigilant.errors_run (h : r.Vigilant) (staff : Staff η) (acts : List (LoopAct η)) :
    (r.run staff acts).loop.stats.executeErrors =
      r.loop.stats.executeErrors + (r.evalCalls staff acts).countP EvalCall.failed := by
  induction acts generalizing r with
  | nil => rfl
  | cons a rest ih =>
    refine (ih (h.act staff a)).trans ?_
    cases a with
    | happen e => rfl
    | enroll i priority =>
      have hsame : (r.act staff (.enroll i priority)).loop.stats = r.loop.stats := by
        simp only [LoopRun.act]
        split <;> rfl
      rw [hsame]
      rfl
    | iterate waits =>
      rw [evalCalls, List.countP_append, ← Nat.add_assoc, ← h.errors_iterate staff waits]
      rfl

/-- Everybody is awake, and whoever has subscribed to one channel has subscribed to no other. -/
structure Manned (r : LoopRun η) : Prop where
  vigilant : r.Vigilant
  separate : r.plant.store.Separate

theorem manned_start (announcing : Bool) (draws : List Nat)
    (bufferSize maxPayload waitTimeout : Nat) (rest : η) :
    (start announcing draws bufferSize maxPayload waitTimeout rest).Manned :=
  ⟨vigilant_start announcing draws bufferSize maxPayload waitTimeout rest,
    Switchboard.single_ofBufferSize bufferSize⟩

theorem Manned.act (h : r.Manned) (staff : Staff η) (a : LoopAct η) : (r.act staff a).Manned := by
  refine ⟨h.vigilant.act staff a, ?_⟩
  cases a with
  | happen e => exact Plant.separate_happen h.separate e
  | enroll i priority =>
    simp only [LoopRun.act]
    split
    · exact h.separate
    · exact h.separate
  | iterate waits => exact h.vigilant.separate_iterate h.separate staff waits

theorem Manned.run (h : r.Manned) (staff : Staff η) (acts : List (LoopAct η)) :
    (r.run staff acts).Manned := by
  induction acts generalizing r with
  | nil => exact h
  | cons a rest ih => exact ih (h.act staff a)

theorem wakeChannels_of_eases {r' : LoopRun η} (h : r.Vigilant) (hm : r'.members = r.members)
    (he : Plant.Eases r.members r.plant r'.plant) : r'.wakeChannels = r.wakeChannels := by
  rw [wakeChannels, wakeChannels, hm]
  refine List.filterMap_congr fun i hi => ?_
  obtain ⟨p, hp⟩ := h.exists_post i hi
  exact he.wakeChannel hi hp

/-- Dispatches, as many as there are loads and failures at most, and after them only timeouts,
with which all loads are gone. -/
structure Drains (staff : Staff η) (further : List (LoopAct η)) (r : LoopRun η)
    (dispatches timeouts : List Iteration) : Prop where
  members : (r.run staff further).members = r.members
  outcomes : r.outcomes staff further = dispatches ++ timeouts
  dispatched : ∀ o ∈ dispatches, ∃ id, o = .dispatched id
  timedOut : ∀ o ∈ timeouts, o = .timeout
  bound : dispatches.length ≤ (r.evalCalls staff further).countP EvalCall.failed + r.load
  idle : r.load = 0 → dispatches = []
  drained : timeouts ≠ [] ∨ r.load = 0 → (r.run staff further).load = 0

section Steps

variable {further : List (LoopAct η)} {dispatches timeouts : List Iteration}

theorem Drains.afterHappening {e : Happening η}
    (h : (r.act staff (.happen e)).Drains staff further dispatches timeouts)
    (hload : (r.act staff (.happen e)).load ≤ r.load) :
    r.Drains staff (.happen e :: further) dispatches timeouts where
  members := h.members
  outcomes := h.outcomes
  dispatched := h.dispatched
  timedOut := h.timedOut
  bound := Nat.le_trans h.bound (Nat.add_le_add_left hload _)
  idle hzero := h.idle (by omega)
  drained hor := h.drained (hor.imp_right fun hzero => by omega)

theorem Drains.afterDispatch {id : Nat}
    (h : (r.iterate staff waits).2.Drains staff further dispatches timeouts)
    (hmembers : (r.iterate staff waits).2.members = r.members)
    (hout : (r.iterate staff waits).1 = .dispatched id) (hpos : 0 < r.load)
    (hless : (r.iterate staff waits).2.load + 1 ≤
      r.load + (r.evalCall? staff waits).toList.countP EvalCall.failed) :
    r.Drains staff (.iterate waits :: further) (.dispatched id :: dispatches) timeouts where
  members := h.members.trans hmembers
  outcomes := by
    rw [LoopRun.outcomes, hout, List.cons_append]
    exact congrArg _ h.outcomes
  dispatched := by
    intro o ho
    rcases List.mem_cons.mp ho with rfl | ho
    · exact ⟨id, rfl⟩
    · exact h.dispatched o ho
  timedOut := h.timedOut
  bound := by
    have hbound := h.bound
    rw [evalCalls, List.countP_append, List.length_cons]
    omega
  idle hnone := absurd hnone (Nat.ne_of_gt hpos)
  drained hor := h.drained (hor.imp_right fun hnone => absurd hnone (Nat.ne_of_gt hpos))

/-- Once nothing is left to dispatch, all that follows are timeouts. -/
theorem Drains.afterTimeout
    (h : (r.iterate staff waits).2.Drains staff further dispatches timeouts)
    (hmembers : (r.iterate staff waits).2.members = r.members)
    (hout : (r.iterate staff waits).1 = .timeout) (hzero : (r.iterate staff waits).2.load = 0) :
    r.Drains staff (.iterate waits :: further) [] (.timeout :: timeouts) where
  members := h.members.trans hmembers
  outcomes := by
    rw [LoopRun.outcomes, hout, h.outcomes, h.idle hzero]
    rfl
  dispatched := by simp
  timedOut := by
    intro o ho
    rcases List.mem_cons.mp ho with rfl | ho
    · rfl
    · exact h.timedOut o ho
  bound := Nat.zero_le _
  idle _ := rfl
  drained _ := h.drained (Or.inr hzero)

end Steps

theorem Manned.drains (h : r.Manned) (hs : staff.Within Happening.Quiet)
    {further : List (LoopAct η)} (hfurther : ∀ a ∈ further, a.Quiet)
    (hquiet : ∀ call ∈ r.evalCalls staff further, ∀ channel ∈ r.wakeChannels,
      channel ∉ call.channels) :
    ∃ dispatches timeouts, r.Drains staff further dispatches timeouts := by
  induction further generalizing r with
  | nil =>
    exact ⟨[], [], rfl, rfl, by simp, by simp, Nat.zero_le _, fun _ => rfl,
      by simp [LoopRun.run]⟩
  | cons a rest ih =>
    have hrest : ∀ b ∈ rest, b.Quiet := fun b hb => hfurther b (List.mem_cons_of_mem a hb)
    have ha := hfurther a List.mem_cons_self
    cases a with
    | enroll i priority => exact ha.elim
    | happen e =>
      obtain ⟨n, hplant, -⟩ := h.vigilant.plant
      have heases := hplant.posted.eases_happen r.members ha
      have hchannels : (r.act staff (.happen e)).wakeChannels = r.wakeChannels :=
        wakeChannels_of_eases h.vigilant rfl heases
      obtain ⟨dispatches, timeouts, hdrains⟩ := ih (h.act staff (.happen e)) hrest
        fun call hcall channel hc => hquiet call hcall channel (hchannels ▸ hc)
      exact ⟨dispatches, timeouts, hdrains.afterHappening (heases.total h.vigilant.exists_post)⟩
    | iterate waits =>
      have hmembers := h.vigilant.members_iterate staff waits
      rw [evalCalls] at hquiet
      obtain ⟨heases, hstep⟩ := h.vigilant.quiet_iterate h.separate hs ha
        fun call hcall => hquiet call (List.mem_append_left _ (by simp [hcall]))
      have hchannels := wakeChannels_of_eases h.vigilant hmembers heases
      obtain ⟨dispatches, timeouts, hdrains⟩ := ih (h.act staff (.iterate waits)) hrest
        fun call hcall channel hc =>
          hquiet call (List.mem_append_right _ hcall) channel (hchannels ▸ hc)
      rcases hstep with ⟨⟨id, hout⟩, hpos, hless⟩ | ⟨hout, hzero⟩
      · exact ⟨_, timeouts, hdrains.afterDispatch hmembers hout hpos hless⟩
      · exact ⟨[], _, hdrains.afterTimeout hmembers hout hzero⟩

/-- From whatever state the loop has come to, with handlers that may have produced so far: once no
producer operates any more and nothing else is sent on the channels that wake the members, the
iterations to come are dispatches, at most as many as the failures of `eval` to come and the loads
of the members now, and then timeouts only. With the first timeout all queues and pending sets of
the members are empty, and they stay so. -/
theorem the_loop_drains_and_becomes_quiet (former staff : Staff η) (announcing : Bool)
    (draws : List Nat) (bufferSize maxPayload waitTimeout : Nat) (rest : η)
    (acts further : List (LoopAct η)) {r : LoopRun η}
    (hr : r = run former acts (start announcing draws bufferSize maxPayload waitTimeout rest))
    (hstaff : staff.Within Happening.Quiet) (hfurther : ∀ a ∈ further, a.Quiet)
    (hquiet : ∀ call ∈ r.evalCalls staff further, ∀ channel ∈ r.wakeChannels,
      channel ∉ call.channels) :
    ∃ dispatches timeouts, r.outcomes staff further = dispatches ++ timeouts ∧
      (∀ o ∈ dispatches, ∃ id, o = .dispatched id) ∧ (∀ o ∈ timeouts, o = .timeout) ∧
      dispatches.length ≤ (r.evalCalls staff further).countP EvalCall.failed +
        (r.members.map fun i => r.plant.load i).sum ∧
      (timeouts ≠ [] → ∀ i ∈ r.members, ∃ p, (r.run staff further).plant.post? i = some p ∧
        p.work (r.run staff further).plant.store = []) := by
  have h : r.Manned := hr ▸
    (manned_start announcing draws bufferSize maxPayload waitTimeout rest).run former acts
  obtain ⟨dispatches, timeouts, hdrains⟩ := h.drains hstaff hfurther hquiet
  refine ⟨dispatches, timeouts, hdrains.outcomes, hdrains.dispatched, hdrains.timedOut,
    hdrains.bound, ?_⟩
  intro hsome i hi
  have hend := (h.run staff further).vigilant
  rw [← hdrains.members] at hi
  obtain ⟨p, hp⟩ := hend.exists_post i hi
  have hle : (r.run staff further).plant.load i ≤ (r.run staff further).load :=
    List.le_sum_of_mem (List.mem_map_of_mem hi)
  rw [hdrains.drained (Or.inl hsome), Plant.load_of_post hp] at hle
  exact ⟨p, hp, (Post.load_eq_zero (Nat.le_zero.mp hle)).1⟩

/-- Handlers that are done with everything at once and make nothing happen. -/
def prompt : Staff Unit where
  meanwhile _ _ _ := []
  handle _ _ _ _ := (.done, [])
  resolved _ _ _ := ([], [])
  now _ := 0

theorem prompt_within (E : Happening Unit → Prop) : prompt.Within E where
  meanwhile := by simp [prompt]
  handle := by simp [prompt]
  resolved := by simp [prompt]

/-- A queue with one item, a table with one pending key, and a failure that is due. -/
def busy : LoopRun Unit :=
  run prompt
    [.happen (.subscribe .queued ⟨"q", ':'⟩), .happen (.construct 0 1 5),
      .happen (.subscribe .coalesced ⟨"s", ':'⟩), .happen (.construct 0 1 5), .enroll 0 1,
      .enroll 1 0, .happen (.produce (.queueDel ⟨"q", ':'⟩ "k")),
      .happen (.produce (.del ⟨"s", ':'⟩ "k")), .happen (.failNext 1)]
    (start true [] 4 1000 10 ())

/-- As many dispatches as the bound allows: the first pop fails, and each member is called once
more for nothing, because its full batch of one might not have been all. -/
theorem busy_drains :
    busy.outcomes prompt (List.replicate 6 (.iterate [])) =
      [.dispatched 0, .dispatched 0, .dispatched 0, .dispatched 1, .dispatched 1, .timeout] ∧
    (busy.evalCalls prompt (List.replicate 6 (.iterate []))).countP EvalCall.failed +
      (busy.members.map fun i => busy.plant.load i).sum = 5 ∧
    ∀ i ∈ busy.members, ∃ p,
      (busy.run prompt (List.replicate 6 (.iterate []))).plant.post? i = some p ∧
        p.work (busy.run prompt (List.replicate 6 (.iterate []))).plant.store = [] := by
  have houtcomes : busy.outcomes prompt (List.replicate 6 (.iterate [])) =
      [.dispatched 0, .dispatched 0, .dispatched 0, .dispatched 1, .dispatched 1, .timeout] := by
    decide +kernel
  obtain ⟨dispatches, timeouts, hsplit, hdispatched, -, -, hempty⟩ :=
    the_loop_drains_and_becomes_quiet prompt prompt true [] 4 1000 10 () _
      (List.replicate 6 (.iterate [])) (r := busy) rfl (prompt_within _)
      (by simp [LoopAct.Quiet]) (by decide +kernel)
  refine ⟨houtcomes, by decide +kernel, hempty fun hnone => ?_⟩
  -- If no iteration had timed out, the last one would be a dispatch.
  rw [houtcomes, hnone, List.append_nil] at hsplit
  obtain ⟨id, hid⟩ := hdispatched .timeout (by simp [← hsplit])
  cases hid

end LoopRun

end ControlBus
