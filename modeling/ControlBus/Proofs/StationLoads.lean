-- The loads of stations while no producer operates: whatever else happens leaves them as they are
-- or lower. A dispatch takes one unit off a load, and only a pop that fails puts it back.
import ControlBus.Proofs.Loads
import ControlBus.Proofs.StationOps
import ControlBus.Proofs.Transactions
import Mathlib.Algebra.GroupWithZero.Nat
import Mathlib.Algebra.Order.BigOperators.Group.List
import Mathlib.Algebra.Order.Group.Nat

namespace ControlBus

/-! ## Producers leave subscriptions alone -/

/-- Whoever has subscribed to one channel has subscribed to no other. -/
def MemoryStore.Separate (s : MemoryStore) : Prop := s.board.Single

/-- An operation that changes nothing about who has subscribed to what. -/
abbrev StoreOp.Separates {α : Type} (op : StoreOp MemoryStore α) : Prop :=
  op.Ensures MemoryStore.Separate fun _ => True

theorem MemoryStore.separates_script {α : Type} (script : Script)
    (read : Output → Except BusError α) :
    StoreOp.Separates (do liftM (read (← SharedStore.eval script))) where
  keeps s hs := by
    rw [MemoryStore.run_reading]
    cases s.failuresDue with
    | zero => exact hs.publishAll _
    | succ n => exact hs
  result _ _ _ _ := trivial

namespace CoalescingState

open StoreOp

theorem separates_set (t : TableName) (key : String) (fields : FieldList) :
    Separates (set t key fields) := by
  unfold set
  split
  · exact .pure trivial
  · exact (MemoryStore.separates_script _ _).bind fun _ _ => .pure trivial

theorem separates_del (t : TableName) (key : String) : Separates (del t key) :=
  (MemoryStore.separates_script _ _).bind fun _ _ => .pure trivial

theorem separates_setBatch (t : TableName) (items : List (String × FieldList)) :
    Separates (setBatch t items) := by
  induction items with
  | nil => exact .pure trivial
  | cons e rest ih => exact (separates_set t e.1 e.2).bind fun _ _ => ih

theorem separates_delBatch (t : TableName) (keys : List String) :
    Separates (delBatch t keys) := by
  induction keys with
  | nil => exact .pure trivial
  | cons key rest ih => exact (separates_del t key).bind fun _ _ => ih

end CoalescingState

theorem Production.separate (p : Production) {s : MemoryStore} (h : s.Separate) :
    (p.run s).Separate := by
  cases p with
  | set t key fields => exact (CoalescingState.separates_set t key fields).keeps s h
  | del t key => exact (CoalescingState.separates_del t key).keeps s h
  | setBatch t items => exact (CoalescingState.separates_setBatch t items).keeps s h
  | delBatch t keys => exact (CoalescingState.separates_delBatch t keys).keeps s h
  | clear t => exact (MemoryStore.separates_script _ _).keeps s h
  | queueSet t key fields => exact (MemoryStore.separates_script _ _).keeps s h
  | queueDel t key => exact (MemoryStore.separates_script _ _).keeps s h
  | push t item => exact (MemoryStore.separates_script _ _).keeps s h
  | pushBatch t items => exact (MemoryStore.separates_script _ _).keeps s h

/-- Anything but the operation of a producer. -/
def Happening.Quiet {η : Type} : Happening η → Prop
  | .produce _ => False
  | _ => True

namespace Plant

variable {η : Type} {w w' w'' : Plant η} {js : List Nat} {i j n max : Nat} {st : Station}
  {p : Post}

theorem separate_happen (h : w.store.Separate) (e : Happening η) : (w.happen e).store.Separate := by
  cases e with
  | produce p => exact p.separate h
  | failNext n => exact h
  | subscribe kind t => exact h.subscribe t.channel
  | construct i batchSize stuckThreshold =>
    simp only [happen]
    cases hd : w.drafts[i]? with
    | none => exact h
    | some d =>
      obtain ⟨c, hrun, -⟩ := d.run_construct w.store
      simp only [hrun]
      exact h
  | elsewhere f => exact h

/-! ## The loads of stations -/

/-- The post of a station. -/
def post? (i : Nat) (w : Plant η) : Option Post :=
  (w.stations[i]?).bind fun st => st.consumer.post?

def load (i : Nat) (w : Plant η) : Nat := ((w.post? i).map fun p => p.load w.store).getD 0

/-- The channel whose tokens wake a station. -/
def wakeChannel? (i : Nat) (w : Plant η) : Option String := (w.post? i).map fun p => p.table.channel

theorem load_of_post (h : w.post? i = some p) : w.load i = p.load w.store := by
  simp [load, h]

theorem wakeChannel_of_post (h : w.post? i = some p) : w.wakeChannel? i = some p.table.channel := by
  simp [wakeChannel?, h]

theorem post_of_station (hi : w.stations[i]? = some st) : w.post? i = st.consumer.post? := by
  simp [post?, hi]

theorem exists_station (h : w.post? i = some p) :
    ∃ st, w.stations[i]? = some st ∧ st.consumer.post? = some p :=
  Option.bind_eq_some_iff.mp h

theorem Posted.exists_post (h : w.Posted) (hi : i < w.stations.length) :
    ∃ p, w.post? i = some p := by
  obtain ⟨-, p, hp, -⟩ := h.stations _ (List.getElem_mem hi)
  exact ⟨p, (post_of_station (List.getElem?_eq_getElem hi)).trans hp⟩

theorem Posted.listens (h : w.Posted) (hp : w.post? i = some p) : p.Listens w.store := by
  obtain ⟨st, hi, hpost⟩ := exists_station hp
  obtain ⟨-, q, hq, hl⟩ := h.stations st (List.mem_of_getElem? hi)
  rw [hpost] at hq
  cases hq
  exact hl

theorem post_change (hi : w.stations[i]? = some st) (f : Station → Station) (s : MemoryStore) :
    (w.change i f s).post? j = if i = j then (f st).consumer.post? else w.post? j := by
  by_cases hij : i = j
  · subst hij
    simp [post?, change, hi]
  · simp [post?, change, hij]

/-! ## Changes that ease -/

/-- Each of these stations is at its post as before, and its load has not grown. -/
def Eases (js : List Nat) (w w' : Plant η) : Prop :=
  ∀ j ∈ js, ∀ p, w.post? j = some p →
    ∃ p', w'.post? j = some p' ∧ p'.table = p.table ∧ p'.load w'.store ≤ p.load w.store

theorem Eases.refl (js : List Nat) (w : Plant η) : Eases js w w :=
  fun _ _ p hp => ⟨p, hp, rfl, Nat.le_refl _⟩

theorem Eases.trans (h : Eases js w w') (h' : Eases js w' w'') : Eases js w w'' := by
  intro j hj p hp
  obtain ⟨p', hp', htable, hload⟩ := h j hj p hp
  obtain ⟨p'', hp'', htable', hload'⟩ := h' j hj p' hp'
  exact ⟨p'', hp'', htable'.trans htable, Nat.le_trans hload' hload⟩

theorem Eases.load (h : Eases js w w') (hj : j ∈ js) (hp : w.post? j = some p) :
    w'.load j ≤ w.load j := by
  obtain ⟨p', hp', -, hload⟩ := h j hj p hp
  rw [load_of_post hp, load_of_post hp']
  exact hload

theorem Eases.wakeChannel (h : Eases js w w') (hj : j ∈ js) (hp : w.post? j = some p) :
    w'.wakeChannel? j = w.wakeChannel? j := by
  obtain ⟨p', hp', htable, -⟩ := h j hj p hp
  rw [wakeChannel_of_post hp, wakeChannel_of_post hp', htable]

/-- Eased, and if `c` holds the load of one station has become less. -/
structure EasesBy (js : List Nat) (i : Nat) (c : Prop) (w w' : Plant η) : Prop where
  eases : Eases js w w'
  below : c → w'.load i < w.load i

theorem EasesBy.trans {c : Prop} (h : EasesBy js i c w w') (hi : i ∈ js)
    (hp : w.post? i = some p) (h' : Eases js w' w'') : EasesBy js i c w w'' := by
  obtain ⟨p', hp', -, -⟩ := h.eases i hi p hp
  exact ⟨h.eases.trans h', fun hc => Nat.lt_of_le_of_lt (h'.load hi hp') (h.below hc)⟩

/-- The loads of several stations taken together. -/
def totalLoad (js : List Nat) (w : Plant η) : Nat := (js.map fun j => w.load j).sum

theorem Eases.total (h : Eases js w w') (hposts : ∀ j ∈ js, ∃ p, w.post? j = some p) :
    w'.totalLoad js ≤ w.totalLoad js := by
  refine List.sum_le_sum fun j hj => ?_
  obtain ⟨p, hp⟩ := hposts j hj
  exact h.load hj hp

theorem EasesBy.total {c : Prop} (h : EasesBy js i c w w') (hi : i ∈ js)
    (hposts : ∀ j ∈ js, ∃ p, w.post? j = some p) (hc : c) :
    w'.totalLoad js < w.totalLoad js := by
  refine List.sum_lt_sum _ _ (fun j hj => ?_) ⟨i, hi, h.below hc⟩
  obtain ⟨p, hp⟩ := hposts j hj
  exact h.eases.load hj hp

/-- A change of one station and of the store, seen from the station and from all others. -/
theorem Eases.change (hi : w.stations[i]? = some st) {f : Station → Station} {s : MemoryStore}
    (hself : ∀ p, st.consumer.post? = some p →
      ∃ p', (f st).consumer.post? = some p' ∧ p'.table = p.table ∧ p'.load s ≤ p.load w.store)
    (hothers : ∀ j, j ≠ i → ∀ p, w.post? j = some p → p.load s ≤ p.load w.store) :
    Eases js w (w.change i f s) := by
  intro j _ p hp
  rw [post_change hi]
  by_cases hij : i = j
  · subst hij
    rw [if_pos rfl]
    exact hself p ((post_of_station hi).symm.trans hp)
  · rw [if_neg hij]
    exact ⟨p, hp, rfl, hothers j (Ne.symm hij) p hp⟩

theorem Eases.changeExecutor (js : List Nat) (w : Plant η) (i : Nat) (e : Executor) :
    Eases js w (w.change i ({ · with executor := e }) w.store) := by
  cases hi : w.stations[i]? with
  | none =>
    rw [change_none hi]
    exact .refl js w
  | some st =>
    exact .change hi (fun p hp => ⟨p, hp, rfl, Nat.le_refl _⟩) fun _ _ _ _ => Nat.le_refl _

/-- A look at a station moves tokens into its count, and leaves all other inboxes alone. -/
theorem Posted.eases_poll (h : w.Posted) (js : List Nat) (i : Nat) :
    Eases js w (w.poll i).2 := by
  simp only [Plant.poll]
  cases hi : w.stations[i]? with
  | none => exact .refl js w
  | some st =>
    obtain ⟨-, p, hp, -⟩ := h.stations st (List.mem_of_getElem? hi)
    obtain ⟨-, hpost, hboard⟩ := Consumer.poll_post hp w.store.board
    refine .change hi ?_ ?_
    · intro q hq
      rw [hp] at hq
      cases hq
      exact ⟨_, hpost, rfl, by rw [hboard]; exact Nat.le_of_eq (p.load_poll h.sane.working)⟩
    · intro j hj q hq
      obtain ⟨st', hst', hq'⟩ := exists_station hq
      have hapart : q.signal.subscription ≠ p.signal.subscription := fun hsame =>
        hj (h.station_inj hst' hi (by
          rw [Consumer.subscription_post hq', Consumer.subscription_post hp, hsame]))
      have hread := (p.poll_spec h.sane.working).2.2
      rw [hboard, hread]
      unfold Post.load
      rw [Switchboard.inbox_read, if_neg hapart]
      exact Nat.le_refl _

/-- A pop for one station burdens no other, if its script sends nothing on their channels. -/
theorem Posted.eases_pop (h : w.Posted) (hs : w.store.Separate)
    (hi : w.stations[i]? = some st) (hp : st.consumer.post? = some p) (hmax : 1 ≤ max)
    (hquiet : ∀ j ∈ js, ∀ q, w.post? j = some q →
      q.table.channel ∉ (EvalCall.mk w.store (p.popScript max)).channels) (hmem : i ∈ js) :
    Eases js w (w.pop i max).2 := by
  obtain ⟨hstore, -, p', hp', -, htable, hsub, hleft⟩ := Consumer.popsBy hp h.sane hmax
  have hquiet' := hquiet i hmem p ((post_of_station hi).trans hp)
  have hinbox := (EvalCall.mk w.store (p.popScript max)).inbox_after hs
    (h.listens ((post_of_station hi).trans hp)) hquiet'
  simp only [Plant.pop, hi]
  intro j hj q hq
  rw [post_change hi]
  by_cases hij : i = j
  · subst hij
    rw [post_of_station hi, hp] at hq
    cases hq
    rw [if_pos rfl]
    refine ⟨p', hp', htable, ?_⟩
    change p'.load (st.consumer.pop max w.store).2.2 ≤ p.load w.store
    unfold Post.load
    rw [hsub, hstore, hinbox]
    rw [hstore] at hleft
    exact Nat.add_le_add_right hleft _
  · rw [if_neg hij]
    refine ⟨q, hq, rfl, ?_⟩
    change q.load (st.consumer.pop max w.store).2.2 ≤ q.load w.store
    rw [hstore]
    exact q.load_pop h.sane hs (h.listens hq) (hquiet j hj q hq)

/-! ## What happens without producers -/

theorem Posted.eases_happen (h : w.Posted) (js : List Nat) {e : Happening η} (he : e.Quiet) :
    Eases js w (w.happen e) := by
  intro j _ p hp
  cases e with
  | produce q => exact he.elim
  | failNext n => exact ⟨p, hp, rfl, Nat.le_refl _⟩
  | subscribe kind t =>
    have hinbox := ((h.listens hp).subscribe [t.channel] []).2
    refine ⟨p, hp, rfl, Nat.le_of_eq ?_⟩
    simp only [Plant.happen, Post.load, hinbox]
    rfl
  | construct k batchSize stuckThreshold =>
    simp only [Plant.happen]
    cases hd : w.drafts[k]? with
    | none => exact ⟨p, hp, rfl, Nat.le_refl _⟩
    | some d =>
      obtain ⟨c, hrun, -⟩ := d.run_construct w.store
      obtain ⟨st, hj, hpost⟩ := exists_station hp
      simp only [hrun]
      refine ⟨p, ?_, rfl, Nat.le_refl _⟩
      rw [← hpost]
      apply post_of_station
      rw [List.getElem?_append_left (List.getElem?_eq_some_iff.mp hj).1, hj]
  | elsewhere f => exact ⟨p, hp, rfl, Nat.le_refl _⟩

theorem Posted.separate_poll (h : w.Posted) (hs : w.store.Separate) (i : Nat) :
    (w.poll i).2.store.Separate := by
  cases hi : w.stations[i]? with
  | none => simpa only [Plant.poll, hi] using hs
  | some st =>
    obtain ⟨-, p, hp, -⟩ := h.stations st (List.mem_of_getElem? hi)
    obtain ⟨-, c, -, -, -, hw⟩ := h.poll_spec hi hp
    rw [hw]
    exact hs.read w.store.board.capacity st.consumer.subscription

theorem lasting_separate :
    Lasting (fun _ : Happening η => True) fun w => w.store.Separate where
  happen _ e _ _ hs := separate_happen hs e
  poll _ i hw hs := hw.separate_poll hs i
  executor _ _ _ hs := hs

/-- What outlives everything that eases lasts while no producer operates. -/
theorem lasting_of_eases {Q : Plant η → Prop} (hQ : ∀ u u', Q u → Eases js u u' → Q u') :
    Lasting Happening.Quiet fun u => u.store.Separate ∧ Q u where
  happen u e hu he hq := ⟨separate_happen hq.1 e, hQ u _ hq.2 (hu.eases_happen js he)⟩
  poll u i hu hq := ⟨hu.separate_poll hq.1 i, hQ u _ hq.2 (hu.eases_poll js i)⟩
  executor u i e hq := ⟨hq.1, hQ u _ hq.2 (Eases.changeExecutor js u i e)⟩

theorem lasting_eases (js : List Nat) (w : Plant η) :
    Lasting Happening.Quiet fun u => u.store.Separate ∧ Eases js w u :=
  lasting_of_eases fun _ _ hu hu' => hu.trans hu'

theorem lasting_easesBy (hi : i ∈ js) (hp : w.post? i = some p) (c : Prop) :
    Lasting Happening.Quiet fun u => u.store.Separate ∧ EasesBy js i c w u :=
  lasting_of_eases fun _ _ hu hu' => hu.trans hi hp hu'

/-! ## Dispatches and executions -/

theorem eases_afterRead (js : List Nat) (w : Plant η) (i : Nat) :
    Eases js w (w.changeConsumer i Consumer.afterRead) := by
  unfold changeConsumer
  cases hi : w.stations[i]? with
  | none =>
    rw [change_none hi]
    exact .refl js w
  | some st =>
    exact .change hi (fun p hp => ⟨_, Consumer.afterRead_post hp, rfl, (p.load_afterRead _).1⟩)
      fun _ _ _ _ => Nat.le_refl _

/-- The dispatch of a station that has data takes one unit off its load. -/
theorem load_afterRead (hp : w.post? i = some p)
    (hdata : Plant.consumerIs Consumer.hasData i w = true) :
    (w.changeConsumer i Consumer.afterRead).load i < w.load i := by
  obtain ⟨st, hi, hpost⟩ := exists_station hp
  have hpending : 0 < p.signal.pending := by
    simpa [consumerIs, hi, Consumer.hasData_post hpost] using hdata
  have hafter : (w.changeConsumer i Consumer.afterRead).post? i =
      some { p with signal := p.signal.afterRead } := by
    rw [changeConsumer, post_change hi, if_pos rfl]
    exact Consumer.afterRead_post hpost
  rw [load_of_post hp, load_of_post hafter]
  exact (p.load_afterRead w.store).2 hpending

/-- Rearming puts one unit back. -/
theorem Eases.rearm (h : Eases js w w') (hlt : w'.load i < w.load i) :
    Eases js w (w'.changeConsumer i Consumer.rearm) := by
  unfold changeConsumer
  cases hi : w'.stations[i]? with
  | none =>
    rw [change_none hi]
    exact h
  | some st =>
    intro j hj p hp
    obtain ⟨p', hp', htable, hload⟩ := h j hj p hp
    rw [post_change hi]
    by_cases hij : i = j
    · subst hij
      rw [load_of_post hp, load_of_post hp'] at hlt
      rw [post_of_station hi] at hp'
      rw [if_pos rfl]
      exact ⟨_, Consumer.rearm_post hp', htable, Nat.le_trans (Nat.le_of_eq (p'.load_rearm _)) hlt⟩
    · rw [if_neg hij]
      exact ⟨p', hp', htable, hload⟩

/-- The call of `eval` by which a station pops. -/
def evalCall? (i : Nat) (w : Plant η) : Option EvalCall := do
  let st ← w.stations[i]?
  let p ← st.consumer.post?
  return { store := w.store, script := p.popScript st.executor.batchSize }

theorem exists_of_evalCall {call : EvalCall} (h : w.evalCall? i = some call) :
    ∃ st p, w.stations[i]? = some st ∧ st.consumer.post? = some p ∧
      call = ⟨w.store, p.popScript st.executor.batchSize⟩ := by
  obtain ⟨st, hi, h⟩ := Option.bind_eq_some_iff.mp h
  obtain ⟨p, hp, h⟩ := Option.bind_eq_some_iff.mp h
  exact ⟨st, p, hi, hp, (Option.some.inj h).symm⟩

theorem Posted.exists_evalCall (h : w.Posted) (hi : i < w.stations.length) :
    ∃ call, w.evalCall? i = some call := by
  obtain ⟨-, p, hp, -⟩ := h.stations _ (List.getElem_mem hi)
  have hst := List.getElem?_eq_getElem hi
  exact ⟨⟨w.store, p.popScript w.stations[i].executor.batchSize⟩, by simp [evalCall?, hst, hp]⟩

theorem Posted.pop_call (h : w.Posted) (hi : w.stations[i]? = some st)
    (hp : st.consumer.post? = some p) (hmax : 1 ≤ max) :
    (w.pop i max).1.isOk = !(EvalCall.mk w.store (p.popScript max)).failed ∧
      (w.pop i max).2.store = (EvalCall.mk w.store (p.popScript max)).after := by
  obtain ⟨hstore, hfailed, -⟩ := Consumer.popsBy hp h.sane hmax
  simp only [Plant.pop, hi]
  exact ⟨hfailed, hstore⟩

end Plant

namespace Staff

variable {η : Type} {staff : Staff η} {w₀ w : Plant η} {n i : Nat} {js : List Nat}

theorem separate_execute (staff : Staff η) (h : w.AttentiveBut n i) (hi : i < n)
    (hs : w.store.Separate) : (staff.execute i w).2.store.Separate := by
  have hvsep := Plant.lasting_separate.happenAll (staff.within_true.meanwhile i w.store w.rest)
    h.posted hs
  have hkeeps := h.posted.happenAll (staff.meanwhile i w.store w.rest)
  generalize hvw : w.happenAll (staff.meanwhile i w.store w.rest) = v at *
  have hlt := Nat.lt_of_lt_of_le hi (Nat.le_trans h.manned hkeeps.manned)
  have hst := List.getElem?_eq_getElem hlt
  obtain ⟨hb, p, hp, -⟩ := hkeeps.posted.stations _ (List.getElem_mem hlt)
  have hafter : (v.pop i v.stations[i].executor.batchSize).2.store.Separate := by
    rw [(hkeeps.posted.pop_call hst hp hb).2]
    exact EvalCall.single_after _ hvsep
  exact staff.within_true.execute Plant.lasting_separate h hvw.symm hst (fun _ => hafter)
    fun _ => hafter

/-- An execution after a dispatch: if the call of `eval` succeeds, the load of the station stays
below what it was before the dispatch; if it fails, that unit is put back. -/
theorem Within.eases_execute (hs : staff.Within Happening.Quiet) (h : w.AttentiveBut n i)
    (hi : i ∈ js) (hposts : ∀ j ∈ js, ∃ p, w₀.post? j = some p) (hsep : w.store.Separate)
    (hdispatched : Plant.EasesBy js i True w₀ w) {call : EvalCall}
    (hcall : (w.happenAll (staff.meanwhile i w.store w.rest)).evalCall? i = some call)
    (hquiet : ∀ j ∈ js, ∀ channel, w₀.wakeChannel? j = some channel → channel ∉ call.channels) :
    (staff.execute i w).2.store.Separate ∧
      Plant.EasesBy js i (call.failed = false) w₀ (staff.execute i w).2 := by
  obtain ⟨p₀, hp₀⟩ := hposts i hi
  obtain ⟨hvsep, hv⟩ := (Plant.lasting_easesBy hi hp₀ True).happenAll
    (hs.meanwhile i w.store w.rest) h.posted ⟨hsep, hdispatched⟩
  have hvposted := (h.posted.happenAll (staff.meanwhile i w.store w.rest)).posted
  generalize hvw : w.happenAll (staff.meanwhile i w.store w.rest) = v at *
  obtain ⟨st, p, hst, hp, rfl⟩ := Plant.exists_of_evalCall hcall
  have hb := (hvposted.stations st (List.mem_of_getElem? hst)).batch
  obtain ⟨hresult, hstore⟩ := hvposted.pop_call hst hp hb
  have hpopped : Plant.Eases js v (v.pop i st.executor.batchSize).2 := by
    refine hvposted.eases_pop hvsep hst hp hb ?_ hi
    intro j hj q hq
    obtain ⟨q₀, hq₀⟩ := hposts j hj
    refine hquiet j hj q.table.channel ?_
    rw [← hv.eases.wakeChannel hj hq₀, Plant.wakeChannel_of_post hq]
  have hdone := hv.trans hi hp₀ hpopped
  have hdonesep : (v.pop i st.executor.batchSize).2.store.Separate := by
    rw [hstore]
    exact EvalCall.single_after _ hvsep
  refine hs.execute (Plant.lasting_easesBy hi hp₀ _) h hvw.symm hst ?_ ?_
  · exact fun _ => ⟨hdonesep, hdone.eases, fun _ => hdone.below trivial⟩
  · intro hbad
    refine ⟨hdonesep, hdone.eases.rearm (hdone.below trivial), fun hfine => ?_⟩
    rw [hresult, hfine] at hbad
    cases hbad

end Staff

end ControlBus
