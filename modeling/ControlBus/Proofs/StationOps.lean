-- What the event loop does with a station keeps all others awake: it reads one inbox, pops for
-- one consumer and runs one executor at a time. A dispatch uses up one token, and may be the
-- last thing that tells of the work of its station; the execution after it makes up for that.
import ControlBus.Proofs.SelectionInvariants
import ControlBus.Proofs.Stations

namespace ControlBus

/-! ## Changes that spare all readers but one -/

/-- After this change of the store all who read another inbox are as awake as before. -/
structure MemoryStore.Spares (me : Nat) (s s' : MemoryStore) : Prop where
  sane : s'.Sane
  listens : ∀ id channel, s.board.Listens id channel → s'.board.Listens id channel
  awake : ∀ p : Post, p.signal.subscription ≠ me → p.Listens s → p.Awake s → p.Awake s'

namespace MemoryStore

variable {me : Nat} {s s' : MemoryStore}

theorem Wakes.spares (h : s.Wakes s') : Spares me s s' where
  sane := h.sane
  listens := h.listens
  awake _ _ hl ha := ha.wakes hl h

theorem Sane.spares (h : s.Sane) : Spares me s s := (Wakes.refl h).spares

theorem Sane.read (h : s.Sane) (n : Nat) :
    Spares me s { s with board := (s.board.read n me).2 } where
  sane := ⟨h.working.read n me, h.valid⟩
  listens _ _ hl := hl.read n me
  awake p hp _ ha := ha.board (by rw [Switchboard.inbox_read, if_neg hp])

end MemoryStore

namespace Plant

variable {η : Type} {w w' : Plant η} {i n : Nat} {st : Station}

/-! ## Changing a station -/

theorem length_change {f : Station → Station} {s : MemoryStore} :
    (w.change i f s).stations.length = w.stations.length := by
  simp [change]

theorem subscriptions_change (hi : w.stations[i]? = some st) {f : Station → Station}
    (hf : (f st).consumer.subscription = st.consumer.subscription) (s : MemoryStore) :
    (w.change i f s).subscriptions = w.subscriptions := by
  simp only [subscriptions, change]
  refine congrArg (w.drafts.map (·.subscription) ++ ·) (List.ext_getElem? fun j => ?_)
  rw [List.getElem?_map, List.getElem?_map, List.getElem?_modify]
  by_cases hj : i = j
  · subst hj
    simp [hi, hf]
  · simp [hj]

/-- Two stations never read the same inbox. -/
theorem Posted.station_inj (h : w.Posted) {j : Nat} {st' : Station}
    (hi : w.stations[i]? = some st) (hj : w.stations[j]? = some st')
    (hsub : st.consumer.subscription = st'.consumer.subscription) : i = j := by
  have hd := (List.nodup_append.mp h.distinct).2.1
  have hget : ∀ {k : Nat} {x : Station}, w.stations[k]? = some x →
      (w.stations.map (·.consumer.subscription))[k]? = some x.consumer.subscription :=
    fun hk => by rw [List.getElem?_map, hk, Option.map_some]
  refine (List.getElem?_inj (List.getElem?_eq_some_iff.mp (hget hi)).1 hd).mp ?_
  rw [hget hi, hget hj, hsub]

/-- A station that changes, but stands where it stood, leaves all others as awake as they are. -/
theorem Posted.change (h : w.Posted) (hi : w.stations[i]? = some st) {f : Station → Station}
    {s : MemoryStore} (hs : w.store.Spares st.consumer.subscription s) (hst : (f st).Posted s)
    (hsub : (f st).consumer.subscription = st.consumer.subscription) :
    (w.change i f s).Posted ∧ (∀ j, j ≠ i → w.AwakeAt j → (w.change i f s).AwakeAt j) ∧
      ((f st).Awake s → (w.change i f s).AwakeAt i) := by
  have hself : (w.change i f s).stations[i]? = some (f st) := by
    simp [Plant.change, hi]
  have hother : ∀ j, j ≠ i → (w.change i f s).stations[j]? = w.stations[j]? := fun j hj => by
    simp [Plant.change, Ne.symm hj]
  refine ⟨⟨hs.sane, ?_, ?_, ?_⟩, ?_, ?_⟩
  · intro d hd
    exact hs.listens _ _ (h.drafts d hd)
  · intro x hx
    obtain ⟨j, hj⟩ := List.mem_iff_getElem?.mp hx
    by_cases hji : j = i
    · subst hji
      rw [hself] at hj
      cases hj
      exact hst
    · rw [hother j hji] at hj
      exact (h.stations x (List.mem_of_getElem? hj)).wakes hs.listens
  · rw [subscriptions_change hi hsub]
    exact h.distinct
  · intro j hj ha x hx p hp
    rw [hother j hj] at hx
    obtain ⟨q, hq, hl⟩ := (h.stations x (List.mem_of_getElem? hx)).post
    rw [hp] at hq
    cases hq
    have hother : p.signal.subscription ≠ st.consumer.subscription := fun hsame =>
      hj (h.station_inj hx hi ((Consumer.subscription_post hp).trans hsame))
    exact hs.awake p hother hl (ha x hx p hp)
  · intro ha x hx
    rw [hself] at hx
    cases hx
    exact ha

theorem change_none (hi : w.stations[i]? = none) (f : Station → Station) :
    w.change i f w.store = w := by
  simp only [change]
  rw [List.modify_eq_self (List.getElem?_eq_none_iff.mp hi)]

/-- Exchanging the executor of a station changes nothing for anybody. -/
theorem Posted.changeExecutor (h : w.Posted) (i : Nat) {e : Executor} (he : 1 ≤ e.batchSize) :
    Keeps w (w.change i ({ · with executor := e }) w.store) := by
  cases hi : w.stations[i]? with
  | none =>
    rw [change_none hi]
    exact Keeps.refl h
  | some st =>
    obtain ⟨-, p, hp, hl⟩ := h.stations st (List.mem_of_getElem? hi)
    obtain ⟨hposted, hothers, hself⟩ := h.change hi (f := ({ · with executor := e }))
      h.sane.spares ⟨he, p, hp, hl⟩ rfl
    refine ⟨hposted, Nat.le_of_eq length_change.symm, ?_⟩
    intro j ha
    by_cases hj : j = i
    · subst hj
      exact hself fun q hq => ha st hi q hq
    · exact hothers j hj ha

/-! ## Looks -/

/-- A look at a station never fails: what its inbox holds goes into its count. -/
theorem Posted.poll_spec (h : w.Posted) (hi : w.stations[i]? = some st) {p : Post}
    (hp : st.consumer.post? = some p) :
    (∀ e, (w.poll i).1 ≠ .failed e) ∧
      ∃ c q, c.post? = some q ∧ p.Took q w.store ∧
        (w.poll i).2 = w.change i ({ · with consumer := c }) { w.store with
          board := (w.store.board.read w.store.board.capacity st.consumer.subscription).2 } := by
  obtain ⟨hreading, hpost, hboard⟩ := Consumer.poll_post hp w.store.board
  obtain ⟨hread, htook, hrest⟩ := p.poll_spec h.sane.working
  rw [← hreading] at hread
  simp only [Plant.poll, hi]
  exact ⟨hread, _, _, hpost, htook, by rw [hboard, hrest, Consumer.subscription_post hp]⟩

/-- A station with something to show has been looked at: it has data, or its inbox is empty. -/
def Looked (i : Nat) (w : Plant η) : Prop :=
  ∀ st p, w.stations[i]? = some st → st.consumer.post? = some p →
    0 < p.signal.pending ∨ w.store.board.inbox p.signal.subscription = []

theorem Attentive.poll (h : w.Attentive n) (i : Nat) :
    (w.poll i).2.Attentive n ∧ (∀ e, (w.poll i).1 ≠ .failed e) ∧ (w.poll i).2.Looked i := by
  cases hi : w.stations[i]? with
  | none =>
    simp only [Plant.poll, hi]
    refine ⟨h, by simp, ?_⟩
    intro st p hst
    rw [hi] at hst
    cases hst
  | some st =>
    obtain ⟨hb, p, hp, hl⟩ := h.posted.stations st (List.mem_of_getElem? hi)
    obtain ⟨hread, c, q, hq, htook, hw⟩ := h.posted.poll_spec hi hp
    have hsub : c.subscription = st.consumer.subscription := by
      rw [Consumer.subscription_post hq, htook.subscription, Consumer.subscription_post hp]
    have hlisten : q.Listens { w.store with
        board := (w.store.board.read w.store.board.capacity st.consumer.subscription).2 } := by
      rw [Post.Listens, htook.subscription, htook.table]
      exact hl.read w.store.board.capacity st.consumer.subscription
    obtain ⟨hposted, hothers, hself⟩ := h.posted.change hi (f := ({ · with consumer := c }))
      (h.posted.sane.read w.store.board.capacity) ⟨hb, q, hq, hlisten⟩ hsub
    rw [hw]
    refine ⟨⟨hposted, length_change.symm ▸ h.manned, ?_⟩, hread, ?_⟩
    · intro j
      by_cases hj : j = i
      · subst hj
        apply hself
        intro x hx
        rw [hq] at hx
        cases hx
        exact htook.awake (h.awake j st hi p hp) rfl
      · exact hothers j hj (h.awake j)
    · intro x y hx hy
      have hx' : x = { st with consumer := c } := by
        simpa [Plant.change, hi] using hx.symm
      subst hx'
      rw [hq] at hy
      cases hy
      refine htook.read.imp id ?_
      intro hnil
      rw [htook.subscription]
      change Switchboard.inbox (w.store.board.read w.store.board.capacity
        st.consumer.subscription).2 p.signal.subscription = []
      rw [Switchboard.inbox_read, hnil, List.drop_nil, ite_self]

theorem Attentive.looked_poll (h : w.Attentive n) {j : Nat} (hij : i ≠ j) (hlook : w.Looked i) :
    (w.poll j).2.Looked i := by
  cases hj : w.stations[j]? with
  | none => simpa only [Plant.poll, hj] using hlook
  | some st =>
    obtain ⟨-, p, hp, -⟩ := h.posted.stations st (List.mem_of_getElem? hj)
    obtain ⟨-, c, -, -, -, hw⟩ := h.posted.poll_spec hj hp
    rw [hw]
    intro x q hx hq
    have hx' : w.stations[i]? = some x := by simpa [Plant.change, Ne.symm hij] using hx
    refine (hlook x q hx' hq).imp id ?_
    intro hnil
    have hother : q.signal.subscription ≠ st.consumer.subscription := fun hsame =>
      hij (h.posted.station_inj hx' hj ((Consumer.subscription_post hq).trans hsame))
    change Switchboard.inbox (w.store.board.read w.store.board.capacity
      st.consumer.subscription).2 q.signal.subscription = []
    rw [Switchboard.inbox_read, if_neg hother, hnil]

/-! ## Dispatches and pops -/

/-- Nobody has been put to sleep, except perhaps one station. -/
structure AttentiveBut (n i : Nat) (w : Plant η) : Prop where
  posted : w.Posted
  manned : n ≤ w.stations.length
  awake : ∀ j, j ≠ i → w.AwakeAt j

theorem Attentive.but (h : w.Attentive n) (i : Nat) : w.AttentiveBut n i :=
  ⟨h.posted, h.manned, fun j _ => h.awake j⟩

theorem AttentiveBut.all (h : w.AttentiveBut n i) (ha : w.AwakeAt i) : w.Attentive n :=
  ⟨h.posted, h.manned, fun j => if hj : j = i then hj ▸ ha else h.awake j hj⟩

theorem AttentiveBut.keeps (h : w.AttentiveBut n i) (hk : w.Keeps w') : w'.AttentiveBut n i :=
  ⟨hk.posted, Nat.le_trans h.manned hk.manned, fun j hj => hk.awake j (h.awake j hj)⟩

/-- A consumer that stays at its post may do with its count what it likes, for all the others
care; if it has counted something it is awake itself. -/
theorem AttentiveBut.changeConsumer (h : w.AttentiveBut n i) {g : Consumer → Consumer}
    (hg : ∀ c p, c.post? = some p → ∃ p', (g c).post? = some p' ∧ p'.table = p.table ∧
      p'.signal.subscription = p.signal.subscription) :
    (w.changeConsumer i g).AttentiveBut n i ∧
      ((∀ c p, (g c).post? = some p → 0 < p.signal.pending) →
        (w.changeConsumer i g).AwakeAt i) := by
  unfold Plant.changeConsumer
  cases hi : w.stations[i]? with
  | none =>
    rw [change_none hi]
    refine ⟨h, ?_⟩
    intro _ st hst
    rw [hi] at hst
    cases hst
  | some st =>
    obtain ⟨hb, p, hp, hl⟩ := h.posted.stations st (List.mem_of_getElem? hi)
    obtain ⟨p', hp', htable, hsub⟩ := hg st.consumer p hp
    have hlisten : p'.Listens w.store := by
      rw [Post.Listens, htable, hsub]
      exact hl
    obtain ⟨hposted, hothers, hself⟩ := h.posted.change hi
      (f := fun st => { st with consumer := g st.consumer }) h.posted.sane.spares
      ⟨hb, p', hp', hlisten⟩ (by
        rw [Consumer.subscription_post hp, ← hsub]
        exact Consumer.subscription_post hp')
    exact ⟨⟨hposted, length_change.symm ▸ h.manned, fun j hj => hothers j hj (h.awake j hj)⟩,
      fun hpos => hself fun q hq _ => Or.inl (hpos _ q hq)⟩

theorem Attentive.afterRead (h : w.Attentive n) (i : Nat) :
    (w.changeConsumer i Consumer.afterRead).AttentiveBut n i :=
  ((h.but i).changeConsumer fun _ _ hp => ⟨_, Consumer.afterRead_post hp, rfl, rfl⟩).1

/-- A consumer that becomes ready again is awake. -/
theorem AttentiveBut.rearm (h : w.AttentiveBut n i) :
    (w.changeConsumer i Consumer.rearm).Attentive n := by
  obtain ⟨hbut, hself⟩ := h.changeConsumer (g := Consumer.rearm)
    fun _ _ hp => ⟨_, Consumer.rearm_post hp, rfl, rfl⟩
  refine hbut.all (hself fun c p hp => ?_)
  cases c <;> cases hp <;> exact Nat.succ_pos _

/-- A pop that succeeds leaves a station awake, even if it was not before. -/
theorem AttentiveBut.pop (h : w.AttentiveBut n i) (hi : w.stations[i]? = some st) {max : Nat}
    (hmax : 1 ≤ max) :
    (w.pop i max).2.AttentiveBut n i ∧
      ((w.pop i max).1.isOk = true → (w.pop i max).2.Attentive n) := by
  obtain ⟨hb, p, hp, hl⟩ := h.posted.stations st (List.mem_of_getElem? hi)
  obtain ⟨hwakes, p', hp', hkind, htable, hsub, hsettled⟩ :=
    Consumer.pop_post hp h.posted.sane hmax
  have hlisten : p'.Listens (st.consumer.pop max w.store).2.2 := by
    rw [Post.Listens, htable, hsub]
    exact hwakes.listens _ _ hl
  simp only [Plant.pop, hi]
  obtain ⟨hposted, hothers, hself⟩ := h.posted.change hi
    (f := ({ · with consumer := (st.consumer.pop max w.store).2.1 })) hwakes.spares
    ⟨hb, p', hp', hlisten⟩ (by
      rw [Consumer.subscription_post hp, ← hsub]
      exact Consumer.subscription_post hp')
  have hbut : (w.change i ({ · with consumer := (st.consumer.pop max w.store).2.1 })
      (st.consumer.pop max w.store).2.2).AttentiveBut n i :=
    ⟨hposted, length_change.symm ▸ h.manned, fun j hj => hothers j hj (h.awake j hj)⟩
  refine ⟨hbut, fun hok => hbut.all (hself fun q hq hne => Or.inl ?_)⟩
  rw [hp'] at hq
  cases hq
  exact hsettled hok hne

end Plant

/-! ## Executors -/

namespace Executor

variable {ω : Type} {p : Workplace ω} {P : ω → Prop}

/-- Handing over items keeps what the handler keeps. -/
theorem drainItems_keeps (hp : ∀ item w, P w → P (p.handle item w).2) (items : List WorkItem)
    (e : Executor) {w : ω} (h : P w) :
    P (drainItems p items e w).2 ∧ (drainItems p items e w).1.batchSize = e.batchSize := by
  induction items generalizing e w with
  | nil => exact ⟨h, rfl⟩
  | cons item rest ih =>
    have hstep := hp item w h
    have hone : P (e.handleOne p item w).2 ∧ (e.handleOne p item w).1.batchSize = e.batchSize := by
      unfold handleOne
      rcases hv : p.handle item w with ⟨verdict, w'⟩
      rw [hv] at hstep
      cases verdict <;> exact ⟨hstep, rfl⟩
    obtain ⟨hrest, hbatch⟩ := ih { (e.handleOne p item w).1 with pending := rest } hone.1
    exact ⟨hrest, hbatch.trans hone.2⟩

/-- An execution ends well if a pop that succeeds does, and rearming after one that fails. -/
theorem execute_keeps (hp : ∀ item w, P w → P (p.handle item w).2) (e : Executor) {w : ω}
    (hok : (p.pop e.batchSize w).1.isOk = true → P (p.pop e.batchSize w).2)
    (hfail : (p.pop e.batchSize w).1.isOk = false → P (p.rearm (p.pop e.batchSize w).2)) :
    P (e.execute p w).2.2 ∧ (e.execute p w).2.1.batchSize = e.batchSize := by
  unfold execute
  dsimp only
  rcases hpop : p.pop e.batchSize w with ⟨result, w'⟩
  rw [hpop] at hok hfail
  cases result with
  | error err => exact ⟨hfail rfl, rfl⟩
  | ok items => exact drainItems_keeps hp _ _ (hok rfl)

theorem sweep_keeps (hp : ∀ item w, P w → P (p.handle item w).2)
    (hr : ∀ w, P w → P (p.resolved w).2) (e : Executor) {w : ω} (h : P w) :
    P (e.sweep p w).2 ∧ (e.sweep p w).1.batchSize = e.batchSize :=
  drainItems_keeps hp _ _ (hr w h)

end Executor

namespace Staff

variable {η : Type} {w : Plant η} {i n : Nat} {st : Station}

theorem handle_keeps (staff : Staff η) (i : Nat) (item : WorkItem) (w : Plant η)
    (h : w.Attentive n) : ((staff.workplace i).handle item w).2.Attentive n :=
  h.keeps (h.posted.happenAll _)

/-- The execution of a station makes up for its dispatch: everybody is awake again. -/
theorem execute_wakes (staff : Staff η) (h : w.AttentiveBut n i) :
    (staff.execute i w).2.Attentive n := by
  simp only [execute]
  have hv := h.keeps (h.posted.happenAll (staff.meanwhile i w.store w.rest))
  generalize w.happenAll (staff.meanwhile i w.store w.rest) = v at hv ⊢
  cases hi : v.stations[i]? with
  | none =>
    apply hv.all
    intro st hst
    rw [hi] at hst
    cases hst
  | some st =>
    have hb := (hv.posted.stations st (List.mem_of_getElem? hi)).batch
    obtain ⟨hbut, hok⟩ := hv.pop hi hb
    obtain ⟨hdone, hbatch⟩ := Executor.execute_keeps (p := staff.workplace i)
      (P := Plant.Attentive n) (staff.handle_keeps i) st.executor hok fun _ => hbut.rearm
    exact hdone.keeps (hdone.posted.changeExecutor i (hbatch.symm ▸ hb))

theorem sweep_wakes (staff : Staff η) (h : w.Attentive n) (i : Nat) :
    (staff.sweep i w).2.Attentive n := by
  simp only [sweep]
  cases hi : w.stations[i]? with
  | none => exact h
  | some st =>
    have hb := (h.posted.stations st (List.mem_of_getElem? hi)).batch
    obtain ⟨hdone, hbatch⟩ := Executor.sweep_keeps (p := staff.workplace i) (P := Plant.Attentive n)
      (staff.handle_keeps i) (fun _ hv => hv.keeps (hv.posted.happenAll _)) st.executor h
    exact hdone.keeps (hdone.posted.changeExecutor i (hbatch.symm ▸ hb))

end Staff

/-! ## What lasts -/

/-- A property of plants that lasts: looks at stations, exchanges of executors and happenings of
one kind keep it, while everybody is at his post. -/
structure Plant.Lasting {η : Type} (E : Happening η → Prop) (Q : Plant η → Prop) : Prop where
  happen : ∀ w e, w.Posted → E e → Q w → Q (w.happen e)
  poll : ∀ w i, w.Posted → Q w → Q (w.poll i).2
  executor : ∀ w i e, Q w → Q (w.change i ({ · with executor := e }) w.store)

/-- All that a staff makes happen is of one kind. -/
structure Staff.Within {η : Type} (staff : Staff η) (E : Happening η → Prop) : Prop where
  meanwhile : ∀ i s e, ∀ h ∈ staff.meanwhile i s e, E h
  handle : ∀ i item s e, ∀ h ∈ (staff.handle i item s e).2, E h
  resolved : ∀ i s e, ∀ h ∈ (staff.resolved i s e).2, E h

section Lasting

variable {η : Type} {w : Plant η} {i n : Nat} {E : Happening η → Prop} {Q : Plant η → Prop}
  {staff : Staff η}

theorem Staff.within_true (staff : Staff η) : staff.Within fun _ => True :=
  ⟨fun _ _ _ _ _ => trivial, fun _ _ _ _ _ _ => trivial, fun _ _ _ _ _ => trivial⟩

theorem Plant.lasting_true : Plant.Lasting (fun _ : Happening η => True) fun _ => True :=
  ⟨fun _ _ _ _ _ => trivial, fun _ _ _ _ => trivial, fun _ _ _ _ => trivial⟩

theorem Plant.Lasting.happenAll (hQ : Plant.Lasting E Q) {events : List (Happening η)}
    (he : ∀ e ∈ events, E e) (hw : w.Posted) (hq : Q w) : Q (w.happenAll events) := by
  induction events generalizing w with
  | nil => exact hq
  | cons e rest ih =>
    exact ih (fun e he' => he e (List.mem_cons_of_mem _ he')) (hw.happen e).posted
      (hQ.happen w e hw (he e List.mem_cons_self) hq)

/-- Among attentive stations, what lasts outlives a batch of happenings. -/
theorem Plant.Lasting.happenAll_attentive (hQ : Plant.Lasting E Q)
    {events : List (Happening η)} (he : ∀ e ∈ events, E e) (h : w.Attentive n ∧ Q w) :
    (w.happenAll events).Attentive n ∧ Q (w.happenAll events) :=
  ⟨h.1.keeps (h.1.posted.happenAll events), hQ.happenAll he h.1.posted h.2⟩

/-- What lasts and holds after the pop of an execution, or after the rearming that a failed pop
calls for, holds when the execution is over. -/
theorem Staff.Within.execute (hs : staff.Within E) (hQ : Plant.Lasting E Q)
    (h : w.AttentiveBut n i) {v : Plant η}
    (hv : v = w.happenAll (staff.meanwhile i w.store w.rest)) {st : Station}
    (hi : v.stations[i]? = some st)
    (hok : (v.pop i st.executor.batchSize).1.isOk = true → Q (v.pop i st.executor.batchSize).2)
    (hfail : (v.pop i st.executor.batchSize).1.isOk = false →
      Q ((v.pop i st.executor.batchSize).2.changeConsumer i Consumer.rearm)) :
    Q (staff.execute i w).2 := by
  have hbut : v.AttentiveBut n i := hv ▸ h.keeps (h.posted.happenAll _)
  have hb := (hbut.posted.stations st (List.mem_of_getElem? hi)).batch
  obtain ⟨hpopped, hawake⟩ := hbut.pop hi hb
  obtain ⟨hdone, -⟩ := Executor.execute_keeps (p := staff.workplace i)
    (P := fun u => u.Attentive n ∧ Q u)
    (fun item u hu => hQ.happenAll_attentive (hs.handle i item u.store u.rest) hu) st.executor
    (fun hfine => ⟨hawake hfine, hok hfine⟩) (fun hbad => ⟨hpopped.rearm, hfail hbad⟩)
  simp only [Staff.execute, ← hv, hi]
  exact hQ.executor _ i _ hdone.2

theorem Staff.Within.sweep (hs : staff.Within E) (hQ : Plant.Lasting E Q) (i : Nat)
    (h : w.Attentive n ∧ Q w) : (staff.sweep i w).2.Attentive n ∧ Q (staff.sweep i w).2 := by
  refine ⟨staff.sweep_wakes h.1 i, ?_⟩
  simp only [Staff.sweep]
  cases hi : w.stations[i]? with
  | none => exact h.2
  | some st =>
    obtain ⟨hdone, -⟩ := Executor.sweep_keeps (p := staff.workplace i)
      (P := fun u => u.Attentive n ∧ Q u)
      (fun item u hu => hQ.happenAll_attentive (hs.handle i item u.store u.rest) hu)
      (fun u hu => hQ.happenAll_attentive (hs.resolved i u.store u.rest) hu) st.executor h
    exact hQ.executor _ i _ hdone.2

end Lasting

end ControlBus
