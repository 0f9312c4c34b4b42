-- Stations at work: consumers with their executors over one store. Whatever happens around them,
-- a station that has work to pop stays awake; only the dispatch of its own may put it to sleep,
-- and the execution that follows sees to it that nothing is forgotten.
import ControlBus.Proofs.WakeUps
import ControlBus.Scheduler.EventLoop
import ControlBus.Work.Executor

namespace ControlBus

/-! ## Producers -/

/-- What a producer asks of the store. -/
inductive Production where
  | set (t : TableName) (key : String) (fields : FieldList)
  | del (t : TableName) (key : String)
  | setBatch (t : TableName) (items : List (String × FieldList))
  | delBatch (t : TableName) (keys : List String)
  | clear (t : TableName)
  | queueSet (t : TableName) (key : String) (fields : FieldList)
  | queueDel (t : TableName) (key : String)
  | push (t : TableName) (item : WorkItem)
  | pushBatch (t : TableName) (items : List WorkItem)

namespace Production

/-- The store after it was asked, whether it could do it or not. -/
def run (s : MemoryStore) : Production → MemoryStore
  | set t key fields => ((CoalescingState.set t key fields).run s).2
  | del t key => ((CoalescingState.del t key).run s).2
  | setBatch t items => ((CoalescingState.setBatch t items).run s).2
  | delBatch t keys => ((CoalescingState.delBatch t keys).run s).2
  | clear t => ((CoalescingState.clear t).run s).2
  | queueSet t key fields => ((OrderedQueue.set t key fields).run s).2
  | queueDel t key => ((OrderedQueue.del t key).run s).2
  | push t item => ((OrderedQueue.push t item).run s).2
  | pushBatch t items => ((OrderedQueue.pushBatch t items).run s).2

theorem wakes (p : Production) {s : MemoryStore} (h : s.Sane) : s.Wakes (p.run s) := by
  cases p with
  | set t key fields => exact CoalescingState.rouses_set t key fields s h
  | del t key => exact CoalescingState.rouses_del t key s h
  | setBatch t items => exact CoalescingState.rouses_setBatch t items s h
  | delBatch t keys => exact CoalescingState.rouses_delBatch t keys s h
  | clear t => exact CoalescingState.rouses_clear t s h
  | queueSet t key fields => exact OrderedQueue.rouses_pushBatch t _ s h
  | queueDel t key => exact OrderedQueue.rouses_pushBatch t _ s h
  | push t item => exact OrderedQueue.rouses_pushBatch t [item] s h
  | pushBatch t items => exact OrderedQueue.rouses_pushBatch t items s h

end Production

/-! ## Stations -/

/-- A consumer and the executor that it serves. -/
structure Station where
  consumer : Consumer
  executor : Executor

/-- A consumer in the making: it has subscribed, and has still to count what waits for it. -/
structure Draft where
  kind : WorkKind
  table : TableName
  subscription : Nat

namespace Draft

/-- The rest of the construction. -/
def construct (d : Draft) : StoreOp MemoryStore Consumer :=
  match d.kind with
  | .queued => .ordered <$> OrderedConsumer.countBacklog d.table d.subscription
  | .coalesced => .coalescing <$> CoalescingConsumer.countBacklog d.table d.subscription

/-- Where the finished consumer will stand. -/
def post (d : Draft) (s : MemoryStore) : Post where
  kind := d.kind
  table := d.table
  signal := {
    name := d.table.name, subscription := d.subscription
    pending := (d.kind.work d.table s.contents).length }

/-- The construction changes nothing in the store, and the consumer knows of all its work. -/
theorem run_construct (d : Draft) (s : MemoryStore) :
    ∃ c, d.construct.run s = (.ok c, s) ∧ c.post? = some (d.post s) := by
  obtain ⟨kind, t, id⟩ := d
  cases kind with
  | queued => exact ⟨_, rfl, rfl⟩
  | coalesced => exact ⟨_, rfl, rfl⟩

/-- A subscription with the rest of the construction right behind it makes up the whole. -/
theorem run_attach (t : TableName) (s : MemoryStore) :
    (Consumer.ordered <$> OrderedConsumer.attach t : StoreOp MemoryStore Consumer).run s =
        (construct ⟨.queued, t, s.board.nextId⟩).run
          { s with board := (s.board.subscribe [t.channel] []).2 } ∧
      (Consumer.coalescing <$> CoalescingConsumer.attach t : StoreOp MemoryStore Consumer).run s =
        (construct ⟨.coalesced, t, s.board.nextId⟩).run
          { s with board := (s.board.subscribe [t.channel] []).2 } :=
  ⟨rfl, rfl⟩

end Draft

/-- Stations, consumers in the making, their store, and all the rest of the world. -/
structure Plant (η : Type) where
  store : MemoryStore
  drafts : List Draft := []
  stations : List Station := []
  rest : η

/-- What may happen at any time. -/
inductive Happening (η : Type) where
  | produce (p : Production)
  /-- The next `n` scripts are to fail. -/
  | failNext (n : Nat)
  /-- The construction of a consumer begins. -/
  | subscribe (kind : WorkKind) (t : TableName)
  /-- The construction of a consumer ends, and it gets an executor. -/
  | construct (i batchSize stuckThreshold : Nat)
  | elsewhere (f : η → η)

namespace Plant

variable {η : Type}

def happen (w : Plant η) : Happening η → Plant η
  | .produce p => { w with store := p.run w.store }
  | .failNext n => { w with store := w.store.injectFailures n }
  | .subscribe kind t =>
    { w with
      store := { w.store with board := (w.store.board.subscribe [t.channel] []).2 }
      drafts := w.drafts ++ [⟨kind, t, w.store.board.nextId⟩] }
  | .construct i batchSize stuckThreshold =>
    match w.drafts[i]? with
    | none => w
    | some d =>
      match d.construct.run w.store with
      | (.error _, store) => { w with store, drafts := w.drafts.eraseIdx i }
      | (.ok consumer, store) =>
        { w with
          store
          drafts := w.drafts.eraseIdx i
          stations := w.stations ++
            [{ consumer, executor := Executor.ofSettings batchSize stuckThreshold }] }
  | .elsewhere f => { w with rest := f w.rest }

def happenAll (w : Plant η) (events : List (Happening η)) : Plant η := events.foldl happen w

/-- Change a station and what is left of the store. -/
def change (i : Nat) (f : Station → Station) (store : MemoryStore) (w : Plant η) : Plant η :=
  { w with store, stations := w.stations.modify i f }

def changeConsumer (i : Nat) (f : Consumer → Consumer) (w : Plant η) : Plant η :=
  w.change i (fun st => { st with consumer := f st.consumer }) w.store

def poll (i : Nat) (w : Plant η) : Reading × Plant η :=
  match w.stations[i]? with
  | none => (.pending, w)
  | some st =>
    let (reading, consumer, board) := st.consumer.poll w.store.board
    (reading, w.change i ({ · with consumer }) { w.store with board })

/-- Whether a property holds of the consumer of a station; of none it does not. -/
def consumerIs (q : Consumer → Bool) (i : Nat) (w : Plant η) : Bool :=
  (w.stations[i]?).any fun st => q st.consumer

def pop (i max : Nat) (w : Plant η) : Except BusError (List WorkItem) × Plant η :=
  match w.stations[i]? with
  | none => (.ok [], w)
  | some st =>
    let (items, consumer, store) := st.consumer.pop max w.store
    (items, w.change i ({ · with consumer }) store)

end Plant

/-- How the stations are run: what their handlers make of the items, which constraints are
resolved, and what else happens meanwhile. -/
structure Staff (η : Type) where
  /-- What happens before a station begins to execute. -/
  meanwhile : Nat → MemoryStore → η → List (Happening η)
  handle : Nat → WorkItem → MemoryStore → η → Verdict × List (Happening η)
  resolved : Nat → MemoryStore → η → List Constraint × List (Happening η)
  now : η → Nat

namespace Staff

variable {η : Type} (staff : Staff η)

def workplace (i : Nat) : Workplace (Plant η) where
  pop := Plant.pop i
  rearm := Plant.changeConsumer i Consumer.rearm
  handle item w :=
    let (verdict, events) := staff.handle i item w.store w.rest
    (verdict, w.happenAll events)
  resolved w :=
    let (constraints, events) := staff.resolved i w.store w.rest
    (constraints, w.happenAll events)
  now w := staff.now w.rest

def execute (i : Nat) (w : Plant η) : Except BusError Unit × Plant η :=
  let w := w.happenAll (staff.meanwhile i w.store w.rest)
  match w.stations[i]? with
  | none => (.ok (), w)
  | some st =>
    let (result, executor, w) := st.executor.execute (staff.workplace i) w
    (result, w.change i ({ · with executor }) w.store)

def sweep (i : Nat) (w : Plant η) : Except BusError Unit × Plant η :=
  match w.stations[i]? with
  | none => (.ok (), w)
  | some st =>
    let (executor, w) := st.executor.sweep (staff.workplace i) w
    (.ok (), w.change i ({ · with executor }) w.store)

/-- How the event loop uses the stations, which it knows by number. -/
def ops : MemberOps Nat (Plant η) where
  poll := Plant.poll
  hasData := Plant.consumerIs Consumer.hasData
  hasMore := Plant.consumerIs Consumer.hasMore
  afterRead i := Plant.changeConsumer i Consumer.afterRead
  execute := staff.execute
  sweep := staff.sweep
  now w := staff.now w.rest

end Staff

/-! ## Posted stations -/

/-- A station listens to its table and pops something at a time. -/
structure Station.Posted (st : Station) (s : MemoryStore) : Prop where
  batch : 1 ≤ st.executor.batchSize
  post : ∃ p, st.consumer.post? = some p ∧ p.Listens s

def Station.Awake (st : Station) (s : MemoryStore) : Prop :=
  ∀ p, st.consumer.post? = some p → p.Awake s

theorem Station.Posted.wakes {st : Station} {s s' : MemoryStore} (h : st.Posted s)
    (hl : ∀ id channel, s.board.Listens id channel → s'.board.Listens id channel) :
    st.Posted s' := by
  obtain ⟨hb, p, hp, hlisten⟩ := h
  exact ⟨hb, p, hp, hl _ _ hlisten⟩

namespace Plant

variable {η : Type} {w w' w'' : Plant η} {n : Nat}

/-- The subscriptions of all consumers, finished or not. -/
def subscriptions (w : Plant η) : List Nat :=
  w.drafts.map (·.subscription) ++ w.stations.map (·.consumer.subscription)

structure Posted (w : Plant η) : Prop where
  sane : w.store.Sane
  drafts : ∀ d ∈ w.drafts, w.store.board.Listens d.subscription d.table.channel
  stations : ∀ st ∈ w.stations, st.Posted w.store
  distinct : w.subscriptions.Nodup

def AwakeAt (i : Nat) (w : Plant η) : Prop :=
  ∀ st, w.stations[i]? = some st → st.Awake w.store

/-- A change after which every station is still there, and still awake if it was. -/
structure Keeps (w w' : Plant η) : Prop where
  posted : w'.Posted
  manned : w.stations.length ≤ w'.stations.length
  awake : ∀ i, w.AwakeAt i → w'.AwakeAt i

theorem Keeps.refl (h : w.Posted) : Keeps w w := ⟨h, Nat.le_refl _, fun _ ha => ha⟩

theorem Keeps.trans (h : Keeps w w') (h' : Keeps w' w'') : Keeps w w'' :=
  ⟨h'.posted, Nat.le_trans h.manned h'.manned, fun i ha => h'.awake i (h.awake i ha)⟩

/-- Nobody has been put to sleep, and the first `n` stations are still there. -/
structure Attentive (n : Nat) (w : Plant η) : Prop where
  posted : w.Posted
  manned : n ≤ w.stations.length
  awake : ∀ i, w.AwakeAt i

theorem Attentive.all (h : w.Attentive n) : w.Attentive w.stations.length :=
  ⟨h.posted, Nat.le_refl _, h.awake⟩

theorem Attentive.keeps (h : w.Attentive n) (hk : w.Keeps w') : w'.Attentive n :=
  ⟨hk.posted, Nat.le_trans h.manned hk.manned, fun j => hk.awake j (h.awake j)⟩

theorem Posted.subscription_lt (h : w.Posted) :
    ∀ id ∈ w.subscriptions, id < w.store.board.nextId := by
  intro id hid
  rcases List.mem_append.mp hid with hid | hid
  · obtain ⟨d, hd, rfl⟩ := List.mem_map.mp hid
    exact (h.drafts d hd).lt_nextId h.sane.working
  · obtain ⟨st, hst, rfl⟩ := List.mem_map.mp hid
    obtain ⟨p, hp, hl⟩ := (h.stations st hst).post
    rw [Consumer.subscription_post hp]
    exact hl.lt_nextId h.sane.working

/-! ## Happenings -/

/-- A change of the store alone that wakes everybody. -/
theorem Posted.store (h : w.Posted) {s : MemoryStore} (hs : w.store.Wakes s) :
    Keeps w { w with store := s } where
  posted := {
    sane := hs.sane
    drafts := fun d hd => hs.listens _ _ (h.drafts d hd)
    stations := fun st hst => (h.stations st hst).wakes hs.listens
    distinct := h.distinct }
  manned := Nat.le_refl _
  awake i ha st hi p hp := by
    obtain ⟨q, hq, hl⟩ := (h.stations st (List.mem_of_getElem? hi)).post
    rw [hp] at hq
    cases hq
    exact (ha st hi p hp).wakes hl hs

theorem Posted.subscribe (h : w.Posted) (kind : WorkKind) (t : TableName) :
    Keeps w (w.happen (.subscribe kind t)) := by
  have hw := h.sane.working
  have hlisten : ∀ id channel, w.store.board.Listens id channel →
      (w.store.board.subscribe [t.channel] []).2.Listens id channel :=
    fun _ _ hl => (hl.subscribe [t.channel] []).1
  have hstore := h.store (s := { w.store with board := (w.store.board.subscribe [t.channel] []).2 })
    ⟨⟨hw.subscribe [t.channel] [], h.sane.valid⟩, hlisten,
      fun id channel hl hne => by rwa [(hl.subscribe [t.channel] []).2],
      fun _ _ _ _ he hne => absurd he hne⟩
  refine ⟨⟨hstore.posted.sane, ?_, hstore.posted.stations, ?_⟩, Nat.le_refl _, hstore.awake⟩
  · intro d hd
    rcases List.mem_append.mp hd with hd | hd
    · exact hstore.posted.drafts d hd
    · rw [List.mem_singleton] at hd
      subst hd
      exact Switchboard.listens_new hw t.channel
  · have hperm : (w.happen (.subscribe kind t)).subscriptions.Perm
        (w.store.board.nextId :: w.subscriptions) := by
      simp only [subscriptions, happen, List.map_append, List.map_cons, List.map_nil,
        List.append_assoc, List.singleton_append]
      exact List.perm_middle
    refine hperm.nodup_iff.mpr (List.nodup_cons.mpr ⟨fun hin => ?_, h.distinct⟩)
    exact Nat.lt_irrefl _ (h.subscription_lt _ hin)

/-- A consumer that counts its work only after it has subscribed misses nothing: what came before
the count is counted, and what comes after it sends a token. -/
theorem Posted.construct (h : w.Posted) (i batchSize stuckThreshold : Nat) :
    Keeps w (w.happen (.construct i batchSize stuckThreshold)) := by
  simp only [happen]
  cases hd : w.drafts[i]? with
  | none => exact Keeps.refl h
  | some d =>
    obtain ⟨c, hrun, hpost⟩ := d.run_construct w.store
    have hin := List.mem_of_getElem? hd
    simp only [hrun]
    refine ⟨⟨h.sane, ?_, ?_, ?_⟩, ?_, ?_⟩
    · intro e he
      exact h.drafts e (List.mem_of_mem_eraseIdx he)
    · intro st hst
      rcases List.mem_append.mp hst with hst | hst
      · exact h.stations st hst
      · rw [List.mem_singleton] at hst
        subst hst
        exact ⟨Nat.le_max_right batchSize 1, d.post w.store, hpost, h.drafts d hin⟩
    · obtain ⟨hlt, hget⟩ := List.getElem?_eq_some_iff.mp hd
      have hperm : (w.drafts.map (·.subscription)).Perm
          (d.subscription :: (w.drafts.eraseIdx i).map (·.subscription)) := by
        have := (List.getElem_cons_eraseIdx_perm hlt).symm.map (·.subscription)
        rwa [hget] at this
      have hsub : c.subscription = d.subscription := Consumer.subscription_post hpost
      have hall := h.distinct
      rw [subscriptions, (hperm.append_right _).nodup_iff] at hall
      simp only [subscriptions, List.map_append, List.map_cons, List.map_nil, hsub]
      refine List.Perm.nodup ?_ hall
      rw [List.cons_append, ← List.append_assoc]
      exact (List.perm_append_singleton _ _).symm
    · simp
    · intro j ha st hj p hp
      rcases Nat.lt_or_ge j w.stations.length with hlt | hge
      · rw [List.getElem?_append_left hlt] at hj
        exact ha st hj p hp
      · rw [List.getElem?_append_right hge] at hj
        have hst := List.mem_singleton.mp (List.mem_of_getElem? hj)
        subst hst
        rw [hpost] at hp
        cases hp
        intro hne
        exact Or.inl (List.length_pos_of_ne_nil hne)

theorem Posted.happen (h : w.Posted) (e : Happening η) : Keeps w (w.happen e) := by
  cases e with
  | produce p => exact h.store (p.wakes h.sane)
  | failNext n => exact h.store (MemoryStore.wakes_failures h.sane n)
  | subscribe kind t => exact h.subscribe kind t
  | construct i batchSize stuckThreshold => exact h.construct i batchSize stuckThreshold
  | elsewhere f =>
    exact ⟨⟨h.sane, h.drafts, h.stations, h.distinct⟩, Nat.le_refl _, fun _ ha => ha⟩

theorem Posted.happenAll (h : w.Posted) (events : List (Happening η)) :
    Keeps w (w.happenAll events) := by
  induction events generalizing w with
  | nil => exact Keeps.refl h
  | cons e rest ih => exact (h.happen e).trans (ih (h.happen e).posted)

end Plant

end ControlBus
