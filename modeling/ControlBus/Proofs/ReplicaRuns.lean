-- Consumers of changes converge. A replica that starts empty and applies what successful pops
-- return has the stored record of every key that the consumer can hear of, whenever nothing is
-- pending and nothing was lost. The records found at the start are read one by one while others
-- go on writing.
import ControlBus.Proofs.Replicas

namespace ControlBus

variable {t : TableName} {key : String} {id : Nat} {r : Replica} {s s' : BusyStore}

/-! ## Attaching a consumer -/

/-- Before some keys have been read: a replica is behind by what is unread at the subscription, or
it is still empty at a key that will be read. -/
structure Dumping (t : TableName) (key : String) (id : Nat) (unread : List String)
    (value : Record) (s : BusyStore) : Prop where
  watched : s.Watched t id
  told : s.Intact t key id →
    Tells ((s.inbox id).map Notification.announcement) (t.changeChannel key) value
        (s.record t key) ∨
      key ∈ unread ∧ value = [] ∧ ∃ before,
        Tells ((s.inbox id).map Notification.announcement) (t.changeChannel key) before
          (s.record t key)

namespace Dumping

variable {unread : List String} {value : Record}

theorem later (h : Dumping t key id unread value s) (hl : BusyStore.Later t key id s s') :
    Dumping t key id unread value s' := by
  refine ⟨hl.watched, ?_⟩
  intro hi
  obtain ⟨more, hmore, htells⟩ := hl.told hi
  rw [hmore, List.map_append]
  rcases h.told (hl.intact hi) with hknown | ⟨hin, hempty, before, hbefore⟩
  · left
    exact hknown.append htells
  · right
    exact ⟨hin, hempty, before, hbefore.append htells⟩

/-- A key was read, and it had a record. -/
theorem found (h : Dumping t key id (key :: unread) value s) :
    Dumping t key id unread (s.record t key) s := by
  refine ⟨h.watched, ?_⟩
  intro hi
  left
  rcases h.told hi with hknown | ⟨-, -, before, hbefore⟩
  · exact hknown.reread
  · exact hbefore.reread

/-- A key was read, and it had no record any more. -/
theorem missing (h : Dumping t key id (key :: unread) value s) (hnone : s.record t key = []) :
    Dumping t key id unread value s := by
  refine ⟨h.watched, ?_⟩
  intro hi
  left
  rcases h.told hi with hknown | ⟨-, hempty, before, hbefore⟩
  · exact hknown
  · rw [hempty]
    rw [hnone] at hbefore ⊢
    exact hbefore.reread

/-- Another key was read. -/
theorem other {k : String} (h : Dumping t key id (k :: unread) value s) (hk : key ≠ k) :
    Dumping t key id unread value s := by
  refine ⟨h.watched, ?_⟩
  intro hi
  rcases h.told hi with hknown | ⟨hin, hrest⟩
  · left
    exact hknown
  · right
    exact ⟨(List.mem_cons.mp hin).resolve_left hk, hrest⟩

/-- The keys were listed. -/
theorem listed (h : s.Watched t id)
    (hkey : t.Covers key)
    (hknown : s.Intact t key id → ∃ before,
      Tells ((s.inbox id).map Notification.announcement) (t.changeChannel key) before
        (s.record t key)) :
    Dumping t key id
      ((s.inner.contents.keysMatching (t.recordStem ++ "*")).filterMap t.keyOfRecord?) [] s := by
  refine ⟨h, ?_⟩
  intro hi
  obtain ⟨before, hbefore⟩ := hknown hi
  by_cases hnone : s.record t key = []
  · left
    rw [hnone] at hbefore ⊢
    exact hbefore.reread
  · right
    refine ⟨?_, rfl, before, hbefore⟩
    rw [List.mem_filterMap]
    refine ⟨t.recordKey key, ?_, afterStem?_append t.recordStem key⟩
    apply Keyspace.mem_keysMatching hnone
    exact hkey.accepts_recordKey

end Dumping

/-- The item that a record found at the start becomes. -/
def WorkItem.ofFound (f : String × FieldList) : WorkItem :=
  { key := f.1, operation := .set, fields := f.2 }

/-- The record of a key if there is one, as it is found by reading it. -/
def BusyStore.foundAt (s : BusyStore) (t : TableName) (k : String) : List (String × FieldList) :=
  (if (s.record t k).isEmpty then none else some (s.record t k)).toList.map (k, ·)

theorem Dumping.read {k : String} {unread : List String}
    (h : Dumping t key id (k :: unread) (r key) s) :
    Dumping t key id unread (r.applyAll ((s.foundAt t k).map WorkItem.ofFound) key) s := by
  unfold BusyStore.foundAt
  by_cases hempty : (s.record t k).isEmpty = true
  · rw [if_pos hempty]
    by_cases hk : key = k
    · subst hk
      exact h.missing (List.isEmpty_iff.mp hempty)
    · exact h.other hk
  · rw [if_neg hempty]
    by_cases hk : key = k
    · subst hk
      change Dumping t key id unread (r.apply (WorkItem.ofFound (key, s.record t key)) key) s
      rw [WorkItem.ofFound, Replica.apply_set]
      exact h.found
    · change Dumping t key id unread (r.apply (WorkItem.ofFound (k, s.record t k)) key) s
      rw [Replica.apply_elsewhere hk]
      exact h.other hk

/-- Reading the listed keys one after the other, each from the store as it then is. -/
theorem TableReader.run_getAll (keys : List String) (h : Dumping t key id keys (r key) s)
    (hkey : t.Covers key) :
    (∃ e s', (TableReader.getAll t keys).run s = (.error e, s')) ∨
      ∃ found s', (TableReader.getAll t keys).run s = (.ok found, s') ∧
        Dumping t key id [] (r.applyAll (found.map WorkItem.ofFound) key) s' := by
  induction keys generalizing r s with
  | nil =>
    right
    exact ⟨[], s, rfl, h⟩
  | cons k rest ih =>
    rw [TableReader.getAll, StoreOp.run_bind, TableReader.get, StoreOp.run_bind]
    rcases ChangeConsumer.run_fields t k s with ⟨e, hfailed⟩ | hread
    · left
      exact ⟨e, s.reached, by rw [hfailed]⟩
    · have hone := (h.later (BusyStore.Later.reached h.watched hkey)).read
      rw [hread]
      dsimp only
      rw [StoreOp.run_pure]
      dsimp only
      rw [StoreOp.run_bind]
      rcases ih hone with ⟨e, s', hfailed⟩ | ⟨found, s', hrest, hdumped⟩
      · left
        exact ⟨e, s', by rw [hfailed]⟩
      · right
        refine ⟨s.reached.foundAt t k ++ found, s', ?_, ?_⟩
        · rw [hrest]
          rfl
        · rw [List.map_append, Replica.applyAll_append]
          exact hdumped

/-- Listing the keys of a table, then reading their records. -/
theorem TableReader.run_dump (h : s.Watched t id)
    (hkey : t.Covers key)
    (hknown : s.Intact t key id → ∃ before,
      Tells ((s.inbox id).map Notification.announcement) (t.changeChannel key) before
        (s.record t key)) :
    (∃ e s', (TableReader.dump t).run s = (.error e, s')) ∨
      ∃ found s', (TableReader.dump t).run s = (.ok found, s') ∧
        Dumping t key id []
          (Replica.applyAll (fun _ => []) (found.map WorkItem.ofFound) key) s' := by
  have hlater := BusyStore.Later.reached h hkey
  have hlisted := Dumping.listed hlater.watched hkey ?_
  · rw [TableReader.dump, StoreOp.run_bind, TableReader.keys, StoreOp.run_bind]
    have hasked : (∃ e, (SharedStore.keys (t.recordStem ++ "*")).run s = (.error e, s.reached)) ∨
        (SharedStore.keys (t.recordStem ++ "*")).run s =
          (.ok (s.reached.inner.contents.keysMatching (t.recordStem ++ "*")), s.reached) :=
      BusyStore.run_call rfl
    rcases hasked with ⟨e, hfailed⟩ | hkeys
    · left
      exact ⟨e, s.reached, by rw [hfailed]⟩
    · rw [hkeys]
      dsimp only
      rw [StoreOp.run_pure]
      exact run_getAll _ hlisted hkey
  · intro hi
    obtain ⟨before, hbefore⟩ := hknown (hlater.intact hi)
    obtain ⟨more, hmore, htells⟩ := hlater.told hi
    rw [hmore, List.map_append]
    exact ⟨before, hbefore.append htells⟩

/-- The store once the consumer has subscribed. -/
def BusyStore.subscribed (s : BusyStore) (t : TableName) : BusyStore :=
  { s.reached with
    inner := { s.reached.inner with
      board := (s.reached.inner.board.subscribe [] [t.keyspacePattern]).2 } }

/-- A consumer attached to a busy store misses nothing from then on. -/
theorem ChangeConsumer.run_attach (h : s.inner.Ready)
    (hkey : t.Covers key) :
    (∃ e s', (attach t).run s = (.error e, s')) ∨
      ∃ c s', (attach t).run s = (.ok c, s') ∧ c.table = t ∧ c.Tracks key (fun _ => []) s' := by
  have hready := BusyStore.ready_reached h
  have hasked : (∃ e, (SharedStore.subscribe [] [t.keyspacePattern]).run s =
        (.error e, s.reached)) ∨
      (SharedStore.subscribe [] [t.keyspacePattern]).run s =
        (.ok s.reached.inner.board.nextId, s.subscribed t) := BusyStore.run_call rfl
  rw [attach, StoreOp.run_bind]
  rcases hasked with ⟨e, hfailed⟩ | hsubscribed
  · left
    exact ⟨e, s.reached, by rw [hfailed]⟩
  · obtain ⟨hwatches, hinbox⟩ := Switchboard.watches_new hready.working t.keyspacePattern
    have hwatched : (s.subscribed t).Watched t s.reached.inner.board.nextId :=
      ⟨hready.subscribe [] [t.keyspacePattern], hwatches⟩
    have hknown : (s.subscribed t).Intact t key s.reached.inner.board.nextId → ∃ before,
        Tells (((s.subscribed t).inbox s.reached.inner.board.nextId).map
          Notification.announcement) (t.changeChannel key) before
            ((s.subscribed t).record t key) := by
      intro _
      refine ⟨(s.subscribed t).record t key, ?_⟩
      rw [BusyStore.inbox, show (s.subscribed t).inner.board.inbox _ = [] from hinbox]
      exact Tells.nothing _ _
    rw [hsubscribed]
    dsimp only
    rw [StoreOp.run_bind, SharedStore.run_orAbandon]
    rcases TableReader.run_dump hwatched hkey hknown with
      ⟨e, s', hfailed⟩ | ⟨found, s', hdump, hdumped⟩
    · left
      rw [hfailed]
      exact ⟨e, _, rfl⟩
    · right
      rw [hdump]
      refine ⟨_, s', rfl, rfl, ⟨⟨hdumped.watched, ?_⟩⟩⟩
      intro hi
      rcases hdumped.told hi with hknown | ⟨hin, -⟩
      · exact hknown
      · cases hin

/-! ## Runs -/

/-- What happens once a consumer is attached. -/
inductive ReplicaAct where
  /-- Somebody else uses the store. -/
  | other (u : StoreUse)
  /-- The consumer takes in what has arrived. -/
  | read
  /-- The consumer pops; before it reads a record the others take their turn. -/
  | pop (max : Nat) (turns : List Turn)

/-- A consumer of changes, the store that it shares with others, and the replica kept by what its
pops return. -/
structure ReplicaRun where
  store : BusyStore
  consumer : ChangeConsumer
  replica : Replica := fun _ => []

namespace ReplicaRun

/-- An empty store that announces changes. The numbers of `draws` pick what scripts draw. -/
def emptyStore (bufferSize maxPayload : Nat) (draws : List Nat) : MemoryStore :=
  { contents := { announcing := true, draws }, board := .ofBufferSize bufferSize, maxPayload }

/-- A consumer is attached to a store that was empty at first. The others take a turn before it
subscribes, before it lists the keys and before it reads each record. -/
def start (t : TableName) (bufferSize maxPayload : Nat) (draws : List Nat) (opening : List Turn) :
    Except BusError ReplicaRun :=
  let store : BusyStore :=
    { inner := emptyStore bufferSize maxPayload draws, turns := opening }
  match (ChangeConsumer.attach t).run store with
  | (.ok consumer, store) => .ok { store, consumer }
  | (.error e, _) => .error e

def act (r : ReplicaRun) : ReplicaAct → ReplicaRun
  | .other u => { r with store := r.store.use u }
  | .read =>
    let (_, buffer, board) := r.consumer.buffer.poll r.store.inner.board
    { r with
      store := { r.store with inner := { r.store.inner with board } }
      consumer := { r.consumer with buffer } }
  | .pop max turns =>
    match r.consumer.pop max { r.store with turns } with
    | (.ok items, consumer, store) => { store, consumer, replica := r.replica.applyAll items }
    | (.error _, consumer, store) => { r with store, consumer }

def run (r : ReplicaRun) (acts : List ReplicaAct) : ReplicaRun := acts.foldl act r

/-- Nothing is pending, neither at the consumer nor at its subscription, and nothing was lost. -/
structure Settled (r : ReplicaRun) : Prop where
  popped : r.consumer.pending = 0
  read : r.store.inbox r.consumer.buffer.subscription = []
  lossless : r.store.inner.board.dropped r.consumer.buffer.subscription = 0

instance (r : ReplicaRun) : Decidable r.Settled :=
  decidable_of_iff
    (r.consumer.pending = 0 ∧ r.store.inbox r.consumer.buffer.subscription = [] ∧
      r.store.inner.board.dropped r.consumer.buffer.subscription = 0)
    ⟨fun h => ⟨h.1, h.2.1, h.2.2⟩, fun h => ⟨h.popped, h.read, h.lossless⟩⟩

/-- The replica's record of a key of the table is the stored one but for what is pending. -/
structure Tracks (t : TableName) (key : String) (r : ReplicaRun) : Prop where
  table : r.consumer.table = t
  tracks : r.consumer.Tracks key r.replica r.store

variable {r : ReplicaRun}

theorem tracks_start {bufferSize maxPayload : Nat} {draws : List Nat} {opening : List Turn}
    (hkey : t.Covers key)
    (hstart : start t bufferSize maxPayload draws opening = .ok r) : r.Tracks t key := by
  have hready : (BusyStore.mk (emptyStore bufferSize maxPayload draws) opening []).inner.Ready :=
    ⟨rfl, rfl, rfl, Switchboard.working_ofBufferSize bufferSize⟩
  unfold start at hstart
  dsimp only at hstart
  rcases ChangeConsumer.run_attach hready hkey with
    ⟨e, s', hfailed⟩ | ⟨c, s', hattached, hc, htracks⟩
  · rw [hfailed] at hstart
    cases hstart
  · rw [hattached] at hstart
    cases hstart
    exact ⟨hc, htracks⟩

theorem Tracks.act (h : r.Tracks t key)
    (hkey : t.Covers key) (a : ReplicaAct) :
    (r.act a).Tracks t key := by
  obtain ⟨rfl, htracks⟩ := h
  cases a with
  | other u =>
    have hlater := BusyStore.Later.use htracks.caught.watched hkey u
    exact ⟨rfl, ⟨htracks.caught.later hlater⟩⟩
  | read => exact ⟨rfl, htracks.poll⟩
  | pop max turns =>
    have hturns : r.consumer.Tracks key r.replica { r.store with turns } :=
      ⟨htracks.caught.withTurns turns⟩
    obtain ⟨result, c', s', hpop, htable, hresult⟩ := hturns.pop hkey max
    rw [ReplicaRun.act, hpop]
    cases result with
    | error e => exact ⟨htable, hresult⟩
    | ok items => exact ⟨htable, hresult⟩

theorem Tracks.run (h : r.Tracks t key)
    (hkey : t.Covers key)
    (acts : List ReplicaAct) : (r.run acts).Tracks t key := by
  induction acts generalizing r with
  | nil => exact h
  | cons a rest ih => exact ih (h.act hkey a)

/-- Whatever others do with the store, also between the steps of attaching the consumer and of its
pops, and whichever reads fail: whenever nothing is pending and nothing was lost, the replica has
the stored record of every key whose changes the consumer's pattern takes, if nobody has published
on the channel of these changes but the store itself. -/
theorem replica_converges (t : TableName) (bufferSize maxPayload : Nat) (draws : List Nat)
    (opening : List Turn) (begun : ReplicaRun)
    (hstart : start t bufferSize maxPayload draws opening = .ok begun) (acts : List ReplicaAct) :
    let r := begun.run acts
    r.Settled → ∀ key,
      Text.Glob.accepts t.keyspacePattern (keyspaceChannel (t.recordKey key)) = true →
      keyspaceChannel (t.recordKey key) ∉ r.store.addressed →
      r.replica key = r.store.inner.contents.record (t.recordKey key) := by
  intro r hsettled key hkey hunaddressed
  obtain ⟨htable, htracks⟩ := ((tracks_start hkey hstart).run hkey acts : r.Tracks t key)
  have hpending := hsettled.popped
  unfold ChangeConsumer.pending NotificationBuffer.size at hpending
  have hahead : r.consumer.ahead = [] := List.eq_nil_of_length_eq_zero (by omega)
  have hbuffered : r.consumer.buffer.buffered = [] := List.eq_nil_of_length_eq_zero (by omega)
  have hcaught := htracks.caught
  rw [hahead, hbuffered, htable] at hcaught
  exact hcaught.settled ⟨hsettled.lossless, hunaddressed⟩ hsettled.read

/-- A record is deleted after the keys were listed and before it is read; a pop finds a record
that is gone again, fails at its next read and puts back what it had found. -/
theorem replica_converges_after_failed_pop :
    let t : TableName := { name := "T" }
    let write (key value : String) : StoreUse :=
      .command (.mergeFields (t.recordKey key) [("v", value)])
    let remove (key : String) : StoreUse := .command (.delete (t.recordKey key))
    let opening : List Turn :=
      [{ others := [write "a" "1"] }, {}, { others := [remove "a", write "b" "1"] }]
    let acts : List ReplicaAct :=
      [.other (write "a" "2"), .read,
        .pop 9 [{ others := [remove "b", write "a" "3"] }, { failure := some (.store "op" "x") }],
        .pop 1 [], .read, .pop 9 []]
    ∃ begun, start t 16 64 [] opening = .ok begun ∧ (begun.run acts).Settled ∧
      (begun.run acts).replica "a" = [("v", "3")] ∧ (begun.run acts).replica "b" = [] := by
  intro t write remove opening acts
  have hrun : (match start t 16 64 [] opening with
      | .ok begun =>
        decide ((begun.run acts).Settled ∧ (begun.run acts).store.addressed = [] ∧
          (begun.run acts).store.record t "a" = [("v", "3")] ∧
          (begun.run acts).store.record t "b" = [])
      | .error _ => false) = true := by decide +kernel
  have hkey : ∀ key ∈ ["a", "b"],
      Text.Glob.accepts t.keyspacePattern (keyspaceChannel (t.recordKey key)) = true := by
    decide +kernel
  cases hstart : start t 16 64 [] opening with
  | error e =>
    rw [hstart] at hrun
    cases hrun
  | ok begun =>
    rw [hstart] at hrun
    obtain ⟨hsettled, hnobody, ha, hb⟩ := of_decide_eq_true hrun
    have hconverges : ∀ key ∈ ["a", "b"],
        (begun.run acts).replica key = (begun.run acts).store.record t key := by
      intro key hin
      refine replica_converges t 16 64 [] opening begun hstart acts hsettled key (hkey key hin) ?_
      rw [hnobody]
      exact List.not_mem_nil
    refine ⟨begun, rfl, hsettled, ?_, ?_⟩
    · rw [hconverges "a" (by simp), ha]
    · rw [hconverges "b" (by simp), hb]

end ReplicaRun

end ControlBus
