-- What pops of a consumer of changes hand out while reads of the store fail. Reads may fail at any
-- point and as often as they like: a pop that cannot go on puts back what it has found, and the
-- changes handed out in the end are those that were dumped and announced, in order and each once.
import ControlBus.Proofs.MemoryLaws
import ControlBus.Channel.Consumer
import ControlBus.Store.Faulty

namespace ControlBus

/-- The key of a work item and what happened to it. -/
def WorkItem.change (item : WorkItem) : String × Operation := (item.key, item.operation)

variable {σ : Type} [SharedStore σ]

namespace ChangeConsumer

/-- The change that a notification tells of; none if it is about no record of the table. -/
def told (t : TableName) (n : Notification) : Option (String × Operation) :=
  (afterStem? t.keyspaceStem n.channel).map fun key =>
    (key, if isRemoval n.payload then .del else .set)

/-- Whether a notification is about no record of the table. -/
def foreign (t : TableName) (n : Notification) : Bool := (told t n).isNone

/-- The changes that wait to be popped, in the order in which they will be. -/
def waiting (c : ChangeConsumer) : List (String × Operation) :=
  c.ahead.map WorkItem.change ++ c.buffer.buffered.filterMap (told c.table)

/-! ## One notification -/

/-- The record that a notification is about was to be read, and could not be. -/
structure Unreadable (t : TableName) (n : Notification) (e : BusError) : Prop where
  own : foreign t n = false
  lasting : isRemoval n.payload = false
  failed : ∃ key, afterStem? t.keyspaceStem n.channel = some key ∧
    ∃ s s' : σ, (SharedStore.fields (t.recordKey key)).run s = (.error e, s')

variable {t : TableName} {n : Notification} {s s' : σ}

theorem resolve_error {e : BusError} (h : (resolve t n).run s = (.error e, s')) :
    Unreadable (σ := σ) t n e := by
  unfold resolve at h
  cases hafter : afterStem? t.keyspaceStem n.channel with
  | none =>
    rw [hafter] at h
    cases h
  | some key =>
    rw [hafter] at h
    by_cases hgone : isRemoval n.payload = true
    · simp only [hgone, if_true] at h
      cases h
    · simp only [if_neg hgone, StoreOp.run_bind] at h
      refine ⟨by simp [foreign, told, hafter], by simpa using hgone, key, hafter, s, s', ?_⟩
      rcases hread : (SharedStore.fields (t.recordKey key)).run s with ⟨result, s''⟩
      rw [hread] at h
      cases result with
      | error e' =>
        cases h
        rfl
      | ok fields => cases h

theorem resolve_ok {found : Option WorkItem} (h : (resolve t n).run s = (.ok found, s')) :
    told t n = found.map WorkItem.change := by
  unfold resolve at h
  cases hafter : afterStem? t.keyspaceStem n.channel with
  | none =>
    rw [hafter] at h
    cases h
    simp [told, hafter]
  | some key =>
    rw [hafter] at h
    by_cases hgone : isRemoval n.payload = true
    · simp only [hgone, if_true] at h
      cases h
      simp [told, hafter, hgone, WorkItem.change]
    · simp only [if_neg hgone, StoreOp.run_bind] at h
      rcases hread : (SharedStore.fields (t.recordKey key)).run s with ⟨result, s''⟩
      rw [hread] at h
      cases result with
      | error e' => cases h
      | ok fields =>
        cases h
        simp [told, hafter, hgone, WorkItem.change]

/-! ## One pop -/

/-- What collecting items from buffered notifications comes to: the oldest are consumed, and just
those that tell of a change give an item. It ends when there is no more room, when nothing is left
or at a record that cannot be read. -/
structure Collected (σ : Type) [SharedStore σ] (t : TableName) (room : Nat)
    (notes consumed left : List Notification) (items : List WorkItem) (strangers : Nat)
    (failure : Option BusError) : Prop where
  split : notes = consumed ++ left
  changes : consumed.filterMap (told t) = items.map WorkItem.change
  strangers : strangers = consumed.countP (foreign t)
  closed : room = 0 → consumed = []
  atMost : items.length ≤ room
  finished : failure = none → items.length < room → left = []
  stuck : ∀ e, failure = some e →
    items.length < room ∧ ∃ n rest, left = n :: rest ∧ Unreadable (σ := σ) t n e

section

variable {room strangers : Nat} {notes consumed left : List Notification} {items : List WorkItem}
  {failure : Option BusError}

/-- A stranger is consumed first. -/
theorem Collected.pass (h : Collected σ t (room + 1) notes consumed left items strangers failure)
    (hn : told t n = none) :
    Collected σ t (room + 1) (n :: notes) (n :: consumed) left items (strangers + 1) failure where
  split := by rw [h.split, List.cons_append]
  changes := by
    rw [List.filterMap_cons, hn]
    exact h.changes
  strangers := by simp [foreign, hn, h.strangers]
  closed hroom := nomatch hroom
  atMost := h.atMost
  finished := h.finished
  stuck := h.stuck

/-- A notification that tells of a change is consumed first. -/
theorem Collected.take {item : WorkItem}
    (h : Collected σ t room notes consumed left items strangers failure)
    (hn : told t n = some item.change) :
    Collected σ t (room + 1) (n :: notes) (n :: consumed) left (item :: items) strangers
      failure where
  split := by rw [h.split, List.cons_append]
  changes := by
    rw [List.filterMap_cons, hn]
    exact congrArg (item.change :: ·) h.changes
  strangers := by simp [foreign, hn, h.strangers]
  closed hroom := nomatch hroom
  atMost := Nat.succ_le_succ h.atMost
  finished hdone hlt := h.finished hdone (Nat.lt_of_succ_lt_succ hlt)
  stuck e he := by
    obtain ⟨hlt, hleft⟩ := h.stuck e he
    exact ⟨Nat.succ_lt_succ hlt, hleft⟩

end

theorem collect_spec (t : TableName) (room : Nat) (notes : List Notification) (s : σ) :
    ∃ consumed items strangers left failure s',
      collect t room notes s = ((items, strangers, left, failure), s') ∧
        Collected σ t room notes consumed left items strangers failure := by
  induction notes generalizing room s with
  | nil =>
    exact ⟨[], [], 0, [], none, s, by rw [collect],
      rfl, rfl, rfl, fun _ => rfl, Nat.zero_le _, fun _ _ => rfl, fun _ h => nomatch h⟩
  | cons n rest ih =>
    cases room with
    | zero =>
      refine ⟨[], [], 0, n :: rest, none, s, ?_,
        rfl, rfl, rfl, fun _ => rfl, Nat.le_refl _, fun _ h => absurd h (Nat.lt_irrefl _),
        fun _ h => nomatch h⟩
      rw [collect]
      exact List.cons_ne_nil n rest
    | succ room =>
      rw [collect]
      rcases hresolve : (resolve t n).run s with ⟨result, s'⟩
      cases result with
      | error e =>
        refine ⟨[], [], 0, n :: rest, some e, s', rfl,
          rfl, rfl, rfl, fun _ => rfl, Nat.zero_le _, (fun h => nomatch h), ?_⟩
        intro e' he
        cases he
        exact ⟨Nat.succ_pos room, n, rest, rfl, resolve_error hresolve⟩
      | ok found =>
        have htold := resolve_ok hresolve
        cases found with
        | none =>
          obtain ⟨consumed, items, strangers, left, failure, s'', hcollect, h⟩ :=
            ih (room + 1) s'
          refine ⟨n :: consumed, items, strangers + 1, left, failure, s'', ?_, h.pass htold⟩
          dsimp only
          rw [hcollect]
        | some item =>
          obtain ⟨consumed, items, strangers, left, failure, s'', hcollect, h⟩ := ih room s'
          refine ⟨n :: consumed, item :: items, strangers, left, failure, s'', ?_, h.take htold⟩
          dsimp only
          rw [hcollect]

/-- A pop has failed, and from `c` to `c'` nothing has left the consumer: what was found before a
record could not be read is behind what was ahead, and that notification is the first still
buffered. -/
structure Withheld (σ : Type) [SharedStore σ] (e : BusError) (consumed : List Notification)
    (c c' : ChangeConsumer) : Prop where
  table : c'.table = c.table
  ahead : ∃ found, c'.ahead = c.ahead ++ found ∧
    consumed.filterMap (told c.table) = found.map WorkItem.change
  buffered : c.buffer.buffered = consumed ++ c'.buffer.buffered
  stuck : ∃ n rest, c'.buffer.buffered = n :: rest ∧ Unreadable (σ := σ) c.table n e
  itemsPopped : c'.stats.itemsPopped = c.stats.itemsPopped
  parseErrors : c'.stats.parseErrors = c.stats.parseErrors + consumed.countP (foreign c.table)

/-- A pop has handed out what was ahead and then what consumed notifications tell of. -/
structure HandedOut (max : Nat) (consumed : List Notification) (items : List WorkItem)
    (c c' : ChangeConsumer) : Prop where
  table : c'.table = c.table
  handed : ∃ found, items = c.ahead.take max ++ found ∧
    consumed.filterMap (told c.table) = found.map WorkItem.change
  ahead : c'.ahead = c.ahead.drop max
  /-- Nothing overtakes what was ahead. -/
  ordered : c.ahead.drop max = [] ∨ consumed = []
  buffered : c.buffer.buffered = consumed ++ c'.buffer.buffered
  atMost : items.length ≤ max
  short : items.length < max → c'.pending = 0
  itemsPopped : c'.stats.itemsPopped = c.stats.itemsPopped + items.length
  parseErrors : c'.stats.parseErrors = c.stats.parseErrors + consumed.countP (foreign c.table)

variable {c c' : ChangeConsumer} {consumed : List Notification} {items : List WorkItem} {max : Nat}

theorem pop_spec (c : ChangeConsumer) (max : Nat) (s : σ) :
    ∃ consumed, match c.pop max s with
      | (.error e, c', _) => Withheld σ e consumed c c'
      | (.ok items, c', _) => HandedOut max consumed items c c' := by
  obtain ⟨consumed, items, strangers, left, failure, s', hcollect, h⟩ :=
    collect_spec c.table (max - (c.ahead.take max).length) c.buffer.buffered s
  refine ⟨consumed, ?_⟩
  rw [List.length_take] at hcollect h
  have hatMost := h.atMost
  simp only [pop, List.length_take, hcollect]
  cases failure with
  | some e =>
    obtain ⟨hroom, hleft⟩ := h.stuck e rfl
    -- notifications are looked at only when nothing is left ahead of them
    have hfirst : c.ahead.take max ++ items ++ c.ahead.drop max = c.ahead ++ items := by
      rw [List.take_of_length_le (by omega), List.drop_of_length_le (by omega), List.append_nil]
    exact ⟨rfl, ⟨items, hfirst, h.changes⟩, h.split, hleft, rfl,
      congrArg (c.stats.parseErrors + ·) h.strangers⟩
  | none =>
    have hlength : (c.ahead.take max ++ items).length = min max c.ahead.length + items.length := by
      rw [List.length_append, List.length_take]
    refine ⟨rfl, ⟨items, rfl, h.changes⟩, rfl, ?_, h.split, ?_, ?_, rfl,
      congrArg (c.stats.parseErrors + ·) h.strangers⟩
    · by_cases hmax : c.ahead.length ≤ max
      · left
        exact List.drop_of_length_le hmax
      · right
        exact h.closed (by omega)
    · rw [hlength]
      omega
    · intro hlt
      rw [hlength] at hlt
      have hleft : left = [] := h.finished rfl (by omega)
      have hahead : c.ahead.drop max = [] := List.drop_of_length_le (by omega)
      simp [pending, NotificationBuffer.size, hleft, hahead]

/-- Changes that wait go on waiting when a pop fails, and there is one. -/
theorem Withheld.waiting {e : BusError} (h : Withheld σ e consumed c c') :
    c'.waiting = c.waiting := by
  obtain ⟨found, hahead, hfound⟩ := h.ahead
  rw [ChangeConsumer.waiting, ChangeConsumer.waiting, h.table, hahead, h.buffered,
    List.filterMap_append, hfound, List.map_append, List.append_assoc]

theorem Withheld.hasData {e : BusError} (h : Withheld σ e consumed c c') :
    (Consumer.change c').hasData = true := by
  obtain ⟨n, rest, hleft, -⟩ := h.stuck
  simp only [Consumer.hasData, pending, NotificationBuffer.size, hleft, List.length_cons,
    decide_eq_true_eq]
  omega

/-- What is handed out are the first of the changes that wait. -/
theorem HandedOut.waiting (h : HandedOut max consumed items c c') :
    items.map WorkItem.change ++ c'.waiting = c.waiting := by
  obtain ⟨found, hitems, hfound⟩ := h.handed
  have hahead : (c.ahead.take max).map WorkItem.change ++ (c.ahead.drop max).map WorkItem.change =
      c.ahead.map WorkItem.change := by
    rw [← List.map_append, List.take_append_drop]
  have hnext : found.map WorkItem.change ++ (c.ahead.drop max).map WorkItem.change =
      (c.ahead.drop max).map WorkItem.change ++ found.map WorkItem.change := by
    rcases h.ordered with hnone | hnone
    · rw [hnone, List.map_nil, List.append_nil, List.nil_append]
    · rw [← hfound, hnone, List.filterMap_nil, List.append_nil, List.nil_append]
  calc items.map WorkItem.change ++ c'.waiting
      = (c.ahead.take max).map WorkItem.change ++
          (found.map WorkItem.change ++ (c.ahead.drop max).map WorkItem.change) ++
          c'.buffer.buffered.filterMap (told c.table) := by
        rw [ChangeConsumer.waiting, h.table, h.ahead, hitems, List.map_append]
        simp only [List.append_assoc]
    _ = c.waiting := by
        rw [hnext, ← List.append_assoc, hahead, ChangeConsumer.waiting, h.buffered,
          List.filterMap_append, hfound]
        simp only [List.append_assoc]

/-- A consumer is attached with the records that the store has then, and with nothing else. -/
theorem attach_ok {t : TableName} {c : ChangeConsumer} {s₀ s : σ}
    (h : (attach t).run s₀ = (.ok c, s)) :
    ∃ id found s₁, (TableReader.dump t).run s₁ = (.ok found, s) ∧
      c = { table := t
            buffer := { name := t.name, subscription := id }
            ahead := found.map fun r => { key := r.1, operation := .set, fields := r.2 } } := by
  rw [attach, StoreOp.run_bind] at h
  rcases hsub : (SharedStore.subscribe [] [t.keyspacePattern]).run s₀ with ⟨result, s₁⟩
  rw [hsub] at h
  cases result with
  | error e => cases h
  | ok id =>
    dsimp only at h
    rw [StoreOp.run_bind, SharedStore.run_orAbandon] at h
    rcases hdump : (TableReader.dump t).run s₁ with ⟨result, s₂⟩
    rw [hdump] at h
    cases result with
    | error e => cases h
    | ok found =>
      cases h
      exact ⟨id, found, s₁, hdump, rfl⟩

end ChangeConsumer

/-! ## Runs -/

/-- What happens once a consumer is attached. -/
inductive RereadAct (σ : Type) where
  /-- The consumer takes in what has arrived. -/
  | read
  | pop (max : Nat)
  /-- Others use the store, or its operations begin or cease to fail. -/
  | elsewhere (f : σ → σ)

/-- A consumer of changes and its store, what it was sent and what its pops returned. -/
structure RereadRun (σ : Type) where
  store : σ
  consumer : ChangeConsumer
  received : List Notification := []
  popped : List WorkItem := []

namespace RereadRun

def act (r : RereadRun σ) : RereadAct σ → RereadRun σ
  | .read =>
    let buffer := r.consumer.buffer
    let (_, got, board) :=
      drainSubscription buffer.name buffer.subscription (SharedStore.board r.store)
    { r with
      store := SharedStore.withBoard r.store board
      consumer := { r.consumer with buffer := (buffer.poll (SharedStore.board r.store)).2.1 }
      received := r.received ++ got }
  | .pop max =>
    match r.consumer.pop max r.store with
    | (.error _, consumer, store) => { r with store, consumer }
    | (.ok items, consumer, store) =>
      { r with store, consumer, popped := r.popped ++ items }
  | .elsewhere f => { r with store := f r.store }

def run (acts : List (RereadAct σ)) (r : RereadRun σ) : RereadRun σ := acts.foldl act r

/-- What was handed out and what still waits are the changes that were dumped and, after them, those
that were announced to the consumer. -/
structure Complete (t : TableName) (dumped : List (String × Operation)) (r : RereadRun σ) :
    Prop where
  table : r.consumer.table = t
  order : r.popped.map WorkItem.change ++ r.consumer.waiting =
    dumped ++ r.received.filterMap (ChangeConsumer.told t)
  consumed : ∃ consumed, r.received = consumed ++ r.consumer.buffer.buffered ∧
    r.consumer.stats.parseErrors = consumed.countP (ChangeConsumer.foreign t)
  counted : r.consumer.stats.itemsPopped = r.popped.length

variable {t : TableName} {dumped : List (String × Operation)} {r : RereadRun σ}

/-- At first all that was dumped waits. -/
theorem complete_start {c : ChangeConsumer} {s₀ s : σ}
    (h : (ChangeConsumer.attach t).run s₀ = (.ok c, s)) :
    Complete t (c.ahead.map WorkItem.change) ({ store := s, consumer := c } : RereadRun σ) := by
  obtain ⟨id, found, s₁, hdump, rfl⟩ := ChangeConsumer.attach_ok h
  refine ⟨rfl, ?_, ⟨[], rfl, rfl⟩, rfl⟩
  simp only [ChangeConsumer.waiting, List.map_nil, List.nil_append, List.filterMap_nil]

theorem Complete.read (h : r.Complete t dumped) : (r.act .read).Complete t dumped := by
  obtain ⟨consumed, hreceived, herrors⟩ := h.consumed
  rcases hdrain : drainSubscription r.consumer.buffer.name r.consumer.buffer.subscription
    (SharedStore.board r.store) with ⟨reading, got, board⟩
  have hbuffered : (r.act .read).consumer.buffer.buffered =
      r.consumer.buffer.buffered ++ got := by
    simp only [act, NotificationBuffer.poll, hdrain]
  have hgot : (r.act .read).received = r.received ++ got := by
    simp only [act, hdrain]
  refine ⟨h.table, ?_, ⟨consumed, ?_, herrors⟩, h.counted⟩
  · have hwaiting : (r.act .read).consumer.waiting =
        r.consumer.waiting ++ got.filterMap (ChangeConsumer.told t) := by
      rw [ChangeConsumer.waiting, hbuffered, ChangeConsumer.waiting, ← h.table,
        List.filterMap_append, List.append_assoc]
      rfl
    rw [hwaiting, hgot, List.filterMap_append, ← List.append_assoc, ← List.append_assoc, ← h.order]
    rfl
  · rw [hgot, hbuffered, hreceived, List.append_assoc]

theorem Complete.pop (h : r.Complete t dumped) (max : Nat) :
    (r.act (.pop max)).Complete t dumped := by
  obtain ⟨before, hreceived, herrors⟩ := h.consumed
  obtain ⟨consumed, hpop⟩ := ChangeConsumer.pop_spec r.consumer max r.store
  rcases hresult : r.consumer.pop max r.store with ⟨result, c', s'⟩
  rw [hresult] at hpop
  have hsplit : ∀ left, r.consumer.buffer.buffered = consumed ++ left →
      r.received = before ++ consumed ++ left := by
    intro left hleft
    rw [hreceived, hleft, List.append_assoc]
  have hcount : before.countP (ChangeConsumer.foreign t) +
      consumed.countP (ChangeConsumer.foreign r.consumer.table) =
      (before ++ consumed).countP (ChangeConsumer.foreign t) := by
    rw [h.table, List.countP_append]
  cases result with
  | error e =>
    have hact : r.act (.pop max) = { r with store := s', consumer := c' } := by
      simp only [act, hresult]
    rw [hact]
    refine ⟨hpop.table.trans h.table, ?_, ⟨before ++ consumed, hsplit _ hpop.buffered, ?_⟩, ?_⟩
    · rw [← h.order, ← hpop.waiting]
    · rw [hpop.parseErrors, herrors, hcount]
    · exact hpop.itemsPopped.trans h.counted
  | ok items =>
    have hact : r.act (.pop max) =
        { r with store := s', consumer := c', popped := r.popped ++ items } := by
      simp only [act, hresult]
    rw [hact]
    refine ⟨hpop.table.trans h.table, ?_, ⟨before ++ consumed, hsplit _ hpop.buffered, ?_⟩, ?_⟩
    · rw [← h.order, ← hpop.waiting, List.map_append, List.append_assoc]
    · rw [hpop.parseErrors, herrors, hcount]
    · rw [hpop.itemsPopped, h.counted, List.length_append]

theorem Complete.run (h : r.Complete t dumped) (acts : List (RereadAct σ)) :
    (r.run acts).Complete t dumped := by
  induction acts generalizing r with
  | nil => exact h
  | cons a rest ih =>
    apply ih
    cases a with
    | read => exact h.read
    | pop max => exact h.pop max
    | elsewhere f => exact ⟨h.table, h.order, h.consumed, h.counted⟩

/-- On every store, whatever others do with it and whichever of its reads fail: pops hand out the
changes that were dumped and announced, in order, each once and none of them out of turn. A pop that
fails keeps everything and stays ready, one that succeeds is short only when nothing waits. -/
theorem a_failing_reread_loses_nothing {t : TableName} {c : ChangeConsumer} {s₀ s : σ}
    (hattached : (ChangeConsumer.attach t).run s₀ = (.ok c, s)) (acts : List (RereadAct σ))
    (max : Nat) :
    let r := RereadRun.run acts { store := s, consumer := c }
    (∃ found s₁, (TableReader.dump t).run s₁ = (.ok found, s) ∧
      c.ahead = found.map fun f => { key := f.1, operation := .set, fields := f.2 }) ∧
    r.Complete t (c.ahead.map WorkItem.change) ∧
    ∃ consumed, match r.consumer.pop max r.store with
      | (.error e, c', _) => ChangeConsumer.Withheld σ e consumed r.consumer c' ∧
          c'.waiting = r.consumer.waiting ∧ (Consumer.change c').hasData = true
      | (.ok items, c', _) => ChangeConsumer.HandedOut max consumed items r.consumer c' ∧
          items.map WorkItem.change ++ c'.waiting = r.consumer.waiting := by
  intro r
  refine ⟨?_, (complete_start hattached).run acts, ?_⟩
  · obtain ⟨id, found, s₁, hdump, rfl⟩ := ChangeConsumer.attach_ok hattached
    exact ⟨found, s₁, hdump, rfl⟩
  · obtain ⟨consumed, hpop⟩ := ChangeConsumer.pop_spec r.consumer max r.store
    refine ⟨consumed, ?_⟩
    rcases hresult : r.consumer.pop max r.store with ⟨result, c', s'⟩
    rw [hresult] at hpop
    cases result with
    | error e => exact ⟨hpop, hpop.waiting, hpop.hasData⟩
    | ok items => exact ⟨hpop, hpop.waiting⟩

/-- A record is read in vain twice, behind another that was read before it. -/
theorem nothing_is_lost_to_two_failed_rereads :
    let t : TableName := { name := "T" }
    let write (key : String) (s : FaultyStore MemoryStore) : FaultyStore MemoryStore :=
      ((SharedStore.mergeFields (t.recordKey key) [("v", "1")]).run s).2
    let remove (key : String) (s : FaultyStore MemoryStore) : FaultyStore MemoryStore :=
      ((SharedStore.delete (t.recordKey key)).run s).2
    let store : FaultyStore MemoryStore :=
      { inner := { contents := { announcing := true }, board := .ofBufferSize 16, maxPayload := 64 }
        faults := [("hash_get_all", 3), ("hash_get_all", 4)] }
    let acts : List (RereadAct (FaultyStore MemoryStore)) :=
      [.elsewhere (write "b"), .elsewhere (remove "a"), .elsewhere (write "c"), .read,
        .pop 9, .pop 1, .pop 9, .pop 9]
    ∃ c s, (ChangeConsumer.attach t).run (write "a" store) = (.ok c, s) ∧
      (RereadRun.run acts { store := s, consumer := c }).popped.map WorkItem.change =
        [("a", .set), ("b", .set), ("a", .del), ("c", .set)] := by
  intro t write remove store acts
  have hrun : (match (ChangeConsumer.attach t).run (write "a" store) with
      | (.ok c, s) =>
        let r := RereadRun.run acts { store := s, consumer := c }
        decide (c.ahead.map WorkItem.change = [("a", .set)] ∧ r.consumer.waiting = [] ∧
          r.received.filterMap (ChangeConsumer.told t) =
            [("b", .set), ("a", .del), ("c", .set)])
      | (.error _, _) => false) = true := by decide +kernel
  rcases hattached : (ChangeConsumer.attach t).run (write "a" store) with ⟨result, s⟩
  rw [hattached] at hrun
  cases result with
  | error e => cases hrun
  | ok c =>
    obtain ⟨hahead, hwaiting, hreceived⟩ := of_decide_eq_true hrun
    have horder := (a_failing_reread_loses_nothing hattached acts 1).2.1.order
    rw [hwaiting, List.append_nil, hahead, hreceived] at horder
    exact ⟨c, s, rfl, horder⟩

end RereadRun

end ControlBus
