-- Single operations on self-contained messages: what a consumer takes out of its buffer, and what
-- becomes of a message that is sent.
import ControlBus.Channel.Message
import ControlBus.Proofs.MemoryLaws
import ControlBus.Proofs.OrderedHistory
import ControlBus.Proofs.Transactions

namespace ControlBus

/-! ## Taking messages -/

/-- The payloads of notifications that carry these entries. -/
def Brings (notifications : List Notification) (entries : List QueueEntry) : Prop :=
  notifications.map (·.payload) = entries.map QueueEntry.text

theorem Brings.cons_inv {n : Notification} {rest : List Notification}
    {entries : List QueueEntry} (h : Brings (n :: rest) entries) :
    ∃ e later, entries = e :: later ∧ WorkItem.decode n.payload = e.work ∧ Brings rest later := by
  cases entries with
  | nil => cases h
  | cons e later =>
    simp only [Brings, List.map_cons, List.cons.injEq] at h
    exact ⟨e, later, rfl, by rw [h.1, e.decode_text], h.2⟩

theorem Brings.append_inv {front back : List Notification} {entries : List QueueEntry}
    (h : Brings (front ++ back) entries) :
    ∃ first later, entries = first ++ later ∧ Brings front first ∧ Brings back later := by
  unfold Brings at h
  rw [List.map_append] at h
  obtain ⟨first, later, hsplit, hfirst, hlater⟩ := List.map_eq_append_iff.mp h.symm
  exact ⟨first, later, hsplit, hfirst.symm, hlater.symm⟩

theorem Brings.append {front back : List Notification} {first later : List QueueEntry}
    (h : Brings front first) (h' : Brings back later) :
    Brings (front ++ back) (first ++ later) := by
  unfold Brings at h h' ⊢
  rw [List.map_append, List.map_append, h, h']

theorem works_cons_none {e : QueueEntry} (h : e.work = none) (entries : List QueueEntry) :
    works (e :: entries) = works entries ∧ unreadable (e :: entries) = unreadable entries + 1 := by
  simp [works, unreadable, h]

theorem works_cons_some {e : QueueEntry} {x : WorkItem} (h : e.work = some x)
    (entries : List QueueEntry) :
    works (e :: entries) = x :: works entries ∧ unreadable (e :: entries) = unreadable entries := by
  simp [works, unreadable, h]

theorem works_append (a b : List QueueEntry) : works (a ++ b) = works a ++ works b := by
  simp [works]

theorem unreadable_append (a b : List QueueEntry) :
    unreadable (a ++ b) = unreadable a + unreadable b := by
  simp [unreadable]

/-- What is taken from the front of some entries: these items, and so many entries that are none. -/
def TakenFrom (entries : List QueueEntry) (items : List WorkItem) (malformed : Nat)
    (left : List Notification) : Prop :=
  ∃ now later, entries = now ++ later ∧ items = works now ∧ malformed = unreadable now ∧
    Brings left later

theorem TakenFrom.nothing {left : List Notification} {entries : List QueueEntry}
    (h : Brings left entries) : TakenFrom entries [] 0 left :=
  ⟨[], entries, rfl, rfl, rfl, h⟩

variable {entries : List QueueEntry} {items : List WorkItem} {malformed : Nat}
  {left : List Notification}

/-- An entry that is no item is passed over and counted. -/
theorem TakenFrom.skip (h : TakenFrom entries items malformed left) {e : QueueEntry}
    (he : e.work = none) : TakenFrom (e :: entries) items (malformed + 1) left := by
  obtain ⟨now, later, rfl, hitems, hmalformed, hleft⟩ := h
  obtain ⟨hworks, hunreadable⟩ := works_cons_none he now
  refine ⟨e :: now, later, rfl, ?_, ?_, hleft⟩
  · rw [hworks, hitems]
  · rw [hunreadable, hmalformed]

/-- More is taken from what is left. -/
theorem TakenFrom.more (h : TakenFrom entries items malformed left) {items' : List WorkItem}
    {malformed' : Nat} {left' : List Notification}
    (hmore : ∀ later, Brings left later → TakenFrom later items' malformed' left') :
    TakenFrom entries (items ++ items') (malformed + malformed') left' := by
  obtain ⟨now, later, rfl, rfl, rfl, hleft⟩ := h
  obtain ⟨now', later', rfl, rfl, rfl, hleft'⟩ := hmore later hleft
  refine ⟨now ++ now', later', ?_, ?_, ?_, hleft'⟩
  · rw [List.append_assoc]
  · rw [works_append]
  · rw [unreadable_append]

theorem nextMessage_spec {buffered : List Notification} (h : Brings buffered entries) :
    TakenFrom entries (nextMessage buffered).1.toList (nextMessage buffered).2.1
      (nextMessage buffered).2.2 := by
  induction buffered generalizing entries with
  | nil => exact .nothing h
  | cons n rest ih =>
    obtain ⟨e, later, rfl, hdecode, hrest⟩ := h.cons_inv
    unfold nextMessage
    rw [hdecode]
    cases hwork : e.work with
    | some x =>
      obtain ⟨hworks, hunreadable⟩ := works_cons_some hwork []
      exact ⟨[e], later, rfl, hworks.symm, hunreadable.symm, hrest⟩
    | none => exact (ih hrest).skip hwork

theorem takeMessages_spec (max : Nat) {buffered : List Notification}
    (h : Brings buffered entries) :
    TakenFrom entries (takeMessages max buffered).1 (takeMessages max buffered).2.1
      (takeMessages max buffered).2.2 := by
  induction max generalizing buffered entries with
  | zero => exact .nothing h
  | succ max ih =>
    have hfirst := nextMessage_spec h
    unfold takeMessages
    rcases hnext : nextMessage buffered with ⟨_ | x, malformed, rest⟩
    · rw [hnext] at hfirst
      exact hfirst
    · rw [hnext] at hfirst
      exact hfirst.more fun later hrest => ih hrest

theorem dropMalformed_spec {buffered : List Notification} (h : Brings buffered entries) :
    TakenFrom entries [] (dropMalformed buffered).1 (dropMalformed buffered).2 := by
  induction buffered generalizing entries with
  | nil => exact .nothing h
  | cons n rest ih =>
    obtain ⟨e, later, rfl, hdecode, hrest⟩ := h.cons_inv
    unfold dropMalformed
    rw [hdecode]
    cases hwork : e.work with
    | some x => exact .nothing h
    | none => exact (ih hrest).skip hwork

/-- The messages among some notifications. -/
def messages (notifications : List Notification) : List WorkItem :=
  notifications.filterMap fun n => WorkItem.decode n.payload

theorem Brings.messages_eq {notifications : List Notification} {entries : List QueueEntry}
    (h : Brings notifications entries) : messages notifications = works entries := by
  have hpayloads : messages notifications =
      (notifications.map (·.payload)).filterMap WorkItem.decode := by
    rw [messages, List.filterMap_map]
    rfl
  rw [hpayloads, h, List.filterMap_map]
  simp only [works, Function.comp_def, QueueEntry.decode_text]

theorem messages_nextMessage (buffered : List Notification) :
    messages buffered = (nextMessage buffered).1.toList ++ messages (nextMessage buffered).2.2 ∧
      ((nextMessage buffered).1 = none → messages buffered = []) := by
  induction buffered with
  | nil => exact ⟨rfl, fun _ => rfl⟩
  | cons n rest ih =>
    unfold nextMessage
    cases hdecode : WorkItem.decode n.payload with
    | some x => simp [messages, hdecode]
    | none => simpa [messages, hdecode] using ih

/-- The first messages are taken, as many as asked for. -/
theorem takeMessages_fst (max : Nat) (buffered : List Notification) :
    (takeMessages max buffered).1 = (messages buffered).take max := by
  induction max generalizing buffered with
  | zero => rfl
  | succ max ih =>
    obtain ⟨hmessages, hnone⟩ := messages_nextMessage buffered
    unfold takeMessages
    rcases hnext : nextMessage buffered with ⟨_ | x, malformed, rest⟩
    · rw [hnext] at hnone
      simp [hnone rfl]
    · rw [hnext] at hmessages
      simp [hmessages, ih]

namespace MessageConsumer

/-- A pop returns the first messages that are buffered. -/
theorem pop_fst (max : Nat) (c : MessageConsumer) :
    (c.pop max).1 = (messages c.buffer.buffered).take max := by
  have hlength : (messages c.buffer.buffered).length ≤ c.buffer.buffered.length :=
    List.length_filterMap_le ..
  unfold pop
  simp only [takeMessages_fst]
  rw [List.take_eq_take_iff]
  omega

end MessageConsumer

/-! ## Publishing -/

theorem MemoryStore.run_publish (channel payload : String) (s : MemoryStore) :
    (SharedStore.publish channel payload : StoreOp MemoryStore Nat).run s =
      if s.maxPayload < payload.utf8ByteSize then
        (.error (.payloadTooLarge payload.utf8ByteSize s.maxPayload), s)
      else
        (.ok (s.board.publish channel payload).1,
          { s with board := (s.board.publish channel payload).2 }) := by
  change s.publish channel payload = _
  unfold MemoryStore.publish SharedStore.checkSize
  by_cases hlarge : s.maxPayload < payload.utf8ByteSize
  · simp [hlarge]
  · simp [hlarge]

/-- A message whose text is too long is refused and goes to nobody; any other is published. -/
theorem Message.run_send (channel : String) (item : WorkItem) (s : MemoryStore) :
    (send channel item).run s =
      if s.maxPayload < item.encode.utf8ByteSize then
        (.error (.payloadTooLarge item.encode.utf8ByteSize s.maxPayload), s)
      else
        (.ok (s.board.publish channel item.encode).1,
          { s with board := (s.board.publish channel item.encode).2 }) := by
  have hlimit : SharedStore.maxPayload s = s.maxPayload := rfl
  unfold send
  generalize item.encode = text
  rw [StoreOp.run_bind, StoreOp.run_get]
  dsimp only
  rw [StoreOp.run_bind, StoreOp.run_lift, hlimit, SharedStore.checkSize]
  by_cases hlarge : s.maxPayload < text.utf8ByteSize
  · simp only [hlarge, if_true]
  · simp only [hlarge, if_false]
    rw [MemoryStore.run_publish, if_neg hlarge]

end ControlBus
