-- A look at the next message, and the pop that takes it. Each passes over what is no message in a
-- loop of its own; whether anybody looks first or not, the same messages are popped and the same
-- is counted.
import ControlBus.Proofs.Messages
import Mathlib.Logic.Function.Iterate

namespace ControlBus

/-! ## The front of a buffer -/

section

variable {buffered : List Notification}

/-- After a look the buffer is empty, or a message is at its front. -/
theorem dropMalformed_front (buffered : List Notification) :
    (dropMalformed buffered).2 = [] ∨
      ∃ n x rest, (dropMalformed buffered).2 = n :: rest ∧ WorkItem.decode n.payload = some x := by
  induction buffered with
  | nil => exact .inl rfl
  | cons n rest ih =>
    unfold dropMalformed
    cases hdecode : WorkItem.decode n.payload with
    | some x => exact .inr ⟨n, x, rest, rfl, hdecode⟩
    | none => exact ih

theorem dropMalformed_dropMalformed (buffered : List Notification) :
    dropMalformed (dropMalformed buffered).2 = (0, (dropMalformed buffered).2) := by
  rcases dropMalformed_front buffered with hnil | ⟨n, x, rest, hcons, hdecode⟩
  · rw [hnil]
    rfl
  · rw [hcons, dropMalformed, hdecode]

/-- What arrives later makes no difference to what is discarded before. -/
theorem dropMalformed_append (buffered more : List Notification) :
    dropMalformed (buffered ++ more) =
      ((dropMalformed buffered).1 + (dropMalformed ((dropMalformed buffered).2 ++ more)).1,
        (dropMalformed ((dropMalformed buffered).2 ++ more)).2) := by
  induction buffered with
  | nil => simp [dropMalformed]
  | cons n rest ih =>
    cases hdecode : WorkItem.decode n.payload with
    | some x => simp [dropMalformed, hdecode]
    | none =>
      simp only [List.cons_append, dropMalformed, hdecode, ih]
      rw [Nat.add_right_comm]

/-- The loop that takes the next message passes over just what a look discards. -/
theorem nextMessage_eq (buffered : List Notification) :
    nextMessage buffered =
      ((nextMessage (dropMalformed buffered).2).1,
        (dropMalformed buffered).1 + (nextMessage (dropMalformed buffered).2).2.1,
        (nextMessage (dropMalformed buffered).2).2.2) := by
  induction buffered with
  | nil => rfl
  | cons n rest ih =>
    cases hdecode : WorkItem.decode n.payload with
    | some x => simp [dropMalformed, hdecode]
    | none =>
      simp only [nextMessage, dropMalformed, hdecode, ih]
      rw [Nat.add_right_comm]

/-- What a look sees is the message that would be taken next. -/
theorem head_dropMalformed (buffered : List Notification) :
    ((dropMalformed buffered).2.head?.bind fun n => WorkItem.decode n.payload) =
      (nextMessage buffered).1 := by
  rw [nextMessage_eq]
  rcases dropMalformed_front buffered with hnil | ⟨n, x, rest, hcons, hdecode⟩
  · rw [hnil]
    rfl
  · rw [hcons]
    simp [nextMessage, hdecode]

theorem length_nextMessage (hbuffered : buffered ≠ []) :
    (nextMessage buffered).2.2.length < buffered.length := by
  induction buffered with
  | nil => exact absurd rfl hbuffered
  | cons n rest ih =>
    unfold nextMessage
    cases hdecode : WorkItem.decode n.payload with
    | some x => exact Nat.lt_succ_self _
    | none =>
      cases rest with
      | nil => exact Nat.zero_lt_one
      | cons m rest => exact Nat.lt_succ_of_lt (ih (List.cons_ne_nil m rest))

theorem takeMessages_nil (max : Nat) : takeMessages max [] = ([], 0, []) := by
  cases max <;> rfl

/-- To ask for more messages than there are notifications is to ask for all of them. -/
theorem takeMessages_min (max : Nat) {size : Nat} (h : buffered.length ≤ size) :
    takeMessages (min max size) buffered = takeMessages max buffered := by
  induction max generalizing buffered size with
  | zero => rw [Nat.zero_min]
  | succ max ih =>
    cases size with
    | zero =>
      rw [List.eq_nil_of_length_eq_zero (Nat.le_zero.mp h), takeMessages_nil, takeMessages_nil]
    | succ size =>
      rw [Nat.succ_min_succ]
      cases buffered with
      | nil => rw [takeMessages_nil, takeMessages_nil]
      | cons n rest =>
        have hshorter := length_nextMessage (List.cons_ne_nil n rest)
        simp only [takeMessages]
        rcases hnext : nextMessage (n :: rest) with ⟨_ | x, malformed, left⟩
        · rfl
        · rw [hnext] at hshorter
          have hleft : left.length ≤ size := by
            dsimp only at hshorter
            omega
          dsimp only
          rw [ih hleft]

/-- Messages are taken from behind what a look discards. -/
theorem takeMessages_eq (max : Nat) (buffered : List Notification) :
    takeMessages (max + 1) buffered =
      ((takeMessages (max + 1) (dropMalformed buffered).2).1,
        (dropMalformed buffered).1 + (takeMessages (max + 1) (dropMalformed buffered).2).2.1,
        (takeMessages (max + 1) (dropMalformed buffered).2).2.2) := by
  have hnext := nextMessage_eq buffered
  simp only [takeMessages]
  rcases hfirst : nextMessage (dropMalformed buffered).2 with ⟨_ | x, malformed, left⟩
  · rw [hfirst] at hnext
    rw [hnext]
  · rw [hfirst] at hnext
    rw [hnext]
    dsimp only
    rw [Nat.add_assoc]

end

namespace MessageConsumer

variable {c c' : MessageConsumer} {seen : Option WorkItem}

/-! ## The loop of a look -/

/-- Discard and count what is at the front. -/
def discard (c : MessageConsumer) : MessageConsumer :=
  { c with buffer := c.buffer.popFront, stats := c.stats.malformed 1 }

/-- The loop of a look, turn by turn, with what it sees and what it leaves. -/
inductive Looks : MessageConsumer → Option WorkItem → MessageConsumer → Prop where
  | empty {c : MessageConsumer} (front : c.buffer.front? = none) : Looks c none c
  | found {c : MessageConsumer} {n : Notification} {x : WorkItem}
      (front : c.buffer.front? = some n) (reads : WorkItem.decode n.payload = some x) :
      Looks c (some x) c
  | discard {c c' : MessageConsumer} {n : Notification} {seen : Option WorkItem}
      (front : c.buffer.front? = some n) (reads : WorkItem.decode n.payload = none)
      (rest : Looks c.discard seen c') : Looks c seen c'

/-- A look discards what is at the front and is no message. -/
theorem peek_discard {n : Notification} (front : c.buffer.front? = some n)
    (reads : WorkItem.decode n.payload = none) : c.discard.peek = c.peek := by
  rcases c with ⟨channel, ⟨name, subscription, _ | ⟨m, rest⟩⟩, stats⟩
  · cases front
  · obtain rfl : m = n := by simpa [NotificationBuffer.front?] using front
    have hdrop : dropMalformed (m :: rest) =
        ((dropMalformed rest).1 + 1, (dropMalformed rest).2) := by
      simp [dropMalformed, reads]
    simp only [peek, discard, NotificationBuffer.popFront, List.tail_cons, hdrop,
      ChannelStats.malformed, Nat.add_assoc, Nat.add_comm 1]

theorem peek_of_message {n : Notification} {x : WorkItem} (front : c.buffer.front? = some n)
    (reads : WorkItem.decode n.payload = some x) : c.peek = (some x, c) := by
  rcases c with ⟨channel, ⟨name, subscription, _ | ⟨m, rest⟩⟩, stats⟩
  · cases front
  · obtain rfl : m = n := by simpa [NotificationBuffer.front?] using front
    simp [peek, dropMalformed, reads, ChannelStats.malformed]

theorem peek_of_empty (front : c.buffer.front? = none) : c.peek = (none, c) := by
  rcases c with ⟨channel, ⟨name, subscription, _ | ⟨m, rest⟩⟩, stats⟩
  · rfl
  · cases front

theorem Looks.peek_eq (h : Looks c seen c') : c.peek = (seen, c') := by
  induction h with
  | empty front => exact peek_of_empty front
  | found front reads => exact peek_of_message front reads
  | discard front reads rest ih => exact (peek_discard front reads).symm.trans ih

/-- The loop comes to an end: each turn but the last leaves one notification less. -/
theorem looks_peek (c : MessageConsumer) : Looks c c.peek.1 c.peek.2 := by
  induction hsize : c.buffer.buffered.length generalizing c with
  | zero =>
    have hfront : c.buffer.front? = none := by
      rw [NotificationBuffer.front?, List.eq_nil_of_length_eq_zero hsize]
      rfl
    rw [peek_of_empty hfront]
    exact .empty hfront
  | succ size ih =>
    cases hfront : c.buffer.front? with
    | none =>
      rw [peek_of_empty hfront]
      exact .empty hfront
    | some n =>
      cases hreads : WorkItem.decode n.payload with
      | some x =>
        rw [peek_of_message hfront hreads]
        exact .found hfront hreads
      | none =>
        have hless : c.discard.buffer.buffered.length = size := by
          simp [discard, NotificationBuffer.popFront, hsize]
        have hrest := ih c.discard hless
        rw [peek_discard hfront hreads] at hrest
        exact .discard hfront hreads hrest

theorem looks_iff : Looks c seen c' ↔ c.peek = (seen, c') := by
  constructor
  · exact Looks.peek_eq
  · intro h
    have hlooks := looks_peek c
    rwa [h] at hlooks

/-! ## A look before a pop -/

/-- A pop as long as it asks for at least one message. -/
theorem pop_succ (max : Nat) (c : MessageConsumer) :
    c.pop (max + 1) =
      ((takeMessages (max + 1) c.buffer.buffered).1,
        { c with
          buffer := { c.buffer with
            buffered := (takeMessages (max + 1) c.buffer.buffered).2.2 }
          stats := c.stats.popCalled.popReturned
            (takeMessages (max + 1) c.buffer.buffered).1.length
            (takeMessages (max + 1) c.buffer.buffered).2.1 }) := by
  rw [pop, takeMessages_min (max + 1) (Nat.le_refl _)]

theorem pop_peek (max : Nat) (c : MessageConsumer) : c.peek.2.pop (max + 1) = c.pop (max + 1) := by
  rw [pop_succ, pop_succ, takeMessages_eq max c.buffer.buffered]
  simp only [peek, ChannelStats.malformed, ChannelStats.popCalled, ChannelStats.popReturned,
    Nat.add_assoc]

theorem peek_fst (max : Nat) (c : MessageConsumer) : c.peek.1 = (c.pop (max + 1)).1.head? := by
  have hsees : c.peek.1 = (nextMessage c.buffer.buffered).1 :=
    head_dropMalformed c.buffer.buffered
  obtain ⟨hmessages, hnone⟩ := messages_nextMessage c.buffer.buffered
  rw [hsees, pop_fst]
  cases hfirst : (nextMessage c.buffer.buffered).1 with
  | none => rw [hnone hfirst, List.take_nil, List.head?_nil]
  | some x =>
    rw [hfirst] at hmessages
    rw [hmessages]
    rfl

/-- Who looks again sees the same and discards nothing more. -/
theorem peek_peek (c : MessageConsumer) : c.peek.2.peek = (c.peek.1, c.peek.2) := by
  simp only [peek, dropMalformed_dropMalformed, ChannelStats.malformed, Nat.add_zero]

theorem iterate_peek (k : Nat) (c : MessageConsumer) :
    (fun c : MessageConsumer => c.peek.2)^[k + 1] c = c.peek.2 := by
  induction k with
  | zero => rfl
  | succ k ih => rw [Function.iterate_succ_apply', ih, peek_peek]

theorem iterate_peek_fst (k : Nat) (c : MessageConsumer) :
    ((fun c : MessageConsumer => c.peek.2)^[k] c).peek.1 = c.peek.1 := by
  cases k with
  | zero => rfl
  | succ k => rw [iterate_peek, peek_peek]

/-! ## Looks among pops and arrivals -/

/-- What happens to a consumer. -/
inductive Handling where
  | arrive (more : List Notification)
  | pop (max : Nat)
  | peek
deriving DecidableEq

def arrive (more : List Notification) (c : MessageConsumer) : MessageConsumer :=
  { c with buffer := { c.buffer with buffered := c.buffer.buffered ++ more } }

/-- A consumer and what its pops have returned so far. -/
def handle (s : MessageConsumer × List (List WorkItem)) :
    Handling → MessageConsumer × List (List WorkItem)
  | .arrive more => (s.1.arrive more, s.2)
  | .pop max => ((s.1.pop max).2, s.2 ++ [(s.1.pop max).1])
  | .peek => (s.1.peek.2, s.2)

def handleAll (c : MessageConsumer) (acts : List Handling) :
    MessageConsumer × List (List WorkItem) :=
  acts.foldl handle (c, [])

/-- The same pops so far, and consumers that only looks can tell apart. -/
def Alike (s t : MessageConsumer × List (List WorkItem)) : Prop :=
  s.1.peek.2 = t.1.peek.2 ∧ s.2 = t.2

theorem peek_arrive (more : List Notification) (c : MessageConsumer) :
    (c.peek.2.arrive more).peek.2 = (c.arrive more).peek.2 := by
  have happend := dropMalformed_append c.buffer.buffered more
  simp only [peek, arrive, happend, ChannelStats.malformed, Nat.add_assoc]

theorem peek_pop_zero (c : MessageConsumer) :
    (c.peek.2.pop 0).2.peek.2 = (c.pop 0).2.peek.2 := by
  simp only [peek, pop, Nat.zero_min, takeMessages, dropMalformed_dropMalformed,
    ChannelStats.malformed, ChannelStats.popCalled, ChannelStats.popReturned, Nat.add_zero,
    List.length_nil]

variable {s t : MessageConsumer × List (List WorkItem)}

theorem Alike.handle (h : Alike s t) (a : Handling) : Alike (handle s a) (handle t a) := by
  obtain ⟨hlook, hpopped⟩ := h
  cases a with
  | arrive more =>
    refine ⟨?_, hpopped⟩
    simp only [MessageConsumer.handle]
    rw [← peek_arrive, hlook, peek_arrive]
  | peek =>
    refine ⟨?_, hpopped⟩
    simp only [MessageConsumer.handle, hlook]
  | pop max =>
    cases max with
    | zero =>
      have hnone : ∀ d : MessageConsumer, (d.pop 0).1 = [] := fun d => by
        simp [pop, takeMessages]
      refine ⟨?_, ?_⟩
      · simp only [MessageConsumer.handle]
        rw [← peek_pop_zero, hlook, peek_pop_zero]
      · simp only [MessageConsumer.handle, hnone, hpopped]
    | succ max =>
      have hpop : s.1.pop (max + 1) = t.1.pop (max + 1) := by
        rw [← pop_peek, hlook, pop_peek]
      simp only [Alike, MessageConsumer.handle, hpop, hpopped, and_self]

/-- Looks left out of what happens make no difference to pops. -/
theorem alike_without_looks (h : Alike s t) (acts : List Handling) :
    Alike (acts.foldl MessageConsumer.handle s)
      ((acts.filter (· ≠ .peek)).foldl MessageConsumer.handle t) := by
  induction acts generalizing s t with
  | nil => exact h
  | cons a rest ih =>
    by_cases ha : a = .peek
    · subst ha
      refine ih (s := MessageConsumer.handle s .peek) ⟨?_, h.2⟩
      simp only [MessageConsumer.handle, peek_peek, h.1]
    · rw [List.filter_cons_of_pos (by simpa using ha)]
      exact ih (h.handle a)

/-- Whatever is buffered: a look comes to an end, and a pop that asks for at least one message
returns, leaves and counts the same after a look as without one. What a look sees is the first
message that the pop returns, nothing if it returns none. However often one looks, one sees the
same, and nothing changes after the first time. So in whatever happens to a consumer looks can be
left out, and all pops return what they returned with them. -/
theorem looking_changes_no_pop (c : MessageConsumer) (n : Nat) (h : 1 ≤ n) :
    (∀ seen c', Looks c seen c' ↔ c.peek = (seen, c')) ∧
    c.peek.2.pop n = c.pop n ∧
    (∀ x, c.peek.1 = some x ↔ ∃ rest, (c.pop n).1 = x :: rest) ∧
    (∀ k, ((fun c : MessageConsumer => c.peek.2)^[k] c).peek.1 = c.peek.1 ∧
      (fun c : MessageConsumer => c.peek.2)^[k + 1] c = c.peek.2) ∧
    ∀ acts, (c.handleAll acts).2 = (c.handleAll (acts.filter (· ≠ .peek))).2 ∧
      (c.handleAll acts).1.peek.2 = (c.handleAll (acts.filter (· ≠ .peek))).1.peek.2 := by
  obtain ⟨max, rfl⟩ : ∃ max, n = max + 1 := ⟨n - 1, by omega⟩
  refine ⟨fun _ _ => looks_iff, pop_peek max c, fun x => ?_,
    fun k => ⟨iterate_peek_fst k c, iterate_peek k c⟩, fun acts => ?_⟩
  · rw [peek_fst max, List.head?_eq_some_iff]
  · obtain ⟨hlook, hpopped⟩ := alike_without_looks (s := (c, [])) (t := (c, [])) ⟨rfl, rfl⟩ acts
    exact ⟨hpopped, hlook⟩

/-- A text that is no message, a message, and again a text that is none. -/
def muddled : MessageConsumer where
  channel := "ports"
  buffer :=
    { name := "ports"
      subscription := 1
      buffered := ["up", WorkItem.encode { key := "Eth0", operation := .del }, "down"].map
        fun payload => { channel := "ports", pattern := none, payload } }

theorem a_look_at_muddled_texts :
    1 ≤ 2 ∧ muddled.peek.1 = some { key := "Eth0", operation := .del } ∧
      muddled.peek.2.pop 2 = muddled.pop 2 := by
  obtain ⟨-, hpop, hfirst, -⟩ := looking_changes_no_pop muddled 2 (by decide)
  exact ⟨by decide, (hfirst _).mpr ⟨[], by decide +kernel⟩, hpop⟩

end MessageConsumer

end ControlBus
