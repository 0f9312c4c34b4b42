-- The channel of self-contained messages against the sequence of what was published on it. What a
-- consumer gets is what its inbox had room for, in order and each message once; what there was no
-- room for is counted, and so is what cannot be decoded.
import ControlBus.Proofs.Messages
import ControlBus.Proofs.Routing
import ControlBus.Proofs.WakeUps
import ControlBus.Store.Backend

namespace ControlBus

/-! ## Runs of a channel -/

/-- What producers, foreign publishers, other subscribers and the consumer of a channel do. -/
inductive MessageAct where
  | send (item : WorkItem)
  | set (key : String) (fields : FieldList)
  | del (key : String)
  /-- Somebody publishes a payload, on this channel or on another. -/
  | publish (channel payload : String)
  /-- Somebody else subscribes. -/
  | subscribe (channels patterns : List String)
  /-- The holder of another subscription reads, or lets go of it. -/
  | attend (id : Nat) (f : Subscription → Subscription) (h : ∀ s, (f s).id = s.id)
  /-- A consumer is made; one that is there is dropped before. -/
  | attach
  | drop
  /-- The consumer takes in what has arrived. -/
  | read
  | peek
  | pop (max : Nat)

/-- A channel at work: its store, its consumer if there is one, what was published on it since the
consumer subscribed, each with whether the inbox had room, and what all pops have returned. -/
structure MessageRun where
  store : MemoryStore
  consumer : Option MessageConsumer := none
  published : List (QueueEntry × Bool) := []
  returned : List WorkItem := []

namespace MessageRun

def start (c : StoreConfig) : MessageRun := { store := c.memoryStore }

/-- Whether the inbox of the consumer has room for another notification. -/
def hasRoom (r : MessageRun) : Bool :=
  match r.consumer with
  | some c => (r.store.board.inbox c.buffer.subscription).length < r.store.board.capacity
  | none => false

/-- Somebody publishes with an operation that may fail. -/
def post (op : StoreOp MemoryStore Nat) (entries : List QueueEntry) (r : MessageRun) : MessageRun :=
  match op.run r.store with
  | (.ok _, store) =>
    { r with store, published := r.published ++ entries.map fun e => (e, r.hasRoom) }
  | (.error _, store) => { r with store }

/-- Something happens to the subscriptions. -/
def onBoard (f : Switchboard → Switchboard) (r : MessageRun) : MessageRun :=
  { r with store := { r.store with board := f r.store.board } }

/-- The consumer is gone, and its subscription with it. -/
def drop (r : MessageRun) : MessageRun :=
  match r.consumer with
  | some c =>
    { r with store := SharedStore.abandon c.buffer.subscription r.store, consumer := none }
  | none => r

def attach (channel : String) (r : MessageRun) : MessageRun :=
  match (MessageConsumer.attach channel).run r.store with
  | (.ok c, store) => { store, consumer := some c }
  | (.error _, store) => { r with store }

def read (r : MessageRun) : MessageRun :=
  match r.consumer with
  | none => r
  | some c =>
    let (_, buffer, board) := c.buffer.poll r.store.board
    { r with store := { r.store with board }, consumer := some { c with buffer } }

def peek (r : MessageRun) : MessageRun := { r with consumer := r.consumer.map (·.peek.2) }

def pop (max : Nat) (r : MessageRun) : MessageRun :=
  match r.consumer with
  | none => r
  | some c =>
    let (items, c) := c.pop max
    { r with consumer := some c, returned := r.returned ++ items }

/-- Whether the consumer of the channel holds this subscription. -/
def holds (r : MessageRun) (id : Nat) : Bool := r.consumer.any (·.buffer.subscription = id)

def act (channel : String) (r : MessageRun) : MessageAct → MessageRun
  | .send item => r.post (Message.send channel item) [.item item]
  | .set key fields =>
    r.post (Message.set channel key fields) [.item { key, operation := .set, fields }]
  | .del key => r.post (Message.del channel key) [.item { key, operation := .del }]
  | .publish other payload =>
    r.post (SharedStore.publish other payload) (if other = channel then [.raw payload] else [])
  | .subscribe channels patterns => r.onBoard fun b => (b.subscribe channels patterns).2
  | .attend id f _ => if r.holds id then r else r.onBoard (·.adjust id f)
  | .attach => r.drop.attach channel
  | .drop => r.drop
  | .read => r.read
  | .peek => r.peek
  | .pop max => r.pop max

def run (channel : String) (r : MessageRun) (acts : List MessageAct) : MessageRun :=
  acts.foldl (act channel) r

/-- What was published and found room. -/
def accepted (r : MessageRun) : List QueueEntry := (r.published.filter (·.2)).map (·.1)

/-- How much of what was published was lost for want of room. -/
def lost (r : MessageRun) : Nat := r.published.countP (!·.2)

/-- What the consumer has taken in or could take in. -/
def unread (r : MessageRun) (c : MessageConsumer) : List Notification :=
  c.buffer.buffered ++ r.store.board.inbox c.buffer.subscription

/-! ### What stays true of it -/

/-- Of the entries that found room, `taken` are consumed, and `waiting` wait in the buffer of the
consumer and in its inbox. -/
structure Split (channel : String) (r : MessageRun) (c : MessageConsumer)
    (taken waiting : List QueueEntry) : Prop where
  accepted : r.accepted = taken ++ waiting
  returned : r.returned = works taken
  errors : c.stats.parseErrors = unreadable taken
  inbox : ∃ s, r.store.board.subscription? c.buffer.subscription = some s ∧ s.held = true ∧
    s.wish = ⟨[channel], []⟩ ∧ Brings (c.buffer.buffered ++ s.inbox) waiting ∧ s.dropped = r.lost

/-- The store keeps to its configuration, and what was published is accounted for. -/
structure Sound (config : StoreConfig) (channel : String) (r : MessageRun) : Prop where
  working : r.store.board.Working
  capacity : r.store.board.capacity = max config.notificationBufferSize 1
  limit : r.store.maxPayload = config.maxPayloadSize
  split : ∀ c, r.consumer = some c → ∃ taken waiting, r.Split channel c taken waiting

variable {config : StoreConfig} {channel : String} {r : MessageRun} {c : MessageConsumer}
  {taken waiting : List QueueEntry}

theorem sound_start (config : StoreConfig) (channel : String) :
    (start config).Sound config channel where
  working := Switchboard.working_ofBufferSize _
  capacity := rfl
  limit := rfl
  split _ hc := nomatch hc

theorem accepted_published (r : MessageRun) (e : QueueEntry) (room : Bool) (store : MemoryStore) :
    ({ r with store, published := r.published ++ [(e, room)] } : MessageRun).accepted =
      r.accepted ++ if room then [e] else [] := by
  cases room <;> simp [accepted]

theorem lost_published (r : MessageRun) (e : QueueEntry) (room : Bool) (store : MemoryStore) :
    ({ r with store, published := r.published ++ [(e, room)] } : MessageRun).lost =
      r.lost + (!room).toNat := by
  cases room <;> simp [lost]

/-- What is published waits if there is room for it, and counts as dropped otherwise. -/
theorem Split.published (h : r.Split channel c taken waiting) (hc : r.consumer = some c)
    (e : QueueEntry) {store : MemoryStore}
    (hboard : store.board = (r.store.board.publish channel e.text).2) :
    Split channel { r with store, published := r.published ++ [(e, r.hasRoom)] } c taken
      (waiting ++ if r.hasRoom then [e] else []) := by
  obtain ⟨s, hs, hheld, hwish, hbrings, hdropped⟩ := h.inbox
  have hroom : r.hasRoom = decide (s.inbox.length < r.store.board.capacity) := by
    simp only [hasRoom, hc, Switchboard.inbox_of_subscription hs]
  have hvia : s.wish.via channel = some none := by simp [hwish, Wish.via]
  obtain ⟨hinbox, hlost⟩ :=
    @Subscription.offer_of_held r.store.board.capacity channel e.text s hheld
  have hcard := congrArg Prod.snd
    (Subscription.offer_card r.store.board.capacity channel e.text s)
  have hs' : store.board.subscription? c.buffer.subscription =
      some (s.offer r.store.board.capacity channel e.text).2 := by
    rw [hboard]
    exact Switchboard.subscription_publish channel e.text hs hheld
  have hheld' : (s.offer r.store.board.capacity channel e.text).2.held = true :=
    (Subscription.offer_frame ..).2.2.trans hheld
  rw [hvia] at hinbox hlost
  refine ⟨?_, h.returned, h.errors, _, hs', hheld', hcard.trans hwish, ?_, ?_⟩
  · rw [accepted_published, h.accepted, List.append_assoc]
  · rw [hinbox, ← List.append_assoc]
    refine hbrings.append ?_
    rw [hroom]
    split <;> simp_all [Brings]
  · rw [lost_published, hlost, hdropped, hroom]
    simp

/-- What leaves the subscription of the consumer alone leaves everything as it was. -/
theorem Split.elsewhere (h : r.Split channel c taken waiting) {store : MemoryStore}
    (hsame : ∀ s, r.store.board.subscription? c.buffer.subscription = some s → s.held = true →
      s.wish = ⟨[channel], []⟩ →
      store.board.subscription? c.buffer.subscription = some s) :
    Split channel { r with store } c taken waiting := by
  obtain ⟨s, hs, hheld, hwish, hrest⟩ := h.inbox
  exact ⟨h.accepted, h.returned, h.errors, s, hsame s hs hheld hwish, hheld, hwish, hrest⟩

theorem Sound.elsewhere (h : r.Sound config channel) {store : MemoryStore}
    (hw : store.board.Working) (hcapacity : store.board.capacity = r.store.board.capacity)
    (hlimit : store.maxPayload = r.store.maxPayload)
    (hsame : ∀ c, r.consumer = some c → ∀ s,
      r.store.board.subscription? c.buffer.subscription = some s → s.held = true →
      s.wish = ⟨[channel], []⟩ →
      store.board.subscription? c.buffer.subscription = some s) :
    Sound config channel { r with store } := by
  refine ⟨hw, hcapacity.trans h.capacity, hlimit.trans h.limit, fun c hc => ?_⟩
  obtain ⟨taken, waiting, hsplit⟩ := h.split c hc
  exact ⟨taken, waiting, hsplit.elsewhere (hsame c hc)⟩

/-- An operation that does what publishing a text does, and fails if the text is too long. -/
def Publishes (op : StoreOp MemoryStore Nat) (channel text : String) (s : MemoryStore) : Prop :=
  op.run s =
    if s.maxPayload < text.utf8ByteSize then
      (.error (.payloadTooLarge text.utf8ByteSize s.maxPayload), s)
    else
      (.ok (s.board.publish channel text).1,
        { s with board := (s.board.publish channel text).2 })

/-- A text that is too long changes nothing; any other is published. -/
theorem post_cases {other text : String} {op : StoreOp MemoryStore Nat}
    (hop : Publishes op other text r.store) (entries : List QueueEntry) :
    r.post op entries = r ∨
      r.post op entries =
        { r with
          store := { r.store with board := (r.store.board.publish other text).2 }
          published := r.published ++ entries.map fun e => (e, r.hasRoom) } := by
  unfold MessageRun.post
  unfold Publishes at hop
  rw [hop]
  split
  · rename_i n store hrun
    split at hrun
    · cases hrun
    · cases hrun
      exact .inr rfl
  · rename_i e store hrun
    split at hrun
    · cases hrun
      exact .inl rfl
    · cases hrun

theorem Sound.post (h : r.Sound config channel) (e : QueueEntry) {op : StoreOp MemoryStore Nat}
    (hop : Publishes op channel e.text r.store) : (r.post op [e]).Sound config channel := by
  rcases post_cases hop [e] with heq | heq
  · rw [heq]
    exact h
  · rw [heq]
    refine ⟨h.working.publish channel e.text, h.capacity, h.limit, fun c hc => ?_⟩
    obtain ⟨taken, waiting, hsplit⟩ := h.split c hc
    exact ⟨taken, _, hsplit.published hc e rfl⟩

theorem Sound.send (h : r.Sound config channel) (item : WorkItem) :
    (r.post (Message.send channel item) [.item item]).Sound config channel := by
  have hop : Publishes (Message.send channel item) channel item.encode r.store :=
    Message.run_send channel item r.store
  exact h.post (.item item) hop

/-- What is published on another channel does not come to the consumer. -/
theorem Sound.postElsewhere (h : r.Sound config channel) {other payload : String}
    (hne : other ≠ channel) {op : StoreOp MemoryStore Nat}
    (hop : Publishes op other payload r.store) : (r.post op []).Sound config channel := by
  rcases post_cases hop [] with heq | heq
  · rw [heq]
    exact h
  · rw [heq, List.map_nil, List.append_nil]
    refine h.elsewhere (h.working.publish other payload) rfl rfl fun c _ s hs hheld hwish => ?_
    have hoffer : (s.offer r.store.board.capacity other payload).2 = s := by
      have hvia : s.wish.via other = none := by simp [hwish, Wish.via, hne]
      simp [Subscription.offer, Subscription.interest_eq, hvia]
    rw [Switchboard.subscription_publish other payload hs hheld, hoffer]

theorem Sound.subscribe (h : r.Sound config channel) (channels patterns : List String) :
    (r.onBoard fun b => (b.subscribe channels patterns).2).Sound config channel :=
  h.elsewhere (h.working.subscribe channels patterns) rfl rfl fun _ _ _ hs _ _ =>
    Switchboard.subscription_subscribe channels patterns hs

theorem Sound.attend (h : r.Sound config channel) {id : Nat} (hid : r.holds id = false)
    {f : Subscription → Subscription} (hf : ∀ s, (f s).id = s.id) :
    (r.onBoard (·.adjust id f)).Sound config channel := by
  refine h.elsewhere (h.working.adjust id hf) rfl rfl fun c hc s hs _ _ => ?_
  have hother : c.buffer.subscription ≠ id := by
    intro hsame
    simp [holds, hc, hsame] at hid
  refine (Switchboard.subscription_adjust f hf id c.buffer.subscription).trans ?_
  rw [hs, Option.map_some, if_neg hother]

theorem Sound.drop (h : r.Sound config channel) : r.drop.Sound config channel := by
  unfold MessageRun.drop
  split
  · exact ⟨h.working.adjust _ fun _ => rfl, h.capacity, h.limit, fun c hc => nomatch hc⟩
  · exact h

theorem Sound.attach (h : r.Sound config channel) : (r.attach channel).Sound config channel := by
  have hattach : r.attach channel =
      { store := { r.store with board := (r.store.board.subscribe [channel] []).2 }
        consumer := some
          { channel, buffer := { name := channel, subscription := r.store.board.nextId } } } := rfl
  rw [hattach]
  refine ⟨h.working.subscribe [channel] [], h.capacity, h.limit, fun c hc => ?_⟩
  cases hc
  refine ⟨[], [], rfl, rfl, rfl, _, Switchboard.subscription_new h.working [channel] [], rfl, rfl,
    rfl, rfl⟩

/-- To take in what has arrived moves it from the inbox to the buffer. -/
theorem Sound.read (h : r.Sound config channel) : r.read.Sound config channel := by
  unfold MessageRun.read
  split
  · exact h
  · rename_i c hc
    obtain ⟨-, hgot, hboard⟩ := drainSubscription_live c.buffer.name c.buffer.subscription
      h.working.live
    obtain ⟨taken, waiting, hsplit⟩ := h.split c hc
    obtain ⟨s, hs, hheld, hwish, hbrings, hdropped⟩ := hsplit.inbox
    simp only [NotificationBuffer.poll, hgot, hboard]
    refine ⟨h.working.read _ _, h.capacity, h.limit, fun c' hc' => ?_⟩
    cases hc'
    refine ⟨taken, waiting, hsplit.accepted, hsplit.returned, hsplit.errors,
      { s with inbox := s.inbox.drop r.store.board.capacity }, ?_, hheld, hwish, ?_, hdropped⟩
    · change (r.store.board.read _ _).2.subscription? c.buffer.subscription = _
      rw [Switchboard.subscription_read, hs, Option.map_some, if_pos rfl]
    · rw [Switchboard.inbox_of_subscription hs, List.append_assoc, List.take_append_drop]
      exact hbrings

/-- To take entries off the front of the buffer, some as items and the others counted. -/
theorem Split.take (h : r.Split channel c taken waiting) {items : List WorkItem} {malformed : Nat}
    {left : List Notification} {c' : MessageConsumer}
    (htaken : ∀ first, Brings c.buffer.buffered first → TakenFrom first items malformed left)
    (hbuffer : c'.buffer = { c.buffer with buffered := left })
    (herrors : c'.stats.parseErrors = c.stats.parseErrors + malformed) :
    ∃ taken' waiting', Split channel
      { r with consumer := some c', returned := r.returned ++ items } c' taken' waiting' := by
  obtain ⟨s, hs, hheld, hwish, hbrings, hdropped⟩ := h.inbox
  obtain ⟨first, later, rfl, hfirst, hlater⟩ := hbrings.append_inv
  obtain ⟨now, rest, rfl, hitems, hmalformed, hleft⟩ := htaken first hfirst
  refine ⟨taken ++ now, rest ++ later, ?_, ?_, ?_, s, ?_, hheld, hwish, ?_, hdropped⟩
  · refine h.accepted.trans ?_
    simp only [List.append_assoc]
  · rw [works_append, ← h.returned, hitems]
  · rw [unreadable_append, herrors, h.errors, hmalformed]
  · rw [hbuffer]
    exact hs
  · rw [hbuffer]
    exact hleft.append hlater

theorem Sound.peek (h : r.Sound config channel) : r.peek.Sound config channel := by
  refine ⟨h.working, h.capacity, h.limit, fun c' hc' => ?_⟩
  obtain ⟨c, hc, rfl⟩ := Option.map_eq_some_iff.mp hc'
  obtain ⟨taken, waiting, hsplit⟩ := h.split c hc
  have htake : ∃ taken' waiting', Split channel
      { r with consumer := some c.peek.2, returned := r.returned ++ [] } c.peek.2 taken' waiting' :=
    hsplit.take (fun _ => dropMalformed_spec) rfl rfl
  obtain ⟨taken', waiting', hsplit'⟩ := htake
  rw [List.append_nil] at hsplit'
  exact ⟨taken', waiting', hsplit'.accepted, hsplit'.returned, hsplit'.errors, hsplit'.inbox⟩

theorem Sound.pop (h : r.Sound config channel) (max : Nat) : (r.pop max).Sound config channel := by
  unfold MessageRun.pop
  split
  · exact h
  · rename_i c hc
    refine ⟨h.working, h.capacity, h.limit, fun c' hc' => ?_⟩
    cases hc'
    obtain ⟨taken, waiting, hsplit⟩ := h.split c hc
    exact hsplit.take (fun _ => takeMessages_spec _) rfl rfl

theorem Sound.act (h : r.Sound config channel) (a : MessageAct) :
    (r.act channel a).Sound config channel := by
  cases a with
  | send item => exact h.send item
  | set key fields => exact h.send { key, operation := .set, fields }
  | del key => exact h.send { key, operation := .del }
  | publish other payload =>
    have hop : Publishes (SharedStore.publish other payload) other payload r.store :=
      MemoryStore.run_publish other payload r.store
    simp only [MessageRun.act]
    by_cases hsame : other = channel
    · subst hsame
      rw [if_pos rfl]
      exact h.post (.raw payload) hop
    · rw [if_neg hsame]
      exact h.postElsewhere hsame hop
  | subscribe channels patterns => exact h.subscribe channels patterns
  | attend id f hf =>
    simp only [MessageRun.act]
    split
    · exact h
    · rename_i hid
      exact h.attend (by simpa using hid) hf
  | attach => exact h.drop.attach
  | drop => exact h.drop
  | read => exact h.read
  | peek => exact h.peek
  | pop max => exact h.pop max

theorem Sound.run (h : r.Sound config channel) (acts : List MessageAct) :
    (r.run channel acts).Sound config channel := by
  induction acts generalizing r with
  | nil => exact h
  | cons a rest ih => exact ih (h.act a)

theorem length_published (r : MessageRun) : r.published.length = r.accepted.length + r.lost := by
  have hsplit := r.published.length_eq_countP_add_countP fun p => p.2
  simp only [MessageRun.accepted, lost, List.length_map, ← List.countP_eq_length_filter]
  simpa using hsplit

/-- Whatever is published on a channel, sent by producers or not, and however often the consumer
reads and pops: of what found room in the inbox since the consumer subscribed, a first part has been
taken, its messages returned by pops and the rest of it counted as errors, and the other part waits
in buffer and inbox. So the messages returned and the messages waiting are just those that found
room, in order and each once, and everything else that was published is counted as dropped. What
producers send reads as it was sent, unless it is too long: then it is refused and goes to nobody.
A pop returns the first messages of the buffer, as many as asked for. -/
theorem messages_arrive_as_sent (config : StoreConfig) (channel : String)
    (acts : List MessageAct) :
    let r := (start config).run channel acts
    (∀ c, r.consumer = some c →
      (∃ taken waiting, r.accepted = taken ++ waiting ∧ r.returned = works taken ∧
        c.stats.parseErrors = unreadable taken ∧
        (r.unread c).map (·.payload) = waiting.map QueueEntry.text) ∧
      r.returned ++ messages (r.unread c) = works r.accepted ∧
      r.published.length = r.accepted.length + r.store.board.dropped c.buffer.subscription ∧
      ∀ max, (c.pop max).1 = (messages c.buffer.buffered).take max ∧ (c.pop max).1.length ≤ max) ∧
    r.store.board.capacity = max config.notificationBufferSize 1 ∧
    (∀ item : WorkItem,
      WorkItem.decode item.encode = some item ∧
      (Message.send channel item).run r.store =
        if config.maxPayloadSize < item.encode.utf8ByteSize then
          (.error (.payloadTooLarge item.encode.utf8ByteSize config.maxPayloadSize), r.store)
        else
          (.ok (r.store.board.publish channel item.encode).1,
            { r.store with board := (r.store.board.publish channel item.encode).2 })) := by
  intro r
  have h : r.Sound config channel := (sound_start config channel).run acts
  refine ⟨fun c hc => ?_, h.capacity, fun item => ⟨item.decode_encode, ?_⟩⟩
  · obtain ⟨taken, waiting, hsplit⟩ := h.split c hc
    obtain ⟨s, hs, -, -, hbrings, hdropped⟩ := hsplit.inbox
    have hunread : r.unread c = c.buffer.buffered ++ s.inbox := by
      rw [unread, Switchboard.inbox_of_subscription hs]
    rw [hunread]
    refine ⟨⟨taken, waiting, hsplit.accepted, hsplit.returned, hsplit.errors, hbrings⟩, ?_, ?_,
      fun max => ⟨c.pop_fst max, ?_⟩⟩
    · rw [hbrings.messages_eq, hsplit.returned, hsplit.accepted, works_append]
    · rw [Switchboard.dropped_of_subscription hs, hdropped]
      exact r.length_published
    · rw [c.pop_fst max]
      exact List.length_take_le ..
  · rw [← h.limit]
    exact Message.run_send channel item r.store

/-- An inbox for two: a message and a text that is none find room, the next message does not. -/
def crowded : MessageRun :=
  (start { notificationBufferSize := 2 }).run "ports"
    [.attach, .del "Eth0", .publish "ports" "up", .del "Eth1", .read, .pop 5]

theorem one_of_three_arrives :
    ∃ c, crowded.consumer = some c ∧
      crowded.returned ++ messages (crowded.unread c) = [{ key := "Eth0", operation := .del }] ∧
      crowded.store.board.dropped c.buffer.subscription = 1 := by
  obtain ⟨hall, -, -⟩ := messages_arrive_as_sent { notificationBufferSize := 2 } "ports"
    [.attach, .del "Eth0", .publish "ports" "up", .del "Eth1", .read, .pop 5]
  rw [← crowded] at hall
  cases hc : crowded.consumer with
  | none =>
    have hthere : crowded.consumer.isSome = true := by decide +kernel
    rw [hc] at hthere
    cases hthere
  | some c =>
    obtain ⟨-, hmessages, hcount, -⟩ := hall c hc
    have haccepted : works crowded.accepted = [{ key := "Eth0", operation := .del }] := by
      decide +kernel
    have hlengths : crowded.published.length = 3 ∧ crowded.accepted.length = 2 := by
      decide +kernel
    refine ⟨c, rfl, hmessages.trans haccepted, ?_⟩
    rw [hlengths.1, hlengths.2] at hcount
    omega

end MessageRun

end ControlBus
