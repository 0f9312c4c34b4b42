-- What reaches a follower of a table. It is told of every change of a record whose key is one line,
-- as far as its inbox has room, and is told the key as it is; the rest is counted. The pattern by
-- which it listens takes no line break, so of records whose keys have one it hears nothing.
import ControlBus.Proofs.Listings
import ControlBus.Proofs.Rereads
import ControlBus.Proofs.Routing

namespace ControlBus

/-! ## Announcements to one subscription -/

namespace Switchboard

variable {b : Switchboard} {id : Nat} {pattern : String}

/-- Of some announcements those that a pattern takes. -/
def taken (pattern : String) (said : List Announcement) : List Announcement :=
  said.filter fun a => Text.Glob.accepts pattern a.channel

theorem Watches.publish (h : b.Watches id pattern) (channel payload : String) :
    (b.publish channel payload).2.Watches id pattern := (h.hears ⟨channel, payload⟩).watches

/-- The room in an inbox. -/
def room (b : Switchboard) (id : Nat) : Nat := b.capacity - (b.inbox id).length

/-- From one switchboard to the next a subscription has taken some announcements and lost others. -/
structure Gets (id : Nat) (kept lost : List Announcement) (b b' : Switchboard) : Prop where
  inbox : ∃ more, b'.inbox id = b.inbox id ++ more ∧ more.map Notification.announcement = kept
  dropped : b'.dropped id = b.dropped id + lost.length
  capacity : b'.capacity = b.capacity

theorem Gets.trans {kept lost kept' lost' : List Announcement} {b b' b'' : Switchboard}
    (h : Gets id kept lost b b') (h' : Gets id kept' lost' b' b'') :
    Gets id (kept ++ kept') (lost ++ lost') b b'' := by
  obtain ⟨more, hmore, hkept⟩ := h.inbox
  obtain ⟨more', hmore', hkept'⟩ := h'.inbox
  refine ⟨⟨more ++ more', ?_, ?_⟩, ?_, h'.capacity.trans h.capacity⟩
  · rw [hmore', hmore, List.append_assoc]
  · rw [List.map_append, hkept, hkept']
  · rw [h'.dropped, h.dropped, List.length_append, Nat.add_assoc]

theorem Gets.room {kept lost : List Announcement} {b' : Switchboard}
    (h : Gets id kept lost b b') : b'.room id = b.room id - kept.length := by
  obtain ⟨more, hmore, hkept⟩ := h.inbox
  rw [Switchboard.room, Switchboard.room, h.capacity, hmore, ← hkept, List.length_append,
    List.length_map, Nat.sub_add_eq]

/-- What is wanted is kept if there is room. -/
theorem Watches.gets (h : b.Watches id pattern) (a : Announcement) :
    Gets id ((taken pattern [a]).take (b.room id)) ((taken pattern [a]).drop (b.room id)) b
      (b.publish a.channel a.payload).2 := by
  obtain ⟨s, hs, hheld, hchannels, hpatterns⟩ := h
  have hs' := subscription_publish a.channel a.payload hs hheld
  have hroom : b.room id = b.capacity - s.inbox.length := by
    rw [room, inbox_of_subscription hs]
  obtain ⟨hinbox, hdropped⟩ : (s.offer b.capacity a.channel a.payload).2.inbox = _ ∧
      (s.offer b.capacity a.channel a.payload).2.dropped = _ := Subscription.offer_of_held hheld
  have hvia : s.wish.via a.channel =
      if Text.Glob.accepts pattern a.channel then some (some pattern) else none := by
    simp only [Subscription.wish, Wish.via, hchannels, hpatterns, List.not_mem_nil, if_false]
    cases hwanted : Text.Glob.accepts pattern a.channel <;> simp [hwanted]
  rw [hvia, ← inbox_of_subscription hs'] at hinbox
  rw [hvia, ← dropped_of_subscription hs, ← dropped_of_subscription hs'] at hdropped
  have hbefore := inbox_of_subscription hs
  by_cases hwanted : Text.Glob.accepts pattern a.channel = true
  · have htaken : taken pattern [a] = [a] := by simp [taken, hwanted]
    by_cases hfree : s.inbox.length < b.capacity
    · have hsome : [a].length ≤ b.room id := by
        rw [hroom, List.length_singleton]
        omega
      rw [htaken, List.take_of_length_le hsome, List.drop_of_length_le hsome]
      refine ⟨⟨[⟨a.channel, some pattern, a.payload⟩], ?_, rfl⟩, ?_, rfl⟩
      · simpa [hwanted, hfree, hbefore] using hinbox
      · simpa [hwanted, hfree] using hdropped
    · have hnone : b.room id = 0 := by omega
      rw [htaken, hnone, List.take_zero, List.drop_zero]
      refine ⟨⟨[], ?_, rfl⟩, ?_, rfl⟩
      · simpa [hwanted, hfree, hbefore] using hinbox
      · simpa [hwanted, hfree] using hdropped
  · have htaken : taken pattern [a] = [] := by simp [taken, hwanted]
    rw [htaken, List.take_nil, List.drop_nil]
    refine ⟨⟨[], ?_, rfl⟩, ?_, rfl⟩
    · simpa [hwanted, hbefore] using hinbox
    · simpa [hwanted] using hdropped

theorem Watches.getsAll (h : b.Watches id pattern) (said : List Announcement) :
    Gets id ((taken pattern said).take (b.room id)) ((taken pattern said).drop (b.room id)) b
      (b.publishAll (said.map fun a => (a.channel, a.payload))) := by
  induction said generalizing b with
  | nil =>
    rw [taken, List.filter_nil, List.take_nil, List.drop_nil]
    exact ⟨⟨[], (List.append_nil _).symm, rfl⟩, rfl, rfl⟩
  | cons a rest ih =>
    have hone := h.gets a
    have hboth := hone.trans (ih (h.publish a.channel a.payload))
    have hsplit : taken pattern (a :: rest) = taken pattern [a] ++ taken pattern rest := by
      rw [taken, ← List.singleton_append, List.filter_append]
      rfl
    have hleft : (b.publish a.channel a.payload).2.room id =
        b.room id - (taken pattern [a]).length := by
      rw [hone.room, List.length_take]
      omega
    rw [hsplit, List.take_append, List.drop_append, ← hleft]
    exact hboth

/-- What is done about other subscriptions brings nothing. -/
theorem Watches.of_same {b' : Switchboard} (h : b.Watches id pattern)
    (hsame : b'.subscription? id = b.subscription? id) (hcapacity : b'.capacity = b.capacity) :
    b'.Watches id pattern ∧ Gets id [] [] b b' := by
  obtain ⟨s, hs, hrest⟩ := h
  refine ⟨⟨s, hsame.trans hs, hrest⟩, ⟨[], ?_, rfl⟩, ?_, hcapacity⟩
  · rw [inbox, hsame, List.append_nil, inbox]
  · rw [dropped, hsame, dropped]
    rfl

theorem Watches.publishAll (h : b.Watches id pattern) (said : List Announcement) :
    (b.publishAll (said.map fun a => (a.channel, a.payload))).Watches id pattern :=
  (h.hearsAll said).watches

end Switchboard

/-! ## Acts of others -/

/-- What an act announces. -/
def StoreAct.announced : StoreAct → MemoryStore → List Announcement
  | .use u, m => u.announced m
  | .injectFailures _, _ => []
  | .read _ _, _ => []
  | .abandon _, _ => []

/-- Whether an act takes the place of whoever holds a subscription. -/
def StoreAct.handles (id : Nat) : StoreAct → Bool
  | .read _ i => i = id
  | .abandon i => i = id
  | .use _ => false
  | .injectFailures _ => false

namespace MemoryStore

variable {m : MemoryStore} {id : Nat} {pattern : String}

/-- Whoever watches gets of what others announce the first that have room, and loses the rest. -/
theorem gets_act (h : m.Settled) (hw : m.board.Watches id pattern) {a : StoreAct}
    (hother : a.handles id = false) :
    (m.act a).board.Watches id pattern ∧
      Switchboard.Gets id ((Switchboard.taken pattern (a.announced m)).take (m.board.room id))
        ((Switchboard.taken pattern (a.announced m)).drop (m.board.room id)) m.board
        (m.act a).board := by
  have hnothing : a.announced m = [] → ∀ b' : Switchboard,
      b'.subscription? id = m.board.subscription? id → b'.capacity = m.board.capacity →
      b'.Watches id pattern ∧
        Switchboard.Gets id ((Switchboard.taken pattern (a.announced m)).take (m.board.room id))
          ((Switchboard.taken pattern (a.announced m)).drop (m.board.room id)) m.board b' := by
    intro hsilent b' hsame hcapacity
    rw [hsilent, Switchboard.taken, List.filter_nil, List.take_nil, List.drop_nil]
    exact hw.of_same hsame hcapacity
  cases a with
  | use u =>
    rcases u.run_cases h.quiet with
      ⟨k, hrun, hk⟩ | ⟨n, hrun, hsilent⟩ | ⟨channels, patterns, hrun, hsilent⟩
    · have hboard : (m.act (.use u)).board =
          m.board.publishAll ((u.announced m).map fun a => (a.channel, a.payload)) := by
        rw [act, hrun, ← hk.announced]
        rfl
      rw [hboard]
      exact ⟨hw.publishAll _, hw.getsAll _⟩
    · rw [act, hrun]
      exact hnothing hsilent _ rfl rfl
    · rw [act, hrun]
      obtain ⟨s, hs, -⟩ := hw
      exact hnothing hsilent _
        ((Switchboard.subscription_subscribe channels patterns hs).trans hs.symm) rfl
  | injectFailures n => exact hnothing rfl _ rfl rfl
  | read n i =>
    have hne : ¬ id = i := by
      simpa [StoreAct.handles, eq_comm] using hother
    refine hnothing rfl _ ?_ rfl
    refine (Switchboard.subscription_read n i id).trans ?_
    simp [hne]
  | abandon i =>
    have hne : ¬ id = i := by
      simpa [StoreAct.handles, eq_comm] using hother
    refine hnothing rfl _ ?_ rfl
    refine (Switchboard.subscription_adjust ({ · with held := false }) (fun _ => rfl) i id).trans ?_
    simp [hne]

end MemoryStore

/-! ## Reading in memory -/

namespace ChangeConsumer

theorem collect_memory (t : TableName) (room : Nat) (notes : List Notification)
    (m : MemoryStore) :
    (collect t room notes m).1.2.2.2 = none ∧ (collect t room notes m).2 = m := by
  induction notes generalizing room with
  | nil =>
    rw [collect]
    exact ⟨rfl, rfl⟩
  | cons n rest ih =>
    cases room with
    | zero => simp [collect]
    | succ room =>
      have hresolve : ∃ found, (resolve t n).run m = (.ok found, m) := by
        unfold resolve
        cases afterStem? t.keyspaceStem n.channel with
        | none => exact ⟨none, rfl⟩
        | some key =>
          dsimp only
          split
          · exact ⟨_, rfl⟩
          · exact ⟨_, rfl⟩
      obtain ⟨found, hresolve⟩ := hresolve
      rw [collect, hresolve]
      cases found with
      | none => exact ih (room + 1)
      | some item => exact ih room

/-- In memory no pop fails. -/
theorem pop_memory (c : ChangeConsumer) (max : Nat) (m : MemoryStore) :
    ∃ consumed items c', c.pop max m = (.ok items, c', m) ∧
      c'.buffer.subscription = c.buffer.subscription ∧ HandedOut max consumed items c c' := by
  obtain ⟨consumed, hspec⟩ := pop_spec c max m
  have hpop : ∃ items c', c.pop max m = (.ok items, c', m) ∧
      c'.buffer.subscription = c.buffer.subscription := by
    obtain ⟨hnone, hsame⟩ := collect_memory c.table (max - (c.ahead.take max).length)
      c.buffer.buffered m
    rcases hcollect : collect c.table (max - (c.ahead.take max).length) c.buffer.buffered m with
      ⟨⟨items, foreign, left, failure⟩, m'⟩
    rw [hcollect] at hnone hsame
    dsimp only at hnone hsame
    subst hnone hsame
    simp only [pop, hcollect]
    exact ⟨_, _, rfl, rfl⟩
  obtain ⟨items, c', hpop, hsubscription⟩ := hpop
  rw [hpop] at hspec
  exact ⟨consumed, items, c', hpop, hsubscription, hspec⟩

end ChangeConsumer

/-! ## Runs -/

/-- What happens once a consumer of changes is attached. -/
inductive FollowAct where
  /-- Others do something with the store. -/
  | others (a : StoreAct)
  /-- The consumer takes in what has arrived. -/
  | read
  | pop (max : Nat)

/-- A consumer of changes with its store, and what was announced since it was attached. -/
structure FollowRun where
  reader : RereadRun MemoryStore
  announced : List Announcement := []

namespace FollowRun

/-- The subscription of the consumer. -/
def id (f : FollowRun) : Nat := f.reader.consumer.buffer.subscription

/-- One act. Nobody else gets at the consumer's subscription. -/
def act (f : FollowRun) : FollowAct → FollowRun
  | .others a =>
    if a.handles f.id then f
    else
      { reader := f.reader.act (.elsewhere (·.act a))
        announced := f.announced ++ a.announced f.reader.store }
  | .read => { f with reader := f.reader.act .read }
  | .pop max => { f with reader := f.reader.act (.pop max) }

def run (acts : List FollowAct) (f : FollowRun) : FollowRun := acts.foldl act f

/-- What the consumer's subscription has been given. -/
def given (f : FollowRun) : List Notification :=
  f.reader.received ++ f.reader.store.board.inbox f.id

/-- Of all that was announced the consumer has been given some, in order and each once, and the
others that its pattern takes are counted. -/
structure Attended (t : TableName) (f : FollowRun) : Prop where
  settled : f.reader.store.Settled
  announcing : f.reader.store.contents.announcing = true
  watches : f.reader.store.board.Watches f.id t.keyspacePattern
  given : (f.given.map Notification.announcement).Sublist
    (Switchboard.taken t.keyspacePattern f.announced)
  counted : f.given.length + f.reader.store.board.dropped f.id =
    (Switchboard.taken t.keyspacePattern f.announced).length

variable {t : TableName} {f : FollowRun}

theorem Attended.others (h : f.Attended t) (a : StoreAct) : (f.act (.others a)).Attended t := by
  rw [act]
  split
  · exact h
  · rename_i hother
    have hgets := MemoryStore.gets_act h.settled h.watches (by simpa using hother)
    obtain ⟨hwatches, ⟨more, hmore, hkept⟩, hdropped, -⟩ := hgets
    have hnow := List.take_append_drop (f.reader.store.board.room f.id)
      (Switchboard.taken t.keyspacePattern (a.announced f.reader.store))
    have hgiven : (FollowRun.given
        { reader := f.reader.act (.elsewhere (·.act a))
          announced := f.announced ++ a.announced f.reader.store }) = f.given ++ more := by
      rw [FollowRun.given, FollowRun.given, List.append_assoc]
      exact congrArg (f.reader.received ++ ·) hmore
    have htaken : Switchboard.taken t.keyspacePattern
        (f.announced ++ a.announced f.reader.store) =
        Switchboard.taken t.keyspacePattern f.announced ++
          Switchboard.taken t.keyspacePattern (a.announced f.reader.store) := List.filter_append ..
    refine ⟨h.settled.act a, h.settled.announcing_act h.announcing a, hwatches, ?_, ?_⟩
    · rw [hgiven, htaken, List.map_append, hkept]
      exact h.given.append (List.take_sublist ..)
    · have hall := congrArg List.length hnow
      rw [List.length_append, ← hkept, List.length_map] at hall
      have hcounted := h.counted
      have hdropped' : (f.reader.act (.elsewhere (·.act a))).store.board.dropped f.id =
          f.reader.store.board.dropped f.id + _ := hdropped
      rw [hgiven, htaken, List.length_append, List.length_append, ← hall, ← hcounted]
      change _ + (f.reader.act (.elsewhere (·.act a))).store.board.dropped f.id = _
      rw [hdropped']
      omega

theorem Attended.read (h : f.Attended t) : (f.act .read).Attended t := by
  obtain ⟨hwatches, hdropped⟩ := h.watches.read f.reader.store.board.capacity
  have hdrain : (drainSubscription f.reader.consumer.buffer.name f.id f.reader.store.board).2 =
      ((f.reader.store.board.inbox f.id).take f.reader.store.board.capacity,
        (f.reader.store.board.read f.reader.store.board.capacity f.id).2) := by
    rw [drainSubscription, Switchboard.exhausted, h.settled.working.live]
    rfl
  have hstore : (f.act .read).reader.store =
      f.reader.store.act (.read f.reader.store.board.capacity f.id) := by
    change SharedStore.withBoard f.reader.store
      (drainSubscription f.reader.consumer.buffer.name f.id f.reader.store.board).2.2 = _
    rw [hdrain]
    rfl
  have hgiven : (f.act .read).given = f.given := by
    have hinbox := Switchboard.inbox_read (b := f.reader.store.board)
      f.reader.store.board.capacity f.id f.id
    rw [if_pos rfl] at hinbox
    have hreceived : (f.act .read).reader.received = f.reader.received ++
        (f.reader.store.board.inbox f.id).take f.reader.store.board.capacity := by
      change f.reader.received ++
        (drainSubscription f.reader.consumer.buffer.name f.id f.reader.store.board).2.1 = _
      rw [hdrain]
    have hid : (f.act .read).id = f.id := rfl
    rw [FollowRun.given, hreceived, hid, hstore, List.append_assoc]
    exact congrArg (f.reader.received ++ ·)
      ((congrArg (_ ++ ·) hinbox).trans (List.take_append_drop ..))
  refine ⟨?_, ?_, ?_, ?_, ?_⟩
  · rw [hstore]
    exact h.settled.act _
  · rw [hstore]
    exact h.announcing
  · rw [hstore]
    exact hwatches
  · rw [hgiven]
    exact h.given
  · rw [hgiven, hstore]
    exact (congrArg (f.given.length + ·) hdropped).trans h.counted

theorem Attended.pop (h : f.Attended t) (max : Nat) : (f.act (.pop max)).Attended t := by
  obtain ⟨consumed, items, c', hpop, hsubscription, -⟩ :=
    f.reader.consumer.pop_memory max f.reader.store
  have hact : f.act (.pop max) = { f with reader :=
      { f.reader with consumer := c', popped := f.reader.popped ++ items } } := by
    simp only [act, RereadRun.act, hpop]
  have hid : (f.act (.pop max)).id = f.id := by
    rw [hact]
    exact hsubscription
  have hgiven : (f.act (.pop max)).given = f.given := by
    rw [FollowRun.given, hid, hact, FollowRun.given]
  refine ⟨?_, ?_, ?_, ?_, ?_⟩
  · rw [hact]
    exact h.settled
  · rw [hact]
    exact h.announcing
  · rw [hid, hact]
    exact h.watches
  · rw [hgiven, hact]
    exact h.given
  · rw [hgiven, hid, hact]
    exact h.counted

theorem Attended.run (h : f.Attended t) (acts : List FollowAct) : (f.run acts).Attended t := by
  induction acts generalizing f with
  | nil => exact h
  | cons a rest ih =>
    apply ih
    cases a with
    | others a => exact h.others a
    | read => exact h.read
    | pop max => exact h.pop max

theorem complete_run {dumped : List (String × Operation)} (h : f.reader.Complete t dumped)
    (acts : List FollowAct) : (f.run acts).reader.Complete t dumped := by
  induction acts generalizing f with
  | nil => exact h
  | cons a rest ih =>
    apply ih
    cases a with
    | others a =>
      rw [act]
      split
      · exact h
      · exact h.run [.elsewhere (·.act a)]
    | read => exact h.read
    | pop max => exact h.pop max

theorem attended_start {m : MemoryStore} (h : m.Settled) (ha : m.contents.announcing = true)
    (t : TableName) (c : ChangeConsumer) (hc : c.buffer.subscription = m.board.nextId) :
    Attended t { reader :=
      { store := { m with board := (m.board.subscribe [] [t.keyspacePattern]).2 }
        consumer := c } } := by
  have hnew := Switchboard.subscription_new h.working [] [t.keyspacePattern]
  rw [← hc] at hnew
  have hinbox := Switchboard.inbox_of_subscription hnew
  have hdropped := Switchboard.dropped_of_subscription hnew
  refine ⟨?_, ha, ⟨_, hnew, rfl, rfl, rfl⟩, ?_, ?_⟩
  · exact ⟨h.tidy, h.quiet, h.working.subscribe [] [t.keyspacePattern]⟩
  · rw [FollowRun.given, id, hinbox]
    exact List.Sublist.refl []
  · rw [FollowRun.given, id, hinbox, hdropped]
    rfl

/-- On every store in memory that announces changes, a consumer of changes can be attached to every
table, whatever was done before. Whatever others then do: no record changes without a word on the
channel of its key, and of what is announced on channels that the consumer's pattern takes, the
inbox gets the first as far as there is room, and the others are counted. What it was given it hands
out in order, each once, no pop fails, and a notification on the channel of a key is told by that
very key. The pattern takes the channels of just the keys that are one line. -/
theorem followers_hear_of_keys_of_one_line (config : StoreConfig) (draws : List Nat)
    (before : List StoreAct) (t : TableName) :
    let m := ({ config with keyspaceNotifications := true }.drawingStore draws).after before
    (∀ key, Text.Glob.accepts t.keyspacePattern (t.changeChannel key) = true ↔
      '\n' ∉ key.toList) ∧
    (∀ key n, n.channel = t.changeChannel key →
      ChangeConsumer.told t n = some (key, if isRemoval n.payload then .del else .set)) ∧
    ∃ c s, (ChangeConsumer.attach t).run m = (.ok c, s) ∧ ∀ acts : List FollowAct,
      let f := FollowRun.run acts { reader := { store := s, consumer := c } }
      let now := f.reader.store
      f.Attended t ∧ f.reader.Complete t (c.ahead.map WorkItem.change) ∧
      (∀ max, ∃ consumed items c', f.reader.consumer.pop max now = (.ok items, c', now) ∧
        ChangeConsumer.HandedOut max consumed items f.reader.consumer c') ∧
      ∀ use : StoreUse,
        (∀ key, (use.run now).contents.record (t.recordKey key) ≠
            now.contents.record (t.recordKey key) →
          ∃ tag : ChangeTag, ⟨t.changeChannel key, tag.word⟩ ∈ use.announced now) ∧
        Switchboard.Gets f.id
          ((Switchboard.taken t.keyspacePattern (use.announced now)).take (now.board.room f.id))
          ((Switchboard.taken t.keyspacePattern (use.announced now)).drop (now.board.room f.id))
          now.board (use.run now).board := by
  intro m
  have hstart := MemoryStore.Settled.start { config with keyspaceNotifications := true } draws
  have hsettled : m.Settled := hstart.after before
  have hannouncing : m.contents.announcing = true := hstart.announcing_after rfl before
  refine ⟨fun key => TableName.covers_iff, ?_, _, _, ChangeConsumer.run_attach_memory t m, ?_⟩
  · intro key n hn
    rw [ChangeConsumer.told, hn, TableName.changeChannel_eq, afterStem?_append]
    rfl
  intro acts f now
  have hattended : f.Attended t := (attended_start hsettled hannouncing t _ rfl).run acts
  refine ⟨hattended, ?_, ?_, ?_⟩
  · exact complete_run (RereadRun.complete_start (ChangeConsumer.run_attach_memory t m)) acts
  · intro max
    obtain ⟨consumed, items, c', hpop, -, hout⟩ := f.reader.consumer.pop_memory max now
    exact ⟨consumed, items, c', hpop, hout⟩
  · intro use
    refine ⟨fun key hdiff => ?_, ?_⟩
    · exact use.announced_of_change hattended.settled.quiet hattended.announcing hdiff
    · exact (MemoryStore.gets_act (a := .use use) hattended.settled hattended.watches rfl).2

/-- The record of a key with a line break is written, and announced, while a consumer of changes is
attached: it is told nothing, and nothing is counted as lost. -/
theorem followers_do_not_hear_of_a_line_break :
    let t : TableName := { name := "T" }
    let use := StoreUse.command (.mergeFields "T:a\nb" [("f", "1")])
    ∃ c s, (ChangeConsumer.attach t).run (({} : StoreConfig).drawingStore []) = (.ok c, s) ∧
      use.announced s = [⟨t.changeChannel "a\nb", "hset"⟩] ∧
      let f := FollowRun.run [.others (.use use), .read, .pop 9]
        { reader := { store := s, consumer := c } }
      ((TableReader.get t "a\nb").run f.reader.store).1 = .ok (some [("f", "1")]) ∧
        f.given = [] ∧ f.reader.popped = [] ∧ f.reader.store.board.dropped f.id = 0 := by
  refine ⟨_, _, ChangeConsumer.run_attach_memory _ _, by decide +kernel, ?_⟩
  decide +kernel

end FollowRun

end ControlBus
