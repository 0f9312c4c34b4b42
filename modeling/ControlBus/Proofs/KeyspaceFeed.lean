-- The feed of changes that a store in memory sends while it announces them. Every operation tells
-- of each change under a key as it makes it, and whoever holds a subscription is given what it
-- wants of that in this order, before anything that a later operation tells.
import ControlBus.Proofs.Followers
import ControlBus.Proofs.KeyChanges

namespace ControlBus

/-! ## What a subscription is given -/

/-- Of some announcements those that a wish takes, as they arrive. -/
def Wish.arrivals (w : Wish) (said : List Announcement) : List Notification :=
  said.filterMap fun a => (w.via a.channel).map fun pattern => ⟨a.channel, pattern, a.payload⟩

theorem Wish.arrivals_append (w : Wish) (said more : List Announcement) :
    w.arrivals (said ++ more) = w.arrivals said ++ w.arrivals more := List.filterMap_append

namespace Switchboard

section

variable {α : Type} (o : Option α) (taken capacity : Nat)

/-- Of at most one thing as much as there is room for. -/
theorem take_room :
    o.toList.take (capacity - taken) = (if taken < capacity then o else none).toList := by
  by_cases hfree : taken < capacity
  · have hlength : o.toList.length ≤ capacity - taken := by
      cases o <;> simp
      omega
    rw [if_pos hfree, List.take_of_length_le hlength]
  · have hnone : capacity - taken = 0 := by omega
    rw [if_neg hfree, hnone, List.take_zero]
    rfl

theorem length_drop_room :
    (o.toList.drop (capacity - taken)).length =
      (o.isSome && !decide (taken < capacity)).toNat := by
  by_cases hfree : taken < capacity
  · have hlength : o.toList.length ≤ capacity - taken := by
      cases o <;> simp
      omega
    simp [List.drop_of_length_le hlength, hfree]
  · have hnone : capacity - taken = 0 := by omega
    cases o <;> simp [hnone, hfree]

end

variable {b b' b'' : Switchboard} {id : Nat} {w : Wish} {said more : List Announcement}

/-- Somebody holds a subscription with this wish. -/
def Holds (b : Switchboard) (id : Nat) (w : Wish) : Prop :=
  ∃ s, b.subscription? id = some s ∧ s.held = true ∧ s.wish = w

/-- From one switchboard to the next a subscription has been given of what it wants as much as
there was room for, and the rest is counted. -/
structure Takes (id : Nat) (w : Wish) (said : List Announcement) (b b' : Switchboard) : Prop where
  holds : b'.Holds id w
  inbox : b'.inbox id = b.inbox id ++ (w.arrivals said).take (b.room id)
  dropped : b'.dropped id = b.dropped id + ((w.arrivals said).drop (b.room id)).length
  capacity : b'.capacity = b.capacity

theorem Takes.trans (h : Takes id w said b b') (h' : Takes id w more b' b'') :
    Takes id w (said ++ more) b b'' := by
  -- The room that is left decides what is kept of the later announcements.
  have hleft : b'.room id = b.room id - (w.arrivals said).length := by
    have hroom : b.room id = b.capacity - (b.inbox id).length := rfl
    rw [room, h.capacity, h.inbox, List.length_append, List.length_take]
    omega
  refine ⟨h'.holds, ?_, ?_, h'.capacity.trans h.capacity⟩
  · rw [h'.inbox, h.inbox, hleft, Wish.arrivals_append, List.take_append, List.append_assoc]
  · rw [h'.dropped, h.dropped, hleft, Wish.arrivals_append, List.drop_append,
      List.length_append, Nat.add_assoc]

/-- What is done about other subscriptions brings nothing. -/
theorem Holds.of_same (h : b.Holds id w) (hsame : b'.subscription? id = b.subscription? id)
    (hcapacity : b'.capacity = b.capacity) : Takes id w [] b b' := by
  obtain ⟨s, hs, hrest⟩ := h
  refine ⟨⟨s, hsame.trans hs, hrest⟩, ?_, ?_, hcapacity⟩
  · rw [inbox, hsame, Wish.arrivals, List.filterMap_nil, List.take_nil, List.append_nil, inbox]
  · rw [dropped, hsame, Wish.arrivals, List.filterMap_nil, List.drop_nil]
    rfl

theorem Holds.publish (h : b.Holds id w) (a : Announcement) :
    Takes id w [a] b (b.publish a.channel a.payload).2 := by
  obtain ⟨s, hs, hheld, rfl⟩ := h
  have hs' := subscription_publish a.channel a.payload hs hheld
  have hframe := Subscription.offer_frame b.capacity a.channel a.payload s
  have hcard := Subscription.offer_card b.capacity a.channel a.payload s
  obtain ⟨hinbox, hdropped⟩ : (s.offer b.capacity a.channel a.payload).2.inbox = _ ∧
      (s.offer b.capacity a.channel a.payload).2.dropped = _ := Subscription.offer_of_held hheld
  have hroom : b.room id = b.capacity - s.inbox.length := by
    rw [room, inbox_of_subscription hs]
  have hwanted : s.wish.arrivals [a] = ((s.wish.via a.channel).map fun pattern =>
      (⟨a.channel, pattern, a.payload⟩ : Notification)).toList := by
    cases hvia : s.wish.via a.channel <;> simp [Wish.arrivals, hvia]
  refine ⟨⟨_, hs', hframe.2.2.trans hheld, congrArg Prod.snd hcard⟩, ?_, ?_, rfl⟩
  · rw [inbox_of_subscription hs', inbox_of_subscription hs, hinbox, hwanted, hroom, take_room]
  · rw [dropped_of_subscription hs', dropped_of_subscription hs, hdropped, hwanted, hroom,
      length_drop_room, Option.isSome_map]

theorem Holds.read (h : b.Holds id w) (n : Nat) : (b.read n id).2.Holds id w := by
  obtain ⟨s, hs, hheld, hwish⟩ := h
  refine ⟨{ s with inbox := s.inbox.drop n }, ?_, hheld, hwish⟩
  rw [subscription_read, hs, Option.map_some, if_pos rfl]

theorem Holds.publishAll (h : b.Holds id w) (said : List Announcement) :
    Takes id w said b (b.publishAll (said.map fun a => (a.channel, a.payload))) := by
  induction said generalizing b with
  | nil => exact h.of_same rfl rfl
  | cons a rest ih =>
    have hone := h.publish a
    exact hone.trans (ih hone.holds)

end Switchboard

/-! ## What is read in the course of time -/

/-- What the holder of a subscription reads by an act. -/
def StoreAct.readBy (id : Nat) : StoreAct → MemoryStore → List Notification
  | .read n i, m => if i = id then (m.board.read n i).1 else []
  | .use _, _ => []
  | .injectFailures _, _ => []
  | .abandon _, _ => []

theorem StoreAct.readBy_of_other {id : Nat} {a : StoreAct} (hother : a.handles id = false)
    (m : MemoryStore) : a.readBy id m = [] := by
  cases a with
  | read n i => exact if_neg (by simpa [handles] using hother)
  | use u => rfl
  | injectFailures n => rfl
  | abandon i => rfl

namespace MemoryStore

variable {m : MemoryStore} {id : Nat} {w : Wish}

/-- What the holder of a subscription reads during acts, and what then waits to be read. -/
def heard (id : Nat) : List StoreAct → MemoryStore → List Notification
  | [], m => m.board.inbox id
  | a :: rest, m => a.readBy id m ++ heard id rest (m.act a)

/-- What acts announce, one after the other. -/
def announcedBy : List StoreAct → MemoryStore → List Announcement
  | [], _ => []
  | a :: rest, m => a.announced m ++ announcedBy rest (m.act a)

/-- Whoever holds a subscription is given of what others announce the first that have room. -/
theorem takes_act (h : m.Settled) (hw : m.board.Holds id w) {a : StoreAct}
    (hother : a.handles id = false) :
    Switchboard.Takes id w (a.announced m) m.board (m.act a).board := by
  cases a with
  | use u =>
    rw [StoreAct.announced, act]
    rcases u.run_cases h.quiet with
      ⟨k, hrun, hk⟩ | ⟨n, hrun, hsilent⟩ | ⟨channels, patterns, hrun, hsilent⟩
    · rw [hrun, ← hk.announced]
      exact hw.publishAll k.outbox
    · rw [hrun, hsilent]
      exact hw.of_same rfl rfl
    · have hheld := hw
      obtain ⟨s, hs, -⟩ := hheld
      rw [hrun, hsilent]
      exact hw.of_same ((Switchboard.subscription_subscribe channels patterns hs).trans hs.symm) rfl
  | injectFailures n => exact hw.of_same rfl rfl
  | read n i =>
    have hne : ¬ id = i := by
      simpa [StoreAct.handles, eq_comm] using hother
    refine hw.of_same ((Switchboard.subscription_read n i id).trans ?_) rfl
    simp [hne]
  | abandon i =>
    have hne : ¬ id = i := by
      simpa [StoreAct.handles, eq_comm] using hother
    refine hw.of_same ((Switchboard.subscription_adjust ({ · with held := false })
      (fun _ => rfl) i id).trans ?_) rfl
    simp [hne]

/-- By one act the holder is given something of what the act announces, behind what was there. -/
theorem readBy_act (h : m.Settled) (hw : m.board.Holds id w) {a : StoreAct}
    (hheld : a ≠ .abandon id) :
    (m.act a).board.Holds id w ∧ ∃ given,
      a.readBy id m ++ (m.act a).board.inbox id = m.board.inbox id ++ given ∧
        given.Sublist (w.arrivals (a.announced m)) := by
  by_cases hother : a.handles id = false
  · have htakes := takes_act h hw hother
    refine ⟨htakes.holds, (w.arrivals (a.announced m)).take (m.board.room id), ?_,
      List.take_sublist ..⟩
    rw [StoreAct.readBy_of_other hother]
    exact htakes.inbox
  · cases a with
    | use u => exact absurd rfl hother
    | injectFailures n => exact absurd rfl hother
    | abandon i =>
      have hsame : i = id := by simpa [StoreAct.handles] using hother
      exact absurd (congrArg StoreAct.abandon hsame) hheld
    | read n i =>
      -- What is read now was the front of the inbox, and nothing is added to it.
      obtain rfl : i = id := by simpa [StoreAct.handles] using hother
      refine ⟨hw.read n, [], ?_, List.nil_sublist _⟩
      rw [StoreAct.readBy, if_pos rfl, List.append_nil, act, Switchboard.inbox_read, if_pos rfl]
      exact List.take_append_drop ..

/-- Nobody gets anything out of turn: what has arrived comes first, then, in order, what is
announced later. -/
theorem heard_eq (h : m.Settled) (hw : m.board.Holds id w) {acts : List StoreAct}
    (hheld : .abandon id ∉ acts) :
    ∃ kept, m.heard id acts = m.board.inbox id ++ kept ∧
      kept.Sublist (w.arrivals (m.announcedBy acts)) := by
  induction acts generalizing m with
  | nil => exact ⟨[], (List.append_nil _).symm, List.Sublist.refl _⟩
  | cons a rest ih =>
    obtain ⟨hthis, hlater⟩ := not_or.mp (mt List.mem_cons.mpr hheld)
    obtain ⟨hholds, given, hgiven, hnow⟩ := readBy_act h hw (Ne.symm hthis)
    obtain ⟨kept, hkept, hthen⟩ := ih (h.act a) hholds hlater
    refine ⟨given ++ kept, ?_, ?_⟩
    · rw [heard, hkept, ← List.append_assoc, hgiven, List.append_assoc]
    · rw [announcedBy, Wish.arrivals_append]
      exact hnow.append hthen

end MemoryStore

/-! ## Uses that say nothing -/

namespace StoreUse

/-- Whether a use only reads. -/
def reads : StoreUse → Bool
  | .command (.listLength _) => true
  | .command (.setSize _) => true
  | .command (.record _) => true
  | .command _ => false
  | .keys _ => true
  | .publish _ _ => false
  | .subscribe _ _ => false

/-- A use answers with an error. -/
def Fails : StoreUse → MemoryStore → Prop
  | .command c, m => ∃ e, (c.perform.run m).1 = .error e
  | .keys pattern, m =>
    ∃ e, ((SharedStore.keys pattern : StoreOp MemoryStore (List String)).run m).1 = .error e
  | .publish channel payload, m => ∃ e, (m.publish channel payload).1 = .error e
  | .subscribe channels patterns, m =>
    ∃ e, ((SharedStore.subscribe channels patterns : StoreOp MemoryStore Nat).run m).1 = .error e

/-- The word that a use may send of its own accord, not to announce a change. -/
def word? : StoreUse → Option Announcement
  | .command c => c.word?
  | .publish channel payload => some ⟨channel, payload⟩
  | .keys _ => none
  | .subscribe _ _ => none

variable {m : MemoryStore} {u : StoreUse}

theorem run_of_reads (hquiet : m.contents.outbox = []) (hreads : u.reads = true) :
    u.run m = m ∧ u.announced m = [] := by
  cases u with
  | command c =>
    cases c with
    | listLength list => exact ⟨rfl, hquiet⟩
    | setSize set => exact ⟨rfl, hquiet⟩
    | record key => exact ⟨rfl, hquiet⟩
    | pushBack list entries => cases hreads
    | addMembers set members => cases hreads
    | mergeFields key fields => cases hreads
    | delete key => cases hreads
    | eval script => cases hreads
  | keys pattern => exact ⟨rfl, rfl⟩
  | publish channel payload => cases hreads
  | subscribe channels patterns => cases hreads

/-- Whatever fails leaves everything stored and every inbox as it was. -/
theorem run_of_fails (hquiet : m.contents.outbox = []) (hfails : u.Fails m) :
    (u.run m).contents = m.contents ∧ (u.run m).board = m.board ∧ u.announced m = [] := by
  cases u with
  | command c =>
    obtain ⟨e, he⟩ := hfails
    cases hdue : m.failuresDue with
    | zero =>
      rw [c.run_perform hdue hquiet] at he
      cases he
    | succ n =>
      cases c with
      | eval script =>
        rw [run, Command.run_eval_due script hdue, announced, if_neg (by omega)]
        exact ⟨rfl, rfl, rfl⟩
      | pushBack list entries => cases he
      | listLength list => cases he
      | addMembers set members => cases he
      | setSize set => cases he
      | record key => cases he
      | mergeFields key fields => cases he
      | delete key => cases he
  | keys pattern =>
    obtain ⟨e, he⟩ := hfails
    cases he
  | publish channel payload =>
    obtain ⟨e, he⟩ := hfails
    rw [run, announced, he]
    rw [MemoryStore.publish] at he ⊢
    cases hsize : SharedStore.checkSize payload.utf8ByteSize m.maxPayload with
    | error e' => exact ⟨rfl, rfl, rfl⟩
    | ok _ =>
      rw [hsize] at he
      cases he
  | subscribe channels patterns =>
    obtain ⟨e, he⟩ := hfails
    cases he

/-- A command changes the contents and sends out what it announces, or it is a script that was due
to fail. -/
theorem command_cases (c : Command) (hquiet : m.contents.outbox = []) :
    (run (.command c) m = m.settle (c.change m.contents).2 ∧
        announced (.command c) m = c.announces m) ∨
      (run (.command c) m).contents = m.contents ∧ announced (.command c) m = [] := by
  have hidle := (MemoryStore.settle_contents hquiet).symm
  cases c with
  | eval script =>
    cases hdue : m.failuresDue with
    | zero =>
      left
      refine ⟨congrArg Prod.snd ((Command.eval script).run_perform hdue hquiet), ?_⟩
      rw [announced, if_pos hdue]
    | succ n =>
      right
      rw [run, Command.run_eval_due script hdue, announced, if_neg (by omega)]
      exact ⟨rfl, rfl⟩
  | pushBack list entries => exact Or.inl ⟨rfl, rfl⟩
  | listLength list => exact Or.inl ⟨hidle, rfl⟩
  | addMembers set members => exact Or.inl ⟨rfl, rfl⟩
  | setSize set => exact Or.inl ⟨hidle, rfl⟩
  | record key => exact Or.inl ⟨hidle, rfl⟩
  | mergeFields key fields => exact Or.inl ⟨rfl, rfl⟩
  | delete key => exact Or.inl ⟨rfl, rfl⟩

/-- Every use of a store that announces changes is a row of changes, each with its word. -/
theorem feeds (u : StoreUse) (h : m.Settled) (ha : m.contents.announcing = true) :
    ∃ k, (u.run m).contents = { k with outbox := [] } ∧ k.outbox = u.announced m ∧
      Keyspace.Feeds u.word? m.contents k := by
  have houtspoken : m.contents.Outspoken := ⟨h.tidy, ha⟩
  have hsilent : (u.run m).contents = m.contents → u.announced m = [] →
      ∃ k, (u.run m).contents = { k with outbox := [] } ∧ k.outbox = u.announced m ∧
        Keyspace.Feeds u.word? m.contents k := by
    intro hsame hnothing
    refine ⟨m.contents, ?_, h.quiet.trans hnothing.symm, Keyspace.Feeds.refl houtspoken _⟩
    rw [hsame, ← h.quiet]
  cases u with
  | command c =>
    rcases command_cases c h.quiet with ⟨hrun, hannounced⟩ | ⟨hsame, hnothing⟩
    · exact ⟨_, congrArg MemoryStore.contents hrun, hannounced.symm,
        Keyspace.Feeds.change houtspoken c⟩
    · exact hsilent hsame hnothing
  | keys pattern => exact hsilent rfl rfl
  | subscribe channels patterns => exact hsilent rfl rfl
  | publish channel payload =>
    have hsame : (run (.publish channel payload) m).contents = m.contents := by
      rw [run, MemoryStore.publish]
      cases SharedStore.checkSize payload.utf8ByteSize m.maxPayload <;> rfl
    cases hresult : (m.publish channel payload).1 with
    | error e => exact hsilent hsame (by rw [announced, hresult])
    | ok n =>
      have hsettle := MemoryStore.settle_announce h.quiet channel payload
      refine ⟨m.contents.announce channel payload,
        hsame.trans (congrArg MemoryStore.contents hsettle).symm, ?_,
        Keyspace.Feeds.announce houtspoken channel payload⟩
      rw [announced, hresult, Keyspace.announce, h.quiet]
      rfl

end StoreUse

/-- The feed of changes is complete. Take any store in memory that announces changes, whatever was
done with it before, and any use of it. The use is a row of changes, each told on the channel of its
key as it is made, and perhaps a word of its own behind them. If this word is on no channel of a
key, there is a notification for every key under which the use changed anything, and after the last
of them there is no record if it tells of a removal, and there is one if it tells of fields. What
only reads or fails says and changes nothing. Whoever holds a subscription is given what it wants of
the notifications, as far as there is room, in this order, behind what has come before and ahead of
all that comes later. -/
theorem the_keyspace_feed_is_complete (config : StoreConfig) (draws : List Nat)
    (before : List StoreAct) (use : StoreUse) :
    let m := ({ config with keyspaceNotifications := true }.drawingStore draws).after before
    let m' := use.run m
    let said := use.announced m
    (∃ feed last, said = feed ++ last ∧ (last = [] ∨ last = use.word?.toList) ∧
      Unfolds m.contents.under feed m'.contents.under) ∧
    ((∀ a, use.word? = some a → ¬ keyspaceStem.toList <+: a.channel.toList) → ∀ key,
      (m'.contents.under key ≠ m.contents.under key →
        ∃ a ∈ said, a.channel = keyspaceChannel key) ∧
      (lastWord? said (keyspaceChannel key) = some "del" →
        Assoc.has m'.contents.records key = false) ∧
      (lastWord? said (keyspaceChannel key) = some "hset" →
        Assoc.has m'.contents.records key = true)) ∧
    (use.reads = true → said = [] ∧ m' = m) ∧
    (use.Fails m → said = [] ∧ m'.contents = m.contents ∧ m'.board = m.board) ∧
    ∀ s, m.board.subscription? s.id = some s → s.held = true →
      m'.board.dropped s.id =
        s.dropped + ((s.wish.arrivals said).drop (m.board.room s.id)).length ∧
      ∀ later, .abandon s.id ∉ later → ∃ kept,
        m'.heard s.id later =
          s.inbox ++ (s.wish.arrivals said).take (m.board.room s.id) ++ kept ∧
        kept.Sublist (s.wish.arrivals (m'.announcedBy later)) := by
  intro m m' said
  have hstart := MemoryStore.Settled.start { config with keyspaceNotifications := true } draws
  have hsettled : m.Settled := hstart.after before
  have hannouncing : m.contents.announcing = true := hstart.announcing_after rfl before
  obtain ⟨k, hcontents, houtbox, hfeeds⟩ := use.feeds hsettled hannouncing
  have hsaid : k.outbox = m.contents.outbox ++ said := by
    rw [hsettled.quiet]
    exact houtbox
  have hunder : m'.contents.under = k.under := by
    change (use.run m).contents.under = _
    rw [hcontents]
    rfl
  have hrecords : m'.contents.records = k.records := by
    change (use.run m).contents.records = _
    rw [hcontents]
  refine ⟨?_, fun hown key => ?_, fun hreads => ?_, fun hfails => ?_, fun s hs hheld => ?_⟩
  · obtain ⟨feed, last, hfeed, hlast, hunfolds⟩ := hfeeds.feed
    refine ⟨feed, last, List.append_cancel_left (hsaid.symm.trans hfeed), hlast, ?_⟩
    rw [hunder]
    exact hunfolds
  · rw [hunder, hrecords]
    apply hfeeds.tells hsaid
    intro a ha hsame
    apply hown a ha
    rw [hsame, keyspaceChannel, String.toList_append]
    exact List.prefix_append _ _
  · exact (StoreUse.run_of_reads hsettled.quiet hreads).symm
  · obtain ⟨hcontents, hboard, hnothing⟩ := StoreUse.run_of_fails hsettled.quiet hfails
    exact ⟨hnothing, hcontents, hboard⟩
  · have htakes : Switchboard.Takes s.id s.wish said m.board m'.board :=
      MemoryStore.takes_act (a := .use use) hsettled ⟨s, hs, hheld, rfl⟩ rfl
    refine ⟨?_, fun later hlater => ?_⟩
    · rw [htakes.dropped, Switchboard.dropped_of_subscription hs]
    · obtain ⟨kept, hkept, hsub⟩ :=
        MemoryStore.heard_eq (hsettled.act (.use use)) htakes.holds hlater
      refine ⟨kept, ?_, hsub⟩
      rw [← Switchboard.inbox_of_subscription hs, ← htakes.inbox]
      exact hkept

/-- A word of a script on the channel of a key can tell of a removal that nobody made. -/
example :
    let m := (({} : StoreConfig).drawingStore []).after
      [.use (.command (.mergeFields "T:k" [("f", "1")]))]
    let use := StoreUse.command (.eval (.pushAndPublish "q" ["x"] (keyspaceChannel "T:k") "del"))
    lastWord? (use.announced m) (keyspaceChannel "T:k") = some "del" ∧
      Assoc.has (use.run m).contents.records "T:k" = true := by
  decide +kernel

end ControlBus
