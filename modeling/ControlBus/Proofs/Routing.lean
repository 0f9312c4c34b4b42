-- Who gets what is published, over any run of a switchboard and its listeners. A listener gets each
-- payload that it wants and has room for, once and in order; the others are counted as lost.
import ControlBus.Proofs.Deliveries
import Mathlib.Data.List.Nodup

namespace ControlBus

/-! ## What a listener asks for -/

/-- Channels by name, and patterns of channels. -/
structure Wish where
  channels : List String
  patterns : List String
deriving Repr, DecidableEq

/-- The pattern by which a wish takes a channel: no pattern for a channel that is asked for by name,
else the first pattern that takes it. -/
def Wish.via (w : Wish) (channel : String) : Option (Option String) :=
  if channel ∈ w.channels then some none
  else (w.patterns.filter (Text.Glob.accepts · channel)).head?.map some

namespace Subscription

def wish (s : Subscription) : Wish := ⟨s.channels, s.patterns⟩

variable {capacity : Nat} {channel payload : String} {s : Subscription}

theorem interest_eq (s : Subscription) (channel : String) :
    s.interest channel = s.wish.via channel := by
  simp [interest, Wish.via, wish, List.head?_filter]

/-- A subscription that somebody holds keeps what it wants, or counts it if there is no room. -/
theorem offer_of_held (h : s.held = true) :
    (s.offer capacity channel payload).2.inbox = s.inbox ++
        (if s.inbox.length < capacity then
          (s.wish.via channel).map fun pattern => ⟨channel, pattern, payload⟩ else none).toList ∧
      (s.offer capacity channel payload).2.dropped = s.dropped +
        ((s.wish.via channel).isSome && !decide (s.inbox.length < capacity)).toNat := by
  rw [offer, interest_eq]
  cases s.wish.via channel with
  | none => simp
  | some pattern => by_cases hroom : s.inbox.length < capacity <;> simp [h, hroom]

theorem offer_accepted_iff :
    (s.offer capacity channel payload).1 = .accepted ↔
      s.held = true ∧ (s.wish.via channel).isSome = true ∧ s.inbox.length < capacity := by
  rw [offer, interest_eq]
  cases s.wish.via channel with
  | none => simp
  | some pattern =>
    cases hheld : s.held with
    | false => simp
    | true => by_cases hroom : s.inbox.length < capacity <;> simp [hroom]

theorem offer_abandoned_iff :
    (s.offer capacity channel payload).1 = .abandoned ↔
      s.held = false ∧ (s.wish.via channel).isSome = true := by
  rw [offer, interest_eq]
  cases s.wish.via channel with
  | none => simp
  | some pattern =>
    cases hheld : s.held with
    | false => simp
    | true => by_cases hroom : s.inbox.length < capacity <;> simp [hroom]

/-- The number of a subscription and what it asks for. -/
def card (s : Subscription) : Nat × Wish := (s.id, s.wish)

theorem offer_card (capacity : Nat) (channel payload : String) (s : Subscription) :
    (s.offer capacity channel payload).2.card = s.card := by
  unfold offer
  split
  · rfl
  · split
    · rfl
    · split <;> rfl

end Subscription

/-! ## A switchboard and its listeners -/

/-- Somebody who holds a subscription, and what has been received through it. -/
structure Listener where
  id : Nat
  wish : Wish
  received : List Notification := []
deriving Repr, DecidableEq

def Listener.card (l : Listener) : Nat × Wish := (l.id, l.wish)

/-- What can happen at a switchboard. -/
inductive BoardAct where
  | subscribe (channels patterns : List String)
  | publish (channel payload : String)
  /-- The holder of a subscription takes the oldest notification, if there is one. -/
  | receive (id : Nat)
  /-- The holder of a subscription lets go of it. -/
  | drop (id : Nat)
deriving Repr, DecidableEq

/-- A switchboard and those who hold a subscription of it. -/
structure Audience where
  board : Switchboard
  listeners : List Listener := []

namespace Audience

def start (size : Nat) : Audience := { board := .ofBufferSize size }

def holds (a : Audience) (id : Nat) : Bool := a.listeners.any (·.id = id)

def act (a : Audience) : BoardAct → Audience
  | .subscribe channels patterns =>
    let (id, board) := a.board.subscribe channels patterns
    { board, listeners := a.listeners ++ [{ id, wish := ⟨channels, patterns⟩ }] }
  | .publish channel payload => { a with board := (a.board.publish channel payload).2 }
  | .receive id =>
    if a.holds id then
      let (taken, board) := a.board.read 1 id
      { board
        listeners := a.listeners.map fun l =>
          if l.id = id then { l with received := l.received ++ taken } else l }
    else a
  | .drop id =>
    if a.holds id then
      { board := a.board.abandon id, listeners := a.listeners.filter (·.id ≠ id) }
    else a

def run (a : Audience) (acts : List BoardAct) : Audience := acts.foldl act a

/-- The acts of a run, each with what it finds. -/
def moments : Audience → List BoardAct → List (Audience × BoardAct)
  | _, [] => []
  | a, one :: rest => (a, one) :: moments (a.act one) rest

/-- Whether a subscription has room for another notification. -/
def HasRoom (size id : Nat) (a : Audience) : Prop := (a.board.inbox id).length < max size 1

instance (size id : Nat) (a : Audience) : Decidable (a.HasRoom size id) := by
  unfold HasRoom
  infer_instance

/-- The notification that a moment brings to a subscription. -/
def arrival (size id : Nat) (w : Wish) : Audience × BoardAct → Option Notification
  | (a, .publish channel payload) =>
    if a.HasRoom size id then (w.via channel).map fun pattern => ⟨channel, pattern, payload⟩
    else none
  | _ => none

/-- Whether a moment brings a subscription something for which it has no room. -/
def loss (size id : Nat) (w : Wish) : Audience × BoardAct → Bool
  | (a, .publish channel _) => (w.via channel).isSome && !decide (a.HasRoom size id)
  | _ => false

/-! ## What stays true of it -/

/-- The subscriptions that are held are just those of the listeners, in the same order. -/
structure Sound (size : Nat) (a : Audience) : Prop where
  capacity : a.board.capacity = max size 1
  numbered : ∀ s ∈ a.board.subscriptions, s.id < a.board.nextId
  unique : (a.board.subscriptions.map (·.id)).Nodup
  held : a.listeners.map Listener.card =
    (a.board.subscriptions.filter (·.held)).map Subscription.card

variable {size : Nat} {a : Audience} {l : Listener} {s : Subscription}

theorem sound_start (size : Nat) : (start size).Sound size where
  capacity := rfl
  numbered _ hs := nomatch hs
  unique := .nil
  held := rfl

theorem subscriptions_publish (channel payload : String) (b : Switchboard) :
    (b.publish channel payload).2.subscriptions =
      (b.subscriptions.filter fun s =>
        (s.offer b.capacity channel payload).1 ≠ .abandoned).map fun s =>
          (s.offer b.capacity channel payload).2 := by
  simp only [Switchboard.publish, List.filter_map, List.map_map]
  rfl

theorem ids_publish (channel payload : String) (b : Switchboard) :
    (b.publish channel payload).2.subscriptions.map (·.id) =
      (b.subscriptions.filter fun s =>
        (s.offer b.capacity channel payload).1 ≠ .abandoned).map (·.id) := by
  rw [subscriptions_publish, List.map_map]
  apply List.map_congr_left
  intro s _
  exact (Subscription.offer_frame _ _ _ s).1

theorem Sound.publish (h : a.Sound size) (channel payload : String) :
    (a.act (.publish channel payload)).Sound size where
  capacity := h.capacity
  numbered s hs := by
    rw [act, subscriptions_publish] at hs
    obtain ⟨s', hs', rfl⟩ := List.mem_map.mp hs
    rw [(Subscription.offer_frame _ _ _ s').1]
    exact h.numbered s' (List.mem_filter.mp hs').1
  unique := by
    rw [act, ids_publish]
    exact h.unique.sublist (List.filter_sublist.map _)
  held := by
    have hheld : ∀ s ∈ a.board.subscriptions,
        ((s.offer a.board.capacity channel payload).2.held &&
          decide ((s.offer a.board.capacity channel payload).1 ≠ .abandoned)) = s.held := by
      intro s _
      rw [(Subscription.offer_frame _ _ _ s).2.2]
      cases hs : s.held with
      | false => rfl
      | true => simpa using Subscription.offer_fst_of_held hs
    rw [act, subscriptions_publish, List.filter_map, List.map_map, List.filter_filter]
    refine h.held.trans ?_
    rw [← List.filter_congr hheld]
    apply List.map_congr_left
    intro s _
    exact (Subscription.offer_card _ _ _ s).symm

theorem Sound.subscribe (h : a.Sound size) (channels patterns : List String) :
    (a.act (.subscribe channels patterns)).Sound size where
  capacity := h.capacity
  numbered s hs := by
    rcases List.mem_append.mp hs with hs | hs
    · exact Nat.lt_succ_of_lt (h.numbered s hs)
    · rw [List.mem_singleton.mp hs]
      exact Nat.lt_succ_self _
  unique := by
    simp only [act, Switchboard.subscribe, List.map_append, List.map_cons, List.map_nil]
    refine List.nodup_append.mpr ⟨h.unique, List.nodup_singleton _, ?_⟩
    intro id hid id' hid'
    obtain ⟨s, hs, rfl⟩ := List.mem_map.mp hid
    rw [List.mem_singleton.mp hid']
    exact Nat.ne_of_lt (h.numbered s hs)
  held := by
    simp only [act, Switchboard.subscribe, List.map_append, List.filter_append, h.held]
    rfl

/-- Changes of one subscription that leave its number and what it asks for. -/
theorem Sound.adjust (h : a.Sound size) (id : Nat) (f : Subscription → Subscription)
    (hf : ∀ s, (f s).card = s.card) (listeners : List Listener)
    (hheld : listeners.map Listener.card = ((a.board.subscriptions.map fun s =>
      if s.id = id then f s else s).filter (·.held)).map Subscription.card) :
    ({ board := a.board.adjust id f, listeners } : Audience).Sound size := by
  have hid : ∀ s, (if s.id = id then f s else s).id = s.id := by
    intro s
    split
    · exact congrArg Prod.fst (hf s)
    · rfl
  refine ⟨h.capacity, ?_, ?_, hheld⟩
  · intro s hs
    obtain ⟨s', hs', rfl⟩ := List.mem_map.mp hs
    rw [hid]
    exact h.numbered s' hs'
  · have hids : (a.board.adjust id f).subscriptions.map (·.id) =
        a.board.subscriptions.map (·.id) := by
      rw [Switchboard.adjust, List.map_map]
      exact List.map_congr_left fun s _ => hid s
    exact hids ▸ h.unique

theorem Sound.receive (h : a.Sound size) (id : Nat) : (a.act (.receive id)).Sound size := by
  rw [act]
  split
  · refine h.adjust id (fun s => { s with inbox := s.inbox.drop 1 }) (fun s => rfl) _ ?_
    have hlisteners : ∀ l : Listener, ∀ taken, Listener.card (if l.id = id then
        { l with received := l.received ++ taken } else l) = l.card := by
      intro l taken
      split <;> rfl
    have hheld : ∀ s : Subscription,
        (if s.id = id then { s with inbox := s.inbox.drop 1 } else s).held = s.held := by
      intro s
      split <;> rfl
    have hcard : ∀ s : Subscription,
        (if s.id = id then { s with inbox := s.inbox.drop 1 } else s).card = s.card := by
      intro s
      split <;> rfl
    rw [List.map_map, List.filter_map, List.map_map]
    simp only [Function.comp_def, hlisteners, hheld, hcard]
    exact h.held
  · exact h

theorem Sound.drop (h : a.Sound size) (id : Nat) : (a.act (.drop id)).Sound size := by
  rw [act]
  split
  · refine h.adjust id (fun s => { s with held := false }) (fun s => rfl) _ ?_
    have hheld : ∀ s : Subscription, (if s.id = id then { s with held := false } else s).held =
        (decide (s.id ≠ id) && s.held) := by
      intro s
      by_cases hs : s.id = id <;> simp [hs]
    have hcard : ∀ s : Subscription,
        (if s.id = id then { s with held := false } else s).card = s.card := by
      intro s
      split <;> rfl
    rw [List.filter_map, List.map_map]
    simp only [Function.comp_def, hheld, hcard]
    rw [← List.filter_filter]
    have hleft := congrArg (List.filter fun c => decide (c.1 ≠ id)) h.held
    rw [List.filter_map, List.filter_map] at hleft
    exact hleft
  · exact h

theorem Sound.act (h : a.Sound size) (one : BoardAct) : (a.act one).Sound size := by
  cases one with
  | subscribe channels patterns => exact h.subscribe channels patterns
  | publish channel payload => exact h.publish channel payload
  | receive id => exact h.receive id
  | drop id => exact h.drop id

theorem Sound.run (h : a.Sound size) (acts : List BoardAct) : (a.run acts).Sound size := by
  induction acts generalizing a with
  | nil => exact h
  | cons one rest ih => exact ih (h.act one)

/-! ## Listeners and their subscriptions -/

theorem Sound.subscription (h : a.Sound size) (hs : s ∈ a.board.subscriptions) :
    a.board.subscription? s.id = some s := by
  unfold Switchboard.subscription?
  rw [List.find?_eq_some_iff_append]
  obtain ⟨before, after, hsplit⟩ := List.append_of_mem hs
  have hunique := h.unique
  rw [hsplit, List.map_append, List.nodup_append] at hunique
  refine ⟨by simp, before, after, hsplit, fun s' hs' => ?_⟩
  have hne := hunique.2.2 s'.id (List.mem_map_of_mem hs') s.id (by simp)
  simpa using hne

/-- Every listener holds a subscription that asks for what the listener wants. -/
theorem Sound.of_listener (h : a.Sound size) (hl : l ∈ a.listeners) :
    ∃ s ∈ a.board.subscriptions, s.held = true ∧ s.card = l.card := by
  have hcard : l.card ∈ a.listeners.map Listener.card := List.mem_map_of_mem hl
  rw [h.held] at hcard
  obtain ⟨s, hs, hsame⟩ := List.mem_map.mp hcard
  exact ⟨s, (List.mem_filter.mp hs).1, (List.mem_filter.mp hs).2, hsame⟩

/-- A subscription is held just if there is a listener of its number. -/
theorem Sound.held_iff (h : a.Sound size) (hs : s ∈ a.board.subscriptions) :
    s.held = true ↔ s.id ∈ a.listeners.map (·.id) := by
  have hids : a.listeners.map (·.id) =
      (a.board.subscriptions.filter (·.held)).map (·.id) := by
    have hfirst := congrArg (List.map Prod.fst) h.held
    rwa [List.map_map, List.map_map] at hfirst
  rw [hids]
  constructor
  · intro hheld
    exact List.mem_map_of_mem (List.mem_filter.mpr ⟨hs, hheld⟩)
  · intro hin
    obtain ⟨s', hs', hid⟩ := List.mem_map.mp hin
    obtain ⟨hs', hheld⟩ := List.mem_filter.mp hs'
    have hsame := h.subscription hs'
    rw [hid, h.subscription hs] at hsame
    rwa [Option.some.inj hsame]

theorem Sound.nodup_listeners (h : a.Sound size) : (a.listeners.map (·.id)).Nodup := by
  have hfirst := congrArg (List.map Prod.fst) h.held
  rw [List.map_map, List.map_map] at hfirst
  exact hfirst ▸ h.unique.sublist (List.filter_sublist.map _)

/-- From `a` to `a'` a listener has got what an act brings, received or waiting, and nothing
else. -/
def Gains (size : Nat) (a : Audience) (one : BoardAct) (a' : Audience) (l : Listener) : Prop :=
  ∃ l' ∈ a'.listeners, l'.card = l.card ∧
    l'.received ++ a'.board.inbox l.id =
      l.received ++ a.board.inbox l.id ++ (arrival size l.id l.wish (a, one)).toList ∧
    a'.board.dropped l.id = a.board.dropped l.id + (loss size l.id l.wish (a, one)).toNat

theorem Sound.exists_subscription (h : a.Sound size) (hl : l ∈ a.listeners) :
    ∃ s, a.board.subscription? l.id = some s ∧ s.held = true ∧ s.wish = l.wish := by
  obtain ⟨s, hs, hheld, hcard⟩ := h.of_listener hl
  have hid : s.id = l.id := congrArg Prod.fst hcard
  exact ⟨s, hid ▸ h.subscription hs, hheld, congrArg Prod.snd hcard⟩

/-- Where the subscription stays as it is, so does everything that the listener has. -/
theorem gains_of_stay {one : BoardAct} {a' : Audience} (hl : l ∈ a'.listeners)
    (hsub : a.board.subscription? l.id = some s) (hsub' : a'.board.subscription? l.id = some s)
    (hnothing : arrival size l.id l.wish (a, one) = none)
    (hno : loss size l.id l.wish (a, one) = false) : Gains size a one a' l := by
  refine ⟨l, hl, rfl, ?_, ?_⟩
  · rw [hnothing, Switchboard.inbox_of_subscription hsub,
      Switchboard.inbox_of_subscription hsub', Option.toList_none, List.append_nil]
  · rw [hno, Switchboard.dropped_of_subscription hsub,
      Switchboard.dropped_of_subscription hsub']
    rfl

theorem Sound.gains_publish (h : a.Sound size) (hl : l ∈ a.listeners)
    (channel payload : String) :
    Gains size a (.publish channel payload) (a.act (.publish channel payload)) l := by
  obtain ⟨s, hsub, hheld, hwish⟩ := h.exists_subscription hl
  have hinbox := Switchboard.inbox_of_subscription hsub
  have hsub' := Switchboard.subscription_publish channel payload hsub hheld
  obtain ⟨hkept, hlost⟩ :=
    @Subscription.offer_of_held a.board.capacity channel payload s hheld
  refine ⟨l, hl, rfl, ?_, ?_⟩
  · rw [Audience.act, Switchboard.inbox_of_subscription hsub', hkept, hinbox,
      ← List.append_assoc]
    simp only [arrival, HasRoom, hinbox, hwish, h.capacity]
  · rw [Audience.act, Switchboard.dropped_of_subscription hsub', hlost,
      Switchboard.dropped_of_subscription hsub]
    simp only [loss, HasRoom, hinbox, hwish, h.capacity]

/-- What is received moves from the inbox to what the listener has. -/
theorem Sound.gains_receive (h : a.Sound size) (hl : l ∈ a.listeners) (id : Nat) :
    Gains size a (.receive id) (a.act (.receive id)) l := by
  obtain ⟨s, hsub, -, -⟩ := h.exists_subscription hl
  rw [Audience.act]
  split
  · have hsub' : (a.board.read 1 id).2.subscription? l.id =
        some (if l.id = id then { s with inbox := s.inbox.drop 1 } else s) := by
      rw [Switchboard.subscription_read, hsub, Option.map_some]
    by_cases hmine : l.id = id
    · subst hmine
      have hinbox := Switchboard.inbox_of_subscription hsub
      rw [if_pos rfl] at hsub'
      refine ⟨{ l with received := l.received ++ s.inbox.take 1 }, ?_, rfl, ?_, ?_⟩
      · refine List.mem_map.mpr ⟨l, hl, ?_⟩
        rw [if_pos rfl, Switchboard.read, hinbox]
      · rw [Switchboard.inbox_of_subscription hsub', hinbox, List.append_assoc,
          List.take_append_drop]
        exact (List.append_nil _).symm
      · rw [Switchboard.dropped_of_subscription hsub',
          Switchboard.dropped_of_subscription hsub]
        rfl
    · rw [if_neg hmine] at hsub'
      exact gains_of_stay (List.mem_map.mpr ⟨l, hl, if_neg hmine⟩) hsub hsub' rfl rfl
  · exact gains_of_stay hl hsub hsub rfl rfl

/-- To whoever keeps a subscription it makes no difference when others let go of theirs. -/
theorem Sound.gains_drop (h : a.Sound size) (hl : l ∈ a.listeners) {id : Nat}
    (hother : l.id ≠ id) : Gains size a (.drop id) (a.act (.drop id)) l := by
  obtain ⟨s, hsub, -, -⟩ := h.exists_subscription hl
  rw [Audience.act]
  split
  · have hsub' : (a.board.abandon id).subscription? l.id =
        (a.board.subscription? l.id).map fun s =>
          if l.id = id then { s with held := false } else s :=
      Switchboard.find?_adjusted (fun s => { s with held := false }) (fun _ => rfl) id
        a.board.subscriptions
    rw [hsub, Option.map_some, if_neg hother] at hsub'
    exact gains_of_stay (List.mem_filter.mpr ⟨hl, by simpa using hother⟩) hsub hsub' rfl rfl
  · exact gains_of_stay hl hsub hsub rfl rfl

/-- One act: whoever holds a subscription and does not let go of it gains what the act brings. -/
theorem Sound.step (h : a.Sound size) (hl : l ∈ a.listeners) {one : BoardAct}
    (hkeeps : one ≠ .drop l.id) : Gains size a one (a.act one) l := by
  cases one with
  | subscribe channels patterns =>
    obtain ⟨s, hsub, -, -⟩ := h.exists_subscription hl
    exact gains_of_stay (List.mem_append_left _ hl) hsub
      (Switchboard.subscription_subscribe channels patterns hsub) rfl rfl
  | publish channel payload => exact h.gains_publish hl channel payload
  | receive id => exact h.gains_receive hl id
  | drop id => exact h.gains_drop hl fun heq => hkeeps (heq ▸ rfl)

/-- Any number of acts. -/
theorem Sound.steps (h : a.Sound size) (hl : l ∈ a.listeners) {acts : List BoardAct}
    (hkeeps : .drop l.id ∉ acts) :
    ∃ l' ∈ (a.run acts).listeners, l'.card = l.card ∧
      l'.received ++ (a.run acts).board.inbox l.id =
        l.received ++ a.board.inbox l.id ++ (a.moments acts).filterMap (arrival size l.id l.wish) ∧
      (a.run acts).board.dropped l.id =
        a.board.dropped l.id + (a.moments acts).countP (loss size l.id l.wish) := by
  induction acts generalizing a l with
  | nil => exact ⟨l, hl, rfl, (List.append_nil _).symm, rfl⟩
  | cons one rest ih =>
    obtain ⟨hone, hrest⟩ := not_or.mp (fun hin => hkeeps (List.mem_cons.mpr hin))
    obtain ⟨l₁, hl₁, hcard, hreceived, hdropped⟩ := h.step hl (Ne.symm hone)
    have hid : l₁.id = l.id := congrArg Prod.fst hcard
    have hwish : l₁.wish = l.wish := congrArg Prod.snd hcard
    obtain ⟨l₂, hl₂, hcard₂, hreceived₂, hdropped₂⟩ := ih (h.act one) hl₁ (hid ▸ hrest)
    rw [hid, hwish] at hreceived₂ hdropped₂
    refine ⟨l₂, hl₂, hcard₂.trans hcard, ?_, ?_⟩
    · refine hreceived₂.trans ?_
      rw [hreceived, List.append_assoc, moments, List.filterMap_cons]
      cases arrival size l.id l.wish (a, one) <;> rfl
    · refine hdropped₂.trans ?_
      rw [hdropped, Nat.add_assoc, moments, List.countP_cons]
      cases loss size l.id l.wish (a, one) <;> simp [Nat.add_comm]

/-! ## Counting and striking off -/

/-- As many take a payload as there are listeners who want it and have room. -/
theorem Sound.accepted (h : a.Sound size) (channel payload : String) :
    (a.board.publish channel payload).1 = a.listeners.countP fun l =>
      (l.wish.via channel).isSome && decide (a.HasRoom size l.id) := by
  let takes : Nat × Wish → Bool := fun card =>
    (card.2.via channel).isSome && decide (a.HasRoom size card.1)
  have htakes : ∀ s ∈ a.board.subscriptions,
      decide ((s.offer a.board.capacity channel payload).1 = .accepted) =
        (takes s.card && s.held) := by
    intro s hs
    have hinbox := Switchboard.inbox_of_subscription (h.subscription hs)
    rw [Bool.eq_iff_iff, decide_eq_true_iff, Subscription.offer_accepted_iff]
    simp only [takes, Subscription.card, HasRoom, hinbox, h.capacity, Bool.and_eq_true,
      decide_eq_true_eq]
    exact and_comm
  have hlisteners : a.listeners.countP (takes ∘ Listener.card) =
      (a.board.subscriptions.filter (·.held)).countP (takes ∘ Subscription.card) := by
    rw [← List.countP_map, h.held, List.countP_map]
  refine Eq.trans ?_ hlisteners.symm
  rw [Switchboard.publish, List.countP_map, List.countP_filter]
  exact List.countP_congr fun s hs => by
    have htake := htakes s hs
    simp only [Function.comp_apply] at htake ⊢
    rw [htake]

/-- A payload strikes off the subscriptions that want it and that nobody holds any more. -/
theorem Sound.struck_off (h : a.Sound size) (channel payload : String) :
    (a.board.publish channel payload).2.subscriptions.map (·.id) =
      (a.board.subscriptions.filter fun s =>
        decide (s.id ∈ a.listeners.map (·.id)) || (s.wish.via channel).isNone).map (·.id) := by
  rw [ids_publish]
  congr 1
  apply List.filter_congr
  intro s hs
  rw [Bool.eq_iff_iff, decide_eq_true_iff, Ne, Subscription.offer_abandoned_iff, Bool.or_eq_true,
    decide_eq_true_iff, ← h.held_iff hs]
  cases s.held <;> cases s.wish.via channel <;> simp

/-! ## Routing -/

/-- Over any run of subscribing, publishing, receiving and letting go. Whoever holds a subscription
has, received or still waiting, just what was published since then that the wish takes while there
was room for it, in order and each once, by the name of the channel or else by the first pattern
that takes it; what the wish takes without room is counted as lost. To publish tells how many
holders take the payload. A subscription that nobody holds is never among them, and it is struck
off by the first payload that it would want. -/
theorem routing_is_exact (size : Nat) (acts : List BoardAct) :
    let a := (start size).run acts
    (∀ earlier channels patterns later, acts = earlier ++ .subscribe channels patterns :: later →
      let w : Wish := ⟨channels, patterns⟩
      let before := (start size).run earlier
      let id := (before.board.subscribe channels patterns).1
      let since := (before.act (.subscribe channels patterns)).moments later
      .drop id ∉ later →
        ∃ l ∈ a.listeners, l.card = (id, w) ∧
          l.received ++ a.board.inbox id = since.filterMap (arrival size id w) ∧
          a.board.dropped id = since.countP (loss size id w)) ∧
    (a.listeners.map (·.id)).Nodup ∧
    (∀ channel payload, (a.board.publish channel payload).1 = a.listeners.countP fun l =>
      (l.wish.via channel).isSome && decide (a.HasRoom size l.id)) ∧
    (∀ channel payload, (a.board.publish channel payload).2.subscriptions.map (·.id) =
      (a.board.subscriptions.filter fun s =>
        decide (s.id ∈ a.listeners.map (·.id)) || (s.wish.via channel).isNone).map (·.id)) := by
  intro a
  have hsound : a.Sound size := (sound_start size).run acts
  refine ⟨?_, hsound.nodup_listeners, hsound.accepted, hsound.struck_off⟩
  rintro earlier channels patterns later rfl w before id since hkeeps
  have hbefore : before.Sound size := (sound_start size).run earlier
  have hafter := hbefore.subscribe channels patterns
  have hnew : (before.act (.subscribe channels patterns)).board.subscription? id =
      some { id, channels, patterns } :=
    hafter.subscription (List.mem_append_right _ (List.mem_singleton_self _))
  have hl : ({ id, wish := w } : Listener) ∈
      (before.act (.subscribe channels patterns)).listeners :=
    List.mem_append_right _ (List.mem_singleton_self _)
  have hrun : a = (before.act (.subscribe channels patterns)).run later := by
    simp only [a, before, run, List.foldl_append, List.foldl_cons]
  obtain ⟨l, hl, hcard, hreceived, hdropped⟩ := hafter.steps hl hkeeps
  rw [Switchboard.inbox_of_subscription hnew] at hreceived
  rw [Switchboard.dropped_of_subscription hnew, Nat.zero_add] at hdropped
  rw [hrun]
  exact ⟨l, hl, hcard, hreceived, hdropped⟩

end Audience

end ControlBus
