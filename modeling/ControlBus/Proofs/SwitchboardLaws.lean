-- The inboxes of a switchboard: publishing never takes anything out of an inbox, and whoever
-- listens to a channel has something to read after a notification on it.
import ControlBus.Store.Switchboard

namespace ControlBus

namespace Subscription

variable {s : Subscription} {capacity : Nat} {channel payload : String}

/-- An offer changes nothing but the inbox and the count of losses. -/
theorem offer_frame (capacity : Nat) (channel payload : String) (s : Subscription) :
    (s.offer capacity channel payload).2.id = s.id ∧
      (s.offer capacity channel payload).2.channels = s.channels ∧
      (s.offer capacity channel payload).2.held = s.held := by
  unfold offer
  split
  · simp
  · split
    · simp
    · split <;> simp

theorem offer_fst_of_held (h : s.held = true) :
    (s.offer capacity channel payload).1 ≠ .abandoned := by
  unfold offer
  split
  · simp
  · simp only [h, Bool.not_true, Bool.false_eq_true, if_false]
    split <;> simp

/-- An inbox that is not empty stays so. -/
theorem offer_inbox (h : s.inbox ≠ []) : (s.offer capacity channel payload).2.inbox ≠ [] := by
  unfold offer
  split
  · exact h
  · split
    · exact h
    · split
      · simp
      · exact h

/-- A channel that is asked for fills the inbox, unless it is full already. -/
theorem offer_inbox_of_mem (hh : s.held = true) (hc : channel ∈ s.channels) (hcap : 0 < capacity) :
    (s.offer capacity channel payload).2.inbox ≠ [] := by
  have hinterest : s.interest channel = some none := by simp [interest, hc]
  unfold offer
  rw [hinterest]
  simp only [hh, Bool.not_true, Bool.false_eq_true, if_false]
  split
  · simp
  · rename_i hfull
    intro hnil
    have hempty : s.inbox = [] := hnil
    rw [hempty] at hfull
    exact hfull hcap

end Subscription

namespace Switchboard

variable {b : Switchboard} {id : Nat} {s : Subscription} {channel payload : String}

/-! ## Looking up subscriptions -/

/-- The store behind the switchboard exists, inboxes hold something, and numbers are new. -/
structure Working (b : Switchboard) : Prop where
  live : b.live = true
  capacity : 0 < b.capacity
  numbered : ∀ s ∈ b.subscriptions, s.id < b.nextId

/-- Somebody holds a subscription that asks for a channel by its name. -/
def Listens (b : Switchboard) (id : Nat) (channel : String) : Prop :=
  ∃ s, b.subscription? id = some s ∧ s.held = true ∧ channel ∈ s.channels

theorem working_ofBufferSize (size : Nat) : (ofBufferSize size).Working where
  live := rfl
  capacity := Nat.lt_of_lt_of_le Nat.zero_lt_one (Nat.le_max_right size 1)
  numbered := by simp [ofBufferSize]

theorem inbox_of_subscription (h : b.subscription? id = some s) : b.inbox id = s.inbox := by
  simp [inbox, h]

theorem Listens.lt_nextId (hw : b.Working) (h : b.Listens id channel) : id < b.nextId := by
  obtain ⟨s, hs, -, -⟩ := h
  have hid : s.id = id := by simpa using List.find?_some hs
  rw [← hid]
  exact hw.numbered s (List.mem_of_find?_eq_some hs)

/-! ## Publishing -/

theorem find?_offered (offer : Subscription → Delivery × Subscription)
    (hid : ∀ s, (offer s).2.id = s.id) {subscriptions : List Subscription}
    (hs : subscriptions.find? (·.id = id) = some s) (hkeep : (offer s).1 ≠ .abandoned) :
    (((subscriptions.map offer).filter (·.1 ≠ .abandoned)).map (·.2)).find? (·.id = id) =
      some (offer s).2 := by
  induction subscriptions with
  | nil => cases hs
  | cons a rest ih =>
    rw [List.map_cons]
    by_cases ha : a.id = id
    · rw [List.find?_cons_of_pos (by simpa using ha)] at hs
      cases hs
      rw [List.filter_cons_of_pos (by simpa using hkeep), List.map_cons,
        List.find?_cons_of_pos (by simpa [hid] using ha)]
    · rw [List.find?_cons_of_neg (by simpa using ha)] at hs
      by_cases hgone : (offer a).1 = .abandoned
      · rw [List.filter_cons_of_neg (by simpa using hgone)]
        exact ih hs
      · rw [List.filter_cons_of_pos (by simpa using hgone), List.map_cons,
          List.find?_cons_of_neg (by simpa [hid] using ha)]
        exact ih hs

theorem subscription_publish (channel payload : String) (hs : b.subscription? id = some s)
    (hh : s.held = true) :
    (b.publish channel payload).2.subscription? id =
      some (s.offer b.capacity channel payload).2 :=
  find?_offered _ (fun s => (Subscription.offer_frame _ _ _ s).1) hs
    (Subscription.offer_fst_of_held hh)

theorem Working.publish (h : b.Working) (channel payload : String) :
    (b.publish channel payload).2.Working where
  live := h.live
  capacity := h.capacity
  numbered := by
    intro s hs
    obtain ⟨p, hp, rfl⟩ := List.mem_map.mp hs
    obtain ⟨a, ha, rfl⟩ := List.mem_map.mp (List.mem_filter.mp hp).1
    rw [(Subscription.offer_frame _ _ _ a).1]
    exact h.numbered a ha

theorem Listens.publish {on : String} (h : b.Listens id on) (channel payload : String) :
    (b.publish channel payload).2.Listens id on ∧
      (b.inbox id ≠ [] → (b.publish channel payload).2.inbox id ≠ []) := by
  obtain ⟨s, hs, hh, hc⟩ := h
  have hs' := subscription_publish channel payload hs hh
  obtain ⟨-, hchannels, hheld⟩ := Subscription.offer_frame b.capacity channel payload s
  refine ⟨⟨_, hs', hheld.trans hh, hchannels ▸ hc⟩, ?_⟩
  intro hne
  rw [inbox_of_subscription hs] at hne
  rw [inbox_of_subscription hs']
  exact Subscription.offer_inbox hne

/-- Whoever listens to a channel can read something once a payload was published on it. -/
theorem Listens.rouse (h : b.Listens id channel) (hw : b.Working) (payload : String) :
    (b.publish channel payload).2.inbox id ≠ [] := by
  obtain ⟨s, hs, hh, hc⟩ := h
  rw [inbox_of_subscription (subscription_publish channel payload hs hh)]
  exact Subscription.offer_inbox_of_mem hh hc hw.capacity

theorem Working.publishAll (h : b.Working) (payloads : List (String × String)) :
    (b.publishAll payloads).Working := by
  induction payloads generalizing b with
  | nil => exact h
  | cons p rest ih => exact ih (h.publish p.1 p.2)

theorem Listens.publishAll {on : String} (h : b.Listens id on) (payloads : List (String × String)) :
    (b.publishAll payloads).Listens id on ∧
      (b.inbox id ≠ [] → (b.publishAll payloads).inbox id ≠ []) := by
  induction payloads generalizing b with
  | nil => exact ⟨h, fun hne => hne⟩
  | cons p rest ih =>
    obtain ⟨hl, hne⟩ := h.publish p.1 p.2
    obtain ⟨hl', hne'⟩ := ih hl
    exact ⟨hl', fun h0 => hne' (hne h0)⟩

theorem Listens.rouseAll (h : b.Listens id channel) (hw : b.Working)
    {payloads : List (String × String)} (hp : (channel, payload) ∈ payloads) :
    (b.publishAll payloads).inbox id ≠ [] := by
  induction payloads generalizing b with
  | nil => cases hp
  | cons p rest ih =>
    rcases List.mem_cons.mp hp with rfl | hp
    · exact ((h.publish channel payload).1.publishAll rest).2 (h.rouse hw payload)
    · exact ih (h.publish p.1 p.2).1 (hw.publish p.1 p.2) hp

/-! ## Subscribing -/

theorem Working.subscribe (h : b.Working) (channels patterns : List String) :
    (b.subscribe channels patterns).2.Working where
  live := h.live
  capacity := h.capacity
  numbered := by
    intro s hs
    simp only [Switchboard.subscribe] at hs ⊢
    rcases List.mem_append.mp hs with hs | hs
    · exact Nat.lt_succ_of_lt (h.numbered s hs)
    · simp only [List.mem_singleton] at hs
      subst hs
      exact Nat.lt_succ_self _

theorem subscription_subscribe (channels patterns : List String)
    (hs : b.subscription? id = some s) :
    (b.subscribe channels patterns).2.subscription? id = some s := by
  unfold subscription? at hs ⊢
  simp only [subscribe]
  rw [List.find?_append, hs]
  rfl

theorem subscription_new (hw : b.Working) (channels patterns : List String) :
    (b.subscribe channels patterns).2.subscription? b.nextId =
      some { id := b.nextId, channels, patterns } := by
  have hnone : b.subscriptions.find? (·.id = b.nextId) = none := by
    rw [List.find?_eq_none]
    intro s hs
    simpa using Nat.ne_of_lt (hw.numbered s hs)
  unfold subscription?
  simp only [subscribe]
  rw [List.find?_append, hnone]
  simp

theorem Listens.subscribe (h : b.Listens id channel) (channels patterns : List String) :
    (b.subscribe channels patterns).2.Listens id channel ∧
      (b.subscribe channels patterns).2.inbox id = b.inbox id := by
  obtain ⟨s, hs, hh, hc⟩ := h
  have hs' := subscription_subscribe channels patterns hs
  exact ⟨⟨s, hs', hh, hc⟩, by rw [inbox_of_subscription hs, inbox_of_subscription hs']⟩

theorem listens_new (hw : b.Working) (channel : String) :
    (b.subscribe [channel] []).2.Listens b.nextId channel :=
  ⟨_, subscription_new hw [channel] [], rfl, List.mem_singleton_self channel⟩

/-! ## Reading -/

theorem find?_adjusted (f : Subscription → Subscription) (hid : ∀ s, (f s).id = s.id) (other : Nat)
    (subscriptions : List Subscription) :
    (subscriptions.map fun s => if s.id = other then f s else s).find? (·.id = id) =
      (subscriptions.find? (·.id = id)).map fun s => if id = other then f s else s := by
  induction subscriptions with
  | nil => rfl
  | cons a rest ih =>
    have hsame : (if a.id = other then f a else a).id = a.id := by
      split
      · exact hid a
      · rfl
    rw [List.map_cons]
    by_cases ha : a.id = id
    · rw [List.find?_cons_of_pos (by simpa [hsame] using ha),
        List.find?_cons_of_pos (by simpa using ha), Option.map_some, ha]
    · rw [List.find?_cons_of_neg (by simpa [hsame] using ha),
        List.find?_cons_of_neg (by simpa using ha), ih]

theorem subscription_adjust (f : Subscription → Subscription) (hid : ∀ s, (f s).id = s.id)
    (other id : Nat) :
    (b.adjust other f).subscription? id =
      (b.subscription? id).map fun s => if id = other then f s else s :=
  find?_adjusted f hid other b.subscriptions

theorem Working.adjust (h : b.Working) (other : Nat) {f : Subscription → Subscription}
    (hid : ∀ s, (f s).id = s.id) : (b.adjust other f).Working where
  live := h.live
  capacity := h.capacity
  numbered := by
    intro s hs
    obtain ⟨a, ha, rfl⟩ := List.mem_map.mp hs
    split
    · rw [hid]
      exact h.numbered a ha
    · exact h.numbered a ha

theorem subscription_read (n other id : Nat) :
    (b.read n other).2.subscription? id =
      (b.subscription? id).map fun s =>
        if id = other then { s with inbox := s.inbox.drop n } else s :=
  subscription_adjust (fun s => { s with inbox := s.inbox.drop n }) (fun _ => rfl) other id

theorem Working.read (h : b.Working) (n other : Nat) : (b.read n other).2.Working :=
  h.adjust other fun _ => rfl

theorem Listens.read (h : b.Listens id channel) (n other : Nat) :
    (b.read n other).2.Listens id channel := by
  obtain ⟨s, hs, hh, hc⟩ := h
  refine ⟨_, (subscription_read n other id).trans (by rw [hs, Option.map_some]), ?_, ?_⟩
  · split
    · exact hh
    · exact hh
  · split
    · exact hc
    · exact hc

theorem inbox_read (n other id : Nat) :
    (b.read n other).2.inbox id = if id = other then (b.inbox id).drop n else b.inbox id := by
  unfold inbox
  rw [subscription_read]
  cases b.subscription? id with
  | none => simp
  | some s => by_cases hid : id = other <;> simp [hid]

end Switchboard

end ControlBus
