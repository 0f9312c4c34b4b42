-- What reaches a subscription to a pattern: of all that is announced just what the pattern takes,
-- in order and each once, unless a loss is counted. And what a pattern takes, of channels and of
-- stored keys alike.
import ControlBus.Proofs.RecordMerge
import ControlBus.Proofs.SwitchboardLaws
import ControlBus.Store.Keyspace

namespace ControlBus

/-- What a notification was when it was announced. -/
def Notification.announcement (n : Notification) : Announcement := ⟨n.channel, n.payload⟩

/-! ## Deliveries -/

/-- What a payload does to a subscription that asks for one pattern only. -/
theorem Subscription.offer_cases {s : Subscription} {pattern : String} (hh : s.held = true)
    (hc : s.channels = []) (hp : s.patterns = [pattern]) (capacity : Nat)
    (channel payload : String) :
    (Text.Glob.accepts pattern channel = false ∧ (s.offer capacity channel payload).2 = s) ∨
      (Text.Glob.accepts pattern channel = true ∧
        ((s.offer capacity channel payload).2 =
            { s with inbox := s.inbox ++ [⟨channel, some pattern, payload⟩] } ∨
          (s.offer capacity channel payload).2 = { s with dropped := s.dropped + 1 })) := by
  cases hwanted : Text.Glob.accepts pattern channel with
  | false =>
    have hinterest : s.interest channel = none := by simp [interest, hc, hp, hwanted]
    left
    rw [offer, hinterest]
    exact ⟨rfl, rfl⟩
  | true =>
    have hinterest : s.interest channel = some (some pattern) := by
      simp [interest, hc, hp, hwanted]
    right
    rw [offer, hinterest]
    simp only [hh, Bool.not_true, Bool.false_eq_true, if_false]
    by_cases hroom : s.inbox.length < capacity
    · rw [if_pos hroom]
      exact ⟨trivial, Or.inl rfl⟩
    · rw [if_neg hroom]
      exact ⟨trivial, Or.inr rfl⟩

namespace Switchboard

/-- Somebody holds a subscription that asks for one pattern and nothing else. -/
def Watches (b : Switchboard) (id : Nat) (pattern : String) : Prop :=
  ∃ s, b.subscription? id = some s ∧ s.held = true ∧ s.channels = [] ∧ s.patterns = [pattern]

/-- What a subscription hears of some announcements, from one switchboard to the next. -/
structure Hears (id : Nat) (pattern : String) (said : List Announcement) (b b' : Switchboard) :
    Prop where
  watches : b'.Watches id pattern
  losses : b.dropped id ≤ b'.dropped id
  heard : b'.dropped id = b.dropped id → ∃ more, b'.inbox id = b.inbox id ++ more ∧
    more.map Notification.announcement = said.filter fun a => Text.Glob.accepts pattern a.channel

variable {b b' b'' : Switchboard} {id : Nat} {pattern : String} {said more : List Announcement}

theorem dropped_of_subscription {s : Subscription} (h : b.subscription? id = some s) :
    b.dropped id = s.dropped := by
  simp [dropped, h]

theorem Hears.refl (h : b.Watches id pattern) : Hears id pattern [] b b :=
  ⟨h, Nat.le_refl _, fun _ => ⟨[], (List.append_nil _).symm, rfl⟩⟩

theorem Hears.trans (h : Hears id pattern said b b') (h' : Hears id pattern more b' b'') :
    Hears id pattern (said ++ more) b b'' := by
  have hle := h.losses
  have hle' := h'.losses
  refine ⟨h'.watches, Nat.le_trans hle hle', ?_⟩
  intro hnone
  obtain ⟨first, hfirst, hsaid⟩ := h.heard (by omega)
  obtain ⟨next, hnext, hmore⟩ := h'.heard (by omega)
  refine ⟨first ++ next, ?_, ?_⟩
  · rw [hnext, hfirst, List.append_assoc]
  · rw [List.map_append, hsaid, hmore, List.filter_append]

/-- One payload: it is not wanted, or it is put in the inbox, or its loss is counted. -/
theorem Watches.hears (h : b.Watches id pattern) (a : Announcement) :
    Hears id pattern [a] b (b.publish a.channel a.payload).2 := by
  obtain ⟨s, hs, hh, hc, hp⟩ := h
  have hs' := subscription_publish a.channel a.payload hs hh
  rcases Subscription.offer_cases hh hc hp b.capacity a.channel a.payload with
    ⟨hwanted, hsame⟩ | ⟨hwanted, hkept | hlost⟩
  · rw [hsame] at hs'
    refine ⟨⟨s, hs', hh, hc, hp⟩, ?_, fun _ => ⟨[], ?_, ?_⟩⟩
    · exact Nat.le_of_eq ((dropped_of_subscription hs).trans (dropped_of_subscription hs').symm)
    · rw [inbox_of_subscription hs, inbox_of_subscription hs', List.append_nil]
    · simp [hwanted]
  · rw [hkept] at hs'
    refine ⟨⟨_, hs', hh, hc, hp⟩, ?_, fun _ =>
      ⟨[⟨a.channel, some pattern, a.payload⟩], ?_, ?_⟩⟩
    · exact Nat.le_of_eq ((dropped_of_subscription hs).trans (dropped_of_subscription hs').symm)
    · rw [inbox_of_subscription hs, inbox_of_subscription hs']
    · simp [hwanted, Notification.announcement]
  · rw [hlost] at hs'
    refine ⟨⟨_, hs', hh, hc, hp⟩, ?_, fun hnone => ?_⟩
    · rw [dropped_of_subscription hs, dropped_of_subscription hs']
      exact Nat.le_succ _
    · rw [dropped_of_subscription hs, dropped_of_subscription hs'] at hnone
      exact absurd hnone (Nat.succ_ne_self _)

theorem Watches.hearsAll (h : b.Watches id pattern) (said : List Announcement) :
    Hears id pattern said b (b.publishAll (said.map fun a => (a.channel, a.payload))) := by
  induction said generalizing b with
  | nil => exact Hears.refl h
  | cons a rest ih =>
    have hone := h.hears a
    exact hone.trans (ih hone.watches)

theorem Watches.subscribe (h : b.Watches id pattern) (channels patterns : List String) :
    Hears id pattern [] b (b.subscribe channels patterns).2 := by
  obtain ⟨s, hs, hrest⟩ := h
  have hs' := subscription_subscribe channels patterns hs
  refine ⟨⟨s, hs', hrest⟩, ?_, ?_⟩
  · exact Nat.le_of_eq ((dropped_of_subscription hs).trans (dropped_of_subscription hs').symm)
  · intro _
    refine ⟨[], ?_, rfl⟩
    rw [inbox_of_subscription hs, inbox_of_subscription hs', List.append_nil]

theorem watches_new (hw : b.Working) (pattern : String) :
    (b.subscribe [] [pattern]).2.Watches b.nextId pattern ∧
      (b.subscribe [] [pattern]).2.inbox b.nextId = [] := by
  have hs := subscription_new hw [] [pattern]
  exact ⟨⟨_, hs, rfl, rfl, rfl⟩, inbox_of_subscription hs⟩

theorem Watches.read (h : b.Watches id pattern) (n : Nat) :
    (b.read n id).2.Watches id pattern ∧ (b.read n id).2.dropped id = b.dropped id := by
  obtain ⟨s, hs, hh, hc, hp⟩ := h
  have hs' : (b.read n id).2.subscription? id = some { s with inbox := s.inbox.drop n } := by
    rw [subscription_read, hs, Option.map_some, if_pos rfl]
  refine ⟨⟨_, hs', hh, hc, hp⟩, ?_⟩
  rw [dropped_of_subscription hs, dropped_of_subscription hs']

end Switchboard

/-! ## Patterns -/

namespace Text.Glob

/-- Whether a character is no wildcard. -/
def isPlain (c : Char) : Bool := c ≠ '*' && c ≠ '?'

theorem token_of_isPlain {c : Char} (h : isPlain c = true) : token c = .exactly c := by
  simp only [isPlain, ne_eq, decide_not, Bool.and_eq_true, Bool.not_eq_true',
    decide_eq_false_iff_not] at h
  unfold token
  split
  · exact absurd rfl h.1
  · exact absurd rfl h.2
  · rfl

theorem anyAccepts_append {stem : List Char} (h : stem.all isPlain = true) (p : List GlobToken)
    (text : List Char) :
    anyAccepts [stem.map token ++ p] (stem ++ text) = anyAccepts [p] text := by
  induction stem with
  | nil => rfl
  | cons c rest ih =>
    obtain ⟨hc, hrest⟩ := Bool.and_eq_true_iff.mp (List.all_cons ▸ h)
    have hnext : ([(c :: rest).map token ++ p].flatMap (after c)).eraseDups =
        [rest.map token ++ p] := by
      rw [List.map_cons, token_of_isPlain hc, List.flatMap_singleton, List.cons_append, after,
        if_pos rfl]
      simp [List.eraseDups_cons]
    rw [List.cons_append, anyAccepts, hnext]
    exact ih hrest

/-- A plain text in front of both a pattern and a text changes nothing. -/
theorem accepts_append {stem : String} (h : stem.toList.all isPlain = true) (glob text : String) :
    accepts (stem ++ glob) (stem ++ text) = accepts glob text := by
  unfold accepts
  rw [String.toList_append, String.toList_append, List.map_append]
  exact anyAccepts_append h _ _

end Text.Glob

/-! ## Listing keys -/

namespace Keyspace

theorem mem_eraseReps {texts : List String} {x : String} (h : x ∈ texts) :
    x ∈ texts.eraseReps := by
  have hloop : ∀ (rest : List String) (a : String) (found : List String),
      x = a ∨ x ∈ rest ∨ x ∈ found →
        x ∈ List.eraseRepsBy.loop (fun a b => a == b) a rest found := by
    intro rest
    induction rest with
    | nil =>
      intro a found hx
      simpa [List.eraseRepsBy.loop, or_comm] using hx
    | cons b rest ih =>
      intro a found hx
      rw [List.eraseRepsBy.loop]
      split
      · rename_i hsame
        have hab : a = b := eq_of_beq hsame
        exact ih a found (by grind)
      · exact ih b (a :: found) (by grind)
  cases texts with
  | nil => cases h
  | cons a rest => exact hloop rest a [] (by simpa using h)

/-- A record that is there is listed by every pattern that takes its key. -/
theorem mem_keysMatching {s : Keyspace} {pattern key : String} (h : s.record key ≠ [])
    (hkey : Text.Glob.accepts pattern key = true) : key ∈ s.keysMatching pattern := by
  have hstored : key ∈ Assoc.keys s.records := by
    unfold record at h
    cases hget : Assoc.get? s.records key with
    | none => exact absurd (by rw [hget]; rfl) h
    | some fields => exact Assoc.mem_keys_of_get? hget
  apply mem_eraseReps
  rw [List.mem_mergeSort, List.mem_filter]
  exact ⟨List.mem_append_right _ hstored, hkey⟩

end Keyspace

/-! ## The channels of a table -/

theorem afterStem?_append (stem text : String) : afterStem? stem (stem ++ text) = some text := by
  unfold afterStem?
  rw [String.toList_append]
  simp

theorem eq_append_of_afterStem? {stem text rest : String} (h : afterStem? stem text = some rest) :
    text = stem ++ rest := by
  unfold afterStem? at h
  split at h
  · rename_i hp
    obtain ⟨tail, htail⟩ := List.isPrefixOf_iff_prefix.mp hp
    cases h
    apply String.toList_inj.mp
    rw [String.toList_append, String.toList_ofList, ← htail]
    simp
  · cases h

namespace TableName

variable (t : TableName)

/-- The channel on which the changes of a key's record are announced. -/
def changeChannel (key : String) : String := keyspaceChannel (t.recordKey key)

theorem changeChannel_eq (key : String) : t.changeChannel key = t.keyspaceStem ++ key :=
  (String.append_assoc ..).symm

/-- The pattern of the table's changes takes the channel of a key. -/
def Covers (key : String) : Prop :=
  Text.Glob.accepts t.keyspacePattern (t.changeChannel key) = true

/-- Keys whose changes can be heard of are keys that can be listed. -/
theorem Covers.accepts_recordKey {t : TableName} {key : String} (h : t.Covers key) :
    Text.Glob.accepts (t.recordStem ++ "*") (t.recordKey key) = true := by
  have hplain : ControlBus.keyspaceStem.toList.all Text.Glob.isPlain = true := by decide
  have hpattern : t.keyspacePattern = ControlBus.keyspaceStem ++ (t.recordStem ++ "*") :=
    String.append_assoc ..
  rw [Covers, hpattern, changeChannel, keyspaceChannel, Text.Glob.accepts_append hplain] at h
  exact h

end TableName

end ControlBus
