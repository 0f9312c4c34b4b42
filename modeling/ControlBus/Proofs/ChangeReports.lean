-- What a store announces of its records. A record changes only with a word on the channel of its
-- key, and when the last word tells of a removal the record is gone. So whoever hears all words
-- knows which records to read again.
import ControlBus.Channel.Change
import ControlBus.Proofs.Commands

namespace ControlBus

/-! ## The last word on a channel -/

/-- The newest payload among announcements on a channel. -/
def lastWord? (said : List Announcement) (channel : String) : Option String :=
  (said.filter (·.channel = channel)).getLast?.map (·.payload)

/-- What was said on a channel since a record was `old` accounts for its being `new` now. -/
structure Tells (said : List Announcement) (channel : String) (old new : Record) : Prop where
  silent : lastWord? said channel = none → new = old
  gone : ∀ word, lastWord? said channel = some word → isRemoval word = true → new = []

variable {said more : List Announcement} {a : Announcement} {channel : String}
  {old between new : Record}

theorem lastWord_append (said more : List Announcement) (channel : String) :
    lastWord? (said ++ more) channel = (lastWord? more channel).or (lastWord? said channel) := by
  unfold lastWord?
  rw [List.filter_append, List.getLast?_append]
  cases (more.filter (·.channel = channel)).getLast? <;> rfl

theorem lastWord_single (h : a.channel = channel) : lastWord? [a] channel = some a.payload := by
  simp [lastWord?, h]

theorem lastWord_elsewhere (h : a.channel ≠ channel) : lastWord? [a] channel = none := by
  simp [lastWord?, h]

/-- Announcements on other channels may be left out. -/
theorem lastWord_filter {p : Announcement → Bool}
    (h : ∀ a ∈ said, a.channel = channel → p a = true) :
    lastWord? (said.filter p) channel = lastWord? said channel := by
  unfold lastWord?
  rw [List.filter_filter]
  congr 2
  apply List.filter_congr
  intro a ha
  by_cases hc : a.channel = channel
  · simp [hc, h a ha hc]
  · simp [hc]

namespace Tells

theorem nothing (channel : String) (r : Record) : Tells [] channel r r where
  silent _ := rfl
  gone _ h := by cases h

theorem one (h : a.channel = channel) (hgone : isRemoval a.payload = true → new = []) :
    Tells [a] channel old new where
  silent hnone := by
    rw [lastWord_single h] at hnone
    cases hnone
  gone word hword := by
    rw [lastWord_single h] at hword
    cases hword
    exact hgone

theorem elsewhere (h : a.channel ≠ channel) (r : Record) : Tells [a] channel r r where
  silent _ := rfl
  gone word hword := by
    rw [lastWord_elsewhere h] at hword
    cases hword

theorem append (h : Tells said channel old between) (h' : Tells more channel between new) :
    Tells (said ++ more) channel old new := by
  cases hmore : lastWord? more channel with
  | none =>
    have hnew : new = between := h'.silent hmore
    have hlast : lastWord? (said ++ more) channel = lastWord? said channel := by
      rw [lastWord_append, hmore]
      rfl
    subst hnew
    exact ⟨hlast ▸ h.silent, hlast ▸ h.gone⟩
  | some word =>
    have hlast : lastWord? (said ++ more) channel = some word := by
      rw [lastWord_append, hmore]
      rfl
    refine ⟨?_, ?_⟩
    · rw [hlast]
      intro hnone
      cases hnone
    · rw [hlast, ← hmore]
      exact h'.gone

/-- What is said on other channels may be left out. -/
theorem filter (h : Tells said channel old new) {p : Announcement → Bool}
    (hp : ∀ a ∈ said, a.channel = channel → p a = true) :
    Tells (said.filter p) channel old new := by
  refine ⟨?_, ?_⟩
  · rw [lastWord_filter hp]
    exact h.silent
  · rw [lastWord_filter hp]
    exact h.gone

/-- Whoever reads the record now has missed nothing. -/
theorem reread (h : Tells said channel old new) : Tells said channel new new :=
  ⟨fun _ => rfl, h.gone⟩

/-- What is left once the oldest announcement has been looked at and the record read. -/
theorem tail_reread (h : Tells (a :: said) channel old new) : Tells said channel new new where
  silent _ := rfl
  gone word hword := by
    apply h.gone word
    change lastWord? ([a] ++ said) channel = some word
    rw [lastWord_append, hword]
    rfl

theorem lastWord_cons_of_silent (hsilent : lastWord? said channel = none) :
    lastWord? (a :: said) channel = lastWord? [a] channel := by
  change lastWord? ([a] ++ said) channel = _
  rw [lastWord_append, hsilent]
  rfl

/-- What is left once the oldest announcement has told that the record was removed. -/
theorem tail_removed (h : Tells (a :: said) channel old new) (ha : a.channel = channel)
    (hgone : isRemoval a.payload = true) : Tells said channel [] new where
  silent hsilent := by
    apply h.gone a.payload _ hgone
    rw [lastWord_cons_of_silent hsilent, lastWord_single ha]
  gone := h.tail_reread.gone

/-- The oldest announcement was about something else. -/
theorem tail_elsewhere (h : Tells (a :: said) channel old new) (ha : a.channel ≠ channel) :
    Tells said channel old new where
  silent hsilent := by
    apply h.silent
    rw [lastWord_cons_of_silent hsilent, lastWord_elsewhere ha]
  gone := h.tail_reread.gone

end Tells

/-! ## Changes of the contents -/

theorem keyspaceChannel_inj {j k : String} : keyspaceChannel j = keyspaceChannel k ↔ j = k :=
  String.append_right_inj keyspaceStem

theorem isRemoval_word (tag : ChangeTag) : isRemoval tag.word = true ↔ tag = .del := by
  cases tag <;> decide

namespace Keyspace

/-- Between two contents, announcements account for every record. Only the channels `addressed`
may carry something else. -/
structure Reports (addressed : List String) (s s' : Keyspace) : Prop where
  announcing : s'.announcing = true
  said : ∃ more, s'.outbox = s.outbox ++ more ∧
    ∀ key, keyspaceChannel key ∉ addressed →
      Tells more (keyspaceChannel key) (s.record key) (s'.record key)

variable {s s' s'' : Keyspace} {addressed further : List String}

namespace Reports

theorem refl (h : s.announcing = true) (addressed : List String) : Reports addressed s s :=
  ⟨h, [], (List.append_nil _).symm, fun key _ => Tells.nothing _ (s.record key)⟩

theorem trans (h : Reports addressed s s') (h' : Reports further s' s'') :
    Reports (addressed ++ further) s s'' := by
  obtain ⟨said, hsaid, htells⟩ := h.said
  obtain ⟨more, hmore, htells'⟩ := h'.said
  refine ⟨h'.announcing, said ++ more, ?_, ?_⟩
  · rw [hmore, hsaid, List.append_assoc]
  · intro key hkey
    rw [List.mem_append, not_or] at hkey
    exact (htells key hkey.1).append (htells' key hkey.2)

/-- A change of one key, followed by its announcement. -/
theorem touched (h : s.announcing = true) (s' : Keyspace) (ha : s'.announcing = s.announcing)
    (ho : s'.outbox = s.outbox) (key : String) (tag : ChangeTag)
    (hr : ∀ j, key ≠ j → s'.record j = s.record j) (hgone : tag = .del → s'.record key = []) :
    Reports [] s (s'.touch key tag) := by
  have htouch : s'.touch key tag = s'.announce (keyspaceChannel key) tag.word := by
    rw [touch, if_pos (ha.trans h)]
  rw [htouch]
  refine ⟨ha.trans h, [⟨keyspaceChannel key, tag.word⟩], ?_, ?_⟩
  · rw [announce, ho]
  · intro j _
    rw [(announce_frame _ _ j).2.2]
    by_cases hj : key = j
    · subst hj
      apply Tells.one rfl
      intro hremoval
      exact hgone ((isRemoval_word tag).mp hremoval)
    · rw [hr j hj]
      apply Tells.elsewhere
      intro hsame
      exact hj (keyspaceChannel_inj.mp hsame)

theorem announce (h : s.announcing = true) (channel payload : String) :
    Reports [channel] s (s.announce channel payload) := by
  refine ⟨h, [⟨channel, payload⟩], rfl, ?_⟩
  intro key hkey
  apply Tells.elsewhere
  intro hsame
  exact hkey (List.mem_singleton.mpr hsame.symm)

theorem pushBack (h : s.announcing = true) (key : String) (entries : List String) :
    Reports [] s (s.pushBack key entries).2 := by
  unfold Keyspace.pushBack
  split
  · exact refl h []
  · exact touched h (s.withList key _) rfl rfl key .rpush (fun _ _ => rfl) (by simp)

theorem popFront (h : s.announcing = true) (key : String) (max : Nat) :
    Reports [] s (s.popFront key max).2 := by
  unfold Keyspace.popFront
  dsimp only
  split
  · exact refl h []
  · exact touched h (s.withList key _) rfl rfl key .lpop (fun _ _ => rfl) (by simp)

theorem addMember (h : s.announcing = true) (key member : String) :
    Reports [] s (s.addMember key member).2 := by
  unfold Keyspace.addMember
  split
  · exact touched h (s.withSet key _) rfl rfl key .sadd (fun _ _ => rfl) (by simp)
  · exact refl h []

theorem addMembers (h : s.announcing = true) (key : String) (members : List String) :
    Reports [] s (s.addMembers key members).2 := by
  induction members generalizing s with
  | nil => exact refl h []
  | cons member rest ih =>
    have hone := addMember h key member
    exact hone.trans (ih hone.announcing)

theorem removeMember (h : s.announcing = true) (key member : String) :
    Reports [] s (s.removeMember key member).2 := by
  unfold Keyspace.removeMember
  split
  · exact touched h (s.withSet key _) rfl rfl key .srem (fun _ _ => rfl) (by simp)
  · exact refl h []

theorem popMembers (h : s.announcing = true) (key : String) (max : Nat) :
    Reports [] s (s.popMembers key max).2 := by
  unfold Keyspace.popMembers
  dsimp only
  split
  · exact refl h []
  · exact touched h (withSet key _ { s with draws := _ }) rfl rfl key .spop (fun _ _ => rfl)
      (by simp)

theorem mergeFields (h : s.announcing = true) (key : String) (fields : FieldList) :
    Reports [] s (s.mergeFields key fields) := by
  unfold Keyspace.mergeFields
  split
  · exact refl h []
  · refine touched h _ ?_ ?_ key .hset ?_ (by simp)
    · rfl
    · rfl
    · intro j hj
      simp [record, Assoc.get?_put_of_ne _ _ hj]

theorem takeRecord (h : s.announcing = true) (key : String) :
    Reports [] s (s.takeRecord key).2 := by
  unfold Keyspace.takeRecord
  split
  · refine touched h _ ?_ ?_ key .del ?_ ?_
    · rfl
    · rfl
    · intro j hj
      simp [record, Assoc.get?_erase_of_ne _ hj]
    · intro _
      simp [record, Assoc.get?_erase_self]
  · exact refl h []

theorem delete (h : s.announcing = true) (key : String) : Reports [] s (s.delete key).2 := by
  unfold Keyspace.delete
  split
  · refine touched h _ ?_ ?_ key .del ?_ ?_
    · rfl
    · rfl
    · intro j hj
      simp [record, Assoc.get?_erase_of_ne _ hj]
    · intro _
      simp [record, Assoc.get?_erase_self]
  · exact refl h []

/-! ## Scripts -/

theorem honourDelete (h : s.announcing = true) (l : Layout) (key : String) :
    Reports [] s (s.honourDelete l key) := by
  have hremove := removeMember h l.deleteSet key
  unfold Keyspace.honourDelete
  split
  · rename_i marked heq
    rw [heq] at hremove
    exact hremove.trans (takeRecord hremove.announcing (l.recordKey key))
  · rename_i unmarked heq
    rw [heq] at hremove
    exact hremove

theorem materialize (h : s.announcing = true) (l : Layout) (key : String) :
    Reports [] s (s.materialize l key).2 := by
  have hhonour := honourDelete h l key
  have htake := takeRecord hhonour.announcing (l.stagingKey key)
  exact hhonour.trans (htake.trans (mergeFields htake.announcing (l.recordKey key) _))

theorem materializeAll (h : s.announcing = true) (l : Layout) (keys : List String) :
    Reports [] s (s.materializeAll l keys).2 := by
  induction keys generalizing s with
  | nil => exact refl h []
  | cons key rest ih =>
    have hone := materialize h l key
    exact hone.trans (ih hone.announcing)

theorem dropStaged (h : s.announcing = true) (l : Layout) (keys : List String) :
    Reports [] s (s.dropStaged l keys) := by
  induction keys generalizing s with
  | nil => exact refl h []
  | cons key rest ih =>
    have hone := takeRecord h (l.stagingKey key)
    exact hone.trans (ih hone.announcing)

end Reports

end Keyspace

/-- The channels on which a script has published of its own accord, as its output tells: a staged
change sends its token exactly if it counts a key that was not pending before. -/
def Script.addressed : Script → Output → List String
  | .pushAndPublish _ _ channel _, _ => [channel]
  | .stageWrite l _ _ _, .count 1 => [l.channel]
  | .stageDelete l _ _, .count 1 => [l.channel]
  | _, _ => []

/-- The channels on which a command has published of its own accord. -/
def Command.addressed : Command → Reply → List String
  | .eval script, .output o => script.addressed o
  | _, _ => []

namespace Keyspace.Reports

variable {s s' : Keyspace}

theorem markPending (h : s.announcing = true) (l : Layout) (key token : String)
    (addressed : Output → List String) (ha : addressed (.count 1) = [l.channel]) :
    Reports (addressed (s.markPending l key token).1) s (s.markPending l key token).2 := by
  have hadd := addMember h l.pendingSet key
  unfold Keyspace.markPending
  split
  · rename_i pending heq
    rw [heq] at hadd
    dsimp only
    rw [ha]
    exact hadd.trans (announce hadd.announcing l.channel token)
  · rename_i pending heq
    rw [heq] at hadd
    exact hadd.trans (refl hadd.announcing _)

theorem run (h : s.announcing = true) (script : Script) :
    Reports (script.addressed (s.run script).1) s (s.run script).2 := by
  cases script with
  | pushAndPublish list entries channel payload =>
    have hpush := pushBack h list entries
    exact hpush.trans (announce hpush.announcing channel payload)
  | popFront list max => exact popFront h list max
  | stageWrite l key fields token =>
    have hmerge := mergeFields h (l.stagingKey key) fields
    exact hmerge.trans (markPending hmerge.announcing l key token
      (Script.addressed (.stageWrite l key fields token)) rfl)
  | stageDelete l key token =>
    have htake := takeRecord h (l.stagingKey key)
    have hadd := htake.trans (addMember htake.announcing l.deleteSet key)
    exact hadd.trans (markPending hadd.announcing l key token
      (Script.addressed (.stageDelete l key token)) rfl)
  | coalescedPop l max =>
    have hpop := popMembers h l.pendingSet max
    exact hpop.trans (materializeAll hpop.announcing l _)
  | coalescedClear l =>
    have hpop := popMembers h l.pendingSet (s.setSize l.pendingSet)
    have hdrop := hpop.trans (dropStaged hpop.announcing l
      (s.popMembers l.pendingSet (s.setSize l.pendingSet)).1)
    exact hdrop.trans (delete hdrop.announcing l.deleteSet)

/-- Every change that a command makes of a record is announced. -/
theorem change (h : s.announcing = true) (c : Command) :
    Reports (c.addressed (c.change s).1) s (c.change s).2 := by
  cases c with
  | pushBack list entries => exact pushBack h list entries
  | listLength list => exact refl h []
  | addMembers set members => exact addMembers h set members
  | setSize set => exact refl h []
  | record key => exact refl h []
  | mergeFields key fields => exact mergeFields h key fields
  | delete key => exact delete h key
  | eval script => exact run h script

end Keyspace.Reports

end ControlBus
