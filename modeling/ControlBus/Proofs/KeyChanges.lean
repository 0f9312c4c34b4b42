-- What operations do under the keys of a store. Each is a row of changes, one kind of change under
-- one key at a time, and each change is followed by its word on the channel of that key. So the
-- words tell under which keys to look again, and whether there is still a record.
import ControlBus.Proofs.StoreRuns
import Mathlib.Logic.Function.Basic

namespace ControlBus

/-! ## Changes under a key -/

/-- What is stored under one key. -/
structure Stored where
  list : List String := []
  members : List String := []
  record : Record := []

/-- What a change of each kind makes of what is stored under its key. -/
inductive ChangeTag.Alters : ChangeTag → Stored → Stored → Prop where
  | hset {old : Stored} {fields : FieldList} (h : fields ≠ []) :
      Alters .hset old { old with record := old.record.merge fields }
  /-- Only the record is taken out. -/
  | taken {old : Stored} (h : old.record ≠ []) : Alters .del old { old with record := [] }
  /-- Whatever there is, is removed. -/
  | deleted {old : Stored} (h : old.list ≠ [] ∨ old.members ≠ [] ∨ old.record ≠ []) :
      Alters .del old {}
  | sadd {old : Stored} {m : String} (h : m ∉ old.members) :
      Alters .sadd old { old with members := old.members ++ [m] }
  | srem {old : Stored} {m : String} {left : List String} (h : old.members.Perm (m :: left)) :
      Alters .srem old { old with members := left }
  | spop {old : Stored} {drawn left : List String} (hdrawn : drawn ≠ [])
      (h : old.members.Perm (drawn ++ left)) : Alters .spop old { old with members := left }
  | rpush {old : Stored} {entries : List String} (h : entries ≠ []) :
      Alters .rpush old { old with list := old.list ++ entries }
  | lpop {old : Stored} {popped left : List String} (hpopped : popped ≠ [])
      (h : old.list = popped ++ left) : Alters .lpop old { old with list := left }

namespace ChangeTag

theorem word_injective : Function.Injective word := by
  intro a b h
  cases a <;> cases b <;> first | rfl | exact absurd h (by decide)

variable {old new : Stored}

theorem Alters.record_of_del (h : Alters .del old new) : new.record = [] := by
  cases h with
  | taken => rfl
  | deleted => rfl

theorem Alters.record_of_hset (h : Alters .hset old new) : new.record ≠ [] := by
  cases h with
  | hset hfields => exact fun hnone => hfields (Record.merge_eq_nil.mp hnone).2

end ChangeTag

/-- Changes one after the other, each under one key, with the words that tell of them. -/
inductive Unfolds (start : String → Stored) :
    List Announcement → (String → Stored) → Prop where
  | nothing : Unfolds start [] start
  | change {said : List Announcement} {now : String → Stored} {key : String} {tag : ChangeTag}
      {new : Stored} (h : Unfolds start said now) (halters : tag.Alters (now key) new) :
      Unfolds start (said ++ [⟨keyspaceChannel key, tag.word⟩]) (Function.update now key new)

namespace Unfolds

variable {start now later : String → Stored} {said more : List Announcement}

theorem trans (h : Unfolds start said now) (h' : Unfolds now more later) :
    Unfolds start (said ++ more) later := by
  induction h' with
  | nothing =>
    rw [List.append_nil]
    exact h
  | change _ halters ih =>
    rw [← List.append_assoc]
    exact ih.change halters

/-- Where something else is stored than before, there was a word. -/
theorem exists_word (h : Unfolds start said now) {key : String} (hdiff : now key ≠ start key) :
    ∃ a ∈ said, a.channel = keyspaceChannel key := by
  induction h with
  | nothing => exact absurd rfl hdiff
  | @change said now j tag new _ halters ih =>
    by_cases hj : key = j
    · exact ⟨_, List.mem_append_right _ (List.mem_singleton_self _), by rw [hj]⟩
    · rw [Function.update_of_ne hj] at hdiff
      obtain ⟨a, ha, hchannel⟩ := ih hdiff
      exact ⟨a, List.mem_append_left _ ha, hchannel⟩

/-- What the last word about a key tells is what was done last under it. -/
theorem of_lastWord (h : Unfolds start said now) {key : String} {tag : ChangeTag}
    (hlast : lastWord? said (keyspaceChannel key) = some tag.word) :
    ∃ old, tag.Alters old (now key) := by
  induction h with
  | nothing => cases hlast
  | @change said now j t new _ halters ih =>
    rw [lastWord_append] at hlast
    by_cases hj : key = j
    · subst hj
      rw [lastWord_single rfl, Option.some_or, Option.some_inj] at hlast
      obtain rfl : t = tag := ChangeTag.word_injective hlast
      rw [Function.update_self]
      exact ⟨now key, halters⟩
    · have helsewhere : keyspaceChannel j ≠ keyspaceChannel key :=
        fun hsame => hj (keyspaceChannel_inj.mp hsame).symm
      rw [lastWord_elsewhere helsewhere, Option.none_or] at hlast
      rw [Function.update_of_ne hj]
      exact ih hlast

end Unfolds

/-! ## Operations as rows of changes -/

namespace Keyspace

/-- What is stored under a key. -/
def under (s : Keyspace) (key : String) : Stored := ⟨s.list key, s.members key, s.record key⟩

/-- Contents in order, whose changes are announced. -/
structure Outspoken (s : Keyspace) : Prop where
  tidy : s.Tidy
  announcing : s.announcing = true

/-- From some contents to later ones by changes, each announced as it is made. The word `own` that
an operation sends of its own accord comes last, if it comes. -/
structure Feeds (own : Option Announcement) (s s' : Keyspace) : Prop where
  outspoken : s'.Outspoken
  feed : ∃ feed last, s'.outbox = s.outbox ++ (feed ++ last) ∧ (last = [] ∨ last = own.toList) ∧
    Unfolds s.under feed s'.under

variable {s s' s'' : Keyspace} {own : Option Announcement}

theorem under_withList (key : String) (entries : List String) :
    (s.withList key entries).under =
      Function.update s.under key { s.under key with list := entries } := by
  rw [Function.eq_update_iff]
  refine ⟨?_, fun j hj => ?_⟩
  · rw [under, list_withList, if_pos rfl]
    rfl
  · rw [under, list_withList, if_neg (Ne.symm hj)]
    rfl

theorem under_withSet (key : String) (x : RandomSet) :
    (s.withSet key x).under =
      Function.update s.under key { s.under key with members := x.members } := by
  rw [Function.eq_update_iff]
  refine ⟨?_, fun j hj => ?_⟩
  · rw [under, members_withSet, if_pos rfl]
    rfl
  · rw [under, members_withSet, if_neg (Ne.symm hj)]
    rfl

theorem under_withRecord (key : String) (fields : Record) :
    (s.withRecord key fields).under =
      Function.update s.under key { s.under key with record := fields } := by
  rw [Function.eq_update_iff]
  refine ⟨?_, fun j hj => ?_⟩
  · rw [under, record_withRecord, if_pos rfl]
    rfl
  · rw [under, record_withRecord, if_neg (Ne.symm hj)]
    rfl

theorem under_withoutRecord (key : String) :
    (s.withoutRecord key).under =
      Function.update s.under key { s.under key with record := [] } := by
  rw [Function.eq_update_iff]
  refine ⟨?_, fun j hj => ?_⟩
  · rw [under, record_withoutRecord, if_pos rfl]
    rfl
  · rw [under, record_withoutRecord, if_neg (Ne.symm hj)]
    rfl

theorem under_without (key : String) :
    (((s.withoutList key).withoutSet key).withoutRecord key).under =
      Function.update s.under key {} := by
  have hsplit : ∀ j, (((s.withoutList key).withoutSet key).withoutRecord key).under j =
      ⟨(s.withoutList key).list j, (s.withoutSet key).members j,
        (s.withoutRecord key).record j⟩ := fun _ => rfl
  rw [Function.eq_update_iff]
  refine ⟨?_, fun j hj => ?_⟩
  · rw [hsplit, list_withoutList, members_withoutSet, record_withoutRecord]
    simp only [if_true]
  · rw [hsplit, list_withoutList, members_withoutSet, record_withoutRecord]
    simp only [if_neg (Ne.symm hj)]
    rfl

/-- There is a record exactly where fields can be read. -/
theorem Tidy.has_record (h : s.Tidy) (key : String) :
    Assoc.has s.records key = true ↔ s.record key ≠ [] := by
  have hrecords := h.records key
  rw [Assoc.has, record]
  cases hget : Assoc.get? s.records key with
  | none => simp
  | some fields =>
    rw [hget] at hrecords
    simpa using hrecords

namespace Feeds

theorem refl (h : s.Outspoken) (own : Option Announcement) : Feeds own s s :=
  ⟨h, [], [], (List.append_nil _).symm, Or.inl rfl, .nothing⟩

/-- Operations without a word of their own may come before any other. -/
theorem trans (h : Feeds none s s') (h' : Feeds own s' s'') : Feeds own s s'' := by
  obtain ⟨feed, last, hfeed, hlast, hunfolds⟩ := h.feed
  obtain ⟨feed', last', hfeed', hlast', hunfolds'⟩ := h'.feed
  -- Without a word of its own the first operation says nothing but its changes.
  obtain rfl : last = [] := hlast.elim id id
  refine ⟨h'.outspoken, feed ++ feed', last', ?_, hlast', hunfolds.trans hunfolds'⟩
  rw [hfeed', hfeed, List.append_nil]
  simp only [List.append_assoc]

/-- A change under one key, followed by its word. -/
theorem touched (h : s.Outspoken) (next : Keyspace) (ht : next.Tidy)
    (hannouncing : next.announcing = s.announcing) (houtbox : next.outbox = s.outbox)
    {key : String} {tag : ChangeTag} {new : Stored}
    (hunder : next.under = Function.update s.under key new)
    (halters : tag.Alters (s.under key) new) : Feeds none s (next.touch key tag) := by
  have htouch : next.touch key tag = next.announce (keyspaceChannel key) tag.word := by
    rw [touch, if_pos (hannouncing.trans h.announcing)]
  refine ⟨⟨ht.touch key tag, ?_⟩, [⟨keyspaceChannel key, tag.word⟩], [], ?_, Or.inl rfl, ?_⟩
  · rw [htouch]
    exact hannouncing.trans h.announcing
  · rw [htouch, List.append_nil, announce, houtbox]
  · rw [htouch]
    change Unfolds s.under [⟨keyspaceChannel key, tag.word⟩] next.under
    rw [hunder]
    exact Unfolds.nothing.change halters

/-- The word that an operation sends of its own accord. -/
theorem announce (h : s.Outspoken) (channel payload : String) :
    Feeds (some ⟨channel, payload⟩) s (s.announce channel payload) :=
  ⟨⟨h.tidy.owing _, h.announcing⟩, [], [⟨channel, payload⟩], rfl, Or.inr rfl, .nothing⟩

theorem pushBack (h : s.Outspoken) (key : String) (entries : List String) :
    Feeds none s (s.pushBack key entries).2 := by
  unfold Keyspace.pushBack
  split
  · exact refl h none
  · rename_i hentries
    exact touched h _ (h.tidy.withList key _) rfl rfl (under_withList key _)
      (.rpush (by simpa using hentries))

theorem popFront (h : s.Outspoken) (key : String) (max : Nat) :
    Feeds none s (s.popFront key max).2 := by
  unfold Keyspace.popFront
  dsimp only
  split
  · exact refl h none
  · rename_i hpopped
    have hpopped : (s.list key).take max ≠ [] := by
      intro hnone
      rw [hnone] at hpopped
      exact hpopped rfl
    exact touched h _ (h.tidy.withList key _) rfl rfl (under_withList key _)
      (.lpop hpopped (List.take_append_drop max _).symm)

theorem addMember (h : s.Outspoken) (key m : String) :
    Feeds none s (s.addMember key m).2 := by
  have hnew := RandomSet.insert_fst (h.tidy.sets key) m
  have hmembers := RandomSet.members_insert (h.tidy.sets key) m
  have hvalid := RandomSet.valid_insert (h.tidy.sets key) m
  unfold Keyspace.addMember
  split
  · rename_i x heq
    rw [heq] at hnew hmembers hvalid
    have hnot : m ∉ (s.set key).members := by simpa using hnew
    rw [if_neg hnot] at hmembers
    refine touched h _ (h.tidy.withSet key hvalid) rfl rfl (under_withSet key x) ?_
    rw [hmembers]
    exact .sadd hnot
  · exact refl h none

theorem addMembers (h : s.Outspoken) (key : String) (members : List String) :
    Feeds none s (s.addMembers key members).2 := by
  induction members generalizing s with
  | nil => exact refl h none
  | cons m rest ih =>
    have hone := addMember h key m
    exact hone.trans (ih hone.outspoken)

theorem removeMember (h : s.Outspoken) (key m : String) :
    Feeds none s (s.removeMember key m).2 := by
  have hthere := RandomSet.remove_fst (h.tidy.sets key) m
  have hperm := RandomSet.perm_remove (h.tidy.sets key) (m := m)
  have hvalid := RandomSet.valid_remove (h.tidy.sets key) m
  unfold Keyspace.removeMember
  split
  · rename_i x heq
    rw [heq] at hthere hperm hvalid
    have hin : m ∈ (s.set key).members := by simpa using hthere
    exact touched h _ (h.tidy.withSet key hvalid) rfl rfl (under_withSet key x) (.srem (hperm hin))
  · exact refl h none

theorem popMembers (h : s.Outspoken) (key : String) (max : Nat) :
    Feeds none s (s.popMembers key max).2 := by
  obtain ⟨hvalid, hperm, -⟩ :=
    RandomSet.drawMany_spec (min max (s.setSize key)) s.draws (h.tidy.sets key)
  have hdrawing : ∀ draws, ({ s with draws } : Keyspace).Tidy :=
    fun _ => ⟨h.tidy.sets, h.tidy.lists, h.tidy.members, h.tidy.records⟩
  unfold Keyspace.popMembers
  dsimp only
  split
  · exact refl h none
  · rename_i hdrawn
    exact touched h _ ((hdrawing _).withSet key hvalid) rfl rfl
      (under_withSet (s := { s with draws := _ }) key _) (.spop (by simpa using hdrawn) hperm)

theorem mergeFields (h : s.Outspoken) (key : String) (fields : FieldList) :
    Feeds none s (s.mergeFields key fields) := by
  unfold Keyspace.mergeFields
  split
  · exact refl h none
  · rename_i hfields
    have hfields : fields ≠ [] := by simpa using hfields
    have hmerged : (s.record key).merge fields ≠ [] :=
      fun hnone => hfields (Record.merge_eq_nil.mp hnone).2
    exact touched h (s.withRecord key _) (h.tidy.withRecord key hmerged) rfl rfl
      (under_withRecord key _) (.hset hfields)

theorem takeRecord (h : s.Outspoken) (key : String) :
    Feeds none s (s.takeRecord key).2 := by
  unfold Keyspace.takeRecord
  split
  · rename_i fields heq
    have hrecord : s.record key ≠ [] := by
      rw [Keyspace.record, heq]
      intro hnone
      exact h.tidy.records key (heq.trans (congrArg some hnone))
    exact touched h (s.withoutRecord key) (h.tidy.withoutRecord key) rfl rfl
      (under_withoutRecord key) (.taken hrecord)
  · exact refl h none

theorem delete (h : s.Outspoken) (key : String) :
    Feeds none s (s.delete key).2 := by
  unfold Keyspace.delete
  split
  · rename_i hholds
    exact touched h (((s.withoutList key).withoutSet key).withoutRecord key)
      (((h.tidy.withoutList key).withoutSet key).withoutRecord key) rfl rfl (under_without key)
      (.deleted ((h.tidy.holds_iff key).mp hholds))
  · exact refl h none

/-! ## Scripts -/

theorem honourDelete (h : s.Outspoken) (l : Layout) (key : String) :
    Feeds none s (s.honourDelete l key) := by
  have hremove := removeMember h l.deleteSet key
  unfold Keyspace.honourDelete
  split
  · rename_i marked heq
    rw [heq] at hremove
    exact hremove.trans (takeRecord hremove.outspoken (l.recordKey key))
  · rename_i unmarked heq
    rw [heq] at hremove
    exact hremove

theorem materialize (h : s.Outspoken) (l : Layout) (key : String) :
    Feeds none s (s.materialize l key).2 := by
  have hhonour := honourDelete h l key
  have htake := takeRecord hhonour.outspoken (l.stagingKey key)
  exact hhonour.trans
    (htake.trans (mergeFields htake.outspoken (l.recordKey key) _))

theorem materializeAll (h : s.Outspoken) (l : Layout) (keys : List String) :
    Feeds none s (s.materializeAll l keys).2 := by
  induction keys generalizing s with
  | nil => exact refl h none
  | cons key rest ih =>
    have hone := materialize h l key
    exact hone.trans (ih hone.outspoken)

theorem dropStaged (h : s.Outspoken) (l : Layout) (keys : List String) :
    Feeds none s (s.dropStaged l keys) := by
  induction keys generalizing s with
  | nil => exact refl h none
  | cons key rest ih =>
    have hone := takeRecord h (l.stagingKey key)
    exact hone.trans (ih hone.outspoken)

theorem markPending (h : s.Outspoken) (l : Layout) (key token : String) :
    Feeds (some ⟨l.channel, token⟩) s (s.markPending l key token).2 := by
  have hadd := addMember h l.pendingSet key
  unfold Keyspace.markPending
  split
  · rename_i pending heq
    rw [heq] at hadd
    exact hadd.trans (announce hadd.outspoken l.channel token)
  · rename_i pending heq
    rw [heq] at hadd
    exact hadd.trans (refl hadd.outspoken _)

end Feeds

end Keyspace

/-- The word that a script may send of its own accord, not to announce a change. -/
def Script.word? : Script → Option Announcement
  | .pushAndPublish _ _ channel payload => some ⟨channel, payload⟩
  | .stageWrite l _ _ token => some ⟨l.channel, token⟩
  | .stageDelete l _ token => some ⟨l.channel, token⟩
  | .popFront .. => none
  | .coalescedPop .. => none
  | .coalescedClear .. => none

/-- The word that a command may send of its own accord. -/
def Command.word? : Command → Option Announcement
  | .eval script => script.word?
  | _ => none

namespace Keyspace.Feeds

variable {s s' : Keyspace}

theorem run (h : s.Outspoken) (script : Script) :
    Feeds script.word? s (s.run script).2 := by
  cases script with
  | pushAndPublish list entries channel payload =>
    have hpush := pushBack h list entries
    exact hpush.trans (announce hpush.outspoken channel payload)
  | popFront list max => exact popFront h list max
  | stageWrite l key fields token =>
    have hmerge := mergeFields h (l.stagingKey key) fields
    exact hmerge.trans (markPending hmerge.outspoken l key token)
  | stageDelete l key token =>
    have htake := takeRecord h (l.stagingKey key)
    have hadd := htake.trans (addMember htake.outspoken l.deleteSet key)
    exact hadd.trans (markPending hadd.outspoken l key token)
  | coalescedPop l max =>
    have hpop := popMembers h l.pendingSet max
    exact hpop.trans (materializeAll hpop.outspoken l _)
  | coalescedClear l =>
    have hpop := popMembers h l.pendingSet (s.setSize l.pendingSet)
    have hdrop := hpop.trans (dropStaged hpop.outspoken l
      (s.popMembers l.pendingSet (s.setSize l.pendingSet)).1)
    exact hdrop.trans (delete hdrop.outspoken l.deleteSet)

/-- Every command is a row of changes, each with its word. -/
theorem change (h : s.Outspoken) (c : Command) :
    Feeds c.word? s (c.change s).2 := by
  cases c with
  | pushBack list entries => exact pushBack h list entries
  | listLength list => exact refl h none
  | addMembers set members => exact addMembers h set members
  | setSize set => exact refl h none
  | record key => exact refl h none
  | mergeFields key fields => exact mergeFields h key fields
  | delete key => exact delete h key
  | eval script => exact run h script

/-- The words tell under which keys to look again, and the last of them whether a record is left,
unless the operation's own word is on the channel of the key. -/
theorem tells {own : Option Announcement} {said : List Announcement} {key : String}
    (h : Feeds own s s') (hsaid : s'.outbox = s.outbox ++ said)
    (hown : ∀ a, own = some a → a.channel ≠ keyspaceChannel key) :
    (s'.under key ≠ s.under key → ∃ a ∈ said, a.channel = keyspaceChannel key) ∧
      (lastWord? said (keyspaceChannel key) = some "del" →
        Assoc.has s'.records key = false) ∧
      (lastWord? said (keyspaceChannel key) = some "hset" →
        Assoc.has s'.records key = true) := by
  obtain ⟨feed, last, houtbox, hlast, hunfolds⟩ := h.feed
  obtain rfl : said = feed ++ last := List.append_cancel_left (hsaid.symm.trans houtbox)
  -- The operation's own word is about something else, so a change has the last word on the key.
  have hsilent : lastWord? last (keyspaceChannel key) = none := by
    rcases hlast with rfl | rfl
    · rfl
    · cases own with
      | none => rfl
      | some a => exact lastWord_elsewhere (hown a rfl)
  have hhas := h.outspoken.tidy.has_record key
  rw [lastWord_append, hsilent, Option.none_or]
  refine ⟨fun hdiff => ?_, fun (hword : _ = some ChangeTag.del.word) => ?_,
    fun (hword : _ = some ChangeTag.hset.word) => ?_⟩
  · obtain ⟨a, ha, hchannel⟩ := hunfolds.exists_word hdiff
    exact ⟨a, List.mem_append_left _ ha, hchannel⟩
  · obtain ⟨old, halters⟩ := hunfolds.of_lastWord hword
    rw [Bool.eq_false_iff]
    exact fun hthere => hhas.mp hthere halters.record_of_del
  · obtain ⟨old, halters⟩ := hunfolds.of_lastWord hword
    exact hhas.mpr halters.record_of_hset

end Keyspace.Feeds

end ControlBus
