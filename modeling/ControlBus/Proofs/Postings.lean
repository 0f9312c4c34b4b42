-- What the operations of a store post on the event channel of the database: the texts of envelopes,
-- one for each announcement that they issue, and the commit hands over just these.
import ControlBus.Proofs.AllOrNothing
import ControlBus.Proofs.VouchedRows
import Mathlib.Algebra.GroupWithZero.Nat

namespace ControlBus

/-! ## The size of an envelope -/

namespace Json

/-- How many bytes a character takes in a string. Seven characters have a short escape, the other
control characters are written by their number, and the rest as they are. -/
def escapedCharSize (c : Char) : Nat :=
  if c ∈ ['"', '\\', '\x08', '\x0c', '\n', '\r', '\t'] then 2
  else if c.toNat < 32 then 6
  else c.utf8Size

theorem utf8ByteSize_ofList (chars : List Char) :
    (String.ofList chars).utf8ByteSize = (chars.map Char.utf8Size).sum := by
  induction chars with
  | nil => rfl
  | cons c rest ih =>
    rw [← List.singleton_append, String.ofList_append, String.utf8ByteSize_append, ih]
    simp

theorem utf8Size_digitChar {n : Nat} (h : n < 16) : (Nat.digitChar n).utf8Size = 1 := by
  have hall : ∀ n : Fin 16, (Nat.digitChar n).utf8Size = 1 := by decide
  exact hall ⟨n, h⟩

theorem size_writtenChar (c : Char) :
    ((writtenChar c).map Char.utf8Size).sum = escapedCharSize c := by
  unfold writtenChar escapedCharSize
  by_cases hshort : c ∈ ['"', '\\', '\x08', '\x0c', '\n', '\r', '\t']
  · rw [if_pos hshort]
    simp only [List.mem_cons, List.not_mem_nil, or_false] at hshort
    rcases hshort with rfl | rfl | rfl | rfl | rfl | rfl | rfl <;> rfl
  · rw [if_neg hshort]
    simp only [List.mem_cons, List.not_mem_nil, or_false, not_or] at hshort
    obtain ⟨hquote, hslash, hback, hfeed, hline, hreturn, htab⟩ := hshort
    simp only [hquote, hslash, hback, hfeed, hline, hreturn, htab, if_false]
    split
    · rename_i hcontrol
      have hhigh := utf8Size_digitChar (n := c.toNat / 16) (by omega)
      have hlow := utf8Size_digitChar (n := c.toNat % 16) (by omega)
      simp only [List.map_cons, List.map_nil, hhigh, hlow]
      rfl
    · simp

/-- The size of an escaped text is counted character by character. -/
theorem escapedSize_eq_sum (text : String) :
    escapedSize text = (text.toList.map escapedCharSize).sum := by
  unfold escapedSize
  rw [utf8ByteSize_ofList]
  induction text.toList with
  | nil => rfl
  | cons c rest ih => simp [ih, size_writtenChar]

end Json

namespace Envelope

/-- The bytes of an envelope, the escapes in it counted. -/
def size (channel payload : String) : Nat :=
  ((channel.toList ++ payload.toList).map Json.escapedCharSize).sum + 27

theorem utf8ByteSize_text (channel payload : String) :
    (text ⟨channel, payload⟩).utf8ByteSize = size channel payload := by
  unfold size
  rw [size_text, Json.escapedSize_eq_sum, Json.escapedSize_eq_sum, List.map_append,
    List.sum_append]

theorem encode_eq (channel payload : String) :
    encode channel payload =
      if size channel payload ≤ maxBytes then .ok (text ⟨channel, payload⟩)
      else .error (.payloadTooLarge (size channel payload) maxBytes) := by
  unfold encode
  simp only [utf8ByteSize_text]
  by_cases hsize : size channel payload ≤ maxBytes
  · rw [if_neg (by omega), if_pos hsize]
  · rw [if_pos (by omega), if_neg hsize]

end Envelope

namespace Announcement

/-- The text in which an announcement crosses the database. -/
def text (a : Announcement) : String := a.envelope.text

/-- The announcement that a text brings, if it is the text of an envelope. -/
def ofText? (text : String) : Option Announcement :=
  (Envelope.decode text).map fun e => ⟨e.channel, e.payload⟩

theorem ofText?_text (a : Announcement) : ofText? a.text = some a := by
  simp only [ofText?, text, Envelope.decode_envelope, Option.map_some]
  rfl

theorem text_inj {a b : Announcement} (h : a.text = b.text) : a = b := by
  have hsame := congrArg ofText? h
  rw [ofText?_text, ofText?_text] at hsame
  exact Option.some.inj hsame

theorem encode_of_fits {a : Announcement} (h : a.Fits) :
    Envelope.encode a.channel a.payload = .ok a.text := by
  have hsize : Envelope.size a.channel a.payload ≤ Envelope.maxBytes := by
    rw [← Envelope.utf8ByteSize_text]
    exact h
  rw [Envelope.encode_eq, if_pos hsize]
  rfl

end Announcement

/-! ## What is posted on the event channel -/

/-- The text that a statement posts on the event channel, if it is one that does. -/
def Sent.posted? (st : Sent) : Option String :=
  match st.bound with
  | [channel, text] =>
    if st.sql = (Statement.notify text).sql ∧ channel = eventChannel then some text else none
  | _ => none

theorem Statement.posted_of_quiet {α : Type} {st : Statement α} (h : st.notifies = false) :
    (Sent.mk st.sql st.bound).posted? = none := by
  unfold Sent.posted?
  split
  · rename_i channel text hb
    rw [if_neg]
    rintro ⟨hsql, -⟩
    refine st.sql_ne_notify h ?_ text hsql
    change st.bound = _ at hb
    rw [hb]
    rfl
  · rfl

theorem Statement.posted_notify (text : String) :
    (Sent.mk (notify text).sql (notify text).bound).posted? = some text := by
  simp [Sent.posted?, bound]

namespace RelationalStore

variable {α β : Type} {s s₁ s' : RelationalStore} {said more : List Announcement}

/-- The texts that a store has posted on the event channel since an earlier state, oldest
first. -/
def postedSince (s s' : RelationalStore) : List String :=
  (s'.log.take (s'.log.length - s.log.length)).reverse.filterMap Sent.posted?

/-- From one state to the other the statements sent have announced just this. -/
structure Posts (said : List Announcement) (s s' : RelationalStore) : Prop where
  log : ∃ sent, s'.log = sent ++ s.log ∧
    sent.reverse.filterMap Sent.posted? = said.map Announcement.text ∧
    sent.reverse.filterMap Sent.announcement? = said
  fits : ∀ a ∈ said, a.Fits

namespace Posts

theorem none (s : RelationalStore) : Posts [] s s := ⟨⟨[], rfl, rfl, rfl⟩, by simp⟩

theorem trans (h : Posts said s s₁) (h' : Posts more s₁ s') : Posts (said ++ more) s s' := by
  obtain ⟨⟨sent, hlog, hsaid, hissued⟩, hfits⟩ := h
  obtain ⟨⟨sent', hlog', hmore, hissued'⟩, hfits'⟩ := h'
  refine ⟨⟨sent' ++ sent, ?_, ?_, ?_⟩, ?_⟩
  · rw [hlog', hlog, List.append_assoc]
  · rw [List.reverse_append, List.filterMap_append, hsaid, hmore, List.map_append]
  · rw [List.reverse_append, List.filterMap_append, hissued, hissued']
  · intro a ha
    rcases List.mem_append.mp ha with ha | ha
    · exact hfits a ha
    · exact hfits' a ha

/-- A statement that posts nothing. -/
theorem of_quiet {st : Statement α} (h : st.notifies = false)
    (hlog : s'.log = ⟨st.sql, st.bound⟩ :: s.log) : Posts [] s s' := by
  refine ⟨⟨[_], hlog, ?_, ?_⟩, by simp⟩
  · simp [Statement.posted_of_quiet h]
  · simp [Statement.announcement_of_quiet h]

theorem postedSince_eq (h : Posts said s s') : postedSince s s' = said.map Announcement.text := by
  obtain ⟨⟨sent, hlog, hsaid, -⟩, -⟩ := h
  have hcount : s'.log.length - s.log.length = sent.length := by
    rw [hlog, List.length_append]
    omega
  rw [postedSince, hcount, hlog, List.take_left]
  exact hsaid

theorem issued_eq (h : Posts said s s') : s'.issued = s.issued ++ said := by
  obtain ⟨⟨sent, hlog, -, hissued⟩, -⟩ := h
  rw [issued, hlog, List.reverse_append, List.filterMap_append, hissued]
  rfl

end Posts

/-! ## Inside a transaction -/

/-- What an operation posts inside a transaction is what the transaction will notify. -/
def Speaks (op : Op α) : Prop :=
  ∀ s a s', op.run s = (.ok a, s') →
    ∃ said, Posts said s s' ∧ s'.notices = s.notices ++ said.map Announcement.text

theorem Speaks.bind {op : Op α} {next : α → Op β} (h : Speaks op) (hn : ∀ a, Speaks (next a)) :
    Speaks (op >>= next) := by
  intro s b s' hb
  obtain ⟨a, s₁, hop, hnext⟩ := StoreOp.ok_of_bind hb
  obtain ⟨said, hposts, hnotices⟩ := h s a s₁ hop
  obtain ⟨more, hposts', hnotices'⟩ := hn a s₁ b s' hnext
  refine ⟨said ++ more, hposts.trans hposts', ?_⟩
  rw [hnotices', hnotices, List.map_append, List.append_assoc]

theorem speaks_send {st : Statement α} (h : st.notifies = false) : Speaks (send st) := by
  intro s a s' ha
  rw [run_send] at ha
  split at ha
  · cases ha
  · cases ha
    exact ⟨[], .of_quiet h rfl, by simp [noted]⟩

/-- A notification that succeeds posts the text of its own channel and payload. -/
theorem posts_notify {channel payload : String}
    (h : (notify channel payload).run s = (.ok (), s')) :
    Posts [⟨channel, payload⟩] s s' ∧
      s'.notices = s.notices ++ [Announcement.text ⟨channel, payload⟩] := by
  obtain ⟨text, s₁, hencode, hrest⟩ := StoreOp.ok_of_bind h
  obtain ⟨_, s₂, hsend, hqueue⟩ := StoreOp.ok_of_bind hrest
  rw [StoreOp.run_lift, Envelope.encode_eq] at hencode
  split at hencode
  · rename_i hsize
    cases hencode
    rw [run_send] at hsend
    split at hsend
    · cases hsend
    · cases hsend
      cases hqueue
      have hfits : Announcement.Fits ⟨channel, payload⟩ := by
        rw [← Envelope.utf8ByteSize_text] at hsize
        exact hsize
      refine ⟨⟨⟨[_], rfl, ?_, ?_⟩, by simpa using hfits⟩, rfl⟩
      · simp only [List.reverse_singleton, List.filterMap_cons, Statement.posted_notify,
          List.filterMap_nil, List.map_cons, List.map_nil]
        rfl
      · have hissued := Announcement.announcement_notify ⟨channel, payload⟩
        simp only [Announcement.envelope] at hissued
        simp only [List.reverse_singleton, List.filterMap_cons, hissued, List.filterMap_nil]
  · cases hencode

theorem Body.speaks {op : Op α} (h : Body op) : Speaks op := by
  induction h with
  | pure a =>
    intro s b s' hb
    cases hb
    exact ⟨[], .none s, by simp⟩
  | send st hquiet => exact speaks_send hquiet
  | notify channel payload =>
    intro s a s' ha
    obtain ⟨hposts, hnotices⟩ := posts_notify ha
    exact ⟨[⟨channel, payload⟩], hposts, hnotices⟩
  | ask next _ ih => exact fun s => ih s.announcing s
  | bind _ _ ih ihn => exact ih.bind ihn

/-! ## Whole operations -/

/-- From one state to the other these announcements have been committed, and the listener of the
store has had them: of equal ones the first. -/
structure Delivered (said : List Announcement) (s s' : RelationalStore) : Prop where
  posts : Posts said s s'
  board : s'.board =
    (said.map Announcement.text).eraseDups.foldl (heard s.listening) s.board
  listening : s'.listening = s.listening

/-- An operation that delivers what it announces. -/
def Delivers (op : Op α) : Prop :=
  ∀ s a s', op.run s = (.ok a, s') → ∃ said, Delivered said s s'

/-- Before something is delivered, something may go on of which nobody hears. -/
theorem Delivered.after (h : Delivered said s₁ s') (hposts : Posts [] s s₁) (hseen : Unseen s s₁) :
    Delivered said s s' where
  posts := hposts.trans h.posts
  board := by rw [h.board, hseen.board, hseen.listening]
  listening := h.listening.trans hseen.listening

theorem run_sendAlone_ok {st : Statement α} {a : α} (h : (sendAlone st).run s = (.ok a, s')) :
    s'.log = ⟨st.sql, st.bound⟩ :: s.log ∧ s'.board = s.board ∧ s'.listening = s.listening ∧
      s'.notices = s.notices := by
  rw [run_sendAlone] at h
  split at h
  · cases h
  · cases h
    exact ⟨rfl, rfl, rfl, rfl⟩

/-- A transaction begins in silence. -/
theorem begin_silent (h : begin.run s = (.ok (), s')) : Posts [] s s' ∧ s'.notices = [] := by
  obtain ⟨_, s₁, hroll, hsend⟩ := StoreOp.ok_of_bind h
  cases hroll
  obtain ⟨hlog, -, -, hnotices⟩ := run_sendAlone_ok hsend
  exact ⟨.of_quiet rfl hlog, hnotices⟩

/-- A commit hands the listener what the transaction has to notify. -/
theorem commit_hands_over (h : commit.run s = (.ok (), s')) :
    s'.log = ⟨Statement.commit.sql, Statement.commit.bound⟩ :: s.log ∧
      s'.board = s.notices.eraseDups.foldl (heard s.listening) s.board ∧
      s'.listening = s.listening := by
  obtain ⟨_, s₁, hsend, hinstall⟩ := StoreOp.ok_of_bind h
  rw [StoreOp.run_modify] at hinstall
  cases hinstall
  rw [run_send] at hsend
  split at hsend
  · cases hsend
  · cases hsend
    rw [install_eq]
    exact ⟨rfl, rfl, rfl⟩

/-- A transaction that is concluded delivers what was announced in it. -/
theorem delivered_of_concluded {op : Op α} (h : Inward op) {a : α} (hs : s.notices = [])
    (ha : (orRollBack do
      let a ← op
      commit
      return a).run s = (.ok a, s')) :
    ∃ s₁, op.run s = (.ok a, s₁) ∧ ∀ said, Posts said s s₁ →
      s₁.notices = s.notices ++ said.map Announcement.text → Delivered said s s' := by
  obtain ⟨b, s₁, hop, hrest⟩ := StoreOp.ok_of_bind (ok_of_orRollBack ha)
  obtain ⟨_, s₂, hcommit, hpure⟩ := StoreOp.ok_of_bind hrest
  cases hpure
  refine ⟨s₁, hop, fun said hposts hnotices => ?_⟩
  obtain ⟨hlog, hboard, hlistening⟩ := commit_hands_over hcommit
  have hseen := h s
  rw [hop] at hseen
  rw [hs, List.nil_append] at hnotices
  refine ⟨?_, ?_, hlistening.trans hseen.listening⟩
  · simpa using hposts.trans (.of_quiet rfl hlog)
  · rw [hboard, hnotices, hseen.board, hseen.listening]

/-- What follows the beginning of a transaction decides about what is delivered. -/
theorem delivered_of_begun {op : Op α} {a : α} (ha : (begin >>= fun _ => op).run s = (.ok a, s')) :
    ∃ s₁, s₁.notices = [] ∧ op.run s₁ = (.ok a, s') ∧
      ∀ said, Delivered said s₁ s' → Delivered said s s' := by
  obtain ⟨_, s₁, hbegin, hop⟩ := StoreOp.ok_of_bind ha
  obtain ⟨hposts, hnotices⟩ := begin_silent hbegin
  have hseen := Inward.begin s
  rw [hbegin] at hseen
  exact ⟨s₁, hnotices, hop, fun said hsaid => hsaid.after hposts hseen⟩

/-- A payload that is published is announced, and nothing else. -/
theorem delivered_publish {channel payload : String} {n : Nat}
    (h : (publish channel payload).run s = (.ok n, s')) :
    Delivered [⟨channel, payload⟩] s s' := by
  obtain ⟨t, s₁, hget, hrest⟩ := StoreOp.ok_of_bind h
  cases hget
  obtain ⟨_, s₂, hsize, hrest⟩ := StoreOp.ok_of_bind hrest
  rw [StoreOp.run_lift] at hsize
  obtain ⟨-, rfl⟩ := Prod.mk.inj hsize
  obtain ⟨_, s₃, htransact, hpure⟩ := StoreOp.ok_of_bind hrest
  cases hpure
  obtain ⟨s₄, hs₄, hconcluded, hdelivered⟩ := delivered_of_begun htransact
  obtain ⟨s₅, hnotify, hsaid⟩ :=
    delivered_of_concluded (Inward.notify channel payload) hs₄ hconcluded
  obtain ⟨hposts, hnotices⟩ := posts_notify hnotify
  exact hdelivered _ (hsaid _ hposts hnotices)

namespace Delivers

variable {op : Op α}

theorem map (h : Delivers op) (f : α → β) : Delivers (do return f (← op)) := by
  intro s b s' hb
  obtain ⟨a, s₁, hop, hpure⟩ := StoreOp.ok_of_bind hb
  cases hpure
  exact h s a s' hop

theorem concluded {op : Op α} (h : Body op) {a : α} (hs : s.notices = [])
    (ha : (orRollBack do
      let a ← op
      commit
      return a).run s = (.ok a, s')) : ∃ said, Delivered said s s' := by
  obtain ⟨s₁, hop, hsaid⟩ := delivered_of_concluded h.inward hs ha
  obtain ⟨said, hposts, hnotices⟩ := h.speaks s a s₁ hop
  exact ⟨said, hsaid said hposts hnotices⟩

theorem transact (h : Body op) : Delivers (transact op) := by
  intro s a s' ha
  obtain ⟨s₁, hs₁, hop, hdelivered⟩ := delivered_of_begun ha
  obtain ⟨said, hsaid⟩ := concluded h hs₁ hop
  exact ⟨said, hdelivered said hsaid⟩

theorem eval (script : Script) : Delivers (eval script) := by
  intro s a s' ha
  obtain ⟨s₁, hs₁, hop, hdelivered⟩ := delivered_of_begun ha
  obtain ⟨said, hsaid⟩ := concluded (.steps script) hs₁ (ok_of_asScriptFailure hop)
  exact ⟨said, hdelivered said hsaid⟩

theorem sendAlone (st : Statement α) (h : st.notifies = false := by rfl) :
    Delivers (sendAlone st) := by
  intro s a s' ha
  obtain ⟨hlog, hboard, hlistening, -⟩ := run_sendAlone_ok ha
  exact ⟨[], .of_quiet h hlog, hboard, hlistening⟩

theorem command (c : Command) : Delivers (c.perform : Op Reply) := by
  cases c with
  | pushBack list entries => exact (transact (.pushBack list entries)).map Reply.count
  | listLength list => exact (transact (.send (.countEntries list))).map Reply.count
  | addMembers set members => exact (transact (.addMembers set members)).map Reply.count
  | setSize set => exact (sendAlone (.countMembers set)).map Reply.count
  | record key => exact (sendAlone (.readFields key)).map Reply.fields
  | mergeFields key fields => exact (transact (.mergeFields key fields)).map fun _ => Reply.done
  | delete key => exact (transact (.delete key)).map Reply.truth
  | eval script => exact (eval script).map Reply.output

end Delivers

end RelationalStore

end ControlBus
