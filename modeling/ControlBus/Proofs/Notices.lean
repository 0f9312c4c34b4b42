-- The notifications that a store in a database issues, read off the statements that it sent. The
-- text of an envelope tells channel and payload, so nothing of a notification is lost on its way.
import ControlBus.Proofs.JsonText
import ControlBus.Store.Relational

namespace ControlBus

namespace Envelope

open Json

/-- The members of an envelope's text: their names, their values and the texts of these. -/
def members (e : Envelope) : List (String × Json × List Char) :=
  [("channel", string (some e.channel), written e.channel),
   ("payload", string (some e.payload), written e.payload)]

theorem textChars_eq (e : Envelope) :
    e.textChars =
      '\x7b' :: separated (e.members.map fun m => writtenMember m.1 m.2.2) ++ ['\x7d'] := by
  simp [textChars, members, separated, writtenMember]

theorem reads_textChars (e : Envelope) :
    Reads (object (e.members.map fun m => (some m.1, m.2.1))) e.textChars := by
  rw [textChars_eq]
  apply reads_object
  · simp [members]
  · intro m hm
    simp only [members, List.mem_cons, List.not_mem_nil, or_false] at hm
    rcases hm with rfl | rfl
    · exact reads_written e.channel
    · exact reads_written e.payload

/-- The text of an envelope is read back as the envelope. -/
theorem decode_envelope (e : Envelope) : decode e.text = some e := by
  have hjson : ofString? e.text = some (object (e.members.map fun m => (some m.1, m.2.1))) := by
    rw [ofString?, text, String.toList_ofList, ofChars_of_reads (reads_textChars e)]
  simp [decode, hjson, parts?, members?, members, part, Assoc.get?, text?]

end Envelope

/-! ## Announcements -/

/-- The envelope in which an announcement crosses the database. -/
def Announcement.envelope (a : Announcement) : Envelope := ⟨a.channel, a.payload⟩

/-- An announcement whose envelope the database takes. -/
def Announcement.Fits (a : Announcement) : Prop :=
  a.envelope.text.utf8ByteSize ≤ Envelope.maxBytes

/-- What a statement announces, if it is one that sends a notification. -/
def Sent.announcement? (st : Sent) : Option Announcement :=
  match st.bound with
  | [_, text] =>
    if st.sql = (Statement.notify text).sql then
      (Envelope.decode text).map fun e => ⟨e.channel, e.payload⟩
    else none
  | _ => none

/-- Whether a statement sends a notification. -/
def Statement.notifies {α : Type} : Statement α → Bool
  | .notify _ => true
  | _ => false

theorem Statement.sql_ne_notify {α : Type} {st : Statement α} (h : st.notifies = false)
    (hb : st.bound.length = 2) (text : String) : st.sql ≠ (Statement.notify text).sql := by
  intro hsql
  change st.sql = "SELECT pg_notify($1, $2)" at hsql
  unfold sql at hsql
  split at hsql
  -- of the other statements only those on entries and members bind two values
  case h_8 => cases h
  all_goals first | (cases hb; done) | simp at hsql

theorem Statement.announcement_of_quiet {α : Type} {st : Statement α} (h : st.notifies = false) :
    (Sent.mk st.sql st.bound).announcement? = none := by
  unfold Sent.announcement?
  split
  · rename_i hb
    rw [if_neg]
    apply st.sql_ne_notify h
    change st.bound = _ at hb
    rw [hb]
    rfl
  · rfl

theorem Announcement.announcement_notify (a : Announcement) :
    (Sent.mk (Statement.notify a.envelope.text).sql
      (Statement.notify a.envelope.text).bound).announcement? = some a := by
  have hdecode := Envelope.decode_envelope a.envelope
  simp only [Sent.announcement?, Statement.bound, if_true, hdecode, Option.map_some]
  rfl

namespace RelationalStore

/-- The announcements that a store has issued, oldest first. -/
def issued (s : RelationalStore) : List Announcement := s.log.reverse.filterMap Sent.announcement?

end RelationalStore

end ControlBus
