-- Operations on rows that vouch for their removal. Inside a transaction such rows stay so as long
-- as the operation succeeds, and to take rows out fails only where the database refuses a
-- statement.
import ControlBus.Proofs.Mirror
import ControlBus.Proofs.TableKeys
import ControlBus.Proofs.TransactionBodies
import ControlBus.Proofs.VouchedRows

namespace ControlBus

/-- A database that answers just the rows that it deletes, in any order, and draws from a set just
its members, in any order. -/
structure RowOrder.Honest (order : RowOrder) : Prop extends order.Orderly where
  draw : ∀ n members, members.Nodup → (order.draw n members).Perm members

namespace RelationalStore

variable {α β : Type}

/-! ## What an operation leads to -/

/-- What an operation meets: whether changes are announced, and the statements that the database
refuses. -/
structure Terms where
  announcing : Bool
  faults : List Nat

/-- The failure of a statement that the database refuses. -/
def refusal : BusError := (DatabaseFault.rejected "injected").toError

/-- The statement sent last was refused. -/
structure Refused (terms : Terms) (e : BusError) (s : RelationalStore) : Prop where
  error : e = refusal
  last : s.sentCount ∈ terms.faults

/-- The store meets these terms, and the open transaction has rows with `P`. Where `strict`, the
database is honest. -/
structure Within (terms : Terms) (strict : Prop) (P : Rows → Prop) (s : RelationalStore) :
    Prop where
  announcing : s.announcing = terms.announcing
  faults : s.faults = terms.faults
  honest : strict → s.order.Honest
  rows : P s.working

/-- From rows with `P` an operation that succeeds leads to rows with `Q`. Where `strict`, it fails
only at a statement that is refused. -/
structure Leads (terms : Terms) (strict : Prop) (P : Rows → Prop) (op : Op α)
    (Q : α → Rows → Prop) : Prop where
  ok : ∀ s a s', Within terms strict P s → op.run s = (.ok a, s') → Within terms strict (Q a) s'
  error : strict → ∀ s e s', Within terms strict P s → op.run s = (.error e, s') →
    Refused terms e s'

variable {terms : Terms} {strict : Prop} {P P' R : Rows → Prop} {Q Q' : α → Rows → Prop}
  {op : Op α}

theorem Within.mono {s : RelationalStore} (h : Within terms strict P s)
    (hP : ∀ r, P r → P' r) : Within terms strict P' s :=
  ⟨h.announcing, h.faults, h.honest, hP _ h.rows⟩

namespace Leads

theorem pure {a : α} : Leads terms strict (Q a) (Pure.pure a : Op α) Q where
  ok s b s' hs hb := by
    cases hb
    exact hs
  error _ s e s' _ he := by cases he

theorem bind {next : α → Op β} {Q' : β → Rows → Prop} (h : Leads terms strict P op Q)
    (hn : ∀ a, Leads terms strict (Q a) (next a) Q') : Leads terms strict P (op >>= next) Q' where
  ok s b s' hs hb := by
    obtain ⟨a, s₁, hop, hnext⟩ := StoreOp.ok_of_bind hb
    exact (hn a).ok s₁ b s' (h.ok s a s₁ hs hop) hnext
  error hstrict s e s' hs he := by
    rcases StoreOp.error_of_bind he with hop | ⟨a, s₁, hop, hnext⟩
    · exact h.error hstrict s e s' hs hop
    · exact (hn a).error hstrict s₁ e s' (h.ok s a s₁ hs hop) hnext

theorem mono (h : Leads terms strict P op Q) (hP : ∀ r, P' r → P r)
    (hQ : ∀ a r, Q a r → Q' a r) : Leads terms strict P' op Q' where
  ok s a s' hs ha := (h.ok s a s' (hs.mono hP) ha).mono (hQ a)
  error hstrict s e s' hs he := h.error hstrict s e s' (hs.mono hP) he

/-- What all rows with `P` have in common may be relied on. -/
theorem given {φ : Prop} (hP : ∀ r, P r → φ) (h : φ → Leads terms strict P op Q) :
    Leads terms strict P op Q where
  ok s a s' hs := (h (hP _ hs.rows)).ok s a s' hs
  error hstrict s e s' hs := (h (hP _ hs.rows)).error hstrict s e s' hs

/-- What is known to be there may be given a name. -/
theorem some {ι : Type} {P : ι → Rows → Prop} (h : ∀ i, Leads terms strict (P i) op Q) :
    Leads terms strict (fun r => ∃ i, P i r) op Q where
  ok s a s' hs := by
    obtain ⟨i, hi⟩ := hs.rows
    exact (h i).ok s a s' ⟨hs.announcing, hs.faults, hs.honest, hi⟩
  error hstrict s e s' hs := by
    obtain ⟨i, hi⟩ := hs.rows
    exact (h i).error hstrict s e s' ⟨hs.announcing, hs.faults, hs.honest, hi⟩

/-- A step that is made on a condition, and what is done next either way. -/
theorem whenThen {c : Prop} [Decidable c] {op : Op Unit} {next : Unit → Op α}
    (h : c → Leads terms strict P op fun _ => R) (hnot : ¬ c → ∀ r, P r → R r)
    (hn : Leads terms strict R (next ()) Q) :
    Leads terms strict P (if c then op >>= next else next ()) Q := by
  split
  · rename_i hc
    exact (h hc).bind fun _ => hn
  · rename_i hc
    exact hn.mono (hnot hc) fun _ _ h => h

/-- A statement, by what it does to rows. -/
theorem send {st : Statement α}
    (h : ∀ (order : RowOrder) n r, (strict → order.Honest) → P r →
      Q (Rows.answer order n st r).1 (Rows.answer order n st r).2) :
    Leads terms strict P (send st) Q where
  ok s a s' hs ha := by
    rw [run_send] at ha
    split at ha
    · cases ha
    · cases ha
      exact ⟨hs.announcing, hs.faults, hs.honest, h _ _ _ hs.honest hs.rows⟩
  error _ s e s' hs he := by
    rw [run_send] at he
    split at he
    · rename_i hfault
      cases he
      exact ⟨rfl, hs.faults ▸ List.contains_iff_mem.mp hfault⟩
    · cases he

theorem lift_ok {r : Except BusError α} {a : α} (h : r = .ok a) (hq : ∀ rows, P rows → Q a rows) :
    Leads terms strict P (liftM r : Op α) Q where
  ok s b s' hs hb := by
    rw [h, StoreOp.run_lift] at hb
    cases hb
    exact hs.mono hq
  error _ s e s' _ he := by
    rw [h, StoreOp.run_lift] at he
    cases he

theorem lift_error {r : Except BusError α} {e : BusError} (h : r = .error e) (hlax : ¬ strict) :
    Leads terms strict P (liftM r : Op α) Q where
  ok s b s' _ hb := by
    rw [h, StoreOp.run_lift] at hb
    cases hb
  error hstrict := absurd hstrict hlax

theorem modify {f : RelationalStore → RelationalStore}
    (h : ∀ s, Within terms strict P s → Within terms strict P (f s)) :
    Leads terms strict P (modifyThe RelationalStore f : Op Unit) fun _ => P where
  ok s a s' hs ha := by
    cases ha
    exact h s hs
  error _ s e s' _ he := by cases he

/-- A notification that fits. -/
theorem notify {channel payload : String} (h : (⟨channel, payload⟩ : Announcement).Fits) :
    Leads terms strict P (notify channel payload) fun _ => P := by
  have hencode : Envelope.encode channel payload = .ok (Envelope.text ⟨channel, payload⟩) := by
    unfold Envelope.encode
    exact if_neg (Nat.not_lt.mpr h)
  exact (lift_ok (Q := fun _ => P) hencode fun _ hr => hr).bind fun envelope =>
    (send (Q := fun _ => P) fun _ _ _ _ hr => hr).bind fun _ =>
      modify fun s hs => ⟨hs.announcing, hs.faults, hs.honest, hs.rows⟩

/-- A notification that does not fit. -/
theorem notify_of_not {channel payload : String} {Q : Unit → Rows → Prop}
    (h : ¬ (⟨channel, payload⟩ : Announcement).Fits) (hlax : ¬ strict) :
    Leads terms strict P (RelationalStore.notify channel payload) Q := by
  have hencode : Envelope.encode channel payload = .error
      (.payloadTooLarge (Envelope.text ⟨channel, payload⟩).utf8ByteSize Envelope.maxBytes) := by
    unfold Envelope.encode
    exact if_pos (Nat.not_le.mp h)
  exact (lift_error (P := P) (Q := fun _ _ => False) hencode hlax).bind fun envelope =>
    ⟨fun s a s' hs => hs.rows.elim, fun hstrict => absurd hstrict hlax⟩

theorem touch_of_asked {key : String} {tag : ChangeTag} {Q : Unit → Rows → Prop}
    (h : Leads terms strict P (if terms.announcing then
      RelationalStore.notify (keyspaceChannel key) tag.word else Pure.pure () : Op Unit) Q) :
    Leads terms strict P (touch key tag) Q := by
  have hask : ∀ s, Within terms strict P s → (RelationalStore.touch key tag).run s =
      (if terms.announcing then RelationalStore.notify (keyspaceChannel key) tag.word
        else Pure.pure () : Op Unit).run s := by
    intro s hs
    rw [← hs.announcing]
    rfl
  refine ⟨fun s a s' hs ha => ?_, fun hstrict s e s' hs he => ?_⟩
  · rw [hask s hs] at ha
    exact h.ok s a s' hs ha
  · rw [hask s hs] at he
    exact h.error hstrict s e s' hs he

theorem touch {key : String} {tag : ChangeTag} (h : Passable terms.announcing key tag) :
    Leads terms strict P (touch key tag) fun _ => P := by
  apply touch_of_asked
  split
  · rename_i hannouncing
    exact notify (h hannouncing)
  · exact pure (Q := fun _ => P)

/-- A change that cannot be announced fails. -/
theorem touch_of_not {key : String} {tag : ChangeTag} {Q : Unit → Rows → Prop}
    (hnot : ¬ Passable terms.announcing key tag) (hlax : ¬ strict) :
    Leads terms strict P (RelationalStore.touch key tag) Q := by
  obtain ⟨hannouncing, hlong⟩ := Classical.not_imp.mp hnot
  apply touch_of_asked
  rw [if_pos hannouncing]
  exact notify_of_not hlong hlax

/-- What happens inside a transaction leaves the terms as they are. -/
theorem of_body (h : Body op) (hlax : ¬ strict) : Leads terms strict P op fun _ _ => True where
  ok s a s' hs ha := by
    have hseen := h.inward s
    have hspared := (h.unhindered s a s' ha).2
    rw [ha] at hseen
    exact ⟨hseen.announcing.trans hs.announcing, hspared.faults.trans hs.faults,
      fun hstrict => absurd hstrict hlax, trivial⟩
  error hstrict := absurd hstrict hlax

/-- A change that can be announced where this is relied on. -/
theorem touch_where {key : String} {tag : ChangeTag}
    (h : strict → ∀ r, P r → Passable terms.announcing key tag) :
    Leads terms strict P (RelationalStore.touch key tag) fun _ => P := by
  by_cases hp : Passable terms.announcing key tag
  · exact touch hp
  · by_cases hstrict : strict
    · exact given (fun r hr => hp (h hstrict r hr)) False.elim
    · exact touch_of_not hp hstrict

end Leads

/-! ## Taking rows out -/

/-- Rows that vouch for their removal, the sets among them as `F` says. -/
structure Stock (terms : Terms) (F : List SetRow → Prop) (r : Rows) : Prop where
  vouched : r.Vouched terms.announcing
  sets : F r.sets

/-- Where `strict`, a set has these members. -/
def Holding (strict : Prop) (key : String) (members : List String) (sets : List SetRow) : Prop :=
  strict → (sets.filter (·.key = key)).map (·.member) = members

/-- What is struck off under another key does not show in a set. -/
theorem Holding.filter {members : List String} {sets : List SetRow} {p : SetRow → Bool}
    (h : Holding strict key members sets) (hp : strict → ∀ row, row.key = key → p row = true) :
    Holding strict key members (sets.filter p) := by
  intro hstrict
  rw [← h hstrict, List.filter_filter]
  congr 1
  apply List.filter_congr
  intro row _
  by_cases hkey : row.key = key
  · simp [hkey, hp hstrict row hkey]
  · simp [hkey]

namespace Leads

variable {F : List SetRow → Prop} {key : String} {l : Layout}

theorem popFront (key : String) (max : Nat) (entries : List String) :
    Leads terms strict (fun r => r.Vouched terms.announcing ∧ r.list key = entries)
      (popFront key max) fun popped r => r.Vouched terms.announcing ∧
        (strict → popped = entries.take (limitOf max) ∧
          r.list key = entries.drop (limitOf max)) := by
  refine bind (Q := fun rows r => (r.Vouched terms.announcing ∧
    (strict → (Rows.entriesBySeq rows).map (·.value) = entries.take (limitOf max) ∧
      r.list key = entries.drop (limitOf max))) ∧
    (strict → rows ≠ [] → Passable terms.announcing key .rpush)) (send ?_) fun rows => ?_
  · rintro order n r hhonest ⟨hr, rfl⟩
    refine ⟨⟨hr.popEntries key _, fun hstrict => ⟨?_, ?_⟩⟩, fun hstrict hsome => ?_⟩
    · exact Rows.popEntries_answer hr.valid key _ ((hhonest hstrict).entries n)
    · rw [Rows.list_popEntries hr.valid, if_pos rfl]
    · apply hr.of_entriesOf
      intro hnone
      have hperm := (hhonest hstrict).entries n ((r.entriesOf key).take (limitOf max))
      rw [hnone, List.take_nil] at hperm
      apply hsome
      rw [Rows.answer, hnone, List.take_nil]
      exact hperm.eq_nil
  · refine whenThen (fun hsome => touch_where fun hstrict r hr => ?_) (fun _ r hr => hr) ?_
    · exact (hr.2 hstrict (by simpa using hsome)).lpop
    · exact pure.mono (fun r hr => hr.1) fun _ _ h => h

theorem takeRecord (key : String) :
    Leads terms strict (Stock terms F) (takeRecord key) fun fields r => Stock terms F r ∧
      (strict → fields ≠ [] → Passable terms.announcing key .hset) := by
  refine bind (Q := fun rows r => Stock terms F r ∧
    (strict → rows ≠ [] → Passable terms.announcing key .hset)) (send ?_) fun rows => ?_
  · intro order n r hhonest hr
    refine ⟨⟨hr.vouched.dropFields key, hr.sets⟩, fun hstrict hsome => ?_⟩
    apply hr.vouched.of_fieldsOf
    intro hnone
    apply hsome
    have hperm := (hhonest hstrict).fields n (r.fieldsOf key)
    rw [hnone] at hperm
    rw [Rows.answer, hnone]
    exact hperm.eq_nil
  · refine whenThen (fun hsome => touch_where fun hstrict r hr => ?_) (fun _ r hr => hr) ?_
    · exact (hr.2 hstrict (by simpa using hsome)).del
    · refine pure.mono (fun r hr => ⟨hr.1, fun hstrict hsome => hr.2 hstrict ?_⟩) fun _ _ h => h
      rintro rfl
      exact hsome (map_mergeSort_eq_nil.mpr rfl)

theorem removeMember (key member : String)
    (hF : ∀ sets, F sets → F (sets.filter (· ≠ { key, member }))) :
    Leads terms strict (Stock terms F) (removeMember key member) fun _ => Stock terms F := by
  refine bind (Q := fun gone r => Stock terms F r ∧
    (0 < gone → Passable terms.announcing key .sadd)) (send ?_) fun gone => ?_
  · intro order n r _ hr
    refine ⟨⟨hr.vouched.filterSets _, hF _ hr.sets⟩, fun hsome => ?_⟩
    exact hr.vouched.sets ⟨key, member⟩ (List.count_pos_iff.mp hsome)
  · refine whenThen (fun hsome => touch_where fun _ r hr => ?_) (fun _ r hr => hr) ?_
    · exact (hr.2 (by simpa using hsome)).srem
    · exact pure.mono (fun r hr => hr.1) fun _ _ h => h

theorem popMembers (key : String) (max : Nat) (members : List String) :
    Leads terms strict (fun r => r.Vouched terms.announcing ∧ r.membersOf key = members)
      (popMembers key max) fun popped r => r.Vouched terms.announcing ∧
        (strict → popped.length = min (limitOf max) members.length ∧
          (popped ++ r.membersOf key).Perm members) := by
  refine bind (Q := fun popped r => (r.Vouched terms.announcing ∧
    (strict → popped.length = min (limitOf max) members.length ∧
      (popped ++ r.membersOf key).Perm members)) ∧
    (strict → popped ≠ [] → Passable terms.announcing key .sadd)) (send ?_) fun popped => ?_
  · rintro order n r hhonest ⟨hr, rfl⟩
    refine ⟨⟨hr.filterSets _, fun hstrict => ⟨?_, ?_⟩⟩, fun hstrict hsome => ?_⟩
    · have hdrawn := (hhonest hstrict).draw n _ (hr.valid.nodup_membersOf key)
      simp only [Rows.answer, List.length_take, hdrawn.length_eq]
    · exact hr.valid.perm_popMembers ((hhonest hstrict).draw n) key _
    · apply hr.of_membersOf
      intro hnone
      have hperm := hr.valid.perm_popMembers ((hhonest hstrict).draw n) key (limitOf max)
      rw [hnone] at hperm
      exact hsome (List.append_eq_nil_iff.mp hperm.eq_nil).1
  · refine whenThen (fun hsome => touch_where fun hstrict r hr => ?_) (fun _ r hr => hr) ?_
    · exact (hr.2 hstrict (by simpa using hsome)).spop
    · exact pure.mono (fun r hr => hr.1) fun _ _ h => h

theorem delete (key : String) (hF : ∀ sets, F sets → F (sets.filter (·.key ≠ key))) :
    Leads terms strict (Stock terms F) (delete key) fun _ => Stock terms F := by
  let Q : Nat → Rows → Prop := fun gone r => Stock terms F r ∧
    (0 < gone → Passable terms.announcing key .del)
  refine bind (Q := Q) (send ?_) fun entries =>
    bind (Q := fun members => Q (entries + members)) (send ?_) fun members =>
      bind (Q := fun fields => Q (entries + members + fields)) (send ?_) fun fields => ?_
  · intro order n r _ hr
    refine ⟨⟨hr.vouched.dropEntries key, hr.sets⟩, fun hsome => ?_⟩
    obtain ⟨e, he, hkey⟩ := List.countP_pos_iff.mp hsome
    have hpassable := (hr.vouched.lists e he).del
    rwa [of_decide_eq_true hkey] at hpassable
  · intro order n r _ hr
    refine ⟨⟨hr.1.vouched.filterSets _, hF _ hr.1.sets⟩, fun hsome => ?_⟩
    rcases Nat.add_pos_iff_pos_or_pos.mp hsome with hsome | hsome
    · exact hr.2 hsome
    · obtain ⟨row, hrow, hkey⟩ := List.countP_pos_iff.mp hsome
      have hpassable := (hr.1.vouched.sets row hrow).del
      rwa [of_decide_eq_true hkey] at hpassable
  · intro order n r _ hr
    refine ⟨⟨hr.1.vouched.dropFields key, hr.1.sets⟩, fun hsome => ?_⟩
    rcases Nat.add_pos_iff_pos_or_pos.mp hsome with hsome | hsome
    · exact hr.2 hsome
    · obtain ⟨f, hf, hkey⟩ := List.countP_pos_iff.mp hsome
      have hpassable := (hr.1.vouched.fields f hf).del
      rwa [of_decide_eq_true hkey] at hpassable
  · refine whenThen (fun hsome => touch_where fun _ r hr => ?_) (fun _ r hr => hr) ?_
    · exact hr.2 (by simpa using hsome)
    · exact pure.mono (fun r hr => hr.1) fun _ _ h => h

/-! ## Putting rows in -/

theorem writeFields (hkey : Passable terms.announcing key .hset) (fields : FieldList) :
    Leads terms strict (Stock terms F) (writeFields key fields) fun _ => Stock terms F := by
  induction fields with
  | nil => exact pure (Q := fun _ => Stock terms F)
  | cons f rest ih =>
    refine bind (Q := fun _ => Stock terms F) (send fun order n r _ hr => ?_) fun _ => ih
    refine ⟨hr.vouched.writeField hkey f.1 f.2, ?_⟩
    have hsets : (r.writeField key f.1 f.2).sets = r.sets := by
      rcases Rows.writeField_cases key f.1 f.2 r with ⟨-, heq⟩ | ⟨-, heq⟩ <;> rw [heq]
    exact hsets ▸ hr.sets

/-- Fields that were merged into a record could be announced. -/
theorem mergeFields (fields : FieldList)
    (hkey : strict → fields ≠ [] → Passable terms.announcing key .hset) :
    Leads terms strict (Stock terms F) (mergeFields key fields) fun _ => Stock terms F := by
  by_cases hp : Passable terms.announcing key .hset
  · unfold RelationalStore.mergeFields
    split
    · exact (writeFields hp fields).bind fun _ => touch hp
    · exact pure (Q := fun _ => Stock terms F)
  · cases fields with
    | nil => exact pure (Q := fun _ => Stock terms F)
    | cons f rest =>
      have hlax : ¬ strict := fun hstrict => hp (hkey hstrict (List.cons_ne_nil f rest))
      exact (of_body (.writeFields key (f :: rest)) hlax).bind fun _ => touch_of_not hp hlax

theorem appendAll (hkey : Passable terms.announcing key .rpush) (entries : List String) :
    Leads terms strict (Stock terms F) (appendAll key entries) fun _ => Stock terms F := by
  induction entries with
  | nil => exact pure (Q := fun _ => Stock terms F)
  | cons entry rest ih =>
    refine bind (Q := fun _ => Stock terms F) (send fun order n r _ hr => ?_) fun _ => ih
    exact ⟨hr.vouched.appendEntry hkey entry, hr.sets⟩

/-- Entries that were appended to a list could be announced. -/
theorem pushBack (hlax : ¬ strict) (key : String) (entries : List String) :
    Leads terms strict (Stock terms F) (pushBack key entries) fun _ => Stock terms F := by
  have hcount : Leads terms strict (Stock terms F) (RelationalStore.send (.countEntries key))
      fun _ => Stock terms F := send fun _ _ _ _ hr => hr
  unfold RelationalStore.pushBack
  split
  · by_cases hp : Passable terms.announcing key .rpush
    · exact (appendAll hp entries).bind fun _ => (touch hp).bind fun _ => hcount
    · exact (of_body (.appendAll key entries) hlax).bind fun _ =>
        (touch_of_not (Q := fun _ => Stock terms F) hp hlax).bind fun _ => hcount
  · exact hcount

/-- A member that was added to a set could be announced. -/
theorem addMember (hlax : ¬ strict) (key member : String) :
    Leads terms strict (fun r => r.Vouched terms.announcing) (addMember key member)
      fun _ r => r.Vouched terms.announcing := by
  refine bind (Q := fun added r => (0 < added → Passable terms.announcing key .sadd) →
    r.Vouched terms.announcing) (send ?_) fun added => ?_
  · intro order n r _ hr
    by_cases hin : r.sets.contains { key, member }
    · intro _
      simpa only [Rows.answer, hin, if_true] using hr
    · intro hkey
      simp only [Rows.answer, hin, Bool.false_eq_true, if_false, Nat.zero_lt_one,
        true_imp_iff] at hkey
      exact hr.addMember hkey member
  · refine whenThen (R := fun r => r.Vouched terms.announcing) (fun hadded => ?_)
      (fun hnot r hr => hr fun hadded => absurd (by simpa using hadded) hnot)
      (pure (Q := fun _ r => r.Vouched terms.announcing))
    by_cases hp : Passable terms.announcing key .sadd
    · exact (touch (P := fun r => r.Vouched terms.announcing) hp).mono (fun r hr => hr fun _ => hp)
        fun _ _ h => h
    · exact touch_of_not hp hlax

theorem addMembers (hlax : ¬ strict) (key : String) (members : List String) :
    Leads terms strict (fun r => r.Vouched terms.announcing) (addMembers key members)
      fun _ r => r.Vouched terms.announcing := by
  induction members with
  | nil => exact pure (Q := fun _ r => r.Vouched terms.announcing)
  | cons member rest ih =>
    exact (addMember hlax key member).bind fun _ => ih.bind fun _ =>
      pure (Q := fun _ r => r.Vouched terms.announcing)

theorem markPending (hlax : ¬ strict) (key token : String) :
    Leads terms strict (fun r => r.Vouched terms.announcing) (markPending l key token)
      fun _ r => r.Vouched terms.announcing := by
  refine (addMember hlax l.pendingSet key).bind fun added =>
    whenThen (R := fun r => r.Vouched terms.announcing) (fun _ => ?_) (fun _ _ hr => hr)
      (pure (Q := fun _ r => r.Vouched terms.announcing))
  by_cases hfits : (⟨l.channel, token⟩ : Announcement).Fits
  · exact notify hfits
  · exact notify_of_not hfits hlax

/-! ## Popping -/

/-- What was staged for a key could be announced, and its visible record takes no more room. -/
theorem materialize (hl : strict → ∃ t : TableName, l = t.layout) (key : String)
    (hF : ∀ sets member, F sets → F (sets.filter (· ≠ ⟨l.deleteSet, member⟩))) :
    Leads terms strict (Stock terms F) (materialize l key) fun popped r =>
      Stock terms F r ∧ popped.1 = key := by
  have hmove : Leads terms strict (Stock terms F) (do
      let staged ← RelationalStore.takeRecord (l.stagingKey key)
      RelationalStore.mergeFields (l.recordKey key) staged
      return (key, staged)) fun popped r => Stock terms F r ∧ popped.1 = key := by
    refine (takeRecord (l.stagingKey key)).bind fun staged => ?_
    refine bind (Q := fun _ => Stock terms F) ?_ fun _ => ?_
    · by_cases hrely : strict → staged ≠ [] →
          Passable terms.announcing (l.recordKey key) .hset
      · exact (mergeFields staged hrely).mono (fun r hr => hr.1) fun _ _ h => h
      · refine given (fun r hr => hrely fun hstrict hsome => ?_) False.elim
        obtain ⟨t, rfl⟩ := hl hstrict
        exact (hr.2 hstrict hsome).recordKey
    · exact pure.mono (fun r hr => ⟨hr, rfl⟩) fun _ _ h => h
  refine (removeMember l.deleteSet key fun sets => hF sets key).bind fun marked => ?_
  split
  · exact (takeRecord (l.recordKey key)).bind fun _ => hmove.mono (fun r hr => hr.1) fun _ _ h => h
  · exact hmove

theorem materializeAll (hl : strict → ∃ t : TableName, l = t.layout) (keys : List String)
    (hF : ∀ sets member, F sets → F (sets.filter (· ≠ ⟨l.deleteSet, member⟩))) :
    Leads terms strict (Stock terms F) (materializeAll l keys) fun popped r =>
      Stock terms F r ∧ popped.map (·.1) = keys := by
  induction keys with
  | nil => exact pure.mono (fun r hr => ⟨hr, rfl⟩) fun _ _ h => h
  | cons key rest ih =>
    refine (materialize hl key hF).bind fun one => ?_
    refine given (fun r hr => hr.2) fun hone => ?_
    refine bind (Q := fun more r => Stock terms F r ∧ more.map (·.1) = rest)
      (ih.mono (fun r hr => hr.1) fun _ _ h => h) fun more => ?_
    exact pure.mono (fun r hr => ⟨hr.1, by rw [List.map_cons, hone, hr.2]⟩) fun _ _ h => h

theorem dropStaged (keys : List String) :
    Leads terms strict (Stock terms F) (dropStaged l keys) fun _ => Stock terms F := by
  induction keys with
  | nil => exact pure (Q := fun _ => Stock terms F)
  | cons key rest ih =>
    exact (takeRecord (l.stagingKey key)).bind fun _ => ih.mono (fun r hr => hr.1) fun _ _ h => h

/-! ## Scripts -/

theorem popFrontScript (key : String) (max : Nat) (entries : List String) :
    Leads terms strict (fun r => r.Vouched terms.announcing ∧ r.list key = entries)
      (steps (.popFront key max)) fun output r => r.Vouched terms.announcing ∧
        (strict → output = .entries (entries.take (limitOf max)) ∧
          r.list key = entries.drop (limitOf max)) := by
  refine bind (Q := fun _ r => r.Vouched terms.announcing ∧ r.list key = entries)
    (send fun _ _ _ _ hr => hr) fun _ => (popFront key max entries).bind fun popped => ?_
  refine pure.mono (fun r hr => ⟨hr.1, fun hstrict => ?_⟩) fun _ _ h => h
  rw [(hr.2 hstrict).1]
  exact ⟨rfl, (hr.2 hstrict).2⟩

/-- Members that are drawn, and what is done with them while the others stay in the set. -/
theorem drawThen (resource key : String) (max : Nat) (members : List String)
    {next : List String → Op α} {Q : α → Rows → Prop}
    (h : ∀ popped left, (strict → popped.length = min (limitOf max) members.length ∧
        (popped ++ left).Perm members) →
      Leads terms strict (Stock terms (Holding strict key left)) (next popped) Q) :
    Leads terms strict (fun r => r.Vouched terms.announcing ∧ r.membersOf key = members)
      (RelationalStore.send (.lock resource) >>= fun _ =>
        RelationalStore.popMembers key max >>= next) Q := by
  refine bind (Q := fun _ r => r.Vouched terms.announcing ∧ r.membersOf key = members)
    (send fun _ _ _ _ hr => hr) fun _ => (popMembers key max members).bind fun popped => ?_
  refine (some (P := fun left r => Stock terms (Holding strict key left) r ∧
    (strict → popped.length = min (limitOf max) members.length ∧
      (popped ++ left).Perm members)) fun left => ?_).mono
    (fun r hr => ⟨r.membersOf key, ⟨hr.1, fun _ => rfl⟩, hr.2⟩) fun _ _ h => h
  exact given (fun r hr => hr.2) fun hpopped =>
    (h popped left hpopped).mono (fun r hr => hr.1) fun _ _ h => h

theorem apart_of_table {l : Layout} (hl : strict → ∃ t : TableName, l = t.layout)
    (hstrict : strict) : l.pendingSet ≠ l.deleteSet := by
  obtain ⟨t, rfl⟩ := hl hstrict
  exact t.pendingSet_ne_deleteSet t

theorem coalescedPop (hl : strict → ∃ t : TableName, l = t.layout) (max : Nat)
    (members : List String) :
    Leads terms strict (fun r => r.Vouched terms.announcing ∧ r.membersOf l.pendingSet = members)
      (steps (.coalescedPop l max)) fun output r => r.Vouched terms.announcing ∧
        (strict → ∃ popped : List Popped, output = .records popped ∧
          popped.length = min (limitOf max) members.length ∧
          (popped.map (·.1) ++ r.membersOf l.pendingSet).Perm members) := by
  refine drawThen l.pendingSet l.pendingSet max members fun keys left hpopped => ?_
  have hF : ∀ sets member, Holding strict l.pendingSet left sets →
      Holding strict l.pendingSet left (sets.filter (· ≠ ⟨l.deleteSet, member⟩)) := by
    refine fun sets member hsets => hsets.filter fun hstrict row hkey => decide_eq_true ?_
    rintro rfl
    exact apart_of_table hl hstrict hkey.symm
  refine (materializeAll hl keys hF).bind fun popped => ?_
  refine pure.mono (fun r hr => ⟨hr.1.vouched, fun hstrict => ⟨popped, rfl, ?_, ?_⟩⟩) fun _ _ h => h
  · rw [← (hpopped hstrict).1, ← hr.2, List.length_map]
  · have hleft : r.membersOf l.pendingSet = left := hr.1.sets hstrict
    rw [hr.2, hleft]
    exact (hpopped hstrict).2

theorem coalescedClear (hl : strict → ∃ t : TableName, l = t.layout) (members : List String) :
    Leads terms strict (fun r => r.Vouched terms.announcing ∧ r.membersOf l.pendingSet = members)
      (steps (.coalescedClear l)) fun output r => r.Vouched terms.announcing ∧
        (strict → output = .count (min (limitOf Text.maxUnsigned64) members.length) ∧
          (r.membersOf l.pendingSet).length = members.length - limitOf Text.maxUnsigned64) := by
  refine drawThen l.pendingSet l.pendingSet Text.maxUnsigned64 members fun keys left hpopped => ?_
  have hF : ∀ sets, Holding strict l.pendingSet left sets →
      Holding strict l.pendingSet left (sets.filter (·.key ≠ l.deleteSet)) := by
    refine fun sets hsets => hsets.filter fun hstrict row hkey => decide_eq_true ?_
    rw [hkey]
    exact apart_of_table hl hstrict
  refine (dropStaged keys).bind fun _ => (delete l.deleteSet hF).bind fun _ => ?_
  refine pure.mono (fun r hr => ⟨hr.vouched, fun hstrict => ⟨?_, ?_⟩⟩) fun _ _ h => h
  · rw [(hpopped hstrict).1]
  · have hleft : r.membersOf l.pendingSet = left := hr.sets hstrict
    obtain ⟨hlength, hperm⟩ := hpopped hstrict
    have hsum := hperm.length_eq
    rw [List.length_append] at hsum
    rw [hleft]
    omega

/-- Whatever a script does that succeeds, its rows vouch for their removal. -/
theorem steps (hlax : ¬ strict) (script : Script) :
    Leads terms strict (fun r => r.Vouched terms.announcing) (steps script)
      fun _ r => r.Vouched terms.announcing := by
  have hl : ∀ l : Layout, strict → ∃ t : TableName, l = t.layout :=
    fun _ hstrict => absurd hstrict hlax
  have hstock : ∀ r : Rows, r.Vouched terms.announcing → Stock terms (fun _ => True) r :=
    fun r hr => ⟨hr, trivial⟩
  have hlock : ∀ resource, Leads terms strict (fun r => r.Vouched terms.announcing)
      (RelationalStore.send (.lock resource)) fun _ r => r.Vouched terms.announcing :=
    fun _ => send fun _ _ _ _ hr => hr
  have hdone : ∀ a : Output, Leads terms strict (fun r => r.Vouched terms.announcing)
      (Pure.pure a : Op Output) fun _ r => r.Vouched terms.announcing :=
    fun _ => pure (Q := fun _ r => r.Vouched terms.announcing)
  cases script with
  | pushAndPublish list entries channel payload =>
    refine (hlock list).bind fun _ => ((pushBack hlax list entries).mono hstock
      fun _ _ h => h.vouched).bind fun n => ?_
    by_cases hfits : (⟨channel, payload⟩ : Announcement).Fits
    · exact (notify hfits).bind fun _ => hdone _
    · exact (notify_of_not (Q := fun _ r => r.Vouched terms.announcing) hfits hlax).bind
        fun _ => hdone _
  | popFront list max =>
    exact (some fun entries => (popFrontScript list max entries).mono (fun _ h => h)
      fun _ _ h => h.1).mono (fun r hr => ⟨r.list list, hr, rfl⟩) fun _ _ h => h
  | stageWrite l key fields token =>
    have hmerged : Leads terms strict (Stock terms fun _ => True)
        (RelationalStore.mergeFields (l.stagingKey key) fields)
        fun _ => Stock terms fun _ => True :=
      mergeFields fields fun hstrict => absurd hstrict hlax
    exact (hlock l.pendingSet).bind fun _ => (hmerged.mono hstock fun _ _ h => h.vouched).bind
      fun _ => markPending hlax key token
  | stageDelete l key token =>
    exact (hlock l.pendingSet).bind fun _ => ((takeRecord (l.stagingKey key)).mono hstock
      fun _ _ h => h.1.vouched).bind fun _ => (addMember hlax l.deleteSet key).bind
        fun _ => markPending hlax key token
  | coalescedPop l max =>
    exact (some fun members => (coalescedPop (hl l) max members).mono (fun _ h => h)
      fun _ _ h => h.1).mono (fun r hr => ⟨r.membersOf l.pendingSet, hr, rfl⟩) fun _ _ h => h
  | coalescedClear l =>
    exact (some fun members => (coalescedClear (hl l) members).mono (fun _ h => h)
      fun _ _ h => h.1).mono (fun r hr => ⟨r.membersOf l.pendingSet, hr, rfl⟩) fun _ _ h => h

end Leads

end RelationalStore

end ControlBus
