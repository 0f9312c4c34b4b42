-- What goes on inside an open transaction. Its steps are statements and notifications, and they
-- fail only where the database refuses a statement or an envelope is too long. Until the commit
-- nothing of it can be seen from outside.
import ControlBus.Proofs.Notices
import ControlBus.Proofs.Transactions

namespace ControlBus.RelationalStore

variable {α β : Type} {s s' t : RelationalStore}

/-! ## Where an operation can fail -/

/-- An operation comes to a statement that the database refuses, to a notification whose envelope
is too long, or to a payload that is too large. -/
inductive Stumbles : {α : Type} → Op α → RelationalStore → Prop
  | refused {α : Type} {st : Statement α} {rows : Rows} {s : RelationalStore} :
      s.sentCount + 1 ∈ s.faults → Stumbles (sendOn st rows) s
  | tooLong {channel payload : String} {s : RelationalStore} :
      ¬ Announcement.Fits ⟨channel, payload⟩ →
      Stumbles (liftM (Envelope.encode channel payload) : Op String) s
  | tooLarge {size limit : Nat} {s : RelationalStore} :
      limit < size → Stumbles (liftM (SharedStore.checkSize size limit) : Op Unit) s
  | first {α β : Type} {op : Op α} {next : α → Op β} {s : RelationalStore} :
      Stumbles op s → Stumbles (op >>= next) s
  | later {α β : Type} {op : Op α} {next : α → Op β} {s s' : RelationalStore} {a : α} :
      op.run s = (.ok a, s') → Stumbles (next a) s' → Stumbles (op >>= next) s
  | undone {α : Type} {op : Op α} {s : RelationalStore} :
      Stumbles op s → Stumbles (orRollBack op) s
  | named {α : Type} {op : Op α} {s : RelationalStore} (script : Script) :
      Stumbles op s → Stumbles (asScriptFailure script op) s

/-- An operation that stumbles fails. -/
theorem Stumbles.fails {op : Op α} (h : Stumbles op s) : ∃ e s', op.run s = (.error e, s') := by
  induction h with
  | refused hfault =>
    rw [run_sendOn, if_pos (List.contains_iff_mem.mpr hfault)]
    exact ⟨_, _, rfl⟩
  | @tooLong channel payload s hlong =>
    have htext : Envelope.maxBytes < (Envelope.text ⟨channel, payload⟩).utf8ByteSize :=
      Nat.not_le.mp hlong
    rw [StoreOp.run_lift, Envelope.encode]
    simp only [htext, if_true]
    exact ⟨_, _, rfl⟩
  | tooLarge hlarge =>
    rw [StoreOp.run_lift, SharedStore.checkSize, if_pos hlarge]
    exact ⟨_, _, rfl⟩
  | first _ ih =>
    obtain ⟨e, s', hop⟩ := ih
    rw [StoreOp.run_bind, hop]
    exact ⟨e, s', rfl⟩
  | later hop _ ih =>
    rw [StoreOp.run_bind, hop]
    exact ih
  | undone _ ih =>
    obtain ⟨e, s', hop⟩ := ih
    simp only [orRollBack, ExceptT.run] at hop ⊢
    rw [hop]
    exact ⟨e, s'.rollBack, rfl⟩
  | named script _ ih =>
    obtain ⟨e, s', hop⟩ := ih
    simp only [asScriptFailure, ExceptT.run] at hop ⊢
    rw [hop]
    exact ⟨.scriptFailed script.name e.message, s', rfl⟩

/-- An operation that fails only where it stumbles. -/
def Trips (op : Op α) : Prop := ∀ s e s', op.run s = (.error e, s') → Stumbles op s

namespace Trips

variable {op : Op α} {next : α → Op β}

theorem of_ok (h : ∀ s, ∃ a s', op.run s = (.ok a, s')) : Trips op := by
  intro s e s' he
  obtain ⟨a, s'', ha⟩ := h s
  rw [ha] at he
  cases he

theorem bind (h : Trips op) (hn : ∀ a, Trips (next a)) : Trips (op >>= next) := by
  intro s e s' he
  rcases StoreOp.error_of_bind he with hop | ⟨a, s₁, hop, hnext⟩
  · exact .first (h s e s' hop)
  · exact .later hop (hn a s₁ e s' hnext)

theorem pure (a : α) : Trips (Pure.pure a : Op α) := of_ok fun s => ⟨a, s, rfl⟩

theorem get : Trips (getThe RelationalStore : Op RelationalStore) := of_ok fun s => ⟨s, s, rfl⟩

theorem modify (f : RelationalStore → RelationalStore) :
    Trips (modifyThe RelationalStore f : Op Unit) := of_ok fun s => ⟨(), f s, rfl⟩

theorem sendOn (st : Statement α) (rows : Rows) : Trips (sendOn st rows) := by
  intro s e s' he
  rw [run_sendOn] at he
  split at he
  · rename_i hfault
    exact .refused (List.contains_iff_mem.mp hfault)
  · cases he

theorem send (st : Statement α) : Trips (send st) :=
  get.bind fun s => (sendOn st s.working).bind fun _ => (modify _).bind fun _ => pure _

theorem sendAlone (st : Statement α) : Trips (sendAlone st) :=
  get.bind fun s => (sendOn st s.committed).bind fun _ => (modify _).bind fun _ => pure _

theorem begin : Trips begin := (modify _).bind fun _ => sendAlone _

theorem commit : Trips commit := (send _).bind fun _ => modify _

theorem checkSize (size limit : Nat) :
    Trips (liftM (SharedStore.checkSize size limit) : Op Unit) := by
  intro s e s' he
  rw [StoreOp.run_lift, SharedStore.checkSize] at he
  by_cases hlarge : limit < size
  · exact .tooLarge hlarge
  · rw [if_neg hlarge] at he
    cases he

theorem encode (channel payload : String) :
    Trips (liftM (Envelope.encode channel payload) : Op String) := by
  intro s e s' he
  rw [StoreOp.run_lift, Envelope.encode] at he
  by_cases hlong : Envelope.maxBytes < (Envelope.text ⟨channel, payload⟩).utf8ByteSize
  · exact .tooLong (Nat.not_le.mpr hlong)
  · rw [if_neg hlong] at he
    cases he

theorem notify (channel payload : String) : Trips (notify channel payload) :=
  (encode channel payload).bind fun _ => (send _).bind fun _ => modify _

theorem orRollBack (h : Trips op) : Trips (orRollBack op) := by
  intro s e s' he
  obtain ⟨s₁, hop, -⟩ := error_of_orRollBack he
  exact .undone (h s e s₁ hop)

theorem asScriptFailure (h : Trips op) (script : Script) : Trips (asScriptFailure script op) := by
  intro s e s' he
  obtain ⟨cause, -, hop⟩ := error_of_asScriptFailure he
  exact .named script (h s cause s' hop)

end Trips

/-! ## The inside of a transaction -/

/-- What an operation does inside an open transaction: it sends statements, among them
notifications, and asks whether changes are announced. -/
inductive Body : {α : Type} → Op α → Prop
  | pure {α : Type} (a : α) : Body (Pure.pure a)
  | send {α : Type} (st : Statement α) (h : st.notifies = false := by rfl) : Body (send st)
  | notify (channel payload : String) : Body (notify channel payload)
  | ask {α : Type} (next : Bool → Op α) :
      (∀ b, Body (next b)) → Body (getThe RelationalStore >>= fun s => next s.announcing)
  | bind {α β : Type} {op : Op α} {next : α → Op β} :
      Body op → (∀ a, Body (next a)) → Body (op >>= next)

namespace Body

variable {op : Op Unit} {next : Unit → Op β} {c : Prop} [Decidable c]

theorem when (h : Body op) : Body (if c then op else Pure.pure ()) := by
  split
  · exact h
  · exact .pure ()

/-- A step that is made on a condition, and what is done next either way. -/
theorem whenThen (h : Body op) (hn : Body (next ())) :
    Body (if c then op >>= next else next ()) := by
  split
  · exact h.bind fun _ => hn
  · exact hn

theorem touch (key : String) (tag : ChangeTag) : Body (touch key tag) :=
  ask (fun announcing => if announcing then RelationalStore.notify (keyspaceChannel key) tag.word
    else Pure.pure ()) fun _ => (notify _ _).when

/-! ### The steps of operations -/

theorem appendAll (key : String) (entries : List String) : Body (appendAll key entries) := by
  induction entries with
  | nil => exact pure ()
  | cons entry rest ih => exact (send _).bind fun _ => ih

theorem pushBack (key : String) (entries : List String) : Body (pushBack key entries) := by
  unfold RelationalStore.pushBack
  split
  · exact (appendAll key entries).bind fun _ => (touch key .rpush).bind fun _ => send _
  · exact send _

theorem popFront (key : String) (max : Nat) : Body (popFront key max) :=
  (send _).bind fun _ => (touch key .lpop).whenThen (pure _)

theorem addMember (key member : String) : Body (addMember key member) :=
  (send _).bind fun _ => (touch key .sadd).whenThen (pure _)

theorem addMembers (key : String) (members : List String) : Body (addMembers key members) := by
  induction members with
  | nil => exact pure 0
  | cons member rest ih =>
    exact (addMember key member).bind fun _ => ih.bind fun _ => pure _

theorem removeMember (key member : String) : Body (removeMember key member) :=
  (send _).bind fun _ => (touch key .srem).whenThen (pure _)

theorem popMembers (key : String) (max : Nat) : Body (popMembers key max) :=
  (send _).bind fun _ => (touch key .spop).whenThen (pure _)

theorem writeFields (key : String) (fields : FieldList) : Body (writeFields key fields) := by
  induction fields with
  | nil => exact pure ()
  | cons f rest ih => exact (send _).bind fun _ => ih

theorem mergeFields (key : String) (fields : FieldList) : Body (mergeFields key fields) :=
  ((writeFields key fields).bind fun _ => touch key .hset).when

theorem takeRecord (key : String) : Body (takeRecord key) :=
  (send _).bind fun _ => (touch key .del).whenThen (pure _)

theorem delete (key : String) : Body (delete key) :=
  (send _).bind fun _ => (send _).bind fun _ => (send _).bind fun _ =>
    (touch key .del).whenThen (pure _)

theorem materialize (l : Layout) (key : String) : Body (materialize l key) := by
  have hmove : Body (do
      let staged ← RelationalStore.takeRecord (l.stagingKey key)
      RelationalStore.mergeFields (l.recordKey key) staged
      return (key, staged)) :=
    (takeRecord _).bind fun staged => (mergeFields _ staged).bind fun _ => pure _
  refine (removeMember _ _).bind fun marked => ?_
  split
  · exact (takeRecord _).bind fun _ => hmove
  · exact hmove

theorem materializeAll (l : Layout) (keys : List String) : Body (materializeAll l keys) := by
  induction keys with
  | nil => exact pure []
  | cons key rest ih => exact (materialize l key).bind fun _ => ih.bind fun _ => pure _

theorem markPending (l : Layout) (key token : String) : Body (markPending l key token) :=
  (addMember _ _).bind fun _ => (notify _ _).whenThen (pure _)

theorem dropStaged (l : Layout) (keys : List String) : Body (dropStaged l keys) := by
  induction keys with
  | nil => exact pure ()
  | cons key rest ih => exact (takeRecord _).bind fun _ => ih

/-- Every script keeps to what may be done inside a transaction. -/
theorem steps (script : Script) : Body (steps script) := by
  cases script with
  | pushAndPublish list entries channel payload =>
    exact (send _).bind fun _ => (pushBack list entries).bind fun _ =>
      (notify channel payload).bind fun _ => pure _
  | popFront list max => exact (send _).bind fun _ => (popFront list max).bind fun _ => pure _
  | stageWrite l key fields token =>
    exact (send _).bind fun _ => (mergeFields _ fields).bind fun _ => markPending l key token
  | stageDelete l key token =>
    exact (send _).bind fun _ => (takeRecord _).bind fun _ => (addMember _ _).bind fun _ =>
      markPending l key token
  | coalescedPop l max =>
    exact (send _).bind fun _ => (popMembers _ max).bind fun keys =>
      (materializeAll l keys).bind fun _ => pure _
  | coalescedClear l =>
    exact (send _).bind fun _ => (popMembers _ _).bind fun keys =>
      (dropStaged l keys).bind fun _ => (delete _).bind fun _ => pure _

end Body

/-- The inside of a transaction fails only where it stumbles. -/
theorem Body.trips {op : Op α} (h : Body op) : Trips op := by
  induction h with
  | pure a => exact .pure a
  | send st => exact .send st
  | notify channel payload => exact .notify channel payload
  | ask next _ ih => exact Trips.get.bind fun s => ih s.announcing
  | bind _ _ ih ihn => exact ih.bind ihn

/-! ## What can be seen from outside -/

/-- Nothing has changed that can be seen from outside an open transaction. -/
structure Unseen (s s' : RelationalStore) : Prop where
  committed : s'.committed = s.committed
  board : s'.board = s.board
  listening : s'.listening = s.listening
  announcing : s'.announcing = s.announcing
  maxPayload : s'.maxPayload = s.maxPayload

namespace Unseen

theorem refl (s : RelationalStore) : Unseen s s := ⟨rfl, rfl, rfl, rfl, rfl⟩

theorem trans (h : Unseen s s') (h' : Unseen s' t) : Unseen s t where
  committed := h'.committed.trans h.committed
  board := h'.board.trans h.board
  listening := h'.listening.trans h.listening
  announcing := h'.announcing.trans h.announcing
  maxPayload := h'.maxPayload.trans h.maxPayload

end Unseen

/-- An operation of which nothing is seen from outside. -/
def Inward (op : Op α) : Prop := ∀ s, Unseen s (op.run s).2

namespace Inward

variable {op : Op α} {next : α → Op β}

theorem bind (h : Inward op) (hn : ∀ a, Inward (next a)) : Inward (op >>= next) := by
  intro s
  have hop := h s
  rw [StoreOp.run_bind]
  rcases hrun : op.run s with ⟨result, s₁⟩
  rw [hrun] at hop
  cases result with
  | error e => exact hop
  | ok a => exact hop.trans (hn a s₁)

theorem send (st : Statement α) : Inward (send st) := by
  intro s
  rw [run_send]
  split <;> exact ⟨rfl, rfl, rfl, rfl, rfl⟩

theorem lift (r : Except BusError α) : Inward (liftM r : Op α) := by
  intro s
  rw [StoreOp.run_lift]
  exact .refl s

theorem modify {f : RelationalStore → RelationalStore} (h : ∀ s, Unseen s (f s)) :
    Inward (modifyThe RelationalStore f : Op Unit) := h

theorem notify (channel payload : String) : Inward (notify channel payload) :=
  (lift _).bind fun _ => (send _).bind fun _ => modify fun _ => ⟨rfl, rfl, rfl, rfl, rfl⟩

theorem begin : Inward begin := by
  have hrollBack : Inward (modifyThe RelationalStore rollBack : Op Unit) :=
    modify fun s => ⟨rfl, rfl, rfl, rfl, rfl⟩
  refine hrollBack.bind fun _ s => ?_
  rw [run_sendAlone]
  split <;> exact ⟨rfl, rfl, rfl, rfl, rfl⟩

end Inward

/-- Nothing is seen of the inside of a transaction. -/
theorem Body.inward {op : Op α} (h : Body op) : Inward op := by
  induction h with
  | pure a => exact fun s => .refl s
  | send st => exact .send st
  | notify channel payload => exact .notify channel payload
  | ask next _ ih => exact fun s => ih s.announcing s
  | bind _ _ ih ihn => exact ih.bind ihn

/-- An operation of which nothing is seen from outside if it fails. -/
def Undone (op : Op α) : Prop := ∀ s e s', op.run s = (.error e, s') → Unseen s s'

namespace Undone

variable {op : Op α} {next : α → Op β}

/-- What is done before an operation that is undone must not be seen either. -/
theorem bind (h : Inward op) (hn : ∀ a, Undone (next a)) : Undone (op >>= next) := by
  intro s e s' he
  have hfirst := h s
  rcases StoreOp.error_of_bind he with hop | ⟨a, s₁, hop, hnext⟩
  · rwa [hop] at hfirst
  · rw [hop] at hfirst
    exact hfirst.trans (hn a s₁ e s' hnext)

theorem map (h : Undone op) (f : α → β) : Undone (do return f (← op)) := by
  intro s e s' he
  rcases StoreOp.error_of_bind he with hop | ⟨a, s₁, -, hnext⟩
  · exact h s e s' hop
  · cases hnext

theorem commit : Undone commit := by
  refine bind (.send _) fun _ s e s' he => ?_
  cases he

theorem orRollBack (h : Undone op) : Undone (orRollBack op) := by
  intro s e s' he
  obtain ⟨s₁, hop, rfl⟩ := error_of_orRollBack he
  have hfailed := h s e s₁ hop
  exact ⟨hfailed.committed, hfailed.board, hfailed.listening, hfailed.announcing,
    hfailed.maxPayload⟩

theorem asScriptFailure (h : Undone op) (script : Script) : Undone (asScriptFailure script op) := by
  intro s e s' he
  obtain ⟨cause, -, hop⟩ := error_of_asScriptFailure he
  exact h s cause s' hop

end Undone

/-! ## The faults that an operation meets -/

/-- A store whose database refuses nothing. -/
def sound (s : RelationalStore) : RelationalStore := { s with faults := [] }

/-- From one state to the other the database has been sent statements, and none of those that it
would refuse. -/
structure Spared (s s' : RelationalStore) : Prop where
  faults : s'.faults = s.faults
  sent : s.sentCount ≤ s'.sentCount
  missed : ∀ n ∈ s.faults, s.sentCount < n → s'.sentCount < n

namespace Spared

theorem of_quiet (hfaults : s'.faults = s.faults) (hsent : s'.sentCount = s.sentCount) :
    Spared s s' := ⟨hfaults, Nat.le_of_eq hsent.symm, fun _ _ h => hsent ▸ h⟩

theorem trans (h : Spared s s') (h' : Spared s' t) : Spared s t where
  faults := h'.faults.trans h.faults
  sent := Nat.le_trans h.sent h'.sent
  missed n hn hs := h'.missed n (h.faults ▸ hn) (h.missed n hn hs)

/-- The next statement has been sent and taken. -/
theorem of_taken (hn : ¬ s.faults.contains (s.sentCount + 1)) (hfaults : s'.faults = s.faults)
    (hsent : s'.sentCount = s.sentCount + 1) : Spared s s' where
  faults := hfaults
  sent := hsent ▸ Nat.le_succ _
  missed n hmem hlt := by
    have hne : n ≠ s.sentCount + 1 := fun heq => hn (List.contains_iff_mem.mpr (heq ▸ hmem))
    omega

end Spared

/-- An operation that, where it succeeds, has met no fault, and would have done the same without
faults. -/
def Unhindered (op : Op α) : Prop :=
  ∀ s a s', op.run s = (.ok a, s') → op.run s.sound = (.ok a, s'.sound) ∧ Spared s s'

namespace Unhindered

variable {op : Op α} {next : α → Op β}

theorem bind (h : Unhindered op) (hn : ∀ a, Unhindered (next a)) : Unhindered (op >>= next) := by
  intro s b s' hb
  obtain ⟨a, s₁, hop, hnext⟩ := StoreOp.ok_of_bind hb
  obtain ⟨hsound, hspared⟩ := h s a s₁ hop
  obtain ⟨hsound', hspared'⟩ := hn a s₁ b s' hnext
  rw [StoreOp.run_bind, hsound]
  exact ⟨hsound', hspared.trans hspared'⟩

theorem pure (a : α) : Unhindered (Pure.pure a : Op α) := by
  intro s b s' hb
  cases hb
  exact ⟨rfl, .of_quiet rfl rfl⟩

theorem send (st : Statement α) : Unhindered (send st) := by
  intro s a s' ha
  rw [run_send] at ha ⊢
  split at ha
  · cases ha
  · rename_i hfault
    cases ha
    exact ⟨rfl, .of_taken hfault rfl rfl⟩

theorem sendAlone (st : Statement α) : Unhindered (sendAlone st) := by
  intro s a s' ha
  rw [run_sendAlone] at ha ⊢
  split at ha
  · cases ha
  · rename_i hfault
    cases ha
    exact ⟨rfl, .of_taken hfault rfl rfl⟩

theorem lift (r : Except BusError α) : Unhindered (liftM r : Op α) := by
  intro s a s' ha
  rw [StoreOp.run_lift] at ha ⊢
  cases ha
  exact ⟨rfl, .of_quiet rfl rfl⟩

theorem modify {f : RelationalStore → RelationalStore} (hfaults : ∀ s, (f s).faults = s.faults)
    (hsent : ∀ s, (f s).sentCount = s.sentCount) (hsound : ∀ s, f s.sound = (f s).sound) :
    Unhindered (modifyThe RelationalStore f : Op Unit) := by
  intro s a s' ha
  rw [StoreOp.run_modify] at ha ⊢
  cases ha
  exact ⟨by rw [hsound], .of_quiet (hfaults s) (hsent s)⟩

theorem notify (channel payload : String) : Unhindered (notify channel payload) :=
  (lift _).bind fun _ => (send _).bind fun _ =>
    modify (fun _ => rfl) (fun _ => rfl) fun _ => rfl

theorem begin : Unhindered begin := by
  have hrollBack : Unhindered (modifyThe RelationalStore rollBack : Op Unit) :=
    modify (fun _ => rfl) (fun _ => rfl) fun _ => rfl
  exact hrollBack.bind fun _ => sendAlone _

theorem commit : Unhindered commit := by
  have hinstall : Unhindered (modifyThe RelationalStore install : Op Unit) := by
    refine modify (fun s => ?_) (fun s => ?_) fun s => ?_
    · rw [install_eq]
    · rw [install_eq]
    · rw [install_eq, install_eq]
      rfl
  exact (send _).bind fun _ => hinstall

theorem orRollBack (h : Unhindered op) : Unhindered (orRollBack op) := by
  intro s a s' ha
  obtain ⟨hsound, hspared⟩ := h s a s' (ok_of_orRollBack ha)
  exact ⟨run_orRollBack hsound, hspared⟩

theorem asScriptFailure (h : Unhindered op) (script : Script) :
    Unhindered (asScriptFailure script op) := by
  intro s a s' ha
  obtain ⟨hsound, hspared⟩ := h s a s' (ok_of_asScriptFailure ha)
  exact ⟨run_asScriptFailure script hsound, hspared⟩

end Unhindered

theorem Body.unhindered {op : Op α} (h : Body op) : Unhindered op := by
  induction h with
  | pure a => exact .pure a
  | send st => exact .send st
  | notify channel payload => exact .notify channel payload
  | ask next _ ih => exact fun s => ih s.announcing s
  | bind _ _ ih ihn => exact ih.bind ihn

end ControlBus.RelationalStore
