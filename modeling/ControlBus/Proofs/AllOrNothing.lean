-- The operations of a store in a database happen as a whole or not at all. One that failed is as
-- if it had never been tried: not even the notifications that it had issued are heard of again.
import ControlBus.Proofs.Commands
import ControlBus.Proofs.Peers

namespace ControlBus

namespace RelationalStore

/-! ## Operations as a whole -/

/-- An operation that fails only where it stumbles, and then leaves no trace; it succeeds only if
it meets no fault; and it answers stores in a relation the same. -/
structure AllOrNothing {α : Type} (R : RelationalStore → RelationalStore → Prop) (op : Op α) :
    Prop where
  trips : Trips op
  undone : Undone op
  unhindered : Unhindered op
  respects : Respects R op

namespace AllOrNothing

variable {α β : Type} {R : RelationalStore → RelationalStore → Prop} {op : Op α}

theorem map (h : AllOrNothing R op) (f : α → β) : AllOrNothing R (do return f (← op)) where
  trips := h.trips.bind fun _ => .pure _
  undone := h.undone.map f
  unhindered := h.unhindered.bind fun _ => .pure _
  respects := h.respects.bind fun _ => .pure _

/-- The part of a transaction that follows its beginning. -/
theorem concluded (h : Body op) : AllOrNothing Twins (orRollBack do
    let a ← op
    commit
    return a) where
  trips := .orRollBack (h.trips.bind fun _ => Trips.commit.bind fun _ => .pure _)
  undone := .orRollBack (.bind h.inward fun a => Undone.commit.map fun _ => a)
  unhindered :=
    .orRollBack (h.unhindered.bind fun _ => Unhindered.commit.bind fun _ => .pure _)
  respects := .orRollBack (h.twins.bind fun _ => twins_commit.bind fun _ => .pure _)

theorem asScriptFailure (h : AllOrNothing R op) (script : Script) :
    AllOrNothing R (asScriptFailure script op) where
  trips := h.trips.asScriptFailure script
  undone := h.undone.asScriptFailure script
  unhindered := h.unhindered.asScriptFailure script
  respects := h.respects.asScriptFailure script

/-- What follows the beginning of a transaction decides about the whole. -/
theorem begun (h : AllOrNothing Twins op) : AllOrNothing Peers (begin >>= fun _ => op) where
  trips := Trips.begin.bind fun _ => h.trips
  undone := .bind .begin fun _ => h.undone
  unhindered := Unhindered.begin.bind fun _ => h.unhindered
  respects :=
    (carries_begin.bind fun _ => h.respects).mono (fun _ _ h => h) fun _ _ => Twins.toPeers

theorem transact (h : Body op) : AllOrNothing Peers (transact op) := (concluded h).begun

theorem eval (script : Script) : AllOrNothing Peers (eval script) :=
  ((concluded (.steps script)).asScriptFailure script).begun

/-- A statement that is sent on its own is a transaction of its own. -/
theorem sendAlone (st : Statement α) : AllOrNothing Peers (sendAlone st) where
  trips := .sendAlone st
  undone s e s' he := by
    rw [run_sendAlone] at he
    split at he
    · cases he
      exact ⟨rfl, rfl, rfl, rfl, rfl⟩
    · cases he
  unhindered := .sendAlone st
  respects := peers_sendAlone st

/-- An operation that first checks a size. -/
theorem checked (h : AllOrNothing R op) (size limit : Nat) :
    AllOrNothing R (liftM (SharedStore.checkSize size limit) >>= fun _ => op) where
  trips := (Trips.checkSize size limit).bind fun _ => h.trips
  undone := .bind (.lift _) fun _ => h.undone
  unhindered := (Unhindered.lift _).bind fun _ => h.unhindered
  respects := (Carries.lift _).bind fun _ => h.respects

/-- An operation that first asks for the largest payload and for the subscriptions. -/
theorem consulting (next : Nat → Switchboard → Op β)
    (h : ∀ maxPayload board, AllOrNothing Peers (next maxPayload board)) :
    AllOrNothing Peers (getThe RelationalStore >>= fun s => next s.maxPayload s.board) where
  trips := Trips.get.bind fun s => (h s.maxPayload s.board).trips
  undone := fun s => (h s.maxPayload s.board).undone s
  unhindered := fun s => (h s.maxPayload s.board).unhindered s
  respects s t hst := by
    rw [StoreOp.run_bind, StoreOp.run_bind, StoreOp.run_get, StoreOp.run_get]
    dsimp only
    rw [hst.maxPayload, hst.board]
    exact (h t.maxPayload t.board).respects s t hst

theorem publish (channel payload : String) : AllOrNothing Peers (publish channel payload) :=
  consulting
    (fun maxPayload board => do
      liftM (SharedStore.checkSize payload.utf8ByteSize maxPayload)
      RelationalStore.transact (notify channel payload)
      return board.subscriptions.length)
    fun _ board =>
      ((transact (.notify channel payload)).map fun _ => board.subscriptions.length).checked _ _

theorem subscribe (channels patterns : List String) :
    AllOrNothing Peers (SharedStore.subscribe channels patterns : Op Nat) where
  trips := .of_ok fun s => ⟨_, _, rfl⟩
  undone s e s' he := by cases he
  unhindered s a s' ha := by
    cases ha
    exact ⟨rfl, .of_quiet rfl rfl⟩
  respects s t h := by
    refine ⟨?_, h.committed, ?_, h.listening, h.announcing, h.maxPayload, h.ahead, h.refuses⟩
    · change Except.ok (s.board.subscribe channels patterns).1 = _
      rw [h.board]
      rfl
    · change (s.board.subscribe channels patterns).2 = (t.board.subscribe channels patterns).2
      rw [h.board]

theorem command (c : Command) : AllOrNothing Peers (c.perform : Op Reply) := by
  cases c with
  | pushBack list entries => exact (transact (.pushBack list entries)).map Reply.count
  | listLength list => exact (transact (.send (.countEntries list))).map Reply.count
  | addMembers set members => exact (transact (.addMembers set members)).map Reply.count
  | setSize set => exact (sendAlone (.countMembers set)).map Reply.count
  | record key => exact (sendAlone (.readFields key)).map Reply.fields
  | mergeFields key fields => exact (transact (.mergeFields key fields)).map fun _ => Reply.done
  | delete key => exact (transact (.delete key)).map Reply.truth
  | eval script => exact (eval script).map Reply.output

end AllOrNothing

/-- A script whose transaction has begun fails by its name, for the cause for which its steps
fail. -/
theorem eval_failure {script : Script} {s s' : RelationalStore} {e : BusError}
    (hbegin : s.sentCount + 1 ∉ s.faults) (h : (eval script).run s = (.error e, s')) :
    ∃ cause : BusError, e = .scriptFailed script.name cause.message ∧
      (transact (steps script)).run s = (.error cause, s') := by
  have hbegun : ∃ s₁, begin.run s = (.ok (), s₁) := by
    have hfault : ¬ s.rollBack.faults.contains (s.rollBack.sentCount + 1) :=
      fun hf => hbegin (List.contains_iff_mem.mp hf)
    have hsent := run_sendAlone .begin s.rollBack
    rw [if_neg hfault] at hsent
    exact ⟨_, hsent⟩
  obtain ⟨s₁, hbegun⟩ := hbegun
  rw [eval, StoreOp.run_bind, hbegun] at h
  obtain ⟨cause, hname, hsteps⟩ := error_of_asScriptFailure h
  refine ⟨cause, hname, ?_⟩
  rw [transact, StoreOp.run_bind, hbegun]
  exact hsteps

/-! ## Everything that a store offers -/

/-- An operation that a store offers, by what it answers. -/
inductive Request : Type → Type where
  | command (c : Command) : Request Reply
  | keys (pattern : String) : Request (List String)
  | publish (channel payload : String) : Request Nat
  | subscribe (channels patterns : List String) : Request Nat

namespace Request

variable {α : Type}

/-- Carry out a request. -/
def perform : Request α → Op α
  | command c => c.perform
  | keys pattern => SharedStore.keys pattern
  | publish channel payload => SharedStore.publish channel payload
  | subscribe channels patterns => SharedStore.subscribe channels patterns

/-- The script that a request runs. -/
def script? : Request α → Option Script
  | command (.eval script) => some script
  | _ => none

theorem allOrNothing (q : Request α) : AllOrNothing Peers q.perform := by
  cases q with
  | command c => exact .command c
  | keys pattern => exact (AllOrNothing.sendAlone _).map _
  | publish channel payload => exact .publish channel payload
  | subscribe channels patterns => exact .subscribe channels patterns

end Request

/-- What can happen to a store later on. -/
inductive Happening where
  | request {α : Type} (q : Request α)
  /-- Subscribers read what has arrived for them, or let go of a subscription. -/
  | attend (f : Switchboard → Switchboard)
  | stopListening

namespace Happening

def step (s : RelationalStore) : Happening → RelationalStore
  | request q => (q.perform.run s).2
  | attend f => { s with board := f s.board }
  | stopListening => s.stopListening

/-- Everything that happens to a store, one after the other. -/
def stepAll (later : List Happening) (s : RelationalStore) : RelationalStore := later.foldl step s

theorem peers_stepAll {s t : RelationalStore} (h : Peers s t) (later : List Happening) :
    Peers (stepAll later s) (stepAll later t) := by
  induction later generalizing s t with
  | nil => exact h
  | cons one rest ih =>
    apply ih
    cases one with
    | request q => exact (q.allOrNothing.respects s t h).2
    | attend f =>
      exact ⟨h.committed, congrArg f h.board, h.listening, h.announcing, h.maxPayload, h.ahead,
        h.refuses⟩
    | stopListening =>
      exact ⟨h.committed, h.board, rfl, h.announcing, h.maxPayload, h.ahead, h.refuses⟩

end Happening

/-! ## Failed operations -/

/-- The stores hold the same and have sent the same to every subscriber. -/
structure LooksLike (s t : RelationalStore) : Prop where
  contents : s.committed = t.committed
  board : s.board = t.board

theorem Peers.looksLike {s t : RelationalStore} (h : Peers s t) : LooksLike s t :=
  ⟨h.committed, h.board⟩

/-- A request that led from one store to the other has left no trace. -/
structure Traceless {α : Type} (q : Request α) (s s' : RelationalStore) : Prop where
  unchanged : LooksLike s' s
  /-- Made again and not refused anything, the request gives what it would have given at first. -/
  repeatable :
    (q.perform.run (s'.facing s.ahead [])).1 = (q.perform.run s.sound).1 ∧
      LooksLike (q.perform.run (s'.facing s.ahead [])).2 (q.perform.run s.sound).2
  /-- Whatever happens afterwards, happens as if the request had never been made. -/
  forgotten : ∀ (choices : RowOrder) (refused : List Nat) (later : List Happening),
    LooksLike (Happening.stepAll later (s'.facing choices refused))
        (Happening.stepAll later (s.facing choices refused)) ∧
      ∀ {β : Type} (next : Request β),
        (next.perform.run (Happening.stepAll later (s'.facing choices refused))).1 =
          (next.perform.run (Happening.stepAll later (s.facing choices refused))).1

theorem Unseen.traceless {α : Type} {s s' : RelationalStore} (h : Unseen s s') (q : Request α) :
    Traceless q s s' where
  unchanged := ⟨h.committed, h.board⟩
  repeatable := by
    obtain ⟨hreply, hstore⟩ := q.allOrNothing.respects _ _ h.peers_sound
    exact ⟨hreply, hstore.looksLike⟩
  forgotten choices refused later := by
    have hlater := Happening.peers_stepAll (h.peers choices refused) later
    exact ⟨hlater.looksLike, fun next => (next.allOrNothing.respects _ _ hlater).1⟩

/-- A request that runs a script fails with the failure of the script. -/
theorem Request.eval_of_error {α : Type} {q : Request α} {script : Script}
    (hscript : q.script? = some script) {s s' : RelationalStore} {e : BusError}
    (h : q.perform.run s = (.error e, s')) : (eval script).run s = (.error e, s') := by
  unfold script? at hscript
  split at hscript
  · cases hscript
    change (do return Reply.output (← eval script) : Op Reply).run s = _ at h
    rcases StoreOp.error_of_bind h with heval | ⟨_, _, -, hreply⟩
    · exact heval
    · cases hreply
  · cases hscript

/-- An operation fails exactly where the database refuses one of its statements, where it issues a
notification that is too long, or where it is given too large a payload; a fault at any statement
that it would send makes it fail. A script that fails once its transaction has begun fails by its
name, for the cause for which its steps fail. An operation that failed has left no trace: not in
the contents, not at any subscriber, and not in anything that comes after. -/
theorem operations_are_all_or_nothing {α : Type} (q : Request α) (s : RelationalStore) :
    ((∃ e, (q.perform.run s).1 = .error e) ↔ Stumbles q.perform s) ∧
    (∀ n ∈ s.faults, s.sentCount < n → n ≤ (q.perform.run s.sound).2.sentCount →
      ∃ e, (q.perform.run s).1 = .error e) ∧
    ∀ e s', q.perform.run s = (.error e, s') →
      Traceless q s s' ∧
      ∀ script ∈ q.script?, s.sentCount + 1 ∉ s.faults →
        ∃ cause : BusError, e = .scriptFailed script.name cause.message ∧
          (transact (steps script)).run s = (.error cause, s') := by
  have hq := q.allOrNothing
  refine ⟨⟨?_, fun h => ?_⟩, ?_, ?_⟩
  · rintro ⟨e, he⟩
    exact hq.trips s e _ (Prod.ext he rfl)
  · obtain ⟨e, s', he⟩ := h.fails
    exact ⟨e, congrArg Prod.fst he⟩
  · intro n hn hlater hsent
    rcases hrun : q.perform.run s with ⟨result, s'⟩
    cases result with
    | error e => exact ⟨e, rfl⟩
    | ok a =>
      obtain ⟨hsound, hspared⟩ := hq.unhindered s a s' hrun
      rw [hsound] at hsent
      exact absurd (hspared.missed n hn hlater) (Nat.not_lt.mpr hsent)
  · intro e s' he
    refine ⟨(hq.undone s e s' he).traceless q, ?_⟩
    intro script hscript hbegin
    exact eval_failure hbegin (Request.eval_of_error hscript he)

end RelationalStore

end ControlBus
