-- Stores that cannot be told apart. What an operation answers depends on what is committed, on the
-- subscriptions and on how the database takes the statements that follow. It does not depend on
-- what was sent before, nor on a transaction that was given up.
import ControlBus.Proofs.TransactionBodies

namespace ControlBus

/-! ## What the database will choose -/

namespace RowOrder

/-- The choices for the statements from number `n` on, counted from there. -/
def since (n : Nat) (order : RowOrder) : RowOrder where
  draw m := order.draw (n + m)
  entries m := order.entries (n + m)
  fields m := order.fields (n + m)

/-- Choices that are made from statement `n` on. -/
def startingAt (n : Nat) (order : RowOrder) : RowOrder where
  draw m := order.draw (m - n)
  entries m := order.entries (m - n)
  fields m := order.fields (m - n)

theorem since_since (n m : Nat) (order : RowOrder) :
    (order.since n).since m = order.since (n + m) := by
  simp only [since, Nat.add_assoc]

theorem since_startingAt (n : Nat) (order : RowOrder) :
    (order.startingAt n).since n = order := by
  simp only [since, startingAt, Nat.add_sub_cancel_left]

end RowOrder

theorem Rows.answer_since {α : Type} (order : RowOrder) (n : Nat) (st : Statement α) (r : Rows) :
    Rows.answer order n st r = Rows.answer (order.since n) 0 st r := by
  cases st with
  | deleteKey t key => cases t <;> rfl
  | _ => rfl

namespace RelationalStore

variable {α β : Type} {s s' t t' : RelationalStore}

/-- The choices that the database will make, from the next statement on. -/
def ahead (s : RelationalStore) : RowOrder := s.order.since (s.sentCount + 1)

/-- Whether the database will refuse the statement that comes after `n` others. -/
def refuses (s : RelationalStore) (n : Nat) : Bool := s.faults.contains (s.sentCount + 1 + n)

theorem ahead_noted (st : Statement α) (s : RelationalStore) :
    (s.noted st).ahead = s.ahead.since 1 := (RowOrder.since_since _ 1 s.order).symm

theorem refuses_noted (st : Statement α) (s : RelationalStore) (n : Nat) :
    (s.noted st).refuses n = s.refuses (1 + n) := by
  simp only [refuses, noted, Nat.add_assoc]

/-- A store whose database makes these choices from the next statement on, and refuses these
statements, the next one being number 0. -/
def facing (choices : RowOrder) (refused : List Nat) (s : RelationalStore) : RelationalStore :=
  { s with
    order := choices.startingAt (s.sentCount + 1)
    faults := refused.map (s.sentCount + 1 + ·) }

theorem ahead_facing (choices : RowOrder) (refused : List Nat) (s : RelationalStore) :
    (s.facing choices refused).ahead = choices := RowOrder.since_startingAt _ choices

theorem refuses_facing (choices : RowOrder) (refused : List Nat) (s : RelationalStore) (n : Nat) :
    (s.facing choices refused).refuses n = refused.contains n := by
  rw [Bool.eq_iff_iff]
  simp [refuses, facing]

/-! ## Stores that cannot be told apart -/

/-- Stores that nobody can tell apart between two operations. -/
structure Peers (s t : RelationalStore) : Prop where
  committed : s.committed = t.committed
  board : s.board = t.board
  listening : s.listening = t.listening
  announcing : s.announcing = t.announcing
  maxPayload : s.maxPayload = t.maxPayload
  ahead : s.ahead = t.ahead
  refuses : ∀ n, s.refuses n = t.refuses n

/-- Stores that nobody can tell apart while a transaction is open on each. -/
structure Twins (s t : RelationalStore) : Prop extends Peers s t where
  working : s.working = t.working
  notices : s.notices = t.notices

/-- What one store shows, the other shows as well, whatever they have been through. -/
theorem Unseen.peers (h : Unseen s s') (choices : RowOrder) (refused : List Nat) :
    Peers (s'.facing choices refused) (s.facing choices refused) where
  committed := h.committed
  board := h.board
  listening := h.listening
  announcing := h.announcing
  maxPayload := h.maxPayload
  ahead := by rw [ahead_facing, ahead_facing]
  refuses n := by rw [refuses_facing, refuses_facing]

theorem Unseen.peers_sound (h : Unseen s s') : Peers (s'.facing s.ahead []) s.sound where
  committed := h.committed
  board := h.board
  listening := h.listening
  announcing := h.announcing
  maxPayload := h.maxPayload
  ahead := ahead_facing _ _ _
  refuses n := by rw [refuses_facing]; rfl

/-- The database answers the next statement alike. -/
theorem Peers.answer (h : Peers s t) (st : Statement α) (rows : Rows) :
    Rows.answer s.order (s.sentCount + 1) st rows =
      Rows.answer t.order (t.sentCount + 1) st rows := by
  have hahead : s.order.since (s.sentCount + 1) = t.order.since (t.sentCount + 1) := h.ahead
  rw [Rows.answer_since, hahead, ← Rows.answer_since]

/-- The database refuses the next statement in both cases or in none. -/
theorem Peers.fault (h : Peers s t) :
    s.faults.contains (s.sentCount + 1) = t.faults.contains (t.sentCount + 1) := h.refuses 0

theorem Peers.noted (h : Peers s t) (st : Statement α) : Peers (s.noted st) (t.noted st) where
  committed := h.committed
  board := h.board
  listening := h.listening
  announcing := h.announcing
  maxPayload := h.maxPayload
  ahead := by rw [ahead_noted, ahead_noted, h.ahead]
  refuses n := by rw [refuses_noted, refuses_noted, h.refuses]

theorem Twins.noted (h : Twins s t) (st : Statement α) : Twins (s.noted st) (t.noted st) :=
  ⟨h.toPeers.noted st, h.working, h.notices⟩

theorem Peers.rollBack (h : Peers s t) : Twins s.rollBack t.rollBack :=
  ⟨⟨h.committed, h.board, h.listening, h.announcing, h.maxPayload, h.ahead, h.refuses⟩,
    h.committed, rfl⟩

theorem Twins.install (h : Twins s t) : Twins s.install t.install := by
  rw [install_eq, install_eq]
  refine ⟨⟨h.working, ?_, h.listening, h.announcing, h.maxPayload, h.ahead, h.refuses⟩,
    h.working, rfl⟩
  change List.foldl (heard s.listening) s.board s.notices.eraseDups = _
  rw [h.listening, h.board, h.notices]

/-! ## Operations that do not tell stores apart -/

/-- From stores in the one relation an operation answers the same and leads to stores in the
other. -/
def Carries (R S : RelationalStore → RelationalStore → Prop) (op : Op α) : Prop :=
  ∀ s t, R s t → (op.run s).1 = (op.run t).1 ∧ S (op.run s).2 (op.run t).2

/-- An operation that answers stores in a relation the same and leaves them in it. -/
abbrev Respects (R : RelationalStore → RelationalStore → Prop) (op : Op α) : Prop := Carries R R op

namespace Carries

variable {R S : RelationalStore → RelationalStore → Prop} {op : Op α} {next : α → Op β}

theorem bind (h : Carries R S op) (hn : ∀ a, Respects S (next a)) : Carries R S (op >>= next) := by
  intro s t hst
  obtain ⟨hreply, hstore⟩ := h s t hst
  rw [StoreOp.run_bind, StoreOp.run_bind]
  rcases hs : op.run s with ⟨result, s₁⟩
  rcases ht : op.run t with ⟨result', t₁⟩
  rw [hs, ht] at hreply hstore
  subst hreply
  cases result with
  | error e => exact ⟨rfl, hstore⟩
  | ok a => exact hn a s₁ t₁ hstore

theorem pure (a : α) : Respects R (Pure.pure a : Op α) := fun _ _ h => ⟨rfl, h⟩

theorem lift (r : Except BusError α) : Respects R (liftM r : Op α) := by
  intro s t h
  rw [StoreOp.run_lift, StoreOp.run_lift]
  exact ⟨rfl, h⟩

theorem modify {f : RelationalStore → RelationalStore} (h : ∀ s t, R s t → S (f s) (f t)) :
    Carries R S (modifyThe RelationalStore f : Op Unit) := fun s t hst => ⟨rfl, h s t hst⟩

theorem mono {R' S' : RelationalStore → RelationalStore → Prop} (h : Carries R S op)
    (hR : ∀ s t, R' s t → R s t) (hS : ∀ s t, S s t → S' s t) : Carries R' S' op :=
  fun s t hst => ⟨(h s t (hR s t hst)).1, hS _ _ (h s t (hR s t hst)).2⟩

theorem orRollBack (h : Respects Twins op) : Respects Twins (orRollBack op) := by
  intro s t hst
  obtain ⟨hreply, hstore⟩ := h s t hst
  rcases hs : op.run s with ⟨result, s₁⟩
  rcases ht : op.run t with ⟨result', t₁⟩
  rw [hs, ht] at hreply hstore
  subst hreply
  simp only [RelationalStore.orRollBack, ExceptT.run] at hs ht ⊢
  rw [hs, ht]
  cases result with
  | error e => exact ⟨rfl, hstore.toPeers.rollBack⟩
  | ok a => exact ⟨rfl, hstore⟩

theorem asScriptFailure (h : Respects R op) (script : Script) :
    Respects R (asScriptFailure script op) := by
  intro s t hst
  obtain ⟨hreply, hstore⟩ := h s t hst
  rcases hs : op.run s with ⟨result, s₁⟩
  rcases ht : op.run t with ⟨result', t₁⟩
  rw [hs, ht] at hreply hstore
  subst hreply
  simp only [RelationalStore.asScriptFailure, ExceptT.run] at hs ht ⊢
  rw [hs, ht]
  cases result <;> exact ⟨rfl, hstore⟩

end Carries

/-! ## Statements, transactions and their inside -/

theorem twins_send (st : Statement α) : Respects Twins (send st) := by
  intro s t h
  have hanswer : s.answered st = t.answered st := by
    rw [answered, answered, h.toPeers.answer, h.working]
  rw [run_send, run_send, h.toPeers.fault, hanswer]
  have hnoted := h.noted st
  split
  · exact ⟨rfl, hnoted⟩
  · exact ⟨rfl, ⟨⟨hnoted.committed, hnoted.board, hnoted.listening, hnoted.announcing,
      hnoted.maxPayload, hnoted.ahead, hnoted.refuses⟩, rfl, hnoted.notices⟩⟩

theorem peers_sendAlone (st : Statement α) : Respects Peers (sendAlone st) := by
  intro s t h
  have hanswer : Rows.answer s.order (s.sentCount + 1) st s.committed =
      Rows.answer t.order (t.sentCount + 1) st t.committed := by
    rw [h.answer, h.committed]
  rw [run_sendAlone, run_sendAlone, h.fault, hanswer]
  have hnoted := h.noted st
  split
  · exact ⟨rfl, hnoted⟩
  · exact ⟨rfl, ⟨rfl, hnoted.board, hnoted.listening, hnoted.announcing, hnoted.maxPayload,
      hnoted.ahead, hnoted.refuses⟩⟩

/-- A statement that is sent on its own leaves an open transaction alone. -/
theorem inside_sendAlone (st : Statement α) (s : RelationalStore) :
    ((sendAlone st).run s).2.working = s.working ∧
      ((sendAlone st).run s).2.notices = s.notices := by
  rw [run_sendAlone]
  split <;> exact ⟨rfl, rfl⟩

theorem carries_begin : Carries Peers Twins begin := by
  have hrollBack : Carries Peers Twins (modifyThe RelationalStore rollBack : Op Unit) :=
    .modify fun _ _ => Peers.rollBack
  refine hrollBack.bind fun _ s t h => ?_
  obtain ⟨hreply, hpeers⟩ := peers_sendAlone .begin s t h.toPeers
  obtain ⟨hworking, hnotices⟩ := inside_sendAlone .begin s
  obtain ⟨hworking', hnotices'⟩ := inside_sendAlone .begin t
  refine ⟨hreply, hpeers, ?_, ?_⟩
  · rw [hworking, hworking', h.working]
  · rw [hnotices, hnotices', h.notices]

theorem twins_commit : Respects Twins commit :=
  (twins_send _).bind fun _ => .modify fun _ _ => Twins.install

theorem twins_notify (channel payload : String) : Respects Twins (notify channel payload) := by
  refine (Carries.lift _).bind fun envelope => (twins_send _).bind fun _ => ?_
  refine .modify fun s t h => ⟨⟨h.committed, h.board, h.listening, h.announcing, h.maxPayload,
    h.ahead, h.refuses⟩, h.working, ?_⟩
  change s.notices ++ [envelope] = t.notices ++ [envelope]
  rw [h.notices]

/-- The inside of a transaction does not tell apart stores on which the transaction has come
equally far. -/
theorem Body.twins {op : Op α} (h : Body op) : Respects Twins op := by
  induction h with
  | pure a => exact .pure a
  | send st => exact twins_send st
  | notify channel payload => exact twins_notify channel payload
  | ask next _ ih =>
    intro s t h
    rw [StoreOp.run_bind, StoreOp.run_bind, StoreOp.run_get, StoreOp.run_get]
    dsimp only
    rw [h.announcing]
    exact ih t.announcing s t h
  | bind _ _ ih ihn => exact ih.bind ihn

end RelationalStore

end ControlBus
