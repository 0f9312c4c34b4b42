-- The relational store statement by statement: what an operation made of statements does to the
-- store, and what it can be relied on to give.
import ControlBus.Proofs.MemoryLaws
import ControlBus.Store.Relational

namespace ControlBus

namespace StoreOp

variable {σ α : Type}

theorem run_get (s : σ) : (getThe σ : StoreOp σ σ).run s = (.ok s, s) := rfl

theorem run_modify (f : σ → σ) (s : σ) :
    (modifyThe σ f : StoreOp σ Unit).run s = (.ok (), f s) := rfl

theorem run_lift (r : Except BusError α) (s : σ) :
    (liftM r : StoreOp σ α).run s = (r, s) := by
  cases r <;> rfl

section Inversion

variable {β : Type} {op : StoreOp σ α} {next : α → StoreOp σ β} {s s' : σ}

/-- Both parts of an operation that succeeds have succeeded. -/
theorem ok_of_bind {b : β} (h : (op >>= next).run s = (.ok b, s')) :
    ∃ a s₁, op.run s = (.ok a, s₁) ∧ (next a).run s₁ = (.ok b, s') := by
  rw [StoreOp.run_bind] at h
  rcases hop : op.run s with ⟨result, s₁⟩
  rw [hop] at h
  cases result with
  | error e => cases h
  | ok a => exact ⟨a, s₁, rfl, h⟩

/-- An operation that fails has failed in its first part or in its second. -/
theorem error_of_bind {e : BusError} (h : (op >>= next).run s = (.error e, s')) :
    op.run s = (.error e, s') ∨
      ∃ a s₁, op.run s = (.ok a, s₁) ∧ (next a).run s₁ = (.error e, s') := by
  rw [StoreOp.run_bind] at h
  rcases hop : op.run s with ⟨result, s₁⟩
  rw [hop] at h
  cases result with
  | error e' =>
    cases h
    exact .inl rfl
  | ok a => exact .inr ⟨a, s₁, rfl, h⟩

end Inversion

/-- An operation that keeps something true of the store, and whose result, if it gives one, can
be relied on. -/
structure Ensures (keep : σ → Prop) (op : StoreOp σ α) (gives : α → Prop) : Prop where
  keeps : ∀ s, keep s → keep (op.run s).2
  result : ∀ s, keep s → ∀ a, (op.run s).1 = .ok a → gives a

namespace Ensures

variable {β : Type} {keep : σ → Prop} {op : StoreOp σ α} {next : α → StoreOp σ β}
  {gives : α → Prop} {final : β → Prop}

theorem pure {a : α} (h : gives a) : Ensures keep (Pure.pure a : StoreOp σ α) gives where
  keeps _ hs := hs
  result _ _ _ ha := Except.ok.inj ha ▸ h

theorem bind (h : Ensures keep op gives) (hn : ∀ a, gives a → Ensures keep (next a) final) :
    Ensures keep (op >>= next) final where
  keeps s hs := by
    have hk := h.keeps s hs
    have hr := h.result s hs
    rw [StoreOp.run_bind]
    rcases hop : op.run s with ⟨result, s'⟩
    rw [hop] at hk hr
    cases result with
    | error e => exact hk
    | ok a => exact (hn a (hr a rfl)).keeps s' hk
  result s hs b hb := by
    have hk := h.keeps s hs
    have hr := h.result s hs
    rw [StoreOp.run_bind] at hb
    rcases hop : op.run s with ⟨result, s'⟩
    rw [hop] at hk hr hb
    cases result with
    | error e => cases hb
    | ok a => exact (hn a (hr a rfl)).result s' hk b hb

theorem lift (r : Except BusError α) : Ensures keep (liftM r : StoreOp σ α) fun _ => True where
  keeps s hs := by rwa [StoreOp.run_lift]
  result _ _ _ _ := trivial

/-- An operation that is made on a condition, and what is done next either way. -/
theorem whenThen {c : Prop} [Decidable c] {op : StoreOp σ Unit} {next : Unit → StoreOp σ β}
    (h : Ensures keep op fun _ => True) (hn : Ensures keep (next ()) final) :
    Ensures keep (if c then op >>= next else next ()) final := by
  split
  · exact h.bind fun _ _ => hn
  · exact hn

end Ensures

end StoreOp

namespace RelationalStore

/-! ## Statements -/

variable {α : Type}

/-- A store that has noted a statement. -/
def noted (st : Statement α) (s : RelationalStore) : RelationalStore :=
  { s with log := ⟨st.sql, st.bound⟩ :: s.log, sentCount := s.sentCount + 1 }

/-- What the open transaction gets for its next statement. -/
def answered (st : Statement α) (s : RelationalStore) : α × Rows :=
  Rows.answer s.order (s.sentCount + 1) st s.working

theorem run_sendOn (st : Statement α) (rows : Rows) (s : RelationalStore) :
    (sendOn st rows).run s =
      if s.faults.contains (s.sentCount + 1) then
        (.error (DatabaseFault.rejected "injected").toError, s.noted st)
      else (.ok (Rows.answer s.order (s.sentCount + 1) st rows), s.noted st) := by
  simp only [sendOn, ExceptT.run, noted]

theorem run_send (st : Statement α) (s : RelationalStore) :
    (send st).run s =
      if s.faults.contains (s.sentCount + 1) then
        (.error (DatabaseFault.rejected "injected").toError, s.noted st)
      else (.ok (s.answered st).1, { s.noted st with working := (s.answered st).2 }) := by
  have h := run_sendOn st s.working s
  simp only [send]
  rw [StoreOp.run_bind, StoreOp.run_get]
  dsimp only
  rw [StoreOp.run_bind, h]
  by_cases hf : s.faults.contains (s.sentCount + 1)
  · simp only [hf, if_true]
  · simp only [hf, Bool.false_eq_true, if_false]
    rfl

theorem run_sendAlone (st : Statement α) (s : RelationalStore) :
    (sendAlone st).run s =
      if s.faults.contains (s.sentCount + 1) then
        (.error (DatabaseFault.rejected "injected").toError, s.noted st)
      else
        (.ok (Rows.answer s.order (s.sentCount + 1) st s.committed).1,
          { s.noted st with
            committed := (Rows.answer s.order (s.sentCount + 1) st s.committed).2 }) := by
  have h := run_sendOn st s.committed s
  simp only [sendAlone]
  rw [StoreOp.run_bind, StoreOp.run_get]
  dsimp only
  rw [StoreOp.run_bind, h]
  by_cases hf : s.faults.contains (s.sentCount + 1)
  · simp only [hf, if_true]
  · simp only [hf, Bool.false_eq_true, if_false]
    rfl

/-! ## What becomes of a failure -/

section Failures

variable {op : Op α} {s s' : RelationalStore} {a : α} {e : BusError}

theorem run_orRollBack (h : op.run s = (.ok a, s')) : (orRollBack op).run s = (.ok a, s') := by
  simp only [orRollBack, ExceptT.run] at h ⊢
  rw [h]

theorem ok_of_orRollBack (h : (orRollBack op).run s = (.ok a, s')) : op.run s = (.ok a, s') := by
  simp only [orRollBack, ExceptT.run] at h
  split at h
  · cases h
  · exact h

theorem error_of_orRollBack (h : (orRollBack op).run s = (.error e, s')) :
    ∃ s₁, op.run s = (.error e, s₁) ∧ s' = s₁.rollBack := by
  rcases hop : op.run s with ⟨result, s₁⟩
  simp only [orRollBack, ExceptT.run] at h hop
  rw [hop] at h
  cases result <;> cases h
  exact ⟨s₁, rfl, rfl⟩

theorem run_asScriptFailure (script : Script) (h : op.run s = (.ok a, s')) :
    (asScriptFailure script op).run s = (.ok a, s') := by
  simp only [asScriptFailure, ExceptT.run] at h ⊢
  rw [h]

theorem ok_of_asScriptFailure {script : Script}
    (h : (asScriptFailure script op).run s = (.ok a, s')) : op.run s = (.ok a, s') := by
  simp only [asScriptFailure, ExceptT.run] at h
  split at h
  · cases h
  · exact h

theorem error_of_asScriptFailure {script : Script}
    (h : (asScriptFailure script op).run s = (.error e, s')) :
    ∃ cause : BusError, e = .scriptFailed script.name cause.message ∧
      op.run s = (.error cause, s') := by
  rcases hop : op.run s with ⟨result, s₁⟩
  simp only [asScriptFailure, ExceptT.run] at h hop
  rw [hop] at h
  cases result with
  | error cause =>
    cases h
    exact ⟨cause, rfl, rfl⟩
  | ok a => cases h

end Failures

/-! ## Notifications that arrive -/

/-- What a text that arrives on the event channel makes of the subscriptions. -/
def heard (listening : Bool) (board : Switchboard) (text : String) : Switchboard :=
  if listening then
    match Envelope.decode text with
    | some e => (board.publish e.channel e.payload).2
    | none => board
  else board

theorem route_eq (text : String) (s : RelationalStore) :
    s.route text = { s with board := heard s.listening s.board text } := by
  unfold route heard
  split
  · cases Envelope.decode text <;> rfl
  · rfl

/-- Besides the contents, a commit changes the subscriptions and nothing else. -/
theorem install_eq (s : RelationalStore) :
    s.install = { s with
      committed := s.working
      notices := []
      board := s.notices.eraseDups.foldl (heard s.listening) s.board } := by
  have hroute : ∀ (texts : List String) (s : RelationalStore),
      texts.foldl (fun s text => s.route text) s =
        { s with board := texts.foldl (heard s.listening) s.board } := by
    intro texts
    induction texts with
    | nil => exact fun _ => rfl
    | cons text rest ih =>
      intro s
      simp only [List.foldl_cons]
      rw [ih, route_eq]
  exact hroute _ _

/-! ## The order that the database keeps to -/

variable {order : RowOrder}

/-- The database orders rows this way. -/
def OrderedBy (order : RowOrder) (s : RelationalStore) : Prop := s.order = order

/-- An operation under this order whose result can be relied on. -/
abbrev Yields (order : RowOrder) (op : Op α) (gives : α → Prop) : Prop :=
  StoreOp.Ensures (OrderedBy order) op gives

theorem yields_send (st : Statement α) :
    Yields order (send st) fun a => ∃ n rows, a = (Rows.answer order n st rows).1 where
  keeps s hs := by
    rw [run_send]
    split <;> exact hs
  result s hs a ha := by
    rw [run_send] at ha
    split at ha
    · cases ha
    · exact ⟨s.sentCount + 1, s.working, (Except.ok.inj ha).symm.trans (by rw [answered, hs])⟩

theorem yields_sendAlone (st : Statement α) : Yields order (sendAlone st) fun _ => True where
  keeps s hs := by
    rw [run_sendAlone]
    split <;> exact hs
  result _ _ _ _ := trivial

theorem yields_modify {f : RelationalStore → RelationalStore}
    (h : ∀ s, (f s).order = s.order) :
    Yields order (modifyThe RelationalStore f : Op Unit) fun _ => True where
  keeps s hs := (h s).trans hs
  result _ _ _ _ := trivial

theorem order_install (s : RelationalStore) : s.install.order = s.order := by
  rw [install_eq]

theorem yields_orRollBack {op : Op α} {gives : α → Prop} (h : Yields order op gives) :
    Yields order (orRollBack op) gives where
  keeps s hs := by
    have hk := h.keeps s hs
    simp only [orRollBack, ExceptT.run] at hk ⊢
    split
    · rename_i s' hop
      rw [hop] at hk
      exact hk
    · exact hk
  result s hs a ha := by
    have hr := h.result s hs
    simp only [orRollBack, ExceptT.run] at hr ha
    split at ha
    · cases ha
    · exact hr a ha

theorem yields_script {script : Script} {gives : Output → Prop}
    (h : Yields order (steps script) gives) : Yields order (eval script) gives := by
  have hbegin : Yields order begin fun _ => True :=
    (yields_modify (f := rollBack) fun _ => rfl).bind fun _ _ => yields_sendAlone _
  have hcommit : Yields order commit fun _ => True :=
    (yields_send _).bind fun _ _ => yields_modify order_install
  have hbody := yields_orRollBack (h.bind fun output ho => hcommit.bind fun _ _ =>
    StoreOp.Ensures.pure ho)
  refine hbegin.bind fun _ _ => ⟨fun s hs => ?_, fun s hs a ha => ?_⟩
  · have hk := hbody.keeps s hs
    simp only [asScriptFailure, ExceptT.run] at hk ⊢
    split
    · rename_i hop
      rw [hop] at hk
      exact hk
    · exact hk
  · have hr := hbody.result s hs a
    simp only [asScriptFailure, ExceptT.run] at hr ha
    split at ha
    · cases ha
    · exact hr ha

end RelationalStore

end ControlBus
