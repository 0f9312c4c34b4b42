-- Whatever a store in a database has accepted can be taken out again. No row is ever stored whose
-- removal could not be announced, so no oversized key blocks a queue or a set of pending keys.
import ControlBus.Proofs.AllOrNothing
import ControlBus.Proofs.KeySearch
import ControlBus.Proofs.MirrorRuns
import ControlBus.Proofs.Removals

namespace ControlBus

theorem RowOrder.Honest.startingAt {order : RowOrder} (h : order.Honest) (n : Nat) :
    (order.startingAt n).Honest where
  entries m := h.entries (m - n)
  fields m := h.fields (m - n)
  draw m := h.draw (m - n)

theorem RowOrder.honest_newestFirst : RowOrder.newestFirst.Honest where
  toOrderly := RowOrder.orderly_newestFirst
  draw _ members h :=
    (List.perm_ext_iff_of_nodup (Keyspace.nodup_of_rising (Keyspace.rising_sorted members)) h).mpr
      fun _ => Keyspace.mem_sorted

namespace RelationalStore

variable {α : Type} {terms : Terms} {strict : Prop} {P : Rows → Prop} {Q : α → Rows → Prop}
  {s s' : RelationalStore}

/-! ## Whole transactions -/

/-- The store meets these terms, and it has committed rows with `P`. Where `strict`, the database is
honest. -/
structure AtRest (terms : Terms) (strict : Prop) (P : Rows → Prop) (s : RelationalStore) :
    Prop where
  announcing : s.announcing = terms.announcing
  faults : s.faults = terms.faults
  honest : strict → s.order.Honest
  rows : P s.committed

/-- A transaction begins with the rows that are committed. -/
theorem AtRest.begin (hs : AtRest terms strict P s) :
    (∀ a s', RelationalStore.begin.run s = (.ok a, s') → Within terms strict P s') ∧
      ∀ e s', RelationalStore.begin.run s = (.error e, s') → Refused terms e s' := by
  have hrun : RelationalStore.begin.run s = (sendAlone .begin).run s.rollBack := rfl
  rw [hrun, run_sendAlone]
  by_cases hfault : s.rollBack.faults.contains (s.rollBack.sentCount + 1)
  · rw [if_pos hfault]
    refine ⟨(fun a s' ha => nomatch ha), fun e s' he => ?_⟩
    cases he
    exact ⟨rfl, hs.faults ▸ List.contains_iff_mem.mp hfault⟩
  · rw [if_neg hfault]
    refine ⟨fun a s' ha => ?_, fun e s' he => nomatch he⟩
    cases ha
    exact ⟨hs.announcing, hs.faults, hs.honest, hs.rows⟩

/-- With the commit the rows of the open transaction are those that are committed. -/
theorem Within.commit (hs : Within terms strict P s) :
    (∀ a s', RelationalStore.commit.run s = (.ok a, s') → AtRest terms strict P s') ∧
      (strict → ∀ e s', RelationalStore.commit.run s = (.error e, s') → Refused terms e s') := by
  have hsend : Leads terms strict P (send .commit) fun _ => P := .send fun _ _ _ _ hr => hr
  constructor
  · intro a s' ha
    obtain ⟨b, s₁, hsent, hinstall⟩ := StoreOp.ok_of_bind ha
    have hs₁ := hsend.ok s b s₁ hs hsent
    rw [StoreOp.run_modify, install_eq] at hinstall
    cases hinstall
    exact ⟨hs₁.announcing, hs₁.faults, hs₁.honest, hs₁.rows⟩
  · intro hstrict e s' he
    rcases StoreOp.error_of_bind he with hsent | ⟨_, s₁, -, hinstall⟩
    · exact hsend.error hstrict s e s' hs hsent
    · cases hinstall

namespace Leads

/-- The part of a transaction that follows its beginning. -/
theorem concluded {op : Op α} (h : Leads terms strict P op Q) (hs : Within terms strict P s) :
    (∀ a s', (orRollBack do
        let a ← op
        commit
        return a).run s = (.ok a, s') → AtRest terms strict (Q a) s') ∧
      (strict → ∀ e s', (orRollBack do
        let a ← op
        commit
        return a).run s = (.error e, s') → Refused terms e s') := by
  constructor
  · intro a s' ha
    obtain ⟨b, s₁, hop, hrest⟩ := StoreOp.ok_of_bind (ok_of_orRollBack ha)
    obtain ⟨done, s₂, hcommit, hreturn⟩ := StoreOp.ok_of_bind hrest
    cases hreturn
    exact (h.ok s a s₁ hs hop).commit.1 done s' hcommit
  · intro hstrict e s' he
    obtain ⟨s₁, hfailed, rfl⟩ := error_of_orRollBack he
    have hrefused : Refused terms e s₁ := by
      rcases StoreOp.error_of_bind hfailed with hop | ⟨b, s₂, hop, hrest⟩
      · exact h.error hstrict s e s₁ hs hop
      · rcases StoreOp.error_of_bind hrest with hcommit | ⟨_, s₃, -, hreturn⟩
        · exact (h.ok s b s₂ hs hop).commit.2 hstrict e s₁ hcommit
        · cases hreturn
    exact ⟨hrefused.error, hrefused.last⟩

theorem transact {op : Op α} (h : Leads terms strict P op Q) (hs : AtRest terms strict P s) {a : α}
    (ha : (transact op).run s = (.ok a, s')) : AtRest terms strict (Q a) s' := by
  obtain ⟨_, s₁, hbegin, hbody⟩ := StoreOp.ok_of_bind ha
  exact (h.concluded (hs.begin.1 _ s₁ hbegin)).1 a s' hbody

theorem eval {script : Script} {Q : Output → Rows → Prop}
    (h : Leads terms strict P (RelationalStore.steps script) Q) (hs : AtRest terms strict P s) :
    (∀ output s', (RelationalStore.eval script).run s = (.ok output, s') →
        AtRest terms strict (Q output) s') ∧
      (strict → ∀ e s', (RelationalStore.eval script).run s = (.error e, s') →
        s'.sentCount ∈ terms.faults ∧
          (e = refusal ∨ e = .scriptFailed script.name refusal.message)) := by
  constructor
  · intro output s' ha
    obtain ⟨_, s₁, hbegin, hbody⟩ := StoreOp.ok_of_bind ha
    exact (h.concluded (hs.begin.1 _ s₁ hbegin)).1 output s' (ok_of_asScriptFailure hbody)
  · intro hstrict e s' he
    rcases StoreOp.error_of_bind he with hbegin | ⟨_, s₁, hbegin, hbody⟩
    · have hrefused := hs.begin.2 e s' hbegin
      exact ⟨hrefused.last, .inl hrefused.error⟩
    · obtain ⟨cause, rfl, hfailed⟩ := error_of_asScriptFailure hbody
      have hrefused := (h.concluded (hs.begin.1 _ s₁ hbegin)).2 hstrict cause s' hfailed
      exact ⟨hrefused.last, .inr (by rw [hrefused.error])⟩

end Leads

/-! ## What stays true of a store -/

/-- The rows that are committed vouch for their removal. -/
def Vouching (s : RelationalStore) : Prop := s.committed.Vouched s.announcing

theorem AtRest.vouching (h : AtRest terms strict (fun r => r.Vouched terms.announcing) s) :
    s.Vouching := by
  rw [Vouching, h.announcing]
  exact h.rows

theorem Unseen.vouching (hseen : Unseen s s') (h : s.Vouching) : s'.Vouching := by
  rw [Vouching, hseen.committed, hseen.announcing]
  exact h

/-- A question on its own leaves the rows that are committed. -/
theorem vouching_sendAlone {st : Statement α} {a : α} (h : s.Vouching)
    (hask : ∀ order n r, (Rows.answer order n st r).2 = r)
    (ha : (sendAlone st).run s = (.ok a, s')) : s'.Vouching := by
  rw [run_sendAlone] at ha
  split at ha
  · cases ha
  · cases ha
    rw [Vouching, hask]
    exact h

/-- The terms that a store meets, where nothing is said about its database. -/
theorem Vouching.atRest (h : s.Vouching) :
    AtRest ⟨s.announcing, s.faults⟩ False (fun r => r.Vouched s.announcing) s :=
  ⟨rfl, rfl, False.elim, h⟩

theorem Vouching.transact {op : Op α} {a : α} (h : s.Vouching)
    (hop : Leads ⟨s.announcing, s.faults⟩ False (fun r => r.Vouched s.announcing) op
      fun _ r => r.Vouched s.announcing)
    (ha : (RelationalStore.transact op).run s = (.ok a, s')) : s'.Vouching :=
  AtRest.vouching (hop.transact h.atRest ha)

/-- Whoever gets a reply got the answer from which it is made. -/
theorem ok_of_reply {β : Type} {op : Op α} {reply : α → β} {b : β}
    (h : (do return reply (← op) : Op β).run s = (.ok b, s')) : ∃ a, op.run s = (.ok a, s') := by
  obtain ⟨a, s₁, hop, hreply⟩ := StoreOp.ok_of_bind h
  cases hreply
  exact ⟨a, hop⟩

/-- A command that succeeds leaves rows that vouch for their removal. -/
theorem Vouching.command (h : s.Vouching) (c : Command) {reply : Reply}
    (hrun : (c.perform : Op Reply).run s = (.ok reply, s')) : s'.Vouching := by
  have hlax : ¬ False := not_false
  have hstock : ∀ r : Rows, r.Vouched s.announcing →
      Stock ⟨s.announcing, s.faults⟩ (fun _ => True) r := fun r hr => ⟨hr, trivial⟩
  cases c with
  | pushBack list entries =>
    obtain ⟨n, hop⟩ := ok_of_reply hrun
    exact h.transact ((Leads.pushBack hlax list entries).mono hstock
      fun _ _ hr => hr.vouched) hop
  | listLength list =>
    obtain ⟨n, hop⟩ := ok_of_reply hrun
    have hcount : Leads ⟨s.announcing, s.faults⟩ False (fun r => r.Vouched s.announcing)
        (send (.countEntries list)) fun _ r => r.Vouched s.announcing :=
      .send fun _ _ _ _ hr => hr
    exact h.transact hcount hop
  | addMembers set members =>
    obtain ⟨n, hop⟩ := ok_of_reply hrun
    exact h.transact (Leads.addMembers hlax set members) hop
  | setSize set =>
    obtain ⟨n, hop⟩ := ok_of_reply hrun
    exact vouching_sendAlone h (fun _ _ _ => rfl) hop
  | record key =>
    obtain ⟨fields, hop⟩ := ok_of_reply hrun
    exact vouching_sendAlone h (fun _ _ _ => rfl) hop
  | mergeFields key fields =>
    obtain ⟨_, hop⟩ := ok_of_reply hrun
    exact h.transact ((Leads.mergeFields fields False.elim).mono hstock
      fun _ _ hr => hr.vouched) hop
  | delete key =>
    obtain ⟨existed, hop⟩ := ok_of_reply hrun
    exact h.transact ((Leads.delete key fun _ _ => trivial).mono hstock
      fun _ _ hr => hr.vouched) hop
  | eval script =>
    obtain ⟨output, hop⟩ := ok_of_reply hrun
    exact AtRest.vouching ((Leads.eval (Leads.steps hlax script) h.atRest).1 output _ hop)

/-- Whatever is asked of a store, the rows that are committed vouch for their removal. -/
theorem Vouching.perform (h : s.Vouching) (q : Request α) : (q.perform.run s).2.Vouching := by
  rcases hrun : q.perform.run s with ⟨result, s'⟩
  cases result with
  | error e => exact (q.allOrNothing.undone s e s' hrun).vouching h
  | ok a =>
    cases q with
    | command c => exact h.command c hrun
    | keys pattern =>
      obtain ⟨found, hask⟩ := ok_of_reply hrun
      exact vouching_sendAlone h (fun _ _ _ => rfl) hask
    | publish channel payload =>
      change (RelationalStore.publish channel payload).run s = _ at hrun
      rw [RelationalStore.publish] at hrun
      obtain ⟨t, s₁, hget, hrun⟩ := StoreOp.ok_of_bind hrun
      cases hget
      obtain ⟨_, s₁, hcheck, hrun⟩ := StoreOp.ok_of_bind hrun
      rw [StoreOp.run_lift] at hcheck
      obtain ⟨-, rfl⟩ := Prod.mk.inj hcheck
      obtain ⟨_, hop⟩ := ok_of_reply hrun
      refine h.transact ?_ hop
      by_cases hfits : (⟨channel, payload⟩ : Announcement).Fits
      · exact Leads.notify hfits
      · exact Leads.notify_of_not hfits not_false
    | subscribe channels patterns =>
      cases hrun
      exact h

theorem Vouching.stepAll (h : s.Vouching) (earlier : List Happening) :
    (Happening.stepAll earlier s).Vouching := by
  induction earlier generalizing s with
  | nil => exact h
  | cons one rest ih =>
    apply ih
    cases one with
    | request q => exact h.perform q
    | attend f => exact h
    | stopListening => exact h

/-! ## Taking out -/

/-- A script gives this, or the statement that it sent last was refused and is why it fails. -/
def GivesUnlessRefused (script : Script) (gives : Output → RelationalStore → Prop)
    (s : RelationalStore) : Prop :=
  (∃ output s', (eval script).run s = (.ok output, s') ∧ gives output s') ∨
    ∃ e s', (eval script).run s = (.error e, s') ∧ s'.sentCount ∈ s.faults ∧
      (e = refusal ∨ e = .scriptFailed script.name refusal.message)

theorem Leads.gives {script : Script} {Q : Output → Rows → Prop}
    (h : Leads terms True P (RelationalStore.steps script) Q) (hs : AtRest terms True P s)
    {gives : Output → RelationalStore → Prop}
    (hQ : ∀ output s', Q output s'.committed → gives output s') :
    GivesUnlessRefused script gives s := by
  obtain ⟨hok, herror⟩ := h.eval hs
  rcases hrun : (RelationalStore.eval script).run s with ⟨result, s'⟩
  cases result with
  | ok output => exact .inl ⟨output, s', hrun, hQ output s' (hok output s' hrun).rows⟩
  | error e =>
    obtain ⟨hlast, hreason⟩ := herror trivial e s' hrun
    exact .inr ⟨e, s', hrun, hs.faults ▸ hlast, hreason⟩

/-- After whatever was asked of a store that was empty at first, with or without success: a script
that takes something out does so, unless the database refuses a statement. A list gives its first
entries, a table gives as many of its pending keys as are asked for and keeps the others pending,
and to clear a table ends all pending keys. -/
theorem whatever_is_stored_can_be_taken_out (start : RelationalStore)
    (hempty : start.committed = {}) (earlier : List Happening) (choices : RowOrder)
    (hchoices : choices.Honest) (refused : List Nat) :
    let s := (Happening.stepAll earlier start).facing choices refused
    (∀ list max, GivesUnlessRefused (.popFront list max) (fun output s' =>
      output = .entries ((s.committed.list list).take (limitOf max)) ∧
        s'.committed.list list = (s.committed.list list).drop (limitOf max)) s) ∧
    (∀ (t : TableName) max, GivesUnlessRefused (.coalescedPop t.layout max) (fun output s' =>
      ∃ popped : List Popped, output = .records popped ∧
        popped.length = min (limitOf max) (s.committed.membersOf t.pendingSet).length ∧
        (popped.map (·.1) ++ s'.committed.membersOf t.pendingSet).Perm
          (s.committed.membersOf t.pendingSet)) s) ∧
    (∀ t : TableName, GivesUnlessRefused (.coalescedClear t.layout) (fun output s' =>
      output = .count (min (limitOf Text.maxUnsigned64)
          (s.committed.membersOf t.pendingSet).length) ∧
        (s'.committed.membersOf t.pendingSet).length =
          (s.committed.membersOf t.pendingSet).length - limitOf Text.maxUnsigned64) s) := by
  intro s
  have hstart : start.Vouching := by
    rw [Vouching, hempty]
    exact Rows.vouched_empty _
  have hvouching : s.Vouching := hstart.stepAll earlier
  have hrest : ∀ P : Rows → Prop, P s.committed →
      AtRest ⟨s.announcing, s.faults⟩ True P s := fun P hP =>
    ⟨rfl, rfl, fun _ => hchoices.startingAt _, hP⟩
  refine ⟨fun list max => ?_, fun t max => ?_, fun t => ?_⟩
  · refine (Leads.popFrontScript list max _).gives (hrest _ ⟨hvouching, rfl⟩) ?_
    exact fun output s' h => h.2 trivial
  · refine (Leads.coalescedPop (fun _ => ⟨t, rfl⟩) max _).gives (hrest _ ⟨hvouching, rfl⟩) ?_
    exact fun output s' h => h.2 trivial
  · refine (Leads.coalescedClear (fun _ => ⟨t, rfl⟩) _).gives (hrest _ ⟨hvouching, rfl⟩) ?_
    exact fun output s' h => h.2 trivial

/-- Pending keys can be popped also after a key was staged that is too long to be announced. -/
theorem pending_keys_can_be_popped_after_refusal :
    let t : TableName := { name := "PORT" }
    let start := ({} : StoreConfig).orderingStore .newestFirst
    let earlier : List Happening :=
      [.request (.command (.eval (.stageWrite t.layout "Eth0" [("mtu", "9100")] wakeToken))),
       .request (.command (.eval (.stageWrite t.layout (String.ofList (List.replicate 8000 'x'))
         [("mtu", "1500")] wakeToken)))]
    let s := (Happening.stepAll earlier start).facing .newestFirst []
    start.committed = {} ∧ RowOrder.newestFirst.Honest ∧
      ∃ output s', (eval (.coalescedPop t.layout 128)).run s = (.ok output, s') ∧
        ∃ popped : List Popped, output = .records popped ∧
          (popped.map (·.1) ++ s'.committed.membersOf t.pendingSet).Perm
            (s.committed.membersOf t.pendingSet) := by
  intro t start earlier s
  refine ⟨rfl, RowOrder.honest_newestFirst, ?_⟩
  have hout := whatever_is_stored_can_be_taken_out start rfl earlier .newestFirst
    RowOrder.honest_newestFirst []
  rcases hout.2.1 t 128 with ⟨output, s', hrun, popped, houtput, -, hperm⟩ | ⟨_, _, -, hlast, -⟩
  · exact ⟨output, s', hrun, popped, houtput, hperm⟩
  · cases hlast

end RelationalStore

end ControlBus
