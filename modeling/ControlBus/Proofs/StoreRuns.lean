-- Whatever is done with a store in memory, one thing after the other. From an empty store on, the
-- contents stay tidy, nothing is owed between two acts, and the switchboard works.
import ControlBus.Proofs.BusyStores
import ControlBus.Proofs.ChangeWords

namespace ControlBus

/-! ## Acts -/

/-- What may happen to a store in memory. -/
inductive StoreAct where
  | use (u : StoreUse)
  /-- The next `n` scripts are to fail. -/
  | injectFailures (n : Nat)
  /-- Somebody reads from a subscription. -/
  | read (n id : Nat)
  /-- Somebody lets go of a subscription. -/
  | abandon (id : Nat)

namespace MemoryStore

def act (m : MemoryStore) : StoreAct → MemoryStore
  | .use u => u.run m
  | .injectFailures n => m.injectFailures n
  | .read n id => { m with board := (m.board.read n id).2 }
  | .abandon id => { m with board := m.board.abandon id }

/-- The store after acts, one after the other. -/
def after (acts : List StoreAct) (m : MemoryStore) : MemoryStore := acts.foldl act m

/-- A store between two acts. -/
structure Settled (m : MemoryStore) : Prop where
  tidy : m.contents.Tidy
  quiet : m.contents.outbox = []
  working : m.board.Working

end MemoryStore

/-! ## What a use announces -/

/-- What a use of a store announces, in order. A script that fails announces nothing. -/
def StoreUse.announced : StoreUse → MemoryStore → List Announcement
  | .command (.eval script), m =>
    if m.failuresDue = 0 then (Command.eval script).announces m else []
  | .command c, m => c.announces m
  | .publish channel payload, m =>
    match (m.publish channel payload).1 with
    | .ok _ => [⟨channel, payload⟩]
    | .error _ => []
  | .keys _, _ => []
  | .subscribe _ _, _ => []

namespace Keyspace

variable {k : Keyspace}

theorem Tidy.change (h : k.Tidy) (c : Command) : (c.change k).2.Tidy := by
  cases c with
  | pushBack list entries => exact (Follows.pushBack h list entries).tidy
  | listLength list => exact h
  | addMembers set members => exact (Follows.addMembers h set members).tidy
  | setSize set => exact h
  | record key => exact h
  | mergeFields key fields => exact (Follows.mergeFields h key fields).tidy
  | delete key => exact (Follows.delete h key).tidy
  | eval script => exact h.run script

end Keyspace

/-- From one store to a later one the contents have changed as a use of the store changes them. -/
structure StoreUse.Changes (u : StoreUse) (m : MemoryStore) (k : Keyspace) : Prop where
  announced : k.outbox = u.announced m
  tidy : m.contents.Tidy → k.Tidy
  announcing : m.contents.announcing = true → k.announcing = true
  worded : m.contents.announcing = true → m.contents.Words k

variable {m : MemoryStore}

theorem Command.changes (c : Command)
    (h : StoreUse.announced (.command c) m = c.announces m) :
    StoreUse.Changes (.command c) m (c.change m.contents).2 where
  announced := h.symm
  tidy htidy := htidy.change c
  announcing hannouncing := (Keyspace.Reports.change hannouncing c).announcing
  worded hannouncing := Keyspace.Words.change hannouncing c

/-- A script that is due to fail does nothing else. -/
theorem Command.run_eval_due {n : Nat} (script : Script) (hdue : m.failuresDue = n + 1) :
    ((Command.eval script).perform.run m).2 = { m with failuresDue := n } := by
  have heval : (SharedStore.eval script : StoreOp MemoryStore Output).run m =
      (.error (.scriptFailed script.name "injected failure"), { m with failuresDue := n }) := by
    refine (MemoryStore.eval_eq script m).trans ?_
    rw [hdue]
  rw [perform, StoreOp.run_bind, heval]

/-- A use changes the contents and sends out what it announces, or it is a script that was due to
fail, or it adds a subscription. -/
theorem StoreUse.run_cases (u : StoreUse) (hquiet : m.contents.outbox = []) :
    (∃ k, u.run m = m.settle k ∧ u.Changes m k) ∨
      (∃ n, u.run m = { m with failuresDue := n } ∧ u.announced m = []) ∨
      ∃ channels patterns,
        u.run m = { m with board := (m.board.subscribe channels patterns).2 } ∧
          u.announced m = [] := by
  have hidle := (MemoryStore.settle_contents hquiet).symm
  have hsame : ∀ u : StoreUse, u.announced m = [] → u.Changes m m.contents :=
    fun u hsilent => ⟨hquiet.trans hsilent.symm, id, id,
      fun _ => .of_record (List.prefix_refl _) fun _ => rfl⟩
  cases u with
  | command c =>
    cases c with
    | eval script =>
      cases hdue : m.failuresDue with
      | zero =>
        left
        have hrun := (Command.eval script).run_perform hdue hquiet
        refine ⟨_, congrArg Prod.snd hrun, Command.changes _ ?_⟩
        rw [announced, if_pos hdue]
      | succ n =>
        right
        left
        refine ⟨n, Command.run_eval_due script hdue, ?_⟩
        rw [announced, if_neg (by omega)]
    | listLength list => exact Or.inl ⟨m.contents, hidle, hsame _ hquiet⟩
    | setSize set => exact Or.inl ⟨m.contents, hidle, hsame _ hquiet⟩
    | record key => exact Or.inl ⟨m.contents, hidle, hsame _ hquiet⟩
    | pushBack list entries => exact Or.inl ⟨_, rfl, Command.changes _ rfl⟩
    | addMembers set members => exact Or.inl ⟨_, rfl, Command.changes _ rfl⟩
    | mergeFields key fields => exact Or.inl ⟨_, rfl, Command.changes _ rfl⟩
    | delete key => exact Or.inl ⟨_, rfl, Command.changes _ rfl⟩
  | keys pattern => exact Or.inl ⟨m.contents, hidle, hsame _ rfl⟩
  | publish channel payload =>
    left
    rw [run, MemoryStore.publish]
    cases hsize : SharedStore.checkSize payload.utf8ByteSize m.maxPayload with
    | error e =>
      refine ⟨m.contents, hidle, hsame _ ?_⟩
      rw [announced, MemoryStore.publish, hsize]
    | ok _ =>
      refine ⟨m.contents.announce channel payload,
        (MemoryStore.settle_announce hquiet channel payload).symm, ?_, fun h => h.owing _, id,
        fun _ => .of_record (List.prefix_append _ _) fun _ => rfl⟩
      rw [announced, MemoryStore.publish, hsize, Keyspace.announce, hquiet]
      rfl
  | subscribe channels patterns =>
    right
    right
    exact ⟨channels, patterns, rfl, rfl⟩

/-- No record changes without a word on the channel of its key. -/
theorem StoreUse.announced_of_change (u : StoreUse) (hquiet : m.contents.outbox = [])
    (ha : m.contents.announcing = true) {key : String}
    (hdiff : (u.run m).contents.record key ≠ m.contents.record key) :
    ∃ tag : ChangeTag, ⟨keyspaceChannel key, tag.word⟩ ∈ u.announced m := by
  rcases u.run_cases hquiet with ⟨k, hrun, hk⟩ | ⟨n, hrun, -⟩ | ⟨channels, patterns, hrun, -⟩
  · rw [hrun] at hdiff
    obtain ⟨tag, htag⟩ := (hk.worded ha).2 key hdiff
    exact ⟨tag, hk.announced ▸ htag⟩
  · rw [hrun] at hdiff
    exact absurd rfl hdiff
  · rw [hrun] at hdiff
    exact absurd rfl hdiff

/-! ## Runs -/

namespace MemoryStore.Settled

theorem start (config : StoreConfig) (draws : List Nat) : (config.drawingStore draws).Settled where
  tidy := Keyspace.tidy_start _ _
  quiet := rfl
  working := Switchboard.working_ofBufferSize _

theorem act (h : m.Settled) (a : StoreAct) : (m.act a).Settled := by
  cases a with
  | use u =>
    rw [MemoryStore.act]
    rcases u.run_cases h.quiet with
      ⟨k, hrun, hk⟩ | ⟨n, hrun, -⟩ | ⟨channels, patterns, hrun, -⟩
    · rw [hrun]
      exact ⟨(hk.tidy h.tidy).owing [], rfl, h.working.publishAll _⟩
    · rw [hrun]
      exact ⟨h.tidy, h.quiet, h.working⟩
    · rw [hrun]
      exact ⟨h.tidy, h.quiet, h.working.subscribe channels patterns⟩
  | injectFailures n => exact ⟨h.tidy, h.quiet, h.working⟩
  | read n id => exact ⟨h.tidy, h.quiet, h.working.read n id⟩
  | abandon id => exact ⟨h.tidy, h.quiet, h.working.adjust id fun _ => rfl⟩

/-- Whatever is done with it. -/
theorem after (h : m.Settled) (acts : List StoreAct) : (m.after acts).Settled := by
  induction acts generalizing m with
  | nil => exact h
  | cons a rest ih => exact ih (h.act a)

/-- A store that announces changes goes on doing so. -/
theorem announcing_act (h : m.Settled) (ha : m.contents.announcing = true) (a : StoreAct) :
    (m.act a).contents.announcing = true := by
  cases a with
  | use u =>
    rw [MemoryStore.act]
    rcases u.run_cases h.quiet with ⟨k, hrun, hk⟩ | ⟨n, hrun, -⟩ | ⟨channels, patterns, hrun, -⟩
    · rw [hrun]
      exact hk.announcing ha
    · rw [hrun]
      exact ha
    · rw [hrun]
      exact ha
  | injectFailures n => exact ha
  | read n i => exact ha
  | abandon i => exact ha

theorem announcing_after (h : m.Settled) (ha : m.contents.announcing = true)
    (acts : List StoreAct) : (m.after acts).contents.announcing = true := by
  induction acts generalizing m with
  | nil => exact ha
  | cons a rest ih => exact ih (h.act a) (h.announcing_act ha a)

end MemoryStore.Settled

end ControlBus
