-- Both stores under the same commands. From empty stores, with the same random choices, a store
-- in a database gives the same results as the store in memory, holds the same lists, sets and
-- records, and issues the same announcements in the same order.
import ControlBus.Proofs.Commands
import ControlBus.Proofs.MirrorSteps
import ControlBus.Store.Backend

namespace ControlBus

open RelationalStore

/-! ## Random draws -/

variable {k : Keyspace} {s : RelationalStore} {before : List Announcement}

theorem Pictures.drawing {r : Rows} (h : Pictures k r) (draws : List Nat) :
    Pictures { k with draws } r :=
  ⟨⟨h.tidy.sets, h.tidy.lists, h.tidy.members, h.tidy.records⟩, h.valid, h.lists, h.members,
    h.records⟩

/-- A set without the members that the database answers. -/
theorem Pictures.popMembers {r : Rows} {order : RowOrder} {n limit : Nat} {key : String}
    (h : Pictures k r) {x : RandomSet} (hx : x.Valid)
    (hleft : ∀ m, m ∈ x.members ↔
      m ∈ k.members key ∧ m ∉ (Rows.answer order n (.popMembers key limit) r).1) :
    Pictures (k.withSet key x) (Rows.answer order n (.popMembers key limit) r).2 := by
  refine h.changeSet key hx (h.valid.popMembers key limit) rfl rfl ?_ ?_
  · intro row hrow
    rw [Rows.mem_popMembers]
    constructor
    · exact And.left
    · intro hin
      exact ⟨hin, fun hkey => hrow hkey.1⟩
  · intro m
    rw [Rows.mem_popMembers, hleft, h.members]
    simp

/-- A draw takes nothing, or it leaves a set without the members drawn. -/
theorem Keyspace.popMembers_cases (h : k.SetsValid) (key : String) (max : Nat) :
    k.popMembers key max = ([], k) ∨
      ∃ popped x draws, popped ≠ [] ∧ x.Valid ∧
        k.popMembers key max = (popped, ({ k with draws }.withSet key x).touch key .spop) ∧
        ∀ m, m ∈ x.members ↔ m ∈ k.members key ∧ m ∉ popped := by
  obtain ⟨hvalid, hperm, -⟩ := RandomSet.drawMany_spec (min max (k.setSize key)) k.draws (h key)
  rcases hdrawn : (k.set key).drawMany (min max (k.setSize key)) k.draws with ⟨popped, draws, x⟩
  rw [hdrawn] at hvalid hperm
  by_cases hpopped : popped = []
  · left
    simp [Keyspace.popMembers, hdrawn, hpopped]
  · right
    refine ⟨popped, x, draws, hpopped, hvalid, by simp [Keyspace.popMembers, hdrawn, hpopped], ?_⟩
    intro m
    have hnodup := hperm.nodup_iff.mp (h key).nodup
    have hapart := (List.nodup_append.mp hnodup).2.2
    rw [Keyspace.members, hperm.mem_iff, List.mem_append]
    constructor
    · intro hm
      exact ⟨Or.inr hm, fun hp => hapart m hp m hm rfl⟩
    · rintro ⟨hp | hm, hnot⟩
      · exact absurd hp hnot
      · exact hm

theorem Keyspace.Tidy.popMembers (h : k.Tidy) (key : String) (max : Nat) :
    (k.popMembers key max).2.Tidy := by
  rcases Keyspace.popMembers_cases h.sets key max with hnone | ⟨popped, x, draws, -, hx, hsome, -⟩
  · rw [hnone]
    exact h
  · have hdrawing : ({ k with draws } : Keyspace).Tidy := ⟨h.sets, h.lists, h.members, h.records⟩
    rw [hsome]
    exact (hdrawing.withSet key hx).touch key .spop

/-- If both stores draw the same members, they go on alike. -/
theorem Mirrors.run_popMembers (h : Mirrors before k s) (key : String) {max limit : Nat}
    (hchoice : (s.answered (.popMembers key (limitOf limit))).1 = (k.popMembers key max).1)
    (hfits : ∀ a ∈ (k.popMembers key max).2.outbox, a.Fits) :
    ∃ s', (popMembers key limit).run s = (.ok (k.popMembers key max).1, s') ∧
      Mirrors before (k.popMembers key max).2 s' := by
  have ht := h.contents.tidy
  unfold RelationalStore.popMembers
  rw [StoreOp.run_bind, h.run_send]
  dsimp only
  rw [hchoice]
  rcases Keyspace.popMembers_cases ht.sets key max with
    hnone | ⟨popped, x, draws, hne, hx, hsome, hleft⟩
  · rw [hnone] at hchoice ⊢
    have hsame : Pictures (k.withSet key (k.set key))
        (s.answered (.popMembers key (limitOf limit))).2 := by
      refine h.contents.popMembers (ht.sets key) ?_
      intro m
      change _ ↔ _ ∧ m ∉ (s.answered (.popMembers key (limitOf limit))).1
      rw [hchoice]
      simp [Keyspace.members]
    exact ⟨_, rfl, h.sent rfl (hsame.of_withSet ht) rfl rfl⟩
  · rw [hsome] at hchoice hfits ⊢
    have hpictures : Pictures ({ k with draws }.withSet key x)
        (s.answered (.popMembers key (limitOf limit))).2 := by
      refine (h.contents.drawing draws).popMembers hx ?_
      intro m
      change _ ↔ _ ∧ m ∉ (s.answered (.popMembers key (limitOf limit))).1
      rw [hchoice]
      exact hleft m
    have hanswer := Follows.touchThen hpictures.tidy key .spop popped
    rw [if_pos (by simpa using hne)]
    exact hanswer.runs before _ (h.sent rfl hpictures rfl rfl) hfits

/-! ## Scripts -/

namespace Follows

theorem lockThen {α : Type} {op : Op α} {result : α × Keyspace} (resource : String)
    (h : Follows k op result) : Follows k (send (.lock resource) >>= fun _ => op) result := by
  refine sendThen k rfl rfl rfl h.tidy h.grows ?_
  intro r order n hr _
  exact ⟨hr, h⟩

theorem pushAndPublish (ht : k.Tidy) (list : String) (entries : List String)
    (channel payload : String) :
    Follows k (steps (.pushAndPublish list entries channel payload))
      (k.run (.pushAndPublish list entries channel payload)) := by
  have hpush := pushBack ht list entries
  have hnotify := notify hpush.tidy channel payload
  refine lockThen list (hpush.bind ?_)
  exact hnotify.bind (Follows.pure hnotify.tidy _)

theorem popFrontScript (ht : k.Tidy) (list : String) {max : Nat}
    (hmax : min max (k.listLength list) ≤ Text.maxSigned64) :
    Follows k (steps (.popFront list max)) (k.run (.popFront list max)) := by
  have hpop := popFront ht list hmax
  refine lockThen list (hpop.bind ?_)
  exact Follows.pure hpop.tidy _

theorem stageWrite (ht : k.Tidy) (l : Layout) (key : String) (fields : FieldList)
    (token : String) :
    Follows k (steps (.stageWrite l key fields token))
      (k.run (.stageWrite l key fields token)) := by
  have hmerge := mergeFields ht (l.stagingKey key) fields
  refine lockThen l.pendingSet (hmerge.bind ?_)
  exact markPending hmerge.tidy l key token

theorem stageDelete (ht : k.Tidy) (l : Layout) (key token : String) :
    Follows k (steps (.stageDelete l key token)) (k.run (.stageDelete l key token)) := by
  have htake := takeRecord ht (l.stagingKey key)
  have hadd := addMember htake.tidy l.deleteSet key
  have hmark := markPending hadd.tidy l key token
  refine lockThen l.pendingSet (htake.bind (hadd.bind ?_))
  exact hmark

end Follows

/-! ## Transactions -/

/-- Between operations: what is committed pictures the contents in memory, nothing is owed, and
neither store is about to fail. -/
structure Alike (m : MemoryStore) (r : RelationalStore) : Prop where
  contents : Pictures m.contents r.committed
  faultless : r.faults = []
  orderly : r.order.Orderly
  announcing : r.announcing = m.contents.announcing
  ready : m.failuresDue = 0
  quiet : m.contents.outbox = []

/-- A store that has just begun a transaction. -/
structure Begun (r s : RelationalStore) : Prop where
  working : s.working = r.committed
  order : s.order = r.order
  sentCount : s.sentCount = r.sentCount + 1

/-- What an operation does in a transaction that has just begun. -/
def Performs {α : Type} (m : MemoryStore) (r : RelationalStore) (op : Op α)
    (result : α × Keyspace) : Prop :=
  ∀ s, Begun r s → Mirrors r.issued m.contents s →
    ∃ s', op.run s = (.ok result.1, s') ∧ Mirrors r.issued result.2 s'

variable {m : MemoryStore} {r : RelationalStore}

theorem Follows.performs {α : Type} {op : Op α} {result : α × Keyspace}
    (h : Follows m.contents op result) (hfits : ∀ a ∈ result.2.outbox, a.Fits) :
    Performs m r op result := fun s _ hm => h.runs r.issued s hm hfits

namespace Alike

theorem run_begin (h : Alike m r) :
    ∃ s, begin.run r = (.ok (), s) ∧ Begun r s ∧ Mirrors r.issued m.contents s := by
  have hnext : (sendAlone .begin).run r.rollBack = (.ok (), r.rollBack.noted .begin) := by
    rw [run_sendAlone]
    simp only [rollBack, h.faultless]
    rfl
  refine ⟨r.rollBack.noted .begin, ?_, ⟨rfl, rfl, rfl⟩, ?_⟩
  · unfold begin
    rw [StoreOp.run_bind, StoreOp.run_modify]
    exact hnext
  · refine ⟨h.contents, h.faultless, h.orderly, h.announcing, ?_⟩
    rw [h.quiet, List.append_nil]
    refine (r.rollBack.issued_noted .begin).trans ?_
    rw [Statement.announcement_of_quiet rfl]
    exact List.append_nil _

theorem run_commit (h : Mirrors before k s) (hready : m.failuresDue = 0) :
    ∃ r', commit.run s = (.ok (), r') ∧ Alike (m.settle k) r' ∧
      r'.issued = before ++ k.outbox := by
  have hboard := install_eq (s.sent .commit)
  refine ⟨(s.sent .commit).install, ?_, ?_, ?_⟩
  · unfold commit
    rw [StoreOp.run_bind, h.run_send]
    rfl
  · rw [hboard]
    exact ⟨h.contents.owing [], h.faultless, h.orderly, h.announcing, hready, rfl⟩
  · rw [hboard, ← h.issued]
    refine (s.issued_noted .commit).trans ?_
    rw [Statement.announcement_of_quiet rfl]
    exact List.append_nil _

theorem run_body {α : Type} (h : Alike m r) {op : Op α} {result : α × Keyspace}
    (hop : Performs m r op result) {s : RelationalStore} (hb : Begun r s)
    (hm : Mirrors r.issued m.contents s) :
    ∃ r', (orRollBack do
        let a ← op
        commit
        return a).run s = (.ok result.1, r') ∧ Alike (m.settle result.2) r' ∧
      r'.issued = r.issued ++ result.2.outbox := by
  obtain ⟨s', hrun, hm'⟩ := hop s hb hm
  obtain ⟨r', hcommit, halike, hissued⟩ := run_commit hm' h.ready
  refine ⟨r', ?_, halike, hissued⟩
  apply run_orRollBack
  rw [StoreOp.run_bind, hrun]
  dsimp only
  rw [StoreOp.run_bind, hcommit]
  rfl

/-- A question outside of any transaction. -/
theorem run_question {α : Type} (h : Alike m r) (st : Statement α) (hq : st.notifies = false)
    {a : α} (hanswer : Rows.answer r.order (r.sentCount + 1) st r.committed = (a, r.committed)) :
    ∃ r', (sendAlone st).run r = (.ok a, r') ∧ Alike (m.settle m.contents) r' ∧
      r'.issued = r.issued ++ m.contents.outbox := by
  refine ⟨r.noted st, ?_, ?_, ?_⟩
  · rw [run_sendAlone, h.faultless, hanswer]
    rfl
  · rw [MemoryStore.settle_contents h.quiet]
    exact ⟨h.contents, h.faultless, h.orderly, h.announcing, h.ready, h.quiet⟩
  · rw [h.quiet, r.issued_noted st, Statement.announcement_of_quiet hq]
    rfl

theorem run_transact {α : Type} (h : Alike m r) {op : Op α} {result : α × Keyspace}
    (hop : Performs m r op result) :
    ∃ r', (transact op).run r = (.ok result.1, r') ∧ Alike (m.settle result.2) r' ∧
      r'.issued = r.issued ++ result.2.outbox := by
  obtain ⟨s, hbegin, hb, hm⟩ := h.run_begin
  obtain ⟨r', hbody, hrest⟩ := h.run_body hop hb hm
  refine ⟨r', ?_, hrest⟩
  unfold transact
  rw [StoreOp.run_bind, hbegin]
  exact hbody

theorem run_eval (h : Alike m r) {script : Script} {result : Output × Keyspace}
    (hop : Performs m r (steps script) result) :
    ∃ r', (RelationalStore.eval script).run r = (.ok result.1, r') ∧
      Alike (m.settle result.2) r' ∧ r'.issued = r.issued ++ result.2.outbox := by
  obtain ⟨s, hbegin, hb, hm⟩ := h.run_begin
  obtain ⟨r', hbody, hrest⟩ := h.run_body hop hb hm
  refine ⟨r', ?_, hrest⟩
  unfold RelationalStore.eval
  rw [StoreOp.run_bind, hbegin]
  dsimp only
  exact run_asScriptFailure script hbody

end Alike

/-! ## Commands -/

/-- The members that a script on the store would draw. It sends its draw as its third statement,
after it has begun a transaction and taken a lock. -/
def RelationalStore.drawn (key : String) (limit : Nat) (r : RelationalStore) : List String :=
  (Rows.answer r.order (r.sentCount + 3) (.popMembers key (limitOf limit)) r.committed).1

namespace Command

/-- What a command announces on a store in memory, in order. -/
def announces (c : Command) (m : MemoryStore) : List Announcement := (c.change m.contents).2.outbox

/-- Where a command draws members at random, both stores draw the same ones in the same order. -/
def DrawsAlike (c : Command) (m : MemoryStore) (r : RelationalStore) : Prop :=
  match c with
  | .eval (.coalescedPop l max) =>
    r.drawn l.pendingSet max = (m.contents.popMembers l.pendingSet max).1
  | .eval (.coalescedClear l) =>
    r.drawn l.pendingSet Text.maxUnsigned64 =
      (m.contents.popMembers l.pendingSet (m.contents.setSize l.pendingSet)).1
  | _ => True

/-- No command takes more entries from a list than the database can number; it numbers them by
signed numbers of 64 bits. -/
def Countable (c : Command) (m : MemoryStore) : Prop :=
  match c with
  | .eval (.popFront list max) => min max (m.contents.listLength list) ≤ Text.maxSigned64
  | _ => True

/-- The stores can be expected to act alike: the envelopes of all announcements fit, and chance
plays no part. -/
structure Comparable (c : Command) (m : MemoryStore) (r : RelationalStore) : Prop where
  fits : ∀ a ∈ c.announces m, a.Fits
  draws : c.DrawsAlike m r
  countable : c.Countable m

/-- Every command of a sequence finds the stores comparable. -/
def AllComparable : List Command → MemoryStore → RelationalStore → Prop
  | [], _, _ => True
  | c :: rest, m, r =>
    c.Comparable m r ∧ AllComparable rest (c.perform.run m).2 (c.perform.run r).2

/-- What a sequence of commands announces on a store in memory, in order. -/
def allAnnounced : List Command → MemoryStore → List Announcement
  | [], _ => []
  | c :: rest, m => c.announces m ++ allAnnounced rest (c.perform.run m).2

variable {c : Command}

/-- A script that draws the same members as in memory, and goes on alike with these. -/
theorem performs_draw {key : String} {max limit : Nat} (resource : String)
    (hdrawn : r.drawn key limit = (m.contents.popMembers key max).1)
    {next : List String → Op Output} {result : Output × Keyspace}
    (hnext : Follows (m.contents.popMembers key max).2 (next (m.contents.popMembers key max).1)
      result)
    (hfits : ∀ a ∈ result.2.outbox, a.Fits) :
    Performs m r (send (.lock resource) >>= fun _ => popMembers key limit >>= next) result := by
  intro s hb hm
  have hlocked : Mirrors r.issued m.contents (s.sent (.lock resource)) :=
    hm.sent rfl hm.contents rfl rfl
  have hchoice : ((s.sent (.lock resource)).answered (.popMembers key (limitOf limit))).1 =
      (m.contents.popMembers key max).1 := by
    rw [← hdrawn, drawn, ← hb.order, ← hb.working]
    have hcount : r.sentCount + 3 = s.sentCount + 1 + 1 := by rw [hb.sentCount]
    rw [hcount]
    rfl
  obtain ⟨s₁, hpop, hm₁⟩ := hlocked.run_popMembers key hchoice fun a ha =>
    hfits a (hnext.grows.subset ha)
  obtain ⟨s₂, hrun, hm₂⟩ := hnext.runs r.issued s₁ hm₁ hfits
  refine ⟨s₂, ?_, hm₂⟩
  rw [StoreOp.run_bind, hm.run_send]
  dsimp only
  rw [StoreOp.run_bind, hpop]
  exact hrun

/-- A script performs in a transaction what it does to the contents in memory. -/
theorem performs_script {script : Script} (h : Alike m r)
    (hc : (Command.eval script).Comparable m r) :
    Performs m r (steps script) (m.contents.run script) := by
  have ht := h.contents.tidy
  cases script with
  | pushAndPublish list entries channel payload =>
    exact (Follows.pushAndPublish ht list entries channel payload).performs hc.fits
  | popFront list max => exact (Follows.popFrontScript ht list hc.countable).performs hc.fits
  | stageWrite l key fields token =>
    exact (Follows.stageWrite ht l key fields token).performs hc.fits
  | stageDelete l key token => exact (Follows.stageDelete ht l key token).performs hc.fits
  | coalescedPop l max =>
    have hall := Follows.materializeAll (ht.popMembers l.pendingSet max) l
      (m.contents.popMembers l.pendingSet max).1
    exact performs_draw l.pendingSet hc.draws (hall.bind (Follows.pure hall.tidy _)) hc.fits
  | coalescedClear l =>
    have hdrop := Follows.dropStaged
      (ht.popMembers l.pendingSet (m.contents.setSize l.pendingSet)) l
      (m.contents.popMembers l.pendingSet (m.contents.setSize l.pendingSet)).1
    have hdelete := Follows.delete hdrop.tidy l.deleteSet
    exact performs_draw l.pendingSet hc.draws
      (hdrop.bind (hdelete.bind (Follows.pure hdelete.tidy _))) hc.fits

/-- A command has the same result on both stores, and leaves them alike. -/
theorem perform_alike (h : Alike m r) (hc : c.Comparable m r) :
    ∃ r', c.perform.run r = (.ok (c.change m.contents).1, r') ∧
      Alike (m.settle (c.change m.contents).2) r' ∧ r'.issued = r.issued ++ c.announces m := by
  have ht := h.contents.tidy
  cases c with
  | pushBack list entries =>
    obtain ⟨r', hrun, hrest⟩ := h.run_transact ((Follows.pushBack ht list entries).performs hc.fits)
    exact ⟨r', run_reply hrun .count, hrest⟩
  | listLength list =>
    obtain ⟨r', hrun, hrest⟩ := h.run_transact ((Follows.countEntries ht list).performs hc.fits)
    exact ⟨r', run_reply hrun .count, hrest⟩
  | addMembers set members =>
    obtain ⟨r', hrun, hrest⟩ :=
      h.run_transact ((Follows.addMembers ht set members).performs hc.fits)
    exact ⟨r', run_reply hrun .count, hrest⟩
  | setSize set =>
    have hsize : (r.committed.membersOf set).length = m.contents.setSize set :=
      (h.contents.perm_membersOf set).length_eq
    obtain ⟨r', hrun, hrest⟩ := h.run_question (.countMembers set) rfl
      (by rw [Rows.answer, hsize])
    exact ⟨r', run_reply hrun .count, hrest⟩
  | record key =>
    have hrecord : (r.committed.fieldsOf key).map (fun f => (f.field, f.value)) =
        m.contents.record key := h.contents.records key
    obtain ⟨r', hrun, hrest⟩ := h.run_question (.readFields key) rfl
      (by rw [Rows.answer, hrecord])
    exact ⟨r', run_reply hrun .fields, hrest⟩
  | mergeFields key fields =>
    obtain ⟨r', hrun, hrest⟩ :=
      h.run_transact ((Follows.mergeFields ht key fields).performs hc.fits)
    exact ⟨r', run_reply hrun fun _ => .done, hrest⟩
  | delete key =>
    obtain ⟨r', hrun, hrest⟩ := h.run_transact ((Follows.delete ht key).performs hc.fits)
    exact ⟨r', run_reply hrun .truth, hrest⟩
  | eval script =>
    obtain ⟨r', hrun, hrest⟩ := h.run_eval (performs_script h hc)
    exact ⟨r', run_reply hrun .output, hrest⟩

/-- Commands have the same results on both stores, leave them alike, and announce the same. -/
theorem performAll_alike (h : Alike m r) {commands : List Command}
    (hc : AllComparable commands m r) :
    (performAll commands r).1 = (performAll commands m).1 ∧
      Alike (performAll commands m).2 (performAll commands r).2 ∧
      (performAll commands r).2.issued = r.issued ++ allAnnounced commands m := by
  induction commands generalizing m r with
  | nil => exact ⟨rfl, h, (List.append_nil _).symm⟩
  | cons c rest ih =>
    obtain ⟨hone, hrest⟩ := hc
    obtain ⟨r', hrun, halike, hissued⟩ := perform_alike h hone
    have hmemory := c.run_perform h.ready h.quiet
    rw [hmemory, hrun] at hrest
    obtain ⟨hreplies, hafter, hall⟩ := ih halike hrest
    simp only [performAll, allAnnounced]
    rw [hmemory, hrun]
    refine ⟨congrArg _ hreplies, hafter, ?_⟩
    rw [hall, hissued, List.append_assoc]

/-- What is announced is what the subscriptions of a store in memory are offered. -/
theorem board_performAll (hready : m.failuresDue = 0) (hquiet : m.contents.outbox = [])
    (commands : List Command) :
    (performAll commands m).2.board =
      m.board.publishAll ((allAnnounced commands m).map fun a => (a.channel, a.payload)) := by
  induction commands generalizing m with
  | nil => rfl
  | cons c rest ih =>
    have hmemory := c.run_perform hready hquiet
    simp only [performAll, allAnnounced]
    rw [hmemory]
    have hboard := ih (m := m.settle (c.change m.contents).2) hready rfl
    refine hboard.trans ?_
    rw [List.map_append, Switchboard.publishAll, Switchboard.publishAll, List.foldl_append]
    rfl

end Command

/-! ## From empty stores -/

/-- An empty store in memory that draws by these random numbers. -/
def StoreConfig.drawingStore (c : StoreConfig) (draws : List Nat) : MemoryStore :=
  { c.memoryStore with contents := { c.memoryStore.contents with draws } }

/-- A store on an empty database that refuses no statement and orders rows in this way. -/
def StoreConfig.orderingStore (c : StoreConfig) (order : RowOrder) : RelationalStore :=
  { c.relationalStore [] with order }

theorem pictures_empty (announcing : Bool) (draws : List Nat) :
    Pictures { announcing, draws } {} where
  tidy := ⟨fun _ => RandomSet.valid_empty, by simp, by simp, by simp⟩
  valid := Rows.valid_empty
  lists key := by
    rw [Rows.list, Rows.valid_empty.entriesOf]
    rfl
  members key m := by simp [Keyspace.members, Keyspace.set]
  records key := by
    rw [Rows.valid_empty.record]
    rfl

theorem StoreConfig.alike (c : StoreConfig) (draws : List Nat) {order : RowOrder}
    (h : order.Orderly) : Alike (c.drawingStore draws) (c.orderingStore order) where
  contents := pictures_empty c.keyspaceNotifications draws
  faultless := rfl
  orderly := h
  announcing := rfl
  ready := rfl
  quiet := rfl

/-- Whatever commands are carried out on empty stores of one configuration, with the same random
choices and announcements that fit the database: the store in a database gives the results that
the store in memory gives, holds the same lists, sets and records, and has issued, in order, what
the store in memory announced, which is what it offered to its subscriptions. -/
theorem RelationalStore.matches_memory (c : StoreConfig) (order : RowOrder) (ho : order.Orderly)
    (draws : List Nat) (commands : List Command)
    (h : Command.AllComparable commands (c.drawingStore draws) (c.orderingStore order)) :
    let inMemory := Command.performAll commands (c.drawingStore draws)
    let inRows := Command.performAll commands (c.orderingStore order)
    inRows.1 = inMemory.1 ∧
    (∀ key, inRows.2.committed.list key = inMemory.2.contents.list key) ∧
    (∀ key, (inRows.2.committed.membersOf key).Perm (inMemory.2.contents.set key).members) ∧
    (∀ key, inRows.2.committed.record key = inMemory.2.contents.record key) ∧
    inRows.2.issued = Command.allAnnounced commands (c.drawingStore draws) ∧
    inMemory.2.board = (c.drawingStore draws).board.publishAll
      (inRows.2.issued.map fun a => (a.channel, a.payload)) := by
  intro inMemory inRows
  have halike := c.alike draws ho
  obtain ⟨hreplies, hafter, hissued⟩ := Command.performAll_alike halike h
  have hboard := Command.board_performAll (m := c.drawingStore draws) rfl rfl commands
  have hnone : (c.orderingStore order).issued = [] := rfl
  rw [hnone, List.nil_append] at hissued
  refine ⟨hreplies, hafter.contents.lists, hafter.contents.perm_membersOf, hafter.contents.records,
    hissued, ?_⟩
  rw [hissued]
  exact hboard

theorem RowOrder.orderly_newestFirst : RowOrder.newestFirst.Orderly where
  entries _ rows := (List.reverse_perm _).trans (List.mergeSort_perm rows _)
  fields _ rows := (List.reverse_perm _).trans (List.mergeSort_perm rows _)

theorem RelationalStore.matches_memory_of_queue_and_state :
    let t : TableName := { name := "T" }
    let commands : List Command :=
      [.pushBack t.queue ["a", "b"],
       .eval (.stageWrite t.layout "k" [("f", "v")] wakeToken),
       .eval (.coalescedPop t.layout 1)]
    let c : StoreConfig := {}
    RowOrder.newestFirst.Orderly ∧
      Command.AllComparable commands (c.drawingStore []) (c.orderingStore .newestFirst) ∧
      (Command.performAll commands (c.orderingStore .newestFirst)).1 =
        (Command.performAll commands (c.drawingStore [])).1 := by
  intro t commands c
  have hcomparable : Command.AllComparable commands (c.drawingStore [])
      (c.orderingStore .newestFirst) := by
    refine ⟨⟨?_, trivial, trivial⟩, ⟨?_, trivial, trivial⟩, ⟨?_, ?_, trivial⟩, trivial⟩
    · unfold Announcement.Fits
      decide +kernel
    · unfold Announcement.Fits
      decide +kernel
    · unfold Announcement.Fits
      decide +kernel
    · change _ = _
      decide +kernel
  refine ⟨RowOrder.orderly_newestFirst, hcomparable, ?_⟩
  exact (RelationalStore.matches_memory c .newestFirst RowOrder.orderly_newestFirst [] commands
    hcomparable).1

end ControlBus
