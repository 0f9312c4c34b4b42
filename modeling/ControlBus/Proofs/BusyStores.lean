-- A store in memory that many use at once. Between two calls of one user the others may do
-- anything, and each call of the user may fail. Whatever happens, a watcher of a table hears of
-- every change of its records.
import ControlBus.Proofs.ChangeReports
import ControlBus.Proofs.Deliveries

namespace ControlBus

/-! ## Uses of a store -/

/-- One use of a store: an operation or a script. -/
inductive StoreUse where
  | command (c : Command)
  | keys (pattern : String)
  | publish (channel payload : String)
  | subscribe (channels patterns : List String)

namespace StoreUse

/-- The store after a use. -/
def run : StoreUse → MemoryStore → MemoryStore
  | command c, m => (c.perform.run m).2
  | keys pattern, m => ((SharedStore.keys pattern : StoreOp MemoryStore (List String)).run m).2
  | publish channel payload, m => (m.publish channel payload).2
  | subscribe channels patterns, m => { m with board := (m.board.subscribe channels patterns).2 }

/-- The channels on which a use publishes of its own accord, not to announce a change. -/
def addressed : StoreUse → MemoryStore → List String
  | command c, m =>
    match (c.perform.run m).1 with
    | .ok reply => c.addressed reply
    | .error _ => []
  | publish channel payload, m =>
    match (m.publish channel payload).1 with
    | .ok _ => [channel]
    | .error _ => []
  | keys _, _ => []
  | subscribe _ _, _ => []

end StoreUse

/-- Between uses: the store announces changes, owes nothing, fails no script, and its switchboard
works. -/
structure MemoryStore.Ready (m : MemoryStore) : Prop where
  announcing : m.contents.announcing = true
  quiet : m.contents.outbox = []
  sound : m.failuresDue = 0
  working : m.board.Working

variable {m : MemoryStore}

namespace MemoryStore.Ready

theorem settle (h : m.Ready) {addressed : List String} {k : Keyspace}
    (hk : m.contents.Reports addressed k) : (m.settle k).Ready where
  announcing := hk.announcing
  quiet := rfl
  sound := h.sound
  working := h.working.publishAll _

theorem subscribe (h : m.Ready) (channels patterns : List String) :
    { m with board := (m.board.subscribe channels patterns).2 : MemoryStore }.Ready where
  announcing := h.announcing
  quiet := h.quiet
  sound := h.sound
  working := h.working.subscribe channels patterns

end MemoryStore.Ready

/-- To publish is to announce without a change. -/
theorem MemoryStore.settle_announce (h : m.contents.outbox = []) (channel payload : String) :
    m.settle (m.contents.announce channel payload) =
      { m with board := (m.board.publish channel payload).2 } := by
  obtain ⟨⟨lists, sets, records, announcing, outbox, draws⟩, board, maxPayload, failuresDue⟩ := m
  dsimp only at h
  subst h
  rfl

/-- A use changes the contents and announces what it changed, or it adds a subscription. -/
theorem StoreUse.effect (u : StoreUse) (h : m.Ready) :
    (∃ k, u.run m = m.settle k ∧ Keyspace.Reports (u.addressed m) m.contents k) ∨
      ∃ channels patterns,
        u.run m = { m with board := (m.board.subscribe channels patterns).2 } := by
  have hidle := (MemoryStore.settle_contents h.quiet).symm
  cases u with
  | command c =>
    have hrun := c.run_perform h.sound h.quiet
    left
    refine ⟨(c.change m.contents).2, congrArg Prod.snd hrun, ?_⟩
    rw [addressed, hrun]
    exact Keyspace.Reports.change h.announcing c
  | keys pattern =>
    left
    exact ⟨m.contents, hidle, Keyspace.Reports.refl h.announcing _⟩
  | publish channel payload =>
    left
    rw [run, addressed, MemoryStore.publish]
    cases SharedStore.checkSize payload.utf8ByteSize m.maxPayload with
    | error e => exact ⟨m.contents, hidle, Keyspace.Reports.refl h.announcing _⟩
    | ok _ =>
      refine ⟨m.contents.announce channel payload, ?_, ?_⟩
      · exact (MemoryStore.settle_announce h.quiet channel payload).symm
      · exact Keyspace.Reports.announce h.announcing channel payload
  | subscribe channels patterns =>
    right
    exact ⟨channels, patterns, rfl⟩

/-! ## Taking turns -/

/-- What comes before a call of one user: what the others do, and whether the call then fails. -/
structure Turn where
  others : List StoreUse := []
  failure : Option BusError := none

/-- A store in memory as one of its users sees it. -/
structure BusyStore where
  inner : MemoryStore
  /-- What comes before the coming calls; before later ones nothing does. -/
  turns : List Turn := []
  /-- The channels on which the others have published of their own accord. -/
  addressed : List String := []

namespace BusyStore

def use (s : BusyStore) (u : StoreUse) : BusyStore :=
  { s with inner := u.run s.inner, addressed := s.addressed ++ u.addressed s.inner }

def useAll (s : BusyStore) (uses : List StoreUse) : BusyStore := uses.foldl use s

/-- The store when the next call of the user reaches it. -/
def reached (s : BusyStore) : BusyStore :=
  { s with turns := s.turns.tail }.useAll (s.turns.headD {}).others

/-- A call of the user. -/
def call {α : Type} (op : StoreOp MemoryStore α) : StoreOp BusyStore α := fun s =>
  match (s.turns.headD {}).failure with
  | some e => (.error e, s.reached)
  | none =>
    let (result, inner) := op.run s.reached.inner
    (result, { s.reached with inner })

instance : SharedStore BusyStore where
  pushBack key entries := call (SharedStore.pushBack key entries)
  listLength key := call (SharedStore.listLength key)
  addMembers key members := call (SharedStore.addMembers key members)
  setSize key := call (SharedStore.setSize key)
  fields key := call (SharedStore.fields key)
  mergeFields key fields := call (SharedStore.mergeFields key fields)
  delete key := call (SharedStore.delete key)
  keys pattern := call (SharedStore.keys pattern)
  publish channel payload := call (SharedStore.publish channel payload)
  subscribe channels patterns := call (SharedStore.subscribe channels patterns)
  eval script := call (SharedStore.eval script)
  maxPayload s := s.inner.maxPayload
  board s := s.inner.board
  withBoard s board := { s with inner := { s.inner with board } }

variable {s s' s'' : BusyStore}

theorem ready_use (h : s.inner.Ready) (u : StoreUse) : (s.use u).inner.Ready := by
  rcases u.effect h with ⟨k, hk, hreports⟩ | ⟨channels, patterns, hsub⟩
  · rw [use, hk]
    exact h.settle hreports
  · rw [use, hsub]
    exact h.subscribe channels patterns

theorem ready_useAll (h : s.inner.Ready) (uses : List StoreUse) :
    (s.useAll uses).inner.Ready := by
  induction uses generalizing s with
  | nil => exact h
  | cons u rest ih => exact ih (ready_use h u)

theorem ready_reached (h : s.inner.Ready) : s.reached.inner.Ready := by
  have hready : { s with turns := s.turns.tail }.inner.Ready := h
  exact ready_useAll hready (s.turns.headD {}).others

/-! ## Watching a record -/

/-- The record of a key of a table. -/
def record (s : BusyStore) (t : TableName) (key : String) : Record :=
  s.inner.contents.record (t.recordKey key)

/-- What a subscription has not read. -/
def inbox (s : BusyStore) (id : Nat) : List Notification := s.inner.board.inbox id

/-- A subscription has lost nothing, and on the channel of a key only changes were announced. -/
structure Intact (t : TableName) (key : String) (id : Nat) (s : BusyStore) : Prop where
  lossless : s.inner.board.dropped id = 0
  unaddressed : t.changeChannel key ∉ s.addressed

/-- A subscription watches the records of a table. -/
structure Watched (t : TableName) (id : Nat) (s : BusyStore) : Prop where
  ready : s.inner.Ready
  watches : s.inner.board.Watches id t.keyspacePattern

/-- From one state of the store to a later one, the watcher hears what happens to a record. -/
structure Later (t : TableName) (key : String) (id : Nat) (s s' : BusyStore) : Prop where
  watched : s'.Watched t id
  intact : s'.Intact t key id → s.Intact t key id
  told : s'.Intact t key id → ∃ more, s'.inbox id = s.inbox id ++ more ∧
    Tells (more.map Notification.announcement) (t.changeChannel key) (s.record t key)
      (s'.record t key)

variable {t : TableName} {key : String} {id : Nat}

namespace Later

theorem refl (h : s.Watched t id) (key : String) : Later t key id s s :=
  ⟨h, fun hi => hi, fun _ => ⟨[], (List.append_nil _).symm, Tells.nothing _ _⟩⟩

theorem trans (h : Later t key id s s') (h' : Later t key id s' s'') : Later t key id s s'' := by
  refine ⟨h'.watched, fun hi => h.intact (h'.intact hi), ?_⟩
  intro hi
  obtain ⟨first, hfirst, htells⟩ := h.told (h'.intact hi)
  obtain ⟨next, hnext, htells'⟩ := h'.told hi
  refine ⟨first ++ next, ?_, ?_⟩
  · rw [hnext, hfirst, List.append_assoc]
  · rw [List.map_append]
    exact htells.append htells'

theorem of_hears
    (hkey : t.Covers key)
    {said : List Announcement} (hready : s'.inner.Ready)
    (hhears : Switchboard.Hears id t.keyspacePattern said s.inner.board s'.inner.board)
    (haddressed : s.addressed ⊆ s'.addressed)
    (htells : t.changeChannel key ∉ s'.addressed →
      Tells said (t.changeChannel key) (s.record t key) (s'.record t key)) :
    Later t key id s s' := by
  have hbefore : s'.Intact t key id → s.Intact t key id := by
    rintro ⟨hloss, hunaddressed⟩
    exact ⟨Nat.le_zero.mp (hloss ▸ hhears.losses), fun hin => hunaddressed (haddressed hin)⟩
  refine ⟨⟨hready, hhears.watches⟩, hbefore, ?_⟩
  intro hi
  have hsame : s'.inner.board.dropped id = s.inner.board.dropped id :=
    hi.lossless.trans (hbefore hi).lossless.symm
  obtain ⟨more, hmore, hheard⟩ := hhears.heard hsame
  refine ⟨more, hmore, ?_⟩
  rw [hheard]
  apply (htells hi.unaddressed).filter
  intro a _ ha
  rw [ha]
  exact hkey

/-- Whatever another user does. -/
theorem use (h : s.Watched t id)
    (hkey : t.Covers key) (u : StoreUse) :
    Later t key id s (s.use u) := by
  have hready := ready_use h.ready u
  have haddressed : s.addressed ⊆ (s.use u).addressed := List.subset_append_left _ _
  rcases u.effect h.ready with ⟨k, hk, hreports⟩ | ⟨channels, patterns, hsub⟩
  · obtain ⟨said, hsaid, htells⟩ := hreports.said
    rw [h.ready.quiet, List.nil_append] at hsaid
    have hboard : (s.use u).inner.board =
        s.inner.board.publishAll (said.map fun a => (a.channel, a.payload)) := by
      rw [BusyStore.use, hk, ← hsaid]
      rfl
    have hrecord : (s.use u).record t key = k.record (t.recordKey key) := by
      rw [record, BusyStore.use, hk]
      rfl
    refine of_hears hkey hready (hboard ▸ h.watches.hearsAll said) haddressed ?_
    intro hunaddressed
    rw [hrecord]
    apply htells (t.recordKey key)
    intro hin
    exact hunaddressed (List.mem_append_right _ hin)
  · have hboard : (s.use u).inner.board = (s.inner.board.subscribe channels patterns).2 := by
      rw [BusyStore.use, hsub]
    have hrecord : (s.use u).record t key = s.record t key := by
      rw [record, BusyStore.use, hsub]
      rfl
    refine of_hears hkey hready (hboard ▸ h.watches.subscribe channels patterns) haddressed ?_
    intro _
    rw [hrecord]
    exact Tells.nothing _ _

theorem useAll (h : s.Watched t id)
    (hkey : t.Covers key)
    (uses : List StoreUse) : Later t key id s (s.useAll uses) := by
  induction uses generalizing s with
  | nil => exact refl h key
  | cons u rest ih =>
    have hone := use h hkey u
    exact hone.trans (ih hone.watched)

theorem reached (h : s.Watched t id)
    (hkey : t.Covers key) :
    Later t key id s s.reached := by
  have hwatched : { s with turns := s.turns.tail }.Watched t id := ⟨h.ready, h.watches⟩
  have hothers := useAll hwatched hkey (s.turns.headD {}).others
  refine ⟨hothers.watched, ?_, hothers.told⟩
  intro hi
  have hbefore := hothers.intact hi
  exact ⟨hbefore.lossless, hbefore.unaddressed⟩

end Later

/-- A call is answered by the store as it then is, or it fails. -/
theorem run_call {α : Type} {op : StoreOp MemoryStore α} {a : α} {inner : MemoryStore}
    (hop : op.run s.reached.inner = (.ok a, inner)) :
    (∃ e, (call op).run s = (.error e, s.reached)) ∨
      (call op).run s = (.ok a, { s.reached with inner }) := by
  change (∃ e, call op s = (.error e, _)) ∨ call op s = (.ok _, _)
  unfold call
  cases (s.turns.headD {}).failure with
  | some e =>
    left
    exact ⟨e, rfl⟩
  | none =>
    right
    dsimp only
    rw [hop]

end BusyStore

end ControlBus
