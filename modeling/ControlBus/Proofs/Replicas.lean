-- A copy of a table kept up to date by what a consumer of its changes pops. The copy may lag, but
-- then something waits that tells so: at the consumer, or unread at its subscription. Reading a
-- record late, reading it in vain and putting popped items back all keep it so.
import ControlBus.Proofs.BusyStores

namespace ControlBus

/-! ## Replicas -/

/-- A copy of the records of a table; an absent key has no fields. -/
abbrev Replica := String → FieldList

namespace Replica

variable {r : Replica} {item : WorkItem} {key : String}

/-- A change that sets a key replaces its record, one that deletes it removes the record. -/
def apply (r : Replica) (item : WorkItem) : Replica := fun key =>
  if key = item.key then
    match item.operation with
    | .set => item.fields
    | .del => []
  else r key

def applyAll (r : Replica) (items : List WorkItem) : Replica := items.foldl apply r

theorem applyAll_append (r : Replica) (a b : List WorkItem) :
    r.applyAll (a ++ b) = (r.applyAll a).applyAll b := List.foldl_append

theorem apply_elsewhere (h : key ≠ item.key) : r.apply item key = r key := if_neg h

theorem apply_set (r : Replica) (key : String) (fields : FieldList) :
    r.apply { key, operation := .set, fields } key = fields := if_pos rfl

theorem apply_del (r : Replica) (key : String) :
    r.apply { key, operation := .del } key = [] := if_pos rfl

end Replica

theorem TableName.changeChannel_inj {t : TableName} {j k : String} :
    t.changeChannel j = t.changeChannel k ↔ j = k := by
  rw [t.changeChannel_eq, t.changeChannel_eq]
  exact String.append_right_inj _

/-! ## Notifications still to be looked at -/

/-- Notifications taken in and those unread account for what the record of a key is now, if it was
`value` in the eyes of the watcher. -/
structure Caught (t : TableName) (key : String) (id : Nat) (notes : List Notification)
    (value : Record) (s : BusyStore) : Prop where
  watched : s.Watched t id
  told : s.Intact t key id → Tells ((notes ++ s.inbox id).map Notification.announcement)
    (t.changeChannel key) value (s.record t key)

variable {t : TableName} {key : String} {id : Nat} {n : Notification} {notes : List Notification}
  {value : Record} {r : Replica} {s s' : BusyStore}

namespace Caught

theorem later (h : Caught t key id notes value s) (hl : BusyStore.Later t key id s s') :
    Caught t key id notes value s' := by
  refine ⟨hl.watched, ?_⟩
  intro hi
  obtain ⟨more, hmore, htells⟩ := hl.told hi
  rw [hmore, ← List.append_assoc, List.map_append]
  exact (h.told (hl.intact hi)).append htells

theorem withTurns (h : Caught t key id notes value s) (turns : List Turn) :
    Caught t key id notes value { s with turns } :=
  ⟨⟨h.watched.ready, h.watched.watches⟩, fun hi => h.told ⟨hi.lossless, hi.unaddressed⟩⟩

/-- The oldest notification was about something else. -/
theorem skip (h : Caught t key id (n :: notes) value s) (hn : n.channel ≠ t.changeChannel key) :
    Caught t key id notes value s :=
  ⟨h.watched, fun hi => (h.told hi).tail_elsewhere hn⟩

/-- The oldest notification told of a removal. -/
theorem remove (h : Caught t key id (n :: notes) value s) (hn : n.channel = t.changeChannel key)
    (hgone : isRemoval n.payload = true) : Caught t key id notes [] s :=
  ⟨h.watched, fun hi => (h.told hi).tail_removed hn hgone⟩

/-- After the oldest notification the record was read. -/
theorem reread (h : Caught t key id (n :: notes) value s) :
    Caught t key id notes (s.record t key) s :=
  ⟨h.watched, fun hi => (h.told hi).tail_reread⟩

variable {k : String}

/-- What the oldest notification says of another key does not matter. -/
theorem skip_other (h : Caught t key id (n :: notes) value s) (hn : n.channel = t.changeChannel k)
    (hk : key ≠ k) : Caught t key id notes value s := by
  apply h.skip
  rw [hn]
  intro hsame
  exact hk (TableName.changeChannel_inj.mp hsame).symm

/-- The oldest notification told of a removal, and the replica is told of it. -/
theorem take_removal (h : Caught t key id (n :: notes) (r key) s)
    (hn : n.channel = t.changeChannel k) (hgone : isRemoval n.payload = true) :
    Caught t key id notes (r.apply { key := k, operation := .del } key) s := by
  by_cases hk : key = k
  · subst hk
    rw [Replica.apply_del]
    exact h.remove hn hgone
  · rw [Replica.apply_elsewhere hk]
    exact h.skip_other hn hk

/-- After the oldest notification the record was read, and the replica gets what was read. -/
theorem take_record (h : Caught t key id (n :: notes) (r key) s)
    (hn : n.channel = t.changeChannel k) :
    Caught t key id notes
      (r.apply { key := k, operation := .set, fields := s.record t k } key) s := by
  by_cases hk : key = k
  · subst hk
    rw [Replica.apply_set]
    exact h.reread
  · rw [Replica.apply_elsewhere hk]
    exact h.skip_other hn hk

end Caught

/-- With nothing left to look at, what the watcher holds is what is stored. -/
theorem Caught.settled (h : Caught t key id [] value s) (hi : s.Intact t key id)
    (hinbox : s.inbox id = []) : value = s.record t key := by
  have htells := h.told hi
  rw [hinbox] at htells
  exact (htells.silent rfl).symm

/-! ## Pops -/

namespace ChangeConsumer

theorem run_fields (t : TableName) (key : String) (s : BusyStore) :
    (∃ e, (SharedStore.fields (t.recordKey key) : StoreOp BusyStore FieldList).run s =
        (.error e, s.reached)) ∨
      (SharedStore.fields (t.recordKey key) : StoreOp BusyStore FieldList).run s =
        (.ok (s.reached.record t key), s.reached) := BusyStore.run_call rfl

/-- To look at a notification: its record cannot be read and it stays, or it tells nothing, or it
gives an item. -/
theorem resolve_caught (h : Caught t key id (n :: notes) (r key) s)
    (hkey : t.Covers key) :
    (∃ e s', (resolve t n).run s = (.error e, s') ∧ Caught t key id (n :: notes) (r key) s') ∨
    (∃ s', (resolve t n).run s = (.ok none, s') ∧ Caught t key id notes (r key) s') ∨
    ∃ item s', (resolve t n).run s = (.ok (some item), s') ∧
      Caught t key id notes (r.apply item key) s' := by
  unfold resolve
  cases hafter : afterStem? t.keyspaceStem n.channel with
  | none =>
    right
    left
    refine ⟨s, rfl, h.skip ?_⟩
    intro hn
    rw [hn, t.changeChannel_eq, afterStem?_append] at hafter
    cases hafter
  | some k =>
    have hchannel : n.channel = t.changeChannel k := by
      rw [t.changeChannel_eq]
      exact eq_append_of_afterStem? hafter
    dsimp only
    by_cases hgone : isRemoval n.payload = true
    · rw [if_pos hgone]
      right
      right
      exact ⟨_, s, rfl, h.take_removal hchannel hgone⟩
    · rw [if_neg hgone, StoreOp.run_bind]
      have hlater := h.later (BusyStore.Later.reached h.watched hkey)
      rcases run_fields t k s with ⟨e, hfailed⟩ | hread
      · left
        exact ⟨e, s.reached, by rw [hfailed], hlater⟩
      · right
        right
        exact ⟨_, s.reached, by rw [hread]; rfl, hlater.take_record hchannel⟩

/-- Collecting keeps account: the items found take the replica as far as the notifications that
are left expect it. -/
theorem collect_caught (h : Caught t key id notes (r key) s)
    (hkey : t.Covers key) (room : Nat) :
    ∃ items foreign left failure s',
      collect t room notes s = ((items, foreign, left, failure), s') ∧
        Caught t key id left (r.applyAll items key) s' ∧ (room = 0 → items = []) := by
  induction notes generalizing room r s with
  | nil =>
    refine ⟨[], 0, [], none, s, ?_, h, fun _ => rfl⟩
    rw [collect]
  | cons n rest ih =>
    cases room with
    | zero =>
      refine ⟨[], 0, n :: rest, none, s, ?_, h, fun _ => rfl⟩
      rw [collect]
      exact List.cons_ne_nil n rest
    | succ room =>
      rw [collect]
      rcases resolve_caught h hkey with
        ⟨e, s', hrun, hc⟩ | ⟨s', hrun, hc⟩ | ⟨item, s', hrun, hc⟩
      · rw [hrun]
        exact ⟨[], 0, n :: rest, some e, s', rfl, hc, fun _ => rfl⟩
      · rw [hrun]
        obtain ⟨items, foreign, left, failure, s'', hcollect, hc', hroom⟩ := ih hc (room + 1)
        refine ⟨items, foreign + 1, left, failure, s'', ?_, hc', hroom⟩
        dsimp only
        rw [hcollect]
      · rw [hrun]
        obtain ⟨items, foreign, left, failure, s'', hcollect, hc', -⟩ := ih hc room
        refine ⟨item :: items, foreign, left, failure, s'', ?_, hc', fun hzero => by cases hzero⟩
        dsimp only
        rw [hcollect]

/-- The consumer's part of the account: what a replica lacks is ahead, buffered or unread. -/
structure Tracks (c : ChangeConsumer) (key : String) (r : Replica) (s : BusyStore) : Prop where
  caught : Caught c.table key c.buffer.subscription c.buffer.buffered (r.applyAll c.ahead key) s

variable {c : ChangeConsumer}

/-- A pop that fails leaves the replica as it is, and what it had found is ahead again. Any other
pop moves the replica on. -/
theorem Tracks.pop (h : c.Tracks key r s)
    (hkey : c.table.Covers key)
    (max : Nat) :
    ∃ result c' s', c.pop max s = (result, c', s') ∧
      c'.table = c.table ∧
      match result with
      | .error _ => c'.Tracks key r s'
      | .ok items => c'.Tracks key (r.applyAll items) s' := by
  obtain ⟨items, foreign, left, failure, s', hcollect, hc, hroom⟩ :=
    collect_caught h.caught hkey (max - (c.ahead.take max).length)
  -- Notifications are looked at only when nothing is left ahead of them.
  have horder : c.ahead.take max ++ items ++ c.ahead.drop max = c.ahead ++ items := by
    by_cases hmax : c.ahead.length ≤ max
    · rw [List.take_of_length_le hmax, List.drop_of_length_le hmax, List.append_nil]
    · have hnone : items = [] := by
        apply hroom
        rw [List.length_take]
        omega
      rw [hnone, List.append_nil, List.append_nil, List.take_append_drop]
  rw [← Replica.applyAll_append, ← horder] at hc
  unfold ChangeConsumer.pop
  dsimp only
  rw [hcollect]
  cases failure with
  | some e => exact ⟨_, _, s', rfl, rfl, ⟨hc⟩⟩
  | none =>
    rw [Replica.applyAll_append] at hc
    exact ⟨_, _, s', rfl, rfl, ⟨hc⟩⟩

/-- What has arrived is moved from the subscription to the consumer. -/
theorem Tracks.poll (h : c.Tracks key r s) :
    { c with buffer := (c.buffer.poll s.inner.board).2.1 }.Tracks key r
      { s with inner := { s.inner with board := (c.buffer.poll s.inner.board).2.2 } } := by
  have hlive : s.inner.board.exhausted c.buffer.subscription = false := by
    rw [Switchboard.exhausted, h.caught.watched.ready.working.live]
    rfl
  unfold NotificationBuffer.poll drainSubscription
  rw [hlive]
  obtain ⟨hready, hwatches⟩ := h.caught.watched
  obtain ⟨hwatches', hdropped⟩ := hwatches.read s.inner.board.capacity
  have hworking := hready.working.read s.inner.board.capacity c.buffer.subscription
  refine ⟨⟨⟨hready.announcing, hready.quiet, hready.sound, hworking⟩, hwatches'⟩, ?_⟩
  rintro ⟨hlossless, hunaddressed⟩
  have htells := h.caught.told ⟨hdropped.symm.trans hlossless, hunaddressed⟩
  have hinbox : (s.inner.board.read s.inner.board.capacity c.buffer.subscription).2.inbox
      c.buffer.subscription = (s.inbox c.buffer.subscription).drop s.inner.board.capacity := by
    rw [Switchboard.inbox_read, if_pos rfl]
    rfl
  have hmoved : c.buffer.buffered ++ (s.inbox c.buffer.subscription).take s.inner.board.capacity ++
      (s.inbox c.buffer.subscription).drop s.inner.board.capacity =
      c.buffer.buffered ++ s.inbox c.buffer.subscription := by
    rw [List.append_assoc, List.take_append_drop]
  rw [← hmoved, ← hinbox] at htells
  exact htells

end ChangeConsumer

end ControlBus
