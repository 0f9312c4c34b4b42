-- How much a pop brings: no store gives more than a script asks it for, so no consumer of any
-- kind pops more than it is asked for.
import ControlBus.Proofs.TransactionBodies
import ControlBus.Proofs.WakeUps

namespace ControlBus

/-! ## How much a store gives -/

/-- A store that gives no more than it is asked for. -/
structure SharedStore.Moderate {σ : Type} [SharedStore σ] (s : σ) : Prop where
  entries : ∀ list max entries s',
    (SharedStore.eval (.popFront list max)).run s = (.ok (.entries entries), s') →
      entries.length ≤ max
  records : ∀ l max records s',
    (SharedStore.eval (.coalescedPop l max)).run s = (.ok (.records records), s') →
      records.length ≤ max

theorem RandomSet.length_drawMany (max : Nat) (draws : List Nat) (s : RandomSet) :
    (s.drawMany max draws).1.length ≤ max := by
  induction max generalizing draws s with
  | zero => exact Nat.le_refl 0
  | succ max ih =>
    unfold drawMany
    split
    · exact Nat.succ_le_succ (ih _ _)
    · exact Nat.zero_le _

theorem Keyspace.length_popMembers (key : String) (max : Nat) (s : Keyspace) :
    (s.popMembers key max).1.length ≤ max := by
  have hdrawn := RandomSet.length_drawMany (min max (s.setSize key)) s.draws (s.set key)
  unfold popMembers
  dsimp only
  split
  · exact Nat.zero_le _
  · exact Nat.le_trans hdrawn (Nat.min_le_left ..)

/-- The store in memory is moderate, in whatever state. -/
theorem MemoryStore.moderate (s : MemoryStore) : SharedStore.Moderate s where
  entries list max entries s' h := by
    have heval := (MemoryStore.eval_eq (.popFront list max) s).symm.trans h
    split at heval
    · cases heval
    · have hfst : (s.contents.popFront list max).1 = entries :=
        Output.entries.inj (Except.ok.inj (congrArg Prod.fst heval))
      rw [← hfst, Keyspace.popFront_fst]
      exact List.length_take_le ..
  records l max records s' h := by
    have heval := (MemoryStore.eval_eq (.coalescedPop l max) s).symm.trans h
    split at heval
    · cases heval
    · have hfst := Output.records.inj (Except.ok.inj (congrArg Prod.fst heval))
      rw [← hfst, Keyspace.length_materializeAll]
      exact Keyspace.length_popMembers ..

namespace RelationalStore

variable {order : RowOrder}

/-- Inside a transaction the database keeps to its order. -/
theorem Body.yields {α : Type} {op : Op α} (h : Body op) : Yields order op fun _ => True := by
  induction h with
  | pure a => exact .pure trivial
  | send st => exact ⟨(yields_send st).keeps, fun _ _ _ _ => trivial⟩
  | notify channel payload =>
    exact (StoreOp.Ensures.lift _).bind fun _ _ => (yields_send _).bind fun _ _ =>
      yields_modify fun _ => rfl
  | ask next _ ih =>
    exact ⟨fun s hs => (ih s.announcing).keeps s hs, fun _ _ _ _ => trivial⟩
  | bind _ _ ih ihn => exact ih.bind fun a _ => ihn a

theorem limitOf_le (max : Nat) : limitOf max ≤ max := Nat.min_le_left ..

theorem yields_popFront (h : ∀ n rows, (order.entries n rows).length = rows.length) (key : String)
    (max : Nat) : Yields order (popFront key max) fun entries => entries.length ≤ max := by
  refine (yields_send _).bind fun rows hrows => ?_
  refine (Body.touch key .lpop).yields.whenThen (.pure ?_)
  obtain ⟨n, r, rfl⟩ := hrows
  have htaken : ((r.entriesOf key).take (limitOf max)).length ≤ limitOf max :=
    List.length_take_le ..
  simp only [Rows.answer, Rows.entriesBySeq, List.length_map, List.length_mergeSort, h]
  exact Nat.le_trans htaken (limitOf_le max)

theorem yields_popMembers (key : String) (max : Nat) :
    Yields order (popMembers key max) fun members => members.length ≤ max := by
  refine (yields_send _).bind fun members hmembers => ?_
  refine (Body.touch key .spop).yields.whenThen (.pure ?_)
  obtain ⟨n, r, rfl⟩ := hmembers
  exact Nat.le_trans (List.length_take_le ..) (limitOf_le max)

theorem yields_materializeAll (l : Layout) (keys : List String) :
    Yields order (materializeAll l keys) fun records => records.length = keys.length := by
  induction keys with
  | nil => exact .pure rfl
  | cons key rest ih =>
    exact (Body.materialize l key).yields.bind fun _ _ => ih.bind fun more hmore =>
      .pure (congrArg (· + 1) hmore)

/-- The store in a database is moderate if the database answers as many rows as it deletes. -/
theorem moderate (s : RelationalStore)
    (h : ∀ n rows, (s.order.entries n rows).length = rows.length) : SharedStore.Moderate s where
  entries list max entries s' heval := by
    have hgives : Yields s.order (eval (.popFront list max))
        fun output => ∀ entries, output = .entries entries → entries.length ≤ max :=
      yields_script <| (yields_send _).bind fun _ _ => (yields_popFront h list max).bind
        fun entries hlength => .pure fun _ he => Output.entries.inj he ▸ hlength
    exact hgives.result s rfl _ (congrArg Prod.fst heval) entries rfl
  records l max records s' heval := by
    have hgives : Yields s.order (eval (.coalescedPop l max))
        fun output => ∀ records, output = .records records → records.length ≤ max :=
      yields_script <| (yields_send _).bind fun _ _ => (yields_popMembers _ max).bind
        fun keys hkeys => (yields_materializeAll l keys).bind
          fun records hlength => .pure fun _ hr => Output.records.inj hr ▸ hlength ▸ hkeys
    exact hgives.result s rfl _ (congrArg Prod.fst heval) records rfl

end RelationalStore

/-! ## How much a pop brings -/

section Pops

variable {σ : Type} [SharedStore σ] {s s' : σ}

/-- Who reads something from the output of a script has got an output that says so. -/
theorem output_of_read {α : Type} {script : Script} {read : Output → Except BusError α} {a : α}
    (h : (do liftM (read (← SharedStore.eval script)) : StoreOp σ α).run s = (.ok a, s')) :
    ∃ output s'', (SharedStore.eval script).run s = (.ok output, s'') ∧ read output = .ok a := by
  obtain ⟨output, s'', heval, hread⟩ := StoreOp.ok_of_bind h
  refine ⟨output, s'', heval, ?_⟩
  rw [StoreOp.run_lift] at hread
  exact congrArg Prod.fst hread

theorem eq_entries {script : String} {output : Output} {entries : List String}
    (h : output.toEntries script = .ok entries) : output = .entries entries := by
  cases output <;> cases h
  rfl

theorem eq_records {script : String} {output : Output} {records : List Popped}
    (h : output.toRecords script = .ok records) : output = .records records := by
  cases output <;> cases h
  rfl

theorem length_takeMessages (max : Nat) (buffered : List Notification) :
    (takeMessages max buffered).1.length ≤ max := by
  induction max generalizing buffered with
  | zero => simp [takeMessages]
  | succ max ih =>
    rw [takeMessages]
    split
    · simp
    · exact Nat.succ_le_succ (ih _)

theorem ChangeConsumer.length_collect (t : TableName) (room : Nat) (buffered : List Notification)
    (s : σ) : (collect t room buffered s).1.1.length ≤ room := by
  induction buffered generalizing room s with
  | nil => simp [collect]
  | cons n rest ih =>
    cases room with
    | zero => simp [collect]
    | succ room =>
      rw [collect]
      split
      · simp
      · exact ih (room + 1) _
      · exact Nat.succ_le_succ (ih room _)

theorem SharedStore.Moderate.entries_read (hs : SharedStore.Moderate s) {list : String} {max : Nat}
    {entries : List String}
    (h : (SharedStore.evalEntries (.popFront list max)).run s = (.ok entries, s')) :
    entries.length ≤ max := by
  obtain ⟨output, s'', heval, hread⟩ := output_of_read h
  rw [eq_entries hread] at heval
  exact hs.entries _ _ _ _ heval

theorem SharedStore.Moderate.records_read (hs : SharedStore.Moderate s) {l : Layout} {max : Nat}
    {records : List Popped}
    (h : (SharedStore.evalRecords (.coalescedPop l max)).run s = (.ok records, s')) :
    records.length ≤ max := by
  obtain ⟨output, s'', heval, hread⟩ := output_of_read h
  rw [eq_records hread] at heval
  exact hs.records _ _ _ _ heval

theorem OrderedConsumer.length_pop (c : OrderedConsumer) (max : Nat)
    (hs : SharedStore.Moderate s) {items : List WorkItem} (h : (c.pop max s).1 = .ok items) :
    items.length ≤ max := by
  rw [OrderedConsumer.pop] at h
  split at h
  · cases h
    exact Nat.zero_le max
  · rcases he : (SharedStore.evalEntries (.popFront c.table.queue max)).run s with ⟨result, s'⟩
    rw [he] at h
    cases result with
    | error e => cases h
    | ok entries =>
      cases h
      exact Nat.le_trans (List.length_filterMap_le ..) (hs.entries_read he)

theorem CoalescingConsumer.length_pop (c : CoalescingConsumer) (max : Nat)
    (hs : SharedStore.Moderate s) {items : List WorkItem} (h : (c.pop max s).1 = .ok items) :
    items.length ≤ max := by
  rw [CoalescingConsumer.pop] at h
  split at h
  · cases h
    exact Nat.zero_le max
  · rcases he : (SharedStore.evalRecords (.coalescedPop c.table.layout max)).run s
      with ⟨result, s'⟩
    rw [he] at h
    cases result with
    | error e => cases h
    | ok records =>
      cases h
      rw [List.length_map]
      exact hs.records_read he

theorem ChangeConsumer.length_pop (c : ChangeConsumer) (max : Nat) {items : List WorkItem}
    (h : (c.pop max s).1 = .ok items) : items.length ≤ max := by
  have hfirst : (c.ahead.take max).length ≤ max := List.length_take_le ..
  have hcollect := ChangeConsumer.length_collect c.table (max - (c.ahead.take max).length)
    c.buffer.buffered s
  rw [ChangeConsumer.pop] at h
  dsimp only at h
  rcases hc : ChangeConsumer.collect c.table (max - (c.ahead.take max).length)
    c.buffer.buffered s with ⟨⟨found, foreign, left, failure⟩, s'⟩
  rw [hc] at h hcollect
  cases failure with
  | some e => cases h
  | none =>
    cases h
    have hfound : found.length ≤ max - (c.ahead.take max).length := hcollect
    change (c.ahead.take max ++ found).length ≤ max
    rw [List.length_append]
    omega

/-- No consumer pops more than it is asked for. -/
theorem Consumer.length_pop (c : Consumer) (max : Nat) (hs : SharedStore.Moderate s)
    {items : List WorkItem} (h : (c.pop max s).1 = .ok items) : items.length ≤ max := by
  cases c with
  | ordered c => exact c.length_pop max hs h
  | coalescing c => exact c.length_pop max hs h
  | change c => exact c.length_pop max h
  | message c =>
    cases h
    exact Nat.le_trans (length_takeMessages ..) (Nat.min_le_left ..)

end Pops

end ControlBus
