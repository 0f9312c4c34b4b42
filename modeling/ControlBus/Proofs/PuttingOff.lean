-- Executors whose handlers put items off, at every kind of consumer and on every store. Reports of
-- resolved constraints may come at any time, even from inside the handler. None of them is lost,
-- and none is made up: an item comes back because its constraint was reported, and in its turn.
import ControlBus.Proofs.DocketKeeping
import Mathlib.Algebra.Order.Floor.Div

namespace ControlBus

variable {σ η : Type}

namespace Executor

variable {e : Executor} {w : Recorded σ η}

/-! ### Waiting in line -/

/-- The retry queue after the reports that have come in. -/
def released (e : Executor) (w : Recorded σ η) : RetryQueue :=
  w.bench.around.resolved.foldl RetryQueue.release e.retry

/-- What is released stays in front of what is released later. -/
theorem ready_prefix_released (e : Executor) (w : Recorded σ η) :
    e.retry.ready <+: (e.released w).ready := by
  unfold released
  generalize w.bench.around.resolved = reports
  generalize e.retry = q
  induction reports generalizing q with
  | nil => exact List.prefix_refl _
  | cons c rest ih =>
    refine List.IsPrefix.trans ?_ (ih (q.release c))
    unfold RetryQueue.release
    split
    · exact List.prefix_append ..
    · exact List.prefix_refl _

/-- What a sweep takes and what it leaves ready is what is released. -/
theorem takeReady_released (e : Executor) (w : Recorded σ η) :
    let taken := e.retry.takeReady w.bench.around.resolved w.bench.around.now e.batchSize
    taken.1 ++ taken.2.ready.map (·.item) = (e.released w).ready.map (·.item) := by
  change ((e.released w).ready.take e.batchSize).map _ ++
    ((e.released w).ready.drop e.batchSize).map _ = _
  rw [← List.map_append, List.take_append_drop]

/-- An item is released, and so many others are ahead of it. -/
def InLine (item : WorkItem) (ahead : Nat) (q : RetryQueue) : Prop :=
  (q.ready.map (·.item))[ahead]? = some item

theorem InLine.released {item : WorkItem} {m : Nat} (h : InLine item m e.retry) :
    InLine item m (e.released w) := by
  obtain ⟨more, hmore⟩ := ready_prefix_released e w
  have hlt := (List.getElem?_eq_some_iff.mp h).1
  unfold InLine
  rw [← hmore, List.map_append, List.getElem?_append_left hlt]
  exact h

variable [SharedStore σ] (handle : ReportingHandler σ η)

/-- A sweep hands over a batch of the items that are released and leaves the others. -/
theorem sweep_logs (h : e.pending = []) :
    (e.sweep (Recorded.workplace handle) w).1.retry.ready =
        (e.released w).ready.drop e.batchSize ∧
      (e.sweep (Recorded.workplace handle) w).1.batchSize = e.batchSize ∧
      w.log <+: (e.sweep (Recorded.workplace handle) w).2.log ∧
      ∀ item ∈ ((e.released w).ready.take e.batchSize).map (·.item), ∃ k verdict,
        w.log.length ≤ k ∧
        (e.sweep (Recorded.workplace handle) w).2.log[k]? = some (.handed item verdict) := by
  obtain ⟨stats, hsweep⟩ := sweep_eq (w := w) handle h
  obtain ⟨hready, hsize, -, hprefix, hall⟩ := drainItems_logs handle
    (e.retry.takeReady w.bench.around.resolved w.bench.around.now e.batchSize).1
    { e with
      retry := (e.retry.takeReady w.bench.around.resolved w.bench.around.now e.batchSize).2
      pending := (e.retry.takeReady w.bench.around.resolved w.bench.around.now e.batchSize).1
      stats }
    { w with
      bench := { w.bench with around := { w.bench.around with resolved := [] } }
      log := w.log ++ [.swept] }
  have hgrows := List.prefix_append w.log [WorkEvent.swept]
  rw [hsweep]
  refine ⟨hready, hsize, hgrows.trans hprefix, fun item hitem => ?_⟩
  obtain ⟨k, verdict, hk, hat⟩ := hall item hitem
  exact ⟨k, verdict, Nat.le_trans hgrows.length_le hk, hat⟩

/-- An item in line is handed over by a sweep, or moves up by a batch. -/
theorem sweep_line (h : e.pending = []) {item : WorkItem} {m : Nat}
    (hline : InLine item m (e.released w)) :
    (∃ k verdict, w.log.length ≤ k ∧
      (e.sweep (Recorded.workplace handle) w).2.log[k]? = some (.handed item verdict)) ∨
    e.batchSize ≤ m ∧
      InLine item (m - e.batchSize) (e.sweep (Recorded.workplace handle) w).1.retry := by
  obtain ⟨hready, -, -, hall⟩ := sweep_logs (w := w) handle h
  rcases Nat.lt_or_ge m e.batchSize with hm | hm
  · left
    refine hall item ?_
    rw [List.map_take]
    refine List.mem_of_getElem? (i := m) ?_
    rw [List.getElem?_take_of_lt hm]
    exact hline
  · refine .inr ⟨hm, ?_⟩
    unfold InLine
    rw [hready, List.map_drop, List.getElem?_drop, Nat.add_sub_cancel' hm]
    exact hline

end Executor

/-! ## Runs -/

namespace WorkRun

def Steady (r : WorkRun (Recorded σ η)) : Prop := Executor.Steady r.executor r.world

theorem steady_start (batchSize threshold : Nat) (consumer : Consumer)
    (around : Surroundings σ η) (h : around.resolved = []) :
    Steady ⟨Executor.ofSettings batchSize threshold, { bench := { consumer, around } }⟩ where
  pending := rfl
  docketed := ⟨Docket.faithful_nil, Docket.kept_start threshold, h.symm, by simp⟩

/-- A sweep less, and a batch less to be handed over. -/
theorem sweeps_left {m size : Nat} {later : List (LoopStep σ η)} (hm : size ≤ m)
    (h : m < size * (LoopStep.sweep :: later).countP LoopStep.isSweep) :
    m - size < size * later.countP LoopStep.isSweep := by
  simp only [List.countP_cons, LoopStep.isSweep, if_true, Nat.mul_add, Nat.mul_one] at h
  omega

variable [SharedStore σ] (handle : ReportingHandler σ η)

/-- What is done at a bench where everything is recorded. -/
def record (r : WorkRun (Recorded σ η)) (acts : List (LoopStep σ η)) : WorkRun (Recorded σ η) :=
  r.run (Recorded.workplace handle) (acts.map LoopStep.recorded)

/-- The run without tickets and log. -/
def plain (r : WorkRun (Recorded σ η)) : WorkRun (Bench σ η) :=
  ⟨r.executor.relabel WorkItem.bare, r.world.bench⟩

theorem plain_act (r : WorkRun (Recorded σ η)) (a : LoopStep σ η) :
    (r.act (Recorded.workplace handle) a.recorded).plain =
      r.plain.act (Bench.workplace handle.plain) a.plain := by
  have h := Recorded.labels_workplace handle
  cases a with
  | execute => simp only [act, LoopStep.recorded, LoopStep.plain, plain, h.execute]
  | sweep => simp only [act, LoopStep.recorded, LoopStep.plain, plain, h.sweep]
  | resolve c => rfl
  | meanwhile f => rfl

/-- Tickets and log change nothing in a run. -/
theorem plain_record (r : WorkRun (Recorded σ η)) (acts : List (LoopStep σ η)) :
    (r.record handle acts).plain =
      r.plain.run (Bench.workplace handle.plain) (acts.map LoopStep.plain) := by
  induction acts generalizing r with
  | nil => rfl
  | cons a rest ih =>
    rw [run, List.map_cons, List.foldl_cons, ← plain_act]
    exact ih _

variable {r : WorkRun (Recorded σ η)}

theorem Steady.act (h : r.Steady) (a : LoopStep σ η) :
    (r.act (Recorded.workplace handle) a.recorded).Steady := by
  cases a with
  | execute => exact (Executor.Steady.execute handle h).1
  | sweep => exact Executor.Steady.sweep handle h
  | resolve c => exact ⟨h.pending, h.docketed.resolve c (r.world.bench.resolve c) rfl⟩
  | meanwhile f =>
    have hd := h.docketed
    exact ⟨h.pending, hd.faithful, hd.kept, hd.reports, hd.tickets⟩

theorem Steady.record (h : r.Steady) (acts : List (LoopStep σ η)) :
    (r.record handle acts).Steady := by
  induction acts generalizing r with
  | nil => exact h
  | cons a rest ih => exact ih (h.act handle a)

/-- Whatever happens, the log only grows, and the size of a batch stays. -/
theorem Steady.grows_act (h : r.Steady) (a : LoopStep σ η) :
    (r.act (Recorded.workplace handle) a.recorded).executor.batchSize = r.executor.batchSize ∧
      r.world.log <+: (r.act (Recorded.workplace handle) a.recorded).world.log := by
  cases a with
  | execute =>
    obtain ⟨-, -, hsize, hprefix⟩ := Executor.Steady.execute handle h
    exact ⟨hsize, hprefix⟩
  | sweep =>
    obtain ⟨-, hsize, hprefix, -⟩ :=
      Executor.sweep_logs (w := r.world) handle h.pending
    exact ⟨hsize, hprefix⟩
  | resolve c => exact ⟨rfl, List.prefix_append ..⟩
  | meanwhile f => exact ⟨rfl, List.prefix_refl _⟩

theorem Steady.grows (h : r.Steady) (acts : List (LoopStep σ η)) :
    (r.record handle acts).executor.batchSize = r.executor.batchSize ∧
      r.world.log <+: (r.record handle acts).world.log := by
  induction acts generalizing r with
  | nil => exact ⟨rfl, List.prefix_refl _⟩
  | cons a rest ih =>
    obtain ⟨hsize, hprefix⟩ := h.grows_act handle a
    obtain ⟨hsize', hprefix'⟩ := ih (h.act handle a)
    exact ⟨hsize'.trans hsize, hprefix.trans hprefix'⟩

/-- An item is handed over by these acts. -/
def HandsOver (r : WorkRun (Recorded σ η)) (item : WorkItem)
    (acts : List (LoopStep σ η)) : Prop :=
  ∃ k verdict, r.world.log.length ≤ k ∧
    (r.record handle acts).world.log[k]? = some (.handed item verdict)

/-- What happens later does not take back what an act has handed over. -/
theorem Steady.handsOver_cons (h : r.Steady) (a : LoopStep σ η) (rest : List (LoopStep σ η))
    {item : WorkItem}
    (hands : HandsOver handle r item [a] ∨
      HandsOver handle (r.act (Recorded.workplace handle) a.recorded) item rest) :
    HandsOver handle r item (a :: rest) := by
  rcases hands with ⟨k, verdict, hk, hat⟩ | ⟨k, verdict, hk, hat⟩
  · obtain ⟨-, hprefix⟩ := (h.act handle a).grows handle rest
    exact ⟨k, verdict, hk, WorkLog.getElem?_of_prefix hprefix hat⟩
  · obtain ⟨-, hprefix⟩ := h.grows_act handle a
    exact ⟨k, verdict, Nat.le_trans hprefix.length_le hk, hat⟩

/-- An item in line has its turn after as many sweeps as it takes to hand over all those ahead of it
and the item itself. -/
theorem Steady.in_time (h : r.Steady) {item : WorkItem} {m : Nat}
    (hline : Executor.InLine item m r.executor.retry) (acts : List (LoopStep σ η))
    (hsweeps : m < r.executor.batchSize * acts.countP LoopStep.isSweep) :
    HandsOver handle r item acts := by
  induction acts generalizing r m with
  | nil => simp at hsweeps
  | cons a rest ih =>
    have hnext := h.act handle a
    obtain ⟨hsize, -⟩ := h.grows_act handle a
    refine h.handsOver_cons handle a rest ?_
    have hquiet : a.isSweep = false → m <
        (r.act (Recorded.workplace handle) a.recorded).executor.batchSize *
          rest.countP LoopStep.isSweep := by
      intro ha
      rw [hsize]
      simpa [ha] using hsweeps
    cases a with
    | sweep =>
      rcases Executor.sweep_line handle h.pending hline.released with hands | hmoved
      · exact .inl hands
      · refine .inr (ih hnext hmoved.2 ?_)
        rw [hsize]
        exact sweeps_left hmoved.1 hsweeps
    | execute =>
      have hstays : Executor.InLine item m
          (r.executor.execute (Recorded.workplace handle) r.world).2.1.retry := by
        obtain ⟨-, hready, -, -⟩ := Executor.Steady.execute handle h
        unfold Executor.InLine at hline ⊢
        rw [hready]
        exact hline
      exact .inr (ih hnext hstays (hquiet rfl))
    | resolve c => exact .inr (ih hnext hline (hquiet rfl))
    | meanwhile f => exact .inr (ih hnext hline (hquiet rfl))

/-- An item that is released by the next sweep is handed over in time, counted from that sweep. -/
theorem Steady.in_time_from_sweep (h : r.Steady) {item : WorkItem} {m : Nat}
    (hline : Executor.InLine item m (r.executor.released r.world)) (later : List (LoopStep σ η))
    (hsweeps : m < r.executor.batchSize * (LoopStep.sweep :: later).countP LoopStep.isSweep) :
    HandsOver handle r item (.sweep :: later) := by
  obtain ⟨hsize, -⟩ := h.grows_act handle .sweep
  refine h.handsOver_cons handle .sweep later ?_
  rcases Executor.sweep_line handle h.pending hline with hands | ⟨hm, hmoved⟩
  · exact .inl hands
  · refine .inr ((h.act handle .sweep).in_time handle hmoved later ?_)
    rw [hsize]
    exact sweeps_left hm hsweeps

/-- No report is lost and none is made up, whatever the handler answers and reports, and whatever
else happens. Neither the tickets nor the log, which tell items and moments apart, change what
happens. An item that was put off and whose constraint is reported, from that call on or at least
since the last sweep before it, is among those that the next sweep takes or leaves ready, and it is
handed over after as many sweeps, counted from that one, as it takes to hand over all those ahead of
it and the item itself. An item that was put off is only handed over again if its constraint was
reported since the last sweep before that call, and a sweep has taken the report. Items leave in the
order of the reports that free them, and those freed by one report in the order in which they were
put off. -/
theorem reports_are_neither_lost_nor_made_up {σ η : Type} [SharedStore σ]
    (handle : ReportingHandler σ η) (batchSize threshold : Nat) (consumer : Consumer) (store : σ)
    (now : Nat) (rest : η) (acts : List (LoopStep σ η)) :
    let e := Executor.ofSettings batchSize threshold
    let bench : Bench σ η := { consumer, around := { store, now, rest } }
    let r := WorkRun.record handle ⟨e, { bench }⟩ acts
    let log := r.world.log
    let taken := r.executor.retry.takeReady r.world.bench.around.resolved
      r.world.bench.around.now r.executor.batchSize
    r.plain = WorkRun.run (Bench.workplace handle.plain) ⟨e, bench⟩ (acts.map LoopStep.plain) ∧
    r.executor.batchSize = max batchSize 1 ∧
    (∀ (s : Stay) (j : Nat), s.In log → s.FreedAt log j → (∀ k, ¬ s.AgainAt log k) →
      ∃ m, (taken.1 ++ taken.2.ready.map (·.item))[m]? = some s.item ∧
        ∀ later : List (LoopStep σ η),
          (m + 1) ⌈/⌉ r.executor.batchSize ≤
            (LoopStep.sweep :: later).countP LoopStep.isSweep →
          ∃ k, log.length ≤ k ∧ s.AgainAt (r.record handle (.sweep :: later)).world.log k) ∧
    (∀ (s : Stay) (k : Nat), s.In log → s.AgainAt log k →
      ∃ j l, s.FreedAt log j ∧ j < l ∧ s.since < l ∧ l < k ∧ log[l]? = some .swept) ∧
    (∀ (s t : Stay) (i j k : Nat), s.In log → t.In log →
      s.FirstFreedAt log i → t.FirstFreedAt log j → Docket.Before (s, i) (t, j) →
      t.AgainAt log k → ∃ l < k, s.AgainAt log l) := by
  intro e bench r log taken
  have hstart : Steady ⟨e, { bench }⟩ := steady_start batchSize threshold consumer _ rfl
  have h : r.Steady := hstart.record handle acts
  have hsize : r.executor.batchSize = max batchSize 1 := (hstart.grows handle acts).1
  have hd := h.docketed
  refine ⟨plain_record handle _ acts, hsize, fun s j hin hfreed hnever => ?_,
    fun s k hin hk => hd.faithful.freed_of_again hin hk,
    fun s t i j k hs ht hi hj hbefore hk => hd.faithful.in_order hs ht hi hj hbefore hk⟩
  obtain ⟨i, hmem⟩ := hd.faithful.sound.freed ⟨hin, hnever⟩ hfreed
  have hkept := hd.kept.releaseAll (Docket.ofLog log).reports
  rw [hd.reports] at hkept
  have hitem : s.item ∈ (r.executor.released r.world).ready.map (·.item) := by
    rw [← List.nil_append (List.map _ _)]
    exact hkept.ready ▸ List.mem_map_of_mem (f := fun p => p.1.item) hmem
  obtain ⟨m, hm⟩ := List.mem_iff_getElem?.mp hitem
  have hreleased : taken.1 ++ taken.2.ready.map (·.item) =
      (r.executor.released r.world).ready.map (·.item) :=
    Executor.takeReady_released r.executor r.world
  refine ⟨m, by rw [hreleased, hm], fun later hlater => ?_⟩
  have hpositive : 0 < r.executor.batchSize := by
    rw [hsize]
    omega
  obtain ⟨k, verdict, hk, hat⟩ :=
    h.in_time_from_sweep handle hm later ((ceilDiv_le_iff_le_mul hpositive).mp hlater)
  exact ⟨k, hk, Nat.lt_of_lt_of_le hin.lt hk, verdict, hat⟩

/-! ### Ports that wait for their link -/

/-- The handler puts ports off until it has seen their link, which it reports itself. -/
def portsNeedLink : ReportingHandler MemoryStore Bool := fun item around =>
  if item.key = "Lag0" then (.done, [⟨"lag", "Lag0"⟩], { around with rest := true })
  else if around.rest then (.done, [], around)
  else (.retry ⟨"lag", "Lag0"⟩, [], around)

/-- Two ports and their link are written to a queue. -/
def writePortsAndLink (b : Bench MemoryStore Bool) : Bench MemoryStore Bool :=
  let write (key : String) (s : MemoryStore) : MemoryStore :=
    ((OrderedQueue.del ⟨"PORT", ':'⟩ key).run s).2
  { b with
    around := { b.around with store := write "Lag0" (write "Eth1" (write "Eth0" b.around.store)) } }

/-- They are handled one by one. -/
def portsBeforeLink : WorkRun (Recorded MemoryStore Bool) :=
  record portsNeedLink
    ⟨Executor.ofSettings 1 300000,
      { bench :=
        { consumer := .ordered { table := ⟨"PORT", ':'⟩, signal := ⟨"PORT", 0, 0⟩ }
          around := { store := .empty 64 7999 false, now := 0, rest := false } } }⟩
    [.meanwhile writePortsAndLink, .execute, .execute, .execute]

/-- The second port is second in line when the link has been reported, so the second of two sweeps
hands it over again. -/
theorem second_port_returns :
    let port (n : Nat) (key : String) : WorkItem := WorkItem.withTicket n { key, operation := .del }
    let lag : Constraint := ⟨"lag", "Lag0"⟩
    let s : Stay := ⟨port 1 "Eth1", lag, 1⟩
    portsBeforeLink.world.log =
        [.handed (port 0 "Eth0") (.retry lag), .handed (port 1 "Eth1") (.retry lag),
          .handed (port 2 "Lag0") .done, .resolved lag] ∧
      ∃ k, 4 ≤ k ∧
        s.AgainAt (portsBeforeLink.record portsNeedLink [.sweep, .sweep]).world.log k := by
  intro port lag s
  have hlog : portsBeforeLink.world.log =
      [.handed (port 0 "Eth0") (.retry lag), .handed (port 1 "Eth1") (.retry lag),
        .handed (port 2 "Lag0") .done, .resolved lag] := by
    decide +kernel
  have hnever : ∀ k, ¬ s.AgainAt portsBeforeLink.world.log k := by
    rintro k ⟨hk, verdict, hat⟩
    rw [hlog] at hat
    have hlt := WorkLog.lt_length hat
    obtain rfl | rfl : k = 2 ∨ k = 3 := by
      simp only [List.length_cons, List.length_nil] at hlt
      change 1 < k at hk
      omega
    · simp [s, port, WorkItem.withTicket] at hat
    · simp at hat
  have hlaws := reports_are_neither_lost_nor_made_up portsNeedLink 1 300000
    (.ordered { table := ⟨"PORT", ':'⟩, signal := ⟨"PORT", 0, 0⟩ }) (.empty 64 7999 false) 0 false
    [.meanwhile writePortsAndLink, .execute, .execute, .execute]
  dsimp only at hlaws
  rw [← portsBeforeLink] at hlaws
  obtain ⟨-, hsize, hlost, -⟩ := hlaws
  have hin : s.In portsBeforeLink.world.log := by
    rw [Stay.In, hlog]
    rfl
  have hfreed : s.FreedAt portsBeforeLink.world.log 3 := by
    refine ⟨by rw [hlog]; rfl, fun k hk hlt => ?_⟩
    change k < 1 at hlt
    omega
  obtain ⟨m, hm, hlater⟩ := hlost s 3 hin hfreed hnever
  have hready :
      let taken := portsBeforeLink.executor.retry.takeReady
        portsBeforeLink.world.bench.around.resolved portsBeforeLink.world.bench.around.now
        portsBeforeLink.executor.batchSize
      taken.1 ++ taken.2.ready.map (·.item) = [port 0 "Eth0", port 1 "Eth1"] := by
    decide +kernel
  dsimp only at hready
  rw [hready] at hm
  have hsecond : m ≤ 1 := by
    have hlt := (List.getElem?_eq_some_iff.mp hm).1
    exact Nat.le_of_lt_succ hlt
  have hsweeps : (m + 1) ⌈/⌉ portsBeforeLink.executor.batchSize ≤
      [(.sweep : LoopStep MemoryStore Bool), .sweep].countP LoopStep.isSweep := by
    rw [hsize, ceilDiv_le_iff_le_mul (by decide)]
    simp only [List.countP_cons, LoopStep.isSweep]
    exact Nat.succ_le_succ hsecond
  obtain ⟨k, hk, hagain⟩ := hlater [.sweep] hsweeps
  rw [hlog] at hk
  exact ⟨hlog, k, hk, hagain⟩

end WorkRun

end ControlBus
