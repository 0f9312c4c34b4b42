-- Items that wait for too long. The queue counts them by flags that it sets whenever somebody takes
-- items out; what these flags add up to can be told from the calls that were made.
import ControlBus.Proofs.Relabelling
import ControlBus.Proofs.RetryQueueLaws
import Mathlib.Data.List.Induction

namespace ControlBus

/-! ## Waiting items with what they wait for -/

namespace RetryQueue

/-- The waiting items, each with its constraint. -/
def entries (q : RetryQueue) : List (Constraint × Parked) :=
  q.blocked.flatMap fun e => e.2.map (e.1, ·)

/-- The entries that a report marks as stuck and that were not marked before. -/
def newlyStuck (now : Nat) (q : RetryQueue) : List (Constraint × Parked) :=
  ((q.entries.zip (q.reportStuck now).entries).filter fun p =>
    !p.1.2.stuck && p.2.2.stuck).map (·.1)

variable {q q' : RetryQueue}

theorem stuckCount_eq (q : RetryQueue) : q.stuckCount = q.entries.countP (·.2.stuck) := by
  have hall : q.allBlocked = q.entries.map (·.2) := by
    simp [allBlocked, entries, List.map_flatMap, Function.comp_def]
  rw [stuckCount, hall, List.countP_map]
  rfl

theorem entries_park (q : RetryQueue) (item : WorkItem) (c : Constraint) (now : Nat) :
    (q.park item c now).entries.Perm ((c, { item, since := now }) :: q.entries) :=
  Assoc.perm_flatMap_put Prod.mk q.blocked c { item, since := now }

theorem blocked_release (q : RetryQueue) (c : Constraint) :
    (q.release c).blocked = Assoc.erase q.blocked c := by
  unfold release
  split
  · rfl
  · rename_i hnone
    exact (Assoc.erase_of_not_mem (Assoc.get?_eq_none_iff.mp hnone)).symm

theorem entries_release (q : RetryQueue) (c : Constraint) :
    (q.release c).entries = q.entries.filter (·.1 ≠ c) := by
  rw [entries, blocked_release, entries, Assoc.erase]
  induction q.blocked with
  | nil => rfl
  | cons e rest ih =>
    rw [List.flatMap_cons, List.filter_append, ← ih]
    by_cases hc : e.1 = c <;> simp [hc, Function.comp_def, List.filter_map]

theorem entries_releaseAll (resolved : List Constraint) (q : RetryQueue) :
    (resolved.foldl release q).entries = q.entries.filter (·.1 ∉ resolved) := by
  induction resolved generalizing q with
  | nil => simp
  | cons c rest ih =>
    rw [List.foldl_cons, ih, entries_release, List.filter_filter]
    refine List.filter_congr fun e _ => ?_
    simp [not_or, Bool.and_comm]

theorem threshold_releaseAll (resolved : List Constraint) (q : RetryQueue) :
    (resolved.foldl release q).threshold = q.threshold := by
  induction resolved generalizing q with
  | nil => rfl
  | cons c rest ih =>
    rw [List.foldl_cons, ih]
    unfold release
    split <;> rfl

/-- An entry as a report leaves it. -/
def reported (threshold now : Nat) (e : Constraint × Parked) : Constraint × Parked :=
  (e.1, { e.2 with stuck := e.2.stuck || threshold ≤ now - e.2.since })

theorem entries_reportStuck (now : Nat) (q : RetryQueue) :
    (q.reportStuck now).entries = q.entries.map (reported q.threshold now) := by
  simp [reportStuck, entries, reported, List.flatMap_map, List.map_flatMap, Function.comp_def]

theorem newlyStuck_eq (now : Nat) (q : RetryQueue) :
    q.newlyStuck now =
      q.entries.filter fun e => !e.2.stuck && decide (q.threshold ≤ now - e.2.since) := by
  rw [newlyStuck, entries_reportStuck, ← List.map_prod_left_eq_zip, List.filter_map, List.map_map]
  simp only [Function.comp_def, List.map_id']
  exact List.filter_congr fun e _ => by cases h : e.2.stuck <;> simp [reported, h]

theorem entries_takeReady (resolved : List Constraint) (now max : Nat) (q : RetryQueue) :
    (q.takeReady resolved now max).2.entries =
      (q.entries.filter (·.1 ∉ resolved)).map (reported q.threshold now) := by
  have hreport := entries_reportStuck now (resolved.foldl release q)
  rw [entries_releaseAll, threshold_releaseAll] at hreport
  exact hreport

/-! ## Queues but for the marks -/

/-- A queue without marks and without a threshold. -/
def plain (q : RetryQueue) : RetryQueue where
  blocked := Assoc.mapValues (List.map fun p => { p with stuck := false }) q.blocked
  ready := q.ready.map fun p => { p with stuck := false }
  threshold := 0

theorem park_plain (q : RetryQueue) (item : WorkItem) (c : Constraint) (now : Nat) :
    q.plain.park item c now = (q.park item c now).plain := by
  have hlist : (Assoc.get? q.plain.blocked c).getD [] ++ [({ item, since := now } : Parked)] =
      ((Assoc.get? q.blocked c).getD [] ++ [({ item, since := now } : Parked)]).map
        fun p => { p with stuck := false } := by
    rw [plain, Assoc.get?_mapValues, List.map_append]
    cases Assoc.get? q.blocked c <;> rfl
  rw [park, hlist, plain, Assoc.put_mapValues]
  rfl

theorem release_plain (q : RetryQueue) (c : Constraint) :
    q.plain.release c = (q.release c).plain := by
  have hget : Assoc.get? q.plain.blocked c =
      (Assoc.get? q.blocked c).map (List.map fun p => { p with stuck := false }) :=
    Assoc.get?_mapValues ..
  unfold release
  rw [hget]
  cases Assoc.get? q.blocked c with
  | none => rfl
  | some items => simp only [Option.map_some, plain, Assoc.erase_mapValues, List.map_append]

theorem releaseAll_plain (resolved : List Constraint) (q : RetryQueue) :
    resolved.foldl release q.plain = (resolved.foldl release q).plain := by
  induction resolved generalizing q with
  | nil => rfl
  | cons c rest ih => rw [List.foldl_cons, release_plain, ih, List.foldl_cons]

theorem plain_reportStuck (now : Nat) (q : RetryQueue) : (q.reportStuck now).plain = q.plain := by
  simp [plain, reportStuck, Assoc.mapValues, Function.comp_def]

theorem items_ready_plain (q : RetryQueue) : q.plain.ready.map (·.item) = q.ready.map (·.item) := by
  simp [plain, Function.comp_def]

/-- What is taken, and what is left but for the marks, does not depend on marks. -/
theorem takeReady_congr (h : q.plain = q'.plain) (resolved : List Constraint) (now max : Nat) :
    (q.takeReady resolved now max).1 = (q'.takeReady resolved now max).1 ∧
      (q.takeReady resolved now max).2.plain = (q'.takeReady resolved now max).2.plain := by
  have hreleased : ((resolved.foldl release q).reportStuck now).plain =
      ((resolved.foldl release q').reportStuck now).plain := by
    rw [plain_reportStuck, plain_reportStuck, ← releaseAll_plain, ← releaseAll_plain, h]
  simp only [takeReady]
  generalize (resolved.foldl release q).reportStuck now = r at hreleased ⊢
  generalize (resolved.foldl release q').reportStuck now = r' at hreleased ⊢
  constructor
  · rw [List.map_take, List.map_take, ← items_ready_plain, hreleased, items_ready_plain]
  · obtain ⟨hblocked, hready, -⟩ := (RetryQueue.mk.injEq ..).mp hreleased
    simp only [plain, RetryQueue.mk.injEq, and_true, List.map_drop]
    exact ⟨hblocked, by rw [hready]⟩

end RetryQueue

/-! ## What is done with a queue -/

/-- What somebody does with a retry queue. -/
inductive RetryAct where
  | park (item : WorkItem) (c : Constraint)
  /-- A constraint is reported as resolved. -/
  | resolve (c : Constraint)
  | take (max : Nat)
deriving Repr, DecidableEq

/-- What is done with a queue, and when. -/
abbrev RetryLog := List (Nat × RetryAct)

/-- The wait of an item: what for, since when, and which entry of the log began it. -/
structure Wait where
  item : WorkItem
  constraint : Constraint
  since : Nat
  place : Nat
deriving Repr, DecidableEq

namespace RetryLog

/-- All waits, in the order in which they began. -/
def waits (log : RetryLog) : List Wait :=
  log.zipIdx.filterMap fun
    | ((now, .park item c), place) => some ⟨item, c, now, place⟩
    | _ => none

/-- Where in the log items are taken out, and when. -/
def takes (log : RetryLog) : List (Nat × Nat) :=
  log.zipIdx.filterMap fun
    | ((now, .take _), place) => some (place, now)
    | _ => none

/-- The constraints reported as resolved since items were taken out last. -/
def resolved (log : RetryLog) : List Constraint :=
  log.foldl (fun resolved e => match e.2 with
    | .park _ _ => resolved
    | .resolve c => resolved ++ [c]
    | .take _ => []) []

end RetryLog

namespace Wait

/-- Some later call to take items out has found the constraint resolved. -/
def Over (log : RetryLog) (w : Wait) : Prop :=
  ∃ t ∈ log.takes, w.place < t.1 ∧ w.constraint ∈ RetryLog.resolved (log.take t.1)

instance (log : RetryLog) (w : Wait) : Decidable (w.Over log) :=
  inferInstanceAs (Decidable (∃ t ∈ log.takes, _ ∧ _))

/-- Some later call to take items out has found the wait too long and did not end it. -/
def TooLong (threshold : Nat) (log : RetryLog) (w : Wait) : Prop :=
  ∃ t ∈ log.takes, w.place < t.1 ∧ ¬ w.Over (log.take (t.1 + 1)) ∧ threshold ≤ t.2 - w.since

instance (threshold : Nat) (log : RetryLog) (w : Wait) : Decidable (w.TooLong threshold log) :=
  inferInstanceAs (Decidable (∃ t ∈ log.takes, _ ∧ _ ∧ _))

/-- The entry of a wait in a queue. -/
def entry (stuck : Bool) (w : Wait) : Constraint × Parked :=
  (w.constraint, { item := w.item, since := w.since, stuck })

end Wait

namespace RetryLog

/-- The waits that are not over. -/
def waiting (log : RetryLog) : List Wait := log.waits.filter fun w => ¬ w.Over log

variable {log : RetryLog} {e : Nat × RetryAct} {w : Wait} {t : Nat × Nat} {now max threshold : Nat}

theorem mem_takes : t ∈ log.takes ↔ ∃ max, log[t.1]? = some (t.2, .take max) := by
  obtain ⟨place, now⟩ := t
  simp only [takes, List.mem_filterMap, Prod.exists]
  constructor
  · rintro ⟨now', act, place', hmem, hsome⟩
    rw [List.mk_mem_zipIdx_iff_getElem?] at hmem
    cases act with
    | park | resolve => cases hsome
    | take max =>
      cases hsome
      exact ⟨max, hmem⟩
  · rintro ⟨max, hlog⟩
    exact ⟨now, .take max, place, List.mk_mem_zipIdx_iff_getElem?.mpr hlog, rfl⟩

theorem mem_waits :
    w ∈ log.waits ↔ log[w.place]? = some (w.since, .park w.item w.constraint) := by
  obtain ⟨item, c, since, place⟩ := w
  simp only [waits, List.mem_filterMap, Prod.exists]
  constructor
  · rintro ⟨now, act, place', hmem, hsome⟩
    rw [List.mk_mem_zipIdx_iff_getElem?] at hmem
    cases act with
    | take | resolve => cases hsome
    | park item' c' =>
      cases hsome
      exact hmem
  · intro hlog
    exact ⟨since, .park item c, place, List.mk_mem_zipIdx_iff_getElem?.mpr hlog, rfl⟩

theorem waits_snoc_park (item : WorkItem) (c : Constraint) :
    waits (log ++ [(now, .park item c)]) = log.waits ++ [⟨item, c, now, log.length⟩] := by
  simp [waits, List.zipIdx_append]

theorem waits_snoc_resolve (c : Constraint) : waits (log ++ [(now, .resolve c)]) = log.waits := by
  simp [waits, List.zipIdx_append]

theorem waits_snoc_take : waits (log ++ [(now, .take max)]) = log.waits := by
  simp [waits, List.zipIdx_append]

theorem takes_snoc_park (item : WorkItem) (c : Constraint) :
    takes (log ++ [(now, .park item c)]) = log.takes := by
  simp [takes, List.zipIdx_append]

theorem takes_snoc_resolve (c : Constraint) : takes (log ++ [(now, .resolve c)]) = log.takes := by
  simp [takes, List.zipIdx_append]

theorem takes_snoc_take : takes (log ++ [(now, .take max)]) = log.takes ++ [(log.length, now)] := by
  simp [takes, List.zipIdx_append]

theorem lt_length_of_mem_takes (h : t ∈ log.takes) : t.1 < log.length := by
  obtain ⟨max, hlog⟩ := mem_takes.mp h
  exact (List.getElem?_eq_some_iff.mp hlog).1

/-- What comes later does not change what could be told when items were taken out. -/
theorem take_snoc {k : Nat} (h : k ≤ log.length) : (log ++ [e]).take k = log.take k :=
  List.take_append_of_le_length h

end RetryLog

namespace Wait

variable {log : RetryLog} {e : Nat × RetryAct} {w : Wait} {now max threshold : Nat}

theorem over_snoc_of_takes (h : RetryLog.takes (log ++ [e]) = log.takes) :
    w.Over (log ++ [e]) ↔ w.Over log := by
  unfold Over
  rw [h]
  refine exists_congr fun t => and_congr_right fun ht => ?_
  rw [RetryLog.take_snoc (Nat.le_of_lt (RetryLog.lt_length_of_mem_takes ht))]

theorem over_snoc_take :
    w.Over (log ++ [(now, .take max)]) ↔
      w.Over log ∨ w.place < log.length ∧ w.constraint ∈ log.resolved := by
  unfold Over
  rw [RetryLog.takes_snoc_take]
  simp only [List.mem_append, List.mem_singleton, or_and_right, exists_or, exists_eq_left]
  refine or_congr (exists_congr fun t => and_congr_right fun ht => ?_) ?_
  · rw [RetryLog.take_snoc (Nat.le_of_lt (RetryLog.lt_length_of_mem_takes ht))]
  · rw [List.take_left']
    rfl

theorem tooLong_snoc_of_takes (h : RetryLog.takes (log ++ [e]) = log.takes) :
    w.TooLong threshold (log ++ [e]) ↔ w.TooLong threshold log := by
  unfold TooLong
  rw [h]
  refine exists_congr fun t => and_congr_right fun ht => ?_
  rw [RetryLog.take_snoc (RetryLog.lt_length_of_mem_takes ht)]

theorem tooLong_snoc_take :
    w.TooLong threshold (log ++ [(now, .take max)]) ↔
      w.TooLong threshold log ∨ w.place < log.length ∧
        ¬ w.Over (log ++ [(now, .take max)]) ∧ threshold ≤ now - w.since := by
  unfold TooLong
  rw [RetryLog.takes_snoc_take]
  simp only [List.mem_append, List.mem_singleton, or_and_right, exists_or, exists_eq_left]
  refine or_congr (exists_congr fun t => and_congr_right fun ht => ?_) ?_
  · rw [RetryLog.take_snoc (RetryLog.lt_length_of_mem_takes ht)]
  · rw [List.take_of_length_le (by simp)]

/-- A wait is neither over nor reported at once. -/
theorem not_over_of_length (h : log.length ≤ w.place) : ¬ w.Over log := by
  rintro ⟨t, ht, hplace, -⟩
  have hlt := RetryLog.lt_length_of_mem_takes ht
  omega

theorem not_tooLong_of_length (h : log.length ≤ w.place) : ¬ w.TooLong threshold log := by
  rintro ⟨t, ht, hplace, -⟩
  have hlt := RetryLog.lt_length_of_mem_takes ht
  omega

end Wait

namespace RetryLog

variable {log : RetryLog} {w : Wait} {now max threshold : Nat}

theorem place_lt_of_mem_waits (h : w ∈ log.waits) : w.place < log.length :=
  (List.getElem?_eq_some_iff.mp (mem_waits.mp h)).1

theorem mem_waiting : w ∈ log.waiting ↔ w ∈ log.waits ∧ ¬ w.Over log := by
  simp [waiting]

theorem waiting_snoc_park (item : WorkItem) (c : Constraint) :
    waiting (log ++ [(now, .park item c)]) = log.waiting ++ [⟨item, c, now, log.length⟩] := by
  rw [waiting, waits_snoc_park, List.filter_append, waiting]
  congr 1
  · refine List.filter_congr fun w _ => ?_
    rw [decide_eq_decide, Wait.over_snoc_of_takes (takes_snoc_park item c)]
  · have hnew := Wait.not_over_of_length (w := ⟨item, c, now, log.length⟩) (Nat.le_refl log.length)
    rw [← Wait.over_snoc_of_takes (takes_snoc_park item c)] at hnew
    exact List.filter_cons_of_pos (decide_eq_true hnew)

theorem waiting_snoc_resolve (c : Constraint) :
    waiting (log ++ [(now, .resolve c)]) = log.waiting := by
  rw [waiting, waits_snoc_resolve]
  refine List.filter_congr fun w _ => ?_
  rw [decide_eq_decide, Wait.over_snoc_of_takes (takes_snoc_resolve c)]

theorem waiting_snoc_take :
    waiting (log ++ [(now, .take max)]) =
      log.waiting.filter fun w => w.constraint ∉ log.resolved := by
  rw [waiting, waits_snoc_take, waiting, List.filter_filter]
  refine List.filter_congr fun w hw => ?_
  have hplace := place_lt_of_mem_waits hw
  simp [Wait.over_snoc_take, hplace, not_or, Bool.and_comm]

theorem times_le (h : (log.map (·.1)).Pairwise (· ≤ ·)) {i j : Nat} {e f : Nat × RetryAct}
    (hi : log[i]? = some e) (hj : log[j]? = some f) (hij : i ≤ j) : e.1 ≤ f.1 := by
  rcases Nat.lt_or_eq_of_le hij with hlt | rfl
  · obtain ⟨hilen, rfl⟩ := List.getElem?_eq_some_iff.mp hi
    obtain ⟨hjlen, rfl⟩ := List.getElem?_eq_some_iff.mp hj
    have hle := List.pairwise_iff_getElem.mp h i j (by simpa using hilen) (by simpa using hjlen) hlt
    simpa using hle
  · cases hi.symm.trans hj
    exact Nat.le_refl e.1

/-- The waits that a call to take items out finds too long for the first time. -/
theorem perm_tooLong_snoc_take (threshold : Nat) (log : RetryLog) (now max : Nat) :
    (waits (log ++ [(now, .take max)]) |>.filter fun w =>
        w.TooLong threshold (log ++ [(now, .take max)])).Perm
      ((log.waits.filter fun w => w.TooLong threshold log) ++
        (waiting (log ++ [(now, .take max)])).filter fun w =>
          ¬ w.TooLong threshold log ∧ threshold ≤ now - w.since) := by
  rw [waits_snoc_take, waiting, waits_snoc_take, List.filter_filter]
  refine (List.filter_append_perm (fun w => w.TooLong threshold log) _).symm.trans ?_
  rw [List.filter_filter, List.filter_filter]
  refine List.Perm.of_eq (congrArg₂ _ ?_ ?_)
  · refine List.filter_congr fun w _ => ?_
    by_cases hold : w.TooLong threshold log <;> simp [Wait.tooLong_snoc_take, hold]
  · refine List.filter_congr fun w hw => ?_
    have hplace := place_lt_of_mem_waits hw
    by_cases hold : w.TooLong threshold log <;>
      simp [Wait.tooLong_snoc_take, hold, hplace, Bool.and_comm]

end RetryLog

/-! ## Runs -/

/-- A retry queue and what has become of it. -/
structure RetryRun where
  queue : RetryQueue
  /-- The constraints reported as resolved that the queue does not know of yet. -/
  resolved : List Constraint := []
  /-- The items that each call has taken out. -/
  taken : List (List WorkItem) := []
  /-- The entries that were marked as stuck, as they were before. -/
  marked : List (Constraint × Parked) := []

namespace RetryRun

def act (r : RetryRun) : Nat × RetryAct → RetryRun
  | (now, .park item c) => { r with queue := r.queue.park item c now }
  | (_, .resolve c) => { r with resolved := r.resolved ++ [c] }
  | (now, .take max) =>
    let (items, queue) := r.queue.takeReady r.resolved now max
    { queue
      resolved := []
      taken := r.taken ++ [items]
      marked := r.marked ++ (r.resolved.foldl RetryQueue.release r.queue).newlyStuck now }

def run (threshold : Nat) (log : RetryLog) : RetryRun := log.foldl act { queue := { threshold } }

/-- The queue holds the waits that are not over, marked if they were found too long, and each wait
that was found too long has been marked once. -/
structure Sound (threshold : Nat) (log : RetryLog) (r : RetryRun) : Prop where
  same : r.queue.threshold = threshold
  resolved : r.resolved = log.resolved
  entries : r.queue.entries.Perm (log.waiting.map fun w => w.entry (w.TooLong threshold log))
  marked : r.marked.Perm
    ((log.waits.filter fun w => w.TooLong threshold log).map (Wait.entry false))

variable {threshold now max : Nat} {log : RetryLog} {r : RetryRun}

theorem resolved_snoc (log : RetryLog) (e : Nat × RetryAct) :
    RetryLog.resolved (log ++ [e]) = match e.2 with
      | .park _ _ => log.resolved
      | .resolve c => log.resolved ++ [c]
      | .take _ => [] := by
  simp [RetryLog.resolved]

theorem Sound.park (h : Sound threshold log r) (item : WorkItem) (c : Constraint) :
    Sound threshold (log ++ [(now, .park item c)]) (r.act (now, .park item c)) := by
  have htoo : ∀ w : Wait, w.TooLong threshold (log ++ [(now, .park item c)]) ↔
      w.TooLong threshold log := fun w =>
    Wait.tooLong_snoc_of_takes (RetryLog.takes_snoc_park item c)
  have hnew : ¬ Wait.TooLong threshold log ⟨item, c, now, log.length⟩ :=
    Wait.not_tooLong_of_length (Nat.le_refl log.length)
  constructor
  case same => exact h.same
  case resolved =>
    rw [resolved_snoc]
    exact h.resolved
  case entries =>
    rw [RetryLog.waiting_snoc_park, List.map_append]
    simp only [htoo, List.map_cons, List.map_nil, hnew, decide_false]
    refine (RetryQueue.entries_park ..).trans ((h.entries.cons _).trans ?_)
    exact (List.perm_append_singleton ..).symm
  case marked =>
    rw [RetryLog.waits_snoc_park, List.filter_append]
    simp only [htoo, hnew, decide_false, List.filter_cons, List.filter_nil, List.append_nil,
      Bool.false_eq_true, if_false]
    exact h.marked

theorem Sound.resolve (h : Sound threshold log r) (c : Constraint) :
    Sound threshold (log ++ [(now, .resolve c)]) (r.act (now, .resolve c)) := by
  have htoo : ∀ w : Wait, w.TooLong threshold (log ++ [(now, .resolve c)]) ↔
      w.TooLong threshold log := fun w =>
    Wait.tooLong_snoc_of_takes (RetryLog.takes_snoc_resolve c)
  constructor
  case same => exact h.same
  case resolved =>
    rw [resolved_snoc]
    exact congrArg (· ++ [c]) h.resolved
  case entries =>
    rw [RetryLog.waiting_snoc_resolve]
    simp only [htoo]
    exact h.entries
  case marked =>
    rw [RetryLog.waits_snoc_resolve]
    simp only [htoo]
    exact h.marked

/-- What is left waiting was waiting and is marked if it was or if its wait is too long by now. -/
theorem Sound.entries_take (h : Sound threshold log r) (now max : Nat) :
    (r.queue.entries.filter (·.1 ∉ r.resolved)).Perm
      ((RetryLog.waiting (log ++ [(now, .take max)])).map fun w =>
        w.entry (w.TooLong threshold log)) := by
  refine (h.entries.filter _).trans ?_
  rw [List.filter_map, RetryLog.waiting_snoc_take, h.resolved]
  rfl

theorem Sound.take (h : Sound threshold log r) :
    Sound threshold (log ++ [(now, .take max)]) (r.act (now, .take max)) := by
  have hleft := h.entries_take now max
  constructor
  case same => exact (RetryQueue.threshold_releaseAll r.resolved r.queue).trans h.same
  case resolved =>
    rw [resolved_snoc]
    rfl
  case entries =>
    have hentries := RetryQueue.entries_takeReady r.resolved now max r.queue
    change (r.queue.takeReady r.resolved now max).2.entries.Perm _
    rw [hentries]
    refine (hleft.map _).trans (List.Perm.of_eq ?_)
    rw [List.map_map]
    refine List.map_congr_left fun w hw => ?_
    obtain ⟨hwaits, hover⟩ := RetryLog.mem_waiting.mp hw
    rw [RetryLog.waits_snoc_take] at hwaits
    have hplace := RetryLog.place_lt_of_mem_waits hwaits
    simp [RetryQueue.reported, Wait.entry, Wait.tooLong_snoc_take, hplace, hover, h.same]
  case marked =>
    have hfound := (RetryLog.perm_tooLong_snoc_take threshold log now max).symm.map
      (Wait.entry false)
    rw [List.map_append] at hfound
    refine (h.marked.append ?_).trans hfound
    rw [RetryQueue.newlyStuck_eq, RetryQueue.entries_releaseAll, RetryQueue.threshold_releaseAll,
      h.same]
    refine (hleft.filter _).trans (List.Perm.of_eq ?_)
    have hunmarked : ∀ w ∈ RetryLog.waiting (log ++ [(now, .take max)]),
        ((fun e => !e.2.stuck && decide (threshold ≤ now - e.2.since)) ∘
          fun w : Wait => w.entry (w.TooLong threshold log)) w =
          decide (¬ w.TooLong threshold log ∧ threshold ≤ now - w.since) := by
      intro w _
      simp [Wait.entry]
    rw [List.filter_map, List.filter_congr hunmarked]
    refine List.map_congr_left fun w hw => ?_
    have hnew := of_decide_eq_true (List.mem_filter.mp hw).2
    simp only [hnew.1, decide_false]

theorem sound_run (threshold : Nat) (log : RetryLog) : Sound threshold log (run threshold log) := by
  induction log using List.reverseRecOn with
  | nil => exact ⟨rfl, rfl, List.Perm.refl _, List.Perm.refl _⟩
  | append_singleton log e ih =>
    rw [run, List.foldl_append]
    obtain ⟨now, act⟩ := e
    cases act with
    | park item c => exact ih.park item c
    | resolve c => exact ih.resolve c
    | take max => exact ih.take

/-- Marks make no difference to what is taken out and to what is left. -/
theorem run_congr (threshold other : Nat) (log : RetryLog) :
    (run other log).taken = (run threshold log).taken ∧
      (run other log).queue.plain = (run threshold log).queue.plain := by
  induction log using List.reverseRecOn with
  | nil => exact ⟨rfl, rfl⟩
  | append_singleton log e ih =>
    have hresolved : (run other log).resolved = (run threshold log).resolved :=
      (sound_run other log).resolved.trans (sound_run threshold log).resolved.symm
    simp only [run, List.foldl_append, List.foldl_cons, List.foldl_nil]
    obtain ⟨now, act⟩ := e
    cases act with
    | park item c =>
      refine ⟨ih.1, ?_⟩
      change ((run other log).queue.park item c now).plain =
        ((run threshold log).queue.park item c now).plain
      rw [← RetryQueue.park_plain, ← RetryQueue.park_plain, ih.2]
    | resolve c => exact ih
    | take max =>
      obtain ⟨htaken, hplain⟩ :=
        RetryQueue.takeReady_congr ih.2 (run threshold log).resolved now max
      constructor
      · change (run other log).taken ++
            [((run other log).queue.takeReady (run other log).resolved now max).1] = _
        rw [ih.1, hresolved, htaken]
        rfl
      · change ((run other log).queue.takeReady (run other log).resolved now max).2.plain = _
        rw [hresolved, hplain]
        rfl

/-- At the times of a log that never go back, a wait is too long for the last call if it began so
long before. -/
theorem tooLong_take_iff {w : Wait}
    (htimes : ((log ++ [(now, RetryAct.take max)]).map (·.1)).Pairwise (· ≤ ·))
    (hw : w ∈ RetryLog.waiting (log ++ [(now, .take max)])) :
    w.TooLong threshold (log ++ [(now, .take max)]) ↔ w.since + threshold ≤ now := by
  obtain ⟨hwaits, hover⟩ := RetryLog.mem_waiting.mp hw
  have hsince := RetryLog.mem_waits.mp hwaits
  have hlast : (log ++ [(now, RetryAct.take max)])[log.length]? = some (now, .take max) := by simp
  constructor
  · rintro ⟨t, ht, hplace, -, hlong⟩
    obtain ⟨max', htake⟩ := RetryLog.mem_takes.mp ht
    have hlength := RetryLog.lt_length_of_mem_takes ht
    rw [List.length_append] at hlength
    have hbegan := RetryLog.times_le htimes hsince htake (Nat.le_of_lt hplace)
    have hnow := RetryLog.times_le htimes htake hlast (Nat.le_of_lt_succ hlength)
    dsimp only at hbegan hnow
    omega
  · intro hlong
    rw [RetryLog.waits_snoc_take] at hwaits
    exact Wait.tooLong_snoc_take.mpr
      (.inr ⟨RetryLog.place_lt_of_mem_waits hwaits, hover, by omega⟩)

/-- Whatever is parked, reported as resolved and taken out of a retry queue, and whatever its
threshold. What waits are the items whose constraint no later call to take items out has found
resolved; one of them is marked if such a call has found its wait too long. Each wait that a call
has found too long, without ending it, has been marked once, and no other wait has. Right after a
call the queue counts as stuck the items that wait and have waited for the threshold or longer.
With another threshold, all calls take out the same items, and the same items are left in the
same order. -/
theorem stuck_items_are_counted (threshold : Nat) (log : RetryLog)
    (htimes : (log.map (·.1)).Pairwise (· ≤ ·)) :
    let r := run threshold log
    r.queue.entries.Perm (log.waiting.map fun w => w.entry (w.TooLong threshold log)) ∧
    r.marked.Perm ((log.waits.filter fun w => w.TooLong threshold log).map (Wait.entry false)) ∧
    (∀ before now max, log = before ++ [(now, .take max)] →
      r.queue.stuckCount = log.waiting.countP fun w => w.since + threshold ≤ now) ∧
    ∀ other, (run other log).taken = r.taken ∧ (run other log).queue.plain = r.queue.plain := by
  intro r
  have hsound : Sound threshold log r := sound_run threshold log
  refine ⟨hsound.entries, hsound.marked, ?_, fun other => run_congr threshold other log⟩
  rintro before now max rfl
  rw [RetryQueue.stuckCount_eq, hsound.entries.countP_eq, List.countP_map]
  refine List.countP_congr fun w hw => ?_
  simp only [Function.comp_apply, Wait.entry, decide_eq_true_eq]
  exact tooLong_take_iff htimes hw

/-- One of two items is released after a while, and parked again. -/
def parkedAgain : RetryLog :=
  [(0, .park { key := "Eth0", operation := .del } ⟨"port", "Eth0"⟩),
   (0, .park { key := "Eth1", operation := .del } ⟨"port", "Eth1"⟩),
   (60, .take 8), (61, .resolve ⟨"port", "Eth0"⟩), (62, .take 8),
   (62, .park { key := "Eth0", operation := .del } ⟨"port", "Eth0"⟩), (122, .take 8)]

theorem an_item_that_is_parked_again :
    (parkedAgain.map (·.1)).Pairwise (· ≤ ·) ∧
      (run 60 parkedAgain).queue.stuckCount = 2 ∧ (run 60 parkedAgain).marked.length = 3 ∧
      (run 61 parkedAgain).taken = (run 60 parkedAgain).taken := by
  have htimes : (parkedAgain.map (·.1)).Pairwise (· ≤ ·) := by decide
  obtain ⟨-, hmarked, hcount, hother⟩ := stuck_items_are_counted 60 parkedAgain htimes
  exact ⟨htimes, (hcount parkedAgain.dropLast 122 8 rfl).trans (by decide),
    hmarked.length_eq.trans (by decide), (hother 61).1⟩

end RetryRun

end ControlBus
