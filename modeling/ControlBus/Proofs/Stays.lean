-- What a log of the events around an executor tells of the items that the handler puts off: since
-- when each of them waits and for what, which report frees it, and when it is handed over again.
import ControlBus.Work.Executor
import Mathlib.Data.Nat.Find

namespace ControlBus

/-! ## The log -/

/-- What happens around an executor as far as it matters to the items put off. -/
inductive WorkEvent where
  /-- An item is handed to the handler, which answers so. -/
  | handed (item : WorkItem) (verdict : Verdict)
  /-- Somebody reports a constraint as resolved. -/
  | resolved (c : Constraint)
  /-- A sweep takes the reports that have come in. -/
  | swept
deriving Repr, DecidableEq

abbrev WorkLog := List WorkEvent

namespace WorkLog

theorem getElem?_snoc {log : WorkLog} {e x : WorkEvent} {k : Nat} :
    (log ++ [e])[k]? = some x ↔ log[k]? = some x ∨ k = log.length ∧ e = x := by
  rcases Nat.lt_trichotomy k log.length with hlt | rfl | hgt
  · rw [List.getElem?_append_left hlt]
    simp [Nat.ne_of_lt hlt]
  · simp
  · rw [List.getElem?_eq_none (by simp; omega), List.getElem?_eq_none (by omega)]
    simp [Nat.ne_of_gt hgt]

theorem lt_length {log : WorkLog} {x : WorkEvent} {k : Nat} (h : log[k]? = some x) :
    k < log.length := (List.getElem?_eq_some_iff.mp h).1

theorem getElem?_of_prefix {log log' : WorkLog} (h : log <+: log') {x : WorkEvent} {k : Nat}
    (hk : log[k]? = some x) : log'[k]? = some x := by
  obtain ⟨more, rfl⟩ := h
  rw [List.getElem?_append_left (lt_length hk)]
  exact hk

end WorkLog

/-- An item that was put off: it waits for a constraint since the event of this number. -/
structure Stay where
  item : WorkItem
  constraint : Constraint
  since : Nat
deriving Repr, DecidableEq

namespace Stay

/-- The log tells of the call in which the item was put off. -/
def In (s : Stay) (log : WorkLog) : Prop :=
  log[s.since]? = some (.handed s.item (.retry s.constraint))

/-- The item is handed over again later. -/
def AgainAt (s : Stay) (log : WorkLog) (k : Nat) : Prop :=
  s.since < k ∧ ∃ verdict, log[k]? = some (.handed s.item verdict)

/-- The constraint is reported as resolved, and the item was put off before or at least before the
next sweep. -/
def FreedAt (s : Stay) (log : WorkLog) (j : Nat) : Prop :=
  log[j]? = some (.resolved s.constraint) ∧ ∀ k, j < k → k < s.since → log[k]? ≠ some .swept

/-- The first report that frees the item. -/
def FirstFreedAt (s : Stay) (log : WorkLog) (j : Nat) : Prop :=
  s.FreedAt log j ∧ ∀ i < j, ¬ s.FreedAt log i

/-- The item has not been handed over again. -/
def Held (s : Stay) (log : WorkLog) : Prop := s.In log ∧ ∀ k, ¬ s.AgainAt log k

variable {s t : Stay} {log : WorkLog} {e : WorkEvent} {j k : Nat}

theorem In.lt (h : s.In log) : s.since < log.length := WorkLog.lt_length h

theorem in_snoc :
    s.In (log ++ [e]) ↔
      s.In log ∨ s.since = log.length ∧ e = .handed s.item (.retry s.constraint) :=
  WorkLog.getElem?_snoc

theorem againAt_snoc :
    s.AgainAt (log ++ [e]) k ↔
      s.AgainAt log k ∨ s.since < k ∧ k = log.length ∧ ∃ verdict, e = .handed s.item verdict := by
  simp only [AgainAt, WorkLog.getElem?_snoc]
  constructor
  · rintro ⟨hlt, verdict, h | ⟨hk, he⟩⟩
    · exact .inl ⟨hlt, verdict, h⟩
    · exact .inr ⟨hlt, hk, verdict, he⟩
  · rintro (⟨hlt, verdict, h⟩ | ⟨hlt, hk, verdict, he⟩)
    · exact ⟨hlt, verdict, .inl h⟩
    · exact ⟨hlt, verdict, .inr ⟨hk, he⟩⟩

/-- What has happened between two events stays as it is. -/
theorem freedAt_snoc (h : s.since ≤ log.length) :
    s.FreedAt (log ++ [e]) j ↔
      s.FreedAt log j ∨ j = log.length ∧ e = .resolved s.constraint := by
  simp only [FreedAt, WorkLog.getElem?_snoc]
  have hbetween : ∀ k, k < s.since → ((log ++ [e])[k]? ≠ some .swept ↔ log[k]? ≠ some .swept) := by
    intro k hk
    rw [List.getElem?_append_left (by omega)]
  constructor
  · rintro ⟨hj | ⟨hj, he⟩, hquiet⟩
    · exact .inl ⟨hj, fun k hjk hk => (hbetween k hk).mp (hquiet k hjk hk)⟩
    · exact .inr ⟨hj, he⟩
  · rintro (⟨hj, hquiet⟩ | ⟨hj, he⟩)
    · exact ⟨.inl hj, fun k hjk hk => (hbetween k hk).mpr (hquiet k hjk hk)⟩
    · exact ⟨.inr ⟨hj, he⟩, fun k hjk hk => absurd hk (by omega)⟩

/-- Only reports free items. -/
theorem freedAt_snoc_of_other (h : s.since ≤ log.length) (he : ∀ c, e ≠ .resolved c) :
    s.FreedAt (log ++ [e]) j ↔ s.FreedAt log j := by
  rw [freedAt_snoc h]
  exact or_iff_left fun ⟨_, hreport⟩ => he _ hreport

/-- Events that come later are not needed to tell what has freed an item. -/
theorem freedAt_append {more : WorkLog} (hs : s.since ≤ log.length) (hj : j < log.length) :
    s.FreedAt (log ++ more) j ↔ s.FreedAt log j := by
  simp only [FreedAt, List.getElem?_append_left hj]
  refine and_congr_right fun _ => forall_congr' fun k => forall_congr' fun _ => ?_
  refine forall_congr' fun hk => ?_
  rw [List.getElem?_append_left (by omega)]

theorem firstFreedAt_append {more : WorkLog} (hs : s.since ≤ log.length) (hj : j < log.length) :
    s.FirstFreedAt (log ++ more) j ↔ s.FirstFreedAt log j := by
  simp only [FirstFreedAt, freedAt_append hs hj]
  refine and_congr_right fun _ => forall_congr' fun i => forall_congr' fun hi => ?_
  rw [freedAt_append hs (by omega)]

theorem in_append {more : WorkLog} (hs : s.since < log.length) :
    s.In (log ++ more) ↔ s.In log := by
  rw [In, List.getElem?_append_left hs, In]

theorem againAt_append {more : WorkLog} (hk : k < log.length) :
    s.AgainAt (log ++ more) k ↔ s.AgainAt log k := by
  simp only [AgainAt, List.getElem?_append_left hk]

theorem AgainAt.first (h : s.AgainAt log k) :
    ∃ i ≤ k, s.AgainAt log i ∧ ∀ l < i, ¬ s.AgainAt log l := by
  classical
  exact ⟨Nat.find ⟨k, h⟩, Nat.find_min' _ h, Nat.find_spec ⟨k, h⟩, fun l hl => Nat.find_min _ hl⟩

/-- An item can only be put off once before it is handed over again. -/
theorem Held.unique (hs : s.Held log) (ht : t.Held log) (hitem : s.item = t.item) : s = t := by
  rcases Nat.lt_trichotomy s.since t.since with hlt | heq | hgt
  · have hagain := ht.1
    rw [In, ← hitem] at hagain
    exact absurd ⟨hlt, _, hagain⟩ (hs.2 t.since)
  · have hsame := hs.1
    rw [In, heq, ht.1] at hsame
    cases s
    cases t
    simp_all
  · have hagain := hs.1
    rw [In, hitem] at hagain
    exact absurd ⟨hgt, _, hagain⟩ (ht.2 s.since)

theorem held_snoc_of_other (h : s.Held log) (he : ∀ verdict, e ≠ .handed s.item verdict) :
    s.Held (log ++ [e]) := by
  refine ⟨in_snoc.mpr (.inl h.1), fun k hk => ?_⟩
  rcases againAt_snoc.mp hk with hk | ⟨-, -, verdict, heq⟩
  · exact h.2 k hk
  · exact he verdict heq

theorem Held.of_snoc (h : s.Held (log ++ [e])) :
    s.Held log ∨ s.since = log.length ∧ e = .handed s.item (.retry s.constraint) := by
  rcases in_snoc.mp h.1 with hin | hnew
  · exact .inl ⟨hin, fun k hk => h.2 k (againAt_snoc.mpr (.inl hk))⟩
  · exact .inr hnew

/-- An item that has not been handed over again by some moment is held then. -/
theorem In.held_before {more : WorkLog} (h : s.In (log ++ more)) (hs : s.since < log.length)
    (hnever : ∀ i < log.length, ¬ s.AgainAt (log ++ more) i) : s.Held log := by
  refine ⟨(in_append hs).mp h, fun i hi => ?_⟩
  obtain ⟨-, verdict, hat⟩ := id hi
  have hlt := WorkLog.lt_length hat
  exact hnever i hlt ((againAt_append hlt).mpr hi)

/-- A report frees only what is put off before the sweep that takes it. -/
theorem FreedAt.since_lt (h : s.FreedAt log j) (hin : s.In log) (hk : log[k]? = some .swept)
    (hjk : j < k) : s.since < k := by
  by_contra hnot
  rcases Nat.lt_or_eq_of_le (Nat.not_lt.mp hnot) with hlater | heq
  · exact h.2 k hjk hlater hk
  · rw [In, ← heq, hk] at hin
    cases hin

theorem FirstFreedAt.unique {i : Nat} (hi : s.FirstFreedAt log i) (hj : s.FirstFreedAt log j) :
    i = j := by
  rcases Nat.lt_trichotomy i j with hlt | heq | hgt
  · exact absurd hi.1 (hj.2 i hlt)
  · exact heq
  · exact absurd hj.1 (hi.2 j hgt)

end Stay

end ControlBus
