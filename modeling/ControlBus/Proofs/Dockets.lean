-- The docket of the items that a handler has put off, kept event by event. As long as nothing is
-- handed over out of turn, it says what the log says: nothing that a report has freed is lost,
-- nothing leaves that no report has freed, and all leave in the order in which they are freed.
import ControlBus.Proofs.LogPlaces
import ControlBus.Proofs.Stays
import Mathlib.Data.List.Induction

namespace ControlBus

/-! ## The docket -/

/-- Items put off that have not left yet. -/
structure Docket where
  /-- How many events have been entered. -/
  clock : Nat := 0
  /-- Items that have not been released, in the order in which they were put off. -/
  waiting : List Stay := []
  /-- Items that are released, each with the number of the report that freed it. -/
  ready : List (Stay × Nat) := []
  /-- The reports since the last sweep. -/
  reports : List (Constraint × Nat) := []

namespace Docket

/-- Release the items that wait for a constraint. -/
def release (d : Docket) (r : Constraint × Nat) : Docket :=
  { d with
    waiting := d.waiting.filter fun s => s.constraint ≠ r.1
    ready := d.ready ++ (d.waiting.filter fun s => s.constraint = r.1).map fun s => (s, r.2) }

/-- The released items without the one that is handed over. -/
def leaving (item : WorkItem) : List (Stay × Nat) → List (Stay × Nat)
  | [] => []
  | p :: rest => if p.1.item = item then rest else p :: rest

/-- What a call of the handler adds to the items that wait. -/
def putOff (item : WorkItem) (since : Nat) : Verdict → List Stay
  | .done => []
  | .retry c => [⟨item, c, since⟩]

/-- Enter an event. -/
def enter (d : Docket) : WorkEvent → Docket
  | .handed item verdict =>
    { d with
      clock := d.clock + 1
      ready := leaving item d.ready
      waiting := d.waiting ++ putOff item d.clock verdict }
  | .resolved c => { d with clock := d.clock + 1, reports := d.reports ++ [(c, d.clock)] }
  | .swept => { d.reports.foldl release d with clock := d.clock + 1, reports := [] }

/-- The docket after all that a log tells. -/
def ofLog (log : WorkLog) : Docket := log.foldl enter {}

variable {d : Docket} {s : Stay} {p : Stay × Nat} {r : Constraint × Nat}

theorem mem_waiting_release :
    s ∈ (d.release r).waiting ↔ s ∈ d.waiting ∧ s.constraint ≠ r.1 := by
  simp [release]

theorem mem_ready_release :
    p ∈ (d.release r).ready ↔
      p ∈ d.ready ∨ p.1 ∈ d.waiting ∧ p.1.constraint = r.1 ∧ p.2 = r.2 := by
  obtain ⟨s, j⟩ := p
  simp only [release, List.mem_append, List.mem_map, List.mem_filter, decide_eq_true_eq,
    Prod.mk.injEq]
  constructor
  · rintro (h | ⟨s', ⟨hs, hc⟩, rfl, rfl⟩)
    · exact .inl h
    · exact .inr ⟨hs, hc, rfl⟩
  · rintro (h | ⟨hs, hc, hj⟩)
    · exact .inl h
    · exact .inr ⟨s, ⟨hs, hc⟩, rfl, hj.symm⟩

/-- Nothing is left that waits for what is released, and all else waits on. -/
theorem filter_waiting_release (c : Constraint) :
    ((d.release r).waiting.filter fun s => s.constraint = c) =
      if c = r.1 then [] else d.waiting.filter fun s => s.constraint = c := by
  simp only [release, List.filter_filter]
  split
  · rename_i hc
    simp [hc]
  · rename_i hc
    refine List.filter_congr fun s _ => ?_
    by_cases hs : s.constraint = c <;> simp [hs, hc]

theorem ofLog_snoc (log : WorkLog) (e : WorkEvent) : ofLog (log ++ [e]) = (ofLog log).enter e := by
  simp [ofLog]

/-- Items leave in the order of the reports that freed them, and those freed by one report in the
order in which they were put off. -/
def Before (p q : Stay × Nat) : Prop := p.2 < q.2 ∨ p.2 = q.2 ∧ p.1.since < q.1.since

/-- The report that freed an item is the first that could, and a sweep has taken it. -/
def Released (p : Stay × Nat) (log : WorkLog) : Prop :=
  p.1.FirstFreedAt log p.2 ∧ ∃ k, p.1.since < k ∧ p.2 < k ∧ log[k]? = some .swept

theorem Released.snoc {p : Stay × Nat} {log : WorkLog} (h : Released p log)
    (hin : p.1.In log) (e : WorkEvent) : Released p (log ++ [e]) := by
  obtain ⟨⟨hfreed, hfirst⟩, k, hsince, hk, hswept⟩ := h
  have hle := Nat.le_of_lt hin.lt
  refine ⟨⟨(Stay.freedAt_snoc hle).mpr (.inl hfreed), fun i hi hfreed' => ?_⟩,
    k, hsince, hk, WorkLog.getElem?_snoc.mpr (.inl hswept)⟩
  rcases (Stay.freedAt_snoc hle).mp hfreed' with hfreed' | ⟨rfl, -⟩
  · exact hfirst i hi hfreed'
  · have hlt := WorkLog.lt_length hfreed.1
    omega

/-- The docket says what the log says. -/
structure Sound (log : WorkLog) (d : Docket) : Prop where
  clock : d.clock = log.length
  covered : ∀ s : Stay, s.Held log → s ∈ d.waiting ∨ ∃ j, (s, j) ∈ d.ready
  waiting : ∀ s ∈ d.waiting, s.Held log ∧ ∀ j, s.FreedAt log j → (s.constraint, j) ∈ d.reports
  ready : ∀ p ∈ d.ready, p.1.Held log ∧ Released p log
  reports : ∀ c j, (c, j) ∈ d.reports ↔
    log[j]? = some (.resolved c) ∧ ∀ k, j < k → log[k]? ≠ some .swept
  reportsRise : d.reports.Pairwise fun r r' => r.2 < r'.2
  waitingRise : d.waiting.Pairwise fun s s' => s.since < s'.since
  order : d.ready.Pairwise Before

variable {log : WorkLog}

theorem sound_nil : Sound [] {} where
  clock := rfl
  covered s h := by simp [Stay.Held, Stay.In] at h
  waiting s h := nomatch h
  ready p h := nomatch h
  reports c j := by simp
  reportsRise := .nil
  waitingRise := .nil
  order := .nil

/-! ### Reports -/

theorem Sound.resolved (h : d.Sound log) (c : Constraint) :
    (d.enter (.resolved c)).Sound (log ++ [.resolved c]) where
  clock := by simp [enter, h.clock]
  covered s hs := by
    rcases hs.of_snoc with hold | ⟨-, he⟩
    · exact h.covered s hold
    · cases he
  waiting s hs := by
    obtain ⟨hheld, hfreed⟩ := h.waiting s hs
    refine ⟨Stay.held_snoc_of_other hheld (by simp), fun j hj => ?_⟩
    rcases (Stay.freedAt_snoc (Nat.le_of_lt hheld.1.lt)).mp hj with hj | ⟨rfl, he⟩
    · exact List.mem_append_left _ (hfreed j hj)
    · cases he
      simp [enter, h.clock]
  ready p hp := by
    obtain ⟨hheld, hreleased⟩ := h.ready p hp
    exact ⟨Stay.held_snoc_of_other hheld (by simp), hreleased.snoc hheld.1 _⟩
  reports c' j := by
    have hold := h.reports c' j
    simp only [enter, List.mem_append, hold, List.mem_singleton, Prod.mk.injEq, h.clock,
      WorkLog.getElem?_snoc, WorkEvent.resolved.injEq, ne_eq, not_or, not_and, reduceCtorEq,
      not_false_eq_true, implies_true, and_true]
    constructor
    · rintro (⟨hj, hquiet⟩ | ⟨rfl, rfl⟩)
      · exact ⟨.inl hj, hquiet⟩
      · refine ⟨.inr ⟨rfl, rfl⟩, fun k hk hswept => ?_⟩
        have hlt := WorkLog.lt_length hswept
        omega
    · rintro ⟨hj | ⟨rfl, rfl⟩, hquiet⟩
      · exact .inl ⟨hj, hquiet⟩
      · exact .inr ⟨rfl, rfl⟩
  reportsRise := by
    refine List.pairwise_append.mpr ⟨h.reportsRise, List.pairwise_singleton .., ?_⟩
    rintro ⟨c', j⟩ hr r hr'
    rw [List.mem_singleton.mp hr', h.clock]
    exact WorkLog.lt_length ((h.reports c' j).mp hr).1
  waitingRise := h.waitingRise
  order := h.order

/-! ### Calls -/

/-- An item may be handed over that has never been before, or the first one that is released. -/
def Admits (d : Docket) (log : WorkLog) (item : WorkItem) : Prop :=
  (∀ verdict, .handed item verdict ∉ log) ∨ ∃ p rest, d.ready = p :: rest ∧ p.1.item = item

theorem before_asymm {p q : Stay × Nat} (h : Before p q) : ¬ Before q p := by
  unfold Before at h ⊢
  omega

theorem before_irrefl (p : Stay × Nat) : ¬ Before p p := fun h => before_asymm h h

theorem leaving_sublist (item : WorkItem) (ready : List (Stay × Nat)) :
    (leaving item ready).Sublist ready := by
  unfold leaving
  split
  · exact .slnil
  · split
    · exact List.sublist_cons_self ..
    · exact List.Sublist.refl _

theorem leaving_eq_self {item : WorkItem} {ready : List (Stay × Nat)}
    (h : ∀ p ∈ ready, p.1.item ≠ item) : leaving item ready = ready := by
  cases ready with
  | nil => rfl
  | cons p rest => simp [leaving, h p List.mem_cons_self]

variable {item : WorkItem}

/-- An item that has never been handed over is not on the docket. -/
theorem Sound.fresh (h : d.Sound log) (hfresh : ∀ verdict, .handed item verdict ∉ log) :
    (∀ p ∈ d.ready, p.1.item ≠ item) ∧ ∀ s ∈ d.waiting, s.item ≠ item := by
  have hother : ∀ s : Stay, s.Held log → s.item ≠ item := by
    rintro s hs rfl
    exact hfresh _ (List.mem_of_getElem? hs.1)
  exact ⟨fun p hp => hother p.1 (h.ready p hp).1, fun s hs => hother s (h.waiting s hs).1⟩

/-- No other item on the docket is the one that is handed over. -/
theorem Sound.others (h : d.Sound log) (hadmits : d.Admits log item) :
    (∀ p, p ∈ leaving item d.ready ↔ p ∈ d.ready ∧ p.1.item ≠ item) ∧
      ∀ s ∈ d.waiting, s.item ≠ item := by
  rcases hadmits with hfresh | ⟨p, rest, hready, hitem⟩
  · obtain ⟨hready, hwaiting⟩ := h.fresh hfresh
    rw [leaving_eq_self hready]
    exact ⟨fun p => ⟨fun hp => ⟨hp, hready p hp⟩, And.left⟩, hwaiting⟩
  · obtain ⟨hheld, hreleased⟩ := h.ready p (by simp [hready])
    refine ⟨fun q => ?_, fun s hs hsame => ?_⟩
    · have horder := h.order
      rw [hready, List.pairwise_cons] at horder
      simp only [hready, leaving, hitem, if_true, List.mem_cons]
      constructor
      · intro hq
        obtain ⟨hheld', hreleased'⟩ := h.ready q (by simp [hready, hq])
        refine ⟨.inr hq, fun hsame => ?_⟩
        have hstay : q.1 = p.1 := hheld'.unique hheld (hsame.trans hitem.symm)
        have hfreed := hreleased'.1
        rw [hstay] at hfreed
        have hpq : p = q := Prod.ext hstay.symm (hreleased.1.unique hfreed)
        exact before_irrefl p (hpq ▸ horder.1 q hq)
      · rintro ⟨rfl | hq, hne⟩
        · exact absurd hitem hne
        · exact hq
    · obtain ⟨hheld', hfreed⟩ := h.waiting s hs
      obtain ⟨⟨hat, -⟩, k, -, hk, hswept⟩ := hreleased
      have hstay : s = p.1 := hheld'.unique hheld (hsame.trans hitem.symm)
      have hreport := hfreed p.2 (hstay ▸ hat)
      exact ((h.reports _ _).mp hreport).2 k hk hswept

theorem mem_putOff {s : Stay} {since : Nat} {verdict : Verdict} :
    s ∈ putOff item since verdict ↔
      s.since = since ∧ WorkEvent.handed item verdict = .handed s.item (.retry s.constraint) := by
  cases verdict with
  | done => simp [putOff]
  | retry c =>
    obtain ⟨item', c', since'⟩ := s
    simp only [putOff, List.mem_singleton, Stay.mk.injEq, WorkEvent.handed.injEq,
      Verdict.retry.injEq]
    constructor
    · rintro ⟨rfl, rfl, rfl⟩
      exact ⟨rfl, rfl, rfl⟩
    · rintro ⟨rfl, rfl, rfl⟩
      exact ⟨rfl, rfl, rfl⟩

theorem Sound.handed (h : d.Sound log) (hadmits : d.Admits log item) (verdict : Verdict) :
    (d.enter (.handed item verdict)).Sound (log ++ [.handed item verdict]) := by
  obtain ⟨hleaving, hwaiting⟩ := h.others hadmits
  have hcall : ∀ c, WorkEvent.handed item verdict ≠ .resolved c := by simp
  refine
    { clock := ?clock, covered := ?covered, waiting := ?waiting, ready := ?ready
      reports := ?reports, reportsRise := h.reportsRise, waitingRise := ?rise, order := ?order }
  case clock => simp [enter, h.clock]
  case covered =>
    intro s hs
    rcases hs.of_snoc with hold | ⟨hsince, he⟩
    · have hne : s.item ≠ item := by
        rintro rfl
        exact hs.2 _ (Stay.againAt_snoc.mpr (.inr ⟨hold.1.lt, rfl, verdict, rfl⟩))
      rcases h.covered s hold with hmem | ⟨j, hj⟩
      · exact .inl (List.mem_append_left _ hmem)
      · exact .inr ⟨j, (hleaving (s, j)).mpr ⟨hj, hne⟩⟩
    · left
      refine List.mem_append_right _ (mem_putOff.mpr ⟨?_, he⟩)
      rw [hsince, h.clock]
  case waiting =>
    intro s hs
    rcases List.mem_append.mp hs with hold | hnew
    · obtain ⟨hheld, hfreed⟩ := h.waiting s hold
      refine ⟨Stay.held_snoc_of_other hheld ?_, fun j hj => ?_⟩
      · intro v he
        cases he
        exact hwaiting s hold rfl
      · exact hfreed j ((Stay.freedAt_snoc_of_other (Nat.le_of_lt hheld.1.lt) hcall).mp hj)
    · obtain ⟨hsince, he⟩ := mem_putOff.mp hnew
      rw [h.clock] at hsince
      refine ⟨⟨Stay.in_snoc.mpr (.inr ⟨hsince, he⟩), ?_⟩, fun j hj => ?_⟩
      · rintro k ⟨hk, v, hagain⟩
        have hlt := WorkLog.lt_length hagain
        rw [List.length_append, List.length_singleton] at hlt
        omega
      · obtain ⟨hat, hquiet⟩ := (Stay.freedAt_snoc_of_other (Nat.le_of_eq hsince) hcall).mp hj
        refine (h.reports _ _).mpr ⟨hat, fun k hk hswept => ?_⟩
        exact hquiet k hk (hsince ▸ WorkLog.lt_length hswept) hswept
  case ready =>
    intro p hp
    obtain ⟨hin, hne⟩ := (hleaving p).mp hp
    obtain ⟨hheld, hreleased⟩ := h.ready p hin
    refine ⟨Stay.held_snoc_of_other hheld ?_, hreleased.snoc hheld.1 _⟩
    intro v he
    cases he
    exact hne rfl
  case reports =>
    intro c j
    have hold := h.reports c j
    simp only [enter, hold, WorkLog.getElem?_snoc, ne_eq, reduceCtorEq, and_false, or_false]
  case rise =>
    refine List.pairwise_append.mpr ⟨h.waitingRise, ?_, ?_⟩
    · cases verdict with
      | done => exact .nil
      | retry c => exact List.pairwise_singleton ..
    · intro s hs t ht
      rw [(mem_putOff.mp ht).1, h.clock]
      exact (h.waiting s hs).1.1.lt
  case order => exact h.order.sublist (leaving_sublist item d.ready)

/-! ### Sweeps -/

/-- What the docket holds once the first reports have released what waits for them. -/
structure Releasing (d : Docket) (taken : List (Constraint × Nat)) (d' : Docket) : Prop where
  waiting : ∀ s, s ∈ d'.waiting ↔ s ∈ d.waiting ∧ ∀ r ∈ taken, r.1 ≠ s.constraint
  sublist : d'.waiting.Sublist d.waiting
  ready : ∀ p ∈ d'.ready, p ∈ d.ready ∨ p.1 ∈ d.waiting ∧ (p.1.constraint, p.2) ∈ taken ∧
    ∀ r ∈ taken, r.1 = p.1.constraint → p.2 ≤ r.2
  kept : ∀ p ∈ d.ready, p ∈ d'.ready
  covered : ∀ s ∈ d.waiting, s ∈ d'.waiting ∨ ∃ j, (s, j) ∈ d'.ready
  order : d'.ready.Pairwise Before

theorem Sound.releasing (h : d.Sound log) {taken : List (Constraint × Nat)}
    (htaken : taken <+: d.reports) : Releasing d taken (taken.foldl release d) := by
  induction taken using List.reverseRecOn with
  | nil =>
    exact ⟨by simp, .refl _, fun p hp => .inl hp, fun p hp => hp, fun s hs => .inl hs, h.order⟩
  | append_singleton taken r ih =>
    have hr := ih ((List.prefix_append taken [r]).trans htaken)
    -- every report before `r` is older than `r`
    have hrise : (taken ++ [r]).Pairwise fun r r' => r.2 < r'.2 :=
      h.reportsRise.sublist htaken.sublist
    have holder : ∀ r' ∈ taken, r'.2 < r.2 := fun r' hr' =>
      (List.pairwise_append.mp hrise).2.2 r' hr' r (List.mem_singleton_self r)
    obtain ⟨-, hquiet⟩ := (h.reports r.1 r.2).mp (htaken.subset (by simp))
    rw [List.foldl_append, List.foldl_cons, List.foldl_nil]
    generalize taken.foldl release d = d' at hr ⊢
    refine ⟨fun s => ?_, List.filter_sublist.trans hr.sublist, fun p hp => ?_,
      fun p hp => mem_ready_release.mpr (.inl (hr.kept p hp)), fun s hs => ?_, ?_⟩
    · simp only [mem_waiting_release, hr.waiting, List.forall_mem_append, List.forall_mem_singleton,
        and_assoc, ne_comm]
    · rcases mem_ready_release.mp hp with hp | ⟨hwait, hc, hj⟩
      · rcases hr.ready p hp with hp | ⟨hwait, hmem, hfirst⟩
        · exact .inl hp
        · refine .inr ⟨hwait, List.mem_append_left _ hmem, ?_⟩
          rw [List.forall_mem_append, List.forall_mem_singleton]
          exact ⟨hfirst, fun _ => Nat.le_of_lt (holder _ hmem)⟩
      · obtain ⟨hwait, hnone⟩ := (hr.waiting p.1).mp hwait
        refine .inr ⟨hwait, by simp [hc, hj], ?_⟩
        rw [List.forall_mem_append, List.forall_mem_singleton]
        exact ⟨fun r' hr' hc' => absurd hc' (hnone r' hr'), fun _ => Nat.le_of_eq hj⟩
    · rcases hr.covered s hs with hs | ⟨j, hj⟩
      · by_cases hc : s.constraint = r.1
        · exact .inr ⟨r.2, mem_ready_release.mpr (.inr ⟨hs, hc, rfl⟩)⟩
        · exact .inl (mem_waiting_release.mpr ⟨hs, hc⟩)
      · exact .inr ⟨j, mem_ready_release.mpr (.inl hj)⟩
    · refine List.pairwise_append.mpr ⟨hr.order, ?_, ?_⟩
      · rw [List.pairwise_map]
        exact ((h.waitingRise.sublist hr.sublist).sublist List.filter_sublist).imp
          fun hlt => .inr ⟨rfl, hlt⟩
      · intro p hp q hq
        obtain ⟨s, -, rfl⟩ := List.mem_map.mp hq
        left
        rcases hr.ready p hp with hp | ⟨-, hmem, -⟩
        · -- a sweep has taken the report of `p`, and none has come since `r`
          obtain ⟨-, -, k, -, hk, hswept⟩ := h.ready p hp
          by_contra hnot
          exact hquiet k (by dsimp only at hnot; omega) hswept
        · exact holder _ hmem

theorem Sound.swept (h : d.Sound log) : (d.enter .swept).Sound (log ++ [.swept]) := by
  have hr := h.releasing (List.prefix_refl d.reports)
  have hheld : ∀ s : Stay, s.Held log → s.Held (log ++ [.swept]) := fun s hs =>
    Stay.held_snoc_of_other hs (by simp)
  have hfreedAt : ∀ (s : Stay) (j : Nat), s.Held log →
      (s.FreedAt (log ++ [.swept]) j ↔ s.FreedAt log j) := fun s _ hs =>
    Stay.freedAt_snoc_of_other (Nat.le_of_lt hs.1.lt) (by simp)
  refine
    { clock := ?clock, covered := ?covered, waiting := ?waiting, ready := ?ready
      reports := ?reports, reportsRise := .nil, waitingRise := h.waitingRise.sublist hr.sublist
      order := hr.order }
  case clock => simp [enter, h.clock]
  case covered =>
    intro s hs
    rcases hs.of_snoc with hold | ⟨-, he⟩
    · rcases h.covered s hold with hwait | ⟨j, hj⟩
      · exact hr.covered s hwait
      · exact .inr ⟨j, hr.kept _ hj⟩
    · cases he
  case waiting =>
    intro s hs
    obtain ⟨hwait, hnone⟩ := (hr.waiting s).mp hs
    obtain ⟨hs', hfreed⟩ := h.waiting s hwait
    refine ⟨hheld s hs', fun j hj => ?_⟩
    exact absurd rfl (hnone _ (hfreed j ((hfreedAt s j hs').mp hj)))
  case ready =>
    intro p hp
    rcases hr.ready p hp with hp | ⟨hwait, hmem, hfirst⟩
    · obtain ⟨hs, hreleased⟩ := h.ready p hp
      exact ⟨hheld p.1 hs, hreleased.snoc hs.1 _⟩
    · obtain ⟨hs, hfreed⟩ := h.waiting p.1 hwait
      obtain ⟨hat, hquiet⟩ := (h.reports _ _).mp hmem
      refine ⟨hheld p.1 hs, ⟨?_, fun i hi hi' => ?_⟩, log.length, hs.1.lt,
        WorkLog.lt_length hat, by simp⟩
      · exact (hfreedAt p.1 p.2 hs).mpr ⟨hat, fun k hk _ => hquiet k hk⟩
      · have hle : p.2 ≤ i := hfirst _ (hfreed i ((hfreedAt p.1 i hs).mp hi')) rfl
        omega
  case reports =>
    intro c j
    simp only [enter, List.not_mem_nil, false_iff, WorkLog.getElem?_snoc]
    rintro ⟨hj | ⟨-, he⟩, hquiet⟩
    · exact hquiet log.length (WorkLog.lt_length hj) (by simp)
    · cases he

/-- An item that a report has freed is released by the next sweep at the latest. -/
theorem Sound.freed (h : d.Sound log) {s : Stay} (hs : s.Held log) {j : Nat}
    (hj : s.FreedAt log j) : ∃ i, (s, i) ∈ (d.reports.foldl release d).ready := by
  have hr := h.releasing (List.prefix_refl d.reports)
  rcases h.covered s hs with hwait | ⟨i, hi⟩
  · rcases hr.covered s hwait with hwait' | hready
    · have hreport := (h.waiting s hwait).2 j hj
      exact absurd rfl (((hr.waiting s).mp hwait').2 _ hreport)
    · exact hready
  · exact ⟨i, hr.kept _ hi⟩

/-! ## Logs where nothing is handed over out of turn -/

/-- Every item that is handed over is a new one, or the first of those that are released. -/
def Faithful (log : WorkLog) : Prop :=
  ∀ before item verdict after, log = before ++ .handed item verdict :: after →
    (ofLog before).Admits before item

theorem faithful_nil : Faithful [] := by
  intro before item verdict after h
  simp at h

theorem Faithful.snoc (h : Faithful log) {e : WorkEvent}
    (he : ∀ item verdict, e = .handed item verdict → (ofLog log).Admits log item) :
    Faithful (log ++ [e]) := by
  intro before item verdict after hsplit
  rcases place_snoc hsplit with ⟨rfl, hlast, -⟩ | ⟨rest, -, hearlier⟩
  · exact he item verdict hlast.symm
  · exact h before item verdict rest hearlier

theorem Faithful.prefix {more : WorkLog} (h : Faithful (log ++ more)) : Faithful log := by
  intro before item verdict after hsplit
  refine h before item verdict (after ++ more) ?_
  rw [hsplit, List.append_assoc, List.cons_append]

theorem Faithful.sound (h : Faithful log) : (ofLog log).Sound log := by
  induction log using List.reverseRecOn with
  | nil => exact sound_nil
  | append_singleton log e ih =>
    have hsound := ih h.prefix
    rw [ofLog_snoc]
    cases e with
    | handed item verdict => exact hsound.handed (h log item verdict [] rfl) verdict
    | resolved c => exact hsound.resolved c
    | swept => exact hsound.swept

variable {s t : Stay} {i j k : Nat}

/-- An item that is handed over again is then the first of those that are released. -/
theorem Faithful.turn (h : Faithful log) (hin : s.In log) (hk : s.AgainAt log k)
    (hfirst : ∀ i < k, ¬ s.AgainAt log i) :
    ∃ before more, log = before ++ more ∧ before.length = k ∧
      ∃ i rest, (ofLog before).ready = (s, i) :: rest := by
  obtain ⟨hsince, verdict, hat⟩ := hk
  have hlt := WorkLog.lt_length hat
  have hsplit : log = log.take k ++ .handed s.item verdict :: log.drop (k + 1) := by
    rw [List.getElem?_eq_getElem hlt, Option.some.injEq] at hat
    rw [← hat, List.getElem_cons_drop, List.take_append_drop]
  have hlength : (log.take k).length = k := by
    rw [List.length_take]
    omega
  refine ⟨log.take k, _, hsplit, hlength, ?_⟩
  have hadmits := h _ _ _ _ hsplit
  generalize log.take k = before at *
  have hheld : s.Held before := by
    rw [hsplit] at hin hfirst
    exact hin.held_before (by omega) fun i hi => hfirst i (by omega)
  have hsound : (ofLog before).Sound before := by
    rw [hsplit] at h
    exact h.prefix.sound
  rcases hadmits with hfresh | ⟨⟨t, i⟩, rest, hready, hitem⟩
  · exact absurd (List.mem_of_getElem? hheld.1) (hfresh _)
  · have ht := (hsound.ready (t, i) (by simp [hready])).1
    obtain rfl : t = s := ht.unique hheld hitem
    exact ⟨i, rest, hready⟩

/-- An item that is handed over again was freed by a report, and a sweep took the report. -/
theorem Faithful.freed_of_again (h : Faithful log) (hin : s.In log) (hk : s.AgainAt log k) :
    ∃ j l, s.FreedAt log j ∧ j < l ∧ s.since < l ∧ l < k ∧ log[l]? = some .swept := by
  obtain ⟨k₀, hle, hk₀, hfirst⟩ := hk.first
  obtain ⟨before, more, rfl, rfl, j, rest, hready⟩ := h.turn hin hk₀ hfirst
  obtain ⟨hheld, hfreed, l, hsince, hjl, hl⟩ := h.prefix.sound.ready (s, j) (by simp [hready])
  have hlt := WorkLog.lt_length hl
  refine ⟨j, l, ?_, hjl, hsince, by omega, ?_⟩
  · exact (Stay.freedAt_append (Nat.le_of_lt hheld.1.lt) (WorkLog.lt_length hfreed.1.1)).mpr
      hfreed.1
  · rw [List.getElem?_append_left hlt]
    exact hl

/-- Items leave in the order in which they are freed. -/
theorem Faithful.in_order (h : Faithful log) (hs : s.In log) (ht : t.In log)
    (hi : s.FirstFreedAt log i) (hj : t.FirstFreedAt log j) (hbefore : Before (s, i) (t, j))
    (hk : t.AgainAt log k) : ∃ l < k, s.AgainAt log l := by
  obtain ⟨k₀, hle, hk₀, hfirst⟩ := hk.first
  obtain ⟨before, more, rfl, rfl, j', rest, hready⟩ := h.turn ht hk₀ hfirst
  have hsound := h.prefix.sound
  obtain ⟨htheld, hfreed, l, -, hjl, hl⟩ := hsound.ready (t, j') (by simp [hready])
  have hlt := WorkLog.lt_length hl
  have hj' : j' = j := by
    have hle := Nat.le_of_lt htheld.1.lt
    refine ((Stay.firstFreedAt_append hle ?_).mpr hfreed).unique hj
    exact WorkLog.lt_length hfreed.1.1
  subst hj'
  have hij : i ≤ j' := by
    rcases hbefore with hlt | ⟨heq, -⟩
    · exact Nat.le_of_lt hlt
    · exact Nat.le_of_eq heq
  dsimp only at hjl
  -- the sweep that released `t` came after `s` was put off
  have hswept : (before ++ more)[l]? = some .swept := by
    rw [List.getElem?_append_left hlt]
    exact hl
  have hsince : s.since < l := hi.1.since_lt hs hswept (by omega)
  have hfreed_s : s.FirstFreedAt before i :=
    (Stay.firstFreedAt_append (by omega) (by omega)).mp hi
  by_contra hnever
  have hheld : s.Held before :=
    hs.held_before (by omega) fun k hk hagain => hnever ⟨k, by omega, hagain⟩
  rcases hsound.covered s hheld with hwait | ⟨i', hmem⟩
  · have hreport := (hsound.waiting s hwait).2 i hfreed_s.1
    exact ((hsound.reports _ _).mp hreport).2 l (by omega) hl
  · obtain rfl : i' = i := (hsound.ready _ hmem).2.1.unique hfreed_s
    have horder := hsound.order
    rw [hready, List.pairwise_cons] at horder
    rw [hready, List.mem_cons] at hmem
    rcases hmem with heq | hmem
    · exact before_asymm hbefore (heq ▸ hbefore)
    · exact before_asymm hbefore (horder.1 _ hmem)

end Docket

end ControlBus
