-- The grid of a timer: the instants at which it would tick if somebody looked at it all the time.
-- However late it is looked at, the loop that takes its ticks comes to an end and leaves the timer
-- due at the next instant of the grid.
import ControlBus.Scheduler.Timer
import Mathlib.Data.Set.Card
import Mathlib.Order.Interval.Finset.Nat

namespace ControlBus.Timer

/-! ## The grid -/

/-- An instant of the grid of a timer that began at `start`. -/
def OnGrid (start period t : Nat) : Prop := ∃ k, 1 ≤ k ∧ t = start + k * period

/-- The instants of the grid after one instant and up to another. -/
def gridPoints (start period after upto : Nat) : Set Nat :=
  {t | OnGrid start period t ∧ after < t ∧ t ≤ upto}

/-- How many periods are over. -/
def periods (start period now : Nat) : Nat := (now - start) / period

variable {start period now last due n next : Nat}

theorem point_le_iff (hperiod : 0 < period) (hstart : start ≤ now) (k : Nat) :
    start + k * period ≤ now ↔ k ≤ periods start period now := by
  rw [periods, Nat.le_div_iff_mul_le hperiod]
  omega

theorem lt_point_iff (hperiod : 0 < period) (hstart : start ≤ now) (k : Nat) :
    now < start + k * period ↔ periods start period now < k := by
  rw [← Nat.not_le, point_le_iff hperiod hstart, Nat.not_le]

theorem periods_mono (h : last ≤ now) : periods start period last ≤ periods start period now :=
  Nat.div_le_div_right (Nat.sub_le_sub_right h start)

/-- There are as many points of the grid between two instants as periods end between them. -/
theorem ncard_gridPoints (hperiod : 0 < period) (hstart : start ≤ last) (hlast : last ≤ now) :
    (gridPoints start period last now).ncard =
      periods start period now - periods start period last := by
  have himage : gridPoints start period last now =
      (fun k => start + k * period) ''
        (Finset.Ioc (periods start period last) (periods start period now) : Set Nat) := by
    ext t
    simp only [gridPoints, OnGrid, Set.mem_ofPred_eq, Set.mem_image, Finset.coe_Ioc, Set.mem_Ioc]
    constructor
    · rintro ⟨⟨k, -, rfl⟩, hafter, hupto⟩
      exact ⟨k, ⟨(lt_point_iff hperiod hstart k).mp hafter,
        (point_le_iff hperiod (hstart.trans hlast) k).mp hupto⟩, rfl⟩
    · rintro ⟨k, ⟨hafter, hupto⟩, rfl⟩
      exact ⟨⟨k, by omega, rfl⟩, (lt_point_iff hperiod hstart k).mpr hafter,
        (point_le_iff hperiod (hstart.trans hlast) k).mpr hupto⟩
  have hinjective : Function.Injective fun k => start + k * period := fun k j h =>
    Nat.eq_of_mul_eq_mul_right hperiod (Nat.add_left_cancel h)
  rw [himage, Set.ncard_image_of_injective _ hinjective, Set.ncard_coe_finset, Nat.card_Ioc]

theorem exists_point_iff (hperiod : 0 < period) (hstart : start ≤ last) (hlast : last ≤ now) :
    (∃ k, 1 ≤ k ∧ last < start + k * period ∧ start + k * period ≤ now) ↔
      periods start period last < periods start period now := by
  constructor
  · rintro ⟨k, -, hafter, hupto⟩
    exact ((lt_point_iff hperiod hstart k).mp hafter).trans_le
      ((point_le_iff hperiod (hstart.trans hlast) k).mp hupto)
  · intro hlt
    exact ⟨periods start period now, by omega, (lt_point_iff hperiod hstart _).mpr hlt,
      (point_le_iff hperiod (hstart.trans hlast) _).mpr (Nat.le_refl _)⟩

/-- The next point of the grid. -/
theorem isLeast_nextPoint (hperiod : 0 < period) (hstart : start ≤ now) :
    IsLeast {t | OnGrid start period t ∧ now < t}
      (start + (periods start period now + 1) * period) := by
  refine ⟨⟨⟨_, Nat.le_add_left .., rfl⟩, ?_⟩, ?_⟩
  · exact (lt_point_iff hperiod hstart _).mpr (Nat.lt_succ_self _)
  · rintro t ⟨⟨k, -, rfl⟩, hafter⟩
    have hk := (lt_point_iff hperiod hstart k).mp hafter
    exact Nat.add_le_add_left (Nat.mul_le_mul_right period hk) start

/-! ## The loop that takes ticks -/

/-- The loop turn by turn: as long as a tick is due it is taken, and another one may be due. It
takes so many ticks from one due time on and leaves the timer due at another. -/
inductive Takes (period now : Nat) : Nat → Nat → Nat → Prop where
  | done {due : Nat} (later : now < due) : Takes period now due 0 due
  | tick {due n next : Nat} (isDue : due ≤ now)
      (rest : Takes period now (following period now due) n next) :
      Takes period now due (n + 1) next

/-- A tick moves the due time on, by whichever rule. -/
theorem lt_following (hperiod : 0 < period) : due < following period now due := by
  unfold following
  split
  · have hmod := Nat.mod_lt (now - due) hperiod
    omega
  · omega

theorem takes_ticks (hperiod : 0 < period) (bound : Nat) (hbound : now + 1 ≤ due + bound) :
    Takes period now due (ticks period now bound due).1 (ticks period now bound due).2 := by
  induction bound generalizing due with
  | zero => exact .done hbound
  | succ bound ih =>
    unfold ticks
    split
    · rename_i hdue
      have hmoved : due < following period now due := lt_following hperiod
      exact .tick hdue (ih (by omega))
    · rename_i hlater
      exact .done (Nat.not_le.mp hlater)

theorem Takes.unique (h : Takes period now due n next) {n' next' : Nat}
    (h' : Takes period now due n' next') : n' = n ∧ next' = next := by
  induction h generalizing n' next' with
  | done later =>
    cases h' with
    | done => exact ⟨rfl, rfl⟩
    | tick isDue => exact absurd isDue (Nat.not_le.mpr later)
  | tick isDue rest ih =>
    cases h' with
    | done later => exact absurd isDue (Nat.not_le.mpr later)
    | tick _ rest' =>
      obtain ⟨rfl, rfl⟩ := ih rest'
      exact ⟨rfl, rfl⟩

/-- A look runs the loop to its end. -/
theorem takes_poll (t : Timer) (now : Nat) (hperiod : 0 < t.period) :
    ∃ n next, (∀ n' next', Takes t.period now t.due n' next' ↔ n' = n ∧ next' = next) ∧
      t.poll now = (if n = 0 then .pending else .units n,
        { t with due := next, expirations := t.expirations + n }) := by
  have hbound : now + 1 ≤ t.due + (now + 1 - t.due) := by omega
  have htakes := takes_ticks hperiod (now + 1 - t.due) hbound
  refine ⟨_, _, fun n' next' => ⟨htakes.unique, ?_⟩, rfl⟩
  rintro ⟨rfl, rfl⟩
  exact htakes

/-! ## A look at a timer that keeps to its grid -/

/-- A tick that is more than a little late is followed by the next point of the grid, any other by
the point after it. Both are on the grid. -/
theorem following_point (hperiod : 0 < period) (hstart : start ≤ now) {j : Nat}
    (hdue : start + (j + 1) * period ≤ now) :
    following period now (start + (j + 1) * period) =
        start + (periods start period now + 1) * period ∨
      following period now (start + (j + 1) * period) = start + (j + 1 + 1) * period := by
  unfold following
  split
  · left
    have hlate : (now - (start + (j + 1) * period)) % period = (now - start) % period := by
      have hsplit : now - start = now - (start + (j + 1) * period) + (j + 1) * period := by omega
      rw [hsplit, Nat.add_mul_mod_self_right]
    have hdivide := Nat.div_add_mod (now - start) period
    have hcommute : (now - start) / period * period = period * ((now - start) / period) :=
      Nat.mul_comm ..
    rw [hlate, periods, Nat.succ_mul, hcommute]
    omega
  · right
    rw [Nat.succ_mul (j + 1), Nat.add_assoc]

/-- From one point of the grid the loop gets to the next one after now, with a tick for each point
that it passes or fewer, but not without any. -/
theorem Takes.reaches (h : Takes period now due n next) (hperiod : 0 < period)
    (hstart : start ≤ now) {j : Nat} (hdue : due = start + (j + 1) * period)
    (hj : j ≤ periods start period now) :
    next = start + (periods start period now + 1) * period ∧
      n ≤ periods start period now - j ∧ (j < periods start period now → 1 ≤ n) := by
  induction h generalizing j with
  | done later =>
    subst hdue
    have hpast := (lt_point_iff hperiod hstart _).mp later
    obtain rfl : j = periods start period now := by omega
    exact ⟨rfl, Nat.zero_le _, fun hlt => absurd hlt (Nat.lt_irrefl _)⟩
  | tick isDue rest ih =>
    subst hdue
    have hnow := (point_le_iff hperiod hstart _).mp isDue
    rcases following_point hperiod hstart isDue with hskip | hstep
    · obtain ⟨hnext, hfew, -⟩ := ih hskip (Nat.le_refl _)
      exact ⟨hnext, by omega, fun _ => Nat.le_add_left ..⟩
    · obtain ⟨hnext, hfew, -⟩ := ih hstep hnow
      exact ⟨hnext, by omega, fun _ => Nat.le_add_left ..⟩

/-- A timer that began at `start` and was looked at last at `last` is due at the next point. -/
structure Aligned (start last : Nat) (t : Timer) : Prop where
  period : 0 < t.period
  began : start ≤ last
  due : t.due = start + (periods start t.period last + 1) * t.period

variable {t : Timer}

theorem aligned_start (name : String) {period : Nat} (hperiod : 0 < period) (now : Nat) :
    Aligned now now (Timer.start name period now) where
  period := hperiod
  began := Nat.le_refl now
  due := by simp [Timer.start, periods]

theorem Aligned.reset (h : Aligned start last t) (now : Nat) : Aligned now now (t.reset now) where
  period := h.period
  began := Nat.le_refl now
  due := by simp [Timer.reset, periods]

theorem Aligned.afterRead (h : Aligned start last t) : Aligned start last t.afterRead :=
  ⟨h.period, h.began, h.due⟩

theorem Aligned.isLeast (h : Aligned start last t) :
    IsLeast {x | OnGrid start t.period x ∧ last < x} t.due := by
  rw [h.due]
  exact isLeast_nextPoint h.period h.began

/-- What a look tells and leaves. -/
theorem Aligned.poll (h : Aligned start last t) (hnow : last ≤ now) :
    Aligned start now (t.poll now).2 ∧
      ∃ n, (t.poll now).1 = (if n = 0 then .pending else .units n) ∧
        (t.poll now).2 = { t with due := (t.poll now).2.due, expirations := t.expirations + n } ∧
        n ≤ periods start t.period now - periods start t.period last ∧
        (periods start t.period last < periods start t.period now → 1 ≤ n) := by
  obtain ⟨n, next, htakes, hpoll⟩ := t.takes_poll now h.period
  have hstart := h.began.trans hnow
  obtain ⟨hnext, hfew, hsome⟩ :=
    ((htakes n next).mpr ⟨rfl, rfl⟩).reaches h.period hstart h.due (periods_mono hnow)
  rw [hpoll]
  exact ⟨⟨h.period, hstart, hnext⟩, n, rfl, rfl, hfew, hsome⟩

end ControlBus.Timer
