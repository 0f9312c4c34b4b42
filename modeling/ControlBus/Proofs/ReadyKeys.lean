-- What a multiplexer has noted about its sources, whatever these do when they are called: the
-- working set has the keys of the ready ones and nothing else, every stamp is the time of a last
-- dispatch, and clock and counters agree on how many there were. Looks and dispatches keep it so.
import ControlBus.Proofs.Fairness
import ControlBus.Proofs.LoopAccounts

namespace ControlBus

/-! ## Stamps -/

namespace LastAt

variable {history : List Nat} {i j time : Nat}

theorem le_length (h : LastAt history i time) : time ≤ history.length := by
  rcases h with ⟨rfl, -⟩ | ⟨before, after, rfl, -, rfl⟩
  · exact Nat.zero_le _
  · simp

/-- At one time only one can have been dispatched. -/
theorem inj (hi : LastAt history i time) (hj : LastAt history j time) (ht : time ≠ 0) : i = j := by
  have hget : ∀ k, LastAt history k time → history[time - 1]? = some k := by
    rintro k (⟨h0, -⟩ | ⟨before, after, rfl, -, rfl⟩)
    · exact absurd h0 ht
    · simp
  exact Option.some.inj ((hget i hi).symm.trans (hget j hj))

end LastAt

/-- The source that was dispatched, if the outcome is a dispatch. -/
def dispatchedBy (outcome : Option Selection) : List Nat :=
  (outcome.bind Selection.dispatched?).toList

theorem dispatchedBy_ready (chosen : Option Nat) :
    dispatchedBy (chosen.map .ready) = chosen.toList := by
  cases chosen <;> rfl

namespace Multiplexer

variable {ι σ : Type} {ops : SourceOps ι σ} {m m' : Multiplexer ι} {history : List Nat}

/-! ## The order that is kept -/

/-- What a multiplexer has noted about its sources agrees. -/
structure InOrder (m : Multiplexer ι) : Prop where
  sorted : ReadyKey.Sorted m.workingSet
  /-- The working set has the present keys of the ready sources and nothing else. -/
  keys : ∀ k, k ∈ m.workingSet ↔ ∃ (i : Nat) (r : Registration ι),
    m.registrations[i]? = some r ∧ r.ready = true ∧ k = r.key i
  opened : ∀ r ∈ m.registrations, r.closed = true → r.ready = false
  distinct : ∀ (i j : Nat) (r s : Registration ι), m.registrations[i]? = some r →
    m.registrations[j]? = some s → r.stamp ≠ 0 → r.stamp = s.stamp → i = j
  bounded : ∀ r ∈ m.registrations, r.stamp ≤ m.clock
  clock : m.clock = m.stats.dispatches
  counted : m.clock = (m.registrations.map (·.dispatches)).sum

/-- After these dispatches, and no others, a multiplexer is as it should be. -/
structure InStep (history : List Nat) (m : Multiplexer ι) : Prop where
  consistent : Consistent m.registrations m.workingSet
  dated : m.plain.Dated history
  dispatches : m.stats.dispatches = history.length
  counts : m.books.counts.sum = history.length

namespace InStep

theorem stamp (h : m.InStep history) {i : Nat} {r : Registration ι}
    (hr : m.registrations[i]? = some r) : LastAt history i r.stamp := by
  refine h.dated.stamps i r.stamp ?_
  rw [List.getElem?_map, plain_source hr]
  rfl

theorem inOrder (h : m.InStep history) : m.InOrder where
  sorted := h.consistent.sorted
  keys k := by
    rw [h.consistent.mem]
    constructor
    · rintro ⟨r, hr, hready, hkey⟩
      exact ⟨k.id, r, hr, hready, hkey.symm⟩
    · rintro ⟨i, r, hr, hready, rfl⟩
      exact ⟨r, hr, hready, rfl⟩
  opened r hr hclosed := by
    obtain ⟨i, hi⟩ := List.mem_iff_getElem?.mp hr
    refine eq_false_of_ne_true fun hready => ?_
    rw [h.consistent.opened i r hi hready] at hclosed
    cases hclosed
  distinct i j r s hr hs hne heq := (h.stamp hr).inj (heq ▸ h.stamp hs) hne
  bounded r hr := by
    obtain ⟨i, hi⟩ := List.mem_iff_getElem?.mp hr
    rw [show m.clock = history.length from h.dated.clock]
    exact (h.stamp hi).le_length
  clock := h.dated.clock.trans h.dispatches.symm
  counted := h.dated.clock.trans h.counts.symm

theorem new : InStep [] ({} : Multiplexer ι) where
  consistent := Consistent.empty
  dated := ⟨rfl, by simp, by simp [plain]⟩
  dispatches := rfl
  counts := rfl

/-- The other counters have no part in this. -/
theorem stats (h : m.InStep history) (stats : MultiplexerStats)
    (hs : stats.dispatches = m.stats.dispatches) : InStep history { m with stats } :=
  ⟨h.consistent, h.dated, hs.trans h.dispatches, h.counts⟩

theorem report (h : m.InStep history) (failure : Nat × BusError) :
    (m.report failure).2.InStep history := h.stats _ rfl

/-- The counters follow from the outcome that was entered. -/
theorem enters (h : m.InStep history) {outcome : Option Selection} (he : Enters outcome m m')
    (hc : Consistent m'.registrations m'.workingSet)
    (hd : m'.plain.Dated (history ++ dispatchedBy outcome)) :
    m'.InStep (history ++ dispatchedBy outcome) := by
  have hbooks : m'.books.dispatches = (history ++ dispatchedBy outcome).length ∧
      m'.books.counts.sum = (history ++ dispatchedBy outcome).length := by
    have hknown := he.known
    have hdispatches : m.books.dispatches = history.length := h.dispatches
    rw [he.books]
    obtain _ | id | ⟨id, e⟩ | _ := outcome
    · simp [Books.note, dispatchedBy, hdispatches, h.counts]
    · have hlt : id < m.books.counts.length := by
        simpa [books, sources] using hknown id rfl
      simp [Books.note, dispatchedBy, Selection.dispatched?, sum_modify_succ hlt, hdispatches,
        h.counts]
    · simp [Books.note, dispatchedBy, Selection.dispatched?, hdispatches, h.counts]
    · simp [Books.note, dispatchedBy, Selection.dispatched?, hdispatches, h.counts]
  exact ⟨hc, hd, hbooks.1, hbooks.2⟩

/-! ## Looks and dispatches -/

theorem poll (h : m.InStep history) (ops : SourceOps ι σ) (w : σ) :
    (Multiplexer.poll ops m w).2.1.InStep history := by
  have hc := passOver_consistent ops [] m.registrations m.workingSet w h.consistent
  have hd : (m.plain.look ops w).1.Dated history := h.dated.look w
  rw [poll_plain] at hd
  simpa [dispatchedBy] using
    h.enters (enters_poll ops m w) hc (by simpa [dispatchedBy] using hd)

end InStep

/-- Going through a working set notes the time of the dispatch that it ends with. -/
theorem dispatchFrom_dated (ops : SourceOps ι σ) {set : List ReadyKey}
    (hc : Consistent m.registrations set) (hd : m.plain.Dated history) (w : σ) :
    (dispatchFrom ops set m w).2.1.plain.Dated
      (history ++ (dispatchFrom ops set m w).1.toList) := by
  obtain ⟨id, r, hr, -, hout, hnew, -⟩ | ⟨hout, hnew, -⟩ := dispatchFrom_cases ops hc w
  · rw [hout, hnew]
    exact hd.dispatch hr
  · rw [hout, hnew, Option.toList_none, List.append_nil]
    exact hd

namespace InStep

theorem dispatchNext (h : m.InStep history) (ops : SourceOps ι σ) (w : σ) :
    (Multiplexer.dispatchNext ops m w).2.1.InStep
      (history ++ (Multiplexer.dispatchNext ops m w).1.toList) := by
  have hc := consistent_dispatchFrom ops h.consistent w
  have hd := dispatchFrom_dated ops h.consistent h.dated w
  have he := enters_dispatchFrom ops m.workingSet m w
  rw [← dispatchedBy_ready] at hd ⊢
  exact h.enters he hc hd

/-! ## Selections -/

theorem turn (h : m.InStep history) (ops : SourceOps ι σ) (w : σ) :
    (Multiplexer.turn ops m w).2.1.InStep
      (history ++ dispatchedBy (Multiplexer.turn ops m w).1) := by
  have hpoll := h.poll ops w
  unfold Multiplexer.turn
  rcases hp : Multiplexer.poll ops m w with ⟨failure, m', w'⟩
  rw [hp] at hpoll
  cases failure with
  | some failure =>
    change (m'.report failure).2.InStep (history ++ [])
    rw [List.append_nil]
    exact hpoll.report failure
  | none =>
    dsimp only
    rw [dispatchedBy_ready]
    exact hpoll.dispatchNext ops w'

theorem await (h : m.InStep history) (ops : SourceOps ι σ) (events : List (σ → σ)) (w : σ) :
    (Multiplexer.await ops events m w).2.1.InStep
      (history ++ dispatchedBy (Multiplexer.await ops events m w).1) := by
  induction events generalizing m w with
  | nil =>
    have hturn := h.turn ops w
    rw [await_eq]
    rcases ht : Multiplexer.turn ops m w with ⟨outcome, m', w'⟩
    rw [ht] at hturn
    cases outcome <;> exact hturn
  | cons event rest ih =>
    have hturn := h.turn ops w
    rw [await_eq]
    rcases ht : Multiplexer.turn ops m w with ⟨outcome, m', w'⟩
    rw [ht] at hturn
    cases outcome with
    | some outcome => exact hturn
    | none => exact ih (List.append_nil history ▸ hturn) (event w')

theorem attempt (h : m.InStep history) (ops : SourceOps ι σ)
    (events : Multiplexer ι → σ → List (σ → σ)) (w : σ) :
    (Multiplexer.attempt ops events m w).2.1.InStep
      (history ++ dispatchedBy (Multiplexer.attempt ops events m w).1) := by
  have hcounted := h.stats { m.stats with selects := m.stats.selects + 1 } rfl
  have hturn := hcounted.turn ops w
  rw [attempt_eq]
  rcases ht : Multiplexer.turn ops _ w with ⟨outcome, m', w'⟩
  rw [ht] at hturn
  cases outcome with
  | some outcome => exact hturn
  | none => exact (List.append_nil history ▸ hturn).await ops (events m' w') w'

theorem select (h : m.InStep history) (ops : SourceOps ι σ)
    (events : Multiplexer ι → σ → List (σ → σ)) (w : σ) :
    (Multiplexer.select ops events m w).2.1.InStep
      (history ++ dispatchedBy (some (Multiplexer.select ops events m w).1)) := by
  have hattempt := h.attempt ops events w
  unfold Multiplexer.select
  rcases ha : Multiplexer.attempt ops events m w with ⟨outcome, m', w'⟩
  rw [ha] at hattempt
  cases outcome with
  | some outcome => exact hattempt
  | none => exact hattempt.stats _ rfl

/-- A new source has never been dispatched and is not ready yet. -/
theorem add (h : m.InStep history) (source : ι) (priority : Int) :
    (m.add source priority).2.InStep history where
  consistent := h.consistent.add rfl
  dated := by
    have hjoin := h.dated.join (r := { source, priority, stamp := 0, closed := false }) rfl
    simp only [Multiplexer.add, plain, List.map_append] at hjoin ⊢
    exact hjoin
  dispatches := h.dispatches
  counts := by
    have hcounts := h.counts
    simp only [books] at hcounts
    simp [Multiplexer.add, books, hcounts]

end InStep

end Multiplexer

end ControlBus
