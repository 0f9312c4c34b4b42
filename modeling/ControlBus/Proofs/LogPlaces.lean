-- The places in a log. A log grows at its end, so a place in it is the new end or was there before,
-- and a law about what may stand after what need only be looked at for what is new.
import Mathlib.Data.List.Basic

namespace ControlBus

variable {α : Type} {log : List α} {e : α}

/-- A place in a log that has grown is its end, or a place in the log as it was. -/
theorem place_snoc {before after : List α} {x : α} (h : log ++ [e] = before ++ x :: after) :
    (before = log ∧ x = e ∧ after = []) ∨
      ∃ rest, after = rest ++ [e] ∧ log = before ++ x :: rest := by
  rcases List.eq_nil_or_concat after with rfl | ⟨rest, last, rfl⟩
  · obtain ⟨rfl, hlast⟩ := List.append_inj' h rfl
    exact .inl ⟨rfl, (List.cons.inj hlast).1.symm, rfl⟩
  · rw [List.concat_eq_append, ← List.cons_append, ← List.append_assoc] at h
    obtain ⟨rfl, hlast⟩ := List.append_inj' h rfl
    obtain rfl : e = last := (List.cons.inj hlast).1
    exact .inr ⟨rest, List.concat_eq_append, rfl⟩

/-- What has been true of everything in a log, after what came before it, stays true. -/
theorem law_snoc {law : List α → α → Prop}
    (h : ∀ before x after, log = before ++ x :: after → law before x) (he : law log e) :
    ∀ before x after, log ++ [e] = before ++ x :: after → law before x := by
  intro before x after hsplit
  rcases place_snoc hsplit with ⟨rfl, rfl, -⟩ | ⟨rest, -, hearlier⟩
  · exact he
  · exact h before x rest hearlier

end ControlBus
