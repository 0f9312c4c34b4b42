-- The store keys of a table never meet. The name of a table may be anything, even a text that
-- looks like a key of another table.
import ControlBus.Table

namespace ControlBus

/-- The parts of a coalescing table lie under different keys. -/
structure Layout.Apart (l : Layout) : Prop where
  sets : l.pendingSet ≠ l.deleteSet
  staging_record : ∀ j k, l.stagingKey j ≠ l.recordKey k
  marks_staging : ∀ k, l.deleteSet ≠ l.stagingKey k
  marks_record : ∀ k, l.deleteSet ≠ l.recordKey k

namespace Layout

theorem stagingKey_inj {l : Layout} {j k : String} : l.stagingKey j = l.stagingKey k ↔ j = k :=
  String.append_right_inj l.stagingStem

theorem recordKey_inj {l : Layout} {j k : String} : l.recordKey j = l.recordKey k ↔ j = k :=
  String.append_right_inj l.recordStem

end Layout

/-- A name shifted by one character can meet itself only where what follows it is shifted
too. -/
theorem append_ne_shifted {c : Char} {x y : List Char} (h : x ≠ c :: y) (name : List Char) :
    name ++ x ≠ c :: (name ++ y) := by
  induction name with
  | nil => exact h
  | cons d name ih =>
    intro he
    simp only [List.cons_append, List.cons.injEq] at he
    obtain ⟨rfl, he⟩ := he
    exact ih he

namespace TableName

/-! ## Sets and queues -/

/-- Two texts with endings of one length have the same endings. -/
theorem ending_eq {a b x y : String} (h : a ++ x = b ++ y)
    (hl : x.toList.length = y.toList.length) : x = y := by
  have h' := congrArg String.toList h
  simp only [String.toList_append] at h'
  exact String.toList_inj.mp (List.append_inj_right' h' hl)

theorem pendingSet_ne_deleteSet (t u : TableName) : t.pendingSet ≠ u.deleteSet := fun h =>
  absurd (ending_eq h (by decide)) (by decide)

theorem pendingSet_inj {t u : TableName} (h : t.pendingSet = u.pendingSet) : t.name = u.name :=
  (String.append_left_inj _).mp h

theorem queue_inj {t u : TableName} (h : t.queue = u.queue) : t.name = u.name :=
  (String.append_left_inj _).mp h

/-! ## Records -/

theorem layout_stagingKey (t : TableName) (k : String) : t.layout.stagingKey k = t.stagingKey k :=
  String.append_assoc ..

/-- Whatever the name of a table, its staged fields, its records and its marks never meet. -/
theorem apart (name : String) : ({ name } : TableName).layout.Apart where
  sets := pendingSet_ne_deleteSet _ _
  staging_record j k h := by
    have h' := congrArg String.toList h.symm
    simp only [Layout.recordKey, Layout.stagingKey, layout, recordStem, String.toList_append,
      String.toList_push, List.append_assoc] at h'
    exact append_ne_shifted (c := '_') (by simp) name.toList h'
  marks_staging k h := by
    have h' := congrArg String.toList h
    simp only [Layout.stagingKey, layout, deleteSet, recordStem, String.toList_append,
      String.toList_push, List.append_assoc] at h'
    exact append_ne_shifted (c := '_') (by simp) name.toList h'
  marks_record k h := by
    have h' := congrArg String.toList h
    simp [Layout.recordKey, layout, deleteSet, recordStem] at h'

end TableName

end ControlBus
