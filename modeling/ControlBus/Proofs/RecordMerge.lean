-- The laws of the field merge. Merging one field list after another is one merge of a merged
-- list, so fields can be staged apart from the record that they end in.
import ControlBus.Assoc

namespace ControlBus

namespace Assoc

variable {κ α : Type} [DecidableEq κ]

/-! ## Keys of a written map -/

theorem keys_put (m : Assoc κ α) (k : κ) (a : α) :
    keys (put m k a) = if k ∈ keys m then keys m else keys m ++ [k] := by
  induction m with
  | nil => simp [put, keys]
  | cons e rest ih =>
    obtain ⟨k', b⟩ := e
    by_cases hk : k' = k
    · simp [put, keys, hk]
    · have hk' : k ≠ k' := Ne.symm hk
      simp only [keys] at ih
      simp only [put, keys, hk, if_false, List.map_cons, ih, List.mem_cons, hk', false_or]
      by_cases hrest : k ∈ rest.map (·.1)
      · simp only [hrest, if_true]
      · simp only [hrest, if_false, List.cons_append]

theorem mem_keys_put {m : Assoc κ α} {j k : κ} {a : α} :
    j ∈ keys (put m k a) ↔ j ∈ keys m ∨ j = k := by
  rw [keys_put]
  split
  · rename_i hk
    exact ⟨Or.inl, fun h => h.elim id fun e => e ▸ hk⟩
  · simp

theorem mem_of_get? {m : Assoc κ α} {k : κ} {a : α} (h : get? m k = some a) : (k, a) ∈ m := by
  induction m with
  | nil => cases h
  | cons e rest ih =>
    obtain ⟨k', b⟩ := e
    by_cases hk : k' = k
    · subst hk
      obtain rfl : b = a := by simpa [get?] using h
      exact List.mem_cons_self
    · rw [get?, if_neg hk] at h
      exact List.mem_cons_of_mem _ (ih h)

theorem mem_keys_of_get? {m : Assoc κ α} {k : κ} {a : α} (h : get? m k = some a) :
    k ∈ keys m := List.mem_map_of_mem (mem_of_get? h)

theorem get?_eq_none_iff {m : Assoc κ α} {k : κ} : get? m k = none ↔ k ∉ keys m := by
  induction m with
  | nil => simp [keys]
  | cons e rest ih =>
    rw [keys] at ih ⊢
    by_cases hk : e.1 = k
    · simp [get?, hk]
    · simp [get?, hk, Ne.symm hk, ih]

theorem nodup_put {m : Assoc κ α} (k : κ) (a : α) (h : (keys m).Nodup) :
    (keys (put m k a)).Nodup := by
  rw [keys_put]
  split
  · exact h
  · rename_i hk
    exact List.nodup_append.mpr ⟨h, by simp, by grind⟩

theorem put_ne_nil (m : Assoc κ α) (k : κ) (a : α) : put m k a ≠ [] := by
  cases m with
  | nil => simp [put]
  | cons e rest =>
    obtain ⟨k', b⟩ := e
    simp only [put]
    split <;> simp

/-! ## Writing twice -/

theorem put_put_self (m : Assoc κ α) (k : κ) (a b : α) : put (put m k a) k b = put m k b := by
  induction m with
  | nil => simp [put]
  | cons e rest ih =>
    obtain ⟨k', c⟩ := e
    by_cases hk : k' = k <;> simp [put, hk, ih]

/-- A key that is there already keeps its place, so it may be written before or after
another. -/
theorem put_comm_of_mem {m : Assoc κ α} {j k : κ} (a b : α) (hm : k ∈ keys m) (hj : j ≠ k) :
    put (put m j b) k a = put (put m k a) j b := by
  induction m with
  | nil => simp [keys] at hm
  | cons e rest ih =>
    obtain ⟨k', c⟩ := e
    by_cases hk : k' = k
    · subst hk
      have hj' : k' ≠ j := Ne.symm hj
      simp [put, hj']
    · have hrest : k ∈ keys rest := by simpa [keys, Ne.symm hk] using hm
      by_cases hkj : k' = j
      · subst hkj
        simp [put, hk]
      · simp [put, hk, hkj, ih hrest]

end Assoc

namespace Record

/-! ## The merged record -/

theorem merge_cons (r : Record) (f : String × String) (fields : FieldList) :
    merge r (f :: fields) = merge (Assoc.put r f.1 f.2) fields := rfl

theorem nodup_merge {r : Record} (fields : FieldList) (h : (Assoc.keys r).Nodup) :
    (Assoc.keys (merge r fields)).Nodup := by
  induction fields generalizing r with
  | nil => exact h
  | cons f fields ih => exact ih (Assoc.nodup_put f.1 f.2 h)

theorem merge_eq_nil {r : Record} {fields : FieldList} :
    merge r fields = [] ↔ r = [] ∧ fields = [] := by
  induction fields generalizing r with
  | nil => simp
  | cons f fields ih => simp [merge_cons, ih, Assoc.put_ne_nil]

/-! ## Merging in two steps -/

theorem put_merge_of_not_mem {r : Record} {fields : FieldList} {k : String} (a : String)
    (hr : k ∈ Assoc.keys r) (hk : k ∉ Assoc.keys fields) :
    Assoc.put (merge r fields) k a = merge (Assoc.put r k a) fields := by
  induction fields generalizing r with
  | nil => rfl
  | cons f fields ih =>
    obtain ⟨j, b⟩ := f
    have hj : j ≠ k := fun h => hk (by simp [Assoc.keys, h])
    have hrest : k ∉ Assoc.keys fields := fun h => hk (List.mem_cons_of_mem _ h)
    rw [merge_cons, merge_cons, ih (Assoc.mem_keys_put.mpr (Or.inl hr)) hrest,
      Assoc.put_comm_of_mem a b hr hj]

theorem merge_put {x : Record} (r : Record) (k a : String) (h : (Assoc.keys x).Nodup) :
    merge r (Assoc.put x k a) = Assoc.put (merge r x) k a := by
  induction x generalizing r with
  | nil => rfl
  | cons e x ih =>
    obtain ⟨k', b⟩ := e
    have hx : (Assoc.keys x).Nodup := (List.nodup_cons.mp h).2
    by_cases hk : k' = k
    · subst hk
      have hnot : k' ∉ Assoc.keys x := (List.nodup_cons.mp h).1
      have hin : k' ∈ Assoc.keys (Assoc.put r k' b) := Assoc.mem_keys_put.mpr (Or.inr rfl)
      rw [merge_cons, put_merge_of_not_mem a hin hnot, Assoc.put_put_self]
      simp [Assoc.put, merge_cons]
    · simp [Assoc.put, hk, merge_cons, ih _ hx]

/-- Fields merged into a staged record, and that into another, are merged into the other one
after the staged ones. -/
theorem merge_merge (r : Record) {x : Record} (fields : FieldList) (h : (Assoc.keys x).Nodup) :
    merge r (merge x fields) = merge (merge r x) fields := by
  induction fields generalizing x with
  | nil => rfl
  | cons f fields ih =>
    rw [merge_cons, merge_cons, ih (Assoc.nodup_put f.1 f.2 h), merge_put r f.1 f.2 h]

end Record

end ControlBus
