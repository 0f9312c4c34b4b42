-- The laws of the random set. The index always names the place of each member, so a draw or a
-- removal takes out exactly one member and moves no other out of the set.
import Mathlib.Data.List.Perm.Basic
import ControlBus.Store.RandomSet

namespace ControlBus

namespace Assoc

variable {κ α : Type} [DecidableEq κ]

theorem get?_put (m : Assoc κ α) (k j : κ) (a : α) :
    get? (put m k a) j = if k = j then some a else get? m j := by
  split
  · rename_i h
    rw [← h, get?_put_self]
  · exact get?_put_of_ne m a ‹_›

theorem get?_erase (m : Assoc κ α) (k j : κ) :
    get? (erase m k) j = if k = j then none else get? m j := by
  split
  · rename_i h
    rw [← h, get?_erase_self]
  · exact get?_erase_of_ne m ‹_›

end Assoc

namespace RandomSet

/-- No member stands twice, and the index gives the place of each member and of nothing
else. -/
structure Valid (s : RandomSet) : Prop where
  nodup : s.members.Nodup
  places : ∀ m i, Assoc.get? s.places m = some i ↔ s.members[i]? = some m

theorem valid_empty : Valid {} := ⟨List.nodup_nil, by simp⟩

theorem has_places {s : RandomSet} (h : s.Valid) (m : String) :
    Assoc.has s.places m = true ↔ m ∈ s.members := by
  rw [Assoc.has, Option.isSome_iff_exists, List.mem_iff_getElem?]
  exact exists_congr fun i => h.places m i

/-! ## Adding -/

theorem insert_fst {s : RandomSet} (h : s.Valid) (m : String) :
    (s.insert m).1 = decide (m ∉ s.members) := by
  unfold insert
  by_cases hm : m ∈ s.members
  · simp [(has_places h m).mpr hm, hm]
  · simp [mt (has_places h m).mp hm, hm]

theorem members_insert {s : RandomSet} (h : s.Valid) (m : String) :
    (s.insert m).2.members = if m ∈ s.members then s.members else s.members ++ [m] := by
  unfold insert
  by_cases hm : m ∈ s.members
  · simp [(has_places h m).mpr hm, hm]
  · simp [mt (has_places h m).mp hm, hm]

theorem valid_insert {s : RandomSet} (h : s.Valid) (m : String) : (s.insert m).2.Valid := by
  unfold insert
  by_cases hm : m ∈ s.members
  · simpa [(has_places h m).mpr hm] using h
  · simp only [mt (has_places h m).mp hm, if_false, Bool.false_eq_true]
    refine ⟨List.nodup_append.mpr ⟨h.nodup, by simp, by grind⟩, ?_⟩
    intro x i
    rw [Assoc.get?_put, List.getElem?_append]
    have hx := h.places x i
    grind [List.mem_iff_getElem?]

/-! ## Filling the gap of a member that leaves -/

theorem getElem?_fillGap {row : List String} {place : Nat} (h : place < row.length) (i : Nat) :
    (fillGap row place)[i]? =
      if i + 1 < row.length then
        if i = place then row[row.length - 1]? else row[i]?
      else none := by
  have hend : row.length - 1 < row.length := by omega
  have hlast : row.getLast? = some row[row.length - 1] := by
    rw [List.getLast?_eq_getElem?, List.getElem?_eq_getElem]
  unfold fillGap
  rw [hlast]
  simp only [List.getElem?_dropLast, List.length_set]
  by_cases hi : i + 1 < row.length
  · rw [if_pos (by omega), if_pos hi]
    by_cases hp : i = place
    · subst hp
      rw [if_pos rfl, List.getElem?_set_self h, List.getElem?_eq_getElem]
    · rw [if_neg hp, List.getElem?_set_ne (Ne.symm hp)]
  · rw [if_neg (by omega), if_neg hi]

theorem perm_fillGap {row : List String} {place : Nat} {m : String} (h : row[place]? = some m) :
    row.Perm (m :: fillGap row place) := by
  rcases List.eq_nil_or_concat row with rfl | ⟨init, last, rfl⟩
  · simp at h
  · rw [List.concat_eq_append] at h ⊢
    have hgap : fillGap (init ++ [last]) place = ((init ++ [last]).set place last).dropLast := by
      simp [fillGap]
    rw [hgap]
    by_cases hp : place < init.length
    · have hm : init[place] = m := by
        rw [List.getElem?_append_left hp, List.getElem?_eq_getElem hp] at h
        exact Option.some.inj h
      rw [List.set_append_left _ _ hp, List.dropLast_concat]
      calc (init ++ [last]).Perm (last :: init) := List.perm_append_singleton last init
        _ |>.Perm (last :: m :: init.eraseIdx place) :=
          (hm ▸ List.getElem_cons_eraseIdx_perm hp).symm.cons last
        _ |>.Perm (m :: last :: init.eraseIdx place) := List.Perm.swap m last _
        _ |>.Perm (m :: init.set place last) := (List.set_perm_cons_eraseIdx hp last).symm.cons m
    · obtain ⟨hlt, -⟩ := List.getElem?_eq_some_iff.mp h
      have hplace : place = init.length := by simp at hlt; omega
      subst hplace
      have hm : last = m := by simpa using h
      subst hm
      simp

theorem members_vacate (s : RandomSet) (place : Nat) :
    (s.vacate place).members = fillGap s.members place := rfl

/-- A member leaves its place, the last member takes it, and the index follows. -/
theorem valid_vacate {s : RandomSet} {place : Nat} {m : String} (h : s.Valid)
    (hm : s.members[place]? = some m) :
    ({ s with places := Assoc.erase s.places m }.vacate place).Valid := by
  have hperm := perm_fillGap hm
  have hnodup : (m :: fillGap s.members place).Nodup := hperm.nodup_iff.mp h.nodup
  obtain ⟨hlt, hget⟩ := List.getElem?_eq_some_iff.mp hm
  refine ⟨(List.nodup_cons.mp hnodup).2, ?_⟩
  have hgap := getElem?_fillGap hlt
  have hinj : ∀ (i j : Nat) (x : String), s.members[i]? = some x → s.members[j]? = some x →
      i = j := by
    intro i j x hi hj
    obtain ⟨hi', -⟩ := List.getElem?_eq_some_iff.mp hi
    exact (List.getElem?_inj hi' h.nodup).mp (hi.trans hj.symm)
  intro x i
  simp only [vacate, hgap]
  have hx := h.places x i
  by_cases hlast : place + 1 < s.members.length
  · have hend : s.members.length - 1 < s.members.length := by omega
    have hmoved : s.members[s.members.length - 1]? = some s.members[s.members.length - 1] :=
      List.getElem?_eq_getElem hend
    simp only [hlast, if_true, hmoved, Assoc.get?_put, Assoc.get?_erase]
    grind
  · simp only [hlast, if_false, Assoc.get?_erase]
    grind

/-! ## Removing and drawing -/

theorem remove_fst {s : RandomSet} (h : s.Valid) (m : String) :
    (s.remove m).1 = decide (m ∈ s.members) := by
  have hm := has_places h m
  unfold remove
  rw [Assoc.has] at hm
  cases hp : Assoc.get? s.places m with
  | none => simp_all
  | some i => simp_all

theorem valid_remove {s : RandomSet} (h : s.Valid) (m : String) : (s.remove m).2.Valid := by
  unfold remove
  cases hp : Assoc.get? s.places m with
  | none => exact h
  | some i => exact valid_vacate h ((h.places m i).mp hp)

theorem perm_remove {s : RandomSet} (h : s.Valid) {m : String} (hm : m ∈ s.members) :
    s.members.Perm (m :: (s.remove m).2.members) := by
  obtain ⟨i, hi⟩ := List.mem_iff_getElem?.mp hm
  have hp := (h.places m i).mpr hi
  simp only [remove, hp, members_vacate]
  exact perm_fillGap hi

theorem remove_of_not_mem {s : RandomSet} (h : s.Valid) {m : String} (hm : m ∉ s.members) :
    (s.remove m).2 = s := by
  unfold remove
  cases hp : Assoc.get? s.places m with
  | none => rfl
  | some i => exact absurd (List.mem_of_getElem? ((h.places m i).mp hp)) hm

theorem mem_remove {s : RandomSet} (h : s.Valid) (m x : String) :
    x ∈ (s.remove m).2.members ↔ x ∈ s.members ∧ x ≠ m := by
  by_cases hm : m ∈ s.members
  · have hperm := perm_remove h hm
    have hnodup := List.nodup_cons.mp (hperm.nodup_iff.mp h.nodup)
    rw [hperm.mem_iff, List.mem_cons]
    constructor
    · intro hx
      exact ⟨Or.inr hx, fun he => hnodup.1 (he ▸ hx)⟩
    · rintro ⟨hx | hx, hne⟩
      · exact absurd hx hne
      · exact hx
  · rw [remove_of_not_mem h hm]
    exact ⟨fun hx => ⟨hx, fun he => hm (he ▸ hx)⟩, And.left⟩

theorem drawAt_spec {s r : RandomSet} {place : Nat} {m : String} (h : s.Valid)
    (hd : s.drawAt place = some (m, r)) : r.Valid ∧ s.members.Perm (m :: r.members) := by
  unfold drawAt at hd
  cases hp : s.members[place]? with
  | none => simp [hp] at hd
  | some x =>
    simp only [hp, Option.some.injEq, Prod.mk.injEq] at hd
    obtain ⟨rfl, rfl⟩ := hd
    exact ⟨valid_vacate h hp, perm_fillGap hp⟩

theorem drawAt_eq_none {s : RandomSet} (n : Nat) :
    s.drawAt (n % s.size) = none ↔ s.members = [] := by
  unfold drawAt size
  cases hs : s.members with
  | nil => simp
  | cons m rest =>
    have hlt : n % (m :: rest).length < (m :: rest).length := Nat.mod_lt _ (by simp)
    rw [List.getElem?_eq_getElem hlt]
    simp

/-- What many draws do: they take as many members as they may, each once, and leave the
others. -/
theorem drawMany_spec (max : Nat) (draws : List Nat) {s : RandomSet} (h : s.Valid) :
    (drawMany max draws s).2.2.Valid ∧
      s.members.Perm ((drawMany max draws s).1 ++ (drawMany max draws s).2.2.members) ∧
      (drawMany max draws s).1.length = min max s.size := by
  induction max generalizing draws s with
  | zero => simpa [drawMany] using h
  | succ max ih =>
    cases hd : s.drawAt (draws.headD 0 % s.size) with
    | none =>
      have hnil := (drawAt_eq_none _).mp hd
      simp only [drawMany, hd]
      simpa [size, hnil] using h
    | some drawn =>
      obtain ⟨m, r⟩ := drawn
      obtain ⟨hr, hperm⟩ := drawAt_spec h hd
      obtain ⟨h1, h2, h3⟩ := ih draws.tail hr
      have hsize : s.size = r.size + 1 := by simpa [size] using hperm.length_eq
      simp only [drawMany, hd]
      refine ⟨h1, hperm.trans (h2.cons m), ?_⟩
      simp only [List.length_cons, h3, hsize]
      omega

end RandomSet

end ControlBus
