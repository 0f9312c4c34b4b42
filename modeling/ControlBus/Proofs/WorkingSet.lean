-- The working set of the multiplexer: sorted by priority, age and number, and always just the
-- keys of the sources that are marked ready.
import ControlBus.Scheduler.Multiplexer

namespace ControlBus

/-! ## The order of keys -/

namespace ReadyKey

theorem before_iff {a b : ReadyKey} :
    a.before b = true ↔ b.priority < a.priority ∨
      a.priority = b.priority ∧ (a.stamp < b.stamp ∨ a.stamp = b.stamp ∧ a.id < b.id) := by
  unfold before
  by_cases hp : a.priority = b.priority
  · by_cases hs : a.stamp = b.stamp
    · simp [hp, hs]
    · simp [hp, hs]
  · simp [hp]

theorem before_irrefl (a : ReadyKey) : ¬ a.before a = true := by
  rw [before_iff]
  omega

theorem before_trans {a b c : ReadyKey} (hab : a.before b = true) (hbc : b.before c = true) :
    a.before c = true := by
  rw [before_iff] at *
  omega

theorem before_total {a b : ReadyKey} (h : a ≠ b) (hn : ¬ a.before b = true) :
    b.before a = true := by
  obtain ⟨pa, sa, ia⟩ := a
  obtain ⟨pb, sb, ib⟩ := b
  rw [before_iff] at *
  simp only [ne_eq, mk.injEq, not_and] at h
  dsimp only at *
  omega

/-- Keys in the order in which their sources are to be dispatched. -/
def Sorted (set : List ReadyKey) : Prop := set.Pairwise fun a b => a.before b = true

theorem mem_insert {k j : ReadyKey} {set : List ReadyKey} : j ∈ k.insert set ↔ j = k ∨ j ∈ set := by
  induction set with
  | nil => simp [insert]
  | cons a rest ih =>
    simp only [insert]
    split
    · rename_i ha
      subst ha
      simp
    · split
      · simp
      · simp only [List.mem_cons, ih]
        exact or_left_comm

theorem sorted_insert {set : List ReadyKey} (k : ReadyKey) (h : Sorted set) :
    Sorted (k.insert set) := by
  induction set with
  | nil => simp [insert, Sorted]
  | cons a rest ih =>
    obtain ⟨ha, hrest⟩ := List.pairwise_cons.mp h
    simp only [insert]
    split
    · exact h
    · rename_i hne
      split
      · rename_i hk
        refine List.pairwise_cons.mpr ⟨fun j hj => ?_, h⟩
        rcases List.mem_cons.mp hj with rfl | hj
        · exact hk
        · exact before_trans hk (ha j hj)
      · rename_i hk
        refine List.pairwise_cons.mpr ⟨fun j hj => ?_, ih hrest⟩
        rcases mem_insert.mp hj with rfl | hj
        · exact before_total hne hk
        · exact ha j hj

theorem Sorted.nodup {set : List ReadyKey} (h : Sorted set) : set.Nodup := by
  refine List.Pairwise.imp (fun {a b} hab => ?_) h
  rintro rfl
  exact before_irrefl a hab

end ReadyKey

/-! ## The working set and the sources -/

/-- The working set holds the key of every source that is marked ready, and nothing else. -/
structure Consistent {ι : Type} (rs : List (Registration ι)) (set : List ReadyKey) : Prop where
  sorted : ReadyKey.Sorted set
  mem : ∀ k : ReadyKey,
    k ∈ set ↔ ∃ r : Registration ι, rs[k.id]? = some r ∧ r.ready = true ∧ r.key k.id = k
  opened : ∀ (i : Nat) (r : Registration ι), rs[i]? = some r → r.ready = true → r.closed = false

namespace Consistent

variable {ι : Type} {rs : List (Registration ι)} {set : List ReadyKey}

theorem empty : Consistent ([] : List (Registration ι)) [] where
  sorted := List.Pairwise.nil
  mem := by simp
  opened := by simp

/-- The only key of a source is the one that its priority and its stamp give. -/
theorem key_eq (h : Consistent rs set) {k : ReadyKey} (hk : k ∈ set) {r : Registration ι}
    (hr : rs[k.id]? = some r) : r.ready = true ∧ r.key k.id = k := by
  obtain ⟨r', hr', hready, hkey⟩ := (h.mem k).mp hk
  rw [hr] at hr'
  cases hr'
  exact ⟨hready, hkey⟩

/-- A source that is not ready has no key in the working set. -/
theorem id_ne (h : Consistent rs set) {i : Nat} {r : Registration ι} (hr : rs[i]? = some r)
    (hready : r.ready = false) {k : ReadyKey} (hk : k ∈ set) : k.id ≠ i := by
  intro he
  subst he
  rw [(h.key_eq hk hr).1] at hready
  cases hready

/-- A new source is not ready yet. -/
theorem add (h : Consistent rs set) {r : Registration ι} (hready : r.ready = false) :
    Consistent (rs ++ [r]) set where
  sorted := h.sorted
  mem k := by
    rw [h.mem k]
    apply exists_congr
    intro x
    by_cases hlt : k.id < rs.length
    · rw [List.getElem?_append_left hlt]
    · rw [List.getElem?_append_right (by omega), List.getElem?_eq_none (by omega)]
      by_cases h0 : k.id - rs.length = 0
      · simp only [h0, List.getElem?_cons_zero]
        grind
      · grind
  opened i x hx hxr := by
    by_cases hlt : i < rs.length
    · rw [List.getElem?_append_left hlt] at hx
      exact h.opened i x hx hxr
    · rw [List.getElem?_append_right (by omega)] at hx
      have hx' := List.mem_of_getElem? hx
      simp only [List.mem_singleton] at hx'
      subst hx'
      rw [hready] at hxr
      cases hxr

/-- A source stops being ready, and its key leaves. -/
theorem leave (h : Consistent rs set) {i : Nat} {r : Registration ι} (hready : r.ready = false)
    {set' : List ReadyKey} (hs : ReadyKey.Sorted set') (hm : ∀ k, k ∈ set' ↔ k ∈ set ∧ k.id ≠ i) :
    Consistent (rs.set i r) set' where
  sorted := hs
  mem k := by
    rw [hm k, h.mem k, List.getElem?_set]
    by_cases hk : i = k.id
    · subst hk
      simp only [ne_eq, not_true_eq_false, and_false, if_true, false_iff]
      rintro ⟨x, hx, hxr, -⟩
      split at hx
      · cases hx
        rw [hready] at hxr
        cases hxr
      · cases hx
    · simp [hk, Ne.symm hk]
  opened j x hx hxr := by
    rw [List.getElem?_set] at hx
    split at hx
    · split at hx
      · cases hx
        rw [hready] at hxr
        cases hxr
      · cases hx
    · exact h.opened j x hx hxr

/-- A source becomes ready, and its key enters. -/
theorem enter (h : Consistent rs set) {i : Nat} {r x : Registration ι} (hr : rs[i]? = some r)
    (hready : r.ready = false) (hready' : x.ready = true) (hopen : x.closed = false) :
    Consistent (rs.set i x) ((x.key i).insert set) where
  sorted := ReadyKey.sorted_insert _ h.sorted
  mem k := by
    have hlt : i < rs.length := (List.getElem?_eq_some_iff.mp hr).1
    rw [ReadyKey.mem_insert, List.getElem?_set]
    by_cases hk : i = k.id
    · subst hk
      have hnot : k ∉ set := fun hin => h.id_ne hr hready hin rfl
      simp only [if_true, hlt, Option.some.injEq, exists_eq_left', hready', true_and, hnot,
        or_false]
      exact eq_comm
    · have hne : k ≠ x.key i := fun he => hk (by rw [he]; rfl)
      simp [hk, hne, h.mem k]
  opened j s hs hsr := by
    rw [List.getElem?_set] at hs
    split at hs
    · split at hs
      · cases hs
        exact hopen
      · cases hs
    · exact h.opened j s hs hsr

/-- The best key is taken out. -/
theorem pop {k : ReadyKey} (h : Consistent rs (k :: set)) {r : Registration ι}
    (hready : r.ready = false) : Consistent (rs.set k.id r) set := by
  obtain ⟨hk, hs⟩ := List.pairwise_cons.mp h.sorted
  refine h.leave hready hs fun j => ⟨fun hj => ⟨List.mem_cons_of_mem k hj, fun he => ?_⟩, ?_⟩
  · obtain ⟨x, hx, -, hkey⟩ := (h.mem k).mp List.mem_cons_self
    have hj' := (h.key_eq (List.mem_cons_of_mem k hj) (he ▸ hx)).2
    rw [he, hkey] at hj'
    exact ReadyKey.before_irrefl k (hj' ▸ hk j hj)
  · rintro ⟨hj, hne⟩
    rcases List.mem_cons.mp hj with rfl | hj
    · exact absurd rfl hne
    · exact hj

/-- The key of a source that may be ready is taken out, if it is there. -/
theorem erase (h : Consistent rs set) {i : Nat} {r r' : Registration ι} (hr : rs[i]? = some r)
    (hready : r'.ready = false) :
    Consistent (rs.set i r') (if r.ready then set.erase (r.key i) else set) := by
  cases hready' : r.ready with
  | false =>
    exact h.leave hready h.sorted fun k => ⟨fun hk => ⟨hk, h.id_ne hr hready' hk⟩, And.left⟩
  | true =>
    refine h.leave hready (h.sorted.sublist List.erase_sublist) ?_
    intro k
    rw [if_pos rfl, h.sorted.nodup.mem_erase_iff]
    constructor
    · rintro ⟨hne, hk⟩
      refine ⟨hk, fun he => hne ?_⟩
      subst he
      exact (h.key_eq hk hr).2.symm
    · rintro ⟨hk, hne⟩
      exact ⟨fun he => hne (by rw [he]; rfl), hk⟩

end Consistent

end ControlBus
