-- A random set as its users see it. Whatever they ask for and wherever they draw, they get the
-- answers of a set, which each request changes by just the member that it is about. Between
-- requests the row of members and the index are inverse to each other, so the place that a member
-- leaves is its own.
import ControlBus.Proofs.RandomSetLaws
import Mathlib.Data.Finset.Dedup
import Mathlib.Data.Finset.Erase
import Mathlib.Data.Finset.Insert

namespace ControlBus

namespace RandomSet

/-! ## Requests -/

/-- What may be asked of a random set. -/
inductive Request where
  | insert (member : String)
  | remove (member : String)
  /-- Draw the member at a random place. Numbers beyond the last place go round the row. -/
  | draw (number : Nat)

/-- What a random set answers. -/
inductive Answer where
  | truth (b : Bool)
  | drawn (member : Option String)

def serve (s : RandomSet) : Request → Answer × RandomSet
  | .insert m => (.truth (s.insert m).1, (s.insert m).2)
  | .remove m => (.truth (s.remove m).1, (s.remove m).2)
  | .draw number =>
    match s.drawAt (number % s.size) with
    | some (m, s) => (.drawn (some m), s)
    | none => (.drawn none, s)

/-- The random set after requests, one after the other. -/
def after (requests : List Request) (s : RandomSet) : RandomSet :=
  requests.foldl (fun s request => (s.serve request).2) s

/-! ## The set that is represented -/

def elements (s : RandomSet) : Finset String := s.members.toFinset

/-- How a set of elements `x` answers a request, and that it is left with the elements `y`. -/
def Request.Law (x : Finset String) : Request → Answer → Finset String → Prop
  | .insert m, .truth b, y => (b = true ↔ m ∉ x) ∧ y = Insert.insert m x
  | .remove m, .truth b, y => (b = true ↔ m ∈ x) ∧ y = x.erase m
  | .draw _, .drawn (some m), y => m ∈ x ∧ y = x.erase m
  | .draw _, .drawn none, y => x = ∅ ∧ y = ∅
  | _, _, _ => False

variable {s r : RandomSet}

theorem mem_elements {x : String} : x ∈ s.elements ↔ x ∈ s.members := List.mem_toFinset

theorem elements_eq_empty : s.elements = ∅ ↔ s.members = [] := List.toFinset_eq_empty_iff _

/-- The elements without the one that has left the row. -/
theorem elements_of_perm (h : s.Valid) {m : String} (hperm : s.members.Perm (m :: r.members)) :
    m ∈ s.elements ∧ r.elements = s.elements.erase m := by
  have hnew : m ∉ r.members := (List.nodup_cons.mp (hperm.nodup_iff.mp h.nodup)).1
  refine ⟨mem_elements.mpr (hperm.mem_iff.mpr List.mem_cons_self), ?_⟩
  ext x
  rw [Finset.mem_erase, mem_elements, mem_elements, hperm.mem_iff, List.mem_cons]
  constructor
  · exact fun hx => ⟨fun he => hnew (he ▸ hx), Or.inr hx⟩
  · exact fun hx => hx.2.resolve_left hx.1

theorem elements_insert (h : s.Valid) (m : String) :
    (s.insert m).2.elements = Insert.insert m s.elements := by
  ext x
  rw [Finset.mem_insert, mem_elements, mem_elements, members_insert h]
  split
  · rename_i hm
    exact ⟨Or.inr, fun hx => hx.elim (fun he => he ▸ hm) id⟩
  · rw [List.mem_append, List.mem_singleton, or_comm]

theorem elements_remove (h : s.Valid) (m : String) :
    (s.remove m).2.elements = s.elements.erase m := by
  ext x
  rw [Finset.mem_erase, mem_elements, mem_elements, mem_remove h, and_comm]

/-! ## One request -/

theorem Valid.serve (h : s.Valid) (request : Request) : (s.serve request).2.Valid := by
  cases request with
  | insert m => exact valid_insert h m
  | remove m => exact valid_remove h m
  | draw number =>
    rw [RandomSet.serve]
    cases hd : s.drawAt (number % s.size) with
    | none => exact h
    | some drawn => exact (drawAt_spec h hd).1

theorem Valid.law (h : s.Valid) (request : Request) :
    request.Law s.elements (s.serve request).1 (s.serve request).2.elements := by
  cases request with
  | insert m =>
    refine ⟨?_, elements_insert h m⟩
    rw [insert_fst h, decide_eq_true_iff, mem_elements]
  | remove m =>
    refine ⟨?_, elements_remove h m⟩
    rw [remove_fst h, decide_eq_true_iff, mem_elements]
  | draw number =>
    rw [RandomSet.serve]
    cases hd : s.drawAt (number % s.size) with
    | none =>
      have hnone : s.elements = ∅ := elements_eq_empty.mpr ((drawAt_eq_none number).mp hd)
      exact ⟨hnone, hnone⟩
    | some drawn => exact elements_of_perm h (drawAt_spec h hd).2

/-! ## Runs -/

theorem Valid.after (h : s.Valid) (requests : List Request) : (s.after requests).Valid := by
  induction requests generalizing s with
  | nil => exact h
  | cons request rest ih => exact ih (h.serve request)

/-- Whatever was asked of a random set before: no member stands in the row twice, and the index
gives the place of each member and of nothing else. Whoever leaves does so from a place of the row,
and nobody leaves in his stead. What is asked next is answered as a set answers it, and changes the
elements as it changes a set. -/
theorem a_random_set_is_a_set (requests : List Request) (next : Request) :
    let s := RandomSet.after requests {}
    s.members.Nodup ∧
    (∀ m i, Assoc.get? s.places m = some i ↔ s.members[i]? = some m) ∧
    (∀ m i, Assoc.get? s.places m = some i →
      i < s.members.length ∧ s.members.Perm (m :: fillGap s.members i)) ∧
    next.Law s.elements (s.serve next).1 (s.serve next).2.elements := by
  intro s
  have h : s.Valid := valid_empty.after requests
  refine ⟨h.nodup, h.places, fun m i hi => ?_, h.law next⟩
  have hplace : s.members[i]? = some m := (h.places m i).mp hi
  exact ⟨(List.getElem?_eq_some_iff.mp hplace).1, perm_fillGap hplace⟩

end RandomSet

end ControlBus
