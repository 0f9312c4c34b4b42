-- Maps kept as lists of entries. A written key stays where it first appeared and a
-- new one goes to the end, so such a map also remembers the order of first insertion.
-- The records of fields that tables hold are such maps.
namespace ControlBus

/-- A map as the list of its entries; of two entries with one key the first counts. -/
abbrev Assoc (κ α : Type) := List (κ × α)

namespace Assoc

variable {κ α : Type} [DecidableEq κ]

/-- The value under `k`. -/
def get? : Assoc κ α → κ → Option α
  | [], _ => none
  | (k', a) :: rest, k => if k' = k then some a else get? rest k

/-- Whether `k` has a value. -/
def has (m : Assoc κ α) (k : κ) : Bool := (get? m k).isSome

/-- Write `a` under `k`: in place when `k` is there, else at the end. -/
def put : Assoc κ α → κ → α → Assoc κ α
  | [], k, a => [(k, a)]
  | (k', b) :: rest, k, a => if k' = k then (k', a) :: rest else (k', b) :: put rest k a

/-- Forget `k`. -/
def erase (m : Assoc κ α) (k : κ) : Assoc κ α := m.filter fun e => !decide (e.1 = k)

/-- Apply `f` to the value under `k`, if there is one. -/
def adjust : Assoc κ α → κ → (α → α) → Assoc κ α
  | [], _, _ => []
  | (k', a) :: rest, k, f => if k' = k then (k', f a) :: rest else (k', a) :: adjust rest k f

/-- The keys, in order. -/
def keys (m : Assoc κ α) : List κ := m.map (·.1)

@[simp] theorem get?_nil (k : κ) : get? ([] : Assoc κ α) k = none := rfl

theorem get?_put_self (m : Assoc κ α) (k : κ) (a : α) : get? (put m k a) k = some a := by
  induction m with
  | nil => simp [put, get?]
  | cons e rest ih =>
    obtain ⟨k', b⟩ := e
    by_cases h : k' = k <;> simp [put, get?, h, ih]

theorem get?_put_of_ne (m : Assoc κ α) {k j : κ} (a : α) (h : k ≠ j) :
    get? (put m k a) j = get? m j := by
  induction m with
  | nil => simp [put, get?, h]
  | cons e rest ih =>
    obtain ⟨k', b⟩ := e
    by_cases hk : k' = k
    · subst hk; simp [put, get?, h]
    · simp [put, get?, hk, ih]

theorem get?_erase_self (m : Assoc κ α) (k : κ) : get? (erase m k) k = none := by
  induction m with
  | nil => rfl
  | cons e rest ih =>
    obtain ⟨k', b⟩ := e
    by_cases h : k' = k
    · simpa [erase, h] using ih
    · simpa [erase, h, get?] using ih

theorem get?_erase_of_ne (m : Assoc κ α) {k j : κ} (h : k ≠ j) :
    get? (erase m k) j = get? m j := by
  induction m with
  | nil => rfl
  | cons e rest ih =>
    obtain ⟨k', b⟩ := e
    by_cases hk : k' = k
    · subst hk; simpa [erase, get?, h] using ih
    · by_cases hj : k' = j
      · subst hj; simp [erase, get?, hk]
      · simpa [erase, get?, hk, hj] using ih

end Assoc

/-! ## Field records

What a key of a table holds. Writing merges field by field, so the last value of a field wins and
keeps the place where the field first appeared. -/

/-- Field and value pairs as a producer lists them; a field may come more than once. -/
abbrev FieldList := List (String × String)

/-- The fields of one key, in the order in which they were first written. -/
abbrev Record := Assoc String String

namespace Record

/-- Merge a field list into a record, pair by pair. -/
def merge (r : Record) (fields : FieldList) : Record :=
  fields.foldl (fun r f => Assoc.put r f.1 f.2) r

/-- The first value listed for a field. -/
def value? (r : FieldList) (field : String) : Option String := Assoc.get? r field

@[simp] theorem merge_nil (r : Record) : merge r [] = r := rfl

theorem merge_append (r : Record) (a b : FieldList) : merge r (a ++ b) = merge (merge r a) b := by
  simp [merge, List.foldl_append]

end Record

end ControlBus
