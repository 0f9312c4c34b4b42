-- The order and the values of merged fields. A record keeps its fields in their places and gets the
-- new ones behind them in the order in which they are first mentioned; the last mention of a name
-- gives its value. So it makes no difference whether field lists are merged into a record one by
-- one or all of them first into an empty one.
import ControlBus.Proofs.KeyspaceLaws
import ControlBus.Proofs.RecordMerge
import Mathlib.Data.List.Induction

namespace ControlBus

/-- Maps of the same keys in the same order and with the same values are the same. -/
theorem Assoc.ext_of_keys {κ α : Type} [DecidableEq κ] {m m' : Assoc κ α} (hkeys : keys m = keys m')
    (hnodup : (keys m).Nodup) (hget : ∀ k, get? m k = get? m' k) : m = m' := by
  induction m generalizing m' with
  | nil => exact (List.map_eq_nil_iff.mp hkeys.symm).symm
  | cons e rest ih =>
    cases m' with
    | nil => cases hkeys
    | cons e' rest' =>
      obtain ⟨k, a⟩ := e
      obtain ⟨k', a'⟩ := e'
      obtain ⟨rfl, hrest⟩ : k = k' ∧ keys rest = keys rest' := List.cons.inj hkeys
      obtain ⟨hfirst, hnodup'⟩ : k ∉ keys rest ∧ (keys rest).Nodup := List.nodup_cons.mp hnodup
      have ha : a = a' := by simpa [get?] using hget k
      have hlater : ∀ j, get? rest j = get? rest' j := by
        intro j
        by_cases hj : k = j
        · subst hj
          have hmissing : k ∉ keys rest' := hrest ▸ hfirst
          rw [get?_eq_none_iff.mpr hfirst, get?_eq_none_iff.mpr hmissing]
        · simpa [get?, hj] using hget j
      rw [ha, ih hrest hnodup' hlater]

namespace Record

/-! ## Names -/

/-- The names in a field list that a record does not have, in the order of their first mention. -/
def newNames (r : Record) (fields : FieldList) : List String :=
  ((fields.map (·.1)).filter (· ∉ Assoc.keys r)).eraseDups

theorem newNames_cons_of_mem {r : Record} {f : String × String} (h : f.1 ∈ Assoc.keys r)
    (fields : FieldList) : newNames r (f :: fields) = newNames r fields := by
  simp [newNames, h]

theorem newNames_cons_of_not_mem {r r' : Record} {f : String × String} (h : f.1 ∉ Assoc.keys r)
    (hr' : Assoc.keys r' = Assoc.keys r ++ [f.1]) (fields : FieldList) :
    newNames r (f :: fields) = f.1 :: newNames r' fields := by
  have hleft : ((fields.map (·.1)).filter (· ∉ Assoc.keys r)).filter (!· == f.1) =
      (fields.map (·.1)).filter (· ∉ Assoc.keys r') := by
    rw [List.filter_filter]
    congr 1
    funext name
    simp [hr', beq_eq_decide, Bool.and_comm]
  rw [newNames, List.map_cons, List.filter_cons_of_pos (by simpa using h), List.eraseDups_cons,
    hleft, newNames]

/-- Fields keep their places, and new ones go to the end. -/
theorem keys_merge (r : Record) (fields : FieldList) :
    Assoc.keys (merge r fields) = Assoc.keys r ++ newNames r fields := by
  induction fields generalizing r with
  | nil => simp [newNames]
  | cons f rest ih =>
    have hput := Assoc.keys_put r f.1 f.2
    rw [merge_cons, ih]
    by_cases hmem : f.1 ∈ Assoc.keys r
    · rw [if_pos hmem] at hput
      rw [newNames_cons_of_mem hmem, newNames, newNames, hput]
    · rw [if_neg hmem] at hput
      rw [newNames_cons_of_not_mem hmem hput, hput, List.append_assoc, List.singleton_append]

theorem mem_keys_merge {r : Record} {fields : FieldList} {f : String × String} (hf : f ∈ fields) :
    f.1 ∈ Assoc.keys (merge r fields) := by
  rw [keys_merge, List.mem_append]
  by_cases hmem : f.1 ∈ Assoc.keys r
  · exact Or.inl hmem
  · right
    rw [newNames, List.mem_eraseDups, List.mem_filter]
    exact ⟨List.mem_map_of_mem hf, by simpa using hmem⟩

/-- After a merge there is nothing new in its field list. -/
theorem newNames_merge_self (r : Record) (fields : FieldList) :
    newNames (merge r fields) fields = [] := by
  have hnone : (fields.map (·.1)).filter (· ∉ Assoc.keys (merge r fields)) = [] := by
    rw [List.filter_eq_nil_iff]
    intro name hname
    obtain ⟨f, hf, rfl⟩ := List.mem_map.mp hname
    simpa using mem_keys_merge hf
  rw [newNames, hnone, List.eraseDups_nil]

/-! ## Values -/

/-- The value that a field list mentions last for a name. -/
def lastMention? (fields : FieldList) (name : String) : Option String :=
  ((fields.filter (·.1 = name)).getLast?).map (·.2)

theorem lastMention_snoc (fields : FieldList) (f : String × String) (name : String) :
    lastMention? (fields ++ [f]) name =
      if f.1 = name then some f.2 else lastMention? fields name := by
  rw [lastMention?, List.filter_append]
  by_cases hf : f.1 = name
  · simp [hf]
  · simp [hf, lastMention?]

/-- The last mention of a field gives its value; without one the record does. -/
theorem value_merged (r : Record) (fields : FieldList) (name : String) :
    value? (merge r fields) name = (lastMention? fields name).or (value? r name) := by
  induction fields using List.reverseRecOn with
  | nil => rfl
  | append_singleton fields f ih =>
    rw [merge_append, lastMention_snoc]
    change Assoc.get? (Assoc.put (merge r fields) f.1 f.2) name = _
    rw [Assoc.get?_put]
    split
    · rfl
    · exact ih

/-! ## Merging twice -/

theorem merge_self {r : Record} (fields : FieldList) (h : (Assoc.keys r).Nodup) :
    merge (merge r fields) fields = merge r fields := by
  refine Assoc.ext_of_keys ?_ (nodup_merge fields (nodup_merge fields h)) fun name => ?_
  · rw [keys_merge _ fields, newNames_merge_self, List.append_nil]
  · change value? (merge (merge r fields) fields) name = value? (merge r fields) name
    rw [value_merged, value_merged, ← Option.or_assoc, Option.or_self]

end Record

/-! ## Setting fields in a store -/

namespace Keyspace

theorem record_mergeFields_self (s : Keyspace) (key : String) (fields : FieldList) :
    (s.mergeFields key fields).record key = (s.record key).merge fields := by
  rw [record_mergeFields, if_pos rfl]

/-- Fields `a` and then `b` are set on a key. It is the same to set on it what they come to under
any other key that had no fields. The fields that there were stay in their places, new ones come
after them in the order of first mention, none comes twice, and each has the value mentioned last.
To set the same fields once more changes nothing. -/
theorem fields_set_in_a_row_are_set_as_one (s : Keyspace) (key : String) (a b : FieldList)
    (h : (Assoc.keys (s.record key)).Nodup) :
    let result := ((s.mergeFields key a).mergeFields key b).record key
    (∀ (t : Keyspace) (j : String), t.record j = [] →
      result = (s.mergeFields key (((t.mergeFields j a).mergeFields j b).record j)).record key) ∧
    Assoc.keys result = Assoc.keys (s.record key) ++ Record.newNames (s.record key) (a ++ b) ∧
    (Assoc.keys result).Nodup ∧
    (∀ name, Record.value? result name =
      (Record.lastMention? (a ++ b) name).or (Record.value? (s.record key) name)) ∧
    ((s.mergeFields key a).mergeFields key a).record key = (s.mergeFields key a).record key := by
  intro result
  have hresult : result = (s.record key).merge (a ++ b) := by
    rw [Record.merge_append, ← record_mergeFields_self, ← record_mergeFields_self]
  refine ⟨fun t j hnone => ?_, ?_, ?_, fun name => ?_, ?_⟩
  · have hstaged : ((t.mergeFields j a).mergeFields j b).record j = Record.merge [] (a ++ b) := by
      rw [Record.merge_append, record_mergeFields_self, record_mergeFields_self, hnone]
    have hempty : (Assoc.keys ([] : Record)).Nodup := List.nodup_nil
    rw [hresult, hstaged, record_mergeFields_self, Record.merge_merge _ _ hempty, Record.merge_nil]
  · rw [hresult, Record.keys_merge]
  · rw [hresult]
    exact Record.nodup_merge _ h
  · rw [hresult, Record.value_merged]
  · rw [record_mergeFields_self, record_mergeFields_self, Record.merge_self a h]

/-- A field that is there is set anew, and a new one is set three times in two lists. -/
theorem fields_mentioned_again :
    let s : Keyspace := { records := [("k", [("a", "1"), ("b", "2")])] }
    let first : FieldList := [("c", "3"), ("a", "4"), ("c", "5")]
    let second : FieldList := [("d", "6"), ("c", "7")]
    let result := ((s.mergeFields "k" first).mergeFields "k" second).record "k"
    (Assoc.keys (s.record "k")).Nodup ∧
    (∀ (t : Keyspace) (j : String), t.record j = [] →
      result = (s.mergeFields "k"
        (((t.mergeFields j first).mergeFields j second).record j)).record "k") ∧
    Assoc.keys result = ["a", "b", "c", "d"] ∧ Record.value? result "c" = some "7" ∧
    Record.value? result "b" = some "2" := by
  intro s first second result
  have hnames : (Assoc.keys (s.record "k")).Nodup := by decide +kernel
  obtain ⟨hone, hkeys, -, hvalue, -⟩ :=
    fields_set_in_a_row_are_set_as_one s "k" first second hnames
  refine ⟨hnames, hone, hkeys.trans ?_, (hvalue "c").trans ?_, (hvalue "b").trans ?_⟩
  · decide +kernel
  · decide +kernel
  · decide +kernel

end Keyspace

end ControlBus
