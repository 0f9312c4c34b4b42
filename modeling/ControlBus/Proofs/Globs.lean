-- What a glob pattern takes, place by place. No wildcard takes a line break, so a stem with a star
-- behind it takes the stem with any line behind it, and nothing of more lines than that.
import ControlBus.Proofs.Deliveries

namespace ControlBus

/-! ## Taking a text place by place -/

namespace Text.Glob

/-- A pattern takes a text: each of its places takes its own piece of it. -/
inductive Takes : List GlobToken → List Char → Prop where
  | nothing : Takes [] []
  /-- The run of a star ends here. -/
  | close {p : List GlobToken} {text : List Char} : Takes p text → Takes (.anyRun :: p) text
  | extend {p : List GlobToken} {c : Char} {text : List Char} : c ≠ '\n' →
      Takes (.anyRun :: p) text → Takes (.anyRun :: p) (c :: text)
  | one {p : List GlobToken} {c : Char} {text : List Char} : c ≠ '\n' →
      Takes p text → Takes (.anyOne :: p) (c :: text)
  | same {p : List GlobToken} (c : Char) {text : List Char} :
      Takes p text → Takes (.exactly c :: p) (c :: text)

variable {p : List GlobToken} {patterns : List (List GlobToken)} {c : Char} {text : List Char}

theorem takes_nil_iff : Takes p [] ↔ takesNothing p = true := by
  induction p with
  | nil => exact ⟨fun _ => rfl, fun _ => .nothing⟩
  | cons token rest ih =>
    constructor
    · rintro (_ | h)
      simpa [takesNothing] using ih.mp h
    · intro h
      obtain ⟨rfl, hrest⟩ : token = .anyRun ∧ takesNothing rest = true := by
        simpa [takesNothing] using h
      exact .close (ih.mpr hrest)

theorem takes_cons_iff : Takes p (c :: text) ↔ ∃ q ∈ after c p, Takes q text := by
  induction p with
  | nil =>
    have hnone : ¬ Takes [] (c :: text) := by
      intro h
      cases h
    simpa [after] using hnone
  | cons token rest ih =>
    cases token with
    | anyRun =>
      have hstar : Takes (.anyRun :: rest) (c :: text) ↔
          Takes rest (c :: text) ∨ c ≠ '\n' ∧ Takes (.anyRun :: rest) text := by
        constructor
        · rintro (_ | h | ⟨hc, h⟩)
          · exact Or.inl h
          · exact Or.inr ⟨hc, h⟩
        · rintro (h | ⟨hc, h⟩)
          · exact .close h
          · exact .extend hc h
      rw [hstar, ih, after]
      by_cases hc : c = '\n' <;> simp [hc, or_comm]
    | anyOne =>
      rw [after]
      constructor
      · intro h
        cases h with
        | one hc h => exact ⟨rest, by simp [hc], h⟩
      · split
        · rintro ⟨q, hq, -⟩
          cases hq
        · rename_i hc
          rintro ⟨q, hq, h⟩
          rw [List.mem_singleton.mp hq] at h
          exact .one hc h
    | exactly d =>
      rw [after]
      constructor
      · intro h
        cases h with
        | same _ h => exact ⟨rest, by simp, h⟩
      · split
        · rename_i hd
          subst hd
          rintro ⟨q, hq, h⟩
          rw [List.mem_singleton.mp hq] at h
          exact .same d h
        · rintro ⟨q, hq, -⟩
          cases hq

/-- Following all patterns at once finds out whether one of them takes the text. -/
theorem anyAccepts_iff : anyAccepts patterns text = true ↔ ∃ p ∈ patterns, Takes p text := by
  induction text generalizing patterns with
  | nil => simp [anyAccepts, takes_nil_iff]
  | cons c rest ih =>
    rw [anyAccepts, ih]
    simp only [List.mem_eraseDups, List.mem_flatMap, takes_cons_iff]
    constructor
    · rintro ⟨q, ⟨p, hp, hq⟩, h⟩
      exact ⟨p, hp, q, hq, h⟩
    · rintro ⟨p, hp, q, hq, h⟩
      exact ⟨q, ⟨p, hp, hq⟩, h⟩

theorem accepts_iff {glob text : String} :
    accepts glob text = true ↔ Takes (glob.toList.map token) text.toList := by
  simp [accepts, anyAccepts_iff]

/-! ## Line breaks -/

/-- Only the line breaks of a pattern take line breaks. -/
theorem Takes.count_breaks (h : Takes p text) :
    text.count '\n' = p.count (.exactly '\n') := by
  induction h with
  | nothing => rfl
  | close _ ih => simpa using ih
  | extend hc _ ih => simpa [List.count_cons, hc] using ih
  | one hc _ ih => simpa [List.count_cons, hc] using ih
  | same c _ ih =>
    rw [List.count_cons, List.count_cons, ih]
    simp

theorem count_breaks_token (text : List Char) :
    (text.map token).count (.exactly '\n') = text.count '\n' := by
  induction text with
  | nil => rfl
  | cons c rest ih =>
    rw [List.map_cons, List.count_cons, List.count_cons, ih]
    congr 1
    unfold token
    split <;> simp

/-- Whatever wildcards are in it, the places made of a text take that text. -/
theorem takes_append (stem : List Char) (h : Takes p text) :
    Takes (stem.map token ++ p) (stem ++ text) := by
  induction stem with
  | nil => exact h
  | cons c rest ih =>
    rw [List.map_cons, List.cons_append, List.cons_append]
    unfold token
    split
    · exact .extend (by decide) (.close ih)
    · exact .one (by decide) ih
    · exact .same c ih

theorem takes_line (h : '\n' ∉ text) : Takes [.anyRun] text := by
  induction text with
  | nil => exact .close .nothing
  | cons c rest ih =>
    obtain ⟨hc, hrest⟩ := not_or.mp (fun hin => h (List.mem_cons.mpr hin))
    exact .extend (Ne.symm hc) (ih hrest)

/-- A star behind a stem takes what follows the stem, if it is all one line. -/
theorem accepts_star_iff (stem rest : String) :
    accepts (stem ++ "*") (stem ++ rest) = true ↔ '\n' ∉ rest.toList := by
  have hglob : (stem ++ "*").toList.map token = stem.toList.map token ++ [.anyRun] := by
    simp [token]
  rw [accepts_iff, hglob, String.toList_append]
  constructor
  · intro h
    have hcount := h.count_breaks
    rw [List.count_append, List.count_append, count_breaks_token] at hcount
    exact List.count_eq_zero.mp (by simpa using hcount)
  · exact fun h => takes_append stem.toList (takes_line h)

end Text.Glob

/-! ## The patterns of a table -/

namespace TableName

variable {t : TableName} {key : String}

/-- The listing of a table shows the names of the records whose keys are one line. -/
theorem lists_recordKey_iff :
    Text.Glob.accepts (t.recordStem ++ "*") (t.recordKey key) = true ↔ '\n' ∉ key.toList :=
  Text.Glob.accepts_star_iff t.recordStem key

/-- The changes of a record can be heard of just if its key is one line. -/
theorem covers_iff : t.Covers key ↔ '\n' ∉ key.toList := by
  rw [Covers, changeChannel_eq]
  exact Text.Glob.accepts_star_iff t.keyspaceStem key

end TableName

end ControlBus
