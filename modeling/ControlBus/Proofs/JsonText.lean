-- What the writer of the interchange format writes, the reader reads back, whatever text
-- follows: strings of any characters, and the arrays and objects that are built from them.
import ControlBus.Json.Reader

namespace ControlBus.Json

/-! ## Strings -/

/-- The unit that the reader finds for a written character. -/
def writtenUnit (c : Char) : StringUnit :=
  if c.toNat < 32 ∧ c ≠ '\x08' ∧ c ≠ '\x0c' ∧ c ≠ '\n' ∧ c ≠ '\r' ∧ c ≠ '\t' then .code c.toNat
  else .plain c

/-- The four digits of an escaped control character give its code. -/
theorem natural_controlDigits {n : Nat} (h : n < 32) :
    Text.natural? 16 ['0', '0', Nat.digitChar (n / 16), Nat.digitChar (n % 16)] = some n := by
  revert n
  decide

theorem stringUnits_plain {c : Char} (hquote : c ≠ '"') (hslash : c ≠ '\\') (h : ¬ c.toNat < 32)
    (rest : List Char) :
    stringUnits (c :: rest) = (stringUnits rest).map fun r => (.plain c :: r.1, r.2) := by
  rw [stringUnits.eq_def]
  simp only [hquote, hslash, h, if_false]
  cases stringUnits rest <;> rfl

theorem stringUnits_escape {e c : Char} (hu : e ≠ 'u') (h : shortEscape? e = some c)
    (rest : List Char) :
    stringUnits ('\\' :: e :: rest) =
      (stringUnits rest).map fun r => (.plain c :: r.1, r.2) := by
  rw [stringUnits.eq_def]
  simp only [hu, h, if_false, if_true]
  cases stringUnits rest <;> rfl

theorem stringUnits_code {a b c d : Char} {n : Nat} (h : Text.natural? 16 [a, b, c, d] = some n)
    (rest : List Char) :
    stringUnits ('\\' :: 'u' :: a :: b :: c :: d :: rest) =
      (stringUnits rest).map fun r => (.code n :: r.1, r.2) := by
  rw [stringUnits.eq_def]
  simp only [h, if_true]
  cases stringUnits rest <;> rfl

theorem stringUnits_writtenChar (c : Char) (rest : List Char) :
    stringUnits (writtenChar c ++ rest) =
      (stringUnits rest).map fun r => (writtenUnit c :: r.1, r.2) := by
  by_cases hshort : c = '"' ∨ c = '\\' ∨ c = '\x08' ∨ c = '\x0c' ∨ c = '\n' ∨ c = '\r' ∨ c = '\t'
  · rcases hshort with rfl | rfl | rfl | rfl | rfl | rfl | rfl <;>
      exact stringUnits_escape (by decide) rfl rest
  · simp only [not_or] at hshort
    obtain ⟨hquote, hslash, hb, hf, hn, hr, ht⟩ := hshort
    simp only [writtenChar, writtenUnit, hquote, hslash, hb, hf, hn, hr, ht, if_false,
      ne_eq, not_false_eq_true, and_true]
    by_cases hcontrol : c.toNat < 32
    · simp only [hcontrol, if_true]
      exact stringUnits_code (natural_controlDigits hcontrol) rest
    · simp only [hcontrol, if_false]
      exact stringUnits_plain hquote hslash hcontrol rest

theorem stringUnits_written (cs rest : List Char) :
    stringUnits (cs.flatMap writtenChar ++ '"' :: rest) = some (cs.map writtenUnit, rest) := by
  induction cs with
  | nil =>
    rw [List.flatMap_nil, List.nil_append, stringUnits.eq_def]
    rfl
  | cons c cs ih =>
    rw [List.flatMap_cons, List.append_assoc, stringUnits_writtenChar, ih]
    rfl

theorem unitsText_written (cs : List Char) : unitsText (cs.map writtenUnit) = some cs := by
  induction cs with
  | nil => rfl
  | cons c cs ih =>
    rw [List.map_cons, writtenUnit]
    split
    · rename_i hc
      have hhigh : isHighSurrogate c.toNat = false := by
        simp only [isHighSurrogate, Bool.and_eq_false_iff, decide_eq_false_iff_not]
        omega
      have hlow : isLowSurrogate c.toNat = false := by
        simp only [isLowSurrogate, Bool.and_eq_false_iff, decide_eq_false_iff_not]
        omega
      rw [unitsText.eq_def]
      simp [hhigh, hlow, ih]
    · rw [unitsText.eq_def]
      simp [ih]

/-- A string is read back up to its closing quote. -/
theorem readString_written (s : String) (rest : List Char) :
    readString (s.toList.flatMap writtenChar ++ '"' :: rest) = some (some s, rest) := by
  simp [readString, stringUnits_written, unitsText_written]

/-! ## Values -/

/-- A text from which the reader takes a value and not a character more. -/
structure Reads (v : Json) (cs : List Char) : Prop where
  start : ∃ c tail, cs = c :: tail ∧ isBlank c = false ∧ c ≠ ']'
  read : ∀ fuel rest, cs.length ≤ fuel → readValue fuel (cs ++ rest) = some (v, rest)

theorem skipBlank_cons {c : Char} (h : isBlank c = false) (rest : List Char) :
    skipBlank (c :: rest) = c :: rest := by
  simp [skipBlank, h]

theorem reads_written (s : String) : Reads (string (some s)) (written s) where
  start := ⟨'"', _, rfl, rfl, by decide⟩
  read fuel rest h := by
    obtain ⟨fuel, rfl⟩ : ∃ n, fuel = n + 1 := ⟨fuel - 1, by simp [written] at h; omega⟩
    have hw : written s ++ rest = '"' :: (s.toList.flatMap writtenChar ++ '"' :: rest) := by
      simp [written]
    rw [hw, readValue, skipBlank_cons rfl]
    simp [readString_written]

/-! ## Arrays -/

theorem separated_cons (x : List Char) {rest : List (List Char)} (h : rest ≠ []) :
    separated (x :: rest) = x ++ ',' :: separated rest := by
  cases rest with
  | nil => exact absurd rfl h
  | cons y ys => rfl

/-- Items with their texts, up to the closing bracket. -/
theorem readItems_separated (items : List (Json × List Char)) (hne : items ≠ [])
    (h : ∀ p ∈ items, Reads p.1 p.2) (first : Bool) (fuel : Nat) (rest : List Char)
    (hf : (separated (items.map (·.2))).length < fuel) :
    readItems fuel first (separated (items.map (·.2)) ++ ']' :: rest) =
      some (items.map (·.1), rest) := by
  induction items generalizing first fuel with
  | nil => exact absurd rfl hne
  | cons p items ih =>
    obtain ⟨fuel, rfl⟩ : ∃ n, fuel = n + 1 := ⟨fuel - 1, by omega⟩
    obtain ⟨⟨c, tail, hc, hblank, hclose⟩, hread⟩ := h p List.mem_cons_self
    by_cases hnil : items = []
    · subst hnil
      simp only [List.map_cons, List.map_nil, separated] at hf ⊢
      have hr := hread fuel (']' :: rest) (by omega)
      rw [hc, List.cons_append] at hr ⊢
      rw [readItems, skipBlank_cons hblank]
      simp [hclose, hr, skipBlank_cons (c := ']') rfl]
    · have hnil' : items.map (·.2) ≠ [] := by simpa using hnil
      simp only [List.map_cons, separated_cons p.2 hnil', List.append_assoc,
        List.cons_append, List.length_append, List.length_cons] at hf ⊢
      have hr := hread fuel (',' :: (separated (items.map (·.2)) ++ ']' :: rest)) (by omega)
      have hrest := ih hnil (fun q hq => h q (List.mem_cons_of_mem p hq)) false fuel (by omega)
      rw [hc, List.cons_append] at hr ⊢
      rw [readItems, skipBlank_cons hblank]
      simp [hclose, hr, skipBlank_cons (c := ',') rfl, hrest]

theorem reads_array (items : List (Json × List Char)) (h : ∀ p ∈ items, Reads p.1 p.2) :
    Reads (array (items.map (·.1))) ('[' :: separated (items.map (·.2)) ++ [']']) where
  start := ⟨'[', _, rfl, rfl, by decide⟩
  read fuel rest hf := by
    simp only [List.cons_append, List.append_assoc, List.nil_append, List.length_cons,
      List.length_append, List.length_nil] at hf ⊢
    obtain ⟨fuel, rfl⟩ : ∃ n, fuel = n + 1 := ⟨fuel - 1, by omega⟩
    have hitems : readItems fuel true (separated (items.map (·.2)) ++ ']' :: rest) =
        some (items.map (·.1), rest) := by
      by_cases hnil : items = []
      · subst hnil
        obtain ⟨fuel, rfl⟩ : ∃ n, fuel = n + 1 := ⟨fuel - 1, by omega⟩
        simp [separated, readItems, skipBlank_cons (c := ']') rfl]
      · exact readItems_separated items hnil h true fuel rest (by omega)
    rw [readValue, skipBlank_cons rfl]
    simp [hitems]

/-! ## Objects -/

/-- The text of a member. -/
def writtenMember (name : String) (text : List Char) : List Char := written name ++ ':' :: text

/-- Members with their names and texts, up to the closing brace. -/
theorem readMembers_separated (members : List (String × Json × List Char)) (hne : members ≠ [])
    (h : ∀ m ∈ members, Reads m.2.1 m.2.2) (first : Bool) (fuel : Nat) (rest : List Char)
    (hf : (separated (members.map fun m => writtenMember m.1 m.2.2)).length < fuel) :
    readMembers fuel first
        (separated (members.map fun m => writtenMember m.1 m.2.2) ++ '\x7d' :: rest) =
      some (members.map fun m => (some m.1, m.2.1), rest) := by
  induction members generalizing first fuel with
  | nil => exact absurd rfl hne
  | cons m members ih =>
    obtain ⟨fuel, rfl⟩ : ∃ n, fuel = n + 1 := ⟨fuel - 1, by omega⟩
    obtain ⟨name, value, text⟩ := m
    have hread := (h _ List.mem_cons_self).read
    have hmember : ∀ more, writtenMember name text ++ more =
        '"' :: (name.toList.flatMap writtenChar ++ '"' :: ':' :: (text ++ more)) := by
      simp [writtenMember, written]
    by_cases hnil : members = []
    · subst hnil
      simp only [List.map_cons, List.map_nil, separated] at hf ⊢
      have hlen : text.length ≤ fuel := by
        simp [writtenMember] at hf
        omega
      rw [hmember, readMembers, skipBlank_cons rfl]
      simp [readString_written, skipBlank_cons (c := ':') rfl, expect, hread _ _ hlen,
        skipBlank_cons (c := '\x7d') rfl]
    · have hnil' : (members.map fun m => writtenMember m.1 m.2.2) ≠ [] := by simpa using hnil
      simp only [List.map_cons, separated_cons (writtenMember name text) hnil',
        List.append_assoc, List.cons_append, List.length_append, List.length_cons] at hf ⊢
      have hlen : text.length ≤ fuel := by
        simp [writtenMember] at hf
        omega
      have hrest := ih hnil (fun q hq => h q (List.mem_cons_of_mem _ hq)) false fuel (by omega)
      rw [hmember, readMembers, skipBlank_cons rfl]
      simp [readString_written, skipBlank_cons (c := ':') rfl, expect, hread _ _ hlen,
        skipBlank_cons (c := ',') rfl, hrest]

theorem reads_object {members : List (String × Json × List Char)} (hne : members ≠ [])
    (h : ∀ m ∈ members, Reads m.2.1 m.2.2) :
    Reads (object (members.map fun m => (some m.1, m.2.1)))
      ('\x7b' :: separated (members.map fun m => writtenMember m.1 m.2.2) ++ ['\x7d']) where
  start := ⟨'\x7b', _, rfl, rfl, by decide⟩
  read fuel rest hf := by
    simp only [List.cons_append, List.append_assoc, List.nil_append, List.length_cons,
      List.length_append, List.length_nil] at hf ⊢
    obtain ⟨fuel, rfl⟩ : ∃ n, fuel = n + 1 := ⟨fuel - 1, by omega⟩
    rw [readValue, skipBlank_cons rfl]
    simp [readMembers_separated members hne h true fuel rest (by omega)]

/-! ## Whole texts -/

theorem ofChars_of_reads {v : Json} {cs : List Char} (h : Reads v cs) : ofChars? cs = some v := by
  have hread := h.read (2 * cs.length + 2) [] (by omega)
  rw [List.append_nil] at hread
  rw [ofChars?, hread]
  rfl

end ControlBus.Json
