-- Lower case. A text in lower case has nothing left to change, and it is the lower-case form of
-- every text that has the same letters up to the case of a to z.
import ControlBus.Text.Lowercase

namespace ControlBus.Text

/-! ## The letters a to z -/

theorem toLower_cases (c : Char) :
    c.toLower = c ∨ (65 ≤ c.toNat ∧ c.toNat ≤ 90) ∧ c.toLower.toNat = c.toNat + 32 := by
  by_cases h : c.val ≥ 'A'.val ∧ c.val ≤ 'Z'.val
  · have hval : c.toLower.val = c.val + 32 := congrArg Char.val (dif_pos h)
    have hle : c.toNat ≤ 90 := h.2
    refine .inr ⟨⟨h.1, hle⟩, ?_⟩
    change c.toLower.val.toNat = c.toNat + 32
    rw [hval, UInt32.toNat_add]
    exact Nat.mod_eq_of_lt (by change c.toNat + 32 < 2 ^ 32; omega)
  · exact .inl (dif_neg h)

/-- Whether this is the number of one of the letters a to z, in either case. -/
def IsLetter (n : Nat) : Prop := 65 ≤ n ∧ n ≤ 90 ∨ 97 ≤ n ∧ n ≤ 122

theorem cased_letter {c : Char} (h : IsLetter c.toNat) : inRanges casedRanges c = true := by
  rcases h with h | h
  · exact List.any_eq_true.mpr ⟨(65, 90), List.mem_cons_self, by simpa using h⟩
  · exact List.any_eq_true.mpr
      ⟨(97, 122), List.mem_cons_of_mem _ List.mem_cons_self, by simpa using h⟩

theorem caseIgnorable_letter {c : Char} (h : IsLetter c.toNat) :
    inRanges caseIgnorableRanges c = false := by
  have hapart : ∀ r ∈ caseIgnorableRanges, r.2 < 65 ∨ (90 < r.1 ∧ r.2 < 97) ∨ 122 < r.1 := by
    decide +kernel
  refine List.any_eq_false.mpr fun r hr => ?_
  have hr := hapart r hr
  unfold IsLetter at h
  simp only [Bool.and_eq_true, decide_eq_true_eq]
  omega

theorem inRanges_toLower {ranges : List (Nat × Nat)} {b : Bool}
    (h : ∀ c : Char, IsLetter c.toNat → inRanges ranges c = b) (c : Char) :
    inRanges ranges c.toLower = inRanges ranges c := by
  rcases toLower_cases c with hsame | ⟨hupper, hlower⟩
  · rw [hsame]
  · rw [h c (.inl hupper), h c.toLower (.inr (by omega))]

theorem casedNext_map_toLower (cs : List Char) :
    casedNext (cs.map Char.toLower) = casedNext cs := by
  induction cs with
  | nil => rfl
  | cons c rest ih =>
    unfold casedNext at ih ⊢
    rw [List.map_cons, List.dropWhile_cons, List.dropWhile_cons,
      inRanges_toLower fun _ => caseIgnorable_letter]
    by_cases hskip : inRanges caseIgnorableRanges c = true
    · rw [if_pos hskip, if_pos hskip]
      exact ih
    · rw [if_neg hskip, if_neg hskip]
      exact inRanges_toLower (fun _ => cased_letter) c

theorem toLower_toLower (c : Char) : c.toLower.toLower = c.toLower := by
  rcases toLower_cases c with hsame | ⟨hupper, hlower⟩
  · rw [hsame, hsame]
  · rcases toLower_cases c.toLower with hsame | ⟨hupper', -⟩
    · exact hsame
    · omega

theorem lowerChar_toLower (c : Char) : lowerChar c.toLower = lowerChar c := by
  rcases toLower_cases c with hsame | ⟨hupper, hlower⟩
  · rw [hsame]
  · rw [lowerChar, lowerChar, if_pos (by omega), if_pos (by omega), toLower_toLower]

theorem toNat_toLower_eq_sigma (c : Char) : c.toLower.toNat = 0x3A3 ↔ c.toNat = 0x3A3 := by
  rcases toLower_cases c with hsame | ⟨hupper, hlower⟩
  · rw [hsame]
  · omega

theorem lowerFrom_map_toLower (before cs : List Char) :
    lowerFrom (before.map Char.toLower) (cs.map Char.toLower) = lowerFrom before cs := by
  induction cs generalizing before with
  | nil => rfl
  | cons c rest ih =>
    simp only [List.map_cons, lowerFrom, toNat_toLower_eq_sigma, casedNext_map_toLower,
      lowerChar_toLower, ← ih (c :: before)]

/-- The case of the letters a to z does not show in the lower-case form. -/
theorem lowercase_congr {a b : String} (h : sameIgnoringAsciiCase a b) :
    lowercase a = lowercase b := by
  have hsame : a.toList.map Char.toLower = b.toList.map Char.toLower := of_decide_eq_true h
  have ha := lowerFrom_map_toLower [] a.toList
  have hb := lowerFrom_map_toLower [] b.toList
  rw [hsame] at ha
  rw [lowercase, lowercase, ← ha, ← hb]

/-! ## Characters in lower case -/

/-- A character that is its own lower-case form, wherever it stands. -/
def Settled (c : Char) : Prop := c.toNat ≠ 0x3A3 ∧ lowerChar c = [c]

instance (c : Char) : Decidable (Settled c) := inferInstanceAs (Decidable (_ ∧ _))

/-- A run of upper-case code points has this one. -/
def InRun (r : Nat × Nat × Nat × Int) (n : Nat) : Prop :=
  r.1 ≤ n ∧ n ≤ r.2.1 ∧ (n - r.1) % r.2.2.1 = 0

instance (r : Nat × Nat × Nat × Int) (n : Nat) : Decidable (InRun r n) :=
  inferInstanceAs (Decidable (_ ∧ _ ∧ _))

theorem toNat_ofNat {n : Nat} (h : n.isValidChar) : (Char.ofNat n).toNat = n := by
  rw [Char.ofNat, dif_pos h]
  rfl

theorem settled_of_no_run {n : Nat} (hvalid : n.isValidChar) (hdotted : n ≠ 0x130)
    (h : ∀ r ∈ lowerRuns, ¬ InRun r n) : Settled (Char.ofNat n) := by
  have hn := toNat_ofNat hvalid
  have hletters : ¬ InRun (65, 90, 1, 32) n := h _ List.mem_cons_self
  have hgreek : ¬ InRun (931, 939, 1, 32) n := h _ (by decide)
  simp only [InRun, Nat.mod_one, and_true] at hletters hgreek
  refine ⟨by omega, ?_⟩
  rw [lowerChar, hn, if_neg hdotted]
  split
  · rcases toLower_cases (Char.ofNat n) with hsame | ⟨hupper, -⟩
    · rw [hsame]
    · omega
  · rw [List.find?_eq_none.mpr]
    intro r hr
    have hr := h r hr
    simpa [InRun, and_assoc] using hr

/-- Where the lower-case forms of a run begin. -/
def formStart (r : Nat × Nat × Nat × Int) : Nat := (r.1 + r.2.2.2).toNat

/-- Nothing that the lower-case forms of one run are is in another run. -/
def apart (r r' : Nat × Nat × Nat × Int) : Bool :=
  Nat.blt (formStart r + (r.2.1 - r.1)) r'.1 || Nat.blt r'.2.1 (formStart r) ||
    Nat.beq r'.2.2.1 2 && Nat.beq ((formStart r + r'.1) % 2) 1 &&
      (Nat.beq r.2.2.1 2 || Nat.beq r.1 r.2.1)

theorem runs_apart : (lowerRuns.all fun r => lowerRuns.all (apart r)) = true := by
  decide +kernel

theorem forms_valid : ∀ r ∈ lowerRuns, 0 ≤ (r.1 : Int) + r.2.2.2 ∧
    (formStart r + (r.2.1 - r.1) < 0xD800 ∨
      0xDFFF < formStart r ∧ formStart r + (r.2.1 - r.1) < 0x110000) ∧
    (formStart r + (r.2.1 - r.1) < 0x130 ∨ 0x130 < formStart r) := by
  decide +kernel

theorem settled_form {r : Nat × Nat × Nat × Int} (hr : r ∈ lowerRuns) {n : Nat} (hn : InRun r n) :
    Settled (Char.ofNat (n + r.2.2.2).toNat) := by
  obtain ⟨hstart, hvalid, hdotted⟩ := forms_valid r hr
  obtain ⟨hlo, hhi, hstep⟩ := hn
  have hform : ((n : Int) + r.2.2.2).toNat = formStart r + (n - r.1) := by
    unfold formStart
    omega
  rw [hform]
  refine settled_of_no_run (by unfold Nat.isValidChar; omega) (by omega) fun r' hr' hin => ?_
  obtain ⟨hlo', hhi', hstep'⟩ := hin
  have hapart := List.all_eq_true.mp (List.all_eq_true.mp runs_apart r hr) r' hr'
  simp only [apart, Bool.or_eq_true, Bool.and_eq_true, Nat.blt_eq, Nat.beq_eq] at hapart
  rcases hapart with (hbelow | habove) | ⟨⟨htwo, hodd⟩, hevery⟩
  · omega
  · omega
  · rw [htwo] at hstep'
    rcases hevery with hevery | hsingle
    · rw [hevery] at hstep
      omega
    · omega

/-- The letter i, the dot above, and both small sigmas. -/
theorem settled_special : ∀ n ∈ [0x69, 0x307, 0x3C2, 0x3C3], Settled (Char.ofNat n) := by
  have hvalid : ∀ n ∈ [0x69, 0x307, 0x3C2, 0x3C3], n.isValidChar ∧ n ≠ 0x130 := by decide
  have hnone : ∀ r ∈ lowerRuns, ∀ n ∈ [0x69, 0x307, 0x3C2, 0x3C3], ¬ InRun r n := by
    decide +kernel
  exact fun n hn => settled_of_no_run (hvalid n hn).1 (hvalid n hn).2 fun r hr => hnone r hr n hn

theorem settled_lowerChar {c : Char} (h : c.toNat ≠ 0x3A3) : ∀ d ∈ lowerChar c, Settled d := by
  intro d hd
  unfold lowerChar at hd
  by_cases hascii : c.toNat < 128
  · rw [if_pos hascii] at hd
    obtain rfl := List.mem_singleton.mp hd
    refine ⟨fun hsigma => h ((toNat_toLower_eq_sigma c).mp hsigma), ?_⟩
    rw [lowerChar_toLower, lowerChar, if_pos hascii]
  by_cases hdotted : c.toNat = 0x130
  · rw [if_neg hascii, if_pos hdotted] at hd
    simp only [List.mem_cons, List.not_mem_nil, or_false] at hd
    rcases hd with rfl | rfl
    · exact settled_special 0x69 (by decide)
    · exact settled_special 0x307 (by decide)
  rw [if_neg hascii, if_neg hdotted] at hd
  split at hd
  · rename_i r hr
    obtain rfl := List.mem_singleton.mp hd
    have hin := List.find?_some hr
    exact settled_form (List.mem_of_find?_eq_some hr) (by simpa [InRun, and_assoc] using hin)
  · rename_i hnone
    obtain rfl := List.mem_singleton.mp hd
    exact ⟨h, by rw [lowerChar, if_neg hascii, if_neg hdotted, hnone]⟩

theorem settled_lowerFrom (before cs : List Char) : ∀ d ∈ lowerFrom before cs, Settled d := by
  induction cs generalizing before with
  | nil =>
    intro d hd
    cases hd
  | cons c rest ih =>
    intro d hd
    rcases List.mem_append.mp hd with hd | hd
    · by_cases hc : c.toNat = 0x3A3
      · rw [if_pos hc] at hd
        split at hd
        · obtain rfl := List.mem_singleton.mp hd
          exact settled_special 0x3C2 (by decide)
        · obtain rfl := List.mem_singleton.mp hd
          exact settled_special 0x3C3 (by decide)
      · rw [if_neg hc] at hd
        exact settled_lowerChar hc d hd
    · exact ih (c :: before) d hd

/-- Nothing is left to change in a settled text but the case of the letters a to z. -/
theorem lowerFrom_of_settled {cs : List Char} (h : ∀ c ∈ cs, Settled c.toLower)
    (before : List Char) : lowerFrom before cs = cs.map Char.toLower := by
  induction cs generalizing before with
  | nil => rfl
  | cons c rest ih =>
    obtain ⟨hsigma, hform⟩ := h c List.mem_cons_self
    rw [lowerFrom, if_neg (mt (toNat_toLower_eq_sigma c).mpr hsigma), ← lowerChar_toLower, hform,
      ih fun d hd => h d (List.mem_cons_of_mem c hd)]
    rfl

theorem toLower_of_settled {c : Char} (h : Settled c) : c.toLower = c := by
  rcases toLower_cases c with hsame | ⟨hupper, -⟩
  · exact hsame
  · have hform := h.2
    rw [lowerChar, if_pos (by omega)] at hform
    exact (List.cons.inj hform).1

/-- A text has for its lower-case form every such form that it is the same as up to the case of a
to z. -/
theorem lowercase_of_same {a b : String} (h : sameIgnoringAsciiCase (lowercase a) b) :
    lowercase b = lowercase a := by
  have hsame : (lowercase a).toList.map Char.toLower = b.toList.map Char.toLower :=
    of_decide_eq_true h
  have hsettled : ∀ c ∈ (lowercase a).toList, Settled c := by
    rw [lowercase, String.toList_ofList]
    exact settled_lowerFrom [] a.toList
  have hfixed : (lowercase a).toList.map Char.toLower = (lowercase a).toList := by
    rw [List.map_congr_left fun c hc => toLower_of_settled (hsettled c hc), List.map_id']
  rw [hfixed] at hsame
  rw [lowercase, lowerFrom_of_settled, ← hsame, String.ofList_toList]
  intro c hc
  have hmem := List.mem_map_of_mem (f := Char.toLower) hc
  rw [← hsame] at hmem
  exact hsettled _ hmem

theorem lowercase_lowercase (s : String) : lowercase (lowercase s) = lowercase s :=
  lowercase_of_same (decide_eq_true rfl)

end ControlBus.Text
