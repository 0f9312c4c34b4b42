-- What a setting that is merged into a tree changes, and what it leaves alone. Names lose their
-- case on the way, those that a path spells out as well as those in a table that is merged.
import ControlBus.Config.Load
import ControlBus.Proofs.LetterCase
import ControlBus.Proofs.RecordMerge
import Mathlib.Data.List.TakeDrop

namespace ControlBus

/-! ## Names in lower case -/

namespace Text

/-- A text that is its own lower-case form, and so is any text of its characters. -/
def Lowered (s : String) : Prop := ∀ c ∈ s.toList, Settled c

theorem lowered_lowercase (s : String) : Lowered (lowercase s) := by
  intro c hc
  rw [lowercase, String.toList_ofList] at hc
  exact settled_lowerFrom [] s.toList c hc

theorem lowercase_of_lowered {s : String} (h : Lowered s) : lowercase s = s := by
  have hfixed : s.toList.map Char.toLower = s.toList := by
    rw [List.map_congr_left fun c hc => toLower_of_settled (h c hc), List.map_id']
  rw [lowercase, lowerFrom_of_settled, hfixed, String.ofList_toList]
  intro c hc
  rw [toLower_of_settled (h c hc)]
  exact h c hc

end Text

/-! ## Paths as steps -/

/-- A step of a path below its first key. -/
inductive PathStep where
  | child (name : String)
  | item (index : Int)
deriving Repr, DecidableEq

/-- Change what a step leads to. -/
def PathStep.change : PathStep → (Setting → Setting) → Setting → Setting
  | child name, f, v =>
    .table (Assoc.put v.entries name (f ((Assoc.get? v.entries name).getD .nothing)))
  | item index, f, v =>
    .list (SettingPath.atPosition (SettingPath.position index v.items.length) f v.items)

/-- A step takes what it starts from to a table with one name written anew, or to a list. -/
def PathStep.Writes (v v' : Setting) : PathStep → Prop
  | child name => ∃ a, v' = .table (Assoc.put v.entries name a)
  | item _ => ∃ items, v' = .list items

theorem PathStep.change_writes (step : PathStep) (f : Setting → Setting) (v : Setting) :
    step.Writes v (step.change f v) := by
  cases step <;> exact ⟨_, rfl⟩

/-! ## One setting in a tree -/

/-- What is written under a key of a table. -/
theorem Setting.assign_eq (name : String) (root value : Setting) :
    Setting.assign name root value = .table (Assoc.put root.entries (Text.lowercase name)
      (match value with
        | .table es =>
          assignAll es ((Assoc.get? root.entries (Text.lowercase name)).getD (.table []))
        | v => v)) := by
  cases value <;> simp only [Setting.assign]

namespace SettingPath

/-- The key that a path starts with. -/
def root : SettingPath → String
  | key name => name
  | child parent _ => parent.root
  | item parent _ => parent.root

def steps : SettingPath → List PathStep
  | key _ => []
  | child parent name => parent.steps ++ [.child name]
  | item parent index => parent.steps ++ [.item index]

theorem change_eq (p : SettingPath) (f : Setting → Setting) (v : Setting) :
    p.change f v = .table (Assoc.put v.entries p.root
      (p.steps.foldr PathStep.change f ((Assoc.get? v.entries p.root).getD .nothing))) := by
  induction p generalizing f with
  | key name => rfl
  | child parent name ih =>
    rw [steps, List.foldr_append]
    exact ih (PathStep.change (.child name) f)
  | item parent index ih =>
    rw [steps, List.foldr_append]
    exact ih (PathStep.change (.item index) f)

theorem eq_key {p : SettingPath} (h : p.steps = []) : p = key p.root := by
  cases p with
  | key name => rfl
  | child parent name => simp [steps] at h
  | item parent index => simp [steps] at h

/-- What is written further down only changes what the first step leads to. -/
theorem assign_writes {p : SettingPath} {step : PathStep} {rest : List PathStep}
    (h : p.steps = step :: rest) (hname : ∀ name, step = .child name → Text.lowercase name = name)
    (value root : Setting) :
    ∃ v, p.assign value root = .table (Assoc.put root.entries p.root v) ∧
      step.Writes ((Assoc.get? root.entries p.root).getD .nothing) v := by
  cases p with
  | key => cases h
  | child parent last =>
    rw [steps] at h
    refine ⟨_, change_eq .., ?_⟩
    cases hsteps : parent.steps with
    | nil =>
      rw [hsteps] at h
      obtain rfl : .child last = step := (List.cons.inj h).1
      have hwritten := Setting.assign_eq last ((Assoc.get? root.entries parent.root).getD .nothing)
        value
      rw [hname last rfl] at hwritten
      exact ⟨_, hwritten⟩
    | cons first more =>
      rw [hsteps] at h
      obtain rfl : first = step := (List.cons.inj h).1
      exact PathStep.change_writes ..
  | item parent last =>
    rw [steps] at h
    refine ⟨_, change_eq .., ?_⟩
    cases hsteps : parent.steps with
    | nil =>
      rw [hsteps] at h
      obtain rfl : .item last = step := (List.cons.inj h).1
      exact ⟨_, rfl⟩
    | cons first more =>
      rw [hsteps] at h
      obtain rfl : first = step := (List.cons.inj h).1
      exact PathStep.change_writes ..

/-! ## The names in a path -/

/-- All names in a path are in lower case. -/
def Lowered (p : SettingPath) : Prop :=
  Text.Lowered p.root ∧ ∀ name, .child name ∈ p.steps → Text.Lowered name

theorem name?_subset {cs rest : List Char} {name : String} (h : name? cs = some (name, rest)) :
    name.toList ⊆ cs ∧ rest ⊆ cs := by
  unfold name? at h
  rw [List.span_eq_takeWhile_dropWhile] at h
  split at h
  · cases h
  · rename_i taken rest' hne hspan
    obtain ⟨rfl, rfl⟩ := Prod.mk.inj hspan
    obtain ⟨rfl, rfl⟩ := Prod.mk.inj (Option.some.inj h)
    rw [String.toList_ofList]
    exact ⟨List.takeWhile_subset _, (List.dropWhile_suffix _).subset⟩

theorem spanDigits_subset (cs : List Char) : (Text.Binary64.spanDigits cs).2 ⊆ cs := by
  rw [Text.Binary64.spanDigits, List.span_eq_takeWhile_dropWhile]
  exact (List.dropWhile_suffix _).subset

theorem index?_subset {cs rest : List Char} {index : Int} (h : index? cs = some (index, rest)) :
    rest ⊆ cs := by
  have hblank : cs.dropWhile isBlank ⊆ cs := (List.dropWhile_suffix _).subset
  have hafter (digits : List Char) (hdigits : digits ⊆ cs) :
      (Text.Binary64.spanDigits digits).2.dropWhile isBlank ⊆ cs :=
    List.Subset.trans (List.dropWhile_suffix _).subset
      (List.Subset.trans (spanDigits_subset digits) hdigits)
  unfold index? at h
  dsimp only at h
  split at h
  · rename_i hbracket
    obtain ⟨_, -, hpair⟩ := Option.map_eq_some_iff.mp h
    obtain ⟨-, rfl⟩ := Prod.mk.inj hpair
    refine List.Subset.trans (List.subset_cons_self ']' _) ?_
    rw [← hbracket]
    -- The digits stand after the sign, if there is one.
    refine hafter _ ?_
    split
    · rename_i hminus
      rw [hminus] at hblank
      exact List.Subset.trans (List.subset_cons_self ..) hblank
    · exact hblank
  · cases h

theorem extend_lowered {bound : Nat} {p q : SettingPath} {cs : List Char}
    (h : extend bound p cs = some q) (hp : p.Lowered) (hcs : ∀ c ∈ cs, Text.Settled c) :
    q.Lowered := by
  fun_induction extend bound p cs with
  | case1 =>
    obtain rfl := Option.some.inj h
    exact hp
  | case2 => cases h
  | case3 bound parent rest ih =>
    obtain ⟨⟨name, rest'⟩, hname, hextend⟩ := Option.bind_eq_some_iff.mp h
    obtain ⟨hin, hrest⟩ := name?_subset hname
    refine ih name rest' hextend ⟨hp.1, fun other hother => ?_⟩ fun c hc =>
      hcs c (List.mem_cons_of_mem _ (hrest hc))
    rcases List.mem_append.mp hother with hother | hother
    · exact hp.2 other hother
    · obtain rfl : other = name := by simpa using hother
      exact fun c hc => hcs c (List.mem_cons_of_mem _ (hin hc))
  | case4 bound parent rest ih =>
    obtain ⟨⟨index, rest'⟩, hindex, hextend⟩ := Option.bind_eq_some_iff.mp h
    refine ih index rest' hextend ⟨hp.1, fun other hother => hp.2 other ?_⟩ fun c hc =>
      hcs c (List.mem_cons_of_mem _ (index?_subset hindex hc))
    simpa [steps] using hother
  | case5 => cases h

theorem ofText_lowered (s : String) : (ofText s).Lowered := by
  have hs := Text.lowered_lowercase s
  have hkey : (key (Text.lowercase s)).Lowered := ⟨hs, fun _ hname => nomatch hname⟩
  unfold ofText
  dsimp only
  cases hname : name? (Text.lowercase s).toList with
  | none => exact hkey
  | some taken =>
    obtain ⟨hin, hrest⟩ := name?_subset hname
    cases hextend : extend taken.2.length (key taken.1) taken.2 with
    | none =>
      change ((extend taken.2.length (key taken.1) taken.2).getD _).Lowered
      rw [hextend]
      exact hkey
    | some p =>
      change ((extend taken.2.length (key taken.1) taken.2).getD _).Lowered
      rw [hextend]
      exact extend_lowered hextend ⟨fun c hc => hs c (hin hc), fun _ h => nomatch h⟩
        fun c hc => hs c (hrest hc)

end SettingPath

/-! ## Tables that are merged -/

namespace Setting

variable {k : String}

theorem mem_keys_assign {name : String} {root value : Setting} :
    k ∈ Assoc.keys (assign name root value).entries ↔
      k ∈ Assoc.keys root.entries ∨ k = Text.lowercase name := by
  rw [assign_eq]
  exact Assoc.mem_keys_put

theorem get?_assign_of_ne {name : String} (h : Text.lowercase name ≠ k) (root value : Setting) :
    Assoc.get? (assign name root value).entries k = Assoc.get? root.entries k := by
  rw [assign_eq]
  exact Assoc.get?_put_of_ne root.entries _ h

theorem assignAll_append (es es' : List (String × Setting)) (target : Setting) :
    assignAll (es ++ es') target = assignAll es' (assignAll es target) := by
  induction es generalizing target with
  | nil => simp only [List.nil_append, assignAll]
  | cons e rest ih => simp only [List.cons_append, assignAll, ih]

theorem mem_keys_assignAll {es : List (String × Setting)} {target : Setting} :
    k ∈ Assoc.keys (assignAll es target).entries ↔
      k ∈ Assoc.keys target.entries ∨ ∃ e ∈ es, k = Text.lowercase e.1 := by
  induction es generalizing target with
  | nil => simp [assignAll]
  | cons e rest ih =>
    rw [assignAll, ih, mem_keys_assign, or_assoc]
    simp only [List.mem_cons, exists_eq_or_imp]

theorem get?_assignAll_of_ne {es : List (String × Setting)}
    (h : ∀ e ∈ es, Text.lowercase e.1 ≠ k) (target : Setting) :
    Assoc.get? (assignAll es target).entries k = Assoc.get? target.entries k := by
  induction es generalizing target with
  | nil => rw [assignAll]
  | cons e rest ih =>
    rw [assignAll, ih fun e' he' => h e' (List.mem_cons_of_mem e he'),
      get?_assign_of_ne (h e List.mem_cons_self)]

/-- Of what a table is merged into only the entries matter. -/
theorem entries_assignAll_congr (es : List (String × Setting)) {target target' : Setting}
    (h : target.entries = target'.entries) :
    (assignAll es target).entries = (assignAll es target').entries := by
  cases es with
  | nil =>
    rw [assignAll, assignAll]
    exact h
  | cons e rest => rw [assignAll, assignAll, assign_eq, assign_eq, h]

theorem assignAll_cases (es : List (String × Setting)) (target : Setting) :
    assignAll es target = target ∨ ∃ entries, assignAll es target = .table entries := by
  induction es generalizing target with
  | nil => exact .inl (by rw [assignAll])
  | cons e rest ih =>
    right
    rw [assignAll, assign_eq]
    rcases ih (.table _) with hsame | htable
    · exact ⟨_, hsame⟩
    · exact htable

/-- What is found under a name after a merge is a table, or comes from one of the two sides. -/
theorem get?_assignAll_cases {es : List (String × Setting)} {target v : Setting}
    (h : Assoc.get? (assignAll es target).entries k = some v) :
    (∃ entries, v = .table entries) ∨ (∃ e ∈ es, Text.lowercase e.1 = k ∧ e.2 = v) ∨
      Assoc.get? target.entries k = some v := by
  induction es generalizing target with
  | nil =>
    rw [assignAll] at h
    exact .inr (.inr h)
  | cons e rest ih =>
    rw [assignAll] at h
    rcases ih h with htable | ⟨e', he', hin⟩ | hwritten
    · exact .inl htable
    · exact .inr (.inl ⟨e', List.mem_cons_of_mem e he', hin⟩)
    by_cases hk : Text.lowercase e.1 = k
    · rw [assign_eq, hk, entries, Assoc.get?_put_self] at hwritten
      obtain rfl := Option.some.inj hwritten
      cases he : e.2 with
      | table es' =>
        dsimp only
        rcases assignAll_cases es' ((Assoc.get? target.entries k).getD (table [])) with hs | ht
        · rw [hs]
          cases hget : Assoc.get? target.entries k with
          | none => exact .inl ⟨[], rfl⟩
          | some old => exact .inr (.inr rfl)
        · exact .inl ht
      | nothing | flag | whole | decimal | text | list =>
        exact .inr (.inl ⟨e, List.mem_cons_self, hk, he⟩)
    · rw [get?_assign_of_ne hk] at hwritten
      exact .inr (.inr hwritten)

end Setting

end ControlBus
