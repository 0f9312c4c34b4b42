-- Globs and the texts that they match. A text matches if it can be cut into pieces, one for each
-- character of the glob. The same is asked for by the regular expression that a glob is written
-- out as, whatever characters are in the glob: it can always be read, and nothing in it is taken
-- for an operator that was a plain character before.
import ControlBus.Proofs.Globs
import ControlBus.Proofs.KeySearch
import Mathlib.Data.List.Forall2
import Mathlib.Data.List.TakeWhile

namespace ControlBus.Text

/-! ## Regular expressions -/

/-- What one place of a regular expression asks for. -/
inductive Atom where
  | start
  | stop
  /-- Any one character but a line break. -/
  | any
  | literal (c : Char)
deriving Repr, DecidableEq

/-- An atom that is to be found once, or any number of times in a row. -/
inductive Term where
  | once (a : Atom)
  | many (a : Atom)
deriving Repr, DecidableEq

/-- Whether a character means something else than itself unless a backslash stands before it. -/
def isMeta (c : Char) : Bool :=
  ['\\', '.', '+', '*', '?', '(', ')', '|', '[', ']', '\x7b', '\x7d', '^', '$', '#', '&', '-',
    '~'].contains c

namespace Expression

/-- A reader of expressions between two characters. -/
structure Reader where
  terms : List Term := []
  /-- Whether the last character was a backslash that is not escaped itself. -/
  escaping : Bool := false
deriving Repr, DecidableEq

namespace Reader

def push (t : Term) (r : Reader) : Reader := { terms := r.terms ++ [t] }

/-- Read one character. Of the operators only the anchors, the dot and the star are known. -/
def next (r : Reader) (c : Char) : Option Reader :=
  if r.escaping then
    if isMeta c then some (r.push (.once (.literal c))) else none
  else if c = '\\' then some { r with escaping := true }
  else if c = '^' then some (r.push (.once .start))
  else if c = '$' then some (r.push (.once .stop))
  else if c = '.' then some (r.push (.once .any))
  else if c = '*' then
    match r.terms.getLast? with
    | some (.once a) => some { terms := r.terms.dropLast ++ [.many a] }
    | _ => none
  else if isMeta c then none
  else some (r.push (.once (.literal c)))

end Reader

/-- Read an expression that has no operators but those known. -/
def read (text : List Char) : Option (List Term) :=
  match text.foldlM Reader.next {} with
  | some r => if r.escaping then none else some r.terms
  | none => none

/-! ## Finding an expression in a text -/

/-- An atom takes a piece of a text, given what comes before it and what comes behind it. -/
def AtomTakes (before piece behind : List Char) : Atom → Prop
  | .start => piece = [] ∧ before = []
  | .stop => piece = [] ∧ behind = []
  | .any => ∃ c, c ≠ '\n' ∧ piece = [c]
  | .literal c => piece = [c]

/-- Terms take a piece of a text, each its own part of it and in order. -/
inductive Takes : List Term → List Char → List Char → List Char → Prop where
  | nothing {before behind : List Char} : Takes [] before [] behind
  | once {a : Atom} {rest : List Term} {before first more behind : List Char} :
      AtomTakes before first (more ++ behind) a → Takes rest (before ++ first) more behind →
      Takes (.once a :: rest) before (first ++ more) behind
  | enough {a : Atom} {rest : List Term} {before piece behind : List Char} :
      Takes rest before piece behind → Takes (.many a :: rest) before piece behind
  | again {a : Atom} {rest : List Term} {before first more behind : List Char} :
      AtomTakes before first (more ++ behind) a →
      Takes (.many a :: rest) (before ++ first) more behind →
      Takes (.many a :: rest) before (first ++ more) behind

/-- Somewhere in a text there is a piece that terms take. -/
def FoundIn (terms : List Term) (text : List Char) : Prop :=
  ∃ before piece behind, text = before ++ (piece ++ behind) ∧ Takes terms before piece behind

end Expression

/-! ## A glob written out -/

namespace Glob

/-- What a character of a glob is written out as. -/
def written (c : Char) : List Char :=
  if c = '*' then ['.', '*']
  else if c = '?' then ['.']
  else if isMeta c then ['\\', c]
  else [c]

/-- The regular expression of a glob, from the start of a text to its end. -/
def expression (glob : String) : String :=
  String.ofList ('^' :: (glob.toList.flatMap written ++ ['$']))

/-- What is asked for at a place of a glob. -/
def term : GlobToken → Term
  | .anyRun => .many .any
  | .anyOne => .once .any
  | .exactly c => .once (.literal c)

variable {p : List GlobToken} {text : List Char}

/-- A character that is written out is read as the place that it stands for. -/
theorem read_written (c : Char) (terms : List Term) :
    (written c).foldlM Expression.Reader.next { terms } =
      some { terms := terms ++ [term (token c)] } := by
  unfold written token
  by_cases hstar : c = '*'
  · subst hstar
    simp [Expression.Reader.next, Expression.Reader.push, term]
  · by_cases hmark : c = '?'
    · subst hmark
      simp [Expression.Reader.next, Expression.Reader.push, term]
    · by_cases hmeta : isMeta c = true
      · simp [Expression.Reader.next, Expression.Reader.push, term, hstar, hmark, hmeta]
      · have hplain : c ≠ '\\' ∧ c ≠ '^' ∧ c ≠ '$' ∧ c ≠ '.' := by
          refine ⟨?_, ?_, ?_, ?_⟩ <;>
          · rintro rfl
            exact hmeta (by decide)
        simp [Expression.Reader.next, Expression.Reader.push, term, hstar, hmark, hmeta, hplain]

theorem read_all_written (glob : List Char) (terms : List Term) :
    (glob.flatMap written).foldlM Expression.Reader.next { terms } =
      some { terms := terms ++ glob.map (term ∘ token) } := by
  induction glob generalizing terms with
  | nil => simp
  | cons c rest ih =>
    rw [List.flatMap_cons, List.foldlM_append, read_written]
    simp [ih]

/-- Every glob is written out as an expression that can be read. -/
theorem read_expression (glob : String) :
    Expression.read (expression glob).toList =
      some (.once .start :: (glob.toList.map (term ∘ token) ++ [.once .stop])) := by
  have hstart : Expression.Reader.next {} '^' = some { terms := [.once .start] } := rfl
  have hstop : ∀ terms, Expression.Reader.next { terms } '$' =
      some { terms := terms ++ [.once .stop] } := fun _ => rfl
  unfold Expression.read expression
  rw [String.toList_ofList, List.foldlM_cons, hstart]
  simp [List.foldlM_append, read_all_written, hstop]

example : Expression.read (expression "a.*?\n").toList =
    some [.once .start, .once (.literal 'a'), .once (.literal '.'), .many .any, .once .any,
      .once (.literal '\n'), .once .stop] := by decide +kernel

/-! ## The same texts -/

theorem expression_takes (h : Takes p text) (before : List Char) :
    Expression.Takes (p.map term ++ [.once .stop]) before text [] := by
  induction h generalizing before with
  | nothing =>
    have hstop : Expression.AtomTakes before [] [] .stop := ⟨rfl, rfl⟩
    exact .once hstop .nothing
  | close _ ih => exact .enough (ih before)
  | @extend p c text hc _ ih =>
    have hany : ∀ behind, Expression.AtomTakes before [c] behind .any := fun _ => ⟨c, hc, rfl⟩
    exact .again (hany _) (ih _)
  | @one p c text hc _ ih =>
    have hany : ∀ behind, Expression.AtomTakes before [c] behind .any := fun _ => ⟨c, hc, rfl⟩
    exact .once (hany _) (ih _)
  | same c _ ih =>
    have hsame : ∀ behind, Expression.AtomTakes before [c] behind (.literal c) := fun _ => rfl
    exact .once (hsame _) (ih _)

/-- What the places of a glob take to the end of a text is a piece that goes to that end. -/
theorem takes_of_expression {terms : List Term} {before behind : List Char}
    (h : Expression.Takes terms before text behind)
    (hterms : terms = p.map term ++ [.once .stop]) : behind = [] ∧ Takes p text := by
  induction h generalizing p with
  | nothing => simp at hterms
  | once hfirst hmore ih =>
    cases p with
    | nil =>
      obtain ⟨rfl, rfl⟩ : _ = Atom.stop ∧ _ = [] := by simpa using hterms
      cases hmore
      obtain ⟨rfl, hend⟩ := hfirst
      exact ⟨hend, .nothing⟩
    | cons place rest =>
      rw [List.map_cons, List.cons_append, List.cons.injEq] at hterms
      obtain ⟨hplace, hrest⟩ := hterms
      obtain ⟨hend, htakes⟩ := ih hrest
      refine ⟨hend, ?_⟩
      cases place with
      | anyRun => cases hplace
      | anyOne =>
        cases hplace
        obtain ⟨c, hc, rfl⟩ := hfirst
        exact .one hc htakes
      | exactly c =>
        cases hplace
        rw [show _ = [c] from hfirst]
        exact .same c htakes
  | enough hmore ih =>
    cases p with
    | nil => simp at hterms
    | cons place rest =>
      rw [List.map_cons, List.cons_append, List.cons.injEq] at hterms
      obtain ⟨hplace, hrest⟩ := hterms
      obtain ⟨hend, htakes⟩ := ih hrest
      cases place <;> cases hplace
      exact ⟨hend, .close htakes⟩
  | again hfirst hmore ih =>
    obtain ⟨hend, htakes⟩ := ih hterms
    cases p with
    | nil => simp at hterms
    | cons place rest =>
      rw [List.map_cons, List.cons_append, List.cons.injEq] at hterms
      obtain ⟨hplace, -⟩ := hterms
      cases place <;> cases hplace
      obtain ⟨c, hc, rfl⟩ := hfirst
      exact ⟨hend, .extend hc htakes⟩

theorem foundIn_iff :
    Expression.FoundIn (.once .start :: (p.map term ++ [.once .stop])) text ↔ Takes p text := by
  constructor
  · rintro ⟨before, piece, behind, rfl, htakes⟩
    cases htakes with
    | once hfirst hmore =>
      obtain ⟨rfl, rfl⟩ := hfirst
      obtain ⟨rfl, h⟩ := takes_of_expression hmore rfl
      simpa using h
  · intro h
    refine ⟨[], text, [], by simp, ?_⟩
    have hstart : ∀ behind, Expression.AtomTakes [] [] behind .start := fun _ => ⟨rfl, rfl⟩
    exact .once (hstart _) (expression_takes h [])

/-! ## Pieces of a text -/

/-- A character of a glob takes a piece of a text. -/
def Fits (c : Char) (piece : List Char) : Prop :=
  if c = '*' then '\n' ∉ piece
  else if c = '?' then ∃ d, d ≠ '\n' ∧ piece = [d]
  else piece = [c]

/-- A star takes a line, and the other places take what follows it. -/
theorem takes_anyRun_iff :
    Takes (.anyRun :: p) text ↔ ∃ line rest, '\n' ∉ line ∧ Takes p rest ∧ line ++ rest = text := by
  constructor
  · intro h
    induction text with
    | nil =>
      cases h with
      | close h => exact ⟨[], [], by simp, h, rfl⟩
    | cons c text ih =>
      cases h with
      | close h => exact ⟨[], c :: text, by simp, h, rfl⟩
      | extend hc h =>
        obtain ⟨line, rest, hline, hrest, rfl⟩ := ih h
        exact ⟨c :: line, rest, by simp [hline, Ne.symm hc], hrest, rfl⟩
  · rintro ⟨line, rest, hline, hrest, rfl⟩
    induction line with
    | nil => exact .close hrest
    | cons c line ih =>
      obtain ⟨hc, hline⟩ := not_or.mp (fun hin => hline (List.mem_cons.mpr hin))
      exact .extend (Ne.symm hc) (ih hline)

theorem takes_cons_token_iff {c : Char} :
    Takes (token c :: p) text ↔
      ∃ piece rest, Fits c piece ∧ Takes p rest ∧ piece ++ rest = text := by
  unfold Fits
  by_cases hstar : c = '*'
  · subst hstar
    exact takes_anyRun_iff
  · by_cases hmark : c = '?'
    · subst hmark
      simp only [hstar, if_false, if_true]
      constructor
      · intro h
        cases h with
        | one hd h => exact ⟨_, _, ⟨_, hd, rfl⟩, h, rfl⟩
      · rintro ⟨-, rest, ⟨d, hd, rfl⟩, hrest, rfl⟩
        exact .one hd hrest
    · have htoken : token c = .exactly c := token_of_isPlain (by simp [isPlain, hstar, hmark])
      simp only [htoken, hstar, hmark, if_false]
      constructor
      · intro h
        cases h with
        | same _ h => exact ⟨_, _, rfl, h, rfl⟩
      · rintro ⟨-, rest, rfl, hrest, rfl⟩
        exact .same c hrest

theorem takes_iff_pieces {glob : List Char} :
    Takes (glob.map token) text ↔
      ∃ pieces, List.Forall₂ Fits glob pieces ∧ pieces.flatten = text := by
  induction glob generalizing text with
  | nil =>
    constructor
    · intro h
      cases h
      exact ⟨[], .nil, rfl⟩
    · rintro ⟨pieces, hfits, rfl⟩
      cases hfits
      exact .nothing
  | cons c glob ih =>
    rw [List.map_cons, takes_cons_token_iff]
    constructor
    · rintro ⟨piece, rest, hpiece, hrest, rfl⟩
      obtain ⟨pieces, hfits, rfl⟩ := ih.mp hrest
      exact ⟨piece :: pieces, .cons hpiece hfits, rfl⟩
    · rintro ⟨pieces, hfits, rfl⟩
      obtain ⟨piece, rest, hpiece, hrest, rfl⟩ := List.forall₂_cons_left_iff.mp hfits
      exact ⟨piece, rest.flatten, hpiece, ih.mpr ⟨rest, hrest, rfl⟩, rfl⟩

/-- Where no character is a wildcard, each takes itself. -/
theorem flatten_of_plain {glob : List Char} {pieces : List (List Char)}
    (h : ∀ c ∈ glob, isPlain c = true) (hfits : List.Forall₂ Fits glob pieces) :
    pieces.flatten = glob := by
  induction hfits with
  | nil => rfl
  | cons hpiece _ ih =>
    rename_i c piece rest pieces _
    have hc : c ≠ '*' ∧ c ≠ '?' := by simpa [isPlain] using h c List.mem_cons_self
    rw [Fits, if_neg hc.1, if_neg hc.2] at hpiece
    rw [List.flatten_cons, ih fun d hd => h d (List.mem_cons_of_mem c hd), hpiece]
    rfl

/-- Every glob is written out as an expression that can be read, and a text that the expression is
found in is one that the glob takes. It takes just the texts that can be cut into pieces, one for
each of its characters: a line for a star, one character that is no line break for a question mark,
and for every other character that character itself. They start with what stands before the first
wildcard; without a wildcard the only one is the glob itself. -/
theorem matching_is_exact (glob text : String) :
    (∃ terms, Expression.read (expression glob).toList = some terms ∧
      (accepts glob text = true ↔ Expression.FoundIn terms text.toList)) ∧
    (accepts glob text = true ↔
      ∃ pieces, List.Forall₂ Fits glob.toList pieces ∧ pieces.flatten = text.toList) ∧
    (accepts glob text = true → (literalPrefix glob).toList <+: text.toList) ∧
    ('*' ∉ glob.toList → '?' ∉ glob.toList →
      literalPrefix glob = glob ∧ (accepts glob text = true ↔ text = glob)) := by
  have hpieces : accepts glob text = true ↔
      ∃ pieces, List.Forall₂ Fits glob.toList pieces ∧ pieces.flatten = text.toList :=
    accepts_iff.trans takes_iff_pieces
  refine ⟨⟨_, read_expression glob, ?_⟩, hpieces, literalPrefix_prefix, ?_⟩
  · rw [accepts_iff, ← List.map_map, foundIn_iff]
  · intro hstar hmark
    have hplain : ∀ c ∈ glob.toList, isPlain c = true := by
      intro c hc
      have hne : c ≠ '*' ∧ c ≠ '?' := ⟨fun h => hstar (h ▸ hc), fun h => hmark (h ▸ hc)⟩
      simp [isPlain, hne]
    refine ⟨?_, ?_⟩
    · apply String.toList_inj.mp
      rw [literalPrefix, String.toList_ofList]
      exact List.takeWhile_eq_self_iff.mpr hplain
    · rw [hpieces]
      constructor
      · rintro ⟨pieces, hfits, htext⟩
        exact String.toList_inj.mp (htext.symm.trans (flatten_of_plain hplain hfits))
      · rintro rfl
        have hflatten : (text.toList.map fun c => [c]).flatten = text.toList := by
          rw [← List.flatMap_def, List.flatMap_singleton']
        refine ⟨_, ?_, hflatten⟩
        rw [List.forall₂_map_right_iff, List.forall₂_same]
        intro c hc
        have hne : c ≠ '*' ∧ c ≠ '?' := by simpa [isPlain] using hplain c hc
        rw [Fits, if_neg hne.1, if_neg hne.2]

end Glob

end ControlBus.Text
