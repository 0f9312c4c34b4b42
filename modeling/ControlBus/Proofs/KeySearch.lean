-- Listing the keys of a database. The database is searched for the text before the first wildcard
-- of a pattern. What the search brings too much the pattern sorts out, but a key that the search
-- passes over is lost: a search reads a backslash as an escape, a pattern reads it as it stands.
import ControlBus.Proofs.Deliveries
import ControlBus.Proofs.Transactions
import ControlBus.Store.Memory
import Mathlib.Data.List.Nodup

namespace ControlBus

/-! ## Texts in rising order -/

namespace Keyspace

theorem eraseReps_cons_cons (a b : String) (rest : List String) :
    (a :: b :: rest).eraseReps =
      if a = b then (b :: rest).eraseReps else a :: (b :: rest).eraseReps := by
  have hloop : ∀ (rest : List String) (a : String) (found : List String),
      List.eraseRepsBy.loop (fun a b => a == b) a rest found =
        found.reverse ++ List.eraseRepsBy.loop (fun a b => a == b) a rest [] := by
    intro rest
    induction rest with
    | nil => simp [List.eraseRepsBy.loop]
    | cons b rest ih =>
      intro a found
      rw [List.eraseRepsBy.loop, List.eraseRepsBy.loop]
      split
      · exact ih a found
      · rw [ih b (a :: found), ih b [a]]
        simp
  simp only [List.eraseReps, List.eraseRepsBy]
  rw [List.eraseRepsBy.loop]
  by_cases hab : a = b
  · subst hab
    simp
  · simp only [beq_eq_false_iff_ne.mpr hab, if_neg hab]
    exact hloop rest b [a]

theorem mem_eraseReps_iff {texts : List String} {x : String} :
    x ∈ texts.eraseReps ↔ x ∈ texts := by
  refine ⟨fun h => ?_, mem_eraseReps⟩
  match texts with
  | [] => exact h
  | [a] => exact h
  | a :: b :: rest =>
    rw [eraseReps_cons_cons] at h
    split at h
    · exact List.mem_cons_of_mem a (mem_eraseReps_iff.mp h)
    · rcases List.mem_cons.mp h with rfl | h
      · exact List.mem_cons_self
      · exact List.mem_cons_of_mem a (mem_eraseReps_iff.mp h)

theorem rising_eraseReps {texts : List String} (h : texts.Pairwise (· ≤ ·)) :
    texts.eraseReps.Pairwise (· < ·) := by
  match texts with
  | [] => exact .nil
  | [a] => exact List.pairwise_singleton ..
  | a :: b :: rest =>
    obtain ⟨ha, hrest⟩ := List.pairwise_cons.mp h
    have hrising := rising_eraseReps hrest
    rw [eraseReps_cons_cons]
    split
    · exact hrising
    · rename_i hab
      refine List.pairwise_cons.mpr ⟨fun x hx => ?_, hrising⟩
      have hlt : a < b := String.not_le.mp fun hba =>
        hab (String.le_antisymm (ha b List.mem_cons_self) hba)
      rcases List.mem_cons.mp (mem_eraseReps_iff.mp hx) with rfl | hx
      · exact hlt
      · have hbx := (List.pairwise_cons.mp hrest).1 x hx
        exact String.not_le.mp fun hxa => String.not_le.mpr hlt (String.le_trans hbx hxa)

theorem mem_sorted {texts : List String} {x : String} : x ∈ sorted texts ↔ x ∈ texts := by
  rw [sorted, mem_eraseReps_iff, List.mem_mergeSort]

theorem rising_sorted (texts : List String) : (sorted texts).Pairwise (· < ·) := by
  apply rising_eraseReps
  have hsorted := @List.pairwise_mergeSort String (fun a b => decide (a ≤ b))
    (fun a b c hab hbc => by
      simp only [decide_eq_true_eq] at hab hbc ⊢
      exact String.le_trans hab hbc)
    (fun a b => by simpa using String.le_total a b) texts
  simpa using hsorted

theorem nodup_of_rising {texts : List String} (h : texts.Pairwise (· < ·)) : texts.Nodup := by
  apply h.imp
  rintro x y hlt rfl
  exact String.lt_irrefl x hlt

/-- Rising texts with the same members are the same. -/
theorem eq_of_rising {a b : List String} (ha : a.Pairwise (· < ·)) (hb : b.Pairwise (· < ·))
    (h : ∀ x, x ∈ a ↔ x ∈ b) : a = b := by
  have hperm : a.Perm b :=
    (List.perm_ext_iff_of_nodup (nodup_of_rising ha) (nodup_of_rising hb)).mpr h
  exact hperm.eq_of_pairwise (fun x y _ _ hxy hyx => absurd hyx (String.lt_asymm hxy)) ha hb

theorem mem_keys_iff_holds {s : Keyspace} {key : String} :
    key ∈ Assoc.keys s.lists ++ Assoc.keys s.sets ++ Assoc.keys s.records ↔
      s.holds key = true := by
  have hhas : ∀ {α : Type} (m : Assoc String α), key ∈ Assoc.keys m ↔ Assoc.has m key = true := by
    intro α m
    induction m with
    | nil => simp [Assoc.keys, Assoc.has]
    | cons e rest ih =>
      by_cases he : e.1 = key
      · simp [Assoc.keys, Assoc.has, Assoc.get?, he]
      · simpa [Assoc.keys, Assoc.has, Assoc.get?, he, Ne.symm he] using ih
  simp only [List.mem_append, hhas, holds, Bool.or_eq_true]

/-- The keys in memory that a pattern takes are listed once, in rising order. -/
theorem mem_keysMatching_iff {s : Keyspace} {pattern key : String} :
    key ∈ s.keysMatching pattern ↔
      s.holds key = true ∧ Text.Glob.accepts pattern key = true := by
  rw [keysMatching, mem_sorted, List.mem_filter, mem_keys_iff_holds]

end Keyspace

/-! ## Patterns and searches -/

namespace Text.Glob

theorem anyAccepts_nil (text : List Char) : anyAccepts [] text = false := by
  induction text with
  | nil => rfl
  | cons c rest ih => exact ih

theorem stem_of_anyAccepts {stem : List Char} (h : stem.all isPlain = true) {p : List GlobToken}
    {text : List Char} (ha : anyAccepts [stem.map token ++ p] text = true) : stem <+: text := by
  induction stem generalizing text with
  | nil => exact List.nil_prefix
  | cons c rest ih =>
    obtain ⟨hc, hrest⟩ := Bool.and_eq_true_iff.mp (List.all_cons ▸ h)
    rw [List.map_cons, token_of_isPlain hc, List.cons_append] at ha
    cases text with
    | nil => simp [anyAccepts, takesNothing] at ha
    | cons d text =>
      rw [anyAccepts, List.flatMap_singleton, after] at ha
      split at ha
      · rename_i hcd
        subst hcd
        rw [show ([rest.map token ++ p].eraseDups) = [rest.map token ++ p] from rfl] at ha
        exact (List.prefix_cons_inj c).mpr (ih hrest ha)
      · rw [show (([] : List (List GlobToken)).eraseDups) = [] from rfl, anyAccepts_nil] at ha
        cases ha

/-- Every text that a pattern takes starts with the part before the first wildcard. -/
theorem literalPrefix_prefix {glob text : String} (h : accepts glob text = true) :
    (literalPrefix glob).toList <+: text.toList := by
  have hsplit : glob.toList =
      glob.toList.takeWhile isPlain ++ glob.toList.dropWhile isPlain :=
    List.takeWhile_append_dropWhile.symm
  rw [accepts, hsplit, List.map_append] at h
  rw [literalPrefix, String.toList_ofList]
  exact stem_of_anyAccepts List.all_takeWhile h

end Text.Glob

namespace Like

theorem anyRest_self {f : List Char → Bool} {s : List Char} (h : f s = true) :
    anyRest f s = true := by
  cases s with
  | nil => exact h
  | cons c s => simp [anyRest, h]

theorem anyRest_append {f : List Char → Bool} (taken : List Char) {s : List Char}
    (h : anyRest f s = true) : anyRest f (taken ++ s) = true := by
  induction taken with
  | nil => exact h
  | cons c taken ih => simp [anyRest, ih]

/-- A search for texts that start with a stem finds them all if there is no backslash in it: a
percent sign or an underscore in the stem takes at least itself. -/
theorem accepts_stem {stem : List Char} (h : '\\' ∉ stem) (rest : List Char) :
    accepts (stem ++ ['%']) (stem ++ rest) = true := by
  induction stem with
  | nil =>
    have hend : anyRest (accepts []) (rest ++ []) = true := anyRest_append rest rfl
    simpa [accepts] using hend
  | cons c stem ih =>
    obtain ⟨hc, hstem⟩ := not_or.mp (fun hin => h (List.mem_cons.mpr hin))
    have hrest := ih hstem
    rw [List.cons_append, List.cons_append, accepts.eq_def]
    split
    · cases ‹_ :: _ = []›
    · rename_i heq
      cases heq
      exact anyRest_append [_] (anyRest_self hrest)
    · rename_i heq
      exact absurd (List.cons.inj heq).1.symm hc
    · rename_i heq
      cases heq
      exact hrest
    · rename_i heq
      cases heq
      simpa using hrest

end Like

/-! ## Listing keys -/

namespace RelationalStore

/-- The database search for a pattern finds a key. -/
def Finds (pattern key : String) : Prop :=
  Like.accepts (Text.Glob.literalPrefix pattern ++ "%").toList key.toList = true

theorem finds_of_no_backslash {pattern key : String}
    (h : '\\' ∉ (Text.Glob.literalPrefix pattern).toList)
    (hkey : Text.Glob.accepts pattern key = true) : Finds pattern key := by
  obtain ⟨rest, hrest⟩ := Text.Glob.literalPrefix_prefix hkey
  rw [Finds, String.toList_append, ← hrest]
  exact Like.accepts_stem h rest

theorem run_keys {s : RelationalStore} (htaken : s.sentCount + 1 ∉ s.faults) (pattern : String) :
    ((SharedStore.keys pattern : Op (List String)).run s).1 =
      .ok ((s.committed.keys.filter fun key =>
        Like.accepts (Text.Glob.literalPrefix pattern ++ "%").toList key.toList).filter
          (Text.Glob.accepts pattern)) := by
  have hsent := run_sendAlone (.findKeys (Text.Glob.literalPrefix pattern ++ "%")) s
  rw [if_neg (fun hf => htaken (List.contains_iff_mem.mp hf))] at hsent
  change ((keys pattern).run s).1 = _
  rw [keys, StoreOp.run_bind, hsent]
  rfl

/-- With the same keys stored, both stores list keys in rising order and each once. In memory these
are all keys that the pattern takes, in the database those of them that the search finds. So the
lists differ just by the keys that the search passes over, and they are the same if there is no
backslash before the first wildcard. -/
theorem listing_agrees_but_for_keys_passed_over (pattern : String) (m : MemoryStore)
    (s : RelationalStore)
    (hsame : ∀ key, key ∈ s.committed.keys ↔ m.contents.holds key = true)
    (htaken : s.sentCount + 1 ∉ s.faults) :
    ∃ listed found : List String,
      ((SharedStore.keys pattern : StoreOp MemoryStore (List String)).run m).1 = .ok listed ∧
      ((SharedStore.keys pattern : Op (List String)).run s).1 = .ok found ∧
      listed.Pairwise (· < ·) ∧ found.Pairwise (· < ·) ∧
      (∀ key, key ∈ listed ↔
        m.contents.holds key = true ∧ Text.Glob.accepts pattern key = true) ∧
      (∀ key, key ∈ found ↔ key ∈ listed ∧ Finds pattern key) ∧
      (found = listed ↔ ∀ key ∈ listed, Finds pattern key) ∧
      ('\\' ∉ (Text.Glob.literalPrefix pattern).toList → found = listed) := by
  have hlisted : (m.contents.keysMatching pattern).Pairwise (· < ·) := Keyspace.rising_sorted _
  have hfound : ((s.committed.keys.filter fun key =>
      Like.accepts (Text.Glob.literalPrefix pattern ++ "%").toList key.toList).filter
        (Text.Glob.accepts pattern)).Pairwise (· < ·) :=
    ((Keyspace.rising_sorted _).filter _).filter _
  have hmem : ∀ key, key ∈ (s.committed.keys.filter fun key =>
      Like.accepts (Text.Glob.literalPrefix pattern ++ "%").toList key.toList).filter
        (Text.Glob.accepts pattern) ↔
      key ∈ m.contents.keysMatching pattern ∧ Finds pattern key := by
    intro key
    rw [List.mem_filter, List.mem_filter, hsame, Keyspace.mem_keysMatching_iff, Finds]
    exact and_right_comm
  have hall : (∀ key ∈ m.contents.keysMatching pattern, Finds pattern key) →
      (s.committed.keys.filter fun key =>
        Like.accepts (Text.Glob.literalPrefix pattern ++ "%").toList key.toList).filter
          (Text.Glob.accepts pattern) = m.contents.keysMatching pattern := by
    intro h
    apply Keyspace.eq_of_rising hfound hlisted
    intro key
    rw [hmem]
    exact ⟨And.left, fun hin => ⟨hin, h key hin⟩⟩
  refine ⟨_, _, rfl, run_keys htaken pattern, hlisted, hfound,
    fun key => Keyspace.mem_keysMatching_iff, hmem, ⟨fun heq key hin => ?_, hall⟩, fun hplain => ?_⟩
  · rw [← heq] at hin
    exact ((hmem key).mp hin).2
  · refine hall fun key hin => ?_
    exact finds_of_no_backslash hplain (Keyspace.mem_keysMatching_iff.mp hin).2

/-- With an underscore in the pattern, which any character would do for in a search, both stores
list the same. -/
theorem listing_agrees_on_underscore :
    ∃ (m : MemoryStore) (s : RelationalStore) (listed found : List String),
      (∀ key, key ∈ s.committed.keys ↔ m.contents.holds key = true) ∧
      s.sentCount + 1 ∉ s.faults ∧
      ((SharedStore.keys "_PORT:*" : StoreOp MemoryStore (List String)).run m).1 = .ok listed ∧
      ((SharedStore.keys "_PORT:*" : Op (List String)).run s).1 = .ok found ∧
      found = listed ∧ "_PORT:Eth0" ∈ listed ∧ "PORT:Eth0" ∉ listed := by
  let m : MemoryStore :=
    { contents :=
        { sets := [("PORT_KEY_SET", { members := ["Eth0"], places := [("Eth0", 0)] })]
          records := [("_PORT:Eth0", [("mtu", "1500")]), ("PORT:Eth0", [("mtu", "9100")])] }
      board := .ofBufferSize 4
      maxPayload := 64 }
  let s : RelationalStore :=
    { committed :=
        { sets := [⟨"PORT_KEY_SET", "Eth0"⟩]
          fields := [⟨"_PORT:Eth0", "mtu", "1500", 1⟩, ⟨"PORT:Eth0", "mtu", "9100", 2⟩]
          nextSeq := 3 }
      order := .newestFirst
      board := .ofBufferSize 4
      maxPayload := 64
      announcing := true }
  have hsame : ∀ key, key ∈ s.committed.keys ↔ m.contents.holds key = true := by
    intro key
    simp [m, s, Rows.keys, Keyspace.mem_sorted, ← Keyspace.mem_keys_iff_holds, Assoc.keys]
  have htaken : s.sentCount + 1 ∉ s.faults := by simp [s]
  obtain ⟨listed, found, hlisted, hfound, -, -, hmem, -, -, hequal⟩ :=
    listing_agrees_but_for_keys_passed_over "_PORT:*" m s hsame htaken
  refine ⟨m, s, listed, found, hsame, htaken, hlisted, hfound, hequal (by decide +kernel), ?_, ?_⟩
  · exact (hmem _).mpr (by decide +kernel)
  · exact fun hin => absurd ((hmem _).mp hin).2 (by decide +kernel)

/-- In a pattern a backslash stands for itself, so the list `a\b1` is found in memory. The search
takes the backslash as an escape and finds nothing. -/
theorem search_passes_over_backslash :
    ∃ (m : MemoryStore) (s : RelationalStore),
      (∀ key, key ∈ s.committed.keys ↔ m.contents.holds key = true) ∧ s.faults = [] ∧
      ((SharedStore.keys "a\\b*" : StoreOp MemoryStore (List String)).run m).1 =
        .ok ["a\\b1"] ∧
      ((SharedStore.keys "a\\b*" : Op (List String)).run s).1 = .ok [] := by
  have hkeys : Keyspace.sorted ["a\\b1"] = ["a\\b1"] := by
    rw [Keyspace.sorted, List.mergeSort_singleton]
    rfl
  refine ⟨{ contents := { lists := [("a\\b1", ["x"])] }
            board := .ofBufferSize 4
            maxPayload := 64 },
          { committed := { lists := [⟨"a\\b1", 1, "x"⟩], nextSeq := 2 }
            order := .newestFirst
            board := .ofBufferSize 4
            maxPayload := 64
            announcing := true }, ?_, rfl, ?_, ?_⟩
  · intro key
    simp [Rows.keys, Keyspace.mem_sorted, ← Keyspace.mem_keys_iff_holds, Assoc.keys]
  · have hfilter : ["a\\b1"].filter (Text.Glob.accepts "a\\b*") = ["a\\b1"] := by decide +kernel
    change Except.ok (Keyspace.sorted (["a\\b1"].filter (Text.Glob.accepts "a\\b*"))) = _
    rw [hfilter, hkeys]
  · rw [run_keys (by simp)]
    change Except.ok (((Keyspace.sorted ["a\\b1"]).filter _).filter _) = _
    rw [hkeys]
    decide +kernel

end RelationalStore

end ControlBus
