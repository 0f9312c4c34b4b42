-- A selection from its start to its outcome: open sources are looked at and others do what they
-- do, until one last turn decides, whatever the sources make of being looked at. What is written
-- down about the calls changes nothing.
import ControlBus.Proofs.PlainScheduler
import Mathlib.Data.List.Forall2
import Mathlib.Logic.Relation

namespace ControlBus

/-! ## Outcomes -/

namespace Selection

/-- The source that an outcome is about. -/
def source? : Selection → Option Nat
  | ready id => some id
  | failed id _ => some id
  | timeout => none

/-- The source that failed. -/
def failed? : Selection → Option Nat
  | failed id _ => some id
  | _ => none

theorem source?_of_failed? {outcome : Selection} {i : Nat} (h : outcome.failed? = some i) :
    outcome.source? = some i := by
  cases outcome with
  | failed id e => exact h
  | ready id => cases h
  | timeout => cases h

end Selection

namespace PlainScheduler

variable {ι σ : Type} {ops : SourceOps ι σ} {others : σ → σ → Prop} {p p' : PlainScheduler ι}
  {w w' : σ}

/-! ## Sources by number -/

def names (p : PlainScheduler ι) : List ι := p.sources.map (·.source)

/-- Source `i` is registered and has not failed. -/
def Opened (p : PlainScheduler ι) (i : Nat) : Prop :=
  ∃ r, p.sources[i]? = some r ∧ r.closed = false

/-- Source `i` has failed. -/
def Closed (p : PlainScheduler ι) (i : Nat) : Prop :=
  ∃ r, p.sources[i]? = some r ∧ r.closed = true

theorem opened_iff {i : Nat} : p.Opened i ↔ i < p.sources.length ∧ ¬ p.Closed i := by
  constructor
  · rintro ⟨r, hr, hopen⟩
    refine ⟨(List.getElem?_eq_some_iff.mp hr).1, ?_⟩
    rintro ⟨s, hs, hclosed⟩
    cases hr.symm.trans hs
    rw [hopen] at hclosed
    cases hclosed
  · rintro ⟨hlt, hopen⟩
    have hr := List.getElem?_eq_getElem hlt
    exact ⟨_, hr, eq_false_of_ne_true fun hclosed => hopen ⟨_, hr, hclosed⟩⟩

/-- Sources are numbered in the order of registration. -/
def Numbered (p : PlainScheduler Nat) : Prop := p.names = List.range p.sources.length

theorem Numbered.source_eq {p : PlainScheduler Nat} (h : p.Numbered) {i : Nat} {r : PlainSource Nat}
    (hr : p.sources[i]? = some r) : r.source = i := by
  have hlt : i < p.sources.length := (List.getElem?_eq_some_iff.mp hr).1
  have hname : p.names[i]? = some r.source := by
    rw [names, List.getElem?_map, hr]
    rfl
  rw [h, List.getElem?_range hlt] at hname
  exact (Option.some.inj hname).symm

/-! ## Until a selection is decided -/

/-- What happens to the world while a selection is not decided yet. -/
inductive Stir (ops : SourceOps ι σ) (others : σ → σ → Prop) (p : PlainScheduler ι) :
    σ → σ → Prop where
  /-- An open source is looked at and does not fail. -/
  | look {r : PlainSource ι} {w : σ} (known : r ∈ p.sources) (opened : r.closed = false)
      (read : ∀ e, (ops.poll r.source w).1 ≠ .failed e) :
      Stir ops others p w (ops.poll r.source w).2
  | meanwhile {w w' : σ} (h : others w w') : Stir ops others p w w'

/-- One world leads to another while a selection is not decided yet. -/
abbrev Leads (ops : SourceOps ι σ) (others : σ → σ → Prop) (p : PlainScheduler ι) : σ → σ → Prop :=
  Relation.ReflTransGen (Stir ops others p)

/-- The scheduler that leaves out a source from now on. -/
def close (p : PlainScheduler ι) (id : Nat) (r : PlainSource ι) : PlainScheduler ι :=
  { p with sources := p.sources.set id { r with closed := true } }

/-- The scheduler that has dispatched a source. -/
def served (p : PlainScheduler ι) (id : Nat) (r : PlainSource ι) : PlainScheduler ι where
  sources := p.sources.set id { r with stamp := p.clock + 1 }
  clock := p.clock + 1

theorem passOver_closed (id : Nat) {r : PlainSource ι} (hc : r.closed = true)
    (rest : List (PlainSource ι)) :
    passOver ops id (r :: rest) w =
      (r :: (passOver ops (id + 1) rest w).1, (passOver ops (id + 1) rest w).2) := by
  rw [passOver, if_pos hc]

/-- A pass looks at one source after another until the first that fails; without one it leaves
all sources as they are. -/
theorem passOver_cases (ops : SourceOps ι σ) (others : σ → σ → Prop) (id : Nat)
    {todo : List (PlainSource ι)} (hknown : ∀ r ∈ todo, r ∈ p.sources) (w : σ) :
    (∃ u, passOver ops id todo w = (todo, none, u) ∧ Leads ops others p w u) ∨
      ∃ i r e u w', todo[i]? = some r ∧ r.closed = false ∧ Leads ops others p w u ∧
        ops.poll r.source u = (.failed e, w') ∧
        passOver ops id todo w = (todo.set i { r with closed := true }, some (id + i, e), w') := by
  induction todo generalizing id w with
  | nil => exact Or.inl ⟨w, rfl, .refl⟩
  | cons r rest ih =>
    have hr : r ∈ p.sources := hknown r List.mem_cons_self
    have hrest := ih (id + 1) (fun s hs => hknown s (List.mem_cons_of_mem r hs))
    cases hc : r.closed with
    | true =>
      rw [passOver_closed id hc]
      obtain ⟨u, hu, hleads⟩ | ⟨i, s, e, u, w', hs, hopen, hleads, hp, hfail⟩ := hrest w
      · exact Or.inl ⟨u, by rw [hu], hleads⟩
      · refine Or.inr ⟨i + 1, s, e, u, w', hs, hopen, hleads, hp, ?_⟩
        rw [hfail, List.set_cons_succ, show id + 1 + i = id + (i + 1) by omega]
    | false =>
      rcases hp : ops.poll r.source w with ⟨reading, v⟩
      by_cases hfails : ∃ e, reading = .failed e
      · obtain ⟨e, rfl⟩ := hfails
        refine Or.inr ⟨0, r, e, w, v, rfl, hc, .refl, hp, ?_⟩
        simp [passOver, hc, hp]
      · have hread : ∀ e, reading ≠ .failed e := fun e he => hfails ⟨e, he⟩
        have hlook : Stir ops others p w (ops.poll r.source w).2 :=
          .look hr hc fun e he => hread e (by rwa [hp] at he)
        rw [hp] at hlook
        rw [passOver_read id hc rest hp hread]
        obtain ⟨u, hu, hleads⟩ | ⟨i, s, e, u, w', hs, hopen, hleads, hp', hfail⟩ := hrest v
        · exact Or.inl ⟨u, by rw [hu], hleads.head hlook⟩
        · refine Or.inr ⟨i + 1, s, e, u, w', hs, hopen, hleads.head hlook, hp', ?_⟩
          rw [hfail, List.set_cons_succ, show id + 1 + i = id + (i + 1) by omega]

/-- How the last turn of a selection goes: what is known of the sources before it and after it. A
source without data may go unnoticed only if it has got some by the poll of another one. -/
inductive Decides (ops : SourceOps ι σ) (others : σ → σ → Prop) (p : PlainScheduler ι) (w : σ) :
    Selection → PlainScheduler ι → σ → Prop where
  | failed {id : Nat} {r : PlainSource ι} {e : BusError} {u w' : σ} (looks : Leads ops others p w u)
      (known : p.sources[id]? = some r) (opened : r.closed = false)
      (fails : ops.poll r.source u = (.failed e, w')) :
      Decides ops others p w (.failed id e) (p.close id r) w'
  | ready {id : Nat} {r : PlainSource ι} {u : σ} (looks : Leads ops others p w u)
      (pass : passOver ops 0 p.sources w = (p.sources, none, u))
      (known : p.sources[id]? = some r) (eligible : r.eligible ops u = true) :
      Decides ops others p w (.ready id) (p.served id r) (ops.afterRead r.source u)
  | timeout {u : σ} (looks : Leads ops others p w u)
      (pass : passOver ops 0 p.sources w = (p.sources, none, u))
      (idle : ∀ r ∈ p.sources, ops.Owns r.source → r.eligible ops u = false) :
      Decides ops others p w .timeout p u

namespace Decides

variable {outcome : Selection}

/-- A turn closes the source that it answers has failed, and no other. -/
theorem closed_iff (h : Decides ops others p w outcome p' w') (i : Nat) :
    p'.Closed i ↔ p.Closed i ∨ outcome.failed? = some i := by
  cases h with
  | @failed id r e u _ looks known opened fails =>
    simp only [Closed, close, Selection.failed?, Option.some.injEq, List.getElem?_set]
    by_cases hi : id = i
    · subst hi
      simp [(List.getElem?_eq_some_iff.mp known).1]
    · simp [hi]
  | @ready id r u looks pass known eligible =>
    simp only [Closed, served, Selection.failed?, reduceCtorEq, or_false, List.getElem?_set]
    by_cases hi : id = i
    · obtain ⟨hlt, hget⟩ := List.getElem?_eq_some_iff.mp known
      subst hi
      simp [hlt, hget]
    · simp [hi]
  | timeout looks pass idle => simp [Selection.failed?]

/-- An outcome is about an open source. -/
theorem opened (h : Decides ops others p w outcome p' w') {i : Nat}
    (hi : outcome.source? = some i) : p.Opened i := by
  cases h with
  | failed looks known opened fails =>
    cases hi
    exact ⟨_, known, opened⟩
  | @ready _ r u looks pass known eligible =>
    cases hi
    simp only [PlainSource.eligible, Bool.and_eq_true, Bool.not_eq_true'] at eligible
    exact ⟨r, known, eligible.1⟩
  | timeout looks pass idle => cases hi

theorem names_eq (h : Decides ops others p w outcome p' w') : p'.names = p.names := by
  cases h with
  | failed looks known opened fails => exact Multiplexer.map_set_eq known rfl
  | ready looks pass known eligible => exact Multiplexer.map_set_eq known rfl
  | timeout looks pass idle => rfl

theorem numbered {p p' : PlainScheduler Nat} {ops : SourceOps Nat σ}
    (h : Decides ops others p w outcome p' w') (hn : p.Numbered) : p'.Numbered := by
  have hlength := congrArg List.length h.names_eq
  rw [names, names, List.length_map, List.length_map] at hlength
  rw [Numbered, h.names_eq, hlength]
  exact hn

end Decides

/-- What a look at one source brings about and looks at the others keep holds after a pass that
no source ended. -/
theorem passOver_sees (holds seen : σ → Prop) {a : ι}
    (hkeep : ∀ b w, holds w → holds (ops.poll b w).2)
    (hself : ∀ w, holds w → seen (ops.poll a w).2)
    (hothers : ∀ b w, b ≠ a → holds w → seen w → seen (ops.poll b w).2) (id : Nat)
    {todo todo' : List (PlainSource ι)} {u : σ} (hw : holds w)
    (hpass : passOver ops id todo w = (todo', none, u))
    (h : seen w ∨ ∃ r ∈ todo, r.source = a ∧ r.closed = false) : holds u ∧ seen u := by
  induction todo generalizing id w todo' with
  | nil =>
    cases hpass
    obtain h | ⟨r, hr, -⟩ := h
    · exact ⟨hw, h⟩
    · cases hr
  | cons r rest ih =>
    cases hc : r.closed with
    | true =>
      rw [passOver_closed id hc] at hpass
      refine ih (id + 1) hw (Prod.ext rfl (Prod.mk.inj hpass).2) ?_
      obtain h | ⟨s, hs, hsa, hopen⟩ := h
      · exact Or.inl h
      · rcases List.mem_cons.mp hs with rfl | hs
        · rw [hc] at hopen
          cases hopen
        · exact Or.inr ⟨s, hs, hsa, hopen⟩
    | false =>
      rcases hp : ops.poll r.source w with ⟨reading, v⟩
      by_cases hfails : ∃ e, reading = .failed e
      · obtain ⟨e, rfl⟩ := hfails
        simp [passOver, hc, hp] at hpass
      · have hread : ∀ e, reading ≠ .failed e := fun e he => hfails ⟨e, he⟩
        have hv : holds v := by
          have := hkeep r.source w hw
          rwa [hp] at this
        rw [passOver_read id hc rest hp hread] at hpass
        refine ih (id + 1) hv (Prod.ext rfl (Prod.mk.inj hpass).2) ?_
        by_cases hra : r.source = a
        · have := hself w hw
          rw [← hra, hp] at this
          exact Or.inl this
        · obtain h | ⟨s, hs, hsa, hopen⟩ := h
          · have := hothers r.source w hra hw h
            rw [hp] at this
            exact Or.inl this
          · rcases List.mem_cons.mp hs with rfl | hs
            · exact absurd hsa hra
            · exact Or.inr ⟨s, hs, hsa, hopen⟩

end PlainScheduler

/-! ## Turns of the multiplexer -/

namespace Multiplexer

variable {ι σ : Type} {ops : SourceOps ι σ}

/-- The working set is in step with the sources, and no source is registered twice. -/
structure Sound (m : Multiplexer ι) : Prop where
  consistent : Consistent m.registrations m.workingSet
  distinct : m.plain.names.Nodup

theorem Sound.nodup_sources {m : Multiplexer ι} (h : m.Sound) :
    (m.registrations.map (·.source)).Nodup := by
  have hd := h.distinct
  rwa [PlainScheduler.names, plain, List.map_map] at hd

/-- One pass over the sources, and the dispatch that it leads to. -/
def turn (ops : SourceOps ι σ) (m : Multiplexer ι) (w : σ) :
    Option Selection × Multiplexer ι × σ :=
  match poll ops m w with
  | (some failure, m, w) => ((m.report failure).1, (m.report failure).2, w)
  | (none, m, w) =>
    let (chosen, m, w) := dispatchNext ops m w
    (chosen.map .ready, m, w)

theorem await_eq (events : List (σ → σ)) (m : Multiplexer ι) (w : σ) :
    await ops events m w =
      match turn ops m w, events with
      | (some outcome, m, w), _ => (some outcome, m, w)
      | (none, m, w), event :: rest => await ops rest m (event w)
      | (none, m, w), [] => (none, m, w) := by
  rw [await.eq_def, turn]
  dsimp only
  rcases poll ops m w with ⟨failure, m', w'⟩
  cases failure with
  | some failure => rfl
  | none =>
    rcases hd : dispatchNext ops m' w' with ⟨chosen, m'', w''⟩
    cases chosen with
    | some id => simp [hd]
    | none => cases events <;> simp [hd]

theorem attempt_eq (events : Multiplexer ι → σ → List (σ → σ)) (m : Multiplexer ι) (w : σ) :
    attempt ops events m w =
      match turn ops { m with stats := { m.stats with selects := m.stats.selects + 1 } } w with
      | (some outcome, m, w) => (some outcome, m, w)
      | (none, m, w) => await ops (events m w) m w := by
  rw [attempt, turn]
  rcases poll ops _ w with ⟨failure, m', w'⟩
  cases failure with
  | some failure => rfl
  | none =>
    rcases hd : dispatchNext ops m' w' with ⟨chosen, m'', w''⟩
    cases chosen <;> simp [hd]

/-- Going through the working set either dispatches a source with data or finds that no ready
source has any. -/
theorem dispatchFrom_cases (ops : SourceOps ι σ) {set : List ReadyKey} {m : Multiplexer ι}
    (h : Consistent m.registrations set) (w : σ) :
    (∃ id r, m.plain.sources[id]? = some r ∧ r.eligible ops w = true ∧
      (dispatchFrom ops set m w).1 = some id ∧
      (dispatchFrom ops set m w).2.1.plain = m.plain.served id r ∧
      (dispatchFrom ops set m w).2.2 = ops.afterRead r.source w) ∨
    ((dispatchFrom ops set m w).1 = none ∧ (dispatchFrom ops set m w).2.1.plain = m.plain ∧
      (dispatchFrom ops set m w).2.2 = w ∧
      ∀ r ∈ m.registrations, r.ready = true → ops.hasData r.source w = false) := by
  induction set generalizing m with
  | nil =>
    refine Or.inr ⟨rfl, rfl, rfl, fun r hr hready => ?_⟩
    obtain ⟨i, hi⟩ := List.mem_iff_getElem?.mp hr
    cases (h.mem (r.key i)).mpr ⟨r, hi, hready, rfl⟩
  | cons k rest ih =>
    obtain ⟨r, hr, hready, -⟩ := (h.mem k).mp List.mem_cons_self
    cases hdata : ops.hasData r.source w with
    | true =>
      rw [dispatchFrom_data rest hr hdata]
      refine Or.inl ⟨k.id, r.plain, plain_source hr, ?_, rfl, ?_, rfl⟩
      · simp [PlainSource.eligible, Registration.plain, h.opened _ _ hr hready, hdata]
      · simp only [dispatch, plain, List.map_set]
        rfl
    | false =>
      rw [dispatchFrom_empty rest hr hdata]
      obtain hsome | ⟨hnone, hplain, hw, hidle⟩ := ih (m := m.passedOver k.id r) (h.pop rfl)
      · rw [passedOver_plain hr] at hsome
        exact Or.inl hsome
      · refine Or.inr ⟨hnone, hplain.trans (passedOver_plain hr), hw, fun s hs hs' => ?_⟩
        obtain ⟨i, hi⟩ := List.mem_iff_getElem?.mp hs
        by_cases hik : k.id = i
        · subst hik
          cases hr.symm.trans hi
          exact hdata
        · refine hidle s ?_ hs'
          exact List.mem_of_getElem? ((List.getElem?_set_ne hik).trans hi)

variable {others : σ → σ → Prop} {m : Multiplexer ι}

/-- A look goes over all open sources, and marks those ready whose data are their own, or it ends
with the first source that fails. -/
theorem look_cases (ops : SourceOps ι σ) (others : σ → σ → Prop) (h : m.Sound) (w : σ) :
    Consistent (poll ops m w).2.1.registrations (poll ops m w).2.1.workingSet ∧
    ((∃ m' u, poll ops m w = (none, m', u) ∧ m'.plain = m.plain ∧
        PlainScheduler.Leads ops others m.plain w u ∧
        PlainScheduler.passOver ops 0 m.plain.sources w = (m.plain.sources, none, u) ∧
        ∀ r ∈ m'.registrations, ops.Owns r.source → r.closed = false →
          ops.hasData r.source u = true → r.ready = true) ∨
      ∃ id r e u m' w', poll ops m w = (some (id, e), m', w') ∧ m'.plain = m.plain.close id r ∧
        PlainScheduler.Leads ops others m.plain w u ∧ m.plain.sources[id]? = some r ∧
        r.closed = false ∧ ops.poll r.source u = (.failed e, w')) := by
  have hpass : PlainScheduler.passOver ops 0 m.plain.sources w = _ :=
    passOver_plain ops 0 m.registrations m.workingSet w
  have hcovers := passOver_covers ops 0 m.registrations m.workingSet w h.nodup_sources
  refine ⟨passOver_consistent ops [] m.registrations m.workingSet w h.consistent, ?_⟩
  unfold poll
  generalize passOver ops 0 m.registrations m.workingSet w = p at hpass hcovers ⊢
  obtain ⟨sources, set, v, failure⟩ := p
  obtain ⟨u, hall, hlooks⟩ | ⟨i, r, e, u, w', hr, hopen, hlooks, hp, hfail⟩ :=
    PlainScheduler.passOver_cases ops others 0 (fun r hr => hr : ∀ r ∈ m.plain.sources, _) w
  · have hsame := hpass.symm.trans hall
    simp only [Prod.mk.injEq] at hsame
    obtain ⟨hsources, rfl, rfl⟩ := hsame
    exact Or.inl ⟨_, v, rfl, congrArg (PlainScheduler.mk · m.clock) hsources, hlooks, hall,
      hcovers rfl⟩
  · have hsame := hpass.symm.trans hfail
    simp only [Prod.mk.injEq, Nat.zero_add] at hsame
    obtain ⟨hsources, rfl, rfl⟩ := hsame
    exact Or.inr ⟨i, r, e, u, _, v, rfl, congrArg (PlainScheduler.mk · m.clock) hsources, hlooks,
      hr, hopen, hp⟩

/-- A turn without an outcome decides that nothing happened, if it is the last one. -/
theorem turn_decides (ops : SourceOps ι σ) (others : σ → σ → Prop) (h : m.Sound) (w : σ) :
    (turn ops m w).2.1.Sound ∧
      PlainScheduler.Decides ops others m.plain w ((turn ops m w).1.getD .timeout)
        (turn ops m w).2.1.plain (turn ops m w).2.2 := by
  have hsound : ∀ {outcome : Selection} {m' : Multiplexer ι} {w' : σ},
      Consistent m'.registrations m'.workingSet →
      PlainScheduler.Decides ops others m.plain w outcome m'.plain w' →
        m'.Sound ∧ PlainScheduler.Decides ops others m.plain w outcome m'.plain w' :=
    fun hc hd => ⟨⟨hc, hd.names_eq ▸ h.distinct⟩, hd⟩
  obtain ⟨hc, ⟨m₁, u, hpoll, hplain, hlooks, hall, hcovers⟩ |
    ⟨id, r, e, u, m₁, w', hpoll, hplain, hlooks, hr, hopen, hfails⟩⟩ := look_cases ops others h w
  · replace hc : Consistent m₁.registrations m₁.workingSet := by simpa only [hpoll] using hc
    have hc' := consistent_dispatchFrom ops hc u
    have hcases := dispatchFrom_cases ops hc u
    rw [turn, hpoll]
    simp only [dispatchNext]
    rw [hplain] at hcases
    rcases hd : dispatchFrom ops m₁.workingSet m₁ u with ⟨chosen, m', w'⟩
    rw [hd] at hc' hcases
    obtain ⟨id, r, hr, he, rfl, hnew, rfl⟩ | ⟨rfl, hnew, rfl, hidle⟩ := hcases
    · refine hsound hc' ?_
      rw [show m'.plain = _ from hnew]
      exact .ready hlooks hall hr he
    · refine hsound hc' ?_
      rw [show m'.plain = _ from hnew]
      refine .timeout hlooks hall fun r hr hown => eq_false_of_ne_true fun he => ?_
      -- Whoever has data of its own is marked ready, and no ready source has data.
      rw [← hplain] at hr
      obtain ⟨x, hx, rfl⟩ := List.mem_map.mp hr
      simp only [PlainSource.eligible, Registration.plain, Bool.and_eq_true,
        Bool.not_eq_true'] at he
      have hready := hcovers x hx hown he.1 he.2
      rw [hidle x hx hready] at he
      cases he.2
  · replace hc : Consistent m₁.registrations m₁.workingSet := by simpa only [hpoll] using hc
    rw [turn, hpoll]
    have hd : PlainScheduler.Decides ops others m.plain w (.failed id e)
        (m₁.report (id, e)).2.plain w' := by
      rw [show (m₁.report (id, e)).2.plain = _ from hplain]
      exact .failed hlooks hr hopen hfails
    exact hsound hc hd

theorem turn_sound (ops : SourceOps ι σ) (h : m.Sound) (w : σ) : (turn ops m w).2.1.Sound :=
  (turn_decides ops (fun _ _ => True) h w).1

/-- A turn that comes to nothing has only looked. -/
theorem turn_leads (others : σ → σ → Prop) (h : m.Sound) {m' : Multiplexer ι} {w w' : σ}
    (ht : turn ops m w = (none, m', w')) :
    m'.Sound ∧ m'.plain = m.plain ∧ PlainScheduler.Leads ops others m.plain w w' := by
  obtain ⟨hsound, hdecides⟩ := turn_decides ops others h w
  rw [ht] at hsound hdecides
  generalize m'.plain = p' at hdecides
  cases hdecides with
  | timeout looks pass idle => exact ⟨hsound, rfl, looks⟩

theorem await_decides (ops : SourceOps ι σ) (others : σ → σ → Prop) (h : m.Sound)
    {events : List (σ → σ)} (hev : ∀ e ∈ events, ∀ v, others v (e v)) (w : σ) :
    (await ops events m w).2.1.Sound ∧ ∃ u, PlainScheduler.Leads ops others m.plain w u ∧
      PlainScheduler.Decides ops others m.plain u ((await ops events m w).1.getD .timeout)
        (await ops events m w).2.1.plain (await ops events m w).2.2 := by
  induction events generalizing m w with
  | nil =>
    obtain ⟨hsound, hdecides⟩ := turn_decides ops others h w
    rw [await_eq]
    rcases ht : turn ops m w with ⟨outcome, m', w'⟩
    rw [ht] at hsound hdecides
    cases outcome <;> exact ⟨hsound, w, .refl, hdecides⟩
  | cons event rest ih =>
    rw [await_eq]
    rcases ht : turn ops m w with ⟨outcome, m', v⟩
    cases outcome with
    | some outcome =>
      obtain ⟨hsound, hdecides⟩ := turn_decides ops others h w
      rw [ht] at hsound hdecides
      exact ⟨hsound, w, .refl, hdecides⟩
    | none =>
      obtain ⟨hsound, hplain, hleads⟩ := turn_leads others h ht
      obtain ⟨hsound', u, hu, hdecides⟩ :=
        ih hsound (fun e he => hev e (List.mem_cons_of_mem event he)) (event v)
      rw [hplain] at hu hdecides
      have hevent : PlainScheduler.Stir ops others m.plain v (event v) :=
        .meanwhile (hev event List.mem_cons_self v)
      exact ⟨hsound', u, (hleads.tail hevent).trans hu, hdecides⟩

/-- Every selection comes to one last turn, which decides it. -/
theorem select_decides (ops : SourceOps ι σ) (others : σ → σ → Prop) (h : m.Sound)
    (events : Multiplexer ι → σ → List (σ → σ))
    (hev : ∀ m w, ∀ e ∈ events m w, ∀ v, others v (e v)) (w : σ) :
    (select ops events m w).2.1.Sound ∧ ∃ u, PlainScheduler.Leads ops others m.plain w u ∧
      PlainScheduler.Decides ops others m.plain u (select ops events m w).1
        (select ops events m w).2.1.plain (select ops events m w).2.2 := by
  have hcounted : Sound { m with stats := { m.stats with selects := m.stats.selects + 1 } } :=
    ⟨h.consistent, h.distinct⟩
  rw [select, attempt_eq]
  rcases ht : turn ops { m with stats := { m.stats with selects := m.stats.selects + 1 } } w
    with ⟨outcome, m', v⟩
  cases outcome with
  | some outcome =>
    obtain ⟨hsound, hdecides⟩ := turn_decides ops others hcounted w
    rw [ht] at hsound hdecides
    exact ⟨hsound, w, .refl, hdecides⟩
  | none =>
    obtain ⟨hsound, hplain, hleads⟩ := turn_leads others hcounted ht
    obtain ⟨hsound', u, hu, hdecides⟩ := await_decides ops others hsound (hev m' v) v
    rw [hplain] at hu hdecides
    dsimp only
    rcases ha : await ops (events m' v) m' v with ⟨outcome, m'', w'⟩
    rw [ha] at hsound' hdecides
    cases outcome with
    | some outcome => exact ⟨hsound', u, hleads.trans hu, hdecides⟩
    | none => exact ⟨⟨hsound'.consistent, hsound'.distinct⟩, u, hleads.trans hu, hdecides⟩

theorem select_sound (ops : SourceOps ι σ) (h : m.Sound) (events : Multiplexer ι → σ → List (σ → σ))
    (w : σ) : (select ops events m w).2.1.Sound :=
  (select_decides ops (fun _ _ => True) h events (fun _ _ _ _ _ => trivial) w).1

theorem select_names (ops : SourceOps ι σ) (h : m.Sound) (events : Multiplexer ι → σ → List (σ → σ))
    (w : σ) : (select ops events m w).2.1.plain.names = m.plain.names := by
  obtain ⟨-, u, -, hdecides⟩ :=
    select_decides ops (fun _ _ => True) h events (fun _ _ _ _ _ => trivial) w
  exact hdecides.names_eq

end Multiplexer

/-! ## Registering a further source -/

namespace Multiplexer

variable {m : Multiplexer Nat}

theorem closed_add (m : Multiplexer Nat) (priority : Int) (i : Nat) :
    (m.add m.registrations.length priority).2.plain.Closed i ↔ m.plain.Closed i := by
  simp only [PlainScheduler.Closed, add, plain, List.map_append,
    List.map_cons, List.map_nil, List.getElem?_append]
  split
  · rfl
  · rename_i hi
    rw [List.getElem?_eq_none (Nat.le_of_not_lt hi)]
    constructor
    · rintro ⟨x, hx, hclosed⟩
      have hmem := List.mem_of_getElem? hx
      rw [List.mem_singleton] at hmem
      subst hmem
      cases hclosed
    · rintro ⟨x, hx, -⟩
      cases hx

theorem numbered_add (h : m.plain.Numbered) (priority : Int) :
    (m.add m.registrations.length priority).2.plain.Numbered := by
  simp only [PlainScheduler.Numbered, PlainScheduler.names, plain, List.map_map,
    List.length_map] at h ⊢
  simp [add, List.range_succ, h, Registration.plain]

end Multiplexer

/-! ## Worlds in which more is written down -/

/-- The same sources in a world of which `π` forgets a part that they do not use. -/
structure Forgets {ι σ τ : Type} (π : τ → σ) (fine : SourceOps ι τ) (ops : SourceOps ι σ) :
    Prop where
  poll : ∀ a w, ops.poll a (π w) = ((fine.poll a w).1, π (fine.poll a w).2)
  hasData : ∀ a w, ops.hasData a (π w) = fine.hasData a w
  hasMore : ∀ a w, ops.hasMore a (π w) = fine.hasMore a w
  afterRead : ∀ a w, ops.afterRead a (π w) = π (fine.afterRead a w)

/-- A result, with a part of its world forgotten. -/
def forget {α β σ τ : Type} (π : τ → σ) (out : α × β × τ) : α × β × σ := (out.1, out.2.1, π out.2.2)

namespace Multiplexer

variable {ι σ τ : Type} {π : τ → σ} {fine : SourceOps ι τ} {ops : SourceOps ι σ}

def Pass.forget (π : τ → σ) (p : Pass ι τ) : Pass ι σ where
  registrations := p.registrations
  workingSet := p.workingSet
  world := π p.world
  failure := p.failure

theorem passOver_forgets (h : Forgets π fine ops) (id : Nat) (todo : List (Registration ι))
    (set : List ReadyKey) (w : τ) :
    passOver ops id todo set (π w) = (passOver fine id todo set w).forget π := by
  induction todo generalizing id set w with
  | nil => rfl
  | cons r rest ih =>
    have hpoll := h.poll r.source w
    rcases poll_cases fine r w with hc | ⟨e, w', hc, hp⟩ | ⟨reading, w', hc, hp, hread⟩
    · rw [passOver_closed id hc, passOver_closed id hc, ih]
      rfl
    · rw [hp] at hpoll
      rw [passOver_failed id hc rest set hp, passOver_failed id hc rest set hpoll]
      rfl
    · rw [hp] at hpoll
      rw [passOver_read id hc rest set hp hread, passOver_read id hc rest set hpoll hread,
        h.hasData]
      split
      · rw [ih]
        rfl
      · rw [ih]
        rfl

theorem poll_forgets (h : Forgets π fine ops) (m : Multiplexer ι) (w : τ) :
    poll ops m (π w) = forget π (poll fine m w) := by
  simp only [poll, passOver_forgets h]
  rfl

theorem dispatchFrom_forgets (h : Forgets π fine ops) (set : List ReadyKey) (m : Multiplexer ι)
    (w : τ) : dispatchFrom ops set m (π w) = forget π (dispatchFrom fine set m w) := by
  induction set generalizing m with
  | nil => rfl
  | cons k rest ih =>
    rw [dispatchFrom, dispatchFrom]
    cases m.registrations[k.id]? with
    | none => exact ih m
    | some r =>
      dsimp only
      rw [h.hasData]
      split
      · simp only [dispatch, h.hasMore, h.afterRead]
        rfl
      · exact ih _

theorem turn_forgets (h : Forgets π fine ops) (m : Multiplexer ι) (w : τ) :
    turn ops m (π w) = forget π (turn fine m w) := by
  rw [turn, turn, poll_forgets h]
  rcases poll fine m w with ⟨failure, m', v⟩
  cases failure with
  | some failure => rfl
  | none =>
    simp only [forget, dispatchNext, dispatchFrom_forgets h]

/-- The same events in a world of which a part is forgotten. -/
abbrev SameEvents (π : τ → σ) : List (τ → τ) → List (σ → σ) → Prop :=
  List.Forall₂ fun f g => ∀ v, g (π v) = π (f v)

theorem await_forgets (h : Forgets π fine ops) {fineEvents : List (τ → τ)}
    {events : List (σ → σ)} (hevents : SameEvents π fineEvents events) (m : Multiplexer ι)
    (w : τ) : await ops events m (π w) = forget π (await fine fineEvents m w) := by
  induction hevents generalizing m w with
  | nil =>
    rw [await_eq, await_eq, turn_forgets h]
    rcases turn fine m w with ⟨outcome, m', v⟩
    cases outcome <;> rfl
  | @cons f g _ _ hevent _ ih =>
    rw [await_eq, await_eq, turn_forgets h]
    rcases turn fine m w with ⟨outcome, m', v⟩
    cases outcome with
    | some outcome => rfl
    | none =>
      simp only [forget]
      rw [hevent]
      exact ih m' (f v)

/-- What is written down about its sources makes no difference to a selection. -/
theorem select_forgets (h : Forgets π fine ops) (fineEvents : Multiplexer ι → τ → List (τ → τ))
    (events : Multiplexer ι → σ → List (σ → σ))
    (hevents : ∀ m w, SameEvents π (fineEvents m w) (events m (π w))) (m : Multiplexer ι)
    (w : τ) : select ops events m (π w) = forget π (select fine fineEvents m w) := by
  rw [select, select, attempt_eq, attempt_eq, turn_forgets h]
  rcases turn fine _ w with ⟨outcome, m', v⟩
  cases outcome with
  | some outcome => rfl
  | none =>
    simp only [forget]
    rw [await_forgets h (hevents m' v)]
    rcases await fine (fineEvents m' v) m' v with ⟨outcome, m'', v'⟩
    cases outcome <;> rfl

end Multiplexer

end ControlBus
