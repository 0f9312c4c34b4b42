-- The order in which items are completed. Items are handed over for the first time in the order
-- in which they were popped, so only an item that the handler has put off can be overtaken by
-- one that was popped after it. An item put off is overtaken, though, even by newer state of its
-- own key.
import ControlBus.Proofs.LogPlaces
import ControlBus.Proofs.Relabelling
import ControlBus.Proofs.WorkRuns

namespace ControlBus

/-! ## Tickets -/

namespace WorkItem

/-- An item with a ticket in front of its fields. A ticket is a number, and tells equal items
apart. -/
def withTicket (n : Nat) (item : WorkItem) : WorkItem :=
  { item with fields := (String.ofList (List.replicate n '|'), "") :: item.fields }

def ticket (item : WorkItem) : Nat :=
  match item.fields with
  | [] => 0
  | (text, _) :: _ => text.length

/-- An item without its ticket. -/
def bare (item : WorkItem) : WorkItem := { item with fields := item.fields.tail }

@[simp] theorem ticket_withTicket (n : Nat) (item : WorkItem) :
    (item.withTicket n).ticket = n := by
  simp [ticket, withTicket]

@[simp] theorem bare_withTicket (n : Nat) (item : WorkItem) : (item.withTicket n).bare = item :=
  rfl

/-- Items with tickets by rising numbers. -/
def withTickets (n : Nat) : List WorkItem → List WorkItem
  | [] => []
  | item :: rest => item.withTicket n :: withTickets (n + 1) rest

theorem length_withTickets (n : Nat) (items : List WorkItem) :
    (withTickets n items).length = items.length := by
  induction items generalizing n with
  | nil => rfl
  | cons item rest ih => rw [withTickets, List.length_cons, ih, List.length_cons]

theorem map_ticket_withTickets (n : Nat) (items : List WorkItem) :
    (withTickets n items).map ticket = List.range' n items.length := by
  induction items generalizing n with
  | nil => rfl
  | cons item rest ih =>
    rw [withTickets, List.map_cons, ih, ticket_withTicket, List.length_cons, List.range'_succ]

theorem map_bare_withTickets (n : Nat) (items : List WorkItem) :
    (withTickets n items).map bare = items := by
  induction items generalizing n with
  | nil => rfl
  | cons item rest ih => rw [withTickets, List.map_cons, ih, bare_withTicket]

end WorkItem

open WorkItem

variable {ω : Type}

/-- A workplace where every popped item gets a ticket: the number of items popped before it. The
handler does not see the tickets. -/
def Workplace.ticketed (p : Workplace ω) : Workplace (ω × Nat) where
  pop max w :=
    match p.pop max w.1 with
    | (.ok items, inner) => (.ok (withTickets w.2 items), inner, w.2 + items.length)
    | (.error e, inner) => (.error e, inner, w.2)
  rearm w := (p.rearm w.1, w.2)
  handle item w := ((p.handle item.bare w.1).1, (p.handle item.bare w.1).2, w.2)
  resolved w := ((p.resolved w.1).1, (p.resolved w.1).2, w.2)
  now w := p.now w.1

/-- What happens, where there are tickets. -/
def WorkAct.ticketed : WorkAct ω → WorkAct (ω × Nat)
  | execute => execute
  | sweep => sweep
  | resize n => resize n
  | meanwhile f => meanwhile fun w => (f w.1, w.2)

/-! ## Tickets change nothing -/

/-- The same notes with other labels on the items. -/
def Notes.relabel (f : WorkItem → WorkItem) (n : Notes) : Notes where
  popped := n.popped.map f
  handled := n.handled.map fun h => (f h.1, h.2)

/-- The notes without tickets, and the world without their number. -/
def withoutTickets (w : (ω × Nat) × Notes) : ω × Notes := (w.1.1, w.2.relabel bare)

theorem Workplace.labels_ticketed (p : Workplace ω) :
    p.ticketed.noted.Labels bare withoutTickets p.noted where
  pop max w := by
    simp only [noted, ticketed, withoutTickets]
    rcases p.pop max w.1.1 with ⟨result, inner⟩
    cases result with
    | error e => rfl
    | ok items =>
      simp only [Except.map, map_bare_withTickets, Notes.relabel, Notes.pop, List.map_append]
  rearm w := rfl
  handle item w := by
    simp only [noted, ticketed, withoutTickets, Notes.relabel, Notes.handle, List.map_append,
      List.map_cons, List.map_nil]
  resolved w := rfl
  now w := rfl

namespace WorkRun

variable (p : Workplace ω)

/-- The run without the tickets. -/
def bare (r : WorkRun ((ω × Nat) × Notes)) : WorkRun (ω × Notes) :=
  ⟨r.executor.relabel WorkItem.bare, withoutTickets r.world⟩

theorem bare_act (r : WorkRun ((ω × Nat) × Notes)) (a : WorkAct ω) :
    (r.act p.ticketed.noted a.ticketed.noted).bare = r.bare.act p.noted a.noted := by
  have h := p.labels_ticketed
  cases a with
  | execute => simp only [act, WorkAct.ticketed, WorkAct.noted, bare, h.execute]
  | sweep => simp only [act, WorkAct.ticketed, WorkAct.noted, bare, h.sweep]
  | resize n => rfl
  | meanwhile f => rfl

/-- Tickets change nothing in a run. -/
theorem bare_run (r : WorkRun ((ω × Nat) × Notes)) (acts : List (WorkAct ω)) :
    (r.run p.ticketed.noted (acts.map fun a => a.ticketed.noted)).bare =
      r.bare.run p.noted (acts.map WorkAct.noted) := by
  induction acts generalizing r with
  | nil => rfl
  | cons a rest ih =>
    rw [run, run, List.map_cons, List.map_cons, List.foldl_cons, List.foldl_cons, ← bare_act]
    exact ih _

end WorkRun

/-! ## Handing over in turn -/

namespace Notes

/-- The first `m` items popped have been handed over, and no item was handed over before all
that were popped before it. -/
structure InTurn (m : Nat) (n : Notes) : Prop where
  numbered : n.popped.map ticket = List.range n.popped.length
  met : ∀ t < m, t ∈ n.handled.map (·.1.ticket)
  order : ∀ before h after, n.handled = before ++ h :: after →
    ∀ t < h.1.ticket, t ∈ before.map (·.1.ticket)

variable {m : Nat} {n : Notes} {item : WorkItem}

/-- An item whose turn has come may be handed over, for the first time or again. -/
theorem InTurn.handle (h : n.InTurn m) (ht : item.ticket ≤ m) (v : Verdict) :
    (n.handle item v).InTurn m where
  numbered := h.numbered
  met t hlt := by
    rw [Notes.handle, List.map_append]
    exact List.mem_append_left _ (h.met t hlt)
  order before x after hsplit t hlt := by
    rcases place_snoc hsplit with ⟨rfl, rfl, -⟩ | ⟨rest, -, hearlier⟩
    · exact h.met t (Nat.lt_of_lt_of_le hlt ht)
    · exact h.order before x rest hearlier t hlt

/-- The first item that has not been handed over yet. -/
theorem InTurn.next (h : n.InTurn m) (ht : item.ticket = m) (v : Verdict) :
    (n.handle item v).InTurn (m + 1) where
  numbered := h.numbered
  met t hlt := by
    rw [Notes.handle, List.map_append]
    rcases Nat.lt_succ_iff_lt_or_eq.mp hlt with hlt | rfl
    · exact List.mem_append_left _ (h.met t hlt)
    · exact List.mem_append_right _ (by simp [ht])
  order := (h.handle (Nat.le_of_eq ht) v).order

theorem InTurn.pop (h : n.InTurn n.popped.length) (items : List WorkItem) :
    (n.pop (withTickets n.popped.length items)).InTurn n.popped.length where
  numbered := by
    have hrange := List.range'_append_1 (s := 0) (m := n.popped.length) (n := items.length)
    rw [Nat.zero_add] at hrange
    rw [Notes.pop, List.map_append, h.numbered, map_ticket_withTickets, List.length_append,
      length_withTickets, List.range_eq_range', List.range_eq_range', hrange]
  met := h.met
  order := h.order

theorem completed_append {before after : List (WorkItem × Verdict)}
    (h : n.handled = before ++ after) :
    n.completed =
      ({ handled := before } : Notes).completed ++ ({ handled := after } : Notes).completed := by
  rw [completed, h, List.filterMap_append]
  rfl

theorem mem_completed {z : WorkItem × Verdict} (hz : z ∈ n.handled) (hdone : z.2 = .done) :
    z.1 ∈ n.completed := List.mem_filterMap.mpr ⟨z, hz, if_pos hdone⟩

end Notes

namespace Executor

/-- What is true of the items still to be handed over stays true as they are handed over one by
one. -/
theorem drainItems_hands {q : Workplace ω} {holds : List WorkItem → ω → Notes → Prop}
    (hstep : ∀ item rest w n, holds (item :: rest) w n →
      holds rest (q.handle item w).2 (n.handle item (q.handle item w).1))
    (items : List WorkItem) (e : Executor) {w : ω} {n : Notes} (h : holds items w n) :
    holds [] (drainItems q.noted items e (w, n)).2.1 (drainItems q.noted items e (w, n)).2.2 := by
  induction items generalizing e w n with
  | nil => exact h
  | cons item rest ih =>
    have hworld : (e.handleOne q item w).2 = (q.handle item w).2 := by
      unfold handleOne
      rcases q.handle item w with ⟨verdict, w'⟩
      cases verdict <;> rfl
    rw [drainItems, handleOne_noted, hworld]
    exact ih _ (hstep item rest w n h)

variable {p : Workplace ω} {e : Executor} {n : Notes} {w : ω × Nat}

/-- The items to be handed over are the first ones whose turn has not come yet. -/
def Fresh (total : Nat) (items : List WorkItem) (w : ω × Nat) (n : Notes) : Prop :=
  w.2 = total ∧ n.popped.length = total ∧
    ∃ m, m + items.length = total ∧ n.InTurn m ∧ items.map ticket = List.range' m items.length

theorem Fresh.step {total : Nat} {item : WorkItem} {rest : List WorkItem}
    (h : Fresh total (item :: rest) w n) :
    Fresh total rest (p.ticketed.handle item w).2 (n.handle item (p.ticketed.handle item w).1) := by
  obtain ⟨hcount, hlength, m, hm, hturn, htickets⟩ := h
  rw [List.length_cons] at hm htickets
  rw [List.map_cons, List.range'_succ, List.cons.injEq] at htickets
  exact ⟨hcount, hlength, m + 1, by omega, hturn.next htickets.1 _, htickets.2⟩

/-- Once nothing is left to be handed over, everything popped has had its turn. -/
theorem Fresh.done {total : Nat} (h : Fresh total [] w n) :
    w.2 = n.popped.length ∧ n.InTurn n.popped.length := by
  obtain ⟨hcount, hlength, m, hm, hturn, -⟩ := h
  rw [List.length_nil, Nat.add_zero] at hm
  rw [hlength]
  exact ⟨hcount, hm ▸ hturn⟩

/-- The items to be handed over have all been handed over before. -/
def Again (total : Nat) (items : List WorkItem) (w : ω × Nat) (n : Notes) : Prop :=
  w.2 = total ∧ n.popped.length = total ∧ n.InTurn total ∧ ∀ item ∈ items, item.ticket ≤ total

theorem Again.step {total : Nat} {item : WorkItem} {rest : List WorkItem}
    (h : Again total (item :: rest) w n) :
    Again total rest (p.ticketed.handle item w).2 (n.handle item (p.ticketed.handle item w).1) := by
  obtain ⟨hcount, hlength, hturn, htickets⟩ := h
  exact ⟨hcount, hlength, hturn.handle (htickets item List.mem_cons_self) _,
    fun x hx => htickets x (List.mem_cons_of_mem _ hx)⟩

theorem Again.done {total : Nat} (h : Again total [] w n) :
    w.2 = n.popped.length ∧ n.InTurn n.popped.length := by
  obtain ⟨hcount, hlength, hturn, -⟩ := h
  rw [hlength]
  exact ⟨hcount, hturn⟩

/-- Between operations everything popped has been handed over, each item in its turn. -/
structure Orderly (e : Executor) (w : ω × Nat) (n : Notes) : Prop where
  settled : Settled e n
  count : w.2 = n.popped.length
  turn : n.InTurn n.popped.length

theorem Orderly.execute (h : Orderly e w n) :
    Orderly (e.execute p.ticketed.noted (w, n)).2.1 (e.execute p.ticketed.noted (w, n)).2.2.1
      (e.execute p.ticketed.noted (w, n)).2.2.2 := by
  have hsettled := (execute_settles (p := p.ticketed) h.settled w).settled
  revert hsettled
  simp only [Executor.execute, Workplace.noted, Workplace.ticketed]
  rcases p.pop e.batchSize w.1 with ⟨found, inner⟩
  cases found with
  | error err => exact fun hsettled => ⟨hsettled, h.count, h.turn⟩
  | ok items =>
    intro hsettled
    have hfresh : Fresh (n.popped.length + items.length) (withTickets w.2 items)
        (inner, w.2 + items.length) (n.pop (withTickets w.2 items)) := by
      rw [h.count]
      refine ⟨rfl, ?_, n.popped.length, ?_, h.turn.pop items, ?_⟩
      · rw [Notes.pop, List.length_append, length_withTickets]
      · rw [length_withTickets]
      · rw [length_withTickets, map_ticket_withTickets]
    have hdone := (drainItems_hands (q := p.ticketed) (fun _ _ _ _ h => h.step) _
      { e with
        pending := withTickets w.2 items
        stats := { e.stats with
          executions := e.stats.executions + 1
          popped := e.stats.popped + (withTickets w.2 items).length } } hfresh).done
    simp only [drain, h.settled.pending, List.nil_append] at hsettled ⊢
    exact ⟨hsettled, hdone.1, hdone.2⟩

theorem Orderly.sweep (h : Orderly e w n) :
    Orderly (e.sweep p.ticketed.noted (w, n)).1 (e.sweep p.ticketed.noted (w, n)).2.1
      (e.sweep p.ticketed.noted (w, n)).2.2 := by
  obtain ⟨-, -, ⟨hsettled, -, -⟩⟩ := sweep_settles (p := p.ticketed) h.settled w
  revert hsettled
  simp only [Executor.sweep, Workplace.noted, Workplace.ticketed]
  rcases p.resolved w.1 with ⟨resolved, inner⟩
  dsimp only
  have hperm :=
    RetryQueue.perm_takeReady h.settled.balanced.sorted resolved (p.now inner) e.batchSize
  rcases htake : e.retry.takeReady resolved (p.now inner) e.batchSize with ⟨items, retry⟩
  rw [htake] at hperm
  intro hsettled
  have hagain : Again n.popped.length items (inner, w.2) n := by
    refine ⟨h.count, rfl, h.turn, fun item hitem => ?_⟩
    have hin : item ∈ e.retry.items := hperm.subset (List.mem_append_left _ hitem)
    have hpopped : item ∈ n.popped :=
      h.settled.balanced.items.symm.subset (List.mem_append_right _ (List.mem_append_right _ hin))
    have hticket : item.ticket ∈ n.popped.map ticket := List.mem_map_of_mem hpopped
    rw [h.turn.numbered, List.mem_range] at hticket
    exact Nat.le_of_lt hticket
  have hdone := (drainItems_hands (q := p.ticketed) (fun _ _ _ _ h => h.step) _
    { e with
      retry
      pending := items
      stats := { e.stats with
        sweeps := e.stats.sweeps + 1
        resurfaced := e.stats.resurfaced + items.length } } hagain).done
  simp only [drain, h.settled.pending, List.nil_append] at hsettled ⊢
  exact ⟨hsettled, hdone.1, hdone.2⟩

end Executor

namespace WorkRun

variable {p : Workplace ω} {r : WorkRun ((ω × Nat) × Notes)}

def Orderly (r : WorkRun ((ω × Nat) × Notes)) : Prop :=
  Executor.Orderly r.executor r.world.1 r.world.2

theorem Orderly.act (h : r.Orderly) (a : WorkAct ω) :
    (r.act p.ticketed.noted a.ticketed.noted).Orderly := by
  cases a with
  | execute => exact Executor.Orderly.execute h
  | sweep => exact Executor.Orderly.sweep h
  | resize n => exact ⟨settled_act (p := p.ticketed) h.settled (.resize n), h.count, h.turn⟩
  | meanwhile f => exact ⟨h.settled, h.count, h.turn⟩

theorem Orderly.run (h : r.Orderly) (acts : List (WorkAct ω)) :
    (r.run p.ticketed.noted (acts.map fun a => a.ticketed.noted)).Orderly := by
  induction acts generalizing r with
  | nil => exact h
  | cons a rest ih => exact ih (h.act a)

theorem orderly_start (batchSize threshold : Nat) (w : ω) :
    Orderly ⟨Executor.ofSettings batchSize threshold, (w, 0), {}⟩ where
  settled := settled_start batchSize threshold
  count := rfl
  turn := ⟨rfl, by simp, by simp⟩

/-! ## Who may be overtaken -/

section Order

variable {before after : List (WorkItem × Verdict)} {y : WorkItem × Verdict}

/-- What was popped is what was completed and what is put off, so no item is completed twice. -/
theorem Orderly.nodup_completed (h : r.Orderly) : (r.world.2.completed.map ticket).Nodup := by
  have hperm := h.settled.balanced.items.map ticket
  rw [h.turn.numbered, List.nil_append, List.map_append] at hperm
  exact (List.nodup_append.mp (hperm.nodup List.nodup_range)).1

/-- An item handed over once more was not completed before. -/
theorem Orderly.put_off_before (h : r.Orderly) (hsplit : r.world.2.handled = before ++ y :: after)
    {x z : WorkItem × Verdict} (hx : x ∈ after) (hdone : x.2 = .done) (hz : z ∈ before)
    (hsame : z.1.ticket = x.1.ticket) : ∃ c, z.2 = .retry c := by
  cases hverdict : z.2 with
  | retry c => exact ⟨c, rfl⟩
  | done =>
    have hnodup := h.nodup_completed
    rw [Notes.completed_append hsplit, List.map_append, List.nodup_append] at hnodup
    refine absurd hsame (hnodup.2.2 _ ?_ _ ?_)
    · exact List.mem_map_of_mem (Notes.mem_completed hz hverdict)
    · exact List.mem_map_of_mem (Notes.mem_completed (List.mem_cons_of_mem _ hx) hdone)

/-- Whoever is completed after an item that was popped later was put off before. -/
theorem Orderly.put_off_if_overtaken (h : r.Orderly)
    (hsplit : r.world.2.handled = before ++ y :: after) {x : WorkItem × Verdict} (hx : x ∈ after)
    (hdone : x.2 = .done) (hlater : x.1.ticket < y.1.ticket) :
    ∃ z ∈ before, z.1.ticket = x.1.ticket ∧ ∃ c, z.2 = .retry c := by
  obtain ⟨z, hz, hsame⟩ := List.mem_map.mp (h.turn.order _ _ _ hsplit _ hlater)
  exact ⟨z, hz, hsame, h.put_off_before hsplit hx hdone hz hsame⟩

/-- What is completed before an item that is never put off was popped before it. -/
theorem Orderly.keeps_its_place (h : r.Orderly) {x y : WorkItem}
    (hsub : [x, y].Sublist r.world.2.completed)
    (hnever : ∀ z ∈ r.world.2.handled, z.1.ticket = y.ticket → z.2 = .done) :
    x.ticket < y.ticket := by
  have hne : x.ticket ≠ y.ticket := by
    have hnodup := h.nodup_completed.sublist (hsub.map ticket)
    simpa using hnodup
  obtain ⟨earlier, later, hcompleted, hx, hy⟩ := List.cons_sublist_iff.mp hsub
  rw [List.singleton_sublist] at hy
  obtain ⟨before, after, hhandled, rfl, rfl⟩ := List.filterMap_eq_append_iff.mp hcompleted
  obtain ⟨hx', hxin, hxdone⟩ := List.mem_filterMap.mp hx
  obtain ⟨hy', hyin, hydone⟩ := List.mem_filterMap.mp hy
  obtain ⟨hverdict, rfl⟩ : hy'.2 = .done ∧ hy'.1 = y := by simpa using hydone
  obtain ⟨-, rfl⟩ : hx'.2 = .done ∧ hx'.1 = x := by simpa using hxdone
  obtain ⟨start, middle, rfl⟩ := List.append_of_mem hxin
  rw [List.append_assoc, List.cons_append] at hhandled
  by_contra hnot
  have hlater : hy'.1.ticket < hx'.1.ticket := by omega
  obtain ⟨z, hz, hsame, c, hretry⟩ :=
    h.put_off_if_overtaken hhandled (List.mem_append_right _ hyin) hverdict hlater
  have hzdone := hnever z (hhandled ▸ List.mem_append_left _ hz) hsame
  rw [hretry] at hzdone
  nomatch hzdone

end Order

/-- Whatever the handler answers and whatever else happens: with a ticket on each popped item,
which changes nothing and tells how many items were popped before it, no item is completed twice,
no item is handed over before all that were popped before it, and an item that is completed after
one popped later was put off before that one was handed over. So what is completed before an item
that is never put off was popped before it. -/
theorem only_items_put_off_are_overtaken {σ η : Type} [SharedStore σ]
    (handle : WorkItem → Surroundings σ η → Verdict × Surroundings σ η)
    (batchSize threshold : Nat) (bench : Bench σ η) (acts : List (WorkAct (Bench σ η))) :
    let p := Bench.workplace handle
    let e := Executor.ofSettings batchSize threshold
    let r := WorkRun.run p.ticketed.noted ⟨e, (bench, 0), {}⟩ (acts.map fun a => a.ticketed.noted)
    let notes := r.world.2
    r.bare = WorkRun.run p.noted ⟨e, bench, {}⟩ (acts.map WorkAct.noted) ∧
    r.bare.forget = WorkRun.run p ⟨e, bench⟩ acts ∧
    notes.popped.map ticket = List.range notes.popped.length ∧
    (notes.completed.map ticket).Nodup ∧
    (∀ before y after, notes.handled = before ++ y :: after →
      (∀ t < y.1.ticket, ∃ z ∈ before, z.1.ticket = t) ∧
      ∀ x ∈ after, x.2 = .done → x.1.ticket < y.1.ticket →
        ∃ z ∈ before, z.1.ticket = x.1.ticket ∧ ∃ c, z.2 = .retry c) ∧
    ∀ x y, [x, y].Sublist notes.completed →
      (∀ z ∈ notes.handled, z.1.ticket = y.ticket → z.2 = .done) → x.ticket < y.ticket := by
  intro p e r notes
  have horderly : r.Orderly := (orderly_start batchSize threshold bench).run acts
  have hbare : r.bare = WorkRun.run p.noted ⟨e, bench, {}⟩ (acts.map WorkAct.noted) :=
    bare_run p _ acts
  refine ⟨hbare, ?_, horderly.turn.numbered, horderly.nodup_completed, ?_, ?_⟩
  · rw [hbare]
    exact forget_run p _ acts
  · intro before y after hsplit
    exact ⟨fun t ht => List.mem_map.mp (horderly.turn.order before y after hsplit t ht),
      fun x hx hdone hlater => horderly.put_off_if_overtaken hsplit hx hdone hlater⟩
  · intro x y hsub hnever
    exact horderly.keeps_its_place hsub hnever

/-! ## An item put off is overtaken -/

/-- A handler whose first item has to wait for a port, and no item after it. -/
def waitsOnce (_ : WorkItem) (around : Surroundings MemoryStore Bool) :
    Verdict × Surroundings MemoryStore Bool :=
  if around.rest then (.done, around)
  else (.retry ⟨"port", "Eth0"⟩, { around with rest := true })

/-- A port is written and popped, written again and popped again, and then the first item need
not wait any more. What was popped, and what was completed. -/
def writtenTwice (attach : StoreOp MemoryStore Consumer)
    (set : FieldList → StoreOp MemoryStore Unit) (older newer : FieldList) :
    Option (List WorkItem × List WorkItem) :=
  let write (fields : FieldList) : WorkAct (Bench MemoryStore Bool) := .meanwhile fun b =>
    { b with around := { b.around with store := ((set fields).run b.around.store).2 } }
  let resolve : WorkAct (Bench MemoryStore Bool) := .meanwhile fun b =>
    { b with around := { b.around with resolved := b.around.resolved ++ [⟨"port", "Eth0"⟩] } }
  match attach.run (MemoryStore.empty 64 7999 false) with
  | (.error _, _) => none
  | (.ok consumer, store) =>
    let r := WorkRun.run (Bench.workplace waitsOnce).noted
      ⟨Executor.ofSettings 8 300000, ⟨consumer, { store, rest := false }⟩, {}⟩
      ([write older, .execute, write newer, .execute, resolve, .sweep].map WorkAct.noted)
    some (r.world.2.popped, r.world.2.completed)

/-- The older of two items of one key is completed after the newer one, be the table a queue or a
coalescing one. -/
theorem newer_state_is_overwritten :
    let ports : TableName := { name := "PORT" }
    let older : WorkItem := { key := "Eth0", operation := .set, fields := [("mtu", "1500")] }
    let newer : WorkItem := { key := "Eth0", operation := .set, fields := [("mtu", "9100")] }
    writtenTwice (.ordered <$> OrderedConsumer.attach ports)
      (fun fields => do let _ ← OrderedQueue.set ports "Eth0" fields) older.fields newer.fields =
        some ([older, newer], [newer, older]) ∧
    writtenTwice (.coalescing <$> CoalescingConsumer.attach ports)
      (CoalescingState.set ports "Eth0") older.fields newer.fields =
        some ([older, newer], [newer, older]) := by
  decide +kernel

end WorkRun

end ControlBus
