-- The periods in which the keys of a coalescing table wait to be popped. A period begins with the
-- first change of a key and ends when the key is popped or the table is cleared; none is lost,
-- none ends twice, and each is announced by one token when it begins.
import ControlBus.Proofs.ScriptRuns

namespace ControlBus

/-! ## Periods -/

/-- A period in which a key waits to be popped: the key, and how many periods of its table began
before. -/
structure Period where
  key : String
  number : Nat
deriving DecidableEq

/-- The periods of a table: all that have begun, and what has become of them. -/
structure Periods where
  begun : List Period := []
  pending : List Period := []
  popped : List Period := []
  cleared : List Period := []

namespace Periods

/-- The keys that wait to be popped. -/
def pendingKeys (p : Periods) : List String := p.pending.map (·.key)

/-- A key that does not wait already begins to wait. -/
def begin (key : String) (p : Periods) : Periods :=
  if key ∈ p.pendingKeys then p
  else
    { p with
      begun := p.begun ++ [⟨key, p.begun.length⟩]
      pending := p.pending ++ [⟨key, p.begun.length⟩] }

def note (p : Periods) : TableEvent → Periods
  | .changed key _ => p.begin key
  | .popped keys =>
    { p with
      pending := p.pending.filter (·.key ∉ keys)
      popped := p.popped ++ p.pending.filter (·.key ∈ keys) }
  | .cleared => { p with pending := [], cleared := p.cleared ++ p.pending }

/-- The periods of a table after some events. -/
def ofHistory (history : List TableEvent) : Periods := history.foldl note {}

theorem ofHistory_snoc (history : List TableEvent) (e : TableEvent) :
    ofHistory (history ++ [e]) = (ofHistory history).note e := by
  simp [ofHistory, List.foldl_append]

/-! ## No period is lost -/

/-- Periods are told apart by their numbers, no key waits twice, and each period is still pending,
popped or cleared. -/
structure Conserved (p : Periods) : Prop where
  numbered : p.begun.map (·.number) = List.range p.begun.length
  keys : p.pendingKeys.Nodup
  ends : p.begun.Perm (p.pending ++ p.popped ++ p.cleared)

variable {p : Periods}

theorem Conserved.begin (h : p.Conserved) (key : String) : (p.begin key).Conserved := by
  unfold Periods.begin
  split
  · exact h
  · rename_i hnot
    refine ⟨?_, ?_, ?_⟩
    · simp only [List.map_append, h.numbered, List.map_cons, List.map_nil, List.length_append,
        List.length_cons, List.length_nil, List.range_succ]
    · simp only [pendingKeys, List.map_append, List.map_cons, List.map_nil]
      exact List.Nodup.append h.keys (List.nodup_singleton key)
        (List.disjoint_singleton.mpr hnot)
    · simp only [List.append_assoc]
      refine (h.ends.append_right _).trans ?_
      simp only [List.append_assoc]
      refine List.Perm.append_left _ ?_
      simp only [← List.append_assoc]
      exact List.perm_append_comm

theorem Conserved.note (h : p.Conserved) (e : TableEvent) : (p.note e).Conserved := by
  cases e with
  | changed key c => exact h.begin key
  | popped keys =>
    refine ⟨h.numbered, h.keys.sublist (List.filter_sublist.map _), h.ends.trans ?_⟩
    have hsplit : (p.pending.filter (·.key ∉ keys) ++ p.pending.filter (·.key ∈ keys)).Perm
        p.pending := by
      simpa using List.filter_append_perm (fun q : Period => decide (q.key ∉ keys)) p.pending
    simp only [Periods.note, List.append_assoc]
    refine (hsplit.symm.append_right _).trans ?_
    rw [List.append_assoc]
    exact List.Perm.append_left _ (List.perm_append_comm_assoc ..)
  | cleared =>
    refine ⟨h.numbered, List.nodup_nil, h.ends.trans ?_⟩
    simp only [Periods.note, List.nil_append]
    rw [List.append_assoc]
    refine List.perm_append_comm.trans ?_
    rw [List.append_assoc]

theorem conserved_ofHistory (history : List TableEvent) : (ofHistory history).Conserved := by
  induction history using List.reverseRecOn with
  | nil => exact ⟨rfl, List.nodup_nil, List.Perm.refl _⟩
  | append_singleton history e ih =>
    rw [ofHistory_snoc]
    exact ih.note e

theorem Conserved.nodup_begun (h : p.Conserved) : p.begun.Nodup := by
  apply List.Nodup.of_map (·.number)
  rw [h.numbered]
  exact List.nodup_range

/-! ## Which keys wait -/

theorem mem_pendingKeys_begin (p : Periods) (key k : String) :
    k ∈ (p.begin key).pendingKeys ↔ k ∈ p.pendingKeys ∨ k = key := by
  unfold Periods.begin
  split
  · rename_i hin
    constructor
    · exact Or.inl
    · rintro (hk | rfl)
      · exact hk
      · exact hin
  · simp [pendingKeys]

/-- A key waits just if it has changed since it was last popped or cleared. -/
theorem mem_pendingKeys_ofHistory (history : List TableEvent) (k : String) :
    k ∈ (ofHistory history).pendingKeys ↔ (Ledger.ofHistory k history).waiting ≠ [] := by
  induction history using List.reverseRecOn with
  | nil => simp [ofHistory, Ledger.ofHistory, pendingKeys]
  | append_singleton history e ih =>
    rw [ofHistory_snoc, Ledger.ofHistory_snoc]
    cases e with
    | changed key c =>
      rw [note, mem_pendingKeys_begin, ih, Ledger.note]
      split
      · rename_i hk
        simp [hk, Ledger.stage]
      · rename_i hk
        simp [hk]
    | popped keys =>
      have hfilter : k ∈ ((ofHistory history).note (.popped keys)).pendingKeys ↔
          k ∈ (ofHistory history).pendingKeys ∧ k ∉ keys := by
        simp only [note, pendingKeys, List.mem_map, List.mem_filter, decide_eq_true_eq]
        constructor
        · rintro ⟨q, ⟨hq, hnot⟩, rfl⟩
          exact ⟨⟨q, hq, rfl⟩, hnot⟩
        · rintro ⟨⟨q, hq, rfl⟩, hnot⟩
          exact ⟨q, ⟨hq, hnot⟩, rfl⟩
      rw [hfilter, ih, Ledger.note]
      split
      · rename_i hk
        simp [hk, Ledger.land]
      · rename_i hk
        simp [hk]
    | cleared => simp [note, pendingKeys, Ledger.note, Ledger.forget]

theorem length_begin (p : Periods) (key : String) :
    (p.begin key).begun.length = p.begun.length + if key ∈ p.pendingKeys then 0 else 1 := by
  unfold Periods.begin
  split <;> simp

end Periods

/-! ## Tokens -/

/-- The token of a table. -/
def TableName.token (t : TableName) : Announcement := ⟨t.channel, wakeToken⟩

/-- Scripts that bring these events about announce one token for each period that begins. -/
structure Announced (t : TableName) (history : List TableEvent) (s : MemoryStore)
    (scripts : List Script) (events : List TableEvent) : Prop where
  replays : Replays t (history ++ events) (s.afterScripts scripts)
  tokens : (Periods.ofHistory (history ++ events)).begun.length =
    (Periods.ofHistory history).begun.length + (s.contents.runAll scripts).1.count t.token

theorem Keyspace.runAll_quiet {k : Keyspace} (h : k.outbox = []) (scripts : List Script) :
    (k.runAll scripts).2.outbox = [] := by
  induction scripts generalizing k with
  | nil => exact h
  | cons script rest ih => exact ih rfl

theorem Keyspace.runAll_one (script : Script) (k : Keyspace) :
    (k.runAll [script]).1 = (k.run script).2.outbox := List.append_nil _

variable {t : TableName} {history events more : List TableEvent} {s : MemoryStore}
  {scripts : List Script}

/-- The pending set holds the keys that wait. -/
theorem Replays.mem_pendingSet (h : Replays t history s) (k : String) :
    k ∈ s.contents.members t.pendingSet ↔ k ∈ (Periods.ofHistory history).pendingKeys := by
  rw [Periods.mem_pendingKeys_ofHistory, ← (h.agrees k).pending]
  exact decide_eq_true_iff.symm

theorem Replays.perm_pendingSet (h : Replays t history s) :
    (s.contents.members t.pendingSet).Perm (Periods.ofHistory history).pendingKeys :=
  (List.perm_ext_iff_of_nodup (h.valid.nodup _) (Periods.conserved_ofHistory history).keys).mpr
    h.mem_pendingSet

namespace Announced

theorem nothing (h : Replays t history s) : Announced t history s [] [] where
  replays := by rwa [List.append_nil]
  tokens := by
    rw [List.append_nil]
    rfl

theorem append {further : List Script} (h : Announced t history s scripts events)
    (h' : Announced t (history ++ events) (s.afterScripts scripts) further more) :
    Announced t history s (scripts ++ further) (events ++ more) where
  replays := by
    rw [← List.append_assoc, MemoryStore.afterScripts_append]
    exact h'.replays
  tokens := by
    have htokens := h'.tokens
    rw [h.tokens, List.append_assoc, Nat.add_assoc] at htokens
    rw [htokens, Keyspace.runAll_append, List.count_append]
    rfl

/-- A script that changes one key. -/
theorem change (h : Replays t history s) (hquiet : s.contents.outbox = []) {script : Script}
    {key : String} {c : StagedChange}
    (hreplays : Replays t (history ++ [.changed key c]) (s.afterScripts [script]))
    (hcount : (s.contents.run script).2.outbox.count t.token = s.contents.outbox.count t.token +
      if key ∈ s.contents.members t.pendingSet then 0 else 1) :
    Announced t history s [script] [.changed key c] where
  replays := hreplays
  tokens := by
    rw [hquiet, List.count_nil, Nat.zero_add] at hcount
    rw [Periods.ofHistory_snoc, Periods.note, Periods.length_begin, Keyspace.runAll_one, hcount]
    simp only [h.mem_pendingSet]

/-- A script that begins no period. -/
theorem quietly (hquiet : s.contents.outbox = []) {script : Script} {e : TableEvent}
    (hreplays : Replays t (history ++ [e]) (s.afterScripts [script]))
    (htouches : s.contents.Touches (s.contents.run script).2)
    (he : ((Periods.ofHistory history).note e).begun = (Periods.ofHistory history).begun) :
    Announced t history s [script] [e] where
  replays := hreplays
  tokens := by
    have hcount := htouches.count_token t.channel
    rw [hquiet, List.count_nil] at hcount
    rw [Periods.ofHistory_snoc, he, Keyspace.runAll_one]
    exact congrArg ((Periods.ofHistory history).begun.length + ·) hcount.symm

theorem set (h : Replays t history s) (ha : t.layout.Apart) (hquiet : s.contents.outbox = [])
    (key : String) (fields : FieldList) :
    Announced t history s (CoalescingState.writeScripts t key fields)
      (eventsOfSet key fields) := by
  obtain ⟨s', hrun, hreplays⟩ := h.set ha key fields
  rw [CoalescingState.run_set t h.ready] at hrun
  obtain rfl := congrArg Prod.snd hrun
  revert hreplays
  unfold CoalescingState.writeScripts eventsOfSet
  split
  · exact fun _ => nothing h
  · intro hreplays
    exact change h hquiet hreplays (Keyspace.count_stageWrite h.valid t.layout key fields)

theorem del (h : Replays t history s) (ha : t.layout.Apart) (hquiet : s.contents.outbox = [])
    (key : String) :
    Announced t history s [.stageDelete t.layout key wakeToken] [.changed key .del] := by
  obtain ⟨s', hrun, hreplays⟩ := h.del ha key
  rw [CoalescingState.run_del t h.ready] at hrun
  obtain rfl := congrArg Prod.snd hrun
  exact change h hquiet hreplays (Keyspace.count_stageDelete h.valid ha key)

theorem setBatch (h : Replays t history s) (ha : t.layout.Apart)
    (hquiet : s.contents.outbox = []) (items : List (String × FieldList)) :
    Announced t history s (items.flatMap fun e => CoalescingState.writeScripts t e.1 e.2)
      (items.flatMap fun e => eventsOfSet e.1 e.2) := by
  induction items generalizing history s with
  | nil => exact nothing h
  | cons e rest ih =>
    have hone := set h ha hquiet e.1 e.2
    exact hone.append (ih hone.replays (Keyspace.runAll_quiet hquiet _))

theorem delBatch (h : Replays t history s) (ha : t.layout.Apart)
    (hquiet : s.contents.outbox = []) (keys : List String) :
    Announced t history s (keys.map fun k => .stageDelete t.layout k wakeToken)
      (keys.map fun k => .changed k .del) := by
  induction keys generalizing history s with
  | nil => exact nothing h
  | cons key rest ih =>
    have hone := del h ha hquiet key
    exact hone.append (ih hone.replays (Keyspace.runAll_quiet hquiet _))

theorem clear (h : Replays t history s) (ha : t.layout.Apart) (hquiet : s.contents.outbox = []) :
    Announced t history s [.coalescedClear t.layout] [.cleared] := by
  obtain ⟨n, s', hrun, hreplays⟩ := h.clear ha
  rw [CoalescingState.run_clear t h.ready] at hrun
  obtain rfl := congrArg Prod.snd hrun
  exact quietly hquiet hreplays (Keyspace.Touches.coalescedClear t.layout) rfl

theorem pop (hquiet : s.contents.outbox = []) {keys : List String} {max : Nat}
    (hreplays : Replays t (history ++ [.popped keys])
      (s.afterScripts (CoalescingConsumer.popScripts t max))) :
    Announced t history s (CoalescingConsumer.popScripts t max) [.popped keys] := by
  revert hreplays
  unfold CoalescingConsumer.popScripts
  split
  · intro hreplays
    refine ⟨hreplays, ?_⟩
    rw [Periods.ofHistory_snoc]
    rfl
  · intro hreplays
    exact quietly hquiet hreplays (Keyspace.Touches.coalescedPop t.layout max) rfl

end Announced

/-! ## Runs of a table -/

/-- Popped keys that all waited end one period each. -/
theorem Periods.Conserved.popped {p : Periods} (h : p.Conserved) {keys : List String}
    (hnodup : keys.Nodup) (hpending : ∀ k ∈ keys, k ∈ p.pendingKeys) :
    ((p.note (.popped keys)).popped.map (·.key)).Perm (p.popped.map (·.key) ++ keys) := by
  have hkeys : ((p.pending.filter (·.key ∈ keys)).map (·.key)).Perm keys := by
    refine (List.perm_ext_iff_of_nodup (h.keys.sublist (List.filter_sublist.map _)) hnodup).mpr ?_
    intro k
    simp only [List.mem_map, List.mem_filter, decide_eq_true_eq]
    constructor
    · rintro ⟨q, ⟨-, hin⟩, rfl⟩
      exact hin
    · intro hin
      obtain ⟨q, hq, rfl⟩ := List.mem_map.mp (hpending k hin)
      exact ⟨q, ⟨hq, hin⟩, rfl⟩
  simp only [Periods.note, List.map_append]
  exact hkeys.append_left _

namespace TableRun

variable {r : TableRun}

/-- The periods of the table, as the run has seen them. -/
def periods (r : TableRun) : Periods := Periods.ofHistory r.history

/-- A pop answers an item for each key that it draws, and notes just these keys. -/
theorem Faithful.pop_keys (h : r.Faithful t) (ha : t.layout.Apart) (max : Nat) :
    ∃ items r', r.pop max = (.ok items, r') ∧ r'.Faithful t ∧
      items.map (·.key) = (r.store.contents.popMembers t.pendingSet max).1 ∧
      r'.periods = r.periods.note (.popped (items.map (·.key))) := by
  obtain ⟨items, c', hpop, -, hkeys⟩ := r.consumer.run_pop h.replays.ready max
  have hr' := h.act ha (.pop max)
  rw [h.table] at hkeys
  rw [TableRun.act, TableRun.pop, hpop] at hr'
  refine ⟨items, _, by rw [TableRun.pop, hpop], hr', hkeys, ?_⟩
  exact Periods.ofHistory_snoc _ _

/-- Each act announces one token for each period that it begins. -/
theorem announced_act (h : r.Faithful t) (ha : t.layout.Apart)
    (hquiet : r.store.contents.outbox = []) (a : TableAct) :
    ∃ events, (r.act t a).history = r.history ++ events ∧
      Announced t r.history r.store (a.scripts t) events := by
  have hreplays := h.replays
  cases a with
  | set key fields => exact ⟨_, rfl, Announced.set hreplays ha hquiet key fields⟩
  | del key => exact ⟨_, rfl, Announced.del hreplays ha hquiet key⟩
  | setBatch items => exact ⟨_, rfl, Announced.setBatch hreplays ha hquiet items⟩
  | delBatch keys => exact ⟨_, rfl, Announced.delBatch hreplays ha hquiet keys⟩
  | clear => exact ⟨_, rfl, Announced.clear hreplays ha hquiet⟩
  | pop max =>
    obtain ⟨items, c', hpop, -, -⟩ := r.consumer.run_pop h.replays.ready max
    have hstore := (store_act h.replays.ready h.table (.pop max)).1
    have hr' := (h.act ha (.pop max)).replays
    have hhistory : (r.act t (.pop max)).history =
        r.history ++ [.popped (items.map (·.key))] := by
      rw [act, pop, hpop]
    rw [hstore, hhistory] at hr'
    exact ⟨_, hhistory, Announced.pop hquiet hr'⟩

theorem tokens_act (h : r.Faithful t) (ha : t.layout.Apart)
    (hquiet : r.store.contents.outbox = []) (a : TableAct) :
    (r.act t a).periods.begun.length =
      r.periods.begun.length + (r.store.contents.runAll (a.scripts t)).1.count t.token := by
  obtain ⟨events, hevents, hannounced⟩ := announced_act h ha hquiet a
  rw [periods, hevents]
  exact hannounced.tokens

theorem quiet_act (h : r.Faithful t) (hquiet : r.store.contents.outbox = []) (a : TableAct) :
    (r.act t a).store.contents.outbox = [] := by
  rw [(store_act h.replays.ready h.table a).1]
  exact Keyspace.runAll_quiet hquiet _

/-- A run announces one token for each period that it begins. -/
theorem tokens_run (h : r.Faithful t) (ha : t.layout.Apart)
    (hquiet : r.store.contents.outbox = []) (acts : List TableAct) :
    (r.run t acts).periods.begun.length = r.periods.begun.length +
      (r.store.contents.runAll (acts.flatMap (·.scripts t))).1.count t.token := by
  induction acts generalizing r with
  | nil => rfl
  | cons a rest ih =>
    have hone := tokens_act h ha hquiet a
    have hrest := ih (h.act ha a) (quiet_act h hquiet a)
    rw [(store_act h.replays.ready h.table a).1] at hrest
    rw [List.flatMap_cons, Keyspace.runAll_append, List.count_append, ← Nat.add_assoc, ← hone]
    exact hrest

/-- What a run makes of the store, whoever listens to it. -/
theorem store_start_run (t : TableName) (announcing : Bool) (draws : List Nat) (b : Switchboard)
    (maxPayload : Nat) (signal : TokenCounter) (acts : List TableAct) :
    ((start t announcing draws b maxPayload signal).run t acts).store =
      MemoryStore.afterScripts (acts.flatMap (·.scripts t))
        { contents := { announcing, draws }, board := b, maxPayload } :=
  store_run (r := start t announcing draws b maxPayload signal) rfl rfl acts

/-! ## The store and the periods -/

/-- The keys in the pending set. -/
def pendingSet (t : TableName) (r : TableRun) : List String :=
  (r.store.contents.set t.pendingSet).members

theorem Faithful.perm_pendingSet (h : r.Faithful t) :
    (r.pendingSet t).Perm r.periods.pendingKeys := h.replays.perm_pendingSet

theorem Faithful.length_pendingSet (h : r.Faithful t) :
    (r.pendingSet t).length = r.periods.pending.length := by
  rw [h.perm_pendingSet.length_eq, Periods.pendingKeys, List.length_map]

/-- A pop takes as many pending keys as it may, and ends one period of each. -/
theorem Faithful.pop_ends (h : r.Faithful t) (ha : t.layout.Apart) (max : Nat) :
    ∃ items r', r.pop max = (.ok items, r') ∧
      items.length = min max r.periods.pending.length ∧
      (items.map (·.key)).Nodup ∧
      (∀ item ∈ items, item.key ∈ r.pendingSet t ∧ item.key ∉ r'.pendingSet t) ∧
      (r'.periods.popped.map (·.key)).Perm
        (r.periods.popped.map (·.key) ++ items.map (·.key)) := by
  obtain ⟨items, r', hpop, hr', hkeys, hperiods⟩ := h.pop_keys ha max
  obtain ⟨-, hsplit, hlength, -⟩ := Keyspace.popMembers_spec h.replays.valid t.pendingSet max
  have hnodup := Keyspace.nodup_popMembers h.replays.valid t.pendingSet max
  rw [← hkeys] at hsplit hlength hnodup
  have hin : ∀ k ∈ items.map (·.key), k ∈ r.pendingSet t := fun k hk =>
    hsplit.symm.subset (List.mem_append_left _ hk)
  refine ⟨items, r', hpop, ?_, hnodup, ?_, ?_⟩
  · rw [← h.length_pendingSet, ← List.length_map (·.key), hlength]
    rfl
  · intro item hitem
    have hkey : item.key ∈ items.map (·.key) := List.mem_map_of_mem hitem
    refine ⟨hin _ hkey, fun hstill => ?_⟩
    have hafter := hr'.perm_pendingSet.subset hstill
    rw [hperiods] at hafter
    obtain ⟨q, hq, hsame⟩ := List.mem_map.mp hafter
    have hnot := of_decide_eq_true (List.mem_filter.mp hq).2
    exact hnot (hsame ▸ hkey)
  · rw [hperiods]
    exact (Periods.conserved_ofHistory r.history).popped hnodup fun k hk =>
      h.perm_pendingSet.subset (hin k hk)

/-- Clearing drops all pending keys and answers how many they were. -/
theorem Faithful.clear_ends (h : r.Faithful t) (ha : t.layout.Apart) :
    ∃ s', (CoalescingState.clear t).run r.store = (.ok r.periods.pending.length, s') ∧
      ∀ k, k ∉ (s'.contents.set t.pendingSet).members := by
  obtain ⟨n, s', hrun, hcleared⟩ := h.replays.clear ha
  have hclear := CoalescingState.run_clear t h.replays.ready
  rw [← (Keyspace.popMembers_all h.replays.valid t.pendingSet).length_eq] at hclear
  obtain ⟨hn, rfl⟩ := Prod.mk.inj (hrun.symm.trans hclear)
  refine ⟨r.store.afterScripts [.coalescedClear t.layout], ?_, fun k hk => ?_⟩
  · rw [hclear, ← h.length_pendingSet]
    rfl
  · have hwaits := (hcleared.mem_pendingSet k).mp hk
    rw [Periods.ofHistory_snoc] at hwaits
    exact List.not_mem_nil hwaits

/-- Only pending keys are marked for deletion. -/
theorem Faithful.marked_pending (h : r.Faithful t) {k : String}
    (hk : k ∈ (r.store.contents.set t.deleteSet).members) : k ∈ r.pendingSet t := by
  have hagrees := h.replays.agrees k
  have hmarked := hagrees.marked.mp (decide_eq_true hk)
  exact of_decide_eq_true (hagrees.pending.mpr (List.ne_nil_of_mem hmarked))

/-- Only pending keys have anything staged. -/
theorem Faithful.staged_pending (h : r.Faithful t) (htidy : r.store.contents.Tidy) {k : String}
    (hk : Assoc.has r.store.contents.records (t.stagingKey k)) : k ∈ r.pendingSet t := by
  have hagrees := h.replays.agrees k
  obtain ⟨record, hrecord⟩ := Option.isSome_iff_exists.mp hk
  have hstaged : (r.store.contents.keyState t.layout k).staged = record := by
    simp only [Keyspace.keyState, TableName.layout_stagingKey, Keyspace.record, hrecord,
      Option.getD_some]
  refine of_decide_eq_true (hagrees.pending.mpr fun hnone => ?_)
  rw [hagrees.staged, hnone] at hstaged
  exact htidy.records _ (hrecord.trans (congrArg some hstaged.symm))

/-- Whatever producers and the consumer of a table do, and whichever keys the pops pick: the table
counts as pending just the keys that have changed since they were last popped or cleared. A
pending period ends at most once: it is still pending, popped by one pop as one item, or cleared.
One token is published for each period when it begins, and none else, whoever listens. A pop takes
as many pending keys as it may, each once, and a clearing answers how many keys it dropped. Only
pending keys are marked for deletion or have anything staged. -/
theorem pending_periods_are_conserved (name : String) (announcing : Bool) (draws : List Nat)
    (board : Switchboard) (maxPayload : Nat) (signal : TokenCounter) (acts : List TableAct) :
    let t : TableName := { name }
    let runOn (b : Switchboard) := (start t announcing draws b maxPayload signal).run t acts
    let r := runOn board
    (CoalescingState.pendingCount t).run r.store = (.ok r.periods.pending.length, r.store) ∧
    r.periods.pendingKeys.Nodup ∧
    (∀ k, k ∈ r.periods.pendingKeys ↔ (r.ledger k).waiting ≠ []) ∧
    (∀ k, k ∈ r.periods.pendingKeys ↔ k ∈ r.pendingSet t) ∧
    r.periods.begun.Nodup ∧
    r.periods.begun.Perm (r.periods.pending ++ r.periods.popped ++ r.periods.cleared) ∧
    (∃ said : List Announcement,
      (∀ b, (runOn b).store.board = b.publishAll (said.map Announcement.message)) ∧
      said.count t.token = r.periods.begun.length) ∧
    (∀ a, ∃ said : List Announcement,
      (∀ b, (({ r with store := { r.store with board := b } } : TableRun).act t a).store.board =
        b.publishAll (said.map Announcement.message)) ∧
      r.periods.begun.length + said.count t.token = (r.act t a).periods.begun.length) ∧
    (∀ max, ∃ items r', r.pop max = (.ok items, r') ∧
      items.length = min max r.periods.pending.length ∧
      (items.map (·.key)).Nodup ∧
      (∀ item ∈ items, item.key ∈ r.pendingSet t ∧ item.key ∉ r'.pendingSet t) ∧
      (r'.periods.popped.map (·.key)).Perm
        (r.periods.popped.map (·.key) ++ items.map (·.key))) ∧
    (∃ s', (CoalescingState.clear t).run r.store = (.ok r.periods.pending.length, s') ∧
      ∀ k, k ∉ (s'.contents.set t.pendingSet).members) ∧
    (∀ k ∈ (r.store.contents.set t.deleteSet).members, k ∈ r.pendingSet t) ∧
    ∀ k, Assoc.has r.store.contents.records (t.stagingKey k) → k ∈ r.pendingSet t := by
  intro t runOn r
  have ha : t.layout.Apart := TableName.apart name
  have hstart : (start t announcing draws board maxPayload signal).Faithful t :=
    faithful_start t announcing draws board maxPayload signal
  have hr : r.Faithful t := hstart.run ha acts
  have hrun (b : Switchboard) := store_start_run t announcing draws b maxPayload signal acts
  have htidy : r.store.contents.Tidy := by
    rw [show r.store = _ from hrun board]
    exact Keyspace.Tidy.runAll (Keyspace.tidy_start announcing draws) _
  have hquiet : r.store.contents.outbox = [] := by
    rw [show r.store = _ from hrun board]
    exact Keyspace.runAll_quiet rfl _
  have htokens := (tokens_run hstart ha rfl acts).trans (Nat.zero_add _)
  have hconserved : r.periods.Conserved := Periods.conserved_ofHistory r.history
  refine ⟨?_, hconserved.keys, Periods.mem_pendingKeys_ofHistory r.history,
    fun k => hr.perm_pendingSet.symm.mem_iff, hconserved.nodup_begun, hconserved.ends, ?_, ?_,
    hr.pop_ends ha, hr.clear_ends ha, fun k => hr.marked_pending, fun k => hr.staged_pending htidy⟩
  · rw [← hr.length_pendingSet]
    rfl
  · refine ⟨_, fun b => ?_, htokens.symm⟩
    rw [show (runOn b).store = _ from hrun b]
    rfl
  · intro a
    refine ⟨_, fun b => ?_, (tokens_act hr ha hquiet a).symm⟩
    rw [(store_act (r := { r with store := { r.store with board := b } })
      hr.replays.ready hr.table a).1]
    rfl

end TableRun

end ControlBus
