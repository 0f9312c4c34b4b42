-- The settings of a table: what a file and the environment say about it, against what a loaded
-- configuration answers for its name.
import ControlBus.Proofs.SettingsTree
import Mathlib

namespace ControlBus

/-! ## Maps -/

namespace Assoc

variable {κ α β : Type} [DecidableEq κ]

/-- The first entry with a property is the one under its key, if the key is enough to have it. -/
theorem get?_of_find? {m : Assoc κ α} {p : κ → Bool} {e : κ × α}
    (h : (m.find? fun e => p e.1) = some e) : get? m e.1 = some e.2 := by
  induction m with
  | nil => cases h
  | cons e' rest ih =>
    by_cases hp : p e'.1 = true
    · obtain rfl : e' = e := by simpa [hp] using h
      simp [get?]
    · have hne : e'.1 ≠ e.1 := by
        rintro heq
        have hfound := List.find?_some h
        rw [← heq] at hfound
        exact hp hfound
      rw [get?, if_neg hne]
      exact ih (by simpa [hp] using h)

theorem get?_mapM {f : α → Option β} {m : Assoc κ α}
    {m' : Assoc κ β} (h : m.mapM (fun e => do return (e.1, ← f e.2)) = some m') :
    keys m' = keys m ∧ ∀ k, (get? m k).map f = (get? m' k).map some := by
  induction m generalizing m' with
  | nil =>
    obtain rfl := Option.some.inj h
    exact ⟨rfl, fun _ => rfl⟩
  | cons e rest ih =>
    rw [List.mapM_cons] at h
    obtain ⟨e', he, h⟩ := Option.bind_eq_some_iff.mp h
    obtain ⟨b, hb, he⟩ := Option.bind_eq_some_iff.mp he
    obtain rfl := Option.some.inj he
    obtain ⟨rest', hrest, h⟩ := Option.bind_eq_some_iff.mp h
    obtain rfl := Option.some.inj h
    obtain ⟨hkeys, hget⟩ := ih hrest
    refine ⟨congrArg (e.1 :: ·) hkeys, fun k => ?_⟩
    by_cases hk : e.1 = k
    · simp [get?, hk, hb]
    · simpa [get?, hk] using hget k

end Assoc

/-! ## The settings of all tables in a tree -/

/-- The names of tables that a setting says something about. -/
def channelNames (e : String × Setting) : List String :=
  if (SettingPath.ofText e.1).root = "channels" then
    match (SettingPath.ofText e.1).steps with
    | [] => Assoc.keys e.2.entries
    | .child name :: _ => [name]
    | .item _ :: _ => []
  else []

/-- A setting that puts something else in the place of all tables. -/
def ReplacesChannels (e : String × Setting) : Prop :=
  (SettingPath.ofText e.1).root = "channels" ∧
    match (SettingPath.ofText e.1).steps with
    | [] => ∀ es, e.2 ≠ .table es
    | .child _ :: _ => False
    | .item _ :: _ => True

namespace Setting

/-- The settings of tables in a tree, by name. -/
def channels (root : Setting) : Assoc String Setting :=
  ((Assoc.get? root.entries "channels").getD .nothing).entries

/-- Merge one setting into a tree. -/
def mergeOne (root : Setting) (e : String × Setting) : Setting :=
  (SettingPath.ofText e.1).assign e.2 root

variable {root : Setting} {e : String × Setting} {k : String}

theorem channels_put_self (root v : Setting) :
    channels (.table (Assoc.put root.entries "channels" v)) = v.entries := by
  rw [channels, entries, Assoc.get?_put_self]
  rfl

theorem channels_put_of_ne (root : Setting) {name : String} (h : name ≠ "channels") (v : Setting) :
    channels (.table (Assoc.put root.entries name v)) = root.channels := by
  rw [channels, entries, Assoc.get?_put_of_ne _ _ h, channels]

theorem lowercase_of_child {name : String} {rest : List PathStep}
    (h : (SettingPath.ofText e.1).steps = .child name :: rest) : Text.lowercase name = name := by
  refine Text.lowercase_of_lowered ((SettingPath.ofText_lowered e.1).2 name ?_)
  rw [h]
  exact List.mem_cons_self

theorem assign_below {step : PathStep} {rest : List PathStep}
    (h : (SettingPath.ofText e.1).steps = step :: rest) (root : Setting) :
    ∃ v, (SettingPath.ofText e.1).assign e.2 root =
        .table (Assoc.put root.entries (SettingPath.ofText e.1).root v) ∧
      step.Writes ((Assoc.get? root.entries (SettingPath.ofText e.1).root).getD .nothing) v := by
  refine SettingPath.assign_writes h (fun name hname => ?_) e.2 root
  rw [hname] at h
  exact lowercase_of_child h

theorem lowercase_root (s : String) :
    Text.lowercase (SettingPath.ofText s).root = (SettingPath.ofText s).root :=
  Text.lowercase_of_lowered (SettingPath.ofText_lowered s).1

/-- A setting of something else changes no table. -/
theorem channels_mergeOne_of_ne (root : Setting)
    (h : (SettingPath.ofText e.1).root ≠ "channels") :
    (root.mergeOne e).channels = root.channels := by
  unfold mergeOne
  cases hsteps : (SettingPath.ofText e.1).steps with
  | nil =>
    rw [SettingPath.eq_key hsteps, SettingPath.assign, assign_eq, lowercase_root]
    exact channels_put_of_ne root h _
  | cons step rest =>
    obtain ⟨v, hv, -⟩ := assign_below hsteps root
    rw [hv]
    exact channels_put_of_ne root h v

/-- What is set under the key of all tables takes their place, but a table is merged into it. -/
theorem channels_mergeOne_key (root : Setting)
    (hroot : (SettingPath.ofText e.1).root = "channels")
    (hsteps : (SettingPath.ofText e.1).steps = []) :
    (root.mergeOne e).channels =
      match e.2 with
      | .table es => (assignAll es (.table root.channels)).entries
      | _ => [] := by
  have hlower := lowercase_root e.1
  rw [hroot] at hlower
  rw [mergeOne, SettingPath.eq_key hsteps, hroot, SettingPath.assign, assign_eq, hlower,
    channels_put_self]
  cases e.2 with
  | table es =>
    refine entries_assignAll_congr es ?_
    unfold channels
    cases Assoc.get? root.entries "channels" <;> rfl
  | nothing | flag | whole | decimal | text | list => rfl

/-- What merging a setting does to the settings of tables. -/
inductive Rewrites (e : String × Setting) (old : Assoc String Setting) :
    Assoc String Setting → Prop where
  /-- It is about something else. -/
  | elsewhere (names : channelNames e = []) : Rewrites e old old
  /-- It has a section for each of some tables. -/
  | sections {es : List (String × Setting)} (names : channelNames e = Assoc.keys es) :
    Rewrites e old (assignAll es (.table old)).entries
  /-- It is about one table, whose name is in lower case. -/
  | one {name : String} (v : Setting) (names : channelNames e = [name])
    (lower : Text.lowercase name = name) : Rewrites e old (Assoc.put old name v)
  | replaced (replaces : ReplacesChannels e) : Rewrites e old []

theorem mergeOne_rewrites (root : Setting) (e : String × Setting) :
    Rewrites e root.channels (root.mergeOne e).channels := by
  by_cases hroot : (SettingPath.ofText e.1).root = "channels"
  · cases hsteps : (SettingPath.ofText e.1).steps with
    | nil =>
      have hnames : channelNames e = Assoc.keys e.2.entries := by
        rw [channelNames, if_pos hroot, hsteps]
      rw [channels_mergeOne_key root hroot hsteps]
      cases he : e.2 with
      | table es =>
        rw [he] at hnames
        exact .sections hnames
      | nothing | flag | whole | decimal | text | list =>
        refine .replaced ⟨hroot, ?_⟩
        rw [hsteps, he]
        intro es hes
        cases hes
    | cons step rest =>
      obtain ⟨v, hv, hwrites⟩ := assign_below hsteps root
      rw [hroot] at hv hwrites
      rw [mergeOne, hv, channels_put_self]
      cases step with
      | child name =>
        obtain ⟨a, rfl⟩ := hwrites
        refine .one a ?_ (lowercase_of_child hsteps)
        rw [channelNames, if_pos hroot, hsteps]
      | item index =>
        obtain ⟨items, rfl⟩ := hwrites
        refine .replaced ⟨hroot, ?_⟩
        rw [hsteps]
        trivial
  · rw [channels_mergeOne_of_ne root hroot]
    exact .elsewhere (if_neg hroot)

/-- A table is only ever stored under the lower-case form of a name that is spoken of. -/
theorem mem_keys_channels_mergeOne (h : k ∈ Assoc.keys (root.mergeOne e).channels) :
    k ∈ Assoc.keys root.channels ∨ ∃ name ∈ channelNames e, k = Text.lowercase name := by
  have hrewrites := mergeOne_rewrites root e
  generalize (root.mergeOne e).channels = new at h hrewrites
  cases hrewrites with
  | elsewhere => exact .inl h
  | sections names =>
    rcases mem_keys_assignAll.mp h with h | ⟨e', he', hk⟩
    · exact .inl h
    · rw [names]
      exact .inr ⟨e'.1, List.mem_map_of_mem he', hk⟩
  | one v names lower =>
    rcases Assoc.mem_keys_put.mp h with h | rfl
    · exact .inl h
    · rw [names]
      exact .inr ⟨k, List.mem_cons_self, lower.symm⟩
  | replaced => cases h

/-- A table is left alone by whatever speaks of others and leaves all in place. -/
theorem get?_channels_mergeOne (hnames : ∀ name ∈ channelNames e, Text.lowercase name ≠ k)
    (hwhole : ¬ ReplacesChannels e) (root : Setting) :
    Assoc.get? (root.mergeOne e).channels k = Assoc.get? root.channels k := by
  have hrewrites := mergeOne_rewrites root e
  generalize (root.mergeOne e).channels = new at hrewrites ⊢
  cases hrewrites with
  | elsewhere => rfl
  | sections names =>
    rw [names] at hnames
    exact get?_assignAll_of_ne (fun e' he' => hnames e'.1 (List.mem_map_of_mem he')) _
  | one v names lower =>
    rw [names] at hnames
    have hname := hnames _ List.mem_cons_self
    rw [lower] at hname
    exact Assoc.get?_put_of_ne _ _ hname
  | replaced replaces => exact absurd replaces hwhole

theorem mem_keys_channels_merge {source : List (String × Setting)}
    (h : k ∈ Assoc.keys (root.merge source).channels) :
    k ∈ Assoc.keys root.channels ∨
      ∃ e ∈ source, ∃ name ∈ channelNames e, k = Text.lowercase name := by
  induction source generalizing root with
  | nil => exact .inl h
  | cons e rest ih =>
    have hrest : k ∈ Assoc.keys ((root.mergeOne e).merge rest).channels := h
    rcases ih hrest with h | ⟨e', he', hname⟩
    · rcases mem_keys_channels_mergeOne h with h | hname
      · exact .inl h
      · exact .inr ⟨e, List.mem_cons_self, hname⟩
    · exact .inr ⟨e', List.mem_cons_of_mem e he', hname⟩

theorem get?_channels_merge {source : List (String × Setting)}
    (hnames : ∀ e ∈ source, ∀ name ∈ channelNames e, Text.lowercase name ≠ k)
    (hwhole : ∀ e ∈ source, ¬ ReplacesChannels e) (root : Setting) :
    Assoc.get? (root.merge source).channels k = Assoc.get? root.channels k := by
  induction source generalizing root with
  | nil => rfl
  | cons e rest ih =>
    have hrest := ih (fun e' he' => hnames e' (List.mem_cons_of_mem e he'))
      (fun e' he' => hwhole e' (List.mem_cons_of_mem e he')) (root.mergeOne e)
    exact hrest.trans (get?_channels_mergeOne (hnames e List.mem_cons_self)
      (hwhole e List.mem_cons_self) root)

/-- Among the entries of one table a section is what is found, if nothing else has its name. -/
theorem get?_assignAll_section {es₁ es₂ members : List (String × Setting)} {name : String}
    (h₁ : ∀ e ∈ es₁, Text.lowercase e.1 ≠ Text.lowercase name)
    (h₂ : ∀ e ∈ es₂, Text.lowercase e.1 ≠ Text.lowercase name) {target : Setting}
    (hnone : Assoc.get? target.entries (Text.lowercase name) = none) :
    Assoc.get? (assignAll (es₁ ++ (name, .table members) :: es₂) target).entries
      (Text.lowercase name) = some (assignAll members (.table [])) := by
  have hfirst := get?_assignAll_of_ne h₁ target
  rw [hnone] at hfirst
  rw [assignAll_append, assignAll, get?_assignAll_of_ne h₂, assign_eq, entries,
    Assoc.get?_put_self, hfirst]
  rfl

/-- A section that is the only one to speak of its table makes its settings what they are. -/
theorem get?_channels_section (before after : List (String × Setting))
    {es members : List (String × Setting)} {key name : String}
    (hkey : SettingPath.ofText key = .key "channels") (hmem : (name, .table members) ∈ es)
    (honly : ((before ++ (key, .table es) :: after).flatMap channelNames).countP
      (fun other => Text.lowercase other = Text.lowercase name) = 1)
    (hwhole : ∀ e ∈ after, ¬ ReplacesChannels e) :
    Assoc.get? ((table []).merge (before ++ (key, .table es) :: after)).channels
      (Text.lowercase name) = some (assignAll members (.table [])) := by
  obtain ⟨es₁, es₂, rfl⟩ := List.append_of_mem hmem
  have hroot : (SettingPath.ofText key).root = "channels" := by rw [hkey]; rfl
  have hsteps : (SettingPath.ofText key).steps = [] := by rw [hkey]; rfl
  have hnames : channelNames (key, .table (es₁ ++ (name, .table members) :: es₂)) =
      Assoc.keys es₁ ++ name :: Assoc.keys es₂ := by
    rw [channelNames, if_pos hroot, hsteps]
    exact List.map_append ..
  rw [List.flatMap_append, List.flatMap_cons, hnames] at honly
  simp only [List.countP_append, List.countP_cons, decide_true, if_true] at honly
  have hbefore : (before.flatMap channelNames).countP
      (fun other => Text.lowercase other = Text.lowercase name) = 0 := by omega
  have hafter : (after.flatMap channelNames).countP
      (fun other => Text.lowercase other = Text.lowercase name) = 0 := by omega
  have hes₁ : (Assoc.keys es₁).countP
      (fun other => Text.lowercase other = Text.lowercase name) = 0 := by omega
  have hes₂ : (Assoc.keys es₂).countP
      (fun other => Text.lowercase other = Text.lowercase name) = 0 := by omega
  simp only [List.countP_eq_zero, decide_eq_true_eq] at hbefore hafter hes₁ hes₂
  -- Before the section nothing stands under the name, and all that comes later leaves it alone.
  have hnone : Assoc.get? ((table []).merge before).channels (Text.lowercase name) = none := by
    refine Assoc.get?_eq_none_iff.mpr fun hin => ?_
    rcases mem_keys_channels_merge hin with hin | ⟨e, he, other, hother, hk⟩
    · cases hin
    · exact hbefore other (List.mem_flatMap.mpr ⟨e, he, hother⟩) hk.symm
  have hsplit : (table []).merge
      (before ++ (key, .table (es₁ ++ (name, .table members) :: es₂)) :: after) =
        (((table []).merge before).mergeOne
          (key, .table (es₁ ++ (name, .table members) :: es₂))).merge after := by
    rw [merge, List.foldl_append, List.foldl_cons]
    rfl
  have hmerged := channels_mergeOne_key ((table []).merge before)
    (e := (key, .table (es₁ ++ (name, .table members) :: es₂))) hroot hsteps
  rw [hsplit, get?_channels_merge (fun e he other hother =>
    hafter other (List.mem_flatMap.mpr ⟨e, he, hother⟩)) hwhole, hmerged]
  exact get?_assignAll_section (fun e he => hes₁ e.1 (List.mem_map_of_mem he))
    (fun e he => hes₂ e.1 (List.mem_map_of_mem he)) hnone

/-! ## The settings of one table -/

/-- What a section says of a setting: what one of the members says that have the name in some case,
or the default if there is none. -/
def Says {α : Type} (members : List (String × Setting)) (name : String) (absent : α)
    (read : Setting → Option α) (a : α) : Prop :=
  (∃ e ∈ members, Text.lowercase e.1 = name ∧ read e.2 = some a) ∨
    (∀ e ∈ members, Text.lowercase e.1 ≠ name) ∧ a = absent

theorem says_of_partOr {α : Type} {members : List (String × Setting)} {name : String}
    {absent a : α} {read : Setting → Option α} (hread : ∀ es, read (.table es) = none)
    (h : partOr (assignAll members (.table [])).entries name absent read = some a) :
    Says members name absent read a := by
  unfold partOr at h
  cases hget : Assoc.get? (assignAll members (.table [])).entries name with
  | none =>
    rw [hget] at h
    refine .inr ⟨fun e he hname => ?_, (Option.some.inj h).symm⟩
    exact Assoc.get?_eq_none_iff.mp hget (mem_keys_assignAll.mpr (.inr ⟨e, he, hname.symm⟩))
  | some v =>
    rw [hget] at h
    rcases get?_assignAll_cases hget with ⟨es, rfl⟩ | ⟨e, he, hname, rfl⟩ | hempty
    · cases (hread es).symm.trans h
    · exact .inl ⟨e, he, hname, h⟩
    · cases hempty

/-- Whatever a table is merged with is a table. -/
theorem parts?_assignAll (names : List String) (es entries : List (String × Setting)) :
    (assignAll es (.table entries)).parts? names =
      some (assignAll es (.table entries)).entries := by
  rcases assignAll_cases es (.table entries) with hsame | ⟨entries', htable⟩
  · rw [hsame]
    rfl
  · rw [htable]
    rfl

theorem parts?_merge (names : List String) (source : List (String × Setting))
    (entries : List (String × Setting)) :
    (merge (.table entries) source).parts? names =
      some (merge (.table entries) source).entries := by
  induction source generalizing entries with
  | nil => rfl
  | cons e rest ih =>
    obtain ⟨entries', htable⟩ : ∃ entries', mergeOne (.table entries) e = .table entries' := by
      unfold mergeOne
      cases hsteps : (SettingPath.ofText e.1).steps with
      | nil =>
        rw [SettingPath.eq_key hsteps, SettingPath.assign, assign_eq]
        exact ⟨_, rfl⟩
      | cons step more =>
        obtain ⟨v, hv, -⟩ := assign_below hsteps (.table entries)
        exact ⟨_, hv⟩
    have hcons : merge (.table entries) (e :: rest) = (mergeOne (.table entries) e).merge rest :=
      rfl
    rw [hcons, htable]
    exact ih entries'

end Setting

/-- The settings of a table as a section writes them. -/
structure ChannelConfig.SaidBy (members : List (String × Setting)) (c : ChannelConfig) : Prop where
  batchSize : Setting.Says members "batch_size" ({} : ChannelConfig).batchSize Setting.unsigned?
    c.batchSize
  priority : Setting.Says members "priority" ({} : ChannelConfig).priority
    (fun v => v.signed? >>= Text.signed32?) c.priority

theorem ChannelConfig.saidBy {members : List (String × Setting)} {c : ChannelConfig}
    (h : ChannelConfig.ofSetting? (Setting.assignAll members (.table [])) = some c) :
    c.SaidBy members := by
  rw [ChannelConfig.ofSetting?, Setting.parts?_assignAll] at h
  obtain ⟨parts, hparts, h⟩ := Option.bind_eq_some_iff.mp h
  obtain rfl := Option.some.inj hparts
  obtain ⟨batchSize, hbatch, h⟩ := Option.bind_eq_some_iff.mp h
  obtain ⟨priority, hpriority, h⟩ := Option.bind_eq_some_iff.mp h
  obtain rfl := Option.some.inj h
  exact ⟨Setting.says_of_partOr (fun _ => rfl) hbatch,
    Setting.says_of_partOr (fun _ => rfl) hpriority⟩

namespace BusConfig

variable {config : BusConfig} {file : Option SettingsFile} {vars : List (String × String)}

theorem assemble_ok (h : assemble file vars = .ok config) :
    ∃ tree, settingsTree file vars = .ok tree ∧ ofSetting? tree = some config := by
  unfold assemble at h
  cases htree : settingsTree file vars with
  | error reason =>
    rw [htree] at h
    cases h
  | ok tree =>
    rw [htree] at h
    dsimp only [bind, Except.bind] at h
    split at h
    · rename_i hread
      obtain rfl := Except.ok.inj h
      exact ⟨tree, rfl, hread⟩
    · cases h

/-- A configuration is loaded from the tree of its settings, and then checked. -/
theorem load_ok (h : load file vars = .ok config) :
    ∃ tree, settingsTree file vars = .ok tree ∧ ofSetting? tree = some config ∧
      config.validate = .ok () := by
  unfold load at h
  cases hassemble : assemble file vars with
  | error reason =>
    rw [hassemble] at h
    cases h
  | ok assembled =>
    rw [hassemble] at h
    cases hvalid : assembled.validate with
    | error e =>
      dsimp only at h
      rw [hvalid] at h
      cases h
    | ok u =>
      dsimp only at h
      rw [hvalid] at h
      obtain rfl : assembled = config := Except.ok.inj h
      obtain ⟨tree, htree, hread⟩ := assemble_ok hassemble
      exact ⟨tree, htree, hread, hvalid⟩

/-- A file comes before the environment. -/
theorem settingsTree_eq {f : SettingsFile} {fromFile : List (String × Setting)}
    (h : f.settings? = .ok fromFile) (vars : List (String × String)) :
    settingsTree (some f) vars =
      .ok ((Setting.table []).merge (fromFile ++ Environment.settings vars)) := by
  simp only [settingsTree, h, Setting.merge, List.foldl_append]
  rfl

/-- Each table that is set in the tree is set in the configuration. -/
theorem channels_ofSetting? {source : List (String × Setting)}
    (h : ofSetting? ((Setting.table []).merge source) = some config) :
    ((Setting.table []).merge source).channels.mapM
      (fun e => do return (e.1, ← ChannelConfig.ofSetting? e.2)) = some config.channels := by
  rw [ofSetting?, Setting.parts?_merge] at h
  obtain ⟨parts, hparts, h⟩ := Option.bind_eq_some_iff.mp h
  obtain rfl := Option.some.inj hparts
  obtain ⟨wait, -, h⟩ := Option.bind_eq_some_iff.mp h
  obtain ⟨defaults, -, h⟩ := Option.bind_eq_some_iff.mp h
  obtain ⟨channels, hchannels, h⟩ := Option.bind_eq_some_iff.mp h
  obtain ⟨store, -, h⟩ := Option.bind_eq_some_iff.mp h
  obtain ⟨retry, -, h⟩ := Option.bind_eq_some_iff.mp h
  obtain rfl := Option.some.inj h
  unfold Setting.partOr at hchannels
  unfold Setting.channels
  cases hget : Assoc.get? ((Setting.table []).merge source).entries "channels" with
  | none =>
    rw [hget] at hchannels
    exact hchannels
  | some v =>
    rw [hget] at hchannels
    cases v with
    | table es => exact hchannels
    | nothing | flag | whole | decimal | text | list => cases hchannels

/-! ## Looking up a table -/

/-- The names of tables in a loaded configuration are in lower case, so there is one entry at most
that the name of a table is the same as up to the case of a to z. -/
theorem channel_eq (h : ∀ k ∈ Assoc.keys config.channels, Text.lowercase k = k) (table : String) :
    config.channel table =
      if Text.sameIgnoringAsciiCase (Text.lowercase table) table then
        (Assoc.get? config.channels (Text.lowercase table)).getD config.channelDefaults
      else config.channelDefaults := by
  unfold channel
  cases hexact : Assoc.get? config.channels table with
  | some settings =>
    have hself : Text.sameIgnoringAsciiCase table table = true := decide_eq_true rfl
    rw [h table (Assoc.mem_keys_of_get? hexact), if_pos hself, hexact]
    rfl
  | none =>
    cases hfind : config.channels.find? fun e => Text.sameIgnoringAsciiCase e.1 table with
    | some found =>
      have hsame := List.find?_some hfind
      have hkey := h found.1 (List.mem_map_of_mem (List.mem_of_find?_eq_some hfind))
      have htable : Text.lowercase table = found.1 := by
        rw [← hkey] at hsame
        rw [Text.lowercase_of_same hsame, hkey]
      rw [htable, if_pos hsame,
        Assoc.get?_of_find? (p := fun name => Text.sameIgnoringAsciiCase name table) hfind]
      rfl
    | none =>
      dsimp only
      by_cases hsame : Text.sameIgnoringAsciiCase (Text.lowercase table) table = true
      · have hnone : Assoc.get? config.channels (Text.lowercase table) = none := by
          refine Assoc.get?_eq_none_iff.mpr fun hin => ?_
          obtain ⟨e, he, hlower⟩ := List.mem_map.mp hin
          rw [← hlower] at hsame
          exact List.find?_eq_none.mp hfind e he hsame
        rw [if_pos hsame, hnone]
        rfl
      · rw [if_neg hsame]

theorem channel_cases (config : BusConfig) (table : String) :
    config.channel table = config.channelDefaults ∨
      ∃ e ∈ config.channels, config.channel table = e.2 := by
  unfold channel
  split
  · rename_i settings hget
    exact .inr ⟨_, Assoc.mem_of_get? hget, rfl⟩
  · split
    · rename_i hfind
      exact .inr ⟨_, List.mem_of_find?_eq_some hfind, rfl⟩
    · exact .inl rfl

theorem positive_bind {field context : String} {n : Nat} {rest : Unit → Except ConfigError Unit}
    (h : positive field context n >>= rest = .ok ()) : n ≠ 0 ∧ rest () = .ok () := by
  unfold positive at h
  split at h
  · cases h
  · exact ⟨‹_›, h⟩

/-- What has been checked about the batches of tables. -/
theorem validate_ok (h : config.validate = .ok ()) :
    config.channelDefaults.batchSize ≠ 0 ∧ config.emptyBatch? = none := by
  unfold validate at h
  obtain ⟨-, h⟩ := positive_bind h
  obtain ⟨hdefaults, h⟩ := positive_bind h
  refine ⟨hdefaults, ?_⟩
  cases hempty : config.emptyBatch? with
  | none => rfl
  | some table =>
    rw [hempty] at h
    exact absurd rfl (positive_bind h).1

/-- No settings of a configuration that works are without room in their batches. -/
theorem one_le_batchSize (h : config.validate = .ok ()) (table : String) :
    1 ≤ (config.channel table).batchSize := by
  obtain ⟨hdefaults, hempty⟩ := validate_ok h
  rcases channel_cases config table with hchannel | ⟨e, he, hchannel⟩
  · rw [hchannel]
    exact Nat.one_le_iff_ne_zero.mpr hdefaults
  · rw [emptyBatch?, Option.map_eq_none_iff, List.find?_eq_none] at hempty
    rw [hchannel]
    exact Nat.one_le_iff_ne_zero.mpr (by simpa using hempty e he)

/-- A table is found in a loaded configuration if its name is spelled as the lower-case form of
the name in its section, up to the case of the letters a to z.

Say that a section of the file is the only place in the file and in the environment that speaks of
its table, in whatever case, and that nothing later puts something else in the place of all
tables. Then every name with the lower-case form of the section's name gets the settings that the
section writes, if it is the same as that form up to the case of a to z, and else the settings of
tables that have none of their own; so the section's own name and all names that are the same up
to the case of a to z get its settings just if it has no other letters in upper case. Whatever the
file says, a name that nothing speaks of in any case gets the settings of tables that have none of
their own, and all batches have room. -/
theorem a_table_is_found_under_its_name_in_lower_case {f : SettingsFile}
    {fromFile : List (String × Setting)} (hfile : f.settings? = .ok fromFile)
    (hload : load (some f) vars = .ok config) :
    (∀ before key es after name members,
      fromFile = before ++ (key, .table es) :: after → SettingPath.ofText key = .key "channels" →
      (name, .table members) ∈ es →
      ((fromFile ++ Environment.settings vars).flatMap channelNames).countP
        (fun other => Text.lowercase other = Text.lowercase name) = 1 →
      (∀ e ∈ after ++ Environment.settings vars, ¬ ReplacesChannels e) →
      ∃ settings : ChannelConfig, settings.SaidBy members ∧
        (∀ table, Text.lowercase table = Text.lowercase name → config.channel table =
          if Text.sameIgnoringAsciiCase (Text.lowercase name) table then settings
          else config.channelDefaults) ∧
        ∀ table, Text.sameIgnoringAsciiCase table name → config.channel table =
          if Text.sameIgnoringAsciiCase (Text.lowercase name) name then settings
          else config.channelDefaults) ∧
    (∀ table,
      (∀ e ∈ fromFile ++ Environment.settings vars, ∀ name ∈ channelNames e,
        Text.lowercase name ≠ Text.lowercase table) →
      config.channel table = config.channelDefaults) ∧
    ∀ table, 1 ≤ (config.channel table).batchSize := by
  obtain ⟨tree, htree, hread, hvalid⟩ := load_ok hload
  rw [settingsTree_eq hfile] at htree
  obtain rfl := Except.ok.inj htree
  obtain ⟨hkeys, hget⟩ := Assoc.get?_mapM (channels_ofSetting? hread)
  have hnames : ∀ k ∈ Assoc.keys config.channels, ∃ e ∈ fromFile ++ Environment.settings vars,
      ∃ name ∈ channelNames e, k = Text.lowercase name := by
    intro k hk
    rw [hkeys] at hk
    rcases Setting.mem_keys_channels_merge hk with hk | hname
    · cases hk
    · exact hname
  have hlowered : ∀ k ∈ Assoc.keys config.channels, Text.lowercase k = k := by
    intro k hk
    obtain ⟨-, -, name, -, rfl⟩ := hnames k hk
    exact Text.lowercase_lowercase name
  have hchannel := channel_eq hlowered
  refine ⟨?_, fun table hnone => ?_, one_le_batchSize hvalid⟩
  · intro before key es after name members hsplit hkey hmem honly hwhole
    have hsection := Setting.get?_channels_section before (after ++ Environment.settings vars)
      hkey hmem
      (by rwa [hsplit, List.append_assoc, List.cons_append] at honly) hwhole
    have hfound := hget (Text.lowercase name)
    rw [hsplit, List.append_assoc, List.cons_append, hsection] at hfound
    obtain ⟨settings, hsettings, hsaid⟩ := Option.map_eq_some_iff.mp hfound.symm
    have hlower : ∀ table, Text.lowercase table = Text.lowercase name → config.channel table =
        if Text.sameIgnoringAsciiCase (Text.lowercase name) table then settings
        else config.channelDefaults := by
      intro table htable
      rw [hchannel, htable, hsettings]
      rfl
    refine ⟨settings, ChannelConfig.saidBy hsaid.symm, hlower, fun table hsame => ?_⟩
    have hletters : table.toList.map Char.toLower = name.toList.map Char.toLower :=
      of_decide_eq_true hsame
    rw [hlower table (Text.lowercase_congr hsame), Text.sameIgnoringAsciiCase, hletters,
      Text.sameIgnoringAsciiCase]
  · have hget : Assoc.get? config.channels (Text.lowercase table) = none := by
      refine Assoc.get?_eq_none_iff.mpr fun hk => ?_
      obtain ⟨e, he, name, hname, hlower⟩ := hnames _ hk
      exact hnone e he name hname hlower.symm
    rw [hchannel, hget]
    exact ite_self _

/-- A file with a section for one table. -/
def fileFor (table : String) : SettingsFile where
  path := "bus.toml"
  text := some ("[channels.\"" ++ table ++ "\"]\nbatch_size = 3\n")

theorem a_section_is_found_in_other_letters :
    ∃ config, load (some (fileFor "Port_Table")) [("ORCHBUS__CHANNELS__VLAN__PRIORITY", "7")] =
        .ok config ∧
      (∃ settings : ChannelConfig, settings.SaidBy [("batch_size", .whole 3)] ∧
        config.channel "PORT_table" = settings) ∧
      config.channel "LAG" = config.channelDefaults := by
  have hfile : (fileFor "Port_Table").settings? =
      .ok [("channels", .table [("Port_Table", .table [("batch_size", .whole 3)])])] := by cbv
  have hload : load (some (fileFor "Port_Table")) [("ORCHBUS__CHANNELS__VLAN__PRIORITY", "7")] =
      .ok { channels := [("port_table", { batchSize := 3 }), ("vlan", { priority := 7 })] } := by
    decide +kernel
  have henvironment : Environment.settings [("ORCHBUS__CHANNELS__VLAN__PRIORITY", "7")] =
      [("channels.vlan.priority", .whole 7)] := by cbv
  have hsteps : (SettingPath.ofText "channels.vlan.priority").steps =
      [.child "vlan", .child "priority"] := by decide +kernel
  obtain ⟨hsection, hothers, -⟩ := a_table_is_found_under_its_name_in_lower_case hfile hload
  rw [henvironment] at hsection hothers
  obtain ⟨settings, hsaid, -, hsame⟩ := hsection [] "channels" _ [] "Port_Table" _ rfl
    (by decide +kernel) List.mem_cons_self (by decide +kernel) (by
      intro e he
      obtain rfl := List.mem_singleton.mp he
      rintro ⟨-, hreplaces⟩
      rwa [hsteps] at hreplaces)
  refine ⟨_, hload, ⟨settings, hsaid, ?_⟩, hothers "LAG" fun e he name hname => ?_⟩
  · exact (hsame "PORT_table" (by decide)).trans (if_pos (by decide +kernel))
  · have hnames : ∀ name ∈
        [("channels", .table [("Port_Table", .table [("batch_size", .whole 3)])]),
          ("channels.vlan.priority", Setting.whole 7)].flatMap channelNames,
        Text.lowercase name ≠ Text.lowercase "LAG" := by decide +kernel
    exact hnames name (List.mem_flatMap.mpr ⟨e, he, hname⟩)

/-- The lower-case form of a letter that is none of a to z is another letter up to their case, so
nobody finds the section that has it in upper case. -/
theorem a_section_in_capitals_is_not_found :
    (fileFor "Ä").settings? =
        .ok [("channels", .table [("Ä", .table [("batch_size", .whole 3)])])] ∧
      ∃ config, load (some (fileFor "Ä")) [] = .ok config ∧
        config.channel "Ä" = config.channelDefaults ∧
        ∀ settings : ChannelConfig, settings.SaidBy [("batch_size", .whole 3)] →
          config.channel "Ä" ≠ settings := by
  refine ⟨by cbv, { channels := [("ä", { batchSize := 3 })] }, by decide +kernel,
    by decide +kernel, ?_⟩
  intro settings hsaid hsame
  have hchannel : channel { channels := [("ä", { batchSize := 3 })] } "Ä" = {} := by
    decide +kernel
  rw [hchannel] at hsame
  subst hsame
  rcases hsaid.batchSize with ⟨e, he, -, hread⟩ | ⟨hnone, -⟩
  · obtain rfl := List.mem_singleton.mp he
    exact absurd hread (by decide)
  · exact hnone _ List.mem_cons_self (by decide +kernel)

end BusConfig

end ControlBus
