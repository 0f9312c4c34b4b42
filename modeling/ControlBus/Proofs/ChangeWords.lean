-- No record changes in silence. Whatever a command changes of the records, it tells by a word on
-- the channel of each key, whatever else it sends.
import ControlBus.Proofs.ChangeReports
import ControlBus.Proofs.ScriptRuns
import ControlBus.Proofs.TableIsolation

namespace ControlBus.Keyspace

theorem Reports.grows {s s' : Keyspace} {addressed : List String} (h : Reports addressed s s') :
    s.outbox <+: s'.outbox := by
  obtain ⟨more, hmore, -⟩ := h.said
  exact hmore ▸ List.prefix_append _ _

/-- A change of a record is told on the channel of its key. -/
def Words (s s' : Keyspace) : Prop :=
  s.outbox <+: s'.outbox ∧ ∀ key, s'.record key ≠ s.record key →
    ∃ tag : ChangeTag, ⟨keyspaceChannel key, tag.word⟩ ∈ s'.outbox

namespace Words

variable {s s' s'' : Keyspace}

theorem of_touches (htouches : s.Touches s') (hreports : Reports [] s s') : s.Words s' := by
  obtain ⟨more, hmore, htags⟩ := htouches
  refine ⟨hmore ▸ List.prefix_append _ _, fun key hdiff => ?_⟩
  obtain ⟨said, hsaid, htells⟩ := hreports.said
  have hsame : said = more := List.append_cancel_left (hsaid.symm.trans hmore)
  have hspoken : lastWord? more (keyspaceChannel key) ≠ none := fun hnone =>
    hdiff ((hsame ▸ htells key (by simp)).silent hnone)
  obtain ⟨a, ha, hchannel⟩ : ∃ a ∈ more, a.channel = keyspaceChannel key := by
    by_contra hnone
    apply hspoken
    have hfilter : more.filter (·.channel = keyspaceChannel key) = [] := by
      rw [List.filter_eq_nil_iff]
      intro a ha hchannel
      exact hnone ⟨a, ha, by simpa using hchannel⟩
    rw [lastWord?, hfilter]
    rfl
  obtain ⟨j, tag, rfl⟩ := htags a ha
  refine ⟨tag, ?_⟩
  rw [hmore, ← hchannel]
  exact List.mem_append_right _ ha

/-- Records that stay need no words. -/
theorem of_record (hgrows : s.outbox <+: s'.outbox) (h : ∀ key, s'.record key = s.record key) :
    s.Words s' := ⟨hgrows, fun key hdiff => absurd (h key) hdiff⟩

theorem then_record (h : s.Words s') (hgrows : s'.outbox <+: s''.outbox)
    (hsame : ∀ key, s''.record key = s'.record key) : s.Words s'' := by
  refine ⟨h.1.trans hgrows, fun key hdiff => ?_⟩
  rw [hsame] at hdiff
  obtain ⟨tag, htag⟩ := h.2 key hdiff
  exact ⟨tag, hgrows.subset htag⟩

end Words

/-! ## Commands -/

variable {k : Keyspace}

theorem record_addMembers (key : String) (members : List String) (j : String) :
    (k.addMembers key members).2.record j = k.record j := by
  induction members generalizing k with
  | nil => rfl
  | cons member rest ih => exact ih.trans (addMember_frame key member j).2

theorem Words.run (ha : k.announcing = true) (script : Script) : k.Words (k.run script).2 := by
  have hreports := Reports.run ha script
  cases script with
  | pushAndPublish list entries channel payload =>
    exact of_record hreports.grows fun key => (pushBack_frame list entries key).2
  | popFront list max => exact of_record hreports.grows fun key => (popFront_frame list max key).2
  | stageWrite l key fields token =>
    have hmerge := Reports.mergeFields ha (l.stagingKey key) fields
    have hmark := Reports.markPending hmerge.announcing l key token
      (Script.addressed (.stageWrite l key fields token)) rfl
    exact (of_touches (Touches.mergeFields _ _) hmerge).then_record hmark.grows
      (record_markPending key token)
  | stageDelete l key token =>
    have htake := Reports.takeRecord ha (l.stagingKey key)
    have hadd := Reports.addMember htake.announcing l.deleteSet key
    have hmark := Reports.markPending hadd.announcing l key token
      (Script.addressed (.stageDelete l key token)) rfl
    have hmarked := (of_touches (Touches.takeRecord _) htake).then_record hadd.grows
      fun j => (addMember_frame l.deleteSet key j).2
    exact hmarked.then_record hmark.grows (record_markPending key token)
  | coalescedPop l max => exact of_touches (Touches.coalescedPop l max) hreports
  | coalescedClear l => exact of_touches (Touches.coalescedClear l) hreports

theorem Words.change (ha : k.announcing = true) (c : Command) : k.Words (c.change k).2 := by
  have hreports := Reports.change ha c
  cases c with
  | pushBack list entries =>
    exact of_record hreports.grows fun key => (pushBack_frame list entries key).2
  | addMembers set members => exact of_record hreports.grows (record_addMembers set members)
  | mergeFields key fields => exact of_touches (Touches.mergeFields key fields) hreports
  | delete key => exact of_touches (Touches.delete key) hreports
  | listLength list => exact of_record hreports.grows fun _ => rfl
  | setSize set => exact of_record hreports.grows fun _ => rfl
  | record key => exact of_record hreports.grows fun _ => rfl
  | eval script => exact run ha script

end ControlBus.Keyspace
