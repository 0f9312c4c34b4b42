-- The laws of the retry queue: parking adds one item, and whatever is released, reported or taken,
-- the items that come out and those that stay are together the items that were there.
import ControlBus.Proofs.RecordMerge
import ControlBus.Work.RetryQueue
import Mathlib.Data.List.Perm.Basic

namespace ControlBus

/-! ## Lists under keys -/

namespace Assoc

variable {κ α β : Type} [DecidableEq κ]

/-- Adding to the list under a key adds to the lists under all keys. -/
theorem perm_flatMap_put (f : κ → α → β) (m : Assoc κ (List α)) (k : κ) (a : α) :
    ((put m k ((get? m k).getD [] ++ [a])).flatMap fun e => e.2.map (f e.1)).Perm
      (f k a :: m.flatMap fun e => e.2.map (f e.1)) := by
  induction m with
  | nil => simp [put, get?]
  | cons e rest ih =>
    obtain ⟨k', as⟩ := e
    by_cases hk : k' = k
    · subst hk
      simp only [put, get?, if_true, Option.getD_some, List.flatMap_cons, List.map_append,
        List.append_assoc]
      exact List.perm_middle
    · simp only [put, get?, hk, if_false, List.flatMap_cons]
      exact (ih.append_left _).trans List.perm_middle

theorem erase_of_not_mem {m : Assoc κ α} {k : κ} (h : k ∉ keys m) : erase m k = m := by
  refine List.filter_eq_self.mpr fun e he => ?_
  have hne : e.1 ≠ k := fun hek => h (hek ▸ List.mem_map_of_mem he)
  simp [hne]

/-- Forgetting a key takes out the list under it. -/
theorem perm_flatMap_erase {m : Assoc κ (List α)} {k : κ} {as : List α} (h : (keys m).Nodup)
    (hk : get? m k = some as) :
    (m.flatMap (·.2)).Perm ((erase m k).flatMap (·.2) ++ as) := by
  induction m with
  | nil => cases hk
  | cons e rest ih =>
    obtain ⟨k', bs⟩ := e
    obtain ⟨hnew, hrest⟩ := List.nodup_cons.mp h
    by_cases hkk : k' = k
    · subst hkk
      obtain rfl : bs = as := by simpa [get?] using hk
      have herase : erase ((k', bs) :: rest) k' = rest :=
        (List.filter_cons_of_neg (by simp)).trans (erase_of_not_mem hnew)
      rw [herase, List.flatMap_cons]
      exact List.perm_append_comm
    · have herase : erase ((k', bs) :: rest) k = (k', bs) :: erase rest k :=
        List.filter_cons_of_pos (by simp [hkk])
      rw [herase, List.flatMap_cons, List.flatMap_cons, List.append_assoc]
      exact (ih hrest (by simpa [get?, hkk] using hk)).append_left bs

theorem nodup_erase {m : Assoc κ α} (k : κ) (h : (keys m).Nodup) : (keys (erase m k)).Nodup :=
  h.sublist ((List.filter_sublist).map _)

end Assoc

namespace RetryQueue

/-- The items in the queue, whether they wait or are released. -/
def items (q : RetryQueue) : List WorkItem := (q.allBlocked ++ q.ready).map (·.item)

/-- Every constraint has one list of items that wait for it. -/
def Sorted (q : RetryQueue) : Prop := (Assoc.keys q.blocked).Nodup

theorem length_items (q : RetryQueue) : q.items.length = q.size := by
  simp [items, size, blockedSize, readySize]

variable {q : RetryQueue}

theorem Sorted.park (h : q.Sorted) (item : WorkItem) (c : Constraint) (now : Nat) :
    (q.park item c now).Sorted := Assoc.nodup_put c _ h

theorem perm_park (q : RetryQueue) (item : WorkItem) (c : Constraint) (now : Nat) :
    (q.park item c now).items.Perm (item :: q.items) := by
  have hput := Assoc.perm_flatMap_put (fun _ p => p) q.blocked c { item, since := now }
  simp only [List.map_id'] at hput
  exact (hput.append_right q.ready).map (·.item)

theorem Sorted.release (h : q.Sorted) (c : Constraint) : (q.release c).Sorted := by
  unfold RetryQueue.release
  split
  · exact Assoc.nodup_erase c h
  · exact h

theorem perm_release (h : q.Sorted) (c : Constraint) : (q.release c).items.Perm q.items := by
  unfold RetryQueue.release
  split
  · rename_i parked hc
    refine List.Perm.map _ ?_
    have hperm := (Assoc.perm_flatMap_erase h hc).append_right q.ready
    rw [List.append_assoc] at hperm
    exact (List.perm_append_comm.append_left _).trans hperm.symm
  · exact List.Perm.refl _

theorem Sorted.releaseAll (h : q.Sorted) (resolved : List Constraint) :
    (resolved.foldl RetryQueue.release q).Sorted := by
  induction resolved generalizing q with
  | nil => exact h
  | cons c rest ih => exact ih (h.release c)

theorem perm_releaseAll (h : q.Sorted) (resolved : List Constraint) :
    (resolved.foldl release q).items.Perm q.items := by
  induction resolved generalizing q with
  | nil => exact List.Perm.refl _
  | cons c rest ih => exact (ih (h.release c)).trans (perm_release h c)

theorem keys_reportStuck (now : Nat) (q : RetryQueue) :
    Assoc.keys (q.reportStuck now).blocked = Assoc.keys q.blocked := by
  simp [reportStuck, Assoc.keys, Function.comp_def]

theorem items_reportStuck (now : Nat) (q : RetryQueue) : (q.reportStuck now).items = q.items := by
  simp [reportStuck, items, allBlocked, List.flatMap_map, List.map_flatMap, Function.comp_def]

theorem Sorted.takeReady (h : q.Sorted) (resolved : List Constraint) (now max : Nat) :
    (q.takeReady resolved now max).2.Sorted := by
  have hall := h.releaseAll resolved
  rw [Sorted, ← keys_reportStuck now] at hall
  exact hall

/-- What is taken and what stays are the items that were there. -/
theorem perm_takeReady (h : q.Sorted) (resolved : List Constraint) (now max : Nat) :
    ((q.takeReady resolved now max).1 ++ (q.takeReady resolved now max).2.items).Perm q.items := by
  have hall := perm_releaseAll h resolved
  rw [← items_reportStuck now] at hall
  refine List.Perm.trans ?_ hall
  unfold takeReady
  generalize (resolved.foldl release q).reportStuck now = r
  have hsplit : (r.ready.take max ++ (r.allBlocked ++ r.ready.drop max)).Perm
      (r.allBlocked ++ r.ready) := by
    refine (List.perm_append_comm_assoc ..).trans ?_
    rw [List.take_append_drop]
  have hmap := hsplit.map (·.item)
  rwa [List.map_append] at hmap

theorem length_takeReady (q : RetryQueue) (resolved : List Constraint) (now max : Nat) :
    (q.takeReady resolved now max).1.length ≤ max := by
  rw [takeReady, List.length_map]
  exact List.length_take_le ..

end RetryQueue

end ControlBus
