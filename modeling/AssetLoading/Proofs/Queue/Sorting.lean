import AssetLoading.Proofs.Queue.Order
import AssetLoading.Proofs.Queue.Urgency
import Mathlib.Data.List.Sort

/-! # Sorted queues

  The key of a task is its priority in front and its cost estimate behind, where an
  estimate below zero counts as zero. A queue into which tasks were put one after the
  other, and from which none was taken yet, is the stable sort of these tasks by
  priority and cost estimate.
-/

namespace AssetLoading

/-! ### Stable sorting -/

/-- One task may come before another: its priority is lower, or the same, and then its
cost estimate is not higher, where an estimate below zero counts as zero. -/
def Entry.mayPrecede (d e : Entry) : Bool :=
  decide (d.priority < e.priority ∨
    d.priority = e.priority ∧ max d.complexity.toInt 0 ≤ max e.complexity.toInt 0)

theorem Entry.mayPrecede_iff {d e : Entry} : d.mayPrecede e = true ↔ d.sort ≤ e.sort := by
  have hd := d.complexity.toInt_lt
  have he := e.complexity.toInt_lt
  unfold mayPrecede Task.sort
  rw [decide_eq_true_iff, Int64.le_iff_toInt_le, toInt_sortKey, toInt_sortKey, Int32.lt_iff_toInt_lt,
    ← Int32.toInt_inj]
  omega

theorem Entry.mayPrecede_trans (c d e : Entry) (hcd : c.mayPrecede d = true)
    (hde : d.mayPrecede e = true) : c.mayPrecede e = true := by
  rw [mayPrecede_iff] at hcd hde ⊢
  exact Int64.le_trans hcd hde

theorem Entry.mayPrecede_total (d e : Entry) : (d.mayPrecede e || e.mayPrecede d) = true := by
  rw [Bool.or_eq_true, mayPrecede_iff, mayPrecede_iff]
  exact Int64.le_total _ _

/-- The stable sort of tasks that are numbered in their order: no task is behind one that
is less urgent, or equally urgent and of a higher number. -/
theorem pairwise_mergeSort_of_ids {batch : List Entry}
    (hids : batch.Pairwise fun d e => d.id < e.id) :
    (batch.mergeSort Entry.mayPrecede).Pairwise fun d e =>
      d.sort < e.sort ∨ d.sort = e.sort ∧ d.id ≤ e.id := by
  have hsorted := List.pairwise_mergeSort (List.zipIdxLE_trans Entry.mayPrecede_trans)
    (List.zipIdxLE_total Entry.mayPrecede_total) batch.zipIdx
  -- the sort is stable: sorting with positions keeps equal keys in their old order
  rw [← List.mergeSort_zipIdx, List.pairwise_map]
  refine hsorted.imp_of_mem fun {d e} hd he hle => ?_
  obtain ⟨hi, hdi⟩ := List.getElem?_eq_some_iff.1
    (List.mem_zipIdx_iff_getElem?.1 (List.mem_mergeSort.1 hd))
  obtain ⟨hj, hej⟩ := List.getElem?_eq_some_iff.1
    (List.mem_zipIdx_iff_getElem?.1 (List.mem_mergeSort.1 he))
  unfold List.zipIdxLE at hle
  split at hle
  next hde =>
    rw [Entry.mayPrecede_iff, Int64.le_iff_lt_or_eq] at hde
    refine hde.imp_right fun heq => ⟨heq, ?_⟩
    rw [if_pos (Entry.mayPrecede_iff.2 (Int64.le_of_eq heq.symm)), decide_eq_true_iff] at hle
    -- the old order is that of the numbers
    rcases Nat.lt_or_eq_of_le hle with hlt | hsame
    · rw [← hdi, ← hej]
      exact Nat.le_of_lt (List.pairwise_iff_getElem.1 hids _ _ hi hj hlt)
    · have heq : d.1 = e.1 := by
        rw [← hdi, ← hej]
        exact getElem_congr_idx hsame
      rw [heq]
  next => cases hle

/-- Tasks that stand in order are the stable sort of the tasks in order of arrival. -/
theorem eq_mergeSort_of_precedes {pending batch : List Entry} (hperm : pending.Perm batch)
    (hids : batch.Pairwise fun d e => d.id < e.id) (hsorted : pending.Pairwise Entry.Precedes) :
    pending = batch.mergeSort Entry.mayPrecede := by
  have hboth := hperm.trans (List.mergeSort_perm batch Entry.mayPrecede).symm
  refine List.Perm.eq_of_pairwise (fun d e hd he hde hed => ?_)
    (hsorted.imp fun h => h.imp_right fun ⟨heq, hlt⟩ => ⟨heq, Nat.le_of_lt hlt⟩)
    (pairwise_mergeSort_of_ids hids) hboth
  have hnodup : (batch.map (·.id)).Nodup := by
    refine (List.pairwise_map.2 hids).imp fun hlt heq => ?_
    exact absurd heq (Nat.ne_of_lt hlt)
  have hid : d.id = e.id := by
    rcases hde with hlt | ⟨heq, hle⟩
    · rcases hed with hgt | ⟨heq, -⟩
      · exact absurd hgt (Int64.lt_asymm hlt)
      · rw [heq] at hlt
        exact absurd hlt (Int64.lt_irrefl)
    · rcases hed with hgt | ⟨-, hge⟩
      · rw [heq] at hgt
        exact absurd hgt (Int64.lt_irrefl)
      · exact Nat.le_antisymm hle hge
  exact List.inj_on_of_nodup_map hnodup (hperm.subset hd) (List.mem_mergeSort.1 he) hid

/-- A queue with no claimed tasks that stands in order keeps the order when it accepts a
task, which joins the others. -/
theorem TaskQueue.push_precedes {q : TaskQueue} (hactive : q.active = [])
    (hids : ∀ e ∈ q.pending, e.id ≤ q.lastId) (hsorted : q.pending.Pairwise Entry.Precedes) (t : Task) :
    (q.push t).2.pending.Pairwise Entry.Precedes ∧
      (q.push t).2.pending.Perm (q.pending ++ [(q.push t).1]) := by
  -- no task of such a queue was claimed before, as far as the queue is concerned
  let w : WatchedQueue := ⟨q, []⟩
  have hnumbered : w.Numbered :=
    ⟨hids, fun _ hid => absurd hid List.not_mem_nil, fun c hc => absurd hc (hactive ▸ List.not_mem_nil)⟩
  have hfresh (e : Entry) : w.Fresh e := List.not_mem_nil
  have hordered : w.Ordered := hsorted.imp fun h _ _ => h
  constructor
  · have hpush := (hordered.push_iff hnumbered t).2
      (WatchedQueue.notMisled_of_fresh (fun e _ => hfresh e) t)
    exact hpush.imp fun h => h (hfresh _) (hfresh _)
  · obtain ⟨front, back, hsplit, -, hpush⟩ := q.push_pending t
    rw [hpush, hsplit, List.append_assoc]
    exact (List.perm_append_singleton _ _).symm.append_left front

end AssetLoading
