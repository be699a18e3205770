import AssetLoading.Queue.TaskQueue
import Mathlib.Data.List.Nodup
import Mathlib.Data.List.Perm.Basic

/-! # What the queue operations do

  One law for each operation, saying where in the queue it acts: a new task is
  put between a front and a back of the waiting tasks, a claim takes out the
  first task that can make progress, and a claimed task that is given back or
  finished is the only one that leaves the claimed tasks.
-/

namespace AssetLoading

/-- What the queue remembers of a task while it is claimed. -/
def Entry.claim (e : Entry) : Claimed :=
  ⟨e.id, e.priority, e.asset⟩

namespace TaskQueue

/-! ### New tasks -/

theorem placeFor_le (pending : List Entry) (key : Int64) :
    placeFor pending key ≤ pending.length :=
  partitionPoint_le _ _

theorem insertIdx_length_append {α : Type} (front back : List α) (a : α) :
    (front ++ back).insertIdx front.length a = front ++ a :: back := by
  induction front with
  | nil => exact List.insertIdx_zero
  | cons b front ih =>
    show (b :: (front ++ back)).insertIdx (front.length + 1) a = _
    rw [List.insertIdx_succ_cons, ih]
    rfl

/-- A new task is put between the tasks in front of its place and those behind. -/
theorem push_pending (q : TaskQueue) (t : Task) :
    ∃ front back, q.pending = front ++ back ∧ front.length = placeFor q.pending t.sort ∧
      (q.push t).2.pending = front ++ (q.push t).1 :: back := by
  have hle := placeFor_le q.pending t.sort
  have hsplit := List.take_append_drop (placeFor q.pending t.sort) q.pending
  have hlength := List.length_take_of_le hle
  refine ⟨_, _, hsplit.symm, hlength, ?_⟩
  have hinsert := insertIdx_length_append (q.pending.take (placeFor q.pending t.sort))
    (q.pending.drop (placeFor q.pending t.sort)) (q.push t).1
  rwa [hsplit, hlength] at hinsert

/-! ### Claims -/

/-- A claim takes the first waiting task that can make progress. -/
theorem acquire_eq_some {runnable : Entry → Bool} {q q' : TaskQueue} {e : Entry}
    (h : q.acquire runnable = some (e, q')) :
    ∃ front back, q.pending = front ++ e :: back ∧ runnable e = true ∧
      (∀ a ∈ front, runnable a = false) ∧
      q' = { q with pending := front ++ back, active := e.claim :: q.active } := by
  unfold acquire at h
  split at h
  next => cases h
  next e' hfind =>
    cases h
    obtain ⟨hrun, front, back, hpending, hfront⟩ := List.find?_eq_some_iff_append.1 hfind
    simp only [Bool.not_eq_true'] at hfront
    refine ⟨front, back, hpending, hrun, hfront, ?_⟩
    have hfront' (a : Entry) (ha : a ∈ front) : ¬ runnable a = true := by simp [hfront a ha]
    rw [hpending, List.eraseP_append_right _ hfront', List.eraseP_cons_of_pos hrun]
    rfl

/-- A claimed task is the only one that leaves the claimed tasks. -/
theorem perm_without {active : List Claimed} (hactive : (active.map Claimed.id).Nodup)
    {c : Claimed} (hc : c ∈ active) : active.Perm (c :: without active c.id) := by
  unfold without
  obtain ⟨d, front, back, -, hd, hsplit, herase⟩ :=
    List.exists_of_eraseP (p := fun d => d.id == c.id) hc (beq_self_eq_true c.id)
  have hdc : d = c := by
    refine List.inj_on_of_nodup_map hactive ?_ hc (beq_iff_eq.1 hd)
    rw [hsplit]
    exact List.mem_append_right front List.mem_cons_self
  rw [herase, hsplit, hdc]
  exact List.perm_middle

end TaskQueue

end AssetLoading
