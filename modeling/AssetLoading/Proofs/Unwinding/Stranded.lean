import AssetLoading.Proofs.Tasks.Custody
import Mathlib.Data.List.Count

/-! # Claims in nobody's hands

  Whoever has a claimed task in hand may give it back or report it as done. A claim
  in nobody's hands stays: nothing that runs later touches it, a shutdown included.
  The most urgent priority counts claimed tasks, so whoever waits for the tasks at or
  below the priority of such a claim waits for ever.
-/

namespace AssetLoading

/-! ### They stay -/

/-- There are more claims like this one than are in somebody's hands. -/
structure Moment.Strands (c : Claimed) (m : Moment) : Prop where
  custody : Custody m
  excess : m.hands.count c < m.state.queue.active.count c

namespace Moment.Strands

variable {c : Claimed} {m n : Moment}

theorem mem (h : m.Strands c) : c ∈ m.state.queue.active :=
  List.count_pos_iff.1 (Nat.zero_lt_of_lt h.excess)

/-- No claim is given back or done, and none comes into another hand. -/
theorem kept (h : m.Strands c) (hn : Custody n)
    (hactive : n.state.queue.active = m.state.queue.active) (hhands : n.hands.Subperm m.hands) :
    n.Strands c := by
  refine ⟨hn, ?_⟩
  rw [hactive]
  exact Nat.lt_of_le_of_lt (hhands.count_le c) h.excess

/-- A claim that is given back or done was in a hand. -/
theorem usedUp (h : m.Strands c) (hn : Custody n) {d : Claimed} (hhands : m.hands.Perm (d :: n.hands))
    (hactive : n.state.queue.active = TaskQueue.without m.state.queue.active d.id) : n.Strands c := by
  have hleft := h.custody.perm_without (hhands.mem_iff.2 List.mem_cons_self)
  have hexcess := h.excess
  rw [hhands.count_eq, hleft.count_eq, List.count_cons, List.count_cons] at hexcess
  refine ⟨hn, ?_⟩
  rw [hactive]
  omega

theorem taskMove (h : m.Strands c) (hmove : TaskMove m n) : n.Strands c := by
  have hn := h.custody.taskMove hmove
  cases hmove with
  | accept t => exact h.kept hn rfl (hands_eq rfl rfl ▸ List.Subperm.refl _)
  | @acquire u s e queue hq =>
    have hhands := hands_cons_perm (.claimed e) u (s.withQueue queue)
    -- the entry that is taken up is claimed once more and held once more
    have hexcess : (⟨u, s⟩ : Moment).hands.count c < s.queue.active.count c := h.excess
    obtain ⟨front, back, -, -, -, rfl⟩ := TaskQueue.acquire_eq_some hq
    refine ⟨hn, ?_⟩
    rw [hhands.count_eq]
    show (e.claim :: (⟨u, s⟩ : Moment).hands).count c < (e.claim :: s.queue.active).count c
    rw [List.count_cons, List.count_cons]
    omega
  | @shelve u s e label =>
    -- a shelved claim is as good as one in the hands of the thread
    have hkept : ((s.client.claims.remove label).map fun p => p.2.claim).Sublist s.client.inHand :=
      List.filter_sublist.map _
    refine h.kept hn rfl (List.Subperm.trans ?_ (hands_cons_perm (.claimed e) u s).symm.subperm)
    exact ((hkept.append_right _).cons_cons e.claim).subperm
  | @unshelve u s e label he =>
    refine h.kept hn rfl ((hands_cons_perm (.claimed e) u _).subperm.trans ?_)
    exact (List.subperm_append_right _).2 (Table.subperm_of_lookup Entry.claim he)
  | forget => exact h.kept hn rfl (List.sublist_append_right _ _).subperm
  | exchange es e => exact h.kept hn rfl (hands_exchange es e _ _).subperm
  | handOver e he hjob =>
    exact h.usedUp hn (d := e.claim) (hands_cons_perm _ _ _) rfl
  | wait e j he hjob hj => exact h.usedUp hn (d := e.claim) (hands_cons_perm _ _ _) rfl
  | proceed e he => exact h.usedUp hn (d := e.claim) (hands_cons_perm _ _ _) rfl
  | complete e => exact h.usedUp hn (d := e.claim) (hands_cons_perm _ _ _) rfl
  | _ => exact h.kept hn rfl (hands_eq rfl rfl ▸ List.Subperm.refl _)

theorem move (h : m.Strands c) (hmove : Move m n) : n.Strands c := by
  have hsame (hmn : m.SameTasks n) : n.Strands c :=
    h.kept (h.custody.move hmove) hmn.active (hmn.hands ▸ List.Subperm.refl _)
  cases hmove with
  | asset hmove => exact hsame hmove.sameTasks
  | body hmove => exact hsame hmove.sameTasks
  | job hmove => exact hsame hmove.sameTasks
  | task hmove => exact h.taskMove hmove
  | notice hmove => exact hsame hmove.sameTasks
  | plain hmove => exact hsame hmove.sameTasks

/-- A claim that code had in hand when it unwound is in no hand. -/
theorem unwind (h : m.Strands c) : (⟨[], m.state⟩ : Moment).Strands c := by
  have hhands : (⟨[], m.state⟩ : Moment).hands.Sublist m.hands :=
    (List.Sublist.refl _).append (List.nil_sublist _)
  exact h.kept (h.custody.handedOn rfl hhands.subperm) rfl hhands.subperm

end Moment.Strands

/-! ### Calls that return or unwind -/

/-- A call that returned or unwound has left this state, and the session goes on. -/
def State.GoesOn (s t : State) : Prop :=
  ∃ fuel thread op outcome, performOn fuel s thread op = (outcome, t) ∧ outcome.isFinal = false

/-- What all moves preserve and does not depend on what is under way holds after a call
that returned or unwound. -/
theorem State.GoesOn.preserve {P : Moment → Prop} (hstep : ∀ m n, Move m n → P m → P n)
    (hunwind : ∀ m, P m → P ⟨[], m.state⟩) {s t : State} (h : s.GoesOn t) (hs : P ⟨[], s⟩) :
    P ⟨[], t⟩ := by
  obtain ⟨fuel, thread, op, outcome, hrun, hout⟩ := h
  cases outcome with
  | answered reply => exact (moves_of_answered hrun).preserve hstep hs
  | halted reason =>
    cases reason with
    | panic cause =>
      obtain ⟨n, hn, hends⟩ := moves_of_halted hrun
      obtain rfl : t = n.state := hends
      exact hunwind n (hn.preserve hstep hs)
    | _ => cases hout

theorem State.GoesOn.custody {s t : State} (h : s.GoesOn t) (hs : Custody ⟨[], s⟩) :
    Custody ⟨[], t⟩ := by
  refine h.preserve (fun _ _ hmove hm => hm.move hmove) (fun m hm => ?_) hs
  have hhands : (⟨[], m.state⟩ : Moment).hands.Sublist m.hands :=
    (List.Sublist.refl _).append (List.nil_sublist _)
  exact hm.handedOn rfl hhands.subperm

theorem State.GoesOn.strands {s t : State} {c : Claimed} (h : s.GoesOn t)
    (hs : (⟨[], s⟩ : Moment).Strands c) : (⟨[], t⟩ : Moment).Strands c :=
  h.preserve (fun _ _ hmove hm => hm.move hmove) (fun _ hm => hm.unwind) hs

/-! ### Waits that never end -/

section Waiting

variable {call : Runner} {goal : Goal} {fuel : Nat} {s t : State}

theorem foldl_min_le (least : Int32) (ps : List Int32) :
    ps.foldl (fun least p => if p < least then p else least) least ≤ least ∧
      ∀ p ∈ ps, ps.foldl (fun least p => if p < least then p else least) least ≤ p := by
  induction ps generalizing least with
  | nil => exact ⟨Int32.le_refl _, by simp⟩
  | cons q ps ih =>
    obtain ⟨hle, hall⟩ := ih (if q < least then q else least)
    have hmin : (if q < least then q else least) ≤ least ∧ (if q < least then q else least) ≤ q := by
      split
      next hlt => exact ⟨Int32.le_of_lt hlt, Int32.le_refl _⟩
      next hge => exact ⟨Int32.le_refl _, Int32.not_lt.1 hge⟩
    refine ⟨Int32.le_trans hle hmin.1, fun p hp => ?_⟩
    rcases List.mem_cons.1 hp with rfl | hp
    · exact Int32.le_trans hle hmin.2
    · exact hall p hp

/-- A goal that needs a claimed task done is not met. -/
theorem Goal.isOpen_of_mem_active {c : Claimed} {priority : Int32} (hc : c ∈ s.queue.active)
    (hle : c.priority ≤ priority) : (Goal.doneTo priority).isOpen s = true := by
  have hleast := (foldl_min_le 2147483647
    (s.queue.pending.map (·.priority) ++ s.queue.active.map (·.priority))).2 c.priority
    (List.mem_append_right _ (List.mem_map_of_mem hc))
  exact decide_eq_true (Int32.le_trans hleast hle)

/-- Whoever updates until a goal is met returns when it is. -/
theorem isOpen_of_updateUntil (h : updateUntil call goal fuel s = .ok () t) :
    goal.isOpen t = false := by
  induction fuel generalizing s with
  | zero => cases h
  | succ fuel ih =>
    unfold updateUntil at h
    obtain ⟨now, r, hget, h⟩ := Exec.bind_eq_ok h
    cases hget
    split at h
    · -- Whatever is done before, the last thing is to look whether the goal is met.
      obtain ⟨-, r, -, h⟩ := Exec.bind_eq_ok h
      obtain ⟨now, r, hget, h⟩ := Exec.bind_eq_ok h
      cases hget
      dsimp only at h
      split at h
      · obtain ⟨advanced, q, -, h⟩ := Exec.bind_eq_ok h
        split at h
        · obtain ⟨-, v, -, h⟩ := Exec.bind_eq_ok h
          exact ih h
        · exact ih h
      · exact ih h
    next hmet =>
      cases h
      exact Bool.eq_false_iff.2 hmet

/-- So does whoever waits on another thread. -/
theorem isOpen_of_waitFor {thread : Thread} (h : waitFor call thread goal fuel s = .ok () t) :
    goal.isOpen t = false := by
  unfold waitFor at h
  split at h
  · exact isOpen_of_updateUntil h
  · obtain ⟨now, r, hget, h⟩ := Exec.bind_eq_ok h
    cases hget
    split at h
    · obtain ⟨-, r, -, h⟩ := Exec.bind_eq_ok h
      obtain ⟨now, q, hget, h⟩ := Exec.bind_eq_ok h
      cases hget
      split at h
      · cases h
      next hmet =>
        cases h
        exact Bool.eq_false_iff.2 hmet
    next hmet =>
      cases h
      exact Bool.eq_false_iff.2 hmet

theorem isOpen_of_blockForPriority {thread : Thread} {priority : Int32} {reply : Reply}
    (h : performOn fuel s thread (.blockForPriority priority) = (.answered reply, t)) :
    (Goal.doneTo priority).isOpen t = false := by
  obtain ⟨_, r, hwait, hend⟩ := Exec.bind_eq_ok (perform_of_answered h)
  cases hend
  have hmet (w : Thread) (hw : waitFor (run fuel) w (.doneTo priority) fuel s = .ok () t) :
      (Goal.doneTo priority).isOpen t = false := isOpen_of_waitFor hw
  cases thread with
  | worker number => cases hwait
  | main => exact hmet .main hwait
  | other => exact hmet .other hwait

/-- As long as a claim is in no hand, nobody gets an answer who waits for it. -/
theorem Moment.Strands.never_answered {c : Claimed} {thread : Thread} {priority : Int32}
    {reply : Reply} (hs : (⟨[], s⟩ : Moment).Strands c) (hle : c.priority ≤ priority) :
    performOn fuel s thread (.blockForPriority priority) ≠ (.answered reply, t) := by
  intro h
  have hlater : s.GoesOn t := ⟨fuel, thread, _, _, h, rfl⟩
  have hopen := Goal.isOpen_of_mem_active (hlater.strands hs).mem hle
  rw [isOpen_of_blockForPriority h] at hopen
  cases hopen

end Waiting

end AssetLoading
