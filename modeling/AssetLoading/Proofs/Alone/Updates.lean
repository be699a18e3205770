import AssetLoading.Proofs.Alone.Deliveries

/-! # A task alone, update by update

  Without workers each update takes the task one action further on the main thread, and
  the update that completes it delivers its load. So after some number of updates the
  task has come as far as its course says after that number of outcomes.
-/

namespace AssetLoading

namespace Solo

variable {t : Solo} {g : Settings} {p : Point} {d : Duty} {s u : State} {call : Runner}
  {jobs : JobQueue}

/-- How a task rests between updates: it waits for its next action, or it is done with,
its load delivered. -/
def Pauses (t : Solo) (g : Settings) (jobs : JobQueue) : Standing → State → Prop
  | .ready k, s => t.Rests g jobs (.ready k) s
  | .done p, s => t.Ended (t.delivered p) s

/-- With nothing left to the main thread, a flush does nothing that matters to a task. -/
theorem flush_returns {data : List Int} {noted reported : Option Int32} (call : Runner)
    (hs : t.Shows g p d s) (hc : t.Carries data noted reported s) :
    Returns (flush call { thread := .main }) s fun _ u =>
      t.Shows g p d u ∧ t.Carries data noted reported u := by
  unfold flush
  refine .look ?_
  rw [hc.doomed]
  refine .part rfl (.of_eq rfl ⟨{ hs with }, { hc with doomed := ?_ }⟩)
  show ((s.modifyRegistry 0 fun reg => { reg with doomed := [] }).registry 0).doomed = []
  rw [State.registry_modifyRegistry]
  split
  · rfl
  · exact hc.doomed

/-- Without waiting jobs there is nothing to drain. -/
theorem drainJobs_of_none (call : Runner) (thread : Thread) (hnone : s.jobs.waiting = []) :
    drainJobs call thread s = .ok 0 s := by
  have hsame : { s with jobs := { s.jobs with waiting := [] } } = s := by
    rw [← hnone]
  show EStateM.bind (runJobs call thread s.jobs.waiting) _
    { s with jobs := { s.jobs with waiting := [] } } = _
  rw [hnone, hsame]
  rfl

section Updating

variable (he : t.Explained call) (hown : ∀ sub ∈ t.calls, sub.asset = t.handle)
  (hsingle : g.isSingleThreaded = true) (hjobs : jobs.waiting = [])
include he hown hsingle hjobs

/-- An update takes the task one action further. -/
theorem update_returns {k : Nat} (hk : t.after k = .ready k) (hs : t.Rests g jobs (.ready k) s) :
    Returns (update call .main) s fun _ u => t.Pauses g jobs (t.after (k + 1)) u := by
  obtain ⟨hshows, hcarries⟩ := hs
  unfold update
  rw [if_neg (not_not_intro rfl)]
  refine (flush_returns call hshows hcarries).first fun _ u hu => ?_
  obtain ⟨hshows, hcarries⟩ := hu
  have hidle : u.jobs.waiting = [] := hshows.jobs_eq ▸ hjobs
  refine .part (drainJobs_of_none call .main hidle) (.look ?_)
  rw [hshows.settings, if_pos hsingle]
  refine (acquireTask_returns hshows (runnable_of_no_job u rfl)).first fun taken v hv => ?_
  obtain ⟨rfl, rfl⟩ := hv
  have hclaimed := hshows.modifyQueue fun _ => t.claimed
  refine (stepTask_returns he .main hk hclaimed (hcarries.of_eq rfl rfl)
    fun _ _ _ => rfl).first fun _ w hw => ?_
  rw [← hk, ← after_succ] at hw
  cases hnext : t.after (k + 1) with
  | ready j =>
    rw [hnext] at hw
    obtain ⟨hw, hwc⟩ := hw
    refine .part (deliver_of_none call .main hw.staged_eq) (.of_eq rfl ⟨?_, hwc.of_eq rfl rfl⟩)
    exact hw.pruned (he.held _ (.course (after_cursor hnext))).whole hown
  | done p =>
    rw [hnext] at hw
    exact (deliver_done he hown hnext hw).first fun _ _ hended => .pure hended.1

/-- As many updates, as many outcomes. -/
theorem updates_returns {n : Nat} (hready : ∀ k < n, t.after k = .ready k) :
    ∀ {m k : Nat} {s : State}, m + k = n → t.Pauses g jobs (t.after k) s →
      Returns (updates call .main m) s fun _ u => t.Pauses g jobs (t.after n) u := by
  intro m
  induction m with
  | zero =>
    intro k s hsum hs
    rw [Nat.zero_add] at hsum
    exact .pure (hsum ▸ hs)
  | succ m ih =>
    intro k s hsum hs
    have hk := hready k (by omega)
    rw [hk] at hs
    refine (update_returns he hown hsingle hjobs hk hs).first fun _ u hu => ?_
    exact ih (by omega) hu

end Updating

end Solo

end AssetLoading
