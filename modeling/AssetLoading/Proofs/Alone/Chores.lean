import AssetLoading.Proofs.Alone.Updates

/-! # A task alone, worked at by a worker

  A worker claims the task and takes it further step by step, while the main thread
  drains the jobs and delivers the loads whenever it gets to it. An action for the GPU
  thread takes a claim to be handed over, a drain to be run, and another claim for its
  outcome to be taken in; in between a claim may get nothing and a drain may find
  nothing to do.

  The task is fresh, handed over, or run and not yet taken in. Each chore leads from one
  of these to the next or leaves things as they are, so the task stays on its course.
-/

namespace AssetLoading

/-- What happens while a worker is at work. -/
inductive Chore where
  /-- The worker claims a task, unless it has one. -/
  | claim
  /-- The worker, by number, takes its task one step further and gives it back. -/
  | step (number : Nat)
  /-- The main thread drains the waiting jobs. -/
  | drain
  /-- The main thread delivers the staged loads. -/
  | deliver

/-- Do a chore, given the task that the worker has; the task it has then. -/
def Chore.perform (call : Runner) (hand : Option Entry) : Chore → Exec (Option Entry)
  | .claim =>
    match hand with
    | some e => pure (some e)
    | none => acquireTask
  | .step number =>
    match hand with
    | some e => do
      stepTask call (.worker number) e
      pure none
    | none => pure none
  | .drain => do
    let _ ← drainJobs call .main
    pure hand
  | .deliver => do
    let _ ← AssetLoading.deliver call .main
    pure hand

/-- Do several chores, one after the other. -/
def performChores (call : Runner) : List Chore → Option Entry → Exec (Option Entry)
  | [], hand => pure hand
  | c :: cs, hand => do
    let hand ← c.perform call hand
    performChores call cs hand

theorem performChores_append {call : Runner} {cs ds : List Chore} {hand : Option Entry} {s : State}
    {P Q : Option Entry → State → Prop} (hcs : Returns (performChores call cs hand) s P)
    (hds : ∀ hand t, P hand t → Returns (performChores call ds hand) t Q) :
    Returns (performChores call (cs ++ ds) hand) s Q := by
  induction cs generalizing hand s with
  | nil =>
    obtain ⟨_, _, hrun, hp⟩ := hcs
    cases hrun
    exact hds _ _ hp
  | cons c cs ih =>
    obtain ⟨hand', u, hrun, hp⟩ := hcs
    change EStateM.bind (c.perform call hand) (performChores call cs) s = _ at hrun
    unfold EStateM.bind at hrun
    split at hrun
    next hand'' v hfirst => exact .part hfirst (ih ⟨hand', u, hrun, hp⟩)
    next => cases hrun

namespace Solo

variable {t : Solo} {g : Settings} {s u : State} {call : Runner} {hand : Option Entry} {k : Nat}
  {e : Entry}

/-! ### How far the task is -/

/-- The task waits, or the worker has it. -/
def Lies (t : Solo) (e : Entry) (hand : Option Entry) (s : State) : Prop :=
  hand = none ∧ s.queue = t.waiting e ∨ hand = some e ∧ s.queue = t.claimed

/-- The next action is still to be run. -/
structure Fresh (t : Solo) (g : Settings) (k : Nat) (hand : Option Entry) (s : State) : Prop where
  lies : t.Lies (t.entry k none) hand s
  shows : t.Shows g (t.course k) ⟨s.queue, s.jobs, []⟩ s
  carries : t.Carries (t.course k).data none none s
  idle : s.jobs.waiting = []

/-- The next action is one for the GPU thread, and a job waits there to run it. -/
structure Handed (t : Solo) (g : Settings) (k : Nat) (j : JobId) (hand : Option Entry) (s : State) :
    Prop where
  lies : t.Lies (t.entry k (some j)) hand s
  shows : t.Shows g (t.course k) ⟨s.queue, s.jobs, []⟩ s
  carries : t.Carries (t.course k).data none none s
  action : ∃ a, t.plan.actions[k]? = some a ∧ a.affinity = .gpu
  waiting : s.jobs.waiting = [j]
  made : j < s.jobs.jobs.size
  job : s.jobs.job j = { work := .action t.body k t.handle t.plan.priority }

/-- A job has run the next action; its outcome and its cost estimate are still to be
taken in. -/
structure Ran (t : Solo) (g : Settings) (k : Nat) (j : JobId) (hand : Option Entry) (s : State) :
    Prop where
  lies : t.Lies (t.entry k (some j)) hand s
  shows : t.Shows g (t.course (k + 1)) ⟨s.queue, s.jobs, []⟩ s
  idle : s.jobs.waiting = []
  finished : (s.jobs.job j).finished = true
  outcome : ∃ a, t.plan.actions[k]? = some a ∧ a.affinity = .gpu ∧
    (s.jobs.job j).success = t.succeeds (t.course k) a ∧
    t.Carries (t.course (k + 1)).data none (t.deed (t.course k) a).noted s

/-- How far the worker is with the task. -/
inductive Works (t : Solo) (g : Settings) : Standing → Option Entry → State → Prop where
  /-- The next action is still to be run. -/
  | fresh {k : Nat} {hand : Option Entry} {s : State} (h : t.Fresh g k hand s) : t.Works g (.ready k) hand s
  /-- The next action was handed over. -/
  | handed {k : Nat} {j : JobId} {hand : Option Entry} {s : State} (h : t.Handed g k j hand s) :
    t.Works g (.ready k) hand s
  /-- The next action was run, and its outcome is still to be taken in. -/
  | ran {k : Nat} {j : JobId} {hand : Option Entry} {s : State} (h : t.Ran g k j hand s) :
    t.Works g (.ready k) hand s
  /-- The task is completed, and its load may be staged. -/
  | completed {p : Point} {s : State} (h : t.Rests g s.jobs (.done p) s) (hidle : s.jobs.waiting = []) :
    t.Works g (.done p) none s
  /-- The load was delivered. -/
  | ended {p : Point} {s : State} (h : t.Ended (t.delivered p) s) (hidle : s.jobs.waiting = []) :
    t.Works g (.done p) none s

theorem Lies.taken {e' : Entry} (h : t.Lies e' (some e) s) : e = e' ∧ s.queue = t.claimed := by
  obtain ⟨hno, -⟩ | ⟨he, hqueue⟩ := h
  · cases hno
  · exact ⟨Option.some.inj he, hqueue⟩

theorem Lies.of_queue (h : t.Lies e hand s) (hqueue : u.queue = s.queue) : t.Lies e hand u := by
  unfold Lies
  rw [hqueue]
  exact h

/-! ### Claims -/

/-- The worker has the task after a claim, if it can go on. -/
theorem claim_returns {p : Point} {job : Option JobId} {jobs : JobQueue}
    (hlies : t.Lies (t.entry k job) hand s) (hs : t.Shows g p ⟨s.queue, jobs, []⟩ s)
    (hrunnable : s.runnable (t.entry k job) = true) :
    Returns (Chore.claim.perform call hand) s fun hand u =>
      hand = some (t.entry k job) ∧ u = s.withQueue t.claimed := by
  obtain ⟨rfl, hqueue⟩ | ⟨rfl, hqueue⟩ := hlies
  · rw [hqueue] at hs
    exact acquireTask_returns hs hrunnable
  · exact .pure ⟨rfl, hqueue ▸ rfl⟩

theorem Fresh.claim (h : t.Fresh g k hand s) :
    Returns (Chore.claim.perform call hand) s fun hand u => hand.isSome ∧ t.Fresh g k hand u := by
  refine (claim_returns h.lies h.shows (runnable_of_no_job s rfl)).mono fun hand u hu => ?_
  obtain ⟨rfl, rfl⟩ := hu
  exact ⟨rfl, .inr ⟨rfl, rfl⟩, h.shows.modifyQueue fun _ => t.claimed, h.carries.of_eq rfl rfl, h.idle⟩

theorem Ran.claim {j : JobId} (h : t.Ran g k j hand s) :
    Returns (Chore.claim.perform call hand) s fun hand u => hand.isSome ∧ t.Ran g k j hand u := by
  refine (claim_returns h.lies h.shows (runnable_of_finished rfl h.finished)).mono fun hand u hu => ?_
  obtain ⟨rfl, rfl⟩ := hu
  obtain ⟨a, ha, hgpu, hsuccess, hcarries⟩ := h.outcome
  exact ⟨rfl, .inr ⟨rfl, rfl⟩, h.shows.modifyQueue fun _ => t.claimed, h.idle, h.finished,
    a, ha, hgpu, hsuccess, hcarries.of_eq rfl rfl⟩

/-- Nobody can claim the task while it waits for its job. -/
theorem Handed.claim {j : JobId} (h : t.Handed g k j hand s) :
    Returns (Chore.claim.perform call hand) s fun hand u => t.Handed g k j hand u := by
  obtain ⟨rfl, hqueue⟩ | ⟨rfl, hqueue⟩ := h.lies
  · obtain ⟨a, ha, hgpu⟩ := h.action
    have haffinity : (t.entry k (some j)).currentAffinity = some .gpu := by
      show (t.plan.actions.map Action.affinity)[k]? = _
      rw [List.getElem?_map, ha, Option.map_some, hgpu]
    have hnot : ¬s.runnable (t.entry k (some j)) = true := by
      unfold State.runnable Entry.isRunnable
      rw [currentAffinity_entry, ha, Option.map_some, hgpu]
      show ¬(s.jobs.job j).finished = true
      rw [h.job]
      exact Bool.false_ne_true
    have hnone : s.queue.acquire s.runnable = none := by
      rw [hqueue]
      unfold TaskQueue.acquire Solo.waiting
      dsimp only
      rw [List.find?_cons_of_neg hnot]
      rfl
    show Returns acquireTask s _
    unfold acquireTask
    refine .look ?_
    rw [hnone]
    exact .pure h
  · exact .pure h

/-! ### Steps -/

section Stepping

variable (he : t.Explained call) (hk : t.after k = .ready k)
include he hk

omit he hk in
/-- After an outcome was taken in, the task waits for its next action or is completed. -/
theorem works_of_rests {jobs : JobQueue} {st : Standing} (hs : t.Rests g jobs st s)
    (hidle : jobs.waiting = []) : t.Works g st none s := by
  cases st with
  | ready k =>
    obtain ⟨hs, hc⟩ := hs
    have hjobs : s.jobs = jobs := hs.jobs_eq
    subst hjobs
    exact .fresh ⟨.inl ⟨rfl, hs.queue_eq⟩, hs.own, hc, hidle⟩
  | done p =>
    have hjobs : s.jobs = jobs := Shows.jobs_eq hs
    subst hjobs
    exact .completed hs hidle

omit he hk in
/-- An action for the GPU thread is handed over. -/
theorem Fresh.handOver (h : t.Fresh g k (some e) s) {a : Action Script}
    (ha : t.plan.actions[k]? = some a) (hgpu : a.affinity = .gpu) (number : Nat) :
    Returns (stepTask call (.worker number) e) s fun _ u =>
      t.Handed g k s.jobs.jobs.size none u := by
  obtain ⟨rfl, hqueue⟩ := h.lies.taken
  unfold stepTask
  refine .part rfl ?_
  rw [currentAffinity_entry, ha, Option.map_some, hgpu]
  dsimp only
  rw [if_pos ⟨rfl, nofun⟩]
  let work : Work := .action t.body k t.handle t.plan.priority
  have hshows := (((h.shows.record_hidden (e := .stepped t.id (Thread.worker number == .main)) rfl
    ).modifyJobs fun q => (q.make work).2).modifyJobs (·.submit s.jobs.jobs.size)).modifyQueue
      (·.giveBack (t.entry k (some s.jobs.jobs.size)))
  refine .part rfl (.part rfl (.of_eq rfl ?_))
  -- the task goes back with the number that the new job got
  have hback : s.queue.giveBack (t.entry k (some s.jobs.jobs.size)) =
      t.waiting (t.entry k (some s.jobs.jobs.size)) := by
    rw [hqueue]
    exact giveBack_claimed t rfl
  refine ⟨.inl ⟨rfl, hback⟩, hshows, h.carries.of_eq rfl rfl, ⟨a, ha, hgpu⟩, ?_, ?_, ?_⟩
  · show s.jobs.waiting ++ [_] = _
    rw [h.idle]
    rfl
  · show _ < (s.jobs.jobs.push _).size
    rw [Array.size_push]
    exact Nat.lt_succ_self _
  · show (s.jobs.make work).2.job _ = _
    rw [JobQueue.job_make, if_pos rfl]

omit he hk in
/-- A step does nothing for a task whose job has not run yet. -/
theorem Handed.step {j : JobId} (h : t.Handed g k j (some e) s) (number : Nat) :
    Returns (stepTask call (.worker number) e) s fun _ u => t.Handed g k j none u := by
  obtain ⟨rfl, hqueue⟩ := h.lies.taken
  obtain ⟨a, ha, hgpu⟩ := h.action
  unfold stepTask
  refine .part rfl ?_
  rw [currentAffinity_entry, ha, Option.map_some, hgpu]
  dsimp only
  rw [if_pos ⟨rfl, nofun⟩]
  refine .look ?_
  have hrunning : ¬(s.jobs.job j).finished = true := by
    rw [h.job]
    exact Bool.false_ne_true
  have hback : s.queue.giveBack (t.entry k (some j)) = t.waiting (t.entry k (some j)) := by
    rw [hqueue]
    exact giveBack_claimed t rfl
  have hshows := (h.shows.record_hidden (e := .stepped t.id (Thread.worker number == .main)) rfl
    ).modifyQueue (·.giveBack (t.entry k (some j)))
  show Returns (if (s.jobs.job j).finished = true then _ else _) _ _
  rw [if_neg hrunning]
  exact .of_eq rfl ⟨.inl ⟨rfl, hback⟩, hshows, h.carries.of_eq rfl rfl, h.action, h.waiting, h.made,
    h.job⟩

/-- The outcome of a job is taken in, with the cost estimate that it left. -/
theorem Ran.step {j : JobId} (h : t.Ran g k j (some e) s) (number : Nat) :
    Returns (stepTask call (.worker number) e) s fun _ u =>
      t.Works g (t.advance (.ready k)) none u := by
  obtain ⟨rfl, hqueue⟩ := h.lies.taken
  obtain ⟨a, ha, hgpu, hsuccess, hcarries⟩ := h.outcome
  have hshows := h.shows.record_hidden (e := .stepped t.id (Thread.worker number == .main)) rfl
  unfold stepTask
  refine .part rfl ?_
  rw [currentAffinity_entry, ha, Option.map_some, hgpu]
  dsimp only
  rw [if_pos ⟨rfl, nofun⟩]
  refine .look ?_
  show Returns (if (s.jobs.job j).finished = true then _ else _) _ _
  rw [if_pos h.finished]
  -- the cost estimate is the one that the job left in the body
  refine (takeReported_returns hshows (hcarries.record _)).first fun c u hu => ?_
  obtain ⟨rfl, hu, huc⟩ := hu
  rw [hqueue] at hu
  have hentry : t.IsEntry ((t.entry k none).withComplexity (t.deed (t.course k) a).noted) :=
    ⟨rfl, rfl, rfl⟩
  show Returns (takeOutcome call _ _ (s.jobs.job j).success) u _
  rw [hsuccess]
  refine (takeOutcome_returns he (.worker number) hk ha hu huc hentry ?_).mono
    fun _ v hv => works_of_rests hv h.idle
  unfold entry Entry.withComplexity
  rw [course_succ ha]
  rfl

/-- A step runs an action that needs no other thread, and takes in its outcome; or it
hands the action over. -/
theorem Fresh.step (h : t.Fresh g k (some e) s) (number : Nat) :
    Returns (stepTask call (.worker number) e) s fun _ u =>
      (∃ j, t.Handed g k j none u) ∨ t.Works g (t.advance (.ready k)) none u := by
  by_cases hover : ∃ a, t.plan.actions[k]? = some a ∧ a.affinity = .gpu
  · obtain ⟨a, ha, hgpu⟩ := hover
    exact (h.handOver ha hgpu number).mono fun _ u hu => .inl ⟨_, hu⟩
  · obtain ⟨rfl, hqueue⟩ := h.lies.taken
    have hs := h.shows
    rw [hqueue] at hs
    exact (stepTask_returns he (.worker number) hk hs h.carries
      fun a ha hgpu => absurd ⟨a, ha, hgpu⟩ hover).mono fun _ u hu => .inr (works_of_rests hu h.idle)

end Stepping

/-! ### Drains and deliveries -/

/-- The work of the job is the action, and what it returned is kept. -/
theorem runJob_returns {p : Point} {j : JobId} {a : Action Script} (he : t.Explained call)
    (hs : t.Shows g p ⟨s.queue, s.jobs, []⟩ s) (hp : p.asset.IsHeld)
    (hc : t.Carries p.data none none s) (ha : t.plan.actions[k]? = some a)
    (hleft : (t.acted p k a).asset.IsHeld) (hmade : j < s.jobs.jobs.size)
    (hjob : s.jobs.job j = { work := .action t.body k t.handle t.plan.priority }) :
    Returns (runJob call .main j) s fun _ u =>
      u.queue = s.queue ∧ u.jobs.waiting = s.jobs.waiting ∧
        t.Shows g (t.acted p k a) ⟨u.queue, u.jobs, []⟩ u ∧
        t.Carries (t.deed p a).data none (t.deed p a).noted u ∧
        (u.jobs.job j).finished = true ∧ (u.jobs.job j).success = t.succeeds p a := by
  have hbegun := (hs.modifyJobs (·.modify j fun job => { job with started := true })).record_hidden
    (e := .jobStarted j none) rfl
  have hcarried : t.Carries p.data none none _ :=
    Carries.record (hc.of_eq (u := s.withJobs (s.jobs.modify j fun job => { job with started := true }))
      rfl rfl) (.jobStarted j none)
  unfold runJob
  refine .look ?_
  rw [hjob]
  refine .part rfl (.part rfl ?_)
  refine (runActionAsJob_returns he .main hbegun hp hcarried ha hleft).first fun ok u hu => ?_
  obtain ⟨rfl, hacted, hcarries⟩ := hu
  have hended := (hacted.modifyJobs (·.modify j fun job =>
    { job with success := t.succeeds p a, finished := true })).record_hidden
      (e := .jobEnded j (t.succeeds p a)) rfl
  -- the job is the one that was made, now marked
  have hjobs : u.jobs = s.jobs.modify j fun job => { job with started := true } := hacted.jobs_eq
  have hmade' : j < u.jobs.jobs.size := by
    rw [hjobs]
    show j < (s.jobs.jobs.modify j _).size
    rw [Array.size_modify]
    exact hmade
  have hjob' := u.jobs.job_modify j j fun job =>
    { job with success := t.succeeds p a, finished := true }
  rw [if_pos ⟨rfl, hmade'⟩] at hjob'
  refine .part rfl (.of_eq rfl ⟨hacted.queue_eq, ?_, hended.own, hcarries.of_eq rfl rfl, ?_, ?_⟩)
  · show u.jobs.waiting = _
    rw [hjobs]
    rfl
  · exact congrArg Job.finished hjob'
  · exact congrArg Job.success hjob'

/-- A drain runs the job that waits. -/
theorem Handed.drain {j : JobId} (he : t.Explained call) (hk : t.after k = .ready k)
    (h : t.Handed g k j hand s) :
    Returns (Chore.drain.perform call hand) s fun hand' u => hand' = hand ∧ t.Ran g k j hand u := by
  obtain ⟨a, ha, hgpu⟩ := h.action
  have hrun := runJob_returns (s := s.withJobs { s.jobs with waiting := [] }) he
    (h.shows.modifyJobs fun q => { q with waiting := [] }) (he.held _ (.course hk))
    (h.carries.of_eq rfl rfl) ha (he.held _ (.acted hk ha)) h.made h.job
  have hdrain : Returns (drainJobs call .main) s fun _ u => t.Ran g k j hand u := by
    unfold drainJobs
    refine .look (.part rfl ?_)
    rw [h.waiting]
    refine Returns.first (P := fun _ u => t.Ran g k j hand u) ?_ fun _ u hu => .pure hu
    refine hrun.first fun _ u hu => .pure ?_
    obtain ⟨hqueue, hidle, hshows, hcarries, hfinished, hsuccess⟩ := hu
    rw [← course_succ ha] at hshows
    refine ⟨h.lies.of_queue hqueue, hshows, hidle, hfinished, a, ha, hgpu, hsuccess, ?_⟩
    rw [course_succ ha]
    exact hcarries
  exact hdrain.first fun _ u hu => .pure ⟨rfl, hu⟩

/-- With no job waiting, a drain does nothing. -/
theorem drain_idle (hidle : s.jobs.waiting = []) :
    Returns (Chore.drain.perform call hand) s fun hand' u => hand' = hand ∧ u = s :=
  .part (drainJobs_of_none call .main hidle) (.pure ⟨rfl, rfl⟩)

/-- With nothing staged, a delivery does nothing that matters to a task. -/
theorem deliver_idle {p : Point} (hown : ∀ sub ∈ t.calls, sub.asset = t.handle)
    (hs : t.Shows g p ⟨s.queue, s.jobs, []⟩ s) (hwhole : p.asset.destroyed = false) :
    Returns (Chore.deliver.perform call hand) s fun hand' u =>
      hand' = hand ∧ t.Shows g p ⟨u.queue, u.jobs, []⟩ u ∧
        ∃ notices, u = s.withNotices notices := by
  have hpruned := hs.pruned hwhole hown
  exact .part (deliver_of_none call .main hs.staged_eq) (.pure ⟨rfl, hpruned, _, rfl⟩)

/-! ### Every chore -/

/-- Nobody claims a task that is completed. -/
theorem claim_finished (hqueue : s.queue = t.finished) :
    Returns (Chore.claim.perform call none) s fun hand u => hand = none ∧ u = s := by
  show Returns acquireTask s _
  unfold acquireTask
  refine .look ?_
  rw [hqueue]
  exact .pure ⟨rfl, rfl⟩

section Working

variable (he : t.Explained call) (hown : ∀ sub ∈ t.calls, sub.asset = t.handle)
include he hown

/-- A chore leaves the task where it is, or its outcome is taken in. -/
theorem works_chore {st : Standing} {n : Nat} (hn : t.after n = st) (h : t.Works g st hand s)
    (c : Chore) :
    Returns (c.perform call hand) s fun hand u =>
      t.Works g st hand u ∨ t.Works g (t.advance st) hand u := by
  -- what the main thread does is the same whoever has the task
  cases c with
  | claim =>
    cases h with
    | fresh h => exact h.claim.mono fun _ _ hu => .inl (.fresh hu.2)
    | handed h => exact h.claim.mono fun _ _ hu => .inl (.handed hu)
    | ran h => exact h.claim.mono fun _ _ hu => .inl (.ran hu.2)
    | completed h hidle =>
      refine (claim_finished (Shows.queue_eq h)).mono fun _ _ hu => .inl ?_
      rw [hu.1, hu.2]
      exact .completed h hidle
    | ended h hidle =>
      refine (claim_finished h.queue).mono fun _ _ hu => .inl ?_
      rw [hu.1, hu.2]
      exact .ended h hidle
  | step number =>
    cases hand with
    | none => exact .pure (.inl h)
    | some e =>
      cases h with
      | fresh h =>
        refine (h.step he (after_cursor hn) number).first fun _ _ hu => .pure ?_
        rcases hu with ⟨j, hj⟩ | hw
        · exact .inl (.handed hj)
        · exact .inr hw
      | handed h => exact (h.step number).first fun _ _ hu => .pure (.inl (.handed hu))
      | ran h => exact (h.step he (after_cursor hn) number).first fun _ _ hu => .pure (.inr hu)
  | drain =>
    have hidle (hs : s.jobs.waiting = []) (h : t.Works g st hand s) :
        Returns (Chore.drain.perform call hand) s fun hand u =>
          t.Works g st hand u ∨ t.Works g (t.advance st) hand u := by
      refine (drain_idle hs).mono fun _ _ hu => .inl ?_
      rw [hu.1, hu.2]
      exact h
    cases h with
    | fresh h => exact hidle h.idle (.fresh h)
    | handed h =>
      refine (h.drain he (after_cursor hn)).mono fun _ _ hu => .inl ?_
      rw [hu.1]
      exact .ran hu.2
    | ran h => exact hidle h.idle (.ran h)
    | completed h hs => exact hidle hs (.completed h hs)
    | ended h hs => exact hidle hs (.ended h hs)
  | deliver =>
    cases h with
    | @fresh k _ _ h =>
      refine (deliver_idle hown h.shows (he.held _ (.course (after_cursor hn))).whole).mono
        fun _ _ hu => .inl ?_
      obtain ⟨rfl, hshows, notices, rfl⟩ := hu
      exact .fresh ⟨h.lies, hshows, h.carries.of_eq rfl rfl, h.idle⟩
    | @handed k _ _ _ h =>
      refine (deliver_idle hown h.shows (he.held _ (.course (after_cursor hn))).whole).mono
        fun _ _ hu => .inl ?_
      obtain ⟨rfl, hshows, notices, rfl⟩ := hu
      exact .handed ⟨h.lies, hshows, h.carries.of_eq rfl rfl, h.action, h.waiting, h.made, h.job⟩
    | @ran k _ _ _ h =>
      obtain ⟨a, ha, hgpu, hsuccess, hcarries⟩ := h.outcome
      have hheld := he.held_acted (after_cursor hn) ha
      refine (deliver_idle hown h.shows hheld.whole).mono fun _ _ hu => .inl ?_
      obtain ⟨rfl, hshows, notices, rfl⟩ := hu
      exact .ran ⟨h.lies, hshows, h.idle, h.finished, a, ha, hgpu, hsuccess, hcarries.of_eq rfl rfl⟩
    | completed h hidle =>
      refine (deliver_done he hown hn h).first fun _ u hu => .pure (.inl ?_)
      exact .ended hu.1 (hu.2 ▸ hidle)
    | ended h hidle =>
      refine .part (deliver_of_none call .main h.staged) (.pure (.inl ?_))
      exact .ended ⟨h.asset, h.account, h.queue, rfl⟩ hidle

/-- All the while the task is on its course. -/
theorem works_chores (cs : List Chore) {n : Nat} (h : t.Works g (t.after n) hand s) :
    Returns (performChores call cs hand) s fun hand u => ∃ m, t.Works g (t.after m) hand u := by
  induction cs generalizing n hand s with
  | nil => exact .pure ⟨n, h⟩
  | cons c cs ih =>
    refine (works_chore he hown rfl h c).first fun _ u hu => ?_
    rcases hu with hu | hu
    · exact ih hu
    · rw [← after_succ] at hu
      exact ih hu

/-! ### The end -/

omit hown in
theorem exists_chores_of_ran {j : JobId} (hk : t.after k = .ready k) (h : t.Ran g k j hand s) :
    ∃ cs, Returns (performChores call cs hand) s fun hand u =>
      t.Works g (t.advance (.ready k)) hand u := by
  refine ⟨[.claim, .step 0], h.claim.first fun hand u hu => ?_⟩
  obtain ⟨hsome, hran⟩ := hu
  obtain ⟨e, rfl⟩ := Option.isSome_iff_exists.1 hsome
  refine Returns.first (P := fun hand v => hand = none ∧ t.Works g (t.advance (.ready k)) none v)
    ((hran.step he hk 0).first fun _ v hv => .pure ⟨rfl, hv⟩) fun _ v hv => .pure ?_
  rw [hv.1]
  exact hv.2

omit hown in
theorem exists_chores_of_handed {j : JobId} (hk : t.after k = .ready k) (h : t.Handed g k j hand s) :
    ∃ cs, Returns (performChores call cs hand) s fun hand u =>
      t.Works g (t.advance (.ready k)) hand u := by
  obtain ⟨hand', u, hrun, rfl, hran⟩ := h.drain he hk
  obtain ⟨cs, hcs⟩ := exists_chores_of_ran he hk hran
  exact ⟨.drain :: cs, .part hrun hcs⟩

omit hown in
theorem exists_chores_of_fresh (hk : t.after k = .ready k) (h : t.Fresh g k hand s) :
    ∃ cs, Returns (performChores call cs hand) s fun hand u =>
      t.Works g (t.advance (.ready k)) hand u := by
  have hclaim : Returns (Chore.claim.perform call hand) s fun hand u =>
      hand.isSome ∧ t.Fresh g k hand u := h.claim
  obtain ⟨hand', u, hclaim, hsome, hfresh⟩ := hclaim
  obtain ⟨e, rfl⟩ := Option.isSome_iff_exists.1 hsome
  obtain ⟨_, v, hstep, hv⟩ := hfresh.step he hk 0
  have hstepped : (Chore.step 0).perform call (some e) u = .ok none v := by
    show EStateM.bind (stepTask call (.worker 0) e) _ u = _
    rw [EStateM.bind, hstep]
    rfl
  rcases hv with ⟨j, hj⟩ | hw
  · obtain ⟨cs, hcs⟩ := exists_chores_of_handed he hk hj
    exact ⟨.claim :: .step 0 :: cs, .part hclaim (.part hstepped hcs)⟩
  · exact ⟨[.claim, .step 0], .part hclaim (.part hstepped (.pure hw))⟩

/-- However far the worker is, some chores bring the task to its end. -/
theorem exists_chores {m n : Nat} {p : Point} (hdone : t.after n = .done p) (hmn : m ≤ n)
    (h : t.Works g (t.after m) hand s) :
    ∃ cs, Returns (performChores call cs hand) s fun hand u =>
      hand = none ∧ t.Ended (t.delivered p) u := by
  induction hmn using Nat.decreasingInduction generalizing hand s with
  | self =>
    rw [hdone] at h
    cases h with
    | completed h hidle =>
      refine ⟨[.deliver], ?_⟩
      refine Returns.first (P := fun hand v => hand = none ∧ t.Ended (t.delivered p) v)
        ((deliver_done he hown hdone h).first fun _ v hv => .pure ⟨rfl, hv.1⟩)
        fun _ v hv => .pure hv
    | ended h hidle => exact ⟨[], .pure ⟨rfl, h⟩⟩
  | of_succ m hlt ih =>
    -- some chores lead to the next outcome
    have hnext : ∃ cs, Returns (performChores call cs hand) s fun hand u =>
        t.Works g (t.after (m + 1)) hand u := by
      rw [after_succ]
      cases hm : t.after m with
      | ready k =>
        rw [hm] at h
        cases h with
        | fresh h => exact exists_chores_of_fresh he (after_cursor hm) h
        | handed h => exact exists_chores_of_handed he (after_cursor hm) h
        | ran h => exact exists_chores_of_ran he (after_cursor hm) h
      | done q =>
        rw [hm] at h
        exact ⟨[], .pure h⟩
    obtain ⟨cs, hand', u, hrun, hu⟩ := hnext
    obtain ⟨ds, hds⟩ := ih hu
    refine ⟨cs ++ ds, performChores_append (P := fun a v => a = hand' ∧ v = u)
      (.of_eq hrun ⟨rfl, rfl⟩) ?_⟩
    rintro _ _ ⟨rfl, rfl⟩
    exact hds

end Working

end Solo

end AssetLoading
