import AssetLoading.Proofs.Tasks.Waiting

/-! # Code that drives no tasks

  What becomes of tasks is told by the starts of their actions and by their completions.
  Code whose operations drive no tasks leaves the queue as it is and tells nothing of the
  kind, as long as no job is an action of a task. So a turn of a task is known exactly
  up to what its callbacks do otherwise: it starts at most one action, and either the task
  goes back to the front of the queue or it is completed.

  Actions become jobs only off the main thread. So no job is an action of a task in a
  session without help.
-/

namespace AssetLoading

/-! ### What is told of tasks -/

/-- `true` for an event that tells that an operation drove tasks. -/
def Event.drives : Event → Bool
  | .answered op _ => op.drives
  | _ => false

/-- What is told of the course of tasks. -/
inductive Progress where
  /-- An action of a task starts. -/
  | acted (body : BodyId) (index : Nat)
  /-- A task is completed. -/
  | completed (id : Nat)
deriving DecidableEq, Repr

/-- `true` if an action starts. -/
def Progress.isAction : Progress → Bool
  | acted .. => true
  | completed _ => false

/-- What an event tells of the course of tasks. -/
def Event.progress? : Event → Option Progress
  | .acted b _ i _ _ => some (.acted b i)
  | .completed id => some (.completed id)
  | _ => none

/-- The course of all tasks, in order. -/
def State.course (s : State) : List Progress :=
  (s.history.filterMap Event.progress?).reverse

theorem course_record (s : State) (e : Event) :
    (s.record e).course = s.course ++ e.progress?.toList := by
  unfold State.course State.record
  cases he : e.progress? with
  | none => simp [he]
  | some p => simp [he]

/-- No job is an action of a task. -/
def JobQueue.IsForeign (q : JobQueue) : Prop :=
  ∀ j, (q.job j).work.IsForeign

namespace JobQueue.IsForeign

variable {q : JobQueue}

theorem make (h : q.IsForeign) {w : Work} (hw : w.IsForeign) : (q.make w).2.IsForeign := by
  intro j
  rw [job_make]
  split
  · exact hw
  · exact h j

theorem modify (h : q.IsForeign) {j : JobId} {f : Job → Job} (hf : ∀ job, (f job).work = job.work) :
    (q.modify j f).IsForeign := by
  intro k
  rw [job_modify]
  split
  · rw [hf]
    exact h k
  · exact h k

end JobQueue.IsForeign

/-! ### What is done to tasks -/

/-- What is done to tasks between two states: a change of the queue, some progress, and
the ends of some task bodies. -/
structure State.Effect (change : TaskQueue → TaskQueue) (new : List Progress) (ended : List BodyId)
    (s t : State) : Prop where
  queue : t.queue = change s.queue
  course : t.course = s.course ++ new
  closed : t.closed = s.closed
  foreign : t.jobs.IsForeign
  actions : ∀ b, (t.body b).actions = (s.body b).actions
  taken : ∀ b, b ∉ ended → (t.body b).taken = (s.body b).taken

/-- A later state, in which this is done to tasks if no operation of a script in between
drove tasks and no job was an action of one before. -/
structure State.Does (change : TaskQueue → TaskQueue) (new : List Progress) (ended : List BodyId)
    (s t : State) : Prop where
  lasts : s.Lasts t
  does : s.Without Event.drives t → s.jobs.IsForeign → State.Effect change new ended s t

/-- A later state, in which nothing is done to tasks. -/
abbrev State.LeavesTasks (s t : State) : Prop :=
  State.Does id [] [] s t

namespace State.Does

variable {change change' : TaskQueue → TaskQueue} {new new' : List Progress}
  {ended ended' : List BodyId} {r s t : State}

/-- First one thing is done, and then another. -/
theorem trans (hrs : State.Does change new ended r s) (hst : State.Does change' new' ended' s t) :
    State.Does (change' ∘ change) (new ++ new') (ended ++ ended') r t where
  lasts := hrs.lasts.trans hst.lasts
  does hquiet hforeign := by
    obtain ⟨hfirst, hthen⟩ := hquiet.split hrs.lasts.history hst.lasts.history
    have hs := hrs.does hfirst hforeign
    have ht := hst.does hthen hs.foreign
    refine ⟨ht.queue.trans (congrArg change' hs.queue), ?_, ht.closed.trans hs.closed, ht.foreign,
      fun b => (ht.actions b).trans (hs.actions b), fun b hb => ?_⟩
    · rw [ht.course, hs.course, List.append_assoc]
    · rw [List.mem_append, not_or] at hb
      exact (ht.taken b hb.2).trans (hs.taken b hb.1)

/-- First nothing is done. -/
theorem after (hrs : r.LeavesTasks s) (hst : State.Does change new ended s t) :
    State.Does change new ended r t :=
  hrs.trans hst

/-- In the end nothing is done. -/
theorem before (hrs : State.Does change new ended r s) (hst : s.LeavesTasks t) :
    State.Does change new ended r t := by
  have h := hrs.trans hst
  rw [List.append_nil, List.append_nil] at h
  exact h

end State.Does

/-- A change that concerns neither tasks nor their bodies. -/
theorem State.LeavesTasks.of_same {s t : State} (hlasts : s.Lasts t) (hqueue : t.queue = s.queue)
    (hcourse : t.course = s.course) (hclosed : t.closed = s.closed)
    (hjobs : s.jobs.IsForeign → t.jobs.IsForeign)
    (hbodies : ∀ b, (t.body b).actions = (s.body b).actions ∧ (t.body b).taken = (s.body b).taken) :
    s.LeavesTasks t :=
  ⟨hlasts, fun _ hforeign => ⟨hqueue, hcourse.trans (List.append_nil _).symm, hclosed,
    hjobs hforeign, fun b => (hbodies b).1, fun b _ => (hbodies b).2⟩⟩

/-- A change of a body that keeps its actions, and does not end it. -/
theorem leavesTasks_modifyBody (s : State) (b : BodyId) {f : TaskBody → TaskBody}
    (hf : ∀ body, (f body).actions = body.actions ∧ (f body).taken = body.taken) :
    s.LeavesTasks (s.modifyBody b f) := by
  refine .of_same (permitsTasks_lasts.body s b f) rfl rfl rfl id fun c => ?_
  rw [State.body_modifyBody]
  split
  · exact hf _
  · exact ⟨rfl, rfl⟩

/-- An event that tells nothing of the course of tasks. -/
theorem leavesTasks_record (s : State) {e : Event} (he : e.progress? = none) :
    s.LeavesTasks (s.record e) := by
  refine .of_same (permitsTasks_lasts.anything s e) rfl ?_ rfl id fun _ => ⟨rfl, rfl⟩
  rw [course_record, he]
  exact List.append_nil _

/-! ### Client code does nothing to tasks -/

theorem permits_leavesTasks : Permits State.LeavesTasks where
  refl s := .of_same (permitsTasks_lasts.refl s) rfl rfl rfl id fun _ => ⟨rfl, rfl⟩
  trans := State.Does.after
  note s e he := by
    refine leavesTasks_record s ?_
    cases e with
    | acted => rcases he with he | he | he <;> cases he
    | completed => rcases he with he | he | he <;> cases he
    | _ => rfl
  assets s v := .of_same (permitsTasks_lasts.assets s v) rfl rfl rfl id fun _ => ⟨rfl, rfl⟩
  registries s v := .of_same (permitsTasks_lasts.registries s v) rfl rfl rfl id fun _ => ⟨rfl, rfl⟩
  notices s v := .of_same (permitsTasks_lasts.notices s v) rfl rfl rfl id fun _ => ⟨rfl, rfl⟩
  files s v := .of_same (permitsTasks_lasts.files s v) rfl rfl rfl id fun _ => ⟨rfl, rfl⟩
  client s c hclaims hjobs :=
    .of_same (permitsTasks_lasts.client s c hclaims hjobs) rfl rfl rfl id fun _ => ⟨rfl, rfl⟩
  data s b f hf := by
    refine leavesTasks_modifyBody s b fun body => ?_
    obtain ⟨data, hdata⟩ := hf body
    rw [hdata]
    exact ⟨rfl, rfl⟩
  makeJob s w hw :=
    .of_same (permitsTasks_lasts.makeJob s w hw) rfl rfl rfl (fun h => h.make hw) fun _ => ⟨rfl, rfl⟩
  labelJob s l j hj :=
    .of_same (permitsTasks_lasts.labelJob s l j hj) rfl rfl rfl id fun _ => ⟨rfl, rfl⟩
  submitJob s j hj :=
    .of_same (permitsTasks_lasts.submitJob s j hj) rfl rfl rfl id fun _ => ⟨rfl, rfl⟩
  drainJobs s := .of_same (permitsTasks_lasts.drainJobs s) rfl rfl rfl id fun _ => ⟨rfl, rfl⟩
  startJob s j :=
    .of_same (permitsTasks_lasts.startJob s j) rfl rfl rfl (fun h => h.modify fun _ => rfl)
      fun _ => ⟨rfl, rfl⟩
  finishJob s j ok :=
    .of_same (permitsTasks_lasts.finishJob s j ok) rfl rfl rfl (fun h => h.modify fun _ => rfl)
      fun _ => ⟨rfl, rfl⟩

theorem runsJobs_leavesTasks : RunsJobs State.LeavesTasks False where
  toPermits := permits_leavesTasks
  act hcall s j thread b i asset priority hwork := by
    have hlasts := stays_runActionAsJob permitsTasks_lasts.toPermitsBodies
      (hcall.weaken fun _ _ h => h.lasts) thread b i asset priority s
    refine hlasts.weaken fun t ht => ⟨ht, fun _ hforeign => ?_⟩
    -- no job is an action of a task here
    have hnot := hforeign j
    rw [hwork] at hnot
    exact hnot.elim

/-- Client code leaves tasks alone, unless an operation is told to have driven some. -/
theorem steers_leavesTasks : Steers State.LeavesTasks False where
  toRunsJobs := runsJobs_leavesTasks
  answer s op reply _ := leavesTasks_record s rfl
  drive {call} hcall fuel scope op hop := by
    intro s
    have hlasts : StaysFrom State.Lasts False s (execute fuel call scope op) := by
      have hdrives : Drives State.Lasts False := permitsTasks_lasts.drives
      have hcall' : call.Stays State.Lasts False := hcall.weaken fun _ _ h => h.lasts
      by_cases hclaim : ∃ label wait, op = .claim label wait
      · obtain ⟨label, wait, rfl⟩ := hclaim
        exact permitsTasks_lasts.toPermitsQueue.stays_claiming fuel scope label wait s
      · exact stays_driving hdrives hcall' fuel scope hop (fun label wait h => hclaim ⟨label, wait, h⟩) s
    refine .chain (Q := fun r t => ∃ reply, t = r.record (.answered op reply)) hlasts
      (fun reply r _ => ?_) (fun r t hr htold => ?_) fun _ h => h.elim
    · exact .of_ok (t := r.record (.answered op reply)) rfl ⟨reply, rfl⟩
    · -- the answer tells that tasks were driven, so nothing has to be shown
      obtain ⟨reply, rfl⟩ := htold
      refine ⟨hr.trans (permitsTasks_lasts.anything r _), fun hquiet _ => ?_⟩
      obtain ⟨-, hthen⟩ := hquiet.split hr.history (List.suffix_cons _ _)
      exact absurd hthen (not_without_of_record (e := .answered op reply) hop List.suffix_rfl)

/-! ### A turn of a task -/

section Turns

variable {call : Runner} {change : TaskQueue → TaskQueue} {new : List Progress} {ended : List BodyId}

/-- Code that leaves tasks alone comes before code that does something to them. -/
theorem Stays.thenDoes {α β : Type} {x : Exec α} {f : α → Exec β}
    (hx : Stays State.LeavesTasks False x) (hf : ∀ a, Stays (State.Does change new ended) False (f a)) :
    Stays (State.Does change new ended) False (x >>= f) :=
  fun s => .chain (hx s) (fun a t _ => hf a t) (fun _ _ => .after) fun _ h => h.elim

/-- Code that does something to tasks comes before code that leaves them alone. -/
theorem StaysFrom.doesThen {α β : Type} {s : State} {x : Exec α} {f : α → Exec β}
    (hx : StaysFrom (State.Does change new ended) False s x)
    (hf : ∀ a, Stays State.LeavesTasks False (f a)) :
    StaysFrom (State.Does change new ended) False s (x >>= f) :=
  .chain hx (fun a t _ => hf a t) (fun _ _ => .before) fun _ h => h.elim

theorem stays_told {e : Event} (he : e.progress? = none) :
    Stays State.LeavesTasks False (record e) :=
  .change fun s => leavesTasks_record s he

theorem does_record (s : State) {e : Event} {p : Progress} (he : e.progress? = some p) :
    State.Does id [p] [] s (s.record e) := by
  refine ⟨permitsTasks_lasts.anything s e, fun _ hforeign =>
    ⟨rfl, ?_, rfl, hforeign, fun _ => rfl, fun _ _ => rfl⟩⟩
  rw [course_record, he]
  rfl

theorem does_withQueue (s : State) (change : TaskQueue → TaskQueue) :
    State.Does change [] [] s (s.withQueue (change s.queue)) :=
  ⟨permitsTasks_lasts.queue s _, fun _ hforeign =>
    ⟨rfl, (List.append_nil _).symm, rfl, hforeign, fun _ => rfl, fun _ _ => rfl⟩⟩

theorem does_bodyTaken (s : State) (b : BodyId) : State.Does id [] [b] s (s.bodyTaken b) := by
  refine ⟨permitsTasks_lasts.body s b _, fun _ hforeign =>
    ⟨rfl, (List.append_nil _).symm, rfl, hforeign, fun c => ?_, fun c hc => ?_⟩⟩
  · unfold State.bodyTaken
    rw [State.body_modifyBody]
    split <;> rfl
  · unfold State.bodyTaken
    rw [State.body_modifyBody, if_neg fun h => hc (List.mem_singleton.2 h.1.symm)]

/-- The task can start its next action: its body is not ended, and has as many actions
as the task is known to have. -/
structure State.Readies (s : State) (e : Entry) : Prop where
  job : e.job = none
  taken : (s.body e.body).taken = false
  actions : (s.body e.body).actions.length = e.actionCount

theorem stays_takingNoted (b : BodyId) : Stays State.LeavesTasks False (takeNoted b) :=
  .look fun _ => .bind permits_leavesTasks
    (.change fun s => leavesTasks_modifyBody s b fun _ => ⟨rfl, rfl⟩) fun _ => .pure permits_leavesTasks _

variable (hcall : call.Stays State.LeavesTasks False)

include hcall

/-- The failure hook does nothing to tasks. -/
theorem stays_failing (e : Entry) : Stays State.LeavesTasks False (failTask call .main e) := by
  have hR := permits_leavesTasks
  have hhook : Stays State.LeavesTasks False (runFailureHook call .main e.body e.asset) := by
    refine .look fun s => ?_
    dsimp only
    split
    · exact .bind hR (stays_told rfl) fun _ => .bind hR (hcall.stays _) fun _ =>
        .look fun _ => stays_told rfl
    · exact .pure hR _
  have hend : Stays State.LeavesTasks False (do
      let a ← getAsset e.asset
      log .warn "Asset load action failed"
        [("asset", .text a.displayName), ("ty", .text a.category.name),
          ("action", .number e.cursor), ("state", .text a.state.debug)]
      runFailureHook call .main e.body e.asset) :=
    .bind hR (stays_getAsset hR _) fun _ => .bind hR (stays_log hR _ _ _) fun _ => hhook
  refine .bind hR (stays_getAsset hR _) fun a => ?_
  split
  · exact .bind hR (stays_modifyAsset hR _ _) fun _ => hend
  · exact hend

/-- The task is completed. -/
theorem stays_completing (e : Entry) :
    Stays (State.Does (·.finish e.id) [.completed e.id] [e.body]) False
      (completeTask call .main e) := by
  have hR := permits_leavesTasks
  -- the three parts: the free hook, the end of the task, and staging what was loaded
  have hfree : Stays (State.Does id [] [e.body]) False (freeBody call .main e.body e.asset) := by
    refine fun s => .look ?_
    have htaken : StaysFrom (State.Does id [] [e.body]) False s
        (modifyBody e.body fun body => { body with taken := true }) := does_bodyTaken s e.body
    refine .doesThen htaken fun _ => ?_
    split
    · exact .bind hR (stays_told rfl) fun _ => .bind hR (hcall.stays _) fun _ =>
        .look fun _ => stays_told rfl
    · exact .pure hR _
  have hfinish (a : Asset) : Stays (State.Does (·.finish e.id) [.completed e.id] []) False (do
      log .debug "Asset task complete"
        [("asset", .text a.displayName), ("state", .text a.state.debug)]
      modifyQueue (·.finish e.id)
      record (.completed e.id)
      releaseDeferred 0 .task e.asset) := by
    refine .thenDoes (stays_log hR _ _ _) fun _ s => ?_
    refine .chain (P := State.Does (·.finish e.id) [] []) (Q := State.Does id [.completed e.id] [])
      (does_withQueue s _) (fun _ t _ => ?_) (fun _ _ => .trans) fun _ h => h.elim
    exact .doesThen (x := record (.completed e.id)) (does_record t rfl)
      fun _ => stays_releaseDeferred hR 0 .task _
  have hend : Stays (State.Does (·.finish e.id) [.completed e.id] []) False (do
      let a ← getAsset e.asset
      if a.state.isLoaded then stage e.asset
      log .debug "Asset task complete"
        [("asset", .text a.displayName), ("state", .text a.state.debug)]
      modifyQueue (·.finish e.id)
      record (.completed e.id)
      releaseDeferred 0 .task e.asset) := by
    refine .thenDoes (stays_getAsset hR _) fun a => ?_
    split
    · exact .thenDoes (stays_stage hR _) fun _ => hfinish a
    · exact hfinish a
  exact fun s => .chain (hfree s) (fun _ t _ => hend t) (fun _ _ => .trans) fun _ h => h.elim

/-- A task that is ready starts its next action, if there is one left. -/
theorem staysFrom_acting {s : State} {b : BodyId} {i : Nat} (asset : Handle) (priority : Int32)
    (htaken : (s.body b).taken = false) (hi : i < (s.body b).actions.length) :
    StaysFrom (State.Does id [.acted b i] []) False s (runAction call .main b i asset priority) := by
  have hR := permits_leavesTasks
  have hclear := leavesTasks_modifyBody s b (f := fun body => { body with noted := none })
    fun _ => ⟨rfl, rfl⟩
  refine .chain (P := fun s t => t = s.modifyBody b fun body => { body with noted := none }) rfl
    (fun _ t ht => ?_) (fun _ _ heq ht => .after (heq ▸ hclear) ht) fun _ h => h.elim
  obtain ⟨-, rfl⟩ := EStateM.Result.ok.inj ht
  have hbody : ((s.modifyBody b fun body => { body with noted := none }).body b).taken = false ∧
      i < ((s.modifyBody b fun body => { body with noted := none }).body b).actions.length := by
    rw [State.body_modifyBody]
    split
    · exact ⟨htaken, hi⟩
    · exact ⟨htaken, hi⟩
  refine .look ?_
  dsimp only
  split
  next action _ _ =>
    refine .doesThen (x := record _) (does_record _ rfl) fun _ => ?_
    exact .bind hR (hcall.stays _) fun _ => .look fun _ => .bind hR (stays_told rfl) fun _ => .pure hR _
  next hnone =>
    -- there is an action, and the body is not ended, so it is not skipped
    exact absurd (List.getElem?_eq_getElem hbody.2) (hnone _ hbody.1)

end Turns

/-- How a turn of a task may go: there was no action left, and the task is completed; or
its next action starts and the task is completed, or goes back to the front of the queue
for more. -/
inductive Entry.Turn (e : Entry) : (TaskQueue → TaskQueue) → List Progress → List BodyId → Prop where
  | empty (h : e.actionCount ≤ e.cursor) : e.Turn (·.finish e.id) [.completed e.id] [e.body]
  | last (h : e.cursor < e.actionCount) :
      e.Turn (·.finish e.id) [.acted e.body e.cursor, .completed e.id] [e.body]
  | more (complexity : Int32) (h : e.cursor + 1 < e.actionCount) :
      e.Turn (·.giveBack { e with cursor := e.cursor + 1, complexity }) [.acted e.body e.cursor] []

/-- The main thread gives a task its turn. -/
theorem staysFrom_turn {call : Runner} (hcall : call.Stays State.LeavesTasks False) {s : State}
    {e : Entry} (he : s.Readies e) :
    StaysFrom (fun s t => ∃ change new ended, e.Turn change new ended ∧ State.Does change new ended s t)
      False s (stepTask call .main e) := by
  refine .chain (P := State.LeavesTasks)
    (Q := fun s t => ∃ change new ended, e.Turn change new ended ∧ State.Does change new ended s t)
    (leavesTasks_record s (e := .stepped e.id true) rfl) (fun _ t ht => ?_) (fun r t hr ht => ?_)
    fun _ h => h.elim
  · obtain ⟨-, rfl⟩ := EStateM.Result.ok.inj ht
    split
    next hnone =>
      refine (stays_completing hcall e _).weaken fun t ht => ⟨_, _, _, .empty ?_, ht⟩
      exact List.getElem?_eq_none_iff.1 hnone
    next affinity hsome =>
      have hlt : e.cursor < e.actionCount := (List.getElem?_eq_some_iff.1 hsome).1
      rw [if_neg fun hoff => hoff.2 rfl]
      -- the main thread runs the action where it stands, wherever it belongs
      have hact := staysFrom_acting (s := s.record (.stepped e.id true)) hcall e.asset e.priority
        he.taken (he.actions ▸ hlt)
      -- whatever the action notes, taking it in does nothing to tasks
      refine .chain hact (Q := fun s t => ∃ change new ended,
        e.Turn change (.acted e.body e.cursor :: new) ended ∧ State.Does change new ended s t)
        (fun succeeded t _ => ?_)
        (fun _ _ hr ⟨change, new, ended, hturn, ht⟩ => ⟨change, _, ended, hturn, hr.trans ht⟩)
        fun _ h => h.elim
      refine .chain (stays_takingNoted e.body t) (Q := fun s t => ∃ change new ended,
        e.Turn change (.acted e.body e.cursor :: new) ended ∧ State.Does change new ended s t)
        (fun complexity t _ => ?_)
        (fun _ _ hr ⟨change, new, ended, hturn, ht⟩ => ⟨change, new, ended, hturn, .after hr ht⟩)
        fun _ h => h.elim
      unfold takeOutcome
      split
      · dsimp only
        split
        · exact (stays_completing hcall _ t).weaken fun t ht => ⟨_, _, _, .last hlt, ht⟩
        next hleft =>
          have hmore : e.cursor + 1 < e.actionCount := by
            have hincomplete := of_decide_eq_false (Bool.eq_false_iff.2 hleft)
            exact Nat.lt_of_not_le hincomplete
          exact ⟨_, _, _, .more (complexity.getD e.complexity) hmore, does_withQueue t _⟩
      · have hfail := Stays.thenDoes (stays_failing hcall (e.withComplexity complexity))
          fun _ => stays_completing hcall (e.withComplexity complexity).abort
        exact (hfail t).weaken fun t ht => ⟨_, _, _, .last hlt, ht⟩
  · obtain ⟨change, new, ended, hturn, ht⟩ := ht
    exact ⟨change, new, ended, hturn, .after hr ht⟩

/-! ### Updates -/

/-- The first waiting task is taken up, if it carries no job. -/
theorem acquire_of_job_eq_none {s : State} {e : Entry} {es : List Entry}
    (hpending : s.queue.pending = e :: es) (hjob : e.job = none) : s.queue.acquire s.runnable =
      some (e, { s.queue with pending := es, active := e.claim :: s.queue.active }) := by
  have hrunnable : s.runnable e = true := by
    unfold State.runnable Entry.isRunnable
    rw [hjob]
    split
    next h => cases h
    next => rfl
  unfold TaskQueue.acquire
  rw [hpending, List.find?_cons_of_pos hrunnable, List.eraseP_cons_of_pos hrunnable]
  rfl

theorem acquire_of_pending_eq_nil {s : State} (hpending : s.queue.pending = []) :
    s.queue.acquire s.runnable = none := by
  unfold TaskQueue.acquire
  rw [hpending]
  rfl

/-- The task is as ready after code that does nothing to it. -/
theorem State.Readies.of_effect {change : TaskQueue → TaskQueue} {new : List Progress}
    {ended : List BodyId} {s t : State} {e : Entry} (h : s.Readies e)
    (hst : State.Effect change new ended s t) (hended : e.body ∉ ended) : t.Readies e :=
  ⟨h.job, (hst.taken _ hended).trans h.taken, (congrArg List.length (hst.actions _)).trans h.actions⟩

section Updating

variable {fuel : Nat} {s t : State}

/-- An update on a scheduler without workers gives the first waiting task a turn, and
does nothing to tasks if none waits. -/
theorem effect_of_update (hsingle : s.settings.isSingleThreaded = true) (hforeign : s.jobs.IsForeign)
    (hready : ∀ e ∈ s.queue.pending, s.Readies e) (hrun : update (run fuel) .main s = .ok () t)
    (hquiet : s.Without Event.drives t) :
    (s.queue.pending = [] → State.Effect id [] [] s t) ∧
      ∀ e es, s.queue.pending = e :: es → ∃ change new ended, e.Turn change new ended ∧
        State.Effect (fun q => change { q with pending := es, active := e.claim :: q.active }) new ended
          s t := by
  obtain ⟨r, hbefore, hlasts, hfound⟩ := turn_of_update steers_leavesTasks hsingle hrun
  obtain ⟨hfirst, -⟩ := hquiet.split hbefore.lasts.history hlasts.history
  have hsr := hbefore.does hfirst hforeign
  refine ⟨fun hnone => ?_, fun e es hpending => ?_⟩
  · have hempty := acquire_of_pending_eq_nil ((congrArg TaskQueue.pending hsr.queue).trans hnone)
    -- nothing to take means no change; one task to take means its turn and nothing else
    rcases hfound with ⟨-, hafter⟩ | ⟨e, queue, v, hq, -, -⟩
    · exact (hbefore.after hafter).does hquiet hforeign
    · cases hempty.symm.trans hq
  · have he : r.Readies e :=
      (hready e (hpending ▸ List.mem_cons_self)).of_effect hsr List.not_mem_nil
    have hnext := acquire_of_job_eq_none ((congrArg TaskQueue.pending hsr.queue).trans hpending) he.job
    rcases hfound with ⟨hq, -⟩ | ⟨e', queue, v, hq, hstep, hafter⟩
    · cases hnext.symm.trans hq
    · cases hnext.symm.trans hq
      have hready : (r.withQueue
          { r.queue with pending := es, active := e.claim :: r.queue.active }).Readies e :=
        ⟨he.job, he.taken, he.actions⟩
      have hcall : (run fuel).Stays State.LeavesTasks False := run_stays steers_leavesTasks fuel
      obtain ⟨change, new, ended, hturn, hdoes⟩ := (staysFrom_turn hcall hready).returned hstep
      -- the effect of the turn, between what comes before it and after it in the update
      have hacquire := does_withQueue r fun q =>
        { q with pending := es, active := e.claim :: q.active }
      have hall := hbefore.after (hacquire.trans (hdoes.before hafter))
      exact ⟨change, new, ended, hturn, hall.does hquiet hforeign⟩

end Updating

/-! ### Sessions without help -/

/-- A later state, in which no job is an action of a task if none was before and nobody
has helped in between. -/
structure State.KeepsForeign (s t : State) : Prop where
  lasts : s.Lasts t
  foreign : s.Without Event.aids t → s.jobs.IsForeign → t.jobs.IsForeign

theorem State.KeepsForeign.of_jobs {s t : State} (hlasts : s.Lasts t)
    (hjobs : s.jobs.IsForeign → t.jobs.IsForeign) : s.KeepsForeign t :=
  ⟨hlasts, fun _ => hjobs⟩

theorem permitsQueue_keepsForeign : PermitsQueue State.KeepsForeign where
  refl s := .of_jobs (permitsTasks_lasts.refl s) id
  trans hrs hst := ⟨hrs.lasts.trans hst.lasts, fun hnone hforeign =>
    have hparts := hnone.split hrs.lasts.history hst.lasts.history
    hst.foreign hparts.2 (hrs.foreign hparts.1 hforeign)⟩
  note s e he := .of_jobs (permitsTasks_lasts.note s e he) id
  assets s v := .of_jobs (permitsTasks_lasts.assets s v) id
  registries s v := .of_jobs (permitsTasks_lasts.registries s v) id
  notices s v := .of_jobs (permitsTasks_lasts.notices s v) id
  files s v := .of_jobs (permitsTasks_lasts.files s v) id
  client s c hclaims hjobs := .of_jobs (permitsTasks_lasts.client s c hclaims hjobs) id
  data s b f hf := .of_jobs (permitsTasks_lasts.data s b f hf) id
  makeJob s w hw := .of_jobs (permitsTasks_lasts.makeJob s w hw) fun h => h.make hw
  labelJob s l j hj := .of_jobs (permitsTasks_lasts.labelJob s l j hj) id
  submitJob s j hj := .of_jobs (permitsTasks_lasts.submitJob s j hj) id
  drainJobs s := .of_jobs (permitsTasks_lasts.drainJobs s) id
  startJob s j := .of_jobs (permitsTasks_lasts.startJob s j) fun h => h.modify fun _ => rfl
  finishJob s j ok := .of_jobs (permitsTasks_lasts.finishJob s j ok) fun h => h.modify fun _ => rfl
  anything s e := .of_jobs (permitsTasks_lasts.anything s e) id
  body s b f := .of_jobs (permitsTasks_lasts.body s b f) id
  plan s body := .of_jobs (permitsTasks_lasts.plan s body) id
  queue s q := .of_jobs (permitsTasks_lasts.queue s q) id
  claims s c := .of_jobs (permitsTasks_lasts.claims s c) id
  close s := .of_jobs (permitsTasks_lasts.close s) id
  stop s := .of_jobs (permitsTasks_lasts.stop s) id

/-- Whoever advances a task off the main thread helps. -/
theorem stays_keepingForeign {early : Prop} {call : Runner} (hcall : call.Stays State.KeepsForeign early)
    (thread : Thread) (e : Entry) : Stays State.KeepsForeign early (stepTask call thread e) := by
  intro s
  by_cases hmain : thread = .main
  · exact hmain ▸ permitsQueue_keepsForeign.stays_stepMain hcall e s
  · have hlasts : call.Stays State.Lasts early := hcall.weaken fun _ _ h => h.lasts
    refine (permitsTasks_lasts.stays_stepped hlasts thread e s).weaken fun t ht =>
      ⟨(permitsTasks_lasts.anything s _).trans ht, fun hnone => ?_⟩
    exact absurd hnone (not_without_of_record (aids_stepped hmain e.id) ht.history)

theorem Session.isForeign_start (p : Session) : p.start.jobs.IsForeign := by
  unfold Session.start
  dsimp only
  split <;> exact fun _ => trivial

/-- Between calls, as long as nobody has helped, no job is an action of a task. -/
theorem Called.isForeign {s : State} (h : Called s) (hs : s.IsSolo) : s.jobs.IsForeign := by
  induction h with
  | start p => exact p.isForeign_start
  | @call s t fuel thread op outcome _ _ hrun _ ih =>
    have hstays : StaysFrom State.KeepsForeign True s (op.perform fuel { thread }) :=
      permitsQueue_keepsForeign.stays_performing stays_keepingForeign fuel { thread } op s
    have hkeeps : s.KeepsForeign t := hstays.performed hrun
    obtain ⟨hsolo, hnone⟩ := hs.without hkeeps.lasts.history
    exact hkeeps.foreign hnone (ih hsolo)

end AssetLoading
