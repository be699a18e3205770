import AssetLoading.Proofs.Alone.Shows
import AssetLoading.Proofs.Queue.Operations

/-! # Actions and outcomes

  What a task does when it goes on, on whatever thread: an action moves its point as
  the course says, and the outcome leads to the next action or to the end. Both ways of
  running a task are put together from this.
-/

namespace AssetLoading

namespace Solo

/-- The code of a task, and of those who wait for its asset, does what its reading says,
and leaves the reference to the asset that the task or the load event holds. The
destructor does what the reading says, too, if the load event holds the last one. -/
structure Explained (t : Solo) (call : Runner) : Prop where
  actions : ∀ a ∈ t.plan.actions,
    t.meaning.Explains call t.handle (some t.body) (some t.plan.priority) a.code
  onFailure : ∀ code ∈ t.plan.onFailure, t.meaning.Explains call t.handle (some t.body) none code
  onFree : ∀ code ∈ t.plan.onFree, t.meaning.Explains call t.handle (some t.body) none code
  calls : ∀ sub ∈ t.calls, t.meaning.Explains call t.handle none none sub.code
  held : ∀ p, t.Passes p → p.asset.IsHeld
  destructor : ∀ n p, t.after n = .done p → p.asset.state.isLoaded = true →
    (t.calls.foldl t.notified p).asset.refs = 1 →
    ∀ c ∈ (t.calls.foldl t.notified p).asset.contents, t.meaning.Buries call t.handle c

theorem Explained.held_acted {t : Solo} {call : Runner} {k : Nat} {a : Action Script}
    (he : t.Explained call) (hk : t.after k = .ready k) (ha : t.plan.actions[k]? = some a) :
    (t.course (k + 1)).asset.IsHeld := by
  rw [course_succ ha]
  exact he.held _ (.acted hk ha)

/-! ### Where the task is -/

variable (t : Solo)

/-- The task in the queue, with the next action and the job that runs it. -/
def entry (k : Nat) (job : Option JobId) : Entry where
  asset := t.handle
  body := t.body
  affinities := t.plan.actions.map Action.affinity
  priority := t.plan.priority
  complexity := (t.course k).complexity
  id := t.id
  cursor := k
  job := job

/-- The task itself, however far it has come. -/
structure IsEntry (e : Entry) : Prop where
  asset : e.asset = t.handle
  body : e.body = t.body
  id : e.id = t.id

/-- The queue while the task waits. -/
def waiting (e : Entry) : TaskQueue :=
  { t.queue with pending := [e], active := [] }

/-- The queue while the task is claimed. -/
def claimed : TaskQueue :=
  { t.queue with pending := [], active := [⟨t.id, t.plan.priority, t.handle⟩] }

/-- The queue once the task is completed. -/
def finished : TaskQueue :=
  { t.queue with pending := [], active := [], completed := t.queue.completed + 1 }

/-- The task waits for its next action, or it was completed and its asset staged. -/
def Rests (g : Settings) (jobs : JobQueue) : Standing → State → Prop
  | .ready k, s =>
    t.Shows g (t.course k) ⟨t.waiting (t.entry k none), jobs, []⟩ s ∧
      t.Carries (t.course k).data none none s
  | .done p, s =>
    t.Shows g p ⟨t.finished, jobs, if p.asset.state.isLoaded then [t.handle] else []⟩ s

variable {t} {g : Settings} {p : Point} {d : Duty} {s u : State} {call : Runner} {data : List Int}
  {noted reported : Option Int32} {jobs : JobQueue}

theorem isEntry_entry (t : Solo) (k : Nat) (job : Option JobId) : t.IsEntry (t.entry k job) :=
  ⟨rfl, rfl, rfl⟩

theorem currentAffinity_entry (t : Solo) (k : Nat) (job : Option JobId) :
    (t.entry k job).currentAffinity = (t.plan.actions[k]?).map Action.affinity :=
  List.getElem?_map

theorem giveBack_claimed (t : Solo) {e : Entry} (he : e.id = t.id) :
    t.claimed.giveBack e = t.waiting e := by
  simp [claimed, waiting, TaskQueue.giveBack, TaskQueue.without, he]

theorem finish_claimed (t : Solo) : t.claimed.finish t.id = t.finished := by
  simp [claimed, finished, TaskQueue.finish, TaskQueue.without]

/-! ### Code of the task -/

/-- A hook is told, runs, and is told to have ended. -/
theorem hook_returns (thread : Thread) {code : Script} {begun : LoadState → List Int → Event}
    (hbegun : ∀ state data, (begun state data).shared? = some (begun state data))
    (hcode : t.meaning.Explains call t.handle (some t.body) none code) (hs : t.Shows g p d s)
    (hp : p.asset.IsHeld) (hleft : (t.hooked p begun (some code)).asset.IsHeld)
    (hmade : t.body < s.bodies.size) (hdata : (s.body t.body).data = p.data) :
    Returns (do
      record (begun p.asset.state p.data)
      let _ ← call (.script { thread, asset := some t.handle, body := some t.body } code)
      record (.hookEnded t.body ((← get).body t.body).data)) s fun _ u =>
        t.Shows g (t.hooked p begun (some code)) d u ∧
          ∀ noted reported, t.Carries p.data noted reported s →
            ∃ noted, t.Carries (t.hooked p begun (some code)).data noted reported u := by
  have hs' := hs.record (hbegun p.asset.state p.data)
  -- the event before the hook tells of the state in which it begins
  obtain ⟨v, hrun, hv⟩ := hs'.runs hp hcode thread (fun c hc => Option.some.inj hc ▸ hmade)
    hdata.symm hleft
  refine .part rfl (.part hrun (.look (.of_eq rfl ⟨?_, ?_⟩)))
  · have hleft : (v.body t.body).data = (t.meaning.script code (some t.body) none p.asset p.data).data := by
      rw [hv.body _ rfl]
      rfl
    rw [hleft]
    exact (hs'.affected hv).record rfl
  · intro noted reported hc
    exact ⟨_, ((hc.record _).affected hv).record _⟩

/-- After the data was freed no more code of the task runs. -/
theorem ending_returns {staged : List Handle} (hs : t.Shows g p ⟨t.claimed, jobs, staged⟩ s)
    (hsome : 0 < p.asset.refs) (message : String) (fields : List (String × Field)) :
    Returns (do
      log .debug message fields
      modifyQueue (·.finish t.id)
      record (.completed t.id)
      releaseDeferred 0 .task t.handle) s fun _ u =>
        t.Shows g (t.dropped (p.tell (.completed t.id)) .task) ⟨t.finished, jobs, staged⟩ u := by
  have hended := ((hs.record_hidden (e := .logged .debug message fields) rfl).modifyQueue
    (·.finish t.id)).record (e := .completed t.id) rfl
  rw [← finish_claimed]
  exact .part rfl (.part rfl (.part rfl (hended.releaseDeferred hsome 0 .task)))

theorem takeNoted_returns (hs : t.Shows g p d s) (hc : t.Carries data noted reported s) :
    Returns (takeNoted t.body) s fun c u =>
      c = noted ∧ t.Shows g p d u ∧ t.Carries data none reported u := by
  refine .look (.part rfl (.pure ⟨?_, hs.modifyBody t.body _, hc.modifyBody rfl⟩))
  rw [hc.body]

theorem takeReported_returns (hs : t.Shows g p d s) (hc : t.Carries data noted reported s) :
    Returns (takeReported t.body) s fun c u =>
      c = reported ∧ t.Shows g p d u ∧ t.Carries data noted none u := by
  refine .look (.part rfl (.pure ⟨?_, hs.modifyBody t.body _, hc.modifyBody rfl⟩))
  rw [hc.body]

section Code

variable (he : t.Explained call) (thread : Thread)
include he

/-- An action runs, and its cost estimate is left in the body. -/
theorem runAction_returns (hs : t.Shows g p d s) (hp : p.asset.IsHeld)
    (hc : t.Carries p.data noted reported s) {k : Nat} {a : Action Script}
    (ha : t.plan.actions[k]? = some a) (hleft : (t.acted p k a).asset.IsHeld) :
    Returns (runAction call thread t.body k t.handle t.plan.priority) s fun ok u =>
      ok = t.succeeds p a ∧ t.Shows g (t.acted p k a) d u ∧
        t.Carries (t.deed p a).data (t.deed p a).noted reported u := by
  have hc' : t.Carries p.data none reported (s.modifyBody t.body fun b => { b with noted := none }) :=
    hc.modifyBody rfl
  have hs' := hs.modifyBody t.body fun b => { b with noted := none }
  unfold runAction
  refine .part rfl (.look ?_)
  dsimp only
  rw [hc'.body]
  have haction : t.plan.body.actions[k]? = some a := ha
  simp only [haction]
  -- the action is told, runs, and is told to have ended
  have hbegun := hs'.record (e := .acted t.body t.plan.name k (thread == .main) p.data) rfl
  have hcarried := hc'.record (.acted t.body t.plan.name k (thread == .main) p.data)
  refine .part rfl ?_
  obtain ⟨v, hrun, hv⟩ := hbegun.runs hp (he.actions a (List.mem_of_getElem? ha)) thread
    (fun c hc => Option.some.inj hc ▸ hcarried.made) (congrArg TaskBody.data hcarried.body).symm
    hleft
  have hafter := hcarried.affected hv
  rw [Option.or_none] at hafter
  refine .part hrun (.look (.part rfl (.pure ⟨rfl, ?_, hafter.record _⟩)))
  rw [hafter.body]
  have hended := (hbegun.affected hv).record
    (e := .actionEnded t.body k (t.succeeds p a) (t.deed p a).data) rfl
  exact { hended with }

theorem runFailureHook_returns (hs : t.Shows g p d s) (hp : p.asset.IsHeld)
    (hleft : (t.hooked p (.failed t.body t.plan.name) t.plan.onFailure).asset.IsHeld)
    (hc : t.Carries p.data noted reported s) :
    Returns (runFailureHook call thread t.body t.handle) s fun _ u =>
      t.Shows g (t.hooked p (.failed t.body t.plan.name) t.plan.onFailure) d u ∧
        ∃ noted, t.Carries (t.hooked p (.failed t.body t.plan.name) t.plan.onFailure).data noted
          reported u := by
  unfold runFailureHook
  refine .look ?_
  dsimp only
  rw [hc.body, hs.asset]
  cases hcode : t.plan.onFailure with
  | none =>
    have hnone : t.plan.body.onFailure = none := hcode
    simp only [hnone]
    exact .pure ⟨hs, _, hc⟩
  | some code =>
    have hsome : t.plan.body.onFailure = some code := hcode
    simp only [hsome]
    rw [hcode] at hleft
    exact (hook_returns thread (fun _ _ => rfl) (he.onFailure code hcode) hs hp hleft hc.made
      (congrArg TaskBody.data hc.body)).mono fun _ u hu => ⟨hu.1, hu.2 _ _ hc⟩

theorem freeBody_returns (hs : t.Shows g p d s) (hclosed : t.Closes p)
    (hc : t.Carries p.data noted reported s) :
    Returns (freeBody call thread t.body t.handle) s fun _ u => t.Shows g (t.freed p) d u := by
  unfold freeBody
  refine .look (.part rfl ?_)
  dsimp only
  rw [hc.body, hs.asset]
  have hp := he.held p (.closes hclosed)
  have hleft := he.held _ (.freed hclosed)
  unfold freed at hleft ⊢
  have hs' := hs.modifyBody t.body fun body => { body with taken := true }
  cases hcode : t.plan.onFree with
  | none =>
    have hnone : t.plan.body.onFree = none := hcode
    simp only [hnone]
    exact .pure hs'
  | some code =>
    have hsome : t.plan.body.onFree = some code := hcode
    simp only [hsome]
    have hbody := State.body_modifyBody s t.body t.body fun body => { body with taken := true }
    rw [if_pos ⟨rfl, hc.made⟩, hc.body] at hbody
    rw [hcode] at hleft
    refine (hook_returns thread (fun _ _ => rfl) (he.onFree code hcode) hs' hp hleft ?_ ?_).mono
      fun _ u hu => hu.1
    · -- the body is only marked
      show t.body < (s.bodies.modify _ _).size
      rw [Array.size_modify]
      exact hc.made
    · exact congrArg TaskBody.data hbody

theorem completeTask_returns (hs : t.Shows g p ⟨t.claimed, jobs, []⟩ s) (hclosed : t.Closes p)
    (hc : t.Carries p.data noted reported s) {e : Entry} (hentry : t.IsEntry e) :
    Returns (completeTask call thread e) s fun _ u =>
      t.Rests g jobs (.done (t.completed p)) u := by
  suffices hshows : Returns (completeTask call thread e) s fun _ u =>
      t.Shows g (t.completed p)
        ⟨t.finished, jobs, if (t.freed p).asset.state.isLoaded then [t.handle] else []⟩ u by
    rw [← state_completed] at hshows
    exact hshows
  unfold completeTask
  rw [hentry.asset, hentry.body, hentry.id]
  refine (freeBody_returns he thread hs hclosed hc).first fun _ u hu => ?_
  have hfreed : (t.freed p).asset.IsHeld := he.held _ (.freed hclosed)
  unfold completed Solo.staged
  refine .part rfl ?_
  rw [hu.asset]
  split
  next =>
    refine (hu.stage hfreed).first fun _ v hv => ending_returns hv ?_ _ _
    show 0 < (t.freed p).asset.refs + 1
    have := hfreed.refs
    omega
  next => exact ending_returns hu hfreed.refs _ _

/-- A failed action leaves an error state behind, and the failure hook runs. -/
theorem failTask_returns (hs : t.Shows g p d s) (hp : p.asset.IsHeld)
    (hleft : (t.failed p).asset.IsHeld) (hc : t.Carries p.data noted reported s) {e : Entry}
    (hentry : t.IsEntry e) :
    Returns (failTask call thread e) s fun _ u =>
      t.Shows g (t.failed p) d u ∧ ∃ noted, t.Carries (t.failed p).data noted reported u := by
  have hhook {q : Point} {u : State} (hq : t.Shows g q d u) (hheld : q.asset.IsHeld)
      (hcu : t.Carries p.data noted reported u)
      (heq : q = p.changed fun a => if a.state.isError then a else { a with state := .error }) :
      Returns (runFailureHook call thread t.body t.handle) u fun _ v =>
        t.Shows g (t.failed p) d v ∧ ∃ noted, t.Carries (t.failed p).data noted reported v := by
    subst heq
    exact runFailureHook_returns he thread hq hheld hleft hcu
  unfold failTask
  rw [hentry.asset, hentry.body]
  refine .part rfl ?_
  rw [hs.asset]
  -- an asset in an error state stays as it is, and that is the same point
  by_cases herror : p.asset.state.isError = true
  · rw [if_neg (by simp [herror])]
    refine .part rfl (.part rfl (hhook (hs.record_hidden rfl) hp (hc.record _) ?_))
    simp [Point.changed, herror]
  · rw [if_pos (by simp [herror])]
    have hchanged := hs.changed fun a => { a with state := .error }
    refine .part rfl (.part rfl (.part rfl (hhook (hchanged.record_hidden rfl)
      ⟨hp.refs, hp.whole⟩ ?_ ?_)))
    · have hsame : t.Carries p.data noted reported
          (s.modifyAsset t.handle fun a => { a with state := .error }) := hc.of_eq rfl rfl
      exact hsame.record _
    · simp [Point.changed, herror]

/-- The outcome of an action leads to the next action or to the end. -/
theorem takeOutcome_returns {k : Nat} {a : Action Script} (hk : t.after k = .ready k)
    (ha : t.plan.actions[k]? = some a) (hs : t.Shows g (t.course (k + 1)) ⟨t.claimed, jobs, []⟩ s)
    (hc : t.Carries (t.course (k + 1)).data none none s) {e : Entry} (hentry : t.IsEntry e)
    (hnext : { e with cursor := e.cursor + 1 } = t.entry (k + 1) none) :
    Returns (takeOutcome call thread e (t.succeeds (t.course k) a)) s fun _ u =>
      t.Rests g jobs (t.advance (.ready k)) u := by
  rw [advance_of_some ha]
  unfold takeOutcome onward
  cases hok : t.succeeds (t.course k) a with
  | true =>
    dsimp only
    rw [if_pos rfl, if_pos rfl, hnext]
    -- the cursor is past the last action exactly if the outcome was the last one
    have hcount : (t.entry (k + 1) none).actionCount = t.plan.actions.length := List.length_map _
    by_cases hlast : t.plan.actions.length ≤ k + 1
    · have hcomplete : (t.entry (k + 1) none).isComplete = true := by
        unfold Entry.isComplete
        rw [hcount]
        exact decide_eq_true hlast
      rw [if_pos hcomplete, if_pos hlast]
      exact completeTask_returns he thread hs (.succeeded hk ha hok hlast) hc (t.isEntry_entry _ _)
    · have hmore : ¬(t.entry (k + 1) none).isComplete = true := by
        unfold Entry.isComplete
        rw [hcount]
        exact fun hdone => hlast (of_decide_eq_true hdone)
      rw [if_neg hmore, if_neg hlast]
      refine .of_eq rfl ⟨?_, hc.of_eq rfl rfl⟩
      rw [← giveBack_claimed t rfl]
      exact hs.modifyQueue (·.giveBack (t.entry (k + 1) none))
  | false =>
    rw [if_neg Bool.false_ne_true, if_neg Bool.false_ne_true]
    have hclosed : t.Closes (t.failed (t.course (k + 1))) := .failed hk ha hok
    refine (failTask_returns he thread hs (he.held_acted hk ha) (he.held _ (.closes hclosed)) hc
      hentry).first fun _ u hu => ?_
    obtain ⟨hfailed, noted, hcarries⟩ := hu
    exact completeTask_returns he thread hfailed hclosed hcarries
      ⟨hentry.asset, hentry.body, hentry.id⟩

/-- A step that does not need another thread takes the task as far as its course goes
with one action. -/
theorem stepTask_returns {k : Nat} (hk : t.after k = .ready k)
    (hs : t.Shows g (t.course k) ⟨t.claimed, jobs, []⟩ s)
    (hc : t.Carries (t.course k).data none none s)
    (hhere : ∀ a, t.plan.actions[k]? = some a → a.affinity = .gpu → thread = .main) :
    Returns (stepTask call thread (t.entry k none)) s fun _ u =>
      t.Rests g jobs (t.advance (.ready k)) u := by
  have hs' := hs.record_hidden (e := .stepped t.id (thread == .main)) rfl
  have hc' := hc.record (.stepped t.id (thread == .main))
  unfold stepTask
  refine .part rfl ?_
  rw [currentAffinity_entry]
  cases ha : t.plan.actions[k]? with
  | none =>
    rw [advance_of_none ha]
    exact completeTask_returns he thread hs' (.bare hk ha) hc' (t.isEntry_entry k none)
  | some a =>
    -- on the main thread no action is handed over
    have hnot : ¬(a.affinity = .gpu ∧ thread ≠ .main) := fun hgpu => hgpu.2 (hhere a ha hgpu.1)
    simp only [Option.map_some]
    rw [if_neg hnot]
    refine (runAction_returns he thread hs' (he.held _ (.course hk)) hc' ha
      (he.held _ (.acted hk ha))).first fun ok u hu => ?_
    obtain ⟨rfl, hacted, hcarries⟩ := hu
    rw [← course_succ ha] at hacted
    refine (takeNoted_returns hacted hcarries).first fun c v hv => ?_
    obtain ⟨rfl, hv, hvc⟩ := hv
    have hentry : t.IsEntry ((t.entry k none).withComplexity (t.deed (t.course k) a).noted) :=
      ⟨rfl, rfl, rfl⟩
    refine takeOutcome_returns he thread hk ha hv ?_ hentry ?_
    · rw [course_succ ha]
      exact hvc
    · unfold entry Entry.withComplexity
      rw [course_succ ha]
      rfl

/-- An action runs as a job, and its cost estimate is left for whoever takes in the
outcome. -/
theorem runActionAsJob_returns (hs : t.Shows g p d s) (hp : p.asset.IsHeld)
    (hc : t.Carries p.data none none s) {k : Nat} {a : Action Script}
    (ha : t.plan.actions[k]? = some a) (hleft : (t.acted p k a).asset.IsHeld) :
    Returns (runActionAsJob call thread t.body k t.handle t.plan.priority) s fun ok u =>
      ok = t.succeeds p a ∧ t.Shows g (t.acted p k a) d u ∧
        t.Carries (t.deed p a).data none (t.deed p a).noted u := by
  unfold runActionAsJob
  refine (runAction_returns he thread hs hp hc ha hleft).first fun ok u hu => ?_
  obtain ⟨rfl, hacted, hcarries⟩ := hu
  refine (takeNoted_returns hacted hcarries).first fun c v hv => ?_
  obtain ⟨rfl, hv, hvc⟩ := hv
  cases hnoted : (t.deed p a).noted with
  | none => exact .pure ⟨rfl, hv, hvc⟩
  | some c => exact .part rfl (.pure ⟨rfl, hv.modifyBody t.body _, hvc.modifyBody rfl⟩)

end Code

theorem runnable_of_no_job (s : State) {e : Entry} (he : e.job = none) : s.runnable e = true := by
  unfold State.runnable Entry.isRunnable
  rw [he]
  cases e.currentAffinity with
  | none => rfl
  | some affinity => cases affinity <;> rfl

theorem runnable_of_finished {s : State} {e : Entry} {j : JobId} (he : e.job = some j)
    (hdone : (s.jobs.job j).finished = true) : s.runnable e = true := by
  unfold State.runnable Entry.isRunnable
  rw [he]
  split
  next heq =>
    cases heq
    exact hdone
  next => rfl

/-- A claim takes the task out of the queue if it can go on. -/
theorem acquireTask_returns {k : Nat} {job : Option JobId}
    (hs : t.Shows g p ⟨t.waiting (t.entry k job), jobs, []⟩ s)
    (hrunnable : s.runnable (t.entry k job) = true) :
    Returns acquireTask s fun taken u =>
      taken = some (t.entry k job) ∧ u = s.withQueue t.claimed := by
  have hacquire : s.queue.acquire s.runnable = some (t.entry k job, t.claimed) := by
    rw [hs.queue_eq]
    unfold TaskQueue.acquire waiting
    dsimp only
    rw [List.find?_cons_of_pos hrunnable, List.eraseP_cons_of_pos hrunnable]
    rfl
  unfold acquireTask
  refine .look ?_
  rw [hacquire]
  exact .part rfl (.pure ⟨rfl, rfl⟩)

end Solo

end AssetLoading
