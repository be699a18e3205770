import AssetLoading.Proofs.Queue.Operations
import AssetLoading.Proofs.Threads.Assets

/-! # Code on tasks keeps the discipline

  The parts of tasks, jobs, load events, and how tasks are queued, advanced and
  brought to their end. Here it is decided where code runs: an action for the GPU
  thread that is due elsewhere becomes a job, and jobs are run by that thread.
-/

namespace AssetLoading

variable {p : Prop} {call : Runner}

/-! ### The parts of a task -/

/-- A change of anything in a body but its code and whether it was taken away. -/
theorem keeps_modifyBody_data (b : BodyId) {f : TaskBody → TaskBody}
    (hf : ∀ body, ∃ data noted reported, f body = { body with data, noted, reported }) :
    Keeps p (modifyBody b f) := by
  refine keeps_modifyBody b fun body => ?_
  obtain ⟨data, noted, reported, hbody⟩ := hf body
  rw [hbody]
  exact ⟨⟨rfl, id⟩, List.Subset.refl _⟩

theorem keeps_takeNoted (b : BodyId) : Keeps p (takeNoted b) :=
  .look fun _ => .bind (keeps_modifyBody_data b fun body => ⟨body.data, none, body.reported, rfl⟩)
    fun _ => .pure _

theorem keeps_takeReported (b : BodyId) : Keeps p (takeReported b) :=
  .look fun _ => .bind (keeps_modifyBody_data b fun body => ⟨body.data, body.noted, none, rfl⟩)
    fun _ => .pure _

theorem TaskBody.code_mem_scripts {body : TaskBody} {i : Nat} {action : Action Script}
    (h : body.actions[i]? = some action) : action.code ∈ body.scripts :=
  List.mem_append_left _ (List.mem_map_of_mem (List.mem_of_getElem? h))

theorem TaskBody.onFailure_mem_scripts {body : TaskBody} {code : Script}
    (h : body.onFailure = some code) : code ∈ body.scripts :=
  List.mem_append_right _ (List.mem_append_left _ (Option.mem_toList.2 h))

theorem TaskBody.onFree_mem_scripts {body : TaskBody} {code : Script}
    (h : body.onFree = some code) : code ∈ body.scripts :=
  List.mem_append_right _ (List.mem_append_right _ (Option.mem_toList.2 h))

/-- An action runs where it may. -/
theorem guarded_runAction (hcall : call.IsGuarded p) {s : State} (hs : p → s.Disciplined)
    {thread : Thread} {b : BodyId} {i : Nat} (asset : Handle) (priority : Int32)
    (hmay : p → s.MayRun b i (thread == .main)) :
    Guarded p s (runAction call thread b i asset priority) fun _ _ => True := by
  refine (keeps_modifyBody_data b fun body => ⟨body.data, none, body.reported, rfl⟩).first hs
    fun _ t hst ht => ?_
  refine .look ?_
  dsimp only
  split
  next action _ haction =>
    have hcode (hp : p) := (ht hp).bodies b _ (TaskBody.code_mem_scripts haction)
    refine (guarded_record_acted ht fun hp => (hmay hp).extends hst.grows).bind fun _ r _ hr _ => ?_
    exact Keeps.guarded (.bind (hcall.keeps _ hcode) fun _ => .look fun _ =>
      .bind (keeps_record trivial) fun _ => .pure _) hr
  · exact .pure ht fun _ => trivial

theorem guarded_runActionAsJob (hcall : call.IsGuarded p) {s : State} (hs : p → s.Disciplined)
    {thread : Thread} {b : BodyId} {i : Nat} (asset : Handle) (priority : Int32)
    (hmay : p → s.MayRun b i (thread == .main)) :
    Guarded p s (runActionAsJob call thread b i asset priority) fun _ _ => True := by
  refine (guarded_runAction hcall hs asset priority hmay).bind fun ok t _ ht _ => ?_
  refine Keeps.guarded (.bind (keeps_takeNoted b) fun noted => ?_) ht
  split
  · exact .bind (keeps_modifyBody_data b fun body => ⟨body.data, body.noted, _, rfl⟩) fun _ => .pure _
  · exact .pure _

theorem keeps_runFailureHook (hcall : call.IsGuarded p) (thread : Thread) (b : BodyId)
    (asset : Handle) : Keeps p (runFailureHook call thread b asset) := by
  intro s hs
  refine .look ?_
  dsimp only
  split
  next code _ hhook =>
    have hcode (hp : p) := (hs hp).bodies b _ (TaskBody.onFailure_mem_scripts hhook)
    exact Keeps.guarded (.bind (keeps_record trivial) fun _ => .bind (hcall.keeps _ hcode) fun _ =>
      .look fun _ => keeps_record trivial) hs
  · exact .pure hs fun _ => trivial

theorem keeps_freeBody (hcall : call.IsGuarded p) (thread : Thread) (b : BodyId) (asset : Handle) :
    Keeps p (freeBody call thread b asset) := by
  have htake : Keeps p (modifyBody b fun body => { body with taken := true }) :=
    keeps_modifyBody b fun _ => ⟨⟨rfl, fun _ => rfl⟩, List.Subset.refl _⟩
  intro s hs
  refine .look (htake.first hs fun _ t _ ht => ?_)
  split
  next code _ hhook =>
    have hcode (hp : p) := (hs hp).bodies b _ (TaskBody.onFree_mem_scripts hhook)
    exact Keeps.guarded (.bind (keeps_record trivial) fun _ => .bind (hcall.keeps _ hcode) fun _ =>
      .look fun _ => keeps_record trivial) ht
  · exact .pure ht fun _ => trivial

/-! ### Jobs -/

section Jobs

variable {s t : State} {j : JobId} {f : Job → Job}

theorem State.Extends.of_make (s : State) (w : Work) : s.Extends (s.withJobs (s.jobs.make w).2) :=
  .of_push (w := w) List.suffix_rfl rfl rfl

theorem State.Extends.of_modifyJob (hf : ∀ job : Job, job.GrowsTo (f job)) :
    s.Extends (s.withJobs (s.jobs.modify j f)) := by
  refine .of_jobs List.suffix_rfl rfl fun k hk => ⟨?_, State.growsTo_modifyJob _ hf k⟩
  exact Nat.lt_of_lt_of_eq hk Array.size_modify.symm

/-- A job is marked; it keeps its work. -/
theorem State.Disciplined.modifyJob (h : s.Disciplined) (hf : ∀ job : Job, job.GrowsTo (f job)) :
    (s.withJobs (s.jobs.modify j f)).Disciplined := by
  refine h.withJobs (.of_modifyJob hf) fun k => ?_
  rw [(State.growsTo_modifyJob s.jobs hf k).work]
  exact h.jobs k

theorem guarded_makeJob (hs : p → s.Disciplined) {w : Work} (hw : p → w.Suits s) :
    Guarded p s (makeJob w) fun _ _ => True := by
  refine .of_ok (t := s.withJobs (s.jobs.make w).2) rfl (.of_jobs (.of_make s w) fun k hk => ?_)
    (fun hp => ?_) fun _ => trivial
  · change ((s.jobs.make w).2.job k).finished = true at hk
    show _ ∧ ((s.jobs.make w).2.job k).success = _
    rw [JobQueue.job_make] at hk ⊢
    split at hk
    next => cases hk
    next hne => rw [if_neg hne]; exact ⟨hk, rfl⟩
  · refine (hs hp).withJobs (.of_make s w) fun k => ?_
    rw [JobQueue.job_make]
    split
    · exact hw hp
    · exact (hs hp).jobs k

/-- No job finishes when one starts. -/
theorem State.before_jobStarted (s : State) (j : JobId) : s.Before (s.jobStarted j) := by
  let start : Job → Job := fun job => { job with started := true }
  have hext : s.Extends (s.withJobs (s.jobs.modify j start)) :=
    .of_modifyJob fun _ => ⟨rfl, fun _ => rfl, id⟩
  refine .trans (.of_jobs hext fun k hk => ?_) (State.before_record _ _)
  change ((s.jobs.modify j _).job k).finished = true at hk
  show _ ∧ ((s.jobs.modify j _).job k).success = _
  rw [JobQueue.job_modify] at hk ⊢
  split at hk
  next hjk => rw [if_pos hjk]; exact ⟨hk, rfl⟩
  next hjk => rw [if_neg hjk]; exact ⟨hk, rfl⟩

/-- A job that has done its work tells what that returned. -/
theorem State.before_jobEnded {fuel : Nat} {thread : Thread} {ok : Bool}
    (hnew : (s.jobs.job j).started = false) (hst : (s.jobStarted j).Before t)
    (hwork : doWork (run fuel) thread (s.jobs.job j).work (s.jobStarted j) = .ok ok t) :
    s.Before (t.jobEnded j ok) := by
  have hmarked := (s.before_jobStarted j).trans hst
  let finish : Job → Job := fun job => { job with success := ok, finished := true }
  have hmodified : t.Extends (t.withJobs (t.jobs.modify j finish)) :=
    .of_modifyJob fun _ => ⟨rfl, id, fun _ => rfl⟩
  have hext : t.Extends (t.jobEnded j ok) := hmodified.trans (State.before_record _ _).grows
  have hjob (k : JobId) : (t.jobEnded j ok).jobs.job k = if j = k ∧ k < t.jobs.jobs.size then
      { t.jobs.job k with success := ok, finished := true } else t.jobs.job k :=
    JobQueue.job_modify t.jobs j k _
  refine ⟨hmarked.grows.trans hext, fun k hk => ?_⟩
  -- the job that ends was worked off here; any other one ended before or meanwhile
  by_cases hjk : j = k ∧ k < t.jobs.jobs.size
  · obtain ⟨rfl, hmade⟩ := hjk
    have hsame : (t.jobs.job j).work = (s.jobs.job j).work :=
      (hmarked.grows.job j (State.lt_size_of_unstarted hnew)).2.work
    right
    unfold State.Worked
    rw [hjob, if_pos ⟨rfl, hmade⟩]
    refine ⟨fuel, thread, s.jobStarted j, t, _, s.history, ?_, rfl, List.suffix_rfl,
      List.suffix_cons _ _⟩
    show doWork (run fuel) thread (t.jobs.job j).work (s.jobStarted j) = .ok ok t
    rw [hsame]
    exact hwork
  · have hold := hmarked.finished k
    unfold State.Worked at hold ⊢
    rw [hjob, if_neg hjk] at hk ⊢
    rcases hold hk with hfinished | ⟨fuel, thread, begun, done, label, past, hworked, hbegun, hpast, hdone⟩
    · exact .inl hfinished
    · exact .inr ⟨fuel, thread, begun, done, label, past, hworked, hbegun, hpast,
        hdone.trans hext.history⟩

end Jobs

theorem keeps_submitJob (j : JobId) : Keeps p (submitJob j) :=
  keeps_modifyJobs fun _ => rfl

/-- The work of a job is done on the GPU thread. -/
theorem guarded_doWork (hcall : call.IsGuarded p) {s : State} (hs : p → s.Disciplined)
    {thread : Thread} (hthread : p → thread = .main) {w : Work} (hw : p → w.Suits s) :
    Guarded p s (doWork call thread w) fun _ _ => True := by
  cases w with
  | action b i asset priority =>
    refine guarded_runActionAsJob hcall hs asset priority fun hp => ?_
    rw [hthread hp]
    exact .of_gpu (hw hp).1 (hw hp).2
  | call asset code ok =>
    have hmain (hp : p) : (thread == .main) = true := by
      rw [hthread hp]
      rfl
    refine (guarded_record_called hs hmain).bind fun _ t _ ht _ => ?_
    exact Keeps.guarded (.bind (hcall.keeps _ hw) fun _ => .pure _) ht
  | custom label code ok => exact Keeps.guarded (.bind (hcall.keeps _ hw) fun _ => .pure _) hs

/-- A job is marked, does its work, and tells what that returned. -/
theorem keeps_runJob (hcall : call.IsGuarded p) {thread : Thread} (hthread : p → thread = .main)
    (j : JobId) : Keeps p (runJob call thread j) := by
  intro s hs
  refine .look ?_
  dsimp only
  split
  next hnew =>
    rw [Bool.not_eq_true'] at hnew
    have hstarted (hp : p) : (s.jobStarted j).Disciplined :=
      ((hs hp).modifyJob (j := j) (f := fun job => { job with started := true })
        fun _ => ⟨rfl, fun _ => rfl, id⟩).quiet (.record (e := .jobStarted j _) trivial)
    have hwork := guarded_doWork hcall hstarted hthread
      fun hp => ((hs hp).jobs j).extends (s.before_jobStarted j).grows
    obtain ⟨fuel, rfl⟩ := hcall.known
    refine .resume (s := s.jobStarted j) rfl (s.before_jobStarted j) hwork fun ok t hok hst ht => ?_
    refine ⟨(), t.jobEnded j ok, rfl, State.before_jobEnded hnew hst hok, fun hp => ?_⟩
    exact ((ht hp).modifyJob (j := j) (f := fun job => { job with success := ok, finished := true })
      fun _ => ⟨rfl, id, fun _ => rfl⟩).quiet (.record (e := .jobEnded j ok) trivial)
  · exact .pure hs fun _ => trivial

theorem keeps_runJobs (hcall : call.IsGuarded p) {thread : Thread} (hthread : p → thread = .main)
    (js : List JobId) : Keeps p (runJobs call thread js) := by
  induction js with
  | nil => exact .pure _
  | cons j js ih => exact .bind (keeps_runJob hcall hthread j) fun _ => ih

theorem keeps_drainJobs (hcall : call.IsGuarded p) {thread : Thread} (hthread : p → thread = .main) :
    Keeps p (drainJobs call thread) :=
  .look fun _ => .bind (keeps_modifyJobs fun _ => rfl) fun _ =>
    .bind (keeps_runJobs hcall hthread _) fun _ => .pure _

theorem guarded_callOnGpuThread (hcall : call.IsGuarded p) {s : State} (hs : p → s.Disciplined)
    (thread : Thread) {w : Work} (hw : p → w.Suits s) :
    Guarded p s (callOnGpuThread call thread w) fun _ _ => True := by
  have hdrain (j : JobId) : Keeps p (do
      let _ ← drainJobs call .main
      let job := (← get).jobs.job j
      if job.finished then pure job.success else throw .stuck) := by
    refine .bind (keeps_drainJobs hcall fun _ => rfl) fun _ => .look fun s => ?_
    exact .ite (.pure _) (.throw _)
  unfold callOnGpuThread
  split
  · exact guarded_doWork hcall hs (fun _ => rfl) hw
  · refine (guarded_makeJob hs hw).bind fun j t _ ht _ => ?_
    refine Keeps.guarded (.bind (keeps_submitJob j) fun _ => .look fun s => ?_) ht
    dsimp only
    split
    · exact .bind (keeps_log _ _ _) fun _ => hdrain j
    · exact hdrain j

/-! ### Load events -/

section Notices

variable {n : Notices} {h : Handle} {sub : Subscription}

theorem Notices.exists_of_mem_subscribers (hsub : sub ∈ n.subscribers h) :
    ∃ l ∈ n.subscriptions, sub ∈ l.2 := by
  unfold Notices.subscribers at hsub
  cases hlookup : n.subscriptions.lookup h with
  | none =>
    rw [hlookup] at hsub
    cases hsub
  | some list =>
    rw [hlookup] at hsub
    obtain ⟨front, back, hsplit, -⟩ := List.lookup_eq_some_iff.1 hlookup
    exact ⟨(h, list), hsplit ▸ List.mem_append_right front List.mem_cons_self, hsub⟩

theorem Notices.exists_of_mem_setSubscribers {list : List Subscription} {l : Handle × List Subscription}
    (hl : l ∈ (n.setSubscribers h list).subscriptions) (hsub : sub ∈ l.2) :
    sub ∈ list ∨ ∃ q ∈ n.subscriptions, sub ∈ q.2 := by
  have hkept (hmem : l ∈ n.subscriptions.remove h) : ∃ q ∈ n.subscriptions, sub ∈ q.2 :=
    ⟨l, (List.mem_filter.1 hmem).1, hsub⟩
  unfold Notices.setSubscribers at hl
  dsimp only at hl
  split at hl
  · exact .inr (hkept hl)
  · rcases List.mem_cons.1 hl with rfl | hmem
    · exact .inl hsub
    · exact .inr (hkept hmem)

end Notices

theorem keeps_modifyNotices {f : Notices → Notices}
    (hf : ∀ n : Notices, ∀ l ∈ (f n).subscriptions, ∀ sub ∈ l.2, ∃ q ∈ n.subscriptions, sub ∈ q.2) :
    Keeps p (modifyNotices f) :=
  .quiet fun _ => .of_eq rfl rfl rfl rfl (hf _) (List.Subset.refl _) (List.Subset.refl _)

theorem keeps_stage (h : Handle) : Keeps p (stage h) :=
  .bind ((Keeps.countingParts p).addref .notice nofun h) fun _ => keeps_modifyNotices fun _ l hl _ hsub => ⟨l, hl, hsub⟩

theorem keeps_notify (hcall : call.IsGuarded p) (thread : Thread) {sub : Subscription}
    (hsub : p → Script.Public sub.code) : Keeps p (notify call thread sub) :=
  .look fun _ => .bind (keeps_record trivial) fun _ => .bind (hcall.keeps _ hsub) fun _ => .pure _

theorem keeps_notifyAll (hcall : call.IsGuarded p) (thread : Thread) {subs : List Subscription}
    (hsubs : p → ∀ sub ∈ subs, Script.Public sub.code) : Keeps p (notifyAll call thread subs) := by
  induction subs with
  | nil => exact .pure _
  | cons sub subs ih =>
    exact .bind (keeps_notify hcall thread fun hp => hsubs hp sub List.mem_cons_self) fun _ =>
      ih fun hp d hd => hsubs hp d (List.mem_cons_of_mem sub hd)

theorem keeps_subscribe (hcall : call.IsGuarded p) (thread : Thread) (h : Handle) (label : String)
    {code : Script} (hcode : p → Script.Public code) :
    Keeps p (subscribe call thread h label code) := by
  intro s hs
  refine .look ?_
  have hstored (hp : p) : ∀ l ∈ (s.notices.subscribe h label code).2.subscriptions, ∀ sub ∈ l.2,
      Script.Public sub.code := by
    intro l hl sub hsub
    have hold (hmem : ∃ q ∈ s.notices.subscriptions, sub ∈ q.2) : Script.Public sub.code := by
      obtain ⟨q, hq, hsub⟩ := hmem
      exact (hs hp).subscriptions q hq sub hsub
    rcases Notices.exists_of_mem_setSubscribers hl hsub with hlist | hmem
    · rcases List.mem_append.1 hlist with hlist | hnew
      · exact hold (Notices.exists_of_mem_subscribers hlist)
      · rw [List.mem_singleton.1 hnew]
        exact hcode hp
    · exact hold hmem
  refine (guarded_modifyNotices hs hstored).bind fun _ t _ ht _ => ?_
  refine Keeps.guarded (.look fun r => ?_) ht
  dsimp only
  split
  · exact .bind (keeps_notify hcall thread hcode) fun _ => .pure _
  · exact .pure _

theorem keeps_unsubscribe (h : Handle) (id : Option Nat) : Keeps p (unsubscribe h id) := by
  intro s hs
  refine .look ?_
  have hstored (hp : p) : ∀ l ∈ (s.notices.unsubscribe h id).2.subscriptions, ∀ sub ∈ l.2,
      Script.Public sub.code := by
    intro l hl sub hsub
    have hmem : ∃ q ∈ s.notices.subscriptions, sub ∈ q.2 := by
      rcases Notices.exists_of_mem_setSubscribers hl hsub with hlist | hmem
      · cases id with
        | none => cases hlist
        | some id => exact Notices.exists_of_mem_subscribers (List.mem_filter.1 hlist).1
      · exact hmem
    obtain ⟨q, hq, hsub⟩ := hmem
    exact (hs hp).subscriptions q hq sub hsub
  exact (guarded_modifyNotices hs hstored).bind fun _ t _ ht _ => .pure ht fun _ => trivial

theorem keeps_deliver (hcall : call.IsGuarded p) (thread : Thread) :
    Keeps p (deliver call thread) := by
  intro s hs
  refine .look ?_
  dsimp only
  have hpruned (keep : Subscription → Bool) (hp : p) : ∀ l ∈ (s.notices.prune keep).subscriptions,
      ∀ sub ∈ l.2, Script.Public sub.code := by
    intro l hl sub hsub
    obtain ⟨q, hq, rfl⟩ := List.mem_map.1 (List.mem_filter.1 hl).1
    exact (hs hp).subscriptions q hq sub (List.mem_filter.1 hsub).1
  refine (guarded_modifyNotices hs (hpruned _)).bind fun _ t _ ht _ => ?_
  refine Keeps.guarded (.bind (keeps_notifyAll hcall thread fun hp sub hsub => ?_) fun _ =>
    .bind ((Keeps.registryParts hcall).releaseAll _ .notice nofun _) fun _ => .pure _) ht
  obtain ⟨h, -, hsub⟩ := List.mem_flatMap.1 hsub
  obtain ⟨l, hl, hsub⟩ := Notices.exists_of_mem_subscribers hsub
  exact hpruned _ hp l hl sub hsub

theorem keeps_clearNotices (hcall : call.IsGuarded p) (thread : Thread) :
    Keeps p (clearNotices call thread) :=
  .look fun _ => .bind (keeps_modifyNotices fun _ _ hl => nomatch hl) fun _ =>
    (Keeps.registryParts hcall).releaseAll _ .notice nofun _

/-! ### The life of a task -/

/-- A task that is claimed was waiting. -/
theorem guarded_acquireTask {s : State} (hs : p → s.Disciplined) :
    Guarded p s acquireTask fun claimed t => ∀ e, claimed = some e → t.Knows e.toTask := by
  refine .look ?_
  split
  · exact .pure hs fun _ _ he => nomatch he
  next e queue hq =>
    obtain ⟨front, back, hpending, -, -, rfl⟩ := TaskQueue.acquire_eq_some hq
    have hleft (hp : p) : ∀ d ∈ front ++ back, s.Knows d.toTask := by
      intro d hd
      refine (hs hp).pending d ?_
      rw [hpending]
      rcases List.mem_append.1 hd with hd | hd
      · exact List.mem_append_left _ hd
      · exact List.mem_append_right _ (List.mem_cons_of_mem e hd)
    refine (guarded_modifyQueue hs hleft).bind fun _ t hst ht _ => .pure ht fun hp => ?_
    rintro _ ⟨⟩
    refine ((hs hp).pending e ?_).extends hst.grows
    rw [hpending]
    exact List.mem_append_right front List.mem_cons_self

theorem guarded_acceptTask {s : State} (hs : p → s.Disciplined) {t : Task} (ht : p → s.Knows t) :
    Guarded p s (acceptTask t) fun _ _ => True := by
  refine ((Keeps.countingParts p).addref .task (fun _ => trivial) t.asset).first hs fun _ r hsr hr => .look ?_
  dsimp only
  refine (keeps_log _ _ _).first hr fun _ q hrq hq => ?_
  refine (guarded_modifyQueue hq fun hp e he => ?_).bind fun _ _ _ hv _ =>
    Keeps.guarded (keeps_record trivial) hv
  obtain ⟨front, back, hpending, -, hpush⟩ := r.queue.push_pending t
  rw [hpush, List.mem_append, List.mem_cons] at he
  have hold (hmem : e ∈ front ++ back) : q.Knows e.toTask :=
    ((hr hp).pending e (hpending ▸ hmem)).extends hrq.grows
  rcases he with hfront | rfl | hback
  · exact hold (List.mem_append_left _ hfront)
  · exact ((ht hp).extends hsr.grows).extends hrq.grows
  · exact hold (List.mem_append_right _ hback)

theorem keeps_completeTask (hcall : call.IsGuarded p) (thread : Thread) (e : Entry) :
    Keeps p (completeTask call thread e) := by
  have hend (a : Asset) : Keeps p (do
      log .debug "Asset task complete"
        [("asset", .text a.displayName), ("state", .text a.state.debug)]
      modifyQueue (·.finish e.id)
      record (.completed e.id)
      releaseDeferred 0 .task e.asset) :=
    .bind (keeps_log _ _ _) fun _ => .bind (keeps_modifyQueue fun _ => List.Subset.refl _) fun _ =>
      .bind (keeps_record trivial) fun _ => (Keeps.countingParts p).releaseDeferred 0 .task (fun _ => trivial) e.asset
  refine .bind (keeps_freeBody hcall thread e.body e.asset) fun _ => .bind (keeps_getAsset _) fun a => ?_
  dsimp only
  split
  · exact .bind (keeps_stage e.asset) fun _ => hend a
  · exact hend a

theorem keeps_discardTask (hcall : call.IsGuarded p) (thread : Thread) (e : Entry) :
    Keeps p (discardTask call thread e) :=
  .bind (keeps_freeBody hcall thread e.body e.asset) fun _ => .bind (keeps_record trivial) fun _ =>
    (Keeps.countingParts p).releaseDeferred 0 .task (fun _ => trivial) e.asset

theorem keeps_discardTasks (hcall : call.IsGuarded p) (thread : Thread) (es : List Entry) :
    Keeps p (discardTasks call thread es) := by
  induction es with
  | nil => exact .pure _
  | cons e es ih => exact .bind (keeps_discardTask hcall thread e) fun _ => ih

theorem keeps_failTask (hcall : call.IsGuarded p) (thread : Thread) (e : Entry) :
    Keeps p (failTask call thread e) := by
  have hend : Keeps p (do
      let a ← getAsset e.asset
      log .warn "Asset load action failed"
        [("asset", .text a.displayName), ("ty", .text a.category.name),
          ("action", .number e.cursor), ("state", .text a.state.debug)]
      runFailureHook call thread e.body e.asset) :=
    .bind (keeps_getAsset _) fun _ => .bind (keeps_log _ _ _) fun _ =>
      keeps_runFailureHook hcall thread e.body e.asset
  refine .bind (keeps_getAsset _) fun a => ?_
  dsimp only
  split
  · exact .bind (keeps_modifyAsset _ fun _ => .of_eq rfl) fun _ => hend
  · exact hend

/-- A task that is put back knows where its actions run. -/
theorem guarded_giveBack {s : State} (hs : p → s.Disciplined) {e : Entry}
    (he : p → s.Knows e.toTask) : Guarded p s (modifyQueue (·.giveBack e)) fun _ _ => True := by
  refine guarded_modifyQueue hs fun hp d hd => ?_
  rcases List.mem_cons.1 hd with rfl | hd
  · exact he hp
  · exact (hs hp).pending d hd

theorem guarded_takeOutcome (hcall : call.IsGuarded p) {s : State} (hs : p → s.Disciplined)
    (thread : Thread) {e : Entry} (he : p → s.Knows e.toTask) (succeeded : Bool) :
    Guarded p s (takeOutcome call thread e succeeded) fun _ _ => True := by
  unfold takeOutcome
  split
  · dsimp only
    split
    · exact (keeps_completeTask hcall thread _).guarded hs
    · exact guarded_giveBack hs he
  · exact Keeps.guarded (.bind (keeps_failTask hcall thread e) fun _ =>
      keeps_completeTask hcall thread _) hs

/-- An action runs in place where it may, and otherwise is handed over. -/
theorem guarded_stepTask (hcall : call.IsGuarded p) {s : State} (hs : p → s.Disciplined)
    (thread : Thread) {e : Entry} (he : p → s.Knows e.toTask) :
    Guarded p s (stepTask call thread e) fun _ _ => True := by
  have hrecord : Guarded p s (record (.stepped e.id (thread == .main))) fun _ t =>
      .stepped e.id (thread == .main) ∈ t.history :=
    .of_ok rfl (s.before_record _) (fun hp => (hs hp).quiet (.record trivial))
      fun _ => List.mem_cons_self
  refine hrecord.bind fun _ t hst ht hstepped => ?_
  have he (hp : p) := (he hp).extends hst.grows
  have haffinity (hp : p) : t.affinity? e.body e.cursor = e.currentAffinity := by
    unfold State.affinity? Entry.currentAffinity
    rw [(he hp).affinities]
  split
  · exact (keeps_completeTask hcall thread e).guarded ht
  next affinity hcurrent =>
    split
    next hgpu =>
      split
      next hjob =>
        -- handed over only off the main thread, so the job is made for the GPU thread
        have hsuits (hp : p) : (Work.action e.body e.cursor e.asset e.priority).Suits t := by
          refine ⟨(he hp).made, ?_⟩
          rw [haffinity hp, hcurrent, hgpu.1]
        refine (guarded_makeJob ht hsuits).bind fun j r htr hr _ => ?_
        refine (keeps_submitJob j).first hr fun _ q hrq hq => guarded_giveBack hq fun hp => ?_
        exact ((he hp).extends htr.grows).extends hrq.grows
      next j hjob =>
        refine .look ?_
        dsimp only
        split
        · exact (keeps_takeReported e.body).first ht fun _ r htr hr =>
            guarded_takeOutcome hcall hr thread
              (fun hp => State.Knows.withComplexity (e := { e with job := none })
                ((he hp).extends htr.grows) _) _
        · exact guarded_giveBack ht he
    next hgpu =>
      -- run in place: the GPU action is on the main thread, a worker action was stepped there
      have hmay (hp : p) : t.MayRun e.body e.cursor (thread == .main) := by
        refine ⟨(he hp).made, ⟨affinity, by rw [haffinity hp, hcurrent]⟩, ?_, ?_⟩
        · rw [haffinity hp, hcurrent]
          rintro ⟨⟩
          simpa using hgpu
        · rw [haffinity hp, hcurrent]
          rintro ⟨⟩ honGpu
          exact ⟨e.id, honGpu ▸ hstepped hp⟩
      refine (guarded_runAction hcall ht e.asset e.priority hmay).bind fun ok r htr hr _ => ?_
      refine (keeps_takeNoted e.body).first hr fun _ q hrq hq => ?_
      exact guarded_takeOutcome hcall hq thread
        (fun hp => (((he hp).extends htr.grows).extends hrq.grows).withComplexity _) ok

end AssetLoading
