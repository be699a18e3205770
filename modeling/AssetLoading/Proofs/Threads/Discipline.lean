import AssetLoading.Proofs.Run.Growth

/-! # What code for the GPU thread relies on

  Whether a task may act on the thread that advances it is decided by the entry
  in the queue, while the action that runs is looked up in the body; and a job runs
  its work wherever it is started. So it takes an agreement between everything
  that is stored for later to keep code for the GPU thread there: queue entries
  and claims know where the actions of their bodies run, jobs run actions for the
  GPU thread only, and no stored script starts a job where it stands.

  The last point is about what clients can ask for. Running a job and draining
  the jobs are steps of the scheduler, which takes them on the GPU thread; clients
  have the other operations.
-/

namespace AssetLoading

/-! ### Client code -/

/-- The scripts of a planned task. -/
def TaskPlan.scripts (plan : TaskPlan Script) : List Script :=
  plan.actions.map Action.code ++ (plan.onFailure.toList ++ plan.onFree.toList)

/-- The scripts of a task body. -/
def TaskBody.scripts (body : TaskBody) : List Script :=
  body.actions.map Action.code ++ (body.onFailure.toList ++ body.onFree.toList)

/-- The scripts in an operation. -/
def Op.scripts : Op → List Script
  | .setOnDestroy _ _ code | .withNewRegistry code | .gpuCall code _ | .onLoad _ _ code
  | .makeJob _ code _ => [code]
  | .enqueue plan | .describeTask plan => plan.scripts
  | _ => []

/-- The operations that run jobs where they stand. -/
def Op.runsJobs : Op → Bool
  | .runJob _ | .drainJobs => true
  | _ => false

/-- An operation that clients have: neither it nor any operation in it runs jobs
where it stands. -/
inductive Op.Public : Op → Prop where
  | intro (op : Op) (hop : op.runsJobs = false)
    (hcode : ∀ code ∈ op.scripts, ∀ step ∈ code, Op.Public step.op) : Op.Public op

/-- A script of operations that clients have. -/
def Script.Public (code : Script) : Prop :=
  ∀ step ∈ code, step.op.Public

theorem Op.Public.runsJobs_eq {op : Op} (h : op.Public) : op.runsJobs = false := by
  cases h with
  | intro op hop => exact hop

theorem Op.Public.code {op : Op} (h : op.Public) {code : Script} (hcode : code ∈ op.scripts) :
    Script.Public code := by
  cases h with
  | intro op hop hall => exact hall code hcode

theorem Script.public_nil : Script.Public [] :=
  fun _ hstep => nomatch hstep

/-- Client code that consists of operations that clients have. -/
def Callback.Public : Callback → Prop
  | .script _ code => Script.Public code
  | .destructor _ _ contents => Script.Public contents.onDestroy

/-! ### What is stored -/

/-- Where an action of a task is to run. -/
def State.affinity? (s : State) (b : BodyId) (i : Nat) : Option Affinity :=
  (s.body b).outline.affinities[i]?

/-- A task knows where the actions of its body are to run. -/
structure State.Knows (s : State) (t : Task) : Prop where
  made : t.body < s.bodies.size
  affinities : t.affinities = (s.body t.body).outline.affinities

/-- An action may run on the GPU thread, or off it: if it is for that thread only
there, and if it is for workers only there, unless some task was advanced on the
GPU thread. -/
structure State.MayRun (s : State) (b : BodyId) (i : Nat) (onGpu : Bool) : Prop where
  made : b < s.bodies.size
  exists_affinity : ∃ a, s.affinity? b i = some a
  gpu : s.affinity? b i = some .gpu → onGpu = true
  worker : s.affinity? b i = some .worker → onGpu = true → ∃ id, .stepped id true ∈ s.history

/-- Work for a job: an action for the GPU thread, or code that consists of
operations that clients have. -/
def Work.Suits (s : State) : Work → Prop
  | .action b i _ _ => b < s.bodies.size ∧ s.affinity? b i = some .gpu
  | .call _ code _ | .custom _ code _ => Script.Public code

/-- What one state stores, and what happened until then, agrees with what another one
knows of tasks. -/
structure State.Agrees (s t : State) : Prop where
  bodies : ∀ b, ∀ code ∈ (t.body b).scripts, Script.Public code
  contents : ∀ h c, (t.asset h).contents = some c → Script.Public c.onDestroy
  subscriptions : ∀ p ∈ t.notices.subscriptions, ∀ sub ∈ p.2, Script.Public sub.code
  jobs : ∀ j, (t.jobs.job j).work.Suits s
  pending : ∀ e ∈ t.queue.pending, s.Knows e.toTask
  claims : ∀ p ∈ t.client.claims, s.Knows p.2.toTask
  acted : ∀ b name i onGpu data, .acted b name i onGpu data ∈ t.history → s.MayRun b i onGpu
  called : ∀ onGpu, .gpuCalled onGpu ∈ t.history → onGpu = true

/-- What is stored agrees, and code ran where it had to so far. -/
def State.Disciplined (s : State) : Prop :=
  s.Agrees s

section Growing

variable {s t : State} {b : BodyId} {i : Nat}

theorem State.Extends.affinity?_eq (h : s.Extends t) (hb : b < s.bodies.size) :
    t.affinity? b i = s.affinity? b i := by
  unfold State.affinity?
  rw [(h.body b hb).2.outline]

theorem State.Knows.extends {task : Task} (h : s.Knows task) (hst : s.Extends t) :
    t.Knows task where
  made := (hst.body _ h.made).1
  affinities := by
    rw [(hst.body _ h.made).2.outline]
    exact h.affinities

/-- The cost estimate of a task does not matter for where its actions run. -/
theorem State.Knows.withComplexity {e : Entry} (h : s.Knows e.toTask) (complexity : Option Int32) :
    s.Knows (e.withComplexity complexity).toTask :=
  ⟨h.made, h.affinities⟩

theorem State.MayRun.extends {onGpu : Bool} (h : s.MayRun b i onGpu) (hst : s.Extends t) :
    t.MayRun b i onGpu where
  made := (hst.body b h.made).1
  exists_affinity := by
    rw [hst.affinity?_eq h.made]
    exact h.exists_affinity
  gpu := by
    rw [hst.affinity?_eq h.made]
    exact h.gpu
  worker := by
    rw [hst.affinity?_eq h.made]
    intro haffinity honGpu
    obtain ⟨id, hid⟩ := h.worker haffinity honGpu
    exact ⟨id, hst.mem hid⟩

theorem Work.Suits.extends {w : Work} (h : w.Suits s) (hst : s.Extends t) : w.Suits t := by
  cases w with
  | action b i =>
    refine ⟨(hst.body b h.1).1, ?_⟩
    rw [hst.affinity?_eq h.1]
    exact h.2
  | call => exact h
  | custom => exact h

/-- What agrees with a state agrees with every later one. -/
theorem State.Agrees.extends {r : State} (h : s.Agrees r) (hst : s.Extends t) : t.Agrees r where
  bodies := h.bodies
  contents := h.contents
  subscriptions := h.subscriptions
  jobs j := (h.jobs j).extends hst
  pending e he := (h.pending e he).extends hst
  claims p hp := (h.claims p hp).extends hst
  acted b name i onGpu data hacted := (h.acted b name i onGpu data hacted).extends hst
  called := h.called

/-- An action for the GPU thread may run there. -/
theorem State.MayRun.of_gpu (hb : b < s.bodies.size) (h : s.affinity? b i = some .gpu) :
    s.MayRun b i true where
  made := hb
  exists_affinity := ⟨_, h⟩
  gpu _ := rfl
  worker hworker := by
    rw [h] at hworker
    cases hworker

end Growing

/-! ### Changes that store nothing new -/

/-- Events that tell of no code for a task or for the GPU thread that starts. -/
def Event.IsQuiet : Event → Prop
  | .acted .. | .gpuCalled .. => False
  | _ => True

/-- Contents with a script that was there, or with none. -/
def Asset.ScriptFrom (a b : Asset) : Prop :=
  ∀ c, b.contents = some c → c.onDestroy = [] ∨ ∃ d, a.contents = some d ∧ d.onDestroy = c.onDestroy

theorem Asset.ScriptFrom.of_eq {a b : Asset} (h : b.contents = a.contents) : a.ScriptFrom b :=
  fun c hc => .inr ⟨c, h ▸ hc, rfl⟩

/-- From one state to another nothing is stored for later that was not stored, and
no code for a task or for the GPU thread starts. -/
structure State.Quiet (s t : State) : Prop where
  grows : s.Extends t
  jobs : t.jobs.jobs = s.jobs.jobs
  bodies : ∀ b, (t.body b).scripts ⊆ (s.body b).scripts
  contents : ∀ h, (s.asset h).ScriptFrom (t.asset h)
  subscriptions : ∀ p ∈ t.notices.subscriptions, ∀ sub ∈ p.2, ∃ q ∈ s.notices.subscriptions, sub ∈ q.2
  pending : t.queue.pending ⊆ s.queue.pending
  claims : t.client.claims ⊆ s.client.claims
  history : ∀ e ∈ t.history, e ∈ s.history ∨ e.IsQuiet

namespace State

section Storing

variable {s t : State}

/-- What is stored still agrees if nothing new is stored. -/
theorem Disciplined.quiet (h : s.Disciplined) (hst : s.Quiet t) : t.Disciplined := by
  refine Agrees.extends (s := s) ?_ hst.grows
  constructor
  · exact fun b code hcode => h.bodies b code (hst.bodies b hcode)
  · intro k c hc
    rcases hst.contents k c hc with hnone | ⟨d, hd, hsame⟩
    · rw [hnone]
      exact Script.public_nil
    · rw [← hsame]
      exact h.contents k d hd
  · intro p hp sub hsub
    obtain ⟨q, hq, hmem⟩ := hst.subscriptions p hp sub hsub
    exact h.subscriptions q hq sub hmem
  · intro j
    rw [JobQueue.job_congr hst.jobs]
    exact h.jobs j
  · exact fun e he => h.pending e (hst.pending he)
  · exact fun p hp => h.claims p (hst.claims hp)
  · intro b name i onGpu data hacted
    rcases hst.history _ hacted with hold | hquiet
    · exact h.acted b name i onGpu data hold
    · exact hquiet.elim
  · intro onGpu hcalled
    rcases hst.history _ hcalled with hold | hquiet
    · exact h.called onGpu hold
    · exact hquiet.elim

/-- What is stored still agrees when an event is recorded. -/
theorem Disciplined.record (h : s.Disciplined) {e : Event} (hext : s.Extends (s.record e))
    (hacted : ∀ b name i onGpu data, e = .acted b name i onGpu data → s.MayRun b i onGpu)
    (hcalled : ∀ onGpu, e = .gpuCalled onGpu → onGpu = true) : (s.record e).Disciplined := by
  refine Agrees.extends (s := s) { h with acted := ?_, called := ?_ } hext
  · intro b name i onGpu data hmem
    rcases List.mem_cons.1 hmem with heq | hold
    · exact hacted b name i onGpu data heq.symm
    · exact h.acted b name i onGpu data hold
  · intro onGpu hmem
    rcases List.mem_cons.1 hmem with heq | hold
    · exact hcalled onGpu heq.symm
    · exact h.called onGpu hold

/-- What is stored still agrees when the contents of an asset change. -/
theorem Disciplined.modifyAsset (h : s.Disciplined) {k : Handle} {f : Asset → Asset}
    (hf : ∀ c, (f (s.asset k)).contents = some c → Script.Public c.onDestroy) :
    (s.modifyAsset k f).Disciplined := by
  refine Agrees.extends (s := s) { h with contents := ?_ } (.of_same List.suffix_rfl rfl rfl)
  intro l c hc
  rw [State.asset_modifyAsset] at hc
  split at hc
  next heq => exact hf c (heq.1 ▸ hc)
  next => exact h.contents l c hc

/-- What is stored still agrees when the task queue changes. -/
theorem Disciplined.withQueue (h : s.Disciplined) {queue : TaskQueue}
    (hqueue : ∀ e ∈ queue.pending, s.Knows e.toTask) : (s.withQueue queue).Disciplined :=
  Agrees.extends (s := s) { h with pending := hqueue } (.of_same List.suffix_rfl rfl rfl)

/-- What is stored still agrees when the client's tables change. -/
theorem Disciplined.withClient (h : s.Disciplined) {client : Client}
    (hclaims : ∀ p ∈ client.claims, s.Knows p.2.toTask) : (s.withClient client).Disciplined :=
  Agrees.extends (s := s) { h with claims := hclaims } (.of_same List.suffix_rfl rfl rfl)

/-- What is stored still agrees when the subscriptions change. -/
theorem Disciplined.withNotices (h : s.Disciplined) {notices : Notices}
    (hnotices : ∀ p ∈ notices.subscriptions, ∀ sub ∈ p.2, Script.Public sub.code) :
    (s.withNotices notices).Disciplined :=
  Agrees.extends (s := s) { h with subscriptions := hnotices } (.of_same List.suffix_rfl rfl rfl)

/-- What is stored still agrees when the jobs change and none is lost. -/
theorem Disciplined.withJobs (h : s.Disciplined) {jobs : JobQueue}
    (hext : s.Extends (s.withJobs jobs)) (hjobs : ∀ j, (jobs.job j).work.Suits s) :
    (s.withJobs jobs).Disciplined :=
  Agrees.extends (s := s) { h with jobs := hjobs } hext

/-- What is stored still agrees when a task is made. -/
theorem Disciplined.pushBody (h : s.Disciplined) {body : TaskBody}
    (hext : s.Extends { s with bodies := s.bodies.push body })
    (hbody : ∀ code ∈ body.scripts, Script.Public code) :
    ({ s with bodies := s.bodies.push body } : State).Disciplined := by
  refine Agrees.extends (s := s) { h with bodies := ?_ } hext
  intro b code hcode
  rw [State.body_push] at hcode
  split at hcode
  · exact hbody code hcode
  · exact h.bodies b code hcode

end Storing

namespace Quiet

variable {s t : State}

/-- Nothing changes but what no code is stored in. -/
theorem of_eq (hhistory : t.history = s.history) (hbodies : t.bodies = s.bodies)
    (hjobs : t.jobs.jobs = s.jobs.jobs) (hassets : t.assets = s.assets)
    (hsubscriptions : ∀ p ∈ t.notices.subscriptions, ∀ sub ∈ p.2,
      ∃ q ∈ s.notices.subscriptions, sub ∈ q.2)
    (hpending : t.queue.pending ⊆ s.queue.pending) (hclaims : t.client.claims ⊆ s.client.claims) :
    s.Quiet t where
  grows := .of_same (hhistory ▸ List.suffix_rfl) hbodies hjobs
  jobs := hjobs
  bodies b := by
    rw [State.body_congr hbodies]
    exact List.Subset.refl _
  contents h := by
    have hasset : t.asset h = s.asset h := by
      unfold State.asset
      rw [hassets]
    exact .of_eq (congrArg Asset.contents hasset)
  subscriptions := hsubscriptions
  pending := hpending
  claims := hclaims
  history e he := .inl (hhistory ▸ he)

theorem record {e : Event} (he : e.IsQuiet) : s.Quiet (s.record e) where
  grows := .of_same (List.suffix_cons e s.history) rfl rfl
  jobs := rfl
  bodies _ := List.Subset.refl _
  contents _ := .of_eq rfl
  subscriptions p hp _ hsub := ⟨p, hp, hsub⟩
  pending := List.Subset.refl _
  claims := List.Subset.refl _
  history d hd := by
    rcases List.mem_cons.1 hd with rfl | hold
    · exact .inr he
    · exact .inl hold

theorem modifyAsset {h : Handle} {f : Asset → Asset} (hf : (s.asset h).ScriptFrom (f (s.asset h))) :
    s.Quiet (s.modifyAsset h f) where
  grows := .of_same List.suffix_rfl rfl rfl
  jobs := rfl
  bodies _ := List.Subset.refl _
  contents k := by
    rw [State.asset_modifyAsset]
    split
    next heq => exact heq.1 ▸ hf
    next => exact .of_eq rfl
  subscriptions p hp _ hsub := ⟨p, hp, hsub⟩
  pending := List.Subset.refl _
  claims := List.Subset.refl _
  history _ he := .inl he

theorem modifyBody {b : BodyId} {f : TaskBody → TaskBody}
    (hf : ∀ body : TaskBody, body.GrowsTo (f body) ∧ (f body).scripts ⊆ body.scripts) :
    s.Quiet (s.modifyBody b f) where
  grows := by
    refine .of_bodies List.suffix_rfl rfl fun c hc => ⟨?_, s.growsTo_modifyBody (fun body => (hf body).1) c⟩
    exact Nat.lt_of_lt_of_eq hc Array.size_modify.symm
  jobs := rfl
  bodies c := by
    rw [State.body_modifyBody]
    split
    next => exact (hf _).2
    next => exact List.Subset.refl _
  contents _ := .of_eq rfl
  subscriptions p hp _ hsub := ⟨p, hp, hsub⟩
  pending := List.Subset.refl _
  claims := List.Subset.refl _
  history _ he := .inl he

/-- A new asset has no script. -/
theorem pushAsset {a : Asset} (ha : ∀ c, a.contents = some c → c.onDestroy = []) :
    s.Quiet { s with assets := s.assets.push a } where
  grows := .of_same List.suffix_rfl rfl rfl
  jobs := rfl
  bodies _ := List.Subset.refl _
  contents k := by
    have hasset : ({ s with assets := s.assets.push a } : State).asset k =
        if k = s.assets.size then a else s.asset k := by
      show ((s.assets.push a)[k]?).getD .absent = _
      rw [Array.getElem?_push]
      split <;> rfl
    rw [hasset]
    split
    next => exact fun c hc => .inl (ha c hc)
    next => exact .of_eq rfl
  subscriptions p hp _ hsub := ⟨p, hp, hsub⟩
  pending := List.Subset.refl _
  claims := List.Subset.refl _
  history _ he := .inl he

end Quiet

end State

end AssetLoading
