import AssetLoading.Interpreter.Execution
import AssetLoading.Proofs.Notices.Calls
import Mathlib.Data.Nat.Find

/-! # The course of a task

  What becomes of a task that runs alone, told without threads, queues and jobs.
  Its code is taken for a function of what it may look at: its asset, the data of
  the task and the priority. So each action leads from one point of the task to the
  next, and the outcomes decide where the task ends.

  Both ways of running a task are compared with its course.
-/

namespace AssetLoading

/-! ### What is told of a run -/

/-- What an event tells that does not depend on the way in which a task is run: who ran
an action, how often the task was claimed and what became of jobs is left out, and so
are log lines. -/
def Event.shared? : Event → Option Event
  | .logged .. | .stepped .. | .jobStarted .. | .jobEnded .. => none
  | .acted b name index _ data => some (.acted b name index false data)
  | e => some e

/-- The calls of client code with their arguments, what the code did and was answered,
references, load events, and the tasks that were accepted and completed, the latest
first. -/
def State.account (s : State) : List Event :=
  s.history.filterMap Event.shared?

/-! ### What code does -/

/-- What client code does to its asset and to the task it belongs to. -/
structure Effect where
  /-- Whether the code ran to its end. -/
  ran : Bool
  /-- The load state it leaves. -/
  state : LoadState
  /-- The contents it leaves. -/
  contents : Option Contents
  /-- The number of references on its asset that it takes, less those that it drops. -/
  refs : Int
  /-- The data it leaves. -/
  data : List Int
  /-- The cost estimate it reported last, if any. -/
  noted : Option Int32
  /-- What is told of it, the latest first. -/
  told : List Event

/-- The asset after code ran for it. -/
def Asset.affected (a : Asset) (e : Effect) : Asset :=
  { a with state := e.state, contents := e.contents, refs := a.refs + e.refs }

/-- The body of a task after code ran that belongs to it. -/
def TaskBody.affected (body : TaskBody) (e : Effect) : TaskBody :=
  { body with data := e.data, noted := e.noted.or body.noted }

/-- The asset has references and is not destroyed. -/
structure Asset.IsHeld (a : Asset) : Prop where
  refs : 0 < a.refs
  whole : a.destroyed = false

/-- Whatever has to do with tasks, jobs and loads is as it was before, and nothing was
left to the main thread. -/
structure State.Spares (s : State) (h : Handle) (t : State) : Prop where
  assets : s.assets.size ≤ t.assets.size
  bodies : s.bodies.size ≤ t.bodies.size
  queue : t.queue = s.queue
  jobs : t.jobs = s.jobs
  notices : t.notices = s.notices
  settings : t.settings = s.settings
  doomed : (t.registry 0).doomed = (s.registry 0).doomed
  label : t.client.labelOf h = s.client.labelOf h

/-- Code ran that works for an asset, maybe in a task. -/
structure State.Affected (s : State) (h : Handle) (b : Option BodyId) (e : Effect) (t : State) :
    Prop extends s.Spares h t where
  asset : t.asset h = (s.asset h).affected e
  body : ∀ c ∈ b, t.body c = (s.body c).affected e
  account : t.account = e.told ++ s.account

/-- A reading of client code as functions of what it may look at. -/
structure Meaning where
  /-- What a script does, given the task it belongs to and the priority, if there are any,
  its asset and the data. -/
  script : Script → Option BodyId → Option Int32 → Asset → List Int → Effect
  /-- What is told of the destructor of some contents, the latest first. -/
  destructor : Contents → List Event

namespace Meaning

variable (m : Meaning) (call : Runner) (h : Handle)

/-- Code returns and does what a reading says, where that leaves a reference on its asset:
it depends on nothing but its asset, the data and the priority, on whatever thread and in
whatever state it runs. -/
def Explains (b : Option BodyId) (priority : Option Int32) (code : Script) : Prop :=
  ∀ (s : State) (thread : Thread) (data : List Int), h < s.assets.size → (s.asset h).IsHeld →
    (∀ c ∈ b, c < s.bodies.size) → data = (b.map fun c => (s.body c).data).getD [] →
    ((s.asset h).affected (m.script code b priority (s.asset h) data)).IsHeld →
    ∃ t, call (.script { thread, asset := some h, body := b, priority } code) s =
        .ok (m.script code b priority (s.asset h) data).ran t ∧
      s.Affected h b (m.script code b priority (s.asset h) data) t

/-- The destructor of some contents returns, and has nothing to do with tasks and loads. -/
def Buries (c : Contents) : Prop :=
  ∀ s : State, h < s.assets.size → (s.asset h).destroyed = true → (s.asset h).refs = 0 →
    ∃ ran t, call (.destructor { thread := .main } h c) s = .ok ran t ∧ s.Spares h t ∧
      t.asset h = s.asset h ∧ t.account = m.destructor c ++ s.account

end Meaning

/-! ### Points of a task -/

/-- How things stand for a task that runs alone. -/
structure Point where
  /-- Its asset. -/
  asset : Asset
  /-- Its data. -/
  data : List Int
  /-- Its cost estimate. -/
  complexity : Int32
  /-- What was told until then, the latest first. -/
  told : List Event

namespace Point

/-- One thing more is told. -/
def tell (p : Point) (e : Event) : Point :=
  { p with told := e :: p.told }

/-- The asset changes. -/
def changed (p : Point) (f : Asset → Asset) : Point :=
  { p with asset := f p.asset }

/-- Code ran. -/
def affected (p : Point) (e : Effect) : Point where
  asset := p.asset.affected e
  data := e.data
  complexity := p.complexity
  told := e.told ++ p.told

end Point

/-- A task that runs alone, and those who wait for its asset. -/
structure Solo where
  /-- What its code does. -/
  meaning : Meaning
  /-- The plan it was made from. -/
  plan : TaskPlan Script
  /-- The asset it loads. -/
  handle : Handle
  /-- Its body. -/
  body : BodyId
  /-- Its number. -/
  id : Nat
  /-- The subscriptions to loads of its asset. -/
  calls : List Subscription
  /-- The client's label of its asset. -/
  label : Option String
  /-- The queue without it, which has accepted it. -/
  queue : TaskQueue
  /-- How things stand once it is accepted. -/
  start : Point

namespace Solo

variable (t : Solo)

/-- What an action does. -/
def deed (p : Point) (a : Action Script) : Effect :=
  t.meaning.script a.code (some t.body) (some t.plan.priority) p.asset p.data

/-- Whether an action succeeds. -/
def succeeds (p : Point) (a : Action Script) : Bool :=
  (t.deed p a).ran && a.succeeds

/-- An action ran; what it reported last is the cost estimate from now on. -/
def acted (p : Point) (index : Nat) (a : Action Script) : Point :=
  { ((p.tell (.acted t.body t.plan.name index false p.data)).affected (t.deed p a)).tell
      (.actionEnded t.body index (t.succeeds p a) (t.deed p a).data) with
    complexity := (t.deed p a).noted.getD p.complexity }

/-- A hook ran, if there is one. -/
def hooked (p : Point) (begun : LoadState → List Int → Event) : Option Script → Point
  | none => p
  | some code =>
    let e := t.meaning.script code (some t.body) none p.asset p.data
    ((p.tell (begun p.asset.state p.data)).affected e).tell (.hookEnded t.body e.data)

/-- An action failed: the asset is left in an error state, and the failure hook ran. -/
def failed (p : Point) : Point :=
  t.hooked (p.changed fun a => if a.state.isError then a else { a with state := .error })
    (.failed t.body t.plan.name) t.plan.onFailure

/-- The data was freed. -/
def freed (p : Point) : Point :=
  t.hooked p (.freed t.body t.plan.name) t.plan.onFree

/-- A reference was taken. -/
def took (p : Point) (holder : Holder) : Point :=
  (p.changed fun a => { a with refs := a.refs + 1 }).tell (.took holder t.handle)

/-- A reference was dropped. -/
def dropped (p : Point) (holder : Holder) : Point :=
  (p.changed fun a => { a with refs := a.refs - 1 }).tell (.dropped holder t.handle)

/-- The asset was staged, if it is loaded. -/
def staged (p : Point) : Point :=
  if p.asset.state.isLoaded then t.took p .notice else p

/-- The task was completed: its data is freed, its asset staged, and its reference
dropped. -/
def completed (p : Point) : Point :=
  t.dropped ((t.staged (t.freed p)).tell (.completed t.id)) .task

/-- A subscriber was called. -/
def notified (p : Point) (sub : Subscription) : Point :=
  { (p.tell (.loaded sub.id sub.label t.handle t.label p.asset.state)).affected
      (t.meaning.script sub.code none none p.asset []) with
    data := p.data }

/-- The asset was destroyed, if no reference is left. -/
def buried (p : Point) : Point :=
  if p.asset.refs = 0 then
    match p.asset.contents with
    | some c =>
      { p with
        asset := { p.asset with destroyed := true, contents := none, slot := none, state := .none }
        told := t.meaning.destructor c ++ p.told }
    | none => p.changed fun a => { a with destroyed := true }
  else p

/-- The load of the asset was delivered, if it was staged. -/
def delivered (p : Point) : Point :=
  if p.asset.state.isLoaded then t.buried (t.dropped (t.calls.foldl t.notified p) .notice) else p

/-! ### From point to point -/

/-- The point after some number of actions. -/
def course : Nat → Point
  | 0 => t.start
  | k + 1 =>
    match t.plan.actions[k]? with
    | some a => t.acted (course k) k a
    | none => course k

/-- The cost estimates that the first actions reported, one for each action that reported
any. -/
def reports (k : Nat) : List Int32 :=
  (List.range k).filterMap fun i =>
    t.plan.actions[i]?.bind fun a => (t.deed (t.course i) a).noted

/-- The cost estimate after some number of actions: the last one reported, or the one
the task was made with. -/
def estimate (k : Nat) : Int32 :=
  (t.reports k).getLast?.getD t.start.complexity

end Solo

/-- How far a task has come. -/
inductive Standing where
  /-- The action at a position comes next; all before it succeeded. -/
  | ready (cursor : Nat)
  /-- It was completed, and things stood like this. -/
  | done (last : Point)

namespace Solo

variable (t : Solo)

/-- What the outcome of an action leads to. -/
def onward (k : Nat) (succeeded : Bool) : Standing :=
  if succeeded then
    if t.plan.actions.length ≤ k + 1 then .done (t.completed (t.course (k + 1)))
    else .ready (k + 1)
  else .done (t.completed (t.failed (t.course (k + 1))))

/-- The task goes on by one action; without any it is completed. -/
def advance : Standing → Standing
  | .ready k =>
    match t.plan.actions[k]? with
    | some a => t.onward k (t.succeeds (t.course k) a)
    | none => .done (t.completed (t.course k))
  | .done p => .done p

/-- How far the task has come after some number of outcomes. -/
def after (n : Nat) : Standing :=
  t.advance^[n] (.ready 0)

/-- The points at which a task comes to its end, before its data is freed. -/
inductive Closes (t : Solo) : Point → Prop where
  /-- There is no action left. -/
  | bare {k : Nat} (hk : t.after k = .ready k) (hnone : t.plan.actions[k]? = none) :
    t.Closes (t.course k)
  /-- The last action succeeded. -/
  | succeeded {k : Nat} {a : Action Script} (hk : t.after k = .ready k)
      (ha : t.plan.actions[k]? = some a) (hok : t.succeeds (t.course k) a = true)
      (hlast : t.plan.actions.length ≤ k + 1) :
    t.Closes (t.course (k + 1))
  /-- An action failed, and the failure hook ran. -/
  | failed {k : Nat} {a : Action Script} (hk : t.after k = .ready k)
      (ha : t.plan.actions[k]? = some a) (hfails : t.succeeds (t.course k) a = false) :
    t.Closes (t.failed (t.course (k + 1)))

/-- The points that a task passes between one piece of code and the next. The asset is
referenced by the task until the data is freed, and by the load event from then on. -/
inductive Passes (t : Solo) : Point → Prop where
  /-- The task goes on with its next action. -/
  | course {k : Nat} (hk : t.after k = .ready k) : t.Passes (t.course k)
  /-- An action ran. -/
  | acted {k : Nat} {a : Action Script} (hk : t.after k = .ready k)
      (ha : t.plan.actions[k]? = some a) :
    t.Passes (t.acted (t.course k) k a)
  /-- The task comes to its end. -/
  | closes {q : Point} (hq : t.Closes q) : t.Passes q
  /-- The data was freed. -/
  | freed {q : Point} (hq : t.Closes q) : t.Passes (t.freed q)
  /-- The load is delivered, and some of the subscribers were called. -/
  | notified {n : Nat} {q : Point} {subs : List Subscription} (hdone : t.after n = .done q)
      (hloaded : q.asset.state.isLoaded = true) (hsubs : subs <+: t.calls) :
    t.Passes (subs.foldl t.notified q)

variable {t}

theorem advance_of_some {k : Nat} {a : Action Script} (ha : t.plan.actions[k]? = some a) :
    t.advance (.ready k) = t.onward k (t.succeeds (t.course k) a) := by
  simp only [advance, ha]

theorem advance_of_none {k : Nat} (hnone : t.plan.actions[k]? = none) :
    t.advance (.ready k) = .done (t.completed (t.course k)) := by
  simp only [advance, hnone]

theorem after_succ (n : Nat) : t.after (n + 1) = t.advance (t.after n) :=
  Function.iterate_succ_apply' _ _ _

/-- Each outcome takes the task one action further. -/
theorem cursor_eq_of_after {n k : Nat} (h : t.after n = .ready k) : k = n := by
  induction n generalizing k with
  | zero =>
    cases h
    rfl
  | succ n ih =>
    rw [after_succ] at h
    -- only an outcome that was taken in moves the cursor, and only by one
    cases hn : t.after n with
    | ready j =>
      rw [hn] at h
      have hj := ih hn
      unfold advance at h
      dsimp only at h
      split at h
      next =>
        unfold onward at h
        split at h
        · split at h
          · cases h
          · cases h
            rw [hj]
        · cases h
      next => cases h
    | done p =>
      rw [hn] at h
      cases h

theorem after_cursor {n k : Nat} (h : t.after n = .ready k) : t.after k = .ready k := by
  have hk := cursor_eq_of_after h
  rw [← hk] at h
  exact h

/-- A completed task stays as it is. -/
theorem after_of_le {m n : Nat} {p : Point} (hm : t.after m = .done p) (hmn : m ≤ n) :
    t.after n = .done p := by
  induction hmn with
  | refl => exact hm
  | step _ ih => rw [after_succ, ih, advance]

/-- A task ends in one way only. -/
theorem done_unique {m n : Nat} {p q : Point} (hm : t.after m = .done p)
    (hn : t.after n = .done q) : p = q := by
  have hp := after_of_le hm (Nat.le_max_left m n)
  rw [after_of_le hn (Nat.le_max_right m n)] at hp
  cases hp
  rfl

/-- A task comes to its end. -/
theorem exists_done (t : Solo) : ∃ n p, t.after n = .done p := by
  cases h : t.after t.plan.actions.length with
  | ready k =>
    have hk := cursor_eq_of_after h
    have hlast : t.plan.actions[k]? = none := List.getElem?_eq_none (Nat.le_of_eq hk.symm)
    exact ⟨t.plan.actions.length + 1, t.completed (t.course k), by
      rw [after_succ, h, advance_of_none hlast]⟩
  | done p => exact ⟨_, p, h⟩

/-- Until it comes to its end, each outcome leads to the next action. -/
theorem exists_first_done (t : Solo) :
    ∃ n p, t.after n = .done p ∧ ∀ k < n, t.after k = .ready k := by
  classical
  have hend : ∃ n, ∃ p, t.after n = .done p := t.exists_done
  obtain ⟨p, hp⟩ := Nat.find_spec hend
  refine ⟨Nat.find hend, p, hp, fun k hk => ?_⟩
  cases hstanding : t.after k with
  | ready j => rw [cursor_eq_of_after hstanding]
  | done q => exact absurd ⟨q, hstanding⟩ (Nat.find_min hend hk)

end Solo

/-! ### Cost estimates -/

namespace Solo

variable {t : Solo} {p : Point}

theorem course_succ {k : Nat} {a : Action Script} (ha : t.plan.actions[k]? = some a) :
    t.course (k + 1) = t.acted (t.course k) k a := by
  rw [course, ha]

theorem reports_succ (t : Solo) (k : Nat) :
    t.reports (k + 1) = t.reports k ++
      (t.plan.actions[k]?.bind fun a => (t.deed (t.course k) a).noted).toList := by
  unfold reports
  rw [List.range_succ, List.filterMap_append]
  cases h : t.plan.actions[k]?.bind fun a => (t.deed (t.course k) a).noted <;> simp [h]

theorem complexity_course (t : Solo) (k : Nat) : (t.course k).complexity = t.estimate k := by
  induction k with
  | zero => rfl
  | succ k ih =>
    unfold estimate at ih ⊢
    rw [reports_succ]
    cases ha : t.plan.actions[k]? with
    | none => simpa [course, ha] using ih
    | some a =>
      rw [course_succ ha]
      cases hnoted : (t.deed (t.course k) a).noted with
      | none => simpa [acted, hnoted] using ih
      | some c => simp [acted, hnoted]

/-! ### The end -/

/-- A task that is completed came to its end at some point. -/
theorem closes_of_done {n : Nat} (h : t.after n = .done p) : ∃ q, t.Closes q ∧ p = t.completed q := by
  induction n with
  | zero => cases h
  | succ n ih =>
    rw [after_succ] at h
    cases hn : t.after n with
    | done q =>
      rw [hn] at h
      cases h
      exact ih hn
    | ready k =>
      -- the outcome taken in last ended the task, in one of three ways
      have hk := after_cursor hn
      rw [hn] at h
      cases ha : t.plan.actions[k]? with
      | none =>
        rw [advance_of_none ha] at h
        cases h
        exact ⟨_, .bare hk ha, rfl⟩
      | some a =>
        rw [advance_of_some ha] at h
        unfold onward at h
        split at h
        next hok =>
          split at h
          next hlast =>
            cases h
            exact ⟨_, .succeeded hk ha hok hlast, rfl⟩
          next => cases h
        next hfails =>
          cases h
          exact ⟨_, .failed hk ha (Bool.eq_false_of_not_eq_true hfails), rfl⟩

theorem state_completed (t : Solo) (p : Point) :
    (t.completed p).asset.state = (t.freed p).asset.state := by
  show (t.staged (t.freed p)).asset.state = _
  unfold staged
  split <;> rfl

/-- The load event holds a reference in place of the one that the task drops. -/
theorem asset_completed (hloaded : (t.completed p).asset.state.isLoaded = true) :
    (t.completed p).asset = (t.freed p).asset := by
  rw [state_completed] at hloaded
  show { (t.staged (t.freed p)).asset with refs := (t.staged (t.freed p)).asset.refs - 1 } = _
  unfold staged
  rw [if_pos hloaded]
  show { (t.freed p).asset with refs := (t.freed p).asset.refs + 1 - 1 } = _
  rw [Int.add_sub_cancel]

/-! ### What is kept all along -/

section Kept

variable {P : Asset → Prop}
  (hscript : ∀ code b priority a data, P a → P (a.affected (t.meaning.script code b priority a data)))
  (herror : ∀ a, P a → P { a with state := .error })
include hscript

theorem kept_hooked (hp : P p.asset) (begun : LoadState → List Int → Event) (code : Option Script) :
    P (t.hooked p begun code).asset := by
  cases code with
  | none => exact hp
  | some code => exact hscript _ _ _ _ _ hp

theorem kept_course (hstart : P t.start.asset) (k : Nat) : P (t.course k).asset := by
  induction k with
  | zero => exact hstart
  | succ k ih =>
    unfold course
    split
    next => exact hscript _ _ _ _ _ ih
    next => exact ih

theorem kept_notified (hp : P p.asset) (subs : List Subscription) :
    P (subs.foldl t.notified p).asset := by
  induction subs generalizing p with
  | nil => exact hp
  | cons sub subs ih => exact ih (hscript _ _ _ _ _ hp)

include herror

theorem kept_failed (hp : P p.asset) : P (t.failed p).asset := by
  refine kept_hooked hscript ?_ _ _
  show P (if p.asset.state.isError then p.asset else { p.asset with state := .error })
  split
  · exact hp
  · exact herror _ hp

theorem Closes.kept (hstart : P t.start.asset) (hp : t.Closes p) : P p.asset := by
  have hcourse := kept_course hscript hstart
  cases hp with
  | bare => exact hcourse _
  | succeeded => exact hcourse _
  | failed => exact kept_failed hscript herror (hcourse _)

/-- What no code takes from the asset, and a failure does not either, holds at every point
that the task passes. -/
theorem Passes.kept (hstart : P t.start.asset) (hp : t.Passes p) : P p.asset := by
  have hcourse := kept_course hscript hstart
  cases hp with
  | course => exact hcourse _
  | acted => exact hscript _ _ _ _ _ (hcourse _)
  | closes hq => exact hq.kept hscript herror hstart
  | freed hq => exact kept_hooked hscript (hq.kept hscript herror hstart) _ _
  | notified hdone hloaded =>
    obtain ⟨q, hq, rfl⟩ := closes_of_done hdone
    refine kept_notified hscript ?_ _
    rw [asset_completed hloaded]
    exact kept_hooked hscript (hq.kept hscript herror hstart) _ _

end Kept

end Solo

end AssetLoading
