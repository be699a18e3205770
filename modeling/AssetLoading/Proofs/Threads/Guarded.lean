import AssetLoading.Interpreter.Execution
import AssetLoading.Proofs.Threads.Discipline

/-! # Code that keeps the discipline

  `Guarded p s x Q` says what code `x` does that is started in state `s`, whether it
  returns or comes to an early end. In any case jobs that finish meanwhile say what
  their work returned. And in a run of operations that clients have, which is what
  `p` stands for, the state stays disciplined; if the code returns, then such that
  `Q` holds.

  Most code only depends on the discipline of the state that it is started in.
  `Keeps p x` says that `x` does what is said above, in every such state.
-/

namespace AssetLoading

/-! ### Finished jobs -/

/-- Between two states the work of a job was done and returned what the job says. -/
def State.Worked (s t : State) (j : JobId) : Prop :=
  ∃ fuel thread begun done label past,
    doWork (run fuel) thread (t.jobs.job j).work begun = .ok (t.jobs.job j).success done ∧
      begun.history = .jobStarted j label :: past ∧ s.history <:+ past ∧ done.history <:+ t.history

/-- A state with everything another one has. A job that has finished meanwhile says
what its work returned. -/
structure State.Before (s t : State) : Prop where
  grows : s.Extends t
  finished : ∀ j, (t.jobs.job j).finished = true →
    ((s.jobs.job j).finished = true ∧ (t.jobs.job j).success = (s.jobs.job j).success) ∨ s.Worked t j

namespace State

theorem lt_size_of_finished {s : State} {j : JobId} (h : (s.jobs.job j).finished = true) :
    j < s.jobs.jobs.size := by
  refine Nat.lt_of_not_le fun hge => ?_
  have hunfinished : (s.jobs.job j).finished = false := by
    simp [JobQueue.job, Array.getElem?_eq_none hge]
  rw [h] at hunfinished
  cases hunfinished

namespace Before

variable {r s t : State}

theorem refl (s : State) : s.Before s :=
  ⟨.refl s, fun _ hfinished => .inl ⟨hfinished, rfl⟩⟩

theorem trans (hrs : r.Before s) (hst : s.Before t) : r.Before t where
  grows := hrs.grows.trans hst.grows
  finished j hj := by
    rcases hst.finished j hj with ⟨hs, hsame⟩ | ⟨fuel, thread, begun, done, label, past, hwork, hbegun,
      hpast, hdone⟩
    · rcases hrs.finished j hs with ⟨hr, hold⟩ | ⟨fuel, thread, begun, done, label, past, hwork, hbegun,
        hpast, hdone⟩
      · exact .inl ⟨hr, hsame.trans hold⟩
      · right
        rw [Worked, hsame, (hst.grows.job j (lt_size_of_finished hs)).2.work]
        exact ⟨fuel, thread, begun, done, label, past, hwork, hbegun, hpast,
          hdone.trans hst.grows.history⟩
    · right
      exact ⟨fuel, thread, begun, done, label, past, hwork, hbegun, hrs.grows.history.trans hpast, hdone⟩

/-- No job finishes. -/
theorem of_jobs (hext : s.Extends t)
    (hjobs : ∀ j, (t.jobs.job j).finished = true →
      (s.jobs.job j).finished = true ∧ (t.jobs.job j).success = (s.jobs.job j).success) :
    s.Before t :=
  ⟨hext, fun j hj => .inl (hjobs j hj)⟩

end Before

theorem Quiet.before {s t : State} (h : s.Quiet t) : s.Before t :=
  .of_jobs h.grows fun j hj => by
    rw [JobQueue.job_congr h.jobs] at hj ⊢
    exact ⟨hj, rfl⟩

end State

/-! ### Guarded code -/

/-- What code does in a state, and that it keeps the discipline in a proper run. -/
def Guarded {α : Type} (p : Prop) (s : State) (x : Exec α) (Q : α → State → Prop) : Prop :=
  match x s with
  | .ok a t => s.Before t ∧ (p → t.Disciplined ∧ Q a t)
  | .error _ t => s.Before t ∧ (p → t.Disciplined)

/-- Code keeps the discipline wherever it is started. -/
def Keeps {α : Type} (p : Prop) (x : Exec α) : Prop :=
  ∀ s : State, (p → s.Disciplined) → Guarded p s x fun _ _ => True

/-- A runner of client code runs it as sessions do, and keeps the discipline. -/
structure Runner.IsGuarded (p : Prop) (call : Runner) : Prop where
  known : ∃ fuel, call = run fuel
  keeps : ∀ callback, (p → callback.Public) → Keeps p (call callback)

section Rules

variable {α β : Type} {p : Prop} {s : State} {x : Exec α} {f : α → Exec β}

theorem Guarded.pure {Q : α → State → Prop} {a : α} (hs : p → s.Disciplined) (hq : p → Q a s) :
    Guarded p s (Pure.pure a : Exec α) Q :=
  ⟨.refl s, fun hp => ⟨hs hp, hq hp⟩⟩

theorem Guarded.throw {Q : α → State → Prop} {e : Halt} (hs : p → s.Disciplined) :
    Guarded p s (MonadExcept.throw e : Exec α) Q :=
  ⟨.refl s, hs⟩

theorem Guarded.bind {Q : α → State → Prop} {R : β → State → Prop} (hx : Guarded p s x Q)
    (hf : ∀ a t, s.Before t → (p → t.Disciplined) → (p → Q a t) → Guarded p t (f a) R) :
    Guarded p s (x >>= f) R := by
  unfold Guarded at hx ⊢
  show match EStateM.bind x f s with
    | .ok a t => s.Before t ∧ (p → t.Disciplined ∧ R a t)
    | .error _ t => s.Before t ∧ (p → t.Disciplined)
  unfold EStateM.bind
  split at hx
  next a t hrun =>
    have hnext := hf a t hx.1 (fun hp => (hx.2 hp).1) fun hp => (hx.2 hp).2
    rw [hrun]
    unfold Guarded at hnext
    split at hnext
    next b r hb =>
      simp only [hb]
      exact ⟨hx.1.trans hnext.1, hnext.2⟩
    next e r hb =>
      simp only [hb]
      exact ⟨hx.1.trans hnext.1, hnext.2⟩
  next e t hrun =>
    rw [hrun]
    exact hx

/-- Code that has come some way already, and whose end is known once the rest of it
has returned. -/
theorem Guarded.resume {Q : α → State → Prop} {r : State} {y : Exec β} (hrun : y r = (x >>= f) s)
    (hrs : r.Before s) (hx : Guarded p s x Q)
    (hf : ∀ a t, x s = .ok a t → s.Before t → (p → t.Disciplined) →
      ∃ b q, f a t = .ok b q ∧ r.Before q ∧ (p → q.Disciplined)) :
    Guarded p r y fun _ _ => True := by
  unfold Guarded at hx ⊢
  rw [hrun]
  show match EStateM.bind x f s with
    | .ok _ t => r.Before t ∧ (p → t.Disciplined ∧ True)
    | .error _ t => r.Before t ∧ (p → t.Disciplined)
  unfold EStateM.bind
  split at hx
  next a t hxs =>
    obtain ⟨b, q, hq, hrq, hdisciplined⟩ := hf a t hxs hx.1 fun hp => (hx.2 hp).1
    simp only [hxs, hq]
    exact ⟨hrq, fun hp => ⟨hdisciplined hp, trivial⟩⟩
  next e t hxs =>
    simp only [hxs]
    exact ⟨hrs.trans hx.1, hx.2⟩

/-- Code that begins by looking at the state. -/
theorem Guarded.look {R : β → State → Prop} {g : State → Exec β} (h : Guarded p s (g s) R) :
    Guarded p s (get >>= g) R :=
  h

/-- Code that begins by looking at an asset. -/
theorem Guarded.lookAsset {R : β → State → Prop} {h : Handle} {g : Asset → Exec β}
    (hg : Guarded p s (g (s.asset h)) R) : Guarded p s (getAsset h >>= g) R :=
  hg

/-- Where code returns there is everything that there was. -/
theorem Guarded.before {Q : α → State → Prop} (h : Guarded p s x Q) {a : α} {t : State}
    (hrun : x s = .ok a t) : s.Before t := by
  unfold Guarded at h
  rw [hrun] at h
  exact h.1

/-- Code that returns in a state that is known. -/
theorem Guarded.of_ok {Q : α → State → Prop} {a : α} {t : State} (hrun : x s = .ok a t)
    (hst : s.Before t) (ht : p → t.Disciplined) (hq : p → Q a t) : Guarded p s x Q := by
  unfold Guarded
  rw [hrun]
  exact ⟨hst, fun hp => ⟨ht hp, hq hp⟩⟩

theorem Keeps.guarded (hx : Keeps p x) (hs : p → s.Disciplined) : Guarded p s x fun _ _ => True :=
  hx s hs

/-- Code that keeps the discipline, and then other code. -/
theorem Keeps.first (hx : Keeps p x) {R : β → State → Prop} (hs : p → s.Disciplined)
    (hf : ∀ a t, s.Before t → (p → t.Disciplined) → Guarded p t (f a) R) :
    Guarded p s (x >>= f) R :=
  (hx s hs).bind fun a t hst ht _ => hf a t hst ht

theorem Keeps.pure (a : α) : Keeps p (Pure.pure a : Exec α) :=
  fun _ hs => .pure hs fun _ => trivial

theorem Keeps.throw (e : Halt) : Keeps p (MonadExcept.throw e : Exec α) :=
  fun _ hs => .throw hs

theorem Keeps.bind (hx : Keeps p x) (hf : ∀ a, Keeps p (f a)) : Keeps p (x >>= f) :=
  fun _ hs => hx.first hs fun a t _ ht => hf a t ht

theorem Keeps.look {g : State → Exec β} (h : ∀ s, Keeps p (g s)) : Keeps p (get >>= g) :=
  fun s hs => h s s hs

theorem Keeps.ite {c : Prop} [Decidable c] {y : Exec α} (hx : Keeps p x) (hy : Keeps p y) :
    Keeps p (if c then x else y) := by
  split
  · exact hx
  · exact hy

/-- Code that comes to an early end is not gone on with. -/
theorem Keeps.halt (e : Halt) : Keeps p ((MonadExcept.throw e : Exec α) >>= f) :=
  fun _ hs => ⟨.refl _, hs⟩

/-- A change that stores nothing new. -/
theorem Keeps.quiet {g : State → State} (h : ∀ s : State, s.Quiet (g s)) : Keeps p (modify g : Exec Unit) :=
  fun s hs => ⟨(h s).before, fun hp => ⟨(hs hp).quiet (h s), trivial⟩⟩

end Rules

/-! ### Changes -/

section Changes

variable {p : Prop}

theorem keeps_record {e : Event} (he : e.IsQuiet) : Keeps p (record e) :=
  .quiet fun _ => .record he

theorem keeps_log (level : Level) (message : String) (fields : List (String × Field)) :
    Keeps p (log level message fields) :=
  keeps_record trivial

theorem keeps_getAsset (h : Handle) : Keeps p (getAsset h) :=
  .look fun _ => .pure _

theorem keeps_modifyAsset (h : Handle) {f : Asset → Asset} (hf : ∀ a : Asset, a.ScriptFrom (f a)) :
    Keeps p (modifyAsset h f) :=
  .quiet fun _ => .modifyAsset (hf _)

theorem keeps_modifyRegistry (r : RegistryId) (f : Registry → Registry) :
    Keeps p (modifyRegistry r f) :=
  .quiet fun _ => .of_eq rfl rfl rfl rfl (fun p hp _ hsub => ⟨p, hp, hsub⟩) (List.Subset.refl _)
    (List.Subset.refl _)

theorem keeps_modifyBody (b : BodyId) {f : TaskBody → TaskBody}
    (hf : ∀ body : TaskBody, body.GrowsTo (f body) ∧ (f body).scripts ⊆ body.scripts) :
    Keeps p (modifyBody b f) :=
  .quiet fun _ => .modifyBody hf

theorem keeps_modifyClient {f : Client → Client} (hf : ∀ c, (f c).claims ⊆ c.claims) :
    Keeps p (modifyClient f) :=
  .quiet fun _ => .of_eq rfl rfl rfl rfl (fun p hp _ hsub => ⟨p, hp, hsub⟩) (List.Subset.refl _) (hf _)

theorem keeps_modifyQueue {f : TaskQueue → TaskQueue} (hf : ∀ q, (f q).pending ⊆ q.pending) :
    Keeps p (modifyQueue f) :=
  .quiet fun _ => .of_eq rfl rfl rfl rfl (fun p hp _ hsub => ⟨p, hp, hsub⟩) (hf _) (List.Subset.refl _)

theorem keeps_modifyJobs {f : JobQueue → JobQueue} (hf : ∀ q, (f q).jobs = q.jobs) :
    Keeps p (modifyJobs f) :=
  .quiet fun _ => .of_eq rfl rfl (hf _) rfl (fun p hp _ hsub => ⟨p, hp, hsub⟩) (List.Subset.refl _)
    (List.Subset.refl _)

theorem State.before_record (s : State) (e : Event) : s.Before (s.record e) :=
  .of_jobs (.of_same (List.suffix_cons e s.history) rfl rfl) fun _ hj => ⟨hj, rfl⟩

/-- An action starts where it may run. -/
theorem guarded_record_acted {s : State} {b : BodyId} {name : String} {i : Nat} {onGpu : Bool}
    {data : List Int} (hs : p → s.Disciplined) (hmay : p → s.MayRun b i onGpu) :
    Guarded p s (record (.acted b name i onGpu data)) fun _ _ => True := by
  refine .of_ok rfl (s.before_record _) (fun hp => ?_) fun _ => trivial
  refine (hs hp).record (s.before_record _).grows ?_ fun _ heq => nomatch heq
  rintro _ _ _ _ _ ⟨⟩
  exact hmay hp

/-- Code that is handed to the GPU thread starts there. -/
theorem guarded_record_called {s : State} {onGpu : Bool} (hs : p → s.Disciplined)
    (honGpu : p → onGpu = true) : Guarded p s (record (.gpuCalled onGpu)) fun _ _ => True := by
  refine .of_ok rfl (s.before_record _) (fun hp => ?_) fun _ => trivial
  refine (hs hp).record (s.before_record _).grows (fun _ _ _ _ _ heq => nomatch heq) ?_
  rintro _ ⟨⟩
  exact honGpu hp

/-- Entries that are put in the queue know where their actions run. -/
theorem guarded_modifyQueue {s : State} {f : TaskQueue → TaskQueue} (hs : p → s.Disciplined)
    (hf : p → ∀ e ∈ (f s.queue).pending, s.Knows e.toTask) :
    Guarded p s (modifyQueue f) fun _ _ => True :=
  .of_ok rfl (.of_jobs (.of_same List.suffix_rfl rfl rfl) fun _ hj => ⟨hj, rfl⟩)
    (fun hp => (hs hp).withQueue (hf hp)) fun _ => trivial

/-- Claims that are put under labels know where their actions run. -/
theorem guarded_modifyClient {s : State} {f : Client → Client} (hs : p → s.Disciplined)
    (hf : p → ∀ l ∈ (f s.client).claims, s.Knows l.2.toTask) :
    Guarded p s (modifyClient f) fun _ _ => True :=
  .of_ok rfl (.of_jobs (.of_same List.suffix_rfl rfl rfl) fun _ hj => ⟨hj, rfl⟩)
    (fun hp => (hs hp).withClient (hf hp)) fun _ => trivial

/-- Subscriptions that are stored run operations that clients have. -/
theorem guarded_modifyNotices {s : State} {f : Notices → Notices} (hs : p → s.Disciplined)
    (hf : p → ∀ l ∈ (f s.notices).subscriptions, ∀ sub ∈ l.2, Script.Public sub.code) :
    Guarded p s (modifyNotices f) fun _ _ => True :=
  .of_ok rfl (.of_jobs (.of_same List.suffix_rfl rfl rfl) fun _ hj => ⟨hj, rfl⟩)
    (fun hp => (hs hp).withNotices (hf hp)) fun _ => trivial

end Changes

end AssetLoading
