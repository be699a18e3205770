import AssetLoading.Proofs.Run.Move
import AssetLoading.Proofs.Run.Recorded

/-! # Relations that code keeps to

  A law that ties the state in which code is started to the state in which it ends
  need not be traced move by move. It is enough that the relation is reflexive and
  transitive and holds for every single change that code makes. `Stays R early x` says
  that code `x` goes from a state only to states that `R` relates it to, wherever it is
  started; where it comes to an early end this is only asked if `early` holds, as a law
  may speak of returned code alone.

  Relations differ in the changes they hold for. `Permits R` lists those that have
  nothing to do with tasks, and all code that works on assets, load events and jobs is
  made of them.
-/

namespace AssetLoading

/-! ### Code that keeps to a relation -/

/-- The code ends in a state that the relation relates this one to. -/
def StaysFrom {α : Type} (R : State → State → Prop) (early : Prop) (s : State) (x : Exec α) : Prop :=
  match x s with
  | .ok _ t => R s t
  | .error _ t => early → R s t

/-- The code keeps to a relation wherever it is started. -/
def Stays {α : Type} (R : State → State → Prop) (early : Prop) (x : Exec α) : Prop :=
  ∀ s, StaysFrom R early s x

/-- A runner of client code that runs it as sessions do, and keeps to a relation. -/
structure Runner.Stays (R : State → State → Prop) (early : Prop) (call : Runner) : Prop where
  known : ∃ fuel, call = run fuel
  stays : ∀ callback, AssetLoading.Stays R early (call callback)

/-- Events that tell nothing of tasks and answer no operation. -/
def Event.IsAside : Event → Prop
  | .answered .. => False
  | e => e.subject = .asset ∨ e.subject = .job ∨ e.subject = .other

/-- A relation that holds for all changes that have nothing to do with tasks. -/
structure Permits (R : State → State → Prop) : Prop where
  refl : ∀ s, R s s
  trans : ∀ {r s t}, R r s → R s t → R r t
  /-- An event is noted. -/
  note : ∀ s (e : Event), e.IsAside → R s (s.record e)
  /-- Assets change. -/
  assets : ∀ s (assets : Array Asset), R s { s with assets }
  /-- Registries change. -/
  registries : ∀ s (registries : Array Registry), R s { s with registries }
  /-- Subscriptions and staged loads change. -/
  notices : ∀ s (notices : Notices), R s (s.withNotices notices)
  /-- Files change. -/
  files : ∀ s (storage : Storage), R s { s with storage }
  /-- The client's tables change, but for its claims and jobs. -/
  client : ∀ s (c : Client), c.claims = s.client.claims → c.jobs = s.client.jobs →
    R s (s.withClient c)
  /-- The data of a task changes. -/
  data : ∀ s b (f : TaskBody → TaskBody), (∀ body, ∃ data, f body = { body with data }) →
    R s (s.modifyBody b f)
  /-- A job is made that is not an action of a task. -/
  makeJob : ∀ s (w : Work), w.IsForeign → R s (s.withJobs (s.jobs.make w).2)
  /-- A job that was made gets a label of the client. -/
  labelJob : ∀ s label j, j < s.jobs.jobs.size →
    R s (s.withClient { s.client with jobs := s.client.jobs.put label j })
  /-- A job that was made or has a label is submitted. -/
  submitJob : ∀ s j, (j < s.jobs.jobs.size ∨ ∃ label, s.client.jobs.lookup label = some j) →
    R s (s.withJobs (s.jobs.submit j))
  /-- The waiting jobs are taken out of their queue. -/
  drainJobs : ∀ s, R s (s.withJobs { s.jobs with waiting := [] })
  /-- A job starts. -/
  startJob : ∀ s j, R s (s.withJobs (s.jobs.modify j fun job => { job with started := true }))
  /-- A job finishes. -/
  finishJob : ∀ s j success,
    R s (s.withJobs (s.jobs.modify j fun job => { job with success, finished := true }))

/-! ### Rules -/

section Rules

variable {α β : Type} {R : State → State → Prop} {early : Prop} {s t : State} {x : Exec α}
  {f : α → Exec β}

theorem StaysFrom.of_ok {a : α} (hrun : x s = .ok a t) (h : R s t) : StaysFrom R early s x := by
  unfold StaysFrom
  rw [hrun]
  exact h

/-- Where the code returns, the relation holds. -/
theorem StaysFrom.returned (h : StaysFrom R early s x) {a : α} (hrun : x s = .ok a t) : R s t := by
  unfold StaysFrom at h
  rw [hrun] at h
  exact h

/-- So it does where the code comes to an early end, if that is asked. -/
theorem StaysFrom.halted (h : StaysFrom R early s x) (hearly : early) {e : Halt}
    (hrun : x s = .error e t) : R s t := by
  unfold StaysFrom at h
  rw [hrun] at h
  exact h hearly

/-- Code that does what other code does in a later state. -/
theorem StaysFrom.goOn {P : State → State → Prop} {r : State} {y : Exec α} (hrun : x s = y r)
    (h : StaysFrom P early r y) (hR : ∀ t, P r t → R s t) : StaysFrom R early s x := by
  unfold StaysFrom at h ⊢
  rw [hrun]
  split
  next a t hy =>
    rw [hy] at h
    exact hR t h
  next e t hy =>
    rw [hy] at h
    exact fun hearly => hR t (h hearly)

theorem StaysFrom.weaken {P : State → State → Prop} (h : StaysFrom P early s x)
    (hR : ∀ t, P s t → R s t) : StaysFrom R early s x :=
  .goOn rfl h hR

theorem StaysFrom.and {P : State → State → Prop} (h : StaysFrom R early s x)
    (h' : StaysFrom P early s x) : StaysFrom (fun s t => R s t ∧ P s t) early s x := by
  unfold StaysFrom at h h' ⊢
  split
  next a t hrun =>
    rw [hrun] at h h'
    exact ⟨h, h'⟩
  next e t hrun =>
    rw [hrun] at h h'
    exact fun hearly => ⟨h hearly, h' hearly⟩

theorem Runner.Stays.weaken {P : State → State → Prop} {call : Runner} (h : call.Stays P early)
    (hR : ∀ s t, P s t → R s t) : call.Stays R early :=
  ⟨h.known, fun callback s => (h.stays callback s).weaken (hR s)⟩

/-- One relation holds for the first part of code, and another one for what follows. -/
theorem StaysFrom.chain {P Q : State → State → Prop} (hx : StaysFrom P early s x)
    (hf : ∀ a t, x s = .ok a t → StaysFrom Q early t (f a))
    (hboth : ∀ t r, P s t → Q t r → R s r) (hfirst : ∀ t, early → P s t → R s t) :
    StaysFrom R early s (x >>= f) := by
  unfold StaysFrom at hx ⊢
  show match EStateM.bind x f s with
    | .ok _ t => R s t
    | .error _ t => early → R s t
  unfold EStateM.bind
  -- the second part is asked of only where the first returns
  split at hx
  next a t hrun =>
    have hnext := hf a t hrun
    unfold StaysFrom at hnext
    rw [hrun]
    split at hnext
    next b r hb =>
      simp only [hb]
      exact hboth t r hx hnext
    next e r hb =>
      simp only [hb]
      exact fun hearly => hboth t r hx (hnext hearly)
  next e t hrun =>
    rw [hrun]
    exact fun hearly => hfirst t hearly (hx hearly)

variable (hR : Permits R)

include hR

theorem StaysFrom.pure {a : α} : StaysFrom R early s (Pure.pure a : Exec α) :=
  hR.refl s

theorem StaysFrom.throw {e : Halt} : StaysFrom R early s (MonadExcept.throw e : Exec α) :=
  fun _ => hR.refl s

theorem StaysFrom.bind (hx : StaysFrom R early s x)
    (hf : ∀ a t, x s = .ok a t → StaysFrom R early t (f a)) : StaysFrom R early s (x >>= f) :=
  .chain hx hf (fun _ _ => hR.trans) fun _ _ hst => hst

theorem Stays.pure (a : α) : Stays R early (Pure.pure a : Exec α) :=
  fun _ => .pure hR

theorem Stays.throw (e : Halt) : Stays R early (MonadExcept.throw e : Exec α) :=
  fun _ => .throw hR

theorem Stays.bind (hx : Stays R early x) (hf : ∀ a, Stays R early (f a)) :
    Stays R early (x >>= f) :=
  fun s => .bind hR (hx s) fun a t _ => hf a t

/-- Code that comes to an early end is not gone on with. -/
theorem Stays.halt (e : Halt) : Stays R early ((MonadExcept.throw e : Exec α) >>= f) :=
  fun s _ => hR.refl s

omit hR

/-- Code that begins by looking at the state. -/
theorem Stays.look {g : State → Exec β} (h : ∀ s, Stays R early (g s)) :
    Stays R early (get >>= g) :=
  fun s => h s s

/-- The state that code looks at is the one it goes on from. -/
theorem StaysFrom.look {g : State → Exec β} (h : StaysFrom R early s (g s)) :
    StaysFrom R early s (get >>= g) :=
  h

theorem Stays.ite {c : Prop} [Decidable c] {y : Exec α} (hx : Stays R early x)
    (hy : Stays R early y) : Stays R early (if c then x else y) := by
  split
  · exact hx
  · exact hy

/-- A change that the relation holds for. -/
theorem Stays.change {g : State → State} (h : ∀ s, R s (g s)) :
    Stays R early (modify g : Exec Unit) :=
  fun s => h s

end Rules

/-! ### Single changes -/

section Changes

variable {R : State → State → Prop} (hR : Permits R) {early : Prop}

include hR

theorem stays_record {e : Event} (he : e.IsAside) : Stays R early (record e) :=
  .change fun s => hR.note s e he

theorem stays_log (level : Level) (message : String) (fields : List (String × Field)) :
    Stays R early (log level message fields) :=
  stays_record hR (.inr (.inr rfl))

theorem stays_getAsset (h : Handle) : Stays R early (getAsset h) :=
  .look fun _ => .pure hR _

theorem stays_modifyAsset (h : Handle) (f : Asset → Asset) : Stays R early (modifyAsset h f) :=
  .change fun s => hR.assets s _

theorem stays_modifyRegistry (r : RegistryId) (f : Registry → Registry) :
    Stays R early (modifyRegistry r f) :=
  .change fun s => hR.registries s _

theorem stays_modifyNotices (f : Notices → Notices) : Stays R early (modifyNotices f) :=
  .change fun s => hR.notices s _

theorem stays_modifyClient {f : Client → Client}
    (hf : ∀ c, (f c).claims = c.claims ∧ (f c).jobs = c.jobs) : Stays R early (modifyClient f) :=
  .change fun s => hR.client s _ (hf s.client).1 (hf s.client).2

theorem stays_modifyData (b : BodyId) {f : TaskBody → TaskBody}
    (hf : ∀ body, ∃ data, f body = { body with data }) : Stays R early (modifyBody b f) :=
  .change fun s => hR.data s b f hf

end Changes

end AssetLoading
