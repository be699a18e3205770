import AssetLoading.Proofs.Run.Recorded
import AssetLoading.Proofs.Tasks.Story

/-! # What only grows in a run

  Bodies, jobs and events are added and never removed. The code of a body and
  the work of a job never change; a body that was taken away stays away, and a
  job that has started or finished stays so. A fact that rests on these things
  only holds for good once it holds.
-/

namespace AssetLoading

/-- A body later in a run. -/
structure TaskBody.GrowsTo (a b : TaskBody) : Prop where
  outline : b.outline = a.outline
  taken : a.taken = true → b.taken = true

/-- A job later in a run. -/
structure Job.GrowsTo (a b : Job) : Prop where
  work : b.work = a.work
  started : a.started = true → b.started = true
  finished : a.finished = true → b.finished = true

/-- A state with everything another one has, and maybe more. -/
structure State.Extends (s t : State) : Prop where
  history : s.history <:+ t.history
  body : ∀ b, b < s.bodies.size → b < t.bodies.size ∧ (s.body b).GrowsTo (t.body b)
  job : ∀ j, j < s.jobs.jobs.size →
    j < t.jobs.jobs.size ∧ (s.jobs.job j).GrowsTo (t.jobs.job j)

theorem TaskBody.GrowsTo.refl (a : TaskBody) : a.GrowsTo a :=
  ⟨rfl, id⟩

theorem TaskBody.GrowsTo.trans {a b c : TaskBody} (hab : a.GrowsTo b) (hbc : b.GrowsTo c) :
    a.GrowsTo c :=
  ⟨hbc.outline.trans hab.outline, hbc.taken ∘ hab.taken⟩

theorem Job.GrowsTo.refl (a : Job) : a.GrowsTo a :=
  ⟨rfl, id, id⟩

theorem Job.GrowsTo.trans {a b c : Job} (hab : a.GrowsTo b) (hbc : b.GrowsTo c) : a.GrowsTo c :=
  ⟨hbc.work.trans hab.work, hbc.started ∘ hab.started, hbc.finished ∘ hab.finished⟩

/-! ### Bodies and jobs -/

namespace State

variable {s t : State}

/-- An unknown body counts as taken away. -/
theorem lt_size_of_untaken {b : BodyId} (h : (s.body b).taken = false) : b < s.bodies.size := by
  refine Nat.lt_of_not_le fun hge => ?_
  have hnone : s.bodies[b]? = none := Array.getElem?_eq_none hge
  have htaken : (s.body b).taken = true := by simp [body, hnone]
  rw [h] at htaken
  cases htaken

/-- An unknown job counts as started. -/
theorem lt_size_of_unstarted {j : JobId} (h : (s.jobs.job j).started = false) :
    j < s.jobs.jobs.size := by
  refine Nat.lt_of_not_le fun hge => ?_
  have hstarted : (s.jobs.job j).started = true := by
    simp [JobQueue.job, Array.getElem?_eq_none hge]
  rw [h] at hstarted
  cases hstarted

theorem body_push (s : State) (body : TaskBody) (b : BodyId) :
    ({ s with bodies := s.bodies.push body } : State).body b =
      if b = s.bodies.size then body else s.body b := by
  show ((s.bodies.push body)[b]?).getD _ = _
  rw [Array.getElem?_push]
  split
  next => rfl
  next => rfl

theorem body_congr (h : t.bodies = s.bodies) (b : BodyId) : t.body b = s.body b := by
  unfold body
  rw [h]

/-- A body with the same code, maybe taken away. -/
theorem growsTo_modifyBody (s : State) {b : BodyId} {f : TaskBody → TaskBody}
    (hf : ∀ body : TaskBody, body.GrowsTo (f body)) (c : BodyId) :
    (s.body c).GrowsTo ((s.modifyBody b f).body c) := by
  rw [body_modifyBody]
  split
  next => exact hf _
  next => exact .refl _

theorem growsTo_modifyJob (q : JobQueue) {j : JobId} {f : Job → Job}
    (hf : ∀ job : Job, job.GrowsTo (f job)) (k : JobId) :
    (q.job k).GrowsTo ((q.modify j f).job k) := by
  rw [JobQueue.job_modify]
  split
  next => exact hf _
  next => exact .refl _

namespace Extends

/-- The bodies are as they were. -/
theorem of_jobs (hhistory : s.history <:+ t.history) (hbodies : t.bodies = s.bodies)
    (hjobs : ∀ j, j < s.jobs.jobs.size →
      j < t.jobs.jobs.size ∧ (s.jobs.job j).GrowsTo (t.jobs.job j)) : s.Extends t where
  history := hhistory
  body b hb := by
    rw [hbodies, body_congr hbodies]
    exact ⟨hb, .refl _⟩
  job := hjobs

/-- The jobs are as they were. -/
theorem of_bodies (hhistory : s.history <:+ t.history) (hjobs : t.jobs = s.jobs)
    (hbodies : ∀ b, b < s.bodies.size →
      b < t.bodies.size ∧ (s.body b).GrowsTo (t.body b)) : s.Extends t where
  history := hhistory
  body := hbodies
  job j hj := by
    rw [hjobs]
    exact ⟨hj, .refl _⟩

/-- Bodies and jobs are as they were. -/
theorem of_same (hhistory : s.history <:+ t.history) (hbodies : t.bodies = s.bodies)
    (hjobs : t.jobs.jobs = s.jobs.jobs) : s.Extends t := by
  refine .of_jobs hhistory hbodies fun j hj => ?_
  rw [hjobs, JobQueue.job_congr hjobs j]
  exact ⟨hj, .refl _⟩

/-- A job is made, and maybe submitted. -/
theorem of_push {w : Work} (hhistory : s.history <:+ t.history) (hbodies : t.bodies = s.bodies)
    (hjobs : t.jobs.jobs = s.jobs.jobs.push { work := w }) : s.Extends t := by
  refine .of_jobs hhistory hbodies fun j hj => ?_
  have hjob : t.jobs.job j = s.jobs.job j := by
    rw [JobQueue.job_pushed hjobs, if_neg (Nat.ne_of_lt hj)]
  rw [hjobs, hjob, Array.size_push]
  exact ⟨Nat.lt_succ_of_lt hj, .refl _⟩

theorem refl (s : State) : s.Extends s :=
  .of_same List.suffix_rfl rfl rfl

theorem trans {r s t : State} (hrs : r.Extends s) (hst : s.Extends t) : r.Extends t where
  history := hrs.history.trans hst.history
  body b hb := by
    obtain ⟨hs, hgrown⟩ := hrs.body b hb
    exact ⟨(hst.body b hs).1, hgrown.trans (hst.body b hs).2⟩
  job j hj := by
    obtain ⟨hs, hgrown⟩ := hrs.job j hj
    exact ⟨(hst.job j hs).1, hgrown.trans (hst.job j hs).2⟩

theorem mem (h : s.Extends t) {e : Event} (he : e ∈ s.history) : e ∈ t.history :=
  h.history.subset he

end Extends

end State

/-! ### Every move -/

section Moving

variable {m n : Moment}

theorem Records.suffix {subject : Subject} (h : Records subject m n) :
    m.state.history <:+ n.state.history := by
  obtain ⟨new, -, hhistory⟩ := h
  exact ⟨new, hhistory.symm⟩

theorem growsTo_of_estimate {f : TaskBody → TaskBody}
    (hf : ∀ body, ∃ noted reported, f body = { body with noted, reported }) (body : TaskBody) :
    body.GrowsTo (f body) := by
  obtain ⟨noted, reported, hbody⟩ := hf body
  rw [hbody]
  exact ⟨rfl, id⟩

theorem growsTo_of_write {f : TaskBody → TaskBody}
    (hf : ∀ body, ∃ data, f body = { body with data }) (body : TaskBody) :
    body.GrowsTo (f body) := by
  obtain ⟨data, hbody⟩ := hf body
  rw [hbody]
  exact ⟨rfl, id⟩

theorem AssetMove.extends (h : AssetMove m n) : m.state.Extends n.state := by
  have hsuffix := h.records.suffix
  cases h <;> exact .of_same hsuffix rfl rfl

theorem BodyMove.extends (h : BodyMove m n) : m.state.Extends n.state := by
  have hsuffix := h.records.suffix
  have hmodified {s t : State} {b : BodyId} {f : TaskBody → TaskBody} (h : s.history <:+ t.history)
      (hjobs : t.jobs = s.jobs) (hbodies : t.bodies = s.bodies.modify b f)
      (hf : ∀ body : TaskBody, body.GrowsTo (f body)) : s.Extends t := by
    refine .of_bodies h hjobs fun c hc => ?_
    rw [State.body_congr (s := s.modifyBody b f) hbodies, hbodies, Array.size_modify]
    exact ⟨hc, s.growsTo_modifyBody hf c⟩
  -- a body is made at the end, or changed in what may change: the data and what is reported
  cases h with
  | @plan u s t body =>
    refine .of_bodies hsuffix rfl fun b hb => ?_
    rw [State.body_push, if_neg (Nat.ne_of_lt hb)]
    show b < (s.bodies.push body).size ∧ _
    rw [Array.size_push]
    exact ⟨Nat.lt_succ_of_lt hb, .refl _⟩
  | estimate b f hf => exact hmodified hsuffix rfl rfl (growsTo_of_estimate hf)
  | write b f hruns hf => exact hmodified hsuffix rfl rfl (growsTo_of_write hf)
  | free a b =>
    exact hmodified (f := fun body => { body with taken := true }) hsuffix rfl rfl
      fun _ => ⟨rfl, fun _ => rfl⟩
  | freeSkip a b =>
    exact hmodified (f := fun body => { body with taken := true }) hsuffix rfl rfl
      fun _ => ⟨rfl, fun _ => rfl⟩
  | _ => exact .of_same hsuffix rfl rfl

theorem JobMove.extends (h : JobMove m n) : m.state.Extends n.state := by
  have hsuffix := h.records.suffix
  have hmodified {s t : State} {j : JobId} {f : Job → Job} (h : s.history <:+ t.history)
      (hbodies : t.bodies = s.bodies) (hjobs : t.jobs = s.jobs.modify j f)
      (hf : ∀ job : Job, job.GrowsTo (f job)) : s.Extends t := by
    refine .of_jobs h hbodies fun k hk => ?_
    rw [hjobs]
    exact ⟨Nat.lt_of_lt_of_eq hk Array.size_modify.symm, State.growsTo_modifyJob _ hf k⟩
  cases h with
  | make w => exact .of_push hsuffix rfl rfl
  | start j => exact hmodified hsuffix rfl rfl fun _ => ⟨rfl, fun _ => rfl, id⟩
  | finish j w ok => exact hmodified hsuffix rfl rfl fun _ => ⟨rfl, id, fun _ => rfl⟩
  | _ => exact .of_same hsuffix rfl rfl

theorem TaskMove.extends (h : TaskMove m n) : m.state.Extends n.state := by
  have hsuffix := h.records.suffix
  cases h with
  | handOver e => exact .of_push hsuffix rfl rfl
  | _ => exact .of_same hsuffix rfl rfl

/-- Nothing is ever removed. -/
theorem Move.extends (h : Move m n) : m.state.Extends n.state := by
  cases h with
  | asset h => exact h.extends
  | body h => exact h.extends
  | job h => exact h.extends
  | task h => exact h.extends
  | notice h => cases h <;> exact .of_same List.suffix_rfl rfl rfl
  | plain h =>
    have hsuffix := h.records.suffix
    cases h <;> exact .of_same hsuffix rfl rfl

theorem Moves.extends (h : Moves m n) : m.state.Extends n.state := by
  induction h with
  | refl => exact .refl _
  | tail _ hmove ih => exact ih.trans hmove.extends

end Moving

end AssetLoading
