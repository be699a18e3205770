import AssetLoading.Proofs.Run.Growth

/-! # What goes on with tasks

  Only the moves of bodies, jobs and the task queue have to do with the life of
  tasks. A law about it is proved for these moves; all other moves leave
  everything it speaks of alone.
-/

namespace AssetLoading

/-- Activities that lead a task through its life. -/
def Activity.ofTasks : Activity → Bool
  | claimed _ | stepping _ _ | concluding _ _ | failing _ | ending _ | ended _ | planned _
  | refused _ | drained _ | discarding _ | discarded _ | acting _ _ _ | freeing _ _ | running _ _
  | ran _ _ _ => true
  | performing _ | draining _ | holding _ _ | releasing _ | flushing _ | destroying _
  | within _ => false

/-- What is under way with tasks. -/
def Moment.taskWork (m : Moment) : List Activity :=
  m.underWay.filter Activity.ofTasks

/-- Tasks, their bodies and jobs, and what is under way with them are the same. -/
structure Moment.SameWork (m n : Moment) : Prop where
  work : n.taskWork = m.taskWork
  pending : n.state.queue.pending = m.state.queue.pending
  lastId : n.state.queue.lastId = m.state.queue.lastId
  claims : n.state.client.claims = m.state.client.claims
  bodies : n.state.bodies = m.state.bodies
  jobs : n.state.jobs.jobs = m.state.jobs.jobs
  records : ∃ subject, subject ≠ .body ∧ subject ≠ .task ∧ Records subject m n

section Same

variable {m n : Moment}

theorem Moment.SameWork.body (h : m.SameWork n) (b : BodyId) :
    n.state.body b = m.state.body b :=
  State.body_congr h.bodies b

theorem Moment.SameWork.told (h : m.SameWork n) (b : BodyId) :
    told b n.state.history = told b m.state.history := by
  obtain ⟨subject, hbody, -, hrecords⟩ := h.records
  exact hrecords.told_eq hbody b

theorem Moment.SameWork.extends (h : m.SameWork n) : m.state.Extends n.state := by
  obtain ⟨subject, -, -, hrecords⟩ := h.records
  exact .of_same hrecords.suffix h.bodies h.jobs

theorem Moment.SameWork.mem_work (h : m.SameWork n) {a : Activity} (ha : a.ofTasks = true) :
    a ∈ n.underWay ↔ a ∈ m.underWay := by
  have hwork := congrArg (a ∈ ·) h.work
  simpa [Moment.taskWork, ha] using hwork

/-- What is read off the activities of tasks is the same. -/
theorem Moment.SameWork.flatMap_eq (h : m.SameWork n) {β : Type} {f : Activity → List β}
    (hf : ∀ a, a.ofTasks = false → f a = []) : n.underWay.flatMap f = m.underWay.flatMap f := by
  have hkept (u : List Activity) : u.flatMap f = (u.filter Activity.ofTasks).flatMap f := by
    induction u with
    | nil => rfl
    | cons a u ih =>
      cases ha : a.ofTasks with
      | true => rw [List.filter_cons_of_pos ha, List.flatMap_cons, List.flatMap_cons, ih]
      | false => rw [List.filter_cons_of_neg (by simp [ha]), List.flatMap_cons, hf a ha, ih]; rfl
  have hwork : n.underWay.filter Activity.ofTasks = m.underWay.filter Activity.ofTasks := h.work
  rw [hkept, hkept m.underWay, hwork]

theorem filter_ofTasks_gained (holder : Holder) (h : Handle) (u : List Activity) :
    (gained holder h u).filter Activity.ofTasks = u.filter Activity.ofTasks := by
  cases holder <;> rfl

theorem Picks.filter_ofTasks {j : JobId} {u v : List Activity} (h : Picks j u v) :
    v.filter Activity.ofTasks = u.filter Activity.ofTasks := by
  cases h <;> rfl

theorem AssetMove.sameWork (h : AssetMove m n) : m.SameWork n := by
  have hrecords : ∃ subject, subject ≠ .body ∧ subject ≠ .task ∧ Records subject m n :=
    ⟨.asset, by decide, by decide, h.records⟩
  cases h with
  | take holder h => exact ⟨filter_ofTasks_gained holder h _, rfl, rfl, rfl, rfl, rfl, hrecords⟩
  | revive holder h => exact ⟨filter_ofTasks_gained holder h _, rfl, rfl, rfl, rfl, rfl, hrecords⟩
  | drop holder h =>
    exact ⟨(filter_ofTasks_gained holder h _).symm, rfl, rfl, rfl, rfl, rfl, hrecords⟩
  | _ => exact ⟨rfl, rfl, rfl, rfl, rfl, rfl, hrecords⟩

theorem NoticeMove.sameWork (h : NoticeMove m n) : m.SameWork n := by
  have hrecords : ∃ subject, subject ≠ .body ∧ subject ≠ .task ∧ Records subject m n :=
    ⟨.other, by decide, by decide, .none h.history_eq⟩
  cases h <;> exact ⟨rfl, rfl, rfl, rfl, rfl, rfl, hrecords⟩

theorem PlainMove.sameWork (h : PlainMove m n) : m.SameWork n := by
  have hrecords : ∃ subject, subject ≠ .body ∧ subject ≠ .task ∧ Records subject m n :=
    ⟨.other, by decide, by decide, h.records⟩
  cases h with
  | client c hc => exact ⟨rfl, rfl, rfl, hc, rfl, rfl, hrecords⟩
  | _ => exact ⟨rfl, rfl, rfl, rfl, rfl, rfl, hrecords⟩

/-- Jobs that are submitted, drained or found started leave tasks alone. -/
theorem JobMove.sameWork (h : JobMove m n) (htask : n.taskWork = m.taskWork)
    (hjobs : n.state.jobs.jobs = m.state.jobs.jobs) : m.SameWork n := by
  have hrecords : ∃ subject, subject ≠ .body ∧ subject ≠ .task ∧ Records subject m n :=
    ⟨.job, by decide, by decide, h.records⟩
  cases h <;> exact ⟨htask, rfl, rfl, rfl, rfl, hjobs, hrecords⟩

/-- A move is one of bodies, jobs or tasks, or leaves the life of tasks alone. -/
theorem Move.work_or_same (h : Move m n) :
    (BodyMove m n ∨ JobMove m n ∨ TaskMove m n) ∨ m.SameWork n := by
  cases h with
  | asset h => exact .inr h.sameWork
  | body h => exact .inl (.inl h)
  | job h => exact .inl (.inr (.inl h))
  | task h => exact .inl (.inr (.inr h))
  | notice h => exact .inr h.sameWork
  | plain h => exact .inr h.sameWork

end Same

end AssetLoading
