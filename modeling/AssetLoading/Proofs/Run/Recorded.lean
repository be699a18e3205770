import AssetLoading.Proofs.Run.Move

/-! # What moves record

  Each group of moves adds events of its own kind to the history and nothing
  else. A law about the history is proved by looking at the groups that record
  events it speaks of.
-/

namespace AssetLoading

/-! ### What events speak of -/

/-- What an event speaks of. -/
inductive Subject where
  /-- References, and the end of assets. -/
  | asset
  /-- The code of a task. -/
  | body
  /-- Jobs. -/
  | job
  /-- How far a task has come. -/
  | task
  /-- Anything else. -/
  | other
deriving DecidableEq

/-- What an event speaks of. -/
def Event.subject : Event → Subject
  | took .. | dropped .. | revived .. | destroyed .. => .asset
  | acted .. | actionEnded .. | failed .. | freed .. | hookEnded .. => .body
  | jobStarted .. | jobEnded .. => .job
  | accepted .. | stepped .. | completed .. | discarded .. => .task
  | logged .. | answered .. | loaded .. | stateSet .. | gpuCalled .. => .other

theorem Event.IsNote.subject_eq {e : Event} (he : e.IsNote) : e.subject = .other := by
  cases e <;> first | rfl | exact he.elim

/-! ### What is added to the history -/

/-- Only events that speak of one subject are added to the history. -/
def Records (subject : Subject) (m n : Moment) : Prop :=
  ∃ new, (∀ e ∈ new, e.subject = subject) ∧ n.state.history = new ++ m.state.history

section Recording

variable {subject : Subject} {m n : Moment}

theorem Records.none (h : n.state.history = m.state.history) : Records subject m n :=
  ⟨[], by simp, h⟩

theorem Records.one {e : Event} (h : n.state.history = e :: m.state.history)
    (he : e.subject = subject) : Records subject m n := by
  refine ⟨[e], fun d hd => ?_, h⟩
  rw [List.mem_singleton.1 hd]
  exact he

theorem Records.two {d e : Event} (h : n.state.history = d :: e :: m.state.history)
    (hd : d.subject = subject) (he : e.subject = subject) : Records subject m n := by
  refine ⟨[d, e], fun c hc => ?_, h⟩
  rcases List.mem_cons.1 hc with rfl | hc
  · exact hd
  · rw [List.mem_singleton.1 hc]
    exact he

theorem AssetMove.records (h : AssetMove m n) : Records .asset m n := by
  cases h with
  | take => exact .one rfl rfl
  | revive => exact .two rfl rfl rfl
  | drop => exact .one rfl rfl
  | destructor => exact .one rfl rfl
  | insert => exact .one rfl rfl
  | _ => exact .none rfl

theorem BodyMove.records (h : BodyMove m n) : Records .body m n := by
  cases h with
  | act => exact .one rfl rfl
  | actEnd => exact .one rfl rfl
  | fail => exact .one rfl rfl
  | failEnd => exact .one rfl rfl
  | free => exact .one rfl rfl
  | freeEnd => exact .one rfl rfl
  | _ => exact .none rfl

theorem JobMove.records (h : JobMove m n) : Records .job m n := by
  cases h with
  | start => exact .one rfl rfl
  | finish => exact .one rfl rfl
  | _ => exact .none rfl

theorem TaskMove.records (h : TaskMove m n) : Records .task m n := by
  cases h with
  | accept => exact .one rfl rfl
  | step => exact .one rfl rfl
  | complete => exact .one rfl rfl
  | discard => exact .one rfl rfl
  | _ => exact .none rfl

theorem NoticeMove.history_eq (h : NoticeMove m n) : n.state.history = m.state.history := by
  cases h <;> rfl

theorem PlainMove.records (h : PlainMove m n) : Records .other m n := by
  cases h with
  | note e he => exact .one rfl he.subject_eq
  | answer op reply => exact .one rfl rfl
  | _ => exact .none rfl

/-- A new event tells nothing about what happened before another one. -/
theorem suffix_of_suffix_cons {d e : Event} {past old : List Event} (h : e :: past <:+ d :: old)
    (hne : e ≠ d) : e :: past <:+ old := by
  rcases List.suffix_cons_iff.1 h with heq | h
  · exact absurd (List.cons.inj heq).1 hne
  · exact h

/-- Nor do several. -/
theorem suffix_of_suffix_append {e : Event} {past new old : List Event}
    (h : e :: past <:+ new ++ old) (hnew : e ∉ new) : e :: past <:+ old := by
  induction new with
  | nil => exact h
  | cons d new ih =>
    rw [List.mem_cons, not_or] at hnew
    exact ih (suffix_of_suffix_cons h hnew.1) hnew.2

/-- What was in the history is still in it. -/
theorem Records.mem (h : Records subject m n) {e : Event} (he : e ∈ m.state.history) :
    e ∈ n.state.history := by
  obtain ⟨new, -, hhistory⟩ := h
  rw [hhistory]
  exact List.mem_append_right new he

/-- An event that speaks of something else is no new one. -/
theorem Records.mem_of_subject_ne (h : Records subject m n) {e : Event} (he : e ∈ n.state.history)
    (hsubject : e.subject ≠ subject) : e ∈ m.state.history := by
  obtain ⟨new, hnew, hhistory⟩ := h
  rw [hhistory] at he
  rcases List.mem_append.1 he with he | he
  · exact absurd (hnew e he) hsubject
  · exact he

/-- The past of an event that speaks of something else has not changed. -/
theorem Records.suffix_of_subject_ne (h : Records subject m n) {e : Event} {past : List Event}
    (he : e :: past <:+ n.state.history) (hsubject : e.subject ≠ subject) :
    e :: past <:+ m.state.history := by
  obtain ⟨new, hnew, hhistory⟩ := h
  rw [hhistory] at he
  exact suffix_of_suffix_append he fun hmem => hsubject (hnew e hmem)

end Recording

end AssetLoading
