import AssetLoading.Proofs.Run.Recorded

/-! # The story of a task

  What happens with the callbacks of a task, read off the history: its actions
  start and return, and so do its two hooks. The whole story of a task is the
  first actions up to one that fails, or all of them, then the failure hook if
  one has failed, and in the end the hook that frees the data.

  A *phase* says how much of the story has been told. The phases, and not the
  stories, are what a run keeps track of: which story a task belongs to is open
  until an action fails or none is left.
-/

namespace AssetLoading

/-! ### Beats -/

/-- Something that happens with the callbacks of one task. -/
inductive Beat where
  /-- An action starts. -/
  | acts (index : Nat)
  /-- The action returns. -/
  | ends (index : Nat) (succeeded : Bool)
  /-- The failure hook starts. -/
  | fails
  /-- The hook starts that frees the data. -/
  | frees
  /-- A hook returns. -/
  | returns
deriving DecidableEq, Repr, Inhabited

/-- `true` once the callback has returned. -/
def Beat.isReturn : Beat → Bool
  | ends _ _ | returns => true
  | acts _ | fails | frees => false

/-- What an event tells about the callbacks of a task. -/
def Event.beat? (b : BodyId) : Event → Option Beat
  | acted c _ i _ _ => if c = b then some (.acts i) else none
  | actionEnded c i ok _ => if c = b then some (.ends i ok) else none
  | failed c _ _ _ => if c = b then some .fails else none
  | freed c _ _ _ => if c = b then some .frees else none
  | hookEnded c _ => if c = b then some .returns else none
  | _ => none

/-- What happened with the callbacks of a task, in order. -/
def told (b : BodyId) (history : List Event) : List Beat :=
  (history.filterMap (Event.beat? b)).reverse

theorem told_cons (b : BodyId) (e : Event) (history : List Event) :
    told b (e :: history) = told b history ++ (e.beat? b).toList := by
  unfold told
  cases he : e.beat? b with
  | none => simp [he]
  | some beat => simp [he]

theorem told_append_of_subject_ne (b : BodyId) {new : List Event} (history : List Event)
    (hnew : ∀ e ∈ new, e.subject ≠ .body) : told b (new ++ history) = told b history := by
  induction new with
  | nil => rfl
  | cons e new ih =>
    have hnone : e.beat? b = none := by
      have he := hnew e List.mem_cons_self
      cases e <;> first | rfl | exact absurd rfl he
    rw [List.cons_append, told_cons, hnone, ih fun d hd => hnew d (List.mem_cons_of_mem e hd)]
    exact List.append_nil _

/-- Only the moves of task bodies tell something. -/
theorem Records.told_eq {subject : Subject} {m n : Moment} (h : Records subject m n)
    (hne : subject ≠ .body) (b : BodyId) : told b n.state.history = told b m.state.history := by
  obtain ⟨new, hnew, hhistory⟩ := h
  rw [hhistory]
  exact told_append_of_subject_ne b _ fun e he => by rw [hnew e he]; exact hne

/-! ### Stories -/

/-- What the code of a task looks like from outside. -/
structure Outline where
  /-- Where each action runs. -/
  affinities : List Affinity
  /-- There is a failure hook. -/
  handles : Bool
  /-- There is a hook that frees the data. -/
  frees : Bool
deriving DecidableEq, Repr, Inhabited

/-- The outline of a task. -/
def TaskBody.outline (body : TaskBody) : Outline where
  affinities := body.actions.map Action.affinity
  handles := body.onFailure.isSome
  frees := body.onFree.isSome

theorem TaskBody.length_affinities (body : TaskBody) :
    body.outline.affinities.length = body.actions.length :=
  List.length_map _

/-- Some actions run, one after the other, and succeed. -/
def succeeding (count : Nat) : List Beat :=
  (List.range count).flatMap fun i => [.acts i, .ends i true]

theorem succeeding_succ (i : Nat) : succeeding (i + 1) = succeeding i ++ [.acts i, .ends i true] := by
  simp [succeeding, List.range_succ]

theorem succeeding_mono {i n : Nat} (h : i ≤ n) : succeeding i <+: succeeding n := by
  induction h with
  | refl => exact List.prefix_rfl
  | step _ ih =>
    rw [succeeding_succ]
    exact ih.trans (List.prefix_append _ _)

namespace Outline

/-- Number of actions. -/
def count (o : Outline) : Nat :=
  o.affinities.length

/-- What follows a failed action. -/
def handling (o : Outline) : List Beat :=
  if o.handles then [.fails, .returns] else []

/-- What happens when the data is freed. -/
def freeing (o : Outline) : List Beat :=
  if o.frees then [.frees, .returns] else []

/-- The whole story of a task, given the first action that fails, if one does. -/
def story (o : Outline) : Option Nat → List Beat
  | none => succeeding o.count ++ o.freeing
  | some i => succeeding i ++ [.acts i, .ends i false] ++ o.handling ++ o.freeing

/-- If an action fails, it is one of the actions. -/
def Allows (o : Outline) (failing : Option Nat) : Prop :=
  ∀ i, failing = some i → i < o.count

theorem allows_none (o : Outline) : o.Allows none := by
  intro i hi
  cases hi

theorem allows_some {o : Outline} {i : Nat} (h : i < o.count) : o.Allows (some i) := by
  intro k hk
  rw [← Option.some.inj hk]
  exact h

end Outline

/-! ### Phases -/

/-- How far a task has come when none of its code runs. -/
inductive Rest where
  /-- So many actions have succeeded. -/
  | ready (count : Nat)
  /-- An action has failed. -/
  | failed (index : Nat)
  /-- An action has failed and the failure hook has returned. -/
  | handled (index : Nat)

/-- How far a task has come. -/
inductive Phase where
  /-- None of its code runs, and its data is not freed. -/
  | rest (r : Rest)
  /-- An action runs. -/
  | acting (index : Nat)
  /-- The failure hook runs. -/
  | failing (index : Nat)
  /-- The hook runs that frees the data. -/
  | freeing (r : Rest)
  /-- That hook has returned. -/
  | freed (r : Rest)

namespace Rest

/-- How far a task has come after an action. -/
def after (i : Nat) : Bool → Rest
  | true => ready (i + 1)
  | false => failed i

/-- What has happened so far. -/
def trace : Rest → List Beat
  | ready i => succeeding i
  | failed i => succeeding i ++ [.acts i, .ends i false]
  | handled i => succeeding i ++ [.acts i, .ends i false] ++ [.fails, .returns]

/-- A task with this outline can come so far. -/
def Of (o : Outline) : Rest → Prop
  | ready i => i ≤ o.count
  | failed i => i < o.count
  | handled i => i < o.count ∧ o.handles = true

/-- Nothing is left to do but to free the data. -/
def IsLast (o : Outline) : Rest → Prop
  | ready i => i = o.count
  | failed _ => o.handles = false
  | handled _ => True

theorem trace_after (i : Nat) (ok : Bool) :
    (after i ok).trace = succeeding i ++ [.acts i] ++ [.ends i ok] := by
  cases ok
  · simp [after, trace]
  · simp [after, trace, succeeding_succ]

theorem of_after {o : Outline} {i : Nat} (h : i < o.count) (ok : Bool) : (after i ok).Of o := by
  cases ok
  · exact h
  · exact h

/-- Wherever a task rests, the last callback has returned. -/
theorem isReturn_of_trace {r : Rest} {beat : Beat} (h : r.trace.getLast? = some beat) :
    beat.isReturn = true := by
  cases r with
  | ready i =>
    cases i with
    | zero => cases h
    | succ i =>
      rw [trace, succeeding_succ] at h
      simp only [List.getLast?_append, List.getLast?_cons_cons, List.getLast?_singleton,
        Option.some_or, Option.some.injEq] at h
      rw [← h]
      rfl
  | failed i =>
    simp only [trace, List.getLast?_append, List.getLast?_cons_cons, List.getLast?_singleton,
      Option.some_or, Option.some.injEq] at h
    rw [← h]
    rfl
  | handled i =>
    simp only [trace, List.getLast?_append, List.getLast?_cons_cons, List.getLast?_singleton,
      Option.some_or, Option.some.injEq] at h
    rw [← h]
    rfl

end Rest

namespace Phase

/-- What has happened so far. -/
def trace : Phase → List Beat
  | rest r => r.trace
  | acting i => succeeding i ++ [.acts i]
  | failing i => (Rest.failed i).trace ++ [.fails]
  | freeing r => r.trace ++ [.frees]
  | freed r => r.trace ++ [.frees, .returns]

/-- A task with this outline can come so far. -/
def Of (o : Outline) : Phase → Prop
  | rest r => r.Of o
  | acting i => i < o.count
  | failing i => i < o.count ∧ o.handles = true
  | freeing r | freed r => r.Of o ∧ o.frees = true

/-- The data is not freed before its time. -/
def IsWhole (o : Outline) : Phase → Prop
  | freeing r | freed r => r.IsLast o
  | rest _ | acting _ | failing _ => True

/-- A callback of the task runs. -/
def IsBusy : Phase → Prop
  | acting _ | failing _ | freeing _ => True
  | rest _ | freed _ => False

/-- While a callback runs, it is what was told last. -/
theorem IsBusy.last {p : Phase} (h : p.IsBusy) :
    ∃ beat, p.trace.getLast? = some beat ∧ beat.isReturn = false := by
  cases p with
  | rest => exact h.elim
  | acting i => exact ⟨.acts i, by simp [trace], rfl⟩
  | failing i => exact ⟨.fails, by simp [trace], rfl⟩
  | freeing r => exact ⟨.frees, by simp [trace], rfl⟩
  | freed => exact h.elim

end Phase

/-! ### Phases and stories -/

section Stories

variable {o : Outline} {r : Rest} {p : Phase}

/-- Once nothing is left to do but to free the data, the story is clear. -/
theorem Rest.IsLast.story_eq (h : r.IsLast o) (hr : r.Of o) :
    ∃ failing, o.Allows failing ∧ o.story failing = r.trace ++ o.freeing := by
  cases r with
  | ready i =>
    have hi : i = o.count := h
    rw [hi]
    exact ⟨none, o.allows_none, rfl⟩
  | failed i =>
    have hhandles : o.handles = false := h
    have hhandling : o.handling = [] := by simp [Outline.handling, hhandles]
    refine ⟨some i, Outline.allows_some hr, ?_⟩
    rw [Outline.story, hhandling, List.append_nil]
    rfl
  | handled i =>
    have hhandling : o.handling = [.fails, .returns] := by simp [Outline.handling, hr.2]
    refine ⟨some i, Outline.allows_some hr.1, ?_⟩
    rw [Outline.story, hhandling]
    rfl

/-- Where no code of a task runs and its data is not freed, some story goes on. -/
theorem Rest.Of.prefix_story (hr : r.Of o) :
    ∃ failing, o.Allows failing ∧ r.trace <+: o.story failing := by
  cases r with
  | ready i =>
    exact ⟨none, o.allows_none, (succeeding_mono hr).trans (List.prefix_append _ _)⟩
  | failed i =>
    refine ⟨some i, Outline.allows_some hr, ?_⟩
    exact (List.prefix_append _ o.handling).trans (List.prefix_append _ _)
  | handled i =>
    have hhandling : o.handling = [.fails, .returns] := by simp [Outline.handling, hr.2]
    refine ⟨some i, Outline.allows_some hr.1, ?_⟩
    rw [Outline.story, hhandling]
    exact List.prefix_append _ _

/-- As long as the data is not freed before its time, what has happened is the
beginning of a story. -/
theorem Phase.IsWhole.prefix_story (h : p.IsWhole o) (hp : p.Of o) :
    ∃ failing, o.Allows failing ∧ p.trace <+: o.story failing := by
  -- while the data is freed, the story is clear already
  have hfreeing {r : Rest} {back : List Beat} (hback : back <+: [.frees, .returns])
      (hr : r.IsLast o) (hof : r.Of o ∧ o.frees = true) :
      ∃ failing, o.Allows failing ∧ r.trace ++ back <+: o.story failing := by
    obtain ⟨failing, hallows, hstory⟩ := hr.story_eq hof.1
    have hfree : o.freeing = [.frees, .returns] := by simp [Outline.freeing, hof.2]
    rw [hfree] at hstory
    refine ⟨failing, hallows, ?_⟩
    rw [hstory]
    exact (List.prefix_append_right_inj _).2 hback
  cases p with
  | rest r => exact Rest.Of.prefix_story hp
  | acting i =>
    have hnext := succeeding_mono (Nat.succ_le_of_lt hp)
    rw [succeeding_succ] at hnext
    have hacting : succeeding i ++ [.acts i] <+: succeeding i ++ [.acts i, .ends i true] :=
      (List.prefix_append_right_inj _).2 ⟨[.ends i true], rfl⟩
    exact ⟨none, o.allows_none, (hacting.trans hnext).trans (List.prefix_append _ _)⟩
  | failing i =>
    have hhandling : o.handling = [.fails, .returns] := by simp [Outline.handling, hp.2]
    refine ⟨some i, Outline.allows_some hp.1, ?_⟩
    rw [Outline.story, hhandling]
    refine .trans ?_ (List.prefix_append _ o.freeing)
    exact ⟨[.returns], by simp [Phase.trace, Rest.trace]⟩
  | freeing r => exact hfreeing ⟨[.returns], rfl⟩ h hp
  | freed r => exact hfreeing List.prefix_rfl h hp

end Stories

end AssetLoading
