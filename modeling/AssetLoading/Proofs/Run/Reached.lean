import AssetLoading.Proofs.Run.Scripts
import AssetLoading.Session

/-! # Runs of sessions

  A session starts in a state without assets, tasks and jobs, and every
  operation that is performed on it, by whatever thread and with whatever client
  code behind it, comes to some number of strides, which are made of moves. So a
  law that all moves preserve is a law of every state that a session reaches, and
  it still holds right before an operation comes to an early end. What is never
  seen half done is a law that all strides preserve.
-/

namespace AssetLoading

/-- An operation that is performed on its own, on whatever thread. -/
theorem leads_perform (fuel : Nat) (thread : Thread) (op : Op) :
    Leads [] (op.perform fuel { thread }) [] :=
  leads_execute (run_isTraced fuel) { thread } (Scope.admitted_of_body_eq_none rfl (.inl rfl)) op
    (.inl rfl)

/-- An operation that is answered has returned. -/
theorem perform_of_answered {fuel : Nat} {s t : State} {thread : Thread} {op : Op} {reply : Reply}
    (h : performOn fuel s thread op = (.answered reply, t)) :
    op.perform fuel { thread } s = .ok reply t := by
  unfold performOn EStateM.run at h
  split at h
  next hrun =>
    cases h
    exact hrun
  next => cases h

/-- Performing an operation that is answered comes to strides. -/
theorem strides_of_answered {fuel : Nat} {s t : State} {thread : Thread} {op : Op} {reply : Reply}
    (h : performOn fuel s thread op = (.answered reply, t)) :
    Strides ⟨⟨[], s⟩, []⟩ ⟨⟨[], t⟩, []⟩ :=
  (leads_perform fuel thread op).strides (perform_of_answered h) []

/-- Performing an operation that is answered comes to moves. -/
theorem moves_of_answered {fuel : Nat} {s t : State} {thread : Thread} {op : Op} {reply : Reply}
    (h : performOn fuel s thread op = (.answered reply, t)) : Moves ⟨[], s⟩ ⟨[], t⟩ :=
  (strides_of_answered h).moves

/-- Performing an operation that comes to an early end comes to moves until
then. -/
theorem moves_of_halted {fuel : Nat} {s t : State} {thread : Thread} {op : Op} {reason : Halt}
    (h : performOn fuel s thread op = (.halted reason, t)) :
    ∃ n, Moves ⟨[], s⟩ n ∧ reason.EndsIn n t := by
  unfold performOn EStateM.run at h
  split at h
  next => cases h
  next e t' hrun =>
    cases h
    exact Traced.moves_of_error (leads_perform fuel thread op s []) hrun

/-- The states a session is in between two operations, as long as every operation
is answered. -/
inductive Reached : State → Prop where
  /-- The session starts. -/
  | start (p : Session) : Reached p.start
  /-- An operation is performed, on any thread. -/
  | perform {s t : State} (fuel : Nat) (thread : Thread) (op : Op) (reply : Reply) (hs : Reached s)
      (h : performOn fuel s thread op = (.answered reply, t)) : Reached t
  /-- The client forgets its claims. -/
  | forget {s : State} (hs : Reached s) : Reached { s with client := { s.client with claims := [] } }

/-- A session with everything left to its defaults, which is told each operation. -/
def Session.bare (mode : Mode) : Session where
  mode := mode
  workers := 1
  warnAfter := 1000
  root := none
  threadStem := none
  views := false
  ops := []

/-- The state after some operations, up to the first one that comes to an early end. -/
def State.after (fuel : Nat) (s : State) : List (Thread × Op) → State
  | [] => s
  | (thread, op) :: rest =>
    match performOn fuel s thread op with
    | (.answered _, t) => t.after fuel rest
    | (.halted _, _) => s

/-- The state that code leaves. -/
def State.afterRun {α : Type} (s : State) (x : Exec α) : State :=
  match x s with
  | .ok _ t | .error _ t => t

theorem State.run_of_isOk {α : Type} {s : State} {x : Exec α}
    (h : (match x s with | .ok .. => true | .error .. => false) = true) :
    ∃ a, x s = .ok a (s.afterRun x) := by
  unfold afterRun
  split at h
  next a t hrun => exact ⟨a, hrun ▸ rfl⟩
  next => cases h

theorem Reached.after {s : State} (hs : Reached s) (fuel : Nat) (ops : List (Thread × Op)) :
    Reached (s.after fuel ops) := by
  induction ops generalizing s with
  | nil => exact hs
  | cons first rest ih =>
    unfold State.after
    split
    next reply t hanswered => exact ih (.perform fuel first.1 first.2 reply hs hanswered)
    next => exact hs

/-- Operations that are performed one after the other come to strides. -/
theorem State.strides_after (s : State) (fuel : Nat) (ops : List (Thread × Op)) :
    Strides ⟨⟨[], s⟩, []⟩ ⟨⟨[], s.after fuel ops⟩, []⟩ := by
  induction ops generalizing s with
  | nil => exact .refl
  | cons first rest ih =>
    unfold State.after
    split
    next reply t hanswered => exact (strides_of_answered hanswered).trans (ih t)
    next => exact .refl

theorem Reached.strides {s : State} (h : Reached s) :
    ∃ p : Session, Strides ⟨⟨[], p.start⟩, []⟩ ⟨⟨[], s⟩, []⟩ := by
  induction h with
  | start p => exact ⟨p, .refl⟩
  | perform fuel thread op reply _ hanswered ih =>
    obtain ⟨p, hp⟩ := ih
    exact ⟨p, hp.trans (strides_of_answered hanswered)⟩
  | forget _ ih =>
    obtain ⟨p, hp⟩ := ih
    exact ⟨p, hp.tail (.task (.move .forget ⟨rfl, rfl, nofun, nofun⟩))⟩

theorem Reached.moves {s : State} (h : Reached s) :
    ∃ p : Session, Moves ⟨[], p.start⟩ ⟨[], s⟩ := by
  obtain ⟨p, hp⟩ := h.strides
  exact ⟨p, hp.moves⟩

/-- The states that a session passes through, between operations and in the middle
of them. -/
def Passed (s : State) : Prop :=
  ∃ (p : Session) (u : List Activity), Moves ⟨[], p.start⟩ ⟨u, s⟩

theorem Reached.passed {s : State} (h : Reached s) : Passed s := by
  obtain ⟨p, hp⟩ := h.moves
  exact ⟨p, [], hp⟩

/-- The scenes of a session: whatever client code runs, it is called in one of
them. -/
def Occurs (c : Scene) : Prop :=
  ∃ p : Session, Strides ⟨⟨[], p.start⟩, []⟩ c

theorem Reached.occurs {s : State} (h : Reached s) : Occurs ⟨⟨[], s⟩, []⟩ :=
  h.strides

theorem Occurs.strides {c d : Scene} (h : Occurs c) (hcd : Strides c d) : Occurs d := by
  obtain ⟨p, hp⟩ := h
  exact ⟨p, hp.trans hcd⟩

/-- What holds when a session starts and is preserved by every move holds in every
scene. -/
theorem Occurs.moves_invariant {P : Moment → Prop} (hstart : ∀ p : Session, P ⟨[], p.start⟩)
    (hstep : ∀ m n, Move m n → P m → P n) {c : Scene} (h : Occurs c) : P c.toMoment := by
  obtain ⟨p, hp⟩ := h
  exact hp.moves.preserve hstep (hstart p)

/-- What holds when a session starts and is preserved by every stride from one of its
scenes to another holds in all of them. -/
theorem Occurs.invariant {P : Scene → Prop} (hstart : ∀ p : Session, P ⟨⟨[], p.start⟩, []⟩)
    (hstep : ∀ c d, Occurs c → Stride c d → P c → P d) {c : Scene} (h : Occurs c) : P c := by
  obtain ⟨p, hp⟩ := h
  induction hp with
  | refl => exact hstart p
  | tail hpath hstride ih => exact hstep _ _ ⟨p, hpath⟩ hstride ih

/-- What holds when a session starts and is preserved by every move holds in every
state that a session passes through. -/
theorem Passed.invariant {P : Moment → Prop} (hstart : ∀ p : Session, P ⟨[], p.start⟩)
    (hstep : ∀ m n, Move m n → P m → P n) {s : State} (h : Passed s) : ∃ u, P ⟨u, s⟩ := by
  obtain ⟨p, u, hp⟩ := h
  exact ⟨u, hp.preserve hstep (hstart p)⟩

/-- What holds when a session starts and is preserved by every move holds in
every state that a session reaches. -/
theorem Reached.invariant {P : Moment → Prop} (hstart : ∀ p : Session, P ⟨[], p.start⟩)
    (hstep : ∀ m n, Move m n → P m → P n) {s : State} (h : Reached s) : P ⟨[], s⟩ := by
  obtain ⟨p, hp⟩ := h.moves
  exact hp.preserve hstep (hstart p)

/-- The same holds right before an operation comes to an early end. -/
theorem Reached.invariant_of_halted {P : Moment → Prop} (hstart : ∀ p : Session, P ⟨[], p.start⟩)
    (hstep : ∀ m n, Move m n → P m → P n) {fuel : Nat} {s t : State} {thread : Thread} {op : Op}
    {reason : Halt} (hs : Reached s) (h : performOn fuel s thread op = (.halted reason, t)) :
    ∃ n, P n ∧ reason.EndsIn n t := by
  obtain ⟨n, hn, hend⟩ := moves_of_halted h
  exact ⟨n, hn.preserve hstep (hs.invariant hstart hstep), hend⟩

end AssetLoading
