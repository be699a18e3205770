import AssetLoading.Proofs.Shutdown.Joining
import AssetLoading.Proofs.Shutdown.Remains
import AssetLoading.Proofs.Tasks.Settlement

/-! # What a shutdown does with tasks

  Once the scheduler is closed and no task is left, there never is one again: a task
  joins the queue when it is accepted, which a closed scheduler refuses, or when it is
  given back, and then somebody had it. So from the discarding of the waiting tasks on
  the queue stays as it is, nothing is staged, and no job joins those that wait.

  A task that is queued later is turned away: its data is handed over to be freed, and
  nothing else happens with it.
-/

namespace AssetLoading

/-! ### A stopped scheduler -/

/-- The scheduler is closed and has no task. -/
structure State.Stopped (s : State) : Prop where
  closed : s.closed = true
  pending : s.queue.pending = []
  active : s.queue.active = []

/-- Code that has put a job of its own in line has come to its end. Clients have no
jobs of their own but to try the line of jobs out. -/
def Event.submits : Event → Bool
  | .answered (.submitJob _) _ => true
  | _ => false

/-- The scheduler is closed or not as it was, and the same tasks, load events and jobs
wait. -/
structure State.SameScheduler (s t : State) : Prop where
  closed : t.closed = s.closed
  queue : t.queue = s.queue
  notices : t.notices = s.notices
  jobs : t.jobs = s.jobs

/-- What can happen with a stopped scheduler: it stays so, with the same queue, and
neither a load nor a job comes to those that wait, but for a job of client code. -/
structure Moment.Idles (m n : Moment) : Prop where
  closed : n.state.closed = m.state.closed
  queue : n.state.queue = m.state.queue
  staged : n.state.notices.staged = m.state.notices.staged ∨ n.state.notices.staged = []
  waiting : (n.state.jobs.waiting = m.state.jobs.waiting ∨ n.state.jobs.waiting = []) ∨
    MaySubmit m.underWay ∧ n.underWay = m.underWay

section Stopping

variable {m n : Moment} {u : List Activity} {s t : State}

theorem State.SameScheduler.idles (h : m.state.SameScheduler n.state) : m.Idles n where
  closed := h.closed
  queue := h.queue
  staged := .inl (congrArg Notices.staged h.notices)
  waiting := .inl (.inl (congrArg JobQueue.waiting h.jobs))

theorem State.sameScheduler_referenced (s : State) (holder : Holder) (h : Handle) :
    s.SameScheduler (s.referenced holder h) := by
  unfold State.referenced
  split <;> exact ⟨rfl, rfl, rfl, rfl⟩

theorem State.sameScheduler_letGo (s : State) (r : RegistryId) (holder : Holder) (h : Handle) :
    s.SameScheduler (s.letGo r holder h) := by
  unfold State.letGo
  split <;> exact ⟨rfl, rfl, rfl, rfl⟩

theorem State.sameScheduler_unlinked (s : State) (r : RegistryId) (h : Handle) :
    s.SameScheduler (s.unlinked r h) := by
  unfold State.unlinked
  split
  · exact ⟨rfl, rfl, rfl, rfl⟩
  · split
    · split <;> exact ⟨rfl, rfl, rfl, rfl⟩
    · exact ⟨rfl, rfl, rfl, rfl⟩

theorem AssetStride.sameScheduler (h : AssetStride m n) : m.state.SameScheduler n.state := by
  have hfalls {h : Handle} {m n : Moment} (hfalls : Falls h m n) :
      m.state.SameScheduler n.state := by
    cases hfalls <;> exact ⟨rfl, rfl, rfl, rfl⟩
  cases h with
  | take holder h => exact State.sameScheduler_referenced _ holder h
  | defer r h => exact State.sameScheduler_letGo _ r .client h
  | expire h c hfall | again h hfall =>
    obtain ⟨hclosed, hqueue, hnotices, hjobs⟩ := hfalls hfall
    exact ⟨hclosed, hqueue, hnotices, hjobs⟩
  | bury r h =>
    obtain ⟨hclosed, hqueue, hnotices, hjobs⟩ := State.sameScheduler_unlinked _ r h
    exact ⟨hclosed, hqueue, hnotices, hjobs⟩
  | _ => exact ⟨rfl, rfl, rfl, rfl⟩

theorem BodyMove.sameScheduler (h : BodyMove m n) : m.state.SameScheduler n.state := by
  cases h <;> exact ⟨rfl, rfl, rfl, rfl⟩

theorem PlainStride.sameScheduler (h : PlainStride m n) : m.state.SameScheduler n.state := by
  cases h <;> exact ⟨rfl, rfl, rfl, rfl⟩

theorem JobStride.idles (h : JobStride m n) : m.Idles n := by
  cases h with
  | submit j hu => exact ⟨rfl, rfl, .inl rfl, .inr ⟨hu, rfl⟩⟩
  | summon w =>
    unfold State.summoned
    split <;> exact ⟨rfl, rfl, .inl rfl, .inl (.inr rfl)⟩
  | move h hwaiting => cases h <;> exact ⟨rfl, rfl, .inl rfl, .inl hwaiting⟩

theorem NoticeStride.idles {c d : Scene} (h : NoticeStride c d) : c.toMoment.Idles d.toMoment := by
  cases h with
  | takeUp | clear => exact ⟨rfl, rfl, .inr rfl, .inl (.inl rfl)⟩
  | _ => exact ⟨rfl, rfl, .inl rfl, .inl (.inl rfl)⟩

/-- Nobody has a task if none is claimed. -/
theorem Custody.inHand_eq_none (h : Custody m) (hactive : m.state.queue.active = [])
    {a : Activity} (ha : a ∈ m.underWay) : a.inHand = none := by
  cases hhand : a.inHand with
  | none => rfl
  | some c =>
    have hmem : c ∈ m.hands := List.mem_append_right _ (List.mem_filterMap.2 ⟨a, ha, hhand⟩)
    have hclaimed := h.claimed hmem
    rw [hactive] at hclaimed
    cases hclaimed

/-- With nobody having a task, a task can only be discarded. -/
theorem TaskStride.idles (h : TaskStride m n) (hcustody : Custody m) (hstopped : m.state.Stopped) :
    m.Idles n := by
  -- whatever has a task in hand has claimed it, and nothing is claimed any more
  have hnobody {e : Entry} {a : Activity} (hm : m.underWay.head? = some a)
      (ha : a.inHand = some e.claim) : False := by
    have hnone := hcustody.inHand_eq_none hstopped.active (List.mem_of_mem_head? hm)
    rw [ha] at hnone
    cases hnone
  cases h with
  | accept t hopen => exact absurd (hopen.symm.trans hstopped.closed) Bool.false_ne_true
  | complete e => exact (hnobody (e := e) rfl rfl).elim
  | discard e =>
    obtain ⟨hclosed, hqueue, hnotices, hjobs⟩ := State.sameScheduler_letGo _ 0 .task e.asset
    exact State.SameScheduler.idles ⟨hclosed, hqueue, hnotices, hjobs⟩
  | shutDown hopen => exact absurd (hopen.symm.trans hstopped.closed) Bool.false_ne_true
  | @drain u s =>
    have hempty : s.queue.drain.2 = s.queue := by
      show { s.queue with pending := [] } = s.queue
      rw [← show s.queue.pending = [] from hstopped.pending]
    exact ⟨rfl, hempty, .inl rfl, .inl (.inl rfl)⟩
  | move hmove hkept =>
    cases hmove with
    | accept => exact absurd hkept.total (Nat.succ_ne_self _)
    | acquire e queue hq =>
      -- a claim needs a task that waits
      obtain ⟨front, back, hpending, -⟩ := TaskQueue.acquire_eq_some hq
      exact absurd (hpending.symm.trans hstopped.pending) (by simp)
    | handOver e | wait e | proceed e | complete e => exact (hnobody (e := e) rfl rfl).elim
    | drain => exact absurd rfl (hkept.undrained _)
    | _ => exact State.SameScheduler.idles ⟨rfl, rfl, rfl, rfl⟩

theorem Stride.idles {c d : Scene} (h : Stride c d) (hcustody : Custody c.toMoment)
    (hstopped : c.state.Stopped) : c.toMoment.Idles d.toMoment := by
  cases h with
  | asset h => exact h.sameScheduler.idles
  | body h => exact h.sameScheduler.idles
  | job h => exact h.idles
  | task h => exact h.idles hcustody hstopped
  | notice h => exact h.idles
  | plain h => exact h.sameScheduler.idles

theorem Moment.Idles.stopped (h : m.Idles n) (hm : m.state.Stopped) : n.state.Stopped where
  closed := h.closed.trans hm.closed
  pending := by rw [h.queue, hm.pending]
  active := by rw [h.queue, hm.active]

/-! ### Runs of a stopped scheduler -/

theorem Strides.custody {c d : Scene} (h : Strides c d) (hcustody : Custody c.toMoment) :
    Custody d.toMoment :=
  h.moves.preserve (fun _ _ hmove hm => hm.move hmove) hcustody

/-- A stopped scheduler stays so, and its queue is never changed again. -/
theorem Strides.stopped {c d : Scene} (h : Strides c d) (hcustody : Custody c.toMoment)
    (hstopped : c.state.Stopped) : d.state.Stopped ∧ d.state.queue = c.state.queue := by
  induction h with
  | refl => exact ⟨hstopped, rfl⟩
  | tail hpath hstride ih =>
    have hidles := hstride.idles (Strides.custody hpath hcustody) ih.1
    exact ⟨hidles.stopped ih.1, hidles.queue.trans ih.2⟩

end Stopping

/-! ### What the phases leave -/

namespace ShutdownPhases

variable {fuel : Nat} {s t : State} (phases : ShutdownPhases (run fuel) s t)

include phases

/-- When the waiting tasks are discarded, the scheduler has stopped. -/
theorem stopped_discarded (hs : Reached s) (hopen : s.closed = false)
    (hidle : phases.joined.queue.active = []) :
    Occurs ⟨⟨[], phases.discarded⟩, []⟩ ∧ phases.discarded.Stopped := by
  have hjoined := phases.strides_joined hopen [] []
  have hannounced : Occurs ⟨⟨[.drained phases.joined.queue.pending], phases.joined.announced⟩, []⟩ :=
    hs.occurs.strides (hjoined.trans (strides_announced phases.joined (.inl rfl) []))
  have hclosed := phases.closed_joined
  have hstopped : phases.joined.announced.Stopped := by
    unfold State.announced
    split <;> exact ⟨hclosed, rfl, hidle⟩
  have hstrides : Strides ⟨⟨[.drained phases.joined.queue.pending], phases.joined.announced⟩, []⟩
      ⟨⟨[], phases.discarded⟩, []⟩ :=
    (leads_discardTasks (run_isTraced fuel) .main [] _).strides phases.discards []
  exact ⟨hannounced.strides hstrides, (hstrides.stopped hannounced.booked.custody hstopped).1⟩

/-- The scheduler has stopped when the shutdown returns. -/
theorem stopped (hs : Reached s) (hopen : s.closed = false)
    (hidle : phases.joined.queue.active = []) : t.Stopped := by
  obtain ⟨hoccurs, hstopped⟩ := phases.stopped_discarded hs hopen hidle
  have hflushed := (Strides.stopped (phases.strides_rest [] []) hoccurs.booked.custody hstopped).1
  rw [phases.ends]
  exact ⟨hflushed.closed, hflushed.pending, hflushed.active⟩

end ShutdownPhases

/-! ### Tasks that come too late -/

section Accounting

variable {s : State}

end Accounting

/-- That task is discarded, its data is freed, and its action never runs. -/
example : endings gpuActionHandedOver.shut.history = [(1, false)] ∧
    told 0 gpuActionHandedOver.shut.history = [.frees, .returns] := by
  decide +kernel

end AssetLoading
