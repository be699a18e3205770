import AssetLoading.Proofs.Run.Lasting
import AssetLoading.Proofs.Shutdown.Phases
import AssetLoading.Proofs.Tasks.Custody

/-! # What the workers leave

  A worker that has a task in hand when the scheduler is closed advances it once more
  and gives it back, or brings it to its end, before it stops. So once all of them have
  stopped, no task is claimed, if none was before: what is left waits in the queue.
  Only client code that claims a task of its own in the meantime, which clients do to
  try the queue out, keeps one.
-/

namespace AssetLoading

/-- Client code that claims a task of its own has come to its end. -/
def Event.claims : Event → Bool
  | .answered (.claim _ _) _ => true
  | _ => false

/-- Every claimed task is in the hands of running code, and the client has none. -/
structure Moment.AllInHand (m : Moment) : Prop where
  claims : m.state.client.claims = []
  active : m.state.queue.active.Perm (m.underWay.filterMap Activity.inHand)

namespace Moment.AllInHand

variable {m n : Moment}

theorem sameTasks (h : m.AllInHand) (hmn : m.SameTasks n) : n.AllInHand := by
  refine ⟨hmn.claims.trans h.claims, ?_⟩
  rw [hmn.active, hmn.inHand]
  exact h.active

/-- A task that was in hand goes back to the queue, or comes to its end. -/
theorem letGo (h : m.AllInHand) (hcustody : Custody m) {c : Claimed}
    (hclaims : n.state.client.claims = m.state.client.claims)
    (hhands : m.underWay.filterMap Activity.inHand = c :: n.underWay.filterMap Activity.inHand)
    (hactive : n.state.queue.active = TaskQueue.without m.state.queue.active c.id) : n.AllInHand := by
  refine ⟨hclaims.trans h.claims, ?_⟩
  have hmem : c ∈ m.hands := List.mem_append_right _ (hhands ▸ List.mem_cons_self)
  have hrest := (hcustody.perm_without hmem).symm.trans h.active
  rw [hhands] at hrest
  rw [hactive]
  exact hrest.cons_inv

/-- Only an operation of the client takes a claimed task out of the hands of the code
that claimed it. -/
theorem taskMove (h : m.AllInHand) (hcustody : Custody m) (hmove : TaskMove m n) :
    n.AllInHand ∨ MayShelve n.underWay := by
  cases hmove with
  | acquire e queue hq =>
    obtain ⟨front, back, -, -, -, rfl⟩ := TaskQueue.acquire_eq_some hq
    exact .inl ⟨h.claims, h.active.cons e.claim⟩
  | shelve e label hu => exact .inr hu
  -- the client has no claim that could be taken from under a label
  | unshelve e label he =>
    rw [h.claims] at he
    cases he
  | forget => exact .inl ⟨rfl, h.active⟩
  | @exchange u s es e =>
    have hperm := (perm_exchange es e u).filterMap Activity.inHand
    exact .inl ⟨h.claims, h.active.trans hperm.symm⟩
  | handOver e | wait e | proceed e | complete e =>
    exact .inl (h.letGo hcustody (c := e.claim) rfl rfl rfl)
  | _ => exact .inl ⟨h.claims, h.active⟩

theorem move (h : m.AllInHand) (hcustody : Custody m) (hmove : Move m n) :
    n.AllInHand ∨ MayShelve n.underWay := by
  cases hmove with
  | asset hmove => exact .inl (h.sameTasks hmove.sameTasks)
  | body hmove => exact .inl (h.sameTasks hmove.sameTasks)
  | job hmove => exact .inl (h.sameTasks hmove.sameTasks)
  | task hmove => exact h.taskMove hcustody hmove
  | notice hmove => exact .inl (h.sameTasks hmove.sameTasks)
  | plain hmove => exact .inl (h.sameTasks hmove.sameTasks)

end Moment.AllInHand

/-- A scheduler that is closed stays so. -/
theorem Move.closed {m n : Moment} (h : Move m n) (hm : m.state.closed = true) :
    n.state.closed = true := by
  cases h with
  | asset h => cases h <;> exact hm
  | body h => cases h <;> exact hm
  | job h => cases h <;> exact hm
  | task h => cases h <;> exact hm
  | notice h => cases h <;> exact hm
  | plain h =>
    cases h with
    | close => rfl
    | _ => exact hm

namespace ShutdownPhases

variable {fuel : Nat} {s t : State} (phases : ShutdownPhases (run fuel) s t)

include phases

/-- When the workers have stopped, the scheduler is closed. -/
theorem closed_joined : phases.joined.closed = true := by
  have hjoin := (leads_joinWorkers (run_isTraced fuel) [] s.turnsLeft phases.held).strides
    phases.joins []
  have hshut : phases.shut.closed = true := by
    obtain ⟨held, queue, -, hclose⟩ := closeDown_run s
    rw [← (EStateM.Result.ok.inj (hclose.symm.trans phases.closes)).2]
    rfl
  exact Moves.preserve (P := fun m => m.state.closed = true) (fun _ _ hmove hm => hmove.closed hm)
    (Strides.moves hjoin) hshut

end ShutdownPhases

end AssetLoading
