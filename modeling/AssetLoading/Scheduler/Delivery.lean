import AssetLoading.Registry.References

/-! # Delivering loads

  A task that leaves its asset loaded stages the asset, which holds a
  reference until the load is delivered. A delivery takes up everything that
  is staged and decides all its calls before the first of them runs; the
  references are dropped after the last. Whoever subscribes to an asset that
  is loaded already is called at once, unless a delivery is still to come.
-/

namespace AssetLoading

/-- Change the subscriptions. -/
def modifyNotices (f : Notices → Notices) : Exec Unit :=
  modify fun s => { s with notices := f s.notices }

/-- Stage an asset. -/
def stage (h : Handle) : Exec Unit := do
  addref .notice h
  modifyNotices fun n => { n with staged := n.staged ++ [h] }

section Running

variable (call : Runner)

/-- Call a subscriber. -/
def notify (thread : Thread) (sub : Subscription) : Exec Unit := do
  let s ← get
  record (.loaded sub.id sub.label sub.asset (s.client.labelOf sub.asset) (s.asset sub.asset).state)
  let _ ← call (.script { thread, asset := some sub.asset } sub.code)

/-- Call several subscribers, one after the other. -/
def notifyAll (thread : Thread) : List Subscription → Exec Unit
  | [] => pure ()
  | sub :: subs => do
    notify call thread sub
    notifyAll thread subs

/-- Subscribe to the loads of an asset; the number of the subscription. -/
def subscribe (thread : Thread) (h : Handle) (label : String) (code : Script) : Exec Nat := do
  let (sub, notices) := (← get).notices.subscribe h label code
  modifyNotices fun _ => notices
  let s ← get
  -- a staged load is delivered to this subscription as well, so it is not called twice
  if (s.asset h).state.isLoaded && !s.notices.staged.contains h then
    notify call thread sub
  pure sub.id

/-- Remove one subscription to an asset, or all; how many. -/
def unsubscribe (h : Handle) (id : Option Nat) : Exec Nat := do
  let (count, notices) := (← get).notices.unsubscribe h id
  modifyNotices fun _ => notices
  pure count

/-- Deliver every staged load; the number of calls. -/
def deliver (thread : Thread) : Exec Nat := do
  let s ← get
  let staged := s.notices.staged
  let notices := s.notices.prune fun sub => !(s.asset sub.asset).destroyed
  let calls := notices.calls staged
  -- what is staged by the calls is left to the next delivery
  modifyNotices fun _ => { notices with staged := [] }
  notifyAll call thread calls
  releaseAll call { thread } .notice staged
  pure calls.length

/-- Drop every subscription and every staged load. -/
def clearNotices (thread : Thread) : Exec Unit := do
  let staged := (← get).notices.staged
  modifyNotices fun n => { n with subscriptions := [], staged := [] }
  releaseAll call { thread } .notice staged

end Running

end AssetLoading
