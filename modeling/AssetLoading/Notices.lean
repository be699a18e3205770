import AssetLoading.Asset
import AssetLoading.Table

/-! # Load subscriptions

  Subscriptions to the loads of assets, kept per asset in order of
  subscription, and the assets whose load is staged for delivery. No list of
  subscriptions is kept empty.
-/

namespace AssetLoading

/-- A subscription to the loads of an asset. -/
structure Subscription where
  /-- Number of the subscription, in order of arrival. -/
  id : Nat
  /-- The asset. -/
  asset : Handle
  /-- The client's name for it. -/
  label : String
  /-- What to run. -/
  code : Script
deriving Inhabited

/-- Subscriptions and staged loads. -/
structure Notices where
  /-- The subscriptions of each asset, oldest first. -/
  subscriptions : Table Handle (List Subscription) := []
  /-- Assets to notify about, oldest first; each holds a reference. -/
  staged : List Handle := []
  /-- Number of the next subscription. -/
  nextId : Nat := 0
deriving Inhabited

namespace Notices

/-- The subscriptions of one asset. -/
def subscribers (n : Notices) (asset : Handle) : List Subscription :=
  (n.subscriptions.lookup asset).getD []

/-- Replace the subscriptions of one asset; an empty list is dropped. -/
def setSubscribers (n : Notices) (asset : Handle) (list : List Subscription) : Notices :=
  { n with
    subscriptions :=
      if list.isEmpty then n.subscriptions.remove asset else n.subscriptions.put asset list }

theorem subscribers_setSubscribers (n : Notices) (asset other : Handle)
    (list : List Subscription) :
    (n.setSubscribers asset list).subscribers other =
      if other = asset then list else n.subscribers other := by
  by_cases hl : list = [] <;> by_cases ho : other = asset <;>
    simp [subscribers, setSubscribers, Table.lookup_remove, Table.lookup_put, hl, ho]

/-- Add a subscription and hand out its number. -/
def subscribe (n : Notices) (asset : Handle) (label : String) (code : Script) :
    Subscription × Notices :=
  let s : Subscription := ⟨n.nextId, asset, label, code⟩
  (s, { n.setSubscribers asset (n.subscribers asset ++ [s]) with nextId := n.nextId + 1 })

/-- Remove one subscription of an asset, or all of them; also how many. -/
def unsubscribe (n : Notices) (asset : Handle) (id : Option Nat) : Nat × Notices :=
  let list := n.subscribers asset
  let kept :=
    match id with
    | some id => list.filter fun s => s.id ≠ id
    | none => []
  (list.length - kept.length, n.setSubscribers asset kept)

/-- Keep the subscriptions that satisfy a condition. -/
def prune (n : Notices) (keep : Subscription → Bool) : Notices :=
  { n with
    subscriptions :=
      (n.subscriptions.map fun p => (p.1, p.2.filter keep)).filter fun p => !p.2.isEmpty }

/-- The calls due for a list of staged assets: for each, its subscriptions in
order. -/
def calls (n : Notices) (staged : List Handle) : List Subscription :=
  staged.flatMap n.subscribers

end Notices

end AssetLoading
