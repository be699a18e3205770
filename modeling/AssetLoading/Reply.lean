import AssetLoading.Asset
import AssetLoading.Failure
import AssetLoading.Queue.Task
import AssetLoading.Threads

/-! # Replies

  What an operation answers.
-/

namespace AssetLoading

/-- Whether a lookup found an asset or made one. -/
inductive Lookup where
  | found
  | created
deriving DecidableEq, Repr, Inhabited

/-- Everything that is to be said about an asset. -/
structure AssetInfo where
  /-- The asset. -/
  asset : Asset
  /-- Its label in the client's table. -/
  label : Option String
deriving Inhabited

/-- A task before it is queued. -/
structure TaskSummary where
  /-- Name of the asset. -/
  asset : String
  /-- Its priority. -/
  priority : Int32
  /-- Its cost estimate. -/
  complexity : Int32
  /-- Number of actions. -/
  actions : Nat
  /-- Its ordering key. -/
  sort : Int64
deriving Repr, Inhabited

/-- An operation's answer. -/
inductive Reply where
  /-- Nothing to tell. -/
  | nothing
  /-- A truth value. -/
  | flag (value : Bool)
  /-- A number. -/
  | number (value : Int)
  /-- A text. -/
  | text (value : String)
  /-- Found or created. -/
  | lookup (value : Lookup)
  /-- An asset's label and reference count. -/
  | located (label : Option String) (refs : Int)
  /-- Label, name and reference count of several assets. -/
  | assets (entries : List (Option String × String × Int))
  /-- An asset in full. -/
  | info (value : AssetInfo)
  /-- A task. -/
  | task (value : TaskSummary)
  /-- A task in the queue. -/
  | entry (value : Entry)
  /-- Waiting tasks, each with whether it can make progress. -/
  | entries (values : List (Entry × Bool))
  /-- Settings. -/
  | settings (value : Settings)
  /-- Several texts. -/
  | texts (values : List String)
  /-- Data of a task. -/
  | data (values : List Int)
  /-- Bytes of a file. -/
  | bytes (value : List UInt8)
  /-- Text of a file. -/
  | fileText (value : String)
  /-- A registry that is about to be dropped: whether its code ran to the end,
  its assets and those waiting for destruction. -/
  | leftover (ran : Bool) (count waiting : Nat)
  /-- A failure. -/
  | failed (failure : Failure)
  /-- A label that stands for nothing. -/
  | unknownAsset
  | unknownSubscription
  | unknownClaim
deriving Inhabited

/-- `true` for the answers that stop a script which insists on the operation. -/
def Reply.isFailure : Reply → Bool
  | nothing | flag false | failed _ | unknownAsset | unknownSubscription | unknownClaim => true
  | _ => false

end AssetLoading
