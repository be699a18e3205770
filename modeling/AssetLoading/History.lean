import AssetLoading.Logging
import AssetLoading.Reply

/-! # History

  What happened, as a list of events. Some events are shown to clients: the
  log, and the calls of client code. The others record who took and dropped
  references and what became of tasks, so that laws about whole runs can be
  stated.
-/

namespace AssetLoading

/-- On whose behalf a reference is held. -/
inductive Holder where
  /-- Client code. -/
  | client
  /-- The contents of an asset. -/
  | dependency
  /-- A task, from queueing to its end. -/
  | task
  /-- A load event, until it is delivered. -/
  | notice
deriving DecidableEq, Repr, Inhabited

/-- Something that happened. -/
inductive Event where
  /-- A log line. -/
  | logged (level : Level) (message : String) (fields : List (String × Field))
  /-- An operation of a script was answered. -/
  | answered (op : Op) (reply : Reply)
  /-- A reference was taken. -/
  | took (holder : Holder) (asset : Handle)
  /-- A reference was dropped. -/
  | dropped (holder : Holder) (asset : Handle)
  /-- A reference was taken on an asset that had none left; maybe another live asset
  was addressed by the same id and category by then. -/
  | revived (asset : Handle) (rival : Option Handle)
  /-- The destructor of an asset started. -/
  | destroyed (asset : Handle) (refs : Int) (tag : String) (category : Category) (value : Int)
  /-- An action started. -/
  | acted (body : BodyId) (task : String) (index : Nat) (onGpu : Bool) (data : List Int)
  /-- An action returned. -/
  | actionEnded (body : BodyId) (index : Nat) (succeeded : Bool) (data : List Int)
  /-- The failure hook of a task started. -/
  | failed (body : BodyId) (task : String) (state : LoadState) (data : List Int)
  /-- The data of a task was handed over to be freed. -/
  | freed (body : BodyId) (task : String) (state : LoadState) (data : List Int)
  /-- A hook of a task returned. -/
  | hookEnded (body : BodyId) (data : List Int)
  /-- A load callback started. -/
  | loaded (subscription : Nat) (label : String) (asset : Handle) (assetLabel : Option String)
      (state : LoadState)
  /-- Client code set the load state of an asset, maybe inside a task. -/
  | stateSet (asset : Handle) (state : LoadState) (body : Option BodyId)
  /-- Code handed to the GPU thread started. -/
  | gpuCalled (onGpu : Bool)
  /-- The work of a job started. -/
  | jobStarted (job : JobId) (label : Option String)
  /-- The work of a job returned. -/
  | jobEnded (job : JobId) (success : Bool)
  /-- A task was accepted by the queue, with this data to begin with. -/
  | accepted (id : Nat) (body : BodyId) (asset : Handle) (data : List Int)
  /-- A claimed task began to be advanced. -/
  | stepped (id : Nat) (onGpu : Bool)
  /-- A task was completed. -/
  | completed (id : Nat)
  /-- A task was discarded at shutdown. -/
  | discarded (id : Nat)
deriving Inhabited

end AssetLoading
