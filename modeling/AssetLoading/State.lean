import AssetLoading.Files.Storage
import AssetLoading.Halt
import AssetLoading.Jobs
import AssetLoading.Notices
import AssetLoading.Queue.TaskQueue
import AssetLoading.Slot.Arena

/-! # State of a run

  Everything that exists while a scheduler runs: all assets, the registries,
  tasks and jobs, subscriptions and files, the client's own tables, and the
  history. Code that runs in a state and comes to an early end leaves the
  state as it was then.
-/

namespace AssetLoading

/-! ### Registries -/

/-- Identity of a registry; the scheduler's own is number zero. -/
abbrev RegistryId := Nat

/-- A registry links assets under slots, keeps those waiting for destruction on the
main thread, and counts the automatic names it has tried. -/
structure Registry where
  /-- The linked assets. -/
  linked : Arena Handle := {}
  /-- Assets released to zero that wait for the main thread, oldest first. -/
  doomed : List Handle := []
  /-- Number of the next automatic name. -/
  nextAuto : UInt64 := 0
deriving Inhabited

/-! ### Where code runs -/

/-- The surroundings of a piece of client code. -/
structure Scope where
  /-- The thread it runs on. -/
  thread : Thread := .main
  /-- The registry its operations use. -/
  registry : RegistryId := 0
  /-- The asset it works for. -/
  asset : Option Handle := none
  /-- The task whose data it can reach. -/
  body : Option BodyId := none
  /-- Priority of the task, inside its actions. -/
  priority : Option Int32 := none
deriving Inhabited

/-- Client code to be run. -/
inductive Callback where
  /-- A script. -/
  | script (scope : Scope) (code : Script)
  /-- The destructor of an asset's contents. -/
  | destructor (scope : Scope) (asset : Handle) (contents : Contents)
deriving Inhabited

/-! ### The client's tables -/

/-- What a client remembers under labels of its own. -/
structure Client where
  /-- Assets. -/
  assets : Table String Handle := []
  /-- Places that hold a reference, or are empty. -/
  holders : Table String (Option Handle) := []
  /-- Subscriptions. -/
  subscriptions : Table String Nat := []
  /-- Claimed tasks. -/
  claims : Table String Entry := []
  /-- Jobs. -/
  jobs : Table String JobId := []
  /-- While set, reference counts are not told: they may change under the
  client's hands. -/
  discreet : Bool := false
deriving Inhabited

/-- The first label, in alphabetical order, of an asset. -/
def Client.labelOf (c : Client) (h : Handle) : Option String :=
  (c.assets.filter fun p => p.2 = h).foldl
    (fun least p =>
      match least with
      | some l => if p.1 < l then some p.1 else some l
      | none => some p.1)
    none

/-! ### The state -/

/-- Everything that exists while a scheduler runs. -/
structure State where
  /-- Every asset ever made. -/
  assets : Array Asset := #[]
  /-- Every registry ever made; the first is the scheduler's. -/
  registries : Array Registry := #[{}]
  /-- Every task body ever made. -/
  bodies : Array TaskBody := #[]
  /-- The task queue. -/
  queue : TaskQueue := {}
  /-- The jobs for the GPU thread. -/
  jobs : JobQueue := {}
  /-- Load subscriptions and staged loads. -/
  notices : Notices := {}
  /-- Files below the asset root. -/
  storage : Storage
  /-- The settings of the scheduler. -/
  settings : Settings
  /-- Number of running worker threads. -/
  workers : Nat := 0
  /-- How the workers will stop. -/
  parting : Parting := {}
  /-- Set by the first shutdown. -/
  closed : Bool := false
  /-- The client's tables. -/
  client : Client := {}
  /-- What happened, the latest first. -/
  history : List Event := []
deriving Inhabited

namespace State

/-- An asset. -/
def asset (s : State) (h : Handle) : Asset :=
  (s.assets[h]?).getD .absent

/-- A registry. -/
def registry (s : State) (r : RegistryId) : Registry :=
  (s.registries[r]?).getD {}

/-- A task body. -/
def body (s : State) (b : BodyId) : TaskBody :=
  (s.bodies[b]?).getD
    { name := "", actions := [], onFailure := none, onFree := none, data := [], taken := true }

/-- Change an asset. -/
def modifyAsset (s : State) (h : Handle) (f : Asset → Asset) : State :=
  { s with assets := s.assets.modify h f }

/-- Change a registry. -/
def modifyRegistry (s : State) (r : RegistryId) (f : Registry → Registry) : State :=
  { s with registries := s.registries.modify r f }

/-- Change a task body. -/
def modifyBody (s : State) (b : BodyId) (f : TaskBody → TaskBody) : State :=
  { s with bodies := s.bodies.modify b f }

/-- Add an event. -/
def record (s : State) (e : Event) : State :=
  { s with history := e :: s.history }

theorem asset_modifyAsset (s : State) (h k : Handle) (f : Asset → Asset) :
    (s.modifyAsset h f).asset k =
      if h = k ∧ k < s.assets.size then f (s.asset k) else s.asset k := by
  simp only [asset, modifyAsset, Array.getElem?_modify]
  by_cases hk : k < s.assets.size <;> by_cases e : h = k <;> simp [hk, e]

theorem registry_modifyRegistry (s : State) (r q : RegistryId) (f : Registry → Registry) :
    (s.modifyRegistry r f).registry q =
      if r = q ∧ q < s.registries.size then f (s.registry q) else s.registry q := by
  simp only [registry, modifyRegistry, Array.getElem?_modify]
  by_cases hq : q < s.registries.size <;> by_cases e : r = q <;> simp [hq, e]

theorem body_modifyBody (s : State) (b c : BodyId) (f : TaskBody → TaskBody) :
    (s.modifyBody b f).body c =
      if b = c ∧ c < s.bodies.size then f (s.body c) else s.body c := by
  simp only [body, modifyBody, Array.getElem?_modify]
  by_cases hc : c < s.bodies.size <;> by_cases e : b = c <;> simp [hc, e]

end State

/-! ### Running in a state -/

/-- Code that reads and changes the state and may come to an end early; what
it changed until then stays changed. -/
abbrev Exec := EStateM Halt State

/-- Code that begins by looking at the state. -/
theorem Exec.get_bind {β : Type} (f : State → Exec β) (s : State) : (get >>= f) s = f s s := rfl

/-- Where code has returned, what follows goes on from there. -/
theorem Exec.bind_of_ok {α β : Type} {x : Exec α} {f : α → Exec β} {s t : State} {a : α}
    (hrun : x s = .ok a t) : (x >>= f) s = f a t := by
  show EStateM.bind x f s = _
  unfold EStateM.bind
  rw [hrun]

theorem Exec.bind_of_error {α β : Type} {x : Exec α} {f : α → Exec β} {s t : State} {e : Halt}
    (hrun : x s = .error e t) : (x >>= f) s = .error e t := by
  show EStateM.bind x f s = _
  unfold EStateM.bind
  rw [hrun]

/-- Something that runs client code and tells whether it ran to the end. -/
abbrev Runner := Callback → Exec Bool

/-- Add an event. -/
def record (e : Event) : Exec Unit :=
  modify (·.record e)

/-- Write a log line. -/
def log (level : Level) (message : String) (fields : List (String × Field)) : Exec Unit :=
  record (.logged level message fields)

/-- An asset. -/
def getAsset (h : Handle) : Exec Asset := do
  return (← get).asset h

/-- Code that begins by looking at an asset. -/
theorem Exec.getAsset_bind {β : Type} (h : Handle) (f : Asset → Exec β) (s : State) :
    (getAsset h >>= f) s = f (s.asset h) s := rfl

/-- Change an asset. -/
def modifyAsset (h : Handle) (f : Asset → Asset) : Exec Unit :=
  modify (·.modifyAsset h f)

/-- Change a registry. -/
def modifyRegistry (r : RegistryId) (f : Registry → Registry) : Exec Unit :=
  modify (·.modifyRegistry r f)

/-- Change a task body. -/
def modifyBody (b : BodyId) (f : TaskBody → TaskBody) : Exec Unit :=
  modify (·.modifyBody b f)

/-- Change the client's tables. -/
def modifyClient (f : Client → Client) : Exec Unit :=
  modify fun s => { s with client := f s.client }

end AssetLoading
