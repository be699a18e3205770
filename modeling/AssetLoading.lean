import AssetLoading.Logging
import AssetLoading.Session
import AssetLoading.Slot.Exercise
import AssetLoading.Proofs.Run.Moment
import AssetLoading.Proofs.Run.Move
import AssetLoading.Proofs.Run.Traced
import AssetLoading.Proofs.Run.Bodies
import AssetLoading.Proofs.Run.Jobs
import AssetLoading.Proofs.Run.Delivery
import AssetLoading.Proofs.Run.Tasks
import AssetLoading.Proofs.Run.Update
import AssetLoading.Proofs.Run.Scripts
import AssetLoading.Proofs.Run.Reached
import AssetLoading.Proofs.Queue.Operations
import AssetLoading.Proofs.Tasks.Custody
import AssetLoading.Proofs.Tasks.Unfinished
import AssetLoading.Proofs.References.Ledger
import AssetLoading.Proofs.References.Balance
import AssetLoading.Proofs.References.Conservation
import AssetLoading.Proofs.References.Lifetime
import AssetLoading.Proofs.Registry.Roster
import AssetLoading.Proofs.Shutdown.Phases
import AssetLoading.Proofs.Shutdown.Remains
import AssetLoading.Proofs.Queue.Order
import AssetLoading.Proofs.Slot.Arena
import AssetLoading.Proofs.Registry.Addresses
import AssetLoading.Proofs.Run.Growth
import AssetLoading.Proofs.Run.TaskWork
import AssetLoading.Proofs.Tasks.Ownership
import AssetLoading.Proofs.Tasks.Consistency
import AssetLoading.Proofs.Tasks.InFlight
import AssetLoading.Proofs.Tasks.Lifecycle
import AssetLoading.Proofs.Queue.Trade
import AssetLoading.Proofs.Tasks.Handover
import AssetLoading.Proofs.Tasks.Stranding
import AssetLoading.Proofs.Tasks.Accounts
import AssetLoading.Proofs.Tasks.Settlement
import AssetLoading.Proofs.Shutdown.Accounting
import AssetLoading.Proofs.Notices.Calls
import AssetLoading.Proofs.Notices.Loads
import AssetLoading.Proofs.Threads.Affinity
import AssetLoading.Proofs.Alone.Course
import AssetLoading.Proofs.Registry.Lookups
import AssetLoading.Proofs.Slot.Keys
import AssetLoading.Proofs.References.Cascade
import AssetLoading.Proofs.References.Upkeep
import AssetLoading.Proofs.Unwinding.Assets
import AssetLoading.Proofs.Unwinding.Tasks
import AssetLoading.Proofs.Unwinding.Scripts
import AssetLoading.Proofs.Unwinding.Stranded
import AssetLoading.Proofs.Unwinding.Claims
import AssetLoading.Proofs.Alone.Actions
import AssetLoading.Proofs.Alone.Agreement
import AssetLoading.Proofs.Relations.Logic
import AssetLoading.Proofs.Relations.Assets
import AssetLoading.Proofs.Relations.Scripts
import AssetLoading.Proofs.Relations.Tasks
import AssetLoading.Proofs.Jobs.Line
import AssetLoading.Proofs.Jobs.Running
import AssetLoading.Proofs.Jobs.Order
import AssetLoading.Proofs.Jobs.Lost
import AssetLoading.Proofs.Tasks.Easing
import AssetLoading.Proofs.Tasks.Waiting
import AssetLoading.Proofs.Queue.Sorting
import AssetLoading.Proofs.Tasks.Quiet
import AssetLoading.Proofs.Tasks.Batch
import AssetLoading.Proofs.References.Demise
import AssetLoading.Proofs.References.Releases
import AssetLoading.Proofs.References.Flushing
import AssetLoading.Proofs.Registry.Links
import AssetLoading.Proofs.Registry.Races
import AssetLoading.Proofs.Notices.Roll
import AssetLoading.Proofs.Notices.Flat
import AssetLoading.Proofs.Tasks.Live
import AssetLoading.Proofs.Tasks.Hooks
import AssetLoading.Proofs.Tasks.Failing
import AssetLoading.Proofs.Identity.Hashing
import AssetLoading.Proofs.Registry.FreeNames
