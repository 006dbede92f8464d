import LockManager.Cluster
import LockManager.Config.Environment
import LockManager.Namespace.Describe
import LockManager.Session
import LockManager.Wire.Admin
import LockManager.Proofs.MutualExclusion
import LockManager.Proofs.Conversions
import LockManager.Proofs.Waiting
import LockManager.Proofs.Coherence
import LockManager.Proofs.References
import LockManager.Proofs.Namespace.Replays
import LockManager.Proofs.Replays
import LockManager.Proofs.Arbiter.Messages
import LockManager.Proofs.Namespace.Delivery
import LockManager.Proofs.Namespace.Relays
import LockManager.Proofs.HandOver
import LockManager.Proofs.Arbiter.Completions
import LockManager.Proofs.Namespace.Resting
import LockManager.Proofs.Namespace.Operations
import LockManager.Proofs.Mirror
import LockManager.Proofs.Mirror.Exchange
import LockManager.Proofs.Mirror.Steps
import LockManager.Cluster.Scene
import LockManager.Proofs.Mirror.Enqueue
import LockManager.Proofs.Mirror.Mail
import LockManager.Proofs.Cluster
import LockManager.Proofs.Cluster.Coherence
import LockManager.Proofs.BoundedBypass
import LockManager.Proofs.Redelivery
import LockManager.Proofs.Notified
import LockManager.Proofs.Ledger.Turns
import LockManager.Proofs.ArrivalOrder
import LockManager.Proofs.Arbiter.Avoids
import LockManager.Proofs.Arbiter.Asked
import LockManager.Proofs.Namespace.Departing
import LockManager.Proofs.Namespace.Asked
import LockManager.Proofs.Blockers
import LockManager.Proofs.Arbiter.Matches
import LockManager.Proofs.Arbiter.TakeOut
import LockManager.Proofs.Namespace.Sweep
import LockManager.Proofs.Eviction
import LockManager.Proofs.Namespace.Refusals
import LockManager.Proofs.Refusals
import LockManager.Proofs.Control.Command
import LockManager.Proofs.StaleHandles
import LockManager.Proofs.Namespace.Bystanders
import LockManager.Proofs.Peers
import LockManager.Proofs.Wire.RoundTrip
import LockManager.Proofs.Guards
import LockManager.Proofs.Cluster.Pairing
import LockManager.Proofs.SilentEviction
import LockManager.Proofs.GivingWay
import LockManager.Proofs.Resending
import LockManager.Proofs.Shutdown
import LockManager.Proofs.Namespace.Renumbering
import LockManager.Proofs.SplitForm
import LockManager.Proofs.OtherKeys
import LockManager.Proofs.BypassCount
import LockManager.Proofs.Cluster.Failures
import LockManager.Proofs.Unresponsive
import LockManager.Proofs.HandleTable.Representation
import LockManager.Proofs.Histories
