import Miroir.Agent.Command
import Miroir.Agent.Generation
import Miroir.Agent.GroupSnapshot
import Miroir.Agent.GroupSpec
import Miroir.Agent.Kmsg
import Miroir.Agent.Log
import Miroir.Agent.OrphanHold
import Miroir.Agent.Round
import Miroir.Agent.Snapshot
import Miroir.Agent.SnapshotSpec
import Miroir.Agent.Sweep
import Miroir.Agent.SweepSpec
import Miroir.Agent.Writeback
import Miroir.Api
import Miroir.Backend.Loopfile
import Miroir.Backend.LoopfileSpec
import Miroir.Cluster.Cases
import Miroir.Cluster.Dynamic
import Miroir.Cluster.Fresh
import Miroir.Cluster.History
import Miroir.Cluster.Landings
import Miroir.Cluster.Metadata
import Miroir.Cluster.Objects
import Miroir.Cluster.Raised
import Miroir.Cluster.Rounds
import Miroir.Cluster.Standalone
import Miroir.Cluster.State
import Miroir.Cluster.Step
import Miroir.Controller.Conditions
import Miroir.Controller.Edits
import Miroir.Controller.LegalEdits
import Miroir.Controller.Membership
import Miroir.Controller.NodeGroup
import Miroir.Controller.Object
import Miroir.Controller.Removal
import Miroir.Controller.Restore
import Miroir.Controller.RestoreSpec
import Miroir.Controller.Rules
import Miroir.Controller.Topology
import Miroir.Csi.CreateSpec
import Miroir.Csi.CreateVolume
import Miroir.Csi.CriticalSection
import Miroir.Csi.GroupController
import Miroir.Csi.GroupSpec
import Miroir.Csi.Placement
import Miroir.Csi.PlacementSpec
import Miroir.Csi.Provisioner
import Miroir.Csi.World
import Miroir.Data.Fallible
import Miroir.Data.FirstFree
import Miroir.Data.Incarnation
import Miroir.Data.Records
import Miroir.Data.Selection
import Miroir.Data.Text
import Miroir.Drbd.Driver
import Miroir.Drbd.Leg
import Miroir.Drbd.Minor
import Miroir.Drbd.MinorSpec
import Miroir.Drbd.Render
import Miroir.Drbd.Reservation
import Miroir.Growth.Backend
import Miroir.Growth.Order
import Miroir.Growth.Pass
import Miroir.Growth.Spec
import Miroir.Growth.World
import Miroir.Latch.Program
import Miroir.Latch.Spec
import Miroir.Latch.World
import Miroir.Process.Calls
import Miroir.Process.Locks
import Miroir.Process.Program
import Miroir.Process.Run
import Miroir.Process.Versions
import Miroir.Process.Workers
import Miroir.Safety.Barrier
import Miroir.Safety.Birth
import Miroir.Safety.Capacity
import Miroir.Safety.Coordinator
import Miroir.Safety.Discard
import Miroir.Safety.Expansion
import Miroir.Safety.ForcedGeneration
import Miroir.Safety.ForgetPeer
import Miroir.Safety.FrozenFilesystem
import Miroir.Safety.GroupBarrier
import Miroir.Safety.GroupTag
import Miroir.Safety.HonestResize
import Miroir.Safety.Immutable
import Miroir.Safety.JoinSize
import Miroir.Safety.LeakedLegs
import Miroir.Safety.LiveMembers
import Miroir.Safety.LiveMetadata
import Miroir.Safety.LostConditions
import Miroir.Safety.LostLeg
import Miroir.Safety.ManagedNodes
import Miroir.Safety.MetadataTail
import Miroir.Safety.MinorUnique
import Miroir.Safety.Mkfs
import Miroir.Safety.NodeIDs
import Miroir.Safety.OutdatedReports
import Miroir.Safety.Overcommit
import Miroir.Safety.PhaseAging
import Miroir.Safety.Placement
import Miroir.Safety.Ports
import Miroir.Safety.RestoreLayout
import Miroir.Safety.RestoreWinner
import Miroir.Safety.Siblings
import Miroir.Safety.SizeBounds
import Miroir.Safety.SlotFence
import Miroir.Safety.StaleBarriers
import Miroir.Safety.StaysDetached
import Miroir.Safety.StrandedBarrier
import Miroir.Safety.StuckConfirmation
import Miroir.Safety.TieBreakers
import Miroir.Safety.ValidSpecs
import Miroir.Safety.VerifyFindings
import Miroir.Safety.WholeImages
import Miroir.Safety.WriteOrigins
import Miroir.Safety.WritebackTracking
import Miroir.Safety.ZoneSpread
import Miroir.Volume.Changes
import Miroir.Volume.FastPath
import Miroir.Volume.History
import Miroir.Volume.Passes
import Miroir.Volume.Reconcile
import Miroir.Volume.Size
import Miroir.Volume.Spec
import Miroir.Volume.StuckResync
import Miroir.Volume.Verify
import Miroir.Volume.World
