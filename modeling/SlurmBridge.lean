import SlurmBridge.Registration.DuplicateOverlap
import SlurmBridge.Registration.LookupRoundTrip
import SlurmBridge.Registration.SubmissionOwner
import SlurmBridge.Registration.Publication
import SlurmBridge.Node.RegistrationFixpoint
import SlurmBridge.Node.HybridTopology
import SlurmBridge.Node.Requeue
import SlurmBridge.Node.AdminDrain
import SlurmBridge.Node.DeviceHolds
import SlurmBridge.Node.IndexRoundTrip
import SlurmBridge.Node.FeatureUpdates
import SlurmBridge.Slurm.ComponentMatch
import SlurmBridge.Registration.MetadataRepair
import SlurmBridge.Scheduler.CompositeQuorum
import SlurmBridge.Scheduler.ClaimRecovery
import SlurmBridge.Scheduler.NativeState
import SlurmBridge.Scheduler.PlacementRuns
import SlurmBridge.Scheduler.UpdateMemo
import SlurmBridge.JobIR.Owners
import SlurmBridge.Inventory.CPUGenerations
import SlurmBridge.Node.SliceIndex
import SlurmBridge.Inventory.SocketLayout
import SlurmBridge.Inventory.SMTPairing
import SlurmBridge.JobIR.Deadline
import SlurmBridge.Admission.Pods
import SlurmBridge.Inventory.BitmapText
import SlurmBridge.Scheduler.RequestNames
