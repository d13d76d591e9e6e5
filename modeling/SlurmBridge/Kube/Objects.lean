/- source: internal/wellknown, internal/utils/slurmjobir/workload_api.go
   digest: The Kubernetes objects the bridge reads and writes, with the fields it uses. -/

import Mathlib.Data.Finmap
import Mathlib.Data.Prod.Lex
import SlurmBridge.Foundation.Text

set_option autoImplicit false

namespace SlurmBridge.Kube.Objects

open Foundation.Text (Segment)

/-- Labels and annotations.  Equality of two maps does not depend on their order. -/
abbrev StringMap := Finmap (fun _ : String => String)

/-- Reading a missing key gives the empty string. -/
def StringMap.at (m : StringMap) (key : String) : String := (m.lookup key).getD ""

@[simp] theorem StringMap.at_insert (m : StringMap) (key value : String) :
    StringMap.at (m.insert key value) key = value := by
  simp [StringMap.at, Finmap.lookup_insert]

def labelExternalJobId : String := "scheduler.slinky.slurm.net/slurm-jobid"
def labelExternalHetJobId : String := "scheduler.slinky.slurm.net/slurm-het-jobid"
def labelExternalHetJobOffset : String := "scheduler.slinky.slurm.net/slurm-het-job-offset"
def annotationExternalJobNode : String := "slinky.slurm.net/slurm-node"
def finalizerScheduler : String := "scheduler.slinky.slurm.net/finalizer"
def schedulingGateRegistration : String := "slurm.slinky.slurm.net/registration"

def coschedulingPodGroupLabel : String := "scheduling.x-k8s.io/pod-group"

/-- Labels and the annotation that the LeaderWorkerSet controller puts on its Pods. -/
def lwsGroupUniqueHashLabelKey : String := "leaderworkerset.sigs.k8s.io/group-key"
def lwsWorkerIndexLabelKey : String := "leaderworkerset.sigs.k8s.io/worker-index"
def lwsSetNameLabelKey : String := "leaderworkerset.sigs.k8s.io/name"
def lwsGroupIndexLabelKey : String := "leaderworkerset.sigs.k8s.io/group-index"
def lwsSizeAnnotationKey : String := "leaderworkerset.sigs.k8s.io/size"

structure TypeMeta where
  group : String
  version : String
  kind : String
  deriving DecidableEq, Repr

structure OwnerReference where
  typeMeta : TypeMeta
  name : String
  uid : String
  controller : Bool
  deriving DecidableEq, Repr

structure PartialObjectMetadata where
  typeMeta : TypeMeta
  ns : String
  name : String
  uid : String
  ownerReferences : List OwnerReference
  deriving DecidableEq, Repr

def PartialObjectMetadata.empty : PartialObjectMetadata :=
  ⟨⟨"", "", ""⟩, "", "", "", []⟩

inductive PodPhase
  | pending | running | succeeded | failed | unknown
  deriving DecidableEq, Repr

/-- A Pod.  Kubernetes admits neither slashes nor commas in namespaces, names and UIDs. -/
structure Pod where
  ns : Segment
  name : Segment
  uid : Segment
  resourceVersion : String
  labels : StringMap
  annotations : StringMap
  finalizers : List String
  deleting : Bool
  ownerReferences : List OwnerReference
  schedulerName : String
  nodeName : String
  schedulingGates : List String
  /-- The Pod group named by the scheduling group, if there is a scheduling group. -/
  schedulingGroup : Option (Option String)
  phase : PodPhase
  extendedResourceClaim : Option String
  deriving DecidableEq

/-- A Pod that waits for a scheduler and has nothing else set. -/
def Pod.waiting (ns name uid : Segment) (schedulerName : String) : Pod where
  ns := ns
  name := name
  uid := uid
  resourceVersion := "1"
  labels := ∅
  annotations := ∅
  finalizers := []
  deleting := false
  ownerReferences := []
  schedulerName := schedulerName
  nodeName := ""
  schedulingGates := []
  schedulingGroup := none
  phase := .pending
  extendedResourceClaim := none

def Pod.label (pod : Pod) (key : String) : String := StringMap.at pod.labels key

def Pod.annotation (pod : Pod) (key : String) : String := StringMap.at pod.annotations key

/-- The namespace/name form in which records before Pod UIDs list a Pod. -/
def Pod.namespacedName (pod : Pod) : String := pod.ns.text ++ "/" ++ pod.name.text

/-- Namespace and name of an object, in the order in which they are compared. -/
abbrev ObjectKey := Lex (String × String)

def objectKey (pod : Pod) : ObjectKey := toLex (pod.ns.text, pod.name.text)

def isPodTerminal (pod : Pod) : Bool := pod.phase == .failed || pod.phase == .succeeded

/-- The common shape of the built-in PodGroup versions. -/
structure PodGroup where
  objectMeta : PartialObjectMetadata
  parentCompositePodGroupName : Option String
  /-- The gang policy's minimum count; absent for a basic group. -/
  gangMinCount : Option Int
  /-- Topology constraints and resource claims, which Slurm cannot honor. -/
  topologyConstraints : Nat
  resourceClaims : Nat
  deriving DecidableEq, Repr

structure CompositeSchedulingPolicy where
  basic : Bool
  gangMinGroupCount : Option Int
  deriving DecidableEq, Repr

structure CompositePodGroup where
  objectMeta : PartialObjectMetadata
  parentCompositePodGroupName : Option String
  schedulingPolicy : CompositeSchedulingPolicy
  priorityClassName : String
  topologyConstraints : Nat
  deriving DecidableEq, Repr

inductive CoschedulingPhase
  | running | unknown | failed | finished | other
  deriving DecidableEq, Repr

structure CoschedulingPodGroup where
  objectMeta : PartialObjectMetadata
  phase : CoschedulingPhase
  minMember : Int
  deriving DecidableEq, Repr

structure LeaderWorkerSet where
  objectMeta : PartialObjectMetadata
  size : Option Int
  leaderReadyStartup : Bool
  restartPolicy : String
  deriving DecidableEq, Repr

/-- A claim on devices, with the owners it names. -/
structure ResourceClaim where
  ns : String
  name : String
  uid : String
  resourceVersion : String
  ownerReferences : List OwnerReference
  deriving DecidableEq, Repr

end SlurmBridge.Kube.Objects
