/- source: internal/utils/slurmjobir, internal/controller/registration/membership.go
   digest: The Kubernetes reads that workload translation and membership discovery issue. -/

import SlurmBridge.Foundation.Interaction
import SlurmBridge.JobIR.IR

set_option autoImplicit false

namespace SlurmBridge.Kube.Reads

open Foundation.Interaction Kube.Objects JobIR.IR

/-- Errors of the Kubernetes API that callers tell apart. -/
inductive KubeError
  | notFound
  | forbidden
  | other (text : String)
  deriving DecidableEq, Repr

/-- Errors that cross function boundaries of the bridge. -/
inductive Err
  | kube (e : KubeError)
  | podGroupNoPods
  | lwsNoPods
  | lwsLeaderMissing
  | ambiguousAllocation (subject : String)
  | slurm (number : Option Int) (text : String)
  | text (message : String)
  deriving DecidableEq, Repr

def Err.isNotFound : Err → Bool
  | .kube .notFound => true
  | _ => false

def KubeError.message : KubeError → String
  | .notFound => "not found"
  | .forbidden => "forbidden"
  | .other text => text

def Err.message : Err → String
  | .kube e => e.message
  | .podGroupNoPods => "no pods for scheduling group found"
  | .lwsNoPods => "no pods for LWS group found"
  | .lwsLeaderMissing => "waiting for the LWS replica group's leader"
  | .ambiguousAllocation subject =>
    "multiple active Slurm allocations" ++ if subject = "" then "" else " for " ++ subject
  | .slurm _ reason => reason
  | .text reason => reason

/-- Read requests to one reader. -/
inductive Query
  | pod (ns name : String)
  /-- Pods with a label value, in one namespace or in all of them. -/
  | podsWithLabel (ns : Option String) (label value : String)
  /-- Pods whose scheduling group names the PodGroup, served from the membership index. -/
  | podGroupMembers (ns group : String)
  | podGroup (ns name : String)
  | podGroups (ns : String)
  | compositePodGroup (ns name : String)
  | compositePodGroups (ns : String)
  | coschedulingPodGroup (ns name : String)
  | leaderWorkerSet (ns name : String)
  | job (ns name : String)
  | jobSet (ns name : String)
  | object (typeMeta : TypeMeta) (ns name : String)
  /-- The Slurm settings that resources, device classes and annotations of the read objects
  give the components of a translated workload, with the requesting Pod's own PodGroup. -/
  | settings (pg : Option PodGroup) (ir : SlurmJobIR)

@[reducible] def Query.Reply : Query → Type
  | .pod _ _ => Except KubeError Pod
  | .podsWithLabel _ _ _ => Except KubeError (List Pod)
  | .podGroupMembers _ _ => Except KubeError (List Pod)
  | .podGroup _ _ => Except KubeError PodGroup
  | .podGroups _ => Except KubeError (List PodGroup)
  | .compositePodGroup _ _ => Except KubeError CompositePodGroup
  | .compositePodGroups _ => Except KubeError (List CompositePodGroup)
  | .coschedulingPodGroup _ _ => Except KubeError CoschedulingPodGroup
  | .leaderWorkerSet _ _ => Except KubeError LeaderWorkerSet
  | .job _ _ => Except KubeError PartialObjectMetadata
  | .jobSet _ _ => Except KubeError PartialObjectMetadata
  | .object _ _ _ => Except KubeError PartialObjectMetadata
  | .settings _ _ => Except Err (List SlurmJobIRJobInfo)

def Query.refuse : (q : Query) → q.Reply
  | .pod _ _ | .podsWithLabel _ _ _ | .podGroupMembers _ _ | .podGroup _ _ | .podGroups _
  | .compositePodGroup _ _ | .compositePodGroups _ | .coschedulingPodGroup _ _
  | .leaderWorkerSet _ _ | .job _ _ | .jobSet _ _ | .object _ _ _ =>
    Except.error (.other "unavailable")
  | .settings _ _ => Except.error (.text "unavailable")

abbrev kubeReads : Interface := ⟨Query, Query.Reply⟩

abbrev ReadProg := Prog kubeReads

def ask (q : Query) : ReadProg q.Reply := Prog.call (I := kubeReads) q

end SlurmBridge.Kube.Reads
