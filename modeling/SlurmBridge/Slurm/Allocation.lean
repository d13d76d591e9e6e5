/- source: internal/utils/slurmjob (allocation.go, allocation_identity.go, allocation_lws.go,
     index.go)
   digest: The index keys of a job record, the identity under which a workload's allocation is
     looked up, and the assignment of the allocation's jobs to the workload's components. -/

import SlurmBridge.Kube.Reads
import SlurmBridge.Slurm.Job

set_option autoImplicit false

namespace SlurmBridge.Slurm.Allocation

open Kube.Objects JobIR.IR Slurm.Ownership Slurm.Job
open Kube.Reads (Err)

/-- The indexes the job informer maintains. -/
inductive JobIndex
  | pod
  | group
  | legacyPod
  deriving DecidableEq, Repr

def jobPodKeys (raw : JobInfo) : List String :=
  match parseIntoExternalJobInfo raw.adminComment with
  | none => []
  | some info => info.pods

def jobGroupKeys (raw : JobInfo) : List String :=
  match parseIntoExternalJobInfo raw.adminComment with
  | none => []
  | some info =>
    info.podGroup.toList.map GroupIdentity.key ++ info.compositePodGroup.toList.map GroupIdentity.key

/-- Only records without group metadata. -/
def jobLegacyPodKeys (raw : JobInfo) : List String :=
  match parseIntoExternalJobInfo raw.adminComment with
  | none => []
  | some info =>
    if info.podGroup.isSome || info.compositePodGroup.isSome then [] else info.pods

def JobIndex.keys : JobIndex → JobInfo → List String
  | .pod => jobPodKeys
  | .group => jobGroupKeys
  | .legacyPod => jobLegacyPodKeys

@[simp] theorem JobIndex.keys_pod : JobIndex.keys .pod = jobPodKeys := rfl

@[simp] theorem JobIndex.keys_group : JobIndex.keys .group = jobGroupKeys := rfl

@[simp] theorem JobIndex.keys_legacyPod : JobIndex.keys .legacyPod = jobLegacyPodKeys := rfl

/-- Where an allocation is looked up.  Without an index there is nothing to look up. -/
structure AllocationIdentity where
  index : Option JobIndex
  key : String
  /-- Pod keys under which records from before group metadata may be found. -/
  legacyPodKeys : List String
  deriving DecidableEq, Repr

def AllocationIdentity.none : AllocationIdentity := ⟨Option.none, "", []⟩

def podAllocationIdentity (pod : Pod) : AllocationIdentity := ⟨some .pod, podKey pod, []⟩

/-- The member of the replica group that was created first. -/
def isLwsLeader (hash : String) (member : Pod) : Bool :=
  hash != "" && member.label lwsGroupUniqueHashLabelKey == hash && member.label lwsWorkerIndexLabelKey == "0"

/-- Without a leader, the surviving workers identify the allocation for cleanup only. -/
def lwsAllocationIdentity (pod : Pod) (ir : SlurmJobIR) : AllocationIdentity × Option Err :=
  let hash := pod.label lwsGroupUniqueHashLabelKey
  match ir.allPods.find? (isLwsLeader hash) with
  | some leader => (podAllocationIdentity leader, none)
  | none =>
    if hash = "" then
      (.none, some .lwsLeaderMissing)
    else
      let workers := ir.allPods.filter fun member =>
        member.label lwsGroupUniqueHashLabelKey == hash
      ({ podAllocationIdentity pod with
          legacyPodKeys := workers.flatMap fun member =>
            [podKey member, member.namespacedName] }, some .lwsLeaderMissing)

/-- The keys under which a record from before group metadata lists a PodGroup's member. -/
def memberLegacyKeys (member : Pod) : List String :=
  podKey member :: if member.uid.text = "" then [] else [member.namespacedName]

def identityForAllocation (pod : Pod) (ir : SlurmJobIR) : AllocationIdentity × Option Err :=
  match newGroupIdentity ir.rootPOM with
  | some group =>
    let legacyPodKeys :=
      if ir.rootPOM.typeMeta.kind = "PodGroup" then ir.allPods.flatMap memberLegacyKeys else []
    (⟨some .group, group.key, legacyPodKeys⟩, none)
  | none =>
    if ir.rootPOM.typeMeta.kind = "LeaderWorkerSet" then lwsAllocationIdentity pod ir
    else (podAllocationIdentity pod, none)

/-- The variables of the loop over the candidates.  A zero leader means none yet. -/
structure Collected where
  jobs : List RegisteredJob
  seen : List Int
  leader : Int
  conflict : Bool

def Collected.start : Collected := ⟨[], [], 0, false⟩

def Collected.add (state : Collected) (job : RegisteredJob) : Collected where
  jobs := state.jobs ++ [job]
  seen := state.seen ++ [job.jobId]
  leader := if job.finished then state.leader else job.allocationID
  conflict := state.conflict || (!job.finished && state.leader != 0 && state.leader != job.allocationID)

def collectCandidate (state : Collected) (candidate : JobInfo) : Except Err Collected :=
  match fromJobInfo candidate with
  | .error text => .error (.text text)
  | .ok job =>
    if job.jobId ∈ state.seen then
      .ok state
    else
      match parseIntoExternalJobInfo candidate.adminComment with
      | none => .error (.text "invalid admin comment")
      | some info => .ok (state.add { job with ownership := info })

/-- The jobs found under an identity.  Conflicting unfinished allocations are returned
together with the error. -/
def collectAllocation (key : String) (candidates : List JobInfo) : List RegisteredJob × Option Err :=
  match candidates.foldlM collectCandidate .start with
  | .error e => ([], some e)
  | .ok state => (state.jobs, if state.conflict then some (.ambiguousAllocation key) else none)

def activeStep (allocationID : Int) (job : RegisteredJob) : Except Err Int :=
  if job.finished then .ok allocationID
  else if allocationID ≠ 0 ∧ allocationID ≠ job.allocationID then .error (.ambiguousAllocation "")
  else .ok job.allocationID

/-- The allocation of the unfinished jobs, zero when all are finished. -/
def activeAllocation (jobs : List RegisteredJob) : Except Err Int := jobs.foldlM activeStep 0

def coversMembers (info : ExternalJobInfo) (component : SlurmJobComponent) : Bool :=
  component.pods.all fun member =>
    info.pods.contains (podKey member) || info.pods.contains member.namespacedName

/-- Scan the jobs for the one of a component.  `found` is the match so far. -/
def matchComponent (root : PartialObjectMetadata) (component : SlurmJobComponent)
    (allocationID : Int) : List RegisteredJob → Option ExternalJob →
    Except Err (Option ExternalJob)
  | [], found => .ok found
  | job :: rest, found =>
    if job.allocationID ≠ allocationID then
      matchComponent root component allocationID rest found
    else if root.typeMeta.kind = "CompositePodGroup" ∧
        job.ownership.podGroup ≠ newGroupIdentity component.objectMeta then
      matchComponent root component allocationID rest found
    else if root.typeMeta.kind = "PodGroup" ∧ job.ownership.podGroup = none ∧
        coversMembers job.ownership component = false then
      .ok none
    else if found.isSome then
      .error (.ambiguousAllocation "a registration component")
    else
      matchComponent root component allocationID rest (some job.toExternalJob)

def matchComponents (root : PartialObjectMetadata) (allocationID : Int)
    (jobs : List RegisteredJob) : List SlurmJobComponent → Except Err (Option (List ExternalJob))
  | [] => .ok (some [])
  | component :: rest =>
    match matchComponent root component allocationID jobs none with
    | .error e => .error e
    | .ok none => .ok none
    | .ok (some job) =>
      match matchComponents root allocationID jobs rest with
      | .error e => .error e
      | .ok none => .ok none
      | .ok (some others) => .ok (some (job :: others))

/-- The jobs of the active allocation, one for each component; none while it is incomplete. -/
def matchAllocationComponents (ir : SlurmJobIR) (jobs : List RegisteredJob) :
    Except Err (Option (List ExternalJob)) :=
  match activeAllocation jobs with
  | .error e => .error e
  | .ok allocationID =>
    if allocationID = 0 then .ok none
    else matchComponents ir.rootPOM allocationID jobs ir.components

end SlurmBridge.Slurm.Allocation
