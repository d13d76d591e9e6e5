/- source: internal/controller/registration/keys.go, lifecycle.go, pod_sync.go,
     registration.go
   digest: Allocation keys, the members of an allocation, and the Pods that still need it. -/

import Mathlib.Data.List.AList
import SlurmBridge.Registration.Interface

set_option autoImplicit false

namespace SlurmBridge.Registration.Membership

open Kube.Objects Kube.Reads JobIR.IR JobIR.Translate Slurm.Ownership Slurm.Job Slurm.Allocation
open Registration.Interface

structure Reconciler where
  schedulerName : String
  workloadAPI : WorkloadAPI
  /-- Discovery selects one of the supported PodGroup versions. -/
  served : ∀ podGroupType ∈ workloadAPI, isBuiltInPodGroup podGroupType = true

def Reconciler.withoutGroups (schedulerName : String) : Reconciler := ⟨schedulerName, none, nofun⟩

namespace Request

def podKey (r : Request) : String :=
  if r.uid = "" then r.ns ++ "/" ++ r.name else r.ns ++ "/" ++ r.name ++ "/" ++ r.uid

def groupIdentity (r : Request) : GroupIdentity := ⟨r.apiGroup, r.kind, r.ns, r.name, r.uid⟩

end Request

def groupKey (group : GroupIdentity) : Request :=
  ⟨group.apiGroup, group.kind, group.ns, group.name, group.uid, ""⟩

def objectRequest (obj : PartialObjectMetadata) : Request :=
  ⟨obj.typeMeta.group, obj.typeMeta.kind, obj.ns, obj.name, obj.uid, ""⟩

def podRequest (pod : Pod) : Request := ⟨"", "Pod", pod.ns, pod.name, pod.uid, ""⟩

def allocationKey (pod : Pod) (root : PartialObjectMetadata) : Request :=
  match newGroupIdentity root with
  | some group => groupKey group
  | none =>
    if root.typeMeta.kind = "LeaderWorkerSet" then
      { objectRequest root with replicaHash := pod.label lwsGroupUniqueHashLabelKey }
    else
      podRequest pod

def typeMeta (r : Reconciler) (key : Request) : Except Err TypeMeta :=
  if key.apiGroup = lwsV1.group ∧ key.kind = "LeaderWorkerSet" then
    .ok lwsV1
  else
    match r.workloadAPI with
    | some podGroupType =>
      if key.apiGroup = "scheduling.k8s.io" ∧ key.kind = "PodGroup" then
        .ok podGroupType
      else if key.apiGroup = "scheduling.k8s.io" ∧ key.kind = "CompositePodGroup" then
        .ok compositePodGroupV1Alpha3
      else if key.apiGroup = "scheduling.x-k8s.io" ∧ key.kind = "PodGroup" then
        .ok podGroupCoschedulingV1Alpha1
      else
        .error (.text "unsupported allocation key")
    | none =>
      if key.apiGroup = "scheduling.x-k8s.io" ∧ key.kind = "PodGroup" then
        .ok podGroupCoschedulingV1Alpha1
      else
        .error (.text "unsupported allocation key")

/-- The Pod waits for this scheduler and can still be placed. -/
def eligible (r : Reconciler) (pod : Pod) : Bool :=
  pod.schedulerName == r.schedulerName && pod.nodeName == "" && !pod.deleting && !isPodTerminal pod

/-- Binding is forbidden once deletion starts; a bound Pod must finish first. -/
def podReadyForCleanup (pod : Pod) : Bool :=
  isPodTerminal pod || (pod.deleting && pod.nodeName == "")

/-- Members of an allocation, where its jobs are looked up, and why it could not be read. -/
structure Members where
  pods : List Pod
  identity : AllocationIdentity
  error : Option Err

/-- A Pod's request.  A Pod that belongs to a group is redirected before any lookup. -/
def podMembersFrom (r : Reconciler) (reader : Reader) (key : Request) : Ctl Members := do
  let identity : AllocationIdentity := ⟨some .pod, Request.podKey key, []⟩
  match ← perform (.read reader (.pod key.ns key.name)) with
  | .error .notFound => pure ⟨[], identity, none⟩
  | .error e => pure ⟨[], identity, some (.kube e)⟩
  | .ok pod =>
    if key.uid ≠ "" ∧ key.uid ≠ pod.uid.text then
      pure ⟨[], identity, none⟩
    else if pod.schedulerName ≠ r.schedulerName then
      pure ⟨[pod], identity, none⟩
    else
      match ← through reader (workloadRootForPod r.workloadAPI pod).run with
      | .error e =>
        if e.isNotFound && !eligible r pod then pure ⟨[pod], identity, some e⟩
        else pure ⟨[], .none, some e⟩
      | .ok root =>
        if allocationKey pod root ≠ key then do
          perform (.enqueue (allocationKey pod root))
          pure ⟨[], .none, none⟩
        else
          pure ⟨[pod], identity, none⟩

def groupMembersFrom (r : Reconciler) (reader : Reader) (key : Request) : Ctl Members := do
  let identity : AllocationIdentity := ⟨some .group, (Request.groupIdentity key).key, []⟩
  if key.apiGroup = "scheduling.k8s.io" ∧ r.workloadAPI = none then
    pure ⟨[], identity, none⟩
  else
    match typeMeta r key with
    | .error e => pure ⟨[], identity, some e⟩
    | .ok typeMeta => do
        -- A legacy LWS without a current leader has no Pod index key.
        let identity :=
          if key.kind = "LeaderWorkerSet" then { identity with index := none } else identity
        match ← perform (.read reader (.object typeMeta key.ns key.name)) with
        | .error .notFound => pure ⟨[], identity, none⟩
        | .error e => pure ⟨[], identity, some (.kube e)⟩
        | .ok root =>
          if root.uid ≠ key.uid then do
            perform (.enqueue { key with uid := root.uid })
            pure ⟨[], identity, none⟩
          else
            let root := { root with typeMeta := typeMeta }
            match ← through reader (registrationMembers r.workloadAPI root key.replicaHash).run with
            | .error e => pure ⟨[], identity, some e⟩
            | .ok [] => pure ⟨[], identity, none⟩
            | .ok (first :: rest) =>
              let ir : SlurmJobIR := ⟨root, [⟨.empty, {}, first :: rest⟩]⟩
              let (current, err) := identityForAllocation first ir
              pure ⟨first :: rest, current, err⟩

def membersFrom (r : Reconciler) (reader : Reader) (key : Request) : Ctl Members :=
  if key.kind = "Pod" then podMembersFrom r reader key else groupMembersFrom r reader key

abbrev PodMap := AList (fun _ : String => Pod)

def addMembers (r : Reconciler) (members : PodMap) (pods : List Pod) : PodMap :=
  pods.foldl (fun members pod =>
    if pod.schedulerName = r.schedulerName then members.insert (podKey pod) pod else members) members

/-- Fail unless the error is one of those that are tolerated. -/
def tolerate (allowed : List Err) : Option Err → Fallible Unit
  | none => pure ()
  | some e => if e ∈ allowed then pure () else throw e

def groupMembers (r : Reconciler) (reader : Reader) (info : ExternalJobInfo) : Fallible PodMap :=
  match info.podGroup with
  | none => return ∅
  | some group => do
      let found ← (membersFrom r reader (groupKey group) : Ctl Members)
      tolerate [.podGroupNoPods] found.error
      return addMembers r ∅ found.pods

/-- One recorded Pod.  Older records have only Pod identities; their current group is resolved
while an original member still exists. -/
def recordedMember (r : Reconciler) (reader : Reader) (info : ExternalJobInfo) (members : PodMap)
    (key : String) : Fallible PodMap := do
  let ref := parsePodKey key
  match ← (perform (.read reader (.pod ref.ns ref.name)) : Ctl (Except KubeError Pod)) with
  | .error .notFound => return members
  | .error e => throw (.kube e)
  | .ok pod =>
    if ref.uid ≠ "" ∧ ref.uid ≠ pod.uid.text then
      return members
    let members := addMembers r members [pod]
    if info.podGroup ≠ none ∨ pod.schedulerName ≠ r.schedulerName then
      return members
    match ← ExceptT.lift (through reader (workloadRootForPod r.workloadAPI pod).run) with
    | .error e => if e.isNotFound then return members else throw e
    | .ok root =>
      if (allocationKey pod root).kind = "Pod" then
        return members
      let found ← (membersFrom r reader (allocationKey pod root) : Ctl Members)
      tolerate [.podGroupNoPods, .lwsLeaderMissing] found.error
      return addMembers r members found.pods

/-- The Pods that an allocation's component concerns: its recorded Pods, the current members of
its group, and the Pods that carry its label and still need it. -/
def componentMembers (r : Reconciler) (reader : Reader) (job : RegisteredJob) :
    Fallible (List Pod) := do
  let members ← groupMembers r reader job.ownership
  let members ← job.ownership.pods.foldlM (recordedMember r reader job.ownership) members
  match ← (perform (.read reader (.podsWithLabel none labelExternalJobId (itoa job.jobId))) :
      Ctl (Except KubeError (List Pod))) with
  | .error e => throw (.kube e)
  | .ok labeled =>
    let members := addMembers r members (labeled.filter fun pod => !podReadyForCleanup pod)
    let visited ← (rangeMap members.entries : Ctl _)
    return visited.map Sigma.snd

def needsAllocation (pods : List Pod) : Bool := pods.any fun pod => !podReadyForCleanup pod

/-- A lost member of a LeaderWorkerSet releases the allocation; the set recreates the group. -/
def releasable (pods : List Pod) : Bool :=
  !needsAllocation pods || pods.any fun pod => pod.label lwsSetNameLabelKey != "" && podReadyForCleanup pod

end SlurmBridge.Registration.Membership
