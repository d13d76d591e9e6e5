/- source: internal/scheduler/plugins/slurmbridge/slurmbridge.go, release.go, allocation.go,
     native_state.go
   digest: PostFilter, which hands eligibility updates over, and the release worker, which sends them
     to Slurm and releases the holds. -/

import Mathlib.Data.List.Sort
import SlurmBridge.Scheduler.Plugin

set_option autoImplicit false

namespace SlurmBridge.Scheduler.PostFilter

open Kube.Objects JobIR.IR Slurm.Job Scheduler.Plugin

/-- A piece of the plugin that can end early with a status. -/
abbrev Fallible (α : Type) := ExceptT Status Ctl α

def replaced (job : ExternalJob) : Option ExternalJob → Bool
  | none => true
  | some pinned => pinned.jobId != job.jobId || pinned.hetJobId != job.hetJobId

def unlabeled (job : ExternalJob) : Option SlurmJobComponent → Bool
  | none => false
  | some component =>
    component.pods.any fun member => parseSlurmJobId (member.label labelExternalJobId) != job.jobId

/-- The jobs, one per component, are those of the cycle and their members are labelled. -/
def checkJobs (isPinned : Bool) :
    List ExternalJob → List ExternalJob → List SlurmJobComponent → Except Status Unit
  | _, [], _ => .ok ()
  | pinned, job :: jobs, components =>
    if isPinned && replaced job pinned.head? then
      .error (unschedulable "Slurm allocation changed during scheduling")
    else if !job.finished && unlabeled job components.head? then
      .error (unschedulable "waiting for Slurm registration metadata")
    else
      checkJobs isPinned pinned.tail jobs components.tail

/-- The allocation that a cycle may go on with: its jobs, and the Pod's component with its job. -/
structure Checked where
  allocation : List ExternalJob
  component : SlurmJobComponent
  job : ExternalJob

def checkAllocation (ir : SlurmJobIR) (pinned : List ExternalJob) (pod : Pod) :
    Except AllocationError (List ExternalJob) → Except Status Checked
  | .error (.ambiguous text) | .error (.missing text) => .error (unschedulable text)
  | .error (.other text) => .error (asStatus text)
  | .ok jobs =>
    if jobs.isEmpty || jobs.length != ir.components.length then
      .error (unschedulable "waiting for Slurm registration")
    else
      match checkJobs (!pinned.isEmpty) pinned jobs ir.components with
      | .error status => .error status
      | .ok () =>
        match componentOf ir pod with
        | none => .error (unschedulable "waiting for Slurm registration metadata")
        | some index =>
          match ir.components[index]?, jobs[index]? with
          | some component, some job =>
            if parseSlurmJobId (pod.label labelExternalJobId) ≠ job.jobId then
              .error (unschedulable "waiting for Slurm registration metadata")
            else if job.finished then
              .error (unschedulable "Slurm component has finished")
            else
              .ok ⟨if pinned.isEmpty then jobs else pinned, component, job⟩
          -- The index of a Pod is one of a component.
          | _, _ => .error (unschedulable "waiting for Slurm registration metadata")

def readAllocation (ir : SlurmJobIR) (pinned : List ExternalJob) (pod : Pod) : Fallible Checked := do
  let reply ← (perform (.getAllocation pod ir) : Ctl (Except AllocationError (List ExternalJob)))
  liftM (checkAllocation ir pinned pod reply)

/-- The node of the current native decision; only the legacy path falls back to Pod metadata. -/
def assignedNode (s : StateData) (pod : Pod) : String :=
  if s.native || s.nodeName != "" then s.nodeName else pod.annotation annotationExternalJobNode

def allocatedNodeRejectedByKubernetes (assigned : String) (job : ExternalJob) (m : NodeStatuses) : Bool :=
  if job.jobId = 0 ∨ job.nodes.text = "" then false
  else if assigned = "" then false
  else !(m assigned).isSuccess && (m assigned).plugin != "" && (m assigned).plugin != pluginName

/-- Confirm a cached placement before a scheduling failure can cancel it. -/
def confirmPlacement (pod : Pod) (expected : ExternalJob) : Fallible Unit := do
  match ← (perform (.getJob pod) : Ctl (Except String ExternalJob)) with
  | .error err => throw (asStatus err)
  | .ok job =>
    if job.jobId ≠ expected.jobId ∨ job.hetJobId ≠ expected.hetJobId ∨ job.nodes ≠ expected.nodes ∨
        job.pending ∨ job.finished then
      throw (unschedulable "allocation changed before placement rejection was confirmed")
    else
      return ()

/-- Give an allocation up that Kubernetes rejects, unless its node is about to be freed. -/
def rejectPlacement (pod : Pod) (job : ExternalJob) (assigned : String) : Fallible Unit := do
  confirmPlacement pod job
  let waiting : Bool ← ExceptT.mk (perform (.allocatedNodeWaitingForBridge pod assigned))
  if waiting then
    throw (unschedulable "waiting for previous Bridge allocation to release resources")
  else
    match ← (perform (.deleteExternalJob pod) : Ctl (Except String Unit)) with
    | .error err => throw (asStatus err)
    | .ok () => (perform (.activatePod pod) : Ctl Unit)

def feasibleSlurmNodes (pod : Pod) (m : NodeStatuses) (slurmNodes : List String)
    (nodes : List SnapshotNode) : Fallible (List String) :=
  nodes.foldlM (fun feasible node =>
    if slurmNodes.contains node.slurmName then do
      let eligible : Bool ← ExceptT.mk (perform (.nodeEligibleForSlurm pod node.name (m node.name)))
      return if eligible && !feasible.contains node.slurmName then feasible ++ [node.slurmName]
        else feasible
    else
      return feasible) []

/-- The Slurm nodes that a component must not get. -/
def populateComponentWithFeasibleNodes (component : SlurmJobComponent) (pod : Pod) (m : NodeStatuses) :
    Fallible (List String) := do
  match ← (perform .nodeInfos : Ctl (Except String (List SnapshotNode))) with
  | .error err => throw (asStatus err)
  | .ok nodes =>
    match ← (perform (.getNodeNames component.jobInfo.partition) : Ctl (Except String (List String))) with
    | .error err => throw (asStatus err)
    | .ok slurmNodes =>
      let feasible ← feasibleSlurmNodes pod m slurmNodes nodes
      if feasible.length < component.pods.length then
        throw (unschedulable "insufficient eligible nodes for allocation")
      else
        return (slurmNodes.dedup.filter fun name => !feasible.contains name).insertionSort (· ≤ ·)

def exclude (nodes : List String) (component : SlurmJobComponent) : SlurmJobComponent :=
  { component with jobInfo := { component.jobInfo with excNodes := nodes } }

def setExcluded (ir : SlurmJobIR) (pod : Pod) (nodes : List String) : SlurmJobIR :=
  match componentOf ir pod with
  | none => ir
  | some index => { ir with components := ir.components.modify index (exclude nodes) }

def allocationKey (ir : SlurmJobIR) (allocation : List ExternalJob) : GroupAllocation :=
  ⟨ir.rootPOM.uid, (allocation.head?.map ExternalJob.allocationID).getD 0⟩

def releaseHold (key : GroupAllocation) (work : ReleaseWork) : Ctl Unit := do
  let _ ← (perform (.storeRelease key work) : Ctl (Option ReleaseWork))
  (perform (.sendEvent key) : Ctl Unit)

/-- Record the component that passed, and hand the update over once all components have. -/
def handOver (s : StateData) (ir : SlurmJobIR) (checked : Checked) (component : SlurmJobComponent)
    (pod : Pod) : Ctl (Status × StateData) :=
  let key := allocationKey ir checked.allocation
  if ir.isHetJob ∧ checked.job.pending then do
    match ← (perform (.recordProgress key checked.job.held ir component) : Ctl Recorded) with
    | .unprocessed ir => return (errorUnprocessedComponents, { s with slurmJobIR := some ir })
    | .updating ir => return (.success, { s with slurmJobIR := some ir })
    | .handOver progress held ir =>
      releaseHold key ⟨pod, ir, checked.allocation, held, some progress, 0⟩
      return (.success, { s with slurmJobIR := some ir })
  else if checked.job.pending then do
    releaseHold key ⟨pod, ir, checked.allocation, checked.job.held, none, 0⟩
    return (.success, s)
  else do
    let _ ← (perform (.deletePending key) : Ctl Unit)
    return (.success, s)

/-- Update the feasible nodes of a pending allocation and release it. -/
def postFilter (s : StateData) (pod : Pod) (m : NodeStatuses) : Ctl (Status × StateData) :=
  match s.slurmJobIR with
  | none => return (unschedulable "", s)
  | some ir => do
      match ← (readAllocation ir s.allocation pod).run with
      | .error status => return (status, s)
      | .ok checked =>
        let s := { s with allocation := checked.allocation }
        if allocatedNodeRejectedByKubernetes (assignedNode s pod) checked.job m then
          match ← (rejectPlacement pod checked.job (assignedNode s pod)).run with
          | .error status => return (status, s)
          | .ok () => return (.success, s)
        else if checked.job.jobId = 0 then
          return (unschedulable "waiting for Slurm registration", s)
        else
          match ← (populateComponentWithFeasibleNodes checked.component pod m).run with
          | .error status => return (status, s)
          | .ok nodes =>
            let ir := setExcluded ir pod nodes
            handOver { s with slurmJobIR := some ir } ir checked (exclude nodes checked.component) pod

/-- The workload as it is sent for a component of a held allocation: without its priority, which
would release the hold. -/
def withholdPriority (held : Bool) (ir : SlurmJobIR) (index : Nat) : SlurmJobIR :=
  if held then
    { ir with components := ir.components.modify index fun component =>
        { component with jobInfo := { component.jobInfo with priority := none } } }
  else
    ir

def firstPod (component : SlurmJobComponent) : Fallible Pod :=
  match component.pods with
  | [] => throw (asStatus "component without pods")
  | pod :: _ => return pod

def updateJob (pod : Pod) (ir : SlurmJobIR) : Ctl (Except UpdateError Unit) :=
  match ir.validate with
  | .error err => return .error ⟨false, err⟩
  | .ok () =>
    match (componentOf ir pod).bind (ir.components[·]?) with
    | none => return .error ⟨false, "invalid component index -1 for pod " ++ pod.namespacedName⟩
    | some component => perform (.updateJob pod ir.rootPOM component)

def updateComponent (ir : SlurmJobIR) (held : Bool) (component : SlurmJobComponent) (index : Nat) :
    Fallible Unit := do
  let pod ← firstPod component
  match ← updateJob pod (withholdPriority held ir index) with
  | .ok () => return ()
  | .error err =>
    if err.notPending then
      throw (unschedulable "allocation changed while updating eligibility")
    else
      throw (asStatus err.text)

def releaseComponentHold (ir : SlurmJobIR) (allocation : List ExternalJob)
    (component : SlurmJobComponent) (index : Nat) : Fallible Unit := do
  let pod ← firstPod component
  let _ ← readAllocation ir allocation pod
  match ← (perform (.releaseJob ((allocation[index]?.map ExternalJob.jobId).getD 0)
      component.jobInfo.priority) : Ctl (Except String Unit)) with
  | .ok () => return ()
  | .error err => throw (asStatus err)

def firstComponent (ir : SlurmJobIR) : Fallible SlurmJobComponent :=
  match ir.components with
  | [] => throw (asStatus "workload without components")
  | component :: _ => return component

/-- Update all components before any hold is released. -/
def updateExternalJob (ir : SlurmJobIR) (allocation : List ExternalJob) (held : Bool) : Fallible Unit := do
  let pod ← firstPod (← firstComponent ir)
  let checked ← readAllocation ir allocation pod
  ir.components.zipIdx.foldlM (fun _ entry => updateComponent ir held entry.1 entry.2) ()
  if held then
    ir.components.zipIdx.foldlM (fun _ entry => releaseComponentHold ir checked.allocation entry.1 entry.2) ()
  else
    return ()

def maxReleaseAttempts : Nat := 5

def finishRelease (key : GroupAllocation) (work : ReleaseWork) (released : Bool) : Ctl Unit := do
  let _ ← (perform (.finishRelease key work released) : Ctl Unit)
  (perform .releasesDone : Ctl Unit)

def dropSuperseded (newer : Bool) : Ctl Unit :=
  if newer then perform .releasesDone else return ()

def succeeded : Except Status Unit → Option Status
  | .ok () => none
  | .error status => if status.isSuccess then none else some status

/-- One run of a release worker.  Returns the error for which the key is queued again. -/
def reconcileRelease (key : GroupAllocation) : Ctl (Option String) := do
  match ← (perform (.takeRelease key) : Ctl (Option ReleaseWork)) with
  | none => return none
  | some taken =>
    let outcome ← (updateExternalJob taken.ir taken.allocation taken.held).run
    let work := { taken with attempts := taken.attempts + 1 }
    match succeeded outcome with
    | none =>
      finishRelease key work true
      return none
    | some status =>
      if status.code = .unschedulable ∨ maxReleaseAttempts ≤ work.attempts then
        -- Schedule the Pod again from fresh state.
        finishRelease key work false
        let _ ← (perform (.activatePod work.pod) : Ctl Unit)
        return none
      else
        let newer ← (perform (.restoreRelease key work) : Ctl Bool)
        dropSuperseded newer
        return some status.message

end SlurmBridge.Scheduler.PostFilter
