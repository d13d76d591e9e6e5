/- source: internal/scheduler/plugins/slurmbridge/slurmbridge.go, release.go, allocation.go
   digest: The scheduler plugin's shared memory with its critical sections, and everything else that
     the plugin asks of its surroundings. -/

import Mathlib.Data.List.AList
import Mathlib.Logic.Function.Basic
import SlurmBridge.Foundation.Interaction
import SlurmBridge.JobIR.IR
import SlurmBridge.Slurm.Job

set_option autoImplicit false

namespace SlurmBridge.Scheduler.Plugin

open Foundation.Interaction Kube.Objects JobIR.IR Slurm.Job

inductive Code
  | success | error | unschedulable | unschedulableAndUnresolvable
  deriving DecidableEq, Repr

/-- The outcome of a scheduling step, with the plugin that reported it. -/
structure Status where
  code : Code
  plugin : String := ""
  message : String := ""
  deriving DecidableEq, Repr

def Status.success : Status := ⟨.success, "", ""⟩

def Status.isSuccess (status : Status) : Bool := status.code == .success

def asStatus (err : String) : Status := ⟨.error, "", err⟩

def unschedulable (message : String) : Status := ⟨.unschedulable, "", message⟩

def pluginName : String := "SlurmBridge"

def errorUnprocessedComponents : Status :=
  asStatus "can't schedule pod: components of SlurmJobIR have not yet passed PostFilter"

abbrev NodeStatuses := String → Status

def componentOf (ir : SlurmJobIR) (pod : Pod) : Option Nat :=
  match (List.range ir.components.length).filter fun i =>
      (ir.components[i]?).any fun component =>
        component.pods.any fun p => p.ns == pod.ns && p.name == pod.name with
  | [i] => some i
  | _ => none

/-- What one scheduling cycle knows about a Pod. -/
structure StateData where
  slurmJobIR : Option SlurmJobIR
  allocation : List ExternalJob
  /-- Whether a native gang decision was made. -/
  native : Bool
  nodeName : String

/-- An allocation of a workload: the root's UID and the leader's job id. -/
structure GroupAllocation where
  uid : String
  jobID : Int
  deriving DecidableEq, Repr

abbrev ComponentName := String × String

def componentName (component : SlurmJobComponent) : ComponentName :=
  (component.objectMeta.ns, component.objectMeta.name)

/-- The components of an allocation that passed PostFilter, with the nodes each excludes. -/
structure GroupProgress where
  components : AList (fun _ : ComponentName => List String)
  held : Bool
  updating : Bool
  updated : Nat

def GroupProgress.empty : GroupProgress := ⟨∅, false, false, 0⟩

def pendingTimeout : Nat := 5 * 60 * 1000000000

/-- The newest eligibility update for one allocation, with the workload and the jobs of its
scheduling cycle.  Progress is a pointer. -/
structure ReleaseWork where
  pod : Pod
  ir : SlurmJobIR
  allocation : List ExternalJob
  held : Bool
  progress : Option Nat
  attempts : Nat
  deriving DecidableEq

/-- Give the components without excluded nodes those that were recorded for them, up to the first
component that was not recorded.  Returns whether all were. -/
def fillExcluded (recorded : AList (fun _ : ComponentName => List String)) :
    List SlurmJobComponent → List SlurmJobComponent × Bool
  | [] => ([], true)
  | component :: rest =>
    match recorded.lookup (componentName component) with
    | none => (component :: rest, false)
    | some excluded =>
      let filled :=
        if excluded ≠ [] ∧ component.jobInfo.excNodes = [] then
          { component with jobInfo := { component.jobInfo with excNodes := excluded } }
        else
          component
      (filled :: (fillExcluded recorded rest).1, (fillExcluded recorded rest).2)

def GroupProgress.recordComponent (p : GroupProgress) (ir : SlurmJobIR) (component : SlurmJobComponent) :
    GroupProgress × SlurmJobIR × Bool :=
  let recorded := p.components.insert (componentName component) component.jobInfo.excNodes
  ({ p with components := recorded },
    { ir with components := (fillExcluded recorded ir.components).1 },
    (fillExcluded recorded ir.components).2)

/-- How PostFilter goes on after it recorded a component. -/
inductive Recorded
  | unprocessed (ir : SlurmJobIR)
  | updating (ir : SlurmJobIR)
  | handOver (progress : Nat) (held : Bool) (ir : SlurmJobIR)

/-- The memory that scheduling cycles and release workers share. -/
structure Memory where
  clock : Nat
  /-- The progress objects by address, and the next free address. -/
  progress : Nat → GroupProgress
  allocated : Nat
  pending : GroupAllocation → Option Nat
  holdReleases : AList (fun _ : GroupAllocation => ReleaseWork)
  releases : Int
  /-- Keys in the event channel, and in the release controller's queue: to be run, running, and to be
  queued again after a delay. -/
  events : List GroupAllocation
  queue : List GroupAllocation
  processing : List GroupAllocation
  delayed : List GroupAllocation
  /-- The data that scheduling cycles keep for their Pods. -/
  cycles : Nat → Option StateData

namespace Memory

def expired (s : Memory) (p : GroupProgress) : Bool :=
  !p.updating && decide (pendingTimeout < s.clock - p.updated)

/-- Drop progress that no component has touched recently. -/
def dropExpired (s : Memory) : GroupAllocation → Option Nat := fun key =>
  (s.pending key).filter fun ref => !s.expired (s.progress ref)

def deletePending (s : Memory) (key : GroupAllocation) : Memory :=
  { s with pending := Function.update s.pending key none }

/-- The progress of an allocation that is recorded next: the one that is kept, or a new one. -/
def progressFor (s : Memory) (key : GroupAllocation) : Nat × GroupProgress :=
  match s.dropExpired key with
  | some ref => (ref, s.progress ref)
  | none => (s.allocated, .empty)

/-- PostFilter's critical section for a component of a pending heterogeneous job. -/
def recordProgress (s : Memory) (key : GroupAllocation) (jobHeld : Bool) (ir : SlurmJobIR)
    (component : SlurmJobComponent) : Recorded × Memory :=
  let ref := (s.progressFor key).1
  let touched : GroupProgress :=
    { (s.progressFor key).2 with
      updated := s.clock
      held := (s.progressFor key).2.held || jobHeld }
  let (recorded, ir, processed) := touched.recordComponent ir component
  let store (p : GroupProgress) : Memory :=
    { s with
      allocated := max s.allocated (ref + 1)
      progress := Function.update s.progress ref p
      pending := Function.update s.dropExpired key (some ref) }
  if !processed then
    (.unprocessed ir, store recorded)
  else if recorded.updating then
    (.updating ir, store recorded)
  else
    (.handOver ref recorded.held ir, store { recorded with updating := true })

/-- The critical section of releaseHold.  Returns the work that was replaced. -/
def storeRelease (s : Memory) (key : GroupAllocation) (work : ReleaseWork) : Option ReleaseWork × Memory :=
  (s.holdReleases.lookup key,
    { s with
      releases := if key ∈ s.holdReleases then s.releases else s.releases + 1
      holdReleases := s.holdReleases.insert key work })

def sendEvent (s : Memory) (key : GroupAllocation) : Memory :=
  { s with events := s.events ++ [key] }

def takeRelease (s : Memory) (key : GroupAllocation) : Option ReleaseWork × Memory :=
  (s.holdReleases.lookup key, { s with holdReleases := s.holdReleases.erase key })

def finishRelease (s : Memory) (key : GroupAllocation) (work : ReleaseWork) (released : Bool) : Memory :=
  let s := match work.progress with
    | none => s
    | some ref =>
      { s with progress := Function.update s.progress ref { s.progress ref with updating := false } }
  if released then s.deletePending key else s

/-- Put the work back for a retry, unless newer work was stored.  Returns whether it was. -/
def restoreRelease (s : Memory) (key : GroupAllocation) (work : ReleaseWork) : Bool × Memory :=
  if key ∈ s.holdReleases then (true, s)
  else (false, { s with holdReleases := s.holdReleases.insert key work })

def releasesDone (s : Memory) : Memory := { s with releases := s.releases - 1 }

/-- A key that is queued already is not queued twice. -/
def enqueue (s : Memory) (key : GroupAllocation) : Memory :=
  { s with queue := if key ∈ s.queue then s.queue else s.queue ++ [key] }

end Memory

/-- Why an allocation could not be read. -/
inductive AllocationError
  | ambiguous (text : String)
  | missing (text : String)
  | other (text : String)
  deriving DecidableEq, Repr

/-- Error of an eligibility update, and whether it or an error it wraps says that the job is no
longer pending. -/
structure UpdateError where
  notPending : Bool
  text : String
  deriving DecidableEq, Repr

/-- A node of the scheduler's snapshot, with its name in Slurm. -/
structure SnapshotNode where
  name : String
  slurmName : String
  deriving DecidableEq, Repr

inductive Command
  | getAllocation (pod : Pod) (ir : SlurmJobIR)
  | getJob (pod : Pod)
  /-- Whether the Pod's node is about to be freed by another allocation of the bridge. -/
  | allocatedNodeWaitingForBridge (pod : Pod) (node : String)
  | deleteExternalJob (pod : Pod)
  | activatePod (pod : Pod)
  | nodeInfos
  | getNodeNames (partition : Option String)
  | nodeEligibleForSlurm (pod : Pod) (node : String) (status : Status)
  | updateJob (pod : Pod) (root : PartialObjectMetadata) (component : SlurmJobComponent)
  | releaseJob (id : Int) (priority : Option Int)
  /-- The critical sections, the event channel and the WaitGroup. -/
  | recordProgress (key : GroupAllocation) (jobHeld : Bool) (ir : SlurmJobIR) (component : SlurmJobComponent)
  | deletePending (key : GroupAllocation)
  | storeRelease (key : GroupAllocation) (work : ReleaseWork)
  | sendEvent (key : GroupAllocation)
  | takeRelease (key : GroupAllocation)
  | finishRelease (key : GroupAllocation) (work : ReleaseWork) (released : Bool)
  | restoreRelease (key : GroupAllocation) (work : ReleaseWork)
  | releasesDone

@[reducible] def Command.Reply : Command → Type
  | .getAllocation _ _ => Except AllocationError (List ExternalJob)
  | .getJob _ => Except String ExternalJob
  | .allocatedNodeWaitingForBridge _ _ => Except Status Bool
  | .deleteExternalJob _ => Except String Unit
  | .activatePod _ => Unit
  | .nodeInfos => Except String (List SnapshotNode)
  | .getNodeNames _ => Except String (List String)
  | .nodeEligibleForSlurm _ _ _ => Except Status Bool
  | .updateJob _ _ _ => Except UpdateError Unit
  | .releaseJob _ _ => Except String Unit
  | .recordProgress _ _ _ _ => Recorded
  | .deletePending _ => Unit
  | .storeRelease _ _ => Option ReleaseWork
  | .sendEvent _ => Unit
  | .takeRelease _ => Option ReleaseWork
  | .finishRelease _ _ _ => Unit
  | .restoreRelease _ _ => Bool
  | .releasesDone => Unit

abbrev surroundings : Interface := ⟨Command, Command.Reply⟩

abbrev Ctl := Prog surroundings

def perform (c : Command) : Ctl c.Reply := Prog.call (I := surroundings) c

theorem wp_perform_bind {α : Type} {guard : Trace surroundings → Command → Prop}
    {h : Trace surroundings} {post : Trace surroundings → α → Prop} (c : Command)
    (f : c.Reply → Ctl α) :
    wp guard (perform c >>= f) h post ↔
      guard h c ∧ ∀ reply, wp guard (f reply) (h ++ [⟨c, reply⟩]) post := Iff.rfl

/-- What the shared memory does on a command; none for a command that does not touch it. -/
def Memory.serve (s : Memory) : (c : Command) → Option (c.Reply × Memory)
  | .recordProgress key jobHeld ir component => some (s.recordProgress key jobHeld ir component)
  | .deletePending key => some ((), s.deletePending key)
  | .storeRelease key work => some (s.storeRelease key work)
  | .sendEvent key => some ((), s.sendEvent key)
  | .takeRelease key => some (s.takeRelease key)
  | .finishRelease key work released => some ((), s.finishRelease key work released)
  | .restoreRelease key work => some (s.restoreRelease key work)
  | .releasesDone => some ((), s.releasesDone)
  | _ => none

end SlurmBridge.Scheduler.Plugin
