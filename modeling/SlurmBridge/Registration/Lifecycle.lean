/- source: internal/controller/registration/lifecycle.go, slurmcontrol/slurmcontrol.go,
     slurmcontrol/cancel.go
   digest: Release of allocations that no Pod needs any more, and the cleanup of the Pods whose
     allocations are released. -/

import SlurmBridge.Registration.PodSync

set_option autoImplicit false

namespace SlurmBridge.Registration.Lifecycle

open Kube.Objects Kube.Reads Slurm.Ownership Slurm.Job Registration.Interface Registration.Membership
open Registration.PodSync

/-- The job as Slurm has it now; a missing job is a confirmed release. -/
def liveJob (id : Int) : Fallible (Option JobInfo) := do
  match ← (perform (.getJob .live (itoa id)) : Ctl (Except SlurmError JobInfo)) with
  | .error .notFound => return none
  | .error e => throw e.toErr
  | .ok raw =>
    if itoa raw.key ≠ itoa id then
      throw (.text ("slurm returned job " ++ itoa raw.key ++ " for " ++ itoa id))
    else
      return some raw

/-- A completing job still holds its resources. -/
def allocationReleased (raw : JobInfo) : Except Err Bool :=
  match fromJobInfo raw with
  | .error text => .error (.text text)
  | .ok job => .ok (job.finished && !raw.hasState .completing)

def absentOrReleased : Option JobInfo → Except Err Bool
  | none => .ok true
  | some raw => allocationReleased raw

def terminateJob (id : Int) : Fallible Unit := do
  match ← (perform (.deleteJob id) : Ctl (Except SlurmError Unit)) with
  | .error .notFound => return ()
  | .error e => throw e.toErr
  | .ok () => return ()

def componentSelector (hetJobId hetJobOffset : Int) : String :=
  itoa hetJobId ++ "+" ++ itoa hetJobOffset

def componentErrors (status : Nat) (statusText : String) (body : Option (List String)) : List String :=
  (if status = 200 then [] else ["HTTP " ++ itoa status ++ ": " ++ statusText]) ++
    body.getD ["missing JSON cancellation response"]

def terminateHetJobComponent (hetJobId hetJobOffset : Int) : Fallible Unit :=
  let component := componentSelector hetJobId hetJobOffset
  let failure (reason : String) : Err :=
    .text ("terminate heterogeneous job component " ++ component ++ ": " ++ reason)
  if hetJobId ≤ 0 ∨ hetJobOffset < 0 then
    throw (.text ("invalid heterogeneous job component " ++ component))
  else do
    match ← (perform (.deleteComponent hetJobId hetJobOffset) : Ctl ComponentReply) with
    | .transport text => throw (failure text)
    | .noResponse => throw (failure "missing HTTP response")
    | .response status statusText body =>
      -- Already absent.
      if status = 404 then
        return ()
      else if componentErrors status statusText body ≠ [] then
        throw (failure ("\n".intercalate (componentErrors status statusText body)))
      else
        return ()

def sameComponent (cached : RegisteredJob) (live : ExternalJob) (info : ExternalJobInfo) : Bool :=
  live.allocationID == cached.allocationID && live.hetJobOffset == cached.hetJobOffset &&
    decide (info = cached.ownership)

/-- Canceling the component takes the whole heterogeneous job down. -/
def cancelsAll (live : ExternalJob) : Bool :=
  live.hetJobId != 0 && (live.pending || live.hetJobOffset == 0)

def ofHetJob (hetJobId : Int) (raw : JobInfo) : Bool :=
  match raw.hetJobId with
  | none => false
  | some het => het.number.getD 0 == hetJobId

def siblingsReleasable (r : Reconciler) (hetJobId : Int) : Fallible Bool := do
  match ← (perform (.listJobs .live) : Ctl (Except SlurmError (List JobInfo))) with
  | .error e => throw e.toErr
  | .ok all =>
    (all.filter (ofHetJob hetJobId)).foldlM (fun (ok : Bool) raw => do
      if !ok then
        return false
      match registeredJobFromInfo raw with
      | .error text => throw (.text text)
      | .ok sibling => return releasable (← componentMembers r .live sibling)) true

/-- Whether every component that the cancellation takes down can be released. -/
def affectedReleasable (r : Reconciler) (cached : RegisteredJob) (live : ExternalJob) : Fallible Bool := do
  let members ← componentMembers r .live cached
  if !releasable members then
    return false
  else if cancelsAll live then
    siblingsReleasable r live.hetJobId
  else
    return true

/-- A component that has started is canceled alone, if Slurm can do that. -/
def terminate (live : ExternalJob) : Fallible Unit :=
  if live.hetJobId ≠ 0 ∧ live.pending = false then
    terminateHetJobComponent live.hetJobId live.hetJobOffset
  else
    terminateJob live.allocationID

/-- Release an unfinished component unless a Pod needs what the cancellation takes down. -/
def releaseUnfinished (r : Reconciler) (cached : RegisteredJob) (live : ExternalJob) : Fallible Bool := do
  if !(← affectedReleasable r cached live) then
    return false
  terminate live
  -- An acknowledgement is not proof that the nodes have been released.
  return ← absentOrReleased (← liveJob cached.jobId)

/-- Release a component that no Pod needs.  Returns whether the release is confirmed. -/
def releaseComponent (r : Reconciler) (cached : RegisteredJob) : Fallible Bool := do
  match ← liveJob cached.jobId with
  | none => return true
  | some raw =>
    match fromJobInfo raw with
    | .error text => throw (.text text)
    | .ok live =>
      if live.finished then
        return ← allocationReleased raw
      match parseIntoExternalJobInfo raw.adminComment with
      | none => throw (.text "invalid admin comment")
      | some info =>
        if !sameComponent cached live info then
          throw (.text ("ownership changed for job " ++ itoa cached.jobId))
        releaseUnfinished r cached live

/-- A recent submission that the informer does not show yet may hold the Pods' resources. -/
def recentSubmissionHolds (key : Request) : Fallible Bool := do
  match ← (perform (.recentGet key) : Ctl (Option Int)) with
  | none => return false
  | some id =>
    if id = 0 then
      return true
    return !(← absentOrReleased (← liveJob id))

/-- A pass that found no jobs cannot clean up behind a recent submission. -/
def submissionHolds (key : Request) (pods : List Pod) (jobs : List RegisteredJob) : Fallible Bool :=
  if jobs.isEmpty ∧ pods.any podReadyForCleanup then recentSubmissionHolds key else return false

def podsByKey (pods : List Pod) : PodMap :=
  pods.foldl (fun members pod => members.insert (podKey pod) pod) ∅

abbrev Released := AList (fun _ : Int => Bool)

/-- The jobs that each Pod is associated with, by Pod key. -/
abbrev Associated := AList (fun _ : String => List Int)

structure Progress where
  members : PodMap
  released : Released
  associated : Associated
  waiting : Bool

def Progress.associate (state : Progress) (id : Int) (pod : Pod) : Progress :=
  { state with
    members := state.members.insert (podKey pod) pod
    associated := state.associated.insert (podKey pod)
      ((state.associated.lookup (podKey pod)).getD [] ++ [id]) }

def reconcileJob (r : Reconciler) (state : Progress) (job : RegisteredJob) : Fallible Progress := do
  let current ← componentMembers r .cached job
  let state := current.foldl (fun state pod => state.associate job.jobId pod) state
  if job.finished && !(current.any fun pod => pod.finalizers.contains finalizerScheduler) then
    return { state with released := state.released.insert job.jobId true }
  if !releasable current && !job.finished then
    return state
  let done ← releaseComponent r job
  return { state with
    released := state.released.insert job.jobId done
    waiting := state.waiting || (!done && releasable current) }

def hasRegistrationGate (pod : Pod) : Bool :=
  pod.schedulingGates.contains schedulingGateRegistration

def Progress.isReleased (state : Progress) (id : Int) : Bool := (state.released.lookup id).getD false

def Progress.jobsOf (state : Progress) (pod : Pod) : List Int :=
  (state.associated.lookup (podKey pod)).getD []

/-- Whether the job that a Pod's label names is released.  A cache miss is not a confirmation. -/
def labelReleased (state : Progress) (pod : Pod) : Fallible Bool := do
  let id := parseSlurmJobId (pod.label labelExternalJobId)
  if id > 0 ∧ state.isReleased id = false then
    return ← absentOrReleased (← liveJob id)
  return true

/-- One member: repair a Pod that still runs, clean up one whose allocations are released.
Returns whether the pass has to wait. -/
def reconcileMember (r : Reconciler) (state : Progress) (waiting : Bool) (pod : Pod) : Fallible Bool := do
  if pod.schedulerName ≠ r.schedulerName then
    return waiting
  if !podReadyForCleanup pod then
    if hasRegistrationGate pod then
      return waiting
    return waiting || (← syncPod r ⟨pod.ns, pod.name⟩)
  if !(state.jobsOf pod).all state.isReleased then
    return waiting
  if !(← labelReleased state pod) then
    return true
  prepareTerminalPod pod
  return waiting

/-- Lifecycle of the members of one allocation key.  Returns whether the pass has to wait. -/
def reconcileLifecycle (r : Reconciler) (key : Request) (pods : List Pod)
    (jobs : List RegisteredJob) : Fallible Bool := do
  if ← submissionHolds key pods jobs then
    return true
  let state ← jobs.foldlM (reconcileJob r) ⟨podsByKey pods, ∅, ∅, false⟩
  let visited ← (rangeMap state.members.entries : Ctl _)
  visited.foldlM (fun waiting entry => reconcileMember r state waiting entry.2) state.waiting

end SlurmBridge.Registration.Lifecycle
