/- source: internal/utils/slurmjob/allocation.go, index.go
   digest: Lookups in the job informer's indexes and their live verification. -/

import Mathlib.Data.List.AList
import SlurmBridge.Registration.Interface

set_option autoImplicit false

namespace SlurmBridge.Registration.Lookup

open Kube.Objects Kube.Reads Slurm.Ownership Slurm.Job Slurm.Allocation Registration.Interface

def byIndex (index : JobIndex) (key : String) : Fallible (List JobInfo) := do
  match ← (perform (.jobsByIndex index key) : Ctl (Except SlurmError (List JobInfo))) with
  | .error e => throw e.toErr
  | .ok jobs => return jobs

/-- Records without group metadata that list one of the Pod keys. -/
def legacyCandidates (keys : List String) : Fallible (List JobInfo) :=
  keys.foldlM (fun (found : List JobInfo) key => do return found ++ (← byIndex .legacyPod key)) []

/-- Records under the identity's own key; a Pod without any is looked up by name. -/
def primaryCandidates (index : JobIndex) (key : String) : Fallible (List JobInfo) := do
  let cached ← byIndex index key
  let ref := parsePodKey key
  if index = .pod ∧ cached = [] ∧ ref.uid ≠ "" then byIndex .pod ref.namespacedName
  else return cached

/-- All candidates for an identity.  Legacy records are read first, so that a record which gains
group metadata meanwhile is not missed in both forms. -/
def allocationCandidates (index : JobIndex) (identity : AllocationIdentity) :
    Fallible (List JobInfo) := do
  let legacy ← legacyCandidates identity.legacyPodKeys
  let cached ← primaryCandidates index identity.key
  return cached ++ legacy

def indexedAllocation (index : JobIndex) (identity : AllocationIdentity) :
    Ctl (List RegisteredJob × Option Err) := do
  match ← (allocationCandidates index identity).run with
  | .error e => pure ([], some e)
  | .ok candidates => pure (collectAllocation identity.key candidates)

abbrev JobMap := AList (fun _ : String => ExternalJob)

/-- A Pod's job by its UID, falling back to its name. -/
def jobForPod (jobs : JobMap) (pod : Pod) : Option ExternalJob :=
  match jobs.lookup (podKey pod) with
  | some job => some job
  | none => jobs.lookup pod.namespacedName

structure Matches where
  candidate : Option ExternalJob
  unfinished : Nat
  finished : Option ExternalJob
  finishedCount : Nat

def Matches.add (jobID : Int) (found : Matches) (raw : JobInfo) : Matches :=
  match fromJobInfo raw with
  | .error _ => found
  | .ok job =>
    if job.finished then
      { found with
        finishedCount := found.finishedCount + 1
        finished := if found.finished.isNone || job.jobId == jobID then some job
          else found.finished }
    else
      { found with candidate := some job, unfinished := found.unfinished + 1 }

/-- Unfinished records must be unique; a finished one is used only if it is the only one or the
Pod's label names it. -/
def Matches.choose (jobID : Int) (found : Matches) : Option ExternalJob :=
  if found.unfinished = 1 then
    found.candidate
  else if found.unfinished = 0 then
    match found.finished with
    | none => none
    | some job => if found.finishedCount = 1 ∨ (job.jobId = jobID ∧ jobID > 0) then some job else none
  else
    none

/-- The cached records that list a Pod; those by name only if there are none by UID. -/
def podRecords (pod : Pod) : Fallible (List JobInfo) := do
  let jobs ← byIndex .pod (podKey pod)
  if jobs.isEmpty ∧ pod.uid.text ≠ "" then byIndex .pod pod.namespacedName
  else return jobs

/-- The job of the records that a Pod may be linked to. -/
def podCandidate (pod : Pod) (jobs : List JobInfo) : Option ExternalJob :=
  let jobID := parseSlurmJobId (pod.label labelExternalJobId)
  (jobs.foldl (Matches.add jobID) ⟨none, 0, none, 0⟩).choose jobID

def getJobsForPods (pods : List Pod) : Fallible JobMap :=
  pods.foldlM (fun (podToJob : JobMap) pod => do
    match podCandidate pod (← podRecords pod) with
    | some job => return podToJob.insert (podKey pod) job
    | none => return podToJob) ∅

abbrev LiveJobs := AList (fun _ : Int => Option JobInfo)

def readJob (liveJobs : LiveJobs) (id : Int) : Fallible (Option JobInfo × LiveJobs) :=
  match liveJobs.lookup id with
  | some job => return (job, liveJobs)
  | none => do
      match ← (perform (.getJob .live (itoa id)) : Ctl (Except SlurmError JobInfo)) with
      | .error .notFound => return (none, liveJobs.insert id none)
      | .error e => throw e.toErr
      | .ok job => return (some job, liveJobs.insert id (some job))

def confirmJob (pod : Pod) (candidateID : Int) (raw : JobInfo) : Option ExternalJob :=
  let keys := jobPodKeys raw
  if !keys.contains (podKey pod) && !keys.contains pod.namespacedName then
    none
  else
    match fromJobInfo raw with
    | .error _ => none
    | .ok job => if job.jobId = candidateID then some job else none

/-- A labeled job other than the candidate keeps the Pod unless it has finished. -/
def labelHolds (jobID : Int) : Option JobInfo → Bool
  | none => false
  | some labeled => labeled.key != jobID || !isFinishedJob labeled

def heldByLabel (liveJobs : LiveJobs) (pod : Pod) (candidateID : Int) :
    Fallible (Bool × LiveJobs) := do
  let jobID := parseSlurmJobId (pod.label labelExternalJobId)
  if jobID > 0 ∧ candidateID ≠ jobID then do
    let (labeled, liveJobs) ← readJob liveJobs jobID
    return (labelHolds jobID labeled, liveJobs)
  else
    return (false, liveJobs)

def verifyJob (candidates : JobMap) (state : JobMap × LiveJobs) (pod : Pod) : Fallible (JobMap × LiveJobs) :=
  match jobForPod candidates pod with
  | none => return state
  | some candidate => do
      let (held, liveJobs) ← heldByLabel state.2 pod candidate.jobId
      if held then
        return (state.1, liveJobs)
      let (raw, liveJobs) ← readJob liveJobs candidate.jobId
      match raw.bind (confirmJob pod candidate.jobId) with
      | none => return (state.1, liveJobs)
      | some job => return (state.1.insert (podKey pod) job, liveJobs)

def verifyJobsForPods (candidates : JobMap) (pods : List Pod) : Fallible JobMap := do
  let state ← pods.foldlM (verifyJob candidates) (∅, ∅)
  return state.1

end SlurmBridge.Registration.Lookup
