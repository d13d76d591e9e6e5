/- source: internal/controller/registration
   digest: The commands that each part of a registration pass can issue. -/

import SlurmBridge.Registration.Reconcile

set_option autoImplicit false

namespace SlurmBridge.Registration.Effects

open Foundation.Interaction Kube.Objects Kube.Reads Slurm.Ownership Slurm.Job Slurm.Allocation
open Registration.Interface Registration.Duplicates Registration.Lookup Registration.Membership
open Registration.PodSync Registration.Lifecycle Registration.Reconcile

def Asking : Command → Prop
  | .read _ _ | .enqueue _ => True
  | _ => False

def Reading : Command → Prop
  | .read _ _ | .enqueue _ | .informerSynced | .jobsByIndex _ _ | .listJobs _ | .getJob _ _
  | .recentGet _ | .mapOrder _ => True
  | _ => False

def Canceling : Command → Prop
  | .deleteJob _ | .deleteComponent _ _ => True
  | c => Reading c

def Reporting : Command → Prop
  | .event _ _ _ | .clearEvent _ => True
  | c => Canceling c

/-- Commands that neither submit a workload nor change the memo of submissions. -/
def Settling : Command → Prop
  | .registerJob _ | .recentSet _ _ | .recentDelete _ => False
  | _ => True

variable {c : Command}

theorem Asking.reading (asking : Asking c) : Reading c := by
  cases c <;> trivial

theorem Reading.canceling (reading : Reading c) : Canceling c := by
  cases c <;> trivial

theorem Canceling.reporting (canceling : Canceling c) : Reporting c := by
  cases c <;> trivial

theorem Reading.reporting (reading : Reading c) : Reporting c :=
  reading.canceling.reporting

theorem Reporting.settling (reporting : Reporting c) : Settling c := by
  cases c <;> trivial

section
variable {α : Type}

theorem asking_through (reader : Reader) (p : ReadProg α) : Only Asking (through reader p) :=
  only_through (fun _ _ => trivial) p

theorem reading_through (reader : Reader) (p : ReadProg α) : Only Reading (through reader p) :=
  (asking_through reader p).mono fun _ => Asking.reading

theorem asking_membersFrom (r : Reconciler) (reader : Reader) (key : Request) :
    Only Asking (membersFrom r reader key) := by
  unfold membersFrom
  split
  · unfold podMembersFrom
    refine only_ask trivial fun reply => ?_
    split
    · trivial
    · trivial
    · split
      · trivial
      · split
        · trivial
        · refine only_bind (asking_through _ _) fun root => ?_
          split
          · split <;> trivial
          · split
            · exact only_ask trivial fun _ => only_pure _
            · trivial
  · unfold groupMembersFrom
    split
    · trivial
    · split
      · trivial
      · refine only_ask trivial fun reply => ?_
        split
        · trivial
        · trivial
        · split
          · exact only_ask trivial fun _ => only_pure _
          · refine only_bind (asking_through _ _) fun members => ?_
            split <;> trivial

theorem reading_membersFrom (r : Reconciler) (reader : Reader) (key : Request) :
    Only Reading (membersFrom r reader key) :=
  (asking_membersFrom r reader key).mono fun _ => Asking.reading

theorem reading_tolerate (allowed : List Err) (err : Option Err) : Only Reading (tolerate allowed err).run := by
  unfold tolerate
  split
  · trivial
  · split <;> trivial

theorem reading_groupMembers (r : Reconciler) (reader : Reader) (info : ExternalJobInfo) :
    Only Reading (groupMembers r reader info).run := by
  unfold groupMembers
  split
  · trivial
  · refine only_run_bind (only_run_lift (reading_membersFrom _ _ _)) fun found => ?_
    exact only_run_bind (reading_tolerate _ _) fun _ => only_pure _

theorem reading_recordedMember (r : Reconciler) (reader : Reader) (info : ExternalJobInfo)
    (members : PodMap) (key : String) :
    Only Reading (recordedMember r reader info members key).run := by
  refine only_run_ask trivial fun reply => ?_
  split
  · trivial
  · trivial
  · split
    · trivial
    · split
      · trivial
      · refine only_run_bind (only_run_lift (reading_through _ _)) fun root => ?_
        split
        · split <;> trivial
        · split
          · trivial
          · refine only_run_bind (only_run_lift (reading_membersFrom _ _ _)) fun found => ?_
            exact only_run_bind (reading_tolerate _ _) fun _ => only_pure _

theorem reading_componentMembers (r : Reconciler) (reader : Reader) (job : RegisteredJob) :
    Only Reading (componentMembers r reader job).run := by
  refine only_run_bind (reading_groupMembers _ _ _) fun current => ?_
  refine only_run_bind (only_run_foldlM (fun _ _ => reading_recordedMember _ _ _ _ _) _ _) ?_
  intro recorded
  refine only_run_ask trivial fun reply => ?_
  split
  · trivial
  · exact only_run_bind (only_run_lift (only_rangeMap trivial)) fun _ => only_pure _

theorem reading_byIndex (index : JobIndex) (key : String) : Only Reading (byIndex index key).run := by
  refine only_run_ask trivial fun reply => ?_
  split <;> trivial

theorem reading_getJobsForPods (pods : List Pod) : Only Reading (getJobsForPods pods).run := by
  have records : ∀ pod, Only Reading (podRecords pod).run := by
    intro pod
    refine only_run_bind (reading_byIndex _ _) fun jobs => ?_
    split
    · exact reading_byIndex _ _
    · trivial
  refine only_run_foldlM (fun found pod => only_run_bind (records pod) fun jobs => ?_) _ _
  split <;> trivial

section
variable {allowed : Command → Prop} (reads : ∀ key, allowed (.getJob .live key))

include reads

theorem only_readJob (liveJobs : LiveJobs) (id : Int) : Only allowed (readJob liveJobs id).run := by
  unfold readJob
  split
  · trivial
  · refine only_run_ask (reads _) fun reply => ?_
    split <;> trivial

theorem only_verifyJobsForPods (candidates : JobMap) (pods : List Pod) :
    Only allowed (verifyJobsForPods candidates pods).run := by
  have held : ∀ liveJobs pod id, Only allowed (heldByLabel liveJobs pod id).run := by
    intro liveJobs pod id
    unfold heldByLabel
    dsimp only
    split
    · exact only_run_bind (only_readJob reads _ _) fun _ => only_pure _
    · trivial
  refine only_run_bind (only_run_foldlM (fun state pod => ?_) _ _) fun _ => only_pure _
  unfold verifyJob
  split
  · trivial
  · refine only_run_bind (held _ _ _) fun kept => ?_
    dsimp only
    split
    · trivial
    · refine only_run_bind (only_readJob reads _ _) fun read => ?_
      split <;> trivial

end

theorem reading_verifyJobsForPods (candidates : JobMap) (pods : List Pod) :
    Only Reading (verifyJobsForPods candidates pods).run :=
  only_verifyJobsForPods (fun _ => trivial) candidates pods

theorem reading_liveJob (id : Int) : Only Reading (liveJob id).run := by
  refine only_run_ask trivial fun reply => ?_
  split
  · trivial
  · trivial
  · split <;> trivial

theorem reading_siblingsReleasable (r : Reconciler) (hetJobId : Int) :
    Only Reading (siblingsReleasable r hetJobId).run := by
  refine only_run_ask trivial fun reply => ?_
  split
  · trivial
  · refine only_run_foldlM (fun ok raw => ?_) _ _
    split
    · trivial
    · split
      · trivial
      · exact only_run_bind (reading_componentMembers _ _ _) fun _ => only_pure _

theorem reading_affectedReleasable (r : Reconciler) (cached : RegisteredJob) (live : ExternalJob) :
    Only Reading (affectedReleasable r cached live).run := by
  refine only_run_bind (reading_componentMembers _ _ _) fun members => ?_
  split
  · trivial
  · split
    · exact reading_siblingsReleasable _ _
    · trivial

theorem reading_submissionHolds (key : Request) (pods : List Pod) (jobs : List RegisteredJob) :
    Only Reading (submissionHolds key pods jobs).run := by
  unfold submissionHolds
  split
  · refine only_run_ask trivial fun recent => ?_
    split
    · trivial
    · split
      · trivial
      · refine only_run_bind (reading_liveJob _) fun raw => ?_
        exact only_run_bind (only_pure _) fun _ => only_pure _
  · trivial

theorem reading_labelReleased (state : Progress) (pod : Pod) : Only Reading (labelReleased state pod).run := by
  unfold labelReleased
  dsimp only
  split
  · exact only_run_bind (reading_liveJob _) fun raw => only_pure _
  · trivial

theorem reading_isJobRunning (pod : Pod) : Only Reading (isJobRunning pod).run := by
  unfold isJobRunning
  dsimp only
  split
  · trivial
  · refine only_run_ask trivial fun cached => ?_
    split
    · trivial
    · split
      · trivial
      · refine only_run_ask trivial fun reply => ?_
        split
        · trivial
        · trivial
        · split <;> trivial

end

theorem canceling_terminate (live : ExternalJob) : Only Canceling (terminate live).run := by
  unfold terminate
  split
  · unfold terminateHetJobComponent
    split
    · trivial
    · refine only_run_ask trivial fun reply => ?_
      split
      · trivial
      · trivial
      · split
        · trivial
        · split <;> trivial
  · refine only_run_ask trivial fun reply => ?_
    split <;> trivial

theorem canceling_releaseComponent (r : Reconciler) (cached : RegisteredJob) :
    Only Canceling (releaseComponent r cached).run := by
  have reads : ∀ {α : Type} {p : Ctl α}, Only Reading p → Only Canceling p :=
    fun only => only.mono fun _ => Reading.canceling
  have unfinished : ∀ live, Only Canceling (releaseUnfinished r cached live).run := by
    intro live
    refine only_run_bind (reads (reading_affectedReleasable _ _ _)) fun ok => ?_
    split
    · trivial
    · refine only_run_bind (canceling_terminate _) fun _ => ?_
      exact only_run_bind (reads (reading_liveJob _)) fun raw => only_pure _
  refine only_run_bind (reads (reading_liveJob _)) fun raw => ?_
  split
  · trivial
  · split
    · trivial
    · split
      · trivial
      · split
        · trivial
        · split
          · trivial
          · exact unfinished _

theorem canceling_reconcileJob (r : Reconciler) (state : Progress) (job : RegisteredJob) :
    Only Canceling (reconcileJob r state job).run := by
  refine only_run_bind ((reading_componentMembers _ _ _).mono fun _ => Reading.canceling) ?_
  intro current
  split
  · trivial
  · split
    · trivial
    · exact only_run_bind (canceling_releaseComponent _ _) fun _ => only_pure _

theorem reporting_registrationReadEvent (key : Request) (err : Option Err) :
    Only Reporting (registrationReadEvent key err) := by
  unfold registrationReadEvent
  split
  · trivial
  · split <;> exact only_ask trivial fun _ => only_pure _

theorem reporting_reportSubmission (key : Request) (err : Option SubmitError) :
    Only Reporting (reportSubmission key err) := by
  unfold reportSubmission
  split
  · exact only_ask trivial fun _ => only_pure _
  · split <;> exact only_ask trivial fun _ => only_pure _

theorem canceling_cleanDuplicateAllocations (keys : List String) :
    Only Canceling (cleanDuplicateAllocations keys) := by
  have conflict : ∀ key allocations canceled, Only Canceling
      (cleanAllocationConflict key allocations canceled) := by
    intro key allocations canceled
    refine only_bind (only_rangeMap trivial) fun visited => ?_
    refine only_bind ?_ fun live => ?_
    · refine only_bind (only_loop (fun live job => ?_) _ _) fun out => ?_
      · refine only_ask trivial fun reply => ?_
        split
        · trivial
        · trivial
        · split <;> trivial
      · split <;> trivial
    · split
      · trivial
      · dsimp only
        split
        · trivial
        · refine only_bind (only_rangeMap trivial) fun visited => ?_
          split
          · trivial
          · refine only_bind (only_rangeMap trivial) fun ids => only_foldlM (fun state id => ?_) _ _
            split
            · trivial
            · refine only_ask trivial fun reply => ?_
              split <;> trivial
  refine only_ask trivial fun reply => ?_
  split
  · trivial
  · refine only_bind (only_rangeMap trivial) fun groups => ?_
    refine only_bind (only_foldlM (fun state group => ?_) _ _) fun _ => only_pure _
    unfold cleanGroup
    split
    · trivial
    · exact only_bind (conflict _ _ _) fun _ => only_pure _

end SlurmBridge.Registration.Effects
