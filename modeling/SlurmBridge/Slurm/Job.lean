/- source: internal/utils/slurmjob/job.go, allocation.go, internal/utils/slurmjobir/common.go
   digest: Slurm job records as the REST API reports them and the bridge's view of them. -/

import SlurmBridge.Slurm.Ownership

set_option autoImplicit false

namespace SlurmBridge.Slurm.Job

open Foundation.Text Slurm.Ownership

inductive JobState
  | pending | running | suspended | completing
  | completed | cancelled | failed | timeout | nodeFail | preempted | bootFail
  | deadline | outOfMemory
  | other (name : String)
  deriving DecidableEq, Repr

/-- A Slurm number with an explicit set flag. -/
structure NoVal where
  set : Option Bool
  number : Option Int
  deriving DecidableEq, Repr

/-- A node expression together with the node names it expands to. -/
structure HostList where
  text : String
  expand : List String
  deriving DecidableEq, Repr

structure JobInfo where
  jobId : Option Int
  nodes : Option HostList
  jobState : Option (List JobState)
  priority : Option NoVal
  hetJobId : Option NoVal
  hetJobOffset : Option NoVal
  adminComment : AdminComment

namespace JobInfo

def states (job : JobInfo) : List JobState := job.jobState.getD []

def key (job : JobInfo) : Int := job.jobId.getD 0

def hasState (job : JobInfo) (state : JobState) : Bool := job.states.contains state

def hasAnyState (job : JobInfo) (wanted : List JobState) : Bool := wanted.any job.hasState

end JobInfo

def activeStates : List JobState := [.pending, .running, .suspended]

def finishedStates : List JobState :=
  [.completed, .cancelled, .failed, .timeout, .nodeFail, .preempted, .bootFail, .deadline, .outOfMemory]

/-- A requeued job can keep a terminal state beside its current active one. -/
def isFinishedJob (job : JobInfo) : Bool :=
  if job.hasAnyState activeStates then false else job.hasAnyState finishedStates

/-- One Slurm job as the bridge sees it. -/
structure ExternalJob where
  jobId : Int
  hetJobId : Int
  hetJobOffset : Int
  nodes : HostList
  pending : Bool
  held : Bool
  finished : Bool
  deriving DecidableEq, Repr

def ExternalJob.allocationID (job : ExternalJob) : Int :=
  if job.hetJobId > 0 then job.hetJobId else job.jobId

/-- The job before its heterogeneous fields are checked. -/
def externalJobState (job : JobInfo) : ExternalJob :=
  let pending := job.hasState .pending
  { jobId := job.jobId.getD 0
    hetJobId := 0
    hetJobOffset := 0
    nodes := job.nodes.getD ⟨"", []⟩
    pending := pending
    held := match job.priority with
      | some priority =>
        pending && priority.set.getD false && decide (priority.number.getD (-1) = 0)
      | none => false
    finished := isFinishedJob job }

def validateExternalJobID (job : JobInfo) (extJob : ExternalJob) : Except String ExternalJob :=
  if extJob.jobId ≤ 0 then
    .error "invalid or unset job ID"
  else
    match job.hetJobId with
    | none => .ok extJob
    | some hetJobId =>
      if hetJobId.set.getD false = false then
        .ok extJob
      else
        match hetJobId.number, job.hetJobOffset with
        | none, _ => .error "malformed het-job: het job ID is set but its value is missing"
        | some _, none =>
          .error "malformed het-job: het job ID is set but het job offset is missing"
        | some id, some offset =>
          if offset.set.getD false = false then
            .error "malformed het-job: het job ID is set but het job offset is unset"
          else
            match offset.number with
            | none => .error "malformed het-job: het job offset is set but its value is missing"
            | some position =>
              if id = 0 then
                if position ≠ 0 then
                  .error "invalid het job offset: homogeneous job has non-zero offset"
                else
                  .ok { extJob with hetJobId := id, hetJobOffset := position }
              else if id < 0 then
                .error ("invalid het job ID " ++ toString id ++ ": value must be positive")
              else if position < 0 then
                .error "invalid het job offset: value is negative"
              else if id ≠ extJob.jobId ∧ position = 0 then
                .error "invalid het job offset: non-leader component has offset zero"
              else
                .ok { extJob with hetJobId := id, hetJobOffset := position }

def fromJobInfo (job : JobInfo) : Except String ExternalJob :=
  validateExternalJobID job (externalJobState job)

/-- A job together with the Kubernetes identities it records. -/
structure RegisteredJob extends ExternalJob where
  ownership : ExternalJobInfo
  deriving DecidableEq, Repr

def registeredJobFromInfo (raw : JobInfo) : Except String RegisteredJob :=
  match fromJobInfo raw with
  | .error text => .error text
  | .ok job =>
    match parseIntoExternalJobInfo raw.adminComment with
    | none => .error "invalid admin comment"
    | some info => .ok { job with ownership := info }

/-- The job id in a label: an unsigned 32-bit numeral read as a signed number, zero if malformed. -/
def parseSlurmJobId (input : String) : Int :=
  match parseNumeral (2 ^ 32) input with
  | none => 0
  | some n => if n < 2 ^ 31 then (n : Int) else (n : Int) - 2 ^ 32

def itoa (id : Int) : String :=
  if id < 0 then "-" ++ numeral id.natAbs else numeral id.natAbs

variable {id : Int}

theorem itoa_injective {id' : Int} (same : itoa id = itoa id') : id = id' := by
  -- A numeral does not start with a sign.
  have unsigned : ∀ n m : Nat, "-" ++ numeral n ≠ numeral m := by
    intro n m equal
    have minus : '-' ∈ (numeral m).toList := by simp [← equal]
    exact not_mem_numeral (by decide) m minus
  unfold itoa at same
  split at same <;> split at same
  · have magnitude := numeral_injective ((String.append_right_inj "-").mp same)
    omega
  · exact absurd same (unsigned _ _)
  · exact absurd same.symm (unsigned _ _)
  · have magnitude := numeral_injective same
    omega

variable {raw : JobInfo}

/-- What a successful conversion guarantees: the state fields are the record's own, and
the heterogeneous fields are either unset or the record's, with non-negative values. -/
theorem fromJobInfo_ok {job : ExternalJob} (converted : fromJobInfo raw = .ok job) :
    0 < job.jobId ∧ 0 ≤ job.hetJobId ∧ 0 ≤ job.hetJobOffset ∧ job = { externalJobState raw with
        hetJobId := job.hetJobId, hetJobOffset := job.hetJobOffset } ∧
      (job.hetJobId ≠ 0 → ∃ het, raw.hetJobId = some het ∧ het.number = some job.hetJobId) := by
  unfold fromJobInfo validateExternalJobID at converted
  split at converted
  · cases converted
  · rename_i positive
    have jobId : 0 < (externalJobState raw).jobId := by omega
    split at converted
    · cases converted
      exact ⟨jobId, by simp [externalJobState], by simp [externalJobState], rfl,
        by simp [externalJobState]⟩
    · rename_i het recorded
      split at converted
      · cases converted
        exact ⟨jobId, by simp [externalJobState], by simp [externalJobState], rfl,
          by simp [externalJobState]⟩
      · split at converted
        · cases converted
        · cases converted
        · rename_i id offset number _
          split at converted
          · cases converted
          · split at converted
            · cases converted
            · split at converted
              · split at converted
                · cases converted
                · cases converted
                  exact ⟨jobId, by dsimp only; omega, by dsimp only; omega, rfl,
                    fun nonzero => absurd ‹_› nonzero⟩
              · split at converted
                · cases converted
                · split at converted
                  · cases converted
                  · split at converted
                    · cases converted
                    · cases converted
                      exact ⟨jobId, by dsimp only; omega, by dsimp only; omega, rfl,
                        fun _ => ⟨het, recorded, number⟩⟩

section
variable {raw : JobInfo} {job : ExternalJob} (converted : fromJobInfo raw = .ok job)

include converted

theorem fromJobInfo_jobId : job.jobId = raw.key := by
  rw [(fromJobInfo_ok converted).2.2.2.1]
  rfl

theorem fromJobInfo_finished : job.finished = isFinishedJob raw := by
  rw [(fromJobInfo_ok converted).2.2.2.1]
  rfl

theorem allocationID_pos : 0 < job.allocationID := by
  obtain ⟨jobId, hetJobId, -⟩ := fromJobInfo_ok converted
  unfold ExternalJob.allocationID
  split <;> omega

end

theorem registeredJobFromInfo_ok {job : RegisteredJob} (converted : registeredJobFromInfo raw = .ok job) :
    fromJobInfo raw = .ok job.toExternalJob ∧
      parseIntoExternalJobInfo raw.adminComment = some job.ownership := by
  unfold registeredJobFromInfo at converted
  split at converted
  · cases converted
  · split at converted
    · cases converted
    · cases converted
      exact ⟨‹_›, ‹_›⟩

end SlurmBridge.Slurm.Job
