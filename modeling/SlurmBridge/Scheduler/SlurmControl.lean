/- source: internal/scheduler/plugins/slurmbridge/slurmcontrol/slurmcontrol.go
   digest: The scheduler's deletion of an external job, and when its answer speaks for the whole
     allocation. -/

import SlurmBridge.Registration.Interface

set_option autoImplicit false

namespace SlurmBridge.Scheduler.SlurmControl

open Foundation.Interaction Kube.Objects Slurm.Job
open Registration.Interface (SlurmError)

def isActiveJob (job : JobInfo) : Bool :=
  job.states.isEmpty || !job.hasAnyState [.cancelled, .completed]

/-- What the scheduler's Slurm control asks of Slurm and of its memo of sent updates. -/
inductive Command
  | forgetUpdate (id : Int)
  | delete (id : Int)
  /-- Read a job past the cache, by its key. -/
  | get (key : String)

@[reducible] def Command.Reply : Command → Type
  | .forgetUpdate _ => Unit
  | .delete _ => Except SlurmError Unit
  | .get _ => Except SlurmError JobInfo

abbrev slurmrestd : Interface := ⟨Command, Command.Reply⟩

abbrev Ctl := Prog slurmrestd

def perform (c : Command) : Ctl c.Reply := Prog.call (I := slurmrestd) c

inductive LookupError
  | slurm (err : SlurmError)
  | text (message : String)
  deriving DecidableEq, Repr

def noJob : ExternalJob := ⟨0, 0, 0, ⟨"", []⟩, false, false, false⟩

def jobOfReply (expected : Int) : Except SlurmError JobInfo → Except LookupError ExternalJob
  | .error .notFound => .ok noJob
  | .error err => .error (.slurm err)
  | .ok job =>
    if job.key ≠ expected then
      .error (.text ("slurm returned job " ++ itoa job.key ++ " when requesting job " ++ itoa expected))
    else if !isActiveJob job then
      .ok noJob
    else
      match fromJobInfo job with
      | .error text => .error (.text text)
      | .ok job => .ok job

/-- Only pending jobs are updated; the rest are forgotten. -/
def forgetUnlessPending (id : Int) : Except LookupError ExternalJob → Ctl Unit
  | .ok job => if job.pending then return () else perform (.forgetUpdate id)
  | .error _ => perform (.forgetUpdate id)

def getJob (pod : Pod) : Ctl (Except LookupError ExternalJob) :=
  if pod.label labelExternalJobId = "" then
    return .ok noJob
  else do
    let reply ← (perform (.get (pod.label labelExternalJobId)) : Ctl (Except SlurmError JobInfo))
    let outcome := jobOfReply (parseSlurmJobId (pod.label labelExternalJobId)) reply
    forgetUnlessPending (parseSlurmJobId (pod.label labelExternalJobId)) outcome
    return outcome

/-- Why a deletion failed, and why it could not be confirmed otherwise. -/
structure DeleteError where
  delete : SlurmError
  confirm : Option LookupError
  deriving DecidableEq, Repr

/-- A failed deletion counts if the job is gone. -/
def confirmRelease (err : SlurmError) : Except LookupError ExternalJob → Except DeleteError Unit
  | .ok job => if job.jobId = 0 then .ok () else .error ⟨err, none⟩
  | .error lookupErr => .error ⟨err, some lookupErr⟩

def leaderOf (pod : Pod) : Int :=
  if parseSlurmJobId (pod.label labelExternalHetJobId) ≠ 0 then
    parseSlurmJobId (pod.label labelExternalHetJobId)
  else
    parseSlurmJobId (pod.label labelExternalJobId)

/-- Release an external job, including one already canceled or gone. -/
def deleteJob (pod : Pod) : Ctl (Except DeleteError Unit) :=
  if parseSlurmJobId (pod.label labelExternalJobId) = 0 then
    return .ok ()
  else do
    let _ ← (perform (.forgetUpdate (leaderOf pod)) : Ctl Unit)
    match ← (perform (.delete (leaderOf pod)) : Ctl (Except SlurmError Unit)) with
    | .ok () => return .ok ()
    | .error err =>
      let lookup ← getJob pod
      return confirmRelease err lookup

/-- The jobs that Slurm has, and how it reads the key of a request. -/
structure Slurm where
  jobs : List JobInfo
  resolve : String → Option Int

def Slurm.job (slurm : Slurm) (key : String) : Option JobInfo :=
  (slurm.resolve key).bind fun id => slurm.jobs.find? fun job => job.key == id

def Slurm.read (slurm : Slurm) (key : String) : Except SlurmError JobInfo :=
  match slurm.job key with
  | none => .error .notFound
  | some job => .ok job

/-- Slurm answers the deletion in any way and reads from its jobs. -/
def Slurm.answer (slurm : Slurm) (deleted : Except SlurmError Unit) : (c : Command) → c.Reply
  | .forgetUpdate _ => ()
  | .delete _ => deleted
  | .get key => slurm.read key

def allocationOf (job : JobInfo) : Int :=
  match job.hetJobId with
  | some ⟨some true, some id⟩ => if id > 0 then id else job.key
  | _ => job.key

/-- A component of the Pod's allocation is unfinished. -/
def Unfinished (slurm : Slurm) (pod : Pod) : Prop :=
  ∃ job ∈ slurm.jobs, allocationOf job = leaderOf pod ∧ isFinishedJob job = false

section
variable (slurm : Slurm) (pod : Pod) (deleted : Except SlurmError Unit)

def outcome : Except DeleteError Unit := eval (slurm.answer deleted) (deleteJob pod)

def Acknowledged : Prop :=
  ⟨.delete (leaderOf pod), (.ok () : Except SlurmError Unit)⟩ ∈
    traceOf (slurm.answer deleted) (deleteJob pod)

/-- The answer speaks for the whole allocation. -/
def Confirmed : Prop :=
  (outcome slurm pod deleted = .ok () → Acknowledged slurm pod deleted ∨ ¬ Unfinished slurm pod) ∧
    (¬ Unfinished slurm pod → outcome slurm pod deleted = .ok ())

def OwnGone : Prop :=
  ∀ job, slurm.job (pod.label labelExternalJobId) = some job →
    job.key = parseSlurmJobId (pod.label labelExternalJobId) ∧ job.hasAnyState [.cancelled, .completed] = true

end

section
variable {slurm : Slurm} {pod : Pod} {deleted : Except SlurmError Unit} {job : JobInfo}

theorem isActiveJob_eq_false : isActiveJob job = false ↔ job.hasAnyState [.cancelled, .completed] = true := by
  unfold isActiveJob
  rw [Bool.or_eq_false_iff, Bool.not_eq_false']
  refine ⟨And.right, fun ended => ⟨?_, ended⟩⟩
  cases states : job.states with
  | nil => simp [JobInfo.hasAnyState, JobInfo.hasState, states] at ended
  | cons => rfl

variable {err : SlurmError}

theorem gone_of_reply {expected : Int} : confirmRelease err (jobOfReply expected (.ok job)) = .ok () ↔
      job.key = expected ∧ job.hasAnyState [.cancelled, .completed] = true := by
  rw [← isActiveJob_eq_false]
  unfold jobOfReply
  by_cases same : job.key = expected
  · cases active : isActiveJob job with
    | false => simp [same, active, confirmRelease, noJob]
    | true =>
      have kept : ∀ found, fromJobInfo job = .ok found → found.jobId ≠ 0 := fun found converted =>
        ne_of_gt (fromJobInfo_ok converted).1
      cases found : fromJobInfo job with
      | error text => simp [same, active, found, confirmRelease]
      | ok found' => simp [same, active, found, confirmRelease, kept found' found]
  · simp [same, confirmRelease]

theorem outcome_unlabeled (slurm : Slurm) (deleted : Except SlurmError Unit) (unlabeled : parseSlurmJobId (pod.label labelExternalJobId) = 0) :
    outcome slurm pod deleted = .ok () ∧ ¬ Acknowledged slurm pod deleted := by
  unfold outcome Acknowledged deleteJob
  rw [if_pos unlabeled]
  exact ⟨rfl, List.not_mem_nil⟩

theorem outcome_acknowledged (slurm : Slurm) (labeled : parseSlurmJobId (pod.label labelExternalJobId) ≠ 0) :
    outcome slurm pod (.ok ()) = .ok () ∧ Acknowledged slurm pod (.ok ()) := by
  unfold outcome Acknowledged deleteJob
  rw [if_neg labeled]
  exact ⟨rfl, List.mem_cons_of_mem _ List.mem_cons_self⟩

theorem deleteJob_refused (labeled : parseSlurmJobId (pod.label labelExternalJobId) ≠ 0) :
    outcome slurm pod (.error err) = confirmRelease err
      (jobOfReply (parseSlurmJobId (pod.label labelExternalJobId))
        (slurm.read (pod.label labelExternalJobId))) := by
  have named : pod.label labelExternalJobId ≠ "" := by
    intro empty
    exact labeled (by rw [empty]; decide)
  unfold outcome deleteJob
  rw [if_neg labeled]
  show eval (I := slurmrestd) (slurm.answer (.error err))
    (getJob pod >>= fun lookup => pure (confirmRelease err lookup)) = _
  rw [eval_bind, eval_pure]
  unfold getJob
  rw [if_neg named, eval_bind, eval_bind, eval_pure]
  rfl

theorem outcome_refused (slurm : Slurm) (err : SlurmError) (labeled : parseSlurmJobId (pod.label labelExternalJobId) ≠ 0) :
    (outcome slurm pod (.error err) = .ok () ↔ OwnGone slurm pod) ∧ ¬ Acknowledged slurm pod (.error err) := by
  constructor
  · rw [deleteJob_refused labeled]
    unfold OwnGone Slurm.read
    cases slurm.job (pod.label labelExternalJobId) with
    | none => simp [jobOfReply, confirmRelease, noJob]
    | some job =>
      rw [gone_of_reply]
      constructor
      · rintro gone _ ⟨⟩
        exact gone
      · exact fun gone => gone job rfl
  · intro sent
    cases mem_traceOf sent

/-- The answer speaks for the whole allocation exactly if nothing of it is unfinished when the Pod
names no job, or the deletion was acknowledged, or the Pod's own component is gone, canceled or
completed just when no component is unfinished. -/
theorem deletion_confirmed_iff :
    Confirmed slurm pod deleted ↔
      if parseSlurmJobId (pod.label labelExternalJobId) = 0 then ¬ Unfinished slurm pod
      else deleted = .ok () ∨ (OwnGone slurm pod ↔ ¬ Unfinished slurm pod) := by
  unfold Confirmed
  by_cases unlabeled : parseSlurmJobId (pod.label labelExternalJobId) = 0
  · obtain ⟨nil, unsent⟩ := outcome_unlabeled slurm deleted unlabeled
    simp [nil, unsent, unlabeled]
  · rw [if_neg unlabeled]
    rcases deleted with err | _
    · obtain ⟨nil, refused⟩ := outcome_refused slurm err unlabeled
      simp only [nil, refused, false_or, reduceCtorEq]
      exact iff_iff_implies_and_implies.symm
    · obtain ⟨nil, sent⟩ := outcome_acknowledged slurm unlabeled
      simp [nil, sent]

end

private def labeledPod : Pod :=
  { Pod.waiting (.of "ns" (.refl true)) (.of "a" (.refl true)) (.of "u" (.refl true))
      "slurm-bridge-scheduler" with
    labels := ((∅ : StringMap).insert labelExternalJobId "7").insert labelExternalHetJobId "7" }

private def record (id offset : Int) (state : JobState) : JobInfo where
  jobId := some id
  nodes := none
  jobState := some [state]
  priority := none
  hetJobId := some ⟨some true, some 7⟩
  hetJobOffset := some ⟨some true, some offset⟩
  adminComment := none

private def slurmOf (jobs : List JobInfo) : Slurm := ⟨jobs, fun key => some (parseSlurmJobId key)⟩

/-- The deletion counts as done though a component runs, because the Pod's own has completed; and it
fails though the only component has failed. -/
theorem deletion_not_confirmed :
    (outcome (slurmOf [record 7 0 .completed, record 8 1 .running]) labeledPod
        (.error (.other none "timeout")) = .ok () ∧
      Unfinished (slurmOf [record 7 0 .completed, record 8 1 .running]) labeledPod ∧
      ¬ Acknowledged (slurmOf [record 7 0 .completed, record 8 1 .running]) labeledPod
        (.error (.other none "timeout"))) ∧
    (outcome (slurmOf [record 7 0 .failed]) labeledPod (.error (.other none "already done")) ≠ .ok () ∧
      ¬ Unfinished (slurmOf [record 7 0 .failed]) labeledPod) := by
  refine ⟨⟨rfl, ⟨record 8 1 .running, by simp [slurmOf], rfl, rfl⟩, ?_⟩, ?_, ?_⟩
  · exact (outcome_refused _ _ (by decide)).2
  · decide +kernel
  · rintro ⟨job, member, -, unfinished⟩
    rw [List.mem_singleton.mp member] at unfinished
    cases unfinished

end SlurmBridge.Scheduler.SlurmControl
