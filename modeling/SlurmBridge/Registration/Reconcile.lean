/- source: internal/controller/registration/controller.go, registration.go, rejection.go,
     events.go, duplicates.go
   digest: One pass of the registration controller over an allocation key. -/

import SlurmBridge.Registration.Duplicates
import SlurmBridge.Registration.Lifecycle

set_option autoImplicit false

namespace SlurmBridge.Registration.Reconcile

open Kube.Objects Kube.Reads JobIR.IR JobIR.Translate Slurm.Ownership Slurm.Job Slurm.Allocation
open Slurm.Metadata Registration.Interface Registration.Duplicates Registration.Lookup Registration.Membership
open Registration.Lifecycle

def registrationRetry : Nat := 2
def registrationDependencyRetry : Nat := 5
def requestRetry : Nat := 600
def limitRetry : Nat := 60

/-- How a pass ends: when the key is queued again, if it is, and the errors that make the queue
back off. -/
structure Outcome where
  requeueAfter : Option Nat := none
  errors : List Err := []
  deriving DecidableEq, Repr

/-- Waits that are expected while workload controllers create objects. -/
def isExpectedWait : Err → Bool
  | .kube .notFound | .podGroupNoPods | .lwsNoPods | .lwsLeaderMissing => true
  | _ => false

def registrationReadResult : Option Err → Outcome
  | none => {}
  | some e =>
    if isExpectedWait e then { requeueAfter := some registrationDependencyRetry }
    else { errors := [e] }

def registrationReadEvent (key : Request) (err : Option Err) : Ctl Outcome := do
  match err with
  | none => pure {}
  | some e => do
      if isExpectedWait e then
        perform (.event key "WaitingForMembers" e.message)
      else
        perform (.event key "SlurmRegistrationFailed" e.message)
      pure (registrationReadResult err)

/-- How Slurm refused a submission. -/
inductive Rejection
  | other
  | request
  | limit
  deriving DecidableEq, Repr

def classifyRejection : Option SlurmErrorNumber → Rejection
  | none | some (.other _) => .other
  | some .maxJobCount | some .accountingPolicy | some .partitionNotAvail | some .partitionDown =>
    .limit
  | some _ => .request

/-- Whether a new submission may be attempted now.  A known submission that is first observed as
terminal can be replaced at once. -/
def submissionAllowed (jobs : List RegisteredJob) (cooldown : Option Int) (members : List Pod)
    (eligible : Pod → Bool) : Bool :=
  members.all eligible &&
    match cooldown with
    | none => true
    | some id => id != 0 && jobs.any fun job => job.allocationID == id

def publishedPod (member : Pod) (job : ExternalJob) : Pod :=
  let updated := podWithMetadata member job true
  { updated with
    schedulingGates := updated.schedulingGates.filter fun gate =>
      gate != schedulingGateRegistration }

def publishMember (r : Reconciler) (job : ExternalJob) (errs : List Err) (member : Pod) : Ctl (List Err) :=
  if !eligible r member || decide (publishedPod member job = member) then
    pure errs
  else do
    match ← perform (.patchPod member (publishedPod member job)) with
    | .error .notFound | .ok () => pure errs
    | .error e => pure (errs ++ [.kube e])

def publish (r : Reconciler) (ir : SlurmJobIR) (components : List ExternalJob) : Ctl (List Err) :=
  (ir.components.zip components).foldlM (fun errs (component, job) =>
    if job.finished then pure errs
    else component.pods.foldlM (publishMember r job) errs) []

def remember (key : Request) (reply : SubmitReply) : Ctl Unit :=
  if reply.error.any SubmitError.notSubmitted then perform (.recentDelete key)
  else perform (.recentSet key reply.id)

def reportSubmission (key : Request) : Option SubmitError → Ctl Outcome
  | none => do
      perform (.clearEvent key)
      pure { requeueAfter := some registrationRetry }
  | some e =>
    match classifyRejection e.number with
    | .request => do
        perform (.event key "SlurmRegistrationRejected" e.text)
        pure { requeueAfter := some requestRetry }
    | .limit => do
        perform (.event key "WaitingForSlurm" e.text)
        pure { requeueAfter := some limitRetry }
    | .other => do
        perform (.event key "SlurmRegistrationFailed" e.text)
        pure { requeueAfter := some registrationRetry, errors := [.text e.text] }

/-- Submit the workload if it is ready and no recent submission is in flight. -/
def submitWorkload (r : Reconciler) (key : Request) (pod : Pod) (ir : SlurmJobIR)
    (jobs : List RegisteredJob) : Ctl Outcome := do
  let waiting : Outcome := { requeueAfter := some registrationRetry }
  let cooldown ← perform (.recentGet key)
  if !submissionAllowed jobs cooldown ir.allPods (eligible r) then
    pure waiting
  else
    match ← through .cached (registrationReady pod ir).run with
    | .error e => registrationReadEvent key (some e)
    | .ok (.waiting message) => do
        perform (.event key "WaitingForMembers" message)
        pure waiting
    | .ok .ready => do
        let reply ← perform (.registerJob ir)
        remember key reply
        reportSubmission key reply.error

def register (r : Reconciler) (key : Request) (pod : Pod) (ir : SlurmJobIR)
    (jobs : List RegisteredJob) : Ctl Outcome := do
  if jobs.any fun job => !job.finished then do
    perform (.recentDelete key)
    match matchAllocationComponents ir jobs with
    | .error e => pure { requeueAfter := some registrationRetry, errors := [e] }
    | .ok none => pure { requeueAfter := some registrationRetry }
    | .ok (some components) => do
        perform (.clearEvent key)
        let errs ← publish r ir components
        pure { errors := errs }
  else
    submitWorkload r key pod ir jobs

/-- Register through the first eligible member that still belongs to the key. -/
def registerFirst (r : Reconciler) (key : Request) (identity : AllocationIdentity)
    (jobs : List RegisteredJob) : List Pod → Ctl Outcome
  | [] => pure {}
  | pod :: rest =>
    if !eligible r pod then
      registerFirst r key identity jobs rest
    else do
      match ← through .cached (translateToSlurmJobIR r.workloadAPI pod).run with
      | .error e => registrationReadEvent key (some e)
      | .ok ir =>
        if allocationKey pod ir.rootPOM ≠ key then do
          perform (.enqueue (allocationKey pod ir.rootPOM))
          registerFirst r key identity jobs rest
        else
          match identityForAllocation pod ir with
          | (_, some e) => registrationReadEvent key (some e)
          | (current, none) =>
            -- The leader of a legacy LWS changed while membership was read.
            if current.index ≠ identity.index ∨ current.key ≠ identity.key then
              pure { requeueAfter := some registrationRetry }
            else
              register r key pod ir jobs

def recordedOwner (job : RegisteredJob) : Option GroupIdentity :=
  match job.ownership.compositePodGroup with
  | some composite => some composite
  | none => job.ownership.podGroup

/-- The first recorded owner that another key is responsible for. -/
def redirect (key : Request) (jobs : List RegisteredJob) : Option Request :=
  ((jobs.filterMap recordedOwner).map groupKey).find? fun owner => owner ≠ key

/-- The keys whose conflicts a pass may resolve. -/
def duplicateKeys (index : JobIndex) (identity : AllocationIdentity) (pods : List Pod) : List String :=
  (if index = .pod then "pod/" ++ identity.key else identity.key) ::
    pods.flatMap fun pod => ["pod/" ++ podKey pod, "pod/" ++ pod.namespacedName]

def cleanDuplicates (index : JobIndex) (identity : AllocationIdentity) (pods : List Pod) : Ctl (List Err) :=
  cleanDuplicateAllocations (duplicateKeys index identity pods)

/-- After the jobs are known and agree: lifecycle first, then registration. -/
def reconcileAllocation (r : Reconciler) (key : Request) (found : Members)
    (jobs : List RegisteredJob) : Ctl Outcome := do
  match ← (reconcileLifecycle r key found.pods jobs).run with
  | .error e => pure { requeueAfter := some registrationRetry, errors := [e] }
  | .ok true => pure { requeueAfter := some registrationRetry }
  | .ok false =>
    match found.error with
    | some e => registrationReadEvent key (some e)
    | none =>
      registerFirst r key found.identity jobs (found.pods.insertionSort fun a b => a.name.text ≤ b.name.text)

/-- What to do with the jobs found under a key's identity. -/
def reconcileFound (r : Reconciler) (key : Request) (index : JobIndex) (found : Members)
    (jobs : List RegisteredJob) (err : Option Err) : Ctl Outcome := do
  match redirect key jobs with
  | some owner => do
      perform (.enqueue owner)
      pure {}
  | none =>
    match err with
    | some (.ambiguousAllocation _) => do
        let errs ← cleanDuplicates index found.identity found.pods
        pure {
          requeueAfter := some registrationRetry
          errors := (registrationReadResult found.error).errors ++ errs }
    | some e => pure { errors := [e] }
    | none =>
      match found.error with
      | none => reconcileAllocation r key found jobs
      | some e =>
        if isExpectedWait e then reconcileAllocation r key found jobs
        else registrationReadEvent key (some e)

def reconcileMembers (r : Reconciler) (key : Request) (found : Members) : Ctl Outcome :=
  match found.identity.index with
  | none => registrationReadEvent key found.error
  | some index => do
      match ← perform .informerSynced with
      | .error e => pure { requeueAfter := some registrationRetry, errors := [e] }
      | .ok false => pure { requeueAfter := some registrationRetry }
      | .ok true => do
          let (jobs, err) ← indexedAllocation index found.identity
          reconcileFound r key index found jobs err

def reconcile (r : Reconciler) (key : Request) : Ctl Outcome := do
  let found ← membersFrom r .cached key
  reconcileMembers r key found

end SlurmBridge.Registration.Reconcile
