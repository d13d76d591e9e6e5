/- source: internal/controller/registration/controller.go, internal/utils/slurmjob/allocation.go,
     allocation_identity.go
   digest: When a submitted workload has no unfinished owner in the informer content that the
     pass used. -/

import SlurmBridge.Registration.MembershipSpec
import SlurmBridge.Registration.Submission

set_option autoImplicit false

namespace SlurmBridge.Registration.SubmissionOwner

open Foundation.Interaction Kube.Objects Kube.Reads JobIR.IR JobIR.Translate Slurm.Ownership Slurm.Job
open Slurm.Allocation Registration.Interface Registration.LookupSpec Registration.Membership
open Registration.MembershipSpec Registration.Reconcile Registration.Submission

/-- The record names the group as the owner of its workload. -/
def RecordsGroup (raw : JobInfo) (group : GroupIdentity) : Prop :=
  ∃ info, parseIntoExternalJobInfo raw.adminComment = some info ∧
    (info.podGroup = some group ∨ info.compositePodGroup = some group)

/-- The record already owns the workload: by the group, by a PodGroup's member if it has no group
metadata, or by the single Pod. -/
def Owns (raw : JobInfo) (ir : SlurmJobIR) : Prop :=
  (∃ group, newGroupIdentity ir.rootPOM = some group ∧ RecordsGroup raw group) ∨
    (GangPodGroup ir.rootPOM ∧ ∃ pod ∈ ir.allPods, ∃ form ∈ podForms pod, form ∈ jobLegacyPodKeys raw) ∨
    (SinglePod ir.rootPOM ∧ ∃ pod ∈ ir.allPods, ∃ form ∈ podForms pod, form ∈ jobPodKeys raw)

/-- No unfinished record is out of the lookup's sight.  A PodGroup's Pod that an unfinished record
without group metadata lists was a member when membership was read, and no record of a single
Pod's UID stands before an unfinished one of its name. -/
structure NothingHidden (content : List JobInfo) (members : List Pod) (ir : SlurmJobIR) : Prop where
  joined : GangPodGroup ir.rootPOM → ∀ raw ∈ content, isFinishedJob raw = false →
    ∀ pod ∈ ir.allPods, ∀ form ∈ podForms pod, form ∈ jobLegacyPodKeys raw →
      ∃ member ∈ members, form ∈ podForms member
  named : SinglePod ir.rootPOM → ∀ pod ∈ ir.allPods, (∃ raw ∈ content, podKey pod ∈ jobPodKeys raw) →
      ∀ raw ∈ content, isFinishedJob raw = false → pod.namespacedName ∉ jobPodKeys raw

section
variable {r : Reconciler} {key : Request} {found : Members} {h : Trace surroundings}
  {ir : SlurmJobIR} {content : List JobInfo}

section
variable (submits : Submits r key found h ir)

include submits

private theorem candidates_finished (distinct : (content.map JobInfo.key).Nodup)
    (serves : ∀ e ∈ submits.looked.lookups, Serves content e) :
    ∀ raw ∈ submits.looked.candidates, isFinishedJob raw = true := by
  intro raw member
  obtain ⟨job, inside, from_⟩ := submits.looked.registered distinct serves raw member
  rw [← fromJobInfo_finished (registeredJobFromInfo_ok from_).1]
  exact submits.finished job inside

variable {raw : JobInfo}

section
variable (candidates : Candidates content submits.looked.index found.identity submits.looked.candidates)

include candidates

private theorem group_unowned
    {group : GroupIdentity} (identity : newGroupIdentity ir.rootPOM = some group) (inside : raw ∈ content)
    (records : RecordsGroup raw group) : raw ∈ submits.looked.candidates := by
  obtain ⟨current, own, index, sameKey⟩ := submits.workload.identity
  simp only [identityForAllocation, identity, Prod.mk.injEq] at own
  have isGroup : submits.looked.index = .group := by
    have indexed := submits.looked.indexed
    rw [← index, ← own.1] at indexed
    exact (Option.some.inj indexed).symm
  refine candidates.primary raw inside ?_
  rw [← sameKey, ← own.1, isGroup, JobIndex.keys_group]
  obtain ⟨info, parsed, podGroup | composite⟩ := records
  · simp [jobGroupKeys, parsed, podGroup]
  · simp [jobGroupKeys, parsed, composite]

variable {form : String}

private theorem gang_unowned
    {reads : Trace surroundings} (membership : Exec (membersFrom r .cached key) reads found)
    (gang : GangPodGroup ir.rootPOM) (inside : raw ∈ content) (listed : form ∈ jobLegacyPodKeys raw)
    {member : Pod} (inMembers : member ∈ found.pods) (formOf : form ∈ podForms member) :
    raw ∈ submits.looked.candidates := by
  obtain ⟨group, identity⟩ := Option.isSome_iff_exists.mp gang.1
  have kind : key.kind = "PodGroup" := by
    rw [← submits.workload.own, allocationKey, identity, newGroupIdentity_eq identity]
    exact gang.2
  exact candidates.legacy raw inside form (legacy_of_members kind membership member inMembers form formOf)
    listed

private theorem single_unowned (single : SinglePod ir.rootPOM)
    (named : ∀ pod ∈ ir.allPods, (∃ raw ∈ content, podKey pod ∈ jobPodKeys raw) → ∀ raw ∈ content, isFinishedJob raw = false → pod.namespacedName ∉ jobPodKeys raw)
    (inside : raw ∈ content) (unfinished : isFinishedJob raw = false) {pod : Pod} (member : pod ∈ ir.allPods)
    (formOf : form ∈ podForms pod) (listed : form ∈ jobPodKeys raw) : raw ∈ submits.looked.candidates := by
  obtain ⟨_, _, _, _, run⟩ := submits.workload.translated
  obtain ⟨t, -, translated⟩ := exec_through run
  have onlyPod := translate_single t ir translated single
  have samePod : pod = submits.pod := by simpa [onlyPod] using member
  obtain ⟨current, own, index, sameKey⟩ := submits.workload.identity
  simp only [identityForAllocation, single.1, if_neg single.2, Prod.mk.injEq] at own
  have isPod : submits.looked.index = .pod := by
    have indexed := submits.looked.indexed
    rw [← index, ← own.1] at indexed
    exact (Option.some.inj indexed).symm
  have keyEq : found.identity.key = podKey pod := by
    rw [← sameKey, ← own.1, samePod]
    rfl
  have byUid : ∀ raw ∈ content, podKey pod ∈ jobPodKeys raw → raw ∈ submits.looked.candidates := by
    intro raw inside listed
    exact candidates.primary raw inside (by rwa [isPod, keyEq])
  have forms : form = podKey pod ∨ form = pod.namespacedName := by
    simpa [podForms] using formOf
  rcases forms with rfl | rfl
  · exact byUid raw inside listed
  · by_cases noUid : pod.uid.text = ""
    · exact byUid raw inside (by rwa [podKey, if_pos noUid])
    · -- The name is consulted, since a record of the UID would hide this one.
      refine candidates.fallback isPod ?_ ?_ raw inside ?_
      · rwa [keyEq, parsePodKey_podKey]
      · intro raw' inside' listed'
        exact named pod member ⟨raw', inside', keyEq ▸ listed'⟩ raw inside unfinished listed
      · rw [keyEq, parsePodKey_podKey]
        exact listed

end

end

end

/-- A workload is submitted without an unfinished owner in the informer content of the pass, and
with waiting Pods of this scheduler only, exactly when nothing is hidden from the lookup. -/
theorem submission_unowned_iff {r : Reconciler} {key : Request} {found : Members}
    {reads t : Trace surroundings} {content : List JobInfo} {ir : SlurmJobIR} {reply : SubmitReply}
    {rest : Ctl Outcome} (distinct : (content.map JobInfo.key).Nodup)
    (membership : Exec (membersFrom r .cached key) reads found)
    (pass : Reaches (reconcile r key) (reads ++ (t ++ [⟨.registerJob ir, reply⟩])) rest)
    (serves : ∀ e ∈ t, Serves content e) :
    ((∀ raw ∈ content, isFinishedJob raw = false → ¬ Owns raw ir) ∧
      ∀ pod ∈ ir.allPods, pod.nodeName = "" ∧ pod.deleting = false ∧ isPodTerminal pod = false ∧
        pod.schedulerName = r.schedulerName) ↔
      NothingHidden content found.pods ir := by
  obtain ⟨submits⟩ := lawful_of_pass (reaches_after membership pass)
  have served : ∀ e ∈ submits.looked.lookups, Serves content e :=
    fun e member => serves e (submits.lookup_mem member)
  have candidates := submits.looked.served content served
  have settled := candidates_finished submits distinct served
  constructor
  · rintro ⟨unowned, -⟩
    refine ⟨fun gang raw inside unfinished pod member form formOf listed => ?_,
      fun single pod member _ raw inside unfinished listed => ?_⟩
    · exact absurd (.inr (.inl ⟨gang, pod, member, form, formOf, listed⟩))
        (unowned raw inside unfinished)
    · exact absurd (.inr (.inr ⟨single, pod, member, _, by simp [podForms], listed⟩))
        (unowned raw inside unfinished)
  · intro sight
    refine ⟨fun raw inside unfinished owns => ?_, fun pod member => ?_⟩
    · suffices found_ : raw ∈ submits.looked.candidates by
        rw [settled raw found_] at unfinished
        cases unfinished
      rcases owns with ⟨group, identity, records⟩ | ⟨gang, pod, member, form, formOf, listed⟩ |
        ⟨single, pod, member, form, formOf, listed⟩
      · exact group_unowned submits candidates identity inside records
      · obtain ⟨known, inMembers, formOf'⟩ :=
          sight.joined gang raw inside unfinished pod member form formOf listed
        exact gang_unowned submits candidates membership gang inside listed inMembers formOf'
      · exact single_unowned submits candidates single (sight.named single) inside unfinished member
          formOf listed
    · have allowed := submits.allowed
      simp only [submissionAllowed, Bool.and_eq_true, List.all_eq_true] at allowed
      have waits := allowed.1 pod member
      simp only [eligible, Bool.and_eq_true, beq_iff_eq, Bool.not_eq_true'] at waits
      exact ⟨waits.1.1.2, waits.1.2, waits.2, waits.1.1.1⟩

/- Pod ns/a with UID u waits with its gate.  A finished record lists it by UID, an unfinished one
from before Pod UIDs lists it by name. -/

private def hiddenReconciler : Reconciler := .withoutGroups "slurm-bridge"

private def hiddenPod : Pod :=
  { Pod.waiting (.of "ns" (.refl true)) (.of "a" (.refl true)) (.of "u" (.refl true)) "slurm-bridge" with
    schedulingGates := [schedulingGateRegistration] }

private def podRecord (id : Int) (state : JobState) (key : String) : JobInfo where
  jobId := some id
  nodes := none
  jobState := some [state]
  priority := none
  hetJobId := none
  hetJobOffset := none
  adminComment := (ExternalJobInfo.mk [key] none none).toComment

private def hiddenContent : List JobInfo :=
  [podRecord 7 .completed "ns/a/u", podRecord 8 .running "ns/a"]

private def hiddenRoot : PartialObjectMetadata := ⟨podV1, "ns", "a", "u", []⟩

private def hiddenIR : SlurmJobIR := ⟨hiddenRoot, fromPod hiddenPod⟩

private def answerHidden : (c : Command) → c.Reply
  | .read _ (.pod _ _) => (.ok hiddenPod : Except KubeError Pod)
  | .read _ (.object _ _ _) => (.ok hiddenRoot : Except KubeError PartialObjectMetadata)
  | .read _ (.podsWithLabel _ _ _) => (.ok [] : Except KubeError (List Pod))
  | .read _ (.settings _ _) => (.ok [] : Except Err (List SlurmJobIRJobInfo))
  | .informerSynced => (.ok true : Except Err Bool)
  | .jobsByIndex index key =>
    (.ok (hiddenContent.filter fun raw => (index.keys raw).contains key) : Except SlurmError (List JobInfo))
  | .registerJob _ => SubmitReply.mk 9 none
  | c => c.refuse

private def hiddenMembers : Members := ⟨[hiddenPod], podAllocationIdentity hiddenPod, none⟩

private def hiddenReads : Trace surroundings :=
  traceOf answerHidden (membersFrom hiddenReconciler .cached (podRequest hiddenPod))

private def hiddenTrace : Trace surroundings :=
  (traceOf answerHidden (reconcileMembers hiddenReconciler (podRequest hiddenPod) hiddenMembers)).take 10

private theorem hidden_membership :
    Exec (membersFrom hiddenReconciler .cached (podRequest hiddenPod)) hiddenReads hiddenMembers :=
  exec_traceOf (I := surroundings) answerHidden _

private theorem hidden_pass : ∃ rest, Reaches (reconcile hiddenReconciler (podRequest hiddenPod))
      (hiddenReads ++ (hiddenTrace ++ [⟨.registerJob hiddenIR, SubmitReply.mk 9 none⟩])) rest := by
  have whole := (exec_traceOf answerHidden (reconcile hiddenReconciler (podRequest hiddenPod))).reaches
  exact whole.stop

private theorem hidden_serves : ∀ e ∈ hiddenTrace, Serves hiddenContent e := by
  intro e member
  have reply := mem_traceOf (List.mem_of_mem_take member)
  obtain ⟨c, r⟩ := e
  dsimp only at reply
  subst reply
  cases c with
  | jobsByIndex index key => exact List.Perm.refl _
  | _ => trivial

theorem submission_unowned_iff_hidden :
    ((∀ raw ∈ hiddenContent, isFinishedJob raw = false → ¬ Owns raw hiddenIR) ∧
      ∀ pod ∈ hiddenIR.allPods, pod.nodeName = "" ∧ pod.deleting = false ∧
        isPodTerminal pod = false ∧ pod.schedulerName = hiddenReconciler.schedulerName) ↔
      NothingHidden hiddenContent hiddenMembers.pods hiddenIR := by
  obtain ⟨rest, pass⟩ := hidden_pass
  exact submission_unowned_iff (by decide) hidden_membership pass hidden_serves

/-- A finished record of a Pod's UID hides an unfinished one of its name, and the Pod's workload is
submitted again. -/
theorem submission_over_hidden_owner :
    (∃ rest, Reaches (reconcile hiddenReconciler (podRequest hiddenPod))
        (hiddenReads ++ (hiddenTrace ++ [⟨.registerJob hiddenIR, SubmitReply.mk 9 none⟩])) rest) ∧
      (∀ e ∈ hiddenTrace, Serves hiddenContent e) ∧
      ∃ raw ∈ hiddenContent, isFinishedJob raw = false ∧ Owns raw hiddenIR := by
  refine ⟨hidden_pass, hidden_serves, podRecord 8 .running "ns/a", by simp [hiddenContent], rfl, ?_⟩
  have single : SinglePod hiddenIR.rootPOM := ⟨rfl, by decide⟩
  exact .inr (.inr ⟨single, hiddenPod, by decide, "ns/a", by decide, by decide⟩)

end SlurmBridge.Registration.SubmissionOwner
