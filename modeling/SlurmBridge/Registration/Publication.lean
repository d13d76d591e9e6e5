/- source: internal/controller/registration/registration.go, pod_metadata.go,
     internal/utils/slurmjob/allocation.go
   digest: The evidence behind every job label a pass writes, and what a patch that removes the
     registration gate does to the Pod. -/

import SlurmBridge.Registration.MembershipSpec
import SlurmBridge.Registration.Submission

set_option autoImplicit false

namespace SlurmBridge.Registration.Publication

open Foundation.Interaction Kube.Objects Kube.Reads JobIR.IR JobIR.Translate Slurm.Ownership Slurm.Job
open Slurm.Allocation Slurm.Collected Slurm.Metadata Registration.Interface Registration.Lookup
open Registration.LookupSpec Registration.Membership Registration.MembershipSpec Registration.Lifecycle
open Registration.Reconcile Registration.Effects Registration.Cleanup Registration.Submission List

def Indexed : Event surroundings → Prop
  | ⟨.jobsByIndex index key, reply⟩ =>
    ∀ jobs, (reply : Except SlurmError (List JobInfo)) = .ok jobs → ∀ raw ∈ jobs, key ∈ index.keys raw
  | _ => True

variable {t : Trace surroundings} {raw : JobInfo}

theorem Indexed.keys (indexed : ∀ e ∈ t, Indexed e) {index : JobIndex} {key : String}
    (read : ReadUnder t index key raw) : key ∈ index.keys raw := by
  obtain ⟨jobs, member, event⟩ := read
  exact indexed _ event jobs rfl raw member

def Lists (pod : Pod) (raw : JobInfo) : Prop := ∃ form ∈ podForms pod, form ∈ jobPodKeys raw

/-- Why a Pod may carry the id of a record that was read on the way. -/
inductive Holds (r : Reconciler) (t : Trace surroundings) (pod : Pod) (raw : JobInfo) : Prop
  | live (read : ReadLive t raw.key raw) (lists : Lists pod raw)
  | listed {index : JobIndex} {key : String} (read : ReadUnder t index key raw) (lists : Lists pod raw)
  /-- The record is of the group that is the root of the Pod's workload, and for a composite of the
  Pod's own leaf. -/
  | grouped {index : JobIndex} {key : String} (read : ReadUnder t index key raw) {first : Pod}
      {ir : SlurmJobIR} (translated : TranslatedIn r t first ir) {component : SlurmJobComponent}
      (inside : component ∈ ir.components) (member : pod ∈ component.pods) {group : GroupIdentity}
      (root : newGroupIdentity ir.rootPOM = some group) {job : RegisteredJob}
      (registered : registeredJobFromInfo raw = .ok job) (owner : recordedOwner job = some group)
      (leaf : ir.rootPOM.typeMeta.kind = "CompositePodGroup" →
        job.ownership.podGroup = newGroupIdentity component.objectMeta)
  /-- The record lists the leader of the Pod's replica group. -/
  | led {index : JobIndex} {key : String} (read : ReadUnder t index key raw) {first : Pod}
      {ir : SlurmJobIR} (translated : TranslatedIn r t first ir) (member : pod ∈ ir.allPods)
      (set : ir.rootPOM.typeMeta.kind = "LeaderWorkerSet") {leader : Pod}
      (leads : leader ∈ ir.allPods)
      (leader_ : isLwsLeader (first.label lwsGroupUniqueHashLabelKey) leader = true)
      (lists : Lists leader raw)

section
variable {r : Reconciler} {key : Request} {found : Members} {h : Trace surroundings}
  {read updated : Pod}

variable {job : RegisteredJob}

theorem recordedOwner_of_undisputed {jobs : List RegisteredJob} {group : GroupIdentity}
    (undisputed : Undisputed key found jobs) (own : groupKey group = key) (member : job ∈ jobs)
    {owner : GroupIdentity} (recorded : recordedOwner job = some owner) : owner = group := by
  have same := find?_eq_none.mp undisputed.owned (groupKey owner)
    (mem_map_of_mem (mem_filterMap.mpr ⟨job, member, recorded⟩))
  rw [← own] at same
  simp only [ne_eq, decide_not, Bool.not_eq_true', decide_eq_false_iff_not, not_not] at same
  cases owner
  cases group
  simp only [groupKey, Request.mk.injEq] at same
  simp only [GroupIdentity.mk.injEq]
  exact ⟨same.1, same.2.1, same.2.2.1, same.2.2.2.1, same.2.2.2.2.1⟩

variable {raw : JobInfo} {form : String}

theorem recordedOwner_isSome (registered : registeredJobFromInfo raw = .ok job)
    (listed : form ∈ jobGroupKeys raw) : ∃ owner, recordedOwner job = some owner := by
  unfold jobGroupKeys at listed
  rw [(registeredJobFromInfo_ok registered).2] at listed
  unfold recordedOwner
  split
  · exact ⟨_, rfl⟩
  · rename_i noComposite
    cases podGroup : job.ownership.podGroup with
    | none => simp [noComposite, podGroup] at listed
    | some group => exact ⟨group, rfl⟩

/-- The cached record that a publication names. -/
structure Named (publishes : Publishes r key found h read updated) (raw : JobInfo)
    (own : RegisteredJob) : Prop where
  job : own.toExternalJob = publishes.job
  registered : registeredJobFromInfo raw = .ok own
  member : own ∈ publishes.jobs
  sought : ∃ i form, Sought publishes.looked.index found.identity i form ∧ ReadUnder h i form raw
  leaf : publishes.ir.rootPOM.typeMeta.kind = "CompositePodGroup" →
    own.ownership.podGroup = newGroupIdentity publishes.component.objectMeta
  covers : publishes.ir.rootPOM.typeMeta.kind = "PodGroup" → own.ownership.podGroup = none →
    coversMembers own.ownership publishes.component = true

theorem named_of_publishes (publishes : Publishes r key found h read updated) :
    ∃ raw own, Named publishes raw own := by
  have matched := publishes.matched
  unfold matchAllocationComponents at matched
  split at matched
  · cases matched
  · split at matched
    · cases matched
    · have each := forall₂_iff_zip.mp (matchComponents_each matched)
      obtain ⟨own, member, job, fits, covers⟩ :=
        (matchComponent_sound (each.2 publishes.paired)).resolve_left nofun
      have sound := sound_run sound_start publishes.looked.collected
      have collected : own ∈ publishes.looked.state.jobs := by
        rw [publishes.looked.jobs_eq]
        exact member
      obtain ⟨raw, candidate, registered⟩ := sound.origin own collected
      obtain ⟨i, form, sought, under⟩ := publishes.looked.origin raw (by simpa using candidate)
      refine ⟨raw, own, job, registered, member, ⟨i, form, sought, under.mono ?_⟩, fits.2, covers⟩
      intro e inside
      rw [publishes.history, publishes.looked.history]
      simp [inside]

theorem translatedIn_of_publishes (publishes : Publishes r key found h read updated) :
    TranslatedIn r h publishes.pod publishes.ir := by
  obtain ⟨t₁, t₂, t₃, split, run⟩ := publishes.workload.translated
  refine ⟨t₁, t₂, t₃ ++ publishes.after, ?_, run⟩
  calc h = publishes.before ++ publishes.after := publishes.history
    _ = t₁ ++ t₂ ++ (t₃ ++ publishes.after) := by rw [split, append_assoc]

variable {pod : Pod}

theorem lists_of_covers {info : ExternalJobInfo} {component : SlurmJobComponent}
    (parsed : parseIntoExternalJobInfo raw.adminComment = some info)
    (covers : coversMembers info component = true) (member : pod ∈ component.pods) : Lists pod raw := by
  have listed := all_eq_true.mp covers pod member
  rw [Bool.or_eq_true, contains_iff_mem, contains_iff_mem] at listed
  have keys : jobPodKeys raw = info.pods := by simp [jobPodKeys, parsed]
  rcases listed with byKey | byName
  · exact ⟨podKey pod, by simp [podForms], keys ▸ byKey⟩
  · exact ⟨pod.namespacedName, by simp [podForms], keys ▸ byName⟩

theorem lists_of_sought {identity : AllocationIdentity} (own : identity.key = podKey pod) {i : JobIndex}
    (sought : Sought .pod identity i form) (noLegacy : ∀ form, form ∉ identity.legacyPodKeys)
    (listed : form ∈ i.keys raw) : Lists pod raw := by
  rcases sought with ⟨rfl, rfl⟩ | ⟨-, legacy⟩ | ⟨rfl, -, rfl⟩
  · exact ⟨podKey pod, by simp [podForms], own ▸ listed⟩
  · exact absurd legacy (noLegacy form)
  · rw [own, parsePodKey_podKey] at listed
    exact ⟨pod.namespacedName, by simp [podForms], listed⟩

section
variable {reads : Trace surroundings}

private theorem noLegacy (membership : Exec (membersFrom r .cached key) reads found)
    (publishes : Publishes r key found h read updated)
    (other : (allocationKey publishes.pod publishes.ir.rootPOM).kind ≠ "PodGroup") :
    ∀ form, form ∉ found.identity.legacyPodKeys := by
  intro form legacy
  rw [publishes.workload.own] at other
  exact other (podGroup_of_legacy membership publishes.undisputed.complete legacy)

private theorem index_eq (publishes : Publishes r key found h read updated) {index : JobIndex}
    (own : some index = found.identity.index) : publishes.looked.index = index := by
  rw [publishes.looked.indexed] at own
  exact (Option.some.inj own).symm

variable {raw : JobInfo} {own : RegisteredJob}

section
variable (membership : Exec (membersFrom r .cached key) reads found)

include membership

section
variable (indexed : ∀ e ∈ h, Indexed e)

include indexed

section
variable (publishes : Publishes r key found h read updated)

include publishes

private theorem holds_group (named : Named publishes raw own) {group : GroupIdentity}
    (root : newGroupIdentity publishes.ir.rootPOM = some group) : Holds r h read raw := by
  obtain ⟨i, form, sought, under⟩ := named.sought
  have listed := Indexed.keys indexed under
  have inside := (of_mem_zip publishes.paired).1
  obtain ⟨current, identity, index, -⟩ := publishes.workload.identity
  simp only [identityForAllocation, root, Prod.mk.injEq] at identity
  rw [← identity.1] at index
  have ownKey : groupKey group = key := by
    rw [← publishes.workload.own, allocationKey, root]
  rw [index_eq publishes index] at sought
  rcases sought with ⟨rfl, -⟩ | ⟨rfl, legacy⟩ | ⟨-, impossible, -⟩
  · -- Found under the group's key.
    obtain ⟨owner, recorded⟩ := recordedOwner_isSome named.registered listed
    have same := recordedOwner_of_undisputed publishes.undisputed ownKey named.member recorded
    exact .grouped under (translatedIn_of_publishes publishes) inside publishes.member root named.registered
      (same ▸ recorded) named.leaf
  · -- Found by a member of a PodGroup; such a record has no group.
    have kind : publishes.ir.rootPOM.typeMeta.kind = "PodGroup" := by
      have := podGroup_of_legacy membership publishes.undisputed.complete legacy
      rwa [← ownKey, newGroupIdentity_eq root] at this
    have parsed := (registeredJobFromInfo_ok named.registered).2
    have noGroup : own.ownership.podGroup = none := by
      simp only [JobIndex.keys_legacyPod, jobLegacyPodKeys, parsed] at listed
      split at listed
      · cases listed
      · rename_i ungrouped
        simp only [Bool.or_eq_true, not_or, Option.isSome_iff_ne_none, not_not] at ungrouped
        exact ungrouped.1
    exact .listed under (lists_of_covers parsed (named.covers kind noGroup) publishes.member)
  · cases impossible

private theorem holds_lws
    (named : Named publishes raw own) (noGroup : newGroupIdentity publishes.ir.rootPOM = none)
    (set : publishes.ir.rootPOM.typeMeta.kind = "LeaderWorkerSet") : Holds r h read raw := by
  obtain ⟨i, form, sought, under⟩ := named.sought
  have member : read ∈ publishes.ir.allPods :=
    mem_flatMap.mpr ⟨_, (of_mem_zip publishes.paired).1, publishes.member⟩
  obtain ⟨current, identity, index, ownKey⟩ := publishes.workload.identity
  simp only [identityForAllocation, noGroup, if_pos set, lwsAllocationIdentity] at identity
  split at identity
  · rename_i leader leads
    simp only [Prod.mk.injEq] at identity
    rw [← identity.1] at index ownKey
    rw [index_eq publishes index] at sought
    have lists := lists_of_sought ownKey.symm sought
      (noLegacy membership publishes (by simp [allocationKey, noGroup, set, objectRequest]))
      (Indexed.keys indexed under)
    exact .led under (translatedIn_of_publishes publishes) member set (mem_of_find?_eq_some leads)
      (find?_some leads) lists
  · split at identity <;> cases identity

private theorem holds_single
    (named : Named publishes raw own) (single : SinglePod publishes.ir.rootPOM) : Holds r h read raw := by
  obtain ⟨i, form, sought, under⟩ := named.sought
  obtain ⟨_, _, _, _, run⟩ := publishes.workload.translated
  obtain ⟨t, -, translated⟩ := exec_through run
  have member : read ∈ publishes.ir.allPods :=
    mem_flatMap.mpr ⟨_, (of_mem_zip publishes.paired).1, publishes.member⟩
  rw [translate_single t _ translated single, mem_singleton] at member
  obtain ⟨current, identity, index, ownKey⟩ := publishes.workload.identity
  simp only [identityForAllocation, single.1, if_neg single.2, Prod.mk.injEq] at identity
  rw [← identity.1] at index ownKey
  rw [index_eq publishes index] at sought
  refine .listed under (lists_of_sought ?_ sought (noLegacy membership publishes ?_)
    (Indexed.keys indexed under))
  · rw [member]
    exact ownKey.symm
  · simp [allocationKey, single.1, if_neg single.2, podRequest]

theorem holds_of_publishes : ∃ raw, Holds r h read raw ∧ raw.key = publishes.job.jobId ∧ 0 < raw.key:= by
  obtain ⟨raw, own, named⟩ := named_of_publishes publishes
  have converted := (registeredJobFromInfo_ok named.registered).1
  have id := fromJobInfo_jobId converted
  refine ⟨raw, ?_, by rw [← id, named.job], id ▸ (fromJobInfo_ok converted).1⟩
  cases root : newGroupIdentity publishes.ir.rootPOM with
  | some group => exact holds_group membership indexed publishes named root
  | none =>
    by_cases set : publishes.ir.rootPOM.typeMeta.kind = "LeaderWorkerSet"
    · exact holds_lws membership indexed publishes named root set
    · exact holds_single membership indexed publishes named ⟨root, set⟩

end

end

end

end

end

theorem Holds.append {r : Reconciler} {pod : Pod} (holds : Holds r t pod raw) (before : Trace surroundings) :
    Holds r (before ++ t) pod raw := by
  have earlier : ∀ {first ir}, TranslatedIn r t first ir → TranslatedIn r (before ++ t) first ir := by
    rintro first ir ⟨t₁, t₂, t₃, split, run⟩
    exact ⟨before ++ t₁, t₂, t₃, by simp [split], run⟩
  cases holds with
  | live read lists => exact .live (mem_append_right _ read) lists
  | listed read lists => exact .listed (read.mono (by simp)) lists
  | grouped read translated inside member root registered owner leaf =>
    exact .grouped (read.mono (by simp)) (earlier translated) inside member root registered owner leaf
  | led read translated member set leads leader lists =>
    exact .led (read.mono (by simp)) (earlier translated) member set leads leader lists

section
variable {r : Reconciler} {key : Request} {t : Trace surroundings}

theorem lawful_of_reconcile {c : Command} {reply : c.Reply} {rest : Ctl Outcome}
    (pass : Reaches (reconcile r key) (t ++ [⟨c, reply⟩]) rest) (writes : ¬ Reading c) :
    ∃ reads found t', t = reads ++ t' ∧
      Exec (membersFrom r .cached key) reads found ∧ Lawful r key found t' c := by
  have spec : wp (fun h c => ¬ Reading c → ∃ reads found t', h = reads ++ t' ∧
      Exec (membersFrom r .cached key) reads found ∧ Lawful r key found t' c)
      (reconcile r key) [] fun _ _ => True := by
    unfold reconcile
    rw [wp_bind]
    refine wp_of_only (reading_membersFrom _ _ _) (fun _ _ reading other => absurd reading other) ?_
    intro reads found run _
    refine wp_rebase wp_reconcileMembers (fun t' c lawful _ => ?_) fun _ _ _ => trivial
    exact ⟨reads, found, t', by simp, run, lawful⟩
  exact (wp_reaches spec pass).2 t ⟨c, reply⟩ [] rfl writes

theorem holds_of_repaired {read updated : Pod} (repaired : Repaired r t read updated) :
    ∃ raw job, Holds r t read raw ∧
      job.jobId = raw.key ∧ 0 < raw.key ∧ updated = podWithMetadata read job false := by
  obtain ⟨id, raw, job, live, confirmed, same⟩ := repaired.confirmed
  unfold confirmJob at confirmed
  dsimp only at confirmed
  split at confirmed
  · cases confirmed
  · rename_i listed
    split at confirmed
    · cases confirmed
    · rename_i own converted
      split at confirmed
      · rename_i sameId
        cases confirmed
        have isKey := fromJobInfo_jobId converted
        refine ⟨raw, job, .live ?_ ?_, isKey, isKey ▸ (fromJobInfo_ok converted).1, same⟩
        · rw [← isKey, sameId]
          exact live
        · simp only [Bool.and_eq_true, Bool.not_eq_true', not_and, Bool.not_eq_false,
            contains_iff_mem] at listed
          by_cases byKey : podKey read ∈ jobPodKeys raw
          · exact ⟨_, by simp [podForms], byKey⟩
          · exact ⟨_, by simp [podForms], listed (by simpa using byKey)⟩
      · cases confirmed

/-- The Pod carries the job's id after the patch: the patch writes it, unless the Pod's label already
names the job. -/
def Carries (id : Int) (read updated : Pod) : Prop :=
  updated.labels.lookup labelExternalJobId = some (itoa id) ∨
    (parseSlurmJobId (read.label labelExternalJobId) = id ∧
      updated.labels.lookup labelExternalJobId = read.labels.lookup labelExternalJobId)

/-- What a patch that removes the registration gate does. -/
structure Opened (r : Reconciler) (t : Trace surroundings) (read updated : Pod) : Prop where
  label : ∃ raw, Holds r t read raw ∧ 0 < raw.key ∧ Carries raw.key read updated
  unbound : read.nodeName = ""
  staying : read.deleting = false
  running : isPodTerminal read = false
  binding : updated.nodeName = read.nodeName
  gates : updated.schedulingGates = read.schedulingGates.filter fun gate => gate != schedulingGateRegistration

variable {job : ExternalJob}

theorem label_podWithMetadata (pod : Pod) (adopt : Bool) (positive : 0 < job.jobId) :
    (podWithMetadata pod job adopt).labels.lookup labelExternalJobId = pod.labels.lookup labelExternalJobId ∨
      (podWithMetadata pod job adopt).labels.lookup labelExternalJobId = some (itoa job.jobId) := by
  rw [labels_podWithMetadata]
  split
  · rw [lookup_jobLabels positive]
    split
    · exact .inr rfl
    · exact .inl rfl
  · exact .inl rfl

theorem carries_publishedPod (pod : Pod) (positive : 0 < job.jobId) (unfinished : job.finished = false) :
    Carries job.jobId pod (publishedPod pod job) := by
  have labels : (publishedPod pod job).labels = jobLabels pod.labels job := by
    unfold publishedPod
    rw [labels_podWithMetadata, if_pos ⟨.inr rfl, unfinished⟩]
  unfold Carries
  rw [labels, lookup_jobLabels positive]
  split
  · exact .inl rfl
  · rename_i named
    rw [not_not] at named
    exact .inr ⟨named, rfl⟩

/-- Every job label that a pass writes is backed by a record read in the pass, and the registration
gate goes only together with it. -/
theorem patch_backed {t : Trace surroundings} {read updated : Pod} {reply : Except KubeError Unit}
    {rest : Ctl Outcome} (indexed : ∀ e ∈ t, Indexed e)
    (pass : Reaches (reconcile r key) (t ++ [⟨.patchPod read updated, reply⟩]) rest) :
    (updated.labels.lookup labelExternalJobId ≠ read.labels.lookup labelExternalJobId →
      ∃ raw, Holds r t read raw ∧ updated.labels.lookup labelExternalJobId = some (itoa raw.key)) ∧
    (hasRegistrationGate read = true → hasRegistrationGate updated = false →
      Opened r t read updated) := by
  obtain ⟨reads, found, t', rfl, membership, lawful⟩ := lawful_of_reconcile pass id
  rcases lawful with repaired | dropped | published
  · obtain ⟨raw, job, holds, isKey, positive, same⟩ := holds_of_repaired repaired
    rw [← isKey] at positive
    refine ⟨fun changed => ⟨raw, holds.append reads, ?_⟩, fun had lost => ?_⟩
    · rw [same] at changed ⊢
      rw [← isKey]
      exact (label_podWithMetadata read false positive).resolve_left changed
    · have kept : updated.schedulingGates = read.schedulingGates := by simp [same]
      rw [hasRegistrationGate, kept] at lost
      exact absurd (had.symm.trans lost) (by decide)
  · refine ⟨fun changed => absurd (by rw [dropped]; rfl) changed, fun had lost => ?_⟩
    have kept : updated.schedulingGates = read.schedulingGates := by rw [dropped]; rfl
    rw [hasRegistrationGate, kept] at lost
    exact absurd (had.symm.trans lost) (by decide)
  · obtain ⟨publishes⟩ := published
    have indexed' : ∀ e ∈ t', Indexed e := fun e member => indexed e (mem_append_right _ member)
    obtain ⟨raw, holds, isKey, positive⟩ := holds_of_publishes membership indexed' publishes
    rw [isKey] at positive
    have carries := carries_publishedPod read positive publishes.unfinished
    rw [← publishes.published, ← isKey] at carries
    have waits := publishes.waits
    simp only [eligible, Bool.and_eq_true, beq_iff_eq, Bool.not_eq_true'] at waits
    refine ⟨fun changed => ⟨raw, holds.append reads, carries.resolve_right fun kept => changed kept.2⟩,
      fun _ _ => ⟨⟨raw, holds.append reads, isKey ▸ positive, carries⟩, waits.1.1.2, waits.1.2,
        waits.2, ?_, ?_⟩⟩
    · rw [publishes.published]
      simp [publishedPod]
    · rw [publishes.published]
      simp [publishedPod]

end

/- The gang ns/g was registered with its member a.  Its member b joined later. -/

private def lateReconciler : Reconciler :=
  ⟨"slurm-bridge", some podGroupV1Beta1, fun _ is => Option.some.inj is ▸ rfl⟩

private def gangMember (name : Foundation.Text.Segment) : Pod :=
  { Pod.waiting (.of "ns" (.refl true)) name name "slurm-bridge" with
    schedulingGates := [schedulingGateRegistration]
    schedulingGroup := some (some "g") }

private def firstMember : Pod := gangMember (.of "a" (.refl true))

private def lateMember : Pod := gangMember (.of "b" (.refl true))

private def lateRoot : PartialObjectMetadata := ⟨podGroupV1Beta1, "ns", "g", "u", []⟩

private def lateRecord : JobInfo where
  jobId := some 7
  nodes := none
  jobState := some [.pending]
  priority := none
  hetJobId := none
  hetJobOffset := none
  adminComment := (ExternalJobInfo.mk [podKey firstMember] (newGroupIdentity lateRoot) none).toComment

private def answerLate : (c : Command) → c.Reply
  | .read _ (.pod _ "a") => (.ok firstMember : Except KubeError Pod)
  | .read _ (.pod _ "b") => (.ok lateMember : Except KubeError Pod)
  | .read _ (.podGroup _ _) => (.ok ⟨lateRoot, none, some 1, 0, 0⟩ : Except KubeError PodGroup)
  | .read _ (.podGroupMembers _ _) => (.ok [firstMember, lateMember] : Except KubeError (List Pod))
  | .read _ (.podsWithLabel _ _ _) => (.ok [] : Except KubeError (List Pod))
  | .read _ (.object _ _ _) => (.ok lateRoot : Except KubeError PartialObjectMetadata)
  | .read _ (.settings _ _) => (.ok [] : Except Err (List SlurmJobIRJobInfo))
  | .informerSynced => (.ok true : Except Err Bool)
  | .jobsByIndex index key =>
    (.ok ([lateRecord].filter fun raw => (index.keys raw).contains key) : Except SlurmError (List JobInfo))
  | .patchPod _ _ => (.ok () : Except KubeError Unit)
  | c => c.refuse

private def latePass : Trace surroundings :=
  traceOf answerLate (reconcile lateReconciler (objectRequest lateRoot))

private def lateJob : ExternalJob := externalJobState lateRecord

private def lateTrace : Trace surroundings := latePass.take 21

private theorem late_pass : ∃ rest, Reaches (reconcile lateReconciler (objectRequest lateRoot))
    (lateTrace ++ [⟨.patchPod lateMember (publishedPod lateMember lateJob),
      (.ok () : Except KubeError Unit)⟩]) rest := by
  have whole := (exec_traceOf answerLate (reconcile lateReconciler (objectRequest lateRoot))).reaches
  exact whole.stop

private theorem late_reply {c : Command} {reply : c.Reply}
    (member : (⟨c, reply⟩ : Event surroundings) ∈ lateTrace) : reply = answerLate c :=
  mem_traceOf (mem_of_mem_take member)

private theorem late_indexed : ∀ e ∈ lateTrace, Indexed e := by
  rintro ⟨c, reply⟩ member
  have answered := late_reply member
  subst answered
  cases c with
  | jobsByIndex index key =>
    intro jobs same raw inside
    cases same
    simpa using (mem_filter.mp inside).2
  | _ => trivial

theorem patch_backed_late :
    Opened lateReconciler lateTrace lateMember (publishedPod lateMember lateJob) := by
  obtain ⟨rest, pass⟩ := late_pass
  exact (patch_backed late_indexed pass).2 (by decide) (by decide)

/-- A member that joined after the submission is labelled, though no record that was read lists it. -/
theorem late_member_labeled :
    (∃ rest, Reaches (reconcile lateReconciler (objectRequest lateRoot))
      (lateTrace ++ [⟨.patchPod lateMember (publishedPod lateMember lateJob),
        (.ok () : Except KubeError Unit)⟩]) rest) ∧
    lateMember.labels.lookup labelExternalJobId = none ∧
    (publishedPod lateMember lateJob).labels.lookup labelExternalJobId = some "7" ∧
    (∀ id raw, ¬ ReadLive lateTrace id raw) ∧
    ∀ index key raw, ReadUnder lateTrace index key raw → ¬ Lists lateMember raw := by
  refine ⟨late_pass, by decide, by decide, fun id raw live => ?_, ?_⟩
  · cases late_reply live
  · rintro index key raw ⟨jobs, inside, event⟩ ⟨form, formOf, listed⟩
    cases late_reply event
    rw [mem_singleton.mp (mem_filter.mp inside).1] at listed
    have apart : ∀ form ∈ podForms lateMember, form ∉ jobPodKeys lateRecord := by decide
    exact apart form formOf listed

end SlurmBridge.Registration.Publication
