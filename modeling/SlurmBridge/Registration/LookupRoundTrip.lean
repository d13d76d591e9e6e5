/- source: internal/scheduler/plugins/slurmbridge/slurmcontrol/slurmcontrol.go,
     internal/utils/slurmjob/allocation.go, allocation_identity.go, index.go
   digest: The jobs created for a workload are found again from every member Pod and matched to
     their components, beside any finished history. -/

import SlurmBridge.Registration.LookupSpec

set_option autoImplicit false

namespace SlurmBridge.Registration.LookupRoundTrip

open Foundation.Interaction Kube.Objects JobIR.IR Slurm.Ownership Slurm.Job Slurm.Allocation Slurm.Collected
open Registration.Lookup Registration.LookupSpec
open Foundation.Text (Segment)
open List

/-- The workloads translation produces: one component, or one for each leaf of a composite. -/
structure WellFormed (ir : SlurmJobIR) : Prop where
  valid : ir.validate = .ok ()
  single : ir.rootPOM.typeMeta.kind ≠ "CompositePodGroup" → ir.components.length = 1
  composite : ir.rootPOM.typeMeta.kind = "CompositePodGroup" → (newGroupIdentity ir.rootPOM).isSome ∧
      (ir.components.map fun component => newGroupIdentity component.objectMeta).Nodup
  /-- A replica group of a LeaderWorkerSet shares its hash and includes its leader. -/
  leader : ir.rootPOM.typeMeta.kind = "LeaderWorkerSet" → ∃ hash,
    (∀ member ∈ ir.allPods, member.label lwsGroupUniqueHashLabelKey = hash) ∧
      ∃ leader ∈ ir.allPods, isLwsLeader hash leader = true

/-- Jobs created for a workload: the i-th records the i-th component, all share the allocation,
and some of them is unfinished. -/
structure Created (ir : SlurmJobIR) (allocation : Int) (jobs : List JobInfo)
    (found : List ExternalJob) : Prop where
  comments : jobs.map JobInfo.adminComment =
    ir.components.map fun component => (externalJobInfoFor ir.rootPOM component).toComment
  converted : jobs.map fromJobInfo = found.map Except.ok
  shared : ∀ job ∈ found, job.allocationID = allocation
  active : ∃ job ∈ found, job.finished = false

/-- The record is listed where the identity is looked up. -/
def Found (identity : AllocationIdentity) (raw : JobInfo) : Prop :=
  (∃ index, identity.index = some index ∧ identity.key ∈ index.keys raw) ∨
    ∃ key ∈ identity.legacyPodKeys, key ∈ jobLegacyPodKeys raw

def Historic (allocation : Int) (raw : JobInfo) : Prop :=
  ∃ job, fromJobInfo raw = .ok job ∧ job.finished = true ∧ job.allocationID ≠ allocation

section
variable {root : PartialObjectMetadata} {component : SlurmJobComponent} {raw : JobInfo}
  (written : raw.adminComment = (externalJobInfoFor root component).toComment)

include written

private theorem parse_written :
    parseIntoExternalJobInfo raw.adminComment = some (externalJobInfoFor root component) := by
  rw [written]
  exact parse_externalJobInfoFor root component

private theorem group_written {group : GroupIdentity} (identity : newGroupIdentity root = some group) :
    group.key ∈ jobGroupKeys raw := by
  simp only [jobGroupKeys, parse_written written, externalJobInfoFor, identity]
  split <;> simp

private theorem pod_written {pod : Pod} (member : pod ∈ component.pods) : podKey pod ∈ jobPodKeys raw := by
  have listed : (externalJobInfoFor root component).pods = component.pods.map podKey := by
    unfold externalJobInfoFor
    split
    · rfl
    · split <;> rfl
  simp only [jobPodKeys, parse_written written, listed]
  exact mem_map_of_mem member

end

variable {ir : SlurmJobIR}

private theorem identity_written (wellFormed : WellFormed ir) {pod : Pod} (member : pod ∈ ir.allPods) :
    ∃ identity index, identityForAllocation pod ir = (identity, none) ∧ identity.index = some index ∧
      ∀ component ∈ ir.components, ∀ raw : JobInfo,
        raw.adminComment = (externalJobInfoFor ir.rootPOM component).toComment →
        identity.key ∈ index.keys raw := by
  cases identity : newGroupIdentity ir.rootPOM with
  | some group =>
    refine ⟨_, .group, by simp only [identityForAllocation, identity]; rfl, rfl, ?_⟩
    intro component _ raw written
    exact group_written written identity
  | none =>
    have simple : ir.rootPOM.typeMeta.kind ≠ "CompositePodGroup" := by
      intro kind
      have some_ := (wellFormed.composite kind).1
      rw [identity] at some_
      cases some_
    -- Every member lies in the only component.
    obtain ⟨only, components⟩ := length_eq_one_iff.mp (wellFormed.single simple)
    have inside : ∀ member ∈ ir.allPods, ∀ component ∈ ir.components, member ∈ component.pods := by
      intro member all component here
      simp only [SlurmJobIR.allPods, components, flatMap_singleton] at all
      rw [components, mem_singleton] at here
      rwa [here]
    have byPod : ∀ member ∈ ir.allPods, ∀ component ∈ ir.components, ∀ raw : JobInfo,
        raw.adminComment = (externalJobInfoFor ir.rootPOM component).toComment →
        (podAllocationIdentity member).key ∈ JobIndex.pod.keys raw :=
      fun member all component here raw written => pod_written written (inside member all component here)
    by_cases lws : ir.rootPOM.typeMeta.kind = "LeaderWorkerSet"
    · obtain ⟨hash, shared, first, firstMember, isLeader⟩ := wellFormed.leader lws
      cases search : ir.allPods.find? (isLwsLeader hash) with
      | none => exact absurd isLeader (by simpa using find?_eq_none.mp search first firstMember)
      | some leader =>
        refine ⟨podAllocationIdentity leader, .pod, ?_, rfl, ?_⟩
        · simp only [identityForAllocation, identity, lws, if_true, lwsAllocationIdentity,
            shared pod member, search]
        · exact byPod leader (mem_of_find?_eq_some search)
    · refine ⟨podAllocationIdentity pod, .pod, ?_, rfl, byPod pod member⟩
      simp only [identityForAllocation, identity, lws, if_false]

section
variable {ir : SlurmJobIR} {allocation : Int} {jobs : List JobInfo} {found : List ExternalJob} {i : Nat}

private theorem created_at (created : Created ir allocation jobs found) (inJobs : i < jobs.length) :
    ∃ (inComponents : i < ir.components.length) (inFound : i < found.length),
      jobs[i].adminComment = (externalJobInfoFor ir.rootPOM ir.components[i]).toComment ∧
        registeredJobFromInfo jobs[i] =
          .ok { found[i] with ownership := externalJobInfoFor ir.rootPOM ir.components[i] } := by
  have components : jobs.length = ir.components.length := by
    simpa using congrArg List.length created.comments
  have founds : jobs.length = found.length := by
    simpa using congrArg List.length created.converted
  have inComponents : i < ir.components.length := components ▸ inJobs
  have inFound : i < found.length := founds ▸ inJobs
  have written : jobs[i].adminComment = (externalJobInfoFor ir.rootPOM ir.components[i]).toComment := by
    have same := congrArg (·[i]?) created.comments
    simpa [inJobs, inComponents] using same
  have converted : fromJobInfo jobs[i] = .ok found[i] := by
    have same := congrArg (·[i]?) created.converted
    simpa [inJobs, inFound] using same
  refine ⟨inComponents, inFound, written, ?_⟩
  simp only [registeredJobFromInfo, converted, parse_written written]

/-- The jobs the lookup returns: all created ones, and history of other allocations. -/
structure Returned (ir : SlurmJobIR) (allocation : Int) (jobs : List JobInfo)
    (result : List RegisteredJob) : Prop where
  nodup : result.Nodup
  complete : ∀ raw ∈ jobs, ∃ job ∈ result, registeredJobFromInfo raw = .ok job
  origin : ∀ job ∈ result, (∃ raw ∈ jobs, registeredJobFromInfo raw = .ok job) ∨
    (job.finished = true ∧ job.allocationID ≠ allocation)

variable {result : List RegisteredJob}

private theorem matched_at (wellFormed : WellFormed ir) (created : Created ir allocation jobs found)
    (returned : Returned ir allocation jobs result) (inJobs : i < jobs.length)
    (inComponents : i < ir.components.length) (inFound : i < found.length) :
    matchComponent ir.rootPOM ir.components[i] allocation result none = .ok (some found[i]) := by
  obtain ⟨_, _, _, registered⟩ := created_at created inJobs
  obtain ⟨job, member, registered'⟩ := returned.complete jobs[i] (getElem_mem inJobs)
  rw [registered] at registered'
  cases registered'
  refine matchComponent_unique returned.nodup member ⟨created.shared _ (getElem_mem inFound), ?_⟩ ?_ ?_
  · intro kind
    obtain ⟨group, identity⟩ := Option.isSome_iff_exists.mp (wellFormed.composite kind).1
    have groupKind : group.kind = "CompositePodGroup" := by rw [newGroupIdentity_eq identity, kind]
    simp [externalJobInfoFor, identity, groupKind]
  · rintro other inside ⟨sameAllocation, sameGroup⟩
    -- Only created jobs belong to the allocation.
    rcases returned.origin other inside with ⟨raw, rawMember, from_⟩ | ⟨-, differs⟩
    · obtain ⟨j, inJobs', rfl⟩ := getElem_of_mem rawMember
      obtain ⟨inComponents', inFound', -, registered'⟩ := created_at created inJobs'
      rw [registered'] at from_
      cases from_
      have same : j = i := by
        by_cases kind : ir.rootPOM.typeMeta.kind = "CompositePodGroup"
        · obtain ⟨some_, distinct⟩ := wellFormed.composite kind
          obtain ⟨group, identity⟩ := Option.isSome_iff_exists.mp some_
          have groupKind : group.kind = "CompositePodGroup" := by
            rw [newGroupIdentity_eq identity, kind]
          have sameIdentity := sameGroup kind
          simp only [externalJobInfoFor, identity, groupKind, if_true] at sameIdentity
          have sameComponent := inj_on_of_nodup_map distinct (getElem_mem inComponents')
            (getElem_mem inComponents) sameIdentity
          exact (List.Nodup.getElem_inj_iff (List.Nodup.of_map _ distinct)).mp sameComponent
        · have one := wellFormed.single kind
          omega
      subst same
      rfl
    · exact absurd sameAllocation differs
  · rintro ⟨kind, ungrouped, uncovered⟩
    cases identity : newGroupIdentity ir.rootPOM with
    | some group =>
      have groupKind : group.kind ≠ "CompositePodGroup" := by
        simp [newGroupIdentity_eq identity, kind]
      simp [externalJobInfoFor, identity, groupKind] at ungrouped
    | none =>
      have covered : coversMembers (externalJobInfoFor ir.rootPOM ir.components[i])
          ir.components[i] = true := by
        simp only [coversMembers, externalJobInfoFor, identity, all_eq_true]
        intro pod inside
        simp [mem_map_of_mem inside]
      rw [covered] at uncovered
      cases uncovered

private theorem matched (wellFormed : WellFormed ir) (created : Created ir allocation jobs found)
    (returned : Returned ir allocation jobs result) :
    matchAllocationComponents ir result = .ok (some found) := by
  obtain ⟨first, firstMember, unfinished⟩ := created.active
  obtain ⟨i, inFound, rfl⟩ := getElem_of_mem firstMember
  have founds : jobs.length = found.length := by
    simpa using congrArg List.length created.converted
  have components : jobs.length = ir.components.length := by
    simpa using congrArg List.length created.comments
  obtain ⟨_, _, -, registered⟩ := created_at created (founds ▸ inFound)
  obtain ⟨job, member, registered'⟩ := returned.complete _ (getElem_mem (founds ▸ inFound))
  rw [registered] at registered'
  cases registered'
  have agree : ∀ other ∈ result, other.finished = false → other.allocationID = allocation := by
    intro other inside active
    rcases returned.origin other inside with ⟨raw, rawMember, from_⟩ | ⟨finished, -⟩
    · obtain ⟨j, inJobs, rfl⟩ := getElem_of_mem rawMember
      obtain ⟨_, inFound', -, registered'⟩ := created_at created inJobs
      rw [registered'] at from_
      cases from_
      exact created.shared _ (getElem_mem inFound')
    · rw [active] at finished
      cases finished
  have active := activeAllocation_eq agree ⟨_, member, unfinished⟩
  have nonzero : allocation ≠ 0 := by
    have positive := registered_allocationID_pos registered
    have shared := created.shared _ (getElem_mem inFound)
    simp only at positive
    omega
  simp only [matchAllocationComponents, active, nonzero, if_false]
  refine matchComponents_of_each (forall₂_iff_get.mpr ⟨by omega, fun j inComponents inFound' => ?_⟩)
  exact matched_at wellFormed created returned (by omega) inComponents inFound'

end

private theorem returned_of_candidates {allocation : Int} {jobs others : List JobInfo}
    {found : List ExternalJob} {index : JobIndex} {identity : AllocationIdentity} {candidates : List JobInfo}
    (created : Created ir allocation jobs found) (distinct : ((jobs ++ others).map JobInfo.key).Nodup)
    (isIndex : identity.index = some index) (own : ∀ raw ∈ jobs, identity.key ∈ index.keys raw)
    (history : ∀ raw ∈ others, Found identity raw → Historic allocation raw)
    (looked : Candidates (jobs ++ others) index identity candidates) :
    ∃ result, collectAllocation identity.key candidates = (result, none) ∧
      Returned ir allocation jobs result := by
  have nonempty : ∃ raw, raw ∈ jobs := by
    obtain ⟨job, member, -⟩ := created.active
    have same : jobs.length = found.length := by simpa using congrArg List.length created.converted
    have positive : 0 < jobs.length := same ▸ length_pos_of_mem member
    exact ⟨_, getElem_mem positive⟩
  have ours : ∀ raw ∈ jobs, ∃ job, registeredJobFromInfo raw = .ok job ∧ job.allocationID = allocation := by
    intro raw member
    obtain ⟨i, inJobs, rfl⟩ := getElem_of_mem member
    obtain ⟨_, inFound, _, registered⟩ := created_at created inJobs
    exact ⟨_, registered, created.shared _ (getElem_mem inFound)⟩
  -- Every candidate is a created job or history.
  have sorts : ∀ raw ∈ candidates, raw ∈ jobs ∨ Found identity raw ∧ Historic allocation raw := by
    intro raw member
    rcases mem_append.mp (looked.known raw member) with mine | other
    · exact .inl mine
    · refine .inr ?_
      have listed : Found identity raw := by
        rcases looked.listed raw member with under | legacy | ⟨isPod, unlisted, -⟩
        · exact .inl ⟨index, isIndex, under⟩
        · exact .inr legacy
        · obtain ⟨first, firstMember⟩ := nonempty
          have under := own first firstMember
          rw [isPod] at under
          exact absurd under (unlisted first (mem_append_left _ firstMember))
      exact ⟨listed, history raw other listed⟩
  have parsed : ∀ raw, Found identity raw → ∃ info, parseIntoExternalJobInfo raw.adminComment = some info := by
    intro raw listed
    cases comment : parseIntoExternalJobInfo raw.adminComment with
    | some info => exact ⟨info, rfl⟩
    | none =>
      rcases listed with ⟨index', -, under⟩ | ⟨key, -, under⟩
      · cases index' <;> simp [jobPodKeys, jobGroupKeys, jobLegacyPodKeys, comment] at under
      · simp [jobLegacyPodKeys, comment] at under
  have convertible : ∀ raw ∈ candidates, ∃ job, registeredJobFromInfo raw = .ok job := by
    intro raw member
    rcases sorts raw member with mine | ⟨listed, old⟩
    · obtain ⟨job, registered, -⟩ := ours raw mine
      exact ⟨job, registered⟩
    · obtain ⟨job, converted, -⟩ := old
      obtain ⟨info, comment⟩ := parsed raw listed
      exact ⟨_, by simp only [registeredJobFromInfo, converted, comment]; rfl⟩
  obtain ⟨state, run⟩ := run_registered .start convertible
  have sound := sound_run sound_start run
  have origin : ∀ job ∈ state.jobs, (∃ raw ∈ jobs, registeredJobFromInfo raw = .ok job) ∨
      (job.finished = true ∧ job.allocationID ≠ allocation) := by
    intro job member
    obtain ⟨raw, inside, registered⟩ := sound.origin job member
    rcases sorts raw inside with mine | ⟨-, old, converted, finished, differs⟩
    · exact .inl ⟨raw, mine, registered⟩
    · rw [(registeredJobFromInfo_ok registered).1] at converted
      cases converted
      exact .inr ⟨finished, differs⟩
  obtain ⟨calm, -⟩ := sound.settled allocation fun job member active => by
    rcases origin job member with ⟨raw, mine, registered⟩ | ⟨finished, -⟩
    · obtain ⟨job', registered', shared⟩ := ours raw mine
      rw [registered] at registered'
      cases registered'
      exact shared
    · rw [active] at finished
      cases finished
  refine ⟨state.jobs, by simp only [collectAllocation, run, calm]; rfl, ?_, ?_, origin⟩
  · have ids : (state.jobs.map fun job => job.jobId).Nodup := sound.seen_eq ▸ sound.nodup
    exact List.Nodup.of_map _ ids
  · intro raw member
    have candidate : raw ∈ candidates :=
      looked.primary raw (mem_append_left _ member) (own raw member)
    have seen := sound.covers raw candidate
    rw [sound.seen_eq] at seen
    obtain ⟨job, inside, sameId⟩ := mem_map.mp seen
    obtain ⟨raw', candidate', registered⟩ := sound.origin job inside
    -- Job ids are distinct, so the job with this id comes from this record.
    have same : raw' = raw := inj_on_of_nodup_map distinct (looked.known raw' candidate')
      (mem_append_left _ member) ((registered_jobId registered).symm.trans sameId)
    exact ⟨job, inside, same ▸ registered⟩

/-- What registration writes, lookup finds.  From every member of a workload, looking up its
allocation returns, without an error, all jobs created for it, and matching assigns exactly the
i-th job to the i-th component, whatever finished history of other allocations the indexes list
beside them and in whatever order. -/
theorem lookup_finds_created {ir : SlurmJobIR} {pod : Pod} {allocation : Int}
    {jobs others : List JobInfo} {found : List ExternalJob} (wellFormed : WellFormed ir)
    (member : pod ∈ ir.allPods) (created : Created ir allocation jobs found)
    (distinct : ((jobs ++ others).map JobInfo.key).Nodup)
    (history : ∀ raw ∈ others, Found (identityForAllocation pod ir).1 raw →
      Historic allocation raw) :
    ∃ identity index, identityForAllocation pod ir = (identity, none) ∧
      identity.index = some index ∧
      ∀ t out, Exec (indexedAllocation index identity) t out →
        (∀ e ∈ t, Serves (jobs ++ others) e ∧ ¬ Failed e) →
        out.2 = none ∧ (∀ raw ∈ jobs, ∃ job ∈ out.1, registeredJobFromInfo raw = .ok job) ∧
          matchAllocationComponents ir out.1 = .ok (some found) := by
  obtain ⟨identity, index, looked, isIndex, written⟩ := identity_written wellFormed member
  refine ⟨identity, index, looked, isIndex, fun t out run serves => ?_⟩
  have own : ∀ raw ∈ jobs, identity.key ∈ index.keys raw := by
    intro raw inside
    obtain ⟨i, inJobs, rfl⟩ := getElem_of_mem inside
    obtain ⟨inComponents, _, comment, _⟩ := created_at created inJobs
    exact written _ (getElem_mem inComponents) _ comment
  have spec : wp (fun _ _ => True) (indexedAllocation index identity) []
      fun t out => (∀ e ∈ t, Serves (jobs ++ others) e ∧ ¬ Failed e) →
        ∃ result, out = (result, none) ∧ Returned ir allocation jobs result := by
    refine wp_indexedAllocation (fun _ _ _ => trivial) ?_ ?_
    · rintro t e - ⟨event, inside, failed⟩ fine
      exact absurd failed (fine event inside).2
    · rintro t candidates - yields - - fine
      rw [looked] at history
      exact returned_of_candidates created distinct isIndex own history
        (yields _ fun e inside => (fine e inside).1)
  obtain ⟨result, rfl, returned⟩ := (wp_exec spec run).1 serves
  exact ⟨rfl, returned.complete, matched wellFormed created returned⟩

/- A CompositePodGroup with the leaves a and b, one Pod each, and a finished allocation of it. -/

private def leafPod (name : Segment) : Pod :=
  { Pod.waiting (.of "ns" (.refl true)) name name "slurm-bridge" with
    schedulingGroup := some (some name.text) }

private def leafComponent (name : Segment) : SlurmJobComponent where
  objectMeta := ⟨⟨"scheduling.k8s.io", "v1beta1", "PodGroup"⟩, "ns", name.text, name.text, []⟩
  jobInfo := {}
  pods := [leafPod name]

private def nameA : Segment := .of "a" (.refl true)
private def nameB : Segment := .of "b" (.refl true)

private def compositeIR : SlurmJobIR where
  rootPOM := ⟨⟨"scheduling.k8s.io", "v1alpha3", "CompositePodGroup"⟩, "ns", "c", "c", []⟩
  components := [leafComponent nameA, leafComponent nameB]

private def hetJob (id offset leader : Int) (state : JobState) (component : SlurmJobComponent) : JobInfo where
  jobId := some id
  nodes := none
  jobState := some [state]
  priority := none
  hetJobId := some ⟨some true, some leader⟩
  hetJobOffset := some ⟨some true, some offset⟩
  adminComment := (externalJobInfoFor compositeIR.rootPOM component).toComment

private def compositeJobs : List JobInfo :=
  [hetJob 7 0 7 .running (leafComponent nameA), hetJob 8 1 7 .completed (leafComponent nameB)]

private def compositeHistory : List JobInfo :=
  [hetJob 3 0 3 .cancelled (leafComponent nameA)]

private def compositeFound : List ExternalJob :=
  [⟨7, 7, 0, ⟨"", []⟩, false, false, false⟩, ⟨8, 7, 1, ⟨"", []⟩, false, false, true⟩]

theorem lookup_finds_created_composite :
    ∃ identity index, identityForAllocation (leafPod nameB) compositeIR = (identity, none) ∧
      identity.index = some index ∧
      ∀ t out, Exec (indexedAllocation index identity) t out →
        (∀ e ∈ t, Serves (compositeJobs ++ compositeHistory) e ∧ ¬ Failed e) →
        out.2 = none ∧ (∀ raw ∈ compositeJobs, ∃ job ∈ out.1, registeredJobFromInfo raw = .ok job) ∧
          matchAllocationComponents compositeIR out.1 = .ok (some compositeFound) := by
  have wellFormed : WellFormed compositeIR :=
    ⟨by decide, by decide, by decide, fun kind => absurd kind (by decide)⟩
  have created : Created compositeIR 7 compositeJobs compositeFound :=
    ⟨rfl, rfl, by decide, by decide⟩
  refine lookup_finds_created wellFormed (by decide) created (by decide) ?_
  intro raw member _
  rw [mem_singleton.mp member]
  exact ⟨⟨3, 3, 0, ⟨"", []⟩, false, false, true⟩, rfl, rfl, by decide⟩

end SlurmBridge.Registration.LookupRoundTrip
