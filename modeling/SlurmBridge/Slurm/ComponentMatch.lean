/- source: internal/utils/slurmjob/allocation.go
   digest: Which jobs are assigned to the components of a workload depends on the set of the jobs
     of the active allocation only, and each component gets the one job that is its own. -/

import SlurmBridge.Slurm.Collected

set_option autoImplicit false

namespace SlurmBridge.Slurm.ComponentMatch

open Foundation.Checked Kube.Objects JobIR.IR Slurm.Ownership Slurm.Job Slurm.Allocation
open Slurm.Collected (Fits)
open List

section
variable {root : PartialObjectMetadata} {component : SlurmJobComponent} {allocation : Int}

instance : DecidablePred (Fits root component allocation) := fun _ =>
  inferInstanceAs (Decidable (_ ∧ (_ → _)))

/-- A record from before group metadata that misses a member of a PodGroup. -/
def Gap (root : PartialObjectMetadata) (component : SlurmJobComponent) (job : RegisteredJob) : Prop :=
  root.typeMeta.kind = "PodGroup" ∧ job.ownership.podGroup = none ∧
    coversMembers job.ownership component = false

variable {found : Option ExternalJob}

/-- A component gets a job exactly if it is the only one that fits and no fitting job has a
gap.  `found` is the match so far. -/
theorem matchComponent_iff {jobs : List RegisteredJob} {job : ExternalJob} :
    matchComponent root component allocation jobs found = .ok (some job) ↔
      (∀ own ∈ jobs, Fits root component allocation own → ¬Gap root component own) ∧
        found.toList ++ (jobs.filter (Fits root component allocation)).map RegisteredJob.toExternalJob = [job] := by
  induction jobs generalizing found with
  | nil => cases found <;> simp [matchComponent]
  | cons head rest ih =>
    rw [forall_mem_cons, matchComponent]
    by_cases same : head.allocationID = allocation
    swap
    · have misfit : ¬Fits root component allocation head := fun fits => same fits.1
      rw [if_pos same, ih, filter_cons_of_neg (by simpa using misfit)]
      simp [misfit]
    rw [if_neg (not_not.mpr same)]
    by_cases other : root.typeMeta.kind = "CompositePodGroup" ∧
        head.ownership.podGroup ≠ newGroupIdentity component.objectMeta
    · have misfit : ¬Fits root component allocation head := fun fits => other.2 (fits.2 other.1)
      rw [if_pos other, ih, filter_cons_of_neg (by simpa using misfit)]
      simp [misfit]
    have fits : Fits root component allocation head :=
      ⟨same, fun kind => not_not.mp fun differs => other ⟨kind, differs⟩⟩
    rw [if_neg other, filter_cons_of_pos (by simpa using fits)]
    by_cases gap : root.typeMeta.kind = "PodGroup" ∧ head.ownership.podGroup = none ∧
        coversMembers head.ownership component = false
    · have blocked : ¬(Fits root component allocation head → ¬Gap root component head) :=
        fun free => free fits gap
      simp [if_pos gap, blocked]
    have free : ¬Gap root component head := gap
    rw [if_neg gap]
    cases found with
    | some earlier => simp
    | none =>
      rw [if_neg (by simp), ih]
      simp [free]

theorem matchComponent_insert {before after : List RegisteredJob} {job : RegisteredJob}
    (misfit : ¬Fits root component allocation job) :
    matchComponent root component allocation (before ++ job :: after) found =
      matchComponent root component allocation (before ++ after) found := by
  induction before generalizing found with
  | nil => exact Collected.matchComponent_skip misfit
  | cons head before ih => simp only [cons_append, matchComponent, ih]

end

def Registered (jobs : List RegisteredJob) : Prop :=
  ∀ job ∈ jobs, ∃ raw, registeredJobFromInfo raw = .ok job

variable {jobs : List RegisteredJob}

theorem Registered.positive (registered : Registered jobs) : ∀ job ∈ jobs, 0 < job.allocationID := by
  intro job member
  obtain ⟨raw, decoded⟩ := registered job member
  exact Collected.registered_allocationID_pos decoded

/-- There are unfinished jobs, and all of them are of one allocation. -/
def Active (jobs : List RegisteredJob) (allocation : Int) : Prop :=
  (∃ job ∈ jobs, job.finished = false) ∧ ∀ job ∈ jobs, job.finished = false → job.allocationID = allocation

variable {allocation : Int}

private theorem active_scan (found : activeAllocation jobs = .ok allocation)
    (positive : ∀ job ∈ jobs, 0 < job.allocationID) :
    (allocation = 0 ∧ ∀ job ∈ jobs, job.finished = true) ∨ Active jobs allocation := by
  refine foldlM_ok (fun visited current => (∀ job ∈ visited, 0 < job.allocationID) →
    (current = 0 ∧ ∀ job ∈ visited, job.finished = true) ∨ Active visited current) ?_ ?_ found positive
  · intro visited job current next known step positive
    have known := known fun other member => positive other (by simp [member])
    unfold activeStep at step
    split at step
    · rename_i finished
      obtain rfl := Except.ok.inj step
      refine known.imp (fun ⟨zero, all⟩ => ⟨zero, ?_⟩) fun ⟨exists_, agree⟩ => ⟨?_, ?_⟩
      · simpa [or_imp, forall_and] using ⟨all, finished⟩
      · obtain ⟨other, member, unfinished⟩ := exists_
        exact ⟨other, by simp [member], unfinished⟩
      · intro other member unfinished
        rcases mem_append.mp member with old | new
        · exact agree other old unfinished
        · rw [mem_singleton.mp new, finished] at unfinished
          cases unfinished
    · rename_i unfinished
      split at step
      · cases step
      · rename_i agrees
        obtain rfl := Except.ok.inj step
        refine .inr ⟨⟨job, by simp, by simpa using unfinished⟩, fun other member active => ?_⟩
        rcases mem_append.mp member with old | new
        · rcases known with ⟨-, all⟩ | ⟨-, agree⟩
          · rw [all other old] at active
            cases active
          · have current_eq := agree other old active
            have above := positive other (by simp [old])
            by_contra differs
            exact agrees ⟨by omega, fun same => differs (current_eq.trans same)⟩
        · rw [mem_singleton.mp new]
  · exact fun _ => .inl ⟨rfl, by simp⟩

theorem activeAllocation_iff (registered : Registered jobs) :
    activeAllocation jobs = .ok allocation ∧ allocation ≠ 0 ↔ Active jobs allocation := by
  constructor
  · rintro ⟨found, some⟩
    exact (active_scan found registered.positive).resolve_left fun none => some none.1
  · rintro ⟨⟨job, member, unfinished⟩, agree⟩
    refine ⟨Collected.activeAllocation_eq agree ⟨job, member, unfinished⟩, ?_⟩
    have above := registered.positive job member
    rw [agree job member unfinished] at above
    omega

def Own (root : PartialObjectMetadata) (allocation : Int) (jobs : List RegisteredJob)
    (component : SlurmJobComponent) (job : ExternalJob) : Prop :=
  (∀ own ∈ jobs, Fits root component allocation own → ¬Gap root component own) ∧
    (jobs.filter (Fits root component allocation)).map RegisteredJob.toExternalJob = [job]

theorem complete_iff (ir : SlurmJobIR) (registered : Registered jobs) {found : List ExternalJob} :
    matchAllocationComponents ir jobs = .ok (some found) ↔ ∃ allocation, Active jobs allocation ∧
        List.Forall₂ (Own ir.rootPOM allocation jobs) ir.components found := by
  constructor
  · intro complete
    unfold matchAllocationComponents at complete
    split at complete
    · cases complete
    · rename_i allocation active
      split at complete
      · cases complete
      · rename_i some
        refine ⟨allocation, (activeAllocation_iff registered).mp ⟨active, some⟩, ?_⟩
        exact (Collected.matchComponents_each complete).imp fun component job matched =>
          matchComponent_iff.mp matched
  · rintro ⟨allocation, active, each⟩
    obtain ⟨found, some⟩ := (activeAllocation_iff registered).mpr active
    simp only [matchAllocationComponents, found, some, if_false]
    exact Collected.matchComponents_of_each (each.imp fun component job own => matchComponent_iff.mpr own)

section
variable {jobs jobs' : List RegisteredJob}

theorem Registered.perm (registered : Registered jobs) (perm : jobs'.Perm jobs) : Registered jobs' :=
  fun job member => registered job (perm.mem_iff.mp member)

variable {allocation : Int}

theorem Active.perm (active : Active jobs allocation) (perm : jobs'.Perm jobs) : Active jobs' allocation := by
  obtain ⟨⟨job, member, unfinished⟩, agree⟩ := active
  exact ⟨⟨job, perm.mem_iff.mpr member, unfinished⟩, fun other inside => agree other (perm.mem_iff.mp inside)⟩

theorem Own.perm {root : PartialObjectMetadata} {component : SlurmJobComponent} {job : ExternalJob}
    (own : Own root allocation jobs component job) (perm : jobs'.Perm jobs) :
    Own root allocation jobs' component job := by
  refine ⟨fun other member => own.1 other (perm.mem_iff.mp member), ?_⟩
  have same := (perm.filter (Fits root component allocation)).map RegisteredJob.toExternalJob
  rw [own.2] at same
  exact same.eq_singleton

theorem complete_perm {ir : SlurmJobIR} (registered : Registered jobs) (perm : jobs'.Perm jobs)
    {found : List ExternalJob} (complete : matchAllocationComponents ir jobs = .ok (some found)) :
    matchAllocationComponents ir jobs' = .ok (some found) := by
  obtain ⟨allocation, active, each⟩ := (complete_iff ir registered).mp complete
  exact (complete_iff ir (registered.perm perm)).mpr
    ⟨allocation, active.perm perm, each.imp fun component job own => own.perm perm⟩

end

section
variable {before after : List RegisteredJob} {job : RegisteredJob}

theorem activeAllocation_insert (finished : job.finished = true) :
    activeAllocation (before ++ job :: after) = activeAllocation (before ++ after) := by
  have step : ∀ current, activeStep current job = .ok current := fun current => by simp [activeStep, finished]
  simp only [activeAllocation, foldlM_append, foldlM_cons, step]
  rfl

theorem match_insert (ir : SlurmJobIR) (registered : Registered (before ++ job :: after))
    (finished : job.finished = true) (apart : ∀ other ∈ before ++ job :: after, other.finished = false →
      other.allocationID ≠ job.allocationID) :
    matchAllocationComponents ir (before ++ job :: after) = matchAllocationComponents ir (before ++ after) := by
  unfold matchAllocationComponents
  rw [activeAllocation_insert finished]
  split
  · rfl
  · rename_i allocation found
    split
    · rfl
    · rename_i some
      rw [← activeAllocation_insert finished] at found
      obtain ⟨⟨other, member, unfinished⟩, agree⟩ := (activeAllocation_iff registered).mp ⟨found, some⟩
      have misfit : ∀ component, ¬Fits ir.rootPOM component allocation job := by
        intro component fits
        refine apart other member unfinished ?_
        rw [agree other member unfinished, fits.1]
      have skipped : ∀ components, matchComponents ir.rootPOM allocation (before ++ job :: after) components =
          matchComponents ir.rootPOM allocation (before ++ after) components := by
        intro components
        induction components with
        | nil => rfl
        | cons component rest ih => simp only [matchComponents, matchComponent_insert (misfit component), ih]
      exact skipped ir.components

end

/-- What complete components say: one allocation is active, and each job is the only one of it
that is its component's. -/
def Sound (ir : SlurmJobIR) (jobs : List RegisteredJob) (found : List ExternalJob) : Prop :=
  ∃ allocation, Active jobs allocation ∧ List.Forall₂ (fun component job =>
    ∃ own ∈ jobs, own.toExternalJob = job ∧ own.allocationID = allocation ∧
      (ir.rootPOM.typeMeta.kind = "CompositePodGroup" →
        own.ownership.podGroup = newGroupIdentity component.objectMeta) ∧
      (ir.rootPOM.typeMeta.kind = "PodGroup" → own.ownership.podGroup = none →
        coversMembers own.ownership component = true) ∧
      jobs.filter (Fits ir.rootPOM component allocation) = [own]) ir.components found

/-- Matching is sound, does not depend on the order of the jobs, and ignores finished jobs of
other allocations. -/
theorem component_match_sound (ir : SlurmJobIR) {jobs : List RegisteredJob} (registered : Registered jobs) :
    (∀ found, matchAllocationComponents ir jobs = .ok (some found) → Sound ir jobs found) ∧
    (∀ jobs' : List RegisteredJob, jobs'.Perm jobs → ∀ found,
      matchAllocationComponents ir jobs' = .ok (some found) ↔
        matchAllocationComponents ir jobs = .ok (some found)) ∧
    (∀ before after job, jobs = before ++ job :: after → job.finished = true →
      (∀ other ∈ jobs, other.finished = false → other.allocationID ≠ job.allocationID) →
      matchAllocationComponents ir jobs = matchAllocationComponents ir (before ++ after)) := by
  refine ⟨fun found complete => ?_, fun jobs' perm found => ?_, ?_⟩
  · obtain ⟨allocation, active, each⟩ := (complete_iff ir registered).mp complete
    refine ⟨allocation, active, each.imp fun component job own => ?_⟩
    obtain ⟨noGap, only⟩ := own
    obtain ⟨own, single, rfl⟩ := map_eq_singleton_iff.mp only
    have member : own ∈ jobs.filter (Fits ir.rootPOM component allocation) := by simp [single]
    obtain ⟨inside, fits⟩ := mem_filter.mp member
    have fits : Fits ir.rootPOM component allocation own := by simpa using fits
    refine ⟨own, inside, rfl, fits.1, fits.2, fun kind noGroup => ?_, single⟩
    by_contra missing
    exact noGap own inside fits ⟨kind, noGroup, by simpa using missing⟩
  · exact ⟨complete_perm (registered.perm perm) perm.symm, complete_perm registered perm⟩
  · rintro before after job rfl finished apart
    exact match_insert ir registered finished apart

/- A CompositePodGroup with two leaves, whose second job has finished, and history of the first
leaf. -/

private def leafMeta (name : String) : PartialObjectMetadata :=
  ⟨⟨"scheduling.k8s.io", "v1beta1", "PodGroup"⟩, "ns", name, name, []⟩

private def twoLeaves : SlurmJobIR where
  rootPOM := ⟨⟨"scheduling.k8s.io", "v1alpha3", "CompositePodGroup"⟩, "ns", "c", "c", []⟩
  components := [⟨leafMeta "a", {}, []⟩, ⟨leafMeta "b", {}, []⟩]

private def leafRecord (id offset leader : Int) (state : JobState) (leaf : String) : JobInfo where
  jobId := some id
  nodes := none
  jobState := some [state]
  priority := none
  hetJobId := some ⟨some true, some leader⟩
  hetJobOffset := some ⟨some true, some offset⟩
  adminComment := (⟨["ns/pod/uid"], newGroupIdentity (leafMeta leaf), none⟩ : ExternalJobInfo).toComment

private def leafJob (id offset leader : Int) (finished : Bool) (leaf : String) : RegisteredJob where
  jobId := id
  hetJobId := leader
  hetJobOffset := offset
  nodes := ⟨"", []⟩
  pending := false
  held := false
  finished := finished
  ownership := ⟨["ns/pod/uid"], newGroupIdentity (leafMeta leaf), none⟩

private def leafJobs : List RegisteredJob :=
  [leafJob 3 0 3 true "a", leafJob 8 1 7 true "b", leafJob 7 0 7 false "a"]

theorem component_match_sound_twoLeaves : Registered leafJobs ∧
    ∃ found, matchAllocationComponents twoLeaves leafJobs = .ok (some found) ∧ Sound twoLeaves leafJobs found ∧
      matchAllocationComponents twoLeaves leafJobs.reverse = .ok (some found) ∧
      matchAllocationComponents twoLeaves leafJobs = matchAllocationComponents twoLeaves leafJobs.tail := by
  have registered : Registered leafJobs := by
    intro job member
    simp only [leafJobs, mem_cons, not_mem_nil, or_false] at member
    rcases member with rfl | rfl | rfl
    · exact ⟨leafRecord 3 0 3 .cancelled "a", by decide⟩
    · exact ⟨leafRecord 8 1 7 .completed "b", by decide⟩
    · exact ⟨leafRecord 7 0 7 .running "a", by decide⟩
  have complete : matchAllocationComponents twoLeaves leafJobs = .ok (some
      [(leafJob 7 0 7 false "a").toExternalJob, (leafJob 8 1 7 true "b").toExternalJob]) := by
    decide
  obtain ⟨sound, order, history⟩ := component_match_sound twoLeaves registered
  exact ⟨registered, _, complete, sound _ complete, (order _ (reverse_perm _) _).mpr complete,
    history [] _ _ rfl rfl (by decide)⟩

end SlurmBridge.Slurm.ComponentMatch
