/- source: internal/utils/slurmjob/allocation.go
   digest: What collecting the candidates of an identity yields, and when the jobs found fit the
     components of a workload. -/

import SlurmBridge.Slurm.Allocation

set_option autoImplicit false

namespace SlurmBridge.Slurm.Collected

open Foundation.Checked Kube.Objects JobIR.IR Slurm.Ownership Slurm.Job Slurm.Allocation
open Kube.Reads (Err)
open List

variable {raw : JobInfo} {job : RegisteredJob}

theorem registered_jobId (registered : registeredJobFromInfo raw = .ok job) : job.jobId = raw.key :=
  fromJobInfo_jobId (registeredJobFromInfo_ok registered).1

theorem registered_allocationID_pos (registered : registeredJobFromInfo raw = .ok job) : 0 < job.allocationID :=
  allocationID_pos (registeredJobFromInfo_ok registered).1

variable {state state' : Collected}

theorem collectCandidate_cases (step : collectCandidate state raw = .ok state') :
    (raw.key ∈ state.seen ∧ state' = state) ∨
      ∃ job, registeredJobFromInfo raw = .ok job ∧ raw.key ∉ state.seen ∧ state' = state.add job := by
  unfold collectCandidate at step
  split at step
  · cases step
  · rename_i ext converted
    have sameId : ext.jobId = raw.key := fromJobInfo_jobId converted
    split at step
    · rename_i seen
      cases step
      exact .inl ⟨sameId ▸ seen, rfl⟩
    · rename_i fresh
      split at step
      · cases step
      · rename_i info parsed
        cases step
        refine .inr ⟨{ ext with ownership := info }, ?_, sameId ▸ fresh, rfl⟩
        simp only [registeredJobFromInfo, converted, parsed]

theorem collectCandidate_registered (registered : registeredJobFromInfo raw = .ok job) :
    ∃ state', collectCandidate state raw = .ok state' := by
  obtain ⟨converted, parsed⟩ := registeredJobFromInfo_ok registered
  by_cases seen : job.jobId ∈ state.seen
  · exact ⟨state, by simp only [collectCandidate, converted, seen, if_true]⟩
  · exact ⟨_, by simp only [collectCandidate, converted, seen, if_false, parsed]; rfl⟩

structure Sound (done : List JobInfo) (state : Collected) : Prop where
  origin : ∀ job ∈ state.jobs, ∃ raw ∈ done, registeredJobFromInfo raw = .ok job
  covers : ∀ raw ∈ done, raw.key ∈ state.seen
  seen_eq : state.seen = state.jobs.map fun job => job.jobId
  nodup : state.seen.Nodup
  /-- Without a conflict, the unfinished jobs belong to the leader's allocation. -/
  agreed : state.conflict = false → ∀ job ∈ state.jobs, job.finished = false → job.allocationID = state.leader
  /-- Unfinished jobs of a single allocation are no conflict. -/
  settled : ∀ allocation, (∀ job ∈ state.jobs, job.finished = false → job.allocationID = allocation) →
      state.conflict = false ∧ (state.leader = 0 ∨ state.leader = allocation)

theorem sound_start : Sound [] .start where
  origin := by simp [Collected.start]
  covers := by simp
  seen_eq := rfl
  nodup := nodup_nil
  agreed := by simp [Collected.start]
  settled := by simp [Collected.start]

variable {done : List JobInfo}

private theorem sound_add (sound : Sound done state) (registered : registeredJobFromInfo raw = .ok job)
    (fresh : raw.key ∉ state.seen) : Sound (done ++ [raw]) (state.add job) := by
  have sameId := registered_jobId registered
  refine ⟨?_, ?_, ?_, ?_, ?_, ?_⟩
  · refine forall_mem_snoc (fun other old => ?_) ⟨raw, by simp, registered⟩
    obtain ⟨raw', inside, from_⟩ := sound.origin other old
    exact ⟨raw', mem_append_left _ inside, from_⟩
  · refine forall_mem_snoc (fun raw' old => mem_append_left _ (sound.covers raw' old)) ?_
    rw [← sameId]
    exact mem_append_right _ (mem_singleton_self _)
  · simp [Collected.add, sound.seen_eq]
  · have apart : ∀ id ∈ state.seen, id ≠ job.jobId := by
      rintro id member rfl
      exact fresh (sameId ▸ member)
    simpa [Collected.add, nodup_append, sound.nodup] using apart
  · intro calm other member unfinished
    simp only [Collected.add, Bool.or_eq_false_iff] at calm
    have before := sound.agreed calm.1
    rcases mem_append.mp member with old | new
    · have leader := before other old unfinished
      simp only [Collected.add]
      split
      · exact leader
      · -- An older unfinished job makes the leader known, so the new one agrees with it.
        rename_i active
        obtain ⟨raw', -, from_⟩ := sound.origin other old
        have known := registered_allocationID_pos from_
        have nonzero : state.leader ≠ 0 := by omega
        have equal := calm.2
        simp [active, nonzero] at equal
        omega
    · rw [mem_singleton.mp new] at unfinished ⊢
      simp [Collected.add, unfinished]
  · intro allocation all
    obtain ⟨calm, leader⟩ := sound.settled allocation fun other member =>
      all other (mem_append_left _ member)
    by_cases finished : job.finished = true
    · simp [Collected.add, finished, calm, leader]
    · have own : job.allocationID = allocation := all job (by simp [Collected.add]) (by simpa using finished)
      rcases leader with zero | same
      · simp [Collected.add, finished, calm, zero, own]
      · simp [Collected.add, finished, calm, same, own]

theorem sound_step (sound : Sound done state) (step : collectCandidate state raw = .ok state') :
    Sound (done ++ [raw]) state' := by
  rcases collectCandidate_cases step with ⟨seen, rfl⟩ | ⟨job, registered, fresh, rfl⟩
  · refine { sound with origin := ?_, covers := ?_ }
    · intro job member
      obtain ⟨raw', inside, from_⟩ := sound.origin job member
      exact ⟨raw', mem_append_left _ inside, from_⟩
    · exact forall_mem_snoc sound.covers seen
  · exact sound_add sound registered fresh

variable {candidates : List JobInfo}

theorem sound_run (sound : Sound done state) (run : candidates.foldlM collectCandidate state = .ok state') :
    Sound (done ++ candidates) state' := by
  induction candidates generalizing done state with
  | nil =>
    cases run
    rwa [append_nil]
  | cons raw rest ih =>
    rw [foldlM_cons] at run
    cases step : collectCandidate state raw with
    | error e =>
      rw [step] at run
      cases run
    | ok middle =>
      rw [step] at run
      have whole := ih (sound_step sound step) run
      rwa [append_assoc] at whole

theorem run_registered (state : Collected)
    (all : ∀ raw ∈ candidates, ∃ job, registeredJobFromInfo raw = .ok job) :
    ∃ state', candidates.foldlM collectCandidate state = .ok state' := by
  induction candidates generalizing state with
  | nil => exact ⟨state, rfl⟩
  | cons raw rest ih =>
    obtain ⟨job, registered⟩ := all raw (by simp)
    obtain ⟨middle, step⟩ := collectCandidate_registered registered
    obtain ⟨last, run⟩ := ih middle fun raw' member => all raw' (by simp [member])
    exact ⟨last, by rw [foldlM_cons, step]; exact run⟩

variable {jobs : List RegisteredJob} {allocation : Int}

theorem activeAllocation_eq (agree : ∀ job ∈ jobs, job.finished = false → job.allocationID = allocation)
    (active : ∃ job ∈ jobs, job.finished = false) : activeAllocation jobs = .ok allocation := by
  -- The running value is zero until the first unfinished job.
  have scan : ∀ (rest : List RegisteredJob) (current : Int),
      (∀ job ∈ rest, job.finished = false → job.allocationID = allocation) →
      current = 0 ∨ current = allocation →
      rest.foldlM activeStep current =
        .ok (if rest.any fun job => !job.finished then allocation else current) := by
    intro rest
    induction rest with
    | nil => exact fun current _ _ => rfl
    | cons job rest ih =>
      intro current all known
      have later : ∀ other ∈ rest, other.finished = false → other.allocationID = allocation :=
        fun other member => all other (by simp [member])
      by_cases finished : job.finished = true
      · have step : activeStep current job = .ok current := by simp [activeStep, finished]
        have tail := ih current later known
        rw [foldlM_cons, step]
        exact tail.trans (by simp [finished])
      · have own : job.allocationID = allocation := all job (by simp) (by simpa using finished)
        have step : activeStep current job = .ok allocation := by
          rcases known with zero | same
          · simp [activeStep, finished, own, zero]
          · simp [activeStep, finished, own, same]
        have tail := ih allocation later (.inr rfl)
        rw [foldlM_cons, step]
        exact tail.trans (by simp [finished])
  obtain ⟨job, member, unfinished⟩ := active
  have some_ : (jobs.any fun job => !job.finished) = true :=
    any_eq_true.mpr ⟨job, member, by simp [unfinished]⟩
  have whole := scan jobs 0 agree (.inl rfl)
  rw [some_] at whole
  exact whole

/-- The job is one of the allocation's that a component may take. -/
def Fits (root : PartialObjectMetadata) (component : SlurmJobComponent) (allocation : Int)
    (job : RegisteredJob) : Prop :=
  job.allocationID = allocation ∧ (root.typeMeta.kind = "CompositePodGroup" →
      job.ownership.podGroup = newGroupIdentity component.objectMeta)

section
variable {root : PartialObjectMetadata} {component : SlurmJobComponent} {allocation : Int}

variable {job : RegisteredJob} {found : Option ExternalJob}

theorem matchComponent_skip {rest : List RegisteredJob} (misfit : ¬ Fits root component allocation job) :
    matchComponent root component allocation (job :: rest) found =
      matchComponent root component allocation rest found := by
  rw [matchComponent]
  split
  · rfl
  · rename_i same
    rw [not_not] at same
    split
    · rfl
    · rename_i identity
      refine absurd ⟨same, fun kind => ?_⟩ misfit
      by_contra other
      exact identity ⟨kind, other⟩

variable {jobs : List RegisteredJob}

private theorem matchComponent_none (misfits : ∀ job ∈ jobs, ¬ Fits root component allocation job) :
    matchComponent root component allocation jobs found = .ok found := by
  induction jobs with
  | nil => rfl
  | cons job rest ih =>
    rw [matchComponent_skip (misfits job (by simp))]
    exact ih fun other member => misfits other (by simp [member])

theorem matchComponent_unique (nodup : jobs.Nodup) (member : job ∈ jobs)
    (fits : Fits root component allocation job)
    (only : ∀ other ∈ jobs, Fits root component allocation other → other = job)
    (noGap : ¬ (root.typeMeta.kind = "PodGroup" ∧ job.ownership.podGroup = none ∧ coversMembers job.ownership component = false)) :
    matchComponent root component allocation jobs none = .ok (some job.toExternalJob) := by
  induction jobs with
  | nil => cases member
  | cons head rest ih =>
    by_cases here : head = job
    · subst here
      have misfits : ∀ other ∈ rest, ¬ Fits root component allocation other := by
        intro other inside fit
        have same := only other (by simp [inside]) fit
        exact (nodup_cons.mp nodup).1 (same ▸ inside)
      have identity : ¬ (root.typeMeta.kind = "CompositePodGroup" ∧
          head.ownership.podGroup ≠ newGroupIdentity component.objectMeta) :=
        fun ⟨kind, other⟩ => other (fits.2 kind)
      rw [matchComponent, if_neg (not_not.mpr fits.1), if_neg identity, if_neg noGap, if_neg (by simp)]
      exact matchComponent_none misfits
    · have misfit : ¬ Fits root component allocation head := fun fit =>
        here (only head (by simp) fit)
      rw [matchComponent_skip misfit]
      refine ih (nodup_cons.mp nodup).2 ?_ fun other inside => only other (by simp [inside])
      rcases mem_cons.mp member with same | inside
      · exact absurd same.symm here
      · exact inside

theorem matchComponent_sound {job : ExternalJob}
    (matched : matchComponent root component allocation jobs found = .ok (some job)) :
    found = some job ∨ ∃ own ∈ jobs, own.toExternalJob = job ∧ Fits root component allocation own ∧
      (root.typeMeta.kind = "PodGroup" → own.ownership.podGroup = none →
        coversMembers own.ownership component = true) := by
  induction jobs generalizing found with
  | nil => exact .inl (Except.ok.inj matched)
  | cons head rest ih =>
    have later : ∀ {found}, matchComponent root component allocation rest found = .ok (some job) →
        found = some job ∨ ∃ own ∈ head :: rest, own.toExternalJob = job ∧
          Fits root component allocation own ∧ (root.typeMeta.kind = "PodGroup" →
            own.ownership.podGroup = none → coversMembers own.ownership component = true) := by
      intro found matched
      refine (ih matched).imp_right ?_
      rintro ⟨own, inside, facts⟩
      exact ⟨own, by simp [inside], facts⟩
    rw [matchComponent] at matched
    split at matched
    · exact later matched
    · rename_i shared
      split at matched
      · exact later matched
      · rename_i leaf
        split at matched
        · cases matched
        · rename_i covered
          split at matched
          · cases matched
          · rcases later matched with own | other
            · refine .inr ⟨head, by simp, Option.some.inj own, ⟨by simpa using shared, ?_⟩, ?_⟩
              · intro kind
                by_contra differs
                exact leaf ⟨kind, differs⟩
              · intro kind noGroup
                by_contra gap
                exact covered ⟨kind, noGroup, by simpa using gap⟩
            · exact .inr other

end

variable {root : PartialObjectMetadata} {components : List SlurmJobComponent} {found : List ExternalJob}

theorem matchComponents_each (matched : matchComponents root allocation jobs components = .ok (some found)) :
    List.Forall₂ (fun component job =>
      matchComponent root component allocation jobs none = .ok (some job)) components found := by
  induction components generalizing found with
  | nil =>
    cases matched
    exact .nil
  | cons component rest ih =>
    rw [matchComponents] at matched
    split at matched
    · cases matched
    · cases matched
    · rename_i job own
      split at matched
      · cases matched
      · cases matched
      · rename_i others tail
        cases matched
        exact .cons own (ih tail)

theorem matchComponents_of_each
    (each : List.Forall₂ (fun component job => matchComponent root component allocation jobs none = .ok (some job)) components found) :
    matchComponents root allocation jobs components = .ok (some found) := by
  induction each with
  | nil => rfl
  | cons first _ ih => simp only [matchComponents, first, ih]

end SlurmBridge.Slurm.Collected
