/- source: internal/utils/slurmjobir/job.go, jobset.go
   digest: The deadline of a Job as a time limit in minutes, up to the description of the Slurm job. -/

import SlurmBridge.JobIR.Annotations
import SlurmBridge.Slurm.JobDescription

set_option autoImplicit false

namespace SlurmBridge.JobIR.Deadline

open Foundation.Checked Kube.Objects Kube.PodResources JobIR.IR JobIR.Resources JobIR.Annotations
open Slurm.JobDescription

structure JobSpec where
  activeDeadlineSeconds : Option Int
  limits : Option ResourceList

/-- The conversions wrap around, and the division drops the rest. -/
def deadlineMinutes (seconds : Int) : Int := toInt32 ((toInt64 (seconds + 59)).tdiv 60)

/-- A Job is translated alike under its own root and under that of its JobSet. -/
def fromJobSpec (pods : List Pod) (jobSpec : JobSpec) (root : PartialObjectMetadata) : SlurmJobComponent :=
  ⟨root, { (Preset.job jobSpec.limits).info with
    minNodes := some (toInt32 pods.length)
    timeLimit := (jobSpec.activeDeadlineSeconds.filter (0 < ·)).map deadlineMinutes }, pods⟩

/-- A limit in minutes is none, or the least one that covers the seconds. -/
def Sufficient (seconds : Int) (limit : Option Int) : Prop :=
  ∀ m, limit = some m → 0 < m ∧ seconds ≤ 60 * m ∧ 60 * (m - 1) < seconds

theorem sufficient_deadline_iff {seconds : Int} (positive : 0 < seconds) (wide : seconds < 2 ^ 63) :
    Sufficient seconds (some (deadlineMinutes seconds)) ↔ seconds ≤ 60 * (2 ^ 31 - 1) := by
  constructor
  · intro sufficient
    have covers := (sufficient _ rfl).2.1
    have bounded := toInt32_lt ((toInt64 (seconds + 59)).tdiv 60)
    unfold deadlineMinutes at covers
    omega
  · rintro short m ⟨⟩
    have sum : toInt64 (seconds + 59) = seconds + 59 := Int.bmod_eq_of_le (by omega) (by omega)
    have quotient : (seconds + 59).tdiv 60 = (seconds + 59) / 60 := Int.tdiv_eq_ediv_of_nonneg (by omega)
    have narrow : deadlineMinutes seconds = (seconds + 59) / 60 := by
      rw [deadlineMinutes, sum, quotient]
      exact toInt32_eq (by omega) (by omega)
    omega

section
variable {s : Snapshot} {info info' : SlurmJobIRJobInfo} {anno : StringMap}

/-- No annotation of a workload sets a time limit. -/
structure Silent (s : Snapshot) : Prop where
  objects : ∀ object, (s.annotations object).lookup annotationTimeLimit = none
  workloads : ∀ ns name anno, s.workload ns name = .ok anno → anno.lookup annotationTimeLimit = none

private theorem timeLimit_parse (silent : anno.lookup annotationTimeLimit = none) (parsed : s.parse info anno = .ok info') :
    info'.timeLimit = info.timeLimit := by
  have kept := (parseUserAnnotations_ok (mapError_eq_ok.mp parsed)).1
  rw [overridden, silent] at kept
  exact (Except.ok.inj kept).symm

private theorem timeLimit_podGroup {pg : Option PodGroup} {controller : PartialObjectMetadata} (silent : Silent s)
    (known : anno.lookup annotationTimeLimit = none)
    (parsed : s.parsePodGroupSlurmAnnotations info pg controller anno = .ok info') : info'.timeLimit = info.timeLimit := by
  have silence : (s.controllerAnnotations controller anno).lookup annotationTimeLimit = none := by
    unfold Snapshot.controllerAnnotations
    split
    · split
      · exact silent.objects _
      · exact known
    · split
      · split
        · exact silent.objects _
        · exact known
      · exact known
  obtain ⟨info₁, first, parsed⟩ := bind_eq_ok.mp parsed
  rw [← timeLimit_parse silence first]
  cases pg with
  | none =>
    rw [pure_eq_ok] at parsed
    rw [parsed]
  | some pg =>
    obtain ⟨info₂, second, parsed⟩ := bind_eq_ok.mp parsed
    rw [← timeLimit_parse (silent.objects _) second]
    split at parsed
    · rw [pure_eq_ok] at parsed
      rw [parsed]
    · split at parsed
      · rw [pure_eq_ok] at parsed
        rw [parsed]
      · cases parsed
      · next found => exact timeLimit_parse (silent.workloads _ _ _ found) parsed

variable {root : PartialObjectMetadata}

private theorem timeLimit_annotate {own : Bool} {pods : List Pod} (silent : Silent s)
    (annotated : s.annotate root own info pods = .ok info') : info'.timeLimit = info.timeLimit := by
  cases pods with
  | nil => rw [Except.ok.inj annotated]
  | cons first rest =>
    cases own with
    | true =>
      obtain ⟨controller, -, annotated⟩ := bind_eq_ok.mp annotated
      obtain ⟨_, same, annotated⟩ := bind_eq_ok.mp annotated
      cases pure_eq_ok.mp same
      obtain ⟨pg, -, parsed⟩ := bind_eq_ok.mp annotated
      exact timeLimit_podGroup silent (Finmap.lookup_empty _) parsed
    | false =>
      obtain ⟨_, same, annotated⟩ := bind_eq_ok.mp annotated
      cases pure_eq_ok.mp same
      obtain ⟨pg, -, parsed⟩ := bind_eq_ok.mp annotated
      exact timeLimit_podGroup silent (silent.objects root) parsed

private theorem mapM_one {α β ε : Type} {f : α → Except ε β} {a : α} {l : List β} (run : [a].mapM f = .ok l) :
    ∃ b, f a = .ok b ∧ l = [b] := by
  cases mapM_forall₂ run with
  | cons first rest =>
    cases rest
    exact ⟨_, first, rfl⟩

theorem timeLimit_settings {pg : Option PodGroup} {component : SlurmJobComponent}
    {infos : List SlurmJobIRJobInfo} (silent : Silent s) (settled : s.settings pg ⟨root, [component]⟩ = .ok infos) :
    ∃ info, infos = [info] ∧ info.timeLimit = component.jobInfo.timeLimit := by
  obtain ⟨read, resources, applied⟩ := bind_eq_ok.mp settled
  obtain ⟨info, computed, rfl⟩ := mapM_one resources
  have kept : info.timeLimit = component.jobInfo.timeLimit := by
    have parsed := mapError_eq_ok.mp computed
    obtain ⟨_, -, rest⟩ := bind_eq_ok.mp parsed
    rw [← pure_eq_ok.mp rest]
    rfl
  cases pg with
  | none =>
    obtain ⟨info', parsed, rfl⟩ := mapM_one applied
    exact ⟨info', rfl, (timeLimit_parse (silent.objects root) parsed).trans kept⟩
  | some pg =>
    obtain ⟨info', parsed, rfl⟩ := mapM_one applied
    exact ⟨info', rfl, (timeLimit_annotate silent parsed).trans kept⟩

end

/-- A deadline becomes the least sufficient time limit exactly if it fits into the minutes of 32 bits, and the
limit reaches the description of the job. -/
theorem deadline_sufficient_iff (s : Snapshot) (silent : Silent s) (pg : Option PodGroup)
    (root objectMeta : PartialObjectMetadata) (pods : List Pod) (jobSpec : JobSpec) (seconds : Int)
    (given : jobSpec.activeDeadlineSeconds = some seconds) (positive : 0 < seconds) (wide : seconds < 2 ^ 63)
    (infos : List SlurmJobIRJobInfo)
    (settled : s.settings pg ⟨root, [fromJobSpec pods jobSpec objectMeta]⟩ = .ok infos) :
    ∃ info, infos = [info] ∧ (Sufficient seconds info.timeLimit ↔ seconds ≤ 60 * (2 ^ 31 - 1)) ∧
      ∀ partition desc, buildJobDesc partition root ⟨objectMeta, info, pods⟩ = .ok desc →
        desc.timeLimit = some ((info.timeLimit.map NoValue.of).getD .unset) := by
  obtain ⟨info, single, kept⟩ := timeLimit_settings silent settled
  have limit : info.timeLimit = some (deadlineMinutes seconds) := by
    rw [kept, fromJobSpec, given]
    simp [positive]
  refine ⟨info, single, limit ▸ sufficient_deadline_iff positive wide, ?_⟩
  intro partition desc built
  obtain ⟨constraints, -, same⟩ := bind_eq_ok.mp built
  rw [← pure_eq_ok.mp same]

private def quiet : Snapshot where
  cluster := ⟨[], List.nodup_nil, fun q => q.refuse⟩
  parsers := ⟨fun _ => .error "", fun _ => .error ""⟩
  devices := ⟨⟨.empty, fun _ => .error .notFound⟩, fun _ => none, fun _ => ""⟩
  needs := fun _ => ⟨[], [], ∅, ∅, ∅, List.nodup_nil⟩
  preset := fun _ _ => .unset
  annotations := fun _ => ∅
  workloadName := fun _ => ""
  workload := fun _ _ => .error .notFound

/-- Sixty-one seconds become two minutes. -/
theorem deadline_of_a_minute : quiet.settings none ⟨.empty, [fromJobSpec [] ⟨some 61, none⟩ .empty]⟩ =
      .ok [{ minNodes := some 0, timeLimit := some 2 }] ∧ Sufficient 61 (some 2) := by
  have settled : quiet.settings none ⟨.empty, [fromJobSpec [] ⟨some 61, none⟩ .empty]⟩ =
      .ok [{ minNodes := some 0, timeLimit := some 2 }] := by decide +kernel
  obtain ⟨info, single, sufficient, -⟩ := deadline_sufficient_iff quiet ⟨fun _ => Finmap.lookup_empty _, nofun⟩ none .empty
    .empty [] ⟨some 61, none⟩ 61 rfl (by decide) (by decide) _ settled
  cases single
  exact ⟨settled, sufficient.mpr (by decide)⟩

/-- A deadline beyond the minutes of 32 bits becomes no limit at all. -/
theorem deadline_unlimited : quiet.settings none ⟨.empty, [fromJobSpec [] ⟨some (60 * 2 ^ 32), none⟩ .empty]⟩ =
      .ok [{ minNodes := some 0, timeLimit := some 0 }] ∧ ¬ Sufficient (60 * 2 ^ 32) (some 0) := by
  refine ⟨by decide +kernel, fun sufficient => ?_⟩
  exact absurd (sufficient 0 rfl).1 (by decide)

end SlurmBridge.JobIR.Deadline
