/- source: internal/controller/registration/controller.go, internal/utils/slurmjobir,
     internal/utils/slurmjob/allocation_identity.go
   digest: What membership discovery and translation say about the identity of a workload. -/

import SlurmBridge.Registration.Effects

set_option autoImplicit false

namespace SlurmBridge.Registration.MembershipSpec

open Foundation.Interaction Kube.Objects Kube.Reads JobIR.IR JobIR.Translate Slurm.Ownership
open Slurm.Allocation Registration.Interface Registration.Membership Registration.Effects

/-- A root whose workload is the single Pod it was found through: a Pod, a Job, a JobSet or a
controller without a gang. -/
def SinglePod (root : PartialObjectMetadata) : Prop :=
  newGroupIdentity root = none ∧ root.typeMeta.kind ≠ "LeaderWorkerSet"

/-- A built-in or a scheduler-plugins PodGroup. -/
def GangPodGroup (root : PartialObjectMetadata) : Prop :=
  (newGroupIdentity root).isSome = true ∧ root.typeMeta.kind = "PodGroup"

def podForms (pod : Pod) : List String := [podKey pod, pod.namespacedName]

section
variable {api : WorkloadAPI} {pod : Pod}

private theorem fromJob_single (root : PartialObjectMetadata) :
    Delivers (fun _ components => components.flatMap SlurmJobComponent.pods = [pod]) (fromJob pod root) :=
  delivers_bind (delivers_any _) fun _ _ _ => delivers_pure rfl

variable {root : PartialObjectMetadata}

private theorem apart_of_noGroup (noGroup : newGroupIdentity root = none) (typeMeta : TypeMeta)
    (identity : hasGroupIdentity typeMeta = true) : root.typeMeta ≠ typeMeta := by
  rintro rfl
  rw [← newGroupIdentity_isSome, noGroup] at identity
  cases identity

private theorem notBuiltIn_of_noGroup (noGroup : newGroupIdentity root = none) :
    isBuiltInPodGroup root.typeMeta = false := by
  simp only [isBuiltInPodGroup, Bool.or_eq_false_iff, beq_eq_false_iff_ne]
  exact ⟨apart_of_noGroup noGroup _ (by decide), apart_of_noGroup noGroup _ (by decide)⟩

private theorem componentsFor_single (single : SinglePod root) :
    Delivers (fun _ components => components.flatMap SlurmJobComponent.pods = [pod])
      (componentsFor api pod root) := by
  obtain ⟨noGroup, notLws⟩ := single
  unfold componentsFor
  rw [if_neg (by simp [notBuiltIn_of_noGroup noGroup])]
  split
  · exact delivers_bind (delivers_any _) fun _ _ _ => fromJob_single _
  · rw [if_neg (apart_of_noGroup noGroup _ (by decide))]
    split
    · exact fromJob_single _
    · rw [if_neg (apart_of_noGroup noGroup _ (by decide)), if_neg]
      · exact delivers_pure rfl
      · rintro lws
        exact notLws (by rw [lws]; rfl)

theorem translate_single :
    Delivers (fun _ ir => SinglePod ir.rootPOM → ir.allPods = [pod]) (translateToSlurmJobIR api pod) := by
  refine delivers_bind (delivers_any _) fun _ (root, _) _ => ?_
  by_cases single : SinglePod root
  · refine delivers_bind (componentsFor_single single) fun _ components pods => ?_
    split
    · exact delivers_throw _
    · refine delivers_bind (delivers_any _) fun _ infos _ => delivers_pure fun _ => ?_
      rw [SlurmJobIR.allPods, List.flatMap_def, pods_withSettings, ← List.flatMap_def]
      exact pods
  · refine delivers_bind (delivers_any _) fun _ components _ => ?_
    split
    · exact delivers_throw _
    · refine delivers_bind (delivers_any _) fun _ infos _ => delivers_pure fun single' => ?_
      exact absurd single' single

end

variable {pod : Pod} {form : String}

theorem mem_memberLegacyKeys : form ∈ memberLegacyKeys pod ↔ form ∈ podForms pod := by
  unfold memberLegacyKeys podForms
  split
  · rename_i noUid
    simp [podKey, noUid]
  · simp

theorem podGroup_of_identity {ir : SlurmJobIR} (fine : (identityForAllocation pod ir).2 = none)
    (legacy : form ∈ (identityForAllocation pod ir).1.legacyPodKeys) :
    ir.rootPOM.typeMeta.kind = "PodGroup" := by
  unfold identityForAllocation at fine legacy
  split at legacy
  · by_contra other
    rw [if_neg other] at legacy
    cases legacy
  · split at legacy
    · rename_i noGroup lws
      rw [noGroup] at fine
      rw [if_pos lws] at fine
      unfold lwsAllocationIdentity at fine legacy
      dsimp only at fine legacy
      split at legacy
      · cases legacy
      · rename_i noLeader
        rw [noLeader] at fine
        dsimp only at fine
        split at fine <;> cases fine
    · cases legacy

section
variable {r : Reconciler} {key : Request}

/-- A key is read through a root of its own group and kind, which has an identity unless it is a
LeaderWorkerSet. -/
theorem typeMeta_ok {type : TypeMeta} (resolved : typeMeta r key = .ok type) :
    type.group = key.apiGroup ∧ type.kind = key.kind ∧ (type = lwsV1 ∨ hasGroupIdentity type = true) := by
  have coscheduling : ∀ {type}, (if key.apiGroup = "scheduling.x-k8s.io" ∧ key.kind = "PodGroup" then
      .ok podGroupCoschedulingV1Alpha1 else .error (.text "unsupported allocation key") :
      Except Err TypeMeta) = .ok type →
      type.group = key.apiGroup ∧ type.kind = key.kind ∧ (type = lwsV1 ∨ hasGroupIdentity type = true) := by
    intro type resolved
    split at resolved
    · rename_i own
      cases resolved
      exact ⟨own.1.symm, own.2.symm, by decide⟩
    · cases resolved
  unfold typeMeta at resolved
  split at resolved
  · rename_i own
    cases resolved
    exact ⟨own.1.symm, own.2.symm, .inl rfl⟩
  · split at resolved
    · rename_i podGroupType api
      split at resolved
      · rename_i own
        cases resolved
        have supported := r.served _ api
        simp only [isBuiltInPodGroup, Bool.or_eq_true, beq_iff_eq] at supported
        rw [own.1, own.2]
        rcases supported with rfl | rfl <;> decide
      · split at resolved
        · rename_i own
          cases resolved
          exact ⟨own.1.symm, own.2.symm, by decide⟩
        · exact coscheduling resolved
    · exact coscheduling resolved

variable {t : Trace surroundings} {found : Members}

theorem legacy_of_members (kind : key.kind = "PodGroup")
    (membership : Exec (membersFrom r .cached key) t found) :
    ∀ pod ∈ found.pods, ∀ form ∈ podForms pod, form ∈ found.identity.legacyPodKeys := by
  have spec : wp (fun _ _ => True) (membersFrom r .cached key) [] fun _ found =>
      ∀ pod ∈ found.pods, ∀ form ∈ podForms pod, form ∈ found.identity.legacyPodKeys := by
    have empty : ∀ (identity : AllocationIdentity), ∀ pod ∈ ([] : List Pod), ∀ form ∈ podForms pod,
        form ∈ identity.legacyPodKeys := fun _ pod inside => absurd inside List.not_mem_nil
    unfold membersFrom groupMembersFrom
    rw [if_neg (by simp [kind])]
    split
    · exact empty _
    · split
      · exact empty _
      · rename_i type resolved
        obtain ⟨-, sameKind, isLws | supported⟩ := typeMeta_ok resolved
        · rw [isLws, kind] at sameKind
          exact absurd sameKind (by decide)
        have podGroup : type.kind = "PodGroup" := sameKind.trans kind
        rw [wp_bind, wp_perform]
        refine ⟨trivial, fun reply => ?_⟩
        split
        · exact empty _
        · exact empty _
        · split
          · exact ⟨trivial, fun _ => empty _⟩
          · rw [wp_bind]
            refine wp_of_only (reading_through _ _) (fun _ _ _ => trivial) fun t out _ _ => ?_
            split
            · exact empty _
            · exact empty _
            · rename_i root _ _ first rest
              simp only [identityForAllocation, newGroupIdentity, supported, podGroup, if_true]
              intro pod inside form listed
              refine List.mem_flatMap.mpr ⟨pod, by simpa [SlurmJobIR.allPods] using inside, ?_⟩
              exact mem_memberLegacyKeys.mpr listed
  exact (wp_exec spec membership).1

theorem podGroup_of_legacy (membership : Exec (membersFrom r .cached key) t found)
    (complete : found.error = none) {form : String} (legacy : form ∈ found.identity.legacyPodKeys) :
    key.kind = "PodGroup" := by
  have spec : wp (fun _ _ => True) (membersFrom r .cached key) [] fun _ found =>
      found.error = none → form ∈ found.identity.legacyPodKeys → key.kind = "PodGroup" := by
    have empty : ∀ {goal : Prop}, form ∈ ([] : List String) → goal :=
      fun inside => absurd inside List.not_mem_nil
    unfold membersFrom
    split
    · unfold podMembersFrom
      rw [wp_bind, wp_perform]
      refine ⟨trivial, fun reply => ?_⟩
      split
      · exact fun _ => empty
      · exact fun _ => empty
      · split
        · exact fun _ => empty
        · split
          · exact fun _ => empty
          · rw [wp_bind]
            refine wp_of_only (reading_through _ _) (fun _ _ _ => trivial) fun t out _ _ => ?_
            split
            · split <;> exact fun _ => empty
            · split
              · exact ⟨trivial, fun _ _ => empty⟩
              · exact fun _ => empty
    · unfold groupMembersFrom
      split
      · exact fun _ => empty
      · split
        · exact fun _ => empty
        · rename_i type resolved
          have unlisted : ∀ {goal : Prop}, form ∈ (if key.kind = "LeaderWorkerSet" then
              (⟨none, (Request.groupIdentity key).key, []⟩ : AllocationIdentity)
              else ⟨some .group, (Request.groupIdentity key).key, []⟩).legacyPodKeys → goal := by
            intro goal inside
            split at inside <;> exact empty inside
          rw [wp_bind, wp_perform]
          refine ⟨trivial, fun reply => ?_⟩
          split
          · exact fun _ => unlisted
          · exact fun _ => unlisted
          · split
            · exact ⟨trivial, fun _ _ => unlisted⟩
            · rw [wp_bind]
              refine wp_of_only (reading_through _ _) (fun _ _ _ => trivial) fun t out _ _ => ?_
              split
              · exact fun _ => unlisted
              · exact fun _ => unlisted
              · intro fine inside
                rw [← (typeMeta_ok resolved).2.1]
                exact podGroup_of_identity fine inside
  exact (wp_exec spec membership).1 complete legacy

end

end SlurmBridge.Registration.MembershipSpec
