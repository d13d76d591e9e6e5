/- source: internal/utils/slurmjob/metadata.go
   digest: Job identity and placement metadata on a Pod, and what writing it leaves alone. -/

import SlurmBridge.Slurm.Job

set_option autoImplicit false

namespace SlurmBridge.Slurm.Metadata

open Kube.Objects Slurm.Job Finmap

/-- The labels with one job id label repaired; `current` are the labels of the Pod as read. -/
def validateIDLabel (id : Int) (label : String) (current labels : StringMap) : StringMap :=
  if id > 0 then
    if parseSlurmJobId (StringMap.at current label) ≠ id then labels.insert label (itoa id)
    else labels
  else if label ∈ current then
    labels.erase label
  else
    labels

def jobLabels (current : StringMap) (job : ExternalJob) : StringMap :=
  let labels := validateIDLabel job.jobId labelExternalJobId current current
  let labels := validateIDLabel job.hetJobId labelExternalHetJobId current labels
  if job.hetJobId > 0 ∧ job.hetJobOffset ≥ 0 then
    labels.insert labelExternalHetJobOffset (itoa job.hetJobOffset)
  else
    labels.erase labelExternalHetJobOffset

/-- The Pod is marked as placed on a node that the job does not have. -/
def staleNode (pod : Pod) (job : ExternalJob) : Bool :=
  pod.nodeName == "" && pod.annotation annotationExternalJobNode != "" && (job.finished ||
      !job.pending && !job.nodes.expand.contains (pod.annotation annotationExternalJobNode))

def podWithMetadata (pod : Pod) (job : ExternalJob) (adopt : Bool) : Pod :=
  let linked :=
    if (pod.label labelExternalJobId ≠ "" ∨ adopt = true) ∧ job.finished = false then
      { pod with
        labels := jobLabels pod.labels job
        finalizers :=
          if !pod.deleting && !isPodTerminal pod && !pod.finalizers.contains finalizerScheduler then
            pod.finalizers ++ [finalizerScheduler]
          else
            pod.finalizers }
    else
      pod
  if staleNode pod job then
    { linked with annotations := linked.annotations.insert annotationExternalJobNode "" }
  else
    linked

theorem finalizers_podWithMetadata (pod : Pod) (job : ExternalJob) (adopt : Bool) :
    pod.finalizers ⊆ (podWithMetadata pod job adopt).finalizers := by
  intro f member
  unfold podWithMetadata
  repeat' split
  all_goals simp [member]

@[simp] theorem nodeName_podWithMetadata (pod : Pod) (job : ExternalJob) (adopt : Bool) :
    (podWithMetadata pod job adopt).nodeName = pod.nodeName := by
  unfold podWithMetadata
  repeat' split
  all_goals rfl

@[simp] theorem schedulingGates_podWithMetadata (pod : Pod) (job : ExternalJob) (adopt : Bool) :
    (podWithMetadata pod job adopt).schedulingGates = pod.schedulingGates := by
  unfold podWithMetadata
  repeat' split
  all_goals rfl

theorem labels_podWithMetadata (pod : Pod) (job : ExternalJob) (adopt : Bool) :
    (podWithMetadata pod job adopt).labels =
      if (pod.label labelExternalJobId ≠ "" ∨ adopt = true) ∧ job.finished = false then
        jobLabels pod.labels job
      else pod.labels := by
  unfold podWithMetadata
  repeat' split
  all_goals rfl

def repairedLabel (id : Int) (current : Option String) : Option String :=
  if id > 0 then
    if parseSlurmJobId (current.getD "") ≠ id then some (itoa id) else current
  else
    none

theorem repairedLabel_idem (id : Int) (current : Option String) :
    repairedLabel id (repairedLabel id current) = repairedLabel id current := by
  unfold repairedLabel
  by_cases positive : id > 0
  · simp only [if_pos positive]
    by_cases other : parseSlurmJobId (current.getD "") ≠ id
    · simp only [if_pos other, Option.getD_some, ite_self]
    · simp only [if_neg other]
  · simp only [if_neg positive]

theorem lookup_validateIDLabel {id : Int} {label key : String} {current labels : StringMap}
    (untouched : labels.lookup label = current.lookup label) :
    (validateIDLabel id label current labels).lookup key =
      if key = label then repairedLabel id (current.lookup key) else labels.lookup key := by
  unfold validateIDLabel StringMap.at
  by_cases same : key = label
  · subst same
    rw [if_pos rfl, repairedLabel]
    split
    · split
      · exact lookup_insert _
      · exact untouched
    · split
      · exact lookup_erase ..
      · rename_i missing
        rw [untouched, lookup_eq_none.mpr missing]
  · rw [if_neg same]
    split
    · split
      · exact lookup_insert_of_ne _ same
      · rfl
    · split
      · exact lookup_erase_ne same
      · rfl

theorem lookup_jobLabels_key (current : StringMap) (job : ExternalJob) (key : String) :
    (jobLabels current job).lookup key =
      if key = labelExternalHetJobOffset then
        if job.hetJobId > 0 ∧ job.hetJobOffset ≥ 0 then some (itoa job.hetJobOffset) else none
      else if key = labelExternalHetJobId then
        repairedLabel job.hetJobId (current.lookup key)
      else if key = labelExternalJobId then
        repairedLabel job.jobId (current.lookup key)
      else
        current.lookup key := by
  have own : ∀ key, (validateIDLabel job.jobId labelExternalJobId current current).lookup key =
      if key = labelExternalJobId then repairedLabel job.jobId (current.lookup key) else current.lookup key :=
    fun key => lookup_validateIDLabel rfl
  have het : labelExternalHetJobId ≠ labelExternalJobId := by decide
  have both : ∀ key, (validateIDLabel job.hetJobId labelExternalHetJobId current
      (validateIDLabel job.jobId labelExternalJobId current current)).lookup key = _ :=
    fun key => lookup_validateIDLabel ((own labelExternalHetJobId).trans (if_neg het))
  unfold jobLabels
  by_cases offset : key = labelExternalHetJobOffset
  · subst offset
    split
    · exact lookup_insert _
    · exact lookup_erase ..
  · rw [if_neg offset, ← own key]
    split
    · rw [lookup_insert_of_ne _ offset, both]
    · rw [lookup_erase_ne offset, both]

theorem jobLabels_idem (current : StringMap) (job : ExternalJob) :
    jobLabels (jobLabels current job) job = jobLabels current job := by
  refine ext_lookup fun key => ?_
  rw [lookup_jobLabels_key (jobLabels current job)]
  split
  · rename_i offset
    rw [lookup_jobLabels_key, if_pos offset]
  · rename_i notOffset
    split
    · rename_i het
      rw [lookup_jobLabels_key, if_neg notOffset, if_pos het, repairedLabel_idem]
    · rename_i notHet
      split
      · rename_i own
        rw [lookup_jobLabels_key, if_neg notOffset, if_neg notHet, if_pos own, repairedLabel_idem]
      · rfl

theorem lookup_jobLabels {current : StringMap} {job : ExternalJob} (positive : 0 < job.jobId) :
    (jobLabels current job).lookup labelExternalJobId =
      if parseSlurmJobId (StringMap.at current labelExternalJobId) ≠ job.jobId then
        some (itoa job.jobId)
      else current.lookup labelExternalJobId := by
  rw [lookup_jobLabels_key, if_neg (by decide), if_neg (by decide), if_pos rfl, repairedLabel, if_pos positive]
  rfl

section
variable (pod : Pod) (job : ExternalJob) (adopt : Bool)

theorem finalizers_eq_podWithMetadata : (podWithMetadata pod job adopt).finalizers =
      if (pod.label labelExternalJobId ≠ "" ∨ adopt = true) ∧ job.finished = false then
        if !pod.deleting && !isPodTerminal pod && !pod.finalizers.contains finalizerScheduler then
          pod.finalizers ++ [finalizerScheduler]
        else pod.finalizers
      else pod.finalizers := by
  unfold podWithMetadata
  repeat' split
  all_goals rfl

theorem annotations_podWithMetadata : (podWithMetadata pod job adopt).annotations =
      if staleNode pod job then pod.annotations.insert annotationExternalJobNode "" else pod.annotations := by
  unfold podWithMetadata
  repeat' split
  all_goals rfl

theorem podWithMetadata_eq : podWithMetadata pod job adopt =
      { pod with
        labels := (podWithMetadata pod job adopt).labels
        finalizers := (podWithMetadata pod job adopt).finalizers
        annotations := (podWithMetadata pod job adopt).annotations } := by
  unfold podWithMetadata
  repeat' split
  all_goals rfl

private theorem unlinked_podWithMetadata
    (unlinked : ¬((pod.label labelExternalJobId ≠ "" ∨ adopt = true) ∧ job.finished = false)) :
    ¬(((podWithMetadata pod job adopt).label labelExternalJobId ≠ "" ∨ adopt = true) ∧ job.finished = false) := by
  rwa [Pod.label, labels_podWithMetadata, if_neg unlinked]

private theorem labels_idem :
    (podWithMetadata (podWithMetadata pod job adopt) job adopt).labels = (podWithMetadata pod job adopt).labels := by
  by_cases linked : (pod.label labelExternalJobId ≠ "" ∨ adopt = true) ∧ job.finished = false
  · rw [labels_podWithMetadata (podWithMetadata pod job adopt), labels_podWithMetadata pod, if_pos linked,
      jobLabels_idem, ite_self]
  · rw [labels_podWithMetadata (podWithMetadata pod job adopt),
      if_neg (unlinked_podWithMetadata pod job adopt linked)]

private theorem finalizers_idem : (podWithMetadata (podWithMetadata pod job adopt) job adopt).finalizers =
      (podWithMetadata pod job adopt).finalizers := by
  by_cases linked : (pod.label labelExternalJobId ≠ "" ∨ adopt = true) ∧ job.finished = false
  · have kept : (!(podWithMetadata pod job adopt).deleting && !isPodTerminal (podWithMetadata pod job adopt) &&
        !(podWithMetadata pod job adopt).finalizers.contains finalizerScheduler) = false := by
      rw [podWithMetadata_eq]
      rw [finalizers_eq_podWithMetadata, if_pos linked]
      split
      · simp
      · rename_i settled
        exact Bool.eq_false_iff.mpr settled
    rw [finalizers_eq_podWithMetadata (podWithMetadata pod job adopt), kept]
    simp only [Bool.false_eq_true, if_false, ite_self]
  · rw [finalizers_eq_podWithMetadata (podWithMetadata pod job adopt),
      if_neg (unlinked_podWithMetadata pod job adopt linked)]

private theorem annotations_idem : (podWithMetadata (podWithMetadata pod job adopt) job adopt).annotations =
      (podWithMetadata pod job adopt).annotations := by
  have fresh : staleNode (podWithMetadata pod job adopt) job = false := by
    unfold staleNode Pod.annotation
    rw [nodeName_podWithMetadata, annotations_podWithMetadata]
    split
    · simp
    · rename_i fresh
      exact Bool.eq_false_iff.mpr fresh
  rw [annotations_podWithMetadata (podWithMetadata pod job adopt), fresh]
  rfl

theorem podWithMetadata_idem :
    podWithMetadata (podWithMetadata pod job adopt) job adopt = podWithMetadata pod job adopt := by
  rw [podWithMetadata_eq (podWithMetadata pod job adopt), labels_idem, finalizers_idem, annotations_idem]

end

end SlurmBridge.Slurm.Metadata
