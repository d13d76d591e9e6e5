/- source: internal/admission/admission.go, internal/utils/tolerations.go
   digest: What the webhook sets on a Pod and admits of it, and what translation then makes of its annotations. -/

import SlurmBridge.JobIR.Requester
import SlurmBridge.Registration.Reconcile
import SlurmBridge.Slurm.JobDescription
import SlurmBridge.Slurm.TimeLimit

set_option autoImplicit false

namespace SlurmBridge.Admission.Pods

open Foundation.Checked Foundation.Text Kube.Objects Kube.PodResources Kube.Reads Dra.Profiles JobIR.IR
open JobIR.Resources JobIR.Annotations JobIR.Translate JobIR.Requester Slurm.JobDescription
open Slurm.TimeLimit (Durations)
open Registration.Reconcile (publishedPod)
open Node.Configuration (trimSpace)
open Node.SlurmControl (slurmFeatureGRESCompatible)
open Inventory.Devices (draDriverCpu)
open List

/-- A Pod with what else admission reads of its specification. -/
structure Manifest where
  pod : Pod
  needs : PodNeeds
  resourceClaims : Bool
  topologySpreadConstraints : Nat
  /-- The required terms of its affinity, to nodes, to Pods and against Pods. -/
  nodeTerms : Nat
  podTerms : Nat
  antiTerms : Nat

namespace Manifest

variable (m : Manifest)

def containers : List Container := m.needs.initContainers ++ m.needs.containers

def resourceNames : List String := m.containers.flatMap fun c => c.requests.keys ++ c.limits.keys

def deviceClassNames : List String := m.resourceNames.filterMap (after? resourceDeviceClassPrefix)

def annotation? (key : String) : Option String := m.pod.annotations.lookup key

def hasRequiredAffinity : Bool := m.nodeTerms > 0 || m.podTerms > 0 || m.antiTerms > 0

def podRequestsNativeCPU : Bool :=
  (m.needs.requests.keys ++ m.needs.limits.keys ++ m.resourceNames).contains resourceCPU

def standalone : Bool :=
  (getNextControllerOwner m.pod.ownerReferences).isNone && m.pod.schedulingGroup.isNone &&
    m.pod.label coschedulingPodGroupLabel == ""

/-- Letters are compared without their case; the long s has the s as a case. -/
def exclusive : Bool :=
  (trimSpace (m.pod.annotation annotationExclusive)).toList.map (fun c => if c = 'ſ' then 's' else c.toLower) !=
    "false".toList

end Manifest

/-- The configuration of admission, with what it reads. -/
structure PodAdmission where
  schedulerName : String
  managedNamespaces : List String
  /-- Whether the selector of managed namespaces, if there is one, matches a namespace. -/
  managedNamespaceSelector : Option (String → Except String Bool)
  classes : Classes
  leaderWorkerSet : String → String → Except KubeError LeaderWorkerSet
  legacyPodGroups : Bool
  legacyLWSGangs : Bool
  durations : Durations
  wrap : Int → Int

def errExclusiveCPUAllocation : String := "CPU DRA does not support exclusive Slurm allocations; set " ++
  "slurmjob.slinky.slurm.net/exclusive: \"false\" on the workload annotation source"

def validatePositiveResourceRequirements (owner : String) (requests limits : ResourceList) : Except String Unit :=
  [("request", requests), ("limit", limits)].forM fun field => field.2.entries.forM fun e =>
    require (¬((e.1 = resourceCPU ∨ (after? resourceDeviceClassPrefix e.1).isSome) ∧ e.2 ≤ 0))
      (owner ++ " resource " ++ field.1 ++ " " ++ e.1.quote ++ " must be greater than zero")

def validatePositiveResourceQuantities (m : Manifest) : Except String Unit := do
  validatePositiveResourceRequirements "pod" m.needs.requests m.needs.limits
  m.containers.forM fun c => validatePositiveResourceRequirements ("container " ++ c.name.quote) c.requests c.limits

def validateAnnotationConflicts (m : Manifest) : Except String Unit :=
  let hasCpuPerTask := (m.annotation? annotationCpuPerTask).isSome
  let hasGres := (m.annotation? annotationGres).isSome
  m.resourceNames.forM fun name =>
    match after? resourceDeviceClassPrefix name with
    | none => .ok ()
    | some cls => do
        require (¬(hasCpuPerTask ∧ cls = draDriverCpu)) ("annotation " ++ annotationCpuPerTask.quote ++
          " conflicts with CPU DRA resource " ++ name.quote ++ ": explicit DRA requests are authoritative")
        require (¬(hasGres ∧ cls ≠ draDriverCpu)) ("annotation " ++ annotationGres.quote ++
          " conflicts with DRA resource " ++ name.quote ++ ": explicit DRA requests are authoritative")

def validateConstraintsAnnotation (m : Manifest) : Except String Unit :=
  match m.annotation? annotationConstraints with
  | none => .ok ()
  | some constraints => do
      let _ ← (Slurm.Constraint.compose slurmFeatureGRESCompatible constraints).mapError fun e =>
        "annotation " ++ annotationConstraints.quote ++ ": " ++ e

/-- What matching compares of a toleration. -/
structure Toleration where
  key : String
  operator : String
  value : String
  effect : String
  deriving DecidableEq

def newTolerationNodeBridged (schedulerName : String) : Toleration :=
  ⟨"slinky.slurm.net/managed-node", "Equal", schedulerName, "NoExecute"⟩

def mergeTolerations (tolerations : List Toleration) (toleration : Toleration) : List Toleration :=
  if toleration ∈ tolerations then tolerations else tolerations ++ [toleration]

/-- The registration's gate, which a member of a native Pod group goes without. -/
def addGate (create : Bool) (pod : Pod) : Pod :=
  if create ∧ podGroupName pod = none ∧ schedulingGateRegistration ∉ pod.schedulingGates then
    { pod with schedulingGates := pod.schedulingGates ++ [schedulingGateRegistration] }
  else pod

namespace PodAdmission

variable (a : PodAdmission)

def isManagedNamespace (ns : String) : Except String Bool :=
  match a.managedNamespaceSelector with
  | some selector => selector ns
  | none => .ok (a.managedNamespaces.contains ns)

def manages (m : Manifest) : Except String Bool :=
  (a.isManagedNamespace m.pod.ns).map fun isManaged => isManaged || m.pod.schedulerName == a.schedulerName

/-- A Pod and its tolerations after the webhook, called for a creation or for an update. -/
def default (create : Bool) (p : Pod × List Toleration) : Except String (Pod × List Toleration) := do
  let isManaged ← a.isManagedNamespace p.1.ns
  if !isManaged && p.1.schedulerName != a.schedulerName then return p
  let unbound := if create then { p.1 with nodeName := "" } else p.1
  let pod := if unbound.schedulerName = "default-scheduler" then
    { unbound with schedulerName := a.schedulerName } else unbound
  if pod.schedulerName = a.schedulerName then
    return (addGate create pod, mergeTolerations p.2 (newTolerationNodeBridged a.schedulerName))
  return (pod, p.2)

def parseTimeLimit : String → Except String Int := Slurm.TimeLimit.parse a.durations a.wrap

def validateTimeLimitAnnotation (m : Manifest) : Except String Unit :=
  match m.annotation? annotationTimeLimit with
  | none => .ok ()
  | some value => do
      let _ ← (a.parseTimeLimit value).mapError fun e => "annotation " ++ annotationTimeLimit.quote ++ ": " ++ e

def validateDRAResources (m : Manifest) : Except String Unit :=
  (m.deviceClassNames.dedup.insertionSort (· ≤ ·)).forM fun className => do
    let deviceClass ← (a.classes.deviceClass className).mapError fun e =>
      "get device class " ++ className.quote ++ ": " ++ e.message
    let profile ← a.classes.registry.matchDeviceClass className deviceClass
    require (¬(profile.usesCoreBitmap ∧ m.podRequestsNativeCPU))
      ("can't specify both native \"cpu\" and core-bitmap DeviceClass " ++ className.quote)
    require (¬(profile.usesCoreBitmap ∧ m.standalone ∧ m.exclusive))
      ("DeviceClass " ++ className.quote ++ ": " ++ errExclusiveCPUAllocation)

def validateSupportedWorkloads (m : Manifest) : Except String Unit :=
  let lwsName := m.pod.label lwsSetNameLabelKey
  if lwsName = "" then .ok ()
  else do
    let lws ← (a.leaderWorkerSet m.pod.ns lwsName).mapError fun e => "error getting leaderworkerset: " ++ e.message
    validateLWSPolicies lws

/-- A use of Pods that is going to be withdrawn. -/
structure Legacy where
  used : Pod → Bool
  gate : String
  enabled : Bool
  message : String

def legacies : List Legacy := [
  { used := fun pod => pod.label coschedulingPodGroupLabel != ""
    gate := "Legacyv1alpha1PodGroups"
    enabled := a.legacyPodGroups
    message := "scheduling.x-k8s.io/v1alpha1 PodGroups support is deprecated and will be removed in a future release " ++
      "in slurm-bridge; use Kubernetes native PodGroups with Pod spec.schedulingGroup.podGroupName" },
  { used := fun pod => pod.label lwsSetNameLabelKey != "" && (podGroupName pod).isNone
    gate := "LegacyLWSGangs"
    enabled := a.legacyLWSGangs
    message := "Implicit LeaderWorkerSet gang scheduling is deprecated and will be removed in a future release in " ++
      "slurm-bridge; set LeaderWorkerSet spec.scheduling to use Kubernetes native PodGroups " ++
      "(Pod spec.schedulingGroup.podGroupName)" }]

/-- New uses need their gate.  Pods that use them already can still be updated. -/
def validateDeprecatedWorkloads (old : Option Pod) (pod : Pod) : Except String (List String) :=
  let used := a.legacies.filter (·.used pod)
  let (warned, rejected) := used.partition fun legacy => legacy.enabled || old.any legacy.used
  if rejected.isEmpty then .ok (warned.map Legacy.message)
  else .error ("; ".intercalate (rejected.map fun legacy => legacy.gate ++ "=false: " ++ legacy.message))

def validateManagedCreate (m : Manifest) : Except String (List String) := do
  require (m.pod.label labelExternalJobId = "") "can't create a pod with a slurm external jobid label"
  require (m.pod.annotation annotationExternalJobNode = "") "can't create a pod with a slurm external node annotation"
  require (m.resourceClaims = false) ("can't schedule a pod with a resourceclaim, use the annotation " ++
    annotationGres ++ " to request devices instead")
  require (m.topologySpreadConstraints = 0)
    "spec.topologySpreadConstraints is not supported by the slurm-bridge scheduler"
  require (m.hasRequiredAffinity = false) ("spec.affinity's required fields are not supported by the slurm-bridge " ++
    "scheduler, use a Slurm partition or constraint instead")
  validatePositiveResourceQuantities m
  a.validateDRAResources m
  validateAnnotationConflicts m
  a.validateTimeLimitAnnotation m
  validateConstraintsAnnotation m
  a.validateSupportedWorkloads m
  a.validateDeprecatedWorkloads none m.pod

def validateCreate (m : Manifest) : Except String (List String) := do
  if ← a.manages m then a.validateManagedCreate m else return []

/-- An update is admitted by the parts that it may change.  The request names the subresource. -/
def validateManagedUpdate (request : Except String String) (old new : Manifest) : Except String (List String) := do
  let subResource ← request.mapError ("get admission request from context: " ++ ·)
  require (subResource ≠ "resize") "can't resize a Slurm Bridge-managed pod"
  a.validateDRAResources new
  validateAnnotationConflicts new
  validateConstraintsAnnotation new
  a.validateDeprecatedWorkloads (some old.pod) new.pod

def validateUpdate (request : Except String String) (old new : Manifest) : Except String (List String) := do
  if ← a.manages new then a.validateManagedUpdate request old new else return []

end PodAdmission

section
variable {a : PodAdmission} {create : Bool} {p q : Pod × List Toleration}

/-- A defaulted Pod: the webhook passes it by, or there is nothing left to set. -/
theorem default_cases (defaulted : a.default create p = .ok q) : ∃ isManaged,
    a.isManagedNamespace q.1.ns = .ok isManaged ∧ ((!isManaged && q.1.schedulerName != a.schedulerName) = true ∨
      (create = true → q.1.nodeName = "") ∧
      (q.1.schedulerName ≠ "default-scheduler" ∧ q.1.schedulerName ≠ a.schedulerName ∨
        q.1.schedulerName = a.schedulerName ∧ addGate create q.1 = q.1 ∧
          newTolerationNodeBridged a.schedulerName ∈ q.2)) := by
  unfold PodAdmission.default at defaulted
  obtain ⟨isManaged, read, rest⟩ := bind_eq_ok.1 defaulted
  simp only [pure, Except.pure] at rest
  refine ⟨isManaged, ?_, ?_⟩
  · rw [← read]
    grind [addGate]
  · grind [addGate, podGroupName, mergeTolerations]

theorem default_again (defaulted : a.default create p = .ok q) : a.default create q = .ok q := by
  obtain ⟨isManaged, read, rest⟩ := default_cases defaulted
  simp only [PodAdmission.default, read, bind, Except.bind, pure, Except.pure]
  grind [mergeTolerations, Pod]

-- An update adds no gate, so it does not matter which gates the Pod still has.
theorem default_update (defaulted : a.default create p = .ok q) {pod : Pod} (ns : pod.ns = q.1.ns)
    (scheduler : pod.schedulerName = q.1.schedulerName) : a.default false (pod, q.2) = .ok (pod, q.2) := by
  obtain ⟨isManaged, read, rest⟩ := default_cases defaulted
  simp only [PodAdmission.default, ns, read, bind, Except.bind, pure, Except.pure, addGate]
  grind [mergeTolerations, Pod]

/-- The webhook changes nothing when called again, or for the publication that releases the Pod. -/
theorem default_settles (a : PodAdmission) (create : Bool) (p : Pod × List Toleration) (job : Slurm.Job.ExternalJob) :
    (a.default create p >>= a.default create) = a.default create p ∧
      (a.default create p >>= fun q => a.default false (publishedPod q.1 job, q.2)) =
        (a.default create p).map fun q => (publishedPod q.1 job, q.2) := by
  cases defaulted : a.default create p with
  | error e => exact ⟨rfl, rfl⟩
  | ok q =>
    refine ⟨default_again defaulted, default_update defaulted ?_ ?_⟩ <;>
      rw [publishedPod, Slurm.Metadata.podWithMetadata_eq]

end

section
variable {a : PodAdmission} {m old new : Manifest} {warnings : List String}

theorem validateCreate_ok (managed : a.manages m = .ok true) (admitted : a.validateCreate m = .ok warnings) :
    validateAnnotationConflicts m = .ok () ∧ a.validateTimeLimitAnnotation m = .ok () ∧
      validateConstraintsAnnotation m = .ok () := by
  unfold PodAdmission.validateCreate at admitted
  rw [managed] at admitted
  change a.validateManagedCreate m = _ at admitted
  unfold PodAdmission.validateManagedCreate at admitted
  simp only [bind_eq_ok, require_eq_ok] at admitted
  obtain ⟨-, -, -, -, -, -, -, -, -, -, -, -, -, -, _, conflicts, _, limit, _, constraints, -⟩ := admitted
  exact ⟨conflicts, limit, constraints⟩

theorem validateUpdate_ok {request : Except String String} (managed : a.manages new = .ok true)
    (admitted : a.validateUpdate request old new = .ok warnings) : validateConstraintsAnnotation new = .ok () := by
  unfold PodAdmission.validateUpdate at admitted
  rw [managed] at admitted
  change a.validateManagedUpdate request old new = _ at admitted
  unfold PodAdmission.validateManagedUpdate at admitted
  simp only [bind_eq_ok, require_eq_ok] at admitted
  obtain ⟨-, -, -, -, -, -, -, -, _, constraints, -⟩ := admitted
  exact constraints

theorem composes (valid : validateConstraintsAnnotation m = .ok ()) :
    ∃ text, gresCompatibilityConstraint (m.annotation? annotationConstraints) = .ok text := by
  unfold validateConstraintsAnnotation at valid
  cases found : m.annotation? annotationConstraints with
  | none => exact ⟨_, rfl⟩
  | some constraints =>
    rw [found] at valid
    obtain ⟨text, composed, -⟩ := bind_eq_ok.mp valid
    rw [mapError_eq_ok] at composed
    exact ⟨text, composed⟩

def TimeLimitParses (a : PodAdmission) (m : Manifest) : Prop :=
  ∀ current, ∃ limit, overridden m.pod.annotations annotationTimeLimit a.parseTimeLimit current = .ok limit

theorem timeLimitParses (valid : a.validateTimeLimitAnnotation m = .ok ()) : TimeLimitParses a m := by
  intro current
  unfold PodAdmission.validateTimeLimitAnnotation Manifest.annotation? at valid
  unfold overridden
  cases found : m.pod.annotations.lookup annotationTimeLimit with
  | none => exact ⟨current, rfl⟩
  | some value =>
    rw [found] at valid
    obtain ⟨limit, parsed, -⟩ := bind_eq_ok.mp valid
    rw [mapError_eq_ok] at parsed
    change ∃ limit, (a.parseTimeLimit value).map some = .ok limit
    rw [parsed]
    exact ⟨some limit, rfl⟩

/-- The states of a managed Pod after its creation and admitted updates, the last one first. -/
inductive Run (a : PodAdmission) : List Manifest → Prop
  | create {m : Manifest} {warnings : List String} (managed : a.manages m = .ok true)
      (admitted : a.validateCreate m = .ok warnings) : Run a [m]
  | update {old new : Manifest} {earlier : List Manifest} {request : Except String String} {warnings : List String}
      (run : Run a (old :: earlier)) (managed : a.manages new = .ok true)
      (admitted : a.validateUpdate request old new = .ok warnings) : Run a (new :: old :: earlier)

/-- The update leaves the time limit as it was, or sets one that is read. -/
def LimitKept (a : PodAdmission) (new old : Manifest) : Prop :=
  new.annotation? annotationTimeLimit = old.annotation? annotationTimeLimit ∨ TimeLimitParses a new

private theorem timeLimitParses_kept (parses : TimeLimitParses a old) (kept : LimitKept a new old) :
    TimeLimitParses a new := by
  rcases kept with same | parses
  · intro current
    unfold Manifest.annotation? at same
    unfold overridden
    rw [same]
    exact parses current
  · exact parses

/-- Through any run of admitted changes the constraints compose.  The time limit is read throughout exactly if no
update sets one that is not. -/
theorem admitted_annotations_parse (a : PodAdmission) (states : List Manifest) (run : Run a states) :
    (∀ m ∈ states, ∃ text, gresCompatibilityConstraint (m.annotation? annotationConstraints) = .ok text) ∧
      ((∀ m ∈ states, TimeLimitParses a m) ↔ states.IsChain (LimitKept a)) := by
  induction run with
  | create managed admitted =>
    obtain ⟨-, limit, constraints⟩ := validateCreate_ok managed admitted
    simp only [mem_singleton, forall_eq, isChain_singleton, iff_true]
    exact ⟨composes constraints, timeLimitParses limit⟩
  | @update old new earlier _ _ _ managed admitted ih =>
    refine ⟨forall_mem_cons.mpr ⟨composes (validateUpdate_ok managed admitted), ih.1⟩, ?_⟩
    rw [forall_mem_cons, ih.2, isChain_cons_cons, and_congr_left_iff]
    intro chain
    have before : TimeLimitParses a old := ih.2.mpr chain old mem_cons_self
    exact ⟨.inr, timeLimitParses_kept before⟩

private def plugin : PodAdmission where
  schedulerName := "slurm-bridge"
  managedNamespaces := []
  managedNamespaceSelector := none
  classes := ⟨⟨[⟨"cpu", draDriverCpu, "cores", .coreBitmap⟩], nodup_singleton _, nodup_singleton _, by simp [DeviceProfile.usesIndexedGRES]⟩,
    fun _ => .ok ⟨[], [some "cores"]⟩⟩
  leaderWorkerSet := fun _ _ => .error .notFound
  legacyPodGroups := true
  legacyLWSGangs := true
  durations := ⟨fun _ => .error "", nofun, nofun, nofun⟩
  wrap := id

private def asking (className key text : String) : Manifest where
  pod := { Pod.waiting (.of "ns" (.refl true)) (.of "a" (.refl true)) (.of "1" (.refl true))
      plugin.schedulerName with
    annotations := ((∅ : StringMap).insert annotationExclusive "False ").insert key text }
  needs := ⟨[], [⟨"c", false, ∅, AList.insert (resourceDeviceClassPrefix ++ className) 1 ∅⟩], ∅, ∅, ∅, nodup_singleton _⟩
  resourceClaims := false
  topologySpreadConstraints := 0
  nodeTerms := 0
  podTerms := 0
  antiTerms := 0

/-- A time limit of the creation is read. -/
theorem admitted_limit_parses : TimeLimitParses plugin (asking draDriverCpu annotationTimeLimit "10") :=
  (admitted_annotations_parse _ _ (.create (by decide +kernel)
    (show plugin.validateCreate (asking draDriverCpu annotationTimeLimit "10") = .ok [] by decide +kernel))).2.mpr
      (isChain_singleton _) _ mem_cons_self

/-- An update sets a time limit that translation refuses. -/
theorem admitted_limit_unparsable :
    Run plugin [asking draDriverCpu annotationTimeLimit "soon", asking draDriverCpu annotationTimeLimit "10"] ∧
      ¬ TimeLimitParses plugin (asking draDriverCpu annotationTimeLimit "soon") := by
  have created : plugin.validateCreate (asking draDriverCpu annotationTimeLimit "10") = .ok [] := by decide +kernel
  have updated : plugin.validateUpdate (.ok "") (asking draDriverCpu annotationTimeLimit "10")
      (asking draDriverCpu annotationTimeLimit "soon") = .ok [] := by decide +kernel
  have refused : (overridden (asking draDriverCpu annotationTimeLimit "soon").pod.annotations annotationTimeLimit
      plugin.parseTimeLimit none).isOk = false := by decide +kernel
  refine ⟨.update (.create (by decide +kernel) created) (by decide +kernel) updated, fun parses => ?_⟩
  obtain ⟨limit, read⟩ := parses none
  rw [read] at refused
  cases refused

end

section
variable {a : PodAdmission} {s : Snapshot} {m : Manifest} {api : WorkloadAPI} {ir : SlurmJobIR}

/-- Some DeviceClass that the Pod requests has a profile of the kind. -/
def Requested (a : PodAdmission) (m : Manifest) (kind : DeviceProfile → Bool) : Prop :=
  ∃ c ∈ m.deviceClassNames, ∃ profile, resolveDeviceClass a.classes c = .ok profile ∧ kind profile = true

theorem conflicts_absent (valid : validateAnnotationConflicts m = .ok ()) {c : String} (requested : c ∈ m.deviceClassNames) :
    (c = draDriverCpu → m.annotation? annotationCpuPerTask = none) ∧
      (c ≠ draDriverCpu → m.annotation? annotationGres = none) := by
  obtain ⟨name, listed, cut⟩ := mem_filterMap.mp requested
  have passed := forM_eq_ok.mp valid name listed
  rw [cut] at passed
  simp only [bind_eq_ok, require_eq_ok] at passed
  obtain ⟨-, cpu, gres⟩ := passed
  exact ⟨fun named => Option.not_isSome_iff_eq_none.mp fun set => cpu ⟨set, named⟩,
    fun other => Option.not_isSome_iff_eq_none.mp fun set => gres ⟨set, other⟩⟩

def ownRoot (read : PartialObjectMetadata) : PartialObjectMetadata := { read with typeMeta := podV1 }

/-- Translation sees what was admitted: the needs, the DeviceClasses and the annotations of the Pod. -/
structure Observes (a : PodAdmission) (s : Snapshot) (m : Manifest) : Prop where
  needs : s.needs m.pod = m.needs
  classes : s.devices.classes = a.classes
  annotations : ∀ read, s.cluster.others (.object podV1 m.pod.ns m.pod.name) = .ok read →
    s.annotations (ownRoot read) = m.pod.annotations

def derivedSettings (s : Snapshot) (pod : Pod) (root : PartialObjectMetadata) : Except Err SlurmJobIRJobInfo :=
  s.resources root ⟨⟨⟨"", "", ""⟩, pod.ns, pod.name, "", []⟩, { tasksPerNode := some 1, maxNodes := some 1 }, [pod]⟩

theorem translate_standalone (standalone : m.standalone = true) (translated : s.translate api m.pod = .ok ir) :
    ∃ read derived info, s.cluster.others (.object podV1 m.pod.ns m.pod.name) = .ok read ∧
      derivedSettings s m.pod (ownRoot read) = .ok derived ∧
      s.parse derived (s.annotations (ownRoot read)) = .ok info ∧ ir.components.map (·.jobInfo) = [info] := by
  simp only [Manifest.standalone, Bool.and_eq_true, Option.isNone_iff_eq_none, beq_iff_eq] at standalone
  obtain ⟨⟨unowned, ungrouped⟩, unlabelled⟩ := standalone
  obtain ⟨root, pg, components, infos, found, collected, -, settled, rfl⟩ := translate_ok_iff.mp translated
  obtain ⟨-, group, target, read, grouped, owner, fetched, rfl⟩ := workloadRoot_ok_iff.mp found
  have unnamed : podGroupName m.pod = none := by rw [podGroupName, ungrouped]
  have alone : groupRoot api m.pod = coschedulingRoot m.pod := by
    unfold groupRoot
    rw [unnamed]
  have nobody : getPodGroupCoscheduling m.pod = pure none := by rw [getPodGroupCoscheduling, if_pos unlabelled]
  rw [alone, coschedulingRoot, nobody] at grouped
  cases grouped
  have self : getRootOwnerMetadata m.pod = pure ⟨podV1, m.pod.ns, m.pod.name, "", []⟩ := by
    unfold getRootOwnerMetadata resolveRootOwnerMetadata
    rw [unowned]
    rfl
  rw [rootOrOwner, self] at owner
  cases owner
  cases collected
  obtain ⟨derived, resources, applied⟩ := bind_eq_ok.mp settled
  cases mapM_forall₂ resources with
  | cons first rest =>
    cases rest
    cases mapM_forall₂ applied with
    | cons parsed rest =>
      cases rest
      exact ⟨read, _, _, fetched, first, parsed, rfl⟩

def Authoritative (a : PodAdmission) (m : Manifest) (derived info : SlurmJobIRJobInfo) : Prop :=
  (Requested a m DeviceProfile.usesCoreBitmap → info.cpuPerTask = derived.cpuPerTask) ∧
    (Requested a m DeviceProfile.usesIndexedGRES → info.gres = derived.gres)

/-- Admission tells CPUs from other devices by the name of the DeviceClass.  Where that is not what the class
resolves to, the annotation must be absent or agree. -/
def Consistent (a : PodAdmission) (s : Snapshot) (m : Manifest) (derived : SlurmJobIRJobInfo) : Prop :=
  (Requested a m DeviceProfile.usesCoreBitmap → draDriverCpu ∉ m.deviceClassNames →
    overridden m.pod.annotations annotationCpuPerTask (fun text => (s.parsers.quantity text).map
      fun q => toInt32 (value q)) derived.cpuPerTask = .ok derived.cpuPerTask) ∧
  (Requested a m DeviceProfile.usesIndexedGRES → (∀ c ∈ m.deviceClassNames, c = draDriverCpu) →
    overridden m.pod.annotations annotationGres .ok derived.gres = .ok derived.gres)

/-- DeviceClasses of CPUs, and no others, have the name of the CPU driver. -/
def WellNamed (a : PodAdmission) : Prop :=
  ∀ c profile, resolveDeviceClass a.classes c = .ok profile →
    (profile.usesCoreBitmap = true → c = draDriverCpu) ∧ (profile.usesIndexedGRES = true → c ≠ draDriverCpu)

theorem consistent_of_wellNamed {derived : SlurmJobIRJobInfo} (named : WellNamed a) : Consistent a s m derived := by
  constructor
  · rintro ⟨c, requested, profile, resolved, core⟩ absent
    exact absurd ((named c profile resolved).1 core ▸ requested) absent
  · rintro ⟨c, requested, profile, resolved, indexed⟩ only
    exact absurd (only c requested) ((named c profile resolved).2 indexed)

/-- Annotations leave the device requests of an admitted Pod alone exactly if they agree with them where the name of
a DeviceClass does not say what it resolves to. -/
theorem device_requests_authoritative_iff (a : PodAdmission) (s : Snapshot) (api : WorkloadAPI) (m : Manifest)
    (ir : SlurmJobIR) (warnings : List String) (managed : a.manages m = .ok true)
    (admitted : a.validateCreate m = .ok warnings) (standalone : m.standalone = true) (observes : Observes a s m)
    (translated : s.translate api m.pod = .ok ir) :
    ∃ read derived info, s.cluster.others (.object podV1 m.pod.ns m.pod.name) = .ok read ∧
      derivedSettings s m.pod (ownRoot read) = .ok derived ∧ ir.components.map (·.jobInfo) = [info] ∧
      (Authoritative a m derived info ↔ Consistent a s m derived) ∧ (WellNamed a → Authoritative a m derived info) := by
  obtain ⟨read, derived, info, fetched, resources, parsed, single⟩ := translate_standalone standalone translated
  rw [observes.annotations read fetched] at parsed
  obtain ⟨-, gres, cpu⟩ := parseUserAnnotations_ok (mapError_eq_ok.mp parsed)
  have valid := (validateCreate_ok managed admitted).1
  have exact_iff : Authoritative a m derived info ↔ Consistent a s m derived := by
    refine and_congr (imp_congr_right fun _ => ?_) (imp_congr_right fun _ => ?_)
    · rw [cpu, Except.ok.injEq]
      refine ⟨fun same _ => same, fun agrees => ?_⟩
      by_cases driver : draDriverCpu ∈ m.deviceClassNames
      · have absent := (conflicts_absent valid driver).1 rfl
        rw [overridden, show m.pod.annotations.lookup annotationCpuPerTask = none from absent] at cpu
        exact (Except.ok.inj cpu).symm
      · exact agrees driver
    · rw [gres, Except.ok.injEq]
      refine ⟨fun same _ => same, fun agrees => ?_⟩
      by_cases drivers : ∀ c ∈ m.deviceClassNames, c = draDriverCpu
      · exact agrees drivers
      · push Not at drivers
        obtain ⟨c, requested, other⟩ := drivers
        have absent := (conflicts_absent valid requested).2 other
        rw [overridden, show m.pod.annotations.lookup annotationGres = none from absent] at gres
        exact (Except.ok.inj gres).symm
  exact ⟨read, derived, info, fetched, resources, single, exact_iff, fun named => exact_iff.mpr (consistent_of_wellNamed named)⟩

private def seen (m : Manifest) : Snapshot where
  cluster := ⟨[], nodup_nil, fun
    | .object _ _ _ => (.ok .empty : Except KubeError PartialObjectMetadata)
    | q => q.refuse⟩
  parsers := ⟨fun _ => .ok 7, plugin.parseTimeLimit⟩
  devices := ⟨plugin.classes, fun _ => none, fun _ => ""⟩
  needs := fun _ => m.needs
  preset := fun _ _ => .unset
  annotations := fun _ => m.pod.annotations
  workloadName := fun _ => ""
  workload := fun _ _ => .error .notFound

private theorem observes_seen (m : Manifest) : Observes plugin (seen m) m := ⟨rfl, rfl, fun _ _ => rfl⟩

private def translatedCPUs (m : Manifest) : Except Err (List (Option Int)) :=
  ((seen m).translate none m.pod).map fun ir => ir.components.map (·.jobInfo.cpuPerTask)

/-- The CPUs of a Pod with a partition stay those of its requests. -/
theorem device_requests_kept : ∃ ir, (seen (asking draDriverCpu annotationPartition "p")).translate none
      (asking draDriverCpu annotationPartition "p").pod = .ok ir ∧
    ∃ read derived info, derivedSettings (seen (asking draDriverCpu annotationPartition "p"))
        (asking draDriverCpu annotationPartition "p").pod (ownRoot read) = .ok derived ∧
      ir.components.map (·.jobInfo) = [info] ∧
      Authoritative plugin (asking draDriverCpu annotationPartition "p") derived info := by
  have cpus : translatedCPUs (asking draDriverCpu annotationPartition "p") = .ok [some 1] := by decide +kernel
  obtain ⟨ir, translated, -⟩ := map_eq_ok.mp cpus
  obtain ⟨read, derived, info, -, resources, single, exact, -⟩ := device_requests_authoritative_iff plugin _ none
    (asking draDriverCpu annotationPartition "p") ir [] (by decide +kernel) (by decide +kernel) (by decide +kernel)
    (observes_seen _) translated
  refine ⟨ir, translated, read, derived, info, resources, single, exact.mpr ⟨fun _ absent => ?_, fun _ _ => rfl⟩⟩
  exact absurd (by decide +kernel) absent

/-- A DeviceClass of CPUs under another name does not keep an annotation from replacing its amount. -/
theorem device_requests_overridden :
    plugin.manages (asking "cores" annotationCpuPerTask "7") = .ok true ∧
      plugin.validateCreate (asking "cores" annotationCpuPerTask "7") = .ok [] ∧
      (asking "cores" annotationCpuPerTask "7").standalone = true ∧
      Requested plugin (asking "cores" annotationCpuPerTask "7") DeviceProfile.usesCoreBitmap ∧
      Observes plugin (seen (asking "cores" annotationCpuPerTask "7")) (asking "cores" annotationCpuPerTask "7") ∧
      (derivedSettings (seen (asking "cores" annotationCpuPerTask "7")) (asking "cores" annotationCpuPerTask "7").pod
        (ownRoot .empty)).map (·.cpuPerTask) = .ok (some 1) ∧
      translatedCPUs (asking "cores" annotationCpuPerTask "7") = .ok [some 7] := by
  refine ⟨by decide +kernel, by decide +kernel, by decide +kernel, ⟨"cores", by decide +kernel, ⟨"cpu", draDriverCpu, "cores", .coreBitmap⟩,
    by rfl, rfl⟩, observes_seen _, by decide +kernel, by decide +kernel⟩

end

end SlurmBridge.Admission.Pods
