/- source: internal/utils/slurmjobir/annotations.go, podgroup.go, slurmjobir.go, common.go,
     internal/wellknown/annotations.go
   digest: The settings stage of translation: resources of the Pods, then the annotations of the root, or
     of the controller, the PodGroup and the Workload of each component. -/

import SlurmBridge.JobIR.CompositeTree
import SlurmBridge.JobIR.Resources
import SlurmBridge.Node.Configuration

set_option autoImplicit false

namespace SlurmBridge.JobIR.Annotations

open Foundation.Checked Foundation.Text Kube.Objects Kube.PodResources Kube.Reads Kube.State JobIR.IR
open JobIR.Translate
open JobIR.Resources JobIR.CompositeTree

def slurmJobPrefix : String := "slurmjob.slinky.slurm.net/"
def annotationAccount : String := slurmJobPrefix ++ "account"
def annotationConstraints : String := slurmJobPrefix ++ "constraints"
def annotationCpuPerTask : String := slurmJobPrefix ++ "cpu-per-task"
def annotationExclusive : String := slurmJobPrefix ++ "exclusive"
def annotationGres : String := slurmJobPrefix ++ "gres"
def annotationGroupId : String := slurmJobPrefix ++ "group-id"
def annotationJobName : String := slurmJobPrefix ++ "job-name"
def annotationLicenses : String := slurmJobPrefix ++ "licenses"
def annotationMaxNodes : String := slurmJobPrefix ++ "max-nodes"
def annotationMemPerNode : String := slurmJobPrefix ++ "mem-per-node"
def annotationMinNodes : String := slurmJobPrefix ++ "min-nodes"
def annotationPartition : String := slurmJobPrefix ++ "partition"
def annotationPriority : String := slurmJobPrefix ++ "priority"
def annotationQOS : String := slurmJobPrefix ++ "qos"
def annotationReservation : String := slurmJobPrefix ++ "reservation"
def annotationTimeLimit : String := slurmJobPrefix ++ "timelimit"
def annotationUserId : String := slurmJobPrefix ++ "user-id"
def annotationWckey : String := slurmJobPrefix ++ "wckey"

/-- How the texts of amounts and of time limits are read. -/
structure Parsers where
  quantity : String → Except String ℚ
  /-- Minutes. -/
  timeLimit : String → Except String Int

def convStrTo32 (input : String) : Except String Int :=
  match parseInt32 input with
  | some n => .ok n
  | none => .error ("strconv.ParseInt: parsing " ++ input.quote)

/-- Any text other than false asks for whole nodes. -/
def parseExclusive (text : String) : Bool := Node.Configuration.trimSpace text.toLower != "false"

def overridden {α : Type} (anno : StringMap) (key : String) (read : String → Except String α)
    (current : Option α) : Except String (Option α) :=
  match anno.lookup key with
  | none => .ok current
  | some text => (read text).map some

/-- Each annotation replaces the setting it names. -/
def parseUserAnnotations (parsers : Parsers) (info : SlurmJobIRJobInfo) (anno : StringMap) :
    Except String SlurmJobIRJobInfo := do
  return { info with
    account := ← overridden anno annotationAccount .ok info.account
    constraints := ← overridden anno annotationConstraints .ok info.constraints
    gres := ← overridden anno annotationGres .ok info.gres
    groupId := ← overridden anno annotationGroupId .ok info.groupId
    cpuPerTask := ← overridden anno annotationCpuPerTask
      (fun text => (parsers.quantity text).map fun q => toInt32 (value q)) info.cpuPerTask
    exclusive := ← overridden anno annotationExclusive (fun text => .ok (parseExclusive text)) info.exclusive
    jobName := ← overridden anno annotationJobName .ok info.jobName
    licenses := ← overridden anno annotationLicenses .ok info.licenses
    maxNodes := ← overridden anno annotationMaxNodes convStrTo32 info.maxNodes
    memPerNode := ← overridden anno annotationMemPerNode
      (fun text => (parsers.quantity text).map getMemoryFromQuantity) info.memPerNode
    minNodes := ← overridden anno annotationMinNodes convStrTo32 info.minNodes
    partition := ← overridden anno annotationPartition .ok info.partition
    priority := ← overridden anno annotationPriority convStrTo32 info.priority
    qos := ← overridden anno annotationQOS .ok info.qos
    reservation := ← overridden anno annotationReservation .ok info.reservation
    timeLimit := ← overridden anno annotationTimeLimit parsers.timeLimit info.timeLimit
    userId := ← overridden anno annotationUserId .ok info.userId
    wckey := ← overridden anno annotationWckey .ok info.wckey }

theorem parseUserAnnotations_ok {parsers : Parsers} {info info' : SlurmJobIRJobInfo} {anno : StringMap}
    (parsed : parseUserAnnotations parsers info anno = .ok info') :
    overridden anno annotationTimeLimit parsers.timeLimit info.timeLimit = .ok info'.timeLimit ∧
    overridden anno annotationGres .ok info.gres = .ok info'.gres ∧
    overridden anno annotationCpuPerTask
      (fun text => (parsers.quantity text).map fun q => toInt32 (value q)) info.cpuPerTask = .ok info'.cpuPerTask := by
  simp only [parseUserAnnotations, bind_eq_ok, pure_eq_ok] at parsed
  obtain ⟨_, _, _, _, _, gres, _, _, _, cpu, _, _, _, _, _, _, _, _, _, _, _, _, _, _, _, _, _, _, _, _,
    _, time, _, _, _, _, rfl⟩ := parsed
  exact ⟨time, gres, cpu⟩

/-- A state of the cluster, with what only the settings depend on. -/
structure Snapshot where
  cluster : Cluster
  parsers : Parsers
  devices : DeviceReads
  needs : Pod → PodNeeds
  /-- What the specification of the workload with this root says about a component's resources. -/
  preset : PartialObjectMetadata → PartialObjectMetadata → Preset
  /-- The annotations that are read with an object. -/
  annotations : PartialObjectMetadata → StringMap
  /-- The Workload that a PodGroup refers to; empty if there is none. -/
  workloadName : PodGroup → String
  workload : String → String → Except KubeError StringMap

namespace Snapshot

variable (s : Snapshot)

def resources (root : PartialObjectMetadata) (component : SlurmJobComponent) : Except Err SlurmJobIRJobInfo :=
  let members := component.pods.map fun pod => (⟨pod.name, s.needs pod⟩ : Member)
  let preset := (s.preset root component.objectMeta).info
  let info := { component.jobInfo with
    cpuPerTask := preset.cpuPerTask
    memPerNode := preset.memPerNode }
  (parseDeviceResources s.devices (parsePodsCpuAndMemory info members) members).mapError .text

def parse (info : SlurmJobIRJobInfo) (anno : StringMap) : Except Err SlurmJobIRJobInfo :=
  (parseUserAnnotations s.parsers info anno).mapError .text

/-- Jobs and JobSets are read for their annotations, which owner references do not carry. -/
def controllerAnnotations (controller : PartialObjectMetadata) (known : StringMap) : StringMap :=
  if controller.typeMeta.kind = "Job" then
    match s.cluster.answer (.job controller.ns controller.name) with
    | .ok job => s.annotations job
    | .error _ => known
  else if controller.typeMeta = jobSetV1Alpha2 then
    match s.cluster.answer (.jobSet controller.ns controller.name) with
    | .ok jobSet => s.annotations jobSet
    | .error _ => known
  else
    known

/-- The annotations of the controller, then of the PodGroup, then of its Workload.  A Pod without a
PodGroup has an empty one. -/
def parsePodGroupSlurmAnnotations (info : SlurmJobIRJobInfo) (pg : Option PodGroup)
    (controller : PartialObjectMetadata) (known : StringMap) : Except Err SlurmJobIRJobInfo := do
  let info ← s.parse info (s.controllerAnnotations controller known)
  match pg with
  | none => return info
  | some pg => do
      let info ← s.parse info (s.annotations pg.objectMeta)
      if s.workloadName pg = "" then
        return info
      else
        match s.workload pg.objectMeta.ns (s.workloadName pg) with
        | .error .notFound => return info
        | .error e => throw (.kube e)
        | .ok anno => s.parse info anno

def componentPodGroup (pod : Pod) : Except Err (Option PodGroup) :=
  match podGroupName pod with
  | none => return none
  | some name => do
      let group ← (s.cluster.answer (.podGroup pod.ns name)).mapError .kube
      return some group

/-- The annotations of one component, found from its first Pod.  The controller is that of the Pod, or
the root of the workload. -/
def annotate (root : PartialObjectMetadata) (ownController : Bool) (info : SlurmJobIRJobInfo) :
    List Pod → Except Err SlurmJobIRJobInfo
  | [] => return info
  | first :: _ => do
      let (controller, known) ←
        if ownController then do
          let controller ← readIn s.cluster.answer (getRootOwnerMetadata first)
          pure (controller, (∅ : StringMap))
        else
          pure (root, s.annotations root)
      let componentPg ← s.componentPodGroup first
      s.parsePodGroupSlurmAnnotations info componentPg controller known

def looksUpController (pg : PodGroup) (components : Nat) : Bool :=
  pg.gangMinCount.isSome || decide (1 < components)

/-- The root's annotations, or those of each component if the requesting Pod has a PodGroup. -/
def applySlurmAnnotations (pg : Option PodGroup) (root : PartialObjectMetadata)
    (components : List (SlurmJobIRJobInfo × List Pod)) : Except Err (List SlurmJobIRJobInfo) :=
  match pg with
  | none => components.mapM fun c => s.parse c.1 (s.annotations root)
  | some pg => components.mapM fun c =>
    s.annotate root (looksUpController pg components.length) c.1 c.2

def settings (pg : Option PodGroup) (ir : SlurmJobIR) : Except Err (List SlurmJobIRJobInfo) := do
  let infos ← ir.components.mapM (s.resources ir.rootPOM)
  s.applySlurmAnnotations pg ir.rootPOM (infos.zip (ir.components.map SlurmJobComponent.pods))

/-- The cluster with the settings as the stage computes them. -/
def whole : Cluster :=
  { s.cluster with
    others := fun
      | .settings pg ir => s.settings pg ir
      | q => s.cluster.others q }

def translate (api : WorkloadAPI) (pod : Pod) : Except Err SlurmJobIR :=
  readIn s.whole.answer (translateToSlurmJobIR api pod)

end Snapshot

end SlurmBridge.JobIR.Annotations
