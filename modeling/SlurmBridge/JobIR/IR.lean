/- source: internal/utils/slurmjobir/slurmjobir.go
   digest: The intermediate representation of one allocation: a workload root and one
     component per Slurm job. -/

import SlurmBridge.Slurm.Ownership

set_option autoImplicit false

namespace SlurmBridge.JobIR.IR

open Kube.Objects Slurm.Ownership

/-- Slurm settings of one component. -/
structure SlurmJobIRJobInfo where
  account : Option String := none
  cpuPerTask : Option Int := none
  constraints : Option String := none
  exclusive : Option Bool := none
  gres : Option String := none
  groupId : Option String := none
  jobName : Option String := none
  licenses : Option String := none
  memPerNode : Option Int := none
  minNodes : Option Int := none
  maxNodes : Option Int := none
  nodes : List String := []
  excNodes : List String := []
  partition : Option String := none
  priority : Option Int := none
  qos : Option String := none
  reservation : Option String := none
  tasksPerNode : Option Int := none
  timeLimit : Option Int := none
  userId : Option String := none
  wckey : Option String := none
  deriving DecidableEq, Repr

structure SlurmJobComponent where
  objectMeta : PartialObjectMetadata
  jobInfo : SlurmJobIRJobInfo
  pods : List Pod
  deriving DecidableEq

structure SlurmJobIR where
  rootPOM : PartialObjectMetadata
  components : List SlurmJobComponent
  deriving DecidableEq

namespace SlurmJobIR

def allPods (ir : SlurmJobIR) : List Pod := ir.components.flatMap SlurmJobComponent.pods

def isHetJob (ir : SlurmJobIR) : Bool := decide (1 < ir.components.length)

def validateFrom (seen : List String) : List SlurmJobComponent → Except String Unit
  | [] => .ok ()
  | component :: rest =>
    if component.pods.isEmpty then
      .error "SlurmJobIR has components with zero pods"
    else
      let keys := component.pods.map Pod.namespacedName
      match keys.find? seen.contains with
      | some key => .error ("pod " ++ key ++ " belongs to multiple SlurmJobIR components")
      | none => validateFrom (seen ++ keys) rest

def validate (ir : SlurmJobIR) : Except String Unit :=
  if ir.components.isEmpty then .error "SlurmJobIR has no components"
  else validateFrom [] ir.components

end SlurmJobIR

def externalJobInfoFor (root : PartialObjectMetadata) (component : SlurmJobComponent) : ExternalJobInfo :=
  let pods := component.pods.map podKey
  match newGroupIdentity root with
  | none => ⟨pods, none, none⟩
  | some group =>
    if group.kind = "CompositePodGroup" then
      ⟨pods, newGroupIdentity component.objectMeta, some group⟩
    else
      ⟨pods, some group, none⟩

theorem parse_externalJobInfoFor (root : PartialObjectMetadata) (component : SlurmJobComponent) :
    parseIntoExternalJobInfo (externalJobInfoFor root component).toComment =
      some (externalJobInfoFor root component) := by
  have pods : (externalJobInfoFor root component).pods = component.pods.map podKey := by
    unfold externalJobInfoFor
    split
    · rfl
    · split <;> rfl
  apply unmarshalJSON_marshalJSON
  · intro key member
    obtain ⟨pod, -, rfl⟩ := List.mem_map.mp (pods ▸ member)
    exact podKey_ne_empty pod
  · intro key member
    obtain ⟨pod, -, rfl⟩ := List.mem_map.mp (pods ▸ member)
    exact podKey_noComma pod

end SlurmBridge.JobIR.IR
