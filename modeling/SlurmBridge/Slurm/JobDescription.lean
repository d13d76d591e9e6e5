/- source: internal/scheduler/plugins/slurmbridge/slurmcontrol/slurmcontrol.go
   digest: The description of a job that a request carries, and what an applied request makes of a job. -/

import SlurmBridge.Node.SlurmControl
import SlurmBridge.Slurm.Constraint

set_option autoImplicit false

namespace SlurmBridge.Slurm.JobDescription

open Kube.Objects JobIR.IR Slurm.Ownership
open Foundation.Text (numeral)
open Node.SlurmControl (slurmFeatureGRESCompatible)

/-- A number that may be unset or infinite. -/
structure NoValue where
  set : Option Bool := none
  infinite : Option Bool := none
  number : Option Int := none
  deriving DecidableEq

def NoValue.unset : NoValue := { set := some false }

def NoValue.isSet (value : NoValue) : Bool := value.set == some true

def NoValue.of (n : Int) : NoValue := { set := some true, infinite := some false, number := some n }

/-- The fields of a request; a field that is missing is not sent. -/
@[ext] structure JobDesc where
  adminComment : Option AdminComment := none
  constraints : Option String := none
  cpusPerTask : Option Int := none
  excludedNodes : Option (List String) := none
  hold : Option Bool := none
  licenses : Option String := none
  maximumNodes : Option Int := none
  memoryPerNode : Option NoValue := none
  minimumNodes : Option Int := none
  name : Option String := none
  nodes : Option String := none
  partition : Option String := none
  priority : Option NoValue := none
  qos : Option String := none
  reservation : Option String := none
  tasksPerNode : Option Int := none
  timeLimit : Option NoValue := none
  tresPerNode : Option String := none
  wckey : Option String := none
  deriving DecidableEq

/-- Every job requires the feature of compatible nodes besides its own constraints. -/
def gresCompatibilityConstraint (constraints : Option String) : Except String String :=
  Constraint.compose slurmFeatureGRESCompatible (constraints.getD "")

/-- The fields that support updates of pending jobs. -/
def buildJobDesc (partition : String) (root : PartialObjectMetadata) (component : SlurmJobComponent) :
    Except String JobDesc := do
  let constraints ← gresCompatibilityConstraint component.jobInfo.constraints
  return {
    adminComment := some (externalJobInfoFor root component).toComment
    cpusPerTask := component.jobInfo.cpuPerTask
    constraints := some constraints
    licenses := component.jobInfo.licenses
    maximumNodes := component.jobInfo.maxNodes
    memoryPerNode := some ((component.jobInfo.memPerNode.map NoValue.of).getD .unset)
    minimumNodes := component.jobInfo.minNodes
    name := component.jobInfo.jobName
    nodes := some (numeral component.pods.length)
    qos := component.jobInfo.qos
    reservation := component.jobInfo.reservation
    tasksPerNode := component.jobInfo.tasksPerNode
    timeLimit := some ((component.jobInfo.timeLimit.map NoValue.of).getD .unset)
    tresPerNode := component.jobInfo.gres
    wckey := component.jobInfo.wckey
    priority := component.jobInfo.priority.map NoValue.of
    partition := some (component.jobInfo.partition.getD partition) }

/-- An empty list of excluded nodes is sent as well, to clear earlier ones. -/
def buildJobUpdate (partition : String) (root : PartialObjectMetadata) (component : SlurmJobComponent) :
    Except String JobDesc := do
  let desc ← buildJobDesc partition root component
  return { desc with excludedNodes := some component.jobInfo.excNodes }

theorem buildJobUpdate_ok {partition : String} {root : PartialObjectMetadata} {component : SlurmJobComponent}
    {desc : JobDesc} (built : buildJobUpdate partition root component = .ok desc) :
    desc.hold = none ∧ desc.priority = component.jobInfo.priority.map NoValue.of := by
  unfold buildJobUpdate buildJobDesc at built
  cases composed : gresCompatibilityConstraint component.jobInfo.constraints with
  | error text =>
    rw [composed] at built
    cases built
  | ok constraints =>
    rw [composed] at built
    cases built
    exact ⟨rfl, rfl⟩

section

/- Slurm's side: a job's record in the form of a description. -/

/-- What a request sets.  Hold and priority are one field of Slurm, so that a request about the hold gives the
job another priority, which Slurm chooses. -/
def JobDesc.effect (chosen : Option NoValue) (desc : JobDesc) : JobDesc :=
  { desc with
    hold := none
    memoryPerNode := desc.memoryPerNode.filter NoValue.isSet
    priority := (desc.priority.filter NoValue.isSet).or (desc.hold.bind fun _ => chosen)
    timeLimit := desc.timeLimit.filter NoValue.isSet }

def JobDesc.overwrite (new old : JobDesc) : JobDesc where
  adminComment := new.adminComment.or old.adminComment
  constraints := new.constraints.or old.constraints
  cpusPerTask := new.cpusPerTask.or old.cpusPerTask
  excludedNodes := new.excludedNodes.or old.excludedNodes
  hold := new.hold.or old.hold
  licenses := new.licenses.or old.licenses
  maximumNodes := new.maximumNodes.or old.maximumNodes
  memoryPerNode := new.memoryPerNode.or old.memoryPerNode
  minimumNodes := new.minimumNodes.or old.minimumNodes
  name := new.name.or old.name
  nodes := new.nodes.or old.nodes
  partition := new.partition.or old.partition
  priority := new.priority.or old.priority
  qos := new.qos.or old.qos
  reservation := new.reservation.or old.reservation
  tasksPerNode := new.tasksPerNode.or old.tasksPerNode
  timeLimit := new.timeLimit.or old.timeLimit
  tresPerNode := new.tresPerNode.or old.tresPerNode
  wckey := new.wckey.or old.wckey

def JobDesc.apply (chosen : Option NoValue) (desc job : JobDesc) : JobDesc := (desc.effect chosen).overwrite job

def Settled (desc job : JobDesc) : Prop := desc.hold = none ∧ desc.apply none job = job

variable {desc job : JobDesc}

theorem overwrite_idem (new old : JobDesc) : new.overwrite (new.overwrite old) = new.overwrite old := by
  simp only [JobDesc.overwrite, ← Option.or_assoc, Option.or_self]

theorem effect_of_noHold (noHold : desc.hold = none) (chosen : Option NoValue) :
    desc.effect chosen = desc.effect none := by
  simp [JobDesc.effect, noHold]

theorem apply_of_noHold (noHold : desc.hold = none) (chosen : Option NoValue) (job : JobDesc) :
    desc.apply chosen job = desc.apply none job := by
  unfold JobDesc.apply
  rw [effect_of_noHold noHold]

theorem settled_apply (noHold : desc.hold = none) (chosen : Option NoValue) (job : JobDesc) :
    Settled desc (desc.apply chosen job) := by
  refine ⟨noHold, ?_⟩
  rw [apply_of_noHold noHold chosen]
  exact overwrite_idem _ _

theorem Settled.withPriority (settled : Settled desc job) (none : desc.priority = none) (priority : Option NoValue) :
    Settled desc { job with priority } := by
  obtain ⟨noHold, same⟩ := settled
  refine ⟨noHold, ?_⟩
  rw [JobDesc.ext_iff] at same ⊢
  simp_all [JobDesc.apply, JobDesc.effect, JobDesc.overwrite]

end

end SlurmBridge.Slurm.JobDescription
