/- source: k8s.io/component-helpers/resource as used by internal/utils/slurmjobir/slurmjobir.go
   digest: What the containers of a Pod request and are limited to, and the amounts of the whole
     Pod that Kubernetes derives from them. -/

import Mathlib.Data.Rat.Floor
import SlurmBridge.Foundation.Merging
import SlurmBridge.Foundation.Text

set_option autoImplicit false

namespace SlurmBridge.Kube.PodResources

open Foundation.Merging Foundation.Text List

abbrev ResourceList := AList (fun _ : String => ℚ)

def resourceCPU : String := "cpu"
def resourceMemory : String := "memory"
def resourceHugePagesPrefix : String := "hugepages-"

namespace ResourceList

def amount (list : ResourceList) (name : String) : ℚ := (list.lookup name).getD 0

def cpu (list : ResourceList) : ℚ := amount list resourceCPU

def memory (list : ResourceList) : ℚ := amount list resourceMemory

end ResourceList

def toInt64 (n : Int) : Int := n.bmod (2 ^ 64)

def toInt32 (n : Int) : Int := n.bmod (2 ^ 32)

/-- The value of an amount, rounded away from zero. -/
def value (q : ℚ) : Int := toInt64 (if 0 ≤ q then ⌈q⌉ else ⌊q⌋)

/-- A container, with whether it is an init container that keeps running. -/
structure Container where
  name : String
  restartable : Bool
  requests : ResourceList
  limits : ResourceList

/-- The parts of a Pod's specification that say what it needs. -/
structure PodNeeds where
  initContainers : List Container
  containers : List Container
  overhead : ResourceList
  requests : ResourceList
  limits : ResourceList
  /-- The API server accepts no two containers of one name. -/
  distinct : ((initContainers ++ containers).map Container.name).Nodup

def addResourceList (list new : ResourceList) : ResourceList := mergeWith (· + ·) list new

def maxResourceList (list new : ResourceList) : ResourceList := mergeWith max list new

/-- The running sums while init containers are visited: of the containers that run together, of
the restartable init containers, and the largest need of an init container. -/
structure Aggregate where
  total : ResourceList
  restartable : ResourceList
  init : ResourceList

/-- An init container runs beside the restartable ones before it. -/
def Aggregate.addInit (sums : Aggregate) (restartable : Bool) (needs : ResourceList) : Aggregate :=
  if restartable then
    let running := addResourceList sums.restartable needs
    ⟨addResourceList sums.total needs, running, maxResourceList sums.init running⟩
  else
    { sums with
      init := maxResourceList sums.init (addResourceList (addResourceList ∅ needs) sums.restartable) }

/-- The needs of all containers; `needs` are their requests or their limits. -/
def aggregate (needs : Container → ResourceList) (pod : PodNeeds) : ResourceList :=
  let total := pod.containers.foldl (fun sum c => addResourceList sum (needs c)) ∅
  let sums := pod.initContainers.foldl (fun (sums : Aggregate) c => sums.addInit c.restartable (needs c))
    ⟨total, ∅, ∅⟩
  maxResourceList sums.total sums.init

def isSupportedPodLevelResource (name : String) : Bool :=
  name == resourceCPU || name == resourceMemory || (after? resourceHugePagesPrefix name).isSome

/-- Amounts of the Pod as a whole replace those of its containers. -/
def overridePodLevel (list podLevel : ResourceList) : ResourceList :=
  podLevel.entries.foldl (fun acc e =>
    if isSupportedPodLevelResource e.1 then acc.insert e.1 e.2 else acc) list

def podRequests (pod : PodNeeds) : ResourceList :=
  addResourceList (overridePodLevel (aggregate Container.requests pod) pod.requests) pod.overhead

/-- Overhead only adds to limits that are there. -/
def addOverhead (list overhead : ResourceList) : ResourceList :=
  overhead.entries.foldl (fun acc e =>
    match acc.lookup e.1 with
    | some limit => if limit = 0 then acc else acc.insert e.1 (limit + e.2)
    | none => acc) list

def podLimits (pod : PodNeeds) : ResourceList :=
  addOverhead (overridePodLevel (aggregate Container.limits pod) pod.limits) pod.overhead

section
variable {needs : Container → ResourceList} {pod : PodNeeds} {name : String} {q : ℚ}

@[simp] theorem lookup_addResourceList (list new : ResourceList) (name : String) :
    (addResourceList list new).lookup name = Option.merge (· + ·) (list.lookup name) (new.lookup name) :=
  lookup_mergeWith _ _ _ _

@[simp] theorem lookup_maxResourceList (list new : ResourceList) (name : String) :
    (maxResourceList list new).lookup name = Option.merge max (list.lookup name) (new.lookup name) :=
  lookup_mergeWith _ _ _ _

variable {cs : List Container}

private theorem lookup_foldl_add (silent : ∀ c ∈ cs, (needs c).lookup name = none) (sum : ResourceList) :
    (cs.foldl (fun sum c => addResourceList sum (needs c)) sum).lookup name = sum.lookup name := by
  induction cs generalizing sum with
  | nil => rfl
  | cons c cs ih =>
    obtain ⟨first, rest⟩ := forall_mem_cons.mp silent
    rw [foldl_cons, ih rest, lookup_addResourceList, first, Option.merge_none_right]

private theorem lookup_addInit (name : String) (sums : Aggregate) (restartable : Bool) (list : ResourceList) :
    (sums.addInit restartable list).total.lookup name =
        (if restartable then Option.merge (· + ·) (sums.total.lookup name) (list.lookup name)
          else sums.total.lookup name) ∧
      (sums.addInit restartable list).restartable.lookup name =
        (if restartable then Option.merge (· + ·) (sums.restartable.lookup name) (list.lookup name)
          else sums.restartable.lookup name) ∧
      (sums.addInit restartable list).init.lookup name =
        Option.merge max (sums.init.lookup name) (if restartable then
          Option.merge (· + ·) (sums.restartable.lookup name) (list.lookup name)
          else Option.merge (· + ·) (list.lookup name) (sums.restartable.lookup name)) := by
  cases restartable <;> simp [Aggregate.addInit]

/-- The sums for a resource that one init container names, after that container: of the containers that
run together, of the restartable ones, and of the neediest init container. -/
private def SoleInit (name : String) (q : ℚ) (sums : Aggregate) : Prop :=
  sums.init.lookup name = some q ∧ ((sums.total.lookup name = some q ∧ sums.restartable.lookup name = some q) ∨
      (sums.total.lookup name = none ∧ sums.restartable.lookup name = none))

private theorem sole_total {sums : Aggregate} (sole : SoleInit name q sums) :
    (maxResourceList sums.total sums.init).lookup name = some q := by
  obtain ⟨neediest, ⟨total, -⟩ | ⟨total, -⟩⟩ := sole <;> simp [total, neediest, Option.merge]

private theorem foldl_addInit (holds : Aggregate → Prop)
    (keeps : ∀ sums restartable list, list.lookup name = none → holds sums → holds (sums.addInit restartable list))
    (silent : ∀ c ∈ cs, (needs c).lookup name = none) (sums : Aggregate) (start : holds sums) :
    holds (cs.foldl (fun (sums : Aggregate) c => sums.addInit c.restartable (needs c)) sums) := by
  induction cs generalizing sums with
  | nil => exact start
  | cons c cs ih =>
    obtain ⟨first, rest⟩ := forall_mem_cons.mp silent
    exact ih rest _ (keeps sums _ _ first start)

private theorem soleInit_addInit (sums : Aggregate) (restartable : Bool) (list : ResourceList)
    (silent : list.lookup name = none) (sole : SoleInit name q sums) :
    SoleInit name q (sums.addInit restartable list) := by
  obtain ⟨total, running, init⟩ := lookup_addInit name sums restartable list
  obtain ⟨neediest, together⟩ := sole
  unfold SoleInit
  rw [total, running, init, silent, neediest]
  rcases together with ⟨first, second⟩ | ⟨first, second⟩ <;> cases restartable <;>
    simp [first, second, Option.merge]

private def Untouched (name : String) (total : Option ℚ) (sums : Aggregate) : Prop :=
  sums.total.lookup name = total ∧ sums.restartable.lookup name = none ∧ sums.init.lookup name = none

private theorem untouched_addInit {total : Option ℚ} (sums : Aggregate) (restartable : Bool) (list : ResourceList)
    (silent : list.lookup name = none) (untouched : Untouched name total sums) :
    Untouched name total (sums.addInit restartable list) := by
  obtain ⟨sum, running, init⟩ := lookup_addInit name sums restartable list
  obtain ⟨first, second, third⟩ := untouched
  unfold Untouched
  rw [sum, running, init, silent, first, second, third]
  cases restartable <;> cases total <;> simp [Option.merge]

theorem lookup_aggregate_none
    (silent : ∀ c ∈ pod.initContainers ++ pod.containers, (needs c).lookup name = none) :
    (aggregate needs pod).lookup name = none := by
  obtain ⟨init, regular⟩ := forall_mem_append.mp silent
  obtain ⟨total, -, neediest⟩ := foldl_addInit (Untouched name none) untouched_addInit init
    ⟨pod.containers.foldl (fun sum c => addResourceList sum (needs c)) ∅, ∅, ∅⟩
    ⟨lookup_foldl_add regular ∅, rfl, rfl⟩
  unfold aggregate
  rw [lookup_maxResourceList, total, neediest]
  rfl

variable {c : Container}

private theorem others_differ {before after : List Container}
    (distinct : ((before ++ c :: after).map Container.name).Nodup) :
    ∀ other ∈ before ++ after, other.name ≠ c.name := by
  rw [map_append, map_cons, nodup_middle, nodup_cons, ← map_append] at distinct
  intro other inside same
  exact distinct.1 (mem_map.mpr ⟨other, inside, same⟩)

theorem lookup_aggregate_sole (inside : c ∈ pod.initContainers ++ pod.containers)
    (own : (needs c).lookup name = some q)
    (others : ∀ c' ∈ pod.initContainers ++ pod.containers, c'.name ≠ c.name → (needs c').lookup name = none) :
    (aggregate needs pod).lookup name = some q := by
  have silent : ∀ before after, pod.initContainers ++ pod.containers = before ++ c :: after →
      ∀ c' ∈ before ++ after, (needs c').lookup name = none := by
    intro before after split c' among
    refine others c' ?_ (others_differ (split ▸ pod.distinct) c' among)
    rw [split]
    exact mem_append.mpr ((mem_append.mp among).imp id (mem_cons_of_mem _))
  unfold aggregate
  dsimp only
  rcases mem_append.mp inside with init | regular
  · obtain ⟨before, after, split⟩ := append_of_mem init
    have quiet := silent before (after ++ pod.containers) (by simp [split])
    obtain ⟨quietBefore, quietRest⟩ := forall_mem_append.mp quiet
    obtain ⟨quietAfter, quietRegular⟩ := forall_mem_append.mp quietRest
    rw [split, foldl_append, foldl_cons]
    -- Nothing is counted before the container, and nothing more after it.
    obtain ⟨total, running, neediest⟩ := foldl_addInit (Untouched name none) untouched_addInit quietBefore
      ⟨pod.containers.foldl (fun sum c => addResourceList sum (needs c)) ∅, ∅, ∅⟩
      ⟨lookup_foldl_add quietRegular ∅, rfl, rfl⟩
    refine sole_total (foldl_addInit (SoleInit name q) soleInit_addInit quietAfter _ ?_)
    obtain ⟨total', running', neediest'⟩ := lookup_addInit name _ c.restartable (needs c)
    unfold SoleInit
    rw [total', running', neediest', total, running, neediest, own]
    cases c.restartable <;> simp
  · obtain ⟨before, after, split⟩ := append_of_mem regular
    have quiet := silent (pod.initContainers ++ before) after (by simp [split])
    obtain ⟨quietRest, quietAfter⟩ := forall_mem_append.mp quiet
    obtain ⟨quietInit, quietBefore⟩ := forall_mem_append.mp quietRest
    have sum : (pod.containers.foldl (fun sum c => addResourceList sum (needs c)) ∅).lookup name = some q := by
      rw [split, foldl_append, foldl_cons, lookup_foldl_add quietAfter, lookup_addResourceList,
        lookup_foldl_add quietBefore, own]
      rfl
    obtain ⟨total, -, neediest⟩ := foldl_addInit (Untouched name (some q)) untouched_addInit quietInit
      ⟨_, ∅, ∅⟩ ⟨sum, rfl, rfl⟩
    rw [lookup_maxResourceList, total, neediest]
    rfl

end

variable {list : ResourceList} {name : String}

theorem lookup_overridePodLevel {podLevel : ResourceList} (other : isSupportedPodLevelResource name = false) :
    (overridePodLevel list podLevel).lookup name = list.lookup name := by
  unfold overridePodLevel
  generalize podLevel.entries = entries
  induction entries generalizing list with
  | nil => rfl
  | cons e entries ih =>
    rw [foldl_cons, ih]
    split
    · rename_i supported
      refine AList.lookup_insert_ne ?_
      rintro rfl
      rw [supported] at other
      cases other
    · rfl

theorem lookup_addOverhead {overhead : ResourceList} (unnamed : overhead.lookup name = none) :
    (addOverhead list overhead).lookup name = list.lookup name := by
  unfold addOverhead
  have absent : ∀ e ∈ overhead.entries, name ≠ e.1 := by
    rintro e inside rfl
    exact AList.lookup_eq_none.mp unnamed (mem_keys_of_mem inside)
  generalize overhead.entries = entries at absent
  clear unnamed
  induction entries generalizing list with
  | nil => rfl
  | cons e entries ih =>
    obtain ⟨first, rest⟩ := forall_mem_cons.mp absent
    rw [foldl_cons, ih rest]
    split
    · split
      · rfl
      · exact AList.lookup_insert_ne first
    · rfl

end SlurmBridge.Kube.PodResources
