/- source: internal/scheduler/plugins/slurmbridge/kube_node_index.go, internal/controller/node/utils/utils.go,
     index.go
   digest: The Kubernetes nodes of an allocation's Slurm nodes, by label index and by exact name.
     They are as many as the Slurm nodes unless a node is allocated under both of its names. -/

import Mathlib.Data.Finset.Card
import SlurmBridge.Node.Configuration

set_option autoImplicit false

namespace SlurmBridge.Scheduler.KubeNodeIndex

open Foundation.Checked Node.Configuration Function List

/-- The store of the node informer.  It keeps each node under its name. -/
structure NodeStore where
  nodes : List KubeNode
  distinct : (nodes.map KubeNode.name).Nodup
  named : ∀ node ∈ nodes, node.name ≠ ""

inductive NodeError
  | cancelled (text : String)
  | notSynced
  | multiple (name : String)
  | noKubeNodeMatch (name : String)
  | list (text : String)
  | notReflected
  deriving DecidableEq

def NodeError.text : NodeError → String
  | .cancelled text | .list text => text
  | .notSynced => "kubernetes node informer is not synced"
  | .multiple name => "slurm node " ++ name.quote ++ " maps to multiple Kubernetes nodes"
  | .noKubeNodeMatch name => "slurm node matches no Kube nodes: " ++ name
  | .notReflected =>
    "allocated nodes exist in Kubernetes but are not yet reflected in the node informer cache"

namespace NodeStore

def bySlurmName (store : NodeStore) (name : String) : List KubeNode :=
  store.nodes.filter fun node => getSlurmNodeName node == name

def exists? (store : NodeStore) (name : String) : Bool := store.nodes.any fun node => node.name == name

def resolve (store : NodeStore) (name : String) : Except NodeError String :=
  match store.bySlurmName name with
  | [] => if store.exists? name then .ok name else .error (.noKubeNodeMatch name)
  | [node] => .ok node.name
  | _ => .error (.multiple name)

/-- `cancelled` is the error of the context. -/
def lookup (store : NodeStore) (cancelled : Option String) (synced : Bool) (slurmNodes : List String) :
    Except NodeError (Finset String) :=
  match cancelled with
  | some text => .error (.cancelled text)
  | none =>
    if !synced then
      .error .notSynced
    else
      slurmNodes.foldlM (fun names name => do return insert (← store.resolve name) names) ∅

end NodeStore

/-- Map Slurm nodes by the informer.  What the informer does not know, a live list of the nodes
decides. -/
def slurmToKubeNodes (store : NodeStore) (cancelled : Option String) (synced : Bool)
    (live : Except String (List KubeNode)) (slurmNodes : List String) : Except NodeError (Finset String) :=
  match store.lookup cancelled synced slurmNodes with
  | .error (.noKubeNodeMatch _) =>
    match live with
    | .error text => .error (.list text)
    | .ok nodes =>
      match slurmNodes.find? fun name =>
          !nodes.any fun node => getSlurmNodeName node == name || node.name == name with
      | some name => .error (.noKubeNodeMatch name)
      | none => .error .notReflected
  | result => result

section
variable {store : NodeStore} {name found : String}

/-- A Slurm node is represented by the node whose Slurm name it is, or else by the node of that
name. -/
inductive Represents (store : NodeStore) (name : String) : String → Prop
  | bySlurmName {node : KubeNode} (inside : node ∈ store.nodes) (slurm : getSlurmNodeName node = name) :
      Represents store name node.name
  | byName {node : KubeNode} (inside : node ∈ store.nodes) (same : node.name = name)
      (none : ∀ other ∈ store.nodes, getSlurmNodeName other ≠ name) : Represents store name name

variable {node : KubeNode}

theorem mem_bySlurmName :
    node ∈ store.bySlurmName name ↔ node ∈ store.nodes ∧ getSlurmNodeName node = name := by
  simp [NodeStore.bySlurmName]

theorem resolve_represents (resolved : store.resolve name = .ok found) : Represents store name found := by
  unfold NodeStore.resolve at resolved
  split at resolved
  · rename_i none
    split at resolved
    · rename_i present
      obtain ⟨node, inside, same⟩ := any_eq_true.mp present
      obtain rfl := Except.ok.inj resolved
      refine .byName inside (beq_iff_eq.mp same) fun other inside slurm => ?_
      have listed := mem_bySlurmName.mpr ⟨inside, slurm⟩
      simp [none] at listed
    · cases resolved
  · rename_i node one
    obtain rfl := Except.ok.inj resolved
    obtain ⟨inside, slurm⟩ := mem_bySlurmName.mp (one ▸ mem_singleton_self node)
    exact .bySlurmName inside slurm
  · cases resolved

theorem resolve_unique (resolved : store.resolve name = .ok found) (inside : node ∈ store.nodes)
    (slurm : getSlurmNodeName node = name) : found = node.name := by
  have listed := mem_bySlurmName.mpr ⟨inside, slurm⟩
  unfold NodeStore.resolve at resolved
  split at resolved
  · rename_i none
    simp [none] at listed
  · rename_i only one
    rw [one, mem_singleton] at listed
    rw [listed]
    exact (Except.ok.inj resolved).symm
  · cases resolved

end

section
variable {store : NodeStore} {cancelled : Option String} {synced : Bool} {live : Except String (List KubeNode)}
  {slurmNodes : List String} {nodes : Finset String}

def Mapped (store : NodeStore) (slurmNodes : List String) (nodes : Finset String) : Prop :=
  ∃ represent : String → String, (∀ name ∈ slurmNodes, store.resolve name = .ok (represent name)) ∧
    nodes = slurmNodes.toFinset.image represent

theorem slurmToKubeNodes_mapped
    (mapped : slurmToKubeNodes store cancelled synced live slurmNodes = .ok nodes) :
    Mapped store slurmNodes nodes := by
  have looked : store.lookup cancelled synced slurmNodes = .ok nodes := by
    unfold slurmToKubeNodes at mapped
    split at mapped
    · split at mapped
      · cases mapped
      · split at mapped <;> cases mapped
    · exact mapped
  unfold NodeStore.lookup at looked
  split at looked
  · cases looked
  split at looked
  · cases looked
  -- The represented names grow with the part of the list already visited.
  refine foldlM_ok (Mapped store) ?_ ⟨id, nofun, rfl⟩ looked
  rintro visited name _ names ⟨represent, each, rfl⟩ step
  obtain ⟨found, resolved, same⟩ := bind_eq_ok.mp step
  rw [pure_eq_ok] at same
  have kept : ∀ other ∈ visited, update represent name found other = represent other := by
    intro other inside
    by_cases again : other = name
    · subst again
      rw [update_self]
      exact Except.ok.inj (resolved.symm.trans (each other inside))
    · exact update_of_ne again _ _
  refine ⟨update represent name found, ?_, ?_⟩
  · intro other inside
    rcases mem_append.mp inside with inside | last
    · rw [kept other inside]
      exact each other inside
    · obtain rfl := mem_singleton.mp last
      rwa [update_self]
  · rw [← same]
    ext node
    simp only [Finset.mem_insert, Finset.mem_image, mem_toFinset, mem_append, mem_singleton]
    constructor
    · rintro (rfl | ⟨other, inside, rfl⟩)
      · exact ⟨name, .inr rfl, update_self ..⟩
      · exact ⟨other, .inl inside, kept other inside⟩
    · rintro ⟨other, inside | rfl, rfl⟩
      · exact .inr ⟨other, inside, (kept other inside).symm⟩
      · exact .inl (update_self ..)

/-- No node is allocated under its Slurm name and under its Kubernetes name, unless the latter is
the Slurm name of a node. -/
def SingleNames (store : NodeStore) (slurmNodes : List String) : Prop :=
  ∀ node ∈ store.nodes, getSlurmNodeName node ∈ slurmNodes → node.name ∈ slurmNodes →
    ∃ other ∈ store.nodes, getSlurmNodeName other = node.name

instance (store : NodeStore) (slurmNodes : List String) : Decidable (SingleNames store slurmNodes) :=
  inferInstanceAs (Decidable (∀ node ∈ store.nodes, getSlurmNodeName node ∈ slurmNodes → node.name ∈ slurmNodes →
    ∃ other ∈ store.nodes, getSlurmNodeName other = node.name))

theorem represents_both {name other found : String} (first : Represents store name found)
    (second : Represents store other found) (differ : name ≠ other) :
    ∃ node ∈ store.nodes, (∀ n ∈ store.nodes, getSlurmNodeName n ≠ node.name) ∧
      ((getSlurmNodeName node = name ∧ node.name = other) ∨ (getSlurmNodeName node = other ∧ node.name = name)) := by
  generalize same : found = same at second
  cases first with
  | @bySlurmName node inside slurm =>
    cases second with
    | @bySlurmName node' inside' slurm' =>
      have one : node = node' := inj_on_of_nodup_map store.distinct inside inside' same
      exact absurd (slurm.symm.trans (one ▸ slurm')) differ
    | byName _ _ none => exact ⟨node, inside, same ▸ none, .inl ⟨slurm, same⟩⟩
  | byName _ _ none =>
    cases second with
    | @bySlurmName node inside slurm => exact ⟨node, inside, same ▸ none, .inr ⟨slurm, same.symm⟩⟩
    | byName => exact absurd same differ

theorem Mapped.card_iff (mapped : Mapped store slurmNodes nodes) :
    nodes.card = slurmNodes.toFinset.card ↔ SingleNames store slurmNodes := by
  obtain ⟨represent, each, rfl⟩ := mapped
  rw [Finset.card_image_iff]
  constructor
  · intro injective node inside slurm own
    by_contra none
    push Not at none
    -- Without an alias, the node's name falls back to the node itself.
    have first : represent (getSlurmNodeName node) = node.name :=
      resolve_unique (each _ slurm) inside rfl
    have second : represent node.name = node.name := by
      generalize found : represent node.name = found
      cases found ▸ resolve_represents (each _ own) with
      | bySlurmName inside slurm => exact absurd slurm (none _ inside)
      | byName => rfl
    exact none node inside (injective (by simpa using slurm) (by simpa using own) (first.trans second.symm))
  · intro single name inside other inside' same
    rw [coe_toFinset, Set.mem_ofPred_eq] at inside inside'
    by_contra differ
    have first := resolve_represents (each name inside)
    have second := same ▸ resolve_represents (each other inside')
    obtain ⟨node, stored, none, ⟨rfl, rfl⟩ | ⟨rfl, rfl⟩⟩ := represents_both first second differ
    · obtain ⟨alternative, stored', slurm⟩ := single node stored inside inside'
      exact none alternative stored' slurm
    · obtain ⟨alternative, stored', slurm⟩ := single node stored inside' inside
      exact none alternative stored' slurm

/-- Every allocated Slurm node has one Kubernetes node, the one whose Slurm name it is if there is
one.  These are as many as the Slurm nodes unless a node is allocated under both of its names. -/
theorem allocated_nodes_distinct
    (mapped : slurmToKubeNodes store cancelled synced live slurmNodes = .ok nodes) :
    (nodes.card = slurmNodes.toFinset.card ↔ SingleNames store slurmNodes) ∧
      ∃ represent : String → String, nodes = slurmNodes.toFinset.image represent ∧
        ∀ node ∈ store.nodes, getSlurmNodeName node ∈ slurmNodes → represent (getSlurmNodeName node) = node.name := by
  have image := slurmToKubeNodes_mapped mapped
  refine ⟨image.card_iff, ?_⟩
  obtain ⟨represent, each, same⟩ := image
  exact ⟨represent, same, fun node inside slurm => resolve_unique (each _ slurm) inside rfl⟩

def aliasedStore : NodeStore where
  nodes := [{ plainNode with name := "worker-a", labels := Finmap.singleton labelSlurmNodeName "cn1" },
    { plainNode with name := "worker-b" }]
  distinct := by decide
  named := by decide

private theorem aliased_mapped :
    slurmToKubeNodes aliasedStore none true (.ok []) ["cn1", "worker-b", "cn1"] = .ok {"worker-b", "worker-a"} := rfl

theorem allocated_nodes_distinct_aliased :
    slurmToKubeNodes aliasedStore none true (.ok []) ["cn1", "worker-b", "cn1"] = .ok {"worker-b", "worker-a"} ∧
      ({"worker-b", "worker-a"} : Finset String).card = ["cn1", "worker-b", "cn1"].toFinset.card :=
  ⟨aliased_mapped, (allocated_nodes_distinct aliased_mapped).1.mpr (by decide)⟩

/-- Two allocated Slurm nodes become one Kubernetes node. -/
theorem allocated_nodes_merged :
    slurmToKubeNodes aliasedStore none true (.ok []) ["cn1", "worker-a"] = .ok {"worker-a"} ∧
      ["cn1", "worker-a"].toFinset.card = 2 := by
  refine ⟨rfl, by decide⟩

end

end SlurmBridge.Scheduler.KubeNodeIndex
