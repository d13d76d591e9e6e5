/- source: internal/scheduler/plugins/slurmbridge/slurmbridge.go, internal/utils/slurmjob/metadata.go
   digest: The scheduler records the Kubernetes node of each Pod of an allocation.  The repair of a
     Pod's metadata compares it with the Slurm names of the nodes. -/

import SlurmBridge.Kube.Reads
import SlurmBridge.Scheduler.KubeNodeIndex
import SlurmBridge.Slurm.Metadata

set_option autoImplicit false

namespace SlurmBridge.Scheduler.Placement

open Foundation.Interaction Foundation.Text Kube.Objects Kube.Reads Slurm.Job Slurm.Metadata
open Node.Configuration Scheduler.KubeNodeIndex Finset

/-- What taking any element out of a set gives. -/
inductive Popped (nodes : Finset String)
  | nothing (empty : nodes = ∅)
  | node (name : String) (inside : name ∈ nodes)

inductive Command
  | popAny (nodes : Finset String)
  | patchPod (read updated : Pod)

@[reducible] def Command.Reply : Command → Type
  | .popAny nodes => Popped nodes
  | .patchPod _ _ => Except KubeError Unit

abbrev surroundings : Interface := ⟨Command, Command.Reply⟩

abbrev Ctl := Prog surroundings

def perform (c : Command) : Ctl c.Reply := Prog.call (I := surroundings) c

inductive PlacementError
  | noKubeNode
  | podUpdateFailed
  deriving DecidableEq, Repr

def ofJob (jobid : Int) (p : Pod) : Bool := jobid == parseSlurmJobId (p.label labelExternalJobId)

/-- Nodes that are already recorded on Pods of the job are not given away again. -/
def unassigned (jobid : Int) (pods : List Pod) (kubeNodes : Finset String) : Finset String :=
  pods.foldl (fun nodes p =>
    if !ofJob jobid p then nodes
    else if p.annotation annotationExternalJobNode ≠ "" ∧ p.annotation annotationExternalJobNode ∈ nodes then
      nodes.erase (p.annotation annotationExternalJobNode)
    else nodes) kubeNodes

def withNode (p : Pod) (node : String) : Pod :=
  { p with annotations := p.annotations.insert annotationExternalJobNode node }

/-- Record a node on one Pod.  A Pod that vanished gives its node back. -/
def annotatePod (jobid : Int) (nodes : Finset String) (p : Pod) :
    Ctl (Flow (Finset String) (Except PlacementError Unit)) := do
  if nodes.card = 0 then
    return .stop (.ok ())
  else if !ofJob jobid p then
    return .next nodes
  else if p.annotation annotationExternalJobNode ≠ "" then
    return .next nodes
  else
    match ← perform (.popAny nodes) with
    | .nothing _ => return .stop (.error .noKubeNode)
    | .node name _ =>
      match ← (perform (.patchPod p (withNode p name)) : Ctl (Except KubeError Unit)) with
      | .error .notFound => return .next (insert name (nodes.erase name))
      | .error _ => return .stop (.error .podUpdateFailed)
      | .ok () => return .next (nodes.erase name)

def annotatePodsWithNodes (jobid : Int) (kubeNodes : Finset String) (pods : List Pod) :
    Ctl (Except PlacementError Unit) := do
  match ← loop (annotatePod jobid) pods (unassigned jobid pods kubeNodes) with
  | .next _ => return .ok ()
  | .stop out => return out

theorem unassigned_subset (jobid : Int) (pods : List Pod) (kubeNodes : Finset String) :
    unassigned jobid pods kubeNodes ⊆ kubeNodes := by
  induction pods generalizing kubeNodes with
  | nil => exact Finset.Subset.refl _
  | cons p pods ih =>
    refine (ih _).trans ?_
    dsimp only
    split
    · exact Finset.Subset.refl _
    · split
      · exact erase_subset _ _
      · exact Finset.Subset.refl _

/-- A placement of a Pod of the job that had none, on one of the given nodes. -/
structure Places (jobid : Int) (kubeNodes : Finset String) (pods : List Pod) (read updated : Pod) : Prop where
  member : read ∈ pods
  ofJob : ofJob jobid read = true
  unplaced : read.annotation annotationExternalJobNode = ""
  placed : ∃ node ∈ kubeNodes, updated = withNode read node

private def guard (jobid : Int) (kubeNodes : Finset String) (pods : List Pod) (_ : Trace surroundings) :
    Command → Prop
  | .popAny _ => True
  | .patchPod read updated => Places jobid kubeNodes pods read updated

variable {jobid : Int} {kubeNodes : Finset String} {pods : List Pod} {p : Pod}

private theorem wp_annotatePod {nodes : Finset String} {h : Trace surroundings} (inside : p ∈ pods)
    (within : nodes ⊆ kubeNodes) :
    wp (guard jobid kubeNodes pods) (annotatePod jobid nodes p) h fun _ out =>
      match out with
      | .next nodes' => nodes' ⊆ kubeNodes
      | .stop _ => True := by
  unfold annotatePod
  split
  · trivial
  split
  · exact within
  rename_i own
  split
  · exact within
  rename_i unplaced
  refine ⟨trivial, fun popped => ?_⟩
  cases popped with
  | nothing => trivial
  | node name chosen =>
    refine ⟨⟨inside, by simpa using own, not_not.mp unplaced, name, within chosen, rfl⟩, fun reply => ?_⟩
    have rest : nodes.erase name ⊆ kubeNodes := (erase_subset _ _).trans within
    cases reply with
    | error e =>
      cases e with
      | notFound => exact insert_subset (within chosen) rest
      | _ => trivial
    | ok u => exact rest

theorem annotatePodsWithNodes_places {t : Trace surroundings} {out : Except PlacementError Unit}
    {read updated : Pod} {reply : Except KubeError Unit}
    (run : Exec (annotatePodsWithNodes jobid kubeNodes pods) t out)
    (patched : ⟨.patchPod read updated, reply⟩ ∈ t) : Places jobid kubeNodes pods read updated := by
  have spec : wp (guard jobid kubeNodes pods) (annotatePodsWithNodes jobid kubeNodes pods) [] fun _ _ => True := by
    unfold annotatePodsWithNodes
    rw [wp_bind]
    refine wp_loop (fun _ _ nodes => nodes ⊆ kubeNodes) (unassigned_subset _ _ _) ?_ fun _ _ _ => trivial
    intro seen p rest h nodes split within
    refine wp_mono (wp_annotatePod (split ▸ by simp) within) fun _ flow kept => ?_
    cases flow with
    | next nodes' => exact kept
    | stop out => trivial
  obtain ⟨before, after, split⟩ := List.append_of_mem patched
  exact (wp_exec spec run).2 before _ after split

private theorem exists_label {id : Int} (low : -2 ^ 31 ≤ id) (high : id < 2 ^ 31) :
    ∃ text, parseSlurmJobId text = id := by
  have small : (id % 2 ^ 32).toNat < 2 ^ 32 := by omega
  refine ⟨numeral (id % 2 ^ 32).toNat, ?_⟩
  simp only [parseSlurmJobId, parseNumeral_numeral small]
  split <;> omega

variable {node : String}

theorem exists_placement (own : ofJob jobid p = true) (unplaced : p.annotation annotationExternalJobNode = "")
    (inside : node ∈ kubeNodes) :
    Exec (annotatePodsWithNodes jobid kubeNodes [p]) [⟨.popAny kubeNodes, Popped.node node inside⟩,
        ⟨.patchPod p (withNode p node), (.ok () : Except KubeError Unit)⟩] (.ok ()) := by
  have free : unassigned jobid [p] kubeNodes = kubeNodes := by
    simp [unassigned, unplaced]
  have some : ¬kubeNodes.card = 0 := by
    rw [card_eq_zero]
    exact ne_empty_of_mem inside
  unfold annotatePodsWithNodes
  rw [free]
  simp only [loop, annotatePod, if_neg some, own, unplaced, Bool.not_true, Bool.false_eq_true, if_false,
    ne_eq, not_true_eq_false]
  exact .step _ _ _ _ _ (.step _ _ _ _ _ (.ret _))

/-- A placement survives the repair of the Pod's metadata. -/
def Survives (job : ExternalJob) (pod : Pod) : Prop :=
  ∀ adopt, (podWithMetadata pod job adopt).annotations = pod.annotations

theorem survives_iff {job : ExternalJob} {pod : Pod} (running : job.pending = false)
    (unfinished : job.finished = false) (unbound : pod.nodeName = "")
    (placed : pod.annotation annotationExternalJobNode ≠ "") :
    Survives job pod ↔ pod.annotation annotationExternalJobNode ∈ job.nodes.expand := by
  have stale : staleNode pod job = !job.nodes.expand.contains (pod.annotation annotationExternalJobNode) := by
    simp [staleNode, unbound, running, unfinished, placed]
  unfold Survives
  simp only [annotations_podWithMetadata, stale, Bool.not_eq_true', ← Bool.not_eq_true, List.contains_iff_mem]
  constructor
  · intro kept
    by_contra outside
    have erased := kept true
    rw [if_pos outside] at erased
    refine placed ?_
    rw [Pod.annotation, ← erased, StringMap.at_insert]
  · intro inside _
    rw [if_neg (not_not.mpr inside)]

variable {store : NodeStore} {cancelled : Option String} {synced : Bool} {live : Except String (List KubeNode)}
  {job : ExternalJob} {kubeNodes : Finset String}

theorem mapped_node {slurmNodes : List String}
    (mapped : slurmToKubeNodes store cancelled synced live slurmNodes = .ok kubeNodes)
    (inside : node ∈ kubeNodes) :
    node ≠ "" ∧ (node ∈ slurmNodes ∨
      ∃ stored ∈ store.nodes, getSlurmNodeName stored ∈ slurmNodes ∧ stored.name = node) := by
  obtain ⟨represent, each, rfl⟩ := slurmToKubeNodes_mapped mapped
  obtain ⟨name, listed, same⟩ := mem_image.mp inside
  rw [List.mem_toFinset] at listed
  cases same ▸ resolve_represents (each name listed) with
  | @bySlurmName stored within slurm =>
    exact ⟨store.named stored within, .inr ⟨stored, within, slurm ▸ listed, rfl⟩⟩
  | @byName stored within own _ => exact ⟨own ▸ store.named stored within, .inl listed⟩

/-- The placements on the nodes of a running job survive the repair exactly if each allocated node's
own name is among the Slurm names of the job's nodes.  The repair is idempotent. -/
theorem placement_survives_iff
    (mapped : slurmToKubeNodes store cancelled synced live job.nodes.expand = .ok kubeNodes)
    (running : job.pending = false) (unfinished : job.finished = false) (low : -2 ^ 31 ≤ job.jobId)
    (high : job.jobId < 2 ^ 31) :
    ((∀ pods t out read updated reply, Exec (annotatePodsWithNodes job.jobId kubeNodes pods) t out →
        ⟨.patchPod read updated, reply⟩ ∈ t → ∀ pod : Pod, pod.nodeName = "" →
        pod.annotation annotationExternalJobNode = updated.annotation annotationExternalJobNode →
        Survives job pod) ↔
      ∀ node ∈ store.nodes, getSlurmNodeName node ∈ job.nodes.expand → node.name ∈ job.nodes.expand) ∧
    ∀ pod job adopt, podWithMetadata (podWithMetadata pod job adopt) job adopt = podWithMetadata pod job adopt := by
  have recorded : ∀ p node, Pod.annotation (withNode p node) annotationExternalJobNode = node :=
    fun p node => StringMap.at_insert _ _ _
  refine ⟨⟨?_, ?_⟩, podWithMetadata_idem⟩
  · intro survive node stored listed
    -- A Pod of the job can be placed on that node.
    obtain ⟨text, parsed⟩ := exists_label low high
    let p : Pod := { Pod.waiting (.of "ns" (.refl true)) (.of "a" (.refl true))
      (.of "u" (.refl true)) "slurm-bridge" with labels := (∅ : StringMap).insert labelExternalJobId text }
    have own : ofJob job.jobId p = true := by
      unfold ofJob
      rw [Pod.label, StringMap.at_insert, parsed]
      exact beq_self_eq_true _
    have inside : node.name ∈ kubeNodes := by
      obtain ⟨represent, each, rfl⟩ := slurmToKubeNodes_mapped mapped
      exact Finset.mem_image.mpr ⟨_, List.mem_toFinset.mpr listed, resolve_unique (each _ listed) stored rfl⟩
    have survives := survive _ _ _ p (withNode p node.name) _ (exists_placement own rfl inside)
      (List.mem_cons_of_mem _ (List.mem_singleton_self _)) (withNode p node.name) rfl rfl
    have named := store.named node stored
    rw [survives_iff running unfinished rfl (by rwa [recorded]), recorded] at survives
    exact survives
  · intro ownNames pods t out read updated reply run patched pod unbound same
    obtain ⟨node, inside, rfl⟩ := (annotatePodsWithNodes_places run patched).placed
    obtain ⟨named, origin⟩ := mapped_node mapped inside
    rw [recorded] at same
    rw [survives_iff running unfinished unbound (by rwa [same]), same]
    rcases origin with listed | ⟨stored, within, listed, rfl⟩
    · exact listed
    · exact ownNames stored within listed

/- Job 7 runs on one node of a cluster where Kubernetes node worker-a is Slurm node cn1. -/

private def aliasedJob (node : String) : ExternalJob := ⟨7, 0, 0, ⟨node, [node]⟩, false, false, false⟩

private def aliasedPod : Pod :=
  { Pod.waiting (.of "ns" (.refl true)) (.of "a" (.refl true)) (.of "u" (.refl true)) "slurm-bridge" with
    labels := (∅ : StringMap).insert labelExternalJobId "7" }

/-- On a node with one name, the placement survives. -/
theorem placement_survives_unaliased :
    slurmToKubeNodes aliasedStore none true (.ok []) ["worker-b"] = .ok {"worker-b"} ∧
      Survives (aliasedJob "worker-b") (withNode aliasedPod "worker-b") := by
  have mapped : slurmToKubeNodes aliasedStore none true (.ok []) (aliasedJob "worker-b").nodes.expand =
      .ok {"worker-b"} := rfl
  have placed : Exec (annotatePodsWithNodes 7 {"worker-b"} [aliasedPod])
      [⟨.popAny {"worker-b"}, Popped.node "worker-b" (Finset.mem_singleton_self _)⟩,
        ⟨.patchPod aliasedPod (withNode aliasedPod "worker-b"), (.ok () : Except KubeError Unit)⟩] (.ok ()) :=
    exists_placement rfl rfl _
  exact ⟨mapped, (placement_survives_iff mapped rfl rfl (by decide) (by decide)).1.mpr (by decide) _ _ _ _ _ _ placed
    (List.mem_cons_of_mem _ (List.mem_singleton_self _)) _ rfl rfl⟩

/-- On a node with a Slurm name of its own, the repair drops the placement. -/
theorem placement_dropped_aliased :
    slurmToKubeNodes aliasedStore none true (.ok []) (aliasedJob "cn1").nodes.expand = .ok {"worker-a"} ∧
      Exec (annotatePodsWithNodes (aliasedJob "cn1").jobId {"worker-a"} [aliasedPod])
        [⟨.popAny {"worker-a"}, Popped.node "worker-a" (Finset.mem_singleton_self _)⟩,
          ⟨.patchPod aliasedPod (withNode aliasedPod "worker-a"), (.ok () : Except KubeError Unit)⟩] (.ok ()) ∧
      (withNode aliasedPod "worker-a").nodeName = "" ∧
      Pod.annotation (podWithMetadata (withNode aliasedPod "worker-a") (aliasedJob "cn1") false)
        annotationExternalJobNode = "" :=
  ⟨rfl, exists_placement rfl rfl _, rfl, by decide⟩

end SlurmBridge.Scheduler.Placement
