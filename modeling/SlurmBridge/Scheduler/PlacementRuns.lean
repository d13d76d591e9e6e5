/- source: internal/scheduler/plugins/slurmbridge/slurmbridge.go
   digest: Calls that record the nodes of an allocation on its Pods, one after the other, while Pods come
     and go and patches fail.  No two Pods get one node, and no recorded node changes. -/

import Mathlib.Logic.Function.Basic
import SlurmBridge.Foundation.Sessions
import SlurmBridge.Scheduler.Placement

set_option autoImplicit false

namespace SlurmBridge.Scheduler.PlacementRuns

open Foundation.Interaction Foundation.Sessions Kube.Objects Scheduler.Placement
open Foundation.Text (Segment)
open Relation (ReflTransGen)
open List Function

abbrev nodeOf (pod : Pod) : String := pod.annotation annotationExternalJobNode

/-- The Pods that exist, and the UIDs that were given to Pods so far. -/
structure World where
  pods : ObjectKey → Option Pod
  seen : Set Segment
  keyed : ∀ key pod, pods key = some pod → objectKey pod = key
  known : ∀ key pod, pods key = some pod → pod.uid ∈ seen

/-- What happens to Pods apart from the calls: they appear without a node, vanish, or change otherwise. -/
inductive Changes (w w' : World) : Prop
  | appear (pod : Pod) (absent : w.pods (objectKey pod) = none) (new : pod.uid ∉ w.seen) (unplaced : nodeOf pod = "")
      (pods : w'.pods = update w.pods (objectKey pod) (some pod)) (seen : w'.seen = insert pod.uid w.seen)
  | vanish (key : ObjectKey) (pods : w'.pods = update w.pods key none) (seen : w'.seen = w.seen)
  | alter (key : ObjectKey) (pod pod' : Pod) (present : w.pods key = some pod) (uid : pod'.uid = pod.uid)
      (job : ∀ jobid, ofJob jobid pod' = ofJob jobid pod) (node : nodeOf pod' = nodeOf pod)
      (pods : w'.pods = update w.pods key (some pod')) (seen : w'.seen = w.seen)

/-- A patch changes the Pod of that name as it is now. -/
def Patched (read updated : Pod) (w w' : World) : Prop :=
  ∃ current, w.pods (objectKey read) = some current ∧ w'.seen = w.seen ∧
    w'.pods = update w.pods (objectKey read) (some (withNode current (nodeOf updated)))

/-- Any node is taken from a set.  A patch that fails may have taken effect, unless the Pod is gone. -/
def respond : (c : Command) → c.Reply → World → World → Prop
  | .popAny _, _, w, w' => w' = w
  | .patchPod read updated, .ok (), w, w' => Patched read updated w w'
  | .patchPod read _, .error .notFound, w, w' => w.pods (objectKey read) = none ∧ w' = w
  | .patchPod read updated, .error _, w, w' => w' = w ∨ Patched read updated w w'

/-- The Pods that a call starts from: existing ones, with all of the job. -/
structure Current (jobid : Int) (pods : List Pod) (w : World) : Prop where
  nodup : pods.Nodup
  exist : ∀ pod ∈ pods, w.pods (objectKey pod) = some pod
  complete : ∀ key pod, w.pods key = some pod → ofJob jobid pod = true → pod ∈ pods

structure JobNodes where
  names : Finset String
  named : "" ∉ names

def calls (jobid : Int) (nodes : JobNodes) : Service surroundings World where
  Task := List Pod
  Out := Except PlacementError Unit
  code := annotatePodsWithNodes jobid nodes.names
  admits := Current jobid
  respond := respond
  changes := Changes

/-- The Pods of the job are on different nodes of the allocation, if they have one. -/
structure Placed (jobid : Int) (nodes : Finset String) (w : World) : Prop where
  inside : ∀ key pod, w.pods key = some pod → ofJob jobid pod = true → nodeOf pod ≠ "" → nodeOf pod ∈ nodes
  distinct : ∀ key key' pod pod', w.pods key = some pod → w.pods key' = some pod' → ofJob jobid pod = true →
    ofJob jobid pod' = true → nodeOf pod ≠ "" → nodeOf pod = nodeOf pod' → key = key'

/-- A Pod has a node if it still exists. -/
def Served (w : World) (pod : Pod) : Prop :=
  ∀ current, w.pods (objectKey pod) = some current → current.uid = pod.uid → nodeOf current ≠ ""

/-- No Pod comes back, and none loses its node or gets another one. -/
structure Keeps (w w' : World) : Prop where
  seen : w.seen ⊆ w'.seen
  same : ∀ key pod', w'.pods key = some pod' → pod'.uid ∈ w.seen →
    ∃ pod, w.pods key = some pod ∧ pod.uid = pod'.uid ∧ (nodeOf pod ≠ "" → nodeOf pod' = nodeOf pod)

section
variable {w w' w'' : World}

theorem Keeps.refl (w : World) : Keeps w w := ⟨fun _ known => known, fun _ pod exists' _ => ⟨pod, exists', rfl, fun _ => rfl⟩⟩

theorem Keeps.trans (first : Keeps w w') (second : Keeps w' w'') : Keeps w w'' where
  seen := first.seen.trans second.seen
  same := by
    intro key pod'' now known
    obtain ⟨pod', between, uid', node'⟩ := second.same key pod'' now (first.seen known)
    obtain ⟨pod, before, uid, node⟩ := first.same key pod' between (uid' ▸ known)
    refine ⟨pod, before, uid.trans uid', fun placed => ?_⟩
    have same := node placed
    rw [node' (same ▸ placed), same]

theorem keeps_of_run (run : ReflTransGen Keeps w w') : Keeps w w' := by
  induction run with
  | refl => exact .refl _
  | tail _ step ih => exact ih.trans step

theorem Keeps.served {pod : Pod} (keeps : Keeps w w') (known : pod.uid ∈ w.seen) (served : Served w pod) :
    Served w' pod := by
  intro current now uid
  obtain ⟨before, there, uid', node⟩ := keeps.same _ current now (uid ▸ known)
  have placed := served before there (uid'.trans uid)
  rw [node placed]
  exact placed

variable {key : ObjectKey} {pod' : Pod}

theorem Changes.origin (changes : Changes w w') (now : w'.pods key = some pod') :
    (∃ pod, w.pods key = some pod ∧ pod.uid = pod'.uid ∧ (∀ jobid, ofJob jobid pod' = ofJob jobid pod) ∧
      nodeOf pod' = nodeOf pod) ∨ (pod'.uid ∉ w.seen ∧ nodeOf pod' = "") := by
  cases changes with
  | appear pod absent new unplaced pods seen =>
    rw [pods] at now
    by_cases same : key = objectKey pod
    · subst same
      rw [update_self] at now
      obtain rfl := Option.some.inj now
      exact .inr ⟨new, unplaced⟩
    · rw [update_of_ne same] at now
      exact .inl ⟨pod', now, rfl, fun _ => rfl, rfl⟩
  | vanish gone pods seen =>
    rw [pods] at now
    by_cases same : key = gone
    · subst same
      simp at now
    · rw [update_of_ne same] at now
      exact .inl ⟨pod', now, rfl, fun _ => rfl, rfl⟩
  | alter altered pod pod₁ present uid job node pods seen =>
    rw [pods] at now
    by_cases same : key = altered
    · subst same
      rw [update_self] at now
      obtain rfl := Option.some.inj now
      exact .inl ⟨pod, present, uid.symm, job, node⟩
    · rw [update_of_ne same] at now
      exact .inl ⟨pod', now, rfl, fun _ => rfl, rfl⟩

theorem Changes.keeps (changes : Changes w w') : Keeps w w' where
  seen := by
    cases changes with
    | appear pod absent new unplaced pods seen => exact seen ▸ Set.subset_insert _ _
    | vanish key pods seen => exact seen.ge
    | alter key pod pod' present uid job node pods seen => exact seen.ge
  same := by
    intro key pod' now known
    rcases changes.origin now with ⟨pod, before, uid, -, node⟩ | ⟨new, -⟩
    · exact ⟨pod, before, uid, fun _ => node⟩
    · exact absurd known new

variable {jobid : Int} {nodes : Finset String}

theorem Changes.placed (changes : Changes w w') (placed : Placed jobid nodes w) : Placed jobid nodes w' where
  inside := by
    intro key pod now own has
    rcases changes.origin now with ⟨before, there, -, job, node⟩ | ⟨-, unplaced⟩
    · rw [node]
      exact placed.inside key before there (job jobid ▸ own) (node ▸ has)
    · exact absurd unplaced has
  distinct := by
    intro key key' pod pod' now now' own own' has same
    rcases changes.origin now with ⟨before, there, -, job, node⟩ | ⟨-, unplaced⟩
    · rcases changes.origin now' with ⟨before', there', -, job', node'⟩ | ⟨-, unplaced⟩
      · exact placed.distinct key key' before before' there there' (job jobid ▸ own) (job' jobid ▸ own') (node ▸ has)
          (by rw [← node, same, node'])
      · exact absurd (same.trans unplaced) has
    · exact absurd unplaced has

@[simp] theorem nodeOf_withNode (pod : Pod) (node : String) : nodeOf (withNode pod node) = node :=
  StringMap.at_insert _ _ _

variable {read updated : Pod}

theorem Patched.origin (patched : Patched read updated w w') (now : w'.pods key = some pod') :
    w.pods key = some pod' ∧ key ≠ objectKey read ∨ key = objectKey read ∧ nodeOf pod' = nodeOf updated ∧
        ∃ pod, w.pods key = some pod ∧ pod.uid = pod'.uid ∧ ∀ jobid, ofJob jobid pod' = ofJob jobid pod := by
  obtain ⟨current, present, -, pods⟩ := patched
  rw [pods] at now
  by_cases same : key = objectKey read
  · subst same
    rw [update_self] at now
    obtain rfl := Option.some.inj now
    exact .inr ⟨rfl, nodeOf_withNode _ _, current, present, rfl, fun _ => rfl⟩
  · rw [update_of_ne same] at now
    exact .inl ⟨now, same⟩

theorem Patched.keeps (patched : Patched read updated w w')
    (unplaced : ∀ current, w.pods (objectKey read) = some current → nodeOf current = "") : Keeps w w' where
  seen := by
    obtain ⟨-, -, seen, -⟩ := patched
    exact seen.ge
  same := by
    intro key pod' now _
    rcases patched.origin now with ⟨before, -⟩ | ⟨rfl, -, pod, before, uid, -⟩
    · exact ⟨pod', before, rfl, fun _ => rfl⟩
    · exact ⟨pod, before, uid, fun has => absurd (unplaced pod before) has⟩

theorem Patched.placed (patched : Patched read updated w w') (placed : Placed jobid nodes w)
    (inside : nodeOf updated ∈ nodes)
    (free : ∀ key pod, w.pods key = some pod → ofJob jobid pod = true → nodeOf pod ≠ nodeOf updated) :
    Placed jobid nodes w' where
  inside := by
    intro key pod now own has
    rcases patched.origin now with ⟨before, -⟩ | ⟨rfl, node, -⟩
    · exact placed.inside key pod before own has
    · exact node ▸ inside
  distinct := by
    intro key key' pod pod' now now' own own' has same
    rcases patched.origin now with ⟨before, -⟩ | ⟨rfl, node, -⟩ <;>
      rcases patched.origin now' with ⟨before', -⟩ | ⟨rfl, node', -⟩
    · exact placed.distinct key key' pod pod' before before' own own' has same
    · exact absurd (same.trans node') (free key pod before own)
    · exact absurd (same.symm.trans node) (free key' pod' before' own')
    · rfl

end

section
variable {jobid : Int} {nodes : JobNodes} {pods : List Pod} {w w' : World}

def waits (jobid : Int) (pod : Pod) : Bool := ofJob jobid pod && decide (nodeOf pod = "")

/-- What a call knows after some of its Pods. -/
structure Progress (jobid : Int) (nodes : JobNodes) (pods done : List Pod) (left : Finset String) (w : World) : Prop where
  placed : Placed jobid nodes.names w
  within : left ⊆ nodes.names
  free : ∀ key pod, w.pods key = some pod → ofJob jobid pod = true → nodeOf pod ∉ left
  known : ∀ pod ∈ pods, pod.uid ∈ w.seen
  served : ∀ pod ∈ pods, ofJob jobid pod = true → nodeOf pod ≠ "" ∨ pod ∈ done → Served w pod
  /-- A Pod that waits has no node yet, whoever bears its name. -/
  unplaced : ∀ rest, pods = done ++ rest → ∀ pod ∈ rest, waits jobid pod = true →
    ∀ current, w.pods (objectKey pod) = some current → nodeOf current = ""
  enough : pods.countP (ofJob jobid) ≤ nodes.names.card → ∀ rest, pods = done ++ rest →
    rest.countP (waits jobid) ≤ left.card

variable {done : List Pod} {left : Finset String} {pod : Pod}

variable {node : String} {rest : List Pod}

section
variable (progress : Progress jobid nodes pods done left w)

include progress

theorem Progress.change (changes : Changes w w') : Progress jobid nodes pods done left w' where
  placed := changes.placed progress.placed
  within := progress.within
  free := by
    intro key pod now own
    rcases changes.origin now with ⟨before, there, -, job, node⟩ | ⟨-, unplaced⟩
    · rw [node]
      exact progress.free key before there (job jobid ▸ own)
    · rw [unplaced]
      exact fun inside => nodes.named (progress.within inside)
  known := fun pod inside => changes.keeps.seen (progress.known pod inside)
  served := fun pod inside own has => changes.keeps.served (progress.known pod inside) (progress.served pod inside own has)
  unplaced := by
    intro rest split pod inside waiting current now
    rcases changes.origin now with ⟨before, there, -, -, node⟩ | ⟨-, unplaced⟩
    · exact node.trans (progress.unplaced rest split pod inside waiting before there)
    · exact unplaced
  enough := progress.enough

theorem Progress.later (later : ReflTransGen Changes w w') : Progress jobid nodes pods done left w':= by
  induction later with
  | refl => exact progress
  | tail _ changes ih => exact ih.change changes

theorem Progress.settle
    (settled : ofJob jobid pod = true → Served w pod) : Progress jobid nodes pods (done ++ [pod]) left w where
  placed := progress.placed
  within := progress.within
  free := progress.free
  known := progress.known
  served := by
    intro other inside own has
    rw [mem_append, mem_singleton, ← or_assoc] at has
    rcases has with has | rfl
    · exact progress.served other inside own has
    · exact settled own
  unplaced := by
    intro rest split other inside
    rw [append_assoc] at split
    exact progress.unplaced _ split other (mem_append_right _ inside)
  enough := by
    intro many rest split
    rw [append_assoc] at split
    have bound := progress.enough many _ split
    rw [countP_append] at bound
    omega

theorem Progress.record (distinct : (pods.map objectKey).Nodup) (split : pods = done ++ pod :: rest)
    (waiting : waits jobid pod = true) (chosen : node ∈ left) (patched : Patched pod (withNode pod node) w w') :
    Keeps w w' ∧ Placed jobid nodes.names w' ∧ Progress jobid nodes pods (done ++ [pod]) (left.erase node) w' := by
  have inside : nodeOf (withNode pod node) ∈ nodes.names := by
    rw [nodeOf_withNode]
    exact progress.within chosen
  have keeps : Keeps w w' := patched.keeps (progress.unplaced _ split pod mem_cons_self waiting)
  have placed : Placed jobid nodes.names w' := by
    refine patched.placed progress.placed inside fun key other there own same => ?_
    rw [nodeOf_withNode] at same
    exact progress.free key other there own (same ▸ chosen)
  refine ⟨keeps, placed, placed, (Finset.erase_subset _ _).trans progress.within, ?_, ?_, ?_, ?_, ?_⟩
  · intro key other now own
    rcases patched.origin now with ⟨before, -⟩ | ⟨-, recorded, -⟩
    · exact fun among => progress.free key other before own (Finset.mem_of_mem_erase among)
    · rw [recorded, nodeOf_withNode]
      exact Finset.notMem_erase _ _
  · exact fun other among => keeps.seen (progress.known other among)
  · intro other among own has
    rw [mem_append, mem_singleton, ← or_assoc] at has
    rcases has with has | rfl
    · exact keeps.served (progress.known other among) (progress.served other among own has)
    · intro current now _
      rcases patched.origin now with ⟨-, differs⟩ | ⟨-, recorded, -⟩
      · exact absurd rfl differs
      · rw [recorded, nodeOf_withNode]
        rintro rfl
        exact nodes.named (progress.within chosen)
  · intro rest' split' other among waiting' current now
    have other_ne : objectKey other ≠ objectKey pod := by
      intro same
      rw [split', append_assoc, map_append, map_append, nodup_append] at distinct
      exact (nodup_cons.mp distinct.2.1).1 (same ▸ mem_map_of_mem among)
    rcases patched.origin now with ⟨before, -⟩ | ⟨same, -⟩
    · rw [append_assoc] at split'
      exact progress.unplaced _ split' other (mem_append_right _ among) waiting' current before
    · exact absurd same other_ne
  · intro many rest' split'
    rw [append_assoc] at split'
    have bound := progress.enough many _ split'
    rw [singleton_append, countP_cons_of_pos waiting] at bound
    rw [Finset.card_erase_of_mem chosen]
    omega

end

theorem mem_unassigned {set : Finset String} : node ∈ unassigned jobid pods set ↔
      node ∈ set ∧ ∀ pod ∈ pods, ofJob jobid pod = true → nodeOf pod ≠ "" → nodeOf pod ≠ node := by
  unfold unassigned
  induction pods generalizing set with
  | nil => simp
  | cons pod pods ih =>
    rw [foldl_cons, ih, forall_mem_cons]
    split
    · rename_i foreign
      simp only [Bool.not_eq_true'] at foreign
      simp [foreign]
    · rename_i own
      split
      · rename_i recorded
        grind
      · rename_i unrecorded
        grind

theorem card_unassigned (jobid : Int) (pods : List Pod) (set : Finset String) :
    set.card ≤ (unassigned jobid pods set).card + pods.countP fun pod => ofJob jobid pod && !decide (nodeOf pod = "") := by
  have cover : set ⊆ unassigned jobid pods set ∪
      ((pods.filter fun pod => ofJob jobid pod && !decide (nodeOf pod = "")).map nodeOf).toFinset := by
    intro node among
    rw [Finset.mem_union, mem_unassigned, mem_toFinset, mem_map]
    by_contra neither
    rw [not_or] at neither
    refine neither.1 ⟨among, fun pod inside own has same => neither.2 ⟨pod, ?_, same⟩⟩
    simp [inside, own, has]
  calc set.card ≤ _ := Finset.card_le_card cover
    _ ≤ _ := Finset.card_union_le _ _
    _ ≤ _ := by
      rw [countP_eq_length_filter]
      have bound := toFinset_card_le
        ((pods.filter fun pod => ofJob jobid pod && !decide (nodeOf pod = "")).map nodeOf)
      rw [length_map] at bound
      omega

theorem countP_waits (jobid : Int) (pods : List Pod) : (pods.countP (waits jobid)) + (pods.countP fun pod => ofJob jobid pod && !decide (nodeOf pod = "")) =
    pods.countP (ofJob jobid) := by
  induction pods with
  | nil => rfl
  | cons pod pods ih =>
    simp only [countP_cons, waits] at ih ⊢
    by_cases own : ofJob jobid pod = true <;> by_cases empty : nodeOf pod = "" <;> simp [own, empty] <;> omega

theorem progress_start (current : Current jobid pods w) (placed : Placed jobid nodes.names w) :
    Progress jobid nodes pods [] (unassigned jobid pods nodes.names) w where
  placed := placed
  within := unassigned_subset _ _ _
  free := by
    intro key pod there own among
    obtain ⟨inside, untaken⟩ := mem_unassigned.mp among
    refine untaken pod (current.complete key pod there own) own (fun empty => nodes.named ?_) rfl
    exact empty ▸ inside
  known := fun pod inside => w.known _ pod (current.exist pod inside)
  served := by
    intro pod inside own has
    have placed := has.resolve_right not_mem_nil
    intro now there _
    rw [current.exist pod inside] at there
    obtain rfl := Option.some.inj there
    exact placed
  unplaced := by
    intro rest split pod inside waiting now there
    rw [current.exist pod (split ▸ inside)] at there
    obtain rfl := Option.some.inj there
    simp only [waits, Bool.and_eq_true, decide_eq_true_eq] at waiting
    exact waiting.2
  enough := by
    intro many rest split
    subst split
    have counted := countP_waits jobid pods
    have bound := card_unassigned jobid pods nodes.names
    omega

private abbrev Allowed (jobid : Int) (nodes : JobNodes) (w w' : World) : Prop := Keeps w w' ∧ Placed jobid nodes.names w'

private def Ends (jobid : Int) (nodes : JobNodes) (pods : List Pod) (out : Except PlacementError Unit) (w : World) : Prop :=
  out = .ok () → pods.countP (ofJob jobid) ≤ nodes.names.card → ∀ pod ∈ pods, ofJob jobid pod = true → Served w pod

private theorem ends_error (err : PlacementError) (v : World) : Ends jobid nodes pods (.error err) v := by
  intro failed
  cases failed

private theorem upholds_annotatePod (progress : Progress jobid nodes pods done left w)
    (distinct : (pods.map objectKey).Nodup) (split : pods = done ++ pod :: rest) :
    upholds respond Changes (Allowed jobid nodes) (annotatePod jobid left pod) w fun out w' =>
      match out with
      | .next left' => Progress jobid nodes pods (done ++ [pod]) left' w'
      | .stop out => ∀ v, ReflTransGen Changes w' v → Ends jobid nodes pods out v := by
  have among : pod ∈ pods := by simp [split]
  unfold annotatePod
  split
  · -- No node is left, so that no Pod waits.
    rename_i none
    intro v later u later' _ many other inside own
    have progress' := progress.later (later.trans later')
    refine progress'.served other inside own ?_
    rw [or_iff_not_imp_right]
    intro notDone unplaced
    have bound := progress'.enough many _ split
    rw [none, Nat.le_zero, countP_eq_zero] at bound
    refine bound other ?_ (by simp [waits, own, unplaced])
    exact (mem_append.mp (split ▸ inside)).resolve_left notDone
  split
  · rename_i foreign
    intro v later
    refine (progress.later later).settle fun own => ?_
    simp [own] at foreign
  rename_i own
  split
  · rename_i recorded
    intro v later
    exact (progress.later later).settle fun own => (progress.later later).served pod among own (.inl recorded)
  rename_i unrecorded
  have waiting : waits jobid pod = true := by
    simp only [Bool.not_eq_true', Bool.not_eq_false] at own
    simp [waits, own, not_not.mp unrecorded]
  rintro v later popped _ rfl
  have progress := progress.later later
  refine ⟨⟨.refl _, progress.placed⟩, ?_⟩
  cases popped with
  | nothing => exact fun _ _ v _ => ends_error _ v
  | node name chosen =>
    intro u later reply u' responds
    have progress := progress.later later
    have record : Patched pod (withNode pod name) u u' → _ := progress.record distinct split waiting chosen
    cases reply with
    | ok done =>
      obtain ⟨keeps, placed, progress'⟩ := record responds
      exact ⟨⟨keeps, placed⟩, fun v later => progress'.later later⟩
    | error err =>
      have failing : u' = u ∨ Patched pod (withNode pod name) u u' → Allowed jobid nodes u u' := by
        rintro (rfl | patched)
        · exact ⟨.refl _, progress.placed⟩
        · exact ⟨(record patched).1, (record patched).2.1⟩
      cases err with
      | notFound =>
        obtain ⟨gone, rfl⟩ := responds
        refine ⟨⟨.refl _, progress.placed⟩, fun v later => ?_⟩
        have same : insert name (left.erase name) = left := Finset.insert_erase chosen
        rw [same]
        refine (progress.settle fun _ current there => ?_).later later
        simp [gone] at there
      | forbidden | other => exact ⟨failing responds, fun _ _ v _ => ends_error _ v⟩

private theorem upholds_call (current : Current jobid pods w) (placed : Placed jobid nodes.names w) :
    upholds respond Changes (Allowed jobid nodes) (annotatePodsWithNodes jobid nodes.names pods) w
      (Ends jobid nodes pods) := by
  have distinct : (pods.map objectKey).Nodup := by
    refine List.Nodup.map_on (fun pod inside pod' inside' same => ?_) current.nodup
    have there := current.exist pod inside
    rw [same, current.exist pod' inside'] at there
    exact (Option.some.inj there).symm
  refine upholds_bind (upholds_loop (fun done left w => Progress jobid nodes pods done left w)
    (progress_start current placed) ?_ ?_)
  · intro done pod rest left w split progress
    refine upholds_mono (upholds_annotatePod progress distinct split) fun out w' known => ?_
    cases out with
    | next left' => exact known
    | stop out => exact fun v later u later' => known u (later.trans later')
  · intro left w v progress later u later' _ _ pod inside own
    exact (progress.later (later.trans later')).served pod inside own (.inr inside)

end

/-- In every run of calls for a job, the Pods of the job are on different nodes of the allocation at every
point, no node that is recorded on a Pod changes, and a call that succeeds with enough nodes leaves none of
its Pods that still exist without a node. -/
theorem placements_kept {jobid : Int} {nodes : JobNodes} {w : World} (start : Placed jobid nodes.names w)
    {p : Stage (calls jobid nodes)} (run : ReflTransGen (Move (calls jobid nodes)) ⟨none, w⟩ p) :
    Placed jobid nodes.names p.state ∧
    (∀ q, ReflTransGen (Move (calls jobid nodes)) p q → ∀ key pod pod', p.state.pods key = some pod →
      q.state.pods key = some pod' → pod'.uid = pod.uid → nodeOf pod ≠ "" → nodeOf pod' = nodeOf pod) ∧
    ∀ pods : List Pod, p.running = some (pods, .ret (.ok ())) → pods.countP (ofJob jobid) ≤ nodes.names.card →
      ∀ pod ∈ pods, ofJob jobid pod = true → ∀ current, p.state.pods (objectKey pod) = some current →
        current.uid = pod.uid → nodeOf current ≠ "" := by
  have code : ∀ (pods : List Pod) w, Placed jobid nodes.names w → (calls jobid nodes).admits pods w →
      upholds (calls jobid nodes).respond (calls jobid nodes).changes (fun w w' => Keeps w w' ∧ Placed jobid nodes.names w')
        ((calls jobid nodes).code pods) w (Ends jobid nodes pods) :=
    fun pods w placed current => upholds_call current placed
  have change : ∀ w w', (calls jobid nodes).changes w w' →
      Keeps w w' ∧ (Placed jobid nodes.names w → Placed jobid nodes.names w') :=
    fun w w' changes => ⟨Changes.keeps changes, Changes.placed changes⟩
  obtain ⟨sound, -⟩ := sound_run code change (sound_idle start) run
  refine ⟨sound.holds, fun q later key pod pod' before now uid placed => ?_, ?_⟩
  · obtain ⟨-, kept⟩ := sound_run code change sound later
    obtain ⟨pod₀, before', -, same⟩ := (keeps_of_run kept).same key pod' now (uid ▸ p.state.known key pod before)
    rw [before] at before'
    obtain rfl := Option.some.inj before'
    exact same placed
  · intro pods running many pod inside own
    obtain ⟨_, state⟩ := p
    obtain rfl := running
    exact sound.ended rfl many pod inside own

/- Job 7 has one node and one Pod, which is labelled and waits. -/

private def single : Pod :=
  { Pod.waiting (.of "ns" (.refl true)) (.of "a" (.refl true)) (.of "u" (.refl true)) "slurm-bridge" with
    labels := (∅ : StringMap).insert labelExternalJobId "7" }

private def singleNode : JobNodes := ⟨{"n1"}, by decide⟩

private def singleWorld (pod : Pod) : World where
  pods := update (fun _ => none) (objectKey pod) (some pod)
  seen := {pod.uid}
  keyed := by
    intro key found there
    by_cases same : key = objectKey pod
    · subst same
      rw [update_self] at there
      rw [Option.some.inj there]
    · simp [update_of_ne same] at there
  known := by
    intro key found there
    by_cases same : key = objectKey pod
    · subst same
      rw [update_self] at there
      rw [← Option.some.inj there]
      rfl
    · simp [update_of_ne same] at there

private theorem singleWorld_self (pod : Pod) : (singleWorld pod).pods (objectKey pod) = some pod := by
  simp [singleWorld]

private theorem mem_singleWorld {pod found : Pod} {key : ObjectKey} (there : (singleWorld pod).pods key = some found) :
    found = pod ∧ key = objectKey pod := by
  by_cases same : key = objectKey pod
  · subst same
    simp only [singleWorld, update_self, Option.some.injEq] at there
    exact ⟨there.symm, rfl⟩
  · simp [singleWorld, update_of_ne same] at there

private theorem single_placed : Placed 7 singleNode.names (singleWorld single) where
  inside := fun _ _ there _ has => absurd ((mem_singleWorld there).1 ▸ rfl) has
  distinct := fun _ _ _ _ there there' _ _ _ _ => (mem_singleWorld there).2.trans (mem_singleWorld there').2.symm

private theorem single_current : Current 7 [single] (singleWorld single) where
  nodup := nodup_singleton _
  exist := by
    intro pod inside
    rw [mem_singleton.mp inside]
    exact singleWorld_self single
  complete := fun _ _ there _ => mem_singleton.mpr (mem_singleWorld there).1

private theorem single_run : ReflTransGen (Move (calls 7 singleNode)) ⟨none, singleWorld single⟩
    ⟨some ([single], .ret (.ok ())), singleWorld (withNode single "n1")⟩ := by
  have patched : Patched single (withNode single "n1") (singleWorld single) (singleWorld (withNode single "n1")) := by
    refine ⟨single, singleWorld_self single, rfl, ?_⟩
    exact (update_idem _ _ _).symm
  have exec : Exec (annotatePodsWithNodes 7 singleNode.names [single]) _ _ :=
    exists_placement rfl rfl (Finset.mem_singleton_self "n1")
  exact .head (.start single_current) (run_exec exec ⟨_, rfl, _, patched, rfl⟩)

/-- The Pod has the node of the job. -/
theorem single_served : Placed 7 singleNode.names (singleWorld single) ∧
    Placed 7 singleNode.names (singleWorld (withNode single "n1")) ∧ nodeOf (withNode single "n1") ≠ "" := by
  obtain ⟨placed, -, served⟩ := placements_kept single_placed single_run
  exact ⟨single_placed, placed, served [single] rfl (by decide) single mem_cons_self rfl
    (withNode single "n1") (singleWorld_self (withNode single "n1")) rfl⟩

end SlurmBridge.Scheduler.PlacementRuns
