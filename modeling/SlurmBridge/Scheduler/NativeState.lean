/- source: internal/scheduler/plugins/slurmbridge/native_state.go
   digest: The nodes of a native gang: members that have a node keep it, and the others get the rest
     in the order of their names.  The outcome does not depend on the order of the members. -/

import Mathlib.Data.Finset.Sort
import Mathlib.Data.String.Basic
import SlurmBridge.Foundation.Allotment
import SlurmBridge.Foundation.Checked
import SlurmBridge.Foundation.Sorting
import SlurmBridge.Kube.Objects

set_option autoImplicit false

namespace SlurmBridge.Scheduler.NativeState

open Foundation.Allotment Foundation.Checked Foundation.Sorting Kube.Objects
open Foundation.Text (Segment)
open List

/-- The scheduler's snapshot of the nodes, with the Pods that are bound or assumed there. -/
structure Snapshot where
  infos : AList (fun _ : String => List Pod)
  named : ∀ node ∈ infos, node ≠ ""
  /-- Each Pod is listed under its own node. -/
  own : ∀ node pods, infos.lookup node = some pods → ∀ pod ∈ pods, pod.nodeName = node
  /-- A namespace and name stand for one Pod. -/
  once : ∀ node pods node' pods', infos.lookup node = some pods → infos.lookup node' = some pods' →
    ∀ pod ∈ pods, ∀ pod' ∈ pods', objectKey pod = objectKey pod' → pod = pod'

inductive AssignmentError
  | nodeNotFound (node : String)
  | conflicting (member : String)
  | outside (node : String)
  | noKubeNode
  deriving DecidableEq, Repr

def AssignmentError.text : AssignmentError → String
  | .nodeNotFound node => "nodeinfo not found for node name " ++ node.quote
  | .conflicting member => "gang member " ++ member ++ " has conflicting bound nodes"
  | .outside node => "gang node " ++ node.quote ++ " is outside the allocation or assigned more than once"
  | .noKubeNode => "no more external nodes available for pod placement"

abbrev PlacedPods := Finmap (fun _ : ObjectKey => Pod)

abbrev Assignments := Finmap (fun _ : ObjectKey => String)

def placeOccupants (snapshot : Snapshot) (placed : PlacedPods) (node : String) :
    Except AssignmentError PlacedPods :=
  match snapshot.infos.lookup node with
  | none => .error (.nodeNotFound node)
  | some occupants => .ok (occupants.foldl (fun placed pod => placed.insert (objectKey pod) pod) placed)

def placedPods (snapshot : Snapshot) (nodes : List String) : Except AssignmentError PlacedPods :=
  nodes.foldlM (placeOccupants snapshot) ∅

def fixedNode (placed : PlacedPods) (pod : Pod) : Except AssignmentError String :=
  match placed.lookup (objectKey pod) with
  | none => .ok pod.nodeName
  | some previous =>
    if previous.uid ≠ pod.uid then .ok pod.nodeName
    else if pod.nodeName ≠ "" ∧ pod.nodeName ≠ previous.nodeName then .error (.conflicting pod.namespacedName)
    else .ok previous.nodeName

def keepNode (placed : PlacedPods) (state : Finset String × Assignments) (pod : Pod) :
    Except AssignmentError (Finset String × Assignments) := do
  let node ← fixedNode placed pod
  if node = "" then return state
  else if node ∉ state.1 then throw (.outside node)
  else return (state.1.erase node, state.2.insert (objectKey pod) node)

def fillNode (state : List String × Assignments) (pod : Pod) :
    Except AssignmentError (List String × Assignments) :=
  if (state.2.lookup (objectKey pod)).getD "" ≠ "" then .ok state
  else
    match state.1 with
    | [] => .error .noKubeNode
    | node :: remaining => .ok (remaining, state.2.insert (objectKey pod) node)

/-- The nodes of a gang's members.  The list of nodes is the set of nodes in the order in which the
loop over it visits them. -/
def nativeAssignments (pods : List Pod) (nodes : List String) (snapshot : Snapshot) :
    Except AssignmentError Assignments := do
  let placed ← placedPods snapshot nodes
  let (available, assignments) ← pods.foldlM (keepNode placed) (nodes.toFinset, ∅)
  let ordered := pods.insertionSort fun a b => objectKey a ≤ objectKey b
  let (_, assignments) ← ordered.foldlM fillNode (available.sort (· ≤ ·), assignments)
  return assignments

section
variable {snapshot : Snapshot} {nodes : List String} {placed : PlacedPods}

/-- The snapshot shows a Pod of this namespace, name and UID on a node of the set. -/
def ShownOn (snapshot : Snapshot) (nodes : Finset String) (pod : Pod) (node : String) : Prop :=
  node ∈ nodes ∧ ∃ pods, snapshot.infos.lookup node = some pods ∧
    ∃ previous ∈ pods, objectKey previous = objectKey pod ∧ previous.uid = pod.uid

def Lists (snapshot : Snapshot) (nodes : List String) (pod : Pod) : Prop :=
  ∃ node ∈ nodes, ∃ pods, snapshot.infos.lookup node = some pods ∧ pod ∈ pods

theorem Lists.same {pod pod' : Pod} (lists : Lists snapshot nodes pod) (lists' : Lists snapshot nodes pod')
    (same : objectKey pod = objectKey pod') : pod = pod' := by
  obtain ⟨node, -, pods, found, among⟩ := lists
  obtain ⟨node', -, pods', found', among'⟩ := lists'
  exact snapshot.once node pods node' pods' found found' pod among pod' among' same

private theorem lookup_enter (occupants : List Pod) (placed : PlacedPods) {P : Pod → Prop}
    (known : ∀ key pod, placed.lookup key = some pod ↔ P pod ∧ objectKey pod = key)
    (once : ∀ pod pod', P pod ∨ pod ∈ occupants → P pod' ∨ pod' ∈ occupants → objectKey pod = objectKey pod' →
      pod = pod') (key : ObjectKey) (pod : Pod) :
    (occupants.foldl (fun placed pod => placed.insert (objectKey pod) pod) placed).lookup key = some pod ↔
      (P pod ∨ pod ∈ occupants) ∧ objectKey pod = key := by
  induction occupants generalizing placed P with
  | nil => simpa using known key pod
  | cons first occupants ih =>
    have entered : ∀ key pod, (placed.insert (objectKey first) first).lookup key = some pod ↔
        (P pod ∨ pod = first) ∧ objectKey pod = key := by
      intro key pod
      by_cases same : key = objectKey first
      · subst same
        rw [Finmap.lookup_insert]
        constructor
        · rintro ⟨rfl⟩
          exact ⟨.inr rfl, rfl⟩
        · rintro ⟨old | rfl, same⟩
          · exact congrArg some (once first pod (.inr mem_cons_self) (.inl old) same.symm)
          · rfl
      · rw [Finmap.lookup_insert_of_ne _ same, known]
        constructor
        · exact fun found => ⟨.inl found.1, found.2⟩
        · rintro ⟨old | rfl, found⟩
          · exact ⟨old, found⟩
          · exact absurd found.symm same
    rw [foldl_cons, ih _ entered]
    · rw [mem_cons, or_assoc]
    · intro pod pod' known known'
      rw [or_assoc, ← mem_cons] at known known'
      exact once pod pod' known known'

theorem placedPods_ok (run : placedPods snapshot nodes = .ok placed) :
    (∀ node ∈ nodes, (snapshot.infos.lookup node).isSome) ∧
      ∀ key pod, placed.lookup key = some pod ↔ Lists snapshot nodes pod ∧ objectKey pod = key := by
  refine foldlM_ok (fun visited (placed : PlacedPods) => (∀ node ∈ visited, (snapshot.infos.lookup node).isSome) ∧
    ∀ key pod, placed.lookup key = some pod ↔ Lists snapshot visited pod ∧ objectKey pod = key) ?_ ?_ run
  · rintro visited node placed placed' ⟨present, known⟩ step
    cases found : snapshot.infos.lookup node with
    | none => simp [placeOccupants, found] at step
    | some occupants =>
      simp only [placeOccupants, found, Except.ok.injEq] at step
      subst step
      have lists : ∀ pod, Lists snapshot (visited ++ [node]) pod ↔ Lists snapshot visited pod ∨ pod ∈ occupants := by
        intro pod
        simp [Lists, or_and_right, exists_or, found]
      refine ⟨?_, fun key pod => ?_⟩
      · exact forall_mem_snoc present (by rw [found]; rfl)
      · rw [lookup_enter occupants placed known, lists]
        intro pod pod' old old'
        rw [← lists] at old old'
        exact old.same old'
  · exact ⟨by simp, by simp [Lists]⟩

theorem placedPods_succeeds (present : ∀ node ∈ nodes, (snapshot.infos.lookup node).isSome) :
    ∃ placed, placedPods snapshot nodes = .ok placed := by
  have step : ∀ visited node rest (placed : PlacedPods), nodes = visited ++ node :: rest → True →
      ∃ placed', placeOccupants snapshot placed node = .ok placed' ∧ True := by
    intro visited node rest placed split _
    obtain ⟨occupants, found⟩ := Option.isSome_iff_exists.mp (present node (by simp [split]))
    exact ⟨_, by rw [placeOccupants, found], trivial⟩
  obtain ⟨placed, run, -⟩ := foldlM_succeeds (fun _ _ => True) step (s := ∅) trivial
  exact ⟨placed, run⟩

/-- The member is bound to a node, or the snapshot shows it there. -/
def Fixed (snapshot : Snapshot) (nodes : Finset String) (pod : Pod) (node : String) : Prop :=
  (pod.nodeName = node ∧ node ≠ "") ∨ ShownOn snapshot nodes pod node

variable {pod : Pod} {node : String}

private theorem shownOn_iff (known : ∀ key pod, placed.lookup key = some pod ↔ Lists snapshot nodes pod ∧ objectKey pod = key) :
    ShownOn snapshot nodes.toFinset pod node ↔
      ∃ previous, placed.lookup (objectKey pod) = some previous ∧ previous.uid = pod.uid ∧ previous.nodeName = node := by
  constructor
  · rintro ⟨inside, pods, found, previous, among, sameKey, sameUid⟩
    exact ⟨previous, (known _ _).mpr ⟨⟨node, mem_toFinset.mp inside, pods, found, among⟩, sameKey⟩, sameUid,
      snapshot.own node pods found previous among⟩
  · rintro ⟨previous, listed, sameUid, rfl⟩
    obtain ⟨⟨node, inside, pods, found, among⟩, sameKey⟩ := (known _ _).mp listed
    have own := snapshot.own node pods found previous among
    rw [own]
    exact ⟨mem_toFinset.mpr inside, pods, found, previous, among, sameKey, sameUid⟩

private theorem shownOn_ne_empty {set : Finset String} (shown : ShownOn snapshot set pod node) : node ≠ "" := by
  obtain ⟨-, pods, found, -⟩ := shown
  exact snapshot.named node (AList.lookup_isSome.mp (by rw [found]; rfl))

section
variable (known : ∀ key pod, placed.lookup key = some pod ↔ Lists snapshot nodes pod ∧ objectKey pod = key)

include known

theorem fixed_iff_of_fixedNode (run : fixedNode placed pod = .ok node) (n : String) :
    Fixed snapshot nodes.toFinset pod n ↔ n = node ∧ node ≠ "" := by
  have shown : ∀ n, ShownOn snapshot nodes.toFinset pod n ↔ _ := fun n => shownOn_iff known
  have named : ∀ n, ShownOn snapshot nodes.toFinset pod n → n ≠ "" := fun n => shownOn_ne_empty
  unfold fixedNode at run
  unfold Fixed
  cases found : placed.lookup (objectKey pod) with
  | none =>
    rw [found] at run
    obtain rfl := Except.ok.inj run
    have hidden : ¬ ShownOn snapshot nodes.toFinset pod n := by simp [shown, found]
    grind
  | some previous =>
    simp only [found] at run
    by_cases same : previous.uid = pod.uid
    · rw [if_neg (not_not.mpr same)] at run
      split at run
      · cases run
      · obtain rfl := Except.ok.inj run
        grind
    · rw [if_pos same] at run
      obtain rfl := Except.ok.inj run
      grind

theorem moved_of_fixedNode {err : AssignmentError} (run : fixedNode placed pod = .error err) :
    ∃ node, ShownOn snapshot nodes.toFinset pod node ∧ pod.nodeName ≠ "" ∧ pod.nodeName ≠ node := by
  unfold fixedNode at run
  cases found : placed.lookup (objectKey pod) with
  | none => simp [found] at run
  | some previous =>
    simp only [found] at run
    split at run
    · cases run
    · rename_i same
      split at run
      · rename_i moved
        exact ⟨_, (shownOn_iff known).mpr ⟨previous, found, not_not.mp same, rfl⟩, moved⟩
      · cases run

end

end

section
variable {placed : PlacedPods} {nodes : Finset String} {pods : List Pod}

/-- What the loop over the members with a node knows of those it visited. -/
structure Kept (placed : PlacedPods) (nodes : Finset String) (visited : List Pod)
    (state : Finset String × Assignments) : Prop where
  allots : Allots nodes state.1 state.2
  known : ∀ pod ∈ visited, ∃ node, fixedNode placed pod = .ok node
  lookup : ∀ key node, state.2.lookup key = some node ↔
    ∃ pod ∈ visited, objectKey pod = key ∧ fixedNode placed pod = .ok node ∧ node ≠ ""

variable {visited : List Pod} {pod : Pod}

private theorem ne_of_visited {other : Pod} (distinct : ((visited ++ [pod]).map objectKey).Nodup)
    (before : other ∈ visited) : objectKey other ≠ objectKey pod := by
  rw [map_append, nodup_append] at distinct
  exact distinct.2.2 _ (mem_map_of_mem before) _ (by simp)

variable {state : Finset String × Assignments}

private theorem Kept.new (kept : Kept placed nodes visited state)
    (distinct : ((visited ++ [pod]).map objectKey).Nodup) : state.2.lookup (objectKey pod) = none := by
  rw [Option.eq_none_iff_forall_ne_some]
  intro node found
  obtain ⟨other, before, same, -⟩ := (kept.lookup _ _).mp found
  exact ne_of_visited distinct before same

variable {node : String}

private theorem Kept.step (kept : Kept placed nodes visited state)
    (distinct : ((visited ++ [pod]).map objectKey).Nodup) (fixed : fixedNode placed pod = .ok node)
    (free : node = "" ∨ node ∈ state.1) :
    ∃ state', keepNode placed state pod = .ok state' ∧ Kept placed nodes (visited ++ [pod]) state' := by
  have known : ∀ other ∈ visited ++ [pod], ∃ node, fixedNode placed other = .ok node := by
    simpa [or_imp, forall_and, fixed] using kept.known
  unfold keepNode
  rw [fixed]
  by_cases empty : node = ""
  · refine ⟨state, by simp [bind, Except.bind, empty, pure, Except.pure], kept.allots, known, fun key n => ?_⟩
    rw [kept.lookup]
    simp only [mem_append, mem_singleton, or_and_right, exists_or, exists_eq_left, fixed, Except.ok.injEq]
    grind
  · have isFree := free.resolve_left empty
    have new := kept.new distinct
    refine ⟨(state.1.erase node, state.2.insert (objectKey pod) node), ?_, ?_⟩
    · simp [bind, Except.bind, empty, isFree, pure, Except.pure]
    · refine ⟨kept.allots.give new isFree, known, fun key n => ?_⟩
      rw [lookup_insert_iff _ _ _ _ _ new, kept.lookup]
      simp only [mem_append, mem_singleton, or_and_right, exists_or, exists_eq_left, fixed, Except.ok.injEq]
      grind

theorem kept_of_run (distinct : (pods.map objectKey).Nodup)
    (run : pods.foldlM (keepNode placed) (nodes, ∅) = .ok state) : Kept placed nodes pods state := by
  refine foldlM_ok (fun visited state => (visited.map objectKey).Nodup → Kept placed nodes visited state)
    ?_ ?_ run distinct
  · intro visited pod state state' before step distinct
    have kept := before (distinct.sublist ((sublist_append_left _ _).map _))
    unfold keepNode at step
    obtain ⟨node, fixed, taken⟩ := bind_eq_ok.mp step
    have free : node = "" ∨ node ∈ state.1 := by
      by_contra outside
      rw [not_or] at outside
      simp [outside.1, outside.2] at taken
    obtain ⟨state'', step', kept'⟩ := kept.step distinct fixed free
    rw [keepNode, step] at step'
    exact Except.ok.inj step' ▸ kept'
  · exact fun _ => ⟨allots_start nodes, by simp, by simp⟩

theorem exists_kept (distinct : (pods.map objectKey).Nodup)
    (known : ∀ pod ∈ pods, ∃ node, fixedNode placed pod = .ok node)
    (inside : ∀ pod ∈ pods, ∀ node, fixedNode placed pod = .ok node → node ≠ "" → node ∈ nodes)
    (differ : ∀ pod ∈ pods, ∀ pod' ∈ pods, ∀ node, fixedNode placed pod = .ok node →
      fixedNode placed pod' = .ok node → node ≠ "" → pod = pod') :
    ∃ state, pods.foldlM (keepNode placed) (nodes, ∅) = .ok state ∧ Kept placed nodes pods state := by
  refine foldlM_succeeds (fun visited state => Kept placed nodes visited state) ?_
    ⟨allots_start nodes, by simp, by simp⟩
  intro visited pod rest state split kept
  have among : pod ∈ pods := by simp [split]
  have distinct' : ((visited ++ [pod]).map objectKey).Nodup := by
    rw [split, append_cons] at distinct
    exact distinct.sublist ((sublist_append_left _ _).map _)
  obtain ⟨node, fixed⟩ := known pod among
  refine kept.step distinct' fixed (or_iff_not_imp_left.mpr fun nonempty => ?_)
  refine (kept.allots.mem_free node).mpr ⟨inside pod among node fixed nonempty, fun key found => ?_⟩
  -- Only the member itself has the node, and it was not visited.
  obtain ⟨other, before, -, fixed', -⟩ := (kept.lookup key node).mp found
  have same := differ other (by simp [split, before]) pod among node fixed' fixed nonempty
  exact ne_of_visited distinct' before (congrArg objectKey same)

/-- What the loop over all members knows of those it visited. -/
structure Filled (nodes : Finset String) (kept : Assignments) (visited : List Pod)
    (state : List String × Assignments) : Prop where
  nodup : state.1.Nodup
  allots : Allots nodes state.1.toFinset state.2
  keeps : ∀ key node, kept.lookup key = some node → state.2.lookup key = some node
  keys : ∀ key, key ∈ state.2 ↔ key ∈ kept ∨ ∃ pod ∈ visited, objectKey pod = key

variable {kept : Assignments} {visited : List Pod} {state : List String × Assignments} {pod : Pod}

private theorem Filled.skip (filled : Filled nodes kept visited state) (has : objectKey pod ∈ kept) :
    Filled nodes kept (visited ++ [pod]) state := by
  refine ⟨filled.nodup, filled.allots, filled.keeps, fun key => ?_⟩
  rw [filled.keys]
  grind

private theorem Filled.give {remaining : List String} {given : Assignments}
    (filled : Filled nodes kept visited (node :: remaining, given))
    (new : given.lookup (objectKey pod) = none) :
    Filled nodes kept (visited ++ [pod]) (remaining, given.insert (objectKey pod) node) := by
  obtain ⟨fresh, nodup⟩ := nodup_cons.mp filled.nodup
  have rest : (node :: remaining).toFinset.erase node = remaining.toFinset := by
    rw [toFinset_cons, Finset.erase_insert (by simpa using fresh)]
  have allots := filled.allots.give new (v := node) (by simp)
  rw [rest] at allots
  refine ⟨nodup, allots, fun key node' found => ?_, fun key => ?_⟩
  · exact (lookup_insert_iff _ _ _ _ _ new).mpr (.inr (filled.keeps key node' found))
  · rw [Finmap.mem_insert, filled.keys]
    grind

private theorem Filled.lookup (filled : Filled nodes kept visited state)
    (distinct : ((visited ++ [pod]).map objectKey).Nodup) :
    state.2.lookup (objectKey pod) = kept.lookup (objectKey pod) := by
  cases has : kept.lookup (objectKey pod) with
  | some node => exact filled.keeps _ _ has
  | none =>
    rw [Finmap.lookup_eq_none, filled.keys, not_or]
    refine ⟨Finmap.lookup_eq_none.mp has, ?_⟩
    rintro ⟨other, before, same⟩
    exact ne_of_visited distinct before same

private theorem Filled.step (filled : Filled nodes kept visited state)
    (distinct : ((visited ++ [pod]).map objectKey).Nodup) (named : ∀ key, kept.lookup key ≠ some "")
    (left : objectKey pod ∈ kept ∨ state.1 ≠ []) :
    ∃ state', fillNode state pod = .ok state' ∧ Filled nodes kept (visited ++ [pod]) state' := by
  have now := filled.lookup distinct
  unfold fillNode
  cases has : kept.lookup (objectKey pod) with
  | some node =>
    have nonempty : node ≠ "" := fun empty => named _ (empty ▸ has)
    rw [has] at now
    refine ⟨state, by simp [now, nonempty], filled.skip (Finmap.mem_of_lookup_eq_some has)⟩
  | none =>
    rw [has] at now
    obtain ⟨remaining, given⟩ := state
    cases remaining with
    | nil => exact absurd rfl (left.resolve_left (Finmap.lookup_eq_none.mp has))
    | cons node remaining => exact ⟨_, by simp [now], filled.give now⟩

variable {ordered : List Pod} {start : List String × Assignments}

theorem filled_of_run (distinct : (ordered.map objectKey).Nodup) (named : ∀ key, kept.lookup key ≠ some "")
    (filled : Filled nodes kept [] start) (run : ordered.foldlM fillNode start = .ok state) :
    Filled nodes kept ordered state := by
  refine foldlM_ok (fun visited state => (visited.map objectKey).Nodup → Filled nodes kept visited state)
    ?_ (fun _ => filled) run distinct
  intro visited pod state state' before step distinct
  have filled := before (distinct.sublist ((sublist_append_left _ _).map _))
  have left : objectKey pod ∈ kept ∨ state.1 ≠ [] := by
    by_contra neither
    rw [not_or, not_not, ← Finmap.lookup_eq_none, ← filled.lookup distinct] at neither
    simp [fillNode, neither.1, neither.2] at step
  obtain ⟨state'', step', filled'⟩ := filled.step distinct named left
  rw [step] at step'
  exact Except.ok.inj step' ▸ filled'

theorem exists_filled (distinct : (ordered.map objectKey).Nodup) (named : ∀ key, kept.lookup key ≠ some "")
    (filled : Filled nodes kept [] start) (members : ∀ key ∈ kept, ∃ pod ∈ ordered, objectKey pod = key)
    (enough : ordered.length ≤ nodes.card) :
    ∃ state, ordered.foldlM fillNode start = .ok state ∧ Filled nodes kept ordered state := by
  refine foldlM_succeeds (fun visited state => Filled nodes kept visited state) ?_ filled
  intro visited pod rest state split filled
  have distinct' : ((visited ++ [pod]).map objectKey).Nodup := by
    rw [split, append_cons] at distinct
    exact distinct.sublist ((sublist_append_left _ _).map _)
  refine filled.step distinct' named (or_iff_not_imp_left.mpr fun hasNone empty => ?_)
  -- The keys with a node are those of other members, so that one node is left.
  have others : state.2.keys ⊆ (ordered.map objectKey).toFinset.erase (objectKey pod) := by
    intro key has
    refine Finset.mem_erase.mpr ⟨?_, ?_⟩
    · rintro rfl
      rw [Finmap.mem_keys, ← Finmap.lookup_isSome, filled.lookup distinct', Finmap.lookup_isSome] at has
      exact hasNone has
    · rw [mem_toFinset, mem_map]
      rcases (filled.keys key).mp (Finmap.mem_keys.mp has) with old | ⟨other, before, same⟩
      · exact members key old
      · exact ⟨other, by simp [split, before], same⟩
  have bound := Finset.card_le_card others
  have total := filled.allots.card
  rw [Finset.card_erase_of_mem (by simp [split]), toFinset_card_of_nodup distinct, length_map] at bound
  rw [empty, toFinset_nil, Finset.card_empty] at total
  have positive : 0 < ordered.length := by simp [split]
  omega

end

section
variable {pods : List Pod} {nodes : List String} {snapshot : Snapshot} {assignments : Assignments}

/-- Each member, and nobody else, has a node of the set of its own, which is the one it had. -/
structure Stable (pods : List Pod) (nodes : Finset String) (snapshot : Snapshot) (assignments : Assignments) : Prop where
  total : ∀ key, key ∈ assignments ↔ ∃ pod ∈ pods, objectKey pod = key
  inside : ∀ key node, assignments.lookup key = some node → node ∈ nodes
  injective : ∀ key key' node, assignments.lookup key = some node → assignments.lookup key' = some node → key = key'
  bound : ∀ pod ∈ pods, pod.nodeName ≠ "" → assignments.lookup (objectKey pod) = some pod.nodeName
  shown : ∀ pod ∈ pods, ∀ node, ShownOn snapshot nodes pod node → assignments.lookup (objectKey pod) = some node

/-- Why a gang cannot be placed on a set of nodes. -/
inductive Infeasible (pods : List Pod) (nodes : Finset String) (snapshot : Snapshot) : Prop
  | moved {pod : Pod} {node : String} (member : pod ∈ pods) (shown : ShownOn snapshot nodes pod node)
      (bound : pod.nodeName ≠ "") (differs : pod.nodeName ≠ node)
  | shared {pod pod' : Pod} {node : String} (member : pod ∈ pods) (member' : pod' ∈ pods) (distinct : pod ≠ pod')
      (fixed : Fixed snapshot nodes pod node) (fixed' : Fixed snapshot nodes pod' node)
  | outside {pod : Pod} (member : pod ∈ pods) (bound : pod.nodeName ≠ "") (outside : pod.nodeName ∉ nodes)
  | missing {node : String} (inside : node ∈ nodes) (missing : snapshot.infos.lookup node = none)
  | tooMany (more : nodes.card < pods.length)

private structure Steps (pods : List Pod) (nodes : List String) (snapshot : Snapshot) (assignments : Assignments)
    (placed : PlacedPods) (kept : Finset String × Assignments) (remaining : List String) : Prop where
  place : placedPods snapshot nodes = .ok placed
  keep : pods.foldlM (keepNode placed) (nodes.toFinset, ∅) = .ok kept
  fill : (pods.insertionSort fun a b => objectKey a ≤ objectKey b).foldlM fillNode (kept.1.sort (· ≤ ·), kept.2) =
    .ok (remaining, assignments)

private theorem nativeAssignments_eq_ok : nativeAssignments pods nodes snapshot = .ok assignments ↔
    ∃ placed kept remaining, Steps pods nodes snapshot assignments placed kept remaining := by
  unfold nativeAssignments
  simp only [bind_eq_ok, pure_eq_ok]
  constructor
  · rintro ⟨placed, first, kept, second, ⟨remaining, _⟩, third, rfl⟩
    exact ⟨placed, kept, remaining, first, second, third⟩
  · rintro ⟨placed, kept, remaining, first, second, third⟩
    exact ⟨placed, first, kept, second, (remaining, assignments), third, rfl⟩

private theorem nodup_ordered (distinct : (pods.map objectKey).Nodup) :
    ((pods.insertionSort fun a b => objectKey a ≤ objectKey b).map objectKey).Nodup :=
  ((perm_insertionSort _ _).map _).nodup_iff.mpr distinct

variable {placed : PlacedPods} {set : Finset String} {kept : Finset String × Assignments}

private theorem filled_start (keeps : Kept placed set pods kept) :
    Filled set kept.2 [] (kept.1.sort (· ≤ ·), kept.2) where
  nodup := Finset.sort_nodup _ _
  allots := by simpa using keeps.allots
  keeps := fun _ _ found => found
  keys := by simp

private theorem Kept.named (keeps : Kept placed set pods kept) (key : ObjectKey) :
    kept.2.lookup key ≠ some "" := by
  intro found
  obtain ⟨-, -, -, -, nonempty⟩ := (keeps.lookup key "").mp found
  exact nonempty rfl

variable (distinct : (pods.map objectKey).Nodup)
include distinct

private theorem Steps.filled {remaining : List String}
    (steps : Steps pods nodes snapshot assignments placed kept remaining) :
    Filled nodes.toFinset kept.2 (pods.insertionSort fun a b => objectKey a ≤ objectKey b) (remaining, assignments) :=
  have keeps := kept_of_run distinct steps.keep
  filled_of_run (nodup_ordered distinct) keeps.named (filled_start keeps) steps.fill

theorem stable_of_run (run : nativeAssignments pods nodes snapshot = .ok assignments) :
    Stable pods nodes.toFinset snapshot assignments := by
  obtain ⟨placed, kept, remaining, steps⟩ := nativeAssignments_eq_ok.mp run
  have known := (placedPods_ok steps.place).2
  have keeps := kept_of_run distinct steps.keep
  have filled := steps.filled distinct
  have fixed : ∀ pod ∈ pods, ∀ node, Fixed snapshot nodes.toFinset pod node →
      assignments.lookup (objectKey pod) = some node := by
    intro pod member node fixed
    obtain ⟨found, run⟩ := keeps.known pod member
    obtain ⟨rfl, nonempty⟩ := (fixed_iff_of_fixedNode known run node).mp fixed
    exact filled.keeps _ _ ((keeps.lookup _ _).mpr ⟨pod, member, rfl, run, nonempty⟩)
  refine ⟨fun key => ?_, filled.allots.inside, filled.allots.injective, ?_, ?_⟩
  · rw [filled.keys]
    simp only [mem_insertionSort]
    refine ⟨fun has => has.elim (fun has => ?_) id, .inr⟩
    obtain ⟨node, found⟩ := Option.isSome_iff_exists.mp (Finmap.lookup_isSome.mpr has)
    obtain ⟨pod, member, same, -⟩ := (keeps.lookup _ _).mp found
    exact ⟨pod, member, same⟩
  · exact fun pod member bound => fixed pod member _ (.inl ⟨rfl, bound⟩)
  · exact fun pod member node shown => fixed pod member node (.inr shown)

theorem not_infeasible_of_run (run : nativeAssignments pods nodes snapshot = .ok assignments) :
    ¬ Infeasible pods nodes.toFinset snapshot := by
  have stable := stable_of_run distinct run
  obtain ⟨placed, kept, remaining, steps⟩ := nativeAssignments_eq_ok.mp run
  have fixed : ∀ pod ∈ pods, ∀ node, Fixed snapshot nodes.toFinset pod node →
      assignments.lookup (objectKey pod) = some node := by
    rintro pod member node (⟨rfl, bound⟩ | shown)
    · exact stable.bound pod member bound
    · exact stable.shown pod member node shown
  intro infeasible
  cases infeasible with
  | moved member shown bound differs =>
    have first := stable.bound _ member bound
    rw [stable.shown _ member _ shown] at first
    exact differs (Option.some.inj first).symm
  | shared member member' different isFixed isFixed' =>
    have same := stable.injective _ _ _ (fixed _ member _ isFixed) (fixed _ member' _ isFixed')
    exact different (inj_on_of_nodup_map distinct member member' same)
  | outside member bound outside => exact outside (stable.inside _ _ (stable.bound _ member bound))
  | missing inside missing =>
    have present := (placedPods_ok steps.place).1 _ (mem_toFinset.mp inside)
    simp [missing] at present
  | tooMany more =>
    have filled := steps.filled distinct
    have keys : assignments.keys = (pods.map objectKey).toFinset := by
      ext key
      rw [Finmap.mem_keys, stable.total, mem_toFinset, mem_map]
    have total := filled.allots.card
    rw [keys, toFinset_card_of_nodup distinct, length_map] at total
    omega

theorem exists_run (feasible : ¬ Infeasible pods nodes.toFinset snapshot) :
    ∃ assignments, nativeAssignments pods nodes snapshot = .ok assignments := by
  have present : ∀ node ∈ nodes, (snapshot.infos.lookup node).isSome := by
    intro node inside
    by_contra absent
    rw [Option.not_isSome_iff_eq_none] at absent
    exact feasible (.missing (mem_toFinset.mpr inside) absent)
  obtain ⟨placed, placing⟩ := placedPods_succeeds present
  have known := (placedPods_ok placing).2
  have fixed : ∀ pod node, fixedNode placed pod = .ok node → node ≠ "" → Fixed snapshot nodes.toFinset pod node :=
    fun pod node run nonempty => (fixed_iff_of_fixedNode known run node).mpr ⟨rfl, nonempty⟩
  obtain ⟨kept, keeping, keeps⟩ : ∃ kept, pods.foldlM (keepNode placed) (nodes.toFinset, ∅) = .ok kept ∧
      Kept placed nodes.toFinset pods kept := by
    refine exists_kept distinct ?_ ?_ ?_
    · intro pod member
      cases run : fixedNode placed pod with
      | ok node => exact ⟨node, rfl⟩
      | error err =>
        obtain ⟨node, shown, bound, differs⟩ := moved_of_fixedNode known run
        exact absurd (.moved member shown bound differs) feasible
    · intro pod member node run nonempty
      by_contra outside
      rcases fixed pod node run nonempty with ⟨rfl, bound⟩ | shown
      · exact feasible (.outside member bound outside)
      · exact outside shown.1
    · intro pod member pod' member' node run run' nonempty
      by_contra different
      exact feasible (.shared member member' different (fixed pod node run nonempty) (fixed pod' node run' nonempty))
  have members : ∀ key ∈ kept.2, ∃ pod ∈ pods.insertionSort fun a b => objectKey a ≤ objectKey b, objectKey pod = key := by
    intro key has
    obtain ⟨node, found⟩ := Option.isSome_iff_exists.mp (Finmap.lookup_isSome.mpr has)
    obtain ⟨pod, member, same, -⟩ := (keeps.lookup _ _).mp found
    exact ⟨pod, (mem_insertionSort _).mpr member, same⟩
  have enough : (pods.insertionSort fun a b => objectKey a ≤ objectKey b).length ≤ nodes.toFinset.card := by
    rw [length_insertionSort]
    exact not_lt.mp fun more => feasible (.tooMany more)
  obtain ⟨⟨remaining, assignments⟩, filling, -⟩ :=
    exists_filled (nodup_ordered distinct) keeps.named (filled_start keeps) members enough
  exact ⟨assignments, nativeAssignments_eq_ok.mpr ⟨placed, kept, remaining, placing, keeping, filling⟩⟩

variable {pods' : List Pod}

theorem run_unique {nodes' : List String} {assignments' : Assignments} (perm : pods'.Perm pods)
    (same : nodes'.toFinset = nodes.toFinset) (run : nativeAssignments pods nodes snapshot = .ok assignments)
    (run' : nativeAssignments pods' nodes' snapshot = .ok assignments') : assignments' = assignments := by
  have distinct' : (pods'.map objectKey).Nodup := (perm.map _).nodup_iff.mpr distinct
  obtain ⟨placed, kept, remaining, steps⟩ := nativeAssignments_eq_ok.mp run
  obtain ⟨placed', kept', remaining', steps'⟩ := nativeAssignments_eq_ok.mp run'
  have known := (placedPods_ok steps.place).2
  have known' := (placedPods_ok steps'.place).2
  have listed : ∀ pod, Lists snapshot nodes' pod ↔ Lists snapshot nodes pod := by
    intro pod
    have inside : ∀ node, node ∈ nodes' ↔ node ∈ nodes := by
      intro node
      rw [← mem_toFinset, same, mem_toFinset]
    simp only [Lists, inside]
  have samePlaced : placed' = placed := by
    refine Finmap.ext_lookup fun key => Option.ext fun pod => ?_
    rw [known', known, listed]
  have keeps := kept_of_run distinct steps.keep
  have keeps' := kept_of_run distinct' steps'.keep
  rw [samePlaced, same] at keeps'
  have sameKept : kept'.2 = kept.2 := by
    refine Finmap.ext_lookup fun key => Option.ext fun node => ?_
    rw [keeps'.lookup, keeps.lookup]
    simp only [perm.mem_iff]
  have sameFree : kept'.1 = kept.1 := Allots.free_unique (sameKept ▸ keeps'.allots) keeps.allots
  have sameOrder := sortByKey_eq_of_perm objectKey distinct' perm
  have ends := steps'.fill
  rw [sameOrder, sameFree, sameKept, steps.fill] at ends
  exact (congrArg Prod.snd (Except.ok.inj ends)).symm

private theorem fails_iff : (∃ err, nativeAssignments pods nodes snapshot = .error err) ↔
    Infeasible pods nodes.toFinset snapshot := by
  constructor
  · rintro ⟨err, failed⟩
    by_contra feasible
    obtain ⟨assignments, run⟩ := exists_run distinct feasible
    rw [failed] at run
    cases run
  · intro infeasible
    cases run : nativeAssignments pods nodes snapshot with
    | error err => exact ⟨err, rfl⟩
    | ok assignments => exact absurd infeasible (not_infeasible_of_run distinct run)

omit distinct in
private theorem Infeasible.perm (perm : pods.Perm pods') (infeasible : Infeasible pods set snapshot) :
    Infeasible pods' set snapshot := by
  cases infeasible with
  | moved member shown bound differs => exact .moved (perm.subset member) shown bound differs
  | shared member member' different fixed fixed' =>
    exact .shared (perm.subset member) (perm.subset member') different fixed fixed'
  | outside member bound outside => exact .outside (perm.subset member) bound outside
  | missing inside missing => exact .missing inside missing
  | tooMany more => exact .tooMany (perm.length_eq ▸ more)

/-- The assignment of nodes to a gang delivers a stable matching or fails, and it fails exactly if the
gang cannot be placed.  Neither the order of the members nor that of the nodes matters. -/
theorem nativeAssignments_stable :
    (∀ assignments, nativeAssignments pods nodes snapshot = .ok assignments →
      Stable pods nodes.toFinset snapshot assignments) ∧
    ((∃ err, nativeAssignments pods nodes snapshot = .error err) ↔ Infeasible pods nodes.toFinset snapshot) ∧
    ∀ pods' nodes', pods'.Perm pods → nodes'.toFinset = nodes.toFinset →
      (nativeAssignments pods' nodes' snapshot).toOption = (nativeAssignments pods nodes snapshot).toOption := by
  refine ⟨fun assignments => stable_of_run distinct, fails_iff distinct, fun pods' nodes' perm same => ?_⟩
  have distinct' : (pods'.map objectKey).Nodup := (perm.map _).nodup_iff.mpr distinct
  have both : (∃ err, nativeAssignments pods' nodes' snapshot = .error err) ↔
      ∃ err, nativeAssignments pods nodes snapshot = .error err := by
    rw [fails_iff distinct, fails_iff distinct', same]
    exact ⟨Infeasible.perm perm, Infeasible.perm perm.symm⟩
  cases run : nativeAssignments pods nodes snapshot with
  | error err =>
    obtain ⟨err', run'⟩ := both.mpr ⟨err, run⟩
    rw [run']
    rfl
  | ok assignments =>
    cases run' : nativeAssignments pods' nodes' snapshot with
    | error err' =>
      obtain ⟨err, failed⟩ := both.mp ⟨err', run'⟩
      rw [run] at failed
      cases failed
    | ok assignments' => rw [run_unique distinct perm same run run']

end

/- Of three members, one is bound to n2 and one is assumed on n3. -/

private def member (name : Segment) (node : String) : Pod :=
  { Pod.waiting (.of "ns" (.refl true)) name (.of "u" (.refl true)) "slurm-bridge" with nodeName := node }

private def gang : List Pod :=
  [member (.of "c" (.refl true)) "", member (.of "b" (.refl true)) "n2", member (.of "a" (.refl true)) ""]

private def gangSnapshot : Snapshot where
  infos := ⟨[⟨"n1", []⟩, ⟨"n2", []⟩, ⟨"n3", [member (.of "c" (.refl true)) "n3"]⟩],
    by simp [List.NodupKeys, List.keys]⟩
  named := by decide
  own := by
    intro node pods found
    obtain ⟨rfl, rfl⟩ | ⟨rfl, rfl⟩ | ⟨rfl, rfl⟩ := by simpa using AList.mem_lookup_iff.mp found
    all_goals decide
  once := by
    intro node pods node' pods' found found'
    obtain ⟨rfl, rfl⟩ | ⟨rfl, rfl⟩ | ⟨rfl, rfl⟩ := by simpa using AList.mem_lookup_iff.mp found
    all_goals
      obtain ⟨rfl, rfl⟩ | ⟨rfl, rfl⟩ | ⟨rfl, rfl⟩ := by simpa using AList.mem_lookup_iff.mp found'
      all_goals decide

/-- The third member gets the node that is left. -/
theorem gang_placed : (gang.map objectKey).Nodup ∧
    ((nativeAssignments gang ["n1", "n2", "n3"] gangSnapshot).toOption.bind
      fun assignments => assignments.lookup (toLex ("ns", "a"))) = some "n1" ∧
    ∀ assignments, nativeAssignments gang ["n1", "n2", "n3"] gangSnapshot = .ok assignments →
      Stable gang ["n1", "n2", "n3"].toFinset gangSnapshot assignments :=
  ⟨by decide, by decide +kernel, (nativeAssignments_stable (by decide)).1⟩

end SlurmBridge.Scheduler.NativeState
