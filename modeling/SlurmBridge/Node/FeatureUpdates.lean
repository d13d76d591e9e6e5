/- source: internal/controller/node/slurmcontrol/slurmcontrol.go
   digest: The compatibility feature of a Slurm node stays consistent wherever its two updates fail. -/

import SlurmBridge.Node.Writes
import SlurmBridge.Foundation.Sorting

set_option autoImplicit false

namespace SlurmBridge.Node.FeatureUpdates

open Foundation.Interaction Foundation.Sorting Node.Configuration Node.SlurmControl Node.Writes
open Registration.Interface (SlurmError)

/-- What the updates of a run made of a node.  An update that failed may have been applied. -/
inductive Applied : Trace surroundings → SlurmNode → SlurmNode → Prop
  | nil {node} : Applied [] node node
  | update {node node' name msg t} {reply : Except SlurmError Unit} (named : node.name = name) (done : Bool)
      (told : reply = .ok () → done = true) (rest : Applied t ((if done then applyUpdate msg else id) node) node') :
      Applied (⟨.updateNode name msg, reply⟩ :: t) node node'

section
variable {l : List String} {feature : String} {present : Bool}

theorem featuresEqual_iff {l' : List String} : featuresEqual l l' = true ↔ l.Perm l' := by
  rw [featuresEqual, decide_eq_true_iff, insertionSort_eq_iff]

theorem mem_updateFeatureList : feature ∈ updateFeatureList l feature present ↔ present = true := by
  cases present <;> simp [updateFeatureList]

theorem filter_updateFeatureList :
    (updateFeatureList l feature present).filter (· ≠ feature) = l.filter (· ≠ feature) := by
  cases present <;> simp [updateFeatureList]

/-- A list that an update leaves as it is, up to order. -/
def Settled (feature : String) (present : Bool) (l : List String) : Prop :=
  featuresEqual l (updateFeatureList l feature present) = true

theorem settled_updateFeatureList : Settled feature present (updateFeatureList l feature present) := by
  have again : updateFeatureList (updateFeatureList l feature present) feature present =
      updateFeatureList l feature present := by
    cases present <;> simp [updateFeatureList]
  exact featuresEqual_iff.mpr (.of_eq again.symm)

theorem Settled.mem_iff (settled : Settled feature present l) : feature ∈ l ↔ present = true :=
  (featuresEqual_iff.mp settled).mem_iff.trans mem_updateFeatureList

def edited (feature : String) (present done : Bool) (l : List String) : List String :=
  if done then updateFeatureList l feature present else l

variable {done : Bool}

theorem filter_edited : (edited feature present done l).filter (· ≠ feature) = l.filter (· ≠ feature) := by
  cases done with
  | false => rfl
  | true => exact filter_updateFeatureList

theorem settled_edited (changed : (!featuresEqual l (updateFeatureList l feature present)) = done) :
    Settled feature present (edited feature present done l) := by
  cases done with
  | false => simpa [Settled, edited] using changed
  | true => exact settled_updateFeatureList

theorem mem_edited_true (inside : feature ∈ l) : feature ∈ edited feature true done l := by
  cases done with
  | false => exact inside
  | true => exact mem_updateFeatureList.mpr rfl

theorem mem_of_mem_edited_false (inside : feature ∈ edited feature false done l) : done = false ∧ feature ∈ l := by
  cases done with
  | false => exact ⟨rfl, inside⟩
  | true => cases mem_updateFeatureList.mp inside

end

section
variable {node node' : SlurmNode} {t : Trace surroundings} {rest : Ctl (Except Failure Unit)}
  {changed₁ changed₂ : Bool} {msg₁ msg₂ : UpdateNodeMsg} {message₁ message₂ : String}

private theorem applied_first {name : String} {next : Except SlurmError Unit → Ctl (Except Failure Unit)}
    (run : Reaches (.step (I := surroundings) (.updateNode name msg₁) next) t rest) (applied : Applied t node node') :
    (node' = node ∧ rest ≠ .ret (.ok ())) ∨ ∃ (reply : Except _ _) (t' : Trace surroundings) (done : Bool),
      (reply = .ok () → done = true) ∧ Reaches (next reply) t' rest ∧
        Applied t' ((if done then applyUpdate msg₁ else id) node) node' := by
  cases run with
  | here =>
    cases applied
    exact .inl ⟨rfl, nofun⟩
  | step _ _ reply t' _ run =>
    cases applied with
    | update named done told later => exact .inr ⟨reply, t', done, told, run, later⟩

theorem applied_updates (run : Reaches (do
      updateFeatures node changed₁ msg₁ message₁
      updateFeatures node changed₂ msg₂ message₂ : Action Unit).run t rest) (applied : Applied t node node') :
    ∃ done₁ done₂ : Bool, node' = (if done₂ then applyUpdate msg₂ else id) ((if done₁ then applyUpdate msg₁ else id) node) ∧
      (done₂ = true → changed₁ = done₁) ∧ (rest = .ret (.ok ()) → changed₁ = done₁ ∧ changed₂ = done₂) := by
  -- What follows the first update, from the node that it left.
  have second : ∀ (node₁ : SlurmNode) (t : Trace surroundings),
      Reaches (updateFeatures node changed₂ msg₂ message₂).run t rest → Applied t node₁ node' →
      ∃ done₂ : Bool, node' = (if done₂ then applyUpdate msg₂ else id) node₁ ∧
        (rest = .ret (.ok ()) → changed₂ = done₂) := by
    intro node₁ t run applied
    cases changed₂ with
    | false =>
      cases run
      cases applied
      exact ⟨false, rfl, fun _ => rfl⟩
    | true =>
      rcases applied_first run applied with ⟨rfl, unfinished⟩ | ⟨reply, t', done, told, run, applied⟩
      · exact ⟨false, rfl, fun ended => absurd ended unfinished⟩
      · cases run
        cases applied
        refine ⟨done, rfl, fun ended => ?_⟩
        cases reply with
        | ok => exact (told rfl).symm
        | error err => cases ended
  cases changed₁ with
  | false =>
    obtain ⟨done₂, same, ends⟩ := second node t run applied
    exact ⟨false, done₂, same, fun _ => rfl, fun ended => ⟨rfl, ends ended⟩⟩
  | true =>
    rcases applied_first run applied with ⟨rfl, unfinished⟩ | ⟨reply, t', done, told, run, applied⟩
    · exact ⟨false, false, rfl, nofun, fun ended => absurd ended unfinished⟩
    · cases reply with
      | error err =>
        cases run
        cases applied
        exact ⟨done, false, rfl, nofun, nofun⟩
      | ok =>
        cases told rfl
        obtain ⟨done₂, same, ends⟩ := second (applyUpdate msg₁ node) t' run applied
        exact ⟨true, done₂, same, fun _ => rfl, fun ended => ⟨rfl, ends ended⟩⟩

private theorem nothing_to_do {compatible : Bool}
    (available : Settled slurmFeatureGRESCompatible compatible node.features)
    (active : Settled slurmFeatureGRESCompatible compatible node.activeFeatures) :
    (updateGRESCompatibilityFeature node compatible).run = .ret (.ok ()) := by
  unfold Settled at available active
  simp only [updateGRESCompatibilityFeature, available, active]
  cases compatible <;> rfl

/-- Wherever a run stops, the feature is active only if it is available, and the other features are as they
were.  A run that ends well leaves nothing to do. -/
theorem updateGRESCompatibilityFeature_consistent {compatible : Bool}
    (consistent : slurmFeatureGRESCompatible ∈ node.activeFeatures → slurmFeatureGRESCompatible ∈ node.features)
    (run : Reaches (updateGRESCompatibilityFeature node compatible).run t rest) (applied : Applied t node node') :
    (slurmFeatureGRESCompatible ∈ node'.activeFeatures → slurmFeatureGRESCompatible ∈ node'.features) ∧
    node'.features.filter (· ≠ slurmFeatureGRESCompatible) = node.features.filter (· ≠ slurmFeatureGRESCompatible) ∧
    node'.activeFeatures.filter (· ≠ slurmFeatureGRESCompatible) =
      node.activeFeatures.filter (· ≠ slurmFeatureGRESCompatible) ∧
    (rest = .ret (.ok ()) →
      (slurmFeatureGRESCompatible ∈ node'.features ↔ compatible = true) ∧
      (slurmFeatureGRESCompatible ∈ node'.activeFeatures ↔ compatible = true) ∧
      (updateGRESCompatibilityFeature node' compatible).run = .ret (.ok ())) := by
  obtain ⟨available, active, lists, consistent', ends⟩ : ∃ available active : Bool,
      (node'.features = edited slurmFeatureGRESCompatible compatible available node.features ∧
        node'.activeFeatures = edited slurmFeatureGRESCompatible compatible active node.activeFeatures) ∧
      (slurmFeatureGRESCompatible ∈ node'.activeFeatures → slurmFeatureGRESCompatible ∈ node'.features) ∧
      (rest = .ret (.ok ()) → Settled slurmFeatureGRESCompatible compatible node'.features ∧
        Settled slurmFeatureGRESCompatible compatible node'.activeFeatures) := by
    cases compatible with
    | true =>
      -- The feature becomes available before it becomes active.
      obtain ⟨available, active, same, ordered, ends⟩ := applied_updates run applied
      have lists : node'.features = edited slurmFeatureGRESCompatible true available node.features ∧
          node'.activeFeatures = edited slurmFeatureGRESCompatible true active node.activeFeatures := by
        subst same
        cases available <;> cases active <;> exact ⟨rfl, rfl⟩
      refine ⟨available, active, lists, ?_, ?_⟩
      · rw [lists.1, lists.2]
        cases active with
        | false => exact fun inside => mem_edited_true (consistent inside)
        | true => exact fun _ => (settled_edited (ordered rfl)).mem_iff.mpr rfl
      · intro ended
        rw [lists.1, lists.2]
        exact ⟨settled_edited (ends ended).1, settled_edited (ends ended).2⟩
    | false =>
      obtain ⟨active, available, same, ordered, ends⟩ := applied_updates run applied
      have lists : node'.features = edited slurmFeatureGRESCompatible false available node.features ∧
          node'.activeFeatures = edited slurmFeatureGRESCompatible false active node.activeFeatures := by
        subst same
        cases available <;> cases active <;> exact ⟨rfl, rfl⟩
      refine ⟨available, active, lists, ?_, ?_⟩
      · rw [lists.1, lists.2]
        intro inside
        cases available with
        | false => exact consistent (mem_of_mem_edited_false inside).2
        | true => cases (settled_edited (ordered rfl)).mem_iff.mp inside
      · intro ended
        rw [lists.1, lists.2]
        exact ⟨settled_edited (ends ended).2, settled_edited (ends ended).1⟩
  refine ⟨consistent', lists.1 ▸ filter_edited, lists.2 ▸ filter_edited, fun ended => ?_⟩
  obtain ⟨settled, settled'⟩ := ends ended
  exact ⟨settled.mem_iff, settled'.mem_iff, nothing_to_do settled settled'⟩

/-- The second of two updates fails and is applied all the same. -/
theorem updateGRESCompatibilityFeature_unsure :
    let node : SlurmNode := { name := "node", features := ["gpu"], activeFeatures := ["gpu"] }
    let lists := ["gpu", slurmFeatureGRESCompatible]
    let t : Trace surroundings := [⟨.updateNode "node" { features := some lists }, .ok ()⟩,
      ⟨.updateNode "node" { featuresAct := some lists }, .error .notFound⟩]
    ∃ rest, Reaches (updateGRESCompatibilityFeature node true).run t rest ∧
      Applied t node { node with features := lists, activeFeatures := lists } ∧
      (slurmFeatureGRESCompatible ∈ lists → slurmFeatureGRESCompatible ∈ lists) := by
  intro node lists t
  have run : ∃ rest, Reaches (updateGRESCompatibilityFeature node true).run t rest := by
    exact ⟨_, .step _ _ _ _ _ (.step _ _ _ _ _ (.here _))⟩
  obtain ⟨rest, run⟩ := run
  have applied : Applied t node { node with features := lists, activeFeatures := lists } :=
    .update rfl true (fun _ => rfl) (.update rfl true (fun _ => rfl) .nil)
  exact ⟨rest, run, applied, (updateGRESCompatibilityFeature_consistent (by decide) run applied).1⟩

end

end SlurmBridge.Node.FeatureUpdates
