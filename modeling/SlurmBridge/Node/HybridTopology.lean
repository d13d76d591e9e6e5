/- source: internal/controller/node/slurmcontrol/slurmcontrol.go, hybrid_cpu.go
   digest: The bridge changes the recorded topology of a hybrid node only while no job uses the
     node, never takes over a foreign Extra value, and admits bridge jobs only after validation. -/

import SlurmBridge.Node.SlurmControl

set_option autoImplicit false

namespace SlurmBridge.Node.HybridTopology

open Foundation.Checked Foundation.Interaction Dra.IndexedGRES Inventory.Topology
open Inventory.Fingerprint Node.Configuration Node.SlurmControl
open Registration.Interface (SlurmError)
open Inventory.Allocation (twoSockets)
open List Option

def fingerprintIn (extra : Extra) : String := (storedFingerprint extra).toOption.getD ""

/-- A call that reconciles a node with its inventories. -/
inductive HybridCall
  | updateHybridNode (node : KubeNode) (info : Option NodeInfo) (draInventory : List GRESInventory)
  | addNode (node : KubeNode) (info : Option NodeInfo) (draInventory : List GRESInventory)

def HybridCall.info : HybridCall → Option NodeInfo
  | .updateHybridNode _ info _ | .addNode _ info _ => info

def HybridCall.draInventory : HybridCall → List GRESInventory
  | .updateHybridNode _ _ draInventory | .addNode _ _ draInventory => draInventory

def HybridCall.code (digest : Canonical → String) : HybridCall → Action Unit
  | .updateHybridNode node info draInventory =>
    SlurmControl.updateHybridNode digest node info draInventory
  | .addNode node info draInventory => SlurmControl.addNode digest node info draInventory

/-- What may be written into the Extra field of a node that was read. -/
structure ExtraWritable (read : SlurmNode) (written : Extra) : Prop where
  free : ¬inUse read.extra
  idle : fingerprintIn written ≠ fingerprintIn read.extra →
    .idle ∈ read.state ∧ read.isBusy = false ∧ read.allocCpus = 0 ∧
      (fingerprintIn read.extra ≠ "" → read.isDrain = true)
  kept : fingerprintIn read.extra ≠ "" → fingerprintIn written ≠ ""

/-- The node was found able to represent the inventories, and `extra` is the value for them. -/
structure Validated (digest : Canonical → String) (call : HybridCall) (read : SlurmNode)
    (extra : Extra) : Prop where
  gres : ∃ config, buildNodeGRESConfig call.draInventory call.info = .ok config ∧
    validateHybridNodeGRES read.name read.gres config = .ok () ∧
    hybridNodeExtra digest read call.info config.extra = .ok extra
  geometry : ∃ sockets cores threads, geometryOf call.info = .ok (sockets, cores, threads) ∧
    (sockets = 0 ∨ read.sockets = sockets ∧ read.cores = cores ∧ read.threads = threads ∧
      read.cpus = sockets * cores * threads)

/-- How the value for the inventories got stored: it was there, or it was written.  An empty
value leaves a foreign one in place, and a node that is gone stores nothing. -/
inductive Stored (read : SlurmNode) (before : Trace surroundings) (extra : Extra) : Prop
  | present (same : read.extra = extra)
  | foreign (empty : extra = .empty) (foreign : read.extra.isOwned = false)
  | written (event : ⟨.updateNode read.name { extra := some extra }, .ok ()⟩ ∈ before)
  | gone (event : ⟨.updateNode read.name { extra := some extra }, .error .notFound⟩ ∈ before)

/-- What the call may write after it read a hybrid node. -/
structure Lawful (digest : Canonical → String) (call : HybridCall) (read : SlurmNode)
    (before : Trace surroundings) (msg : UpdateNodeMsg) : Prop where
  extra : ∀ written, msg.extra = some written → ExtraWritable read written
  active : ∀ features, msg.featuresAct = some features → slurmFeatureGRESCompatible ∈ features →
    ∃ extra, Validated digest call read extra ∧ Stored read before extra

def LiveRead (read : SlurmNode) (h : Trace surroundings) : Prop :=
  ∃ name, ⟨.getNode .live name, .ok read⟩ ∈ h

def guard (digest : Canonical → String) (call : HybridCall) (h : Trace surroundings) : Command → Prop
  | .updateNode _ msg => ∀ read, LiveRead read h → read.isExternal = false → Lawful digest call read h msg
  | _ => True

section
variable {digest : Canonical → String} {info : Option NodeInfo} {read : SlurmNode}
  {extra extra' : Extra}

variable {fingerprint : String}

theorem fingerprintIn_of_stored (stored : storedFingerprint extra = .ok fingerprint) :
    fingerprintIn extra = fingerprint := by
  rw [fingerprintIn, stored]
  rfl

theorem cpuInventory_of_geometry {sockets cores threads : Nat}
    (geometry : geometryOf info = .ok (sockets, cores, threads)) (some : sockets ≠ 0) :
    cpuInventory info ≠ [] := by
  cases info with
  | none => exact absurd (congrArg Prod.fst (pure_eq_ok.mp geometry)).symm some
  | some n =>
    intro none
    have devices : n.cpuDevices = [] := none
    simp only [geometryOf, NodeInfo.geometry] at geometry
    split at geometry
    · exact some (congrArg Prod.fst (pure_eq_ok.mp geometry)).symm
    · obtain ⟨_, -, rest⟩ := bind_eq_ok.mp geometry
      obtain ⟨_, -, rest⟩ := bind_eq_ok.mp rest
      obtain ⟨_, groups, same⟩ := bind_eq_ok.mp rest
      have number := congrArg Prod.fst (pure_eq_ok.mp same)
      have equal := require_eq_ok.mp groups
      simp only [devices, map_nil, dedup_nil, length_nil] at equal
      exact some (number.symm.trans equal)

theorem cpuFingerprint_ne_empty {n : NodeInfo} (computed : cpuFingerprint digest n = .ok fingerprint) :
    fingerprint ≠ "" := by
  obtain ⟨_, -, rest⟩ := bind_eq_ok.mp computed
  obtain ⟨_, -, rest⟩ := bind_eq_ok.mp rest
  obtain ⟨devices, -, same⟩ := bind_eq_ok.mp rest
  rw [← pure_eq_ok.mp same]
  intro empty
  have chars := congrArg String.toList empty
  simp at chars

theorem fingerprintIn_encodeApplied (some : cpuInventory info ≠ [])
    (encoded : encodeApplied digest info extra = .ok extra') :
    ∃ n ∈ info, cpuFingerprint digest n = .ok (fingerprintIn extra') := by
  cases info with
  | none => simp [cpuInventory] at some
  | some n =>
    have devices : n.cpuDevices ≠ [] := by simpa [cpuInventory] using some
    rw [encodeApplied, if_neg devices] at encoded
    obtain ⟨fingerprint, computed, recorded⟩ := bind_eq_ok.mp encoded
    obtain ⟨owned, applied⟩ := appliedCPUFingerprint_withApplied recorded
    refine ⟨n, rfl, ?_⟩
    rw [computed, fingerprintIn_of_stored (by rw [storedFingerprint, if_pos owned, applied])]

theorem extraWritable {draInventory : List GRESInventory} {config : NodeGRESConfig}
    (built : buildNodeGRESConfig draInventory info = .ok config)
    (computed : hybridNodeExtra digest read info config.extra = .ok extra)
    (free : ¬inUse read.extra) : ExtraWritable read extra := by
  obtain ⟨applied, sockets, cores, threads, stored, geometry, -, form⟩ := hybridNodeExtra_ok computed
  have appliedIn := fingerprintIn_of_stored stored
  rcases form with ⟨-, rfl, rfl⟩ | ⟨some, topology⟩
  · -- Without CPUs neither the stored value nor the new one has a fingerprint.
    have none : fingerprintIn config.extra = "" := by
      rcases config_extra built with ⟨-, empty⟩ | ⟨-, -, noFingerprint⟩
      · rw [empty]
        rfl
      · exact fingerprintIn_of_stored noFingerprint
    exact ⟨free, fun changed => absurd (none.trans appliedIn.symm) changed, fun lost => absurd appliedIn lost⟩
  · obtain ⟨n, present, fingerprint⟩ :=
      fingerprintIn_encodeApplied (cpuInventory_of_geometry geometry some) topology.encoded
    have new := cpuFingerprint_ne_empty fingerprint
    refine ⟨free, fun changed => ?_, fun _ => new⟩
    rcases topology.unchanged with same | allowed
    · -- The stored fingerprint is the one of the topology.
      obtain ⟨applied', read', rest⟩ := bind_eq_ok.mp same
      obtain ⟨n', present', rest⟩ := bind_eq_ok.mp rest
      obtain ⟨fingerprint', computed', equal⟩ := bind_eq_ok.mp rest
      obtain rfl : n' = n := Option.some.inj ((present_eq_ok.mp present').symm.trans present)
      obtain rfl := Except.ok.inj (fingerprint.symm.trans computed')
      have owned : read.extra.isOwned = true := by
        cases extra : read.extra with
        | foreign text => rw [extra] at read'; cases read'
        | applied wire spelling => rfl
        | malformed data => rfl
      have storedIn : fingerprintIn read.extra = applied' :=
        fingerprintIn_of_stored (by rw [storedFingerprint, if_pos owned, read'])
      exact absurd (storedIn.trans (require_eq_ok.mp equal)).symm changed
    · obtain ⟨_, idle, drained⟩ := bind_eq_ok.mp allowed
      obtain ⟨isIdle, notBusy, noCpus⟩ := require_eq_ok.mp idle
      refine ⟨isIdle, notBusy, noCpus, fun applied' => ?_⟩
      rcases require_eq_ok.mp drained with none | isDrain
      · exact absurd (appliedIn.trans none) applied'
      · exact isDrain

end

section
variable {digest : Canonical → String} {call : HybridCall} {slurmNode : SlurmNode}
  {h : Trace surroundings}

/-- The live reads of a history all showed the same node. -/
def ReadOnly (slurmNode : SlurmNode) (h : Trace surroundings) : Prop :=
  ∀ read, LiveRead read h → read = slurmNode

variable {t : Trace surroundings}

theorem liveRead_append {read : SlurmNode} (writes : ∀ e ∈ t, ∀ name, e.1 ≠ .getNode .live name)
    (seen : LiveRead read (h ++ t)) : LiveRead read h := by
  obtain ⟨name, member⟩ := seen
  rcases mem_append.mp member with old | new
  · exact ⟨name, old⟩
  · exact absurd rfl (writes _ new name)

theorem ReadOnly.append (one : ReadOnly slurmNode h) (writes : ∀ e ∈ t, ∀ name, e.1 ≠ .getNode .live name) :
    ReadOnly slurmNode (h ++ t) :=
  fun read seen => one read (liveRead_append writes seen)

variable {extra : Extra}

theorem Stored.append (stored : Stored slurmNode h extra) : Stored slurmNode (h ++ t) extra := by
  cases stored with
  | present same => exact .present same
  | foreign empty foreign => exact .foreign empty foreign
  | written event => exact .written (mem_append_left _ event)
  | gone event => exact .gone (mem_append_left _ event)

theorem revoke_lawful : Only (fun c => ∀ h, guard digest call h c)
    (updateGRESCompatibilityFeature slurmNode false).run := by
  refine only_updateGRESCompatibilityFeature ?_ ?_
  · intro features h read _ _
    exact ⟨(fun _ same => nomatch same), (fun _ same => nomatch same)⟩
  · intro h read _ _
    refine ⟨(fun _ same => nomatch same), fun features same inside => ?_⟩
    obtain rfl := some.inj same
    simp [updateFeatureList] at inside

variable {config : NodeGRESConfig}

theorem wp_updateNodeExtra (built : buildNodeGRESConfig call.draInventory call.info = .ok config)
    (computed : hybridNodeExtra digest slurmNode call.info config.extra = .ok extra)
    (one : ReadOnly slurmNode h) :
    wp (guard digest call) (updateNodeExtra slurmNode extra).run h
      (onOk fun h' _ => ReadOnly slurmNode h' ∧ Stored slurmNode h' extra) := by
  unfold updateNodeExtra
  split
  · rename_i unchanged
    rintro _ -
    rcases unchanged with same | ⟨empty, foreign⟩
    · exact ⟨one, .present same⟩
    · exact ⟨one, .foreign empty foreign⟩
  · split
    · exact fun _ same => nomatch same
    · rename_i free
      refine wp_updateIfPresent ?_ ?_
      · intro read seen _
        obtain rfl := one read seen
        refine ⟨fun written same => ?_, fun _ same => nomatch same⟩
        obtain rfl := some.inj same
        exact extraWritable built computed free
      · intro r answered
        refine ⟨one.append (by simp), ?_⟩
        rcases answered with rfl | rfl
        · exact .written (by simp)
        · exact .gone (by simp)

theorem wp_activate (valid : Validated digest call slurmNode extra) (one : ReadOnly slurmNode h)
    (stored : Stored slurmNode h extra) :
    wp (guard digest call) (updateGRESCompatibilityFeature slurmNode true).run h (onOk fun _ _ => True) := by
  unfold updateGRESCompatibilityFeature
  refine wp_run_seq (fun h' _ => ReadOnly slurmNode h' ∧ Stored slurmNode h' extra)
    (wp_updateFeatures ?_ ⟨one, stored⟩ fun r => ⟨one.append (by simp), stored.append⟩) ?_
  · intro read _ _
    exact ⟨(fun _ same => nomatch same), (fun _ same => nomatch same)⟩
  · rintro t - ⟨one', stored'⟩
    refine wp_updateFeatures ?_ trivial fun _ => trivial
    intro read seen _
    obtain rfl := one' read seen
    exact ⟨(fun _ same => nomatch same), fun _ _ _ => ⟨extra, valid, stored'⟩⟩

theorem wp_reconcileHybridNode (call : HybridCall)
    (built : buildNodeGRESConfig call.draInventory call.info = .ok config) (one : ReadOnly slurmNode h) :
    wp (guard digest call)
      (reconcileHybridNode digest slurmNode call.info config).run h (onOk fun _ _ => True) := by
  refine wp_run_seq (fun h' _ => ReadOnly slurmNode h' ∧
      validateHybridNodeGRES slurmNode.name slurmNode.gres config = .ok ())
    (wp_orRevoke revoke_lawful fun _ same => ⟨one, mapError_eq_ok.mp same⟩) ?_
  rintro t₁ - ⟨one₁, valid⟩
  refine wp_run_seq (fun h' extra => ReadOnly slurmNode h' ∧
      hybridNodeExtra digest slurmNode call.info config.extra = .ok extra)
    (wp_orRevoke revoke_lawful fun _ same => ⟨one₁, mapError_eq_ok.mp same⟩) ?_
  rintro t₂ extra ⟨one₂, computed⟩
  refine wp_run_seq _ (wp_orRevoke revoke_lawful (wp_updateNodeExtra built computed one₂)) ?_
  rintro t₃ - ⟨one₃, stored⟩
  refine wp_activate ⟨⟨config, built, valid, computed⟩, ?_⟩ one₃ stored
  obtain ⟨_, sockets, cores, threads, -, geometry, -, form⟩ := hybridNodeExtra_ok computed
  refine ⟨sockets, cores, threads, geometry, ?_⟩
  rcases form with ⟨none, -, -⟩ | ⟨-, topology⟩
  · exact .inl none
  · exact .inr topology.geometry

theorem wp_other {α : Type} {x : Action α} (only : Only (I := surroundings)
      (fun c => ∀ mode name, c ≠ .getNode mode name) x.run)
    (other : ∀ read, LiveRead read h → read.isExternal = true) :
    wp (guard digest call) x.run h (onOk fun _ _ => True) := by
  refine wp_of_only_along only (fun t c writes _ => ?_) fun _ _ _ _ _ _ => trivial
  cases c with
  | updateNode name msg =>
    intro read seen hybrid
    have external := other read (liveRead_append (fun e member name => writes e member .live name) seen)
    simp [hybrid] at external
  | _ => trivial

theorem wp_afterRead (call : HybridCall) {name : String} (next : NodeGRESConfig → Option SlurmNode → Action Unit)
    (rest : ∀ config found h, buildNodeGRESConfig call.draInventory call.info = .ok config →
      (∀ read, LiveRead read h → found = some read) →
      wp (guard digest call) (next config found).run h (onOk fun _ _ => True)) :
    wp (guard digest call) (do
      let config ← checking .text (buildNodeGRESConfig call.draInventory call.info)
      let found ← findNode .live name
      next config found : Action Unit).run [] (onOk fun _ _ => True) := by
  refine wp_run_seq (fun h config => h = [] ∧ buildNodeGRESConfig call.draInventory call.info = .ok config)
    (fun _ same => ⟨rfl, mapError_eq_ok.mp same⟩) ?_
  rintro t config ⟨start, built⟩
  rw [start]
  refine wp_run_seq (fun h found => ∀ read, LiveRead read h → found = some read)
    (wp_findNode trivial fun r found same read seen => ?_) fun t found seen => rest config found _ built seen
  obtain ⟨name', member⟩ := seen
  obtain ⟨-, answered⟩ : name' = name ∧ .ok read = r := by simpa using member
  subst answered
  exact (Except.ok.inj same).symm

theorem wp_call (call : HybridCall) :
    wp (I := surroundings) (guard digest call) (call.code digest).run [] (onOk fun _ _ => True) := by
  cases call with
  | updateHybridNode node info draInventory =>
    refine wp_afterRead (.updateHybridNode node info draInventory) _ fun config found h built seen => ?_
    cases found with
    | none => exact fun _ _ => trivial
    | some slurmNode =>
      simp only
      split
      · exact fun _ _ => trivial
      · exact wp_reconcileHybridNode (.updateHybridNode node info draInventory) built
          fun read live => (some.inj (seen read live)).symm
  | addNode node info draInventory =>
    refine wp_afterRead (.addNode node info draInventory) _ fun config found h built seen => ?_
    cases found with
    | none =>
      exact wp_other (only_createNewNode (by simp) (by simp) (by simp) digest info config)
        fun read live => nomatch seen read live
    | some slurmNode =>
      have one : ReadOnly slurmNode h := fun read live => (some.inj (seen read live)).symm
      by_cases external : slurmNode.isExternal = false
      · simp only [updateExistingNode, if_pos external]
        exact wp_reconcileHybridNode (.addNode node info draInventory) built one
      · refine wp_other (only_updateExistingNode (by simp) (by simp) digest node slurmNode info config)
          fun read live => ?_
        rw [one read live]
        simpa using external

end

def reporting (slurmNode : SlurmNode) : (c : Command) → c.Reply
  | .getNode _ _ => .ok slurmNode
  | .updateNode _ _ | .createNode _ | .deleteNode _ | .getPartition _ => .ok ()
  | .readNode _ => .error .notFound
  | .nodesBySlurmName _ => .ok []
  | .patchTaints _ _ | .patchConditions _ _ => .ok ()
  | .resourceSlices _ => .ok []
  | .nodeInventory _ _ => .ok ⟨[], nodup_nil⟩
  | .push _ _ => ()
  | .pop _ => 0

def idleNode : SlurmNode :=
  { name := "node", state := [.idle], sockets := 2, cores := 1, threads := 2, cpus := 4 }

def isUpdate (property : UpdateNodeMsg → Bool) : Event surroundings → Bool
  | ⟨.updateNode _ msg, _⟩ => property msg
  | _ => false

theorem exists_update {property : UpdateNodeMsg → Bool} {t : Trace surroundings}
    (some : t.any (isUpdate property) = true) :
    ∃ before name msg reply rest, t = before ++ ⟨.updateNode name msg, reply⟩ :: rest ∧
      property msg = true := by
  obtain ⟨⟨c, reply⟩, member, holds⟩ := any_eq_true.mp some
  obtain ⟨before, rest, split⟩ := append_of_mem member
  cases c with
  | updateNode name msg => exact ⟨before, name, msg, reply, rest, split, holds⟩
  | _ => simp [isUpdate] at holds

def annotatedNode : SlurmNode := { name := "node", state := [.idle], extra := .foreign "rack 7" }

end SlurmBridge.Node.HybridTopology
