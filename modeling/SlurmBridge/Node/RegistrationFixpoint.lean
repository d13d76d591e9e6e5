/- source: internal/controller/node/slurmcontrol/slurmcontrol.go, internal/nodeinfo/fingerprint.go
   digest: A node that was registered and is reported as submitted needs no recreation; one
     whose inventory was not recorded does. -/

import SlurmBridge.Node.GRESText
import SlurmBridge.Node.HybridIndexes
import SlurmBridge.Node.SlurmControl

set_option autoImplicit false

namespace SlurmBridge.Node.RegistrationFixpoint

open Foundation.Checked Foundation.Interaction Foundation.Text Dra.IndexedGRES Inventory.Topology
open Inventory.Fingerprint Node.Configuration Node.GRESText Node.SlurmControl
open Inventory.Allocation (twoSockets)
open Node.HybridIndexes (twoTypes)
open List

def BuiltTopology (info : Option NodeInfo) : Prop :=
  ∀ n ∈ info, ∃ nodeName slices, newNodeInfoFromResourceSlices nodeName slices = .ok n

/-- An entry of a GRES text with its socket suffix, if it has one. -/
structure Decorated where
  entry : String
  socket : Option String
  closed : ∀ text ∈ socket, ')' ∉ text.toList

def Decorated.text (d : Decorated) : String :=
  d.entry ++ (d.socket.elim "" fun text => "(" ++ text ++ ")")

/-- A reported GRES text: the submitted entries in some order, decorated. -/
def ReportsGRES (submitted reported : String) : Prop :=
  ∃ entries : List Decorated, (entries.map (·.entry)).Perm (split ',' submitted) ∧
    reported = ",".intercalate (entries.map (·.text))

/-- A node is reported as it was submitted, apart from its Extra field. -/
structure ReportsConf (conf : NodeConf) (reported : SlurmNode) : Prop where
  external : .external ∈ reported.state
  sockets : reported.sockets = conf.sockets
  cores : reported.cores = conf.coresPerSocket
  threads : reported.threads = conf.threadsPerCore
  cpus : reported.cpus = conf.cpus
  memory : reported.realMemory = conf.realMemory
  gres : ReportsGRES conf.gres reported.gres

def submittedConf (t : Trace surroundings) : Option NodeConf :=
  t.findSome? fun
    | ⟨.createNode conf, .ok ()⟩ => some conf
    | _ => none

def submittedExtra (t : Trace surroundings) : Extra :=
  (t.findSome? fun
    | ⟨.updateNode _ msg, .ok ()⟩ => msg.extra
    | _ => none).getD .empty

theorem trimSpace_eq {s : String} (plain : ∀ c ∈ s.toList, isSpace c = false) : trimSpace s = s := by
  have keep : ∀ l : List Char, (∀ c ∈ l, isSpace c = false) → l.dropWhile isSpace = l := by
    intro l plain
    cases l with
    | nil => rfl
    | cons c l => rw [dropWhile_cons_of_neg (by simp [plain c (by simp)])]
  rw [trimSpace, keep _ plain, keep _ (by simpa using plain)]
  simp

def PlainEntry (entry : String) : Prop :=
  ∀ c ∈ entry.toList, c ≠ ',' ∧ c ≠ '(' ∧ isSpace c = false

/-- A decorated entry is one of the ways to write the entry. -/
def Decorated.spelled (d : Decorated) (plain : PlainEntry d.entry) : Spelled where
  blanks := ""
  entry := d.entry
  suffixes := d.socket.toList
  blank := by simp
  plain := fun c inside => ⟨(plain c inside).1, (plain c inside).2.1⟩
  trimmed := trimSpace_eq fun c inside => (plain c inside).2.2
  closed := fun text inside => d.closed text (Option.mem_toList.mp inside)

private theorem Decorated.spelled_text {d : Decorated} (plain : PlainEntry d.entry) : (d.spelled plain).text = d.text := by
  obtain ⟨entry, socket, closed⟩ := d
  rw [← String.toList_inj]
  cases socket <;> simp [Decorated.spelled, Spelled.text, Decorated.text]

theorem gresEntries_decorated (entries : List Decorated) (some : entries ≠ [])
    (plain : ∀ d ∈ entries, PlainEntry d.entry) :
    gresEntries (",".intercalate (entries.map (·.text))) = entries.map (·.entry) := by
  let spelled := entries.attach.map fun d => d.1.spelled (plain d.1 d.2)
  have texts : spelled.map (·.text) = entries.map (·.text) := by
    rw [map_map]
    exact .trans (map_congr_left fun d _ => Decorated.spelled_text _) attach_map_val
  have found : spelled.map (·.entry) = entries.map (·.entry) := by
    rw [map_map]
    change entries.attach.map (fun d => d.1.entry) = _
    exact attach_map_val
  rw [← texts, ← found]
  exact gresEntries_rendered (by simpa [spelled] using some)

theorem gresEntries_plain {gres : String} (plain : ∀ entry ∈ split ',' gres, PlainEntry entry) :
    gresEntries gres = split ',' gres := by
  have some : split ',' gres ≠ [] := by simp [split]
  have joined : ",".intercalate (split ',' gres) = gres := intercalate_split ',' gres
  have rendered := gresEntries_decorated ((split ',' gres).map fun entry => ⟨entry, none, by simp⟩)
    (by simpa using some) (by simpa using plain)
  simpa [Function.comp_def, Decorated.text, joined] using rendered

theorem gresEqual_of_reports {submitted reported : String}
    (plain : ∀ entry ∈ split ',' submitted, PlainEntry entry)
    (reports : ReportsGRES submitted reported) : gresEqual submitted reported = true := by
  obtain ⟨entries, perm, rfl⟩ := reports
  have some : entries ≠ [] := by
    rintro rfl
    have none := perm.symm.eq_nil
    simp [split] at none
  have rendered := gresEntries_decorated _ some fun d member =>
    plain d.entry (perm.subset (mem_map_of_mem member))
  rw [gresEqual_iff, gresEntries_plain plain, rendered]
  exact perm.symm

theorem plain_gres {draInventory : List GRESInventory} {info : Option NodeInfo}
    {config : NodeGRESConfig} (built : buildNodeGRESConfig draInventory info = .ok config) :
    ∀ entry ∈ split ',' config.gres, PlainEntry entry := by
  obtain ⟨-, gres, -⟩ := buildNodeGRESConfig_ok built
  rw [gres]
  by_cases some : draInventory = []
  · subst some
    intro entry member c inside
    have empty : entry = "" := by simpa [split] using member
    simp [empty] at inside
  · rw [split_gres some]
    intro entry member
    obtain ⟨g, -, rfl⟩ := mem_map.mp member
    exact fun c inside => entry_plain g inside

section
variable {digest : Canonical → String} {draInventory : List GRESInventory} {info : Option NodeInfo}
  {config : NodeGRESConfig} {extra : Extra}

theorem hasCores_iff (built : BuiltTopology info) : hasCores info = true ↔ cpuInventory info ≠ [] := by
  cases info with
  | none => simp [hasCores, cpuInventory]
  | some n =>
    obtain ⟨nodeName, slices, new⟩ := built n rfl
    have cores := (newNodeInfoFromResourceSlices_ok new).cores_eq_nil_iff
    simp [hasCores, cpuInventory, ← cores]

theorem recorded_extra (built : buildNodeGRESConfig draInventory info = .ok config)
    (encoded : encodeApplied digest info config.extra = .ok extra) :
    draInventory = [] ∧ cpuInventory info = [] ∧ extra = .empty ∨
      (draInventory ≠ [] ∨ cpuInventory info ≠ []) ∧ extra.isOwned = true := by
  by_cases devices : cpuInventory info = []
  · rw [encodeApplied_eq devices] at encoded
    obtain rfl := Except.ok.inj encoded
    rcases config_extra built with ⟨none, empty⟩ | ⟨some, owned, -⟩
    · exact .inl ⟨none, devices, empty⟩
    · exact .inr ⟨.inl some, owned⟩
  · exact .inr ⟨.inr devices, encodeApplied_owned devices encoded⟩

theorem desiredNodeCPUConfig_fromDRA {node : KubeNode} {cpu : NodeCPUConfig}
    (computed : desiredNodeCPUConfig node info = .ok cpu) : cpu.fromDRA = hasCores info := by
  rw [desiredNodeCPUConfig] at computed
  split at computed
  · rename_i cores
    obtain ⟨geometry, -, same⟩ := bind_eq_ok.mp computed
    rw [← pure_eq_ok.mp same, cores]
  · rename_i cores
    rw [← pure_eq_ok.mp computed]
    simpa using cores

end

section
variable {digest : Canonical → String} {node : KubeNode} {draInventory : List GRESInventory}
  {info : Option NodeInfo} {config : NodeGRESConfig} {cpu : NodeCPUConfig} {extra : Extra}
  {reported : SlurmNode}

theorem configurationChanged_external (built : buildNodeGRESConfig draInventory info = .ok config)
    (computed : desiredNodeCPUConfig node info = .ok cpu)
    (encoded : encodeApplied digest info config.extra = .ok extra)
    (external : .external ∈ reported.state) (present : checkFallback cpu reported.extra = .ok ())
    (free : ¬(extra ≠ .empty ∧ inUse reported.extra)) :
    configurationChanged digest node info draInventory reported =
      .ok (cpuChanged cpu reported || decide (memoryMB node ≠ reported.realMemory) ||
        !gresEqual config.gres reported.gres || extraChanged extra reported.extra) := by
  have isExternal : ¬reported.isExternal = false := by simpa [SlurmNode.isExternal] using external
  refine bind_eq_ok.mpr ⟨config, mapError_eq_ok.mpr built, ?_⟩
  rw [if_neg isExternal]
  refine bind_eq_ok.mpr ⟨cpu, mapError_eq_ok.mpr computed, ?_⟩
  refine bind_eq_ok.mpr ⟨extra, mapError_eq_ok.mpr encoded, ?_⟩
  refine bind_eq_ok.mpr ⟨(), mapError_eq_ok.mpr present, ?_⟩
  exact bind_eq_ok.mpr ⟨(), require_eq_ok.mpr free, rfl⟩

theorem unchanged_of_reports (topology : BuiltTopology info)
    (built : buildNodeGRESConfig draInventory info = .ok config)
    (computed : desiredNodeCPUConfig node info = .ok cpu)
    (encoded : encodeApplied digest info config.extra = .ok extra) {features : List String}
    (reports : ReportsConf (nodeConfOf node cpu features config) reported)
    (recorded : reported.extra = extra) :
    configurationChanged digest node info draInventory reported = .ok false := by
  have fallback : checkFallback cpu reported.extra = .ok () := by
    rw [checkFallback, desiredNodeCPUConfig_fromDRA computed, recorded]
    split
    · rfl
    · rename_i noCores
      have devices : cpuInventory info = [] := by
        by_contra some
        exact noCores ((hasCores_iff topology).mpr some)
      rw [encodeApplied_eq devices] at encoded
      obtain rfl := Except.ok.inj encoded
      rcases config_extra built with ⟨-, empty⟩ | ⟨-, -, stored⟩
      · rw [empty]
        rfl
      · exact bind_eq_ok.mpr ⟨"", stored, require_eq_ok.mpr rfl⟩
  have free : ¬(extra ≠ .empty ∧ inUse reported.extra) := by
    rintro ⟨some, -, foreign⟩
    rw [recorded] at foreign
    rcases recorded_extra built encoded with ⟨-, -, empty⟩ | ⟨-, owned⟩
    · exact some empty
    · simp [owned] at foreign
  rw [configurationChanged_external built computed encoded reports.external fallback free]
  have same := gresEqual_of_reports (plain_gres built) reports.gres
  simp only [cpuChanged, extraChanged, reports.cpus, reports.sockets, reports.cores, reports.threads,
    reports.memory, recorded, nodeConfOf] at same ⊢
  simp [same]

theorem changed_of_unrecorded (built : buildNodeGRESConfig draInventory info = .ok config)
    (computed : desiredNodeCPUConfig node info = .ok cpu)
    (encoded : encodeApplied digest info config.extra = .ok extra)
    (external : .external ∈ reported.state) (unrecorded : reported.extra = .empty)
    (inventory : draInventory ≠ [] ∨ cpuInventory info ≠ []) :
    configurationChanged digest node info draInventory reported = .ok true := by
  have fallback : checkFallback cpu reported.extra = .ok () := by
    rw [checkFallback, unrecorded]
    split <;> rfl
  have some : extra ≠ .empty := by
    rcases recorded_extra built encoded with ⟨none, devices, -⟩ | ⟨-, owned⟩
    · simp [none, devices] at inventory
    · rintro rfl
      cases owned
  rw [configurationChanged_external built computed encoded external fallback (by simp [unrecorded, inUse])]
  simp [extraChanged, unrecorded, some]

end

section
variable {digest : Canonical → String} {node : KubeNode} {draInventory : List GRESInventory}
  {info : Option NodeInfo} {config : NodeGRESConfig} {t : Trace surroundings}

theorem submitted_append (t' : Trace surroundings) (creates : ∀ e ∈ t, ∀ conf, e.1 ≠ .createNode conf)
    (updates : ∀ e ∈ t, ∀ name msg, e.1 ≠ .updateNode name msg) :
    submittedConf (t ++ t') = submittedConf t' ∧ submittedExtra (t ++ t') = submittedExtra t' := by
  constructor
  · rw [submittedConf, findSome?_append, findSome?_eq_none_iff.mpr]
    · rfl
    · rintro ⟨c, r⟩ member
      cases c with
      | createNode conf => exact absurd rfl (creates _ member conf)
      | _ => rfl
  · rw [submittedExtra, findSome?_append, findSome?_eq_none_iff.mpr]
    · rfl
    · rintro ⟨c, r⟩ member
      cases c with
      | updateNode name msg => exact absurd rfl (updates _ member name msg)
      | _ => rfl

theorem submittedConf_eq_none (creates : ∀ e ∈ t, ∀ conf, e.1 ≠ .createNode conf) : submittedConf t = none := by
  refine findSome?_eq_none_iff.mpr ?_
  rintro ⟨c, r⟩ member
  cases c with
  | createNode conf => exact absurd rfl (creates _ member conf)
  | _ => rfl

theorem recordCreated_submitted {cpu : NodeCPUConfig} {extra : Extra}
    (run : Exec (recordCreated node cpu extra).run t (.ok ())) : submittedExtra t = extra := by
  rw [recordCreated] at run
  split at run
  · rename_i empty
    cases run
    rw [empty]
    rfl
  · obtain ⟨r, inner, same⟩ := exec_wrapping run
    rw [exec_perform inner]
    cases r with
    | error err => cases same
    | ok u => cases cpu.fromDRA <;> rfl

variable {out : Except Failure Unit} {conf : NodeConf}

theorem createNewNode_submitted (run : Exec (createNewNode digest node info config).run t out)
    (created : submittedConf t = some conf) :
    ∃ cpu extra features, desiredNodeCPUConfig node info = .ok cpu ∧
      encodeApplied digest info config.extra = .ok extra ∧ conf = nodeConfOf node cpu features config ∧
      (out = .ok () → submittedExtra t = extra) := by
  rcases exec_run_bind run with ⟨e, first, -⟩ | ⟨_, cpu, t₁, rfl, first, run₁⟩
  · rw [(exec_checking first).1] at created
    cases created
  obtain ⟨rfl, computed⟩ := exec_checking first
  rcases exec_run_bind run₁ with ⟨e, second, -⟩ | ⟨_, extra, t₂, rfl, second, run₂⟩
  · rw [(exec_checking second).1] at created
    cases created
  obtain ⟨rfl, encoded⟩ := exec_checking second
  simp only [nil_append] at created ⊢
  have partitions : Only (I := surroundings) (fun c => ∃ partition, c = .getPartition partition)
      (desiredNodeFeatures node.annotations).run := only_desiredNodeFeatures
    (fun partition => ⟨partition, rfl⟩) node.annotations
  rcases exec_run_bind run₂ with ⟨e, third, -⟩ | ⟨t₃, features, t₄, rfl, third, run₃⟩
  · rw [submittedConf_eq_none] at created
    · cases created
    · rintro e member conf same
      obtain ⟨partition, read⟩ := partitions.exec third e member
      cases read.symm.trans same
  obtain ⟨sameConf, sameExtra⟩ := submitted_append (t := t₃) t₄ (fun e member conf same => by
      obtain ⟨partition, read⟩ := partitions.exec third e member
      cases read.symm.trans same)
    (fun e member name msg same => by
      obtain ⟨partition, read⟩ := partitions.exec third e member
      cases read.symm.trans same)
  rw [sameConf] at created
  rw [sameExtra]
  refine ⟨cpu, extra, features, mapError_eq_ok.mp computed.symm, mapError_eq_ok.mp encoded.symm, ?_⟩
  rcases exec_run_bind run₃ with ⟨e, fourth, -⟩ | ⟨t₅, u, t₆, rfl, fourth, run₄⟩
  · obtain ⟨r, inner, same⟩ := exec_wrapping fourth
    rw [exec_perform inner] at created
    cases r with
    | error err => cases created
    | ok u => cases same
  · obtain ⟨r, inner, same⟩ := exec_wrapping fourth
    obtain rfl := mapError_eq_ok.mp same.symm
    rw [exec_perform inner] at created ⊢
    refine ⟨(Option.some.inj created).symm, ?_⟩
    rintro rfl
    have recorded := recordCreated_submitted run₄
    exact recorded

theorem addNode_submitted (run : Exec (addNode digest node info draInventory).run t out)
    (created : submittedConf t = some conf) :
    ∃ config cpu extra features, buildNodeGRESConfig draInventory info = .ok config ∧
      desiredNodeCPUConfig node info = .ok cpu ∧ encodeApplied digest info config.extra = .ok extra ∧
      conf = nodeConfOf node cpu features config ∧ (out = .ok () → submittedExtra t = extra) := by
  rcases exec_run_bind run with ⟨e, first, -⟩ | ⟨_, config, t₁, rfl, first, run₁⟩
  · rw [(exec_checking first).1] at created
    cases created
  obtain ⟨rfl, built⟩ := exec_checking first
  rw [nil_append] at created ⊢
  rcases exec_run_bind run₁ with ⟨e, second, -⟩ | ⟨_, found, t₂, rfl, second, run₂⟩
  · obtain ⟨r, rfl, -⟩ := exec_findNode second
    cases created
  obtain ⟨r, rfl, -⟩ := exec_findNode second
  obtain ⟨sameConf, sameExtra⟩ := submitted_append (t := [⟨.getNode .live (getSlurmNodeName node), r⟩])
    t₂ (by simp) (by simp)
  rw [sameConf] at created
  cases found with
  | some slurmNode =>
    have only : Only (I := surroundings) (fun c => ∀ conf, c ≠ .createNode conf)
        (updateExistingNode digest node slurmNode info config).run := only_updateExistingNode (by simp) (by simp) digest node slurmNode info config
    rw [submittedConf_eq_none (only.exec run₂)] at created
    cases created
  | none =>
    obtain ⟨cpu, extra, features, facts⟩ := createNewNode_submitted run₂ created
    exact ⟨config, cpu, extra, features, mapError_eq_ok.mp built.symm, facts⟩

theorem nodeNeedsRecreate_of_read {reported : SlurmNode} {out : Except Failure Bool}
    (run : Exec (nodeNeedsRecreate digest node info draInventory).run t out)
    (read : ⟨.getNode .cached (getSlurmNodeName node), .ok reported⟩ ∈ t) :
    out = (configurationChanged digest node info draInventory reported).mapError .config := by
  rcases exec_run_bind run with ⟨e, first, -⟩ | ⟨_, found, t₁, rfl, first, run₁⟩
  · obtain ⟨r, rfl, same⟩ := exec_findNode first
    obtain rfl : .ok reported = r := by simpa using read
    cases same
  obtain ⟨r, rfl, same⟩ := exec_findNode first
  cases found with
  | none =>
    cases run₁
    obtain rfl : .ok reported = r := by simpa using read
    cases same
  | some slurmNode =>
    obtain ⟨rfl, rfl⟩ := exec_checking run₁
    obtain rfl : .ok reported = r := by simpa using read
    obtain rfl := Option.some.inj (Except.ok.inj same)
    rfl

/-- Registration is a fixpoint: a node that was created and recorded, and is reported as
submitted, needs no recreation; one that was created but not recorded does. -/
theorem registration_is_fixpoint (topology : BuiltTopology info) {out : Except Failure Unit}
    (run : Exec (addNode digest node info draInventory).run t out) {conf : NodeConf}
    (created : submittedConf t = some conf) {reported : SlurmNode}
    (reports : ReportsConf conf reported) {t' : Trace surroundings} {needs : Except Failure Bool}
    (check : Exec (nodeNeedsRecreate digest node info draInventory).run t' needs)
    (read : ⟨.getNode .cached (getSlurmNodeName node), .ok reported⟩ ∈ t') :
    (out = .ok () → reported.extra = submittedExtra t → needs = .ok false) ∧
      (reported.extra = .empty → (draInventory ≠ [] ∨ cpuInventory info ≠ []) → needs = .ok true) := by
  obtain ⟨config, cpu, extra, features, built, computed, encoded, rfl, submitted⟩ :=
    addNode_submitted run created
  rw [nodeNeedsRecreate_of_read check read]
  constructor
  · intro success recorded
    rw [submitted success] at recorded
    exact mapError_eq_ok.mpr (unchanged_of_reports topology built computed encoded reports recorded)
  · intro unrecorded inventory
    exact mapError_eq_ok.mpr
      (changed_of_unrecorded built computed encoded reports.external unrecorded inventory)

end

def unregistered : (c : Command) → c.Reply
  | .getNode _ _ => .error .notFound
  | .updateNode _ _ | .createNode _ | .deleteNode _ | .getPartition _ => .ok ()
  | .readNode _ => .error .notFound
  | .nodesBySlurmName _ => .ok []
  | .patchTaints _ _ | .patchConditions _ _ => .ok ()
  | .resourceSlices _ => .ok [twoSockets]
  | .nodeInventory _ _ => .ok ⟨[], nodup_nil⟩
  | .push _ _ => ()
  | .pop _ => 0

def reportedAs (conf : NodeConf) (extra : Extra) : SlurmNode where
  name := conf.nodeName
  state := [.idle, .external]
  gres := conf.gres
  extra := extra
  sockets := conf.sockets
  cores := conf.coresPerSocket
  threads := conf.threadsPerCore
  cpus := conf.cpus
  realMemory := conf.realMemory

theorem reportsConf_reportedAs (conf : NodeConf) (extra : Extra) :
    ReportsConf conf (reportedAs conf extra) where
  external := by simp [reportedAs]
  sockets := rfl
  cores := rfl
  threads := rfl
  cpus := rfl
  memory := rfl
  gres := ⟨(split ',' conf.gres).map fun entry => ⟨entry, none, by simp⟩,
    by simp [Function.comp_def], by
      have joined : ",".intercalate (split ',' conf.gres) = conf.gres := intercalate_split ',' conf.gres
      simp [Function.comp_def, Decorated.text, reportedAs, joined]⟩

/-- Two sockets and devices of two types. -/
theorem registration_is_fixpoint_twoSockets :
    ∃ n t conf t', newNodeInfoFromResourceSlices "node" [twoSockets] = .ok n ∧
      Exec (addNode (fun _ => "") plainNode (some n) twoTypes).run t (.ok ()) ∧
      submittedConf t = some conf ∧
      Exec (nodeNeedsRecreate (fun _ => "") plainNode (some n) twoTypes).run t' (.ok false) ∧
      ⟨.getNode .cached "node", .ok (reportedAs conf (submittedExtra t))⟩ ∈ t' := by
  obtain ⟨conf, run⟩ := exists_ok (x := do
    let n ← (newNodeInfoFromResourceSlices "node" [twoSockets]).mapError Failure.text
    let register := (addNode (fun _ => "") plainNode (some n) twoTypes).run
    let _ ← eval unregistered register
    present (Failure.text "") (submittedConf (traceOf unregistered register))) (by decide +kernel)
  obtain ⟨n, built, rest⟩ := bind_eq_ok.mp run
  obtain ⟨_, added, created⟩ := bind_eq_ok.mp rest
  have built := mapError_eq_ok.mp built
  have created := present_eq_ok.mp created
  have exec := exec_traceOf unregistered (addNode (fun _ => "") plainNode (some n) twoTypes).run
  rw [added] at exec
  have check : Exec (nodeNeedsRecreate (fun _ => "") plainNode (some n) twoTypes).run
      [⟨.getNode .cached "node", .ok (reportedAs conf (submittedExtra (traceOf unregistered
        (addNode (fun _ => "") plainNode (some n) twoTypes).run)))⟩] _ :=
    .step _ _ _ [] _ (.ret _)
  have fixed := (registration_is_fixpoint (fun _ found => ⟨"node", [twoSockets],
    Option.some.inj found ▸ built⟩) exec created (reportsConf_reportedAs conf _) check
      (mem_singleton.mpr rfl)).1 rfl rfl
  rw [fixed] at check
  exact ⟨n, _, conf, _, built, exec, created, check, mem_singleton.mpr rfl⟩

end SlurmBridge.Node.RegistrationFixpoint
