/- source: internal/utils/slurmjobir/slurmjobir.go, common.go, job.go, podgroup_coscheduling.go
   digest: CPUs, memory and generic resources of a component, from the needs of its Pods.  When the
     request covers every member. -/

import SlurmBridge.Dra.Profiles
import SlurmBridge.Kube.PodResources

set_option autoImplicit false

namespace SlurmBridge.JobIR.Resources

open Foundation.Text Foundation.Checked Foundation.Merging Kube.PodResources Dra.Profiles JobIR.IR List

structure Member where
  name : String
  needs : PodNeeds

def getMemoryFromQuantity (quantity : ℚ) : Int := (value quantity).tdiv 1048576

/-- What a workload's own specification says about resources. -/
inductive Preset
  | unset
  /-- The limits in a Job's Pod template, if the template has resources. -/
  | job (limits : Option ResourceList)
  | coscheduling (minResources : ResourceList)

def Preset.info : Preset → SlurmJobIRJobInfo
  | .unset | .job none => {}
  | .job (some limits) =>
    { cpuPerTask := some (toInt32 (value limits.cpu)), memPerNode := some (getMemoryFromQuantity limits.memory) }
  | .coscheduling least =>
    { memPerNode := if value least.memory ≠ 0 then some (getMemoryFromQuantity least.memory) else none
      cpuPerTask := if value least.cpu ≠ 0 then some (toInt32 (value least.cpu)) else none }

def raise (current quantity : ℚ) : ℚ := if quantity > current then quantity else current

def largest (amount : ResourceList → ℚ) (pods : List Member) : ℚ :=
  pods.foldl (fun current p =>
    raise (raise current (amount (podRequests p.needs))) (amount (podLimits p.needs))) 0

/-- CPU and memory from the neediest Pods.  Without a need the setting stays as it is. -/
def parsePodsCpuAndMemory (info : SlurmJobIRJobInfo) (pods : List Member) : SlurmJobIRJobInfo :=
  let cpuMax := largest ResourceList.cpu pods
  let memMax := largest ResourceList.memory pods
  { info with
    cpuPerTask := if value cpuMax > 0 then some (toInt32 (value cpuMax)) else info.cpuPerTask
    memPerNode := if value memMax > 0 then some (getMemoryFromQuantity memMax) else info.memPerNode }

def resourceDeviceClassPrefix : String := "deviceclass.resource.kubernetes.io/"
def nvidiaDevicePlugin : String := "nvidia.com/gpu"
def amdDevicePlugin : String := "amd.com/gpu"

def addCores (classes : Classes) (total : ℚ) (e : Σ _ : String, ℚ) : Except String ℚ :=
  if e.2 ≤ 0 then
    return total
  else match after? resourceDeviceClassPrefix e.1 with
    | none => return total
    | some className => do
        let profile ← resolveDeviceClass classes className
        return if profile.usesCoreBitmap then total + e.2 else total

def coreBitmapQuantity (classes : Classes) (resources : ResourceList) : Except String ℚ :=
  resources.entries.foldlM (addCores classes) 0

abbrev GresAmounts := AList (fun _ : GenericResource => ℚ)

def addGRESQuantity (resources : GresAmounts) (gres : GenericResource) (quantity : ℚ) : GresAmounts :=
  resources.insert gres ((resources.lookup gres).getD 0 + quantity)

def addLimit (classes : Classes) (resources : GresAmounts) (e : Σ _ : String, ℚ) : Except String GresAmounts :=
  if e.2 ≤ 0 then
    return resources
  else if e.1 = nvidiaDevicePlugin ∨ e.1 = amdDevicePlugin then
    return addGRESQuantity resources ⟨"gpu", ""⟩ e.2
  else match after? resourceDeviceClassPrefix e.1 with
    | none => return resources
    | some className => do
        let profile ← resolveDeviceClass classes className
        if profile.usesCoreBitmap then
          return resources
        else if !profile.usesIndexedGRES then
          throw ("DeviceClass " ++ className.quote ++ " resolves to unsupported backend " ++
            profile.backend.text.quote)
        else
          let gres ← profile.gres
          return addGRESQuantity resources gres e.2

/-- The generic resources of a Pod, and its CPUs by DeviceClass. -/
def podDeviceResources (classes : Classes) (pod : Member) : Except String (GresAmounts × ℚ) := do
  let limits := podLimits pod.needs
  let requests := podRequests pod.needs
  let coreRequest ← coreBitmapQuantity classes requests
  let coreLimit ← coreBitmapQuantity classes limits
  let coreBitmapCPU := raise coreRequest coreLimit
  let nativeCPU := raise requests.cpu limits.cpu
  require (¬(nativeCPU > 0 ∧ coreBitmapCPU > 0))
    ("pod " ++ pod.name ++ " requests both native CPU and a core-bitmap DeviceProfile")
  let resources ← limits.entries.foldlM (addLimit classes) ∅
  return (resources, coreBitmapCPU)

def mergeMaxGRESQuantities (maxByGRES podGRES : GresAmounts) : GresAmounts := mergeWith max maxByGRES podGRES

def raiseCPUs (cpuPerTask : Option Int) (coreBitmapCPU : Int) : Option Int :=
  if coreBitmapCPU > 0 ∧ cpuPerTask.all (· < coreBitmapCPU) then some (toInt32 coreBitmapCPU) else cpuPerTask

/-- Narrow NUMA spreads first, then by name and type.  Types without a spread are last. -/
def gresBefore (spans : String → Option ℚ) (a b : GenericResource) : Bool :=
  match spans a.type, spans b.type with
  | some _, none => true
  | none, some _ => false
  | spanA, spanB =>
    if spanA.getD 0 ≠ spanB.getD 0 then decide (spanA.getD 0 < spanB.getD 0)
    else if a.name ≠ b.name then decide (a.name < b.name)
    else decide (a.type ≤ b.type)

def formatGRESResources (render : ℚ → String) (spans : String → Option ℚ) (resources : GresAmounts) : String :=
  ",".intercalate ((resources.entries.insertionSort (fun a b => gresBefore spans a.1 b.1 = true)).map fun e =>
    "gres/" ++ e.1.name ++ (if e.1.type = "" then "" else ":" ++ e.1.type) ++ "=" ++ render e.2)

/-- What the translation of device resources reads: DeviceClasses, the NUMA spread of each type and
the text of an amount. -/
structure DeviceReads where
  classes : Classes
  numaSpans : String → Option ℚ
  render : ℚ → String

/-- Core-bitmap amounts contribute to CPUs per task, amounts of generic resources to GRES. -/
def parseDeviceResources (reads : DeviceReads) (info : SlurmJobIRJobInfo) (pods : List Member) :
    Except String SlurmJobIRJobInfo := do
  let (maxByGRES, cpuPerTask) ← pods.foldlM (fun (state : GresAmounts × Option Int) pod => do
    let (podGRES, coreBitmapCPU) ← podDeviceResources reads.classes pod
    return (mergeMaxGRESQuantities state.1 podGRES, raiseCPUs state.2 (value coreBitmapCPU)))
    (∅, info.cpuPerTask)
  let spans := if maxByGRES.entries.length > 1 then reads.numaSpans else fun _ => none
  let gres := formatGRESResources reads.render spans maxByGRES
  return { info with cpuPerTask, gres := if gres = "" then info.gres else some gres }

/-- The settings of a component without annotations of its workload. -/
def componentSettings (reads : DeviceReads) (preset : Preset) (pods : List Member) :
    Except String SlurmJobIRJobInfo :=
  parseDeviceResources reads (parsePodsCpuAndMemory preset.info pods) pods

theorem raise_eq_max (current quantity : ℚ) : raise current quantity = max current quantity := by
  unfold raise
  split
  · rename_i larger
    exact (max_eq_right (le_of_lt larger)).symm
  · rename_i smaller
    exact (max_eq_left (not_lt.mp smaller)).symm

theorem largest_le_iff {amount : ResourceList → ℚ} {pods : List Member} {bound : ℚ} :
    largest amount pods ≤ bound ↔ 0 ≤ bound ∧
      ∀ p ∈ pods, amount (podRequests p.needs) ≤ bound ∧ amount (podLimits p.needs) ≤ bound := by
  have general : ∀ (pods : List Member) (start : ℚ), pods.foldl (fun current p =>
      raise (raise current (amount (podRequests p.needs))) (amount (podLimits p.needs))) start ≤ bound ↔
      start ≤ bound ∧ ∀ p ∈ pods, amount (podRequests p.needs) ≤ bound ∧ amount (podLimits p.needs) ≤ bound := by
    intro pods
    induction pods with
    | nil => simp
    | cons p pods ih =>
      intro start
      rw [foldl_cons, ih, raise_eq_max, raise_eq_max, max_le_iff, max_le_iff, forall_mem_cons,
        and_assoc, and_assoc, and_assoc]
  exact general pods 0

theorem largest_nonneg (amount : ResourceList → ℚ) (pods : List Member) : 0 ≤ largest amount pods :=
  (largest_le_iff.mp le_rfl).1

theorem toInt32_lt (n : Int) : toInt32 n < 2 ^ 31 := by
  have below := Int.bmod_lt (x := n) (m := 2 ^ 32) (by decide)
  unfold toInt32
  omega

theorem toInt32_eq {n : Int} (nonneg : 0 ≤ n) (below : n < 2 ^ 31) : toInt32 n = n := by
  exact Int.bmod_eq_of_le (by omega) (by omega)

theorem toInt64_lt (n : Int) : toInt64 n < 2 ^ 63 := by
  have below := Int.bmod_lt (x := n) (m := 2 ^ 64) (by decide)
  unfold toInt64
  omega

theorem value_eq {q : ℚ} (nonneg : 0 ≤ q) (below : ⌈q⌉ < 2 ^ 63) : value q = ⌈q⌉ := by
  have ceil := Int.ceil_nonneg nonneg
  unfold value toInt64
  rw [if_pos nonneg]
  exact Int.bmod_eq_of_le (by omega) (by omega)

theorem getMemoryFromQuantity_lt (q : ℚ) : getMemoryFromQuantity q * 2 ^ 20 < 2 ^ 63 := by
  have below := toInt64_lt (if 0 ≤ q then ⌈q⌉ else ⌊q⌋)
  unfold getMemoryFromQuantity value
  generalize toInt64 (if 0 ≤ q then ⌈q⌉ else ⌊q⌋) = v at below ⊢
  rcases le_or_gt 0 v with nonneg | negative
  · rw [Int.tdiv_eq_ediv_of_nonneg nonneg]
    omega
  · have sign := Int.neg_tdiv (a := -v) (b := 1048576)
    rw [neg_neg, Int.tdiv_eq_ediv_of_nonneg (a := -v) (by omega)] at sign
    omega

section

/-- CPUs per task that are enough for a number of CPUs: positive if they are set, and nothing is needed
if they are not. -/
def Enough (need : Int) : Option Int → Prop
  | none => need ≤ 0
  | some c => max need 1 ≤ c

/-- A number of CPUs by DeviceClass that does not fit into 32 bits is made up for by it, cut to 32
bits, or by that of a later member. -/
def WideCovered (need : Int) (cores : List Int) : Prop :=
  ∀ before wide after, cores = before ++ wide :: after → 2 ^ 31 ≤ wide →
    ∃ k ∈ wide :: after, 0 < k ∧ max need 1 ≤ toInt32 k

variable {need k : Int} {cores : List Int}

theorem wideCovered_cons : WideCovered need (k :: cores) ↔
      (2 ^ 31 ≤ k → ∃ k' ∈ k :: cores, 0 < k' ∧ max need 1 ≤ toInt32 k') ∧ WideCovered need cores := by
  constructor
  · intro covered
    exact ⟨covered [] k cores rfl, fun before wide after split =>
      covered (k :: before) wide after (by rw [split, cons_append])⟩
  · rintro ⟨first, rest⟩ before wide after split
    cases before with
    | nil =>
      obtain ⟨rfl, rfl⟩ := cons.inj split
      exact first
    | cons k' before =>
      obtain ⟨-, tail⟩ := cons.inj split
      exact rest before wide after tail

variable {cpus : Option Int}

private theorem enough_raiseCPUs_narrow (narrow : k < 2 ^ 31) :
    Enough need (raiseCPUs cpus k) ↔ Enough need cpus ∨ max need 1 ≤ k := by
  unfold raiseCPUs
  split
  · rename_i raised
    obtain ⟨positive, larger⟩ := raised
    rw [toInt32_eq (le_of_lt positive) narrow]
    cases cpus with
    | none => simp only [Enough]; omega
    | some c =>
      have larger : c < k := by simpa using larger
      simp only [Enough]
      omega
  · rename_i kept
    cases cpus with
    | none =>
      have nonpositive : ¬k > 0 := fun positive => kept ⟨positive, rfl⟩
      simp only [Enough]
      omega
    | some c =>
      have smaller : ¬(k > 0 ∧ c < k) := fun larger => kept ⟨larger.1, by simpa using larger.2⟩
      simp only [Enough]
      omega

private theorem raiseCPUs_wide (wide : 2 ^ 31 ≤ k) (bounded : ∀ c, cpus = some c → c < 2 ^ 31) :
    raiseCPUs cpus k = some (toInt32 k) := by
  refine if_pos ⟨by omega, ?_⟩
  cases cpus with
  | none => rfl
  | some c =>
    have below := bounded c rfl
    simp only [Option.all_some, decide_eq_true_eq]
    omega

section
variable (bounded : ∀ c, cpus = some c → c < 2 ^ 31)

include bounded

private theorem raiseCPUs_bounded : ∀ c, raiseCPUs cpus k = some c → c < 2 ^ 31:= by
  intro c set
  unfold raiseCPUs at set
  split at set
  · exact Option.some.inj set ▸ toInt32_lt k
  · exact bounded c set

theorem foldl_bounded : ∀ c, cores.foldl raiseCPUs cpus = some c → c < 2 ^ 31:= by
  induction cores generalizing cpus with
  | nil => exact bounded
  | cons k cores ih => exact ih (raiseCPUs_bounded bounded)

/-- Over all members, CPUs are enough if no wide number spoils them and one of them, or what was there
before, is. -/
theorem enough_foldl_iff : Enough need (cores.foldl raiseCPUs cpus) ↔ WideCovered need cores ∧
      ((∃ k ∈ cores, 2 ^ 31 ≤ k) ∨ Enough need cpus ∨ ∃ k ∈ cores, max need 1 ≤ k) := by
  induction cores generalizing cpus with
  | nil =>
    have none : WideCovered need [] := by
      intro before wide after split
      simp at split
    simp [none]
  | cons k cores ih =>
    rw [foldl_cons, ih (raiseCPUs_bounded bounded), wideCovered_cons]
    rcases lt_or_ge k (2 ^ 31) with narrow | wide
    · rw [enough_raiseCPUs_narrow narrow]
      simp only [mem_cons, exists_eq_or_imp, not_le.mpr narrow, false_imp_iff, true_and, false_or, or_assoc]
    · rw [raiseCPUs_wide wide bounded]
      -- What a later wide number needs, the first one needs too.
      have later : WideCovered need cores → (∃ k' ∈ cores, 2 ^ 31 ≤ k') →
          ∃ k' ∈ cores, 0 < k' ∧ max need 1 ≤ toInt32 k' := by
        rintro covered ⟨k', inside, wide'⟩
        obtain ⟨before, after, split⟩ := append_of_mem inside
        obtain ⟨k'', among, makesUp⟩ := covered before k' after split wide'
        exact ⟨k'', split ▸ mem_append_right _ among, makesUp⟩
      constructor
      · rintro ⟨covered, spoiled | cut | ⟨k', inside, enough⟩⟩
        · obtain ⟨k', inside, makesUp⟩ := later covered spoiled
          exact ⟨⟨fun _ => ⟨k', mem_cons_of_mem _ inside, makesUp⟩, covered⟩, .inl ⟨k, mem_cons_self, wide⟩⟩
        · exact ⟨⟨fun _ => ⟨k, mem_cons_self, by omega, cut⟩, covered⟩, .inl ⟨k, mem_cons_self, wide⟩⟩
        · refine ⟨⟨fun _ => ?_, covered⟩, .inl ⟨k, mem_cons_self, wide⟩⟩
          rcases lt_or_ge k' (2 ^ 31) with narrow | wide'
          · exact ⟨k', mem_cons_of_mem _ inside, by omega, by rwa [toInt32_eq (by omega) narrow]⟩
          · obtain ⟨k'', inside', makesUp⟩ := later covered ⟨k', inside, wide'⟩
            exact ⟨k'', mem_cons_of_mem _ inside', makesUp⟩
      · rintro ⟨⟨own, covered⟩, -⟩
        refine ⟨covered, ?_⟩
        obtain ⟨k', inside, positive, enough⟩ := own wide
        rcases mem_cons.mp inside with rfl | inside
        · exact .inr (.inl enough)
        · rcases lt_or_ge k' (2 ^ 31) with narrow | wide'
          · exact .inr (.inr ⟨k', inside, by rwa [toInt32_eq (by omega) narrow] at enough⟩)
          · exact .inl ⟨k', inside, wide'⟩

end

end

section
variable {reads : DeviceReads} {preset : Preset} {pods : List Member} {info settings : SlurmJobIRJobInfo}

def coreCPUs (classes : Classes) (pod : Member) : Int :=
  match podDeviceResources classes pod with
  | .ok (_, coreBitmapCPU) => value coreBitmapCPU
  | .error _ => 0

theorem parseDeviceResources_ok (parsed : parseDeviceResources reads info pods = .ok settings) :
    settings.cpuPerTask = (pods.map (coreCPUs reads.classes)).foldl raiseCPUs info.cpuPerTask ∧
      settings.memPerNode = info.memPerNode := by
  obtain ⟨⟨maxByGRES, cpuPerTask⟩, folded, rest⟩ := bind_eq_ok.mp parsed
  rw [pure_eq_ok] at rest
  refine ⟨?_, by rw [← rest]⟩
  have raised : cpuPerTask = _ := foldlM_ok (fun visited (state : GresAmounts × Option Int) =>
      state.2 = (visited.map (coreCPUs reads.classes)).foldl raiseCPUs info.cpuPerTask) ?_ rfl folded
  · rw [← rest, raised]
  · rintro visited pod state state' known step
    obtain ⟨⟨podGRES, cores⟩, device, same⟩ := bind_eq_ok.mp step
    rw [pure_eq_ok] at same
    have own : coreCPUs reads.classes pod = value cores := by
      unfold coreCPUs
      rw [device]
    rw [← same, map_append, foldl_append, ← known]
    simp [own]

/-- The request of a component covers every member, and nothing is set that is not needed. -/
structure Covers (settings : SlurmJobIRJobInfo) (pods : List Member) : Prop where
  cpu : ∀ p ∈ pods, (podRequests p.needs).cpu ≤ settings.cpuPerTask.getD 0 ∧
    (podLimits p.needs).cpu ≤ settings.cpuPerTask.getD 0
  memory : ∀ p ∈ pods, (podRequests p.needs).memory ≤ settings.memPerNode.getD 0 * 2 ^ 20 ∧
    (podLimits p.needs).memory ≤ settings.memPerNode.getD 0 * 2 ^ 20
  cpuPositive : ∀ c, settings.cpuPerTask = some c → 0 < c
  memoryPositive : ∀ m, settings.memPerNode = some m → 0 < m

/-- The CPUs and bytes of the neediest members, rounded up. -/
def cpuNeed (pods : List Member) : Int := ⌈largest ResourceList.cpu pods⌉

def memoryNeed (pods : List Member) : Int := ⌈largest ResourceList.memory pods⌉

/-- The needs survive the conversions on the way to Slurm: CPUs fit into 32 bits, bytes into 64 and into
whole mebibytes, and where there is no need the workload itself presets nothing or something positive. -/
structure Fits (classes : Classes) (preset : Preset) (pods : List Member) : Prop where
  cpu : cpuNeed pods < 2 ^ 31
  cores : WideCovered (cpuNeed pods) (pods.map (coreCPUs classes))
  noCPU : cpuNeed pods = 0 → (∀ p ∈ pods, coreCPUs classes p ≤ 0) → ∀ c, preset.info.cpuPerTask = some c → 0 < c
  memory : memoryNeed pods < 2 ^ 63 ∧ (2 ^ 20 : Int) ∣ memoryNeed pods
  noMemory : memoryNeed pods = 0 → ∀ m, preset.info.memPerNode = some m → 0 < m

theorem preset_cpu_lt (preset : Preset) : ∀ c, preset.info.cpuPerTask = some c → c < 2 ^ 31 := by
  intro c set
  unfold Preset.info at set
  split at set
  · cases set
  · cases set
  · exact Option.some.inj set ▸ toInt32_lt _
  · dsimp only at set
    split at set
    · exact Option.some.inj set ▸ toInt32_lt _
    · cases set

theorem preset_memory_lt (preset : Preset) : ∀ m, preset.info.memPerNode = some m → m * 2 ^ 20 < 2 ^ 63 := by
  intro m set
  unfold Preset.info at set
  split at set
  · cases set
  · cases set
  · exact Option.some.inj set ▸ getMemoryFromQuantity_lt _
  · dsimp only at set
    split at set
    · exact Option.some.inj set ▸ getMemoryFromQuantity_lt _
    · cases set

theorem covered_iff (amount : ResourceList → ℚ) {bound : Int} (nonneg : 0 ≤ bound) :
    (∀ p ∈ pods, amount (podRequests p.needs) ≤ bound ∧ amount (podLimits p.needs) ≤ bound) ↔
      ⌈largest amount pods⌉ ≤ bound := by
  rw [Int.ceil_le, largest_le_iff]
  have cast : (0 : ℚ) ≤ bound := by exact_mod_cast nonneg
  exact ⟨fun each => ⟨cast, each⟩, And.right⟩

theorem enough_iff {cpus : Option Int} :
    ((∀ p ∈ pods, (podRequests p.needs).cpu ≤ (cpus.getD 0 : Int) ∧ (podLimits p.needs).cpu ≤ (cpus.getD 0 : Int)) ∧
      ∀ c, cpus = some c → 0 < c) ↔ Enough (cpuNeed pods) cpus := by
  cases cpus with
  | none =>
    rw [covered_iff ResourceList.cpu (by simp)]
    simp [Enough, cpuNeed]
  | some c =>
    simp only [Option.getD_some, Option.some.injEq, forall_eq', Enough]
    constructor
    · rintro ⟨covered, positive⟩
      rw [covered_iff ResourceList.cpu (le_of_lt positive)] at covered
      exact max_le covered positive
    · intro enough
      rw [covered_iff ResourceList.cpu (by omega)]
      exact ⟨le_trans (le_max_left _ _) enough, lt_of_lt_of_le one_pos (le_trans (le_max_right _ _) enough)⟩

private theorem cpuPerTask_bounded :
    ∀ c, (parsePodsCpuAndMemory preset.info pods).cpuPerTask = some c → c < 2 ^ 31 := by
  intro c set
  unfold parsePodsCpuAndMemory at set
  dsimp only at set
  split at set
  · exact Option.some.inj set ▸ toInt32_lt _
  · exact preset_cpu_lt preset c set

private theorem enough_parsed (below : cpuNeed pods < 2 ^ 31) :
    Enough (cpuNeed pods) (parsePodsCpuAndMemory preset.info pods).cpuPerTask ↔
      (cpuNeed pods = 0 → ∀ c, preset.info.cpuPerTask = some c → 0 < c) := by
  have nonneg : 0 ≤ cpuNeed pods := Int.ceil_nonneg (largest_nonneg _ _)
  have same : value (largest ResourceList.cpu pods) = cpuNeed pods :=
    value_eq (largest_nonneg _ _) (lt_trans below (by decide))
  unfold parsePodsCpuAndMemory
  dsimp only
  rw [same]
  split
  · rename_i positive
    rw [toInt32_eq nonneg below]
    simp only [Enough]
    exact ⟨fun _ zero => absurd zero (by omega), fun _ => by omega⟩
  · have zero : cpuNeed pods = 0 := by omega
    rw [zero]
    cases preset.info.cpuPerTask with
    | none => simp [Enough]
    | some c =>
      simp only [Enough, forall_const, Option.some.injEq, forall_eq']
      omega

private theorem cpu_iff (parsed : componentSettings reads preset pods = .ok settings) :
    Enough (cpuNeed pods) settings.cpuPerTask ↔ cpuNeed pods < 2 ^ 31 ∧
      WideCovered (cpuNeed pods) (pods.map (coreCPUs reads.classes)) ∧
      (cpuNeed pods = 0 → (∀ p ∈ pods, coreCPUs reads.classes p ≤ 0) →
        ∀ c, preset.info.cpuPerTask = some c → 0 < c) := by
  have bounded : ∀ c, (parsePodsCpuAndMemory preset.info pods).cpuPerTask = some c → c < 2 ^ 31 :=
    cpuPerTask_bounded
  rw [(parseDeviceResources_ok parsed).1]
  constructor
  · intro enough
    have below : cpuNeed pods < 2 ^ 31 := by
      generalize final : (pods.map (coreCPUs reads.classes)).foldl raiseCPUs _ = cpus at enough
      cases cpus with
      | none =>
        simp only [Enough] at enough
        omega
      | some c =>
        have fits := foldl_bounded bounded c final
        simp only [Enough] at enough
        omega
    rw [enough_foldl_iff bounded] at enough
    obtain ⟨covered, some⟩ := enough
    refine ⟨below, covered, fun zero idle => ?_⟩
    rcases some with ⟨k, inside, wide⟩ | parsed | ⟨k, inside, positive⟩
    · obtain ⟨p, member, rfl⟩ := mem_map.mp inside
      have none := idle p member
      omega
    · exact (enough_parsed below).mp parsed zero
    · obtain ⟨p, member, rfl⟩ := mem_map.mp inside
      have none := idle p member
      omega
  · rintro ⟨below, covered, noCPU⟩
    rw [enough_foldl_iff bounded, enough_parsed below]
    refine ⟨covered, .inr ?_⟩
    by_cases idle : ∀ p ∈ pods, coreCPUs reads.classes p ≤ 0
    · exact .inl fun zero => noCPU zero idle
    · push Not at idle
      obtain ⟨p, member, positive⟩ := idle
      by_cases zero : cpuNeed pods = 0
      · exact .inr ⟨_, mem_map.mpr ⟨p, member, rfl⟩, by omega⟩
      · exact .inl fun none => absurd none zero

private def EnoughMemory (need : Int) : Option Int → Prop
  | none => need ≤ 0
  | some m => 0 < m ∧ need ≤ m * 2 ^ 20

private theorem enoughMemory_iff {memory : Option Int} :
    ((∀ p ∈ pods, (podRequests p.needs).memory ≤ (memory.getD 0 : Int) * 2 ^ 20 ∧
        (podLimits p.needs).memory ≤ (memory.getD 0 : Int) * 2 ^ 20) ∧
      ∀ m, memory = some m → 0 < m) ↔ EnoughMemory (memoryNeed pods) memory := by
  have bytes : ((memory.getD 0 : Int) : ℚ) * 2 ^ 20 = ((memory.getD 0 * 2 ^ 20 : Int) : ℚ) := by push_cast; rfl
  rw [bytes]
  cases memory with
  | none =>
    rw [covered_iff ResourceList.memory (by simp)]
    simp [EnoughMemory, memoryNeed]
  | some m =>
    simp only [Option.getD_some, Option.some.injEq, forall_eq', EnoughMemory]
    constructor
    · rintro ⟨covered, positive⟩
      rw [covered_iff ResourceList.memory (by omega)] at covered
      exact ⟨positive, covered⟩
    · rintro ⟨positive, enough⟩
      rw [covered_iff ResourceList.memory (by omega)]
      exact ⟨enough, positive⟩

private theorem memory_iff :
    EnoughMemory (memoryNeed pods) (parsePodsCpuAndMemory preset.info pods).memPerNode ↔
      (memoryNeed pods < 2 ^ 63 ∧ (2 ^ 20 : Int) ∣ memoryNeed pods) ∧
        (memoryNeed pods = 0 → ∀ m, preset.info.memPerNode = some m → 0 < m) := by
  have nonneg : 0 ≤ memoryNeed pods := Int.ceil_nonneg (largest_nonneg _ _)
  have bounded : ∀ m, (parsePodsCpuAndMemory preset.info pods).memPerNode = some m → m * 2 ^ 20 < 2 ^ 63 := by
    intro m set
    unfold parsePodsCpuAndMemory at set
    dsimp only at set
    split at set
    · exact Option.some.inj set ▸ getMemoryFromQuantity_lt _
    · exact preset_memory_lt preset m set
  -- An amount beyond 64 bits is not covered by any setting.
  by_cases below : memoryNeed pods < 2 ^ 63
  · have same : value (largest ResourceList.memory pods) = memoryNeed pods := value_eq (largest_nonneg _ _) below
    unfold parsePodsCpuAndMemory getMemoryFromQuantity
    dsimp only
    rw [same]
    split
    · rw [Int.tdiv_eq_ediv_of_nonneg nonneg]
      simp only [EnoughMemory]
      constructor
      · rintro ⟨positive, enough⟩
        exact ⟨⟨below, by omega⟩, by omega⟩
      · rintro ⟨⟨-, whole⟩, -⟩
        omega
    · have zero : memoryNeed pods = 0 := by omega
      rw [zero]
      cases preset.info.memPerNode with
      | none => simp [EnoughMemory]
      | some m =>
        simp only [EnoughMemory, forall_const, Option.some.injEq, forall_eq']
        constructor
        · rintro ⟨positive, -⟩
          exact ⟨⟨by decide, dvd_zero _⟩, positive⟩
        · rintro ⟨-, positive⟩
          exact ⟨positive, by omega⟩
  · constructor
    · intro enough
      generalize (parsePodsCpuAndMemory preset.info pods).memPerNode = memory at enough bounded
      cases memory with
      | none =>
        simp only [EnoughMemory] at enough
        omega
      | some m =>
        have fits := bounded m rfl
        simp only [EnoughMemory] at enough
        omega
    · rintro ⟨⟨fits, -⟩, -⟩
      exact absurd fits below

/-- The request of a component covers its members exactly if their needs survive the conversions on the
way to Slurm. -/
theorem request_covers_iff (parsed : componentSettings reads preset pods = .ok settings) :
    Covers settings pods ↔ Fits reads.classes preset pods := by
  have cpu := enough_iff.trans (cpu_iff parsed)
  have memory := (parseDeviceResources_ok parsed).2 ▸ enoughMemory_iff.trans memory_iff
  constructor
  · intro covers
    obtain ⟨below, wide, noCPU⟩ := cpu.mp ⟨covers.cpu, covers.cpuPositive⟩
    obtain ⟨whole, noMemory⟩ := memory.mp ⟨covers.memory, covers.memoryPositive⟩
    exact ⟨below, wide, noCPU, whole, noMemory⟩
  · intro fits
    obtain ⟨cpuCovered, cpuPositive⟩ := cpu.mpr ⟨fits.cpu, fits.cores, fits.noCPU⟩
    obtain ⟨memoryCovered, memoryPositive⟩ := memory.mpr ⟨fits.memory, fits.noMemory⟩
    exact ⟨cpuCovered, memoryCovered, cpuPositive, memoryPositive⟩

/- One Pod with one container that asks for CPUs and bytes. -/

private def plainReads : DeviceReads where
  classes := ⟨.empty, fun _ => .error .notFound⟩
  numaSpans := fun _ => none
  render := fun _ => ""

private def asking (cpus bytes : ℚ) : Member where
  name := "a"
  needs :=
    { initContainers := []
      containers := [⟨"c", false, ((∅ : ResourceList).insert resourceCPU cpus).insert resourceMemory bytes, ∅⟩]
      overhead := ∅
      requests := ∅
      limits := ∅
      distinct := nodup_singleton _ }

private theorem asking_fits : Fits plainReads.classes .unset [asking 2 67108864] where
  cpu := by decide +kernel
  cores := by
    intro before wide after split large
    have zero : wide = 0 := by
      have inside : wide ∈ [asking 2 67108864].map (coreCPUs plainReads.classes) := by simp [split]
      simpa [show coreCPUs plainReads.classes (asking 2 67108864) = 0 by decide +kernel] using inside
    omega
  noCPU := nofun
  memory := by decide +kernel
  noMemory := nofun

theorem request_covers_mebibytes :
    componentSettings plainReads .unset [asking 2 67108864] = .ok { cpuPerTask := some 2, memPerNode := some 64 } ∧
      Covers { cpuPerTask := some 2, memPerNode := some 64 } [asking 2 67108864] := by
  have parsed : componentSettings plainReads .unset [asking 2 67108864] =
      .ok { cpuPerTask := some 2, memPerNode := some 64 } := by decide +kernel
  exact ⟨parsed, (request_covers_iff parsed).mpr asking_fits⟩

/-- Half a mebibyte becomes a request for none, one and a half become one, and too many CPUs become a
negative number. -/
theorem request_below_need :
    componentSettings plainReads .unset [asking 0 524288] = .ok { memPerNode := some 0 } ∧
      componentSettings plainReads .unset [asking 0 1572864] = .ok { memPerNode := some 1 } ∧
      componentSettings plainReads .unset [asking (2 ^ 31) 0] = .ok { cpuPerTask := some (-2 ^ 31) } ∧
      ¬Covers { memPerNode := some 0 } [asking 0 524288] ∧
      ¬Covers { memPerNode := some 1 } [asking 0 1572864] ∧
      ¬Covers { cpuPerTask := some (-2 ^ 31) } [asking (2 ^ 31) 0] := by
  refine ⟨by decide +kernel, by decide +kernel, by decide +kernel, fun covers => ?_, fun covers => ?_,
    fun covers => ?_⟩
  · exact absurd (covers.memoryPositive 0 rfl) (by decide)
  · have short := (covers.memory (asking 0 1572864) mem_cons_self).1
    exact absurd short (by decide +kernel)
  · exact absurd (covers.cpuPositive (-2 ^ 31) rfl) (by decide)

end

end SlurmBridge.JobIR.Resources
