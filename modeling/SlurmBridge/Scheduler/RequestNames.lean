/- source: internal/scheduler/plugins/slurmbridge/deviceprofile.go
   digest: The requests appended to a claim for allocated generic resources have names of their own, by
     which they are found again. -/

import SlurmBridge.Scheduler.DeviceRequests

set_option autoImplicit false

namespace SlurmBridge.Scheduler.RequestNames

open Foundation.Checked Foundation.Text Dra.Profiles Scheduler.DeviceRequests
open Inventory.Allocation (DeviceClass)
open List

def deviceRequestsMaxSize : Nat := 32

inductive AllocationMode
  | exactCount | all

structure ExactDeviceRequest where
  deviceClassName : String
  allocationMode : AllocationMode
  count : Int

structure DeviceRequest where
  name : String
  exactly : Option ExactDeviceRequest

/-- An allocation with the name of its request. -/
structure NamedAllocation extends IndexedGRESAllocation where
  requestName : String

def NamedAllocation.deviceRequest (a : NamedAllocation) : DeviceRequest :=
  ⟨a.requestName, some ⟨a.request.deviceClassName, .exactCount, a.request.count⟩⟩

/-- Try the name, then the one with the next suffix.  The source has no fuel. -/
def freeName (used : List String) (gresName : String) : Nat → Nat → String → Option String
  | 0, _, _ => none
  | fuel + 1, suffix, requestName =>
    if requestName ∈ used then freeName used gresName fuel (suffix + 1) (gresName ++ "-" ++ numeral suffix)
    else some requestName

structure Appended where
  usedNames : List String
  requests : List DeviceRequest
  allocations : List NamedAllocation

def appendRequest (fuel : Nat) (state : Appended) (allocation : IndexedGRESAllocation) : Option Appended := do
  let gres := allocation.request.profile.gres.toOption.getD default
  let requestName ← freeName state.usedNames gres.name fuel 2 gres.name
  let named : NamedAllocation := ⟨allocation, requestName⟩
  return ⟨state.usedNames ++ [requestName], state.requests ++ [named.deviceRequest], state.allocations ++ [named]⟩

def appendIndexedGRESRequests (fuel : Nat) (requests : List DeviceRequest)
    (allocations : List IndexedGRESAllocation) : Option (List DeviceRequest × List NamedAllocation) :=
  (allocations.foldlM (appendRequest fuel) ⟨requests.map (·.name), requests, []⟩).map fun state =>
    (state.requests, state.allocations)

def claimRequest (requests : List DeviceRequest) (requestName : String) : Option DeviceRequest :=
  requests.find? (·.name = requestName)

def verifyProfile (registry : Registry) (deviceClasses : String → Option DeviceClass)
    (allocation : DeviceProfileRequest) : Except String DeviceProfile := do
  let deviceClass ← present ("DeviceClass " ++ allocation.deviceClassName.quote ++ " was not resolved while binding")
    (deviceClasses allocation.deviceClassName)
  let profile ← (registry.matchDeviceClass allocation.deviceClassName deviceClass).mapError fun e =>
    "verify DeviceClass " ++ allocation.deviceClassName.quote ++ " while binding: " ++ e
  require (profile.name = allocation.profile.name) ("DeviceClass " ++ allocation.deviceClassName.quote ++
    " changed from DeviceProfile " ++ allocation.profile.name.quote ++ " to " ++ profile.name.quote ++ " before binding")
  return profile

def verifyDeviceProfileRequest (registry : Registry) (requests : List DeviceRequest)
    (allocation : DeviceProfileRequest) (requestName : String) (deviceClasses : String → Option DeviceClass) :
    Except String DeviceProfile := do
  let request ← present ("ResourceClaim is missing DeviceProfile request " ++ requestName.quote ++ " for DeviceClass " ++
      allocation.deviceClassName.quote)
    (((claimRequest requests requestName).bind (·.exactly)).filter (·.deviceClassName = allocation.deviceClassName))
  require (request.count = allocation.count) ("ResourceClaim DeviceProfile request " ++ requestName.quote ++ " has count " ++
    toString request.count ++ ", expected exactly " ++ toString allocation.count)
  verifyProfile registry deviceClasses allocation

def candidate (gresName : String) : Nat → String
  | 0 => gresName
  | k + 1 => gresName ++ "-" ++ numeral (k + 2)

section
variable {used : List String} {gresName : String}

theorem candidate_injective : Function.Injective (candidate gresName) := by
  have suffixed : ∀ k, (candidate gresName (k + 1)).toList = gresName.toList ++ '-' :: (numeral (k + 2)).toList := by
    intro k
    simp [candidate]
  intro i j same
  have spread := congrArg String.toList same
  cases i with
  | zero =>
    cases j with
    | zero => rfl
    | succ j =>
      rw [suffixed, candidate] at spread
      simp at spread
  | succ i =>
    cases j with
    | zero =>
      rw [suffixed, candidate] at spread
      simp at spread
    | succ j =>
      rw [suffixed, suffixed, append_cancel_left_eq, cons.injEq] at spread
      have equal := numeral_injective (String.toList_injective spread.2)
      omega

theorem exists_free (used : List String) (gresName : String) :
    ∃ i ≤ used.length, candidate gresName i ∉ used := by
  by_contra taken
  push Not at taken
  have distinct : ((List.range (used.length + 1)).map (candidate gresName)).Nodup :=
    nodup_range.map candidate_injective
  have within : (List.range (used.length + 1)).map (candidate gresName) ⊆ used := by
    intro name inside
    obtain ⟨i, below, rfl⟩ := mem_map.mp inside
    exact taken i (by rw [mem_range] at below; omega)
  have short := (subperm_of_subset distinct within).length_le
  rw [length_map, length_range] at short
  omega

private theorem freeName_of_least {fuel k i : Nat} (below : i < fuel) (free : candidate gresName (k + i) ∉ used)
    (least : ∀ m < i, candidate gresName (k + m) ∈ used) :
    freeName used gresName fuel (k + 2) (candidate gresName k) = some (candidate gresName (k + i)) := by
  induction fuel generalizing k i with
  | zero => omega
  | succ fuel ih =>
    rw [freeName]
    cases i with
    | zero => rw [if_neg (by simpa using free), Nat.add_zero]
    | succ i =>
      have shift : ∀ m, k + (m + 1) = k + 1 + m := by omega
      rw [if_pos (by simpa using least 0 (by omega)), shift i]
      refine ih (by omega : i < fuel) (shift i ▸ free) fun m before => ?_
      exact shift m ▸ least (m + 1) (by omega)

theorem freeName_spec (used : List String) (gresName : String) : ∃ i ≤ used.length,
    candidate gresName i ∉ used ∧ ∀ fuel, used.length < fuel →
      freeName used gresName fuel 2 gresName = some (candidate gresName i) := by
  have some' := exists_free used gresName
  have exists' : ∃ i, candidate gresName i ∉ used := some'.imp fun _ found => found.2
  obtain ⟨j, short, free⟩ := some'
  have least : Nat.find exists' ≤ j := Nat.find_min' exists' free
  refine ⟨Nat.find exists', by omega, Nat.find_spec exists', fun fuel enough => ?_⟩
  have found := @freeName_of_least used gresName fuel 0 (Nat.find exists') (by omega)
  rw [Nat.zero_add] at found
  refine found (Nat.find_spec exists') fun m before => ?_
  rw [Nat.zero_add]
  exact not_not.mp (Nat.find_min exists' before)

end

section
variable {p : DeviceProfile} {g : GenericResource}

theorem gres_label (has : p.gres = .ok g) : isDNS1123Label g.name = true ∧ g.name.utf8ByteSize ≤ 60 := by
  unfold DeviceProfile.gres at has
  split at has
  · cases has
  · simp only [bind_eq_ok, require_eq_ok, pure_eq_ok] at has
    obtain ⟨-, -, -, short, -, label, -, -, -, -, rfl⟩ := has
    exact ⟨label, short⟩

theorem candidate_label (has : p.gres = .ok g) {i : Nat} (few : i < deviceRequestsMaxSize) :
    isDNS1123Label (candidate g.name i) = true := by
  obtain ⟨label, short⟩ := gres_label has
  cases i with
  | zero => exact label
  | succ i =>
    have size : (numeral (i + 2)).utf8ByteSize ≤ 2 := by
      have all : ∀ n < 33, (numeral n).utf8ByteSize ≤ 2 := by decide +kernel
      exact all (i + 2) (by unfold deviceRequestsMaxSize at few; omega)
    have digits : ∀ c ∈ (numeral (i + 2)).toList, c.isDigit = true := fun c => isDigit_of_mem_numeral
    have some' : (numeral (i + 2)).toList ≠ [] := by simp [numeral]
    simp only [isDNS1123Label, isFramed, Bool.and_eq_true, decide_eq_true_eq] at label ⊢
    obtain ⟨⟨⟨inner, first⟩, -⟩, -⟩ := label
    have spread : (candidate g.name (i + 1)).toList = g.name.toList ++ '-' :: (numeral (i + 2)).toList := by
      simp [candidate]
    rw [spread]
    refine ⟨⟨⟨?_, ?_⟩, ?_⟩, ?_⟩
    · rw [all_append, inner, all_cons, Bool.true_and]
      exact all_eq_true.mpr fun c inside => by simp [digits c inside]
    · cases letters : g.name.toList with
      | nil => simp [letters] at first
      | cons c rest => simpa [letters] using first
    · rw [getLast?_append_cons, ← singleton_append, getLast?_append_of_ne_nil _ some',
        getLast?_eq_some_getLast some', Option.any_some, digits _ (getLast_mem some'), Bool.or_true]
    · rw [candidate, String.utf8ByteSize_append, String.utf8ByteSize_append]
      have dash : "-".utf8ByteSize = 1 := by decide
      omega

end

section
variable {requests : List DeviceRequest} {allocations : List IndexedGRESAllocation}

private theorem append_run {done : List NamedAllocation} (distinct : (requests.map (·.name)).Nodup)
    (valid : ∀ a ∈ allocations, a.request.profile.gres.isOk = true)
    (few : requests.length + allocations.length ≤ deviceRequestsMaxSize) :
    ∃ named : List NamedAllocation, named.map (·.toIndexedGRESAllocation) = allocations ∧
      (∀ fuel, deviceRequestsMaxSize ≤ fuel →
        allocations.foldlM (appendRequest fuel) ⟨requests.map (·.name), requests, done⟩ =
          some ⟨(requests ++ named.map (·.deviceRequest)).map (·.name), requests ++ named.map (·.deviceRequest),
            done ++ named⟩) ∧
      ((requests ++ named.map (·.deviceRequest)).map (·.name)).Nodup ∧
      ∀ a ∈ named, isDNS1123Label a.requestName = true := by
  induction allocations generalizing requests done with
  | nil => exact ⟨[], rfl, fun _ _ => by simp, by simpa using distinct, nofun⟩
  | cons a rest ih =>
    obtain ⟨g, has⟩ := exists_ok (valid a mem_cons_self)
    obtain ⟨i, short, free, found⟩ := freeName_spec (requests.map (·.name)) g.name
    rw [length_map] at short found
    rw [length_cons] at few
    let named : NamedAllocation := ⟨a, candidate g.name i⟩
    have distinct' : ((requests ++ [named.deviceRequest]).map (·.name)).Nodup := by
      rw [map_append, map_singleton, ← concat_eq_append, nodup_concat]
      exact ⟨free, distinct⟩
    obtain ⟨later, same, run, apart, labels⟩ := @ih (requests ++ [named.deviceRequest]) (done ++ [named]) distinct'
      (fun b inside => valid b (mem_cons_of_mem _ inside)) (by simp only [length_append, length_singleton]; omega)
    refine ⟨named :: later, by rw [map_cons, same], fun fuel enough => ?_, by simpa using apart, ?_⟩
    · have step : appendRequest fuel ⟨requests.map (·.name), requests, done⟩ a =
          some ⟨(requests ++ [named.deviceRequest]).map (·.name), requests ++ [named.deviceRequest], done ++ [named]⟩ := by
        rw [appendRequest, has]
        change (freeName _ g.name fuel 2 g.name).bind _ = _
        rw [found fuel (by omega), map_append]
        rfl
      rw [foldlM_cons, step]
      simpa using run fuel enough
    · rw [forall_mem_cons]
      exact ⟨candidate_label has (by omega), labels⟩

theorem find?_of_nodup {α β : Type} [DecidableEq β] {f : α → β} {l : List α} (nodup : (l.map f).Nodup) {a : α}
    (member : a ∈ l) : l.find? (fun b => f b = f a) = some a := by
  induction l with
  | nil => cases member
  | cons b l ih =>
    rw [map_cons, nodup_cons] at nodup
    rcases mem_cons.mp member with rfl | later
    · simp
    · have differs : f b ≠ f a := fun same => nodup.1 (same ▸ mem_map_of_mem later)
      simpa [differs] using ih nodup.2 later

/-- The appended requests have names of their own, which are valid labels, and are found by them. -/
theorem appended_requests_found (registry : Registry) (deviceClasses : String → Option DeviceClass)
    (requests : List DeviceRequest) (allocations : List IndexedGRESAllocation)
    (distinct : (requests.map (·.name)).Nodup) (valid : ∀ a ∈ allocations, a.request.profile.gres.isOk = true)
    (few : requests.length + allocations.length ≤ deviceRequestsMaxSize) :
    ∃ named : List NamedAllocation, named.map (·.toIndexedGRESAllocation) = allocations ∧
      (∀ fuel, deviceRequestsMaxSize ≤ fuel → appendIndexedGRESRequests fuel requests allocations =
        some (requests ++ named.map (·.deviceRequest), named)) ∧
      ((requests ++ named.map (·.deviceRequest)).map (·.name)).Nodup ∧
      ∀ a ∈ named, isDNS1123Label a.requestName = true ∧
        claimRequest (requests ++ named.map (·.deviceRequest)) a.requestName = some a.deviceRequest ∧
        verifyDeviceProfileRequest registry (requests ++ named.map (·.deviceRequest)) a.request a.requestName
          deviceClasses = verifyProfile registry deviceClasses a.request := by
  obtain ⟨named, same, run, apart, labels⟩ := @append_run requests allocations [] distinct valid few
  refine ⟨named, same, fun fuel enough => ?_, apart, fun a member => ?_⟩
  · rw [appendIndexedGRESRequests, run fuel enough]
    rfl
  · have found : claimRequest (requests ++ named.map (·.deviceRequest)) a.requestName = some a.deviceRequest :=
      find?_of_nodup apart (mem_append_right _ (mem_map_of_mem member))
    refine ⟨labels a member, found, ?_⟩
    have own : ((claimRequest (requests ++ named.map (·.deviceRequest)) a.requestName).bind (·.exactly)).filter
        (·.deviceClassName = a.request.deviceClassName) =
          some ⟨a.request.deviceClassName, .exactCount, a.request.count⟩ := by
      rw [found]
      exact Option.filter_some_pos (decide_eq_true rfl)
    rw [verifyDeviceProfileRequest, own]
    change (require (a.request.count = a.request.count) _ >>= fun _ => _) = _
    rw [require, if_pos rfl]
    rfl

private def holding (gresName : String) : IndexedGRESAllocation :=
  ⟨⟨gresName, ⟨"a100", "gpu.example.com", gresName, .indexedGRES gresName⟩, 1⟩, [0]⟩

/-- A resource whose name looks like a suffixed one gets a suffix of its own. -/
theorem appended_requests_shadowed :
    (appendIndexedGRESRequests 32 [⟨"gpu", none⟩] [holding "gpu", holding "gpu-2"]).map
        (fun appended => appended.1.map (·.name)) = some ["gpu", "gpu-2", "gpu-2-2"] ∧
      ∃ named : List NamedAllocation, named.map (·.toIndexedGRESAllocation) = [holding "gpu", holding "gpu-2"] ∧
        ∀ a ∈ named, isDNS1123Label a.requestName = true := by
  obtain ⟨named, same, -, -, found⟩ := appended_requests_found .empty
    (fun _ => none) [⟨"gpu", none⟩] [holding "gpu", holding "gpu-2"] (by decide) (by decide +kernel) (by decide)
  exact ⟨by decide +kernel, named, same, fun a member => (found a member).1⟩

end

end SlurmBridge.Scheduler.RequestNames
