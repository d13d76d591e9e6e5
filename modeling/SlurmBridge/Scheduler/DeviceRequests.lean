/- source: internal/scheduler/plugins/slurmbridge/deviceprofile.go, dra.go,
     internal/utils/slurmjobir/slurmjobir.go
   digest: The devices that binding takes for a Pod are those that the translation asked Slurm for,
     and the indexes that Slurm granted are shared out without overlap. -/

import Mathlib.Algebra.BigOperators.Ring.Finset
import Mathlib.Algebra.Order.BigOperators.Group.List
import Mathlib.Algebra.Order.Ring.Rat
import SlurmBridge.JobIR.Resources
import SlurmBridge.Node.Configuration

set_option autoImplicit false

namespace SlurmBridge.Scheduler.DeviceRequests

open Foundation.Text Foundation.Checked Foundation.Merging Kube.PodResources Dra.Profiles
open JobIR.Resources
open Node.Configuration (trimSpace)
open List AList

structure ClassRequest where
  container : String
  className : String
  count : Int
  deriving DecidableEq

def classRequest (container : String) (e : Σ _ : String, ℚ) : Option ClassRequest :=
  match after? resourceDeviceClassPrefix e.1 with
  | none => none
  | some className => if value e.2 ≤ 0 then none else some ⟨container, className, value e.2⟩

/-- The requests of all containers, init containers first. -/
def classRequests (pod : PodNeeds) : List ClassRequest :=
  (pod.initContainers ++ pod.containers).flatMap fun c => c.requests.entries.filterMap (classRequest c.name)

def validateDeviceClassRequests (pod : PodNeeds) : Except String Unit := do
  let _ ← (classRequests pod).foldlM (fun (requesting : AList (fun _ : String => String)) r =>
    match requesting.lookup r.className with
    | some existing =>
      if existing ≠ r.container then
        throw ("DRA DeviceClass " ++ r.className.quote ++ " is requested by multiple containers " ++
          existing.quote ++ " and " ++ r.container.quote ++
          "; slurm-bridge currently supports one requesting container per DeviceClass")
      else
        pure (requesting.insert r.className r.container)
    | none => pure (requesting.insert r.className r.container)) ∅
  return ()

def deviceClassRequestCounts (pod : PodNeeds) : AList (fun _ : String => Int) :=
  (classRequests pod).foldl (fun counts r => counts.insert r.className r.count) ∅

structure DeviceProfileRequest where
  deviceClassName : String
  profile : DeviceProfile
  count : Int
  deriving DecidableEq

/-- The profile and the count of each requested class, by class name. -/
def deviceProfileRequests (classes : Classes) (pod : PodNeeds) : Except String (List DeviceProfileRequest) :=
  let counts := deviceClassRequestCounts pod
  (counts.keys.insertionSort (· ≤ ·)).mapM fun className => do
    let profile ← resolveDeviceClass classes className
    return ⟨className, profile, (counts.lookup className).getD 0⟩

/-- Indexes as Slurm writes them, with what their expansion gives. -/
structure IndexList where
  text : String
  expanded : Except String (List String)

/-- What Slurm granted of one generic resource. -/
structure GresLayout where
  count : Int
  index : IndexList
  name : String
  type : String

def atoi (s : String) : Option Int :=
  match s.toList with
  | '-' :: digits => (parseNumeral (2 ^ 63 + 1) (.ofList digits)).map fun n => -(n : Int)
  | '+' :: digits => (parseNumeral (2 ^ 63) (.ofList digits)).map fun n => (n : Int)
  | _ => (parseNumeral (2 ^ 63) s).map fun n => (n : Int)

def expandGRESIndexes (gres : GresLayout) : Except String (List Int) := do
  require (trimSpace gres.index.text ≠ "")
    ("missing indexes for allocated Slurm GRES " ++ gres.name ++ ":" ++ gres.type)
  let expanded ← gres.index.expanded.mapError fun e =>
    "expand indexes for Slurm GRES " ++ gres.name ++ ":" ++ gres.type ++ ": " ++ e
  expanded.mapM fun text => present ("parse index " ++ text.quote ++ " for Slurm GRES " ++ gres.name ++ ":" ++
    gres.type) (atoi text)

structure IndexedGRESAllocation where
  request : DeviceProfileRequest
  indexes : List Int
  deriving DecidableEq

def indexedRequests (requests : List DeviceProfileRequest) :
    Except String (List (DeviceProfileRequest × GenericResource)) :=
  (requests.filter (·.profile.usesIndexedGRES)).mapM fun request => do
    let gres ← request.profile.gres
    return (request, gres)

def addIndexes (profileGRES : AList (fun _ : String => GenericResource)) (indexes : AList (fun _ : String => List Int))
    (resource : GresLayout) : Except String (AList (fun _ : String => List Int)) :=
  match profileGRES.lookup resource.type with
  | none => return indexes
  | some gres =>
    if resource.name ≠ gres.name then
      return indexes
    else do
      let new ← expandGRESIndexes resource
      return indexes.insert resource.type ((indexes.lookup resource.type).getD [] ++ new)

/-- How far the indexes of each profile are given away, and the allocations so far. -/
structure Cursors where
  used : AList (fun _ : String => Nat)
  allocations : List IndexedGRESAllocation

def takeIndexes (indexes : AList (fun _ : String => List Int)) (cursors : Cursors) (request : DeviceProfileRequest) :
    Except String Cursors :=
  match indexes.lookup request.profile.name with
  | none => .error ("DeviceClass " ++ request.deviceClassName.quote ++ " resolves to DeviceProfile " ++
      request.profile.name.quote ++ " but the Slurm allocation has no matching indexed GRES")
  | some list =>
    let start := (cursors.used.lookup request.profile.name).getD 0
    if request.count > (list.length : Int) - start then
      .error ("not enough allocated Slurm GRES indexes for DeviceClass " ++ request.deviceClassName.quote ++
        ": requested " ++ toString request.count ++ ", allocated " ++ toString ((list.length : Int) - start))
    else
      .ok ⟨cursors.used.insert request.profile.name (start + request.count.toNat),
        cursors.allocations ++ [⟨request, (list.drop start).take request.count.toNat⟩]⟩

/-- Share out the granted indexes of each profile, request by request. -/
def allocateIndexedGRESProfiles (requests : List DeviceProfileRequest) (gresResources : List GresLayout) :
    Except String (List IndexedGRESAllocation) := do
  let indexed ← indexedRequests requests
  let profileGRES := indexed.foldl (fun (map : AList (fun _ : String => GenericResource)) r =>
    map.insert r.1.profile.name r.2) ∅
  let indexes ← gresResources.foldlM (addIndexes profileGRES) ∅
  let cursors ← (indexed.map Prod.fst).foldlM (takeIndexes indexes) ⟨∅, []⟩
  return cursors.allocations

section
variable {pod : PodNeeds} {r r' : ClassRequest}

def classResource (className : String) : String := resourceDeviceClassPrefix ++ className

theorem after?_classResource (className : String) :
    after? resourceDeviceClassPrefix (classResource className) = some className := after?_eq_some.mpr rfl

theorem mem_classRequests : r ∈ classRequests pod ↔
    ∃ c ∈ pod.initContainers ++ pod.containers, ∃ q, c.requests.lookup (classResource r.className) = some q ∧
      c.name = r.container ∧ value q = r.count ∧ 0 < r.count := by
  unfold classRequests
  rw [mem_flatMap]
  refine exists_congr fun c => and_congr_right fun _ => ?_
  rw [mem_filterMap]
  constructor
  · rintro ⟨⟨name, q⟩, inside, found⟩
    unfold classRequest at found
    split at found
    · cases found
    · rename_i className cut
      split at found
      · cases found
      · rename_i positive
        obtain rfl := Option.some.inj found
        obtain rfl := after?_eq_some.mp cut
        exact ⟨q, mem_lookup_iff.mpr inside, rfl, rfl, not_le.mp positive⟩
  · rintro ⟨q, found, named, counted, positive⟩
    refine ⟨⟨_, q⟩, mem_lookup_iff.mp found, ?_⟩
    unfold classRequest
    rw [after?_classResource]
    dsimp only
    rw [if_neg (by omega), counted, named]

section
variable (accepted : validateDeviceClassRequests pod = .ok ())

include accepted

theorem accepted_sole (inside : r ∈ classRequests pod)
    (inside' : r' ∈ classRequests pod) (same : r.className = r'.className) : r.container = r'.container := by
  obtain ⟨requesting, folded, -⟩ := bind_eq_ok.mp accepted
  have recorded : ∀ r ∈ classRequests pod, requesting.lookup r.className = some r.container := by
    refine foldlM_ok (fun visited (requesting : AList (fun _ : String => String)) =>
      ∀ r ∈ visited, requesting.lookup r.className = some r.container) ?_ (by simp) folded
    intro visited r requesting requesting' known step r' among
    have entered : requesting' = requesting.insert r.className r.container ∧
        ∀ existing, requesting.lookup r.className = some existing → existing = r.container := by
      split at step
      · rename_i existing found
        split at step
        · cases step
        · rename_i agrees
          refine ⟨(Except.ok.inj step).symm, fun other found' => ?_⟩
          rw [found] at found'
          exact Option.some.inj found' ▸ not_not.mp agrees
      · rename_i missing
        refine ⟨(Except.ok.inj step).symm, fun other found => ?_⟩
        rw [missing] at found
        cases found
    obtain ⟨rfl, agrees⟩ := entered
    rcases mem_append.mp among with among | last
    · by_cases again : r'.className = r.className
      · rw [again, lookup_insert, agrees r'.container (again ▸ known r' among)]
      · rw [lookup_insert_ne again]
        exact known r' among
    · obtain rfl := mem_singleton.mp last
      exact lookup_insert _
  have first := recorded r inside
  rw [same, recorded r' inside'] at first
  exact (Option.some.inj first).symm

theorem accepted_unique (inside : r ∈ classRequests pod)
    (inside' : r' ∈ classRequests pod) (same : r.className = r'.className) : r = r' := by
  have container := accepted_sole accepted inside inside' same
  obtain ⟨c, stored, q, found, named, counted, -⟩ := mem_classRequests.mp inside
  obtain ⟨c', stored', q', found', named', counted', -⟩ := mem_classRequests.mp inside'
  obtain rfl : c = c' :=
    inj_on_of_nodup_map pod.distinct stored stored' (named.trans (container.trans named'.symm))
  rw [same, found'] at found
  obtain rfl := Option.some.inj found
  cases r
  cases r'
  simp_all

theorem lookup_deviceClassRequestCounts {className : String} {count : Int} :
    (deviceClassRequestCounts pod).lookup className = some count ↔
      ∃ r ∈ classRequests pod, r.className = className ∧ r.count = count :=
  lookup_foldl_insert fun _ inside _ inside' same => congrArg _ (accepted_unique accepted inside inside' same)

end

end

section
variable {pod : PodNeeds}

/-- Classes are requested in positive whole numbers, with limits that equal the requests, and are not part
of the Pod's overhead. -/
structure WholeDevices (pod : PodNeeds) : Prop where
  limits : ∀ c ∈ pod.initContainers ++ pod.containers, ∀ className,
    c.limits.lookup (classResource className) = c.requests.lookup (classResource className)
  whole : ∀ c ∈ pod.initContainers ++ pod.containers, ∀ className q,
    c.requests.lookup (classResource className) = some q → ∃ n : Int, q = n ∧ 0 < n ∧ n < 2 ^ 63
  overhead : ∀ className, pod.overhead.lookup (classResource className) = none

theorem not_podLevel (className : String) : isSupportedPodLevelResource (classResource className) = false := by
  have first : (classResource className).toList.head? = some 'd' := by
    rw [classResource, String.toList_append]
    rfl
  have apart : ∀ name : String, name.toList.head? ≠ some 'd' → classResource className ≠ name := by
    rintro _ other rfl
    exact other first
  unfold isSupportedPodLevelResource
  rw [Bool.or_eq_false_iff, Bool.or_eq_false_iff]
  refine ⟨⟨beq_eq_false_iff_ne.mpr (apart _ (by decide)), beq_eq_false_iff_ne.mpr (apart _ (by decide))⟩, ?_⟩
  cases found : after? resourceHugePagesPrefix (classResource className) with
  | none => rfl
  | some rest =>
    refine absurd (after?_eq_some.mp found) (apart _ ?_)
    rw [String.toList_append]
    intro other
    cases other

theorem value_whole {n : Int} (positive : 0 < n) (below : n < 2 ^ 63) : value (n : ℚ) = n := by
  have nonneg : (0 : ℚ) ≤ n := by exact_mod_cast le_of_lt positive
  rw [value_eq nonneg (by rwa [Int.ceil_intCast]), Int.ceil_intCast]

theorem lookup_podLimits_class (devices : WholeDevices pod) (accepted : validateDeviceClassRequests pod = .ok ())
    {className : String} {q : ℚ} :
    (podLimits pod).lookup (classResource className) = some q ↔
      ∃ r ∈ classRequests pod, r.className = className ∧ (r.count : ℚ) = q := by
  have containers : (podLimits pod).lookup (classResource className) =
      (aggregate Container.limits pod).lookup (classResource className) := by
    unfold podLimits
    rw [lookup_addOverhead (devices.overhead className), lookup_overridePodLevel (not_podLevel className)]
  -- What a container has for the class is a request.
  have requested : ∀ c ∈ pod.initContainers ++ pod.containers, ∀ q,
      c.limits.lookup (classResource className) = some q →
      ∃ n : Int, q = n ∧ (⟨c.name, className, n⟩ : ClassRequest) ∈ classRequests pod := by
    intro c inside q found
    rw [devices.limits c inside] at found
    obtain ⟨n, rfl, positive, below⟩ := devices.whole c inside className q found
    exact ⟨n, rfl, mem_classRequests.mpr ⟨c, inside, n, found, rfl, value_whole positive below, positive⟩⟩
  rw [containers]
  by_cases some : ∃ c ∈ pod.initContainers ++ pod.containers, ∃ q, c.limits.lookup (classResource className) = some q
  · obtain ⟨c, inside, amount, found⟩ := some
    obtain ⟨n, rfl, request⟩ := requested c inside amount found
    have sole : ∀ c' ∈ pod.initContainers ++ pod.containers, c'.name ≠ c.name →
        c'.limits.lookup (classResource className) = none := by
      intro c' inside' differs
      cases found' : c'.limits.lookup (classResource className) with
      | none => rfl
      | some q' =>
        obtain ⟨n', rfl, request'⟩ := requested c' inside' q' found'
        exact absurd (accepted_sole accepted request' request rfl) differs
    rw [lookup_aggregate_sole inside found sole]
    constructor
    · intro same
      exact ⟨_, request, rfl, Option.some.inj same⟩
    · rintro ⟨r, among, rfl, rfl⟩
      rw [accepted_unique accepted among request rfl]
  · push Not at some
    have none : (aggregate Container.limits pod).lookup (classResource className) = none :=
      lookup_aggregate_none fun c inside => Option.eq_none_iff_forall_not_mem.mpr (some c inside)
    rw [none]
    refine ⟨nofun, ?_⟩
    rintro ⟨r, among, rfl, rfl⟩
    obtain ⟨c, inside, q, found, -⟩ := mem_classRequests.mp among
    exact absurd ((devices.limits c inside _).trans found) (some c inside q)

end

section
variable {classes : Classes} {gres : GenericResource} {pod : Member} {resources : GresAmounts} {core : ℚ}

def backs (classes : Classes) (gres : GenericResource) (className : String) : Bool :=
  match resolveDeviceClass classes className with
  | .ok profile => decide (profile.gres = .ok gres)
  | .error _ => false

variable {profile : DeviceProfile}

theorem backs_iff {className : String} (resolved : resolveDeviceClass classes className = .ok profile) :
    backs classes gres className = true ↔ profile.gres = .ok gres := by
  unfold backs
  rw [resolved]
  exact decide_eq_true_iff

def share (classes : Classes) (gres : GenericResource) (e : String × ℚ) : ℚ :=
  if 0 < e.2 ∧ backs classes gres e.1 = true then e.2 else 0

def classAmount (e : Σ _ : String, ℚ) : Option (String × ℚ) :=
  (after? resourceDeviceClassPrefix e.1).map (·, e.2)

private theorem addLimit_ok {resources' : GresAmounts} {e : Σ _ : String, ℚ} (typed : gres.type ≠ "")
    (added : addLimit classes resources e = .ok resources') :
    (resources'.lookup gres).getD 0 =
      (resources.lookup gres).getD 0 + ((classAmount e).map (share classes gres)).getD 0 := by
  unfold addLimit at added
  unfold classAmount
  split at added
  · -- Nothing is added of an amount that is not positive.
    rename_i nothing
    rw [← pure_eq_ok.mp added]
    cases after? resourceDeviceClassPrefix e.1 with
    | none => simp
    | some className => simp [share, not_lt.mpr nothing]
  · rename_i positive
    split at added
    · rename_i plugin
      have foreign : after? resourceDeviceClassPrefix e.1 = none := by
        rcases plugin with name | name <;> rw [name] <;> decide
      have other : gres ≠ ⟨"gpu", ""⟩ := by
        rintro rfl
        exact typed rfl
      rw [← pure_eq_ok.mp added, foreign, addGRESQuantity, lookup_insert_ne other]
      simp
    · split at added
      · rename_i foreign
        rw [← pure_eq_ok.mp added, foreign]
        simp
      · rename_i className cut
        obtain ⟨profile, resolved, rest⟩ := bind_eq_ok.mp added
        have added : share classes gres (className, e.2) = if profile.gres = .ok gres then e.2 else 0 := by
          simp only [share, backs_iff resolved, not_le.mp positive, true_and]
        rw [cut]
        simp only [Option.map_some, Option.getD_some, added]
        split at rest
        · rename_i cores
          have none : profile.gres ≠ .ok gres := by
            intro has
            have indexed := usesIndexedGRES_of_gres has
            unfold DeviceProfile.usesIndexedGRES at indexed
            rw [beq_iff_eq.mp cores] at indexed
            cases indexed
          rw [← pure_eq_ok.mp rest, if_neg none, add_zero]
        · split at rest
          · cases rest
          · obtain ⟨own, has, entered⟩ := bind_eq_ok.mp rest
            rw [← pure_eq_ok.mp entered, addGRESQuantity, has]
            by_cases same : own = gres
            · subst same
              rw [lookup_insert, if_pos rfl, Option.getD_some]
            · rw [lookup_insert_ne (Ne.symm same), if_neg fun equal => same (Except.ok.inj equal), add_zero]

theorem podDeviceResources_amount (typed : gres.type ≠ "")
    (reported : podDeviceResources classes pod = .ok (resources, core)) :
    (resources.lookup gres).getD 0 =
      (((podLimits pod.needs).entries.filterMap classAmount).map (share classes gres)).sum := by
  obtain ⟨coreRequest, -, reported⟩ := bind_eq_ok.mp reported
  obtain ⟨coreLimit, -, reported⟩ := bind_eq_ok.mp reported
  obtain ⟨-, -, reported⟩ := bind_eq_ok.mp reported
  obtain ⟨entered, folded, same⟩ := bind_eq_ok.mp reported
  obtain ⟨rfl, -⟩ := Prod.mk.inj (pure_eq_ok.mp same)
  refine foldlM_ok (fun visited (resources : GresAmounts) => (resources.lookup gres).getD 0 =
    ((visited.filterMap classAmount).map (share classes gres)).sum) ?_ (by simp) folded
  intro visited e resources resources' known step
  rw [addLimit_ok typed step, known, filterMap_append, map_append, sum_append]
  cases found : classAmount e with
  | none => simp [found]
  | some amount => simp [found]

theorem classAmounts_perm {needs : PodNeeds} (devices : WholeDevices needs)
    (accepted : validateDeviceClassRequests needs = .ok ()) :
    ((podLimits needs).entries.filterMap classAmount).Perm
      ((deviceClassRequestCounts needs).entries.map fun e => (e.1, (e.2 : ℚ))) := by
  have nodup : ∀ {β : Type} (map : AList (fun _ : String => β)), map.entries.Nodup :=
    fun map => List.NodupKeys.nodup map.nodupKeys
  refine (perm_ext_iff_of_nodup ?_ ?_).mpr ?_
  · refine (nodup _).filterMap ?_
    rintro ⟨name, q⟩ ⟨name', q'⟩ ⟨className, amount⟩ found found'
    simp only [classAmount, Option.mem_def, Option.map_eq_some_iff] at found found'
    obtain ⟨_, cut, same⟩ := found
    obtain ⟨_, cut', same'⟩ := found'
    obtain ⟨rfl, rfl⟩ := Prod.mk.inj same
    obtain ⟨rfl, rfl⟩ := Prod.mk.inj same'
    rw [after?_eq_some.mp cut, after?_eq_some.mp cut']
  · refine (nodup _).map ?_
    rintro ⟨name, n⟩ ⟨name', n'⟩ same
    obtain ⟨rfl, count⟩ := Prod.mk.inj same
    obtain rfl : n = n' := Int.cast_inj.mp count
    rfl
  · rintro ⟨className, q⟩
    have listed : (className, q) ∈ (podLimits needs).entries.filterMap classAmount ↔
        (podLimits needs).lookup (classResource className) = some q := by
      rw [← Option.mem_def, mem_lookup_iff, mem_filterMap]
      constructor
      · rintro ⟨⟨name, amount⟩, inside, found⟩
        simp only [classAmount, Option.map_eq_some_iff] at found
        obtain ⟨_, cut, same⟩ := found
        obtain ⟨rfl, rfl⟩ := Prod.mk.inj same
        obtain rfl := after?_eq_some.mp cut
        exact inside
      · intro inside
        refine ⟨_, inside, ?_⟩
        rw [classAmount, after?_classResource]
        rfl
    have counted : (className, q) ∈ (deviceClassRequestCounts needs).entries.map (fun e => (e.1, (e.2 : ℚ))) ↔
        ∃ n : Int, (deviceClassRequestCounts needs).lookup className = some n ∧ (n : ℚ) = q := by
      rw [mem_map]
      constructor
      · rintro ⟨⟨name, n⟩, inside, same⟩
        obtain ⟨rfl, rfl⟩ := Prod.mk.inj same
        exact ⟨n, mem_lookup_iff.mpr inside, rfl⟩
      · rintro ⟨n, found, rfl⟩
        exact ⟨⟨className, n⟩, mem_lookup_iff.mp found, rfl⟩
    rw [listed, counted, lookup_podLimits_class devices accepted]
    simp only [lookup_deviceClassRequestCounts accepted]
    constructor
    · rintro ⟨r, among, named, amount⟩
      exact ⟨r.count, ⟨r, among, named, rfl⟩, amount⟩
    · rintro ⟨n, ⟨r, among, named, rfl⟩, amount⟩
      exact ⟨r, among, named, amount⟩

variable {requests : List DeviceProfileRequest}

private theorem requested_sum {counts : String → Int} {names : List String}
    (inside : profile ∈ classes.registry.profiles) (has : profile.gres = .ok gres)
    (each : List.Forall₂ (fun className (r : DeviceProfileRequest) => (do let profile ← resolveDeviceClass classes className return ⟨className, profile, counts className⟩ : Except String DeviceProfileRequest) = .ok r) names requests) :
    ((requests.filter fun r => r.profile = profile).map DeviceProfileRequest.count).sum =
      (names.map fun className => if backs classes gres className then counts className else 0).sum := by
  induction each with
  | nil => rfl
  | cons first _ ih =>
    obtain ⟨own, resolved, same⟩ := bind_eq_ok.mp first
    obtain rfl := pure_eq_ok.mp same
    rw [map_cons, sum_cons, ← ih, filter_cons]
    by_cases equal : own = profile
    · subst equal
      rw [if_pos ((backs_iff resolved).mpr has), if_pos (by simp)]
      rfl
    · have other : ¬backs classes gres _ = true := fun backing =>
        equal (gres_injective (resolveDeviceClass_mem resolved) inside ((backs_iff resolved).mp backing) has)
      rw [if_neg other, if_neg (by simpa using equal), zero_add]

/-- The amount that the translation reports for a profile is the sum of the counts that binding takes for
the classes of the profile. -/
theorem reported_eq_requested (devices : WholeDevices pod.needs)
    (accepted : validateDeviceClassRequests pod.needs = .ok ())
    (reported : podDeviceResources classes pod = .ok (resources, core))
    (requested : deviceProfileRequests classes pod.needs = .ok requests)
    (inside : profile ∈ classes.registry.profiles) (has : profile.gres = .ok gres) :
    (resources.lookup gres).getD 0 =
      (((requests.filter fun r => r.profile = profile).map DeviceProfileRequest.count).sum : Int) := by
  have typed : gres.type ≠ "" := (gres_type has).1 ▸ (gres_type has).2
  let counts := deviceClassRequestCounts pod.needs
  have found : ∀ e ∈ counts.entries, (counts.lookup e.1).getD 0 = e.2 ∧ 0 < e.2 := by
    rintro ⟨className, n⟩ listed
    have found : counts.lookup className = some n := mem_lookup_iff.mpr listed
    obtain ⟨r, among, -, rfl⟩ := (lookup_deviceClassRequestCounts accepted).mp found
    obtain ⟨-, -, -, -, -, -, positive⟩ := mem_classRequests.mp among
    exact ⟨by rw [found]; rfl, positive⟩
  have shares : ∀ e ∈ counts.entries, share classes gres (e.1, (e.2 : ℚ)) =
      ((if backs classes gres e.1 then (counts.lookup e.1).getD 0 else 0 : Int) : ℚ) := by
    intro e listed
    obtain ⟨same, positive⟩ := found e listed
    rw [same, share]
    split <;> simp_all
  calc (resources.lookup gres).getD 0
      = ((counts.entries.map fun e => (e.1, (e.2 : ℚ))).map (share classes gres)).sum := by
        rw [podDeviceResources_amount typed reported, ((classAmounts_perm devices accepted).map _).sum_eq]
    _ = ((counts.keys.map fun className =>
          if backs classes gres className then (counts.lookup className).getD 0 else 0).sum : Int) := by
        rw [map_map, Function.comp_def, map_congr_left shares, Int.cast_list_sum, AList.keys,
          List.keys, map_map, map_map]
        rfl
    _ = (((counts.keys.insertionSort (· ≤ ·)).map fun className =>
          if backs classes gres className then (counts.lookup className).getD 0 else 0).sum : Int) := by
        rw [((perm_insertionSort _ _).map _).sum_eq]
    _ = _ := by rw [requested_sum inside has (mapM_forall₂ requested)]

end

section
variable {classes : Classes} {requests : List DeviceProfileRequest} {layouts : List GresLayout}

def entriesOf (layouts : List GresLayout) (gres : GenericResource) : List GresLayout :=
  layouts.filter fun l => l.type = gres.type ∧ l.name = gres.name

def granted (layouts : List GresLayout) (gres : GenericResource) : List Int :=
  (entriesOf layouts gres).flatMap fun l => (expandGRESIndexes l).toOption.getD []

/-- A layout lists so many different indexes of a generic resource. -/
structure Grants (layouts : List GresLayout) (gres : GenericResource) (needed : Int) : Prop where
  expands : ∀ l ∈ entriesOf layouts gres, (expandGRESIndexes l).isOk = true
  distinct : (granted layouts gres).Nodup
  enough : needed ≤ (granted layouts gres).length

def needed (requests : List DeviceProfileRequest) (profile : DeviceProfile) : Int :=
  ((requests.filter fun r => r.profile = profile).map DeviceProfileRequest.count).sum

/-- What binding knows of its requests: profiles of the registry, in positive numbers. -/
structure Wanted (classes : Classes) (requests : List DeviceProfileRequest) : Prop where
  registered : ∀ r ∈ requests, r.profile ∈ classes.registry.profiles
  positive : ∀ r ∈ requests, 0 < r.count

theorem deviceProfileRequests_wanted {pod : PodNeeds} (requested : deviceProfileRequests classes pod = .ok requests)
    (accepted : validateDeviceClassRequests pod = .ok ()) : Wanted classes requests := by
  have each : ∀ r ∈ requests, ∃ className ∈ (deviceClassRequestCounts pod).keys.insertionSort (· ≤ ·),
      resolveDeviceClass classes className = .ok r.profile ∧
        r.count = ((deviceClassRequestCounts pod).lookup className).getD 0 := by
    intro r inside
    obtain ⟨className, listed, step⟩ := exists_of_mem_mapM requested inside
    obtain ⟨profile, resolved, same⟩ := bind_eq_ok.mp step
    obtain rfl := pure_eq_ok.mp same
    exact ⟨className, listed, resolved, rfl⟩
  refine ⟨fun r inside => ?_, fun r inside => ?_⟩
  · obtain ⟨className, -, resolved, -⟩ := each r inside
    exact resolveDeviceClass_mem resolved
  · obtain ⟨className, listed, -, count⟩ := each r inside
    rw [(perm_insertionSort _ _).mem_iff, ← AList.mem_keys, ← AList.lookup_isSome] at listed
    obtain ⟨n, found⟩ := Option.isSome_iff_exists.mp listed
    obtain ⟨request, among, -, rfl⟩ := (lookup_deviceClassRequestCounts accepted).mp found
    obtain ⟨-, -, -, -, -, -, positive⟩ := mem_classRequests.mp among
    rwa [count, found]

theorem Wanted.indexed (wanted : Wanted classes requests) :
    ∃ indexed, indexedRequests requests = .ok indexed ∧
      indexed.map Prod.fst = requests.filter (·.profile.usesIndexedGRES) ∧
      ∀ x ∈ indexed, x.1 ∈ requests ∧ x.1.profile.gres = .ok x.2 := by
  have each : ∀ r ∈ requests.filter (·.profile.usesIndexedGRES), ∃ gres, r.profile.gres = .ok gres := by
    intro r among
    obtain ⟨inside, indexed⟩ := mem_filter.mp among
    exact exists_ok (classes.registry.resources r.profile (wanted.registered r inside) indexed)
  choose! gres has using each
  refine ⟨(requests.filter (·.profile.usesIndexedGRES)).map fun r => (r, gres r), ?_, ?_, ?_⟩
  · refine mapM_of_ok fun r among => ?_
    rw [has r among]
    rfl
  · rw [map_map]
    exact map_id _
  · intro x inside
    obtain ⟨r, among, rfl⟩ := mem_map.mp inside
    exact ⟨(mem_filter.mp among).1, has r among⟩

variable {indexed : List (DeviceProfileRequest × GenericResource)}

def resourceOf (indexed : List (DeviceProfileRequest × GenericResource)) : AList (fun _ : String => GenericResource) :=
  indexed.foldl (fun (map : AList (fun _ : String => GenericResource)) r => map.insert r.1.profile.name r.2) ∅

variable {name : String}

theorem lookup_resourceOf (wanted : Wanted classes requests)
    (each : ∀ x ∈ indexed, x.1 ∈ requests ∧ x.1.profile.gres = .ok x.2) {gres : GenericResource} :
    (resourceOf indexed).lookup name = some gres ↔ ∃ x ∈ indexed, x.1.profile.name = name ∧ x.2 = gres := by
  refine lookup_foldl_insert fun x inside y inside' same => ?_
  obtain ⟨member, has⟩ := each x inside
  obtain ⟨member', has'⟩ := each y inside'
  have one : x.1.profile = y.1.profile := inj_on_of_nodup_map classes.registry.names
    (wanted.registered _ member) (wanted.registered _ member') same
  rw [one, has'] at has
  exact (Except.ok.inj has).symm

theorem granted_snoc (layouts : List GresLayout) (l : GresLayout) (gres : GenericResource) :
    granted (layouts ++ [l]) gres = granted layouts gres ++
      if l.type = gres.type ∧ l.name = gres.name then (expandGRESIndexes l).toOption.getD [] else [] := by
  unfold granted entriesOf
  rw [filter_append, flatMap_append, filter_cons, filter_nil]
  by_cases own : l.type = gres.type ∧ l.name = gres.name
  · rw [if_pos (decide_eq_true own), if_pos own, flatMap_singleton]
  · rw [if_neg (by simpa using own), if_neg own, flatMap_nil]

theorem indexes_collected (wanted : Wanted classes requests)
    (each : ∀ x ∈ indexed, x.1 ∈ requests ∧ x.1.profile.gres = .ok x.2)
    (expands : ∀ x ∈ indexed, ∀ l ∈ entriesOf layouts x.2, (expandGRESIndexes l).isOk = true) :
    ∃ indexes, layouts.foldlM (addIndexes (resourceOf indexed)) ∅ = .ok indexes ∧
      ∀ x ∈ indexed, (indexes.lookup x.1.profile.name).getD [] = granted layouts x.2 := by
  have typed : ∀ x ∈ indexed, x.2.type = x.1.profile.name := fun x inside => (gres_type (each x inside).2).1
  refine foldlM_succeeds (fun visited (indexes : AList (fun _ : String => List Int)) =>
    ∀ x ∈ indexed, (indexes.lookup x.1.profile.name).getD [] = granted visited x.2) ?_ (fun _ _ => rfl)
  intro visited l rest indexes split known
  have member : l ∈ layouts := by rw [split]; simp
  unfold addIndexes
  cases found : (resourceOf indexed).lookup l.type with
  | none =>
    refine ⟨indexes, rfl, fun x inside => ?_⟩
    have other : ¬(l.type = x.2.type ∧ l.name = x.2.name) := by
      rintro ⟨own, -⟩
      have here := (lookup_resourceOf wanted each).mpr ⟨x, inside, (typed x inside).symm.trans own.symm, rfl⟩
      rw [found] at here
      cases here
    rw [granted_snoc, if_neg other, append_nil]
    exact known x inside
  | some gres =>
    obtain ⟨y, among, named, rfl⟩ := (lookup_resourceOf wanted each).mp found
    -- The profile of that type is the one whose resource was found.
    have same : ∀ x ∈ indexed, x.1.profile.name = l.type → x.2 = y.2 := by
      intro x inside own
      have here := (lookup_resourceOf wanted each).mpr ⟨x, inside, own, rfl⟩
      rw [found] at here
      exact (Option.some.inj here).symm
    dsimp only
    split
    · rename_i differs
      refine ⟨indexes, rfl, fun x inside => ?_⟩
      have other : ¬(l.type = x.2.type ∧ l.name = x.2.name) := by
        rintro ⟨own, name⟩
        rw [same x inside ((typed x inside).symm.trans own.symm)] at name
        exact differs name
      rw [granted_snoc, if_neg other, append_nil]
      exact known x inside
    · rename_i agrees
      have entry : l ∈ entriesOf layouts y.2 := by
        refine mem_filter.mpr ⟨member, ?_⟩
        simpa using ⟨named.symm.trans (typed y among).symm, not_not.mp agrees⟩
      obtain ⟨new, expanded⟩ := exists_ok (expands y among l entry)
      refine ⟨indexes.insert l.type ((indexes.lookup l.type).getD [] ++ new), ?_, fun x inside => ?_⟩
      · rw [expanded]
        rfl
      · rw [granted_snoc]
        by_cases own : x.1.profile.name = l.type
        · have equal := same x inside own
          rw [own, lookup_insert, Option.getD_some, ← own, known x inside,
            if_pos ⟨(typed x inside).symm, equal ▸ not_not.mp agrees⟩, expanded]
          rfl
        · rw [lookup_insert_ne own, if_neg fun both => own ((typed x inside).symm.trans both.1.symm),
            append_nil]
          exact known x inside

/-- The state of sharing out after some requests: each profile's indexes are given away up to its cursor,
in parts of the requested sizes that do not overlap. -/
structure SharedOut (indexes : String → List Int) (served : List DeviceProfileRequest) (cursors : Cursors) :
    Prop where
  requests : cursors.allocations.map IndexedGRESAllocation.request = served
  used : ∀ name, ((cursors.used.lookup name).getD 0 : Int) =
    ((served.filter fun r => r.profile.name = name).map DeviceProfileRequest.count).sum
  sizes : ∀ a ∈ cursors.allocations, (a.indexes.length : Int) = a.request.count
  taken : ∀ a ∈ cursors.allocations,
    a.indexes ⊆ (indexes a.request.profile.name).take ((cursors.used.lookup a.request.profile.name).getD 0)
  apart : cursors.allocations.Pairwise fun a b =>
    a.request.profile.name = b.request.profile.name → List.Disjoint a.indexes b.indexes

private theorem count_snoc (served : List DeviceProfileRequest) (request : DeviceProfileRequest) :
    (((served ++ [request]).filter fun r => r.profile.name = request.profile.name).map
      DeviceProfileRequest.count).sum =
    ((served.filter fun r => r.profile.name = request.profile.name).map DeviceProfileRequest.count).sum +
      request.count := by
  simp

theorem takeIndexes_sharedOut {indexes : AList (fun _ : String => List Int)} {served : List DeviceProfileRequest}
    {cursors : Cursors} {request : DeviceProfileRequest} {list : List Int}
    (shared : SharedOut (fun name => (indexes.lookup name).getD []) served cursors) (positive : 0 < request.count)
    (listed : indexes.lookup request.profile.name = some list) (distinct : list.Nodup)
    (enough : (((served ++ [request]).filter fun r => r.profile.name = request.profile.name).map
      DeviceProfileRequest.count).sum ≤ (list.length : Int)) :
    ∃ cursors', takeIndexes indexes cursors request = .ok cursors' ∧
      SharedOut (fun name => (indexes.lookup name).getD []) (served ++ [request]) cursors' := by
  have start := shared.used request.profile.name
  rw [count_snoc, ← start] at enough
  unfold takeIndexes
  rw [listed]
  dsimp only
  obtain ⟨used, cursor⟩ : ∃ used, (cursors.used.lookup request.profile.name).getD 0 = used := ⟨_, rfl⟩
  rw [cursor] at enough ⊢
  rw [if_neg (by omega)]
  refine ⟨_, rfl, ?_, ?_, ?_, ?_, ?_⟩
  · rw [map_append, shared.requests]
    rfl
  · intro name
    rw [filter_append, map_append, sum_append, ← shared.used name]
    by_cases own : name = request.profile.name
    · subst own
      rw [lookup_insert, cursor]
      simp only [Option.getD_some, filter_cons, filter_nil, decide_true, if_true,
        map_cons, map_nil, sum_cons, sum_nil]
      omega
    · rw [lookup_insert_ne own]
      simp [Ne.symm own]
  · refine forall_mem_append.mpr ⟨shared.sizes, ?_⟩
    rw [forall_mem_singleton, length_take, length_drop]
    dsimp only
    omega
  · refine forall_mem_append.mpr ⟨fun a inside => List.Subset.trans (shared.taken a inside) ?_, ?_⟩
    · by_cases own : a.request.profile.name = request.profile.name
      · rw [own, cursor, lookup_insert, Option.getD_some]
        exact take_subset_take_left _ (by omega)
      · rw [lookup_insert_ne own]
        exact List.Subset.refl _
    · rw [forall_mem_singleton]
      rw [lookup_insert, listed, Option.getD_some, Option.getD_some, take_add]
      exact subset_append_right _ _
  · refine pairwise_append.mpr ⟨shared.apart, pairwise_singleton _ _, fun a inside b last own => ?_⟩
    obtain rfl := mem_singleton.mp last
    have before := shared.taken a inside
    rw [own, cursor, listed, Option.getD_some] at before
    exact fun index taken fresh =>
      disjoint_take_drop distinct le_rfl (before taken) (take_subset _ _ fresh)

private theorem count_le_needed {visited rest : List DeviceProfileRequest}
    (positive : ∀ r ∈ visited ++ rest, 0 < r.count) :
    ((visited.filter fun r => r.profile.name = name).map DeviceProfileRequest.count).sum ≤
      (((visited ++ rest).filter fun r => r.profile.name = name).map DeviceProfileRequest.count).sum := by
  rw [filter_append, map_append, sum_append, le_add_iff_nonneg_right]
  refine sum_nonneg ?_
  intro count listed
  obtain ⟨r, among, rfl⟩ := mem_map.mp listed
  exact le_of_lt (positive r (mem_append_right _ (mem_filter.mp among).1))

private theorem needed_eq (wanted : Wanted classes requests) {profile : DeviceProfile}
    (inside : profile ∈ classes.registry.profiles) (indexed : profile.usesIndexedGRES = true) :
    needed requests profile = (((requests.filter (·.profile.usesIndexedGRES)).filter
      fun r => r.profile.name = profile.name).map DeviceProfileRequest.count).sum := by
  unfold needed
  rw [filter_filter]
  congr 2
  refine filter_congr fun r among => ?_
  by_cases same : r.profile = profile
  · simp [same, indexed]
  · have other : r.profile.name ≠ profile.name := fun equal =>
      same (inj_on_of_nodup_map classes.registry.names (wanted.registered r among) inside equal)
    simp [same, other]

/-- Where the layout lists enough different indexes, each request gets its number of them, and no two
requests for a profile share one. -/
theorem indexes_shared_out (wanted : Wanted classes requests)
    (grants : ∀ r ∈ requests, ∀ gres, r.profile.gres = .ok gres →
      Grants layouts gres (needed requests r.profile)) :
    ∃ allocations, allocateIndexedGRESProfiles requests layouts = .ok allocations ∧
      allocations.map IndexedGRESAllocation.request = requests.filter (·.profile.usesIndexedGRES) ∧
      (∀ a ∈ allocations, (a.indexes.length : Int) = a.request.count ∧
        ∀ gres, a.request.profile.gres = .ok gres → a.indexes ⊆ granted layouts gres) ∧
      allocations.Pairwise fun a b => a.request.profile = b.request.profile →
        List.Disjoint a.indexes b.indexes := by
  obtain ⟨indexed, listed, served, each⟩ := wanted.indexed
  obtain ⟨indexes, collected, known⟩ := indexes_collected wanted each
    fun x inside => (grants x.1 (each x inside).1 x.2 (each x inside).2).expands
  have member : ∀ r ∈ indexed.map Prod.fst, ∃ x ∈ indexed, x.1 = r := fun r among => mem_map.mp among
  have positive : ∀ r ∈ indexed.map Prod.fst, 0 < r.count := by
    intro r among
    obtain ⟨x, inside, rfl⟩ := member r among
    exact wanted.positive _ (each x inside).1
  obtain ⟨cursors, shared, final⟩ : ∃ cursors, (indexed.map Prod.fst).foldlM (takeIndexes indexes) ⟨∅, []⟩ =
      .ok cursors ∧ SharedOut (fun name => (indexes.lookup name).getD []) (indexed.map Prod.fst) cursors := by
    refine foldlM_succeeds (SharedOut fun name => (indexes.lookup name).getD []) ?_
      ⟨rfl, fun _ => rfl, nofun, nofun, List.Pairwise.nil⟩
    intro visited r rest cursors split shared
    have among : r ∈ indexed.map Prod.fst := by rw [split]; simp
    obtain ⟨x, inside, rfl⟩ := member r among
    obtain ⟨requested, has⟩ := each x inside
    have grant := grants x.1 requested x.2 has
    have own := known x inside
    have part : ((((visited ++ [x.1]).filter fun r => r.profile.name = x.1.profile.name).map
        DeviceProfileRequest.count).sum) ≤ ((granted layouts x.2).length : Int) := by
      refine le_trans ?_ grant.enough
      rw [append_cons] at split
      rw [needed_eq wanted (wanted.registered _ requested) (usesIndexedGRES_of_gres has), ← served, split]
      exact count_le_needed (split ▸ positive)
    cases found : indexes.lookup x.1.profile.name with
    | none =>
      -- The profile has indexes, since this request alone is for some.
      rw [found, Option.getD_none] at own
      rw [← own, count_snoc, ← shared.used, length_nil] at part
      have alone := positive _ among
      omega
    | some list =>
      rw [found, Option.getD_some] at own
      subst own
      exact takeIndexes_sharedOut shared (positive _ among) found grant.distinct part
  refine ⟨cursors.allocations, ?_, final.requests.trans served, fun a inside => ⟨final.sizes a inside, ?_⟩, ?_⟩
  · unfold allocateIndexedGRESProfiles
    rw [listed]
    change (layouts.foldlM (addIndexes (resourceOf indexed)) ∅ >>= _) = _
    rw [collected]
    change ((indexed.map Prod.fst).foldlM (takeIndexes indexes) ⟨∅, []⟩ >>= _) = _
    rw [shared]
    rfl
  · intro gres has
    have among : a.request ∈ indexed.map Prod.fst := final.requests ▸ mem_map_of_mem inside
    obtain ⟨x, stored, same⟩ := member _ among
    have own := known x stored
    have equal : x.2 = gres := by
      have here := (each x stored).2
      rw [same, has] at here
      exact (Except.ok.inj here).symm
    rw [same, equal] at own
    have taken := final.taken a inside
    rw [own] at taken
    exact List.Subset.trans taken (take_subset _ _)
  · exact final.apart.imp fun apart same => apart (congrArg _ same)

end

section
variable {classes : Classes} {pod : Member} {resources : GresAmounts} {core : ℚ}
  {requests : List DeviceProfileRequest}

private def gpu : DeviceProfile := ⟨"a100", "gpu.example.com", "device.driver == 'gpu'", .indexedGRES "gpu"⟩

private def twoClasses : Classes where
  registry := ⟨[gpu], nodup_singleton _, nodup_singleton _, by decide⟩
  deviceClass := fun name =>
    if name = "fast" ∨ name = "slow" then .ok ⟨[], [some gpu.selector]⟩ else .error .notFound

private def askingDevices (overhead : ResourceList) : Member where
  name := "a"
  needs :=
    { initContainers := []
      containers :=
        [⟨"c", false, (∅ : ResourceList).insert (classResource "fast") 2,
            (∅ : ResourceList).insert (classResource "fast") 2⟩,
          ⟨"d", false, (∅ : ResourceList).insert (classResource "slow") 1,
            (∅ : ResourceList).insert (classResource "slow") 1⟩]
      overhead := overhead
      requests := ∅
      limits := ∅
      distinct := by decide }

private def requestsOfBoth : List DeviceProfileRequest := [⟨"fast", gpu, 2⟩, ⟨"slow", gpu, 1⟩]

private def bothLayouts : List GresLayout :=
  [⟨2, ⟨"0,2", .ok ["0", "2"]⟩, "gpu", "a100"⟩, ⟨1, ⟨"3", .ok ["3"]⟩, "gpu", "a100"⟩]

private theorem askingDevices_whole : WholeDevices (askingDevices ∅).needs where
  limits := by
    intro c inside className
    simp only [askingDevices, nil_append, mem_cons, not_mem_nil, or_false] at inside
    rcases inside with rfl | rfl <;> rfl
  whole := by
    have single : ∀ (name className : String) (n : Int) (q : ℚ),
        ((∅ : ResourceList).insert (classResource name) (n : ℚ)).lookup (classResource className) = some q →
          q = n := by
      intro name className n q found
      by_cases same : classResource className = classResource name
      · rw [same, lookup_insert] at found
        exact (Option.some.inj found).symm
      · rw [lookup_insert_ne same] at found
        cases found
    intro c inside className q found
    simp only [askingDevices, nil_append, mem_cons, not_mem_nil, or_false] at inside
    rcases inside with rfl | rfl
    · exact ⟨2, single "fast" className 2 q (by simpa using found), by decide, by decide⟩
    · exact ⟨1, single "slow" className 1 q (by simpa using found), by decide, by decide⟩
  overhead := fun _ => rfl

private theorem bothLayouts_grants : Grants bothLayouts ⟨"gpu", "a100"⟩ 3 where
  expands := by decide +kernel
  distinct := by decide +kernel
  enough := by decide +kernel

end

end SlurmBridge.Scheduler.DeviceRequests
