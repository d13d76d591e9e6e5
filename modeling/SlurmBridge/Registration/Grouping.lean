/- source: internal/controller/registration/duplicates.go
   digest: Grouping files every unfinished record under keys that depend only on the set of
     records, so neither the job order nor a restriction to one key's records changes it. -/

import SlurmBridge.Registration.Duplicates

set_option autoImplicit false

namespace SlurmBridge.Registration.Grouping

open Slurm.Ownership Slurm.Job Registration.Duplicates List AList

/-- One record put under one key. -/
structure Filing where
  key : String
  id : Int
  job : JobInfo

def fileAll (groups : Groups) (filings : List Filing) : Groups :=
  filings.foldl (fun groups f => groups.add f.key f.id f.job) groups

section
variable (groups : Groups) (key key' : String) (id id' : Int) (job : JobInfo)

private theorem at_add_self : (groups.add key id job).at key =
      (groups.at key).insert id (Allocations.at (groups.at key) id ++ [job]) := by
  simp [Groups.add, Groups.at, lookup_insert]

private theorem at_add_of_ne (distinct : key' ≠ key) : (groups.add key id job).at key' = groups.at key' := by
  simp [Groups.add, Groups.at, lookup_insert_ne distinct]

private theorem jobs_add : Allocations.at ((groups.add key id job).at key') id' =
      Allocations.at (groups.at key') id' ++ if key' = key ∧ id' = id then [job] else [] := by
  by_cases same : key' = key
  · subst same
    rw [at_add_self]
    by_cases sameId : id' = id
    · subst sameId
      simp [Allocations.at, lookup_insert]
    · simp [Allocations.at, lookup_insert_ne sameId, sameId]
  · rw [at_add_of_ne _ _ _ _ _ same]
    simp [same]

private theorem mem_add :
    id' ∈ (groups.add key id job).at key' ↔ id' ∈ groups.at key' ∨ (key' = key ∧ id' = id) := by
  by_cases same : key' = key
  · subst same
    rw [at_add_self, mem_insert]
    simp [or_comm]
  · rw [at_add_of_ne _ _ _ _ _ same]
    simp [same]

private theorem key_mem_add : key' ∈ groups.add key id job ↔ key' ∈ groups ∨ key' = key := by
  rw [Groups.add, mem_insert, or_comm]

end

private theorem fileAll_cons (f : Filing) (filings : List Filing) (groups : Groups) :
    fileAll groups (f :: filings) = fileAll (groups.add f.key f.id f.job) filings := rfl

theorem jobs_fileAll (filings : List Filing) (groups : Groups) (key : String) (id : Int) :
    Allocations.at ((fileAll groups filings).at key) id = Allocations.at (groups.at key) id ++
        (filings.filter fun f => decide (f.key = key ∧ f.id = id)).map Filing.job := by
  induction filings generalizing groups with
  | nil => simp [fileAll]
  | cons f filings ih =>
    rw [fileAll_cons, ih, jobs_add, append_assoc]
    congr 1
    by_cases here : f.key = key ∧ f.id = id
    · simp [here.1, here.2]
    · have there : ¬ (key = f.key ∧ id = f.id) := fun h => here ⟨h.1.symm, h.2.symm⟩
      simp [here, there]

theorem mem_fileAll (filings : List Filing) (groups : Groups) (key : String) (id : Int) :
    id ∈ (fileAll groups filings).at key ↔ id ∈ groups.at key ∨ ∃ f ∈ filings, f.key = key ∧ f.id = id := by
  induction filings generalizing groups with
  | nil => simp [fileAll]
  | cons f filings ih =>
    rw [fileAll_cons, ih, mem_add, or_assoc]
    simp [eq_comm]

theorem key_mem_fileAll (filings : List Filing) (groups : Groups) (key : String) :
    key ∈ fileAll groups filings ↔ key ∈ groups ∨ ∃ f ∈ filings, f.key = key := by
  induction filings generalizing groups with
  | nil => simp [fileAll]
  | cons f filings ih =>
    rw [fileAll_cons, ih, key_mem_add, or_assoc]
    simp [eq_comm]

/-- An unfinished record that can be converted and decoded. -/
def unfinishedRecord (raw : JobInfo) : Option (Int × ExternalJobInfo) :=
  match fromJobInfo raw with
  | .error _ => none
  | .ok job =>
    if job.finished then none
    else (parseIntoExternalJobInfo raw.adminComment).map fun info => (job.allocationID, info)

/-- The key under which a record with group metadata is filed. -/
def modernKey (info : ExternalJobInfo) : Option String :=
  match info.compositePodGroup with
  | some composite => some composite.key
  | none => info.podGroup.map GroupIdentity.key

def modernFiling (raw : JobInfo) : List Filing :=
  match unfinishedRecord raw with
  | none => []
  | some (id, info) => (modernKey info).toList.map fun key => ⟨key, id, raw⟩

def legacyRecord (raw : JobInfo) : List LegacyAllocation :=
  match unfinishedRecord raw with
  | none => []
  | some (id, info) => if (modernKey info).isSome then [] else [⟨raw, id, info.pods⟩]

/-- The Pod keys, in both spellings, that a PodGroup record claims for its group. -/
def namedOwners (raw : JobInfo) : List (String × String) :=
  match unfinishedRecord raw with
  | none => []
  | some (_, info) =>
    match info.compositePodGroup, info.podGroup with
    | none, some group => (info.pods.flatMap podKeyForms).map fun form => (form, group.key)
    | _, _ => []

def ownersFrom (pairs : List (String × String)) (owners : String → List String) : String → List String :=
  pairs.foldl (fun owners p => insertOwner owners p.1 p.2) owners

/-- The groups that the PodGroup records name for the Pods of a legacy record. -/
def groupsNamed (owners : String → List String) (pods : List String) : List String :=
  pods.foldl (fun found pod => found ∪ owners pod) []

def legacyFiling (owners : String → List String) (old : LegacyAllocation) : List Filing :=
  match groupsNamed owners old.pods with
  | [key] => [⟨key, old.id, old.job⟩]
  | _ => old.pods.map fun pod => ⟨"pod/" ++ pod, old.id, old.job⟩

def ownersOf (jobs : List JobInfo) : String → List String :=
  ownersFrom (jobs.flatMap namedOwners) fun _ => []

def filings (jobs : List JobInfo) : List Filing :=
  jobs.flatMap modernFiling ++ (jobs.flatMap legacyRecord).flatMap (legacyFiling (ownersOf jobs))

private theorem groupRecord_eq (state : Grouping) (raw : JobInfo) : groupRecord state raw =
      ⟨fileAll state.groups (modernFiling raw), ownersFrom (namedOwners raw) state.owners,
        state.legacy ++ legacyRecord raw⟩ := by
  unfold groupRecord modernFiling namedOwners legacyRecord unfinishedRecord
  cases converted : fromJobInfo raw with
  | error text => simp [fileAll, ownersFrom]
  | ok job =>
    by_cases finished : job.finished = true
    · simp [finished, fileAll, ownersFrom]
    · cases parsed : parseIntoExternalJobInfo raw.adminComment with
      | none => simp [finished, fileAll, ownersFrom]
      | some info =>
        obtain ⟨pods, podGroup, composite⟩ := info
        cases composite <;> cases podGroup <;>
          simp [finished, modernKey, fileAll, ownersFrom, foldl_map]

private theorem foldl_groupRecord (jobs : List JobInfo) (state : Grouping) : jobs.foldl groupRecord state =
      ⟨fileAll state.groups (jobs.flatMap modernFiling), ownersFrom (jobs.flatMap namedOwners) state.owners,
        state.legacy ++ jobs.flatMap legacyRecord⟩ := by
  induction jobs generalizing state with
  | nil => simp [fileAll, ownersFrom]
  | cons raw jobs ih =>
    rw [foldl_cons, ih, groupRecord_eq]
    simp [fileAll, ownersFrom, foldl_append]

private theorem groupLegacy_eq (owners : String → List String) (groups : Groups) (old : LegacyAllocation) :
    groupLegacy owners groups old = fileAll groups (legacyFiling owners old) := by
  unfold groupLegacy legacyFiling groupsNamed
  generalize old.pods.foldl (fun found pod => found ∪ owners pod) [] = found
  split <;> simp [fileAll, foldl_map]

private theorem foldl_groupLegacy (owners : String → List String) (legacy : List LegacyAllocation)
    (groups : Groups) :
    legacy.foldl (groupLegacy owners) groups = fileAll groups (legacy.flatMap (legacyFiling owners)) := by
  induction legacy generalizing groups with
  | nil => rfl
  | cons old legacy ih =>
    rw [foldl_cons, ih, groupLegacy_eq]
    simp [fileAll, foldl_append]

theorem groupAllocations_eq (jobs : List JobInfo) : groupAllocations jobs = fileAll ∅ (filings jobs) := by
  unfold groupAllocations filings ownersOf
  rw [foldl_groupRecord]
  simp only [nil_append, foldl_groupLegacy, fileAll, foldl_append]

theorem jobs_groupAllocations (jobs : List JobInfo) (key : String) (id : Int) :
    Allocations.at ((groupAllocations jobs).at key) id =
      ((filings jobs).filter fun f => decide (f.key = key ∧ f.id = id)).map Filing.job := by
  rw [groupAllocations_eq, jobs_fileAll]
  simp [Groups.at, Allocations.at]

variable {jobs : List JobInfo} {key : String} {id : Int}

theorem mem_groupAllocations :
    id ∈ (groupAllocations jobs).at key ↔ ∃ f ∈ filings jobs, f.key = key ∧ f.id = id := by
  rw [groupAllocations_eq, mem_fileAll]
  simp [Groups.at]

theorem key_mem_groupAllocations : key ∈ groupAllocations jobs ↔ ∃ f ∈ filings jobs, f.key = key := by
  rw [groupAllocations_eq, key_mem_fileAll]
  simp

variable {owners : String → List String} {form g : String}

private theorem mem_insertOwner {group form' : String} :
    g ∈ insertOwner owners form group form' ↔ g ∈ owners form' ∨ (form' = form ∧ g = group) := by
  unfold insertOwner
  by_cases same : form' = form
  · subst same
    simp [mem_insert_iff, or_comm]
  · simp [same]

variable {pairs : List (String × String)}

theorem mem_ownersFrom : g ∈ ownersFrom pairs owners form ↔ g ∈ owners form ∨ (form, g) ∈ pairs := by
  induction pairs generalizing owners with
  | nil => simp [ownersFrom]
  | cons p pairs ih =>
    have step : ownersFrom (p :: pairs) owners = ownersFrom pairs (insertOwner owners p.1 p.2) :=
      rfl
    rw [step, ih, mem_insertOwner, or_assoc, mem_cons]
    simp [Prod.ext_iff]

theorem mem_ownersOf : g ∈ ownersOf jobs form ↔ ∃ raw ∈ jobs, (form, g) ∈ namedOwners raw := by
  simp [ownersOf, mem_ownersFrom]

variable {pods found : List String}

private theorem mem_foldl_union : g ∈ pods.foldl (fun found pod => found ∪ owners pod) found ↔
      g ∈ found ∨ ∃ pod ∈ pods, g ∈ owners pod := by
  induction pods generalizing found with
  | nil => simp
  | cons pod pods ih =>
    rw [foldl_cons, ih, mem_union_iff, or_assoc]
    simp

theorem mem_groupsNamed : g ∈ groupsNamed owners pods ↔ ∃ pod ∈ pods, g ∈ owners pod := by
  simp [groupsNamed, mem_foldl_union]

private theorem nodup_ownersFrom (start : ∀ form, (owners form).Nodup) (form : String) :
    (ownersFrom pairs owners form).Nodup := by
  induction pairs generalizing owners with
  | nil => exact start form
  | cons p pairs ih =>
    have inserted : ∀ form', (insertOwner owners p.1 p.2 form').Nodup := by
      intro form'
      unfold insertOwner
      by_cases same : form' = p.1
      · subst same
        simpa using (start _).insert
      · simpa [same] using start form'
    exact ih inserted

private theorem nodup_foldl_union (start : found.Nodup) (each : ∀ pod, (owners pod).Nodup) :
    (pods.foldl (fun found pod => found ∪ owners pod) found).Nodup := by
  induction pods generalizing found with
  | nil => exact start
  | cons pod pods ih => exact ih (List.Nodup.union _ (each pod))

private theorem nodup_groupsNamed (jobs : List JobInfo) (pods : List String) :
    (groupsNamed (ownersOf jobs) pods).Nodup :=
  nodup_foldl_union nodup_nil fun form => nodup_ownersFrom (fun _ => nodup_nil) form

theorem groupsNamed_eq_singleton : groupsNamed (ownersOf jobs) pods = [g] ↔
      ∀ g', (∃ pod ∈ pods, g' ∈ ownersOf jobs pod) ↔ g' = g := by
  constructor
  · intro single g'
    rw [← mem_groupsNamed, single, mem_singleton]
  · intro only
    have members : ∀ g', g' ∈ groupsNamed (ownersOf jobs) pods ↔ g' = g := fun g' => by
      rw [mem_groupsNamed, only]
    have perm : (groupsNamed (ownersOf jobs) pods).Perm [g] :=
      (perm_ext_iff_of_nodup (nodup_groupsNamed jobs pods) (nodup_singleton g)).mpr
        fun g' => by rw [members, mem_singleton]
    exact perm_singleton.mp perm

variable {jobs' : List JobInfo}

private theorem ownersOf_perm (perm : jobs.Perm jobs') (form g : String) :
    g ∈ ownersOf jobs form ↔ g ∈ ownersOf jobs' form := by
  rw [mem_ownersOf, mem_ownersOf]
  exact exists_congr fun raw => and_congr_left' perm.mem_iff

private theorem legacyFiling_perm (perm : jobs.Perm jobs') (old : LegacyAllocation) :
    legacyFiling (ownersOf jobs) old = legacyFiling (ownersOf jobs') old := by
  have named : (groupsNamed (ownersOf jobs) old.pods).Perm (groupsNamed (ownersOf jobs') old.pods) := by
    refine (perm_ext_iff_of_nodup (nodup_groupsNamed jobs _) (nodup_groupsNamed jobs' _)).mpr fun g => ?_
    rw [mem_groupsNamed, mem_groupsNamed]
    exact exists_congr fun pod => and_congr_right' (ownersOf_perm perm pod g)
  unfold legacyFiling
  revert named
  generalize groupsNamed (ownersOf jobs) old.pods = found
  generalize groupsNamed (ownersOf jobs') old.pods = found'
  intro named
  match found, found', named with
  | [], found', named => rw [nil_perm.mp named]
  | [key], found', named => rw [singleton_perm.mp named]
  | _ :: _ :: _, [], named => exact absurd named.length_eq (by simp)
  | _ :: _ :: _, [_], named => exact absurd named.length_eq (by simp)
  | _ :: _ :: _, _ :: _ :: _, _ => rfl

theorem filings_perm (perm : jobs.Perm jobs') : (filings jobs).Perm (filings jobs') := by
  have rule : legacyFiling (ownersOf jobs) = legacyFiling (ownersOf jobs') :=
    funext (legacyFiling_perm perm)
  unfold filings
  rw [rule]
  exact (perm.flatMap_right modernFiling).append ((perm.flatMap_right legacyRecord).flatMap_right _)

variable {f : Filing}

theorem legacyFiling_key {old : LegacyAllocation} (filing : f ∈ legacyFiling owners old) :
    f.id = old.id ∧ f.job = old.job ∧
      (groupsNamed owners old.pods = [f.key] ∨ ∃ pod ∈ old.pods, f.key = "pod/" ++ pod) := by
  unfold legacyFiling at filing
  split at filing
  · rename_i key named
    rw [mem_singleton.mp filing]
    exact ⟨rfl, rfl, .inl named⟩
  · obtain ⟨pod, member, rfl⟩ := mem_map.mp filing
    exact ⟨rfl, rfl, .inr ⟨pod, member, rfl⟩⟩

theorem filing_cases (filed : f ∈ filings jobs) :
    f.job ∈ jobs ∧ ∃ info, unfinishedRecord f.job = some (f.id, info) ∧ (modernKey info = some f.key ∨
        modernKey info = none ∧ f ∈ legacyFiling (ownersOf jobs) ⟨f.job, f.id, info.pods⟩) := by
  rcases mem_append.mp filed with modern | legacy
  · obtain ⟨raw, member, filing⟩ := mem_flatMap.mp modern
    unfold modernFiling at filing
    split at filing
    · cases filing
    · rename_i id info recorded
      obtain ⟨key, found, rfl⟩ := mem_map.mp filing
      exact ⟨member, info, recorded, .inl (Option.mem_toList.mp found)⟩
  · obtain ⟨old, oldMember, filing⟩ := mem_flatMap.mp legacy
    obtain ⟨raw, member, record⟩ := mem_flatMap.mp oldMember
    obtain ⟨sameId, sameJob, -⟩ := legacyFiling_key filing
    unfold legacyRecord at record
    split at record
    · cases record
    · rename_i id info recorded
      split at record
      · cases record
      · rename_i legacy
        rw [mem_singleton.mp record] at sameId sameJob filing
        rw [sameId, sameJob]
        refine ⟨member, info, recorded, .inr ⟨by simpa using legacy, filing⟩⟩

variable {raw : JobInfo} {info : ExternalJobInfo}

theorem filing_of_modernKey (member : raw ∈ jobs) (recorded : unfinishedRecord raw = some (id, info))
    (modern : modernKey info = some key) : ⟨key, id, raw⟩ ∈ filings jobs := by
  refine mem_append_left _ (mem_flatMap.mpr ⟨raw, member, ?_⟩)
  simp [modernFiling, recorded, modern]

theorem filing_of_legacy (member : raw ∈ jobs) (recorded : unfinishedRecord raw = some (id, info))
    (legacy : modernKey info = none) (filing : f ∈ legacyFiling (ownersOf jobs) ⟨raw, id, info.pods⟩) :
    f ∈ filings jobs := by
  refine mem_append_right _ (mem_flatMap.mpr ⟨_, ?_, filing⟩)
  exact mem_flatMap.mpr ⟨raw, member, by simp [legacyRecord, recorded, legacy]⟩

end SlurmBridge.Registration.Grouping
