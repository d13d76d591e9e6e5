/- source: internal/controller/registration/duplicates.go
   digest: When duplicate cleanup leaves every requested key an allocation: exactly when the
     keys agree on the best allocation they share. -/

import SlurmBridge.Registration.Survivors

set_option autoImplicit false

namespace SlurmBridge.Registration.DuplicateCleanup

open Foundation.Interaction Foundation.Preference Slurm.Ownership Slurm.Job Registration.Interface
open Registration.Duplicates Registration.Grouping Registration.Survivors
open Kube.Reads (Err)
open List

def FiledUnder (jobs : List JobInfo) (key : String) (raw : JobInfo) : Prop :=
  ∃ f ∈ filings jobs, f.key = key ∧ f.job = raw

/-- All records of an allocation are filed alike, as every submission writes them. -/
def Uniform (jobs : List JobInfo) : Prop :=
  ∀ f ∈ filings jobs, ∀ f' ∈ filings jobs, f.id = f'.id → FiledUnder jobs f'.key f.job

section
variable (h : Trace surroundings) (id : Int)

def Requested : Prop :=
  ∃ reply, (⟨.deleteJob id, reply⟩ : Event surroundings) ∈ h

def Acknowledged : Prop :=
  (⟨.deleteJob id, (.ok () : Except SlurmError Unit)⟩ : Event surroundings) ∈ h

end

def BelongsTo (ids : Int → Prop) (raw : JobInfo) : Prop :=
  ∃ ext, fromJobInfo raw = .ok ext ∧ ids ext.allocationID

/-- The replies of a Slurm that holds the given jobs.  The cache agrees with it; only a
requested cancellation makes a job disappear or finish, and a confirmed one does. -/
def Answers (jobs : List JobInfo) (h : Trace surroundings) : Event surroundings → Prop
  | ⟨.listJobs .cached, reply⟩ =>
    match (reply : Except SlurmError (List JobInfo)) with
    | .ok listed => listed.Perm jobs
    | .error _ => True
  | ⟨.getJob .live key, reply⟩ => ∀ job ∈ jobs, itoa job.key = key →
      match (reply : Except SlurmError JobInfo) with
      | .ok raw => (raw = job ∧ ¬ BelongsTo (Acknowledged h) job) ∨
          (BelongsTo (Requested h) job ∧ isFinishedJob raw = true)
      | .error .notFound => BelongsTo (Requested h) job
      | .error (.other _ _) => True
  | _ => True

/-- All replies of a trace that continues the history are such replies. -/
abbrev Conforms (jobs : List JobInfo) : Trace surroundings → Trace surroundings → Prop :=
  Along (Answers jobs)

section
variable {jobs cached live : List JobInfo} {h t : Trace surroundings}

private theorem requested_quiet (quiet : ∀ e ∈ t, ∀ id, e.1 ≠ Command.deleteJob id)
    (id : Int) : Requested (h ++ t) id ↔ Requested h id := by
  constructor
  · rintro ⟨reply, member⟩
    rcases mem_append.mp member with before | now
    · exact ⟨reply, before⟩
    · exact absurd rfl (quiet _ now id)
  · rintro ⟨reply, member⟩
    exact ⟨reply, mem_append_left t member⟩

private theorem readBack_quiet (read : ReadBack cached t live) : ∀ e ∈ t, ∀ id, e.1 ≠ Command.deleteJob id := by
  intro e member id same
  obtain ⟨key, isRead⟩ := read.only_reads e member
  rw [isRead] at same
  cases same

private theorem readBack_spec (read : ReadBack cached t live) (known : ∀ job ∈ cached, job ∈ jobs)
    (conforms : Conforms jobs h t) :
    (∀ raw ∈ live, raw ∈ cached ∨ isFinishedJob raw = true) ∧
      ∀ job ∈ cached, ¬ BelongsTo (Requested h) job → job ∈ live := by
  induction read with
  | nil => simp
  | @absent cached t live job earlier ih =>
    obtain ⟨before, now, -⟩ := along_append.mp conforms
    obtain ⟨sub, sup⟩ := ih (fun job member => known job (by simp [member])) before
    have gone : BelongsTo (Requested (h ++ t)) job := now job (known job (by simp)) rfl
    refine ⟨fun raw member => (sub raw member).imp_left (by simp +contextual), ?_⟩
    intro job' member kept
    rcases mem_append.mp member with old | new
    · exact sup job' old kept
    · rw [mem_singleton.mp new] at kept
      obtain ⟨ext, converted, asked⟩ := gone
      exact absurd ⟨ext, converted, (requested_quiet (readBack_quiet earlier) _).mp asked⟩ kept
  | @found cached t live job raw _ earlier ih =>
    obtain ⟨before, now, -⟩ := along_append.mp conforms
    obtain ⟨sub, sup⟩ := ih (fun job member => known job (by simp [member])) before
    have reply := now job (known job (by simp)) rfl
    refine ⟨fun raw' member => ?_, fun job' member kept => ?_⟩
    · rcases mem_append.mp member with old | new
      · exact (sub raw' old).imp_left (by simp +contextual)
      · rw [mem_singleton.mp new]
        rcases reply with ⟨same, -⟩ | ⟨-, finished⟩
        · exact .inl (by simp [same])
        · exact .inr finished
    · rcases mem_append.mp member with old | new
      · exact mem_append_left _ (sup job' old kept)
      · rw [mem_singleton.mp new] at kept ⊢
        rcases reply with ⟨same, -⟩ | ⟨⟨ext, converted, asked⟩, -⟩
        · simp [same]
        · exact absurd ⟨ext, converted, (requested_quiet (readBack_quiet earlier) _).mp asked⟩ kept

end

variable {jobs : List JobInfo} {f : Filing}

theorem filing_id_unique {jobs' : List JobInfo} {f' : Filing} (filed : f ∈ filings jobs)
    (filed' : f' ∈ filings jobs') (same : f.job = f'.job) : f.id = f'.id := by
  obtain ⟨-, ext, converted, -, id⟩ := filing_record filed
  obtain ⟨-, ext', converted', -, id'⟩ := filing_record filed'
  rw [same, converted'] at converted
  cases converted
  rw [id, id']

private theorem filed_unfinished (filed : f ∈ filings jobs) : isFinishedJob f.job = false := by
  obtain ⟨-, ext, converted, unfinished, -⟩ := filing_record filed
  rw [← fromJobInfo_finished converted, unfinished]

variable {raw : JobInfo}

private theorem record_unfinished {record : Int × ExternalJobInfo}
    (recorded : unfinishedRecord raw = some record) : isFinishedJob raw = false := by
  unfold unfinishedRecord at recorded
  split at recorded
  · cases recorded
  · rename_i ext converted
    split at recorded
    · cases recorded
    · rename_i unfinished
      rw [← fromJobInfo_finished converted]
      simpa using unfinished

variable {key : String}

private theorem podGroup_filed_key {form group : String} (filed : FiledUnder jobs key raw)
    (named : (form, group) ∈ namedOwners raw) : key = group := by
  obtain ⟨f, filing, rfl, rfl⟩ := filed
  obtain ⟨-, info, recorded, how⟩ := filing_cases filing
  obtain ⟨id, info', identity, recorded', composite, podGroup, rfl, -⟩ := mem_namedOwners.mp named
  rw [recorded] at recorded'
  cases recorded'
  have modern : modernKey info = some identity.key := by simp [modernKey, composite, podGroup]
  rcases how with direct | ⟨legacy, -⟩
  · rw [modern] at direct
    exact (Option.some.inj direct).symm
  · rw [modern] at legacy
    cases legacy

theorem allocationRank_mono {fewer more : List JobInfo} (sub : ∀ job ∈ fewer, job ∈ more) :
    allocationRank more ≤ allocationRank fewer := by
  have grows : ∀ p : JobInfo → Bool, fewer.any p = true → more.any p = true := by
    intro p holds
    obtain ⟨job, member, sat⟩ := any_eq_true.mp holds
    exact any_eq_true.mpr ⟨job, sub job member, sat⟩
  have started := grows componentStarted
  have released := grows componentReleased
  unfold allocationRank
  split_ifs <;> simp_all

section

/- The records `live` of one key, read back from all `jobs`, are filed under that key as before,
provided that no PodGroup record of the key is missing. -/
variable {jobs live : List JobInfo} {key : String}
  (sub : ∀ raw ∈ live, FiledUnder jobs key raw ∨ isFinishedJob raw = true)

include sub

variable {f : Filing}

private theorem filed_before (filed : f ∈ filings live) :
    ∃ f' ∈ filings jobs, f'.key = key ∧ f'.id = f.id ∧ f'.job = f.job := by
  rcases sub f.job (filing_record filed).1 with ⟨f', filed', under, same⟩ | finished
  · exact ⟨f', filed', under, filing_id_unique filed' filed same, same⟩
  · rw [filed_unfinished filed] at finished
    cases finished

private theorem owner_is_key {pod group : String} (named : group ∈ ownersOf live pod) : group = key := by
  obtain ⟨raw, member, owner⟩ := mem_ownersOf.mp named
  rcases sub raw member with filed | finished
  · exact (podGroup_filed_key filed owner).symm
  · obtain ⟨id, info, -, recorded, -⟩ := mem_namedOwners.mp owner
    rw [record_unfinished recorded] at finished
    cases finished

private theorem filed_again
    (kept : ∀ raw form group, FiledUnder jobs key raw → (form, group) ∈ namedOwners raw → raw ∈ live)
    (filed : f ∈ filings jobs) (under : f.key = key) (read : f.job ∈ live) : f ∈ filings live := by
  obtain ⟨-, info, recorded, modern | ⟨legacy, filing⟩⟩ := filing_cases filed
  · exact filing_of_modernKey read recorded modern
  · refine filing_of_legacy read recorded legacy ?_
    obtain ⟨-, -, named | ⟨pod, member, underPod⟩⟩ := legacyFiling_key filing
    · -- The record that named the group is still there, and no other group is named.
      have single : groupsNamed (ownersOf live) info.pods = [f.key] := by
        rw [groupsNamed_eq_singleton] at named ⊢
        intro group
        constructor
        · rintro ⟨pod, -, owner⟩
          rw [under]
          exact owner_is_key sub owner
        · rintro rfl
          obtain ⟨pod, member, owner⟩ := (named f.key).mpr rfl
          obtain ⟨raw, rawMember, pair⟩ := mem_ownersOf.mp owner
          obtain ⟨id, info', identity, recorded', composite, podGroup, sameKey, -⟩ :=
            mem_namedOwners.mp pair
          have modern : modernKey info' = some f.key := by
            simp [modernKey, composite, podGroup, sameKey]
          have rawFiled : FiledUnder jobs key raw :=
            ⟨_, filing_of_modernKey rawMember recorded' modern, under, rfl⟩
          exact ⟨pod, member, mem_ownersOf.mpr ⟨raw, kept raw _ _ rawFiled pair, pair⟩⟩
      simp [legacyFiling, single]
    · unfold legacyFiling
      split
      · rename_i group single
        obtain ⟨pod', -, owner⟩ := mem_groupsNamed.mp (single ▸ mem_singleton_self group)
        rw [owner_is_key sub owner, ← under]
        exact mem_singleton_self _
      · exact mem_map.mpr ⟨pod, member, by rw [← underPod]⟩

variable {id : Int}

theorem live_id (member : id ∈ (groupAllocations live).at key) : id ∈ (groupAllocations jobs).at key := by
  obtain ⟨f, filed, -, rfl⟩ := mem_groupAllocations.mp member
  obtain ⟨f', filed', under, same, -⟩ := filed_before sub filed
  exact mem_groupAllocations.mpr ⟨f', filed', under, same⟩

theorem live_rank_le (id : Int) :
    rankIn ((groupAllocations jobs).at key) id ≤ rankIn ((groupAllocations live).at key) id := by
  refine allocationRank_mono fun job member => ?_
  obtain ⟨f, filed, -, rfl, rfl⟩ := mem_jobs_groupAllocations.mp member
  obtain ⟨f', filed', under, sameId, sameJob⟩ := filed_before sub filed
  exact mem_jobs_groupAllocations.mpr ⟨f', filed', under, sameId, sameJob⟩

theorem kept_id
    (kept : ∀ raw form group, FiledUnder jobs key raw → (form, group) ∈ namedOwners raw → raw ∈ live)
    (idKept : ∀ f ∈ filings jobs, f.key = key → f.id = id → f.job ∈ live)
    (member : id ∈ (groupAllocations jobs).at key) :
    id ∈ (groupAllocations live).at key ∧
      rankIn ((groupAllocations live).at key) id = rankIn ((groupAllocations jobs).at key) id := by
  have again : ∀ f ∈ filings jobs, f.key = key → f.id = id → f ∈ filings live :=
    fun f filed under same => filed_again sub kept filed under (idKept f filed under same)
  constructor
  · obtain ⟨f, filed, under, same⟩ := mem_groupAllocations.mp member
    exact mem_groupAllocations.mpr ⟨f, again f filed under same, under, same⟩
  · refine le_antisymm (allocationRank_mono fun job inside => ?_) (live_rank_le sub id)
    obtain ⟨f, filed, under, same, rfl⟩ := mem_jobs_groupAllocations.mp inside
    exact mem_jobs_groupAllocations.mpr ⟨f, again f filed under same, under, same, rfl⟩

end

theorem podGroups_read {live : List JobInfo} {canceled : Int → Prop} (uniform : Uniform jobs)
    (elsewhere : ∀ id, canceled id → ∃ key' ≠ key, id ∈ (groupAllocations jobs).at key')
    (sup : ∀ f ∈ filings jobs, f.key = key → ¬ canceled f.id → f.job ∈ live) (raw : JobInfo)
    (form group : String) (filed : FiledUnder jobs key raw) (named : (form, group) ∈ namedOwners raw) :
    raw ∈ live := by
  obtain ⟨f, filing, under, rfl⟩ := filed
  refine sup f filing under fun gone => ?_
  obtain ⟨key', other, member⟩ := elsewhere f.id gone
  obtain ⟨f', filing', under', sameId⟩ := mem_groupAllocations.mp member
  have both := uniform f filing f' filing' sameId.symm
  rw [under'] at both
  exact other ((podGroup_filed_key both named).trans (podGroup_filed_key ⟨f, filing, under, rfl⟩ named).symm)

theorem exists_survivor {id : Int} (member : id ∈ (groupAllocations jobs).at key) :
    ∃ best, IsSurvivor jobs key best := by
  obtain ⟨entry, inside, -⟩ := mem_iff_entry.mp member
  obtain ⟨best, -, survivor⟩ := survivingAllocation_rearranged (ne_nil_of_mem inside)
    (groupAllocations_convertible jobs key) (rearranged_of_perm (List.Perm.refl _))
  exact ⟨best, survivor⟩

/-- Cancellations of one key's conflict: allocations of the key other than its best. -/
def Targets (jobs : List JobInfo) (key : String) (h : Trace surroundings) : Command → Prop
  | .deleteJob id => Conforms jobs [] h → id ∈ (groupAllocations jobs).at key ∧ ¬ IsSurvivor jobs key id
  | _ => True

/-- What holds before the conflict of a key is resolved: the cached records of the key are the
filed ones, and cancellations so far concern other keys and spare the key's best. -/
private structure Pending (jobs : List JobInfo) (key : String) (allocations : Allocations)
    (h : Trace surroundings) : Prop where
  cached : ∀ raw, raw ∈ (allocations.entries.flatMap fun entry => entry.2) ↔ FiledUnder jobs key raw
  elsewhere : ∀ id, Requested h id → ∃ key' ≠ key, id ∈ (groupAllocations jobs).at key'
  spared : ∀ id, Requested h id → ¬ IsSurvivor jobs key id

theorem filed_belongs {ids : Int → Prop} (filed : f ∈ filings jobs) : BelongsTo ids f.job ↔ ids f.id := by
  obtain ⟨-, ext, converted, -, id⟩ := filing_record filed
  rw [BelongsTo, converted, id]
  simp

variable {allocations : Allocations} {h : Trace surroundings}

private theorem conflict_targets (uniform : Uniform jobs) {canceled : List Int}
    (pending : Conforms jobs [] h → Pending jobs key allocations h) :
    wp (Targets jobs key) (cleanAllocationConflict key allocations canceled) h (fun _ _ => True) := by
  refine wp_cleanAllocationConflict (fun _ _ => trivial) (fun _ _ => trivial) ?_ fun _ _ => trivial
  intro visited order t live after best id visit read _ survivor filed distinct conforms
  obtain ⟨whole, -⟩ := along_append.mp conforms
  obtain ⟨past, -, now⟩ := along_append.mp whole
  obtain ⟨cached, elsewhere, spared⟩ := pending past
  -- The reads return the key's records, except canceled ones.
  have visited_cached : ∀ raw, raw ∈ (visited.flatMap fun entry => entry.2) ↔ FiledUnder jobs key raw := by
    intro raw
    rw [← cached raw, (visit.flatMap_right _).mem_iff]
  have known : ∀ raw, FiledUnder jobs key raw → raw ∈ jobs := by
    rintro raw ⟨f, filing, -, rfl⟩
    exact (filing_record filing).1
  obtain ⟨sub, sup⟩ := readBack_spec read (fun raw member => known raw ((visited_cached raw).mp member)) now
  have asked : ∀ id, Requested (([] ++ h) ++ [⟨.mapOrder allocations.entries.length, order⟩]) id ↔
      Requested h id := fun id => requested_quiet (by simp) id
  have live_sub : ∀ raw ∈ live, FiledUnder jobs key raw ∨ isFinishedJob raw = true :=
    fun raw member => (sub raw member).imp_left (visited_cached raw).mp
  have live_sup : ∀ f ∈ filings jobs, f.key = key → ¬ Requested h f.id → f.job ∈ live := by
    intro f filing under kept
    refine sup f.job ((visited_cached f.job).mpr ⟨f, filing, under, rfl⟩) ?_
    rwa [filed_belongs filing, asked]
  have podGroups := podGroups_read uniform elsewhere live_sup
  refine ⟨live_id live_sub filed, fun isBest => distinct ?_⟩
  obtain ⟨inside, sameRank⟩ := kept_id live_sub podGroups (fun f filing under same =>
    live_sup f filing under fun requested => spared f.id requested (same ▸ isBest)) isBest.1
  have again : IsSurvivor live key id :=
    isBest.subset inside (fun _ member => live_id live_sub member) sameRank
      fun other _ => live_rank_le live_sub other
  exact again.unique survivor

/-- Cancellations of a whole cleanup: never the best allocation of a requested key. -/
def Spares (jobs : List JobInfo) (keys : List String) (h : Trace surroundings) : Command → Prop
  | .deleteJob id => Conforms jobs [] h → ∀ key ∈ keys, ¬ IsSurvivor jobs key id
  | _ => True

/-- The requested keys agree on the best allocations they share. -/
def Agree (jobs : List JobInfo) (keys : List String) : Prop :=
  Coordinated (fun key => rankIn ((groupAllocations jobs).at key))
    (fun key => {id | id ∈ (groupAllocations jobs).at key}) {key | key ∈ keys}

variable {listed : List JobInfo}

private theorem filedUnder_perm (same : listed.Perm jobs) (key : String) (raw : JobInfo) :
    FiledUnder listed key raw ↔ FiledUnder jobs key raw :=
  exists_congr fun _ => and_congr_left' (filings_perm same).mem_iff

variable {group : Σ _ : String, Allocations}

theorem at_of_entry {groups : Groups} (member : group ∈ groups.entries) : groups.at group.1 = group.2 := by
  have found : groups.lookup group.1 = some group.2 := AList.mem_lookup_iff.mpr member
  simp [Groups.at, found]

theorem mem_entries_jobs : raw ∈ (allocations.entries.flatMap fun entry => entry.2) ↔
      ∃ id, raw ∈ Allocations.at allocations id := by
  rw [mem_flatMap]
  constructor
  · rintro ⟨entry, member, inside⟩
    exact ⟨entry.1, by rwa [entry_at member]⟩
  · rintro ⟨id, inside⟩
    cases found : allocations.lookup id with
    | none => simp [Allocations.at, found] at inside
    | some components =>
      have inside' : raw ∈ components := by simpa [Allocations.at, found] using inside
      exact ⟨⟨id, components⟩, AList.mem_lookup_iff.mp found, inside'⟩

theorem cached_records (same : listed.Perm jobs) (member : group ∈ (groupAllocations listed).entries)
    (raw : JobInfo) : raw ∈ (group.2.entries.flatMap fun entry => entry.2) ↔ FiledUnder jobs group.1 raw := by
  rw [mem_entries_jobs, ← at_of_entry member, ← filedUnder_perm same]
  simp only [mem_jobs_groupAllocations, FiledUnder]
  constructor
  · rintro ⟨id, f, filed, under, -, job⟩
    exact ⟨f, filed, under, job⟩
  · rintro ⟨f, filed, under, job⟩
    exact ⟨f.id, f, filed, under, rfl, job⟩

private def Settled (jobs : List JobInfo) (keys : List String)
    (seen : List (Σ _ : String, Allocations)) (h : Trace surroundings) : Prop :=
  ∀ id, Requested h id → (∃ group ∈ seen, id ∈ (groupAllocations jobs).at group.1) ∧
    ∀ key ∈ keys, ¬ IsSurvivor jobs key id

variable {keys : List String}

private theorem settled_conflict {seen : List (Σ _ : String, Allocations)} {t : Trace surroundings}
    (agree : Agree jobs keys) (requested : group.1 ∈ keys)
    (settled : Conforms jobs [] h → Settled jobs keys seen h)
    (targets : ∀ before e rest, h ++ t = h ++ before ++ e :: rest → Targets jobs group.1 (h ++ before) e.1)
    (conforms : Conforms jobs [] (h ++ t)) : Settled jobs keys (seen ++ [group]) (h ++ t) := by
  rintro id ⟨reply, member⟩
  rcases mem_append.mp member with earlier | now
  · obtain ⟨⟨group', seen', filed⟩, spared⟩ :=
      settled (along_append.mp conforms).1 id ⟨reply, earlier⟩
    exact ⟨⟨group', by simp [seen'], filed⟩, spared⟩
  · obtain ⟨before, rest, rfl⟩ := append_of_mem now
    have past : Conforms jobs [] (h ++ before) := by
      rw [← append_assoc] at conforms
      exact (along_append.mp conforms).1
    have target := targets before ⟨.deleteJob id, reply⟩ rest (by simp)
    obtain ⟨filed, notBest⟩ := target past
    exact ⟨⟨group, by simp, filed⟩, fun key hkey isBest =>
      notBest (agree key hkey group.1 requested id isBest filed)⟩

private abbrev listing (listed : List JobInfo) : Event surroundings :=
  ⟨.listJobs .cached, (.ok listed : Except SlurmError (List JobInfo))⟩

theorem wp_cleanDuplicateAllocations (uniform : Uniform jobs) (agree : Agree jobs keys) :
    wp (Spares jobs keys) (cleanDuplicateAllocations keys) [] (fun _ _ => True) := by
  unfold cleanDuplicateAllocations
  rw [wp_bind, wp_perform]
  refine ⟨trivial, fun reply => ?_⟩
  rcases reply with e | listed
  · exact trivial
  rw [wp_bind]
  refine wp_rangeMap trivial fun groups visit order => ?_
  rw [wp_bind]
  refine wp_foldlM (fun seen h _ => (∃ t, h = listing listed :: t) ∧
    (Conforms jobs [] h → Settled jobs keys seen h)) ⟨⟨_, rfl⟩, ?_⟩ ?_ fun _ _ _ => trivial
  · rintro - id ⟨reply, member⟩
    simp only [nil_append, cons_append, mem_cons, not_mem_nil, or_false] at member
    rcases member with same | same <;> cases congrArg Sigma.fst same
  · rintro seen group rest h state split ⟨⟨t, rfl⟩, settled⟩
    unfold cleanGroup
    split
    · refine ⟨⟨t, rfl⟩, fun conforms id asked => ?_⟩
      obtain ⟨⟨group', member, filed⟩, spared⟩ := settled conforms id asked
      exact ⟨⟨group', by simp [member], filed⟩, spared⟩
    · rename_i conflict
      rw [not_or, not_not] at conflict
      have member : group ∈ (groupAllocations listed).entries :=
        visit.mem_iff.mp (by simp [split])
      have distinct : ∀ group' ∈ seen, group'.1 ≠ group.1 := by
        have nodup : (groups.map Sigma.fst).Nodup :=
          (visit.map Sigma.fst).nodup_iff.mpr (groupAllocations listed).nodupKeys
        rw [split, map_append, map_cons, nodup_append] at nodup
        exact fun group' seen' => nodup.2.2 _ (mem_map_of_mem seen') _ (by simp)
      have pending : Conforms jobs [] (listing listed :: t) →
          Pending jobs group.1 group.2 (listing listed :: t) := by
        intro conforms
        refine ⟨cached_records conforms.1 member, fun id asked => ?_, fun id asked => ?_⟩
        · obtain ⟨⟨group', seen', filed⟩, -⟩ := settled conforms id asked
          exact ⟨group'.1, distinct group' seen', filed⟩
        · exact (settled conforms id asked).2 group.1 conflict.1
      rw [wp_bind]
      refine wp_mono (wp_guard_mono (wp_guarded (conflict_targets uniform pending)) ?_) ?_
      · rintro t' c targets
        cases c with
        | deleteJob id =>
          intro conforms key requested isBest
          obtain ⟨filed, notBest⟩ := targets conforms
          exact notBest (agree key requested group.1 conflict.1 id isBest filed)
        | _ => trivial
      · rintro t' result ⟨-, targets⟩
        exact ⟨⟨t ++ t', rfl⟩, settled_conflict agree conflict.1 settled targets⟩

end SlurmBridge.Registration.DuplicateCleanup
