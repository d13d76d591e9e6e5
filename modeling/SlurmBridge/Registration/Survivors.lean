/- source: internal/controller/registration/duplicates.go
   digest: The survivor of a set of duplicate allocations is the best one under a fixed
     preference, whatever the iteration order, and a conflict never cancels it. -/

import SlurmBridge.Foundation.Preference
import SlurmBridge.Registration.Grouping

set_option autoImplicit false

namespace SlurmBridge.Registration.Survivors

open Foundation.Checked Foundation.Interaction Foundation.Preference Slurm.Ownership Slurm.Job Registration.Interface
open Registration.Duplicates Registration.Grouping
open Kube.Reads (Err)
open List

def componentStarted (job : JobInfo) : Bool := job.hasAnyState startedStates

def componentReleased (job : JobInfo) : Bool :=
  (externalJobState job).pending && !(externalJobState job).held

/-- The preference among duplicates: started, then released, then fully held. -/
def allocationRank (components : List JobInfo) : ℕ :=
  if components.any componentStarted then 0
  else if components.any componentReleased then 1
  else 2

/-- Every record of the visited allocations converts, and leader ids are positive. -/
def Convertible (visited : List (Σ _ : Int, List JobInfo)) : Prop :=
  ∀ entry ∈ visited, 0 < entry.1 ∧ ∀ job ∈ entry.2, ∃ ext, fromJobInfo job = .ok ext

private theorem lower_lower (current id : Int) : lower 0 (lower 0 current id) id = lower 0 current id := by
  unfold lower
  split <;> simp_all

variable {job : JobInfo}

private theorem survivingComponent_ok {ext : ExternalJob} (converted : fromJobInfo job = .ok ext) (id : Int)
    (best : Survivors) :
    survivingComponent id best job = .ok ⟨if componentStarted job then lower 0 best.keep id else best.keep,
        if componentReleased job then lower 0 best.released id else best.released,
        best.lowest⟩ := by
  have same := (fromJobInfo_ok converted).2.2.2.1
  have pending : ext.pending = (externalJobState job).pending := by rw [same]
  have held : ext.held = (externalJobState job).held := by rw [same]
  unfold survivingComponent
  simp only [converted, pending, held]
  congr 1
  unfold lower componentStarted componentReleased
  congr 1
  · by_cases started : job.hasAnyState startedStates = true <;> simp [started]
  · cases (externalJobState job).pending <;> cases (externalJobState job).held <;> simp

private theorem foldlM_survivingComponent (id : Int) (components : List JobInfo)
    (convertible : ∀ job ∈ components, ∃ ext, fromJobInfo job = .ok ext) (best : Survivors) :
    components.foldlM (survivingComponent id) best =
      .ok ⟨if components.any componentStarted then lower 0 best.keep id else best.keep,
        if components.any componentReleased then lower 0 best.released id else best.released,
        best.lowest⟩ := by
  induction components generalizing best with
  | nil => rfl
  | cons job components ih =>
    obtain ⟨ext, converted⟩ := convertible job (by simp)
    rw [foldlM_cons, survivingComponent_ok converted]
    change components.foldlM (survivingComponent id) _ = _
    rw [ih fun job' member => convertible job' (by simp [member]), any_cons, any_cons]
    congr 2
    · cases componentStarted job <;> cases components.any componentStarted <;>
        simp [lower_lower]
    · cases componentReleased job <;> cases components.any componentReleased <;>
        simp [lower_lower]

/-- The running minima describe the entries visited so far. -/
private structure Describes (visited : List (Σ _ : Int, List JobInfo)) (best : Survivors) : Prop where
  keep : Tracks 0 (fun i => ∃ e ∈ visited, e.1 = i ∧ e.2.any componentStarted = true) best.keep
  released : Tracks 0 (fun i => ∃ e ∈ visited, e.1 = i ∧ e.2.any componentReleased = true) best.released
  lowest : Tracks 0 (fun i => ∃ e ∈ visited, e.1 = i) best.lowest

variable {visited : List (Σ _ : Int, List JobInfo)} {entry : Σ _ : Int, List JobInfo}

private theorem tracks_snoc {current : Int} (property : List JobInfo → Bool) (proper : 0 < entry.1)
    (tracks : Tracks 0 (fun i => ∃ e ∈ visited, e.1 = i ∧ property e.2 = true) current) :
    Tracks 0 (fun i => ∃ e ∈ visited ++ [entry], e.1 = i ∧ property e.2 = true)
      (if property entry.2 then lower 0 current entry.1 else current) := by
  cases holds : property entry.2 with
  | true =>
    refine (tracks.add (show entry.1 ≠ 0 by omega)).congr fun i => ?_
    simp only [mem_append, mem_singleton]
    constructor
    · rintro (⟨e, member, found⟩ | rfl)
      · exact ⟨e, .inl member, found⟩
      · exact ⟨entry, .inr rfl, rfl, holds⟩
    · rintro ⟨e, member | rfl, found⟩
      · exact .inl ⟨e, member, found⟩
      · exact .inr found.1.symm
  | false =>
    refine tracks.congr fun i => ?_
    simp only [mem_append, mem_singleton]
    constructor
    · rintro ⟨e, member, found⟩
      exact ⟨e, .inl member, found⟩
    · rintro ⟨e, member | rfl, found⟩
      · exact ⟨e, member, found⟩
      · rw [holds] at found
        exact absurd found.2 (by simp)

variable {best : Survivors}

private theorem survivingEntry_describes (described : Describes visited best) (proper : 0 < entry.1)
    (convertible : ∀ job ∈ entry.2, ∃ ext, fromJobInfo job = .ok ext) :
    ∃ best', survivingEntry best entry = .ok best' ∧ Describes (visited ++ [entry]) best' := by
  refine ⟨_, foldlM_survivingComponent entry.1 entry.2 convertible _, ?_, ?_, ?_⟩
  · exact tracks_snoc (fun components => components.any componentStarted) proper described.keep
  · exact tracks_snoc (fun components => components.any componentReleased) proper
      described.released
  · have start : Tracks 0 (fun i => ∃ e ∈ visited, e.1 = i ∧ true = true) best.lowest :=
      described.lowest.congr fun i => by simp
    have snoc : Tracks 0 (fun i => ∃ e ∈ visited ++ [entry], e.1 = i ∧ true = true)
        (lower 0 best.lowest entry.1) := tracks_snoc (fun _ => true) proper start
    have lowest : Tracks 0 (fun i => ∃ e ∈ visited ++ [entry], e.1 = i)
        (lower 0 best.lowest entry.1) := snoc.congr fun i => by simp
    simpa [lower, Bool.or_eq_true] using lowest

private theorem foldlM_survivingEntry {rest : List (Σ _ : Int, List JobInfo)}
    (described : Describes visited best) (convertible : Convertible rest) :
    ∃ best', rest.foldlM survivingEntry best = .ok best' ∧ Describes (visited ++ rest) best' := by
  induction rest generalizing visited best with
  | nil => exact ⟨best, rfl, by simpa using described⟩
  | cons entry rest ih =>
    obtain ⟨proper, jobs⟩ := convertible entry (by simp)
    obtain ⟨next, step, described'⟩ := survivingEntry_describes described proper jobs
    obtain ⟨last, run, final⟩ := ih described' fun e member => convertible e (by simp [member])
    refine ⟨last, ?_, by simpa using final⟩
    rw [foldlM_cons, step]
    exact run

private theorem describes_start : Describes [] ⟨0, 0, 0⟩ where
  keep := (tracks_start 0).congr fun i => by simp
  released := (tracks_start 0).congr fun i => by simp
  lowest := (tracks_start 0).congr fun i => by simp

variable {components : List JobInfo}

private theorem allocationRank_eq_zero :
    allocationRank components = 0 ↔ components.any componentStarted = true := by
  unfold allocationRank
  split
  · simp_all
  · split <;> simp_all

private theorem allocationRank_eq_one (one : allocationRank components = 1) :
    components.any componentReleased = true := by
  unfold allocationRank at one
  split at one
  · omega
  · split at one
    · assumption
    · omega

private theorem allocationRank_le_one (released : components.any componentReleased = true) :
    allocationRank components ≤ 1 := by
  unfold allocationRank
  split <;> omega

private theorem allocationRank_le_two (components : List JobInfo) : allocationRank components ≤ 2 := by
  unfold allocationRank
  split
  · omega
  · split <;> omega

theorem survivingAllocation_isBest {rank : Int → ℕ} (nonempty : visited ≠ [])
    (convertible : Convertible visited) (ranked : ∀ e ∈ visited, rank e.1 = allocationRank e.2) :
    ∃ best, survivingAllocation visited = .ok best ∧ IsBest rank {i | ∃ e ∈ visited, e.1 = i} best := by
  obtain ⟨minima, run, keep, released, lowest⟩ :=
    foldlM_survivingEntry describes_start convertible
  refine ⟨_, by rw [survivingAllocation, run], ?_⟩
  split
  · rename_i found
    obtain ⟨⟨e, member, same, start⟩, least⟩ := keep.2 found
    refine ⟨⟨e, member, same⟩, ?_⟩
    rintro i ⟨e', member', rfl⟩
    have zero : rank minima.keep = 0 := by
      rw [← same, ranked e member, allocationRank_eq_zero.mpr start]
    by_cases also : rank e'.1 = 0
    · have start' := allocationRank_eq_zero.mp ((ranked e' member').symm.trans also)
      exact .inr ⟨by omega, least e'.1 ⟨e', member', rfl, start'⟩⟩
    · exact .inl (by omega)
  · rename_i noneStarted
    rw [not_not] at noneStarted
    have positive : ∀ e ∈ visited, rank e.1 ≠ 0 := by
      intro e member zero
      have start := allocationRank_eq_zero.mp ((ranked e member).symm.trans zero)
      exact keep.1 noneStarted e.1 ⟨e, member, rfl, start⟩
    split
    · rename_i found
      obtain ⟨⟨e, member, same, release⟩, least⟩ := released.2 found
      refine ⟨⟨e, member, same⟩, ?_⟩
      rintro i ⟨e', member', rfl⟩
      have one : rank minima.released = 1 := by
        have upper := allocationRank_le_one release
        have lower := positive e member
        rw [← same]
        rw [ranked e member] at lower ⊢
        omega
      have lower := positive e' member'
      by_cases also : rank e'.1 = 1
      · have release' := allocationRank_eq_one ((ranked e' member').symm.trans also)
        exact .inr ⟨by omega, least e'.1 ⟨e', member', rfl, release'⟩⟩
      · exact .inl (by omega)
    · rename_i noneReleased
      rw [not_not] at noneReleased
      have two : ∀ e ∈ visited, rank e.1 = 2 := by
        intro e member
        have notZero := positive e member
        have upper := allocationRank_le_two e.2
        have notOne : rank e.1 ≠ 1 := fun one =>
          released.1 noneReleased e.1 ⟨e, member, rfl, allocationRank_eq_one ((ranked e member).symm.trans one)⟩
        rw [ranked e member] at notZero notOne ⊢
        omega
      have found : minima.lowest ≠ 0 := by
        intro empty
        obtain ⟨e, rest, rfl⟩ := exists_cons_of_ne_nil nonempty
        exact lowest.1 empty e.1 ⟨e, by simp, rfl⟩
      obtain ⟨⟨e, member, same⟩, least⟩ := lowest.2 found
      refine ⟨⟨e, member, same⟩, ?_⟩
      rintro i ⟨e', member', rfl⟩
      refine .inr ⟨?_, least e'.1 ⟨e', member', rfl⟩⟩
      rw [← same, two e member, two e' member']

variable {jobs : List JobInfo}

theorem filing_record {f : Filing} (filed : f ∈ filings jobs) :
    f.job ∈ jobs ∧ ∃ ext, fromJobInfo f.job = .ok ext ∧ ext.finished = false ∧ f.id = ext.allocationID := by
  obtain ⟨member, info, recorded, -⟩ := filing_cases filed
  refine ⟨member, ?_⟩
  unfold unfinishedRecord at recorded
  split at recorded
  · cases recorded
  · rename_i ext converted
    split at recorded
    · cases recorded
    · rename_i notFinished
      obtain ⟨info', -, pair⟩ := Option.map_eq_some_iff.mp recorded
      rw [Prod.mk.injEq] at pair
      exact ⟨ext, converted, by simpa using notFinished, pair.1.symm⟩

variable {key : String} {id : Int}

theorem mem_jobs_groupAllocations : job ∈ Allocations.at ((groupAllocations jobs).at key) id ↔
      ∃ f ∈ filings jobs, f.key = key ∧ f.id = id ∧ f.job = job := by
  rw [jobs_groupAllocations]
  simp [and_assoc]

variable {allocations : Allocations}

theorem entry_at (member : entry ∈ allocations.entries) : Allocations.at allocations entry.1 = entry.2 := by
  have found : allocations.lookup entry.1 = some entry.2 := AList.mem_lookup_iff.mpr member
  simp [Allocations.at, found]

theorem mem_iff_entry : id ∈ allocations ↔ ∃ entry ∈ allocations.entries, entry.1 = id := by
  change id ∈ allocations.entries.map Sigma.fst ↔ _
  rw [mem_map]

theorem groupAllocations_convertible (jobs : List JobInfo) (key : String) :
    Convertible ((groupAllocations jobs).at key).entries := by
  intro entry member
  have jobsAt := entry_at member
  obtain ⟨f, filed, -, sameId⟩ :=
    mem_groupAllocations.mp (mem_iff_entry.mpr ⟨entry, member, rfl⟩)
  obtain ⟨-, ext, converted, -, same⟩ := filing_record filed
  have positive := allocationID_pos converted
  refine ⟨by omega, fun job jobMember => ?_⟩
  rw [← jobsAt] at jobMember
  obtain ⟨f', filed', -, -, rfl⟩ := mem_jobs_groupAllocations.mp jobMember
  obtain ⟨-, ext', converted', -⟩ := filing_record filed'
  exact ⟨ext', converted'⟩

/-- A visit of an allocation map: its ids in some order, each with its components in some
order. -/
def Rearranged (active : Allocations) (visited : List (Σ _ : Int, List JobInfo)) : Prop :=
  (visited.map Sigma.fst).Perm active.keys ∧ ∀ entry ∈ visited, entry.2.Perm (Allocations.at active entry.1)

/-- The preference of a key's allocations, by leader id. -/
def rankIn (active : Allocations) (id : Int) : ℕ := allocationRank (Allocations.at active id)

private theorem allocationRank_perm {components' : List JobInfo} (perm : components.Perm components') :
    allocationRank components = allocationRank components' := by
  unfold allocationRank
  rw [perm.any_eq, perm.any_eq]

variable {active : Allocations}

theorem rearranged_of_perm (perm : visited.Perm active.entries) : Rearranged active visited := by
  refine ⟨perm.map Sigma.fst, fun entry member => ?_⟩
  rw [entry_at (perm.mem_iff.mp member)]

theorem survivingAllocation_rearranged (nonempty : active.entries ≠ [])
    (convertible : Convertible active.entries) (rearranged : Rearranged active visited) :
    ∃ best, survivingAllocation visited = .ok best ∧ IsBest (rankIn active) {id | id ∈ active} best := by
  obtain ⟨ids, components⟩ := rearranged
  have ids' : ∀ id, (∃ e ∈ visited, e.1 = id) ↔ id ∈ active := by
    intro id
    rw [← mem_map, ids.mem_iff]
    rfl
  have visitedNonempty : visited ≠ [] := by
    rintro rfl
    exact nonempty (map_eq_nil_iff.mp (nil_perm.mp ids))
  have visitedConvertible : Convertible visited := by
    intro e member
    obtain ⟨e', member', same⟩ := mem_iff_entry.mp ((ids' e.1).mp ⟨e, member, rfl⟩)
    obtain ⟨positive, jobs⟩ := convertible e' member'
    refine ⟨by omega, fun job jobMember => jobs job ?_⟩
    have moved := (components e member).mem_iff.mp jobMember
    rwa [← same, entry_at member'] at moved
  have ranked : ∀ e ∈ visited, rankIn active e.1 = allocationRank e.2 :=
    fun e member => (allocationRank_perm (components e member)).symm
  obtain ⟨best, run, isBest⟩ :=
    survivingAllocation_isBest visitedNonempty visitedConvertible ranked
  have sameIds : {i | ∃ e ∈ visited, e.1 = i} = {id | id ∈ active} := Set.ext ids'
  exact ⟨best, run, sameIds ▸ isBest⟩

def jobRead : Event surroundings → Option JobInfo
  | ⟨.getJob .live _, reply⟩ => (reply : Except SlurmError JobInfo).toOption
  | _ => none

def liveReads (h : Trace surroundings) : List JobInfo := h.filterMap jobRead

theorem liveReads_append (h t : Trace surroundings) :
    liveReads (h ++ t) = liveReads h ++ liveReads t := filterMap_append

variable {h t : Trace surroundings}

theorem liveReads_eq (quiet : ∀ e ∈ t, jobRead e = none) : liveReads (h ++ t) = liveReads h := by
  have silent : liveReads t = [] := filterMap_eq_nil_iff.mpr quiet
  rw [liveReads_append, silent, append_nil]

/-- The live reads of a list of cached records, with the records that were found. -/
inductive ReadBack : List JobInfo → Trace surroundings → List JobInfo → Prop
  | nil : ReadBack [] [] []
  | absent {cached : List JobInfo} {t : Trace surroundings} {live : List JobInfo}
      (job : JobInfo) (earlier : ReadBack cached t live) :
      ReadBack (cached ++ [job])
        (t ++ [⟨.getJob .live (itoa job.key), (.error .notFound : Except SlurmError JobInfo)⟩]) live
  | found {cached : List JobInfo} {t : Trace surroundings} {live : List JobInfo}
      (job raw : JobInfo) (same : itoa raw.key = itoa job.key) (earlier : ReadBack cached t live) :
      ReadBack (cached ++ [job])
        (t ++ [⟨.getJob .live (itoa job.key), (.ok raw : Except SlurmError JobInfo)⟩]) (live ++ [raw])

variable {cached live : List JobInfo}

theorem ReadBack.liveReads_eq (read : ReadBack cached t live) : liveReads t = live := by
  induction read with
  | nil => rfl
  | absent job _ ih => rw [liveReads_append, ih]; exact append_nil _
  | found job raw _ _ ih => rw [liveReads_append, ih]; rfl

theorem ReadBack.only_reads (read : ReadBack cached t live) : ∀ e ∈ t, ∃ key, e.1 = Command.getJob .live key := by
  induction read with
  | nil => simp
  | absent job _ ih | found job raw _ _ ih =>
    exact forall_mem_snoc ih ⟨_, rfl⟩

variable {guard : Trace surroundings → Command → Prop}

theorem wp_liveComponents {post : Trace surroundings → Except Err (List JobInfo) → Prop}
    (allowed : ∀ t key, guard (h ++ t) (.getJob .live key)) (failed : ∀ t e, post (h ++ t) (.error e))
    (done : ∀ t live, ReadBack cached t live → post (h ++ t) (.ok live)) :
    wp guard (liveComponents cached) h post := by
  unfold liveComponents
  rw [wp_bind]
  refine wp_loop (fun seen h' live => ∃ t, h' = h ++ t ∧ ReadBack seen t live) ⟨[], by simp, .nil⟩ ?_ ?_
  · rintro seen job rest h' live - ⟨t, rfl, read⟩
    rw [wp_bind, wp_perform]
    refine ⟨allowed t _, fun reply => ?_⟩
    rw [append_assoc]
    rcases reply with e | raw
    · cases e with
      | notFound => exact ⟨_, rfl, read.absent job⟩
      | other number text => exact failed _ _
    · dsimp only
      split
      · exact failed _ _
      · rename_i same
        exact ⟨_, rfl, read.found job raw (not_not.mp same)⟩
  · rintro h' live ⟨t, rfl, read⟩
    exact done t live read

variable {post : Trace surroundings → List Int × List Err → Prop} {canceled : List Int}

theorem wp_cancelDuplicates {keep : Int} {ids : List Int}
    (allowed : ∀ t, (∀ e ∈ t, jobRead e = none) → ∀ id ∈ ids, id ≠ keep → guard (h ++ t) (.deleteJob id))
    (done : ∀ t result, post (h ++ t) result) : wp guard (cancelDuplicates keep ids canceled) h post := by
  refine wp_foldlM (fun _ h' _ => ∃ t, h' = h ++ t ∧ ∀ e ∈ t, jobRead e = none) ⟨[], by simp⟩ ?_ ?_
  · rintro seen id rest h' state split ⟨t, rfl, quiet⟩
    split
    · exact ⟨t, rfl, quiet⟩
    · rename_i fresh
      rw [not_or] at fresh
      rw [wp_bind, wp_perform]
      refine ⟨allowed t quiet id (by simp [split]) fresh.1, fun reply => ?_⟩
      rw [append_assoc]
      have quiet' : ∀ e ∈ t ++ [⟨Command.deleteJob id, reply⟩], jobRead e = none := forall_mem_snoc quiet rfl
      split <;> exact ⟨_, rfl, quiet'⟩
  · rintro h' result ⟨t, rfl, -⟩
    exact done t result

/-- The best allocation among those that a set of records files under a key. -/
def IsSurvivor (records : List JobInfo) (key : String) (best : Int) : Prop :=
  IsBest (rankIn ((groupAllocations records).at key))
    {id | id ∈ (groupAllocations records).at key} best

/-- What one conflict may cancel: after every component was read live, allocations that the
live records file under the key, except the best of them. -/
theorem wp_cleanAllocationConflict (orders : ∀ t n, guard (h ++ t) (.mapOrder n))
    (reads : ∀ t job, guard (h ++ t) (.getJob .live job))
    (cancels : ∀ (visited : List (Σ _ : Int, List JobInfo)) order t live after best id, visited.Perm allocations.entries → ReadBack (visited.flatMap fun entry => entry.2) t live → (∀ e ∈ after, jobRead e = none) → IsSurvivor live key best → id ∈ (groupAllocations live).at key → id ≠ best → guard (h ++ (⟨.mapOrder allocations.entries.length, order⟩ :: t) ++ after) (.deleteJob id))
    (done : ∀ t result, post (h ++ t) result) :
    wp guard (cleanAllocationConflict key allocations canceled) h post := by
  unfold cleanAllocationConflict
  rw [wp_bind]
  refine wp_rangeMap (by simpa using orders [] _) fun visited visit order => ?_
  rw [wp_bind]
  refine wp_liveComponents (fun t job => ?_) (fun t e => ?_) fun t live read => ?_
  · simpa using reads (⟨_, order⟩ :: t) job
  · simpa using done (⟨_, order⟩ :: t) _
  dsimp only
  split
  · simpa using done (⟨_, order⟩ :: t) _
  · rename_i several
    rw [wp_bind]
    refine wp_rangeMap (by simpa using orders (⟨_, order⟩ :: t) _) fun ranked rank order' => ?_
    have nonempty : ((groupAllocations live).at key).entries ≠ [] := by
      intro empty
      simp [empty] at several
    obtain ⟨best, chosen, survivor⟩ := survivingAllocation_rearranged nonempty
      (groupAllocations_convertible live key) (rearranged_of_perm rank)
    simp only [chosen]
    rw [wp_bind]
    refine wp_rangeMap (by simpa using orders (⟨_, order⟩ :: (t ++ [⟨_, order'⟩])) _)
      fun ids idVisit order'' => ?_
    refine wp_cancelDuplicates (fun after quiet id member distinct => ?_) fun after result => ?_
    · have filed : id ∈ (groupAllocations live).at key := idVisit.mem_iff.mp member
      have allowed := cancels visited order t live (⟨_, order'⟩ :: ⟨_, order''⟩ :: after) best id visit read (by
          intro e later
          rcases mem_cons.mp later with rfl | later
          · rfl
          · rcases mem_cons.mp later with rfl | later
            · rfl
            · exact quiet e later) survivor filed distinct
      simpa using allowed
    · simpa using done (⟨_, order⟩ :: (t ++ ⟨_, order'⟩ :: ⟨_, order''⟩ :: after)) result

/-- Some unfinished PodGroup record names the group for one of the Pods, by its recorded key or
by namespace/name. -/
def NamesGroup (jobs : List JobInfo) (pods : List String) (groupKey : String) : Prop :=
  ∃ other ∈ jobs, ∃ id info group, unfinishedRecord other = some (id, info) ∧
    info.compositePodGroup = none ∧ info.podGroup = some group ∧ group.key = groupKey ∧
    ∃ pod ∈ pods, ∃ listed ∈ info.pods, pod ∈ podKeyForms listed

variable {raw : JobInfo} {g : String}

theorem mem_namedOwners {form : String} :
    (form, g) ∈ namedOwners raw ↔ ∃ id info group, unfinishedRecord raw = some (id, info) ∧
      info.compositePodGroup = none ∧ info.podGroup = some group ∧ group.key = g ∧
      ∃ listed ∈ info.pods, form ∈ podKeyForms listed := by
  unfold namedOwners
  cases recorded : unfinishedRecord raw with
  | none => simp
  | some pair =>
    obtain ⟨id, ⟨pods, podGroup, composite⟩⟩ := pair
    cases composite with
    | some composite => simp
    | none =>
      cases podGroup with
      | none => simp
      | some group => simp [and_comm]

private theorem namesGroup_iff {pods : List String} :
    NamesGroup jobs pods g ↔ ∃ pod ∈ pods, g ∈ ownersOf jobs pod := by
  simp only [mem_ownersOf, mem_namedOwners]
  constructor
  · rintro ⟨other, member, id, info, group, recorded, composite, podGroup, key, pod, hpod, listed,
      hlisted, form⟩
    exact ⟨pod, hpod, other, member, id, info, group, recorded, composite, podGroup, key, listed,
      hlisted, form⟩
  · rintro ⟨pod, hpod, other, member, id, info, group, recorded, composite, podGroup, key, listed,
      hlisted, form⟩
    exact ⟨other, member, id, info, group, recorded, composite, podGroup, key, pod, hpod, listed,
      hlisted, form⟩

/-- The API groups whose PodGroups have an identity. -/
def SupportedGroup (g : GroupIdentity) : Prop :=
  g.apiGroup = "scheduling.k8s.io" ∨ g.apiGroup = "scheduling.x-k8s.io"

private theorem groupKey_ne_podKey {g : GroupIdentity} (supported : SupportedGroup g)
    (pod : String) : g.key ≠ "pod/" ++ pod := by
  intro same
  have spread := congrArg String.toList same
  rcases supported with group | group <;>
    simp [GroupIdentity.key, group] at spread

/-- A record without group metadata lies under a PodGroup's key exactly when that group and no
other is named for its Pods. -/
theorem legacy_filed_iff {info : ExternalJobInfo} {g : GroupIdentity} (member : raw ∈ jobs)
    (recorded : unfinishedRecord raw = some (id, info)) (legacy : modernKey info = none)
    (supported : SupportedGroup g) :
    raw ∈ Allocations.at ((groupAllocations jobs).at g.key) id ↔
      ∀ k, NamesGroup jobs info.pods k ↔ k = g.key := by
  simp only [namesGroup_iff]
  rw [← groupsNamed_eq_singleton, mem_jobs_groupAllocations]
  constructor
  · rintro ⟨f, filed, key, -, rfl⟩
    obtain ⟨-, info', recorded', how⟩ := filing_cases filed
    rw [recorded] at recorded'
    cases recorded'
    rcases how with modern | ⟨-, filing⟩
    · rw [legacy] at modern
      cases modern
    · obtain ⟨-, -, named | ⟨pod, -, underPod⟩⟩ := legacyFiling_key filing
      · exact key ▸ named
      · exact absurd (key.symm.trans underPod) (groupKey_ne_podKey supported pod)
  · intro named
    refine ⟨⟨g.key, id, raw⟩, filing_of_legacy member recorded legacy ?_, rfl, rfl, rfl⟩
    simp [legacyFiling, named]

/-- In one conflict, a cancellation is only issued for an allocation that the live records file
under the key and that is not the best of them. -/
def SparesBest (key : String) (h : Trace surroundings) : Command → Prop
  | .deleteJob id => id ∈ (groupAllocations (liveReads h)).at key ∧
      ∃ best, IsSurvivor (liveReads h) key best ∧ id ≠ best
  | _ => True

private theorem wp_sparesBest (key : String) (allocations : Allocations) (canceled : List Int) :
    wp (SparesBest key) (cleanAllocationConflict key allocations canceled) [] (fun _ _ => True) := by
  refine wp_cleanAllocationConflict (fun _ _ => trivial) (fun _ _ => trivial) ?_ fun _ _ => trivial
  intro visited order t live after best id visit read quiet survivor filed distinct
  have reads : liveReads ([] ++ (⟨.mapOrder allocations.entries.length, order⟩ :: t) ++ after) =
      live := by
    rw [liveReads_eq quiet, nil_append, ← read.liveReads_eq]
    rfl
  unfold SparesBest
  rw [reads]
  exact ⟨filed, best, survivor, distinct⟩

/-- The choice of a survivor is canonical.  Every visit of a map of allocations picks its best
element: some component started, then some component released, then the rest, ties broken by
the lowest leader id.  Grouping does not depend on the order of the jobs; a record without
group metadata joins a PodGroup exactly when its Pods identify that group alone.  So one
conflict never cancels the best allocation of its key. -/
theorem survivor_choice_canonical :
    (∀ active : Allocations, active.entries ≠ [] → Convertible active.entries →
      ∃ best, IsBest (rankIn active) {id | id ∈ active} best ∧
        ∀ visited, Rearranged active visited → survivingAllocation visited = .ok best) ∧
    (∀ jobs jobs' : List JobInfo, jobs.Perm jobs' →
      (∀ key, key ∈ groupAllocations jobs ↔ key ∈ groupAllocations jobs') ∧
      ∀ key id,
        (id ∈ (groupAllocations jobs).at key ↔ id ∈ (groupAllocations jobs').at key) ∧
        (Allocations.at ((groupAllocations jobs).at key) id).Perm
          (Allocations.at ((groupAllocations jobs').at key) id)) ∧
    (∀ jobs raw id info g, raw ∈ jobs → unfinishedRecord raw = some (id, info) →
      modernKey info = none → SupportedGroup g →
      (raw ∈ Allocations.at ((groupAllocations jobs).at g.key) id ↔
        ∀ k, NamesGroup jobs info.pods k ↔ k = g.key)) ∧
    (∀ key allocations canceled t result,
      Exec (cleanAllocationConflict key allocations canceled) t result →
      ∀ before id reply after, t = before ++ ⟨Command.deleteJob id, reply⟩ :: after →
        id ∈ (groupAllocations (liveReads before)).at key ∧
          ∃ best, IsSurvivor (liveReads before) key best ∧ id ≠ best) := by
  refine ⟨?_, ?_, ?_, ?_⟩
  · intro active nonempty convertible
    obtain ⟨best, -, isBest⟩ := survivingAllocation_rearranged nonempty convertible
      (rearranged_of_perm (List.Perm.refl active.entries))
    refine ⟨best, isBest, fun visited rearranged => ?_⟩
    obtain ⟨best', chosen, isBest'⟩ :=
      survivingAllocation_rearranged nonempty convertible rearranged
    rw [chosen, isBest'.unique isBest]
  · intro jobs jobs' perm
    have filed := filings_perm perm
    refine ⟨fun key => ?_, fun key id => ⟨?_, ?_⟩⟩
    · rw [key_mem_groupAllocations, key_mem_groupAllocations]
      exact exists_congr fun f => and_congr_left' filed.mem_iff
    · rw [mem_groupAllocations, mem_groupAllocations]
      exact exists_congr fun f => and_congr_left' filed.mem_iff
    · rw [jobs_groupAllocations, jobs_groupAllocations]
      exact (filed.filter _).map _
  · intro jobs raw id info g member recorded legacy supported
    exact legacy_filed_iff member recorded legacy supported
  · intro key allocations canceled t result run before id reply after split
    obtain ⟨-, spared⟩ := wp_exec (wp_sparesBest key allocations canceled) run
    simpa [SparesBest] using spared before _ after split

end SlurmBridge.Registration.Survivors
