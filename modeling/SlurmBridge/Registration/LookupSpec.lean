/- source: internal/utils/slurmjob/allocation.go, index.go
   digest: The candidates an index lookup returns, for any content of the informer and any order
     in which the indexes list it. -/

import SlurmBridge.Registration.Lookup
import SlurmBridge.Slurm.Collected

set_option autoImplicit false

namespace SlurmBridge.Registration.LookupSpec

open Foundation.Checked Foundation.Interaction Kube.Reads Slurm.Ownership Slurm.Job Slurm.Allocation
open Registration.Interface Registration.Lookup List

/-- An index read that succeeds lists the matching records of the content, in any order. -/
def Serves (content : List JobInfo) : Event surroundings → Prop
  | ⟨.jobsByIndex index key, reply⟩ =>
    match (reply : Except SlurmError (List JobInfo)) with
    | .ok listed => listed.Perm (content.filter fun raw => (index.keys raw).contains key)
    | .error _ => True
  | _ => True

def Failed : Event surroundings → Prop
  | ⟨.jobsByIndex _ _, reply⟩ => ∃ e, (reply : Except SlurmError (List JobInfo)) = .error e
  | _ => False

def isIndexRead : Command → Prop
  | .jobsByIndex _ _ => True
  | _ => False

/-- The candidates of an identity in a content. -/
structure Candidates (content : List JobInfo) (index : JobIndex) (identity : AllocationIdentity)
    (found : List JobInfo) : Prop where
  known : ∀ raw ∈ found, raw ∈ content
  listed : ∀ raw ∈ found, identity.key ∈ index.keys raw ∨
    (∃ key ∈ identity.legacyPodKeys, key ∈ jobLegacyPodKeys raw) ∨
    (index = .pod ∧ (∀ raw' ∈ content, identity.key ∉ jobPodKeys raw') ∧
      (parsePodKey identity.key).namespacedName ∈ jobPodKeys raw)
  primary : ∀ raw ∈ content, identity.key ∈ index.keys raw → raw ∈ found
  legacy : ∀ raw ∈ content, ∀ key ∈ identity.legacyPodKeys, key ∈ jobLegacyPodKeys raw → raw ∈ found
  /-- Records by name only are consulted when there is none by UID. -/
  fallback : index = .pod → (parsePodKey identity.key).uid ≠ "" →
    (∀ raw ∈ content, identity.key ∉ jobPodKeys raw) →
    ∀ raw ∈ content, (parsePodKey identity.key).namespacedName ∈ jobPodKeys raw → raw ∈ found

def ReadUnder (t : Trace surroundings) (index : JobIndex) (key : String) (raw : JobInfo) : Prop :=
  ∃ jobs, raw ∈ jobs ∧ (⟨.jobsByIndex index key, (.ok jobs : Except SlurmError (List JobInfo))⟩ :
    Event surroundings) ∈ t

theorem ReadUnder.mono {t t' : Trace surroundings} {index : JobIndex} {key : String} {raw : JobInfo}
    (read : ReadUnder t index key raw) (sub : t ⊆ t') : ReadUnder t' index key raw := by
  obtain ⟨jobs, member, event⟩ := read
  exact ⟨jobs, member, sub event⟩

def Sought (index : JobIndex) (identity : AllocationIdentity) (i : JobIndex) (key : String) : Prop :=
  (i = index ∧ key = identity.key) ∨ (i = .legacyPod ∧ key ∈ identity.legacyPodKeys) ∨
    (i = .pod ∧ index = .pod ∧ key = (parsePodKey identity.key).namespacedName)

private theorem byIndex_origin (index : JobIndex) (key : String) :
    Delivers (fun t jobs => ∀ raw ∈ jobs, ReadUnder t index key raw) (byIndex index key) := by
  refine delivers_bind (delivers_perform (.jobsByIndex index key)) fun t reply same => ?_
  subst same
  rcases reply with e | jobs
  · exact delivers_throw _
  · exact delivers_pure fun raw member => ⟨jobs, member, by simp⟩

private theorem legacyCandidates_origin (keys : List String) :
    Delivers (fun t found => ∀ raw ∈ found, ∃ key ∈ keys, ReadUnder t .legacyPod key raw)
      (legacyCandidates keys) := by
  refine delivers_mono (delivers_foldlM (fun seen t found => ∀ raw ∈ found,
    ∃ key ∈ seen, ReadUnder t .legacyPod key raw) (by simp) ?_) fun t found all => all
  intro seen key rest t found _ all
  refine delivers_bind (byIndex_origin .legacyPod key) fun t' jobs read => delivers_pure ?_
  intro raw member
  rcases mem_append.mp member with old | new
  · obtain ⟨key', inside, read'⟩ := all raw old
    exact ⟨key', by simp [inside], read'.mono (by simp)⟩
  · exact ⟨key, by simp, (read raw new).mono (by simp)⟩

theorem allocationCandidates_origin (index : JobIndex) (identity : AllocationIdentity) :
    Delivers (fun t found => ∀ raw ∈ found, ∃ i key, Sought index identity i key ∧ ReadUnder t i key raw)
      (allocationCandidates index identity) := by
  have primary : Delivers (fun t found => ∀ raw ∈ found, ReadUnder t index identity.key raw ∨ (index = .pod ∧
        ReadUnder t .pod (parsePodKey identity.key).namespacedName raw))
      (primaryCandidates index identity.key) := by
    refine delivers_bind (byIndex_origin _ _) fun t jobs read => ?_
    dsimp only
    split
    · rename_i byName
      refine delivers_mono (byIndex_origin _ _) fun t' named read' raw member => ?_
      exact .inr ⟨byName.1, (read' raw member).mono (by simp)⟩
    · exact delivers_pure fun raw member => .inl ((read raw member).mono (by simp))
  refine delivers_bind (legacyCandidates_origin _) fun t old fromOld => ?_
  refine delivers_bind primary fun t' own fromOwn => delivers_pure fun raw member => ?_
  rcases mem_append.mp member with inside | inside
  · rcases fromOwn raw inside with read | ⟨isPod, read⟩
    · exact ⟨index, identity.key, .inl ⟨rfl, rfl⟩, read.mono (by simp)⟩
    · exact ⟨.pod, _, .inr (.inr ⟨rfl, isPod, rfl⟩), read.mono (by simp)⟩
  · obtain ⟨key, sought, read⟩ := fromOld raw inside
    exact ⟨.legacyPod, key, .inr (.inl ⟨rfl, sought⟩), read.mono (by simp)⟩

def indexRead (index : JobIndex) (key : String) (records : List JobInfo) : Event surroundings :=
  ⟨.jobsByIndex index key, (.ok records : Except SlurmError (List JobInfo))⟩

/-- The read of the identity's own key stands between those of legacy records and those by name;
what it lists are candidates, and only a Pod's may come from a later read. -/
structure InOrder (index : JobIndex) (key : String) (t : Trace surroundings) (found : List JobInfo) where
  legacy : Trace surroundings
  records : List JobInfo
  named : Trace surroundings
  history : t = legacy ++ indexRead index key records :: named
  listed : records ⊆ found
  origin : ∀ raw ∈ found, (∃ i k, ReadUnder (legacy ++ [indexRead index key records]) i k raw) ∨
    (index = .pod ∧ ∃ i k, ReadUnder named i k raw)

theorem allocationCandidates_inOrder (index : JobIndex) (identity : AllocationIdentity) :
    Delivers (fun t found => Nonempty (InOrder index identity.key t found))
      (allocationCandidates index identity) := by
  have read : ∀ i k, Delivers (fun t jobs => t = [indexRead i k jobs]) (byIndex i k) := by
    intro i k
    refine delivers_bind (delivers_perform (.jobsByIndex i k)) fun t reply same => ?_
    rcases reply with e | jobs
    · exact delivers_throw _
    · exact delivers_pure (by rw [same]; rfl)
  refine delivers_bind (legacyCandidates_origin _) fun t old fromOld => ?_
  have legacy : ∀ t' raw, raw ∈ old → ∃ i k, ReadUnder (t ++ t') i k raw := fun t' raw inside =>
    let ⟨key, _, seen⟩ := fromOld raw inside
    ⟨.legacyPod, key, seen.mono (by simp)⟩
  have primary : Delivers (fun t' own => Nonempty (InOrder index identity.key (t ++ t') (own ++ old)))
      (primaryCandidates index identity.key) := by
    refine delivers_bind (read _ _) fun t' records same => ?_
    subst same
    dsimp only
    split
    · rename_i byName
      refine delivers_mono (read _ _) fun t' others same => ?_
      subst same
      refine ⟨t, records, _, rfl, by simp [byName.2.1], fun raw member => ?_⟩
      rcases mem_append.mp member with inside | inside
      · exact .inr ⟨byName.1, _, _, others, inside, mem_singleton_self _⟩
      · exact .inl (legacy _ raw inside)
    · refine delivers_pure ⟨t, records, [], by simp, by simp, fun raw member => .inl ?_⟩
      rcases mem_append.mp member with inside | inside
      · exact ⟨index, identity.key, records, inside, by simp [indexRead]⟩
      · exact legacy _ raw inside
  exact delivers_bind primary fun t' own order => delivers_pure (by simpa using order)

section
variable {guard : Trace surroundings → Command → Prop} {h : Trace surroundings}

variable {index : JobIndex} {key : String} {post : Trace surroundings → Except Err (List JobInfo) → Prop}

theorem wp_byIndex (allowed : guard h (.jobsByIndex index key))
    (found : ∀ jobs : List JobInfo, post (h ++ [⟨.jobsByIndex index key, (.ok jobs : Except SlurmError (List JobInfo))⟩]) (.ok jobs))
    (failed : ∀ e : SlurmError, post (h ++ [⟨.jobsByIndex index key, (.error e : Except SlurmError (List JobInfo))⟩]) (.error e.toErr)) :
    wp guard (byIndex index key).run h post := by
  unfold byIndex
  rw [wp_run_bind]
  refine (wp_run_lift _ _).mpr ?_
  refine ⟨allowed, fun reply => ?_⟩
  rcases reply with e | jobs
  · exact failed e
  · exact found jobs

private theorem serves_mem {content jobs : List JobInfo}
    (serves : Serves content ⟨.jobsByIndex index key, (.ok jobs : Except SlurmError (List JobInfo))⟩)
    (raw : JobInfo) : raw ∈ jobs ↔ raw ∈ content ∧ key ∈ index.keys raw := by
  have perm : jobs.Perm (content.filter fun raw => (index.keys raw).contains key) := serves
  simp [perm.mem_iff]

/-- What a successful read of some records guarantees for every content it is consistent with. -/
def Yields (holds : List JobInfo → List JobInfo → Prop) (t : Trace surroundings) :
    Except Err (List JobInfo) → Prop
  | .ok found => ∀ content, (∀ e ∈ t, Serves content e) → holds content found
  | .error _ => ∃ e ∈ t, Failed e

private def HoldsLegacy (keys : List String) (content found : List JobInfo) : Prop :=
  ∀ raw, raw ∈ found ↔ raw ∈ content ∧ ∃ key ∈ keys, key ∈ jobLegacyPodKeys raw

private def HoldsPrimary (index : JobIndex) (key : String) (content found : List JobInfo) : Prop :=
  ∀ raw, raw ∈ found ↔ raw ∈ content ∧ (key ∈ index.keys raw ∨
    (index = .pod ∧ (parsePodKey key).uid ≠ "" ∧ (∀ raw' ∈ content, key ∉ jobPodKeys raw') ∧
      (parsePodKey key).namespacedName ∈ jobPodKeys raw))

variable {t : Trace surroundings}

private theorem failed_last {e : SlurmError} :
    ∃ e' ∈ t ++ [⟨.jobsByIndex index key, (.error e : Except SlurmError (List JobInfo))⟩], Failed e' :=
  ⟨_, mem_append_right _ (mem_singleton_self _), e, rfl⟩

section
variable (allowed : ∀ t index key, guard (h ++ t) (.jobsByIndex index key))

include allowed

private theorem wp_legacyCandidates {keys : List String}
    (done : ∀ t out, (∀ e ∈ t, isIndexRead e.1) → Yields (HoldsLegacy keys) t out → post (h ++ t) out) :
    wp guard (legacyCandidates keys).run h post := by
  refine wp_run_foldlM (fun seen h' found => ∃ t, h' = h ++ t ∧ (∀ e ∈ t, isIndexRead e.1) ∧
    Yields (HoldsLegacy seen) t (.ok found)) ⟨[], by simp, by simp, ?_⟩ ?_ ?_
  · intro content _ raw
    simp
  · rintro seen key rest h' found - ⟨t, rfl, reads, yields⟩
    rw [wp_run_bind]
    refine wp_byIndex (allowed t _ _) (fun jobs => ?_) fun e => ?_
    · rw [append_assoc]
      refine ⟨_, rfl, forall_mem_snoc reads trivial, fun content serves raw => ?_⟩
      have before := yields content (fun e member => serves e (by simp [member])) raw
      have now := serves_mem (serves ⟨.jobsByIndex .legacyPod key, .ok jobs⟩ (by simp)) raw
      rw [mem_append, before, now]
      constructor
      · rintro (⟨inside, key', member, listed⟩ | ⟨inside, listed⟩)
        · exact ⟨inside, key', by simp [member], listed⟩
        · exact ⟨inside, key, by simp, listed⟩
      · rintro ⟨inside, key', member, listed⟩
        rcases mem_append.mp member with old | new
        · exact .inl ⟨inside, key', old, listed⟩
        · rw [mem_singleton.mp new] at listed
          exact .inr ⟨inside, listed⟩
    · rw [append_assoc]
      exact done _ _ (forall_mem_snoc reads trivial) failed_last
  · rintro h' found ⟨t, rfl, reads, yields⟩
    exact done t (.ok found) reads yields

private theorem wp_primaryCandidates
    (done : ∀ t out, (∀ e ∈ t, isIndexRead e.1) → Yields (HoldsPrimary index key) t out → post (h ++ t) out) :
    wp guard (primaryCandidates index key).run h post := by
  unfold primaryCandidates
  rw [wp_run_bind]
  refine wp_byIndex (by simpa using allowed [] _ _) (fun jobs => ?_) fun e => ?_
  · dsimp only [orFail]
    split
    · -- Nothing is recorded under the UID, so the name decides.
      rename_i byName
      obtain ⟨isPod, empty, uid⟩ := byName
      have none : ∀ content, Serves content ⟨.jobsByIndex index key, .ok jobs⟩ →
          ∀ raw ∈ content, key ∉ index.keys raw := by
        intro content serves raw inside listed
        have member := (serves_mem serves raw).mpr ⟨inside, listed⟩
        rw [empty] at member
        cases member
      refine wp_byIndex (allowed _ _ _) (fun named => ?_) fun e => ?_
      · rw [append_assoc]
        refine done _ _ (by simp [isIndexRead]) fun content serves raw => ?_
        have nothing := none content (serves _ (by simp))
        have byName := serves_mem (serves _ (mem_append_right _ (mem_singleton_self _))) raw
        rw [byName]
        constructor
        · rintro ⟨inside, listed⟩
          exact ⟨inside, .inr ⟨isPod, uid, by simpa [isPod] using nothing, listed⟩⟩
        · rintro ⟨inside, listed | ⟨-, -, -, listed⟩⟩
          · exact absurd listed (nothing raw inside)
          · exact ⟨inside, listed⟩
      · rw [append_assoc]
        exact done _ _ (by simp [isIndexRead]) failed_last
    · rename_i direct
      refine done _ (.ok jobs) (by simp [isIndexRead]) fun content serves raw => ?_
      have listed := serves_mem (serves ⟨.jobsByIndex index key, .ok jobs⟩ (by simp))
      rw [listed raw]
      refine and_congr_right fun inside => ⟨.inl, ?_⟩
      rintro (under | ⟨isPod, uid, unlisted, -⟩)
      · exact under
      · -- The fallback would have been taken.
        refine absurd ⟨isPod, ?_, uid⟩ direct
        refine eq_nil_iff_forall_not_mem.mpr fun other member => ?_
        obtain ⟨inside', under⟩ := (listed other).mp member
        exact unlisted other inside' (by simpa [isPod] using under)
  · exact done _ _ (by simp [isIndexRead]) (failed_last (t := []))

variable {identity : AllocationIdentity}

theorem wp_allocationCandidates
    (done : ∀ t out, (∀ e ∈ t, isIndexRead e.1) → Yields (fun content found => Candidates content index identity found) t out → post (h ++ t) out) :
    wp guard (allocationCandidates index identity).run h post := by
  unfold allocationCandidates
  rw [wp_run_bind]
  refine wp_legacyCandidates allowed fun t out reads legacy => ?_
  cases out with
  | error e => exact done t (.error e) reads legacy
  | ok old =>
    dsimp only [orFail]
    rw [wp_run_bind]
    refine wp_primaryCandidates (fun t' index key => ?_) fun t' out' reads' primary => ?_
    · rw [append_assoc]
      exact allowed _ _ _
    · have all : ∀ e ∈ t ++ t', isIndexRead e.1 := forall_mem_append.mpr ⟨reads, reads'⟩
      rw [append_assoc]
      cases out' with
      | error e =>
        obtain ⟨event, member, failed⟩ := primary
        exact done _ (.error e) all ⟨event, mem_append_right _ member, failed⟩
      | ok own =>
        refine done _ (.ok (own ++ old)) all fun content serves => ?_
        have fromLegacy := legacy content fun e member => serves e (by simp [member])
        have fromOwn := primary content fun e member => serves e (by simp [member])
        refine ⟨?_, ?_, ?_, ?_, ?_⟩
        · exact forall_mem_append.mpr ⟨fun raw first => ((fromOwn raw).mp first).1,
            fun raw second => ((fromLegacy raw).mp second).1⟩
        · intro raw member
          rcases mem_append.mp member with first | second
          · obtain ⟨-, under | ⟨isPod, -, unlisted, named⟩⟩ := (fromOwn raw).mp first
            · exact .inl under
            · exact .inr (.inr ⟨isPod, unlisted, named⟩)
          · exact .inr (.inl ((fromLegacy raw).mp second).2)
        · intro raw inside under
          exact mem_append_left _ ((fromOwn raw).mpr ⟨inside, .inl under⟩)
        · intro raw inside key member listed
          exact mem_append_right _ ((fromLegacy raw).mpr ⟨inside, key, member, listed⟩)
        · intro isPod uid unlisted raw inside named
          exact mem_append_left _ ((fromOwn raw).mpr ⟨inside, .inr ⟨isPod, uid, unlisted, named⟩⟩)

theorem wp_indexedAllocation {post : Trace surroundings → List RegisteredJob × Option Err → Prop}
    (failed : ∀ t e, (∀ e ∈ t, isIndexRead e.1) → (∃ e ∈ t, Failed e) → post (h ++ t) ([], some e))
    (done : ∀ t found, (∀ e ∈ t, isIndexRead e.1) → (∀ content, (∀ e ∈ t, Serves content e) → Candidates content index identity found) → (∀ raw ∈ found, ∃ i key, Sought index identity i key ∧ ReadUnder t i key raw) → Nonempty (InOrder index identity.key t found) → post (h ++ t) (collectAllocation identity.key found)) :
    wp guard (indexedAllocation index identity) h post := by
  have reading : wp guard (allocationCandidates index identity).run h fun h' out =>
      ∃ t, h' = h ++ t ∧ (∀ e ∈ t, isIndexRead e.1) ∧
        Yields (fun content found => Candidates content index identity found) t out :=
    wp_allocationCandidates allowed fun t out reads yields => ⟨t, rfl, reads, yields⟩
  unfold indexedAllocation
  rw [wp_bind]
  refine wp_rebase reading (fun _ _ ok => ok) fun t out run => ?_
  obtain ⟨t', same, reads, yields⟩ := (wp_exec reading run).1
  rw [← append_cancel_left same] at reads yields
  cases out with
  | error e => exact failed t e reads yields
  | ok found =>
    exact done t found reads yields (allocationCandidates_origin index identity t found run)
      (allocationCandidates_inOrder index identity t found run)

end

end

end SlurmBridge.Registration.LookupSpec
