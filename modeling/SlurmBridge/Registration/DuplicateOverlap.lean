/- source: internal/controller/registration/duplicates.go
   digest: Keys that share an allocation but disagree on the best one can lose every allocation
     in one cleanup, so agreement is exactly what duplicate cleanup needs. -/

import SlurmBridge.Registration.DuplicateCleanup

set_option autoImplicit false

namespace SlurmBridge.Registration.DuplicateOverlap

open Foundation.Interaction Foundation.Preference Slurm.Ownership Slurm.Job Registration.Interface
open Registration.Duplicates Registration.Grouping Registration.Survivors
open Registration.DuplicateCleanup
open Kube.Reads (Err)
open List

section
variable {h t : Trace surroundings}

private theorem acknowledged_quiet (quiet : ∀ e ∈ t, ∀ id, e.1 ≠ Command.deleteJob id) (id : Int) :
    Acknowledged (h ++ t) id ↔ Acknowledged h id := by
  unfold Acknowledged
  rw [mem_append, or_iff_left]
  exact fun now => quiet _ now id rfl

private theorem acknowledged_snoc (id id' : Int) :
    Acknowledged (h ++ [⟨.deleteJob id, (.ok () : Except SlurmError Unit)⟩]) id' ↔
      Acknowledged h id' ∨ id' = id := by
  unfold Acknowledged
  rw [mem_append, mem_singleton]
  refine or_congr_right ⟨fun same => ?_, fun same => by rw [same]⟩
  exact Command.deleteJob.inj (congrArg Sigma.fst same)

end

variable {jobs : List JobInfo} {h : Trace surroundings}

private theorem can_liveComponents {cached : List JobInfo} (distinct : (jobs.map JobInfo.key).Nodup)
    (known : ∀ job ∈ cached, job ∈ jobs) :
    can (Answers jobs) (liveComponents cached) h fun h' out =>
      (∃ t, h' = h ++ t ∧ ∀ e ∈ t, ∀ id, e.1 ≠ Command.deleteJob id) ∧ ∃ live, out = .ok live ∧
          ∀ raw, raw ∈ live ↔ raw ∈ cached ∧ ¬ BelongsTo (Acknowledged h) raw := by
  unfold liveComponents
  rw [can_bind]
  refine can_loop (fun seen h' live => (∃ t, h' = h ++ t ∧ ∀ e ∈ t, ∀ id, e.1 ≠ .deleteJob id) ∧
    ∀ raw, raw ∈ live ↔ raw ∈ seen ∧ ¬ BelongsTo (Acknowledged h) raw)
    ⟨⟨[], by simp⟩, by simp⟩ ?_ ?_
  · rintro seen job rest h' live split ⟨⟨t, rfl, quiet⟩, read⟩
    have member : job ∈ jobs := known job (by simp [split])
    have only : ∀ job' ∈ jobs, itoa job'.key = itoa job.key → job' = job := fun job' member' same =>
      inj_on_of_nodup_map distinct member' member (itoa_injective same)
    have longer : ∀ reply : Except SlurmError JobInfo,
        ∀ e ∈ t ++ [⟨Command.getJob .live (itoa job.key), reply⟩], ∀ id, e.1 ≠ .deleteJob id :=
      fun reply => Foundation.Checked.forall_mem_snoc quiet fun id same => by cases same
    rw [can_bind, can_perform]
    by_cases gone : BelongsTo (Acknowledged h) job
    · refine ⟨(.error .notFound : Except SlurmError JobInfo), ?_, ?_⟩
      · intro job' member' same
        obtain ⟨ext, converted, acked⟩ := only job' member' same ▸ gone
        exact ⟨ext, converted, _, mem_append_left t acked⟩
      · refine ⟨⟨_, append_assoc .., longer _⟩, fun raw => ?_⟩
        rw [read raw, mem_append, mem_singleton]
        constructor
        · exact fun ⟨old, live⟩ => ⟨.inl old, live⟩
        · rintro ⟨old | rfl, live⟩
          · exact ⟨old, live⟩
          · exact absurd gone live
    · refine ⟨(.ok job : Except SlurmError JobInfo), ?_, ?_⟩
      · intro job' member' same
        rw [only job' member' same]
        refine .inl ⟨rfl, fun ⟨ext, converted, acked⟩ => gone ⟨ext, converted, ?_⟩⟩
        exact (acknowledged_quiet quiet _).mp acked
      · dsimp only
        rw [if_neg (by simp)]
        refine ⟨⟨_, append_assoc .., longer _⟩, fun raw => ?_⟩
        rw [mem_append, read raw, mem_singleton, mem_append, mem_singleton]
        constructor
        · rintro (⟨old, live⟩ | rfl)
          · exact ⟨.inl old, live⟩
          · exact ⟨.inr rfl, gone⟩
        · rintro ⟨old | rfl, live⟩
          · exact .inl ⟨old, live⟩
          · exact .inr rfl
  · rintro h' live ⟨⟨t, rfl, quiet⟩, read⟩
    exact ⟨⟨t, rfl, quiet⟩, live, rfl, read⟩

variable {canceled : List Int}

private theorem can_cancelDuplicates {keep : Int} {ids : List Int}
    (coupled : ∀ id, id ∈ canceled ↔ Acknowledged h id) :
    can (Answers jobs) (cancelDuplicates keep ids canceled) h fun h' out =>
      (∀ id, id ∈ out.1 ↔ Acknowledged h' id) ∧
        ∀ id, Acknowledged h' id ↔ Acknowledged h id ∨ (id ∈ ids ∧ id ≠ keep) := by
  refine can_foldlM (fun seen h' state => (∀ id, id ∈ state.1 ↔ Acknowledged h' id) ∧
    ∀ id, Acknowledged h' id ↔ Acknowledged h id ∨ (id ∈ seen ∧ id ≠ keep))
    ⟨coupled, by simp⟩ ?_ fun h' state inv => inv
  rintro seen id rest h' state - ⟨coupled', acked⟩
  split
  · rename_i skipped
    refine ⟨coupled', fun id' => ?_⟩
    rw [acked id', mem_append, mem_singleton]
    constructor
    · exact fun known => known.imp_right fun ⟨old, other⟩ => ⟨.inl old, other⟩
    · rintro (before | ⟨old | rfl, other⟩)
      · exact .inl before
      · exact .inr ⟨old, other⟩
      · exact (acked id').mp ((coupled' id').mp (skipped.resolve_left other))
  · rename_i fresh
    rw [not_or] at fresh
    refine ⟨(.ok () : Except SlurmError Unit), trivial, ?_, ?_⟩
    · intro id'
      rw [mem_append, mem_singleton, coupled' id', acknowledged_snoc]
    · intro id'
      rw [acknowledged_snoc, acked id', mem_append, mem_singleton, or_assoc]
      refine or_congr_right ⟨?_, ?_⟩
      · rintro (⟨old, other⟩ | rfl)
        · exact ⟨.inl old, other⟩
        · exact ⟨.inr rfl, fresh.1⟩
      · rintro ⟨old | rfl, other⟩
        · exact .inl ⟨old, other⟩
        · exact .inr rfl

/-- One allocation of a key comes before another. -/
def Preferred (jobs : List JobInfo) (key : String) (better id : Int) : Prop :=
  better ≠ id ∧ (rankIn ((groupAllocations jobs).at key) better < rankIn ((groupAllocations jobs).at key) id ∨
      (rankIn ((groupAllocations jobs).at key) better = rankIn ((groupAllocations jobs).at key) id ∧
        better ≤ id))

/-- An allocation of a key that some other one, not yet canceled, comes before. -/
def Beaten (jobs : List JobInfo) (key : String) (canceled : Int → Prop) (id : Int) : Prop :=
  id ∈ (groupAllocations jobs).at key ∧
    ∃ better ∈ (groupAllocations jobs).at key, ¬ canceled better ∧ Preferred jobs key better id

variable {allocations : Allocations} {a b : Int}

private theorem unique_of_few (few : allocations.entries.length < 2) (first : a ∈ allocations)
    (second : b ∈ allocations) : a = b := by
  obtain ⟨e, member, rfl⟩ := mem_iff_entry.mp first
  obtain ⟨e', member', rfl⟩ := mem_iff_entry.mp second
  match entries : allocations.entries with
  | [] => simp [entries] at member
  | [only] =>
    rw [entries, mem_singleton] at member member'
    rw [member, member']
  | _ :: _ :: _ =>
    rw [entries, length_cons, length_cons] at few
    omega

variable {key : String}

private theorem can_cleanAllocationConflict (distinct : (jobs.map JobInfo.key).Nodup) (uniform : Uniform jobs)
    (cached : ∀ raw, raw ∈ (allocations.entries.flatMap fun entry => entry.2) ↔ FiledUnder jobs key raw)
    (elsewhere : ∀ id, Acknowledged h id → ∃ key' ≠ key, id ∈ (groupAllocations jobs).at key')
    (coupled : ∀ id, id ∈ canceled ↔ Acknowledged h id) :
    can (Answers jobs) (cleanAllocationConflict key allocations canceled) h fun h' out =>
      (∀ id, id ∈ out.1 ↔ Acknowledged h' id) ∧ ∀ id, Acknowledged h' id ↔
          Acknowledged h id ∨ Beaten jobs key (Acknowledged h) id := by
  unfold cleanAllocationConflict
  rw [can_bind]
  refine can_rangeMap allocations.nodupKeys.nodup (List.Perm.refl _) (fun _ => trivial) fun order => ?_
  have known : ∀ raw ∈ (allocations.entries.flatMap fun entry => entry.2), raw ∈ jobs := by
    intro raw member
    obtain ⟨f, filing, -, rfl⟩ := (cached raw).mp member
    exact (filing_record filing).1
  rw [can_bind]
  refine can_mono (can_liveComponents distinct known) ?_
  rintro t' - ⟨⟨t, grown, quiet⟩, live, rfl, read⟩
  rw [grown]
  have asked : ∀ id, Acknowledged (h ++ [⟨.mapOrder allocations.entries.length, order⟩] ++ t) id ↔
      Acknowledged h id := fun id => by
    rw [acknowledged_quiet quiet, acknowledged_quiet (by simp)]
  have unordered : ∀ raw, BelongsTo (Acknowledged (h ++ [⟨.mapOrder allocations.entries.length, order⟩])) raw ↔
      BelongsTo (Acknowledged h) raw := fun raw =>
    exists_congr fun ext => and_congr_right' (acknowledged_quiet (by simp) _)
  have sub : ∀ raw ∈ live, FiledUnder jobs key raw ∨ isFinishedJob raw = true :=
    fun raw member => .inl ((cached raw).mp ((read raw).mp member).1)
  have sup : ∀ f ∈ filings jobs, f.key = key → ¬ Acknowledged h f.id → f.job ∈ live := by
    intro f filing under kept
    refine (read f.job).mpr ⟨(cached f.job).mpr ⟨f, filing, under, rfl⟩, ?_⟩
    rwa [unordered, filed_belongs filing]
  have podGroups := podGroups_read uniform elsewhere sup
  -- Exactly the allocations that are not canceled yet are read back, with unchanged ranks.
  have present : ∀ id, ¬ Acknowledged h id → id ∈ (groupAllocations jobs).at key →
      id ∈ (groupAllocations live).at key ∧
        rankIn ((groupAllocations live).at key) id = rankIn ((groupAllocations jobs).at key) id :=
    fun id open_ => kept_id sub podGroups fun f filing under same =>
      sup f filing under (same ▸ open_)
  have uncanceled : ∀ id ∈ (groupAllocations live).at key, ¬ Acknowledged h id := by
    intro id member acked
    obtain ⟨f, filing, -, rfl⟩ := mem_groupAllocations.mp member
    have here := ((read f.job).mp (filing_record filing).1).2
    rw [unordered, filed_belongs filing] at here
    exact here acked
  dsimp only
  split
  · rename_i few
    refine ⟨fun id => by rw [coupled, asked], fun id => ?_⟩
    rw [asked]
    refine ⟨.inl, fun known => known.elim (fun acked => acked) fun beaten => ?_⟩
    obtain ⟨member, better, betterMember, betterOpen, differ, -⟩ := beaten
    by_contra open_
    exact differ (unique_of_few few (present better betterOpen betterMember).1 (present id open_ member).1)
  · rename_i several
    have nonempty : ((groupAllocations live).at key).entries ≠ [] := by
      intro empty
      simp [empty] at several
    obtain ⟨best, chosen, survivor⟩ := survivingAllocation_rearranged nonempty
      (groupAllocations_convertible live key) (rearranged_of_perm (List.Perm.refl _))
    rw [can_bind]
    refine can_rangeMap (AList.nodupKeys _).nodup (List.Perm.refl _) (fun _ => trivial) fun order' => ?_
    simp only [chosen]
    rw [can_bind]
    refine can_rangeMap (AList.keys_nodup _) (List.Perm.refl _) (fun _ => trivial) fun order'' => ?_
    have asked' : ∀ id, Acknowledged (h ++ [⟨.mapOrder allocations.entries.length, order⟩] ++ t ++
        [⟨.mapOrder ((groupAllocations live).at key).entries.length, order'⟩] ++
        [⟨.mapOrder ((groupAllocations live).at key).keys.length, order''⟩]) id ↔
        Acknowledged h id := fun id => by
      rw [acknowledged_quiet (by simp), acknowledged_quiet (by simp), asked]
    refine can_mono (can_cancelDuplicates fun id => by rw [coupled, asked']) ?_
    rintro t'' out ⟨coupled', acked⟩
    refine ⟨coupled', fun id => ?_⟩
    rw [acked, asked']
    constructor
    · rintro (before | ⟨member, notBest⟩)
      · exact .inl before
      · refine .inr ⟨live_id sub member, best, live_id sub survivor.1, uncanceled best survivor.1,
          Ne.symm notBest, ?_⟩
        rw [← (present best (uncanceled best survivor.1) (live_id sub survivor.1)).2,
          ← (present id (uncanceled id member) (live_id sub member)).2]
        exact survivor.2 id member
    · rintro (before | ⟨member, better, betterMember, betterOpen, differ, order⟩)
      · exact .inl before
      · by_cases open_ : Acknowledged h id
        · exact .inl open_
        · obtain ⟨inside, sameRank⟩ := present id open_ member
          obtain ⟨betterInside, betterRank⟩ := present better betterOpen betterMember
          refine .inr ⟨inside, fun isBest => differ ?_⟩
          have beats := survivor.2 better betterInside
          rw [← isBest] at beats
          omega

variable {id : Int}

private theorem rank_uniform (uniform : Uniform jobs) {k j : String}
    (underK : id ∈ (groupAllocations jobs).at k) (underJ : id ∈ (groupAllocations jobs).at j) :
    rankIn ((groupAllocations jobs).at k) id = rankIn ((groupAllocations jobs).at j) id := by
  have moves : ∀ k j, id ∈ (groupAllocations jobs).at j →
      rankIn ((groupAllocations jobs).at j) id ≤ rankIn ((groupAllocations jobs).at k) id := by
    intro k j under
    refine allocationRank_mono fun job member => ?_
    obtain ⟨f, filing, -, sameId, rfl⟩ := mem_jobs_groupAllocations.mp member
    obtain ⟨f', filing', rfl, sameId'⟩ := mem_groupAllocations.mp under
    obtain ⟨f'', filing'', sameKey, sameJob⟩ :=
      uniform f filing f' filing' (sameId.trans sameId'.symm)
    refine mem_jobs_groupAllocations.mpr ⟨f'', filing'', sameKey, ?_, sameJob⟩
    rw [filing_id_unique filing'' filing sameJob, sameId]
  exact le_antisymm (moves j k underK) (moves k j underJ)

variable {keys : List String}

private theorem disagreement (uniform : Uniform jobs) (disagree : ¬ Agree jobs keys) :
    ∃ k ∈ keys, ∃ j ∈ keys, ∃ a b, IsSurvivor jobs k a ∧ a ∈ (groupAllocations jobs).at j ∧
      b ∈ (groupAllocations jobs).at j ∧ b ∉ (groupAllocations jobs).at k ∧
      Preferred jobs j b a := by
  unfold Agree Coordinated at disagree
  push Not at disagree
  obtain ⟨k, hk, j, hj, a, best, underJ, notBest⟩ := disagree
  have beaten : ∃ b ∈ (groupAllocations jobs).at j, Preferred jobs j b a := by
    by_contra none
    push Not at none
    refine notBest ⟨underJ, fun b member => ?_⟩
    have := none b member
    unfold Preferred at this
    by_cases same : b = a
    · subst same
      exact .inr ⟨rfl, le_rfl⟩
    · simp only [same, ne_eq, not_false_eq_true, true_and] at this
      omega
  obtain ⟨b, member, preferred⟩ := beaten
  refine ⟨k, hk, j, hj, a, b, best, underJ, member, fun underK => ?_, preferred⟩
  have rankB := rank_uniform uniform underK member
  have rankA := rank_uniform uniform best.1 underJ
  have first := best.2 b underK
  obtain ⟨differ, order⟩ := preferred
  omega

private theorem can_cleanGroup {group : Σ _ : String, Allocations} {state : List Int × List Err}
    (distinct : (jobs.map JobInfo.key).Nodup) (uniform : Uniform jobs)
    (member : group ∈ (groupAllocations jobs).entries) (requested : group.1 ∈ keys)
    (elsewhere : ∀ id, Acknowledged h id → ∃ key' ≠ group.1, id ∈ (groupAllocations jobs).at key')
    (coupled : ∀ id, id ∈ state.1 ↔ Acknowledged h id) :
    can (Answers jobs) (cleanGroup keys state group) h fun h' out =>
      (∀ id, id ∈ out.1 ↔ Acknowledged h' id) ∧ ∀ id, Acknowledged h' id ↔
          Acknowledged h id ∨ Beaten jobs group.1 (Acknowledged h) id := by
  unfold cleanGroup
  split
  · rename_i skipped
    refine ⟨coupled, fun id => ⟨.inl, fun known => known.elim (fun acked => acked) ?_⟩⟩
    rintro ⟨inside, better, betterInside, -, differ, -⟩
    rw [at_of_entry member] at inside betterInside
    exact absurd (unique_of_few (skipped.resolve_left (not_not.mpr requested)) betterInside inside)
      differ
  · rw [can_bind]
    exact can_mono (can_cleanAllocationConflict distinct uniform
      (cached_records (List.Perm.refl jobs) member) elsewhere coupled) fun t out spec => spec

private theorem answered (jobs : List JobInfo) (h : Trace surroundings) (c : Command) :
    ∃ reply, Answers jobs h ⟨c, reply⟩ := by
  refine ⟨c.refuse, ?_⟩
  cases c with
  | listJobs reader => cases reader <;> trivial
  | getJob reader key =>
    cases reader with
    | cached => trivial
    | live => exact fun _ _ _ => trivial
  | _ => trivial

private theorem beaten_iff {best : Int} {canceled : Int → Prop} (survivor : IsSurvivor jobs key best)
    (bestOpen : ¬ canceled best) :
    Beaten jobs key canceled id ↔ id ∈ (groupAllocations jobs).at key ∧ id ≠ best := by
  constructor
  · rintro ⟨member, better, betterMember, -, differ, order⟩
    refine ⟨member, ?_⟩
    rintro rfl
    have first := survivor.2 better betterMember
    omega
  · rintro ⟨member, notBest⟩
    exact ⟨member, best, survivor.1, bestOpen, Ne.symm notBest, survivor.2 id member⟩

private theorem can_lose {groupK groupJ : Σ _ : String, Allocations} {rest : List (Σ _ : String, Allocations)}
    (distinct : (jobs.map JobInfo.key).Nodup) (uniform : Uniform jobs)
    (memberK : groupK ∈ (groupAllocations jobs).entries) (memberJ : groupJ ∈ (groupAllocations jobs).entries)
    (hk : groupK.1 ∈ keys) (hj : groupJ.1 ∈ keys) (differ : groupK.1 ≠ groupJ.1)
    (survivor : IsSurvivor jobs groupK.1 a) (underJ : a ∈ (groupAllocations jobs).at groupJ.1)
    (better : b ∈ (groupAllocations jobs).at groupJ.1) (lacks : b ∉ (groupAllocations jobs).at groupK.1)
    (preferred : Preferred jobs groupJ.1 b a) (start : ∀ id, ¬ Acknowledged h id) :
    can (Answers jobs) ((groupK :: groupJ :: rest).foldlM (cleanGroup keys) ([], [])) h fun h' _ =>
      ∀ id ∈ (groupAllocations jobs).at groupK.1, Acknowledged h' id := by
  rw [foldlM_cons, can_bind]
  refine can_mono (can_cleanGroup distinct uniform memberK hk
    (fun id acked => absurd acked (start id)) fun id => by simpa using start id) ?_
  rintro t state ⟨coupled, acked⟩
  have afterK : ∀ id, Acknowledged (h ++ t) id ↔
      id ∈ (groupAllocations jobs).at groupK.1 ∧ id ≠ a := fun id => by
    rw [acked, beaten_iff survivor (start a), or_iff_right (start id)]
  rw [foldlM_cons, can_bind]
  refine can_mono (can_cleanGroup distinct uniform memberJ hj
    (fun id gone => ⟨groupK.1, differ, ((afterK id).mp gone).1⟩) coupled) ?_
  rintro t' state' ⟨-, acked'⟩
  refine can_any (answered jobs) _ fun _ _ id member => mem_append_left _ ?_
  refine (acked' id).mpr ?_
  by_cases isBest : id = a
  · subst isBest
    exact .inr ⟨underJ, b, better, fun gone => lacks ((afterK b).mp gone).1, preferred⟩
  · exact .inl ((afterK id).mpr ⟨member, isBest⟩)

private theorem can_overcancel (distinct : (jobs.map JobInfo.key).Nodup) (uniform : Uniform jobs)
    (disagree : ¬ Agree jobs keys) :
    ∃ key ∈ keys, (∃ id, id ∈ (groupAllocations jobs).at key) ∧
      can (Answers jobs) (cleanDuplicateAllocations keys) [] fun h _ =>
        ∀ id ∈ (groupAllocations jobs).at key, Acknowledged h id := by
  classical
  obtain ⟨k, hk, j, hj, a, b, survivor, underJ, better, lacks, preferred⟩ :=
    disagreement uniform disagree
  refine ⟨k, hk, ⟨a, survivor.1⟩, ?_⟩
  have differ : k ≠ j := by
    rintro rfl
    exact lacks better
  have entry : ∀ key id, id ∈ (groupAllocations jobs).at key →
      ∃ group ∈ (groupAllocations jobs).entries, group.1 = key := by
    intro key id member
    obtain ⟨f, filing, under, -⟩ := mem_groupAllocations.mp member
    exact mem_map.mp (key_mem_groupAllocations.mpr ⟨f, filing, under⟩)
  obtain ⟨groupK, memberK, rfl⟩ := entry k a survivor.1
  obtain ⟨groupJ, memberJ, rfl⟩ := entry j a underJ
  have memberJ' : groupJ ∈ (groupAllocations jobs).entries.erase groupK :=
    (mem_erase_of_ne fun same => differ (by rw [same])).mpr memberJ
  -- The cleanup visits the key before the one that beats its best allocation.
  have visit : (groupK :: groupJ :: ((groupAllocations jobs).entries.erase groupK).erase groupJ).Perm
      (groupAllocations jobs).entries :=
    ((perm_cons_erase memberK).trans ((perm_cons_erase memberJ').cons groupK)).symm
  unfold cleanDuplicateAllocations
  rw [can_bind, can_perform]
  refine ⟨(.ok jobs : Except SlurmError (List JobInfo)), List.Perm.refl _, ?_⟩
  rw [can_bind]
  refine can_rangeMap (AList.nodupKeys _).nodup visit (fun _ => trivial) fun order => ?_
  rw [can_bind]
  refine can_mono (can_lose distinct uniform memberK memberJ hk hj differ survivor underJ better
    lacks preferred fun id acked => ?_) fun _ _ all => all
  rcases mem_cons.mp acked with same | acked
  · cases congrArg Sigma.fst same
  · cases congrArg Sigma.fst (mem_singleton.mp acked)

def KeepsOne (jobs : List JobInfo) (keys : List String) (canceled : Int → Prop) : Prop :=
  ∀ key ∈ keys, (∃ id, id ∈ (groupAllocations jobs).at key) →
    ∃ id ∈ (groupAllocations jobs).at key, ¬ canceled id

private theorem keepsOne_of_agree (uniform : Uniform jobs) (agree : Agree jobs keys) {t : Trace surroundings}
    {errs : List Err} (run : Exec (cleanDuplicateAllocations keys) t errs) (conforms : Conforms jobs [] t) :
    KeepsOne jobs keys (Requested t) := by
  rintro key requested ⟨id, member⟩
  obtain ⟨best, survivor⟩ := exists_survivor member
  refine ⟨best, survivor.1, ?_⟩
  rintro ⟨reply, asked⟩
  obtain ⟨before, rest, rfl⟩ := append_of_mem asked
  have spares := (wp_exec (wp_cleanDuplicateAllocations uniform agree) run).2 before
    ⟨.deleteJob best, reply⟩ rest rfl
  exact spares (along_append.mp conforms).1 key requested survivor

/-- Duplicate cleanup leaves every requested key an allocation, whatever the map iteration orders
and the failures of cancellations, exactly when the requested keys agree on the best allocations
they share.  Where they agree, it does not even ask for the cancellation of the last one. -/
theorem duplicate_cleanup_keeps_one_iff {jobs : List JobInfo} {keys : List String}
    (distinct : (jobs.map JobInfo.key).Nodup) (uniform : Uniform jobs) :
    ((∀ t errs, Exec (cleanDuplicateAllocations keys) t errs → Conforms jobs [] t →
        KeepsOne jobs keys (Acknowledged t)) ↔ Agree jobs keys) ∧
      ((∀ t errs, Exec (cleanDuplicateAllocations keys) t errs → Conforms jobs [] t →
        KeepsOne jobs keys (Requested t)) ↔ Agree jobs keys) := by
  have weaker : ∀ t, KeepsOne jobs keys (Requested t) → KeepsOne jobs keys (Acknowledged t) := by
    intro t keeps key requested some_
    obtain ⟨id, member, kept⟩ := keeps key requested some_
    exact ⟨id, member, fun acked => kept ⟨_, acked⟩⟩
  have necessary : (∀ t errs, Exec (cleanDuplicateAllocations keys) t errs → Conforms jobs [] t →
      KeepsOne jobs keys (Acknowledged t)) → Agree jobs keys := by
    intro keeps
    by_contra disagree
    obtain ⟨key, requested, some_, possible⟩ := can_overcancel distinct uniform disagree
    obtain ⟨t, errs, run, conforms, all⟩ := can_exec possible
    obtain ⟨id, member, kept⟩ := keeps t errs run conforms key requested some_
    exact kept (all id member)
  refine ⟨⟨necessary, fun agree t errs run conforms => ?_⟩,
    ⟨fun keeps => necessary fun t errs run conforms => ?_, fun agree t errs run conforms => ?_⟩⟩
  · exact weaker t (keepsOne_of_agree uniform agree run conforms)
  · exact weaker t (keeps t errs run conforms)
  · exact keepsOne_of_agree uniform agree run conforms

/-- A pending, held job without group metadata. -/
def legacyJob (id : Int) (pods : List String) : JobInfo where
  jobId := some id
  nodes := none
  jobState := some [.pending]
  priority := some ⟨some true, some 0⟩
  hetJobId := none
  hetJobOffset := none
  adminComment := (ExternalJobInfo.mk pods none none).toComment

/-- Two such jobs share Pod a; only the second lists Pod b. -/
def overlapping : List JobInfo := [legacyJob 1 ["ns/a"], legacyJob 2 ["ns/a", "ns/b"]]

private theorem uniform_of_single
    (single : ∀ raw ∈ jobs, ∀ raw' ∈ jobs, ∀ ext ext', fromJobInfo raw = .ok ext → fromJobInfo raw' = .ok ext' → ext.allocationID = ext'.allocationID → raw = raw') :
    Uniform jobs := by
  intro f filing f' filing' same
  obtain ⟨member, ext, converted, -, id⟩ := filing_record filing
  obtain ⟨member', ext', converted', -, id'⟩ := filing_record filing'
  refine ⟨f', filing', rfl, ?_⟩
  exact (single f.job member f'.job member' ext ext' converted converted' (by omega)).symm

private theorem uniform_overlapping : Uniform overlapping := by
  have leader : ∀ id pods ext, 0 < id → fromJobInfo (legacyJob id pods) = .ok ext → ext.allocationID = id := by
    intro id pods ext positive converted
    have plain : ext = externalJobState (legacyJob id pods) := by
      have direct : fromJobInfo (legacyJob id pods) = .ok (externalJobState (legacyJob id pods)) := by
        simp [fromJobInfo, validateExternalJobID, externalJobState, legacyJob, not_le.mpr positive]
      exact Except.ok.inj (converted.symm.trans direct)
    rw [plain]
    simp [ExternalJob.allocationID, externalJobState, legacyJob]
  refine uniform_of_single fun raw member raw' member' ext ext' converted converted' same => ?_
  rcases mem_pair.mp member with rfl | rfl <;> rcases mem_pair.mp member' with rfl | rfl
  · rfl
  · rw [leader 1 _ _ (by decide) converted, leader 2 _ _ (by decide) converted'] at same
    cases same
  · rw [leader 2 _ _ (by decide) converted, leader 1 _ _ (by decide) converted'] at same
    cases same
  · rfl

theorem duplicate_cleanup_keeps_one_iff_overlapping :
    (overlapping.map JobInfo.key).Nodup ∧ Uniform overlapping ∧
      ((∀ t errs, Exec (cleanDuplicateAllocations ["pod/ns/a", "pod/ns/b"]) t errs →
          Conforms overlapping [] t →
          KeepsOne overlapping ["pod/ns/a", "pod/ns/b"] (Acknowledged t)) ↔
        Agree overlapping ["pod/ns/a", "pod/ns/b"]) :=
  ⟨by decide, uniform_overlapping,
    (duplicate_cleanup_keeps_one_iff (by decide) uniform_overlapping).1⟩

private def answerOverlapping : (c : Command) → c.Reply
  | .listJobs _ => (.ok overlapping : Except SlurmError (List JobInfo))
  | .getJob _ key =>
    match overlapping.find? fun job => itoa job.key = key with
    | some job => (.ok job : Except SlurmError JobInfo)
    | none => (.error .notFound : Except SlurmError JobInfo)
  | .deleteJob _ => (.ok () : Except SlurmError Unit)
  | c => c.refuse

/-- Pod a's conflict keeps job 1 and cancels job 2; Pod b is left with nothing. -/
def overlapRun : Trace surroundings :=
  [⟨.listJobs .cached, (.ok overlapping : Except SlurmError (List JobInfo))⟩,
   ⟨.mapOrder 2, Equiv.refl _⟩, ⟨.mapOrder 2, Equiv.refl _⟩,
   ⟨.getJob .live "2", (.ok (legacyJob 2 ["ns/a", "ns/b"]) : Except SlurmError JobInfo)⟩,
   ⟨.getJob .live "1", (.ok (legacyJob 1 ["ns/a"]) : Except SlurmError JobInfo)⟩,
   ⟨.mapOrder 2, Equiv.refl _⟩, ⟨.mapOrder 2, Equiv.refl _⟩,
   ⟨.deleteJob 2, (.ok () : Except SlurmError Unit)⟩]

private theorem overlapRun_eq : traceOf answerOverlapping
    (cleanDuplicateAllocations ["pod/ns/a", "pod/ns/b"]) = overlapRun := rfl

private theorem overlapRun_conforms : Conforms overlapping [] overlapRun := by
  have open_ : ∀ (h : Trace surroundings), (∀ e ∈ h, ∀ id, e.1 ≠ Command.deleteJob id) →
      ∀ raw, ¬ BelongsTo (Acknowledged h) raw :=
    fun h quiet raw ⟨ext, _, acked⟩ => quiet _ acked _ rfl
  refine ⟨List.Perm.refl _, trivial, trivial, ?_, ?_, trivial, trivial, trivial, trivial⟩
  · intro job member same
    rcases mem_pair.mp member with rfl | rfl
    · exact absurd same (by decide)
    · exact .inl ⟨rfl, open_ _ (by simp) _⟩
  · intro job member same
    rcases mem_pair.mp member with rfl | rfl
    · exact .inl ⟨rfl, open_ _ (by simp) _⟩
    · exact absurd same (by decide)

/-- Cleanup can cancel the only allocation of a requested key. -/
theorem duplicate_cleanup_cancels_last :
    Exec (cleanDuplicateAllocations ["pod/ns/a", "pod/ns/b"]) overlapRun [] ∧
      Conforms overlapping [] overlapRun ∧
      ((groupAllocations overlapping).at "pod/ns/b").keys = [2] ∧ Acknowledged overlapRun 2 := by
  refine ⟨?_, overlapRun_conforms, by decide, ?_⟩
  · have returns : eval answerOverlapping
        (cleanDuplicateAllocations ["pod/ns/a", "pod/ns/b"]) = [] := rfl
    have run := exec_traceOf answerOverlapping
      (cleanDuplicateAllocations ["pod/ns/a", "pod/ns/b"])
    rwa [returns, overlapRun_eq] at run
  · exact mem_of_getElem (i := 7) (h := by decide) rfl

end SlurmBridge.Registration.DuplicateOverlap
