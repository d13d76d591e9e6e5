/- source: internal/nodeinfo/cpuinfo.go
   digest: An SMT layout is decoded exactly if its CPU lists are disjoint and those with a stride fall into
     pairs, and then to the only pairing. -/

import SlurmBridge.Inventory.Devices

set_option autoImplicit false

namespace SlurmBridge.Inventory.SMTPairing

open Foundation.Checked Foundation.NumberSets Foundation.Text Inventory.Devices List AList

/-- A CPU list, with the stride of its pairs. -/
structure Atom where
  cpus : CPUSet
  stride : Option Nat
  positive : ∀ n ∈ stride, 0 < n

/-- A list that parseCPUSet accepts, alone or followed by a positive stride. -/
structure Reads (text : String) (a : Atom) : Prop where
  listed : parseCPUSet (cut '>' text).1 = .ok a.cpus
  alone : (cut '>' text).2.2 = false → a.stride = none
  strided : (cut '>' text).2.2 = true →
    ∃ n : Nat, parseInt32 (cut '>' text).2.1 = some (n : Int) ∧ a.stride = some n

/-- The lower CPUs of disjoint pairs that make up a set. -/
structure Pairs (cpus : CPUSet) (stride : Nat) (lower : Set Nat) : Prop where
  apart : ∀ x ∈ lower, x + stride ∉ lower
  covers : ∀ cpu, cpu ∈ cpus ↔ cpu ∈ lower ∨ ∃ x ∈ lower, cpu = x + stride

/-- A way to pair CPUs at a distance. -/
def Pairing (cpus : CPUSet) (stride : Nat) (sibling : Nat → Nat) : Prop :=
  ∀ cpu ∈ cpus, sibling cpu ∈ cpus ∧ sibling cpu ≠ cpu ∧ sibling (sibling cpu) = cpu ∧
    (sibling cpu = cpu + stride ∨ cpu = sibling cpu + stride)

section
variable {cpus : CPUSet} {stride : Nat} {sibling : Nat → Nat}

theorem exists_pairing_iff (positive : 0 < stride) :
    (∃ sibling, Pairing cpus stride sibling) ↔ ∃ lower, Pairs cpus stride lower := by
  constructor
  · rintro ⟨sibling, pairing⟩
    refine ⟨{x | x ∈ cpus ∧ sibling x = x + stride}, ?_, fun cpu => ⟨fun inside => ?_, ?_⟩⟩
    · rintro x ⟨inside, up⟩ ⟨-, again⟩
      have back := (pairing x inside).2.2.1
      rw [up, again] at back
      omega
    · obtain ⟨inside', -, back, up | down⟩ := pairing cpu inside
      · exact .inl ⟨inside, up⟩
      · exact .inr ⟨sibling cpu, ⟨inside', back.trans down⟩, down⟩
    · rintro (⟨inside, -⟩ | ⟨x, ⟨inside, up⟩, rfl⟩)
      · exact inside
      · exact up ▸ (pairing x inside).1
  · classical
    rintro ⟨lower, apart, covers⟩
    refine ⟨fun cpu => if cpu ∈ lower then cpu + stride else cpu - stride, fun cpu inside => ?_⟩
    dsimp only
    rcases (covers cpu).mp inside with low | ⟨x, low, rfl⟩
    · rw [if_pos low, if_neg (apart cpu low), Nat.add_sub_cancel]
      exact ⟨(covers _).mpr (.inr ⟨cpu, low, rfl⟩), by omega, rfl, .inl rfl⟩
    · rw [if_neg (apart x low), Nat.add_sub_cancel, if_pos low]
      exact ⟨(covers x).mpr (.inl low), by omega, rfl, .inr rfl⟩

theorem Pairing.eq {f g : Nat → Nat} (positive : 0 < stride)
    (first : Pairing cpus stride f) (second : Pairing cpus stride g) : ∀ cpu ∈ cpus, f cpu = g cpu := by
  -- A CPU that is paired downwards was paired upwards from below.
  have down : ∀ {f g : Nat → Nat}, Pairing cpus stride f → Pairing cpus stride g → ∀ cpu ∈ cpus,
      (∀ below < cpu, below ∈ cpus → f below = g below) → cpu = f cpu + stride → g cpu = f cpu := by
    intro f g first second cpu inside below lower
    obtain ⟨inside', -, back, -⟩ := first cpu inside
    have same := below (f cpu) (by omega) inside'
    rw [back] at same
    rw [same, (second (f cpu) inside').2.2.1]
    exact congrArg f same
  intro cpu
  induction cpu using Nat.strong_induction_on with
  | _ cpu ih =>
    intro inside
    rcases (first cpu inside).2.2.2 with up | lower
    · rcases (second cpu inside).2.2.2 with up' | lower
      · exact up.trans up'.symm
      · exact down second first cpu inside (fun below less member => (ih below less member).symm) lower
    · exact (down first second cpu inside ih lower).symm

end

section
variable {cpus : CPUSet} {stride : Nat} {old siblings siblings' : Siblings} {cpu : Nat}

private theorem pairSibling_eq_ok : pairSibling cpus stride siblings cpu = .ok siblings' ↔
    (cpu ∈ siblings ∧ siblings' = siblings) ∨ (cpu ∉ siblings ∧ cpu + stride < 2 ^ 31 ∧ cpu + stride ∈ cpus ∧
      cpu + stride ∉ siblings ∧
      siblings' = (siblings.insert cpu (some (cpu + stride))).insert (cpu + stride) (some cpu)) := by
  unfold pairSibling
  split
  · next known =>
    rw [pure_eq_ok]
    simp [known, eq_comm]
  · next new =>
    simp only [bind_eq_ok, require_eq_ok, pure_eq_ok, exists_and_left, exists_const]
    simp [new, and_assoc, eq_comm]

private theorem lookup_pair (positive : 0 < stride) (c : Nat) :
    ((siblings.insert cpu (some (cpu + stride))).insert (cpu + stride) (some cpu)).lookup c =
      if c = cpu then some (some (cpu + stride)) else if c = cpu + stride then some (some cpu)
      else siblings.lookup c := by
  by_cases lower : c = cpu
  · subst lower
    rw [if_pos rfl, lookup_insert_ne (by omega), lookup_insert]
  · rw [if_neg lower]
    by_cases upper : c = cpu + stride
    · rw [if_pos upper, upper, lookup_insert]
    · rw [if_neg upper, lookup_insert_ne upper, lookup_insert_ne lower]

/-- Each entry of a map is an old one or belongs to a pair, and the visited CPUs have one. -/
structure Entered (cpus : CPUSet) (stride : Nat) (old : Siblings) (visited : List Nat) (siblings : Siblings) :
    Prop where
  all : ∀ c ∈ visited, c ∈ siblings
  entries : ∀ c, siblings.lookup c = old.lookup c ∨ ∃ d, (c ∈ visited ∨ c ∈ cpus) ∧ (d ∈ visited ∨ d ∈ cpus) ∧
    (d = c + stride ∨ c = d + stride) ∧ siblings.lookup c = some (some d) ∧ siblings.lookup d = some (some c)

private theorem Entered.step {visited : List Nat} (positive : 0 < stride)
    (entered : Entered cpus stride old visited siblings)
    (step : pairSibling cpus stride siblings cpu = .ok siblings') :
    Entered cpus stride old (visited ++ [cpu]) siblings' := by
  have before : ∀ {c}, c ∈ visited ∨ c ∈ cpus → c ∈ visited ++ [cpu] ∨ c ∈ cpus := Or.imp_left (mem_append_left _)
  have last : cpu ∈ visited ++ [cpu] ∨ cpu ∈ cpus := .inl (by simp)
  rcases pairSibling_eq_ok.mp step with ⟨known, rfl⟩ | ⟨new, -, paired, free, rfl⟩
  · refine ⟨forall_mem_snoc entered.all known, fun c => (entered.entries c).imp_right ?_⟩
    rintro ⟨d, there, there', both⟩
    exact ⟨d, before there, before there', both⟩
  · refine ⟨forall_mem_snoc (fun c earlier => by simp [entered.all c earlier]) (by simp), fun c => ?_⟩
    simp only [lookup_pair positive]
    by_cases lower : c = cpu
    · refine .inr ⟨cpu + stride, lower ▸ last, .inr paired, .inl (by rw [lower]), ?_⟩
      simp [lower, positive.ne']
    · by_cases upper : c = cpu + stride
      · refine .inr ⟨cpu, .inr (upper ▸ paired), last, .inr upper, ?_⟩
        simp [upper, positive.ne']
      · rw [if_neg lower, if_neg upper]
        refine (entered.entries c).imp_right ?_
        rintro ⟨d, there, there', distance, up, down⟩
        have inside : d ∈ siblings := lookup_isSome.mp (by rw [down]; rfl)
        refine ⟨d, before there, before there', distance, up, ?_⟩
        rw [if_neg (ne_of_mem_of_not_mem inside new), if_neg (ne_of_mem_of_not_mem inside free), down]

theorem pairing_of_run (positive : 0 < stride) (fresh : ∀ cpu ∈ cpus, cpu ∉ old)
    (run : cpus.list.foldlM (pairSibling cpus stride) old = .ok siblings) :
    (∀ c, c ∉ cpus → siblings.lookup c = old.lookup c) ∧
      ∃ sibling, Pairing cpus stride sibling ∧ ∀ c ∈ cpus, siblings.lookup c = some (some (sibling c)) := by
  obtain ⟨all, entries⟩ : Entered cpus stride old cpus.list siblings :=
    foldlM_ok (Entered cpus stride old) (fun _ _ _ _ => Entered.step positive) ⟨by simp, fun _ => .inl rfl⟩ run
  have paired : ∀ c ∈ cpus, ∃ d ∈ cpus, (d = c + stride ∨ c = d + stride) ∧
      siblings.lookup c = some (some d) ∧ siblings.lookup d = some (some c) := by
    intro c inside
    rcases entries c with same | ⟨d, -, there, both⟩
    · have present := lookup_isSome.mpr (all c inside)
      rw [same, lookup_isSome] at present
      exact absurd present (fresh c inside)
    · exact ⟨d, there.elim id id, both⟩
  refine ⟨fun c outside => (entries c).resolve_right ?_, ?_⟩
  · rintro ⟨d, there, -⟩
    exact outside (there.elim id id)
  · choose! sibling inside distance up down using paired
    refine ⟨sibling, fun c member => ⟨inside c member, ?_, ?_, distance c member⟩, up⟩
    · have := distance c member
      omega
    · exact Option.some.inj (Option.some.inj ((up _ (inside c member)).symm.trans (down c member)))

theorem run_of_pairing {sibling : Nat → Nat} (positive : 0 < stride) (fresh : ∀ cpu ∈ cpus, cpu ∉ old)
    (small : ∀ cpu ∈ cpus, cpu < 2 ^ 31) (pairing : Pairing cpus stride sibling) :
    ∃ siblings, cpus.list.foldlM (pairSibling cpus stride) old = .ok siblings := by
  refine (foldlM_succeeds (fun visited siblings => ∀ c ∈ cpus, (c ∈ siblings ↔ c ∈ visited ∨ sibling c ∈ visited)) ?_
    fun c inside => by simp [fresh c inside]).imp fun _ both => both.1
  intro visited cpu rest siblings split entered
  have increasing := cpus.increasing
  rw [split, pairwise_append] at increasing
  have inside : cpu ∈ cpus := by simp [NumberSet.mem_def, split]
  have below : ∀ c ∈ visited, c < cpu := fun c earlier => increasing.2.2 c earlier cpu mem_cons_self
  obtain ⟨inside', -, back, distance⟩ := pairing cpu inside
  -- The CPUs whose sibling is visited now.
  have pair : ∀ c ∈ cpus, (sibling c = cpu ↔ c = sibling cpu) := by
    intro c member
    exact ⟨fun same => same ▸ (pairing c member).2.2.1.symm, fun same => same ▸ back⟩
  by_cases known : cpu ∈ siblings
  · refine ⟨siblings, pairSibling_eq_ok.mpr (.inl ⟨known, rfl⟩), fun c member => ?_⟩
    have earlier : sibling cpu ∈ visited :=
      ((entered cpu inside).mp known).resolve_left fun visited => lt_irrefl _ (below cpu visited)
    simp only [entered c member, mem_append, mem_singleton, pair c member]
    constructor
    · exact fun before => before.imp .inl .inl
    · rintro ((before | rfl) | (before | rfl))
      · exact .inl before
      · exact .inr earlier
      · exact .inr before
      · exact .inl earlier
  · have unvisited : sibling cpu ∉ visited := fun earlier => known ((entered cpu inside).mpr (.inr earlier))
    have up : sibling cpu = cpu + stride := by
      refine distance.resolve_right fun down => unvisited ?_
      have listed : sibling cpu ∈ visited ++ cpu :: rest := split ▸ inside'
      refine (mem_append.mp listed).resolve_right fun later => ?_
      rcases mem_cons.mp later with same | later
      · omega
      · have := (pairwise_cons.mp increasing.2.1).1 _ later
        omega
    rw [up] at back unvisited inside' pair
    have free : cpu + stride ∉ siblings := by
      rw [entered _ inside', back]
      rintro (earlier | earlier)
      · exact unvisited earlier
      · exact lt_irrefl _ (below cpu earlier)
    refine ⟨_, pairSibling_eq_ok.mpr (.inr ⟨known, small _ inside', inside', free, rfl⟩), fun c member => ?_⟩
    simp only [mem_insert, entered c member, mem_append, mem_singleton, pair c member]
    tauto

end

section
variable {a : Atom} {old siblings : Siblings} {text : String} {cpu : Nat}

/-- What a map says about the CPUs of an atom. -/
structure Holds (a : Atom) (siblings : Siblings) : Prop where
  alone : a.stride = none → ∀ cpu ∈ a.cpus, siblings.lookup cpu = some none
  paired : ∀ stride ∈ a.stride, ∃ sibling, Pairing a.cpus stride sibling ∧
    ∀ cpu ∈ a.cpus, siblings.lookup cpu = some (some (sibling cpu))

theorem Holds.mem (holds : Holds a siblings) (inside : cpu ∈ a.cpus) : cpu ∈ siblings := by
  rw [← lookup_isSome]
  cases stride : a.stride with
  | none => simp [holds.alone stride cpu inside]
  | some n =>
    obtain ⟨sibling, -, found⟩ := holds.paired n stride
    simp [found cpu inside]

theorem Holds.mono {siblings' : Siblings} (holds : Holds a siblings)
    (same : ∀ cpu ∈ a.cpus, siblings'.lookup cpu = siblings.lookup cpu) : Holds a siblings' := by
  refine ⟨fun alone cpu inside => (same cpu inside).trans (holds.alone alone cpu inside), fun stride strided => ?_⟩
  obtain ⟨sibling, pairing, found⟩ := holds.paired stride strided
  exact ⟨sibling, pairing, fun cpu inside => (same cpu inside).trans (found cpu inside)⟩

private theorem lookup_foldl_insert {l : List Nat} :
    (l.foldl (fun siblings cpu => siblings.insert cpu none) old).lookup cpu =
      if cpu ∈ l then some (none : Option Nat) else old.lookup cpu := by
  induction l using reverseRecOn with
  | nil => simp
  | append_singleton l c ih =>
    rw [foldl_append, foldl_cons, foldl_nil]
    by_cases same : cpu = c
    · subst same
      simp
    · rw [lookup_insert_ne same, ih]
      simp [same]

def Atom.enter (a : Atom) (old : Siblings) : Except String Siblings :=
  match a.stride with
  | some stride => a.cpus.list.foldlM (pairSibling a.cpus stride) old
  | none => pure (a.cpus.list.foldl (fun siblings cpu => siblings.insert cpu none) old)

private theorem decodeAtom_eq_ok (reads : Reads text a) : decodeAtom old text = .ok siblings ↔
    (∀ cpu ∈ a.cpus, cpu ∉ old) ∧ a.enter old = .ok siblings ∧ siblings.keys.length ≤ maxTopologyCPUs := by
  have entry : enterAtom a.cpus (if (cut '>' text).2.2 then some (cut '>' text).2.1 else none) old = a.enter old := by
    unfold Atom.enter
    cases strided : (cut '>' text).2.2 with
    | false =>
      rw [reads.alone strided]
      rfl
    | true =>
      obtain ⟨n, read, stride⟩ := reads.strided strided
      simp only [if_true, enterAtom, read, stride, Option.filter_some, Int.natCast_pos, a.positive n stride,
        decide_true]
      rfl
  unfold decodeAtom
  simp only [reads.listed, bind_eq_ok, require_eq_ok, pure_eq_ok, Except.ok.injEq, forM_eq_ok]
  constructor
  · rintro ⟨_, rfl, _, fresh, _, entered, _, small, rfl⟩
    exact ⟨fresh, entry.symm.trans entered, small⟩
  · rintro ⟨fresh, entered, small⟩
    exact ⟨_, rfl, (), fresh, _, entry.trans entered, (), small, rfl⟩

private theorem enter_ok (fresh : ∀ cpu ∈ a.cpus, cpu ∉ old) (entered : a.enter old = .ok siblings) :
    Holds a siblings ∧ ∀ cpu, cpu ∉ a.cpus → siblings.lookup cpu = old.lookup cpu := by
  unfold Atom.enter at entered
  cases strided : a.stride with
  | none =>
    rw [strided] at entered
    obtain rfl := pure_eq_ok.mp entered
    refine ⟨⟨fun _ cpu inside => lookup_foldl_insert.trans (if_pos inside), ?_⟩,
      fun cpu outside => lookup_foldl_insert.trans (if_neg outside)⟩
    simp [strided]
  | some n =>
    rw [strided] at entered
    obtain ⟨others, paired⟩ := pairing_of_run (a.positive n strided) fresh entered
    exact ⟨⟨by simp [strided], by simpa [strided] using paired⟩, others⟩

private theorem enter_succeeds (reads : Reads text a) (fresh : ∀ cpu ∈ a.cpus, cpu ∉ old)
    (paired : ∀ stride ∈ a.stride, ∃ sibling, Pairing a.cpus stride sibling) :
    ∃ siblings, a.enter old = .ok siblings := by
  unfold Atom.enter
  split
  · next stride strided =>
    obtain ⟨sibling, pairing⟩ := paired stride strided
    exact run_of_pairing (a.positive stride strided) fresh (parseCPUSet_lt reads.listed) pairing
  · exact ⟨_, rfl⟩

private theorem mem_of_others (others : ∀ cpu, cpu ∉ a.cpus → siblings.lookup cpu = old.lookup cpu)
    (outside : cpu ∉ a.cpus) : cpu ∈ siblings ↔ cpu ∈ old := by
  rw [← lookup_isSome, others cpu outside, lookup_isSome]

private theorem size_le (others : ∀ cpu, cpu ∉ a.cpus → siblings.lookup cpu = old.lookup cpu) :
    siblings.keys.length ≤ a.cpus.size + old.keys.length := by
  have within : siblings.keys ⊆ a.cpus.list ++ old.keys := by
    intro cpu known
    by_cases inside : cpu ∈ a.cpus
    · exact mem_append_left _ inside
    · exact mem_append_right _ ((mem_of_others others inside).mp known)
  have bound := (subperm_of_subset siblings.keys_nodup within).length_le
  rwa [length_append] at bound

end

section
variable {texts : List String} {atoms : List Atom} {old siblings : Siblings}

private theorem layout_ok (reads : Forall₂ Reads texts atoms) (run : texts.foldlM decodeAtom old = .ok siblings) :
    atoms.Pairwise (fun a b => a.cpus.Disjoint b.cpus) ∧
      (∀ a ∈ atoms, (∀ cpu ∈ a.cpus, cpu ∉ old) ∧ Holds a siblings) ∧
      ∀ cpu, (∀ a ∈ atoms, cpu ∉ a.cpus) → siblings.lookup cpu = old.lookup cpu := by
  induction reads generalizing old with
  | nil =>
    cases run
    exact ⟨.nil, by simp, fun _ _ => rfl⟩
  | @cons text a texts atoms first _ ih =>
    -- The later atoms are entered into the map that the first one leaves.
    obtain ⟨siblings₁, decoded, run⟩ := bind_eq_ok.mp run
    obtain ⟨fresh, entered, -⟩ := (decodeAtom_eq_ok first).mp decoded
    obtain ⟨holds, others⟩ := enter_ok fresh entered
    obtain ⟨apart, rest, same⟩ := ih run
    have disjoint : ∀ b ∈ atoms, a.cpus.Disjoint b.cpus := fun b member cpu inside inside' =>
      (rest b member).1 cpu inside' (holds.mem inside)
    refine ⟨pairwise_cons.mpr ⟨disjoint, apart⟩,
      forall_mem_cons.mpr ⟨⟨fresh, ?_⟩, fun b member => ⟨?_, (rest b member).2⟩⟩, ?_⟩
    · exact holds.mono fun cpu inside => same cpu fun b member => disjoint b member cpu inside
    · intro cpu inside
      rw [← mem_of_others others fun inside' => disjoint b member cpu inside' inside]
      exact (rest b member).1 cpu inside
    · intro cpu outside
      rw [forall_mem_cons] at outside
      exact (same cpu outside.2).trans (others cpu outside.1)

private theorem layout_succeeds (reads : Forall₂ Reads texts atoms)
    (apart : atoms.Pairwise fun a b => a.cpus.Disjoint b.cpus)
    (fits : ∀ a ∈ atoms, (∀ cpu ∈ a.cpus, cpu ∉ old) ∧ ∀ stride ∈ a.stride, ∃ sibling, Pairing a.cpus stride sibling)
    (small : (atoms.map (·.cpus.size)).sum + old.keys.length ≤ maxTopologyCPUs) :
    ∃ siblings, texts.foldlM decodeAtom old = .ok siblings := by
  induction reads generalizing old with
  | nil => exact ⟨old, rfl⟩
  | @cons text a texts atoms first _ ih =>
    rw [map_cons, sum_cons] at small
    obtain ⟨⟨fresh, paired⟩, rest⟩ := forall_mem_cons.mp fits
    obtain ⟨disjoint, apart⟩ := pairwise_cons.mp apart
    obtain ⟨siblings₁, entered⟩ := enter_succeeds first fresh paired
    obtain ⟨-, others⟩ := enter_ok fresh entered
    have size := size_le others
    have decoded := (decodeAtom_eq_ok first).mpr ⟨fresh, entered, by omega⟩
    have fresh' : ∀ b ∈ atoms, ∀ cpu ∈ b.cpus, cpu ∉ siblings₁ := by
      intro b member cpu inside
      rw [mem_of_others others fun inside' => disjoint b member cpu inside' inside]
      exact (rest b member).1 cpu inside
    obtain ⟨siblings, run⟩ := ih apart (fun b member => ⟨fresh' b member, (rest b member).2⟩) (by omega)
    exact ⟨siblings, bind_eq_ok.mpr ⟨siblings₁, decoded, run⟩⟩

/-- A layout is decoded exactly if its lists are disjoint and fall into pairs where they have a stride. The
result has the listed CPUs, without sibling or with the only pairing. -/
theorem decodeSMTLayout_pairing (raw : String) (atoms : List Atom) (reads : Forall₂ Reads (split ';' raw) atoms)
    (small : (atoms.map (·.cpus.size)).sum ≤ maxTopologyCPUs) :
    ((∃ siblings, decodeSMTLayout raw = .ok siblings) ↔
      atoms.Pairwise (fun a b => a.cpus.Disjoint b.cpus) ∧
        ∀ a ∈ atoms, ∀ stride ∈ a.stride, ∃ lower, Pairs a.cpus stride lower) ∧
    ∀ siblings, decodeSMTLayout raw = .ok siblings → (∀ cpu, cpu ∈ siblings ↔ ∃ a ∈ atoms, cpu ∈ a.cpus) ∧
      ∀ a ∈ atoms, (a.stride = none → ∀ cpu ∈ a.cpus, siblings.lookup cpu = some none) ∧
        ∀ stride ∈ a.stride, ∃ sibling, Pairing a.cpus stride sibling ∧
          (∀ cpu ∈ a.cpus, siblings.lookup cpu = some (some (sibling cpu))) ∧
          ∀ sibling', Pairing a.cpus stride sibling' → ∀ cpu ∈ a.cpus, sibling' cpu = sibling cpu := by
  constructor
  · constructor
    · rintro ⟨siblings, decoded⟩
      obtain ⟨apart, each, -⟩ := layout_ok reads decoded
      refine ⟨apart, fun a member stride strided => ?_⟩
      obtain ⟨sibling, pairing, -⟩ := (each a member).2.paired stride strided
      exact (exists_pairing_iff (a.positive stride strided)).mp ⟨sibling, pairing⟩
    · rintro ⟨apart, paired⟩
      refine layout_succeeds reads apart (fun a member => ⟨fun _ _ => AList.notMem_empty _, ?_⟩) small
      intro stride strided
      exact (exists_pairing_iff (a.positive stride strided)).mpr (paired a member stride strided)
  · intro siblings decoded
    obtain ⟨-, each, others⟩ := layout_ok reads decoded
    refine ⟨fun cpu => ⟨fun inside => ?_, ?_⟩, fun a member => ?_⟩
    · by_contra outside
      have gone := others cpu fun a member inside => outside ⟨a, member, inside⟩
      exact AList.lookup_eq_none.mp (gone.trans (AList.lookup_empty cpu)) inside
    · rintro ⟨a, member, inside⟩
      exact (each a member).2.mem inside
    · refine ⟨(each a member).2.alone, fun stride strided => ?_⟩
      obtain ⟨sibling, pairing, found⟩ := (each a member).2.paired stride strided
      exact ⟨sibling, pairing, found, fun _ pairing' => pairing'.eq (a.positive stride strided) pairing⟩

/-- A layout of two pairs at distance two. -/
theorem decodeSMTLayout_two_pairs : ∃ lower, Pairs (.ofList [0, 1, 2, 3]) 2 lower := by
  let four : Atom := ⟨.ofList [0, 1, 2, 3], some 2, by decide⟩
  have pieces : split ';' "0-3>2" = ["0-3>2"] := by decide +kernel
  have cuts : cut '>' "0-3>2" = ("0-3", "2", true) := by decide +kernel
  have read : Reads "0-3>2" four := by
    constructor
    · rw [cuts]
      decide +kernel
    · simp [cuts]
    · rw [cuts]
      exact fun _ => ⟨2, by decide +kernel, rfl⟩
  obtain ⟨siblings, decoded⟩ := exists_ok (by decide +kernel : (decodeSMTLayout "0-3>2").isOk = true)
  have layout := decodeSMTLayout_pairing "0-3>2" [four] (pieces ▸ .cons read .nil) (by decide)
  exact (layout.1.mp ⟨siblings, decoded⟩).2 four mem_cons_self 2 rfl

end

end SlurmBridge.Inventory.SMTPairing
