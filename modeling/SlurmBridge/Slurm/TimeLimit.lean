/- source: internal/utils/timelimit/timelimit.go
   digest: Time limits in minutes, with units and in Slurm's notation, as whole minutes. -/

import SlurmBridge.Node.Configuration

set_option autoImplicit false

namespace SlurmBridge.Slurm.TimeLimit

open Foundation.Checked Foundation.Text
open Node.Configuration (trimSpace)
open List Int

/-- The durations of Prometheus: nanoseconds of 64 bits in texts of digits and units.  A number without a unit
is read only if that makes no difference. -/
structure Durations where
  parse : String → Except String Nat
  bounded : ∀ {s n}, parse s = .ok n → n < 2 ^ 63
  units : ∀ {s n}, parse s = .ok n → s ≠ "" ∧ ':' ∉ s.toList ∧ '-' ∉ s.toList
  bare : ∀ {s n m}, parse s = .ok n → parseNumeral (2 ^ 31) s = some m → n = m * (60 * 10 ^ 9)

variable (durations : Durations) (wrap : Int → Int)

def invalidError (value reason : String) : String :=
  "invalid time limit " ++ value.quote ++ ": " ++ reason ++ ": expected minutes (\"30\"), a duration " ++
    "(\"90s\", \"2h\", \"1d\") or a Slurm time (\"1-12:00:00\")"

/-- Divide and round up.  Sums and products of 64 bits are wrapped. -/
def roundUp (n unit : Int) : Int := if n.tmod unit ≠ 0 then wrap (n.tdiv unit + 1) else n.tdiv unit

def toMinutes (value : String) (seconds : Int) : Except String Int :=
  if roundUp wrap seconds 60 > 2 ^ 31 - 1 then
    .error (invalidError value ("minutes must be at most " ++ numeral (2 ^ 31 - 1)))
  else .ok (roundUp wrap seconds 60)

def parseDuration (s : String) : Except String Int :=
  (durations.parse s).map fun d : Nat => roundUp wrap d (10 ^ 9)

def parseField (s : String) : Except String Int :=
  match parseNumeral (2 ^ 32) s with
  | some v => .ok v
  | none => .error (s.quote ++ " is not a whole number")

/-- The units of the fields after the days, or of a time without days. -/
def fieldUnits (hasDays : Bool) (fields : Nat) : Except String (List Nat) :=
  if hasDays ∧ fields > 3 then .error "expected D-HH, D-HH:MM or D-HH:MM:SS"
  else if !hasDays ∧ fields = 2 then .ok [60, 1]
  else if !hasDays ∧ fields ≠ 3 then .error "expected MM:SS or HH:MM:SS"
  else .ok [3600, 60, 1]

def addField (seconds : Int) (field : String × Nat) : Except String Int :=
  (parseField field.1).map fun v => wrap (seconds + wrap (v * field.2))

def parseFields (hasDays : Bool) (seconds : Int) (rest : String) : Except String Int := do
  let units ← fieldUnits hasDays (split ':' rest).length
  ((split ':' rest).zip units).foldlM (addField wrap) seconds

def parseSlurmTime (s : String) : Except String Int :=
  match cut '-' s with
  | (days, afterDays, true) => do
      let v ← parseField days
      parseFields wrap true (wrap (v * 86400)) afterDays
  | (_, _, false) => parseFields wrap false 0 s

def parse (value : String) : Except String Int :=
  let s := trimSpace value
  if s = "" then .error (invalidError value "value is empty")
  else if s.toList.head? = some '-' then .error (invalidError value "value is negative")
  else
    match parseNumeral (2 ^ 31) s with
    | some minutes => toMinutes wrap value (wrap (minutes * 60))
    | none => do
        let seconds ← Except.mapError (invalidError value)
          (if ':' ∈ s.toList ∨ '-' ∈ s.toList then parseSlurmTime wrap s else parseDuration durations wrap s)
        toMinutes wrap value seconds

def Fields (fields : List String) (values : List Nat) : Prop :=
  List.Forall₂ (fun field v => parseNumeral (2 ^ 32) field = some v) fields values

def weigh (units values : List Nat) : Nat := (List.zipWith (· * ·) values units).sum

/-- The seconds of a time in Slurm's notation. -/
inductive SlurmTime : String → Nat → Prop
  | clock {fields values units} (reads : Fields fields values)
      (form : fields.length = 2 ∧ units = [60, 1] ∨ fields.length = 3 ∧ units = [3600, 60, 1]) :
      SlurmTime (":".intercalate fields) (weigh units values)
  | days {day d fields values} (count : parseNumeral (2 ^ 32) day = some d) (reads : Fields fields values)
      (form : 1 ≤ fields.length ∧ fields.length ≤ 3) :
      SlurmTime (day ++ "-" ++ ":".intercalate fields) (d * 86400 + weigh [3600, 60, 1] values)

/-- The nanoseconds that a text denotes. -/
inductive Denotes : String → Nat → Prop
  | minutes {s m} (bare : parseNumeral (2 ^ 31) s = some m) : Denotes s (m * (60 * 10 ^ 9))
  | slurm {s seconds} (time : SlurmTime s seconds) : Denotes s (seconds * 10 ^ 9)
  | duration {s n} (accepted : durations.parse s = .ok n) : Denotes s n

/-- A treatment of sums and products that leaves 64 bits alone, and others in any way. -/
def Faithful (wrap : Int → Int) : Prop := ∀ n, -2 ^ 63 ≤ n → n < 2 ^ 63 → wrap n = n

section
variable {wrap} (faithful : Faithful wrap)

include faithful

private theorem roundUp_spec {n unit : Int} (nonneg : 0 ≤ n) (room : n < 2 ^ 63) (large : 2 ≤ unit) :
    roundUp wrap n unit < 2 ^ 63 ∧ n ≤ unit * roundUp wrap n unit ∧ unit * (roundUp wrap n unit - 1) < n := by
  have parts := mul_ediv_add_emod n unit
  have low := emod_nonneg n (by omega : unit ≠ 0)
  have high := emod_lt_of_pos n (by omega : 0 < unit)
  have half : 2 * (n / unit) ≤ unit * (n / unit) :=
    mul_le_mul_of_nonneg_right large (ediv_nonneg nonneg (by omega))
  unfold roundUp
  rw [tdiv_eq_ediv_of_nonneg nonneg, tmod_eq_emod_of_nonneg nonneg]
  split
  · have above : unit * (n / unit + 1) = unit * (n / unit) + unit := by ring
    have quotient : 0 ≤ n / unit := ediv_nonneg nonneg (by omega)
    rw [faithful _ (by omega) (by omega), above, Int.add_sub_cancel]
    omega
  · have below : unit * (n / unit - 1) = unit * (n / unit) - unit := by ring
    omega

private theorem toMinutes_iff {value : String} {seconds m : Int} (nonneg : 0 ≤ seconds) (room : seconds < 2 ^ 63) :
    toMinutes wrap value seconds = .ok m ↔ m ≤ 2 ^ 31 - 1 ∧ seconds ≤ 60 * m ∧ 60 * (m - 1) < seconds := by
  have spec := roundUp_spec faithful nonneg room (by decide : (2 : Int) ≤ 60)
  unfold toMinutes
  split
  · next many =>
    constructor
    · exact nofun
    · intro minutes
      omega
  · next few =>
    rw [Except.ok.injEq]
    constructor
    · rintro rfl
      omega
    · intro minutes
      omega

private theorem fields_iff {fields : List String} {units : List Nat} {seconds total : Int}
    (enough : fields.length ≤ units.length) (small : ∀ u ∈ units, u ≤ 3600) (nonneg : 0 ≤ seconds)
    (room : seconds + fields.length * (2 ^ 32 * 3600) < 2 ^ 63) :
    (fields.zip units).foldlM (addField wrap) seconds = .ok total ↔
      ∃ values, Fields fields values ∧ total = seconds + weigh units values := by
  induction fields generalizing units seconds with
  | nil =>
    constructor
    · rintro ⟨⟩
      exact ⟨[], .nil, by simp [weigh]⟩
    · rintro ⟨_, ⟨⟩, rfl⟩
      simp [weigh, pure, Except.pure]
  | cons field fields ih =>
    obtain ⟨unit, units, rfl⟩ := exists_cons_of_length_pos (by simp at enough; omega : 0 < units.length)
    rw [zip_cons_cons, foldlM_cons, bind_eq_ok]
    have weighs : ∀ (v : Nat) (values : List Nat), seconds + (weigh (unit :: units) (v :: values) : Int) =
        seconds + v * unit + weigh units values := fun v values => by simp [weigh]; ring
    have adds : ∀ v, parseNumeral (2 ^ 32) field = some v →
        addField wrap seconds (field, unit) = .ok (seconds + v * unit) ∧ (0 : Int) ≤ v * unit ∧
          (v * unit : Int) ≤ 2 ^ 32 * 3600 := by
      intro v read
      have product : (v * unit : Int) ≤ 2 ^ 32 * 3600 := by
        exact_mod_cast Nat.mul_le_mul (parseNumeral_lt read).le (small unit mem_cons_self)
      have positive : (0 : Int) ≤ v * unit := by positivity
      rw [length_cons] at room
      push_cast at room
      refine ⟨?_, positive, product⟩
      rw [addField, parseField, read]
      change Except.ok (wrap (seconds + wrap (v * unit))) = _
      rw [faithful (v * unit) (by omega) (by omega), faithful _ (by omega) (by omega)]
    have later : ∀ v : Nat, (0 : Int) ≤ v * unit → (v * unit : Int) ≤ 2 ^ 32 * 3600 → _ := fun v low high =>
      @ih units (seconds + v * unit) (by simpa using enough) (fun u inside => small u (mem_cons_of_mem _ inside))
        (by omega) (by rw [length_cons] at room; push_cast at room; omega)
    constructor
    · rintro ⟨sum, added, run⟩
      cases read : parseNumeral (2 ^ 32) field with
      | none =>
        rw [addField, parseField, read] at added
        cases added
      | some v =>
        obtain ⟨same, low, high⟩ := adds v read
        cases same.symm.trans added
        obtain ⟨values, reads, rfl⟩ := (later v low high).mp run
        exact ⟨v :: values, .cons read reads, (weighs v values).symm⟩
    · rintro ⟨_, reads, rfl⟩
      cases reads with
      | @cons _ v _ values read reads =>
        obtain ⟨same, low, high⟩ := adds v read
        exact ⟨_, same, (later v low high).mpr ⟨values, reads, weighs v values⟩⟩

omit faithful in
private theorem fieldUnits_iff {hasDays : Bool} {n : Nat} {units : List Nat} : fieldUnits hasDays n = .ok units ↔
    hasDays = false ∧ n = 2 ∧ units = [60, 1] ∨ units = [3600, 60, 1] ∧ (hasDays = false ∧ n = 3 ∨ hasDays = true ∧ n ≤ 3) := by
  unfold fieldUnits
  cases hasDays with
  | false => by_cases two : n = 2 <;> by_cases three : n = 3 <;> simp_all [eq_comm]
  | true =>
    by_cases many : n > 3
    · simp [many, Nat.not_le.mpr many]
    · simp [many, Nat.not_lt.mp many, eq_comm]

private theorem parseFields_iff {hasDays : Bool} {seconds total : Int} {rest : String} (nonneg : 0 ≤ seconds)
    (room : seconds ≤ 2 ^ 32 * 86400) : parseFields wrap hasDays seconds rest = .ok total ↔
      ∃ units values, fieldUnits hasDays (split ':' rest).length = .ok units ∧ Fields (split ':' rest) values ∧
        total = seconds + weigh units values := by
  unfold parseFields
  rw [bind_eq_ok]
  refine exists_congr fun units => ?_
  rw [exists_and_left]
  refine and_congr_right fun form => ?_
  have shape : (split ':' rest).length ≤ units.length ∧ units.length ≤ 3 ∧ ∀ u ∈ units, u ≤ 3600 := by
    rcases fieldUnits_iff.mp form with ⟨-, two, rfl⟩ | ⟨rfl, ⟨-, three⟩ | ⟨-, three⟩⟩ <;> simp [*]
  exact fields_iff faithful shape.1 shape.2.2 nonneg (by omega)

omit faithful in
private theorem no_mark {fields : List String} {values : List Nat} {c : Char} (reads : Fields fields values)
    (mark : c.isDigit = false) : ∀ field ∈ fields, c ∉ field.toList := by
  induction reads with
  | nil => exact nofun
  | cons first _ ih =>
    refine forall_mem_cons.mpr ⟨fun inside => ?_, ih⟩
    rw [(parseNumeral_digits first).2 c inside] at mark
    cases mark

private theorem parseSlurmTime_iff {s : String} {total : Int} :
    parseSlurmTime wrap s = .ok total ↔ ∃ seconds : Nat, SlurmTime s seconds ∧ total = seconds := by
  have pieces : ∀ s, split ':' s ≠ [] := fun s => by simp [split]
  constructor
  · intro parsed
    unfold parseSlurmTime at parsed
    rcases cut_cases '-' s with ⟨free, whole⟩ | ⟨day, rest, rfl, free, whole⟩
    · rw [whole] at parsed
      obtain ⟨units, values, form, reads, rfl⟩ := (parseFields_iff faithful le_rfl (by decide)).mp parsed
      refine ⟨weigh units values, ?_, by simp⟩
      rw [← intercalate_split ':' s]
      refine .clock reads ?_
      rcases fieldUnits_iff.mp form with ⟨-, two, rfl⟩ | ⟨rfl, ⟨-, three⟩ | ⟨days, -⟩⟩
      · exact .inl ⟨two, rfl⟩
      · exact .inr ⟨three, rfl⟩
      · cases days
    · rw [whole] at parsed
      obtain ⟨v, count, parsed⟩ := bind_eq_ok.mp parsed
      unfold parseField at count
      split at count
      · next d read =>
        cases count
        have small := parseNumeral_lt read
        rw [faithful _ (by omega) (by omega)] at parsed
        obtain ⟨units, values, form, reads, rfl⟩ := (parseFields_iff faithful (by omega) (by omega)).mp parsed
        rcases fieldUnits_iff.mp form with ⟨none, -⟩ | ⟨rfl, ⟨none, -⟩ | ⟨-, three⟩⟩
        · cases none
        · cases none
        · refine ⟨d * 86400 + weigh [3600, 60, 1] values, ?_, by push_cast; rfl⟩
          rw [← intercalate_split ':' rest]
          exact .days read reads ⟨length_pos_iff.mpr (pieces rest), three⟩
      · cases count
  · rintro ⟨seconds, time, rfl⟩
    cases time with
    | @clock fields values units reads form =>
      have whole : split ':' (":".intercalate fields) = fields := by
        refine split_intercalate ':' ?_ (no_mark reads (by decide))
        rintro rfl
        simp at form
      have free : '-' ∉ (":".intercalate fields).toList := by
        change '-' ∉ ((String.singleton ':').intercalate fields).toList
        exact not_mem_intercalate (by decide) (no_mark reads (by decide))
      rw [parseSlurmTime, cut_free free]
      refine (parseFields_iff faithful le_rfl (by decide)).mpr ⟨units, values, ?_, whole.symm ▸ reads, by simp⟩
      rw [whole, fieldUnits_iff]
      exact form.imp (fun two => ⟨rfl, two⟩) fun three => ⟨three.2, .inl ⟨rfl, three.1⟩⟩
    | @days day d fields values count reads form =>
      have whole : split ':' (":".intercalate fields) = fields :=
        split_intercalate ':' (length_pos_iff.mp form.1) (no_mark reads (by decide))
      have free : '-' ∉ day.toList := fun inside => absurd ((parseNumeral_digits count).2 _ inside) (by decide)
      have small := parseNumeral_lt count
      have read : parseField day = .ok d := by rw [parseField, count]
      rw [parseSlurmTime, show day ++ "-" ++ _ = day ++ String.singleton '-' ++ _ from rfl, cut_separated free]
      refine bind_eq_ok.mpr ⟨d, read, ?_⟩
      rw [faithful _ (by omega) (by omega)]
      refine (parseFields_iff faithful (by omega) (by omega)).mpr ⟨_, values, ?_, whole.symm ▸ reads, by push_cast; rfl⟩
      rw [whole, fieldUnits_iff]
      exact .inr ⟨rfl, .inr ⟨rfl, form.2⟩⟩

end

section
variable {durations} {wrap} {s value : String} {ns seconds : Nat}

private theorem SlurmTime.marked (time : SlurmTime s seconds) :
    (':' ∈ s.toList ∨ '-' ∈ s.toList) ∧ s.toList.head? ≠ some '-' := by
  -- The first character is a digit.
  have begins : ∀ {field rest : String} {v : Nat}, parseNumeral (2 ^ 32) field = some v →
      (field ++ rest).toList.head? ≠ some '-' := by
    intro field rest v read starts
    obtain ⟨some', digits⟩ := parseNumeral_digits read
    cases chars : field.toList with
    | nil => exact some' chars
    | cons c l =>
      have dash : c = '-' := by simpa [chars] using starts
      exact absurd (digits c (by simp [chars])) (dash ▸ by decide)
  cases time with
  | @days day d fields _ count =>
    refine ⟨.inr (by simp), ?_⟩
    rw [String.append_assoc]
    exact begins count
  | clock reads form =>
    cases reads with
    | nil => simp at form
    | cons first rest =>
      cases rest with
      | nil => simp at form
      | @cons field' _ more =>
        rw [String.intercalate_cons_cons, String.append_assoc]
        exact ⟨.inl (by simp), begins first⟩

private theorem numeral_unmarked {m : Nat} (read : parseNumeral (2 ^ 31) s = some m) :
    s ≠ "" ∧ s.toList.head? ≠ some '-' ∧ ¬ (':' ∈ s.toList ∨ '-' ∈ s.toList) := by
  obtain ⟨some', digits⟩ := parseNumeral_digits read
  have plain : ∀ c : Char, c.isDigit = false → c ∉ s.toList := fun c mark inside => by simp [digits c inside] at mark
  refine ⟨fun empty => some' (by simp [empty]), fun starts => ?_, ?_⟩
  · exact plain '-' (by decide) (mem_of_mem_head? starts)
  · rintro (colon | dash)
    · exact plain ':' (by decide) colon
    · exact plain '-' (by decide) dash

private theorem denotes_iff : Denotes durations s ns ↔
    match parseNumeral (2 ^ 31) s with
    | some m => ns = m * (60 * 10 ^ 9)
    | none => (∃ seconds, SlurmTime s seconds ∧ ns = seconds * 10 ^ 9) ∨ durations.parse s = .ok ns := by
  cases read : parseNumeral (2 ^ 31) s with
  | none =>
    constructor
    · rintro (bare | time | accepted)
      · cases read.symm.trans bare
      · exact .inl ⟨_, time, rfl⟩
      · exact .inr accepted
    · rintro (⟨seconds, time, rfl⟩ | accepted)
      · exact .slurm time
      · exact .duration accepted
  | some m =>
    constructor
    · rintro (bare | time | accepted)
      · cases read.symm.trans bare
        rfl
      · exact absurd time.marked.1 (numeral_unmarked read).2.2
      · exact durations.bare accepted read
    · rintro rfl
      exact .minutes read

private theorem Denotes.proper (denotes : Denotes durations s ns) : s ≠ "" ∧ s.toList.head? ≠ some '-' := by
  cases denotes with
  | minutes bare => exact ⟨(numeral_unmarked bare).1, (numeral_unmarked bare).2.1⟩
  | slurm time =>
    refine ⟨fun empty => ?_, time.marked.2⟩
    simpa [empty] using time.marked.1
  | duration accepted =>
    exact ⟨(durations.units accepted).1, fun starts => (durations.units accepted).2.2 (mem_of_mem_head? starts)⟩

private theorem weigh_le {fields : List String} {values units : List Nat} (reads : Fields fields values)
    (small : ∀ u ∈ units, u ≤ 3600) : weigh units values ≤ fields.length * (2 ^ 32 * 3600) := by
  induction reads generalizing units with
  | nil => simp [weigh]
  | cons first _ ih =>
    cases units with
    | nil => simp [weigh]
    | cons unit units =>
      have product := Nat.mul_le_mul (parseNumeral_lt first).le (small unit mem_cons_self)
      have later := ih fun u inside => small u (mem_cons_of_mem _ inside)
      simp only [weigh, zipWith_cons_cons, sum_cons, length_cons] at later ⊢
      omega

private theorem SlurmTime.lt (time : SlurmTime s seconds) : seconds < 2 ^ 63 := by
  cases time with
  | clock reads form =>
    rcases form with ⟨two, rfl⟩ | ⟨three, rfl⟩
    · have : weigh [60, 1] _ ≤ _ := weigh_le reads (by decide)
      omega
    · have : weigh [3600, 60, 1] _ ≤ _ := weigh_le reads (by decide)
      omega
  | days count reads form =>
    have := parseNumeral_lt count
    have : weigh [3600, 60, 1] _ ≤ _ := weigh_le reads (by decide)
    omega

theorem parse_iff (faithful : Faithful wrap) (m : Int) :
    parse durations wrap value = .ok m ↔ ∃ ns, Denotes durations (trimSpace value) ns ∧ m ≤ 2 ^ 31 - 1 ∧
      (ns : Int) ≤ 60 * 10 ^ 9 * m ∧ 60 * 10 ^ 9 * (m - 1) < ns := by
  unfold parse
  generalize trimSpace value = s
  by_cases proper : s ≠ "" ∧ s.toList.head? ≠ some '-'
  · simp only [proper.1, proper.2, if_false, denotes_iff]
    cases read : parseNumeral (2 ^ 31) s with
    | some minutes =>
      have small := parseNumeral_lt read
      simp only [exists_eq_left]
      rw [faithful _ (by omega) (by omega), toMinutes_iff faithful (by omega) (by omega)]
      push_cast
      omega
    | none =>
      simp only [bind_eq_ok, mapError_eq_ok]
      by_cases marked : ':' ∈ s.toList ∨ '-' ∈ s.toList
      · have foreign : ∀ ns, durations.parse s ≠ .ok ns := fun ns accepted =>
          marked.elim (durations.units accepted).2.1 (durations.units accepted).2.2
        simp only [if_pos marked, parseSlurmTime_iff faithful, foreign, or_false]
        constructor
        · rintro ⟨_, ⟨seconds, time, rfl⟩, minutes⟩
          rw [toMinutes_iff faithful (by omega) (by have := time.lt; omega)] at minutes
          exact ⟨_, ⟨seconds, time, rfl⟩, by push_cast; omega⟩
        · rintro ⟨_, ⟨seconds, time, rfl⟩, minutes⟩
          refine ⟨_, ⟨seconds, time, rfl⟩, (toMinutes_iff faithful (by omega) (by have := time.lt; omega)).mpr ?_⟩
          push_cast at minutes
          omega
      · have foreign : ∀ seconds, ¬ SlurmTime s seconds := fun seconds time => marked time.marked.1
        simp only [if_neg marked, foreign, false_and, exists_false, false_or]
        cases accepted : durations.parse s with
        | error reason => simp [parseDuration, accepted, Except.map]
        | ok n =>
          have room := durations.bounded accepted
          have spec := roundUp_spec faithful (by omega : 0 ≤ (n : Int)) (by omega) (by decide : (2 : Int) ≤ 10 ^ 9)
          have run : parseDuration durations wrap s = .ok (roundUp wrap n (10 ^ 9)) := by
            rw [parseDuration, accepted]
            rfl
          simp only [run, Except.ok.injEq, exists_eq_left']
          rw [toMinutes_iff faithful (by omega) spec.1]
          omega
  · have fails : ∀ ns, ¬ Denotes durations s ns := fun ns denotes => proper denotes.proper
    simp only [fails, false_and, exists_false, iff_false]
    rw [not_and_or, not_not, not_not] at proper
    rcases proper with rfl | negative
    · simp
    · by_cases empty : s = "" <;> simp [negative, empty]

private theorem Denotes.unique {ns' : Nat} (denotes : Denotes durations s ns) (denotes' : Denotes durations s ns') :
    ns = ns' := by
  rw [denotes_iff] at denotes denotes'
  cases read : parseNumeral (2 ^ 31) s with
  | some m =>
    rw [read] at denotes denotes'
    exact denotes.trans denotes'.symm
  | none =>
    rw [read] at denotes denotes'
    rcases denotes with ⟨seconds, time, rfl⟩ | accepted
    · rcases denotes' with ⟨seconds', time', rfl⟩ | accepted
      · have faithful : Faithful id := fun _ _ _ => rfl
        have same := (parseSlurmTime_iff faithful).mpr ⟨seconds, time, rfl⟩
        cases same.symm.trans ((parseSlurmTime_iff faithful).mpr ⟨seconds', time', rfl⟩)
        rfl
      · exact absurd time.marked.1 (not_or.mpr (durations.units accepted).2)
    · rcases denotes' with ⟨seconds', time', rfl⟩ | accepted'
      · exact absurd time'.marked.1 (not_or.mpr (durations.units accepted).2)
      · cases accepted.symm.trans accepted'
        rfl

/-- A time limit is read as the least number of minutes that covers what it denotes, whatever would become of
sums and products beyond 64 bits, and texts that denote one duration are read alike. -/
theorem parse_exact (durations : Durations) (wrap : Int → Int) (faithful : Faithful wrap) (value : String) :
    (∀ m, parse durations wrap value = .ok m ↔ ∃ ns, Denotes durations (trimSpace value) ns ∧ m ≤ 2 ^ 31 - 1 ∧
      (ns : Int) ≤ 60 * 10 ^ 9 * m ∧ 60 * 10 ^ 9 * (m - 1) < ns) ∧
    ∀ value' ns, Denotes durations (trimSpace value) ns → Denotes durations (trimSpace value') ns →
      ∀ m, parse durations wrap value = .ok m ↔ parse durations wrap value' = .ok m := by
  refine ⟨parse_iff faithful, fun value' ns denotes denotes' m => ?_⟩
  rw [parse_iff faithful, parse_iff faithful]
  constructor
  · rintro ⟨ns₁, denotes₁, minutes⟩
    exact ⟨ns, denotes', denotes₁.unique denotes ▸ minutes⟩
  · rintro ⟨ns₁, denotes₁, minutes⟩
    exact ⟨ns, denotes, denotes₁.unique denotes' ▸ minutes⟩

/-- A minute and a half is two minutes. -/
theorem parse_minute_and_half : parse ⟨fun _ => .error "", nofun, nofun, nofun⟩ id "01:30" = .ok 2 := by
  refine ((parse_exact _ id (fun _ _ _ => rfl) "01:30").1 2).mpr ⟨90 * 10 ^ 9, ?_, by decide, by decide, by decide⟩
  have reads : Fields ["01", "30"] [1, 30] := .cons (by decide +kernel) (.cons (by decide +kernel) .nil)
  exact .slurm (.clock reads (.inl ⟨rfl, rfl⟩))

end

end SlurmBridge.Slurm.TimeLimit
