import SimAgentNet.Data.Calendar
import SimAgentNet.Data.Number
import SimAgentNet.Data.Words
import SimAgentNet.Server.Frame

/-! # Cron specs

A spec has five fields, each a list of items; a matcher has the values that the items of each field
denote. `cron_calendar_exact` says when a matcher matches, by the calendar. -/

namespace SimAgentNet.Server.Cron

/-- A cast to an unsigned type. -/
def asNat (bits : Nat) (n : Int) : Nat := (n % 2 ^ bits).toNat

/-- A cast to a signed type. -/
def asInt (bits : Nat) (n : Int) : Int := n.bmod (2 ^ bits)

/-! ## Fields -/

structure FieldMatcher where
  allowed : Vector Bool 64
deriving DecidableEq

def FieldMatcher.matches (field : FieldMatcher) (value : Nat) : Bool :=
  field.allowed[value]?.getD false

def parseU8 (text : List Char) (label : String) : Except Error Nat :=
  match Number.parse 256 text with
  | some n => .ok n
  | none => .error (.eval ("cron " ++ label ++ " token " ++ .ofList text ++ " is not a number"))

/-- Allows the values from `start` to `stop`. -/
def allowRange (start stop : Nat) (allowed : Vector Bool 64) : Vector Bool 64 :=
  (List.range' start (stop + 1 - start)).foldl (fun allowed value => allowed.setIfInBounds value true)
    allowed

/-- The value after a step, if it is a greater one. -/
def nextValue (step value : Nat) : Option Nat :=
  if value + step < 256 ∧ value + step > value then some (value + step) else none

/-- Allows the values from `value` on in steps. -/
def allowSteps (step max value : Nat) (allowed : Vector Bool 64) : Vector Bool 64 :=
  if value ≤ max then
    let allowed := allowed.setIfInBounds value true
    match _h : nextValue step value with
    | some next => allowSteps step max next allowed
    | none => allowed
  else allowed
termination_by 256 - value
decreasing_by
  rw [nextValue] at _h
  split at _h
  · cases _h
    omega
  · cases _h

section
variable (min max : Nat) (label : String)

/-- An item that is a range or a value. -/
def parseRange (allowed : Vector Bool 64) (part : List Char) : Except Error (Vector Bool 64) :=
  match Text.splitOnce '-' part with
  | some (start, stop) => do
    let start ← parseU8 start label
    let stop ← parseU8 stop label
    if start < min ∨ stop > max ∨ start > stop then
      .error (.eval ("cron " ++ label ++ " range " ++ .ofList part ++ " is invalid"))
    else return allowRange start stop allowed
  | none => do
    let value ← parseU8 part label
    if value < min ∨ value > max then
      .error (.eval ("cron " ++ label ++ " value " ++ toString value ++ " is out of range " ++
        toString min ++ "..=" ++ toString max))
    else return allowed.setIfInBounds value true

/-- One item of the list of a field. -/
def parsePart (allowed : Vector Bool 64) (part : List Char) : Except Error (Vector Bool 64) :=
  match part with
  | ['*'] => .ok (allowRange min max allowed)
  | '*' :: '/' :: step => do
    let step ← parseU8 step label
    if step = 0 then .error (.eval ("cron " ++ label ++ " step must be > 0"))
    else return allowSteps step max min allowed
  | part => parseRange min max label allowed part

def FieldMatcher.parse (spec : List Char) : Except Error FieldMatcher := do
  let allowed ← (spec.splitOn ',').foldlM (parsePart min max label) (.replicate 64 false)
  return ⟨allowed⟩

end

/-! ## Dates -/

/-- The year, month and day of a day since 1970-01-01. -/
def civilFromDays (daysSinceEpoch : Int) : Int × Nat × Nat :=
  let z := daysSinceEpoch + 719468
  let era := (if z ≥ 0 then z else z - 146096).tdiv 146097
  let doe := z - era * 146097
  let yoe := (doe - doe.tdiv 1460 + doe.tdiv 36524 - doe.tdiv 146096).tdiv 365
  let y := yoe + era * 400
  let doy := doe - (365 * yoe + yoe.tdiv 4 - yoe.tdiv 100)
  let mp := (5 * doy + 2).tdiv 153
  let d := doy - (153 * mp + 2).tdiv 5 + 1
  let m := mp + if mp < 10 then 3 else -9
  let year := y + if m ≤ 2 then 1 else 0
  (asInt 32 year, asNat 32 m, asNat 32 d)

/-! ## Matchers -/

structure CronMatcher where
  minute : FieldMatcher
  hour : FieldMatcher
  day : FieldMatcher
  month : FieldMatcher
  weekday : FieldMatcher
deriving DecidableEq

namespace CronMatcher

def parse (spec : String) : Except Error CronMatcher :=
  match Words.words Char.isUnicodeWhitespace spec.toList with
  | [minute, hour, day, month, weekday] => do
    return { minute := ← FieldMatcher.parse 0 59 "minute" minute
             hour := ← FieldMatcher.parse 0 23 "hour" hour
             day := ← FieldMatcher.parse 1 31 "day" day
             month := ← FieldMatcher.parse 1 12 "month" month
             weekday := ← FieldMatcher.parse 0 6 "weekday" weekday }
  | _ => .error (.eval ("cron spec " ++ spec ++ " must have 5 fields"))

def matchesFields (m : CronMatcher) (minute hour day month weekday : Nat) : Bool :=
  m.minute.matches minute && m.hour.matches hour && m.day.matches day && m.month.matches month &&
    m.weekday.matches weekday

/-- The minute of a time in milliseconds since 1970-01-01, if the matcher matches it. -/
def currentMatch (m : CronMatcher) (now : UInt64) : Option Nat :=
  let minuteKey := now.toNat / 60000
  let dayNumber := minuteKey / (24 * 60)
  let minuteOfDay := asNat 16 (minuteKey % (24 * 60) : Nat)
  let hour := asNat 8 (minuteOfDay / 60 : Nat)
  let minute := asNat 8 (minuteOfDay % 60 : Nat)
  let (_, month, day) := civilFromDays (asInt 64 dayNumber)
  let weekday := asNat 8 ((dayNumber + 4) % 7 : Nat)
  if m.matchesFields minute hour (asNat 8 day) (asNat 8 month) weekday then some minuteKey else none

end CronMatcher

/-! ## The calendar -/

open Calendar

/-- Division that rounds to zero, after the step back for negative numbers, rounds down. -/
theorem era_eq (z : Int) : (if z ≥ 0 then z else z - 146096).tdiv 146097 = z / 146097 := by
  split
  · exact Int.tdiv_eq_ediv_of_nonneg ‹_›
  · rw [Int.tdiv_eq_ediv, show Int.sign 146097 = 1 from rfl]
    split <;> omega

theorem asNat_of_lt {bits : Nat} {n : Int} (h : 0 ≤ n) (h' : n < 2 ^ bits) :
    asNat bits n = n.toNat := by
  rw [asNat, Int.emod_eq_of_lt h h']

/-- The month, by its number from March on. -/
theorem month_eq (n : Int) :
    (n + if n < 10 then 3 else -9) = if n < 10 then n + 3 else n - 9 := by
  split <;> rfl

/-- The code finds the date of every day, with the year in 32 bits. -/
theorem civilFromDays_eq (days : Int) : civilFromDays days =
    (asInt 32 (Date.ofDays days).year, (Date.ofDays days).month, (Date.ofDays days).day) := by
  obtain ⟨era, hera⟩ : ∃ era, era = (days + 719468) / 146097 := ⟨_, rfl⟩
  obtain ⟨doe, hdoe⟩ : ∃ doe, doe = days + 719468 - era * 146097 := ⟨_, rfl⟩
  have hrange : 0 ≤ doe ∧ doe < 146097 := by omega
  obtain ⟨hyear, hyear', hlow, hhigh⟩ := yearOfEra_bounds hrange.1 hrange.2
  have hleap : 0 ≤ doe - doe / 1460 + doe / 36524 - doe / 146096 := by omega
  have hdate : Date.ofDays days =
      .ofMarch (yearOfEra doe + era * 400) (doe - daysBeforeMarch (yearOfEra doe)) := by
    rw [Date.ofDays, hdoe, hera]
  obtain ⟨yoe, hyoe⟩ : ∃ yoe, yoe = yearOfEra doe := ⟨_, rfl⟩
  rw [← hyoe] at hyear hyear' hlow hhigh hdate
  obtain ⟨doy, hdoy⟩ : ∃ doy, doy = doe - daysBeforeMarch yoe := ⟨_, rfl⟩
  have hdoy' : doe - (365 * yoe + yoe / 4 - yoe / 100) = doy := by
    rw [hdoy, daysBeforeMarch]
    omega
  have hyearLen : 0 ≤ doy ∧ doy < 366 := by
    rw [daysBeforeMarch_succ] at hhigh
    split at hhigh <;> omega
  have hmonth : 0 ≤ 5 * doy + 2 := by omega
  obtain ⟨n, hn⟩ : ∃ n, n = (5 * doy + 2) / 153 := ⟨_, rfl⟩
  have hcount : 0 ≤ 153 * n + 2 := by omega
  rw [hdate, ← hdoy, civilFromDays]
  simp only [era_eq, ← hera, ← hdoe, Int.tdiv_eq_ediv_of_nonneg hrange.1,
    Int.tdiv_eq_ediv_of_nonneg hleap]
  rw [← yearOfEra, ← hyoe]
  simp only [Int.tdiv_eq_ediv_of_nonneg hyear, hdoy', Int.tdiv_eq_ediv_of_nonneg hmonth, ← hn,
    Int.tdiv_eq_ediv_of_nonneg hcount, month_eq, Date.ofMarch, daysBeforeMarchMonth]
  have hm : 0 ≤ (if n < 10 then n + 3 else n - 9) ∧ (if n < 10 then n + 3 else n - 9) < 2 ^ 32 := by
    split <;> omega
  have hd : 0 ≤ doy - (153 * n + 2) / 5 + 1 ∧ doy - (153 * n + 2) / 5 + 1 < 2 ^ 32 := by omega
  rw [asNat_of_lt hm.1 hm.2, asNat_of_lt hd.1 hd.2]

/-! ## What a field denotes -/

/-- An item denotes a set of values: all of them, each so many, a range, or a single one. -/
inductive Denotes (min max : Nat) : List Char → Set Nat → Prop
  | star : Denotes min max ['*'] (Set.Icc min max)
  | step (h : Number.parse 256 text = some n) (hpos : 0 < n) :
    Denotes min max ('*' :: '/' :: text) {v ∈ Set.Icc min max | n ∣ v - min}
  | range (hstart : Number.parse 256 start = some m) (hstop : Number.parse 256 stop = some n)
    (hmin : min ≤ m) (hle : m ≤ n) (hmax : n ≤ max) :
    Denotes min max (start ++ '-' :: stop) (Set.Icc m n)
  | value (h : Number.parse 256 text = some n) (hmin : min ≤ n) (hmax : n ≤ max) :
    Denotes min max text {n}

/-- The values that an item of the list denotes. -/
def fieldSet (min max : Nat) (text : List Char) : Set Nat :=
  {v | ∃ part ∈ text.splitOn ',', ∃ values, Denotes min max part values ∧ v ∈ values}

/-- Each item of the list denotes something. -/
def InRange (min max : Nat) (text : List Char) : Prop :=
  ∀ part ∈ text.splitOn ',', ∃ values, Denotes min max part values

/-- The value is allowed. -/
def Has (allowed : Vector Bool 64) (v : Nat) : Prop := allowed[v]? = some true

theorem matches_iff {field : FieldMatcher} {v : Nat} :
    field.matches v = true ↔ Has field.allowed v := by
  rw [FieldMatcher.matches, Has]
  cases field.allowed[v]? with
  | none => simp
  | some b => simp

theorem has_set {allowed : Vector Bool 64} {n v : Nat} (hn : n < 64) :
    Has (allowed.setIfInBounds n true) v ↔ v = n ∨ Has allowed v := by
  rw [Has, Vector.getElem?_setIfInBounds]
  by_cases heq : n = v
  · rw [if_pos heq, if_pos (heq ▸ hn)]
    exact iff_of_true rfl (.inl heq.symm)
  · rw [if_neg heq]
    exact ⟨.inr, fun h => h.resolve_left (Ne.symm heq)⟩

theorem has_allowRange {allowed : Vector Bool 64} {start stop v : Nat} (h : stop < 64) :
    Has (allowRange start stop allowed) v ↔ v ∈ Set.Icc start stop ∨ Has allowed v := by
  have hfold : ∀ l : List Nat, (∀ n ∈ l, n < 64) → ∀ allowed : Vector Bool 64,
      Has (l.foldl (fun allowed value => allowed.setIfInBounds value true) allowed) v ↔
        v ∈ l ∨ Has allowed v := by
    intro l
    induction l with
    | nil => exact fun _ allowed => ⟨.inr, fun h => h.resolve_left List.not_mem_nil⟩
    | cons n l ih =>
      intro hall allowed
      obtain ⟨hn, hall⟩ := List.forall_mem_cons.mp hall
      rw [List.foldl_cons, ih hall, has_set hn, List.mem_cons, ← or_assoc, or_comm (a := v ∈ l)]
  rw [allowRange, hfold]
  · rw [List.mem_range'_1, Set.mem_Icc]
    refine or_congr_left ?_
    omega
  · intro n hn
    rw [List.mem_range'_1] at hn
    omega

/-- A value that is some steps behind another one is that one, or some steps behind the next. -/
theorem steps_iff {step max value v : Nat} (hstep : 0 < step) (hle : value ≤ max) :
    (v ∈ Set.Icc value max ∧ step ∣ v - value) ↔
      v = value ∨ v ∈ Set.Icc (value + step) max ∧ step ∣ v - (value + step) := by
  simp only [Set.mem_Icc]
  constructor
  · rintro ⟨⟨hlow, hhigh⟩, hdvd⟩
    by_cases heq : v = value
    · exact .inl heq
    · have hge : step ≤ v - value := Nat.le_of_dvd (by omega) hdvd
      refine .inr ⟨⟨by omega, hhigh⟩, ?_⟩
      rw [Nat.sub_add_eq]
      exact Nat.dvd_sub hdvd dvd_rfl
  · rintro (rfl | ⟨⟨hlow, hhigh⟩, hdvd⟩)
    · exact ⟨⟨le_rfl, hle⟩, by rw [Nat.sub_self]; exact dvd_zero step⟩
    · refine ⟨⟨by omega, hhigh⟩, ?_⟩
      have hsum : v - value = v - (value + step) + step := by omega
      rw [hsum]
      exact Nat.dvd_add hdvd dvd_rfl

theorem allowSteps_eq (step : Nat) {max value : Nat} (allowed : Vector Bool 64) (h : value ≤ max) :
    allowSteps step max value allowed = (nextValue step value).elim
      (allowed.setIfInBounds value true) fun next =>
        allowSteps step max next (allowed.setIfInBounds value true) := by
  rw [allowSteps, if_pos h]
  split
  · rename_i next hnext
    rw [hnext, Option.elim_some]
  · rename_i hnext
    rw [hnext, Option.elim_none]

theorem has_allowSteps {allowed : Vector Bool 64} {step max value v : Nat} (hstep : 0 < step)
    (hmax : max < 64) : Has (allowSteps step max value allowed) v ↔
      (v ∈ Set.Icc value max ∧ step ∣ v - value) ∨ Has allowed v := by
  induction value, allowed using allowSteps.induct step max with
  | case1 value allowed hle _ next hnext ih =>
    have heq : next = value + step := by
      rw [nextValue] at hnext
      split at hnext
      · exact (Option.some.inj hnext).symm
      · cases hnext
    rw [allowSteps_eq step allowed hle, hnext, Option.elim_some, ih, has_set (by omega),
      steps_iff hstep hle, heq, or_assoc, or_left_comm]
  | case2 value allowed hle hnext =>
    have hlast : 256 ≤ value + step := by
      rw [nextValue] at hnext
      split at hnext
      · cases hnext
      · omega
    rw [allowSteps_eq step allowed hle, hnext, Option.elim_none, has_set (by omega),
      steps_iff hstep hle]
    refine or_congr_left (or_iff_left fun h => ?_).symm
    rw [Set.mem_Icc] at h
    omega
  | case3 value allowed hlt =>
    rw [allowSteps, if_neg hlt]
    refine (or_iff_right fun h => ?_).symm
    rw [Set.mem_Icc] at h
    omega

theorem parseU8_eq_ok_iff {text : List Char} {label : String} :
    parseU8 text label = .ok n ↔ Number.parse 256 text = some n := by
  rw [parseU8]
  cases Number.parse 256 text with
  | none => exact iff_of_false nofun nofun
  | some m => rw [Except.ok.injEq, Option.some.injEq]

/-- A number does not begin like an item of all values, and is no range. -/
theorem plain_of_parse {text : List Char} (h : Number.parse 256 text = some n) :
    (∀ rest more, text ++ more ≠ '*' :: rest) ∧ '-' ∉ text := by
  have hchars := Number.isDigit_of_parse h
  refine ⟨fun rest more heq => ?_, fun hmem => ?_⟩
  · cases text with
    | nil => cases h
    | cons c text =>
      obtain ⟨rfl, -⟩ := List.cons.inj heq
      exact absurd (hchars '*' List.mem_cons_self) (by decide)
  · exact absurd (hchars '-' hmem) (by decide)

theorem parsePart_eq {min max : Nat} {label : String} {part : List Char} {allowed : Vector Bool 64}
    (h : ∀ rest, part ≠ '*' :: rest) :
    parsePart min max label allowed part = parseRange min max label allowed part := by
  unfold parsePart
  split
  · exact absurd rfl (h _)
  · exact absurd rfl (h _)
  · rfl

/-- Items that denote something are accepted, and allow what they denote. -/
theorem parsePart_of_denotes {min max : Nat} {part : List Char} {values : Set Nat} (hmax : max < 64)
    (h : Denotes min max part values) (label : String) (allowed : Vector Bool 64) :
    ∃ allowed', parsePart min max label allowed part = .ok allowed' ∧
      ∀ v, Has allowed' v ↔ v ∈ values ∨ Has allowed v := by
  cases h with
  | star => exact ⟨_, rfl, fun v => has_allowRange hmax⟩
  | step h hpos =>
    refine ⟨_, ?_, fun v => has_allowSteps hpos hmax⟩
    rw [parsePart, parseU8_eq_ok_iff.mpr h, Except.ok_bind, if_neg hpos.ne']
    rfl
  | range hstart hstop hmin hle hmax' =>
    obtain ⟨hplain, hdash⟩ := plain_of_parse hstart
    refine ⟨_, ?_, fun v => has_allowRange (lt_of_le_of_lt hmax' hmax)⟩
    rw [parsePart_eq fun rest => hplain rest _, parseRange, Text.splitOnce_append hdash]
    simp only [parseU8_eq_ok_iff.mpr hstart, parseU8_eq_ok_iff.mpr hstop, Except.ok_bind]
    exact if_neg (by omega)
  | value h hmin hmax' =>
    obtain ⟨hplain, hdash⟩ := plain_of_parse h
    refine ⟨_, ?_, fun v => has_set (lt_of_le_of_lt hmax' hmax)⟩
    rw [parsePart_eq fun rest => List.append_nil part ▸ hplain rest [], parseRange,
      Text.splitOnce_eq_none_iff.mpr hdash]
    simp only [parseU8_eq_ok_iff.mpr h, Except.ok_bind]
    exact if_neg (by omega)

/-- What is accepted denotes something. -/
theorem denotes_of_parsePart {min max : Nat} {label : String} {part : List Char}
    {allowed allowed' : Vector Bool 64} (h : parsePart min max label allowed part = .ok allowed') :
    ∃ values, Denotes min max part values := by
  unfold parsePart at h
  split at h
  · exact ⟨_, .star⟩
  · rename_i text
    obtain ⟨n, hn, h⟩ := Except.bind_eq_ok_iff.mp h
    obtain ⟨hpos, -⟩ := Except.guard_eq_ok_iff.mp h
    exact ⟨_, .step (parseU8_eq_ok_iff.mp hn) (Nat.pos_of_ne_zero hpos)⟩
  · unfold parseRange at h
    cases hsplit : Text.splitOnce '-' part with
    | some parts =>
      obtain ⟨start, stop⟩ := parts
      rw [hsplit] at h
      obtain ⟨m, hm, h⟩ := Except.bind_eq_ok_iff.mp h
      obtain ⟨n, hn, h⟩ := Except.bind_eq_ok_iff.mp h
      obtain ⟨hrange, -⟩ := Except.guard_eq_ok_iff.mp h
      rw [(Text.eq_of_splitOnce hsplit).1]
      exact ⟨_, .range (parseU8_eq_ok_iff.mp hm) (parseU8_eq_ok_iff.mp hn) (by omega) (by omega)
        (by omega)⟩
    | none =>
      rw [hsplit] at h
      obtain ⟨n, hn, h⟩ := Except.bind_eq_ok_iff.mp h
      obtain ⟨hrange, -⟩ := Except.guard_eq_ok_iff.mp h
      exact ⟨_, .value (parseU8_eq_ok_iff.mp hn) (by omega) (by omega)⟩

theorem parsePart_ok {min max : Nat} {label : String} {part : List Char}
    {allowed allowed' : Vector Bool 64} (hmax : max < 64)
    (h : parsePart min max label allowed part = .ok allowed') (v : Nat) :
    Has allowed' v ↔ (∃ values, Denotes min max part values ∧ v ∈ values) ∨ Has allowed v := by
  have hall : ∀ values, Denotes min max part values → (Has allowed' v ↔ v ∈ values ∨ Has allowed v) := by
    intro values hvalues
    obtain ⟨allowed'', h', hiff⟩ := parsePart_of_denotes hmax hvalues label allowed
    cases h.symm.trans h'
    exact hiff v
  constructor
  · intro hv
    obtain ⟨values, hvalues⟩ := denotes_of_parsePart h
    exact ((hall values hvalues).mp hv).imp_left fun hmem => ⟨values, hvalues, hmem⟩
  · rintro (⟨values, hvalues, hmem⟩ | hv)
    · exact (hall values hvalues).mpr (.inl hmem)
    · obtain ⟨values, hvalues⟩ := denotes_of_parsePart h
      exact (hall values hvalues).mpr (.inr hv)

namespace FieldMatcher
variable {min max : Nat} {label : String} {text : List Char} {field : FieldMatcher}

theorem foldlM_parsePart_ok {parts : List (List Char)} {allowed allowed' : Vector Bool 64}
    (hmax : max < 64) (h : parts.foldlM (parsePart min max label) allowed = .ok allowed') :
    (∀ part ∈ parts, ∃ values, Denotes min max part values) ∧
      ∀ v, Has allowed' v ↔
        (∃ part ∈ parts, ∃ values, Denotes min max part values ∧ v ∈ values) ∨ Has allowed v := by
  induction parts generalizing allowed with
  | nil =>
    cases h
    exact ⟨nofun, fun v => by simp⟩
  | cons part parts ih =>
    obtain ⟨u, hu, h⟩ := Run.foldlM_cons_eq_ok_iff.mp h
    obtain ⟨hparts, hiff⟩ := ih h
    refine ⟨List.forall_mem_cons.mpr ⟨denotes_of_parsePart hu, hparts⟩, fun v => ?_⟩
    rw [hiff, parsePart_ok hmax hu, List.exists_mem_cons_iff, or_assoc, or_left_comm]

/-- What is accepted has items that denote something, and matches what they denote. -/
theorem parse_ok (hmax : max < 64) (h : parse min max label text = .ok field) :
    InRange min max text ∧ ∀ v, field.matches v = true ↔ v ∈ fieldSet min max text := by
  obtain ⟨allowed, hfold, h⟩ := Except.bind_eq_ok_iff.mp h
  cases h
  obtain ⟨hrange, hiff⟩ := foldlM_parsePart_ok hmax hfold
  refine ⟨hrange, fun v => ?_⟩
  have hempty : ¬Has (.replicate 64 false) v := by
    rw [Has, Vector.getElem?_replicate]
    split <;> simp
  rw [matches_iff, hiff, or_iff_left hempty]
  rfl

theorem exists_parse (hmax : max < 64) (h : InRange min max text) (label : String) :
    ∃ field, parse min max label text = .ok field := by
  have hfold : ∀ parts : List (List Char), (∀ part ∈ parts, ∃ values, Denotes min max part values) →
      ∀ allowed, ∃ allowed', parts.foldlM (parsePart min max label) allowed = .ok allowed' := by
    intro parts
    induction parts with
    | nil => exact fun _ allowed => ⟨allowed, rfl⟩
    | cons part parts ih =>
      intro hall allowed
      obtain ⟨⟨values, hvalues⟩, hall⟩ := List.forall_mem_cons.mp hall
      obtain ⟨u, hu, -⟩ := parsePart_of_denotes hmax hvalues label allowed
      obtain ⟨allowed', h⟩ := ih hall u
      exact ⟨allowed', Run.foldlM_cons_eq_ok_iff.mpr ⟨u, hu, h⟩⟩
  obtain ⟨allowed, hallowed⟩ := hfold _ h (.replicate 64 false)
  exact ⟨⟨allowed⟩, Except.bind_eq_ok_iff.mpr ⟨allowed, hallowed, rfl⟩⟩

end FieldMatcher

/-! ## What a spec denotes -/

/-- The fields of a spec. -/
def fields (spec : String) : List (List Char) := Words.words Char.isUnicodeWhitespace spec.toList

/-- The spec has five fields, and the items of each are in its range. -/
def WellFormed (spec : String) : Prop :=
  ∃ minute hour day month weekday, fields spec = [minute, hour, day, month, weekday] ∧
    InRange 0 59 minute ∧ InRange 0 23 hour ∧ InRange 1 31 day ∧ InRange 1 12 month ∧
    InRange 0 6 weekday

/-- The five fields denote sets with these values. -/
def Matches (spec : String) (m h d mo w : Nat) : Prop :=
  ∃ minute hour day month weekday, fields spec = [minute, hour, day, month, weekday] ∧
    m ∈ fieldSet 0 59 minute ∧ h ∈ fieldSet 0 23 hour ∧ d ∈ fieldSet 1 31 day ∧
    mo ∈ fieldSet 1 12 month ∧ w ∈ fieldSet 0 6 weekday

namespace CronMatcher
variable {spec : String} {matcher : CronMatcher}

theorem parse_ok (h : parse spec = .ok matcher) : WellFormed spec ∧
    ∀ m hr d mo w, matcher.matchesFields m hr d mo w = true ↔ Matches spec m hr d mo w := by
  unfold parse at h
  split at h
  · rename_i minute hour day month weekday hfields
    obtain ⟨a, ha, h⟩ := Except.bind_eq_ok_iff.mp h
    obtain ⟨b, hb, h⟩ := Except.bind_eq_ok_iff.mp h
    obtain ⟨c, hc, h⟩ := Except.bind_eq_ok_iff.mp h
    obtain ⟨d, hd, h⟩ := Except.bind_eq_ok_iff.mp h
    obtain ⟨e, he, h⟩ := Except.bind_eq_ok_iff.mp h
    cases h
    obtain ⟨hminute, hmin⟩ := FieldMatcher.parse_ok (by decide) ha
    obtain ⟨hhour, hhr⟩ := FieldMatcher.parse_ok (by decide) hb
    obtain ⟨hday, hdy⟩ := FieldMatcher.parse_ok (by decide) hc
    obtain ⟨hmonth, hmo⟩ := FieldMatcher.parse_ok (by decide) hd
    obtain ⟨hweekday, hwd⟩ := FieldMatcher.parse_ok (by decide) he
    refine ⟨⟨_, _, _, _, _, hfields, hminute, hhour, hday, hmonth, hweekday⟩, ?_⟩
    intro m hr d mo w
    simp only [matchesFields, Bool.and_eq_true, hmin, hhr, hdy, hmo, hwd, and_assoc]
    constructor
    · intro hall
      exact ⟨_, _, _, _, _, hfields, hall⟩
    · rintro ⟨_, _, _, _, _, hfields', hall⟩
      cases hfields.symm.trans hfields'
      exact hall
  · cases h

theorem exists_parse (h : WellFormed spec) : ∃ matcher, parse spec = .ok matcher := by
  obtain ⟨minute, hour, day, month, weekday, hfields, hminute, hhour, hday, hmonth, hweekday⟩ := h
  obtain ⟨a, ha⟩ := FieldMatcher.exists_parse (by decide) hminute "minute"
  obtain ⟨b, hb⟩ := FieldMatcher.exists_parse (by decide) hhour "hour"
  obtain ⟨c, hc⟩ := FieldMatcher.exists_parse (by decide) hday "day"
  obtain ⟨d, hd⟩ := FieldMatcher.exists_parse (by decide) hmonth "month"
  obtain ⟨e, he⟩ := FieldMatcher.exists_parse (by decide) hweekday "weekday"
  refine ⟨⟨a, b, c, d, e⟩, ?_⟩
  rw [fields] at hfields
  rw [parse, hfields]
  simp only [ha, hb, hc, hd, he, Except.ok_bind]
  rfl

theorem asNat_natCast {bits n : Nat} (h : n < 2 ^ bits) : asNat bits (n : Int) = n := by
  rw [asNat_of_lt (Int.natCast_nonneg n) (by exact_mod_cast h), Int.toNat_natCast]

/-- What is matched at a time: its minute and hour, and the month, day and weekday of its date. -/
theorem currentMatch_eq (matcher : CronMatcher) (now : UInt64) :
    matcher.currentMatch now =
      if matcher.matchesFields (now.toNat / 60000 % 60) (now.toNat / 3600000 % 24)
          (Date.ofDays (now.toNat / 86400000 : Nat)).day
          (Date.ofDays (now.toNat / 86400000 : Nat)).month
          (Calendar.weekday (now.toNat / 86400000 : Nat)).toNat
      then some (now.toNat / 60000) else none := by
  have hlt := now.toNat_lt
  have hday : now.toNat / 60000 / (24 * 60) = now.toNat / 86400000 := by omega
  have hfits : asInt 64 (now.toNat / 86400000 : Nat) = (now.toNat / 86400000 : Nat) :=
    Int.bmod_eq_of_le (by omega) (by omega)
  obtain ⟨hvalid, -⟩ := Date.ofDays_spec (now.toNat / 86400000 : Nat)
  have hmonth : (Date.ofDays (now.toNat / 86400000 : Nat)).month < 2 ^ 8 := by
    have hle := hvalid.2.1
    omega
  have hdate : (Date.ofDays (now.toNat / 86400000 : Nat)).day < 2 ^ 8 := by
    have hle := hvalid.2.2.2.trans (daysInMonth_le _ _)
    omega
  have hminute : now.toNat / 60000 % (24 * 60) % 60 = now.toNat / 60000 % 60 := by omega
  have hhour : now.toNat / 60000 % (24 * 60) / 60 = now.toNat / 3600000 % 24 := by omega
  have hweekday : (now.toNat / 86400000 + 4) % 7 =
      (Calendar.weekday (now.toNat / 86400000 : Nat)).toNat := by
    rw [Calendar.weekday]
    omega
  rw [currentMatch, hday, hfits, civilFromDays_eq]
  simp only [asNat_natCast hmonth, asNat_natCast hdate]
  rw [asNat_natCast (n := now.toNat / 60000 % (24 * 60)) (by omega), hminute, hhour,
    asNat_natCast (by omega), asNat_natCast (by omega), asNat_natCast (by omega), hweekday]

end CronMatcher

/-- A matcher of an accepted spec matches a time exactly when its minute, its hour and the day,
month and weekday of its date are in the sets that the fields denote; a spec is accepted when the
items of its five fields are in range; each day has one date, and the code finds it; and the loop
of steps ends. -/
theorem cron_calendar_exact :
    (∀ spec, (∃ matcher, CronMatcher.parse spec = .ok matcher) ↔ WellFormed spec) ∧
      (∀ spec matcher, CronMatcher.parse spec = .ok matcher → ∀ (now : UInt64) (date : Date),
        date.Valid → date.toDays = (now.toNat / 86400000 : Nat) →
          (matcher.currentMatch now = some (now.toNat / 60000) ↔
            Matches spec (now.toNat / 60000 % 60) (now.toNat / 3600000 % 24) date.day date.month
              (weekday date.toDays).toNat) ∧
          ∀ key, matcher.currentMatch now = some key → key = now.toNat / 60000) ∧
      (∀ days, ∃ date : Date, date.Valid ∧ date.toDays = days ∧
        ∀ date' : Date, date'.Valid → date'.toDays = days → date' = date) ∧
      (∀ date : Date, date.Valid → -2 ^ 31 ≤ date.year → date.year < 2 ^ 31 →
        civilFromDays date.toDays = (date.year, date.month, date.day)) ∧
      ∀ step, WellFounded fun next value => nextValue step value = some next := by
  refine ⟨fun spec => ⟨?_, CronMatcher.exists_parse⟩, ?_, ?_, ?_, ?_⟩
  · rintro ⟨matcher, h⟩
    exact (CronMatcher.parse_ok h).1
  · intro spec matcher h now date hvalid hdays
    obtain ⟨-, hmatches⟩ := CronMatcher.parse_ok h
    have hdate : Date.ofDays (now.toNat / 86400000 : Nat) = date := by
      rw [← hdays, hvalid.ofDays_toDays]
    rw [CronMatcher.currentMatch_eq, hdate, ← hdays, ← hmatches]
    constructor
    · split
      · exact iff_of_true rfl ‹_›
      · exact iff_of_false nofun ‹_›
    · intro key heq
      split at heq
      · exact (Option.some.inj heq).symm
      · cases heq
  · intro days
    obtain ⟨hvalid, hdays⟩ := Date.ofDays_spec days
    refine ⟨_, hvalid, hdays, fun date' hvalid' hdays' => ?_⟩
    rw [← hdays', hvalid'.ofDays_toDays]
  · intro date hvalid hlow hhigh
    rw [civilFromDays_eq, hvalid.ofDays_toDays, asInt, Int.bmod_eq_of_le (by omega) (by omega)]
  · intro step
    refine Subrelation.wf (fun {next value} h => ?_) (measure fun value : Nat => 256 - value).wf
    rw [nextValue] at h
    split at h
    · cases h
      show 256 - (value + step) < 256 - value
      omega
    · cases h

end SimAgentNet.Server.Cron
