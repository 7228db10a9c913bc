import Mathlib

/-! # The Gregorian calendar

Days since 1970-01-01 in the proleptic Gregorian calendar, counted from the lengths of years and
months. In years that begin in March, the leap day is the last one, and the months before a month
have `(153 * n + 2) / 5` days. -/

namespace Calendar

def IsLeap (y : Int) : Prop := 4 ∣ y ∧ (100 ∣ y → 400 ∣ y)

instance (y : Int) : Decidable (IsLeap y) := inferInstanceAs (Decidable (_ ∧ _))

def daysInMonth (y : Int) : Nat → Int
  | 2 => if IsLeap y then 29 else 28
  | 4 | 6 | 9 | 11 => 30
  | _ => 31

theorem daysInMonth_le (y : Int) (m : Nat) : daysInMonth y m ≤ 31 := by
  unfold daysInMonth
  split
  · split <;> decide
  all_goals decide

/-- The days of a year before a month of it. -/
def daysBeforeMonth (y : Int) (m : Nat) : Int :=
  ((List.range' 1 (m - 1)).map (daysInMonth y)).sum

/-- The days before a year, from the first day of the year one. -/
def daysBeforeYear (y : Int) : Int := 365 * (y - 1) + (y - 1) / 4 - (y - 1) / 100 + (y - 1) / 400

/-- A day of the calendar. -/
structure Date where
  year : Int
  month : Nat
  day : Nat
deriving DecidableEq

namespace Date

/-- The month is one of the year, and the day one of the month. -/
def Valid (d : Date) : Prop :=
  1 ≤ d.month ∧ d.month ≤ 12 ∧ 1 ≤ d.day ∧ d.day ≤ daysInMonth d.year d.month

instance (d : Date) : Decidable d.Valid := inferInstanceAs (Decidable (_ ∧ _))

/-- The days from 1970-01-01 to a date. -/
def toDays (d : Date) : Int :=
  daysBeforeYear d.year + daysBeforeMonth d.year d.month + d.day - 719163

end Date

/-- The day of the week, from Sunday on: 1970-01-01 was a Thursday. -/
def weekday (days : Int) : Int := (days + 4) % 7

example : Date.toDays ⟨1970, 1, 1⟩ = 0 := by decide +kernel
example : Date.toDays ⟨2000, 3, 1⟩ = 11017 := by decide +kernel

/-! ## Years that begin in March -/

/-- The days before the first of March of a year, from that of the year zero. -/
def daysBeforeMarch (y : Int) : Int := 365 * y + y / 4 - y / 100 + y / 400

/-- The days of such a year before a month of it. -/
def daysBeforeMarchMonth (n : Int) : Int := (153 * n + 2) / 5

/-- Whether a year is a leap year, counted by the multiples up to it. -/
theorem leapDay_eq (y : Int) : (if IsLeap y then (1 : Int) else 0) =
    y / 4 - (y - 1) / 4 - (y / 100 - (y - 1) / 100) + (y / 400 - (y - 1) / 400) := by
  by_cases h : IsLeap y
  · rw [if_pos h]
    unfold IsLeap at h
    omega
  · rw [if_neg h]
    unfold IsLeap at h
    omega

theorem daysBeforeMarch_succ (y : Int) :
    daysBeforeMarch (y + 1) = daysBeforeMarch y + 365 + if IsLeap (y + 1) then 1 else 0 := by
  rw [leapDay_eq]
  unfold daysBeforeMarch
  omega

theorem daysBeforeMarch_strictMono : StrictMono daysBeforeMarch := by
  refine strictMono_int_of_lt_succ fun y => ?_
  rw [daysBeforeMarch_succ]
  split <;> omega

/-- The year of a date, if years begin in March. -/
def Date.marchYear (d : Date) : Int := if d.month ≤ 2 then d.year - 1 else d.year

/-- The number of its month from March on. -/
def Date.marchMonth (d : Date) : Int := if d.month ≤ 2 then d.month + 9 else d.month - 3

/-- The days of the year before it. -/
def Date.marchDay (d : Date) : Int := daysBeforeMarchMonth d.marchMonth + d.day - 1

/-- January and February come first, and then the months from March on. -/
theorem daysBeforeMonth_eq (y : Int) {m : Nat} (hm : 1 ≤ m) (hm' : m ≤ 12) :
    daysBeforeMonth y m = if m ≤ 2 then 31 * ((m : Int) - 1)
      else daysBeforeMarchMonth (m - 3) + 59 + if IsLeap y then 1 else 0 := by
  by_cases hleap : IsLeap y
  · interval_cases m <;>
      simp [daysBeforeMonth, daysInMonth, daysBeforeMarchMonth, hleap, List.range']
  · interval_cases m <;>
      simp [daysBeforeMonth, daysInMonth, daysBeforeMarchMonth, hleap, List.range']

theorem Date.Valid.toDays_eq {d : Date} (h : d.Valid) :
    d.toDays = daysBeforeMarch d.marchYear + d.marchDay - 719468 := by
  have hleap := leapDay_eq d.year
  rw [toDays, daysBeforeMonth_eq d.year h.1 h.2.1, daysBeforeYear, daysBeforeMarch, marchDay,
    marchYear, marchMonth]
  by_cases hm : d.month ≤ 2
  · have hlow := h.1
    simp only [if_pos hm, daysBeforeMarchMonth]
    omega
  · simp only [if_neg hm, hleap]
    omega

/-- A month lasts to the next one, and February to the end of the year. -/
theorem Date.daysInMonth_eq {d : Date} (hm : 1 ≤ d.month) (hm' : d.month ≤ 12) :
    0 ≤ d.marchMonth ∧ d.marchMonth ≤ 11 ∧
      daysBeforeMarchMonth d.marchMonth + daysInMonth d.year d.month =
        if d.marchMonth = 11 then 365 + if IsLeap (d.marchYear + 1) then 1 else 0
        else daysBeforeMarchMonth (d.marchMonth + 1) := by
  obtain ⟨y, m, day⟩ := d
  simp only at hm hm'
  by_cases hleap : IsLeap y
  · interval_cases m <;>
      simp [marchMonth, marchYear, daysBeforeMarchMonth, daysInMonth, hleap]
  · interval_cases m <;>
      simp [marchMonth, marchYear, daysBeforeMarchMonth, daysInMonth, hleap]

/-- A date lies in its year. -/
theorem Date.Valid.marchDay_lt {d : Date} (h : d.Valid) :
    0 ≤ d.marchDay ∧ daysBeforeMarch d.marchYear + d.marchDay < daysBeforeMarch (d.marchYear + 1) := by
  obtain ⟨hlow, hhigh, hlast⟩ := daysInMonth_eq h.1 h.2.1
  obtain ⟨-, -, hday, hday'⟩ := h
  rw [daysBeforeMarch_succ, marchDay]
  split at hlast
  · unfold daysBeforeMarchMonth at *
    omega
  · unfold daysBeforeMarchMonth at *
    omega

theorem Date.Valid.marchDay_bounds {d : Date} (h : d.Valid) :
    daysBeforeMarchMonth d.marchMonth ≤ d.marchDay ∧
      (d.marchMonth < 11 → d.marchDay < daysBeforeMarchMonth (d.marchMonth + 1)) := by
  obtain ⟨-, -, hlast⟩ := daysInMonth_eq h.1 h.2.1
  obtain ⟨-, -, hday, hday'⟩ := h
  rw [marchDay]
  refine ⟨by omega, fun hlt => ?_⟩
  rw [if_neg hlt.ne] at hlast
  omega

/-- A year and a day in it are told by the days before. -/
theorem march_inj {y y' n n' : Int} (hn : 0 ≤ n) (hn' : 0 ≤ n')
    (hlt : daysBeforeMarch y + n < daysBeforeMarch (y + 1))
    (hlt' : daysBeforeMarch y' + n' < daysBeforeMarch (y' + 1))
    (h : daysBeforeMarch y + n = daysBeforeMarch y' + n') : y = y' ∧ n = n' := by
  have hyear : y = y' := by
    obtain hless | heq | hless := lt_trichotomy y y'
    · have hle : daysBeforeMarch (y + 1) ≤ daysBeforeMarch y' :=
        daysBeforeMarch_strictMono.monotone hless
      omega
    · exact heq
    · have hle : daysBeforeMarch (y' + 1) ≤ daysBeforeMarch y :=
        daysBeforeMarch_strictMono.monotone hless
      omega
  subst hyear
  exact ⟨rfl, by omega⟩

/-- No two dates have one number. -/
theorem Date.Valid.toDays_inj {d e : Date} (hd : d.Valid) (he : e.Valid)
    (h : d.toDays = e.toDays) : d = e := by
  rw [hd.toDays_eq, he.toDays_eq] at h
  obtain ⟨hyear, hday⟩ := march_inj hd.marchDay_lt.1 he.marchDay_lt.1 hd.marchDay_lt.2
    he.marchDay_lt.2 (by omega)
  have hmonth : d.marchMonth = e.marchMonth := by
    obtain ⟨-, hhigh, -⟩ := daysInMonth_eq hd.1 hd.2.1
    obtain ⟨-, hhigh', -⟩ := daysInMonth_eq he.1 he.2.1
    obtain ⟨hlow, hnext⟩ := hd.marchDay_bounds
    obtain ⟨hlow', hnext'⟩ := he.marchDay_bounds
    unfold daysBeforeMarchMonth at *
    omega
  have hlow := hd.1
  have hlow' := he.1
  have hhigh := hd.2.1
  have hhigh' := he.2.1
  obtain ⟨y, m, day⟩ := d
  obtain ⟨y', m', day'⟩ := e
  simp only [marchDay, hmonth] at hday
  simp only [marchMonth, marchYear] at hmonth hyear hlow hlow' hhigh hhigh'
  obtain rfl : m = m' := by
    split at hmonth <;> split at hmonth <;> omega
  obtain rfl : day = day' := by omega
  obtain rfl : y = y' := by
    split at hyear <;> omega
  rfl

/-- The date of a day of a year that begins in March. -/
def Date.ofMarch (y day : Int) : Date :=
  let n := (5 * day + 2) / 153
  let m := if n < 10 then n + 3 else n - 9
  ⟨y + if m ≤ 2 then 1 else 0, m.toNat, (day - daysBeforeMarchMonth n + 1).toNat⟩

theorem Date.ofMarch_spec {y day : Int} (h : 0 ≤ day)
    (h' : daysBeforeMarch y + day < daysBeforeMarch (y + 1)) :
    (ofMarch y day).Valid ∧ (ofMarch y day).marchYear = y ∧ (ofMarch y day).marchDay = day := by
  rw [daysBeforeMarch_succ] at h'
  have hyear : day < 366 := by
    split at h' <;> omega
  obtain ⟨n, hn⟩ : ∃ n, n = (5 * day + 2) / 153 := ⟨_, rfl⟩
  have hmonth : (ofMarch y day).marchMonth = n := by
    simp only [ofMarch, marchMonth, ← hn]
    split <;> split <;> omega
  have hmarch : (ofMarch y day).marchYear = y := by
    simp only [ofMarch, marchYear, ← hn]
    split <;> split <;> omega
  have hday : ((ofMarch y day).day : Int) = day - daysBeforeMarchMonth n + 1 := by
    simp only [ofMarch, ← hn, daysBeforeMarchMonth]
    omega
  have hrange : 1 ≤ (ofMarch y day).month ∧ (ofMarch y day).month ≤ 12 := by
    simp only [ofMarch, ← hn]
    split <;> omega
  refine ⟨⟨hrange.1, hrange.2, ?_, ?_⟩, hmarch, ?_⟩
  · unfold daysBeforeMarchMonth at hday
    omega
  · obtain ⟨-, -, hlast⟩ := daysInMonth_eq hrange.1 hrange.2
    rw [hmonth, hmarch] at hlast
    by_cases heq : n = 11
    · rw [if_pos heq] at hlast
      omega
    · rw [if_neg heq] at hlast
      unfold daysBeforeMarchMonth at hday hlast
      omega
  · rw [marchDay, hmonth, hday]
    omega

/-! ## Eras of 400 years -/

/-- The year of a day in its era: the leap days are taken off. -/
def yearOfEra (day : Int) : Int := (day - day / 1460 + day / 36524 - day / 146096) / 365

theorem yearOfEra_mono {m n : Int} (h : m ≤ n) : yearOfEra m ≤ yearOfEra n := by
  have hera (k : Int) : k / 146096 = k / 36524 / 4 := by
    rw [Int.ediv_ediv_of_nonneg (by decide)]
    rfl
  have hcentury : m / 36524 ≤ n / 36524 := Int.ediv_le_ediv (by decide) h
  have hcycle : m - m / 1460 ≤ n - n / 1460 := by omega
  refine Int.ediv_le_ediv (by decide) ?_
  rw [hera, hera]
  omega

/-- The first and the last day of each year of an era. -/
theorem yearOfEra_ends {y : Int} (h : 0 ≤ y) (h' : y < 400) :
    y ≤ yearOfEra (daysBeforeMarch y) ∧ yearOfEra (daysBeforeMarch (y + 1) - 1) ≤ y := by
  have hall : ∀ y : Fin 400, (y : Int) ≤ yearOfEra (daysBeforeMarch y) ∧
      yearOfEra (daysBeforeMarch (y + 1) - 1) ≤ y := by
    decide +kernel
  obtain ⟨y, rfl⟩ := Int.eq_ofNat_of_zero_le h
  exact hall ⟨y, by omega⟩

theorem yearOfEra_bounds {day : Int} (h : 0 ≤ day) (h' : day < 146097) :
    0 ≤ yearOfEra day ∧ yearOfEra day < 400 ∧ daysBeforeMarch (yearOfEra day) ≤ day ∧
      day < daysBeforeMarch (yearOfEra day + 1) := by
  have hlow : 0 ≤ yearOfEra day := yearOfEra_mono h
  have hhigh : yearOfEra day ≤ 399 := yearOfEra_mono (n := 146096) (by omega)
  refine ⟨hlow, by omega, ?_, ?_⟩
  · by_contra hbefore
    -- the day would be in the year before at most
    by_cases hzero : yearOfEra day = 0
    · rw [hzero] at hbefore
      exact hbefore h
    · obtain ⟨-, hend⟩ := yearOfEra_ends (y := yearOfEra day - 1) (by omega) (by omega)
      rw [Int.sub_add_cancel] at hend
      have hle : yearOfEra day ≤ yearOfEra (daysBeforeMarch (yearOfEra day) - 1) :=
        yearOfEra_mono (by omega)
      omega
  · by_contra hafter
    by_cases hlast : yearOfEra day = 399
    · rw [hlast] at hafter
      exact hafter h'
    · obtain ⟨hfirst, -⟩ := yearOfEra_ends (y := yearOfEra day + 1) (by omega) (by omega)
      have hle : yearOfEra (daysBeforeMarch (yearOfEra day + 1)) ≤ yearOfEra day :=
        yearOfEra_mono (by omega)
      omega

theorem daysBeforeMarch_add_era (era y : Int) :
    daysBeforeMarch (y + era * 400) = era * 146097 + daysBeforeMarch y := by
  unfold daysBeforeMarch
  omega

/-- The date of a day, by its era and its year in the era. -/
def Date.ofDays (days : Int) : Date :=
  let z := days + 719468
  let era := z / 146097
  let day := z - era * 146097
  .ofMarch (yearOfEra day + era * 400) (day - daysBeforeMarch (yearOfEra day))

theorem Date.ofDays_spec (days : Int) : (ofDays days).Valid ∧ (ofDays days).toDays = days := by
  obtain ⟨era, hera⟩ : ∃ era, era = (days + 719468) / 146097 := ⟨_, rfl⟩
  obtain ⟨day, hday⟩ : ∃ day, day = days + 719468 - era * 146097 := ⟨_, rfl⟩
  have hera' : 0 ≤ day ∧ day < 146097 := by omega
  obtain ⟨-, -, hlow, hhigh⟩ := yearOfEra_bounds hera'.1 hera'.2
  have hyear := daysBeforeMarch_add_era era (yearOfEra day)
  have hnext := daysBeforeMarch_add_era era (yearOfEra day + 1)
  rw [show yearOfEra day + 1 + era * 400 = yearOfEra day + era * 400 + 1 by omega] at hnext
  have heq : ofDays days =
      ofMarch (yearOfEra day + era * 400) (day - daysBeforeMarch (yearOfEra day)) := by
    rw [ofDays, hday, hera]
  have hfirst : 0 ≤ day - daysBeforeMarch (yearOfEra day) := by omega
  have hlast : daysBeforeMarch (yearOfEra day + era * 400) +
      (day - daysBeforeMarch (yearOfEra day)) <
        daysBeforeMarch (yearOfEra day + era * 400 + 1) := by omega
  obtain ⟨hvalid, hmarch, hmarchDay⟩ := ofMarch_spec hfirst hlast
  rw [heq]
  refine ⟨hvalid, ?_⟩
  rw [hvalid.toDays_eq, hmarch, hmarchDay]
  omega

theorem Date.Valid.ofDays_toDays {d : Date} (h : d.Valid) : ofDays d.toDays = d :=
  (ofDays_spec d.toDays).1.toDays_inj h (ofDays_spec d.toDays).2

end Calendar
