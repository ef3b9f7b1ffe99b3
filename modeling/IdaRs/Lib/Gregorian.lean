import Mathlib.Data.Int.Init
import Mathlib.Logic.Function.Iterate
import Mathlib.Tactic.IntervalCases

/-!
# The Gregorian calendar

Dates with their validity, the date after a date, and the number of days from 1970-01-01 on. Years are counted from
March, so that the day that is sometimes there is the last one. `number_next`: the next date has the next number;
`number_surjective`: every number is that of a date.
-/

namespace Gregorian

def IsLeap (year : Int) : Prop := year % 4 = 0 ∧ (year % 100 ≠ 0 ∨ year % 400 = 0)

instance (year : Int) : Decidable (IsLeap year) := inferInstanceAs (Decidable (_ ∧ _))

def monthLength (year month : Int) : Int :=
  if month = 2 then if IsLeap year then 29 else 28
  else if month = 4 ∨ month = 6 ∨ month = 9 ∨ month = 11 then 30
  else 31

theorem monthLength_bounds (year month : Int) : 28 ≤ monthLength year month ∧ monthLength year month ≤ 31 := by
  unfold monthLength
  split_ifs <;> omega

structure Date where
  year : Int
  month : Int
  day : Int
  month_ok : 1 ≤ month ∧ month ≤ 12
  day_ok : 1 ≤ day ∧ day ≤ monthLength year month
deriving DecidableEq

namespace Date

def next (d : Date) : Date :=
  if h : d.day < monthLength d.year d.month then
    { d with day := d.day + 1, day_ok := by have := d.day_ok; omega }
  else if h' : d.month < 12 then
    { d with
      month := d.month + 1
      day := 1
      month_ok := by have := d.month_ok; omega
      day_ok := by have := monthLength_bounds d.year (d.month + 1); omega }
  else
    { year := d.year + 1
      month := 1
      day := 1
      month_ok := by omega
      day_ok := by have := monthLength_bounds (d.year + 1) 1; omega }

/-- The next day of the month, the first of the next month, or the first of the next year. -/
theorem next_cases (d : Date) :
    (d.day < monthLength d.year d.month ∧ d.next.year = d.year ∧ d.next.month = d.month ∧ d.next.day = d.day + 1) ∨
      (d.day = monthLength d.year d.month ∧ d.month < 12 ∧ d.next.year = d.year ∧ d.next.month = d.month + 1 ∧
        d.next.day = 1) ∨
      (d.day = monthLength d.year d.month ∧ d.month = 12 ∧ d.next.year = d.year + 1 ∧ d.next.month = 1 ∧
        d.next.day = 1) := by
  have hmonth := d.month_ok
  have hday := d.day_ok
  unfold next
  split_ifs with h h'
  · exact .inl ⟨h, rfl, rfl, rfl⟩
  · exact .inr (.inl ⟨by omega, h', rfl, rfl, rfl⟩)
  · exact .inr (.inr ⟨by omega, by omega, rfl, rfl, rfl⟩)

/-! ### Years from March on -/

/-- The year from March on that the date lies in. -/
def marchYear (d : Date) : Int := if d.month ≤ 2 then d.year - 1 else d.year

/-- The months since March. -/
def marchMonth (d : Date) : Int := if d.month ≤ 2 then d.month + 9 else d.month - 3

end Date

/-- The days before a year from March on. -/
def yearStart (year : Int) : Int := 365 * year + year / 4 - year / 100 + year / 400

/-- The days from March on before a month. -/
def monthStart (month : Int) : Int := (153 * month + 2) / 5

theorem yearStart_succ (year : Int) :
    yearStart (year + 1) = yearStart year + if IsLeap (year + 1) then 366 else 365 := by
  simp only [yearStart, IsLeap]
  split_ifs <;> omega

theorem yearStart_period (year k : Int) : yearStart (year + 400 * k) = yearStart year + 146097 * k := by
  simp only [yearStart]
  omega

namespace Date

/-- The days since the first of March of the date. -/
def dayOfYear (d : Date) : Int := monthStart d.marchMonth + d.day - 1

/-- The days since 1970-01-01. -/
def number (d : Date) : Int := yearStart d.marchYear + d.dayOfYear - 719468

theorem marchMonth_bounds (d : Date) : 0 ≤ d.marchMonth ∧ d.marchMonth ≤ 11 := by
  have := d.month_ok
  unfold marchMonth
  split_ifs <;> omega

/-- A month other than February ends where the next one begins. -/
theorem monthStart_succ {d : Date} (h : d.month ≠ 2) :
    monthStart (d.marchMonth + 1) = monthStart d.marchMonth + monthLength d.year d.month := by
  obtain ⟨h1, h2⟩ := d.month_ok
  simp only [monthStart, marchMonth, monthLength, if_neg h]
  generalize d.month = month at *
  interval_cases month <;> simp at h ⊢

theorem dayOfYear_bounds (d : Date) :
    0 ≤ d.dayOfYear ∧ d.dayOfYear < if IsLeap (d.marchYear + 1) then 366 else 365 := by
  obtain ⟨h1, h2⟩ := d.month_ok
  obtain ⟨h3, h4⟩ := d.day_ok
  by_cases hfeb : d.month = 2
  · have hmarch : d.marchYear + 1 = d.year := by simp [marchYear, hfeb]
    have hstart : monthStart d.marchMonth = 337 := by simp [monthStart, marchMonth, hfeb]
    rw [hmarch, dayOfYear, hstart]
    rw [hfeb] at h4
    simp only [monthLength, if_true] at h4
    split_ifs at h4 ⊢ <;> omega
  · have hsucc := monthStart_succ hfeb
    have hb := d.marchMonth_bounds
    have hlast : d.marchMonth ≠ 11 := by
      unfold marchMonth
      split_ifs <;> omega
    have hend : monthStart (d.marchMonth + 1) ≤ 337 := by
      unfold monthStart
      omega
    have hbegin : 0 ≤ monthStart d.marchMonth := by
      unfold monthStart
      omega
    unfold dayOfYear
    split_ifs <;> omega

/-! ### The next number -/

theorem number_next (d : Date) : d.next.number = d.number + 1 := by
  obtain ⟨h1, h2⟩ := d.month_ok
  rcases d.next_cases with ⟨-, hy, hm, hd⟩ | ⟨hlast, hlt, hy, hm, hd⟩ | ⟨hlast, hdec, hy, hm, hd⟩
  · simp only [number, dayOfYear, marchMonth, marchYear, hy, hm, hd]
    omega
  · by_cases hfeb : d.month = 2
    · -- the year from March on ends
      have hstart := yearStart_succ (d.year - 1)
      rw [Int.sub_add_cancel] at hstart
      rw [hfeb, monthLength, if_pos rfl] at hlast
      have hmarch : d.marchYear = d.year - 1 ∧ d.marchMonth = 11 := by simp [marchYear, marchMonth, hfeb]
      have hmarch' : d.next.marchYear = d.year ∧ d.next.marchMonth = 0 := by simp [marchYear, marchMonth, hy, hm, hfeb]
      rw [number, number, dayOfYear, dayOfYear, hmarch.1, hmarch.2, hmarch'.1, hmarch'.2, hstart, hlast, hd, monthStart,
        monthStart]
      split_ifs <;> omega
    · have hsucc := monthStart_succ hfeb
      have hmarch : d.next.marchYear = d.marchYear ∧ d.next.marchMonth = d.marchMonth + 1 := by
        simp only [marchMonth, marchYear, hy, hm]
        constructor <;> split_ifs <;> omega
      rw [number, number, dayOfYear, dayOfYear, hmarch.1, hmarch.2, hsucc, hd]
      omega
  · have hsucc := monthStart_succ (d := d) (by omega)
    have hmarch : d.next.marchYear = d.marchYear ∧ d.next.marchMonth = d.marchMonth + 1 := by
      simp only [marchMonth, marchYear, hy, hm, hdec]
      norm_num
    rw [number, number, dayOfYear, dayOfYear, hmarch.1, hmarch.2, hsucc, hd]
    omega

theorem number_iterate (d : Date) (n : Nat) : (next^[n] d).number = d.number + n := by
  induction n with
  | zero => simp
  | succ n ih =>
    rw [Function.iterate_succ_apply', number_next, ih]
    push_cast
    omega

/-- The first of March that begins a cycle of 400 years. -/
def cycleStart (k : Int) : Date := ⟨400 * k, 3, 1, by decide, by decide, by simp [monthLength]⟩

theorem number_cycleStart (k : Int) : (cycleStart k).number = 146097 * k - 719468 := by
  have hstart := yearStart_period 0 k
  simp only [cycleStart, number, dayOfYear, marchMonth, marchYear]
  norm_num [yearStart, monthStart] at *
  omega

theorem number_surjective : Function.Surjective number := by
  intro n
  -- The cycle that `n` lies in begins at or before it.
  have hcycle : (cycleStart ((n + 719468) / 146097)).number ≤ n := by
    rw [number_cycleStart]
    omega
  refine ⟨next^[(n - (cycleStart ((n + 719468) / 146097)).number).toNat] (cycleStart ((n + 719468) / 146097)), ?_⟩
  rw [number_iterate]
  omega

end Date

end Gregorian
