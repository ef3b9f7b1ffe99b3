import IdaRs.Values
import IdaRs.Lib.Gregorian

/-!
# Calendar dates and the pruning of spills (`src/spill.rs` 43-115, `src/server/task.rs` 570-601)

Three conversions between day numbers and dates, with the machine arithmetic as written: an operation that leaves its
type has no result. On dates they are `Gregorian.Date.number` and its inverse. `prune_old_spills` gives
`days_from_civil` any eight digits; `prune_exact_iff` says which it bears.
-/

namespace IdaRs

open Gregorian

/-- The result of an operation on the type, unless it overflows. -/
def IntTy.checked (T : IntTy) (x : Int) : Option Int := if T.lo ≤ x ∧ x ≤ T.hi then some x else none

theorem IntTy.checked_of {T : IntTy} {x : Int} (h : T.lo ≤ x ∧ x ≤ T.hi) : T.checked x = some x := if_pos h

namespace Calendar

/-- `as u32`. -/
def asU32 (x : Int) : Int := x % 4294967296

/-- `yoe`, in the arithmetic of `T`. -/
def yoeOf (T : IntTy) (doe : Int) : Option Int := do
  let left ← T.checked (doe - doe / 1460)
  let left ← T.checked (left + doe / 36524)
  let left ← T.checked (left - doe / 146096)
  return left / 365

/-- The days of an era before a year of it. -/
def startOf (T : IntTy) (yoe : Int) : Option Int := do
  let start ← T.checked (365 * yoe)
  let start ← T.checked (start + yoe / 4)
  T.checked (start - yoe / 100)

/-- `m` and `d` of a day of a year. -/
def monthDayOf (T : IntTy) (doy : Int) : Option (Int × Int) := do
  let mp ← T.checked (5 * doy)
  let mp ← T.checked (mp + 2)
  let start ← T.checked (153 * (mp / 153))
  let start ← T.checked (start + 2)
  let d ← T.checked (doy - start / 5)
  let d ← T.checked (d + 1)
  let m ← T.checked (if mp / 153 < 10 then mp / 153 + 3 else mp / 153 - 9)
  return (m, d)

/-- The year of the era, the month and the day of a day of an era. -/
def ofDayOfEra (T : IntTy) (doe : Int) : Option (Int × Int × Int) := do
  let yoe ← yoeOf T doe
  let start ← startOf T yoe
  let doy ← T.checked (doe - start)
  let (m, d) ← monthDayOf T doy
  return (yoe, m, d)

/-- The division rounds to zero; the condition makes it round down. -/
def civilFromDays (days : Int) : Option (Int × Int × Int) := do
  let z ← IntTy.i64.checked (days + 719468)
  let era := (← IntTy.i64.checked (if 0 ≤ z then z else z - 146096)).tdiv 146097
  let start ← IntTy.i64.checked (era * 146097)
  let doe := asU32 (← IntTy.i64.checked (z - start))
  let (yoe, m, d) ← ofDayOfEra IntTy.u32 doe
  let start ← IntTy.i64.checked (era * 400)
  let y ← IntTy.i64.checked (yoe + start)
  let y ← IntTy.i64.checked (if m ≤ 2 then y + 1 else y)
  return (y, m, d)

/-- The day of the year of a month and a day. -/
def doyOf (m d : Int) : Option Int := do
  let mp ← IntTy.u32.checked (if 2 < m then m - 3 else m + 9)
  let doy ← IntTy.u32.checked (153 * mp)
  let doy ← IntTy.u32.checked (doy + 2)
  let doy ← IntTy.u32.checked (doy / 5 + d)
  IntTy.u32.checked (doy - 1)

def daysFromCivil (y m d : Int) : Option Int := do
  let y ← IntTy.i64.checked (if m ≤ 2 then y - 1 else y)
  let era := (← IntTy.i64.checked (if 0 ≤ y then y else y - 399)).tdiv 400
  let start ← IntTy.i64.checked (era * 400)
  let yoe := asU32 (← IntTy.i64.checked (y - start))
  let doy ← doyOf m d
  let start ← startOf IntTy.u32 yoe
  let doe ← IntTy.u32.checked (start + doy)
  let days ← IntTy.i64.checked (era * 146097)
  let days ← IntTy.i64.checked (days + doe)
  IntTy.i64.checked (days - 719468)

def epochDaysToYmd (days : Int) : Option (Int × Int × Int) := do
  let z ← IntTy.u64.checked (days + 719468)
  let era := z / 146097
  let start ← IntTy.u64.checked (era * 146097)
  let doe ← IntTy.u64.checked (z - start)
  let (yoe, m, d) ← ofDayOfEra IntTy.u64 doe
  let start ← IntTy.u64.checked (era * 400)
  let y ← IntTy.u64.checked (yoe + start)
  let year ← IntTy.u64.checked (if m ≤ 2 then y + 1 else y)
  return (year, m, d)

/-! ### Eras -/

/-- Division that rounds to zero, of a number moved down if it is negative, rounds down. -/
theorem tdiv_moved {k : Int} (hk : 0 < k) (z : Int) : (if 0 ≤ z then z else z - (k - 1)).tdiv k = z / k := by
  split_ifs with hz
  · exact Int.tdiv_eq_ediv_of_nonneg hz
  · have hneg : z - (k - 1) = -(k - 1 - z) := by omega
    have hr := Int.emod_nonneg z hk.ne'
    have hlt := Int.emod_lt_of_pos z hk
    have hsum := Int.emod_add_mul_ediv z k
    have hdiv : (k - 1 - z) / k = -(z / k) := by
      have hsplit : k - 1 - z = (k - 1 - z % k) + k * -(z / k) := by rw [Int.mul_neg]; omega
      rw [hsplit, Int.add_mul_ediv_left _ _ hk.ne', Int.ediv_eq_zero_of_lt (by omega) (by omega), Int.zero_add]
    rw [hneg, Int.neg_tdiv, Int.tdiv_eq_ediv_of_nonneg (by omega), hdiv, Int.neg_neg]

/-- The day of the era of a year that the era has and a day of that year. -/
def dayOfEra (yoe doy : Int) : Int := 365 * yoe + yoe / 4 - yoe / 100 + doy

section

variable {yoe doy : Int} (hyoe : 0 ≤ yoe ∧ yoe ≤ 399)
  (hdoy : 0 ≤ doy ∧ doy < if IsLeap (yoe + 1) then 366 else 365)

include hyoe hdoy

theorem dayOfEra_bounds : 0 ≤ dayOfEra yoe doy ∧ dayOfEra yoe doy ≤ 146096 := by
  obtain ⟨h1, h2⟩ := hdoy
  simp only [IsLeap] at h2
  unfold dayOfEra
  split_ifs at h2 <;> omega

/-- The formula for the year counts the leap days of four, a hundred and four hundred years. -/
theorem yearOfEra_eq {doe : Int} (hdoe : doe = dayOfEra yoe doy) :
    (doe - doe / 1460 + doe / 36524 - doe / 146096) / 365 = yoe := by
  obtain ⟨c, q, r, hc, hq, hr, rfl⟩ : ∃ c q r : Int, (0 ≤ c ∧ c ≤ 3) ∧ (0 ≤ q ∧ q ≤ 24) ∧ (0 ≤ r ∧ r ≤ 3) ∧
      yoe = 100 * c + 4 * q + r := ⟨yoe / 100, yoe % 100 / 4, yoe % 4, by omega, by omega, by omega, by omega⟩
  have hlast : doy ≤ 365 ∧ (doy = 365 → r = 3 ∧ (q = 24 → c = 3)) := by
    obtain ⟨h1, h2⟩ := hdoy
    simp only [IsLeap] at h2
    split_ifs at h2 <;> omega
  have hsum : doe = 36524 * c + 1461 * q + 365 * r + doy := by
    rw [hdoe, dayOfEra]
    omega
  clear hdoe
  have h400 : doe / 146096 = if doe = 146096 then 1 else 0 := by split_ifs <;> omega
  have h100 : doe / 36524 = c + if doe = 146096 then 1 else 0 := by split_ifs <;> omega
  have h4 : doe / 1460 = 25 * c + q ∨ doe / 1460 = 25 * c + q + 1 := by omega
  rw [h400, h100]
  rcases h4 with h4 | h4
  · rw [h4]
    split_ifs <;> omega
  · rw [h4]
    split_ifs <;> omega

end

/-! ### Dates -/

/-- The month of a day of a year from March on. -/
theorem marchMonth_eq (d : Date) : (5 * d.dayOfYear + 2) / 153 = d.marchMonth := by
  obtain ⟨h1, h2⟩ := d.month_ok
  obtain ⟨h3, h4⟩ := d.day_ok
  have hbounds := d.dayOfYear_bounds
  have hbegin : monthStart d.marchMonth ≤ d.dayOfYear := by rw [Date.dayOfYear]; omega
  unfold monthStart at hbegin
  by_cases hfeb : d.month = 2
  · have hmonth : d.marchMonth = 11 := by simp [Date.marchMonth, hfeb]
    have hle : d.dayOfYear ≤ 365 := by
      obtain ⟨-, hlt⟩ := hbounds
      split_ifs at hlt <;> omega
    rw [hmonth] at hbegin ⊢
    omega
  · have hend : d.dayOfYear < monthStart (d.marchMonth + 1) := by
      rw [Date.monthStart_succ hfeb, Date.dayOfYear]
      omega
    unfold monthStart at hend
    omega

/-- The era of a date and the year of the era, from March on. -/
def era (d : Date) : Int := d.marchYear / 400

def yearOfEra (d : Date) : Int := d.marchYear % 400

theorem yearOfEra_bounds (d : Date) : 0 ≤ yearOfEra d ∧ yearOfEra d ≤ 399 := by
  unfold yearOfEra
  omega

theorem dayOfYear_yearOfEra (d : Date) :
    0 ≤ d.dayOfYear ∧ d.dayOfYear < if IsLeap (yearOfEra d + 1) then 366 else 365 := by
  have hleap : IsLeap (yearOfEra d + 1) ↔ IsLeap (d.marchYear + 1) := by
    simp only [IsLeap, yearOfEra]
    omega
  simp only [hleap]
  exact d.dayOfYear_bounds

theorem number_eq (d : Date) : d.number = 146097 * era d + dayOfEra (yearOfEra d) d.dayOfYear - 719468 := by
  have hyear : d.marchYear = yearOfEra d + 400 * era d := by
    unfold yearOfEra era
    omega
  have hb := yearOfEra_bounds d
  rw [Date.number, hyear, yearStart_period, yearStart, dayOfEra]
  omega

/-! ### Checked arithmetic -/

/-- The numbers that come up in an era. -/
def Small (x : Int) : Prop := 0 ≤ x ∧ x ≤ 1000000

/-- A type that has them. -/
def HasSmall (T : IntTy) : Prop := T.lo ≤ 0 ∧ 1000000 ≤ T.hi

theorem HasSmall.checked {T : IntTy} (hT : HasSmall T) {x : Int} (h : Small x) : T.checked x = some x :=
  IntTy.checked_of ⟨hT.1.trans h.1, h.2.trans hT.2⟩

theorem small_yearOfEra {doe : Int} (h : 0 ≤ doe ∧ doe ≤ 146096) :
    Small (doe - doe / 1460) ∧ Small (doe - doe / 1460 + doe / 36524) ∧
      Small (doe - doe / 1460 + doe / 36524 - doe / 146096) := by
  unfold Small
  refine ⟨⟨by omega, by omega⟩, ⟨by omega, by omega⟩, by omega, by omega⟩

theorem small_yearStart {yoe : Int} (h : 0 ≤ yoe ∧ yoe ≤ 399) :
    Small (365 * yoe) ∧ Small (365 * yoe + yoe / 4) ∧ Small (365 * yoe + yoe / 4 - yoe / 100) := by
  unfold Small
  refine ⟨⟨by omega, by omega⟩, ⟨by omega, by omega⟩, by omega, by omega⟩

theorem small_month {mp : Int} (h : 0 ≤ mp ∧ mp ≤ 11) : Small (153 * mp) ∧ Small (153 * mp + 2) := by
  unfold Small
  refine ⟨⟨by omega, by omega⟩, by omega, by omega⟩

theorem dayOfYear_le (d : Date) : d.dayOfYear ≤ 365 := by
  obtain ⟨-, hlt⟩ := d.dayOfYear_bounds
  split_ifs at hlt <;> omega

theorem small_day (d : Date) : Small d.day ∧ Small (d.day - 1) ∧ Small d.month ∧ Small d.dayOfYear ∧
    Small (5 * d.dayOfYear) ∧ Small (5 * d.dayOfYear + 2) := by
  have hmonth := d.month_ok
  have hday := d.day_ok
  have hlength := monthLength_bounds d.year d.month
  have hlow := d.dayOfYear_bounds.1
  have hhigh := dayOfYear_le d
  unfold Small
  refine ⟨⟨?_, ?_⟩, ⟨?_, ?_⟩, ⟨?_, ?_⟩, ⟨?_, ?_⟩, ⟨?_, ?_⟩, ?_, ?_⟩ <;> omega

/-- The month of the calendar of a month from March on. -/
theorem month_eq (d : Date) : (if d.marchMonth < 10 then d.marchMonth + 3 else d.marchMonth - 9) = d.month := by
  have := d.month_ok
  unfold Date.marchMonth
  split_ifs <;> omega

section

variable {T : IntTy} (hT : HasSmall T)

include hT

theorem yoeOf_eq {yoe doy : Int} (hyoe : 0 ≤ yoe ∧ yoe ≤ 399)
    (hdoy : 0 ≤ doy ∧ doy < if IsLeap (yoe + 1) then 366 else 365) : yoeOf T (dayOfEra yoe doy) = some yoe := by
  obtain ⟨h1, h2, h3⟩ := small_yearOfEra (dayOfEra_bounds hyoe hdoy)
  simp only [yoeOf, Option.bind_eq_bind, Option.bind_some, hT.checked h1, hT.checked h2, hT.checked h3]
  exact congrArg some (yearOfEra_eq hyoe hdoy rfl)

theorem startOf_eq {yoe : Int} (hyoe : 0 ≤ yoe ∧ yoe ≤ 399) :
    startOf T yoe = some (365 * yoe + yoe / 4 - yoe / 100) := by
  obtain ⟨h1, h2, h3⟩ := small_yearStart hyoe
  simp only [startOf, Option.bind_eq_bind, Option.bind_some, hT.checked h1, hT.checked h2, hT.checked h3]

theorem monthDayOf_eq (d : Date) : monthDayOf T d.dayOfYear = some (d.month, d.day) := by
  obtain ⟨h1, h2⟩ := small_month d.marchMonth_bounds
  obtain ⟨hd, hd1, hm, -, hoy1, hoy2⟩ := small_day d
  have hday : d.dayOfYear - (153 * d.marchMonth + 2) / 5 = d.day - 1 := by
    rw [Date.dayOfYear, monthStart]
    omega
  simp only [monthDayOf, Option.bind_eq_bind, Option.bind_some, hT.checked hoy1, hT.checked hoy2, marchMonth_eq,
    hT.checked h1, hT.checked h2, hday, hT.checked hd1, Int.sub_add_cancel, hT.checked hd, month_eq, hT.checked hm]
  rfl

/-- The day of the era of a date is the date. -/
theorem ofDayOfEra_eq (d : Date) :
    ofDayOfEra T (dayOfEra (yearOfEra d) d.dayOfYear) = some (yearOfEra d, d.month, d.day) := by
  have hyoe := yearOfEra_bounds d
  have hdoy := dayOfYear_yearOfEra d
  obtain ⟨-, -, -, hoy, -⟩ := small_day d
  have hstart : dayOfEra (yearOfEra d) d.dayOfYear - (365 * yearOfEra d + yearOfEra d / 4 - yearOfEra d / 100) =
      d.dayOfYear := by
    rw [dayOfEra]
    omega
  simp only [ofDayOfEra, Option.bind_eq_bind, Option.bind_some, yoeOf_eq hT hyoe hdoy, startOf_eq hT hyoe, hstart,
    hT.checked hoy, monthDayOf_eq hT]
  rfl

end

theorem hasSmall_u32 : HasSmall IntTy.u32 := by unfold HasSmall IntTy.u32; decide

theorem hasSmall_u64 : HasSmall IntTy.u64 := by unfold HasSmall IntTy.u64; decide

theorem hasSmall_i64 : HasSmall IntTy.i64 := by unfold HasSmall IntTy.i64; decide

theorem asU32_small {x : Int} (h : Small x) : asU32 x = x := by
  obtain ⟨h1, h2⟩ := h
  exact Int.emod_eq_of_lt h1 (by omega)

theorem i64_checked {x : Int} (h1 : -9223372036854775808 ≤ x) (h2 : x ≤ 9223372036854775807) :
    IntTy.i64.checked x = some x :=
  IntTy.checked_of ⟨h1, h2⟩

/-- The year of the calendar of a date, from its year from March on. -/
theorem year_eq (d : Date) : (if d.month ≤ 2 then yearOfEra d + era d * 400 + 1 else yearOfEra d + era d * 400) =
    d.year := by
  unfold yearOfEra era Date.marchYear
  split_ifs <;> omega

theorem small_dayOfEra (d : Date) : Small (dayOfEra (yearOfEra d) d.dayOfYear) := by
  have h := dayOfEra_bounds (yearOfEra_bounds d) (dayOfYear_yearOfEra d)
  exact ⟨h.1, h.2.trans (by decide)⟩

/-- The parts of a number in its era. -/
theorem number_parts (d : Date) : d.number + 719468 = era d * 146097 + dayOfEra (yearOfEra d) d.dayOfYear ∧
    (d.number + 719468) / 146097 = era d := by
  have h := dayOfEra_bounds (yearOfEra_bounds d) (dayOfYear_yearOfEra d)
  rw [number_eq]
  constructor <;> omega

theorem number_sub_era (d : Date) :
    d.number + 719468 - era d * 146097 = dayOfEra (yearOfEra d) d.dayOfYear := by
  rw [(number_parts d).1, add_sub_cancel_left]

/-- A type that has the number of a date, moved to the eras, has the number's era and its year. -/
theorem eras_checked {T : IntTy} (hT : HasSmall T) {d : Date} (hlo : T.lo ≤ d.number) (hhi : d.number + 719468 ≤ T.hi) :
    T.checked (d.number + 719468) = some (d.number + 719468) ∧
      T.checked (era d * 146097) = some (era d * 146097) ∧ T.checked (era d * 400) = some (era d * 400) ∧
      T.checked (yearOfEra d + era d * 400) = some (yearOfEra d + era d * 400) ∧
      T.checked d.year = some d.year := by
  obtain ⟨hzero, hsmall⟩ := hT
  obtain ⟨hsum, -⟩ := number_parts d
  obtain ⟨hdoe1, hdoe2⟩ := dayOfEra_bounds (yearOfEra_bounds d) (dayOfYear_yearOfEra d)
  obtain ⟨hyoe1, hyoe2⟩ := yearOfEra_bounds d
  have hyear : yearOfEra d + era d * 400 ≤ d.year ∧ d.year ≤ yearOfEra d + era d * 400 + 1 := by
    rw [← year_eq]
    split_ifs <;> omega
  refine ⟨IntTy.checked_of ⟨?_, hhi⟩, IntTy.checked_of ⟨?_, ?_⟩, IntTy.checked_of ⟨?_, ?_⟩, IntTy.checked_of ⟨?_, ?_⟩,
    IntTy.checked_of ⟨?_, ?_⟩⟩ <;> omega

/-- The day numbers that `civil_from_days` bears. -/
def Convertible (days : Int) : Prop := -9223372036854775808 ≤ days ∧ days ≤ 9223372036854056339

theorem civilFromDays_number {d : Date} (h : Convertible d.number) :
    civilFromDays d.number = some (d.year, d.month, d.day) := by
  obtain ⟨h1, h2⟩ := h
  obtain ⟨hz, hstart, hbase, hy, hyear⟩ :=
    eras_checked hasSmall_i64 h1 (show _ ≤ (9223372036854775807 : Int) by omega)
  have hmoved := tdiv_moved (k := 146097) (by decide) (d.number + 719468)
  norm_num only at hmoved
  have hc : IntTy.i64.checked (if 0 ≤ d.number + 719468 then d.number + 719468 else d.number + 719468 - 146096) =
      some (if 0 ≤ d.number + 719468 then d.number + 719468 else d.number + 719468 - 146096) :=
    i64_checked (by split_ifs <;> omega) (by split_ifs <;> omega)
  simp only [civilFromDays, Option.bind_eq_bind, Option.bind_some, hz, hc, hmoved, (number_parts d).2, hstart,
    number_sub_era, hasSmall_i64.checked (small_dayOfEra d), asU32_small (small_dayOfEra d),
    ofDayOfEra_eq hasSmall_u32, hbase, hy, year_eq, hyear]
  rfl

theorem epochDaysToYmd_number {d : Date} (h : 0 ≤ d.number ∧ d.number ≤ 18446744073708832147) :
    epochDaysToYmd d.number = some (d.year, d.month, d.day) := by
  obtain ⟨h1, h2⟩ := h
  obtain ⟨hz, hstart, hbase, hy, hyear⟩ :=
    eras_checked hasSmall_u64 h1 (show _ ≤ (18446744073709551615 : Int) by omega)
  simp only [epochDaysToYmd, Option.bind_eq_bind, Option.bind_some, hz, (number_parts d).2, hstart, number_sub_era,
    hasSmall_u64.checked (small_dayOfEra d), ofDayOfEra_eq hasSmall_u64, hbase, hy, year_eq, hyear]
  rfl

/-! ### Day numbers of any two digits -/

/-- The number that the formula gives for a year, a month and a day, which need not be a date. -/
def dayNumber (y m d : Int) : Int :=
  yearStart (if m ≤ 2 then y - 1 else y) + monthStart (if 2 < m then m - 3 else m + 9) + d - 1 - 719468

theorem dayNumber_date (d : Date) : dayNumber d.year d.month d.day = d.number := by
  have hmonth : (if 2 < d.month then d.month - 3 else d.month + 9) = d.marchMonth := by
    unfold Date.marchMonth
    split_ifs <;> omega
  rw [dayNumber, hmonth, Date.number, Date.dayOfYear, Date.marchYear]
  omega

def TwoDigits (x : Int) : Prop := 0 ≤ x ∧ x ≤ 99

section

variable {m d : Int} (hm : TwoDigits m) (hd : TwoDigits d)

include hm hd

/-- The day of a year of two digits as a month and a day. It is below zero for the month 03 and the day 00. -/
theorem small_digits : Small (if 2 < m then m - 3 else m + 9) ∧ Small (153 * if 2 < m then m - 3 else m + 9) ∧
    Small ((153 * if 2 < m then m - 3 else m + 9) + 2) ∧
    Small (((153 * if 2 < m then m - 3 else m + 9) + 2) / 5 + d) ∧
    (0 ≤ ((153 * if 2 < m then m - 3 else m + 9) + 2) / 5 + d - 1 ↔ ¬ (m = 3 ∧ d = 0)) ∧
    ((153 * if 2 < m then m - 3 else m + 9) + 2) / 5 + d ≤ 10000 := by
  obtain ⟨hm1, hm2⟩ := hm
  obtain ⟨hd1, hd2⟩ := hd
  have hmp : 0 ≤ (if 2 < m then m - 3 else m + 9) ∧ (if 2 < m then m - 3 else m + 9) ≤ 96 ∧
      ((if 2 < m then m - 3 else m + 9) = 0 ↔ m = 3) := by split_ifs <;> omega
  obtain ⟨h1, h2, h3⟩ := hmp
  rw [← h3]
  generalize (if 2 < m then m - 3 else m + 9) = mp at *
  unfold Small
  refine ⟨?_, ?_, ?_, ?_, ?_, ?_⟩ <;> omega

theorem doyOf_eq (hday : ¬ (m = 3 ∧ d = 0)) :
    doyOf m d = some (monthStart (if 2 < m then m - 3 else m + 9) + d - 1) := by
  obtain ⟨hmp, hmp1, hmp2, hdoy, hpos, hle⟩ := small_digits hm hd
  have hlow := hpos.2 hday
  rw [doyOf, monthStart]
  generalize (if 2 < m then m - 3 else m + 9) = mp at *
  have hdoy' : Small ((153 * mp + 2) / 5 + d - 1) := ⟨hlow, by omega⟩
  have hu := hasSmall_u32
  simp only [Option.bind_eq_bind, Option.bind_some, hu.checked hmp, hu.checked hmp1, hu.checked hmp2, hu.checked hdoy,
    hu.checked hdoy']

theorem monthStart_digits : -1 ≤ monthStart (if 2 < m then m - 3 else m + 9) + d - 1 ∧
    monthStart (if 2 < m then m - 3 else m + 9) + d ≤ 10000 := by
  obtain ⟨-, -, -, hdoy, -, hle⟩ := small_digits hm hd
  have hlow := hdoy.1
  unfold monthStart
  omega

theorem daysFromCivil_eq {y : Int} (hday : ¬ (m = 3 ∧ d = 0)) (h : Convertible (dayNumber y m d)) :
    daysFromCivil y m d = some (dayNumber y m d) := by
  have hbounds := monthStart_digits hm hd
  have hlow := (small_digits hm hd).2.2.2.2.1.2 hday
  unfold Convertible dayNumber at h
  rw [dayNumber]
  rw [daysFromCivil, doyOf_eq hm hd hday]
  rw [← monthStart] at hlow
  generalize monthStart (if 2 < m then m - 3 else m + 9) = first at *
  generalize (if m ≤ 2 then y - 1 else y) = year at *
  have hyoe : 0 ≤ year % 400 ∧ year % 400 ≤ 399 := by omega
  have hstart := startOf_eq hasSmall_u32 hyoe
  have hsplit : year - year / 400 * 400 = year % 400 := by omega
  have hyear : yearStart year = year / 400 * 146097 + (365 * (year % 400) + year % 400 / 4 - year % 400 / 100) := by
    rw [yearStart]
    omega
  have hmoved := tdiv_moved (k := 400) (by decide) year
  norm_num only at hmoved
  have hb : 0 ≤ 365 * (year % 400) + year % 400 / 4 - year % 400 / 100 ∧
      365 * (year % 400) + year % 400 / 4 - year % 400 / 100 ≤ 146000 := by omega
  rw [hyear] at h ⊢
  generalize year / 400 = era at *
  generalize year % 400 = yoe at *
  generalize 365 * yoe + yoe / 4 - yoe / 100 = start at *
  obtain ⟨hb1, hb2⟩ := hb
  have hyoe' : Small yoe := ⟨hyoe.1, by omega⟩
  have hdoe : Small (start + (first + d - 1)) := ⟨by omega, by omega⟩
  have hy : IntTy.i64.checked year = some year := i64_checked (by omega) (by omega)
  have hc : IntTy.i64.checked (if 0 ≤ year then year else year - 399) = some (if 0 ≤ year then year else year - 399) :=
    i64_checked (by split_ifs <;> omega) (by split_ifs <;> omega)
  have hbase : IntTy.i64.checked (era * 400) = some (era * 400) := i64_checked (by omega) (by omega)
  have hr : IntTy.i64.checked yoe = some yoe := i64_checked (by omega) (by omega)
  have he : IntTy.i64.checked (era * 146097) = some (era * 146097) := i64_checked (by omega) (by omega)
  have hn : IntTy.i64.checked (era * 146097 + (start + (first + d - 1))) =
      some (era * 146097 + (start + (first + d - 1))) := i64_checked (by omega) (by omega)
  have hlast : era * 146097 + (start + (first + d - 1)) - 719468 = era * 146097 + start + first + d - 1 - 719468 := by
    omega
  have hresult : IntTy.i64.checked (era * 146097 + start + first + d - 1 - 719468) =
      some (era * 146097 + start + first + d - 1 - 719468) := i64_checked (by omega) (by omega)
  simp only [Option.bind_eq_bind, Option.bind_some, hy, hc, hmoved, hbase, hsplit, hr, asU32_small hyoe', hstart,
    hasSmall_u32.checked hdoe, he, hn, hlast, hresult]

end

/-- The underflow: there is no day before the first of March. -/
theorem daysFromCivil_underflow (y : Int) : daysFromCivil y 3 0 = none := by
  have hnone : doyOf 3 0 = none := by decide
  simp [daysFromCivil, hnone]

/-! ### The three conversions -/

/-- `civil_from_days` gives a date, `days_from_civil` inverts it, the next day number gives the next date, and
`epoch_days_to_ymd` gives the same. -/
theorem calendars_agree (days : Int) (h : Convertible days) : ∃ date : Date,
    civilFromDays days = some (date.year, date.month, date.day) ∧
    daysFromCivil date.year date.month date.day = some days ∧
    (Convertible (days + 1) →
      civilFromDays (days + 1) = some (date.next.year, date.next.month, date.next.day)) ∧
    (0 ≤ days → epochDaysToYmd days = some (date.year, date.month, date.day)) := by
  obtain ⟨date, rfl⟩ := Date.number_surjective days
  refine ⟨date, civilFromDays_number h, ?_, fun hnext => ?_, fun hpos => ?_⟩
  · have hm : TwoDigits date.month := ⟨by have := date.month_ok; omega, by have := date.month_ok; omega⟩
    have hlength := monthLength_bounds date.year date.month
    have hday := date.day_ok
    have hd : TwoDigits date.day := ⟨by omega, by omega⟩
    have hnumber := dayNumber_date date
    rw [← hnumber] at h ⊢
    exact daysFromCivil_eq hm hd (by omega) h
  · rw [← Date.number_next] at hnext ⊢
    exact civilFromDays_number hnext
  · exact epochDaysToYmd_number ⟨hpos, by have := h.2; omega⟩

example : civilFromDays 0 = some (1970, 1, 1) := by decide +kernel

/-- The leap day of the year 2000, and the first day of the calendar that its test looks at. -/
theorem calendars_agree_samples : (∃ date : Date, civilFromDays 11016 = some (date.year, date.month, date.day) ∧
      civilFromDays 11017 = some (date.next.year, date.next.month, date.next.day)) ∧
    ∃ date : Date, daysFromCivil date.year date.month date.day = some (-719468) := by
  constructor
  · obtain ⟨date, hdate, -, hnext, -⟩ := calendars_agree 11016 (by unfold Convertible; decide)
    exact ⟨date, hdate, hnext (by unfold Convertible; decide)⟩
  · obtain ⟨date, -, hback, -⟩ := calendars_agree (-719468) (by unfold Convertible; decide)
    exact ⟨date, hback⟩

end Calendar

end IdaRs
