import IdaRs.Calendar

/-!
# The directories of spills and their pruning (`src/spill.rs` 43-58, 87-115)

`spill_dir` names a directory by the date; `prune_old_spills` reads eight digits as a date and removes what is more than
three days old. Any eight digits are read, so `days_from_civil` is given the third month with the day 00 too, where it
underflows: `prune_exact_iff`.
-/

namespace IdaRs

namespace Calendar

open Gregorian

/-- `{:0width}` of an integer. -/
def padded (width : Nat) (n : Int) : List Char :=
  if n < 0 then
    let digits := Nat.toDigits 10 n.natAbs
    '-' :: (List.replicate (width - 1 - digits.length) '0' ++ digits)
  else
    let digits := Nat.toDigits 10 n.natAbs
    List.replicate (width - digits.length) '0' ++ digits

/-- The day of a time in seconds. -/
def dayOf (secs : UInt64) : Int := secs.toNat / 86400

/-- The name of the directory that `spill_dir` gives. -/
def spillDirName (secs : UInt64) : Option (List Char) := do
  let (year, month, day) ← civilFromDays (dayOf secs)
  return padded 4 year ++ padded 2 month ++ padded 2 day

/-- `str::parse` for `i64`. -/
def parseI64 : List Char → Option Int
  | '-' :: rest =>
    if rest.head? = some '+' then none else (fromStrRadix 10 9223372036854775808 rest).map fun n => -(n : Int)
  | s => (fromStrRadix 10 9223372036854775807 s).map Int.ofNat

/-- `str::parse` for `u32`. -/
def parseU32 (s : List Char) : Option Int := (fromStrRadix 10 4294967295 s).map Int.ofNat

/-- An entry of a directory: one that cannot be read, a name that is no text, or a name. -/
inductive Entry
  | failed
  | notText
  | named (name : List Char)
deriving DecidableEq

def spillRetentionDays : Int := 3

/-- What the loop does with a name: whether it removes the directory, unless the arithmetic overflows. -/
def prunes (todayDays : Int) (name : List Char) : Option Bool :=
  if name.length ≠ 8 ∨ !name.all Char.isDigit then some false
  else
    match parseI64 (name.take 4), parseU32 ((name.drop 4).take 2), parseU32 ((name.drop 6).take 2) with
    | some y, some m, some d => do
      let dirDays ← daysFromCivil y m d
      let age ← IntTy.i64.checked (todayDays - dirDays)
      return decide (spillRetentionDays < age)
    | _, _, _ => some false

/-- The loop, with the names of the directories that it removes. -/
def pruneLoop (todayDays : Int) : List Entry → Option (List (List Char))
  | [] => some []
  | .named name :: entries => do
    let remove ← prunes todayDays name
    let removed ← pruneLoop todayDays entries
    return if remove then name :: removed else removed
  | _ :: entries => pruneLoop todayDays entries

/-- Without a directory there is nothing to do. -/
def pruneOldSpills (entries : Option (List Entry)) (todayDays : Int) : Option (List (List Char)) :=
  match entries with
  | none => some []
  | some entries => pruneLoop todayDays entries

/-! ### Eight digits -/

def EightDigits (name : List Char) : Prop := name.length = 8 ∧ ∀ c ∈ name, c.isDigit

/-- The names that are read as the third month and the day 00. -/
def NoDay (name : List Char) : Prop := EightDigits name ∧ name.drop 4 = ['0', '3', '0', '0']

theorem digitChar_toNat : ∀ d < 10, Char.ofNat (48 + d) = d.digitChar := by decide

theorem toDigit_isDigit {c : Char} (h : c.isDigit) : ∃ d < 10, toDigit 10 c = some d ∧ c = d.digitChar := by
  rw [Char.isDigit, Bool.and_eq_true, decide_eq_true_eq, decide_eq_true_eq] at h
  have hlow : '0' ≤ c := h.1
  have hhigh : c ≤ '9' := h.2
  have h1 : 48 ≤ c.toNat := UInt32.le_iff_toNat_le.1 h.1
  have h2 : c.toNat ≤ 57 := UInt32.le_iff_toNat_le.1 h.2
  have hlt : c.toNat - 48 < 10 := by omega
  refine ⟨c.toNat - 48, hlt, by simp only [toDigit, hlow, hhigh, and_self, if_true, if_pos hlt], ?_⟩
  rw [← digitChar_toNat _ hlt, Nat.add_sub_cancel' h1, Char.ofNat_toNat]

/-- Digits are a number below the power of ten. -/
theorem radixValue_decimal {s : List Char} (h : ∀ c ∈ s, c.isDigit) :
    ∃ n < 10 ^ s.length, radixValue 10 s = some n := by
  induction s using List.reverseRecOn with
  | nil => exact ⟨0, by simp, rfl⟩
  | append_singleton s c ih =>
    obtain ⟨n, hn, hs⟩ := ih fun c' hc' => h c' (List.mem_append_left _ hc')
    obtain ⟨d, hd, hc, -⟩ := toDigit_isDigit (h c (by simp))
    refine ⟨10 * n + d, ?_, ?_⟩
    · rw [List.length_append, List.length_singleton, pow_succ]
      omega
    · rw [radixValue_append, hs, Option.bind_some, hc]
      rfl

theorem fromStrRadix_decimal {s : List Char} {max : Nat} (hne : s ≠ []) (h : ∀ c ∈ s, c.isDigit)
    (hmax : 10 ^ s.length ≤ max) : ∃ n < 10 ^ s.length, fromStrRadix 10 max s = some n := by
  obtain ⟨n, hn, hs⟩ := radixValue_decimal h
  exact ⟨n, hn, fromStrRadix_eq hne hs (by omega)⟩

theorem parseI64_digits {s : List Char} (h : ∀ c ∈ s, c.isDigit) :
    parseI64 s = (fromStrRadix 10 9223372036854775807 s).map Int.ofNat := by
  rw [parseI64]
  rintro rest rfl
  exact absurd (h '-' (List.mem_cons_self ..)) (by decide)

/-- Eight digits are a year of four, and a month and a day of two. -/
theorem parse_eightDigits {name : List Char} (h : EightDigits name) : ∃ y m d : Int, (0 ≤ y ∧ y ≤ 9999) ∧
    TwoDigits m ∧ TwoDigits d ∧ parseI64 (name.take 4) = some y ∧ parseU32 ((name.drop 4).take 2) = some m ∧
    parseU32 ((name.drop 6).take 2) = some d := by
  obtain ⟨hlen, hdigits⟩ := h
  have hpart : ∀ {part : List Char} {k : Nat} (max : Nat), part ⊆ name → part.length = k + 1 → 10 ^ (k + 1) ≤ max →
      ∃ n < 10 ^ (k + 1), fromStrRadix 10 max part = some n := by
    intro part k max hsub hk hmax
    rw [← hk] at hmax ⊢
    exact fromStrRadix_decimal (by rintro rfl; cases hk) (fun c hc => hdigits c (hsub hc)) hmax
  have htake : (name.take 4) ⊆ name := List.take_subset _ _
  have hmid : ((name.drop 4).take 2) ⊆ name := fun c hc => List.drop_subset _ _ (List.take_subset _ _ hc)
  have hend : ((name.drop 6).take 2) ⊆ name := fun c hc => List.drop_subset _ _ (List.take_subset _ _ hc)
  obtain ⟨y, hy, hyear⟩ := hpart 9223372036854775807 htake (k := 3) (by simp [hlen]) (by decide)
  obtain ⟨m, hm, hmonth⟩ := hpart 4294967295 hmid (k := 1) (by simp [hlen]) (by decide)
  obtain ⟨d, hd, hday⟩ := hpart 4294967295 hend (k := 1) (by simp [hlen]) (by decide)
  refine ⟨y, m, d, ⟨by omega, by omega⟩, ⟨by omega, by omega⟩, ⟨by omega, by omega⟩, ?_, ?_, ?_⟩
  · rw [parseI64_digits fun c hc => hdigits c (htake hc), hyear]
    rfl
  · rw [parseU32, hmonth]
    rfl
  · rw [parseU32, hday]
    rfl

/-- Two digits are a number below ten only as it is written. -/
theorem two_digits_eq {s : List Char} {n : Nat} (hlen : s.length = 2) (hs : ∀ c ∈ s, c.isDigit)
    (h : parseU32 s = some n) (hn : n < 10) : s = ['0', n.digitChar] := by
  obtain ⟨a, b, rfl⟩ := List.length_eq_two.1 hlen
  obtain ⟨x, hx, hax, ha⟩ := toDigit_isDigit (hs a (by simp))
  obtain ⟨y, hy, hby, hb⟩ := toDigit_isDigit (hs b (by simp))
  have hvalue : fromStrRadix 10 4294967295 [a, b] = some (10 * x + y) :=
    fromStrRadix_eq (List.cons_ne_nil _ _) (by simp [radixValue, hax, hby]) (by omega)
  rw [parseU32, hvalue] at h
  have hsum : 10 * x + y = n := Int.ofNat.inj (Option.some.inj h)
  obtain rfl : x = 0 := by omega
  obtain rfl : y = n := by omega
  rw [ha, hb]
  rfl

/-- A name whose date is the day 00 of the third month. -/
theorem noDay_iff {name : List Char} (h : EightDigits name) : NoDay name ↔
    parseU32 ((name.drop 4).take 2) = some 3 ∧ parseU32 ((name.drop 6).take 2) = some 0 := by
  obtain ⟨hlen, hdigits⟩ := h
  have hsplit : name.drop 4 = (name.drop 4).take 2 ++ (name.drop 6).take 2 := by
    have hend : (name.drop 6).take 2 = name.drop 6 := List.take_of_length_le (by simp [hlen])
    rw [hend, ← List.drop_drop (i := 2) (j := 4), List.take_append_drop]
  constructor
  · rintro ⟨-, h0300⟩
    have hmonth : (name.drop 4).take 2 = ['0', '3'] := by rw [h0300]; rfl
    have hday : (name.drop 6).take 2 = ['0', '0'] := by
      rw [← List.drop_drop (i := 2) (j := 4), h0300]
      rfl
    rw [hmonth, hday]
    exact ⟨by decide, by decide⟩
  · rintro ⟨hm, hd⟩
    refine ⟨⟨hlen, hdigits⟩, ?_⟩
    have hmonth := two_digits_eq (n := 3) (by simp [hlen])
      (fun c hc => hdigits c (List.drop_subset _ _ (List.take_subset _ _ hc))) hm (by decide)
    have hday := two_digits_eq (n := 0) (by simp [hlen])
      (fun c hc => hdigits c (List.drop_subset _ _ (List.take_subset _ _ hc))) hd (by decide)
    rw [hsplit, hmonth, hday]
    rfl

/-! ### One name -/

theorem dayOf_bounds (secs : UInt64) : 0 ≤ dayOf secs ∧ dayOf secs ≤ 213503982334601 := by
  have h := secs.toNat_lt
  unfold dayOf
  omega

theorem prunes_other {today : Int} {name : List Char} (h : ¬ EightDigits name) : prunes today name = some false := by
  rw [prunes, if_pos]
  by_contra hneg
  rw [not_or, not_not] at hneg
  exact h ⟨hneg.1, by simpa using hneg.2⟩

theorem prunes_eq {today y m d : Int} {name : List Char} (h : EightDigits name)
    (hy : parseI64 (name.take 4) = some y) (hm : parseU32 ((name.drop 4).take 2) = some m)
    (hd : parseU32 ((name.drop 6).take 2) = some d) :
    prunes today name = (daysFromCivil y m d).bind fun dirDays =>
      (IntTy.i64.checked (today - dirDays)).bind fun age => some (decide (spillRetentionDays < age)) := by
  have hneg : ¬ (name.length ≠ 8 ∨ !name.all Char.isDigit) := by
    rw [not_or, not_not]
    exact ⟨h.1, by simpa using h.2⟩
  simp only [prunes, if_neg hneg, hy, hm, hd]
  rfl

theorem dayNumber_bounds {y m d : Int} (hy : 0 ≤ y ∧ y ≤ 9999) (hm : TwoDigits m) (hd : TwoDigits d) :
    -1000000 ≤ dayNumber y m d ∧ dayNumber y m d ≤ 10000000 := by
  obtain ⟨hm1, hm2⟩ := hm
  obtain ⟨hd1, hd2⟩ := hd
  unfold dayNumber yearStart monthStart
  split_ifs <;> omega

/-- A date of two digits each is older than the limit if its number is; the arithmetic underflows for the day 00 of
the third month. -/
theorem prunes_cases (secs : UInt64) {name : List Char} (h : EightDigits name) :
    (NoDay name → prunes (dayOf secs) name = none) ∧
      (¬ NoDay name → ∃ remove, prunes (dayOf secs) name = some remove) := by
  obtain ⟨y, m, d, hy, hm, hd, hyear, hmonth, hday⟩ := parse_eightDigits h
  have hnumber := dayNumber_bounds hy hm hd
  have hnow := dayOf_bounds secs
  rw [noDay_iff h, prunes_eq h hyear hmonth hday, hmonth, hday, Option.some.injEq, Option.some.injEq]
  constructor
  · rintro ⟨rfl, rfl⟩
    rw [daysFromCivil_underflow]
    rfl
  · intro hreal
    refine ⟨decide (spillRetentionDays < dayOf secs - dayNumber y m d), ?_⟩
    rw [daysFromCivil_eq hm hd hreal ⟨by omega, by omega⟩, Option.bind_some,
      i64_checked (by omega) (by omega), Option.bind_some]

/-! ### The names of spills -/

theorem padded_spec (width : Nat) {n : Int} (hw : 0 < width) (h0 : 0 ≤ n) (hn : n < 10 ^ width) :
    (padded width n).length = width ∧ (∀ c ∈ padded width n, c.isDigit) ∧
      ∀ max : Nat, n ≤ max → fromStrRadix 10 max (padded width n) = some n.toNat := by
  obtain ⟨k, rfl⟩ := Int.eq_ofNat_of_zero_le h0
  have hk : k < 10 ^ width := by exact_mod_cast hn
  have hle : (Nat.toDigits 10 k).length ≤ width := (Nat.length_toDigits_le_iff (by decide) hw).2 hk
  have heq : padded width k = List.replicate (width - (Nat.toDigits 10 k).length) '0' ++ Nat.toDigits 10 k := by
    rw [padded, if_neg (by omega)]
    rfl
  rw [heq]
  refine ⟨?_, ?_, ?_⟩
  · rw [List.length_append, List.length_replicate]
    omega
  · intro c hc
    rcases List.mem_append.1 hc with hc | hc
    · rw [List.eq_of_mem_replicate hc]
      rfl
    · exact Nat.isDigit_of_mem_toDigits (by decide) (by decide) hc
  · intro max hmax
    have hvalue : radixValue 10 (List.replicate (width - (Nat.toDigits 10 k).length) '0' ++ Nat.toDigits 10 k) =
        some k := by
      rw [radixValue_zeros (by decide), radixValue_toDigits_radix (by decide) (by decide)]
    exact fromStrRadix_eq (by simp [Nat.toDigits_ne_nil]) hvalue (by omega)

/-- The name of the directory for a date. -/
def dirName (date : Date) : List Char := padded 4 date.year ++ padded 2 date.month ++ padded 2 date.day

theorem spillDirName_eq (secs : UInt64) : ∃ date : Date, date.number = dayOf secs ∧
    civilFromDays (dayOf secs) = some (date.year, date.month, date.day) ∧ spillDirName secs = some (dirName date) := by
  have hb := dayOf_bounds secs
  obtain ⟨date, hdate⟩ := Date.number_surjective (dayOf secs)
  have hcivil : civilFromDays (dayOf secs) = some (date.year, date.month, date.day) := by
    rw [← hdate] at hb ⊢
    exact civilFromDays_number ⟨by omega, by omega⟩
  refine ⟨date, hdate, hcivil, ?_⟩
  rw [spillDirName, hcivil]
  rfl

/-- A date that is not before 1970 has a year that is not negative. -/
theorem year_nonneg {date : Date} (h : 0 ≤ date.number) : 0 ≤ date.year := by
  have hday := (dayOfYear_le date)
  rw [Date.number] at h
  have hyear : date.marchYear ≤ date.year := by
    unfold Date.marchYear
    split_ifs <;> omega
  unfold yearStart at h
  omega

/-- The name of a directory of four digits for the year is read as its date. -/
theorem prunes_dirName {date : Date} (now : UInt64) (h0 : 0 ≤ date.number) (hyear : date.year < 10000) :
    EightDigits (dirName date) ∧
      prunes (dayOf now) (dirName date) = some (decide (spillRetentionDays < dayOf now - date.number)) := by
  have hmonth := date.month_ok
  have hday := date.day_ok
  have hlength := monthLength_bounds date.year date.month
  have hm : TwoDigits date.month := ⟨by omega, by omega⟩
  have hd : TwoDigits date.day := ⟨by omega, by omega⟩
  obtain ⟨hylen, hydigits, hyval⟩ := padded_spec 4 (by decide) (year_nonneg h0) (by simpa using hyear)
  obtain ⟨hmlen, hmdigits, hmval⟩ := padded_spec 2 (by decide) hm.1 (by norm_num; omega)
  obtain ⟨hdlen, hddigits, hdval⟩ := padded_spec 2 (by decide) hd.1 (by norm_num; omega)
  have height : EightDigits (dirName date) := by
    constructor
    · rw [dirName, List.length_append, List.length_append, hylen, hmlen, hdlen]
    · intro c hc
      rw [dirName, List.mem_append, List.mem_append] at hc
      rcases hc with (hc | hc) | hc
      · exact hydigits c hc
      · exact hmdigits c hc
      · exact hddigits c hc
  refine ⟨height, ?_⟩
  have htake : (dirName date).take 4 = padded 4 date.year := by
    rw [dirName, List.append_assoc, List.take_append_of_le_length hylen.ge, List.take_of_length_le hylen.le]
  have hdrop : (dirName date).drop 4 = padded 2 date.month ++ padded 2 date.day := by
    rw [dirName, List.append_assoc, List.drop_append_of_le_length hylen.ge, List.drop_of_length_le hylen.le,
      List.nil_append]
  have hmid : ((dirName date).drop 4).take 2 = padded 2 date.month := by
    rw [hdrop, List.take_append_of_le_length hmlen.ge, List.take_of_length_le hmlen.le]
  have hend : ((dirName date).drop 6).take 2 = padded 2 date.day := by
    rw [← List.drop_drop (i := 2) (j := 4), hdrop, List.drop_append_of_le_length hmlen.ge,
      List.drop_of_length_le hmlen.le, List.nil_append, List.take_of_length_le hdlen.le]
  have hpy : parseI64 ((dirName date).take 4) = some date.year := by
    rw [htake, parseI64_digits hydigits, hyval _ (by omega)]
    exact congrArg some (Int.toNat_of_nonneg (year_nonneg h0))
  have hpm : parseU32 (((dirName date).drop 4).take 2) = some date.month := by
    rw [hmid, parseU32, hmval _ (by omega)]
    exact congrArg some (Int.toNat_of_nonneg hm.1)
  have hpd : parseU32 (((dirName date).drop 6).take 2) = some date.day := by
    rw [hend, parseU32, hdval _ (by omega)]
    exact congrArg some (Int.toNat_of_nonneg hd.1)
  have hbounds := dayNumber_bounds ⟨year_nonneg h0, by omega⟩ hm hd
  have hnow := dayOf_bounds now
  rw [prunes_eq height hpy hpm hpd, daysFromCivil_eq hm hd (by omega) ⟨by omega, by omega⟩, Option.bind_some,
    i64_checked (by omega) (by omega), Option.bind_some, dayNumber_date]

/-! ### The loop -/

/-- Where no name overflows, the loop removes the names it is to remove. -/
theorem pruneLoop_some {today : Int} {entries : List Entry}
    (h : ∀ name, .named name ∈ entries → ∃ remove, prunes today name = some remove) :
    ∃ removed, pruneLoop today entries = some removed ∧
      ∀ name, name ∈ removed ↔ .named name ∈ entries ∧ prunes today name = some true := by
  induction entries with
  | nil => exact ⟨[], rfl, by simp⟩
  | cons entry entries ih =>
    obtain ⟨removed, hloop, hmem⟩ := ih fun name hname => h name (List.mem_cons_of_mem _ hname)
    cases entry with
    | failed => exact ⟨removed, hloop, by simpa using hmem⟩
    | notText => exact ⟨removed, hloop, by simpa using hmem⟩
    | named first =>
      obtain ⟨remove, hremove⟩ := h first (List.mem_cons_self ..)
      refine ⟨if remove then first :: removed else removed, ?_, ?_⟩
      · rw [pruneLoop, hremove, hloop]
        rfl
      · intro name
        simp only [List.mem_cons, Entry.named.injEq]
        cases remove with
        | true =>
          rw [if_pos rfl, List.mem_cons, hmem]
          constructor
          · rintro (rfl | ⟨hin, hname⟩)
            · exact ⟨.inl rfl, hremove⟩
            · exact ⟨.inr hin, hname⟩
          · rintro ⟨rfl | hin, hname⟩
            · exact .inl rfl
            · exact .inr ⟨hin, hname⟩
        | false =>
          rw [if_neg Bool.false_ne_true, hmem]
          constructor
          · rintro ⟨hin, hname⟩
            exact ⟨.inr hin, hname⟩
          · rintro ⟨rfl | hin, hname⟩
            · rw [hremove] at hname
              cases hname
            · exact ⟨hin, hname⟩

/-- One overflow ends the loop. -/
theorem pruneLoop_none {today : Int} {entries : List Entry} {name : List Char} (hmem : .named name ∈ entries)
    (h : prunes today name = none) : pruneLoop today entries = none := by
  induction entries with
  | nil => cases hmem
  | cons entry entries ih =>
    cases entry with
    | failed => exact ih (by simpa using hmem)
    | notText => exact ih (by simpa using hmem)
    | named first =>
      rcases List.mem_cons.1 hmem with hfirst | hmem
      · rw [pruneLoop, ← Entry.named.inj hfirst, h]
        rfl
      · rw [pruneLoop, ih hmem]
        cases prunes today first <;> rfl

/-- Pruning on the day of `now` ends without an overflow, removes eight digits only, and removes the directory of a
spill of a year of four digits exactly when it is more than three days old. -/
def PrunesExactly (entries : List Entry) (now : UInt64) : Prop :=
  ∃ removed, pruneOldSpills (some entries) (dayOf now) = some removed ∧ (∀ name ∈ removed, EightDigits name) ∧
    ∀ (secs : UInt64) (year month day : Int) (name : List Char),
      civilFromDays (dayOf secs) = some (year, month, day) → year < 10000 → spillDirName secs = some name →
      .named name ∈ entries → (name ∈ removed ↔ 3 < dayOf now - dayOf secs)

theorem prune_exact_iff (entries : List Entry) (now : UInt64) :
    PrunesExactly entries now ↔ ∀ name, .named name ∈ entries → ¬ NoDay name := by
  constructor
  · rintro ⟨removed, hprune, -⟩ name hmem hno
    have hnone := pruneLoop_none hmem ((prunes_cases now hno.1).1 hno)
    rw [pruneOldSpills, hnone] at hprune
    cases hprune
  · intro hreal
    have hsome : ∀ name, .named name ∈ entries → ∃ remove, prunes (dayOf now) name = some remove := by
      intro name hmem
      by_cases height : EightDigits name
      · exact (prunes_cases now height).2 (hreal name hmem)
      · exact ⟨false, prunes_other height⟩
    obtain ⟨removed, hloop, hremoved⟩ := pruneLoop_some hsome
    refine ⟨removed, hloop, ?_, ?_⟩
    · intro name hname
      by_contra height
      have htrue := ((hremoved name).1 hname).2
      rw [prunes_other height] at htrue
      cases htrue
    · intro secs year month day name hcivil hyear hname hmem
      obtain ⟨date, hdate, hcivil', hdir⟩ := spillDirName_eq secs
      rw [hdir] at hname
      obtain rfl := Option.some.inj hname
      rw [hcivil] at hcivil'
      obtain ⟨rfl, -⟩ := Prod.mk.inj (Option.some.inj hcivil')
      have hprunes := (prunes_dirName now (hdate ▸ (dayOf_bounds secs).1) hyear).2
      rw [hremoved, hprunes, hdate, and_iff_right hmem, Option.some.injEq, decide_eq_true_eq, spillRetentionDays]

/-- A directory `20240300` stops the pruning, on any day. -/
theorem prune_no_day : NoDay "20240300".toList ∧ prunes (dayOf 0) "20240300".toList = none ∧
    ¬ PrunesExactly [.named "20240300".toList] 0 := by
  have htext : "20240300".toList = ['2', '0', '2', '4', '0', '3', '0', '0'] := rfl
  have hno : NoDay "20240300".toList := by
    rw [htext]
    exact ⟨⟨rfl, List.all_eq_true.1 rfl⟩, rfl⟩
  have hnone := (prunes_cases 0 hno.1).1 hno
  refine ⟨hno, hnone, ?_⟩
  rintro ⟨removed, hprune, -⟩
  rw [pruneOldSpills, pruneLoop_none (List.mem_cons_self ..) hnone] at hprune
  cases hprune

end Calendar

end IdaRs
