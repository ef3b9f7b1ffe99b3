import IdaRs.Error
import IdaRs.Text
import IdaRs.Lib.Serde

/-!
# Reading tool arguments (`src/server/mod.rs` 576-860, 1707-1720)

`parse_address`, `value_to_strings` and its users, `value_to_bytes` and `parse_optional_unsigned`. A string
argument may hold a JSON array: `fromStr` is `serde_json::from_str`.
-/

namespace IdaRs

open Serde

/-- `char::to_digit`. -/
def toDigit (radix : Nat) (c : Char) : Option Nat :=
  let d :=
    if '0' ≤ c ∧ c ≤ '9' then c.toNat - 48
    else if 'a' ≤ c ∧ c ≤ 'z' then c.toNat - 87
    else if 'A' ≤ c ∧ c ≤ 'Z' then c.toNat - 55
    else radix
  if d < radix then some d else none

def radixValue (radix : Nat) (s : List Char) : Option Nat :=
  s.foldl (fun acc c => acc.bind fun n => (toDigit radix c).map fun d => radix * n + d) (some 0)

/-- `from_str_radix` of an unsigned type with values up to `max`: digits, after at most one `+`. -/
def fromStrRadix (radix max : Nat) (s : List Char) : Option Nat :=
  match (match s with | '+' :: rest => rest | _ => s) with
  | [] => none
  | digits => (radixValue radix digits).filter (· ≤ max)

def u64Max : Nat := 18446744073709551615

def parseAddress (s : String) : Except ToolError Nat :=
  let s := (trim s.toList).filter (· ≠ '_')
  let value :=
    if ['0', 'x'] <+: s ∨ ['0', 'X'] <+: s then fromStrRadix 16 u64Max (s.drop 2)
    else if ['0', 'b'] <+: s ∨ ['0', 'B'] <+: s then fromStrRadix 2 u64Max (s.drop 2)
    else if ['0', 'o'] <+: s ∨ ['0', 'O'] <+: s then fromStrRadix 8 u64Max (s.drop 2)
    else fromStrRadix 10 u64Max s
  match value with
  | some a => .ok a
  | none => .error (.invalidAddress (String.ofList s))

/-- An element of a list of strings. -/
def elementText : Json → Except ToolError String
  | .str s => .ok s
  | .int n => .ok (toString n)
  | .float text => .ok text
  | _ => .error (.idaError "expected string or number")

section

variable (fromStr : String → Option Json)

def valueToStrings : Json → Except ToolError (List String)
  | .str s =>
    let trimmed := trim s.toList
    match if trimmed.head? = some '[' then (fromStr (String.ofList trimmed)).bind Json.asArr else none with
    | some arr => arr.mapM elementText
    | none =>
      if ',' ∈ trimmed then
        .ok ((((trimmed.splitOn ',').map trim).filter (· ≠ [])).map String.ofList)
      else if trimmed = [] then .error (.idaError "empty string")
      else .ok [String.ofList trimmed]
  | .int n => .ok [toString n]
  | .float text => .ok [text]
  | .arr xs => xs.mapM elementText
  | _ => .error (.idaError "expected string, number, or array")

def valueToAddresses (value : Json) : Except ToolError (List Nat) := do
  let strings ← valueToStrings fromStr value
  if strings = [] then throw (.invalidAddress "no addresses provided")
  strings.mapM parseAddress

def valueToSingleAddress (value : Json) : Except ToolError Nat := do
  match ← valueToAddresses fromStr value with
  | a :: _ => return a
  | [] => throw (.invalidAddress "empty address list")

end

/-- `is_ascii_hexdigit`. -/
def isAsciiHexdigit (c : Char) : Bool := (toDigit 16 c).isSome

/-- What a hex string may have between its digits. -/
def isHexFiller (c : Char) : Bool :=
  c = ' ' || c = '\t' || c = '\n' || c = '\x0C' || c = '\r' || c = ',' || c = '_' || c = ':' || c = '-' ||
    c = 'x' || c = 'X'

def cleanHex : List Char → Except ToolError (List Char)
  | [] => .ok []
  | c :: cs =>
    if isAsciiHexdigit c then (cleanHex cs).map (c :: ·)
    else if isHexFiller c then cleanHex cs
    else .error (.invalidParams ("invalid hex character: " ++ String.ofList [c]))

def hexPairs : List Char → Except ToolError (List UInt8)
  | a :: b :: cs =>
    match fromStrRadix 16 255 [a, b] with
    | some n => (hexPairs cs).map (UInt8.ofNat n :: ·)
    | none => .error (.invalidParams "invalid hex byte")
  | _ => .ok []

/-- A number or an address literal of one byte. -/
def byteOf (n : Nat) : Except ToolError UInt8 :=
  if n ≤ 255 then .ok (UInt8.ofNat n) else .error (.invalidParams "byte value out of range")

/-- `Number::as_u64`, then the bound of a byte. -/
def numberByte (n : Int) : Except ToolError UInt8 :=
  if 0 ≤ n ∧ n ≤ u64Max then byteOf n.toNat else .error (.invalidParams "invalid byte")

def elementByte : Json → Except ToolError UInt8
  | .int n => numberByte n
  | .float _ => .error (.invalidParams "invalid byte")
  | .str s => do byteOf (← parseAddress s)
  | _ => .error (.invalidParams "bytes must be numbers or strings")

def valueToBytes : Json → Except ToolError (List UInt8)
  | .str s => do
    let cleaned ← cleanHex s.toList
    if cleaned = [] then throw (.invalidParams "no bytes provided")
    if cleaned.length % 2 ≠ 0 then throw (.invalidParams "hex string has odd length")
    hexPairs cleaned
  | .arr xs => do
    let out ← xs.mapM elementByte
    if out = [] then throw (.invalidParams "no bytes provided")
    return out
  | .int n => (numberByte n).map ([·])
  | .float _ => .error (.invalidParams "invalid byte")
  | _ => .error (.invalidParams "expected hex string or array of bytes")

/-- An integer type of the source, with the name `type_name` gives it. -/
structure IntTy where
  name : String
  lo : Int
  hi : Int

namespace IntTy

def i64 : IntTy := ⟨"i64", -9223372036854775808, 9223372036854775807⟩
def u64 : IntTy := ⟨"u64", 0, 18446744073709551615⟩
def usize : IntTy := ⟨"usize", 0, 18446744073709551615⟩
def u32 : IntTy := ⟨"u32", 0, 4294967295⟩
def u16 : IntTy := ⟨"u16", 0, 65535⟩
def i32 : IntTy := ⟨"i32", -2147483648, 2147483647⟩

/-- The values of the type as serde reads them. -/
abbrev ty (T : IntTy) : Ty := .int T.lo T.hi

end IntTy

/-- `parse_optional_unsigned`, which takes any integer type. -/
def parseOptional (T : IntTy) (value : Option IntTy.i64.ty.Val) (name : String) : Except ToolError (Option Int) :=
  match value with
  | none => .ok none
  | some v =>
    if T.lo ≤ v.1 ∧ v.1 ≤ T.hi then .ok (some v.1)
    else .error (.invalidParams (name ++ " (" ++ toString v.1 ++ ") is out of range for " ++ T.name))

/-- `parse_optional_unsigned` of an unsigned type. -/
def parseOptionalUnsigned (T : IntTy) (value : Option IntTy.i64.ty.Val) (name : String) :
    Except ToolError (Option Nat) :=
  (parseOptional T value name).map (Option.map Int.toNat)

/-! ## Reading back what the pooled backend writes -/

theorem toDigit_digitChar_of_lt : ∀ radix ≤ 16, ∀ d < radix, toDigit radix d.digitChar = some d := by decide

theorem toDigit_digitChar (d : Nat) (h : d < 16) : toDigit 16 d.digitChar = some d :=
  toDigit_digitChar_of_lt 16 le_rfl d h

theorem digitChar_plain : ∀ d : Nat, d < 16 → isWhitespace d.digitChar = false ∧ d.digitChar ≠ '_' ∧ d.digitChar ≠ '+' ∧
    d.digitChar ≠ ',' := by decide

theorem radixValue_append (radix : Nat) (s : List Char) (c : Char) : radixValue radix (s ++ [c]) =
    (radixValue radix s).bind fun n => (toDigit radix c).map fun d => radix * n + d := by
  simp [radixValue]

theorem radixValue_zeros {radix : Nat} (hr : 0 < radix) (k : Nat) (s : List Char) :
    radixValue radix (List.replicate k '0' ++ s) = radixValue radix s := by
  have hzero : toDigit radix '0' = some 0 := by simp [toDigit, hr]
  induction k with
  | zero => rfl
  | succ k ih => simpa [radixValue, List.replicate_succ, hzero] using ih

section

variable {radix : Nat} (hlow : 1 < radix) (hhigh : radix ≤ 16)

include hlow hhigh

theorem radixValue_toDigits_radix (n : Nat) : radixValue radix (Nat.toDigits radix n) = some n := by
  induction n using Nat.strong_induction_on with
  | _ n ih =>
    by_cases h : n < radix
    · rw [Nat.toDigits_of_lt_base h]
      simp [radixValue, toDigit_digitChar_of_lt radix hhigh n h]
    · have hdigit := toDigit_digitChar_of_lt radix hhigh (n % radix) (Nat.mod_lt _ (by omega))
      have hsmall : n / radix < n := Nat.div_lt_self (by omega) hlow
      rw [Nat.toDigits_of_base_le hlow (by omega), radixValue_append, ih (n / radix) hsmall, Option.bind_some, hdigit,
        Option.map_some, Nat.div_add_mod]

theorem mem_toDigits_radix {n : Nat} {c : Char} (h : c ∈ Nat.toDigits radix n) : ∃ d < radix, c = d.digitChar := by
  induction n using Nat.strong_induction_on with
  | _ n ih =>
    by_cases hn : n < radix
    · rw [Nat.toDigits_of_lt_base hn, List.mem_singleton] at h
      exact ⟨n, hn, h⟩
    · rw [Nat.toDigits_of_base_le hlow (by omega), List.mem_append, List.mem_singleton] at h
      rcases h with h | h
      · exact ih (n / radix) (Nat.div_lt_self (by omega) hlow) h
      · exact ⟨n % radix, Nat.mod_lt _ (by omega), h⟩

end

theorem radixValue_toDigits (n : Nat) : radixValue 16 (Nat.toDigits 16 n) = some n :=
  radixValue_toDigits_radix (by decide) le_rfl n

theorem mem_toDigits {n : Nat} {c : Char} (h : c ∈ Nat.toDigits 16 n) : ∃ d : Nat, d < 16 ∧ c = d.digitChar :=
  mem_toDigits_radix (by decide) le_rfl h

theorem radixFold_digits {radix : Nat} {s : List Char} {acc : Option Nat} {n : Nat}
    (h : s.foldl (fun acc c => acc.bind fun n => (toDigit radix c).map fun d => radix * n + d) acc = some n) :
    acc.isSome ∧ ∀ c ∈ s, (toDigit radix c).isSome := by
  induction s generalizing acc with
  | nil => simp_all
  | cons c s ih =>
    obtain ⟨hacc, hs⟩ := ih h
    cases acc with
    | none => simp at hacc
    | some a =>
      refine ⟨rfl, ?_⟩
      intro c' hc'
      rcases List.mem_cons.1 hc' with rfl | hc'
      · simpa using hacc
      · exact hs c' hc'

theorem radixValue_digits {radix : Nat} {s : List Char} {n : Nat} (h : radixValue radix s = some n) :
    ∀ c ∈ s, (toDigit radix c).isSome :=
  (radixFold_digits h).2

theorem toDigit_range {radix : Nat} {c : Char} (h : (toDigit radix c).isSome) :
    (48 ≤ c.toNat ∧ c.toNat ≤ 57) ∨ (97 ≤ c.toNat ∧ c.toNat ≤ 122) ∨ (65 ≤ c.toNat ∧ c.toNat ≤ 90) := by
  by_contra hno
  have h1 : ¬ ('0' ≤ c ∧ c ≤ '9') := fun hc => hno (.inl hc)
  have h2 : ¬ ('a' ≤ c ∧ c ≤ 'z') := fun hc => hno (.inr (.inl hc))
  have h3 : ¬ ('A' ≤ c ∧ c ≤ 'Z') := fun hc => hno (.inr (.inr hc))
  simp only [toDigit, h1, h2, h3, if_false, lt_irrefl, Option.isSome_none] at h
  cases h

theorem toDigit_plain {radix : Nat} {c : Char} (h : (toDigit radix c).isSome) :
    isWhitespace c = false ∧ c ≠ '_' ∧ c ≠ '+' := by
  have hr := toDigit_range h
  refine ⟨?_, ?_, ?_⟩
  · simp only [isWhitespace, Bool.or_eq_false_iff, Bool.and_eq_false_iff, beq_eq_false_iff_ne, decide_eq_false_iff_not]
    omega
  · rintro rfl
    simp at hr
  · rintro rfl
    simp at hr

theorem fromStrRadix_eq {radix max n : Nat} {s : List Char} (hne : s ≠ []) (h : radixValue radix s = some n)
    (hle : n ≤ max) : fromStrRadix radix max s = some n := by
  cases s with
  | nil => exact absurd rfl hne
  | cons c cs =>
    have hc : c ≠ '+' := (toDigit_plain (radixValue_digits h c (List.mem_cons_self ..))).2.2
    rw [fromStrRadix, h]
    · simp [Option.filter, hle]
    · intro rest heq
      exact hc (List.cons.inj heq).1
    · exact hne

theorem fromStrRadix_toDigits_radix {radix n max : Nat} (hlow : 1 < radix) (hhigh : radix ≤ 16) (h : n ≤ max) :
    fromStrRadix radix max (Nat.toDigits radix n) = some n :=
  fromStrRadix_eq Nat.toDigits_ne_nil (radixValue_toDigits_radix hlow hhigh n) h

theorem fromStrRadix_toDigits {n max : Nat} (h : n ≤ max) : fromStrRadix 16 max (Nat.toDigits 16 n) = some n :=
  fromStrRadix_toDigits_radix (by decide) le_rfl h

theorem dropWhile_isWhitespace {s : List Char} (h : ∀ c ∈ s, isWhitespace c = false) :
    s.dropWhile isWhitespace = s := by
  cases s with
  | nil => rfl
  | cons c s => rw [List.dropWhile_cons_of_neg (by simp [h c])]

theorem trim_eq_self {s : List Char} (h : ∀ c ∈ s, isWhitespace c = false) : trim s = s := by
  rw [trim, dropWhile_isWhitespace h, dropWhile_isWhitespace (by simpa using h), List.reverse_reverse]

theorem hexLit_toList (n : Nat) : (hexLit n).toList = '0' :: 'x' :: Nat.toDigits 16 n := by
  simp [hexLit]

theorem hexLit_plain {n : Nat} {c : Char} (h : c ∈ (hexLit n).toList) :
    isWhitespace c = false ∧ c ≠ '_' ∧ c ≠ ',' := by
  rw [hexLit_toList, List.mem_cons, List.mem_cons] at h
  rcases h with rfl | rfl | h
  · decide
  · decide
  · obtain ⟨d, hd, rfl⟩ := mem_toDigits h
    exact ⟨(digitChar_plain d hd).1, (digitChar_plain d hd).2.1, (digitChar_plain d hd).2.2.2⟩

theorem trim_hexLit (n : Nat) : trim (hexLit n).toList = (hexLit n).toList :=
  trim_eq_self fun _ h => (hexLit_plain h).1

theorem parseAddress_hexLit {n : Nat} (h : n ≤ u64Max) : parseAddress (hexLit n) = .ok n := by
  have hf : (hexLit n).toList.filter (· ≠ '_') = '0' :: 'x' :: Nat.toDigits 16 n := by
    rw [← hexLit_toList, List.filter_eq_self]
    intro c hc
    simpa using (hexLit_plain hc).2.1
  have hp : ['0', 'x'] <+: '0' :: 'x' :: Nat.toDigits 16 n := ⟨_, rfl⟩
  simp only [parseAddress, trim_hexLit, hf, hp, true_or, if_true]
  rw [show ('0' :: 'x' :: Nat.toDigits 16 n).drop 2 = Nat.toDigits 16 n from rfl, fromStrRadix_toDigits h]

section

variable (fromStr : String → Option Json)

/-- A string that is read as itself: not blank at an end, not a list. -/
theorem valueToStrings_str {s : String} (ht : trim s.toList = s.toList) (hne : s ≠ "") (hc : ',' ∉ s.toList)
    (hj : s.toList.head? = some '[' → (fromStr s).bind Json.asArr = none) :
    valueToStrings fromStr (.str s) = .ok [s] := by
  have hnil : s.toList ≠ [] := fun h => hne (by rw [← String.ofList_toList (s := s), h])
  have harr : (if s.toList.head? = some '[' then (fromStr s).bind Json.asArr else none) = none := by
    split
    · exact hj ‹_›
    · rfl
  simp only [valueToStrings, ht, String.ofList_toList, harr, hc, hnil, if_false]

theorem valueToStrings_arr (xs : List String) : valueToStrings fromStr (.arr (xs.map .str)) = .ok xs := by
  rw [valueToStrings]
  induction xs with
  | nil => rfl
  | cons x xs ih => rw [List.map_cons, List.mapM_cons, ih]; rfl

theorem valueToAddresses_eq {value : Json} {strings : List String} (h : valueToStrings fromStr value = .ok strings)
    (hne : strings ≠ []) : valueToAddresses fromStr value = strings.mapM parseAddress := by
  rw [valueToAddresses, h]
  simp [bind, Except.bind, hne]

theorem valueToAddresses_hexLit {a : Nat} (h : a ≤ u64Max) :
    valueToAddresses fromStr (.str (hexLit a)) = .ok [a] := by
  have hs : valueToStrings fromStr (.str (hexLit a)) = .ok [hexLit a] := by
    refine valueToStrings_str fromStr (trim_hexLit a) (fun h => ?_) (fun h => (hexLit_plain h).2.2 rfl) ?_
    · have := congrArg String.toList h
      rw [hexLit_toList] at this
      simp at this
    · rw [hexLit_toList]
      simp
  rw [valueToAddresses_eq fromStr hs (List.cons_ne_nil _ _), List.mapM_cons, parseAddress_hexLit h]
  rfl

theorem valueToSingleAddress_hexLit {a : Nat} (h : a ≤ u64Max) :
    valueToSingleAddress fromStr (.str (hexLit a)) = .ok a := by
  rw [valueToSingleAddress, valueToAddresses_hexLit fromStr h]
  rfl

theorem mapM_parseAddress {addrs : List Nat} (h : ∀ a ∈ addrs, a ≤ u64Max) :
    (addrs.map hexLit).mapM parseAddress = .ok addrs := by
  induction addrs with
  | nil => rfl
  | cons a addrs ih =>
    rw [List.map_cons, List.mapM_cons, parseAddress_hexLit (h a (List.mem_cons_self ..)),
      ih fun b hb => h b (List.mem_cons_of_mem _ hb)]
    rfl

theorem valueToAddresses_arr {addrs : List Nat} (h : ∀ a ∈ addrs, a ≤ u64Max) (hne : addrs ≠ []) :
    valueToAddresses fromStr (.arr (addrs.map fun a => .str (hexLit a))) = .ok addrs := by
  have hs := valueToStrings_arr fromStr (addrs.map hexLit)
  rw [List.map_map] at hs
  have he := valueToAddresses_eq fromStr hs (by simpa using hne)
  rw [mapM_parseAddress h] at he
  exact he

end

theorem valueToBytes_arr {bytes : List UInt8} (hne : bytes ≠ []) :
    valueToBytes (.arr (bytes.map fun b => .int b.toNat)) = .ok bytes := by
  have hb : ∀ b : UInt8, elementByte (.int b.toNat) = .ok b := by
    intro b
    have := b.toNat_lt
    rw [elementByte, numberByte, if_pos (by simp [u64Max]; omega), byteOf, Int.toNat_natCast, if_pos (by omega),
      UInt8.ofNat_toNat]
  have hm : (bytes.map fun b => Json.int b.toNat).mapM elementByte = .ok bytes := by
    clear hne
    induction bytes with
    | nil => rfl
    | cons b bytes ih => rw [List.map_cons, List.mapM_cons, hb, ih]; rfl
  rw [valueToBytes, hm]
  simp [bind, Except.bind, hne, pure, Except.pure]

theorem parseOptionalUnsigned_natCast {T : IntTy} {n : Nat} (name : String) (h : T.lo ≤ n ∧ (n : Int) ≤ T.hi)
    (h' : IntTy.i64.lo ≤ (n : Int) ∧ (n : Int) ≤ IntTy.i64.hi) :
    parseOptionalUnsigned T (some ⟨n, h'⟩) name = .ok (some n) := by
  have hp : parseOptional T (some ⟨n, h'⟩) name = .ok (some (n : Int)) := if_pos h
  rw [parseOptionalUnsigned, hp]
  simp [Except.map]

/-! ## Decimal numbers -/

theorem digitsFold {cs : List Char} (h : ∀ c ∈ cs, c.isDigit = true) (n : Nat) :
    cs.foldl (fun acc c => acc.bind fun n => if c.isDigit then some (10 * n + (c.toNat - 48)) else none) (some n) =
      some (Nat.ofDigitChars 10 cs n) := by
  induction cs generalizing n with
  | nil => rfl
  | cons c cs ih =>
    rw [List.foldl_cons, Option.bind_some, if_pos (h c List.mem_cons_self)]
    exact ih (fun d hd => h d (List.mem_cons_of_mem c hd)) _

theorem digitsValue_toDigits (n : Nat) : digitsValue (Nat.toDigits 10 n) = some n := by
  have hdigits : ∀ c ∈ Nat.toDigits 10 n, c.isDigit = true :=
    fun c hc => Nat.isDigit_of_mem_toDigits (by decide) (by decide) hc
  rcases hcs : Nat.toDigits 10 n with _ | ⟨c, cs⟩
  · exact absurd hcs Nat.toDigits_ne_nil
  · rw [digitsValue, ← hcs, digitsFold hdigits, Nat.ofDigitChars_toDigits (by decide) (by decide)]
    rintro ⟨⟩

theorem parseUnsigned_toDigits {n max : Nat} (h : n ≤ max) : parseUnsigned max (Nat.toDigits 10 n) = some n := by
  unfold parseUnsigned
  split
  · rename_i rest heq
    have hplus : '+'.isDigit = true :=
      Nat.isDigit_of_mem_toDigits (b := 10) (n := n) (by decide) (by decide) (heq ▸ List.mem_cons_self)
    exact absurd hplus (by decide)
  · rw [digitsValue_toDigits, Option.filter_some, if_pos (decide_eq_true h)]

end IdaRs
