import Mathlib.Data.Nat.Digits.Defs
import IdaRs.HexCodecs

/-!
# Converting integers (`src/daemon/router.rs` 415-428, `src/daemon/worker.rs` 296-306, `src/server/mod.rs` 3775-5241)

The router and the worker write a number in four radices, and read hex and decimal text. The tool of the MCP server
reads what it writes; its bytes are the number in both orders without the zero bytes above it.
-/

namespace IdaRs

namespace IntConvert

open Serde (Json)
open Handlers (Address fmtAddr textParam paramStr parseAddr parseAddr_fmtAddr
  hexEncode parseHexBytes parseHexBytes_hexEncode withoutBlanks_hexEncode)

/-! ### The daemon -/

/-- `{:#o}`. -/
def octalLit (n : Nat) : String := "0o" ++ String.ofList (Nat.toDigits 8 n)

/-- `{:#b}`. -/
def binaryLit (n : Nat) : String := "0b" ++ String.ofList (Nat.toDigits 2 n)

/-- The answer for a number, the same in the router and in the worker. -/
def converted (val : Address) : Json :=
  .obj [("decimal", .int val.toNat), ("hex", .str (hexLit val.toNat)), ("octal", .str (octalLit val.toNat)),
    ("binary", .str (binaryLit val.toNat)), ("signed", .int val.toInt64.toInt)]

/-- The arm of `route_inner`. -/
def routerIntConvert (p : Json) : Except String Json := do
  let v ← match textParam p "value" with
    | some v => .ok v
    | none => .error "Missing parameter: value"
  let val ← parseAddr v
  return converted val

/-- The arm of the worker's `dispatch`. -/
def workerIntConvert (p : Json) : Except String Json := do
  let v ← paramStr p "value"
  let val ← parseAddr v
  return converted val

theorem routerIntConvert_eq (p : Json) : routerIntConvert p = workerIntConvert p := by
  rw [routerIntConvert, workerIntConvert, paramStr]
  cases textParam p "value" <;> rfl

/-- A rendering in an answer. -/
inductive Rendering
  | decimal
  | hex
  | octal
  | binary
deriving DecidableEq

namespace Rendering

def key : Rendering → String
  | decimal => "decimal"
  | hex => "hex"
  | octal => "octal"
  | binary => "binary"

/-- The text of the rendering in the answer for a number. -/
def text (val : Address) : Rendering → String
  | decimal => toString val.toNat
  | hex => hexLit val.toNat
  | octal => octalLit val.toNat
  | binary => binaryLit val.toNat

end Rendering

/-- A value of an answer as a text: a number as its digits. -/
def asText : Json → Json
  | .int n => .str (toString n)
  | j => j

/-- The value of a rendering in the answer for a number, as it stands there or as a text. -/
def Rendering.sent (val : Address) (r : Rendering) (text : Bool) : Json :=
  let j := ((converted val).get? r.key).getD .null
  if text then asText j else j

/-- Another request with this value is answered as the one for the number. -/
def Accepts (convert : Json → Except String Json) (val : Address) (value : Json) : Prop :=
  convert (.obj [("value", value)]) = .ok (converted val)

/-! ### The MCP server -/

/-- `u64::to_le_bytes`. -/
def toLeBytes (value : Nat) : List UInt8 := (List.range 8).map fun i => UInt8.ofNat (value >>> (8 * i))

/-- `u64::to_be_bytes`. -/
def toBeBytes (value : Nat) : List UInt8 := (List.range 8).map fun i => UInt8.ofNat (value >>> (8 * (7 - i)))

def trimBytesLe (out : List UInt8) : List UInt8 :=
  if 1 < out.length ∧ out.getLast? = some 0 then trimBytesLe out.dropLast else out
termination_by out.length
decreasing_by grind

/-- The loop that moves `start`, over the bytes from it on. -/
def trimBytesBe : List UInt8 → List UInt8
  | 0 :: b :: bytes => trimBytesBe (b :: bytes)
  | bytes => bytes

def bytesToAscii (bytes : List UInt8) : String :=
  String.ofList (bytes.map fun b => if 32 ≤ b.toNat ∧ b.toNat ≤ 126 then Char.ofNat b.toNat else '.')

/-- The result for an input that is a number. -/
def convertedRow (input : String) (value : Nat) : Json :=
  let le := trimBytesLe (toLeBytes value)
  let be := trimBytesBe (toBeBytes value)
  .obj [("input", .str input), ("value", .int value), ("dec", .str (toString value)), ("hex", .str (hexLit value)),
    ("bin", .str (binaryLit value)), ("bytes_le", .str (hexEncode le)), ("bytes_be", .str (hexEncode be)),
    ("ascii", .str (bytesToAscii le))]

def intConvertRow (input : String) : Json :=
  match parseAddress input with
  | .ok value => convertedRow input value
  | .error e => .obj [("input", .str input), ("error", .str e.toString)]

/-- The tool `int_convert`. -/
def intConvert (fromStr : String → Option Json) (inputs : Json) : Except ToolError Json :=
  (valueToStrings fromStr inputs).map fun inputs => .obj [("results", .arr (inputs.map intConvertRow))]

/-! ### Digits as text -/

theorem toString_toList (n : Nat) : (toString n).toList = Nat.toDigits 10 n := by
  show (Nat.repr n).toList = _
  rw [Nat.repr, String.toList_ofList]

theorem isSome_of_mem_toDigits {radix n : Nat} {c : Char} (hlow : 1 < radix) (hhigh : radix ≤ 16)
    (h : c ∈ Nat.toDigits radix n) : (toDigit radix c).isSome := by
  obtain ⟨d, hd, rfl⟩ := mem_toDigits_radix hlow hhigh h
  rw [toDigit_digitChar_of_lt radix hhigh d hd]
  rfl

theorem not_prefix_digits {n : Nat} {m : Char} (hm : toDigit 10 m = none) : ¬ ['0', m] <+: Nat.toDigits 10 n := by
  intro h
  have hdigit := isSome_of_mem_toDigits (by decide) (by decide) (h.subset (List.mem_pair.2 (.inr rfl)))
  rw [hm] at hdigit
  cases hdigit

/-- A literal with a mark that is no digit. -/
theorem lit_plain {radix n : Nat} {m : Char} (hlow : 1 < radix) (hhigh : radix ≤ 16)
    (hm : isWhitespace m = false ∧ m ≠ '_') :
    ∀ c ∈ '0' :: m :: Nat.toDigits radix n, isWhitespace c = false ∧ c ≠ '_' := by
  intro c hc
  rcases List.mem_cons.1 hc with rfl | hc
  · decide
  rcases List.mem_cons.1 hc with rfl | hc
  · exact hm
  · obtain ⟨h1, h2, -⟩ := toDigit_plain (isSome_of_mem_toDigits hlow hhigh hc)
    exact ⟨h1, h2⟩

/-! ### What the daemon reads -/

theorem parseAddr_decimal (a : Address) : parseAddr (toString a.toNat) = .ok a := by
  have hmax : a.toNat ≤ u64Max := Nat.le_of_lt_succ a.toNat_lt
  have hplain : ∀ c ∈ Nat.toDigits 10 a.toNat, isWhitespace c = false := fun c hc =>
    (toDigit_plain (isSome_of_mem_toDigits (by decide) (by decide) hc)).1
  have hpre : ¬ (['0', 'x'] <+: Nat.toDigits 10 a.toNat ∨ ['0', 'X'] <+: Nat.toDigits 10 a.toNat) := by
    rintro (h | h)
    · exact not_prefix_digits (by decide) h
    · exact not_prefix_digits (by decide) h
  have hval : fromStrRadix 10 u64Max (Nat.toDigits 10 a.toNat) = some a.toNat :=
    fromStrRadix_toDigits_radix (by decide) (by decide) hmax
  simp only [parseAddr, toString_toList, trim_eq_self hplain, if_neg hpre, hval, UInt64.ofNat_toNat]

/-- The daemon does not read a literal with the mark of another radix. -/
theorem parseAddr_marked {radix n : Nat} {m : Char} {s : String} (hs : s.toList = '0' :: m :: Nat.toDigits radix n)
    (hlow : 1 < radix) (hhigh : radix ≤ 16) (hm : isWhitespace m = false ∧ m ≠ '_') (hx : m ≠ 'x' ∧ m ≠ 'X')
    (hdigit : toDigit 10 m = none) : parseAddr s = .error ("Invalid address: " ++ s) := by
  have hpre : ¬ (['0', 'x'] <+: '0' :: m :: Nat.toDigits radix n ∨
      ['0', 'X'] <+: '0' :: m :: Nat.toDigits radix n) := by
    simp [Ne.symm hx.1, Ne.symm hx.2]
  have hnone : fromStrRadix 10 u64Max ('0' :: m :: Nat.toDigits radix n) = none := by
    by_contra hsome
    have hall := Handlers.fromStrRadix_unsigned (by simp) (Option.isSome_iff_ne_none.2 hsome) m (by simp)
    rw [hdigit] at hall
    cases hall
  have htrim := trim_eq_self fun c hc => (lit_plain (n := n) hlow hhigh hm c hc).1
  simp only [parseAddr, hs, htrim, if_neg hpre, hnone]
  rw [← hs, String.ofList_toList]

theorem workerIntConvert_str (s : String) :
    workerIntConvert (.obj [("value", .str s)]) = (parseAddr s).map converted := by
  have hparam : paramStr (.obj [("value", .str s)]) "value" = .ok s := rfl
  rw [workerIntConvert, hparam]
  show (do let val ← parseAddr s; return converted val) = _
  cases parseAddr s <;> rfl

theorem not_accepts_octal (val : Address) : ¬ Accepts workerIntConvert val (.str (octalLit val.toNat)) := by
  have hs : (octalLit val.toNat).toList = '0' :: 'o' :: Nat.toDigits 8 val.toNat := by simp [octalLit]
  rw [Accepts, workerIntConvert_str, parseAddr_marked hs (by decide) (by decide) (by decide) (by decide) (by decide)]
  rintro ⟨⟩

theorem not_accepts_binary (val : Address) : ¬ Accepts workerIntConvert val (.str (binaryLit val.toNat)) := by
  have hs : (binaryLit val.toNat).toList = '0' :: 'b' :: Nat.toDigits 2 val.toNat := by simp [binaryLit]
  rw [Accepts, workerIntConvert_str, parseAddr_marked hs (by decide) (by decide) (by decide) (by decide) (by decide)]
  rintro ⟨⟩

/-- A rendering is accepted, and is read as the number, if it is hex, or decimal and sent as a text. -/
theorem accepts_iff (val : Address) (r : Rendering) (text : Bool) :
    Accepts workerIntConvert val (r.sent val text) ↔ r = .hex ∨ (r = .decimal ∧ text = true) := by
  cases r with
  | decimal =>
    cases text with
    | true =>
      refine iff_of_true ?_ (by simp)
      show workerIntConvert (.obj [("value", .str (toString val.toNat))]) = .ok (converted val)
      rw [workerIntConvert_str, parseAddr_decimal]
      rfl
    | false =>
      refine iff_of_false ?_ (by simp)
      have hmissing : workerIntConvert (.obj [("value", .int val.toNat)]) = .error "Missing parameter: value" := rfl
      show ¬ workerIntConvert (.obj [("value", .int val.toNat)]) = .ok (converted val)
      rw [hmissing]
      rintro ⟨⟩
  | hex =>
    refine iff_of_true ?_ (by simp)
    have hsent : Rendering.hex.sent val text = .str (fmtAddr val) := by cases text <;> rfl
    rw [hsent, Accepts, workerIntConvert_str, parseAddr_fmtAddr]
    rfl
  | octal =>
    refine iff_of_false ?_ (by simp)
    have hsent : Rendering.octal.sent val text = .str (octalLit val.toNat) := by cases text <;> rfl
    rw [hsent]
    exact not_accepts_octal val
  | binary =>
    refine iff_of_false ?_ (by simp)
    have hsent : Rendering.binary.sent val text = .str (binaryLit val.toNat) := by cases text <;> rfl
    rw [hsent]
    exact not_accepts_binary val

/-! ### Trimmed bytes -/

/-- The number of bytes in little-endian order. -/
def leValue (bytes : List UInt8) : Nat := Nat.ofDigits 256 (bytes.map UInt8.toNat)

/-- The number of bytes in big-endian order. -/
def beValue (bytes : List UInt8) : Nat := bytes.foldl (fun n b => 256 * n + b.toNat) 0

theorem beValue_reverse (bytes : List UInt8) : beValue bytes.reverse = leValue bytes := by
  rw [beValue, List.foldl_reverse]
  induction bytes with
  | nil => rfl
  | cons b bytes ih =>
    rw [List.foldr_cons, ih, leValue, leValue, List.map_cons, Nat.ofDigits_cons]
    exact Nat.add_comm _ _

theorem leValue_range (value n : Nat) :
    leValue ((List.range n).map fun i => UInt8.ofNat (value >>> (8 * i))) = value % 256 ^ n := by
  rw [leValue]
  induction n generalizing value with
  | zero => simp [Nat.mod_one]
  | succ n ih =>
    have hshift : ∀ i, value >>> (8 * (i + 1)) = (value / 256) >>> (8 * i) := by
      intro i
      rw [show 8 * (i + 1) = 8 + 8 * i by omega, Nat.shiftRight_add, Nat.shiftRight_eq_div_pow value 8]
    rw [List.range_succ_eq_map, List.map_cons, List.map_map, List.map_cons, Nat.ofDigits_cons]
    simp only [Function.comp_def, Nat.succ_eq_add_one, hshift, ih]
    have hlow : (UInt8.ofNat (value >>> (8 * 0))).toNat = value % 256 := by simp [UInt8.toNat_ofNat']
    rw [hlow, pow_succ', Nat.mod_mul]

theorem toBeBytes_eq (value : Nat) : toBeBytes value = (toLeBytes value).reverse := by
  simp [toBeBytes, toLeBytes, List.range_succ]

/-- Both loops drop the same zeros. -/
theorem trimBytesBe_reverse (bytes : List UInt8) : trimBytesBe bytes.reverse = (trimBytesLe bytes).reverse := by
  induction bytes using trimBytesLe.induct with
  | case1 out h ih =>
    obtain ⟨hlen, hlast⟩ := h
    obtain ⟨front, rfl⟩ := List.getLast?_eq_some_iff.1 hlast
    rw [trimBytesLe, if_pos ⟨hlen, hlast⟩, ← ih, List.dropLast_concat, List.reverse_concat]
    obtain ⟨b, bytes, hfront⟩ := List.exists_cons_of_ne_nil (l := front.reverse) (by rintro h; simp_all)
    rw [hfront, trimBytesBe]
  | case2 out h =>
    rw [trimBytesLe, if_neg h, trimBytesBe]
    intro b bytes hrev
    have hout : out = (0 :: b :: bytes).reverse := by rw [← hrev, List.reverse_reverse]
    refine h ⟨?_, ?_⟩
    · simp [hout]
    · simp [hout]

/-- What is trimmed are zeros above the number. -/
theorem trimBytesLe_spec (bytes : List UInt8) :
    leValue (trimBytesLe bytes) = leValue bytes ∧
      (1 < (trimBytesLe bytes).length → (trimBytesLe bytes).getLast? ≠ some 0) := by
  induction bytes using trimBytesLe.induct with
  | case1 out h ih =>
    obtain ⟨hlen, hlast⟩ := h
    obtain ⟨front, rfl⟩ := List.getLast?_eq_some_iff.1 hlast
    rw [trimBytesLe, if_pos ⟨hlen, hlast⟩]
    refine ⟨ih.1.trans ?_, ih.2⟩
    rw [List.dropLast_concat, leValue, leValue, List.map_append, Nat.ofDigits_append]
    simp
  | case2 out h =>
    rw [trimBytesLe, if_neg h]
    exact ⟨rfl, fun hlen hlast => h ⟨hlen, hlast⟩⟩

/-! ### What the MCP server reads -/

theorem parseAddress_plain {s : String} {m : Char} {radix n : Nat}
    (hs : s.toList = '0' :: m :: Nat.toDigits radix n) (hlow : 1 < radix) (hhigh : radix ≤ 16)
    (hm : isWhitespace m = false ∧ m ≠ '_') :
    (trim s.toList).filter (· ≠ '_') = '0' :: m :: Nat.toDigits radix n := by
  have hplain := lit_plain (n := n) hlow hhigh hm
  rw [hs, trim_eq_self fun c hc => (hplain c hc).1, List.filter_eq_self]
  intro c hc
  simpa using (hplain c hc).2

theorem parseAddress_binary {n : Nat} (h : n ≤ u64Max) : parseAddress (binaryLit n) = .ok n := by
  have hs : (binaryLit n).toList = '0' :: 'b' :: Nat.toDigits 2 n := by simp [binaryLit]
  have hfilter := parseAddress_plain hs (by decide) (by decide) (by decide)
  have hx : ¬ (['0', 'x'] <+: '0' :: 'b' :: Nat.toDigits 2 n ∨ ['0', 'X'] <+: '0' :: 'b' :: Nat.toDigits 2 n) := by
    simp
  have hb : ['0', 'b'] <+: '0' :: 'b' :: Nat.toDigits 2 n ∨ ['0', 'B'] <+: '0' :: 'b' :: Nat.toDigits 2 n :=
    .inl ⟨_, rfl⟩
  have hval : fromStrRadix 2 u64Max (('0' :: 'b' :: Nat.toDigits 2 n).drop 2) = some n :=
    fromStrRadix_toDigits_radix (by decide) (by decide) h
  simp only [parseAddress, hfilter, if_neg hx, if_pos hb, hval]

theorem parseAddress_decimal {n : Nat} (h : n ≤ u64Max) : parseAddress (toString n) = .ok n := by
  have hdigits : ∀ c ∈ Nat.toDigits 10 n, isWhitespace c = false ∧ c ≠ '_' := fun c hc =>
    have hplain := toDigit_plain (isSome_of_mem_toDigits (by decide) (by decide) hc)
    ⟨hplain.1, hplain.2.1⟩
  have hfilter : (trim (toString n).toList).filter (· ≠ '_') = Nat.toDigits 10 n := by
    rw [toString_toList, trim_eq_self fun c hc => (hdigits c hc).1, List.filter_eq_self]
    intro c hc
    simpa using (hdigits c hc).2
  have hmark : ∀ m m' : Char, toDigit 10 m = none → toDigit 10 m' = none →
      ¬ (['0', m] <+: Nat.toDigits 10 n ∨ ['0', m'] <+: Nat.toDigits 10 n) := by
    rintro m m' hm hm' (h | h)
    · exact not_prefix_digits hm h
    · exact not_prefix_digits hm' h
  have hval : fromStrRadix 10 u64Max (Nat.toDigits 10 n) = some n :=
    fromStrRadix_toDigits_radix (by decide) (by decide) h
  simp only [parseAddress, hfilter, if_neg (hmark 'x' 'X' (by decide) (by decide)),
    if_neg (hmark 'b' 'B' (by decide) (by decide)), if_neg (hmark 'o' 'O' (by decide) (by decide)), hval]

/-- A text that is read as one input. -/
theorem intConvert_one (fromStr : String → Option Json) {s : String} {n : Nat}
    (hplain : ∀ c ∈ s.toList, isWhitespace c = false ∧ c ≠ ',' ∧ c ≠ '[') (hne : s ≠ "")
    (hs : parseAddress s = .ok n) :
    intConvert fromStr (.str s) = .ok (.obj [("results", .arr [convertedRow s n])]) := by
  have hstrings : valueToStrings fromStr (.str s) = .ok [s] := by
    refine valueToStrings_str fromStr (trim_eq_self fun c hc => (hplain c hc).1) hne
      (fun hc => (hplain _ hc).2.1 rfl) ?_
    intro hhead
    exact absurd rfl (hplain _ (List.mem_of_mem_head? hhead)).2.2
  have hrow : intConvertRow s = convertedRow s n := by rw [intConvertRow, hs]
  rw [intConvert, hstrings, Except.map, List.map_singleton, hrow]

theorem digits_plain {radix n : Nat} (hlow : 1 < radix) (hhigh : radix ≤ 16) :
    ∀ c ∈ Nat.toDigits radix n, isWhitespace c = false ∧ c ≠ ',' ∧ c ≠ '[' := by
  intro c hc
  have hdigit := isSome_of_mem_toDigits hlow hhigh hc
  refine ⟨(toDigit_plain hdigit).1, ?_, ?_⟩
  · rintro rfl
    have := toDigit_range hdigit
    simp at this
  · rintro rfl
    have := toDigit_range hdigit
    simp at this

theorem lit_listed {radix n : Nat} {m : Char} (hlow : 1 < radix) (hhigh : radix ≤ 16)
    (hm : isWhitespace m = false ∧ m ≠ ',' ∧ m ≠ '[') :
    ∀ c ∈ '0' :: m :: Nat.toDigits radix n, isWhitespace c = false ∧ c ≠ ',' ∧ c ≠ '[' := by
  intro c hc
  rcases List.mem_cons.1 hc with rfl | hc
  · decide
  rcases List.mem_cons.1 hc with rfl | hc
  · exact hm
  · exact digits_plain hlow hhigh c hc

theorem ne_empty {s : String} {c : Char} (h : c ∈ s.toList) : s ≠ "" := by
  rintro rfl
  cases h

/-- The texts of a number are one input each, and that input is the number. -/
theorem intConvert_texts (fromStr : String → Option Json) {n : Nat} (h : n ≤ u64Max) :
    ∀ s ∈ [toString n, hexLit n, binaryLit n],
      intConvert fromStr (.str s) = .ok (.obj [("results", .arr [convertedRow s n])]) := by
  have hdec : (toString n).toList = Nat.toDigits 10 n := toString_toList n
  have hbin : (binaryLit n).toList = '0' :: 'b' :: Nat.toDigits 2 n := by simp [binaryLit]
  have hhex := hexLit_toList n
  intro s hs
  simp only [List.mem_cons, List.not_mem_nil, or_false] at hs
  rcases hs with rfl | rfl | rfl
  · refine intConvert_one fromStr (hdec ▸ digits_plain (by decide) (by decide)) ?_ (parseAddress_decimal h)
    obtain ⟨c, hc⟩ := List.exists_mem_of_ne_nil _ (Nat.toDigits_ne_nil (b := 10) (n := n))
    exact ne_empty (hdec ▸ hc)
  · refine intConvert_one fromStr (hhex ▸ lit_listed (by decide) (by decide) (by decide)) ?_ (parseAddress_hexLit h)
    exact ne_empty (hhex ▸ List.mem_cons_self ..)
  · refine intConvert_one fromStr (hbin ▸ lit_listed (by decide) (by decide) (by decide)) ?_ (parseAddress_binary h)
    exact ne_empty (hbin ▸ List.mem_cons_self ..)

/-- The bytes of a number in both orders, without zeros above it. -/
theorem trimmed_bytes (val : Address) :
    let le := trimBytesLe (toLeBytes val.toNat)
    let be := trimBytesBe (toBeBytes val.toNat)
    be = le.reverse ∧ leValue le = val.toNat ∧ beValue be = val.toNat ∧ (1 < le.length → le.getLast? ≠ some 0) ∧
      (1 < be.length → be.head? ≠ some 0) := by
  obtain ⟨hvalue, htop⟩ := trimBytesLe_spec (toLeBytes val.toNat)
  have hlt := val.toNat_lt
  have hle : leValue (trimBytesLe (toLeBytes val.toNat)) = val.toNat := by
    rw [hvalue, toLeBytes, leValue_range, Nat.mod_eq_of_lt (by omega)]
  have hbe : trimBytesBe (toBeBytes val.toNat) = (trimBytesLe (toLeBytes val.toNat)).reverse := by
    rw [toBeBytes_eq, trimBytesBe_reverse]
  refine ⟨hbe, hle, ?_, htop, ?_⟩
  · rw [hbe, beValue_reverse, hle]
  · rw [hbe, List.length_reverse, List.head?_reverse]
    exact htop

/-- A field of a result that is a text. -/
def textField (row : Json) (key : String) : Option String := (row.get? key).bind Json.asStr

/-- The daemon reads back the hex rendering, and the decimal one as a text; octal and binary it refuses. The tool of the
MCP server reads back all it writes. -/
theorem int_convert_reads_back (fromStr : String → Option Json) (val : Address) :
    (∀ (r : Rendering) (text : Bool),
      (Accepts routerIntConvert val (r.sent val text) ↔ r = .hex ∨ (r = .decimal ∧ text = true)) ∧
        (Accepts workerIntConvert val (r.sent val text) ↔ r = .hex ∨ (r = .decimal ∧ text = true))) ∧
    ∀ input : String,
      (∀ key ∈ ["dec", "hex", "bin"], ∃ s, textField (convertedRow input val.toNat) key = some s ∧
        intConvert fromStr (.str s) = .ok (.obj [("results", .arr [convertedRow s val.toNat])])) ∧
      ∃ sle sbe le be, textField (convertedRow input val.toNat) "bytes_le" = some sle ∧
        textField (convertedRow input val.toNat) "bytes_be" = some sbe ∧
        parseHexBytes sle = some (.ok le) ∧ parseHexBytes sbe = some (.ok be) ∧
        be = le.reverse ∧ leValue le = val.toNat ∧ beValue be = val.toNat ∧
        (1 < le.length → le.getLast? ≠ some 0) ∧ (1 < be.length → be.head? ≠ some 0) := by
  have hmax : val.toNat ≤ u64Max := Nat.le_of_lt_succ val.toNat_lt
  constructor
  · intro r text
    have hrouter : routerIntConvert = workerIntConvert := funext routerIntConvert_eq
    exact ⟨hrouter ▸ accepts_iff val r text, accepts_iff val r text⟩
  intro input
  constructor
  · intro key hkey
    have htexts := intConvert_texts fromStr hmax
    simp only [List.mem_cons, List.not_mem_nil, or_false] at hkey
    rcases hkey with rfl | rfl | rfl
    · exact ⟨_, rfl, htexts _ (by simp)⟩
    · exact ⟨_, rfl, htexts _ (by simp)⟩
    · exact ⟨_, rfl, htexts _ (by simp)⟩
  · exact ⟨_, _, _, _, rfl, rfl, parseHexBytes_hexEncode (withoutBlanks_hexEncode _),
      parseHexBytes_hexEncode (withoutBlanks_hexEncode _), trimmed_bytes val⟩

/-- Zero in octal is refused by both. -/
theorem octal_zero_refused :
    routerIntConvert (.obj [("value", Rendering.octal.sent 0 true)]) = .error "Invalid address: 0o0" ∧
      workerIntConvert (.obj [("value", Rendering.octal.sent 0 true)]) = .error "Invalid address: 0o0" ∧
      ¬ ∀ (val : Address) (r : Rendering) (text : Bool), Accepts routerIntConvert val (r.sent val text) := by
  have hlit : octalLit 0 = "0o0" := by decide +kernel
  have hparse : parseAddr "0o0" = .error "Invalid address: 0o0" := by decide +kernel
  have hworker : workerIntConvert (.obj [("value", Rendering.octal.sent 0 true)]) = .error "Invalid address: 0o0" := by
    show workerIntConvert (.obj [("value", .str (octalLit 0))]) = _
    rw [hlit, workerIntConvert_str, hparse]
    rfl
  have hrouter := (routerIntConvert_eq (.obj [("value", Rendering.octal.sent 0 true)])).trans hworker
  refine ⟨hrouter, hworker, fun h => ?_⟩
  have hok := h 0 .octal true
  rw [Accepts, hrouter] at hok
  cases hok

end IntConvert

end IdaRs
