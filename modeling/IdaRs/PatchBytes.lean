import IdaRs.Pooled

/-!
# The bytes of a patch (`value_to_bytes` of `src/server/mod.rs`)

`Spelling` are the ways to write a byte list that `patch` documents: a hex string, an array of numbers and an array of
address literals. `decoded_iff`: an array always decodes to its bytes; a hex string does exactly when no byte has a `0x`
in front, since the `0` of the prefix is kept as a digit.
-/

namespace IdaRs

namespace PatchBytes

open Serde Backend

/-- What may stand between the bytes of a hex string. -/
def isSeparator (c : Char) : Bool := isHexFiller c && c ≠ 'x' && c ≠ 'X'

/-- A byte of a hex string: separators, perhaps `0x` (or `0X` if `pre` is `some true`), and two digits. -/
structure HexByte where
  seps : List Char
  pre : Option Bool
  hi : Char
  lo : Char
  byte : UInt8
  seps_ok : ∀ c ∈ seps, isSeparator c
  value : radixValue 16 [hi, lo] = some byte.toNat

namespace HexByte

def prefixText : Option Bool → List Char
  | none => []
  | some upper => ['0', if upper then 'X' else 'x']

def text (b : HexByte) : List Char := b.seps ++ prefixText b.pre ++ [b.hi, b.lo]

end HexByte

inductive Radix
  | dec
  | hex
  | bin
  | oct
deriving DecidableEq

namespace Radix

def base : Radix → Nat
  | dec => 10
  | hex => 16
  | bin => 2
  | oct => 8

def text (upper : Bool) : Radix → List Char
  | dec => []
  | hex => ['0', if upper then 'X' else 'x']
  | bin => ['0', if upper then 'B' else 'b']
  | oct => ['0', if upper then 'O' else 'o']

end Radix

/-- An address literal of a byte. -/
structure Literal where
  radix : Radix
  upper : Bool
  digits : List Char
  byte : UInt8
  digits_ne : digits ≠ []
  value : radixValue radix.base digits = some byte.toNat

def Literal.text (l : Literal) : String := String.ofList (l.radix.text l.upper ++ l.digits)

inductive Spelling
  | string (bytes : List HexByte)
  | numbers (bytes : List UInt8)
  | literals (bytes : List Literal)

namespace Spelling

def bytes : Spelling → List UInt8
  | string bs => bs.map HexByte.byte
  | numbers bs => bs
  | literals ls => ls.map Literal.byte

def value : Spelling → Json
  | string bs => .str (String.ofList (bs.flatMap HexByte.text))
  | numbers bs => .arr (bs.map fun b => .int b.toNat)
  | literals ls => .arr (ls.map fun l => .str l.text)

/-- No byte of a hex string has a prefix. -/
def Plain : Spelling → Prop
  | string bs => ∀ b ∈ bs, b.pre = none
  | _ => True

end Spelling

/-! ## Hex strings -/

/-- Cleaning keeps the digits, whatever fills the places between them. -/
theorem cleanHex_eq {s : List Char} (h : ∀ c ∈ s, isAsciiHexdigit c ∨ isHexFiller c) :
    cleanHex s = .ok (s.filter isAsciiHexdigit) := by
  induction s with
  | nil => rfl
  | cons c cs ih =>
    have hcs := ih fun c' hc' => h c' (List.mem_cons_of_mem _ hc')
    rw [cleanHex, List.filter_cons]
    by_cases hd : isAsciiHexdigit c
    · rw [if_pos hd, if_pos hd, hcs]
      rfl
    · rw [if_neg hd, if_neg hd, if_pos ((h c (List.mem_cons_self ..)).resolve_left hd), hcs]

theorem hexPairs_length {s : List Char} {out : List UInt8} (h : hexPairs s = .ok out) : out.length = s.length / 2 := by
  induction s using hexPairs.induct generalizing out with
  | case1 a b cs n hn ih =>
    rw [hexPairs, hn] at h
    cases hp : hexPairs cs with
    | error e => rw [hp] at h; cases h
    | ok bs =>
      rw [hp] at h
      cases h
      rw [List.length_cons, ih hp, List.length_cons, List.length_cons]
      omega
  | case2 a b cs hn =>
    rw [hexPairs, hn] at h
    cases h
  | case3 s hs =>
    rw [hexPairs] at h
    · cases h
      match s, hs with
      | [], _ => rfl
      | [_], _ => simp
      | a :: b :: cs, hs => exact absurd rfl (hs a b cs)
    · exact hs

theorem filler_not_digit {c : Char} (h : isHexFiller c) : isAsciiHexdigit c = false := by
  simp only [isHexFiller, Bool.or_eq_true, decide_eq_true_eq] at h
  rcases h with (((((((((rfl | rfl) | rfl) | rfl) | rfl) | rfl) | rfl) | rfl) | rfl) | rfl) | rfl <;> decide

namespace HexByte

/-- The digits a byte leaves: those of its value, after the `0` of a prefix. -/
def digits (b : HexByte) : List Char := (if b.pre = none then [] else ['0']) ++ [b.hi, b.lo]

variable (b : HexByte)

theorem hi_digit : isAsciiHexdigit b.hi := radixValue_digits b.value b.hi (by simp)

theorem lo_digit : isAsciiHexdigit b.lo := radixValue_digits b.value b.lo (by simp)

theorem seps_filler {c : Char} (h : c ∈ b.seps) : isHexFiller c := by
  have := b.seps_ok c h
  simp only [isSeparator, Bool.and_eq_true] at this
  exact this.1.1

theorem text_ok : ∀ c ∈ b.text, isAsciiHexdigit c ∨ isHexFiller c := by
  intro c hc
  simp only [text, List.mem_append, List.mem_cons, List.not_mem_nil, or_false] at hc
  rcases hc with (hc | hc) | rfl | rfl
  · exact .inr (b.seps_filler hc)
  · cases hp : b.pre with
    | none => rw [hp] at hc; cases hc
    | some upper =>
      rw [hp] at hc
      have hall : (prefixText (some upper)).all (fun c => isAsciiHexdigit c || isHexFiller c) = true := by
        cases upper <;> decide
      simpa using List.all_eq_true.1 hall c hc
  · exact .inl b.hi_digit
  · exact .inl b.lo_digit

theorem filter_text : b.text.filter isAsciiHexdigit = b.digits := by
  have hseps : b.seps.filter isAsciiHexdigit = [] := by
    rw [List.filter_eq_nil_iff]
    intro c hc
    rw [filler_not_digit (b.seps_filler hc)]
    decide
  have hpre : (prefixText b.pre).filter isAsciiHexdigit = if b.pre = none then [] else ['0'] := by
    cases b.pre with
    | none => rfl
    | some upper => cases upper <;> decide
  simp [text, digits, hseps, hpre, b.hi_digit, b.lo_digit]

end HexByte

/-- Without prefixes the digits pair up as they were written. -/
theorem hexPairs_plain {bs : List HexByte} (h : ∀ b ∈ bs, b.pre = none) :
    hexPairs (bs.flatMap HexByte.digits) = .ok (bs.map HexByte.byte) := by
  induction bs with
  | nil => rfl
  | cons b bs ih =>
    have hb : b.digits = [b.hi, b.lo] := by rw [HexByte.digits, if_pos (h b (List.mem_cons_self ..))]; rfl
    have hv : fromStrRadix 16 255 [b.hi, b.lo] = some b.byte.toNat :=
      fromStrRadix_eq (List.cons_ne_nil _ _) b.value (Nat.le_of_lt_succ b.byte.toNat_lt)
    rw [List.flatMap_cons, hb, List.cons_append, List.cons_append, List.nil_append, hexPairs, hv,
      ih fun b' hb' => h b' (List.mem_cons_of_mem _ hb')]
    simp [Except.map]

/-- Every prefix leaves a digit more. -/
theorem length_digits (bs : List HexByte) :
    (bs.flatMap HexByte.digits).length = 2 * bs.length + bs.countP (·.pre ≠ none) := by
  induction bs with
  | nil => rfl
  | cons b bs ih =>
    rw [List.flatMap_cons, List.length_append, ih, List.length_cons, List.countP_cons]
    by_cases hp : b.pre = none
    · simp [HexByte.digits, hp]
      omega
    · simp [HexByte.digits, hp]
      omega

theorem valueToBytes_string (bs : List HexByte) :
    valueToBytes (Spelling.string bs).value =
      if bs.flatMap HexByte.digits = [] then .error (.invalidParams "no bytes provided")
      else if (bs.flatMap HexByte.digits).length % 2 ≠ 0 then .error (.invalidParams "hex string has odd length")
      else hexPairs (bs.flatMap HexByte.digits) := by
  have hok : ∀ c ∈ bs.flatMap HexByte.text, isAsciiHexdigit c ∨ isHexFiller c := by
    intro c hc
    obtain ⟨b, -, hcb⟩ := List.mem_flatMap.1 hc
    exact b.text_ok c hcb
  have hfilter : (bs.flatMap HexByte.text).filter isAsciiHexdigit = bs.flatMap HexByte.digits := by
    rw [List.filter_flatMap]
    exact congrArg (fun f => List.flatMap f bs) (funext HexByte.filter_text)
  rw [Spelling.value, valueToBytes, String.toList_ofList, cleanHex_eq hok, hfilter]
  rfl

theorem countP_prefix_eq_zero {bs : List HexByte} : bs.countP (·.pre ≠ none) = 0 ↔ ∀ b ∈ bs, b.pre = none := by
  rw [List.countP_eq_zero]
  simp

theorem string_iff {bs : List HexByte} (hne : bs ≠ []) :
    valueToBytes (Spelling.string bs).value = .ok (bs.map HexByte.byte) ↔ ∀ b ∈ bs, b.pre = none := by
  have hlen := length_digits bs
  have hpos := List.length_pos_iff.2 hne
  have hdigits : bs.flatMap HexByte.digits ≠ [] := by
    rw [← List.length_pos_iff]
    omega
  rw [valueToBytes_string, if_neg hdigits, ← countP_prefix_eq_zero]
  constructor
  · intro h
    split at h
    · cases h
    · have hpairs := hexPairs_length h
      rw [List.length_map] at hpairs
      omega
  · intro h
    rw [if_neg (by omega)]
    exact hexPairs_plain (countP_prefix_eq_zero.1 h)

/-! ## Arrays -/

theorem mapM_ok {α β ε : Type} {f : α → Except ε β} {g : α → β} {xs : List α} (h : ∀ x ∈ xs, f x = .ok (g x)) :
    xs.mapM f = .ok (xs.map g) := by
  induction xs with
  | nil => rfl
  | cons x xs ih =>
    rw [List.mapM_cons, h x (List.mem_cons_self ..), ih fun y hy => h y (List.mem_cons_of_mem _ hy)]
    rfl

namespace Literal

variable (l : Literal)

theorem digits_plain {c : Char} (h : c ∈ l.digits) : isWhitespace c = false ∧ c ≠ '_' :=
  let hp := toDigit_plain (radixValue_digits l.value c h)
  ⟨hp.1, hp.2.1⟩

theorem text_plain {c : Char} (h : c ∈ l.text.toList) : isWhitespace c = false ∧ c ≠ '_' := by
  have hpre : ∀ (radix : Radix) (upper : Bool), ∀ c ∈ radix.text upper, isWhitespace c = false ∧ c ≠ '_' := by
    intro radix upper c hc
    have hall : (radix.text upper).all (fun c => !isWhitespace c && decide (c ≠ '_')) = true := by
      cases radix <;> cases upper <;> decide
    simpa using List.all_eq_true.1 hall c hc
  rw [text, String.toList_ofList, List.mem_append] at h
  rcases h with h | h
  · exact hpre _ _ c h
  · exact l.digits_plain h

/-- What `parse_address` looks at. -/
theorem cleaned : (trim l.text.toList).filter (· ≠ '_') = l.radix.text l.upper ++ l.digits := by
  rw [trim_eq_self fun c hc => (l.text_plain hc).1, List.filter_eq_self.2]
  · rw [text, String.toList_ofList]
  · intro c hc
    simpa using (l.text_plain hc).2

theorem fromStrRadix_digits : fromStrRadix l.radix.base u64Max l.digits = some l.byte.toNat := by
  refine fromStrRadix_eq l.digits_ne l.value ?_
  have := l.byte.toNat_lt
  simp only [u64Max]
  omega

/-- A decimal literal has no radix letter in it. -/
theorem not_prefix_dec (h : l.radix = .dec) {c : Char} (hc : toDigit 10 c = none) : ¬ ['0', c] <+: l.digits := by
  intro hp
  have hd := radixValue_digits l.value c (hp.subset (by simp))
  rw [h] at hd
  simp [Radix.base, hc] at hd

theorem parse : parseAddress l.text = .ok l.byte.toNat := by
  have hdigits := l.fromStrRadix_digits
  simp only [parseAddress, l.cleaned]
  cases hr : l.radix with
  | dec =>
    have hx := l.not_prefix_dec hr (c := 'x') (by decide)
    have hX := l.not_prefix_dec hr (c := 'X') (by decide)
    have hb := l.not_prefix_dec hr (c := 'b') (by decide)
    have hB := l.not_prefix_dec hr (c := 'B') (by decide)
    have ho := l.not_prefix_dec hr (c := 'o') (by decide)
    have hO := l.not_prefix_dec hr (c := 'O') (by decide)
    rw [hr] at hdigits
    simp only [Radix.text, List.nil_append, hx, hX, hb, hB, ho, hO, or_self, if_false]
    rw [show fromStrRadix 10 u64Max l.digits = some l.byte.toNat from hdigits]
  | hex =>
    rw [hr] at hdigits
    cases l.upper <;> simp [Radix.text, show fromStrRadix 16 u64Max l.digits = some l.byte.toNat from hdigits]
  | bin =>
    rw [hr] at hdigits
    cases l.upper <;> simp [Radix.text, show fromStrRadix 2 u64Max l.digits = some l.byte.toNat from hdigits]
  | oct =>
    rw [hr] at hdigits
    cases l.upper <;> simp [Radix.text, show fromStrRadix 8 u64Max l.digits = some l.byte.toNat from hdigits]

theorem elementByte_text : elementByte (.str l.text) = .ok l.byte := by
  rw [elementByte, l.parse]
  change byteOf l.byte.toNat = _
  rw [byteOf, if_pos (Nat.le_of_lt_succ l.byte.toNat_lt), UInt8.ofNat_toNat]

end Literal

theorem literals_decoded {ls : List Literal} (hne : ls ≠ []) :
    valueToBytes (Spelling.literals ls).value = .ok (ls.map Literal.byte) := by
  have hm : (ls.map fun l => Json.str l.text).mapM elementByte = .ok (ls.map Literal.byte) := by
    rw [List.mapM_map]
    exact mapM_ok fun l _ => l.elementByte_text
  rw [Spelling.value, valueToBytes, hm]
  simp [bind, Except.bind, hne, pure, Except.pure]

/-- Every spelling of a non-empty byte list is decoded to it, except the hex strings with a `0x` in front of a byte; and
the pooled `patch_bytes` sends its child one of these spellings. -/
theorem patch_bytes_decoded_iff (s : Spelling) (hne : s.bytes ≠ []) :
    (valueToBytes s.value = .ok s.bytes ↔ s.Plain) ∧
    ∀ addr name offset t, ∃ args, childCall ⟨.patchBytes addr name offset s.bytes, t⟩ = .ok (.patch, args) ∧
      args.lookup "bytes" = some (Spelling.numbers s.bytes).value ∧
      valueToBytes (Spelling.numbers s.bytes).value = .ok s.bytes := by
  refine ⟨?_, fun addr name offset t => ⟨_, rfl, rfl, valueToBytes_arr hne⟩⟩
  cases s with
  | string bs => exact string_iff fun h => hne (by rw [h]; rfl)
  | numbers bs => exact iff_of_true (valueToBytes_arr hne) trivial
  | literals ls => exact iff_of_true (literals_decoded fun h => hne (by rw [h]; rfl)) trivial

/-- The byte 0x90, after a blank unless it is the first. -/
def nop (first : Bool) (pre : Option Bool) : HexByte where
  seps := if first then [] else [' ']
  pre := pre
  hi := '9'
  lo := '0'
  byte := 0x90
  seps_ok := by cases first <;> exact List.all_eq_true.1 (by decide)
  value := by decide

theorem patch_bytes_decoded_iff_plain :
    valueToBytes (.str "90 90") = .ok [0x90, 0x90] :=
  (patch_bytes_decoded_iff (.string [nop true none, nop false none]) (by decide)).1.2 (by simp [Spelling.Plain, nop])

/-- Two bytes with a prefix each are read as three. -/
theorem prefixed_bytes_regrouped :
    (Spelling.string [nop true (some false), nop false (some false)]).value = .str "0x90 0x90" ∧
    (Spelling.string [nop true (some false), nop false (some false)]).bytes = [0x90, 0x90] ∧
    valueToBytes (.str "0x90 0x90") = .ok [0x09, 0x00, 0x90] := by
  refine ⟨rfl, rfl, ?_⟩
  have h := valueToBytes_string [nop true (some false), nop false (some false)]
  exact h.trans rfl

end PatchBytes

end IdaRs
