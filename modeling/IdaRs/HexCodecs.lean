import IdaRs.Dispatch
import IdaRs.FindBytes

/-!
# Bytes and addresses as text (`src/daemon/worker.rs` 850-871, `src/ida/handlers/mod.rs` 30-53, 99-134)

`parse_hex_bytes` cuts a text at byte positions and gives each cut to `u8::from_str_radix`: a cut inside a character
is a panic, and a sign in front of one digit is taken. `parse_hex_bytes_exact_iff` says for which texts neither matters.
`byte_codecs_agree`: what the encoders write is read back.
-/

namespace IdaRs

namespace Handlers

open Backend (parsePattern patternByte trimStartHex bytePairs)

/-! ### Slices of a text -/

/-- `str::len`. -/
def byteLen (s : List Char) : Nat := (s.map Char.utf8Size).sum

/-- `&s[n..]`, or `none`: a panic where `n` is no boundary of a character. -/
def sliceFrom : Nat → List Char → Option (List Char)
  | 0, s => some s
  | _ + 1, [] => none
  | n + 1, c :: cs => if c.utf8Size ≤ n + 1 then sliceFrom (n + 1 - c.utf8Size) cs else none

/-- `&s[..n]`. -/
def sliceTo : Nat → List Char → Option (List Char)
  | 0, _ => some []
  | _ + 1, [] => none
  | n + 1, c :: cs => if c.utf8Size ≤ n + 1 then (sliceTo (n + 1 - c.utf8Size) cs).map (c :: ·) else none

/-- `&s[i..j]`. -/
def slice (s : List Char) (i j : Nat) : Option (List Char) := (sliceFrom i s).bind (sliceTo (j - i))

/-! ### The codecs -/

def hexEncode (bytes : List UInt8) : String := String.ofList (bytes.flatMap hexByte)

/-- The bytes of a text without blanks, from the positions on. `collect` ends at the first error. -/
def hexBytesAt (cleaned : List Char) : List Nat → Option (Except String (List UInt8))
  | [] => some (.ok [])
  | i :: is => do
    let pair ← slice cleaned i (i + 2)
    match fromStrRadix 16 255 pair with
    | none => some (.error ("Invalid hex byte at position " ++ toString i))
    | some b => (hexBytesAt cleaned is).map fun bytes => bytes.map (UInt8.ofNat b :: ·)

/-- `s.chars().filter(|c| !c.is_whitespace())`. -/
def withoutBlanks (s : String) : List Char := s.toList.filter fun c => !isWhitespace c

def parseHexBytes (s : String) : Option (Except String (List UInt8)) :=
  let cleaned := withoutBlanks s
  if byteLen cleaned % 2 ≠ 0 then some (.error "Hex bytes string has odd length")
  else hexBytesAt cleaned ((List.range (byteLen cleaned / 2)).map (2 * ·))

/-! ### What a pair of bytes is -/

/-- The text is two hexadecimal digits for each byte. -/
inductive HexText : List Char → List UInt8 → Prop
  | nil : HexText [] []
  | cons {hi lo : Char} {x y : Nat} {s : List Char} {bytes : List UInt8} (hhi : toDigit 16 hi = some x)
      (hlo : toDigit 16 lo = some y) (h : HexText s bytes) :
      HexText (hi :: lo :: s) (UInt8.ofNat (16 * x + y) :: bytes)

theorem HexText.isSome_head {c : Char} {s : List Char} {bytes : List UInt8} (h : HexText (c :: s) bytes) :
    (toDigit 16 c).isSome := by
  cases h with
  | cons hhi => exact Option.isSome_iff_exists.2 ⟨_, hhi⟩

/-- The two characters are read as a byte: two digits, or a sign and a digit. -/
def isBytePair (a b : Char) : Bool := (isAsciiHexdigit a || a = '+') && isAsciiHexdigit b

/-- The text is pairs that are read as a byte. -/
inductive BytePairs : List Char → Prop
  | nil : BytePairs []
  | cons {a b : Char} {s : List Char} (hab : isBytePair a b) (h : BytePairs s) : BytePairs (a :: b :: s)

/-- The next two bytes are whole characters that are not read as a byte. -/
def RefusesNext : List Char → Prop
  | a :: b :: _ => a.utf8Size = 2 ∨ (a.utf8Size = 1 ∧ b.utf8Size = 1 ∧ isBytePair a b = false)
  | [a] => a.utf8Size = 2
  | [] => False

/-- `parse_hex_bytes` meets a pair to refuse before it cuts a character. -/
def Refused (s : List Char) : Prop := ∃ read rest, s = read ++ rest ∧ BytePairs read ∧ RefusesNext rest

/-! ### Slices at a boundary -/

theorem byteLen_cons (c : Char) (s : List Char) : byteLen (c :: s) = c.utf8Size + byteLen s := by simp [byteLen]

theorem byteLen_append (s t : List Char) : byteLen (s ++ t) = byteLen s + byteLen t := by simp [byteLen]

theorem sliceFrom_append (s rest : List Char) : sliceFrom (byteLen s) (s ++ rest) = some rest := by
  induction s with
  | nil => cases rest <;> rfl
  | cons c s ih =>
    have hc := c.utf8Size_pos
    obtain ⟨n, hn⟩ : ∃ n, byteLen (c :: s) = n + 1 := ⟨byteLen (c :: s) - 1, by rw [byteLen_cons]; omega⟩
    have hrest : n + 1 - c.utf8Size = byteLen s := by rw [← hn, byteLen_cons]; omega
    rw [hn, List.cons_append, sliceFrom, if_pos (by rw [← hn, byteLen_cons]; omega), hrest, ih]

theorem slice_append (s rest : List Char) (n : Nat) :
    slice (s ++ rest) (byteLen s) (byteLen s + n) = sliceTo n rest := by
  rw [slice, sliceFrom_append, Option.bind_some, Nat.add_sub_cancel_left]

theorem sliceTo_pair {a b : Char} (ha : a.utf8Size = 1) (hb : b.utf8Size = 1) (s : List Char) :
    sliceTo 2 (a :: b :: s) = some [a, b] := by
  simp [sliceTo, ha, hb]

theorem sliceTo_wide {a : Char} (ha : a.utf8Size = 2) (s : List Char) : sliceTo 2 (a :: s) = some [a] := by
  simp [sliceTo, ha]

/-- Two bytes at the start of a text are two characters, one, or not whole characters. -/
theorem sliceTo_two (s : List Char) :
    (∃ a b t, s = a :: b :: t ∧ a.utf8Size = 1 ∧ b.utf8Size = 1) ∨ (∃ a t, s = a :: t ∧ a.utf8Size = 2) ∨
      sliceTo 2 s = none := by
  rcases s with _ | ⟨a, s⟩
  · exact .inr (.inr rfl)
  have ha := a.utf8Size_pos
  by_cases h2 : a.utf8Size = 2
  · exact .inr (.inl ⟨a, s, rfl, h2⟩)
  by_cases h1 : a.utf8Size = 1
  · rcases s with _ | ⟨b, s⟩
    · exact .inr (.inr (by simp [sliceTo, h1]))
    · have hb := b.utf8Size_pos
      by_cases hb1 : b.utf8Size = 1
      · exact .inl ⟨a, b, s, rfl, h1, hb1⟩
      · refine .inr (.inr ?_)
        have hlarge : ¬ b.utf8Size ≤ 1 := by omega
        simp [sliceTo, h1, hlarge]
  · refine .inr (.inr ?_)
    have hlarge : ¬ a.utf8Size ≤ 2 := by omega
    simp [sliceTo, hlarge]

/-! ### A pair as a number -/

theorem utf8Size_of_lt {c : Char} (h : c.toNat < 128) : c.utf8Size = 1 := by
  have hval : c.val.toNat = c.toNat := rfl
  rw [Char.utf8Size, if_pos]
  rw [UInt32.le_iff_toNat_le, hval]
  show c.toNat ≤ 127
  omega

theorem utf8Size_of_digit {radix : Nat} {c : Char} (h : (toDigit radix c).isSome) : c.utf8Size = 1 := by
  have hr := toDigit_range h
  exact utf8Size_of_lt (by omega)

theorem utf8Size_of_isBytePair {a b : Char} (h : isBytePair a b) : a.utf8Size = 1 ∧ b.utf8Size = 1 := by
  simp only [isBytePair, Bool.and_eq_true, Bool.or_eq_true, decide_eq_true_eq] at h
  refine ⟨?_, utf8Size_of_digit h.2⟩
  rcases h.1 with ha | rfl
  · exact utf8Size_of_digit ha
  · decide

theorem toDigit_lt {radix d : Nat} {c : Char} (h : toDigit radix c = some d) : d < radix := by
  rw [toDigit, Option.ite_none_right_eq_some] at h
  exact Option.some.inj h.2 ▸ h.1

theorem fromStrRadix_digits {a b : Char} {x y : Nat} (ha : toDigit 16 a = some x) (hb : toDigit 16 b = some y) :
    fromStrRadix 16 255 [a, b] = some (16 * x + y) := by
  have hx := toDigit_lt ha
  have hy := toDigit_lt hb
  exact fromStrRadix_eq (List.cons_ne_nil _ _) (by simp [radixValue, ha, hb]) (by omega)

/-- Without a sign in front, a text of digits is read as digits only. -/
theorem fromStrRadix_unsigned {radix max : Nat} {s : List Char} (hsign : s.head? ≠ some '+')
    (h : (fromStrRadix radix max s).isSome) : ∀ c ∈ s, (toDigit radix c).isSome := by
  rcases s with _ | ⟨c, s⟩
  · simp
  have hc : c ≠ '+' := fun hc => hsign (by rw [List.head?_cons, hc])
  obtain ⟨n, hn⟩ := Option.isSome_iff_exists.1 h
  rw [fromStrRadix] at hn
  · exact radixValue_digits (Option.filter_eq_some_iff.1 hn).1
  · rintro rest heq
    exact hc (List.cons.inj heq).1
  · simp

theorem fromStrRadix_pair (a b : Char) : (fromStrRadix 16 255 [a, b]).isSome = isBytePair a b := by
  by_cases hb : (toDigit 16 b).isSome
  · obtain ⟨y, hy⟩ := Option.isSome_iff_exists.1 hb
    have hlt := toDigit_lt hy
    by_cases hplus : a = '+'
    · subst hplus
      have hle : y ≤ 255 := by omega
      simp [fromStrRadix, radixValue, isBytePair, isAsciiHexdigit, hy, Option.filter, hle]
    · by_cases ha : (toDigit 16 a).isSome
      · obtain ⟨x, hx⟩ := Option.isSome_iff_exists.1 ha
        simp [fromStrRadix_digits hx hy, isBytePair, isAsciiHexdigit, hx, hy]
      · have hnone : ¬ (fromStrRadix 16 255 [a, b]).isSome := fun h =>
          ha (fromStrRadix_unsigned (by simpa using hplus) h a (List.mem_cons_self ..))
        simp [hnone, isBytePair, isAsciiHexdigit, ha, hplus]
  · have hno : radixValue 16 [b] = none := by simp [radixValue, Option.not_isSome_iff_eq_none.1 hb]
    have hnone : ¬ (fromStrRadix 16 255 [a, b]).isSome := by
      intro h
      by_cases hplus : a = '+'
      · subst hplus
        simp [fromStrRadix, hno] at h
      · exact hb (fromStrRadix_unsigned (by simpa using hplus) h b (by simp))
    simp [hnone, isBytePair, isAsciiHexdigit, hb]

theorem fromStrRadix_wide {a : Char} (ha : a.utf8Size = 2) : fromStrRadix 16 255 [a] = none := by
  have hplus : [a].head? ≠ some '+' := by
    intro h
    rw [Option.some.inj h] at ha
    exact absurd ha (by decide)
  by_contra h
  have hdigit := fromStrRadix_unsigned hplus (Option.isSome_iff_ne_none.2 h) a (List.mem_cons_self ..)
  have := utf8Size_of_digit hdigit
  omega

/-! ### The loop over the pairs -/

section

variable {s rest : List Char}

theorem hexBytesAt_cons {k m : Nat} (hk : byteLen s = 2 * k) :
    hexBytesAt (s ++ rest) ((List.range' k (m + 1)).map (2 * ·)) = (sliceTo 2 rest).bind fun pair =>
      match fromStrRadix 16 255 pair with
      | none => some (.error ("Invalid hex byte at position " ++ toString (2 * k)))
      | some b => (hexBytesAt (s ++ rest) ((List.range' (k + 1) m).map (2 * ·))).map fun bytes =>
          bytes.map (UInt8.ofNat b :: ·) := by
  have hslice := slice_append s rest 2
  rw [hk] at hslice
  rw [List.range'_succ, List.map_cons, hexBytesAt, hslice]
  rfl

theorem hexBytesAt_pair {k m n : Nat} {a b : Char} (hk : byteLen s = 2 * k) (ha : a.utf8Size = 1)
    (hb : b.utf8Size = 1) (hn : fromStrRadix 16 255 [a, b] = some n) :
    hexBytesAt (s ++ a :: b :: rest) ((List.range' k (m + 1)).map (2 * ·)) =
      (hexBytesAt ((s ++ [a, b]) ++ rest) ((List.range' (k + 1) m).map (2 * ·))).map fun bytes =>
        bytes.map (UInt8.ofNat n :: ·) := by
  rw [hexBytesAt_cons hk, sliceTo_pair ha hb, Option.bind_some, hn, List.append_assoc]
  rfl

theorem byteLen_pair {k : Nat} {a b : Char} (hk : byteLen s = 2 * k) (ha : a.utf8Size = 1) (hb : b.utf8Size = 1) :
    byteLen (s ++ [a, b]) = 2 * (k + 1) := by
  rw [byteLen_append, hk]
  simp [byteLen, ha, hb]
  omega

/-- Digits are read as their bytes. -/
theorem hexBytesAt_hexText {bytes : List UInt8} (h : HexText rest bytes) {k : Nat} (hk : byteLen s = 2 * k) :
    byteLen rest = 2 * bytes.length ∧
      hexBytesAt (s ++ rest) ((List.range' k bytes.length).map (2 * ·)) = some (.ok bytes) := by
  induction h generalizing s k with
  | nil => exact ⟨rfl, rfl⟩
  | @cons hi lo x y t bytes hhi hlo h ih =>
    have h1 := utf8Size_of_digit (Option.isSome_iff_exists.2 ⟨x, hhi⟩)
    have h2 := utf8Size_of_digit (Option.isSome_iff_exists.2 ⟨y, hlo⟩)
    obtain ⟨hlen, hread⟩ := ih (byteLen_pair hk h1 h2)
    constructor
    · rw [byteLen_cons, byteLen_cons, hlen, List.length_cons]
      omega
    · rw [List.length_cons, hexBytesAt_pair hk h1 h2 (fromStrRadix_digits hhi hlo), hread]
      rfl

/-- A pair to refuse, behind pairs that are read, is an error. -/
theorem hexBytesAt_refused {read t : List Char} (hread : BytePairs read) (ht : RefusesNext t) {k m : Nat}
    (hk : byteLen s = 2 * k) (hm : byteLen (read ++ t) = 2 * m) :
    ∃ e, hexBytesAt (s ++ (read ++ t)) ((List.range' k m).map (2 * ·)) = some (.error e) := by
  induction hread generalizing s k m with
  | nil =>
    rw [List.nil_append] at hm ⊢
    rcases t with _ | ⟨a, t⟩
    · exact ht.elim
    obtain ⟨m, rfl⟩ : ∃ n, m = n + 1 := ⟨m - 1, by
      have := a.utf8Size_pos
      rw [byteLen_cons] at hm
      omega⟩
    rw [hexBytesAt_cons hk]
    by_cases ha : a.utf8Size = 2
    · rw [sliceTo_wide ha, Option.bind_some, fromStrRadix_wide ha]
      exact ⟨_, rfl⟩
    · rcases t with _ | ⟨b, t⟩
      · exact absurd ht ha
      · obtain ⟨h1, h2, hab⟩ := ht.resolve_left ha
        have hnone : fromStrRadix 16 255 [a, b] = none := by
          rw [← Option.not_isSome_iff_eq_none, fromStrRadix_pair, hab]
          exact Bool.false_ne_true
        rw [sliceTo_pair h1 h2, Option.bind_some, hnone]
        exact ⟨_, rfl⟩
  | @cons a b read hab hread ih =>
    obtain ⟨h1, h2⟩ := utf8Size_of_isBytePair hab
    obtain ⟨n, hn⟩ := Option.isSome_iff_exists.1 ((fromStrRadix_pair a b).trans hab)
    rw [List.cons_append, List.cons_append, byteLen_cons, byteLen_cons, h1, h2] at hm
    obtain ⟨m, rfl⟩ : ∃ l, m = l + 1 := ⟨m - 1, by omega⟩
    obtain ⟨e, he⟩ := ih (byteLen_pair hk h1 h2) (show byteLen (read ++ t) = 2 * m by omega)
    refine ⟨e, ?_⟩
    rw [List.cons_append, List.cons_append, hexBytesAt_pair hk h1 h2 hn, he]
    rfl

/-- An error comes from a pair to refuse. -/
theorem refused_of_error {k m : Nat} {e : String} (hk : byteLen s = 2 * k)
    (h : hexBytesAt (s ++ rest) ((List.range' k m).map (2 * ·)) = some (.error e)) : Refused rest := by
  induction m generalizing s rest k with
  | zero => cases h
  | succ m ih =>
    rcases sliceTo_two rest with ⟨a, b, t, rfl, h1, h2⟩ | ⟨a, t, rfl, h2⟩ | hnone
    · cases hn : fromStrRadix 16 255 [a, b] with
      | none =>
        have hab : isBytePair a b = false := by rw [← fromStrRadix_pair, hn]; rfl
        exact ⟨[], _, rfl, .nil, .inr ⟨h1, h2, hab⟩⟩
      | some n =>
        rw [hexBytesAt_pair hk h1 h2 hn] at h
        have hab : isBytePair a b := by rw [← fromStrRadix_pair, hn]; rfl
        have htail : hexBytesAt ((s ++ [a, b]) ++ t) ((List.range' (k + 1) m).map (2 * ·)) = some (.error e) := by
          obtain ⟨r, hr, hmap⟩ := Option.map_eq_some_iff.1 h
          cases r with
          | error e' => rw [hr, ← hmap]; rfl
          | ok bytes => cases hmap
        obtain ⟨read, t', rfl, hread, ht'⟩ := ih (byteLen_pair hk h1 h2) htail
        exact ⟨a :: b :: read, t', rfl, .cons hab hread, ht'⟩
    · refine ⟨[], _, rfl, .nil, ?_⟩
      rcases t with _ | ⟨b, t⟩
      · exact h2
      · exact .inl h2
    · rw [hexBytesAt_cons hk, hnone] at h
      cases h

end

/-! ### Patches -/

theorem parseHexBytes_even {s : String} (h : byteLen (withoutBlanks s) % 2 = 0) : parseHexBytes s =
    hexBytesAt ([] ++ withoutBlanks s) ((List.range' 0 (byteLen (withoutBlanks s) / 2)).map (2 * ·)) := by
  rw [parseHexBytes, if_neg (by omega), List.range_eq_range', List.nil_append]

/-- A text that is digits but for its blanks is read as its bytes. -/
theorem parseHexBytes_hexText {s : String} {bytes : List UInt8} (h : HexText (withoutBlanks s) bytes) :
    parseHexBytes s = some (.ok bytes) := by
  obtain ⟨hlen, hread⟩ := hexBytesAt_hexText (s := []) h (k := 0) rfl
  rw [parseHexBytes_even (by omega), hlen, Nat.mul_div_cancel_left _ (by decide)]
  exact hread

/-- `parse_hex_bytes` returns, and reads exactly the texts of digits. -/
def ParsesExactly (s : String) : Prop :=
  ∃ r, parseHexBytes s = some r ∧ ∀ bytes, r = .ok bytes ↔ HexText (withoutBlanks s) bytes

/-- `parse_hex_bytes` is total and exact on the texts of odd length, on those with a pair that it refuses before it cuts
a character, and on those of digits; so not on those with a sign that it takes, nor where it cuts a character. -/
theorem parse_hex_bytes_exact_iff (s : String) :
    ParsesExactly s ↔
      byteLen (withoutBlanks s) % 2 = 1 ∨ Refused (withoutBlanks s) ∨ ∃ bytes, HexText (withoutBlanks s) bytes := by
  constructor
  · rintro ⟨r, hr, hexact⟩
    by_cases hodd : byteLen (withoutBlanks s) % 2 = 1
    · exact .inl hodd
    refine .inr ?_
    cases r with
    | error e =>
      rw [parseHexBytes_even (by omega)] at hr
      exact .inl (refused_of_error rfl hr)
    | ok bytes => exact .inr ⟨bytes, (hexact bytes).1 rfl⟩
  · intro h
    have hsound : ∀ e, parseHexBytes s = some (.error e) → ParsesExactly s := by
      intro e he
      refine ⟨_, he, fun bytes => iff_of_false (by rintro ⟨⟩) fun hbytes => ?_⟩
      rw [parseHexBytes_hexText hbytes] at he
      cases he
    by_cases hodd : byteLen (withoutBlanks s) % 2 = 1
    · refine hsound "Hex bytes string has odd length" ?_
      rw [parseHexBytes, if_pos (by omega)]
    rcases h.resolve_left hodd with ⟨read, t, heq, hread, ht⟩ | ⟨bytes, hbytes⟩
    · have hm : byteLen (read ++ t) = 2 * (byteLen (withoutBlanks s) / 2) := by rw [← heq]; omega
      obtain ⟨e, he⟩ := hexBytesAt_refused (s := []) hread ht (k := 0) rfl hm
      rw [← heq] at he
      exact hsound e ((parseHexBytes_even (by omega)).trans he)
    · refine ⟨_, parseHexBytes_hexText hbytes, fun bytes' => ⟨?_, fun h' => ?_⟩⟩
      · rintro ⟨⟩
        exact hbytes
      · exact Option.some.inj ((parseHexBytes_hexText hbytes).symm.trans (parseHexBytes_hexText h'))

/-- A sign is taken for a digit, and a character of two bytes is cut. -/
theorem sign_taken_and_char_cut : parseHexBytes "+5" = some (.ok [5]) ∧ ¬ ParsesExactly "+5" ∧
    parseHexBytes "aéb" = none ∧ ¬ ParsesExactly "aéb" := by
  have hsign : parseHexBytes "+5" = some (.ok [5]) := by decide +kernel
  have hcut : parseHexBytes "aéb" = none := by decide +kernel
  refine ⟨hsign, ?_, hcut, ?_⟩
  · rintro ⟨r, hr, hexact⟩
    have hok : r = .ok [5] := Option.some.inj (hr.symm.trans hsign)
    have htext : HexText ['+', '5'] [5] := (hexact [5]).1 hok
    exact absurd htext.isSome_head (by decide)
  · rintro ⟨r, hr, -⟩
    rw [hcut] at hr
    cases hr

/-! ### Round trips -/

theorem hexText_hexByte (bytes : List UInt8) : HexText (bytes.flatMap hexByte) bytes := by
  induction bytes with
  | nil => exact .nil
  | cons b bytes ih =>
    have hb := b.toNat_lt
    have hval : UInt8.ofNat (16 * (b.toNat / 16) + b.toNat % 16) = b := by
      rw [Nat.div_add_mod, UInt8.ofNat_toNat]
    have hcons := HexText.cons (toDigit_digitChar (b.toNat / 16) (by omega))
      (toDigit_digitChar (b.toNat % 16) (by omega)) ih
    rwa [hval] at hcons

/-- What `hex_encode` writes is read back, whatever blanks are put into it. -/
theorem parseHexBytes_hexEncode {bytes : List UInt8} {s : String} (hs : withoutBlanks s = (hexEncode bytes).toList) :
    parseHexBytes s = some (.ok bytes) := by
  refine parseHexBytes_hexText ?_
  rw [hs, hexEncode, String.toList_ofList]
  exact hexText_hexByte bytes

theorem withoutBlanks_hexEncode (bytes : List UInt8) : withoutBlanks (hexEncode bytes) = (hexEncode bytes).toList := by
  rw [withoutBlanks, List.filter_eq_self]
  intro c hc
  rw [hexEncode, String.toList_ofList, List.mem_flatMap] at hc
  obtain ⟨b, -, hc⟩ := hc
  have hb := b.toNat_lt
  rcases List.mem_pair.1 hc with rfl | rfl
  · simp [(digitChar_plain (b.toNat / 16) (by omega)).1]
  · simp [(digitChar_plain (b.toNat % 16) (by omega)).1]

/-- How a pattern may write one of its bytes. -/
inductive PatternToken : List Char → Option UInt8 → Prop
  | wildcard : PatternToken ['?', '?'] none
  | byte {hi lo : Char} {x y : Nat} (hhi : toDigit 16 hi = some x) (hlo : toDigit 16 lo = some y) :
      PatternToken [hi, lo] (some (UInt8.ofNat (16 * x + y)))

namespace PatternToken

variable {tok : List Char} {p : Option UInt8}

theorem patternByte_eq (h : PatternToken tok p) : patternByte tok = .ok p := by
  cases h with
  | wildcard => rfl
  | @byte hi lo x y hhi hlo =>
    have hne : ¬ ([hi, lo] = ['?'] ∨ [hi, lo] = ['?', '?']) := by
      rintro (h | h)
      · simp at h
      · obtain ⟨rfl, -⟩ := List.cons.inj h
        exact absurd (Option.isSome_iff_exists.2 ⟨x, hhi⟩) (by decide)
    have htrim : trimStartHex [hi, lo] = [hi, lo] := by
      rw [trimStartHex]
      rintro rest heq
      obtain ⟨-, rfl, -⟩ : hi = '0' ∧ lo = 'x' ∧ [] = rest := by simpa using heq
      exact absurd (Option.isSome_iff_exists.2 ⟨y, hlo⟩) (by decide)
    rw [patternByte, if_neg hne, htrim, fromStrRadix_digits hhi hlo]

theorem two (h : PatternToken tok p) : ∃ a b, tok = [a, b] := by
  cases h with
  | wildcard => exact ⟨_, _, rfl⟩
  | byte => exact ⟨_, _, rfl⟩

/-- The characters of a token are ASCII and no blanks. -/
theorem plain (h : PatternToken tok p) : ∀ c ∈ tok, isWhitespace c = false ∧ c.toNat < 128 := by
  have hdigit : ∀ {c : Char} {d : Nat}, toDigit 16 c = some d → isWhitespace c = false ∧ c.toNat < 128 := by
    intro c d hd
    have hsome : (toDigit 16 c).isSome := Option.isSome_iff_exists.2 ⟨d, hd⟩
    have hr := toDigit_range hsome
    exact ⟨(toDigit_plain hsome).1, by omega⟩
  cases h with
  | wildcard =>
    intro c hc
    rcases List.mem_pair.1 hc with rfl | rfl
    · decide
    · decide
  | byte hhi hlo =>
    intro c hc
    rcases List.mem_pair.1 hc with rfl | rfl
    · exact hdigit hhi
    · exact hdigit hlo

end PatternToken

/-- A text of ASCII characters is its bytes. -/
theorem toUTF8_ascii {s : List Char} (h : ∀ c ∈ s, c.toNat < 128) :
    (String.ofList s).toUTF8.data.toList = s.map fun c => UInt8.ofNat c.toNat := by
  have hbytes : (String.ofList s).toUTF8.data.toList = s.flatMap String.utf8EncodeChar := by
    rw [String.toUTF8_eq_toByteArray, String.toByteArray_ofList, List.utf8Encode]
    simp
  rw [hbytes]
  clear hbytes
  induction s with
  | nil => rfl
  | cons c s ih =>
    have hc : String.utf8EncodeChar c = [UInt8.ofNat c.toNat] :=
      String.utf8EncodeChar_eq_singleton (utf8Size_of_lt (h c (List.mem_cons_self ..)))
    rw [List.flatMap_cons, hc, ih fun d hd => h d (List.mem_cons_of_mem _ hd)]
    rfl

theorem fromUtf8Lossy_ascii {a b : Char} (ha : a.toNat < 128) (hb : b.toNat < 128) :
    fromUtf8Lossy [UInt8.ofNat a.toNat, UInt8.ofNat b.toNat] = [a, b] := by
  have hchar : ∀ {c : Char}, c.toNat < 128 → UInt8.ofNat c.toNat < 0x80 ∧
      Char.ofNat (UInt8.ofNat c.toNat).toNat = c := by
    intro c hc
    have hn : (UInt8.ofNat c.toNat).toNat = c.toNat := UInt8.toNat_ofNat_of_lt' (by show c.toNat < 256; omega)
    refine ⟨?_, by rw [hn, Char.ofNat_toNat]⟩
    rw [UInt8.lt_iff_toNat_lt, hn]
    exact hc
  simp only [fromUtf8Lossy, List.length_cons, List.length_nil, utf8Chars, hchar ha, hchar hb, if_true]

/-- A text that begins and ends without a blank. -/
theorem trim_of_ends {s : List Char} (hfirst : ∀ c ∈ s.head?, isWhitespace c = false)
    (hlast : ∀ c ∈ s.getLast?, isWhitespace c = false) : trim s = s := by
  have hdrop : ∀ {l : List Char}, (∀ c ∈ l.head?, isWhitespace c = false) → l.dropWhile isWhitespace = l := by
    intro l hl
    cases l with
    | nil => rfl
    | cons c l =>
      have hc : isWhitespace c = false := hl c rfl
      rw [List.dropWhile_cons_of_neg (by simp [hc])]
  rw [trim, hdrop hfirst, hdrop (by rwa [List.head?_reverse]), List.reverse_reverse]

/-! ### Patterns -/

section

variable {toks : List (List Char)} {ps : List (Option UInt8)}

theorem mapM_patternByte (h : List.Forall₂ PatternToken toks ps) : toks.mapM patternByte = .ok ps := by
  induction h with
  | nil => rfl
  | cons htok _ ih => rw [List.mapM_cons, htok.patternByte_eq, ih]; rfl

theorem plain_flatten (h : List.Forall₂ PatternToken toks ps) :
    ∀ c ∈ toks.flatten, isWhitespace c = false ∧ c.toNat < 128 := by
  induction h with
  | nil => simp
  | cons htok _ ih =>
    intro c hc
    rw [List.flatten_cons, List.mem_append] at hc
    exact hc.elim (htok.plain c) (ih c)

/-- The chunks of the compact form are its tokens. -/
theorem chunks_flatten (h : List.Forall₂ PatternToken toks ps) :
    (bytePairs (toks.flatten.map fun c => UInt8.ofNat c.toNat)).map fromUtf8Lossy = toks ∧
      toks.flatten.length = 2 * toks.length := by
  induction h with
  | nil => exact ⟨rfl, rfl⟩
  | @cons tok p toks ps htok h ih =>
    obtain ⟨a, b, rfl⟩ := htok.two
    have ha := (htok.plain a (by simp)).2
    have hb := (htok.plain b (by simp)).2
    constructor
    · simp only [List.flatten_cons, List.cons_append, List.nil_append, List.map_cons, bytePairs,
        fromUtf8Lossy_ascii ha hb, ih.1]
    · simp only [List.flatten_cons, List.cons_append, List.nil_append, List.length_cons, ih.2]
      omega

theorem flatten_ne_nil (h : List.Forall₂ PatternToken toks ps) (hne : ps ≠ []) : toks.flatten ≠ [] := by
  cases h with
  | nil => exact absurd rfl hne
  | cons htok _ =>
    obtain ⟨a, b, rfl⟩ := htok.two
    simp

theorem parsePattern_compact (h : List.Forall₂ PatternToken toks ps) (hne : ps ≠ []) :
    parsePattern (String.ofList toks.flatten) = .ok ps := by
  have hplain := plain_flatten h
  have hblank : ' ' ∉ toks.flatten := fun hmem => absurd (hplain ' ' hmem).1 (by decide)
  obtain ⟨hchunks, hlen⟩ := chunks_flatten h
  have heven : ¬ toks.flatten.length % 2 ≠ 0 := by omega
  simp only [parsePattern, String.toList_ofList, trim_eq_self fun c hc => (hplain c hc).1,
    if_neg (flatten_ne_nil h hne), if_neg hblank, toUTF8_ascii fun c hc => (hplain c hc).2, List.length_map,
    if_neg heven, hchunks, mapM_patternByte h]

/-- The form with blanks begins and ends with a character of a token, and is cut at the blanks. -/
theorem spaced_tokens (h : List.Forall₂ PatternToken toks ps) (hne : ps ≠ []) :
    (∀ c ∈ ([' '].intercalate toks).head?, isWhitespace c = false) ∧
      (∀ c ∈ ([' '].intercalate toks).getLast?, isWhitespace c = false) ∧
      splitWhitespace ([' '].intercalate toks) = toks := by
  induction h with
  | nil => exact absurd rfl hne
  | @cons tok p toks ps htok h ih =>
    obtain ⟨a, b, rfl⟩ := htok.two
    have hplain := fun c hc => (htok.plain c hc).1
    cases h with
    | nil =>
      rw [List.intercalate_singleton, splitWhitespace, List.splitOnP_eq_singleton hplain]
      refine ⟨?_, ?_, rfl⟩
      · rintro c ⟨⟩
        exact hplain a (by simp)
      · rintro c ⟨⟩
        exact hplain b (by simp)
    | @cons tok' p' toks ps htok' h =>
      obtain ⟨-, hlast, hsplit⟩ := ih (List.cons_ne_nil _ _)
      have hrest : [' '].intercalate (tok' :: toks) ≠ [] := by
        intro hnil
        rw [hnil] at hsplit
        cases hsplit
      have heq : [' '].intercalate ([a, b] :: tok' :: toks) = [a, b] ++ ' ' :: [' '].intercalate (tok' :: toks) := by
        rw [List.intercalate_cons_cons, List.append_assoc]
        rfl
      rw [heq]
      refine ⟨?_, ?_, ?_⟩
      · rintro c ⟨⟩
        exact hplain a (by simp)
      · rw [List.getLast?_append_of_ne_nil _ (List.cons_ne_nil _ _), List.getLast?_cons_of_ne_nil hrest]
        exact hlast
      · rw [splitWhitespace, List.splitOnP_append_cons_of_forall_mem hplain ' ' (by decide), List.filter_cons,
          if_pos (by simp), ← splitWhitespace, hsplit]

theorem parsePattern_spaced (h : List.Forall₂ PatternToken toks ps) (hne : ps ≠ []) :
    parsePattern (String.ofList ([' '].intercalate toks)) = .ok ps := by
  obtain ⟨hfirst, hlast, hsplit⟩ := spaced_tokens h hne
  by_cases hone : toks.length = 1
  · -- One token has no blank: it takes the route of the compact form.
    obtain ⟨tok, rfl⟩ := List.length_eq_one_iff.1 hone
    rw [List.intercalate_singleton, ← List.flatten_singleton (l := tok)]
    exact parsePattern_compact h hne
  · have htrim := trim_of_ends hfirst hlast
    have hblank : ' ' ∈ [' '].intercalate toks := by
      rcases toks with _ | ⟨tok, _ | ⟨tok', toks⟩⟩
      · cases h; exact absurd rfl hne
      · exact absurd rfl hone
      · rw [List.intercalate_cons_cons]
        simp
    have hnil : [' '].intercalate toks ≠ [] := List.ne_nil_of_mem hblank
    simp only [parsePattern, String.toList_ofList, htrim, if_neg hnil, if_pos hblank, hsplit, mapM_patternByte h]

end

/-! ### Addresses -/

theorem parseAddr_fmtAddr (a : Address) : parseAddr (fmtAddr a) = .ok a := by
  have hmax : a.toNat ≤ u64Max := Nat.le_of_lt_succ a.toNat_lt
  have hpre : ['0', 'x'] <+: (fmtAddr a).toList := ⟨Nat.toDigits 16 a.toNat, (hexLit_toList _).symm⟩
  have hval : fromStrRadix 16 u64Max ((fmtAddr a).toList.drop 2) = some a.toNat := by
    rw [fmtAddr, hexLit_toList]
    exact fromStrRadix_toDigits hmax
  have htrim : trim (fmtAddr a).toList = (fmtAddr a).toList := trim_hexLit _
  simp only [parseAddr, htrim, if_pos (Or.inl hpre), hval, UInt64.ofNat_toNat]

/-- What the encoders of bytes, of patterns and of addresses write is read back. -/
theorem byte_codecs_agree :
    (∀ (bytes : List UInt8) (s : String), withoutBlanks s = withoutBlanks (hexEncode bytes) →
      parseHexBytes s = some (.ok bytes)) ∧
    (∀ (toks : List (List Char)) (ps : List (Option UInt8)), List.Forall₂ PatternToken toks ps → ps ≠ [] →
      parsePattern (String.ofList toks.flatten) = .ok ps ∧
        parsePattern (String.ofList ([' '].intercalate toks)) = .ok ps) ∧
    ∀ a : Address, parseAddr (fmtAddr a) = .ok a ∧ parseAddressStr (fmtAddr a) = .ok a := by
  refine ⟨?_, ?_, ?_⟩
  · intro bytes s hs
    exact parseHexBytes_hexEncode (hs.trans (withoutBlanks_hexEncode bytes))
  · intro toks ps h hne
    exact ⟨parsePattern_compact h hne, parsePattern_spaced h hne⟩
  · intro a
    exact ⟨parseAddr_fmtAddr a, parseAddressStr_fmtAddr a⟩

theorem byte_codecs_agree_sample : parseHexBytes " 9a\t0 5" = some (.ok [0x9A, 5]) ∧
    parsePattern "9A??" = .ok [some 0x9A, none] ∧ parsePattern "9A ??" = .ok [some 0x9A, none] := by
  have htoks : List.Forall₂ PatternToken [['9', 'A'], ['?', '?']] [some 0x9A, none] :=
    .cons (.byte (x := 9) (y := 10) (by decide) (by decide)) (.cons .wildcard .nil)
  have hpattern := byte_codecs_agree.2.1 _ _ htoks (List.cons_ne_nil _ _)
  exact ⟨byte_codecs_agree.1 [0x9A, 5] _ (by decide +kernel), hpattern.1, hpattern.2⟩

end Handlers

end IdaRs
