import Mathlib.Algebra.Group.Nat.Defs
import Mathlib.Data.List.Infix

/-!
# The string functions of the Rust standard library

Strings are read as lists of characters.
-/

namespace IdaRs

/-- `char::is_whitespace`: the Unicode property `White_Space`. -/
def isWhitespace (c : Char) : Bool :=
  let n := c.toNat
  (9 ≤ n && n ≤ 13) || n == 0x20 || n == 0x85 || n == 0xA0 || n == 0x1680 || (0x2000 ≤ n && n ≤ 0x200A) ||
    n == 0x2028 || n == 0x2029 || n == 0x202F || n == 0x205F || n == 0x3000

/-- `to_ascii_lowercase`. -/
def toAsciiLowercase (s : String) : List Char := s.toList.map Char.toLower

/-- `text.contains(pat)`. -/
def containsText (text : List Char) (pat : String) : Bool := decide (pat.toList <:+: text)

/-- `str::trim`. -/
def trim (s : List Char) : List Char :=
  ((s.dropWhile isWhitespace).reverse.dropWhile isWhitespace).reverse

/-- `str::lines` and `BufRead::lines`: a line ends at `\n` or `\r\n`; text behind the last end is a line. -/
def strLines (s : List Char) : List (List Char) :=
  let parts := s.splitOn '\n'
  (parts.dropLast.map fun l => if l.getLast? = some '\r' then l.dropLast else l) ++
    (if parts.getLast?.getD [] = [] then [] else [parts.getLast?.getD []])

/-- `str::split_whitespace`. -/
def splitWhitespace (s : List Char) : List (List Char) := (s.splitOnP isWhitespace).filter (· ≠ [])

/-- `str::strip_prefix`. -/
def stripPrefix (pat s : List Char) : Option (List Char) :=
  if pat <+: s then some (s.drop pat.length) else none

def digitsValue : List Char → Option Nat
  | [] => none
  | s => s.foldl (fun acc c => acc.bind fun n => if c.isDigit then some (10 * n + (c.toNat - 48)) else none) (some 0)

/-- `str::parse` for an unsigned type with values up to `max`. -/
def parseUnsigned (max : Nat) (s : List Char) : Option Nat :=
  (digitsValue (match s with | '+' :: rest => rest | _ => s)).filter (· ≤ max)

/-- A continuation byte of UTF-8. -/
def isContinuation (b : UInt8) : Bool := 0x80 ≤ b && b ≤ 0xBF

/-- How many bytes follow the first byte of a character, and the bounds of the one right after it. -/
def utf8Lead (b : UInt8) : Option (Nat × UInt8 × UInt8) :=
  if 0xC2 ≤ b ∧ b ≤ 0xDF then some (1, 0x80, 0xBF)
  else if b = 0xE0 then some (2, 0xA0, 0xBF)
  else if b = 0xED then some (2, 0x80, 0x9F)
  else if 0xE1 ≤ b ∧ b ≤ 0xEF then some (2, 0x80, 0xBF)
  else if b = 0xF0 then some (3, 0x90, 0xBF)
  else if 0xF1 ≤ b ∧ b ≤ 0xF3 then some (3, 0x80, 0xBF)
  else if b = 0xF4 then some (3, 0x80, 0x8F)
  else none

/-- The bytes after the first that belong to the same character, or to the part of one that is broken off. -/
def utf8Tail : Nat × UInt8 × UInt8 → List UInt8 → List UInt8
  | (n, lo, hi), c :: cs => if lo ≤ c ∧ c ≤ hi then c :: (cs.take (n - 1)).takeWhile isContinuation else []
  | _, [] => []

/-- The character of a first byte and those that follow it. -/
def utf8Value (b : UInt8) (follow : List UInt8) : Char :=
  let lead := if follow.length = 1 then b.toNat % 32 else if follow.length = 2 then b.toNat % 16 else b.toNat % 8
  Char.ofNat (follow.foldl (fun n c => 64 * n + c.toNat % 64) lead)

/-- Each step takes at least one byte off. -/
def utf8Chars : Nat → List UInt8 → List Char
  | 0, _ => []
  | _, [] => []
  | fuel + 1, b :: bs =>
    if b < 0x80 then Char.ofNat b.toNat :: utf8Chars fuel bs
    else
      match utf8Lead b with
      | none => '\uFFFD' :: utf8Chars fuel bs
      | some lead =>
        let follow := utf8Tail lead bs
        (if follow.length = lead.1 then utf8Value b follow else '\uFFFD') :: utf8Chars fuel (bs.drop follow.length)

/-- `String::from_utf8_lossy`: bytes that make no character are read as U+FFFD, one for each maximal part. -/
def fromUtf8Lossy (bytes : List UInt8) : List Char := utf8Chars bytes.length bytes

end IdaRs
