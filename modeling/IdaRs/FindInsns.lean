import IdaRs.Idb
import IdaRs.Lib.Fills
import IdaRs.SearchPages

/-!
# Searching instructions (`src/ida/handlers/search.rs` 1-42, 142-269)

`handle_find_insns` looks for a sequence of instructions. It walks the segments from head to head and keeps what it
finds until there are `max_results` of it: `scanInsns_fill`.
-/

namespace IdaRs

namespace Handlers

open Backend (Reply)
open Serde Fills

/-- A database with its segments, by their start and their end. -/
structure CodeDb where
  db : Idb
  segments : List (Address × Address)

/-! ### Lines -/

/-- `line.split(';').next()`. -/
def stripComment (line : List Char) : List Char := line.takeWhile (· ≠ ';')

/-- The mnemonic, the operands and the line without its comment. -/
structure DisasmLine where
  mnemonic : List Char
  operands : List Char
  line : List Char
deriving DecidableEq, Repr

def splitDisasmLine (line : String) : DisasmLine :=
  let trimmed := trim (stripComment line.toList)
  -- `splitn(2, is_whitespace)`
  { mnemonic := trim (trimmed.takeWhile fun c => !isWhitespace c)
    operands := trim ((trimmed.dropWhile fun c => !isWhitespace c).drop 1)
    line := trimmed }

def nextAddr (db : Idb) (current : Address) : Option Address :=
  match db.insnAt current with
  | some insn =>
    if insn.len = 0 then none else some (UInt64.ofNat (saturatingAdd current.toNat insn.len))
  | none => (db.nextHead current).filter fun next => decide (current < next)

/-- A text as it is compared. -/
def normalized (caseInsensitive : Bool) (s : List Char) : List Char :=
  if caseInsensitive then s.map Char.toLower else s

/-- A pattern with a space or a comma is looked for in the whole line, any other in the mnemonic. -/
def insnMatches (caseInsensitive : Bool) (pat : String) (l : DisasmLine) : Bool :=
  containsText (normalized caseInsensitive (if ' ' ∈ pat.toList ∨ ',' ∈ pat.toList then l.line else l.mnemonic)) pat

section

variable (db : Idb) (stop : Address) (caseInsensitive : Bool)

/-- The addresses of the instructions after `current` that match the patterns one after the other. -/
def sequenceFrom : List String → Address → Option (List Address)
  | [], _ => some []
  | pat :: pats, current => do
    let next ← (nextAddr db current).filter fun next => decide (next < stop)
    let line ← db.disasmLine next
    let parts := splitDisasmLine line
    if parts.mnemonic ≠ [] ∧ insnMatches caseInsensitive pat parts then
      return next :: (← sequenceFrom pats next)
    else none

/-- The match of the patterns at an address. -/
def insnsAt (first : String) (rest : List String) (addr : Address) : Option Json := do
  let line ← db.disasmLine addr
  let parts := splitDisasmLine line
  if parts.mnemonic ≠ [] ∧ insnMatches caseInsensitive first parts then
    let fields := [("address", .str (fmtAddr addr)), ("mnemonic", .str (String.ofList parts.mnemonic)),
      ("line", .str (String.ofList parts.line))]
    if rest = [] then return .obj fields
    else
      let next ← sequenceFrom db stop caseInsensitive rest addr
      return .obj (fields ++ [("sequence", .arr ((addr :: next).map fun a => .str (fmtAddr a)))])
  else none

end

/-! ### Loops -/

section

variable (db : Idb) (stop : Address) (matchAt : Address → Option Json)

/-- The loop over the heads of a segment. -/
def scanInsns (maxResults : Nat) (addr : Address) (found : List Json) : List Json :=
  if addr < stop ∧ found.length < maxResults then
    let found := found ++ (matchAt addr).toList
    match nextAddr db addr with
    | some next => if addr < next then scanInsns maxResults next found else found
    | none => found
  else found
termination_by stop.toNat - addr.toNat
decreasing_by
  simp only [UInt64.lt_iff_toNat_lt] at *
  omega

/-- The matches of a segment from an address on. -/
def insnHits (addr : Address) : List Json :=
  if addr < stop then
    (matchAt addr).toList ++
      match nextAddr db addr with
      | some next => if addr < next then insnHits next else []
      | none => []
  else []
termination_by stop.toNat - addr.toNat
decreasing_by
  simp only [UInt64.lt_iff_toNat_lt] at *
  omega

end

/-- The loop over the segments; `matchAt` is given the end of a segment. -/
def scanCode (db : Idb) (matchAt : Address → Address → Option Json) (maxResults : Nat) :
    List (Address × Address) → List Json → List Json
  | [], found => found
  | (start, stop) :: segs, found =>
    let found := scanInsns db stop (matchAt stop) maxResults start found
    if maxResults ≤ found.length then found else scanCode db matchAt maxResults segs found

def insnsReply (patterns : List String) (caseInsensitive : Bool) (found : List Json) : Reply :=
  .value (.obj [("patterns", .arr (patterns.map .str)), ("case_insensitive", .bool caseInsensitive),
    ("matches", .arr found), ("count", .int found.length)])

def normalizedPatterns (caseInsensitive : Bool) (patterns : List String) : List String :=
  patterns.map fun pat => String.ofList (normalized caseInsensitive pat.toList)

def openedCode (idb : Option CodeDb) : Except ToolError CodeDb :=
  match idb with
  | some code => .ok code
  | none => .error .noDatabaseOpen

def handleFindInsns (idb : Option CodeDb) (patterns : List String) (maxResults : Nat) (caseInsensitive : Bool) :
    Except ToolError Reply := do
  let code ← openedCode idb
  match normalizedPatterns caseInsensitive patterns with
  | [] => throw (.invalidParams "empty patterns")
  | first :: rest =>
    return insnsReply patterns caseInsensitive (scanCode code.db
      (fun stop => insnsAt code.db stop caseInsensitive first rest) maxResults code.segments [])

/-! ### The first matches of the plain walk -/

section

variable {db : Idb} {stop : Address} {matchAt : Address → Option Json} {n : Nat}

/-- By the heads of the segment: the address grows. -/
theorem scanInsns_fill (addr : Address) :
    Fill n (scanInsns db stop matchAt n addr) (insnHits db stop matchAt addr) := by
  induction addr using (measure fun addr : Address => stop.toNat - addr.toNat).wf.induction with
  | _ addr ih =>
    intro found h
    rw [scanInsns, insnHits]
    by_cases hstop : addr < stop
    swap
    · rw [if_neg (fun hc => hstop hc.1), if_neg hstop]
      exact Fill.nil found h
    by_cases hroom : found.length < n
    swap
    · rw [if_neg (fun hc => hroom hc.2), take_of_full h (by omega)]
    rw [if_pos ⟨hstop, hroom⟩, if_pos hstop]
    dsimp only
    have hfound : (found ++ (matchAt addr).toList).length ≤ n := by
      cases matchAt addr with
      | none => simpa using h
      | some j => simpa using Nat.succ_le_of_lt hroom
    rw [← List.append_assoc]
    generalize found ++ (matchAt addr).toList = found' at hfound ⊢
    cases nextAddr db addr with
    | none => exact Fill.nil found' hfound
    | some next =>
      dsimp only
      by_cases hnext : addr < next
      · rw [if_pos hnext, if_pos hnext]
        have hlt : stop.toNat - next.toNat < stop.toNat - addr.toNat := by
          rw [UInt64.lt_iff_toNat_lt] at hstop hnext
          omega
        exact ih next hlt found' hfound
      · rw [if_neg hnext, if_neg hnext]
        exact Fill.nil found' hfound

theorem scanCode_fill {matchAt : Address → Address → Option Json} (segs : List (Address × Address)) :
    Fill n (scanCode db matchAt n segs) (segs.flatMap fun seg => insnHits db seg.2 (matchAt seg.2) seg.1) := by
  induction segs with
  | nil => exact Fill.nil
  | cons seg segs ih =>
    obtain ⟨start, stop⟩ := seg
    rw [List.flatMap_cons]
    exact (scanInsns_fill start).comp (Fill.guard fun found hroom => ih found hroom.le)

end

/-- The matches in a reply. -/
def replyMatches (r : Except ToolError Reply) : List Json :=
  match r with
  | .ok r => Backend.matchesOf r.toJson
  | .error _ => []

theorem findInsns_bounded (idb : Option CodeDb) (patterns : List String) (n : Nat) (caseInsensitive : Bool) :
    (replyMatches (handleFindInsns idb patterns n caseInsensitive)).length ≤ n := by
  unfold handleFindInsns
  cases idb with
  | none => exact Nat.zero_le _
  | some code =>
    show (replyMatches (match normalizedPatterns caseInsensitive patterns with
      | [] => throw (.invalidParams "empty patterns")
      | first :: rest => _)).length ≤ n
    split
    · exact Nat.zero_le _
    · exact (scanCode_fill code.segments).length_le

end Handlers

end IdaRs
