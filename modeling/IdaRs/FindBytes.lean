import IdaRs.SearchPages
import Mathlib.Data.PNat.Basic

/-!
# Searching bytes chunk by chunk (`src/ida/handlers/search.rs` 45-107)

The loops of `handle_find_bytes` with the size of a chunk as a parameter; `handleFindBytes` of `IdaRs.SearchPages` is
their case of 1 MiB. A chunk is read with the `n - 1` bytes behind it, so a match is seen in the chunk it starts in.
`find_bytes_plain`: for every size of a chunk the result is that of a search that looks at a segment as a whole.
-/

namespace IdaRs

namespace Backend

open Serde

section

variable (chunk : ℕ+) (db : Database) (pat : List (Option UInt8)) (maxResults : Nat)

/-- The loop over the chunks of a segment. -/
def scanSegmentBy (start len offset : Nat) (found : List String) : List String :=
  if offset < len ∧ found.length < maxResults then
    let bytes := db.getBytes (start + offset) (min (len - offset) (chunk + (pat.length - 1)))
    if bytes.length < pat.length then found
    else
      let found := scanChunk pat maxResults (start + offset) bytes (List.range (bytes.length - pat.length + 1)) found
      if len - offset ≤ chunk then found else scanSegmentBy start len (offset + chunk) found
  else found
termination_by len - offset
decreasing_by
  have hpos := chunk.pos
  omega

def scanSegmentsBy : List (Nat × Nat) → List String → List String
  | [], found => found
  | (start, len) :: segs, found =>
    let found := scanSegmentBy chunk db pat maxResults start len 0 found
    if maxResults ≤ found.length then found else scanSegmentsBy segs found

end

def handleFindBytesBy (chunk : ℕ+) (db : Database) (pattern : String) (maxResults : Nat) : Except ToolError Reply := do
  let pat ← parsePattern pattern
  if pat = [] then throw (.idaError "empty pattern")
  let found := scanSegmentsBy chunk db pat maxResults db.segments []
  return .value (.obj [("pattern", .str pattern), ("matches", .arr (found.map .str)), ("count", .int found.length)])

/-! ### The code's chunk size -/

def mebibyte : ℕ+ := ⟨chunkSize, by decide⟩

theorem scanSegment_by (db : Database) (pat : List (Option UInt8)) (maxResults start len offset : Nat)
    (found : List String) :
    scanSegment db pat maxResults start len offset found =
      scanSegmentBy mebibyte db pat maxResults start len offset found := by
  induction offset using (measure fun offset => len - offset).wf.induction generalizing found with
  | _ offset ih =>
    rw [scanSegment, scanSegmentBy]
    by_cases hgo : offset < len ∧ found.length < maxResults
    · rw [if_pos hgo, if_pos hgo]
      have hlt : len - (offset + chunkSize) < len - offset := by
        simp only [chunkSize]
        omega
      simp only [ih (offset + chunkSize) hlt]
      rfl
    · rw [if_neg hgo, if_neg hgo]

theorem scanSegments_by (db : Database) (pat : List (Option UInt8)) (maxResults : Nat) (segs : List (Nat × Nat))
    (found : List String) :
    scanSegments db pat maxResults segs found = scanSegmentsBy mebibyte db pat maxResults segs found := by
  induction segs generalizing found with
  | nil => rfl
  | cons seg segs ih => simp only [scanSegments, scanSegmentsBy, scanSegment_by, ih]

theorem handleFindBytes_by : handleFindBytes = handleFindBytesBy mebibyte := by
  funext db pattern maxResults
  simp only [handleFindBytes, handleFindBytesBy, scanSegments_by]

/-! ### The plain search -/

/-- The pattern is found at the head of the bytes. -/
def matchesHere : List (Option UInt8) → List UInt8 → Bool
  | [], _ => true
  | _ :: _, [] => false
  | pb :: pat, b :: bytes => (pb = none || pb = some b) && matchesHere pat bytes

/-- A segment with its contents. -/
structure Segment where
  start : Nat
  bytes : List UInt8

/-- Where the pattern is found in a segment, from `offset` on. -/
def positionsFrom (pat : List (Option UInt8)) (seg : Segment) (offset : Nat) : List Nat :=
  ((List.range' offset (seg.bytes.length - offset)).filter fun i => matchesHere pat (seg.bytes.drop i)).map
    (seg.start + ·)

/-- Where the pattern is found in a segment. -/
def positions (pat : List (Option UInt8)) (seg : Segment) : List Nat := positionsFrom pat seg 0

/-- The database has these segments, and `get_bytes` returns their bytes. -/
structure Database.Holds (db : Database) (segs : List Segment) : Prop where
  segments : db.segments = segs.map fun seg => (seg.start, seg.bytes.length)
  getBytes : ∀ seg ∈ segs, ∀ offset n, offset + n ≤ seg.bytes.length →
    db.getBytes (seg.start + offset) n = (seg.bytes.drop offset).take n

section

variable {pat : List (Option UInt8)} {bytes : List UInt8} {i : Nat}

theorem length_le_of_matchesHere (h : matchesHere pat bytes = true) : pat.length ≤ bytes.length := by
  induction pat generalizing bytes with
  | nil => exact Nat.zero_le _
  | cons pb pat ih =>
    cases bytes with
    | nil => cases h
    | cons b bytes =>
      simp only [matchesHere, Bool.and_eq_true] at h
      simpa using ih h.2

theorem matchesHere_take {n : Nat} (h : pat.length ≤ n) : matchesHere pat (bytes.take n) = matchesHere pat bytes := by
  induction pat generalizing bytes n with
  | nil => simp [matchesHere]
  | cons pb pat ih =>
    obtain ⟨n, rfl⟩ : ∃ m, n = m + 1 := ⟨n - 1, by simp at h; omega⟩
    cases bytes with
    | nil => rfl
    | cons b bytes =>
      rw [List.take_succ_cons, matchesHere, matchesHere, ih (by simpa using h)]

/-- From index `k` of the pattern on; `f` compares one byte of the pattern. -/
theorem all_zipIdx_eq {f : Option UInt8 × Nat → Bool} (hnone : ∀ j, f (none, j) = true)
    (hsome : ∀ b j, f (some b, j) = (bytes[i + j]? == some b)) {k : Nat} (h : i + k + pat.length ≤ bytes.length) :
    (pat.zipIdx k).all f = matchesHere pat (bytes.drop (i + k)) := by
  induction pat generalizing k with
  | nil => rfl
  | cons pb pat ih =>
    rw [List.length_cons] at h
    have hi : i + k < bytes.length := by omega
    rw [List.drop_eq_getElem_cons hi, matchesHere, List.zipIdx_cons, List.all_cons, ih (by omega), Nat.add_assoc]
    congr 1
    cases pb with
    | none => simp [hnone]
    | some b =>
      rw [hsome, List.getElem?_eq_getElem hi, Bool.eq_iff_iff]
      simp only [beq_iff_eq, Option.some.injEq, reduceCtorEq, decide_false, Bool.false_or, decide_eq_true_eq]
      exact eq_comm

theorem matchesAt_eq (h : i + pat.length ≤ bytes.length) : matchesAt pat bytes i = matchesHere pat (bytes.drop i) :=
  all_zipIdx_eq (fun _ => rfl) (fun _ _ => rfl) h

end

section

variable {chunk : ℕ+} {db : Database} {pat : List (Option UInt8)} {n : Nat} {seg : Segment}

theorem not_matchesHere {i : Nat} (h : seg.bytes.length < i + pat.length) (hpat : pat ≠ []) :
    matchesHere pat (seg.bytes.drop i) = false := by
  rw [Bool.eq_false_iff]
  intro hm
  have hle := length_le_of_matchesHere hm
  have hpos := List.length_pos_of_ne_nil hpat
  rw [List.length_drop] at hle
  omega

/-- No match starts in the last `n - 1` bytes. -/
theorem positionsFrom_eq_nil {offset : Nat} (h : seg.bytes.length < offset + pat.length) (hpat : pat ≠ []) :
    positionsFrom pat seg offset = [] := by
  rw [positionsFrom, List.map_eq_nil_iff, List.filter_eq_nil_iff]
  intro i hi
  rw [not_matchesHere ?_ hpat]
  · decide
  · have hle := (List.mem_range'_1.1 hi).1
    omega

/-- The matches that start in the next `k` bytes, and those after them. -/
theorem positionsFrom_split {offset k : Nat} (h : offset + k ≤ seg.bytes.length) :
    positionsFrom pat seg offset =
      ((List.range' offset k).filter fun i => matchesHere pat (seg.bytes.drop i)).map (seg.start + ·) ++
        positionsFrom pat seg (offset + k) := by
  have hrange : List.range' offset (seg.bytes.length - offset) =
      List.range' offset k ++ List.range' (offset + k) (seg.bytes.length - (offset + k)) := by
    have hlen : seg.bytes.length - offset = k + (seg.bytes.length - (offset + k)) := by omega
    rw [hlen, ← List.range'_append_1]
  rw [positionsFrom, hrange, List.filter_append, List.map_append]
  rfl

/-- A chunk shows the matches that start at the positions where the whole pattern was read. -/
theorem chunkHits_eq {offset m : Nat} (hm : offset + m ≤ seg.bytes.length) (hpat : pat.length ≤ m) :
    chunkHits pat (seg.start + offset) ((seg.bytes.drop offset).take m) (List.range (m - pat.length + 1)) =
      ((List.range' offset (m - pat.length + 1)).filter fun i => matchesHere pat (seg.bytes.drop i)).map
        (seg.start + ·) := by
  have hlen : ((seg.bytes.drop offset).take m).length = m := by
    rw [List.length_take, List.length_drop]
    omega
  have hmatch : ∀ i ∈ List.range (m - pat.length + 1),
      matchesAt pat ((seg.bytes.drop offset).take m) i = matchesHere pat (seg.bytes.drop (offset + i)) := by
    intro i hi
    have hlt := List.mem_range.1 hi
    rw [matchesAt_eq (by omega), List.drop_take, matchesHere_take (by omega), List.drop_drop]
  rw [chunkHits, List.filter_congr hmatch, List.range'_eq_map_range, List.filter_map, List.map_map]
  congr 1
  funext i
  simp [Nat.add_assoc]

/-- By the chunks of the segment: `offset` grows by a chunk. -/
theorem adds_scanSegmentBy (hpat : pat ≠ []) (offset : Nat)
    (hread : ∀ offset n, offset + n ≤ seg.bytes.length →
      db.getBytes (seg.start + offset) n = (seg.bytes.drop offset).take n) :
    Adds n (scanSegmentBy chunk db pat n seg.start seg.bytes.length offset) (positionsFrom pat seg offset) := by
  induction offset using (measure fun offset => seg.bytes.length - offset).wf.induction with
  | _ offset ih =>
    intro found h
    rw [scanSegmentBy]
    have hpos := List.length_pos_of_ne_nil hpat
    have hchunk := chunk.pos
    by_cases ho : offset < seg.bytes.length
    swap
    · rw [if_neg (fun hc => ho hc.1), positionsFrom_eq_nil (by omega) hpat]
      exact Adds.nil found h
    by_cases hroom : found.length < n
    swap
    · rw [if_neg (fun hc => hroom hc.2), Fills.take_of_full h (by omega)]
    rw [if_pos ⟨ho, hroom⟩]
    dsimp only
    generalize hm : min (seg.bytes.length - offset) (chunk + (pat.length - 1)) = m
    have hfits : offset + m ≤ seg.bytes.length := by omega
    have hlen : ((seg.bytes.drop offset).take m).length = m := by
      rw [List.length_take, List.length_drop]
      omega
    rw [hread offset m hfits, hlen]
    by_cases hshort : m < pat.length
    · rw [if_pos hshort, positionsFrom_eq_nil (by omega) hpat]
      exact Adds.nil found h
    rw [if_neg hshort]
    have hscan := @adds_scanChunk pat n (seg.start + offset) ((seg.bytes.drop offset).take m)
      (List.range (m - pat.length + 1))
    rw [chunkHits_eq hfits (not_lt.1 hshort)] at hscan
    have hsplit : positionsFrom pat seg offset = _ := positionsFrom_split (k := m - pat.length + 1) (by omega)
    by_cases hlast : seg.bytes.length - offset ≤ chunk
    · rw [if_pos hlast, hsplit, positionsFrom_eq_nil (by omega) hpat, List.append_nil]
      exact hscan found h
    · rw [if_neg hlast, hsplit]
      -- between the last position that was looked at and the next chunk the pattern does not fit
      have hgap : positionsFrom pat seg (offset + (m - pat.length + 1)) = positionsFrom pat seg (offset + chunk) := by
        by_cases hwhole : m - pat.length + 1 = chunk
        · rw [hwhole]
        · rw [positionsFrom_eq_nil (by omega) hpat, positionsFrom_eq_nil (by omega) hpat]
      have hlt : seg.bytes.length - (offset + chunk) < seg.bytes.length - offset := by omega
      rw [hgap]
      exact hscan.comp (ih (offset + chunk) hlt) found h

theorem adds_scanSegmentsBy {segs : List Segment} (hpat : pat ≠ [])
    (hread : ∀ seg ∈ segs, ∀ offset n, offset + n ≤ seg.bytes.length →
      db.getBytes (seg.start + offset) n = (seg.bytes.drop offset).take n) :
    Adds n (scanSegmentsBy chunk db pat n (segs.map fun seg => (seg.start, seg.bytes.length)))
      (segs.flatMap (positions pat)) := by
  induction segs with
  | nil => exact Adds.nil
  | cons seg segs ih =>
    have hfirst := @adds_scanSegmentBy chunk db pat n seg hpat 0 (hread seg (List.mem_cons_self ..))
    have hrest := ih fun s hs => hread s (List.mem_cons_of_mem _ hs)
    rw [List.flatMap_cons]
    exact hfirst.comp (Adds.guard fun found hroom => hrest found hroom.le)

end

/-- For every size of a chunk, and so for that of the code, the matches are the first `maxResults` of the plain
search. -/
theorem find_bytes_plain (db : Database) (segs : List Segment) (pattern : String) (pat : List (Option UInt8))
    (maxResults : Nat) (hparse : parsePattern pattern = .ok pat) (hpat : 1 ≤ pat.length) (hdb : db.Holds segs) :
    let found := ((segs.flatMap (positions pat)).take maxResults).map hexLit
    let reply : Reply := .value (.obj [("pattern", .str pattern), ("matches", .arr (found.map .str)),
      ("count", .int found.length)])
    (∀ chunk : ℕ+, handleFindBytesBy chunk db pattern maxResults = .ok reply) ∧
      handleFindBytes db pattern maxResults = .ok reply := by
  have hne : pat ≠ [] := List.ne_nil_of_length_pos hpat
  have hall : ∀ chunk : ℕ+, handleFindBytesBy chunk db pattern maxResults =
      .ok (.value (.obj [("pattern", .str pattern),
      ("matches", .arr ((((segs.flatMap (positions pat)).take maxResults).map hexLit).map .str)),
      ("count", .int (((segs.flatMap (positions pat)).take maxResults).map hexLit).length)])) := by
    intro chunk
    have hfound := @adds_scanSegmentsBy chunk db pat maxResults segs hne hdb.getBytes [] (Nat.zero_le _)
    rw [List.nil_append, ← List.map_take, ← hdb.segments] at hfound
    simp only [handleFindBytesBy, hparse, bind, Except.bind, if_neg hne, hfound]
    rfl
  exact ⟨hall, handleFindBytes_by ▸ hall mebibyte⟩

/-- Two overlapping matches, in chunks of one byte or of any size. -/
def oneSegment : Database :=
  ⟨[(0x1000, 3)], fun a n => ([0xAA, 0xAA, 0xAA].drop (a - 0x1000)).take n, fun _ => [], fun _ => []⟩

theorem find_bytes_plain_overlapping :
    handleFindBytesBy 1 oneSegment "aa ?" 10 = .ok (.value (.obj [("pattern", .str "aa ?"),
      ("matches", .arr [.str "0x1000", .str "0x1001"]), ("count", .int 2)])) :=
  (find_bytes_plain oneSegment [⟨0x1000, [0xAA, 0xAA, 0xAA]⟩] "aa ?" [some 0xAA, none] 10 (by decide +kernel) (by decide)
    ⟨rfl, by simp [oneSegment]⟩).1 1

end Backend

end IdaRs
