import IdaRs.Lib.Fills
import IdaRs.Lib.Window
import IdaRs.PooledReply

/-!
# Paging through a search (`src/ida/handlers/search.rs` 45-134, `src/ida/handlers/mod.rs` 100-134)

The three search handlers of the worker, over what they read of an open database, and a client that follows
`next_offset` until it is null. The tool asks the worker for `offset + limit` matches and then compares
`offset + limit` with the number it got, so it never announces a next page: a client sees the first page only.
-/

namespace IdaRs

namespace Backend

open Serde Calls
open Window (fetch)

/-- What the searches read of an open database: `segments` by start and length, `get_bytes`, `find_text_iter` and
`find_imm_iter`. -/
structure Database where
  segments : List (Nat × Nat)
  getBytes : Nat → Nat → List UInt8
  findText : String → List Nat
  findImm : Nat → List Nat

/-! ## The worker's handlers -/

/-- `chunks(2)`. -/
def bytePairs : List UInt8 → List (List UInt8)
  | a :: b :: rest => [a, b] :: bytePairs rest
  | [] => []
  | rest => [rest]

/-- `trim_start_matches("0x")`. -/
def trimStartHex : List Char → List Char
  | '0' :: 'x' :: rest => trimStartHex rest
  | s => s

/-- A byte of a pattern, or a wildcard. -/
def patternByte (tok : List Char) : Except ToolError (Option UInt8) :=
  if tok = ['?'] ∨ tok = ['?', '?'] then .ok none
  else
    match fromStrRadix 16 255 (trimStartHex tok) with
    | some b => .ok (some (UInt8.ofNat b))
    | none => .error (.idaError ("invalid byte: " ++ String.ofList tok))

def parsePattern (pattern : String) : Except ToolError (List (Option UInt8)) :=
  let trimmed := trim pattern.toList
  if trimmed = [] then .error (.idaError "empty pattern")
  else if ' ' ∈ trimmed then (splitWhitespace trimmed).mapM patternByte
  else
    let bytes := (String.ofList trimmed).toUTF8.data.toList
    if bytes.length % 2 ≠ 0 then
      .error (.idaError ("invalid hex pattern length: " ++ String.ofList trimmed))
    else ((bytePairs bytes).map fromUtf8Lossy).mapM patternByte

def chunkSize : Nat := 1024 * 1024

section

variable (db : Database) (pat : List (Option UInt8)) (maxResults : Nat)

/-- The bytes at `i` are those of the pattern. -/
def matchesAt (bytes : List UInt8) (i : Nat) : Bool :=
  pat.zipIdx.all fun (pb, j) => match pb with
    | some b => bytes[i + j]? == some b
    | none => true

/-- The loop over the positions of a chunk that starts at `base`. -/
def scanChunk (base : Nat) (bytes : List UInt8) : List Nat → List String → List String
  | [], found => found
  | i :: is, found =>
    if maxResults ≤ found.length then found
    else scanChunk base bytes is (if matchesAt pat bytes i then found ++ [hexLit (base + i)] else found)

/-- The bytes read at `offset` of a segment: a chunk, and what a match that starts in it may need of the next. -/
def readChunk (start len offset : Nat) : List UInt8 :=
  db.getBytes (start + offset) (min (len - offset) (chunkSize + (pat.length - 1)))

/-- The loop over the chunks of a segment. -/
def scanSegment (start len offset : Nat) (found : List String) : List String :=
  if offset < len ∧ found.length < maxResults then
    let bytes := readChunk db pat start len offset
    if bytes.length < pat.length then found
    else
      let found := scanChunk pat maxResults (start + offset) bytes (List.range (bytes.length - pat.length + 1)) found
      if len - offset ≤ chunkSize then found else scanSegment start len (offset + chunkSize) found
  else found
termination_by len - offset
decreasing_by simp only [chunkSize]; omega

/-- The loop over the segments. -/
def scanSegments : List (Nat × Nat) → List String → List String
  | [], found => found
  | (start, len) :: segs, found =>
    let found := scanSegment db pat maxResults start len 0 found
    if maxResults ≤ found.length then found else scanSegments segs found

end

section

variable (db : Database)

def handleFindBytes (pattern : String) (maxResults : Nat) : Except ToolError Reply := do
  let pat ← parsePattern pattern
  if pat = [] then throw (.idaError "empty pattern")
  let found := scanSegments db pat maxResults db.segments []
  return .value (.obj [("pattern", .str pattern), ("matches", .arr (found.map .str)), ("count", .int found.length)])

/-- The loop over an iterator of addresses: the limit is looked at after a match is added. -/
def takeMatches (maxResults : Nat) : List Nat → List String → List String
  | [], found => found
  | a :: as, found =>
    let found := found ++ [hexLit a]
    if maxResults ≤ found.length then found else takeMatches maxResults as found

def foundReply (found : List String) : Reply :=
  .value (.obj [("matches", .arr (found.map .str)), ("count", .int found.length)])

def handleSearchText (text : String) (maxResults : Nat) : Except ToolError Reply :=
  .ok (foundReply (takeMatches maxResults (db.findText text) []))

/-- The immediate is cut to 32 bits. -/
def handleSearchImm (imm maxResults : Nat) : Except ToolError Reply :=
  .ok (foundReply (takeMatches maxResults (db.findImm (imm % 2 ^ 32)) []))

end

/-- `w` with `db` open: the searches are answered from the database. -/
def Worker.withDatabase (w : Worker) (db : Database) : Worker where
  answer
    | .findBytes pattern maxResults => handleFindBytes db pattern maxResults
    | .searchText text maxResults => handleSearchText db text maxResults
    | .searchImm imm maxResults => handleSearchImm db imm maxResults
    | req => w.answer req
  fits req r h := by
    cases req with
    | findBytes pattern n =>
      simp only [handleFindBytes, bind, Except.bind, pure, Except.pure] at h
      split at h
      · cases h
      · split at h
        · cases h
        · cases h
          exact ⟨_, rfl, by simp⟩
    | searchText text n => cases h; exact ⟨_, rfl, by simp⟩
    | searchImm imm n => cases h; exact ⟨_, rfl, by simp⟩
    | _ => exact w.fits _ r h

/-! ## The matches a search yields -/

section

variable (db : Database) (pat : List (Option UInt8))

/-- The matches in a chunk. -/
def chunkHits (base : Nat) (bytes : List UInt8) (is : List Nat) : List Nat :=
  (is.filter (matchesAt pat bytes)).map (base + ·)

/-- The matches in a segment, from `offset` on. -/
def segmentHits (start len offset : Nat) : List Nat :=
  if offset < len then
    let bytes := readChunk db pat start len offset
    if bytes.length < pat.length then []
    else
      chunkHits pat (start + offset) bytes (List.range (bytes.length - pat.length + 1)) ++
        if len - offset ≤ chunkSize then [] else segmentHits start len (offset + chunkSize)
  else []
termination_by len - offset
decreasing_by simp only [chunkSize]; omega

end

/-- All that a search yields when nothing bounds it. -/
def Database.hits (db : Database) : IdaRequest → Except ToolError (List Nat)
  | .findBytes pattern _ => do
    let pat ← parsePattern pattern
    if pat = [] then throw (.idaError "empty pattern")
    return db.segments.flatMap fun seg => segmentHits db pat seg.1 seg.2 0
  | .searchText text _ => .ok (db.findText text)
  | .searchImm imm _ => .ok (db.findImm (imm % 2 ^ 32))
  | _ => .ok []

/-- `step` adds `hits` to what was found, as far as there is room for `n`. -/
def Adds (n : Nat) (step : List String → List String) (hits : List Nat) : Prop :=
  ∀ found : List String, found.length ≤ n → step found = (found ++ hits.map hexLit).take n

section

variable {n : Nat} {f g : List String → List String} {as bs : List Nat}

theorem Adds.nil : Adds n (fun found => found) [] := Fills.Fill.nil

theorem Adds.comp (hf : Adds n f as) (hg : Adds n g bs) : Adds n (fun found => g (f found)) (as ++ bs) := by
  intro found h
  rw [List.map_append]
  exact Fills.Fill.comp hf hg found h

/-- A loop may stop as soon as there is no room left. -/
theorem Adds.guard (hf : ∀ found : List String, found.length < n → f found = (found ++ as.map hexLit).take n) :
    Adds n (fun found => if n ≤ found.length then found else f found) as :=
  Fills.Fill.guard hf

end

section

variable {db : Database} {pat : List (Option UInt8)} {n : Nat}

theorem adds_scanChunk (base : Nat) (bytes : List UInt8) (is : List Nat) :
    Adds n (scanChunk pat n base bytes is) (chunkHits pat base bytes is) := by
  induction is with
  | nil => exact Adds.nil
  | cons i is ih =>
    refine Adds.guard fun found hroom => ?_
    cases hm : matchesAt pat bytes i with
    | true =>
      rw [if_pos rfl, ih _ (by simp; omega)]
      simp [chunkHits, hm]
    | false =>
      rw [if_neg (by decide), ih _ hroom.le]
      simp [chunkHits, hm]

/-- By the chunks of the segment: `offset` grows by a chunk. -/
theorem adds_scanSegment (start len offset : Nat) :
    Adds n (scanSegment db pat n start len offset) (segmentHits db pat start len offset) := by
  induction offset using (measure fun offset => len - offset).wf.induction with
  | _ offset ih =>
    intro found h
    rw [scanSegment, segmentHits]
    by_cases ho : offset < len
    · by_cases hroom : found.length < n
      · rw [if_pos ⟨ho, hroom⟩, if_pos ho]
        dsimp only
        split
        · exact Adds.nil found h
        have hchunk := @adds_scanChunk pat n (start + offset) (readChunk db pat start len offset)
          (List.range ((readChunk db pat start len offset).length - pat.length + 1))
        split
        · rw [List.append_nil]
          exact hchunk found h
        · have hlt : len - (offset + chunkSize) < len - offset := by
            simp only [chunkSize]
            omega
          exact hchunk.comp (ih (offset + chunkSize) hlt) found h
      · rw [if_neg (fun hc => hroom hc.2), Fills.take_of_full h (by omega)]
    · rw [if_neg (fun hc => ho hc.1), if_neg ho]
      exact Adds.nil found h

theorem adds_scanSegments (segs : List (Nat × Nat)) :
    Adds n (scanSegments db pat n segs) (segs.flatMap fun seg => segmentHits db pat seg.1 seg.2 0) := by
  induction segs with
  | nil => exact Adds.nil
  | cons seg segs ih =>
    obtain ⟨start, len⟩ := seg
    rw [List.flatMap_cons]
    exact (adds_scanSegment start len 0).comp (Adds.guard fun found hroom => ih found hroom.le)

theorem takeMatches_eq (hits : List Nat) {found : List String} (h : found.length < n) :
    takeMatches n hits found = (found ++ hits.map hexLit).take n := by
  induction hits generalizing found with
  | nil => rw [takeMatches, List.map_nil, List.append_nil, List.take_of_length_le h.le]
  | cons a as ih =>
    have happ : found ++ (a :: as).map hexLit = found ++ [hexLit a] ++ as.map hexLit := by simp
    rw [takeMatches, happ]
    exact Adds.guard (fun found hroom => ih hroom) (found ++ [hexLit a]) (by simp; omega)

end

/-- A search that is asked for `n` matches answers with the first `n` it yields. -/
theorem withDatabase_answer (w : Worker) (db : Database) {req : IdaRequest} {n : Nat} {hits : List Nat}
    (hs : req.searchLimit = some n) (hn : 1 ≤ n) (hh : db.hits req = .ok hits) :
    ∃ r, (w.withDatabase db).answer req = .ok r ∧
      matchesOf r.toJson = ((hits.take n).map hexLit).map .str := by
  have htake : ∀ hits, takeMatches n hits [] = (hits.take n).map hexLit := by
    intro hits
    have hroom : ([] : List String).length < n := hn
    rw [takeMatches_eq hits hroom, List.nil_append, List.map_take]
  cases req with
  | findBytes pattern m =>
    obtain rfl : m = n := Option.some.inj hs
    cases hp : parsePattern pattern with
    | error e => simp [Database.hits, hp, bind, Except.bind] at hh
    | ok pat =>
      simp only [Worker.withDatabase, handleFindBytes, Database.hits, hp, bind, Except.bind] at hh ⊢
      split at hh
      · cases hh
      rename_i hpat
      rw [if_neg hpat]
      obtain rfl := Except.ok.inj hh
      refine ⟨_, rfl, congrArg (List.map Json.str) ?_⟩
      rw [adds_scanSegments db.segments [] (Nat.zero_le _), List.nil_append, List.map_take]
  | searchText text m =>
    obtain rfl : m = n := Option.some.inj hs
    obtain rfl : db.findText text = hits := Except.ok.inj hh
    exact ⟨_, rfl, congrArg (List.map Json.str) (htake _)⟩
  | searchImm imm m =>
    obtain rfl : m = n := Option.some.inj hs
    obtain rfl : db.findImm (imm % 2 ^ 32) = hits := Except.ok.inj hh
    exact ⟨_, rfl, congrArg (List.map Json.str) (htake _)⟩
  | _ => cases hs

/-! ## The pages -/

/-- What is searched for: the pattern of `find_bytes`, or the target and the kind of `search`. -/
inductive Query
  | bytes (pattern : String)
  | search (target : String) (kind : Option String)

namespace Query

def text : Query → String
  | bytes pattern => pattern
  | search target _ => target

def tool : Query → Tool
  | bytes _ => .findBytes
  | search _ _ => .search

/-- The arguments of a call; `value` spells the pattern or the target. -/
def args (value : Json) (limit offset : Nat) : Query → List (String × Json)
  | bytes _ => [("patterns", value), ("limit", natJson limit), ("offset", natJson offset)]
  | search _ kind =>
    [("targets", value), ("kind", optString kind), ("limit", natJson limit), ("offset", natJson offset)]

def request (maxResults : Nat) : Query → Except ToolError IdaRequest
  | bytes pattern => .ok (.findBytes pattern maxResults)
  | search target kind => searchRequest (searchKind kind) target maxResults

/-- The key that names the pattern or the target in an answer. -/
def key : Query → String
  | bytes _ => "pattern"
  | search _ _ => "target"

/-- The matches the worker's search yields. -/
def hits (db : Database) (q : Query) : Except ToolError (List Nat) := do db.hits (← q.request 0)

end Query

/-- A backend: how it answers a call. -/
abbrev Answers := BackendCall → Except ToolError Reply

def localBackend (w : Worker) : Answers := fun c => w.answer c.request

/-- The pooled backend over a child; `refused` is the transport error of arguments that the child does not accept. -/
def pooledBackend (child : Server) (w : Worker) (refused : ToolError) : Answers := fun c =>
  (pooled child w c).2.mapError fun
    | .tool e => e
    | .params => refused

/-- The matches and `next_offset` of the first entry of an answer. -/
def readPage : Except Failure Payload → Option (List Json × Option Nat)
  | .ok (.json j) => do
    let first ← (← (← j.get? "results").asArr).head?
    let found ← (← first.get? "matches").asArr
    match ← first.get? "next_offset" with
    | .null => some (found, none)
    | .int n => some (found, some n.toNat)
    | _ => none
  | _ => none

def Query.page (srv : Server) (backend : Answers) (value : Json) (limit : Nat) (q : Query) (offset : Nat) :
    Option (List Json × Option Nat) :=
  readPage ((callTool srv q.tool (q.args value limit offset)).run backend).2

/-- The pages from offset 0 to the one without `next_offset` are `found`. -/
def Collects (page : Nat → Option (List Json × Option Nat)) (found : List Json) : Prop :=
  ∃ fuel, fetch page fuel 0 = some found

theorem page_eq {srv : Server} {backend : Answers} {q : Query} {value : Json} {limit offset : Nat} {req : IdaRequest}
    (hv : valueToStrings srv.fromStr value = .ok [q.text]) (hl : limit ≤ i64Max) (ho : offset ≤ i64Max)
    (hreq : q.request (min (offset + min limit 10000) 20000) = .ok req) :
    q.page srv backend value limit offset =
      readPage (.ok (.json (.obj [("results", .arr [searchEntry q.key q.text offset (min limit 10000)
        (backend ⟨req, none⟩)])]))) := by
  have hworker : workerMaxResults srv.mode none = .done none := by
    unfold workerMaxResults
    split <;> rfl
  have hstrings : tryParam (valueToStrings srv.fromStr value) = .done [q.text] := by rw [hv]; rfl
  cases q with
  | bytes pattern =>
    have h : callTool srv .findBytes ((Query.bytes pattern).args value limit offset) = findBytes srv (value,
        sent (some limit) _, sent (some offset) _, none, none, ()) :=
      withParams_eq <| reads_field rfl rfl <| reads_field rfl (de_natJson hl le_rfl) <|
        reads_field rfl (de_natJson ho le_rfl) <| reads_missing rfl <| reads_missing rfl rfl
    obtain rfl := Except.ok.inj hreq
    rw [Query.page, Query.tool, h]
    simp only [findBytes, hstrings, tryParam_usize, hworker, Prog.done_bind, Option.getD_some]
    rfl
  | search target kind =>
    have h : callTool srv .search ((Query.search target kind).args value limit offset) = search srv (value,
        kind, sent (some limit) _, sent (some offset) _, none, none, ()) :=
      withParams_eq <| reads_field rfl rfl <| reads_field rfl (Ty.de_opt_str kind) <|
        reads_field rfl (de_natJson hl le_rfl) <| reads_field rfl (de_natJson ho le_rfl) <| reads_missing rfl <|
        reads_missing rfl rfl
    rw [Query.page, Query.tool, h]
    simp only [Query.request] at hreq
    simp only [search, hstrings, tryParam_usize, hworker, Prog.done_bind, Option.getD_some, Option.getD_none,
      Prog.collect, Query.text, hreq]
    rfl

theorem readPage_searchEntry (q : Query) (target : String) (offset limit : Nat) (r : Reply) :
    readPage (.ok (.json (.obj [("results", .arr [searchEntry q.key target offset limit (.ok r)])]))) =
      some (((matchesOf r.toJson).drop offset).take limit,
        if offset + limit < (matchesOf r.toJson).length then some (offset + limit) else none) := by
  simp only [searchEntry]
  cases q <;> split <;> rfl

/-- A backend answers the searches of `db`: the first `n` matches where `n` are asked for. -/
def Finds (backend : Answers) (db : Database) : Prop :=
  ∀ (req : IdaRequest) (n : Nat) (hits : List Nat), req.searchLimit = some n → req.Passed → 1 ≤ n →
    db.hits req = .ok hits →
    ∃ r, backend ⟨req, none⟩ = .ok r ∧ matchesOf r.toJson = ((hits.take n).map hexLit).map .str

theorem finds_local (w : Worker) (db : Database) : Finds (localBackend (w.withDatabase db)) db :=
  fun _ _ _ hs _ hn hh => withDatabase_answer w db hs hn hh

/-- The child returns no match the worker was not asked for, so the parent's bound takes nothing off. -/
theorem finds_pooled (child : Server) (w : Worker) (refused : ToolError) (db : Database) :
    Finds (pooledBackend child (w.withDatabase db) refused) db := by
  intro req n hits hs hpass hn hh
  obtain ⟨r, hr, hm⟩ := withDatabase_answer w db hs hn hh
  have hkept : req.Kept child.fromStr := by
    cases req <;> trivial
  have hcarried : Carried child (w.withDatabase db) ⟨req, none⟩ := carried ⟨hpass, timeoutOk_none⟩ hkept
  refine ⟨req.returned r, by rw [pooledBackend, hcarried.2 r hr]; rfl, ?_⟩
  rw [IdaRequest.returned, hs]
  show (matchesOf r.toJson).take n = _
  rw [hm, ← List.map_take, ← List.map_take, List.take_take, min_self]

/-- What `search` asks for does not depend on how many matches it wants. -/
theorem searchRequest_cases (kind : List Char) (target : String) :
    (∃ e, ∀ n, searchRequest kind target n = .error e) ∨
    (∃ imm, ∀ n, searchRequest kind target n = .ok (.searchImm imm n)) ∨
    ∀ n, searchRequest kind target n = .ok (.searchText target n) := by
  simp only [searchRequest]
  by_cases himm : kind = "imm".toList ∨ kind = "immediate".toList
  · simp only [if_pos himm]
    cases parseAddress target with
    | error e => exact .inl ⟨e, fun _ => rfl⟩
    | ok imm => exact .inr (.inl ⟨imm, fun _ => rfl⟩)
  simp only [if_neg himm]
  by_cases htext : kind = "text".toList ∨ kind = "string".toList
  · exact .inr (.inr fun _ => if_pos htext)
  simp only [if_neg htext]
  cases parseAddress target with
  | error e => exact .inr (.inr fun _ => rfl)
  | ok imm => exact .inr (.inl ⟨imm, fun _ => rfl⟩)

theorem request_of_hits {q : Query} {db : Database} {hits : List Nat} (hh : q.hits db = .ok hits) (n : Nat) :
    ∃ req, q.request n = .ok req ∧ req.searchLimit = some n ∧ db.hits req = .ok hits := by
  cases q with
  | bytes pattern => exact ⟨_, rfl, rfl, hh⟩
  | search target kind =>
    simp only [Query.hits, Query.request] at hh ⊢
    obtain ⟨e, h⟩ | ⟨imm, h⟩ | h := searchRequest_cases (searchKind kind) target
    · rw [h] at hh
      cases hh
    · rw [h] at hh
      exact ⟨_, h n, rfl, hh⟩
    · rw [h] at hh
      exact ⟨_, h n, rfl, hh⟩

theorem request_passed {q : Query} {n : Nat} {req : IdaRequest} (hn : n ≤ 20000) (h : q.request n = .ok req) :
    req.Passed := by
  cases q with
  | bytes pattern =>
    obtain rfl := Except.ok.inj h
    exact hn
  | search target kind => exact searchRequest_passed hn h

section

variable {srv : Server} {backend : Answers} {q : Query} {db : Database} {value : Json} {limit : Nat} {hits : List Nat}
  (hb : Finds backend db) (hv : valueToStrings srv.fromStr value = .ok [q.text]) (h1 : 1 ≤ limit)
  (hl : limit ≤ i64Max) (hh : q.hits db = .ok hits)
include hb hv h1 hl hh

/-- No page has a next one: the worker was asked for the matches up to the end of this page. -/
theorem page_last {offset : Nat} (ho : offset ≤ i64Max) :
    q.page srv backend value limit offset =
      some (((((hits.take (min (offset + min limit 10000) 20000)).drop offset).take (min limit 10000)).map hexLit).map
        .str, none) := by
  have hmax : 1 ≤ min (offset + min limit 10000) 20000 := by omega
  obtain ⟨req, hreq, hs, hhits⟩ := request_of_hits hh (min (offset + min limit 10000) 20000)
  obtain ⟨r, hr, hm⟩ := hb req _ hits hs (request_passed (Nat.min_le_right ..) hreq) hmax hhits
  have hnext : ¬ offset + min limit 10000 < (matchesOf r.toJson).length := by
    rw [hm]
    simp only [List.length_map, List.length_take]
    omega
  rw [page_eq hv hl ho hreq, hr, readPage_searchEntry, if_neg hnext, hm]
  simp only [List.map_take, List.map_drop]

theorem collects_iff :
    Collects (q.page srv backend value limit) (((hits.take 20000).map hexLit).map .str) ↔
      hits.length ≤ min limit 10000 := by
  have hpage := page_last hb hv h1 hl hh (Nat.zero_le i64Max)
  have hmax : min (0 + min limit 10000) 20000 = min limit 10000 := by omega
  rw [hmax, List.drop_zero, List.take_take, min_self] at hpage
  have hfetch : ∀ fuel, fetch (q.page srv backend value limit) (fuel + 1) 0 =
      some (((hits.take (min limit 10000)).map hexLit).map .str) := by
    intro fuel
    rw [fetch, hpage]
    rfl
  constructor
  · rintro ⟨fuel, h⟩
    cases fuel with
    | zero => cases h
    | succ fuel =>
      rw [hfetch] at h
      have hlen := congrArg List.length (Option.some.inj h)
      simp only [List.length_map, List.length_take] at hlen
      omega
  · intro hle
    have hall : hits.length ≤ 20000 := by omega
    refine ⟨1, ?_⟩
    rw [hfetch, List.take_of_length_le hle, List.take_of_length_le hall]

end

/-- The pages of a search are the first 20000 matches exactly if the first page holds them all, with a local worker
and through a pooled child. -/
theorem search_pages_complete_iff (srv child : Server) (refused : ToolError) (w : Worker) (db : Database) (q : Query)
    (value : Json) (limit : Nat) (hits : List Nat) (hv : valueToStrings srv.fromStr value = .ok [q.text])
    (h1 : 1 ≤ limit) (hl : limit ≤ i64Max) (hh : q.hits db = .ok hits) :
    (Collects (q.page srv (localBackend (w.withDatabase db)) value limit) (((hits.take 20000).map hexLit).map .str) ↔
      hits.length ≤ min limit 10000) ∧
    (Collects (q.page srv (pooledBackend child (w.withDatabase db) refused) value limit)
        (((hits.take 20000).map hexLit).map .str) ↔
      hits.length ≤ min limit 10000) :=
  ⟨collects_iff (finds_local w db) hv h1 hl hh, collects_iff (finds_pooled child w refused db) hv h1 hl hh⟩

/-- A database in which every text is found twice. -/
def twoHits : Database := ⟨[], fun _ _ => [], fun _ => [0x1000, 0x2000], fun _ => []⟩

theorem search_pages_complete_two :
    Collects ((Query.search "main" (some "text")).page sampleServer
      (localBackend (sampleWorker.withDatabase twoHits)) (.arr [.str "main"]) 2) [.str "0x1000", .str "0x2000"] :=
  (search_pages_complete_iff sampleServer sampleServer .noDatabaseOpen sampleWorker twoHits
    (.search "main" (some "text")) (.arr [.str "main"]) 2 [0x1000, 0x2000] rfl (by decide) (by decide) rfl).1.2 (by decide)

/-- Two matches in pages of one: the first page has no next one, locally and through a child. -/
theorem second_page_lost :
    (Query.search "main" (some "text")).page sampleServer (localBackend (sampleWorker.withDatabase twoHits))
        (.arr [.str "main"]) 1 0 = some ([.str "0x1000"], none) ∧
    (Query.search "main" (some "text")).page sampleServer
        (pooledBackend sampleServer (sampleWorker.withDatabase twoHits) .noDatabaseOpen)
        (.arr [.str "main"]) 1 0 = some ([.str "0x1000"], none) ∧
    ¬ Collects ((Query.search "main" (some "text")).page sampleServer
        (localBackend (sampleWorker.withDatabase twoHits)) (.arr [.str "main"]) 1) [.str "0x1000", .str "0x2000"] := by
  have hh : (Query.search "main" (some "text")).hits twoHits = .ok [0x1000, 0x2000] := rfl
  refine ⟨page_last (finds_local _ _) rfl (by decide) (by decide) hh (by decide),
    page_last (finds_pooled _ _ _ _) rfl (by decide) (by decide) hh (by decide), fun h => ?_⟩
  have hle := (collects_iff (finds_local _ _) rfl (by decide) (by decide) hh).1 h
  revert hle
  decide

end Backend

end IdaRs
