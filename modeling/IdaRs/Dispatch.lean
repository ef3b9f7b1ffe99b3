import IdaRs.Listings
import IdaRs.Names
import IdaRs.Target

/-!
# The operations with pages in the worker of the daemon (`src/daemon/worker.rs` 289-646, 780-879)

`dispatch_analysis` resolves the target, reads the parameters of the operation from the JSON of the request, unchecked,
and calls the handler. Here are the arms that take an offset; `others` stands for the rest.
-/

namespace IdaRs

namespace Handlers

open Serde (Json)
open Window

/-! ### Targets of a worker (`src/daemon/target.rs`) -/

structure TargetRecord where
  id : String
  filename : String
  path : String
  idb : Option Idb

structure TargetManager where
  targets : List TargetRecord
  activeId : Option String

def TargetManager.resolve (mgr : TargetManager) (selector : Option String) : Except String String :=
  resolveSelector selector mgr.activeId (mgr.targets.map fun r => (r.id, r.filename, r.path))

def TargetManager.getIdb (mgr : TargetManager) (id : String) : Except String (Option Idb) :=
  match mgr.targets.find? fun r => decide (r.id = id) with
  | some r => .ok r.idb
  | none => .error ("Target not found: " ++ id)

/-! ### Parameters -/

/-- Why an operation yields no result: `Err`, or an end of the thread or of the process. -/
inductive Fault
  | message (text : String)
  | capacityOverflow
  | allocRefused
  | addOverflow
deriving DecidableEq, Repr

abbrev Dispatched := Except Fault

def liftMessage {α : Type} (x : Except String α) : Dispatched α := x.mapError .message

/-- `te`, on the error of a handler. -/
def te : Stop → Fault
  | .tool e => .message e.toString
  | .capacityOverflow => .capacityOverflow
  | .allocRefused => .allocRefused
  | .addOverflow => .addOverflow

/-- `map_err(te)` and the result as JSON. -/
def answered {α : Type} (x : Exec α) (json : α → Json) : Dispatched Json := (x.mapError te).map json

def textParam (p : Json) (key : String) : Option String := (p.get? key).bind Json.asStr

def paramStr (p : Json) (key : String) : Except String String :=
  match textParam p key with
  | some s => .ok s
  | none => .error ("Missing parameter: " ++ key)

/-- `as_u64`. -/
def asU64 : Json → Option Nat
  | .int n => if 0 ≤ n ∧ n ≤ u64Max then some n.toNat else none
  | _ => none

def paramUsize (p : Json) (key : String) (default : Nat) : Nat := ((p.get? key).bind asU64).getD default

def paramBool (p : Json) (key : String) (default : Bool) : Bool := ((p.get? key).bind Json.asBool).getD default

def parseAddr (s : String) : Except String Address :=
  let s := trim s.toList
  let value :=
    if ['0', 'x'] <+: s ∨ ['0', 'X'] <+: s then fromStrRadix 16 u64Max (s.drop 2) else fromStrRadix 10 u64Max s
  match value with
  | some a => .ok (UInt64.ofNat a)
  | none => .error ("Invalid address: " ++ String.ofList s)

def paramAddr (p : Json) (key : String) : Except String Address := do
  parseAddr (← paramStr p key)

/-! ### Results as JSON -/

def FunctionInfo.json (i : FunctionInfo) : Json :=
  .obj [("address", .str i.address), ("name", .str i.name), ("size", .int i.size)]

def StringInfo.json (i : StringInfo) : Json :=
  .obj [("address", .str i.address), ("content", .str i.content), ("length", .int i.length)]

def StringXrefInfo.json (i : StringXrefInfo) : Json :=
  .obj [("address", .str i.address), ("content", .str i.content), ("length", .int i.length),
    ("xrefs", .arr (i.xrefs.map .str)), ("xref_count", .int i.xrefCount)]

def GlobalInfo.json (i : GlobalInfo) : Json :=
  .obj ([("address", .str i.address), ("name", .str i.name), ("is_public", .bool i.isPublic)] ++
    i.isWeak.toList.map fun weak => ("is_weak", .bool weak))

def XRefInfo.json (i : XRefInfo) : Json :=
  .obj [("from", .str i.src), ("to", .str i.dst), ("type", .str i.type), ("is_code", .bool i.isCode)]

def ImportInfo.json (i : ImportInfo) : Json :=
  .obj [("address", .str i.address), ("name", .str i.name), ("ordinal", .int i.ordinal)]

def ExportInfo.json (i : ExportInfo) : Json :=
  .obj [("address", .str i.address), ("name", .str i.name), ("is_public", .bool i.isPublic)]

def LocalType.json (i : LocalType) : Json :=
  .obj [("ordinal", .int i.ordinal), ("name", .str i.name), ("decl", .str i.decl), ("kind", .str i.kind)]

/-- `StructSummary`. -/
def UdtInfo.json (i : UdtInfo) : Json :=
  .obj [("ordinal", .int i.ordinal), ("name", .str i.name), ("size", .int i.size), ("is_union", .bool i.isUnion),
    ("member_count", .int i.memberCount)]

/-- The field `next_offset` of a record that skips it when there is none. -/
def skippedNext (next : Option Nat) : List (String × Json) := next.toList.map fun n => ("next_offset", .int n)

/-- The field of `json!`. -/
def nullableNext (next : Option Nat) : List (String × Json) :=
  [("next_offset", Json.ofOption (fun n : Nat => .int n) next)]

def Page.json {ρ : Type} (key : String) (row : ρ → Json) (next : Option Nat → List (String × Json)) (p : Page ρ) :
    Json :=
  .obj ([(key, .arr (p.rows.map row)), ("total", .int p.total)] ++ next p.nextOffset)

def XRefListResult.json (r : XRefListResult) : Json :=
  .obj ([("xrefs", .arr (r.xrefs.map XRefInfo.json)), ("truncated", .bool r.truncated)] ++ skippedNext r.nextOffset)

/-! ### Operations -/

inductive PagedOp
  | functions
  | disasm
  | disasmFunctionAt
  | strings
  | findString
  | analyzeStrings
  | xrefsToString
  | imports
  | exports
  | globals
  | xrefsTo
  | xrefsFrom
  | localTypes
  | structs
deriving DecidableEq, Repr

def PagedOp.ofName : String → Option PagedOp
  | "functions" | "list_functions" => some functions
  | "disasm" => some disasm
  | "disasm_function_at" => some disasmFunctionAt
  | "strings" => some strings
  | "find_string" => some findString
  | "analyze_strings" => some analyzeStrings
  | "xrefs_to_string" => some xrefsToString
  | "imports" => some imports
  | "exports" | "export_funcs" => some exports
  | "globals" | "list_globals" => some globals
  | "xrefs_to" => some xrefsTo
  | "xrefs_from" => some xrefsFrom
  | "local_types" => some localTypes
  | "structs" => some structs
  | _ => none

section

variable (lowercase : String → String)

/-- The arm of an operation. -/
def PagedOp.run (idb : Option Idb) (p : Json) : PagedOp → Dispatched Json
  | functions =>
    let offset := paramUsize p "offset" 0
    let limit := paramUsize p "limit" 100
    let filter := textParam p "filter"
    answered (handleListFunctions lowercase idb offset limit filter)
      (Page.json "functions" FunctionInfo.json skippedNext)
  | disasm => do
    let offset := paramUsize p "offset" 0
    let count := paramUsize p "count" 20
    -- Fetch extra lines for offset, then slice
    let total ← (checkedAdd count offset).mapError te
    let lines ←
      match textParam p "name" with
      | some name => (handleDisasmByName idb name total).mapError te
      | none => do
        let addr ← liftMessage (paramAddr p "address")
        (handleDisasm idb addr total).mapError te
    return .obj [("disasm", .str (String.ofList (applyLineOffset lines offset)))]
  | disasmFunctionAt => do
    let addr ← liftMessage (paramAddr p "address")
    let offset := paramUsize p "offset" 0
    let count := paramUsize p "count" 200
    answered (disasmFunctionAtPage idb addr offset count) fun text =>
      .obj [("disasm", .str (String.ofList text)), ("has_more", .bool false)]
  | strings =>
    let offset := paramUsize p "offset" 0
    let limit := paramUsize p "limit" 100
    let filter := textParam p "filter"
    answered (handleStrings lowercase idb offset limit filter) (Page.json "strings" StringInfo.json skippedNext)
  | findString => do
    let query ← liftMessage (paramStr p "query")
    let exact := paramBool p "exact" false
    let ci := paramBool p "case_insensitive" false
    let offset := paramUsize p "offset" 0
    let limit := paramUsize p "limit" 100
    answered (handleFindString lowercase idb query exact ci offset limit)
      (Page.json "strings" StringInfo.json skippedNext)
  | analyzeStrings =>
    let query := textParam p "query"
    let offset := paramUsize p "offset" 0
    let limit := paramUsize p "limit" 100
    answered (handleAnalyzeStrings lowercase idb query offset limit)
      (Page.json "strings" StringXrefInfo.json nullableNext)
  | xrefsToString => do
    let query ← liftMessage (paramStr p "query")
    let exact := paramBool p "exact" false
    let ci := paramBool p "case_insensitive" false
    let offset := paramUsize p "offset" 0
    let limit := paramUsize p "limit" 100
    let maxXrefs := paramUsize p "max_xrefs" 10
    answered (handleXrefsToString lowercase idb query exact ci offset limit maxXrefs)
      (Page.json "strings" StringXrefInfo.json skippedNext)
  | imports =>
    let offset := paramUsize p "offset" 0
    let limit := paramUsize p "limit" 100
    answered (handleImports idb offset limit) fun rows => .arr (rows.map ImportInfo.json)
  | exports =>
    let offset := paramUsize p "offset" 0
    let limit := paramUsize p "limit" 100
    answered (handleExports idb offset limit) fun rows => .arr (rows.map ExportInfo.json)
  | globals =>
    let filter := textParam p "filter"
    let offset := paramUsize p "offset" 0
    let limit := paramUsize p "limit" 100
    answered (handleListGlobals lowercase idb filter offset limit) (Page.json "globals" GlobalInfo.json nullableNext)
  | xrefsTo => do
    let addr ← liftMessage (paramAddr p "address")
    let offset := paramUsize p "offset" 0
    let limit := min (max (paramUsize p "limit" 1000) 1) 10000
    answered (handleXrefsTo idb addr offset limit) XRefListResult.json
  | xrefsFrom => do
    let addr ← liftMessage (paramAddr p "address")
    let offset := paramUsize p "offset" 0
    let limit := min (max (paramUsize p "limit" 1000) 1) 10000
    answered (handleXrefsFrom idb addr offset limit) XRefListResult.json
  | localTypes =>
    let offset := paramUsize p "offset" 0
    let limit := paramUsize p "limit" 100
    let filter := textParam p "filter"
    answered (handleLocalTypes lowercase idb offset limit filter) (Page.json "types" LocalType.json skippedNext)
  | structs =>
    let offset := paramUsize p "offset" 0
    let limit := paramUsize p "limit" 100
    let filter := textParam p "filter"
    answered (handleStructs lowercase idb offset limit filter) (Page.json "structs" UdtInfo.json skippedNext)

def dispatchAnalysis (others : String → String → Json → Dispatched Json) (mgr : TargetManager) (op : String)
    (target : Option String) (p : Json) : Dispatched Json := do
  let id ← liftMessage (mgr.resolve target)
  match PagedOp.ofName op with
  | some op => do
    let idb ← liftMessage (mgr.getIdb id)
    op.run lowercase idb p
  | none => others op id p

end

/-- The arm `disasm` with an address answers with the page. -/
theorem run_disasm (lowercase : String → String) (idb : Option Idb) {p : Json} {addr : Address}
    (hname : textParam p "name" = none) (haddr : paramAddr p "address" = .ok addr) :
    PagedOp.disasm.run lowercase idb p =
      answered (disasmPage idb addr (paramUsize p "offset" 0) (paramUsize p "count" 20)) fun text =>
        .obj [("disasm", .str (String.ofList text))] := by
  simp only [PagedOp.run, disasmPage, answered, hname, haddr, liftMessage]
  cases checkedAdd (paramUsize p "count" 20) (paramUsize p "offset" 0) with
  | error e => rfl
  | ok total =>
    simp only [Except.mapError, bind, Except.bind]
    cases handleDisasm idb addr total with
    | error e => rfl
    | ok lines => rfl

/-! ### Sound answers -/

/-- The request is answered, with a result or an error, and what it announces as next is past the offset. -/
def Sound (x : Dispatched Json) (offset : Nat) : Prop :=
  (∀ f, x = .error f → ∃ text, f = .message text) ∧
    ∀ json next, x = .ok json → json.get? "next_offset" = some (.int next) → (offset : Int) < next

theorem sound_message (text : String) (offset : Nat) : Sound (.error (.message text)) offset := by
  constructor
  · rintro f ⟨⟩
    exact ⟨text, rfl⟩
  · rintro json next ⟨⟩

theorem sound_ok {json : Json} {offset : Nat} :
    Sound (.ok json) offset ↔ ∀ next, json.get? "next_offset" = some (.int next) → (offset : Int) < next := by
  constructor
  · rintro ⟨-, h⟩ next
    exact h json next rfl
  · intro h
    constructor
    · rintro f ⟨⟩
    · rintro json next ⟨⟩
      exact h next

theorem not_sound {f : Fault} (h : ∀ text, f ≠ .message text) (offset : Nat) : ¬ Sound (.error f) offset := by
  rintro ⟨hanswered, -⟩
  obtain ⟨text, htext⟩ := hanswered f rfl
  exact h text htext

/-- A JSON object that shows the next offset of an answer. -/
def ShowsNext (json : Json) (next : Option Nat) : Prop :=
  ∀ n : Int, json.get? "next_offset" = some (.int n) ↔ ∃ k : Nat, next = some k ∧ n = k

theorem showsNext_page {ρ : Type} {key : String} (hkey : key ≠ "next_offset") (row : ρ → Json) (p : Page ρ) :
    ShowsNext (p.json key row skippedNext) p.nextOffset ∧ ShowsNext (p.json key row nullableNext) p.nextOffset := by
  have hne : ("next_offset" == key) = false := by simpa using hkey.symm
  constructor <;> intro n <;> cases hnext : p.nextOffset <;>
    simp [Page.json, Json.get?, List.lookup_cons, hne, hnext, skippedNext, nullableNext, Json.ofOption, eq_comm]

theorem showsNext_xrefs (r : XRefListResult) : ShowsNext r.json r.nextOffset := by
  intro n
  cases hnext : r.nextOffset <;> simp [XRefListResult.json, Json.get?, List.lookup_cons, hnext, skippedNext, eq_comm]

/-- An answer of a listing is sound if and only if its page can be reserved and a page without room is not followed by
another. -/
theorem sound_listing_iff (lowercase : String → String) (db : Idb) (q : Listing) (offset limit : Nat) {α : Type}
    {x : Exec α} {shown : α → Answer q.Row} {json : α → Json}
    (hx : q.answer lowercase (some db) offset limit = x.map shown)
    (hjson : ∀ a, ShowsNext (json a) (shown a).nextOffset) :
    Sound (answered x json) offset ↔
      q.Reserves db limit ∧ (1 ≤ limit ∨ (q.elements lowercase db).length ≤ offset) := by
  by_cases hroom : q.Reserves db limit
  · rw [Listing.answer_eq lowercase db offset hroom] at hx
    cases x with
    | error e => cases hx
    | ok a =>
      have hnext : (shown a).nextOffset = nextOffset (q.elements lowercase db) offset limit :=
        (congrArg Answer.nextOffset (Except.ok.inj hx)).symm
      have hshow := hjson a
      rw [hnext] at hshow
      rw [answered, Except.mapError, Except.map, sound_ok, and_iff_right hroom]
      constructor
      · intro h
        by_contra hneg
        have hsome : nextOffset (q.elements lowercase db) offset limit = some (offset + limit) :=
          nextOffset_eq_some.2 ⟨rfl, by omega⟩
        have hlt := h (offset + limit : Nat) ((hshow _).2 ⟨_, hsome, rfl⟩)
        omega
      · intro h next hget
        obtain ⟨k, hk, rfl⟩ := (hshow next).1 hget
        obtain ⟨rfl, hlt⟩ := nextOffset_eq_some.1 hk
        omega
  · refine iff_of_false ?_ fun h => hroom h.1
    rcases Listing.answer_stops lowercase db offset hroom with hstop | hstop <;> rw [hstop] at hx <;> cases x <;>
      cases hx <;> exact not_sound (by rintro text ⟨⟩) offset

/-! ### Proper requests -/

/-- The listing that an operation pages without a bound on its limit. -/
def PagedOp.listing (p : Json) : PagedOp → Option Listing
  | functions => some (.functions (textParam p "filter"))
  | strings => some (.strings (textParam p "filter"))
  | findString => (textParam p "query").map fun query =>
    .findString query (paramBool p "exact" false) (paramBool p "case_insensitive" false)
  | analyzeStrings => some (.analyzeStrings (textParam p "query"))
  | xrefsToString => (textParam p "query").map fun query =>
    .xrefsToString query (paramBool p "exact" false) (paramBool p "case_insensitive" false)
      (paramUsize p "max_xrefs" 10)
  | globals => some (.globals (textParam p "filter"))
  | localTypes => some (.localTypes (textParam p "filter"))
  | structs => some (.structs (textParam p "filter"))
  | _ => none

/-- `disasm` has an address to begin at. -/
def disasmStarts (db : Idb) (p : Json) : Prop :=
  match textParam p "name" with
  | some name => (db.functions.find? (functionHits name)).isSome
  | none => ∃ addr, paramAddr p "address" = .ok addr

/-- The offsets and limits of a request that the worker can serve. -/
def PagedOp.Proper (lowercase : String → String) (idb : Option Idb) (p : Json) : PagedOp → Prop
  | disasm =>
    let total := paramUsize p "count" 20 + paramUsize p "offset" 0
    total ≤ u64Max ∧ ∀ db, idb = some db → disasmStarts db p → Reserves db.grants lineSize total
  | disasmFunctionAt =>
    ∀ addr, paramAddr p "address" = .ok addr → paramUsize p "count" 200 + paramUsize p "offset" 0 ≤ u64Max
  | op =>
    let limit := paramUsize p "limit" 100
    ∀ db q, idb = some db → op.listing p = some q →
      q.Reserves db limit ∧ (1 ≤ limit ∨ (q.elements lowercase db).length ≤ paramUsize p "offset" 0)

theorem answerLines_cases (addr : Address) (lines : List (List Char)) :
    (∃ e, answerLines addr lines = .error (.tool e)) ∨ ∃ text, answerLines addr lines = .ok text := by
  rw [answerLines]
  split
  · exact .inl ⟨_, rfl⟩
  · exact .inr ⟨_, rfl⟩

/-- Once it has an address, `disasm` is sound if and only if its lines can be reserved. -/
theorem sound_lines_iff (db : Idb) (addr : Address) (total offset : Nat) :
    Sound ((do
      let lines ← (handleDisasm (some db) addr total).mapError te
      return .obj [("disasm", .str (String.ofList (applyLineOffset lines offset)))]) : Dispatched Json) offset ↔
      Reserves db.grants lineSize total := by
  by_cases hfit : Reserves db.grants lineSize total
  · refine iff_of_true ?_ hfit
    simp only [handleDisasm, liftTool_opened, withCapacity_ok hfit, disasmLoop_eq, bind, Except.bind]
    obtain ⟨e, he⟩ | ⟨text, htext⟩ := answerLines_cases addr
      ([] ++ unroll (lineAt db fun _ => true) (following db) total addr)
    · rw [he]
      exact sound_message _ offset
    · rw [htext]
      exact sound_ok.2 (by rintro next ⟨⟩)
  · refine iff_of_false ?_ hfit
    rcases withCapacity_stop hfit with hover | hover <;>
      simp only [handleDisasm, liftTool_opened, hover, bind, Except.bind] <;>
      exact not_sound (by rintro text ⟨⟩) offset

theorem sound_disasm_iff (lowercase : String → String) (idb : Option Idb) (p : Json) :
    Sound (PagedOp.disasm.run lowercase idb p) (paramUsize p "offset" 0) ↔ PagedOp.disasm.Proper lowercase idb p := by
  by_cases hsum : paramUsize p "count" 20 + paramUsize p "offset" 0 ≤ u64Max
  · simp only [PagedOp.run, PagedOp.Proper, checkedAdd_ok hsum, and_iff_right hsum, disasmStarts]
    cases hname : textParam p "name" with
    | some name =>
      cases idb with
      | none => exact iff_of_true (sound_message _ _) (by rintro db ⟨⟩)
      | some db =>
        simp only [handleDisasmByName, liftTool_opened, bind, Except.bind, Option.some.injEq, forall_eq']
        cases hfind : db.functions.find? (functionHits name) with
        | none => exact iff_of_true (sound_message _ _) (by rintro ⟨⟩)
        | some f => exact (sound_lines_iff db f.start _ _).trans (by simp)
    | none =>
      cases haddr : paramAddr p "address" with
      | error e => exact iff_of_true (sound_message _ _) (by rintro db - ⟨addr, ⟨⟩⟩)
      | ok addr =>
        cases idb with
        | none => exact iff_of_true (sound_message _ _) (by rintro db ⟨⟩)
        | some db => exact (sound_lines_iff db addr _ _).trans (by simp)
  · have hover : checkedAdd (paramUsize p "count" 20) (paramUsize p "offset" 0) = .error .addOverflow := if_neg hsum
    refine iff_of_false ?_ fun h => hsum h.1
    simp only [PagedOp.run, hover]
    refine not_sound ?_ _
    rintro text ⟨⟩

/-- The walk of a function reserves nothing. -/
theorem sound_function (db : Idb) (addr : Address) (total offset : Nat) (json : List Char → Json)
    (hjson : ∀ text, (json text).get? "next_offset" = none) :
    Sound (answered (do return applyLineOffset (← handleDisasmFunctionAt (some db) addr total) offset) json)
      offset := by
  simp only [handleDisasmFunctionAt, liftTool_opened, bind, Except.bind]
  cases hfunc : db.functionAt addr with
  | none => exact sound_message _ offset
  | some func =>
    simp only [disasmLoop_eq]
    obtain ⟨e, he⟩ | ⟨text, htext⟩ := answerLines_cases addr
      ([] ++ unroll (lineAt db fun a => decide (a < func.stop)) (following db) total func.start)
    · rw [he]
      exact sound_message _ offset
    · rw [htext]
      refine sound_ok.2 ?_
      intro next h
      rw [hjson] at h
      cases h

theorem sound_disasmFunctionAt_iff (lowercase : String → String) (idb : Option Idb) (p : Json) :
    Sound (PagedOp.disasmFunctionAt.run lowercase idb p) (paramUsize p "offset" 0) ↔
      PagedOp.disasmFunctionAt.Proper lowercase idb p := by
  simp only [PagedOp.run, PagedOp.Proper]
  cases haddr : paramAddr p "address" with
  | error e => exact iff_of_true (sound_message _ _) (by rintro addr ⟨⟩)
  | ok addr =>
    simp only [liftMessage, Except.mapError, bind, Except.bind, Except.ok.injEq, forall_eq']
    by_cases hsum : paramUsize p "count" 200 + paramUsize p "offset" 0 ≤ u64Max
    · refine iff_of_true ?_ hsum
      rw [disasmFunctionAtPage, checkedAdd_ok hsum]
      cases idb with
      | none => exact sound_message _ _
      | some db => exact sound_function db addr _ _ _ fun _ => rfl
    · have hover : checkedAdd (paramUsize p "count" 200) (paramUsize p "offset" 0) = .error .addOverflow := if_neg hsum
      refine iff_of_false ?_ hsum
      rw [disasmFunctionAtPage, hover]
      refine not_sound ?_ _
      rintro text ⟨⟩

/-- An arm that answers with the pages of a listing. -/
theorem sound_arm_iff (lowercase : String → String) (idb : Option Idb) (q : Listing) (offset limit : Nat)
    (x : Option Idb → Exec (Page q.Row)) (hnone : x none = .error (.tool .noDatabaseOpen))
    (hsome : ∀ db, q.answer lowercase (some db) offset limit = (x (some db)).map Page.answer) {key : String}
    (hkey : key ≠ "next_offset") (row : q.Row → Json) {next : Option Nat → List (String × Json)}
    (hnext : next = skippedNext ∨ next = nullableNext) :
    Sound (answered (x idb) (Page.json key row next)) offset ↔
      ∀ db q', idb = some db → some q = some q' →
        q'.Reserves db limit ∧ (1 ≤ limit ∨ (q'.elements lowercase db).length ≤ offset) := by
  cases idb with
  | none =>
    rw [hnone]
    exact iff_of_true (sound_message _ _) (by rintro db q' ⟨⟩)
  | some db =>
    simp only [Option.some.injEq, forall_eq', forall_apply_eq_imp_iff]
    refine sound_listing_iff lowercase db q offset limit (hsome db) fun a => ?_
    rcases hnext with rfl | rfl
    · exact (showsNext_page hkey row a).1
    · exact (showsNext_page hkey row a).2

/-- The limit of cross references is at least one. -/
theorem sound_xrefs (q : Listing) {offset limit : Nat} (x : Option Idb → Exec XRefListResult) (hlimit : 1 ≤ limit)
    (hreserve : ∀ db, q.Reserves db limit) (hnone : x none = .error (.tool .noDatabaseOpen))
    (shown : XRefListResult → Answer q.Row)
    (hsome : ∀ db, q.answer id (some db) offset limit = (x (some db)).map shown)
    (hshown : ∀ a, (shown a).nextOffset = a.nextOffset) (idb : Option Idb) :
    Sound (answered (x idb) XRefListResult.json) offset := by
  cases idb with
  | none =>
    rw [hnone]
    exact sound_message _ _
  | some db =>
    refine (sound_listing_iff id db q offset limit (hsome db) fun a => ?_).2 ⟨?_, .inl hlimit⟩
    · rw [hshown]
      exact showsNext_xrefs a
    · exact hreserve db

theorem sound_run_iff (lowercase : String → String) (idb : Option Idb) (p : Json) (op : PagedOp) :
    Sound (op.run lowercase idb p) (paramUsize p "offset" 0) ↔ op.Proper lowercase idb p := by
  have hclamp : 1 ≤ min (max (paramUsize p "limit" 1000) 1) 10000 := by omega
  have hkeys : "functions" ≠ "next_offset" ∧ "strings" ≠ "next_offset" ∧ "globals" ≠ "next_offset" ∧
      "types" ≠ "next_offset" ∧ "structs" ≠ "next_offset" := by decide
  obtain ⟨hfunctions, hstrings, hglobals, htypes, hstructs⟩ := hkeys
  cases op with
  | disasm => exact sound_disasm_iff lowercase idb p
  | disasmFunctionAt => exact sound_disasmFunctionAt_iff lowercase idb p
  | functions =>
    exact sound_arm_iff lowercase idb (.functions _) _ _ (fun idb => handleListFunctions lowercase idb _ _ _) rfl
      (fun _ => rfl) hfunctions FunctionInfo.json (.inl rfl)
  | strings =>
    exact sound_arm_iff lowercase idb (.strings _) _ _ (fun idb => handleStrings lowercase idb _ _ _) rfl
      (fun _ => rfl) hstrings StringInfo.json (.inl rfl)
  | analyzeStrings =>
    exact sound_arm_iff lowercase idb (.analyzeStrings _) _ _ (fun idb => handleAnalyzeStrings lowercase idb _ _ _) rfl
      (fun _ => rfl) hstrings StringXrefInfo.json (.inr rfl)
  | globals =>
    exact sound_arm_iff lowercase idb (.globals _) _ _ (fun idb => handleListGlobals lowercase idb _ _ _) rfl
      (fun _ => rfl) hglobals GlobalInfo.json (.inr rfl)
  | localTypes =>
    exact sound_arm_iff lowercase idb (.localTypes _) _ _ (fun idb => handleLocalTypes lowercase idb _ _ _) rfl
      (fun _ => rfl) htypes LocalType.json (.inl rfl)
  | structs =>
    exact sound_arm_iff lowercase idb (.structs _) _ _ (fun idb => handleStructs lowercase idb _ _ _) rfl
      (fun _ => rfl) hstructs UdtInfo.json (.inl rfl)
  | findString =>
    simp only [PagedOp.run, PagedOp.Proper, PagedOp.listing, paramStr]
    cases textParam p "query" with
    | none => exact iff_of_true (sound_message _ _) (by rintro db q - ⟨⟩)
    | some query =>
      exact sound_arm_iff lowercase idb (.findString query _ _) _ _
        (fun idb => handleFindString lowercase idb query _ _ _ _) rfl (fun _ => rfl) hstrings StringInfo.json (.inl rfl)
  | xrefsToString =>
    simp only [PagedOp.run, PagedOp.Proper, PagedOp.listing, paramStr]
    cases textParam p "query" with
    | none => exact iff_of_true (sound_message _ _) (by rintro db q - ⟨⟩)
    | some query =>
      exact sound_arm_iff lowercase idb (.xrefsToString query _ _ _) _ _
        (fun idb => handleXrefsToString lowercase idb query _ _ _ _ _) rfl (fun _ => rfl) hstrings StringXrefInfo.json
        (.inl rfl)
  | xrefsTo =>
    refine iff_of_true ?_ (by rintro db q - ⟨⟩)
    simp only [PagedOp.run]
    cases paramAddr p "address" with
    | error e => exact sound_message _ _
    | ok addr =>
      exact sound_xrefs (.xrefsTo addr) (fun idb => handleXrefsTo idb addr _ _) hclamp (fun _ => trivial) rfl XRefListResult.answer
        (fun _ => rfl) (fun _ => rfl) idb
  | xrefsFrom =>
    refine iff_of_true ?_ (by rintro db q - ⟨⟩)
    simp only [PagedOp.run]
    cases paramAddr p "address" with
    | error e => exact sound_message _ _
    | ok addr =>
      exact sound_xrefs (.xrefsFrom addr) (fun idb => handleXrefsFrom idb addr _ _) hclamp (fun _ => trivial) rfl XRefListResult.answer
        (fun _ => rfl) (fun _ => rfl) idb
  | imports | exports =>
    refine iff_of_true ?_ (by rintro db q - ⟨⟩)
    cases idb with
    | none => exact sound_message _ _
    | some db => exact sound_ok.2 (by rintro next ⟨⟩)

/-- A request of an operation with pages is answered soundly if and only if its offset and limit are proper for the
database of its target. -/
theorem paging_request_sound_iff (lowercase : String → String) (others : String → String → Json → Dispatched Json)
    (mgr : TargetManager) (name : String) (op : PagedOp) (hop : PagedOp.ofName name = some op) (target : Option String)
    (p : Json) :
    Sound (dispatchAnalysis lowercase others mgr name target p) (paramUsize p "offset" 0) ↔
      ∀ id idb, mgr.resolve target = .ok id → mgr.getIdb id = .ok idb → op.Proper lowercase idb p := by
  simp only [dispatchAnalysis, hop]
  cases hid : mgr.resolve target with
  | error e => exact iff_of_true (sound_message _ _) (by rintro id idb ⟨⟩)
  | ok id =>
    cases hidb : mgr.getIdb id with
    | error e =>
      refine iff_of_true ?_ ?_
      · simpa [liftMessage, Except.mapError, bind, Except.bind, hidb] using sound_message e _
      · rintro id' idb ⟨⟩ h
        rw [hidb] at h
        cases h
    | ok idb =>
      have hrun := sound_run_iff lowercase idb p op
      constructor
      · rintro h id' idb' ⟨⟩ h'
        cases hidb.symm.trans h'
        exact hrun.1 (by simpa [liftMessage, Except.mapError, bind, Except.bind, hidb] using h)
      · intro h
        simpa [liftMessage, Except.mapError, bind, Except.bind, hidb] using hrun.2 (h id idb rfl hidb)

/-! A worker with one target. -/

def oneTarget : TargetManager := ⟨[⟨"t1", "app", "/bin/app", some threeFunctions⟩], some "t1"⟩

def unknownOperation (op _id : String) (_p : Json) : Dispatched Json :=
  .error (.message ("Unknown operation: " ++ op))

def pageParams (offset limit : Nat) : Json := .obj [("offset", .int offset), ("limit", .int limit)]

theorem paging_request_sound_iff_oneTarget :
    Sound (dispatchAnalysis id unknownOperation oneTarget "list_functions" none (pageParams 1 2)) 1 := by
  refine (paging_request_sound_iff id unknownOperation oneTarget "list_functions" .functions rfl none
    (pageParams 1 2)).2 ?_
  rintro _ idb ⟨⟩ ⟨⟩
  rintro _ q ⟨⟩ ⟨⟩
  exact ⟨⟨by decide, .inr rfl⟩, .inl (by decide)⟩

/-- A page without room announces itself; the largest page and the farthest line stop the worker. -/
theorem unsound_requests :
    ¬ Sound (dispatchAnalysis id unknownOperation oneTarget "functions" none (pageParams 0 0)) 0 ∧
      ¬ Sound (dispatchAnalysis id unknownOperation oneTarget "functions" none (pageParams 0 u64Max)) 0 ∧
      ¬ Sound (dispatchAnalysis id unknownOperation oneTarget "disasm" none (pageParams u64Max 0)) u64Max := by
  refine ⟨?_, ?_, ?_⟩
  · have hrun : dispatchAnalysis id unknownOperation oneTarget "functions" none (pageParams 0 0) =
        .ok (.obj [("functions", .arr []), ("total", .int 3), ("next_offset", .int 0)]) := rfl
    rw [hrun, sound_ok]
    intro h
    exact absurd (h 0 rfl) (by decide)
  · have hrun : dispatchAnalysis id unknownOperation oneTarget "functions" none (pageParams 0 u64Max) =
        .error .capacityOverflow := rfl
    rw [hrun]
    exact not_sound (by rintro text ⟨⟩) _
  · have hrun : dispatchAnalysis id unknownOperation oneTarget "disasm" none (pageParams u64Max 0) =
        .error .addOverflow := rfl
    rw [hrun]
    exact not_sound (by rintro text ⟨⟩) _

end Handlers

end IdaRs
