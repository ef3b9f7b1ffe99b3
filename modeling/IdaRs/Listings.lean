import IdaRs.Idb
import IdaRs.Lib.Window

/-!
# Listings by pages (`src/ida/handlers/functions.rs` 14-63, `strings.rs`, `globals.rs` 9-59, `types.rs` 11-63,
`structs.rs` 51-101, `xrefs.rs`, `imports.rs` 8-74)

The listing handlers share one counting loop, `Window.scan`, with their own filter and row; the cross references of an
address are a walk along their chain, imports and exports a loop that skips and stops. `list_functions` alone reserves
its page before it looks at the database, so a `limit` that no vector can have stops it. `lowercase` is
`str::to_lowercase`.
-/

namespace IdaRs

namespace Handlers

open Window

/-! ### Rows -/

structure StringInfo where
  address : String
  content : String
  length : Nat
deriving DecidableEq, Repr

/-- A row of `analyze_strings` and of `xrefs_to_string`. -/
structure StringXrefInfo where
  address : String
  content : String
  length : Nat
  xrefs : List String
  xrefCount : Nat
deriving DecidableEq, Repr

structure GlobalInfo where
  address : String
  name : String
  isPublic : Bool
  isWeak : Option Bool
deriving DecidableEq, Repr

structure XRefInfo where
  src : String
  dst : String
  type : String
  isCode : Bool
deriving DecidableEq, Repr

structure ImportInfo where
  address : String
  name : String
  ordinal : Nat
deriving DecidableEq, Repr

structure ExportInfo where
  address : String
  name : String
  isPublic : Bool
deriving DecidableEq, Repr

/-- `FunctionListResult`, `StringListResult` and so on: the rows, `total` and `next_offset`. -/
structure Page (ρ : Type) where
  rows : List ρ
  total : Nat
  nextOffset : Option Nat
deriving DecidableEq, Repr

structure XRefListResult where
  xrefs : List XRefInfo
  truncated : Bool
  nextOffset : Option Nat
deriving DecidableEq, Repr

def stringInfo (s : Address × String) : StringInfo := ⟨fmtAddr s.1, s.2, s.2.utf8ByteSize⟩

/-- At most `maxXrefs` of the places that refer to a string. -/
def stringXrefInfo (db : Idb) (maxXrefs : Nat) (s : Address × String) : StringXrefInfo :=
  let xrefs := ((db.xrefsTo s.1).take maxXrefs).map fun x => fmtAddr x.src
  ⟨fmtAddr s.1, s.2, s.2.utf8ByteSize, xrefs, xrefs.length⟩

def globalInfo (n : NameItem) : GlobalInfo := ⟨fmtAddr n.address, n.name, n.isPublic, some n.isWeak⟩

def toXrefInfo (x : XRef) : XRefInfo := ⟨fmtAddr x.src, fmtAddr x.dst, x.type.debug, x.isCode⟩

def importInfo (count : Nat) (n : NameItem) : ImportInfo := ⟨fmtAddr n.address, n.name, count⟩

def exportInfo (n : NameItem) : ExportInfo := ⟨fmtAddr n.address, n.name, n.isPublic⟩

/-! ### Filters -/

section

variable (lowercase : String → String)

/-- `filter_lower`: no filter, or one that the lower-case name contains. -/
def passes (filter : Option String) (name : String) : Bool :=
  match filter.map lowercase with
  | some f => containsText (lowercase name).toList f
  | none => true

/-- The comparison of `find_string`. -/
def stringMatches (query : String) (exact caseInsensitive : Bool) (content : String) : Bool :=
  let queryNorm := if caseInsensitive then lowercase query else query
  let hay := if caseInsensitive then lowercase content else content
  if exact then decide (hay = queryNorm) else containsText hay.toList queryNorm

/-! ### Handlers -/

/-- The counting loop of a listing, and what is made of it. -/
def countedPage {α ρ : Type} (keep : α → Bool) (row : α → ρ) (offset limit : Nat) (items : List α) : Page ρ :=
  let (total, rows) := scan keep row offset limit items 0 []
  let next := saturatingAdd offset rows.length
  ⟨rows, total, if next < total then some next else none⟩

/-- A function's row has two strings and a number. -/
def functionInfoSize : Nat := 56

def handleListFunctions (idb : Option Idb) (offset limit : Nat) (filter : Option String) :
    Exec (Page FunctionInfo) := do
  let db ← liftTool (opened idb)
  withCapacity db.grants functionInfoSize limit
  return countedPage (fun f => passes lowercase filter f.display) Function.info offset limit db.functions

def handleStrings (idb : Option Idb) (offset limit : Nat) (filter : Option String) : Exec (Page StringInfo) := do
  let db ← liftTool (opened idb)
  return countedPage (fun s => passes lowercase filter s.2) stringInfo offset limit db.strings

def handleAnalyzeStrings (idb : Option Idb) (query : Option String) (offset limit : Nat) :
    Exec (Page StringXrefInfo) := do
  let db ← liftTool (opened idb)
  return countedPage (fun s => passes lowercase query s.2) (stringXrefInfo db 64) offset limit db.strings

def handleFindString (idb : Option Idb) (query : String) (exact caseInsensitive : Bool) (offset limit : Nat) :
    Exec (Page StringInfo) := do
  let db ← liftTool (opened idb)
  return countedPage (fun s => stringMatches lowercase query exact caseInsensitive s.2) stringInfo offset limit db.strings

def handleXrefsToString (idb : Option Idb) (query : String) (exact caseInsensitive : Bool)
    (offset limit maxXrefs : Nat) : Exec (Page StringXrefInfo) := do
  let db ← liftTool (opened idb)
  let maxXrefs := min (max maxXrefs 1) 1024
  return countedPage (fun s => stringMatches lowercase query exact caseInsensitive s.2) (stringXrefInfo db maxXrefs)
    offset limit db.strings

/-- Named addresses outside of functions. -/
def handleListGlobals (idb : Option Idb) (query : Option String) (offset limit : Nat) : Exec (Page GlobalInfo) := do
  let db ← liftTool (opened idb)
  return countedPage (fun n => passes lowercase query n.name && (db.functionAt n.address).isNone) globalInfo offset limit
    db.names

/-- `1..limit`. -/
def ordinals (db : Idb) : List Nat := List.range' 1 (db.udtOrdinalLimit - 1)

def handleLocalTypes (idb : Option Idb) (offset limit : Nat) (filter : Option String) : Exec (Page LocalType) := do
  let db ← liftTool (opened idb)
  return countedPage (fun t => passes lowercase filter t.name) id offset limit ((ordinals db).filterMap db.localTypeInfo)

def handleStructs (idb : Option Idb) (offset limit : Nat) (filter : Option String) : Exec (Page UdtInfo) := do
  let db ← liftTool (opened idb)
  return countedPage (fun t => passes lowercase filter t.name) id offset limit ((ordinals db).filterMap db.udtInfo)

end

def takeWindow {τ : Type} (first : Option τ) (offset limit : Nat) (advance : τ → Option τ) : List τ × Bool :=
  walk advance offset limit first 0 ⟨[], Nat.zero_le _⟩

/-- A row of a cross reference has three strings and a flag. -/
def xrefInfoSize : Nat := 80

def collectWindow (grants : Nat → Bool) (chain : List XRef) (offset limit : Nat) : Exec XRefListResult := do
  let (window, truncated) := takeWindow (cursor chain) offset limit fun x => cursor x.2
  withCapacity grants xrefInfoSize window.length
  let xrefs := window.map fun x => toXrefInfo x.1
  let nextOffset ← if truncated then some <$> checkedAdd offset xrefs.length else pure none
  return ⟨xrefs, truncated, nextOffset⟩

def handleXrefsTo (idb : Option Idb) (addr : Address) (offset limit : Nat) : Exec XRefListResult := do
  let db ← liftTool (opened idb)
  collectWindow db.grants (db.xrefsTo addr) offset limit

def handleXrefsFrom (idb : Option Idb) (addr : Address) (offset limit : Nat) : Exec XRefListResult := do
  let db ← liftTool (opened idb)
  collectWindow db.grants (db.xrefsFrom addr) offset limit

/-- Imports are names in external segments; the others are not counted. -/
def handleImports (idb : Option Idb) (offset limit : Nat) : Exec (List ImportInfo) := do
  let db ← liftTool (opened idb)
  return skipScan importInfo offset limit (db.names.filter fun n => db.importSegmentAt n.address) 0 []

def handleExports (idb : Option Idb) (offset limit : Nat) : Exec (List ExportInfo) := do
  let db ← liftTool (opened idb)
  return skipScan (fun _ n => exportInfo n) offset limit db.names 0 []

/-! ### Each loop sees a window -/

/-- The saturating sum does not saturate while elements remain. -/
theorem saturatingAdd_lt {a b n : Nat} (h : n ≤ u64Max) :
    (if saturatingAdd a b < n then some (saturatingAdd a b) else none) = if a + b < n then some (a + b) else none := by
  by_cases hlt : a + b < n
  · have hsum : saturatingAdd a b = a + b := Nat.min_eq_left (by omega)
    rw [hsum]
  · have hge : ¬ saturatingAdd a b < n := by
      unfold saturatingAdd
      omega
    rw [if_neg hlt, if_neg hge]

theorem countedPage_eq {α ρ : Type} (keep : α → Bool) (row : α → ρ) (offset limit : Nat) {items : List α}
    (h : Fits items.length) :
    countedPage keep row offset limit items =
      ⟨window ((items.filter keep).map row) offset limit, ((items.filter keep).map row).length,
        nextOffset ((items.filter keep).map row) offset limit⟩ := by
  have htotal : (items.filter keep).length ≤ u64Max := (List.length_filter_le ..).trans h.le
  simp only [countedPage, scan_eq, Nat.sub_zero, List.length_nil, List.nil_append, Nat.zero_add]
  rw [saturatingAdd_lt htotal, nextOffset, List.length_map]

theorem takeWindow_eq (chain : List XRef) (offset limit : Nat) :
    ∃ items, takeWindow (cursor chain) offset limit (fun x => cursor x.2) =
        (items, decide (limit < chain.length - offset)) ∧
      items.map Prod.fst = window chain offset limit := by
  obtain ⟨hitems, hmore⟩ := walk_eq offset limit chain 0 ⟨[], Nat.zero_le _⟩
  simp only [List.map_nil, List.nil_append, Nat.sub_zero, List.length_nil] at hitems hmore
  exact ⟨_, Prod.ext rfl hmore, hitems⟩

theorem collectWindow_eq {grants : Nat → Bool} {chain : List XRef} (h : Fits chain.length)
    (hgrants : ∀ n size, n ≤ chain.length → size ≤ 128 → grants (n * size) = true) (offset limit : Nat) :
    collectWindow grants chain offset limit =
      .ok ⟨window (chain.map toXrefInfo) offset limit, decide (limit < chain.length - offset),
        nextOffset (chain.map toXrefInfo) offset limit⟩ := by
  obtain ⟨items, htake, hitems⟩ := takeWindow_eq chain offset limit
  rw [collectWindow, htake]
  dsimp only
  have hlen : items.length = (window chain offset limit).length := by
    rw [← hitems, List.length_map]
  have hrows : (items.map fun x => toXrefInfo x.1) = window (chain.map toXrefInfo) offset limit := by
    rw [window_map, ← hitems, List.map_map]
    rfl
  have hle : items.length ≤ chain.length := by
    rw [hlen, length_window]
    omega
  have hfit : Reserves grants xrefInfoSize items.length := by
    refine ⟨?_, .inr (hgrants _ _ hle (by decide))⟩
    have hchain : chain.length * 128 ≤ isizeMax := h
    simp only [xrefInfoSize]
    omega
  rw [withCapacity_ok hfit, hrows, nextOffset_map]
  simp only [bind, Except.bind]
  by_cases hlt : limit < chain.length - offset
  · have hnext : nextOffset chain offset limit = some (offset + limit) :=
      nextOffset_eq_some.2 ⟨rfl, by omega⟩
    have hwin : (window (chain.map toXrefInfo) offset limit).length = limit := by
      rw [length_window, List.length_map]
      omega
    have hsum : checkedAdd offset limit = .ok (offset + limit) := by
      have hle := h.le
      exact if_pos (by omega)
    rw [decide_eq_true hlt, if_pos rfl, hwin, hsum, hnext]
    rfl
  · have hnext : nextOffset chain offset limit = none := by
      rw [Option.eq_none_iff_forall_ne_some]
      intro next hsome
      have hin := (nextOffset_eq_some.1 hsome).2
      omega
    rw [decide_eq_false hlt, hnext]
    rfl

/-! ### All listings -/

/-- The listings with an offset, and what they are filtered by. -/
inductive Listing
  | functions (filter : Option String)
  | strings (filter : Option String)
  | findString (query : String) (exact caseInsensitive : Bool)
  | analyzeStrings (query : Option String)
  | xrefsToString (query : String) (exact caseInsensitive : Bool) (maxXrefs : Nat)
  | globals (query : Option String)
  | localTypes (filter : Option String)
  | structs (filter : Option String)
  | xrefsTo (addr : Address)
  | xrefsFrom (addr : Address)

/-- What an answer shows of a listing; there may be no `total`. -/
structure Answer (ρ : Type) where
  rows : List ρ
  total : Option Nat
  nextOffset : Option Nat
deriving DecidableEq, Repr

def Page.answer {ρ : Type} (p : Page ρ) : Answer ρ := ⟨p.rows, some p.total, p.nextOffset⟩

def XRefListResult.answer (r : XRefListResult) : Answer XRefInfo := ⟨r.xrefs, none, r.nextOffset⟩

namespace Listing

def Row : Listing → Type
  | functions _ => FunctionInfo
  | strings _ => StringInfo
  | findString _ _ _ => StringInfo
  | analyzeStrings _ => StringXrefInfo
  | xrefsToString _ _ _ _ => StringXrefInfo
  | globals _ => GlobalInfo
  | localTypes _ => LocalType
  | structs _ => UdtInfo
  | xrefsTo _ => XRefInfo
  | xrefsFrom _ => XRefInfo

section

variable (lowercase : String → String)

/-- The handler of a listing. -/
def answer (idb : Option Idb) (offset limit : Nat) : (q : Listing) → Exec (Answer q.Row)
  | functions filter => (handleListFunctions lowercase idb offset limit filter).map Page.answer
  | strings filter => (handleStrings lowercase idb offset limit filter).map Page.answer
  | findString query exact ci => (handleFindString lowercase idb query exact ci offset limit).map Page.answer
  | analyzeStrings query => (handleAnalyzeStrings lowercase idb query offset limit).map Page.answer
  | xrefsToString query exact ci maxXrefs =>
    (handleXrefsToString lowercase idb query exact ci offset limit maxXrefs).map Page.answer
  | globals query => (handleListGlobals lowercase idb query offset limit).map Page.answer
  | localTypes filter => (handleLocalTypes lowercase idb offset limit filter).map Page.answer
  | structs filter => (handleStructs lowercase idb offset limit filter).map Page.answer
  | xrefsTo addr => (handleXrefsTo idb addr offset limit).map XRefListResult.answer
  | xrefsFrom addr => (handleXrefsFrom idb addr offset limit).map XRefListResult.answer

/-- The whole of a listing: the rows of the elements that pass its filter, in the order of the database. -/
def elements (db : Idb) : (q : Listing) → List q.Row
  | functions filter => (db.functions.filter fun f => passes lowercase filter f.display).map Function.info
  | strings filter => (db.strings.filter fun s => passes lowercase filter s.2).map stringInfo
  | findString query exact ci => (db.strings.filter fun s => stringMatches lowercase query exact ci s.2).map stringInfo
  | analyzeStrings query => (db.strings.filter fun s => passes lowercase query s.2).map (stringXrefInfo db 64)
  | xrefsToString query exact ci maxXrefs =>
    (db.strings.filter fun s => stringMatches lowercase query exact ci s.2).map
      (stringXrefInfo db (min (max maxXrefs 1) 1024))
  | globals query =>
    (db.names.filter fun n => passes lowercase query n.name && (db.functionAt n.address).isNone).map globalInfo
  | localTypes filter => ((ordinals db).filterMap db.localTypeInfo).filter fun t => passes lowercase filter t.name
  | structs filter => ((ordinals db).filterMap db.udtInfo).filter fun t => passes lowercase filter t.name
  | xrefsTo addr => (db.xrefsTo addr).map toXrefInfo
  | xrefsFrom addr => (db.xrefsFrom addr).map toXrefInfo

/-- The number of elements, for a listing that reports it. -/
def total (db : Idb) (q : Listing) : Option Nat :=
  match q with
  | xrefsTo _ | xrefsFrom _ => none
  | q => some (q.elements lowercase db).length

/-- The page of a listing at an offset. -/
def page (db : Idb) (q : Listing) (offset limit : Nat) : Answer q.Row :=
  ⟨window (q.elements lowercase db) offset limit, q.total lowercase db,
    nextOffset (q.elements lowercase db) offset limit⟩

/-- `list_functions` reserves its page. -/
def Reserves (db : Idb) (limit : Nat) : Listing → Prop
  | functions _ => Handlers.Reserves db.grants functionInfoSize limit
  | _ => True

/-- Every page is the slice of the listing at its offset, and who starts at 0 and follows the next offsets sees the
whole listing, each element once and in its order. -/
def Partitions (db : Idb) (limit : Nat) (q : Listing) : Prop :=
  (∀ offset, q.answer lowercase (some db) offset limit = .ok (q.page lowercase db offset limit)) ∧
    ∃ fuel, fetch (fun offset => (q.answer lowercase (some db) offset limit).toOption.map fun a => (a.rows, a.nextOffset))
      fuel 0 = some (q.elements lowercase db)

end

theorem ordinals_filterMap_fit {ρ : Type} (db : Idb) (info : Nat → Option ρ) :
    Fits ((ordinals db).filterMap info).length := by
  refine db.ordinals_fit.mono ((List.length_filterMap_le ..).trans ?_)
  rw [ordinals, List.length_range']
  exact Nat.sub_le ..

/-- Each handler answers with the page, if the page can be reserved. -/
theorem answer_eq (lowercase : String → String) (db : Idb) {q : Listing} (offset : Nat) {limit : Nat}
    (hfit : q.Reserves db limit) :
    q.answer lowercase (some db) offset limit = .ok (q.page lowercase db offset limit) := by
  cases q with
  | functions filter =>
    have hpage := countedPage_eq (fun f => passes lowercase filter f.display) Function.info offset limit db.functions_fit
    have hroom : withCapacity db.grants functionInfoSize limit = .ok () := withCapacity_ok hfit
    simp only [answer, handleListFunctions, liftTool_opened, bind, Except.bind, hroom, hpage]
    rfl
  | strings | findString | analyzeStrings | xrefsToString =>
    simp only [answer, handleStrings, handleFindString, handleAnalyzeStrings, handleXrefsToString, liftTool_opened, bind,
      Except.bind, countedPage_eq _ _ _ _ db.strings_fit]
    rfl
  | globals =>
    simp only [answer, handleListGlobals, liftTool_opened, bind, Except.bind, countedPage_eq _ _ _ _ db.names_fit]
    rfl
  | localTypes | structs =>
    simp only [answer, handleLocalTypes, handleStructs, liftTool_opened, bind, Except.bind,
      countedPage_eq _ _ _ _ (ordinals_filterMap_fit db _), List.map_id]
    rfl
  | xrefsTo addr =>
    simp only [answer, handleXrefsTo, liftTool_opened, bind, Except.bind, collectWindow_eq (db.xrefsTo_fit addr)
      fun n size hn => db.grants_xrefs addr n size (.inl hn)]
    rfl
  | xrefsFrom addr =>
    simp only [answer, handleXrefsFrom, liftTool_opened, bind, Except.bind, collectWindow_eq (db.xrefsFrom_fit addr)
      fun n size hn => db.grants_xrefs addr n size (.inr hn)]
    rfl

/-- If it cannot, it ends without an answer. -/
theorem answer_stops (lowercase : String → String) (db : Idb) {q : Listing} (offset : Nat) {limit : Nat}
    (hfit : ¬ q.Reserves db limit) :
    q.answer lowercase (some db) offset limit = .error .capacityOverflow ∨
      q.answer lowercase (some db) offset limit = .error .allocRefused := by
  cases q with
  | functions filter =>
    refine (withCapacity_stop hfit).imp ?_ ?_ <;> intro hstop <;>
      simp only [answer, handleListFunctions, liftTool_opened, bind, Except.bind, hstop] <;> rfl
  | _ => exact absurd trivial hfit

theorem partitions_iff (lowercase : String → String) (db : Idb) {limit : Nat} (hlimit : 1 ≤ limit) (q : Listing) :
    q.Partitions lowercase db limit ↔ q.Reserves db limit := by
  constructor
  · rintro ⟨hpage, -⟩
    by_contra hlarge
    have h := hpage 0
    rcases answer_stops lowercase db 0 hlarge with hstop | hstop <;> rw [hstop] at h <;> cases h
  · intro h
    have hpage : ∀ offset, q.answer lowercase (some db) offset limit = .ok (q.page lowercase db offset limit) := by
      intro offset
      exact answer_eq lowercase db offset h
    refine ⟨hpage, (q.elements lowercase db).length + 1, ?_⟩
    refine fetch_eq hlimit ?_ (Nat.zero_le _) (Nat.lt_succ_self _)
    intro offset
    rw [hpage]
    rfl

end Listing

/-- Imports have their place in the whole list as ordinal. -/
def imports (db : Idb) : List ImportInfo :=
  ((db.names.filter fun n => db.importSegmentAt n.address).zipIdx).map fun p => importInfo p.2 p.1

def exports (db : Idb) : List ExportInfo := db.names.map exportInfo

theorem handleImports_eq (db : Idb) (offset limit : Nat) :
    handleImports (some db) offset limit = .ok (window (imports db) offset limit) := by
  simp only [handleImports, skipScan_eq, List.nil_append, Nat.sub_zero, List.length_nil]
  rfl

theorem handleExports_eq (db : Idb) (offset limit : Nat) :
    handleExports (some db) offset limit = .ok (window (exports db) offset limit) := by
  have hrow : ((db.names.zipIdx 0).map fun p => exportInfo p.1) = exports db := by
    rw [show (fun p : NameItem × Nat => exportInfo p.1) = exportInfo ∘ Prod.fst from rfl, ← List.map_map,
      List.zipIdx_map_fst, exports]
  simp only [handleExports, liftTool_opened, bind, Except.bind, skipScan_eq, List.nil_append, Nat.sub_zero,
    List.length_nil, hrow]
  rfl

/-- The pages of a listing partition it, unless its page cannot be reserved; imports and exports are slices. -/
theorem pages_partition (lowercase : String → String) (db : Idb) (limit : Nat) (h : 1 ≤ limit) :
    (∀ q : Listing, q.Partitions lowercase db limit ↔ q.Reserves db limit) ∧
      ∀ offset, handleImports (some db) offset limit = .ok (window (imports db) offset limit) ∧
        handleExports (some db) offset limit = .ok (window (exports db) offset limit) := by
  refine ⟨Listing.partitions_iff lowercase db h, ?_⟩
  intro offset
  exact ⟨handleImports_eq db offset limit, handleExports_eq db offset limit⟩

/-! Three functions, read two at a time. -/

def threeFunctions : Idb :=
  { Idb.empty with
    functions := [⟨0x1000, 0x1010, some "main", 16⟩, ⟨0x2000, 0x2008, none, 8⟩, ⟨0x3000, 0x3004, some "exit", 4⟩]
    functions_distinct := by decide
    functions_fit := show 3 * 128 ≤ isizeMax by decide }

theorem pages_partition_threeFunctions :
    (Listing.functions none).Partitions id threeFunctions 2 ∧
      (Listing.functions none).page id threeFunctions 0 2 =
        Page.answer ⟨[⟨"0x1000", "main", 16⟩, ⟨"0x2000", "sub_2000", 8⟩], 3, some 2⟩ :=
  ⟨((pages_partition id threeFunctions 2 (by decide)).1 _).2 ⟨by decide, .inr rfl⟩, rfl⟩

/-- A page of `u64::MAX` functions is never answered. -/
theorem largest_page_refused :
    ¬ ∀ (db : Idb) (limit : Nat), limit ≤ u64Max → 1 ≤ limit → (Listing.functions none).Partitions id db limit := by
  intro h
  have hpage := (h threeFunctions u64Max le_rfl (by decide)).1 0
  have hstop : (Listing.functions none).answer id (some threeFunctions) 0 u64Max = .error .capacityOverflow := rfl
  rw [hstop] at hpage
  cases hpage

end Handlers

end IdaRs
