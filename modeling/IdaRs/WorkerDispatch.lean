import IdaRs.IntConvert
import IdaRs.Lib.Runs
import IdaRs.TargetManager
import IdaRs.WorkerCall

/-!
# What a worker does with its requests (`src/daemon/worker.rs` 245-311)

`dispatch_inner` on the thread of the library, one request after the other. A worker is to hold one database: `target.load`
is refused while one is loaded (`loads_alternate`), so a request without a target, which is what the router
sends, is a call on that database (`forwarded_served`).

The handlers are a parameter, `World.handlers`, of what a call answers and what it leaves of the database.
`PagedOp.run_eq` says which of them the calls with pages are.
-/

namespace IdaRs

open Serde (Json)
open Handlers (Idb paramStr paramBool textParam)

/-! ### Requests -/

/-- A `Request` without its id. -/
structure WorkerRequest where
  op : String
  params : Json
  target : Option String

abbrev WorkerAnswer := Except NoCall Json

/-- What there is around a worker when it takes a request. -/
structure World where
  fs : Files
  openOptions : IdbOpener
  handlers : HandlerCall → Idb → WorkerAnswer × Idb

def TargetInfo.json (i : TargetInfo) : Json :=
  .obj [("id", .str i.id), ("path", .str i.path), ("filename", .str i.filename), ("file_type", .str i.fileType),
    ("processor", .str i.processor), ("bits", .int i.bits), ("function_count", .int i.functionCount)]

/-- The error of a handler without a database. -/
def HandlerCall.closedError : HandlerCall → String
  | .info => "IDB is None"
  | _ => ToolError.noDatabaseOpen.toString

/-- The end of an arm: the call, on the database of a target. -/
def HandlerCall.handle (w : World) (mgr : TargetManager) (id : String) (record : TargetRecord) (call : HandlerCall) :
    WorkerAnswer × TargetManager :=
  match record.idb with
  | none => (.error (.message call.closedError), mgr)
  | some idb =>
    ((w.handlers call idb).1,
      { mgr with targets := mgr.targets.insert id { record with idb := some (w.handlers call idb).2 } })

def dispatchAnalysis (w : World) (mgr : TargetManager) (req : WorkerRequest) : WorkerAnswer × TargetManager :=
  match mgr.resolve req.target with
  | .error e => (.error (.message e), mgr)
  | .ok id =>
    match Operation.ofName req.op with
    | none => (.error (.message ("Unknown operation: " ++ req.op)), mgr)
    | some o =>
      match mgr.targets.lookup id with
      | none => (.error (.message ("Target not found: " ++ id)), mgr)
      | some record =>
        match o.call req.params with
        | .error e => (.error e, mgr)
        | .ok call => call.handle w mgr id record

def targetLoad (w : World) (mgr : TargetManager) (p : Json) : WorkerAnswer × TargetManager :=
  if !mgr.list.isEmpty then (.error (.message "Worker already has a target loaded"), mgr)
  else
    match paramStr p "path" with
    | .error e => (.error (.message e), mgr)
    | .ok path =>
      match mgr.load w.fs w.openOptions path (paramBool p "auto_analyse" true) (textParam p "idb_out") with
      | .error e => (.error (.message e), mgr)
      | .ok (info, mgr') => (.ok info.json, mgr')

def targetClose (mgr : TargetManager) (p : Json) : WorkerAnswer × TargetManager :=
  match paramStr p "id" with
  | .error e => (.error (.message e), mgr)
  | .ok id =>
    match mgr.close id with
    | .error e => (.error (.message e), mgr)
    | .ok mgr' => (.ok (.obj [("closed", .str id)]), mgr')

def targetSwitch (mgr : TargetManager) (p : Json) : WorkerAnswer × TargetManager :=
  match paramStr p "id" with
  | .error e => (.error (.message e), mgr)
  | .ok id =>
    match mgr.setActive id with
    | .error e => (.error (.message e), mgr)
    | .ok mgr' => (.ok (.obj [("active", .str id)]), mgr')

def dispatchInner (w : World) (mgr : TargetManager) (req : WorkerRequest) : WorkerAnswer × TargetManager :=
  match req.op with
  | "target.load" => targetLoad w mgr req.params
  | "target.close" => targetClose mgr req.params
  | "target.list" =>
    (.ok (.obj [("targets", .arr (mgr.list.map TargetInfo.json)), ("active", Json.ofOption .str mgr.activeId)]), mgr)
  | "target.switch" => targetSwitch mgr req.params
  | "ping" => (.ok (.obj [("pong", .bool true), ("targets", .int mgr.list.length)]), mgr)
  | "shutdown" => (.ok (.obj [("status", .str "shutting_down")]), mgr)
  | "int_convert" => ((IntConvert.workerIntConvert req.params).mapError .message, mgr)
  | _ => dispatchAnalysis w mgr req

/-! ### The calls with pages -/

section

open Handlers

variable (lowercase : String → String)

/-- How an arm with a page answers; `others` are the other calls. -/
def HandlerCall.answer (idb : Option Idb) (others : HandlerCall → Dispatched Json) : HandlerCall → Dispatched Json
  | .listFunctions offset limit filter =>
    answered (handleListFunctions lowercase idb offset limit filter)
      (Page.json "functions" FunctionInfo.json skippedNext)
  | .disasmByName name total offset => do
    let lines ← (handleDisasmByName idb name total).mapError te
    return .obj [("disasm", .str (String.ofList (applyLineOffset lines offset)))]
  | .disasm addr total offset => do
    let lines ← (handleDisasm idb addr total).mapError te
    return .obj [("disasm", .str (String.ofList (applyLineOffset lines offset)))]
  | .disasmFunctionAt addr total offset => do
    let lines ← (handleDisasmFunctionAt idb addr total).mapError te
    return .obj [("disasm", .str (String.ofList (applyLineOffset lines offset))), ("has_more", .bool false)]
  | .strings offset limit filter =>
    answered (handleStrings lowercase idb offset limit filter) (Page.json "strings" StringInfo.json skippedNext)
  | .findString query exact ci offset limit =>
    answered (handleFindString lowercase idb query exact ci offset limit)
      (Page.json "strings" StringInfo.json skippedNext)
  | .analyzeStrings query offset limit =>
    answered (handleAnalyzeStrings lowercase idb query offset limit)
      (Page.json "strings" StringXrefInfo.json nullableNext)
  | .xrefsToString query exact ci offset limit maxXrefs =>
    answered (handleXrefsToString lowercase idb query exact ci offset limit maxXrefs)
      (Page.json "strings" StringXrefInfo.json skippedNext)
  | .imports offset limit => answered (handleImports idb offset limit) fun rows => .arr (rows.map ImportInfo.json)
  | .exports offset limit => answered (handleExports idb offset limit) fun rows => .arr (rows.map ExportInfo.json)
  | .listGlobals filter offset limit =>
    answered (handleListGlobals lowercase idb filter offset limit) (Page.json "globals" GlobalInfo.json nullableNext)
  | .xrefsTo addr offset limit => answered (handleXrefsTo idb addr offset limit) XRefListResult.json
  | .xrefsFrom addr offset limit => answered (handleXrefsFrom idb addr offset limit) XRefListResult.json
  | .localTypes offset limit filter =>
    answered (handleLocalTypes lowercase idb offset limit filter) (Page.json "types" LocalType.json skippedNext)
  | .structs offset limit filter =>
    answered (handleStructs lowercase idb offset limit filter) (Page.json "structs" UdtInfo.json skippedNext)
  | call => others call

/-- After a refused reservation the worker does not go on either: the process is gone. -/
def Handlers.Fault.noCall : Fault → NoCall
  | .message text => .message text
  | .capacityOverflow | .allocRefused | .addOverflow => .panics

def Handlers.PagedOp.operation : PagedOp → IdaRs.Operation
  | functions => .functions
  | disasm => .disasm
  | disasmFunctionAt => .disasmFunctionAt
  | strings => .strings
  | findString => .findString
  | analyzeStrings => .analyzeStrings
  | xrefsToString => .xrefsToString
  | imports => .imports
  | exports => .exports
  | globals => .globals
  | xrefsTo => .xrefsTo
  | xrefsFrom => .xrefsFrom
  | localTypes => .localTypes
  | structs => .structs

theorem pagedOp_ofName {name : String} {q : PagedOp} (h : PagedOp.ofName name = some q) :
    IdaRs.Operation.ofName name = some q.operation := by
  unfold PagedOp.ofName at h
  split at h <;> cases h <;> decide +kernel

theorem checkedAdd_cases (a b : Nat) :
    checkedAdd a b = .error .addOverflow ∨ ∃ total, checkedAdd a b = .ok total := by
  unfold checkedAdd
  split
  · exact .inr ⟨_, rfl⟩
  · exact .inl rfl

/-- An arm with a page is the reading of its call, and then the call. -/
theorem PagedOp.run_eq (idb : Option Idb) (others : HandlerCall → Dispatched Json) (p : Json) (q : PagedOp) :
    (q.run lowercase idb p).mapError Fault.noCall =
      (q.operation.call p).bind fun call => (call.answer lowercase idb others).mapError Fault.noCall := by
  cases q with
  | functions | strings | analyzeStrings | imports | exports | globals | localTypes | structs => rfl
  | findString =>
    simp only [PagedOp.run, PagedOp.operation, IdaRs.Operation.call]
    rcases paramStr p "query" with e | query <;> rfl
  | xrefsToString =>
    simp only [PagedOp.run, PagedOp.operation, IdaRs.Operation.call]
    rcases paramStr p "query" with e | query <;> rfl
  | xrefsTo =>
    simp only [PagedOp.run, PagedOp.operation, IdaRs.Operation.call]
    rcases paramAddr p "address" with e | addr <;> rfl
  | xrefsFrom =>
    simp only [PagedOp.run, PagedOp.operation, IdaRs.Operation.call]
    rcases paramAddr p "address" with e | addr <;> rfl
  | disasmFunctionAt =>
    simp only [PagedOp.run, PagedOp.operation, IdaRs.Operation.call, disasmFunctionAtPage, Worker.totalLines]
    rcases paramAddr p "address" with e | addr
    · rfl
    obtain h | ⟨total, h⟩ := checkedAdd_cases (paramUsize p "count" 200) (paramUsize p "offset" 0)
    · rw [h]
      rfl
    · rw [h]
      simp only [liftMessage, Worker.read, Except.mapError, bind, Except.bind, HandlerCall.answer, pure, Except.pure,
        answered, Except.map]
      rcases handleDisasmFunctionAt idb addr total with e | lines <;> rfl
  | disasm =>
    simp only [PagedOp.run, PagedOp.operation, IdaRs.Operation.call, Worker.totalLines]
    obtain h | ⟨total, h⟩ := checkedAdd_cases (paramUsize p "count" 20) (paramUsize p "offset" 0)
    · rw [h]
      rfl
    rw [h]
    rcases textParam p "name" with _ | name
    · rcases paramAddr p "address" with e | addr <;> rfl
    · rfl

/-- The world of a worker answers the calls with pages as the handlers do. -/
def World.Answers (w : World) (others : HandlerCall → Dispatched Json) : Prop :=
  ∀ call idb, (w.handlers call idb).1 = (call.answer lowercase (some idb) others).mapError Fault.noCall

/-- With them, the worker answers an operation with pages as `Handlers.dispatchAnalysis` does. -/
theorem dispatchAnalysis_paged {w : World} {others : HandlerCall → Dispatched Json} (hw : w.Answers lowercase others)
    (rest : String → String → Json → Dispatched Json) {mgr : TargetManager} (h : TargetManager.Reachable mgr)
    {req : WorkerRequest} {q : PagedOp} (hop : PagedOp.ofName req.op = some q) :
    (dispatchAnalysis w mgr req).1 =
      (Handlers.dispatchAnalysis lowercase rest mgr.view req.op req.target req.params).mapError Fault.noCall := by
  unfold IdaRs.dispatchAnalysis
  obtain ⟨e, he, hanswer⟩ | ⟨id, idb, hid, hidb, hanswer⟩ :=
    TargetManager.dispatch_of_reachable lowercase rest h hop req.target req.params
  · rw [he, hanswer]
    rfl
  obtain ⟨record, hrecord, -, -⟩ := TargetManager.getIdb_of_resolve h hid
  have hopen : record.idb = some idb := by
    rw [TargetManager.getIdb, hrecord] at hidb
    exact Except.ok.inj hidb
  rw [hid, hanswer, PagedOp.run_eq lowercase (some idb) others]
  simp only [pagedOp_ofName hop, hrecord]
  rcases q.operation.call req.params with e | call
  · rfl
  · simp only [HandlerCall.handle, hopen]
    exact hw call idb

end

/-! ### Runs -/

/-- What a client sees of the loads and closes. -/
inductive TargetOutcome
  | loaded (id : String)
  | closed (id : String)
deriving DecidableEq, Repr

def TargetOutcome.of (req : WorkerRequest) (answer : WorkerAnswer) : Option TargetOutcome :=
  match req.op, answer with
  | "target.load", .ok json => (textParam json "id").map .loaded
  | "target.close", .ok json => (textParam json "closed").map .closed
  | _, _ => none

/-- The manager, and the outcomes from the last back. -/
structure Worker where
  mgr : TargetManager
  log : List TargetOutcome

namespace Worker

/-- `run_worker` up to its loop. -/
def started (id : String) : Worker := ⟨TargetManager.new.seedNextId id, []⟩

def step (s : Worker) (e : World × WorkerRequest) : Option Worker :=
  let x := dispatchInner e.1 s.mgr e.2
  some ⟨x.2, (TargetOutcome.of e.2 x.1).toList ++ s.log⟩

/-- Loads and closes take turns, the last back: from `first` on every load has the next id, and a close names what is
open. With the number of the next load, and what is open. -/
inductive Alternates (first : Nat) : List TargetOutcome → Nat → Option String → Prop
  | nil : Alternates first [] first none
  | load {log : List TargetOutcome} {n : Nat} (h : Alternates first log n none) :
      Alternates first (.loaded ("t" ++ n.repr) :: log) (n + 1) (some ("t" ++ n.repr))
  | close {log : List TargetOutcome} {n : Nat} {id : String} (h : Alternates first log n (some id)) :
      Alternates first (.closed id :: log) n none

/-! ### One request -/

variable {w : World} {mgr mgr' : TargetManager} {req : WorkerRequest} {answer : WorkerAnswer} {id : String}

/-- What a request can do to the manager, and what a client sees of it. -/
inductive Effect (mgr : TargetManager) : List TargetOutcome → TargetManager → Prop
  | same : Effect mgr [] mgr
  | handled (id : String) (record : TargetRecord) (idb : Idb) (h : mgr.targets.lookup id = some record) :
      Effect mgr [] { mgr with targets := mgr.targets.insert id { record with idb := some idb } }
  | loaded (fs : Files) (openOptions : IdbOpener) (path : String) (autoAnalyse : Bool) (idbOut : Option String)
      (info : TargetInfo) (mgr' : TargetManager) (hempty : mgr.targets.keys = [])
      (h : mgr.load fs openOptions path autoAnalyse idbOut = .ok (info, mgr')) : Effect mgr [.loaded info.id] mgr'
  | closed (id : String) (mgr' : TargetManager) (h : mgr.close id = .ok mgr') : Effect mgr [.closed id] mgr'
  | switched (id : String) (mgr' : TargetManager) (h : mgr.setActive id = .ok mgr') : Effect mgr [] mgr'

theorem handle_effect (w : World) (call : HandlerCall) {record : TargetRecord} (h : mgr.targets.lookup id = some record) :
    Effect mgr [] (call.handle w mgr id record).2 := by
  unfold HandlerCall.handle
  cases record.idb with
  | none => exact .same
  | some idb => exact .handled id record (w.handlers call idb).2 h

theorem dispatchAnalysis_effect (w : World) (mgr : TargetManager) (req : WorkerRequest) :
    Effect mgr [] (dispatchAnalysis w mgr req).2 := by
  unfold dispatchAnalysis
  rcases mgr.resolve req.target with e | id
  · exact .same
  dsimp only
  rcases Operation.ofName req.op with _ | o
  · exact .same
  rcases hrecord : mgr.targets.lookup id with _ | record
  · exact .same
  dsimp only
  rcases o.call req.params with e | call
  · exact .same
  · exact handle_effect w call hrecord

theorem list_isEmpty (mgr : TargetManager) : mgr.list.isEmpty = true ↔ mgr.targets.keys = [] := by
  rw [List.isEmpty_iff, TargetManager.list, List.map_eq_nil_iff, AList.keys, List.keys, List.map_eq_nil_iff]

theorem outcome_error (req : WorkerRequest) (e : NoCall) : TargetOutcome.of req (.error e) = none := by
  unfold TargetOutcome.of
  split
  · rename_i heq
    cases heq
  · rename_i heq
    cases heq
  · rfl

/-- A request that is none of the two leaves no outcome. -/
theorem outcome_none (answer : WorkerAnswer) (hload : req.op ≠ "target.load") (hclose : req.op ≠ "target.close") :
    TargetOutcome.of req answer = none := by
  unfold TargetOutcome.of
  split
  · exact absurd ‹_› hload
  · exact absurd ‹_› hclose
  · rfl

theorem targetLoad_effect (w : World) (mgr : TargetManager) (h : req.op = "target.load") :
    Effect mgr (TargetOutcome.of req (targetLoad w mgr req.params).1).toList (targetLoad w mgr req.params).2 := by
  unfold targetLoad
  by_cases hempty : mgr.list.isEmpty = true
  · rw [hempty]
    rcases paramStr req.params "path" with e | path
    · exact outcome_error req _ ▸ .same
    rcases hok : mgr.load w.fs w.openOptions path (paramBool req.params "auto_analyse" true)
      (textParam req.params "idb_out") with e | ⟨info, mgr'⟩
    · simp only [hok, Bool.not_true, Bool.false_eq_true, if_false, outcome_error]
      exact .same
    · simp only [hok, Bool.not_true, Bool.false_eq_true, if_false, TargetOutcome.of, h]
      exact .loaded _ _ _ _ _ info mgr' ((list_isEmpty mgr).1 hempty) hok
  · rw [Bool.eq_false_iff.2 hempty]
    exact outcome_error req _ ▸ .same

theorem targetClose_effect (mgr : TargetManager) (h : req.op = "target.close") :
    Effect mgr (TargetOutcome.of req (targetClose mgr req.params).1).toList (targetClose mgr req.params).2 := by
  unfold targetClose
  rcases paramStr req.params "id" with e | id
  · exact outcome_error req _ ▸ .same
  dsimp only
  rcases hok : mgr.close id with e | mgr'
  · exact outcome_error req _ ▸ .same
  · simp only [TargetOutcome.of, h]
    exact .closed id mgr' hok

theorem targetSwitch_effect (mgr : TargetManager) (p : Json) : Effect mgr [] (targetSwitch mgr p).2 := by
  unfold targetSwitch
  rcases paramStr p "id" with e | id
  · exact .same
  dsimp only
  rcases hok : mgr.setActive id with e | mgr'
  · exact .same
  · exact .switched id mgr' hok

theorem dispatchInner_effect (w : World) (mgr : TargetManager) (req : WorkerRequest) :
    Effect mgr (TargetOutcome.of req (dispatchInner w mgr req).1).toList (dispatchInner w mgr req).2 := by
  by_cases hload : req.op = "target.load"
  · have heq : dispatchInner w mgr req = targetLoad w mgr req.params := by
      unfold dispatchInner
      rw [hload]
      rfl
    exact heq ▸ targetLoad_effect w mgr hload
  by_cases hclose : req.op = "target.close"
  · have heq : dispatchInner w mgr req = targetClose mgr req.params := by
      unfold dispatchInner
      rw [hclose]
      rfl
    exact heq ▸ targetClose_effect mgr hclose
  rw [outcome_none _ hload hclose]
  unfold dispatchInner
  split
  · exact absurd ‹_› hload
  · exact absurd ‹_› hclose
  · exact .same
  · exact targetSwitch_effect mgr req.params
  · exact .same
  · exact .same
  · exact .same
  · exact dispatchAnalysis_effect w mgr req

/-! ### Runs of requests -/

variable {s s' : Worker} {first : Nat} {current : Option String}

/-- What holds between two requests. -/
structure Inv (first : Nat) (s : Worker) (current : Option String) : Prop where
  reachable : TargetManager.Reachable s.mgr
  log : Alternates first s.log s.mgr.nextId current
  keys : s.mgr.targets.keys = current.toList

theorem Inv.started (id : String) : Inv (started id).mgr.nextId (started id) none := by
  refine ⟨.single (.seedNextId id), .nil, ?_⟩
  unfold Worker.started TargetManager.seedNextId
  split <;> rfl

theorem load_id {fs : Files} {openOptions : IdbOpener} {path : String} {autoAnalyse : Bool} {idbOut : Option String}
    {info : TargetInfo} (h : mgr.load fs openOptions path autoAnalyse idbOut = .ok (info, mgr')) :
    info.id = "t" ++ mgr.nextId.repr := by
  simp only [TargetManager.load, bind, Except.bind] at h
  split at h
  · cases h
  · cases h
    rfl

theorem Inv.load {log : List TargetOutcome} (h : Inv first ⟨mgr, log⟩ current) {fs : Files} {openOptions : IdbOpener}
    {path : String} {autoAnalyse : Bool} {idbOut : Option String} {info : TargetInfo} (hempty : mgr.targets.keys = [])
    (hload : mgr.load fs openOptions path autoAnalyse idbOut = .ok (info, mgr')) :
    Inv first ⟨mgr', .loaded info.id :: log⟩ (some info.id) := by
  have hid := load_id hload
  have hreach := h.reachable.tail (.load fs openOptions path autoAnalyse idbOut info mgr' hload)
  obtain ⟨idb, rfl⟩ := TargetManager.load_eq_ok hload
  have hnone : current = none := by
    rcases current with _ | id
    · rfl
    · exact absurd (h.keys.symm.trans hempty) (List.cons_ne_nil _ _)
  subst hnone
  refine ⟨hreach, ?_, ?_⟩
  · rw [hid]
    exact .load h.log
  · show (mgr.targets.insert info.id _).keys = _
    rw [AList.keys_insert, hempty]
    rfl

/-- What is closed is what is open. -/
theorem Inv.close {log : List TargetOutcome} (h : Inv first ⟨mgr, log⟩ current) (hclose : mgr.close id = .ok mgr') :
    Inv first ⟨mgr', .closed id :: log⟩ none := by
  have hreach := h.reachable.tail (.close id mgr' hclose)
  have hkeys : mgr.targets.keys = current.toList := h.keys
  unfold TargetManager.close at hclose
  by_cases hmem : id ∈ mgr.targets
  · rw [if_pos hmem] at hclose
    obtain rfl := Except.ok.inj hclose
    obtain rfl : current = some id := Option.mem_toList.1 (hkeys ▸ AList.mem_keys.1 hmem)
    refine ⟨hreach, .close h.log, ?_⟩
    show (mgr.targets.erase id).keys = _
    rw [AList.keys_erase, hkeys]
    exact List.erase_cons_head id []
  · rw [if_neg hmem] at hclose
    cases hclose

/-- A handler that changes the database leaves the target where it is. -/
theorem Inv.handled {log : List TargetOutcome} (h : Inv first ⟨mgr, log⟩ current) {record : TargetRecord} (idb : Idb)
    (hrecord : mgr.targets.lookup id = some record) :
    Inv first ⟨{ mgr with targets := mgr.targets.insert id { record with idb := some idb } }, log⟩ current := by
  have hkeys : mgr.targets.keys = current.toList := h.keys
  have hmem : id ∈ mgr.targets := AList.lookup_isSome.1 (by rw [hrecord]; rfl)
  obtain rfl : current = some id := Option.mem_toList.1 (hkeys ▸ AList.mem_keys.1 hmem)
  refine ⟨h.reachable.tail (.analyze id record idb hrecord), h.log, ?_⟩
  show (mgr.targets.insert id _).keys = _
  rw [AList.keys_insert, hkeys]
  exact congrArg (id :: ·) (List.erase_cons_head id [])

theorem Inv.switched {log : List TargetOutcome} (h : Inv first ⟨mgr, log⟩ current) (hset : mgr.setActive id = .ok mgr') :
    Inv first ⟨mgr', log⟩ current := by
  have hreach := h.reachable.tail (.setActive id mgr' hset)
  unfold TargetManager.setActive at hset
  split at hset <;> cases hset
  exact ⟨hreach, h.log, h.keys⟩

theorem Inv.effect {log outcomes : List TargetOutcome} (h : Inv first ⟨mgr, log⟩ current)
    (heffect : Effect mgr outcomes mgr') : ∃ current, Inv first ⟨mgr', outcomes ++ log⟩ current := by
  rcases heffect with _ | ⟨id, record, idb, hrecord⟩ |
    ⟨fs, openOptions, path, autoAnalyse, idbOut, info, _, hempty, hload⟩ | ⟨id, _, hclose⟩ | ⟨id, _, hset⟩
  · exact ⟨current, h⟩
  · exact ⟨current, h.handled idb hrecord⟩
  · exact ⟨_, h.load hempty hload⟩
  · exact ⟨_, h.close hclose⟩
  · exact ⟨current, h.switched hset⟩

theorem Inv.step {e : World × WorkerRequest} (h : ∃ current, Inv first s current)
    (hstep : Worker.step s e = some s') : ∃ current, Inv first s' current := by
  obtain ⟨current, h⟩ := h
  obtain rfl := Option.some.inj hstep
  exact h.effect (dispatchInner_effect e.1 s.mgr e.2)

theorem Inv.run {C : Worker → World × WorkerRequest → Prop} {events : List (World × WorkerRequest)}
    (hrun : Runs.Run Worker.step C (Worker.started id) events s) :
    ∃ current, Inv (Worker.started id).mgr.nextId s current :=
  hrun.history (I := fun _ s => ∃ current, Inv (Worker.started id).mgr.nextId s current)
    (fun _ _ _ _ h _ hstep => Inv.step h hstep) ⟨none, Inv.started id⟩

/-! ### The id of the router -/

/-- A worker that is started with an id of the router gives it to what it loads first. -/
theorem nextId_started {n : Nat} (h : n < 2 ^ 64) : (started ("t" ++ n.repr)).mgr.nextId = n := by
  have hstrip : stripPrefix ['t'] ("t" ++ n.repr).toList = some (Nat.toDigits 10 n) := by
    rw [String.toList_append, Nat.toList_repr]
    simp [stripPrefix]
  rw [started, TargetManager.seedNextId, hstrip, Option.bind_some, parseUnsigned_toDigits (by omega)]

/-! ### Databases -/

namespace Sample

/-- A world in which every open is that of a database with three functions. -/
def world : World where
  fs := ⟨none, fun _ => true, fun _ => none⟩
  openOptions _ _ _ := .ok ⟨Handlers.threeFunctions, "PE", "metapc", true, false⟩
  handlers call idb :=
    ((call.answer (fun s => s) (some idb) fun _ => .error (.message "no page")).mapError Handlers.Fault.noCall, idb)

def load : WorkerRequest := ⟨"target.load", .obj [("path", .str "/bin/app.i64")], none⟩

/-- A worker after its first load. -/
def loaded : Worker := ((started "t3").step (world, load)).getD (started "t3")

theorem run : Runs.Run Worker.step (fun _ _ => True) (started ("t" ++ (3 : Nat).repr)) [(world, load)] loaded :=
  .cons trivial rfl (.nil _)

end Sample

/-- Whatever a worker is asked, by whomever: it holds at most one database, closes it before it loads the next, and gives
out the ids from that of the router on, each once. -/
theorem loads_alternate {n : Nat} (hn : n < 2 ^ 64) {C : Worker → World × WorkerRequest → Prop}
    {events : List (World × WorkerRequest)} (hrun : Runs.Run Worker.step C (started ("t" ++ n.repr)) events s) :
    ∃ current, Alternates n s.log s.mgr.nextId current ∧ s.mgr.targets.keys = current.toList := by
  obtain ⟨current, h⟩ := Inv.run hrun
  rw [nextId_started hn] at h
  exact ⟨current, h.log, h.keys⟩

theorem loads_alternate_sample : ∃ current, Alternates 3 Sample.loaded.log Sample.loaded.mgr.nextId current ∧
    Sample.loaded.mgr.targets.keys = current.toList :=
  loads_alternate (by decide) Sample.run

/-! ### What the router sends on -/

open Cli (cliCommandToRequest operation meant)

/-- A command, as the router sends it to a worker. -/
def forwarded (cmd : CliCommand) : WorkerRequest :=
  ⟨(cliCommandToRequest cmd).1, (cliCommandToRequest cmd).2, none⟩

theorem dispatchInner_of_ofName (w : World) (mgr : TargetManager) {o : Operation}
    (h : Operation.ofName req.op = some o) : dispatchInner w mgr req = dispatchAnalysis w mgr req := by
  unfold dispatchInner
  split
  case h_8 => rfl
  all_goals
    rename_i hop
    rw [hop] at h
    cases h

theorem dispatch_nothing_open (w : World) {o : Operation} (ho : Operation.ofName req.op = some o)
    (hempty : mgr.targets.keys = []) : (dispatchInner w mgr req).1 =
      .error (.message "No targets loaded. Use 'target load -f <path>' first.") := by
  have hnil : mgr.targets.entries = [] := List.map_eq_nil_iff.1 hempty
  have hresolve : mgr.resolve req.target = .error "No targets loaded. Use 'target load -f <path>' first." := by
    unfold TargetManager.resolve
    rw [hnil]
    rfl
  rw [dispatchInner_of_ofName w mgr ho, dispatchAnalysis, hresolve]

/-- The only target is the active one. -/
theorem resolve_only (h : TargetManager.Reachable mgr) (hkeys : mgr.targets.keys = [id]) :
    mgr.resolve none = .ok id := by
  have hne : mgr.targets.entries ≠ [] := by
    intro hnil
    rw [AList.keys, hnil] at hkeys
    cases hkeys
  obtain ⟨a, ha⟩ := Option.ne_none_iff_exists'.1 fun hnone => hne (h.loaded.empty hnone)
  have hmem := AList.mem_keys.1 (h.loaded.active a ha)
  rw [hkeys, List.mem_singleton] at hmem
  subst hmem
  unfold TargetManager.resolve
  rw [if_neg (by rwa [List.isEmpty_iff]), ha]

theorem dispatch_only (w : World) {o : Operation} (ho : Operation.ofName req.op = some o) (htarget : req.target = none)
    (h : TargetManager.Reachable mgr) (hkeys : mgr.targets.keys = [id]) :
    ∃ record idb, mgr.targets.lookup id = some record ∧ record.idb = some idb ∧
      (dispatchInner w mgr req).1 = (o.call req.params).bind fun call => (w.handlers call idb).1 := by
  have hmem : id ∈ mgr.targets := AList.mem_keys.2 (hkeys ▸ List.mem_singleton_self id)
  obtain ⟨record, hrecord⟩ := Option.isSome_iff_exists.1 (AList.lookup_isSome.2 hmem)
  obtain ⟨idb, hidb⟩ := Option.isSome_iff_exists.1 (h.loaded.isOpen id record hrecord)
  refine ⟨record, idb, hrecord, hidb, ?_⟩
  rw [dispatchInner_of_ofName w mgr ho, dispatchAnalysis, htarget, resolve_only h hkeys]
  simp only [ho, hrecord]
  rcases o.call req.params with e | call
  · rfl
  · simp only [HandlerCall.handle, hidb]
    rfl

/-- What a command from the router comes to: there is no database, or the call is made on it. -/
theorem Inv.forwarded (h : Inv first s current) (w : World) {cmd : CliCommand} {call : Read HandlerCall}
    (hmeant : meant cmd = some call) :
    (s.mgr.targets.keys = [] ∧ (dispatchInner w s.mgr (forwarded cmd)).1 =
      .error (.message "No targets loaded. Use 'target load -f <path>' first.")) ∨
    ∃ t record idb, s.mgr.targets.keys = [t] ∧ s.mgr.targets.lookup t = some record ∧ record.idb = some idb ∧
      (dispatchInner w s.mgr (forwarded cmd)).1 = call.bind fun c => (w.handlers c idb).1 := by
  obtain ⟨o, ho, rfl⟩ := Option.map_eq_some_iff.1 (Cli.call_request cmd ▸ hmeant)
  have hname : Operation.ofName (Worker.forwarded cmd).op = some o := (Cli.ofName_request cmd).trans ho
  rcases current with _ | t
  · exact .inl ⟨h.keys, dispatch_nothing_open w hname h.keys⟩
  · obtain ⟨record, idb, hrecord, hidb, hanswer⟩ := dispatch_only w hname rfl h.reachable h.keys
    exact .inr ⟨t, record, idb, h.keys, hrecord, hidb, hanswer⟩

/-- After any run of a worker, a command that comes from the router is refused, as nothing is loaded, or it is the call the
user meant, on the one database that is open. -/
theorem forwarded_served {C : Worker → World × WorkerRequest → Prop} {events : List (World × WorkerRequest)}
    (hrun : Runs.Run Worker.step C (started id) events s) (w : World) {cmd : CliCommand} {call : Read HandlerCall}
    (hmeant : meant cmd = some call) :
    (s.mgr.targets.keys = [] ∧ (dispatchInner w s.mgr (forwarded cmd)).1 =
      .error (.message "No targets loaded. Use 'target load -f <path>' first.")) ∨
    ∃ t record idb, s.mgr.targets.keys = [t] ∧ s.mgr.targets.lookup t = some record ∧ record.idb = some idb ∧
      (dispatchInner w s.mgr (forwarded cmd)).1 = call.bind fun c => (w.handlers c idb).1 :=
  (Inv.run hrun).elim fun _ h => h.forwarded w hmeant

theorem forwarded_served_sample :
    (Sample.loaded.mgr.targets.keys = [] ∧
      (dispatchInner Sample.world Sample.loaded.mgr (forwarded (.functions 1 2 none))).1 =
        .error (.message "No targets loaded. Use 'target load -f <path>' first.")) ∨
    ∃ t record idb, Sample.loaded.mgr.targets.keys = [t] ∧ Sample.loaded.mgr.targets.lookup t = some record ∧
      record.idb = some idb ∧ (dispatchInner Sample.world Sample.loaded.mgr (forwarded (.functions 1 2 none))).1 =
        (Sample.world.handlers (.listFunctions 1 2 none) idb).1 :=
  have hmeant : meant (.functions 1 2 none) = some (.ok (.listFunctions 1 2 none)) := rfl
  forwarded_served Sample.run Sample.world hmeant

end Worker

end IdaRs
