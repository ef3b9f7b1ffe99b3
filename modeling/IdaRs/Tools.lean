import IdaRs.Requests

/-!
# The tool handlers (`src/server/mod.rs` 706-775, 2295-4545, 5173-5209)

A handler reads its arguments, calls the backend and renders the answers. `callTool` decodes the arguments of a
call and runs the tool's handler. The same handlers run in the parent, over a pooled backend, and in the child,
over a local worker (`ServerMode::Worker`); the mode is read by `find_bytes`, `search` and `idb_meta` only.

Left out: the tools that open, close, load a DSC, run a script or drive auto-analysis, and those that call no
backend.
-/

namespace IdaRs

namespace Backend

open Serde Calls

inductive ServerMode
  | stdio
  | http
  | worker
deriving DecidableEq

/-- What a handler reads of its server; `fromStr` is `serde_json::from_str`, `toStringPretty` is
`serde_json::to_string_pretty`. -/
structure Server where
  mode : ServerMode
  sessionId : String
  fromStr : String → Option Json
  toStringPretty : Json → String

/-- `try_param!`. -/
def tryParam {α : Type} (x : Except ToolError α) : Handler α := .ofExcept (x.mapError .tool)

/-- Call the backend and end with its error. -/
def send (req : IdaRequest) (timeoutSecs : Option Nat) : Handler Reply :=
  .call ⟨req, timeoutSecs⟩ fun
    | .ok r => .done r
    | .error e => .fail (.tool e)

/-- Call the backend and go on with its error. -/
def attempt (req : IdaRequest) (timeoutSecs : Option Nat) : Handler (Except ToolError Reply) :=
  .perform ⟨req, timeoutSecs⟩

/-- `CallToolResult::success` of one text block. -/
def Reply.payload : Reply → Payload
  | .text s => .text s
  | r => .json r.toJson

def answer (req : IdaRequest) (timeoutSecs : Option Nat) : Handler Payload := do
  return (← send req timeoutSecs).payload

/-- `serde_json::Map::insert`. -/
def insertKey (k : String) (v : Json) : Json → Json
  | .obj kvs => .obj (kvs.filter (·.1 ≠ k) ++ [(k, v)])
  | j => j

section

variable {κ : Type}

/-- The answers for several items, one entry each. -/
def answerEach (item : κ → String × Json) (entry : κ → Reply → Json) (req : κ → IdaRequest)
    (timeoutSecs : Option Nat) (items : List κ) : Handler Payload := do
  let results ← Prog.collect (fun x => do
    match ← attempt (req x) timeoutSecs with
    | .ok r => return entry x r
    | .error e => return .obj [item x, ("error", .str e.toString)]) items
  return .json (.obj [("results", .arr results)])

/-- One item is answered as it is, several by a list of entries. -/
def answerOneOrEach (item : κ → String × Json) (entry : κ → Reply → Json) (req : κ → IdaRequest)
    (timeoutSecs : Option Nat) : List κ → Handler Payload
  | [x] => answer (req x) timeoutSecs
  | items => answerEach item entry req timeoutSecs items

def addressField (a : Nat) : String × Json := ("address", .str (hexLit a))

/-- The tools that take one or more addresses and label the answer of each. -/
def answerAddresses (label : String) (req : Nat → IdaRequest) (addrs : List Nat) : Handler Payload :=
  answerOneOrEach addressField (fun a r => .obj [addressField a, (label, r.toJson)]) req none addrs

end

abbrev OptI64 := optI64.Val

/-- `limit`, `offset` and `timeout_secs` of a listing that caps its pages at 10000. -/
def cappedPage (limit offset timeoutSecs : OptI64) : Handler (Nat × Nat × Option Nat) := do
  let limit := min ((← tryParam (parseOptionalUnsigned .usize limit "limit")).getD 100) 10000
  let offset := (← tryParam (parseOptionalUnsigned .usize offset "offset")).getD 0
  let timeoutSecs ← tryParam (parseOptionalUnsigned .u64 timeoutSecs "timeout_secs")
  return (offset, limit, timeoutSecs)

/-- The same without the cap. -/
def uncappedPage (limit offset timeoutSecs : OptI64) : Handler (Nat × Nat × Option Nat) := do
  let offset := (← tryParam (parseOptionalUnsigned .usize offset "offset")).getD 0
  let limit := (← tryParam (parseOptionalUnsigned .usize limit "limit")).getD 100
  let timeoutSecs ← tryParam (parseOptionalUnsigned .u64 timeoutSecs "timeout_secs")
  return (offset, limit, timeoutSecs)

section

variable (srv : Server)

def optAddress : Option Json → Handler (Option Nat)
  | some v => do return some (← tryParam (valueToSingleAddress srv.fromStr v))
  | none => return none

def loadDebugInfo : LoadDebugInfoRequest.Val → Handler Payload
  | (path, verbose, _) => answer (.loadDebugInfo path (verbose.getD false)) none

def listFunctions : ListFunctionsRequest.Val → Handler Payload
  | (offset, limit, filter, timeoutSecs, _) => do
    let (offset, limit, timeoutSecs) ← cappedPage limit offset timeoutSecs
    answer (.listFunctions offset limit filter) timeoutSecs

def resolveFunction : ResolveFunctionRequest.Val → Handler Payload
  | (name, _) => answer (.resolveFunction name) none

def addrInfo : AddrInfoRequest.Val → Handler Payload
  | (address, targetName, offset, _) => do
    let addr ← optAddress srv address
    answer (.addrInfo addr targetName ((offset.map (·.1)).getD 0)) none

def functionAt : FunctionAtRequest.Val → Handler Payload
  | (address, targetName, offset, _) => do
    let addr ← optAddress srv address
    answer (.functionAt addr targetName ((offset.map (·.1)).getD 0)) none

def disasm : DisasmRequest.Val → Handler Payload
  | (address, count, _) => do
    let count := min ((← tryParam (parseOptionalUnsigned .usize count "count")).getD 10) 1000
    let addrs ← tryParam (valueToAddresses srv.fromStr address)
    answerAddresses "disasm" (.disasm · count) addrs

def disasmByName : DisasmByNameRequest.Val → Handler Payload
  | (name, count, _) => do
    let count := min ((← tryParam (parseOptionalUnsigned .usize count "count")).getD 10) 1000
    answer (.disasmByName name count) none

def disasmFunctionAt : DisasmFunctionAtRequest.Val → Handler Payload
  | (address, targetName, offset, count, _) => do
    let addr ← optAddress srv address
    let count := min ((← tryParam (parseOptionalUnsigned .usize count "count")).getD 200) 5000
    answer (.disasmFunctionAt addr targetName ((offset.map (·.1)).getD 0) count) none

def decompile : DecompileRequest.Val → Handler Payload
  | (address, _) => do
    let addrs ← tryParam (valueToAddresses srv.fromStr address)
    answerAddresses "decompile" .decompile addrs

def pseudocodeAt : PseudocodeAtRequest.Val → Handler Payload
  | (address, endAddress, _) => do
    let addrs ← tryParam (valueToAddresses srv.fromStr address)
    let endAddr ← match endAddress with
      | some s => do pure (some (← tryParam (parseAddress s)))
      | none => pure none
    answerAddresses "pseudocode" (.pseudocodeAt · endAddr) addrs

def strings : StringsRequest.Val → Handler Payload
  | (offset, limit, filter, timeoutSecs, _) => do
    let (offset, limit, timeoutSecs) ← cappedPage limit offset timeoutSecs
    answer (.strings offset limit filter) timeoutSecs

def findString : FindStringRequest.Val → Handler Payload
  | (query, exact, caseInsensitive, offset, limit, timeoutSecs, _) => do
    let (offset, limit, timeoutSecs) ← cappedPage limit offset timeoutSecs
    answer (.findString query (exact.getD false) (caseInsensitive.getD true) offset limit) timeoutSecs

def xrefsToString : XrefsToStringRequest.Val → Handler Payload
  | (query, exact, caseInsensitive, offset, limit, maxXrefs, timeoutSecs, _) => do
    let limit := min ((← tryParam (parseOptionalUnsigned .usize limit "limit")).getD 100) 10000
    let offset := (← tryParam (parseOptionalUnsigned .usize offset "offset")).getD 0
    let maxXrefs := (← tryParam (parseOptionalUnsigned .usize maxXrefs "max_xrefs")).getD 64
    let timeoutSecs ← tryParam (parseOptionalUnsigned .u64 timeoutSecs "timeout_secs")
    answer (.xrefsToString query (exact.getD false) (caseInsensitive.getD true) offset limit maxXrefs) timeoutSecs

def parseXrefsPaging (limit offset timeoutSecs : OptI64) : Handler (Nat × Nat × Option Nat) := do
  let limit := max 1 (min ((← tryParam (parseOptionalUnsigned .usize limit "limit")).getD 1000) 10000)
  let offset := (← tryParam (parseOptionalUnsigned .usize offset "offset")).getD 0
  let timeoutSecs ← tryParam (parseOptionalUnsigned .u64 timeoutSecs "timeout_secs")
  return (offset, limit, timeoutSecs)

/-- `xrefs_entry`: the listing itself, with the address put in. -/
def xrefsEntry (addr : Nat) (r : Reply) : Json := insertKey "address" (.str (hexLit addr)) r.toJson

/-- `req` is the direction. -/
def xrefsLookup (req : Nat → Nat → Nat → IdaRequest) : XrefsRequest.Val → Handler Payload
  | (address, limit, offset, timeoutSecs, _) => do
    let (offset, limit, timeoutSecs) ← parseXrefsPaging limit offset timeoutSecs
    let addrs ← tryParam (valueToAddresses srv.fromStr address)
    answerOneOrEach addressField xrefsEntry (req · offset limit) timeoutSecs addrs

def xrefsTo : XrefsRequest.Val → Handler Payload := xrefsLookup srv .xrefsTo

def xrefsFrom : XrefsRequest.Val → Handler Payload := xrefsLookup srv .xrefsFrom

def imports : PaginatedRequest.Val → Handler Payload
  | (offset, limit, _) => do
    let limit := min ((← tryParam (parseOptionalUnsigned .usize limit "limit")).getD 100) 10000
    let offset := (← tryParam (parseOptionalUnsigned .usize offset "offset")).getD 0
    answer (.imports offset limit) none

def exports : PaginatedRequest.Val → Handler Payload
  | (offset, limit, _) => do
    let limit := min ((← tryParam (parseOptionalUnsigned .usize limit "limit")).getD 100) 10000
    let offset := (← tryParam (parseOptionalUnsigned .usize offset "offset")).getD 0
    answer (.exports offset limit) none

def getBytes : GetBytesRequest.Val → Handler Payload
  | (address, targetName, offset, size, _) => do
    let size := min ((← tryParam (parseOptionalUnsigned .usize size "size")).getD 256) 0x10000
    match address, targetName with
    | some address, _ =>
      let addrs ← tryParam (valueToAddresses srv.fromStr address)
      answerAddresses "bytes" (fun a => .getBytes (some a) none 0 size) addrs
    | none, some name => answer (.getBytes none (some name) ((offset.map (·.1)).getD 0) size) none
    | none, none => .fail (.tool (.invalidParams "address or name required"))

def basicBlocks : AddressRequest.Val → Handler Payload
  | (address, _) => do
    let addrs ← tryParam (valueToAddresses srv.fromStr address)
    answerAddresses "basic_blocks" .basicBlocks addrs

def callees : AddressRequest.Val → Handler Payload
  | (address, _) => do
    let addrs ← tryParam (valueToAddresses srv.fromStr address)
    answerAddresses "callees" .callees addrs

def callers : AddressRequest.Val → Handler Payload
  | (address, _) => do
    let addrs ← tryParam (valueToAddresses srv.fromStr address)
    answerAddresses "callers" .callers addrs

def idbMeta : Handler Payload := do
  let value := (← send .idbMeta none).toJson
  return .json (if srv.mode = .worker then value else insertKey "session_id" (.str srv.sessionId) value)

def lookupFuncs : LookupFuncsRequest.Val → Handler Payload
  | (queries, _) => do
    let queries ← tryParam (valueToStrings srv.fromStr queries)
    answer (.lookupFunctions queries) none

def listGlobals : ListGlobalsRequest.Val → Handler Payload
  | (query, offset, limit, timeoutSecs, _) => do
    let (offset, limit, timeoutSecs) ← cappedPage limit offset timeoutSecs
    answer (.listGlobals query offset limit) timeoutSecs

def analyzeStrings : AnalyzeStringsRequest.Val → Handler Payload
  | (query, offset, limit, timeoutSecs, _) => do
    let (offset, limit, timeoutSecs) ← cappedPage limit offset timeoutSecs
    answer (.analyzeStrings query offset limit) timeoutSecs

end

/-- The matches in a worker's answer to a search. -/
def matchesOf (j : Json) : List Json := ((j.get? "matches").bind Json.asArr).getD []

/-- What `find_bytes` and `search` answer for one target. -/
def searchEntry (key target : String) (offset responseLimit : Nat) : Except ToolError Reply → Json
  | .ok r =>
    let hits := matchesOf r.toJson
    let nextOffset := if offset + responseLimit < hits.length then some (offset + responseLimit) else none
    .obj [(key, .str target), ("matches", .arr ((hits.drop offset).take responseLimit)),
      ("total", .int hits.length), ("next_offset", .ofOption (fun n : Nat => .int n) nextOffset)]
  | .error e => .obj [(key, .str target), ("error", .str e.toString)]

/-- `_worker_max_results`, which only a child reads. -/
def workerMaxResults (mode : ServerMode) (value : OptI64) : Handler (Option Nat) :=
  if mode = .worker then do
    return (← tryParam (parseOptionalUnsigned .usize value "_worker_max_results")).map (min · 20000)
  else return none

/-- `kind`, lowered. No character outside ASCII is lowered to a letter of the names it is compared with. -/
def searchKind (kind : Option String) : List Char := toAsciiLowercase (kind.getD "auto")

section

variable (srv : Server)

def findBytes : FindBytesRequest.Val → Handler Payload
  | (patterns, limit, offset, timeoutSecs, workerMax, _) => do
    let patterns ← tryParam (valueToStrings srv.fromStr patterns)
    let limit := min ((← tryParam (parseOptionalUnsigned .usize limit "limit")).getD 100) 10000
    let offset := (← tryParam (parseOptionalUnsigned .usize offset "offset")).getD 0
    let workerMax ← workerMaxResults srv.mode workerMax
    let timeoutSecs ← tryParam (parseOptionalUnsigned .u64 timeoutSecs "timeout_secs")
    let maxResults := workerMax.getD (min (offset + limit) 20000)
    let results ← Prog.collect (fun pattern => do
      return searchEntry "pattern" pattern offset (workerMax.getD limit)
        (← attempt (.findBytes pattern maxResults) timeoutSecs)) patterns
    return .json (.obj [("results", .arr results)])

/-- What `search` asks for a target; an immediate that is not a number is not asked for. -/
def searchRequest (kind : List Char) (target : String) (maxResults : Nat) : Except ToolError IdaRequest :=
  if kind = "imm".toList ∨ kind = "immediate".toList then (parseAddress target).map (.searchImm · maxResults)
  else if kind = "text".toList ∨ kind = "string".toList then .ok (.searchText target maxResults)
  else
    match parseAddress target with
    | .ok val => .ok (.searchImm val maxResults)
    | .error _ => .ok (.searchText target maxResults)

def search : SearchRequest.Val → Handler Payload
  | (targets, kind, limit, offset, timeoutSecs, workerMax, _) => do
    let targets ← tryParam (valueToStrings srv.fromStr targets)
    let limit := min ((← tryParam (parseOptionalUnsigned .usize limit "limit")).getD 100) 10000
    let offset := (← tryParam (parseOptionalUnsigned .usize offset "offset")).getD 0
    let workerMax ← workerMaxResults srv.mode workerMax
    let timeoutSecs ← tryParam (parseOptionalUnsigned .u64 timeoutSecs "timeout_secs")
    let maxResults := workerMax.getD (min (offset + limit) 20000)
    let results ← Prog.collect (fun target => do
      match searchRequest (searchKind kind) target maxResults with
      | .ok req => return searchEntry "target" target offset (workerMax.getD limit) (← attempt req timeoutSecs)
      | .error e => return searchEntry "target" target offset (workerMax.getD limit) (.error e)) targets
    return .json (.obj [("results", .arr results)])

def getIntValues (size : Nat) : AddressRequest.Val → Handler Payload
  | (address, _) => do
    let addrs ← tryParam (valueToAddresses srv.fromStr address)
    answerAddresses "value" (.readInt · size) addrs

def getString : GetStringRequest.Val → Handler Payload
  | (address, maxLen, _) => do
    let addrs ← tryParam (valueToAddresses srv.fromStr address)
    let maxLen := min ((← tryParam (parseOptionalUnsigned .usize maxLen "max_len")).getD 256) 0x10000
    answerAddresses "string" (.getString · maxLen) addrs

def getGlobalValue : GetGlobalValueRequest.Val → Handler Payload
  | (query, _) => do
    let queries ← tryParam (valueToStrings srv.fromStr query)
    answerOneOrEach (fun q => ("query", .str q)) (fun q r => .obj [("query", .str q), ("value", r.toJson)])
      .getGlobalValue none queries

def findPaths : FindPathsRequest.Val → Handler Payload
  | (start, stop, maxPaths, maxDepth, _) => do
    let start ← tryParam (valueToSingleAddress srv.fromStr start)
    let stop ← tryParam (valueToSingleAddress srv.fromStr stop)
    let maxPaths := min ((← tryParam (parseOptionalUnsigned .usize maxPaths "max_paths")).getD 8) 128
    let maxDepth := min ((← tryParam (parseOptionalUnsigned .usize maxDepth "max_depth")).getD 64) 2048
    answer (.findPaths start stop maxPaths maxDepth) none

def callgraph : CallGraphRequest.Val → Handler Payload
  | (roots, maxDepth, maxNodes, _) => do
    let roots ← tryParam (valueToAddresses srv.fromStr roots)
    let maxDepth := min ((← tryParam (parseOptionalUnsigned .usize maxDepth "max_depth")).getD 2) 16
    let maxNodes := min ((← tryParam (parseOptionalUnsigned .usize maxNodes "max_nodes")).getD 256) 10000
    answerOneOrEach (fun a => ("root", .str (hexLit a)))
      (fun a r => .obj [("root", .str (hexLit a)), ("callgraph", r.toJson)]) (.callGraph · maxDepth maxNodes) none roots

def xrefMatrix : XrefMatrixRequest.Val → Handler Payload
  | (addrs, _) => do
    let addrs ← tryParam (valueToAddresses srv.fromStr addrs)
    answer (.xrefMatrix addrs) none

def exportFuncs : ExportFuncsRequest.Val → Handler Payload
  | (addrs, offset, limit, format, _) => do
    match format with
    | some (fmt : String) =>
      if toAsciiLowercase fmt ≠ "json".toList then
        .fail (.tool (.notSupported ("format " ++ fmt ++ " not supported (only json)")))
    | none => pure ()
    match addrs with
    | some addrs =>
      let queries ← tryParam (valueToStrings srv.fromStr addrs)
      answer (.lookupFunctions queries) none
    | none =>
      let limit := min ((← tryParam (parseOptionalUnsigned .usize limit "limit")).getD 100) 10000
      let offset := (← tryParam (parseOptionalUnsigned .usize offset "offset")).getD 0
      answer (.exportFuncs offset limit) none

def localTypes : LocalTypesRequest.Val → Handler Payload
  | (offset, limit, filter, timeoutSecs, _) => do
    let (offset, limit, timeoutSecs) ← uncappedPage limit offset timeoutSecs
    answer (.localTypes offset limit filter) timeoutSecs

def xrefsToField : XrefsToFieldRequest.Val → Handler Payload
  | (ordinal, name, memberIndex, memberName, limit, _) => do
    let limit := min ((← tryParam (parseOptionalUnsigned .usize limit "limit")).getD 1000) 10000
    let ordinal ← tryParam (parseOptionalUnsigned .u32 ordinal "ordinal")
    let memberIndex ← tryParam (parseOptionalUnsigned .u32 memberIndex "member_index")
    answer (.xrefsToField ordinal name memberIndex memberName limit) none

def luminaLookup : LuminaLookupRequest.Val → Handler Payload
  | (address, targetName, offset, timeoutSecs, _) => do
    let timeoutSecs ← tryParam (parseOptionalUnsigned .u64 timeoutSecs "timeout_secs")
    let addr ← optAddress srv address
    answer (.luminaLookup addr targetName ((offset.map (·.1)).getD 0)) timeoutSecs

def luminaApply : LuminaApplyRequest.Val → Handler Payload
  | (address, targetName, offset, force, timeoutSecs, _) => do
    let timeoutSecs ← tryParam (parseOptionalUnsigned .u64 timeoutSecs "timeout_secs")
    let addr ← optAddress srv address
    answer (.luminaApply addr targetName ((offset.map (·.1)).getD 0) (force.getD false)) timeoutSecs

def setComments : SetCommentsRequest.Val → Handler Payload
  | (address, targetName, offset, comment, repeatable, _) => do
    let addr ← optAddress srv address
    answer (.setComments addr targetName ((offset.map (·.1)).getD 0) comment (repeatable.getD false)) none

def patchAsm : PatchAsmRequest.Val → Handler Payload
  | (address, targetName, offset, line, _) => do
    let addr ← optAddress srv address
    answer (.patchAsm addr targetName ((offset.map (·.1)).getD 0) line) none

def declareType : DeclareTypeRequest.Val → Handler Payload
  | (decl, relaxed, replace, multi, _) =>
    answer (.declareType decl (relaxed.getD false) (replace.getD false) (multi.getD false)) none

def stackFrame : AddressRequest.Val → Handler Payload
  | (address, _) => do
    let addr ← tryParam (valueToSingleAddress srv.fromStr address)
    answer (.stackFrame addr) none

def declareStack : DeclareStackRequest.Val → Handler Payload
  | (address, targetName, offset, varName, decl, relaxed, _) => do
    let addr ← optAddress srv address
    answer (.declareStack addr targetName offset.1 varName decl (relaxed.getD false)) none

def deleteStack : DeleteStackRequest.Val → Handler Payload
  | (address, targetName, offset, varName, _) => do
    let addr ← optAddress srv address
    answer (.deleteStack addr targetName (offset.map (·.1)) varName) none

def structs : StructsRequest.Val → Handler Payload
  | (offset, limit, filter, timeoutSecs, _) => do
    let (offset, limit, timeoutSecs) ← cappedPage limit offset timeoutSecs
    answer (.structs offset limit filter) timeoutSecs

def structInfo : StructInfoRequest.Val → Handler Payload
  | (ordinal, name, _) => do
    let ordinal ← tryParam (parseOptionalUnsigned .u32 ordinal "ordinal")
    answer (.structInfo ordinal name) none

def readStruct : ReadStructRequest.Val → Handler Payload
  | (address, ordinal, name, _) => do
    let addrs ← tryParam (valueToAddresses srv.fromStr address)
    let ordinal ← tryParam (parseOptionalUnsigned .u32 ordinal "ordinal")
    answerAddresses "struct" (.readStruct · ordinal name) addrs

/-- Unlike `structs`, without the cap. -/
def searchStructs : StructsRequest.Val → Handler Payload
  | (offset, limit, filter, timeoutSecs, _) => do
    let (offset, limit, timeoutSecs) ← uncappedPage limit offset timeoutSecs
    answer (.structs offset limit filter) timeoutSecs

/-- The shared body of `find_insns` and `find_insn_operands`, whose requests differ in the aliases only. -/
def findPatterns (req : List String → Nat → Bool → IdaRequest) (patterns : Json) (limit : OptI64)
    (caseInsensitive : Option Bool) (timeoutSecs : OptI64) : Handler Payload := do
  let patterns ← tryParam (valueToStrings srv.fromStr patterns)
  if patterns = [] then .fail (.tool (.invalidParams "empty patterns"))
  let maxResults := (← tryParam (parseOptionalUnsigned .usize limit "limit")).getD 100
  let timeoutSecs ← tryParam (parseOptionalUnsigned .u64 timeoutSecs "timeout_secs")
  answer (req patterns maxResults (caseInsensitive.getD false)) timeoutSecs

def findInsns : FindInsnsRequest.Val → Handler Payload
  | (patterns, limit, caseInsensitive, timeoutSecs, _) =>
    findPatterns srv .findInsns patterns limit caseInsensitive timeoutSecs

def findInsnOperands : FindInsnOperandsRequest.Val → Handler Payload
  | (patterns, limit, caseInsensitive, timeoutSecs, _) =>
    findPatterns srv .findInsnOperands patterns limit caseInsensitive timeoutSecs

def applyTypes : ApplyTypesRequest.Val → Handler Payload
  | (address, targetName, offset, stackOffset, stackName, typeName, decl, relaxed, delay, strict, _) => do
    let addr ← optAddress srv address
    answer (.applyTypes addr targetName ((offset.map (·.1)).getD 0) (stackOffset.map (·.1)) stackName decl typeName
      (relaxed.getD false) (delay.getD false) (strict.getD false)) none

def inferTypes : InferTypesRequest.Val → Handler Payload
  | (address, targetName, offset, _) => do
    let addr ← optAddress srv address
    answer (.inferTypes addr targetName ((offset.map (·.1)).getD 0)) none

def rename : RenameRequest.Val → Handler Payload
  | (address, currentName, name, flags, _) => do
    let addr ← optAddress srv address
    let flags := (← tryParam (parseOptional .i32 flags "flags")).getD 0
    answer (.rename addr currentName name flags) none

def patch : PatchRequest.Val → Handler Payload
  | (address, targetName, offset, bytes, _) => do
    let addr ← optAddress srv address
    let bytes ← tryParam (valueToBytes bytes)
    answer (.patchBytes addr targetName ((offset.map (·.1)).getD 0) bytes) none

end

/-- The tools whose handlers make the calls of this development. -/
inductive Tool
  | loadDebugInfo | listFunctions | listFuncs | resolveFunction | addrInfo | functionAt | disasm | disasmByName
  | disasmFunctionAt | decompile | pseudocodeAt | segments | strings | findString | xrefsToString | xrefsTo
  | xrefsFrom | imports | exports | entrypoints | getBytes | basicBlocks | callees | callers | idbMeta
  | lookupFuncs | listGlobals | analyzeStrings | findBytes | search | getU8 | getU16 | getU32 | getU64 | getString
  | getGlobalValue | findPaths | callgraph | xrefMatrix | exportFuncs | localTypes | xrefsToField | luminaLookup
  | luminaApply | setComments | patchAsm | declareType | stackFrame | declareStack | deleteStack | structs
  | structInfo | readStruct | searchStructs | findInsns | findInsnOperands | applyTypes | inferTypes | rename
  | patch
deriving DecidableEq

/-- `Parameters<T>`: the arguments are read as the request record before the handler runs. -/
def withParams (t : Ty) (args : List (String × Json)) (handler : t.Val → Handler Payload) : Handler Payload :=
  match t.de (.obj args) with
  | some req => handler req
  | none => .fail .params

def callTool (srv : Server) (tool : Tool) (args : List (String × Json)) : Handler Payload :=
  match tool with
  | .loadDebugInfo => withParams LoadDebugInfoRequest args loadDebugInfo
  | .listFunctions => withParams ListFunctionsRequest args listFunctions
  | .listFuncs => withParams ListFunctionsRequest args listFunctions
  | .resolveFunction => withParams ResolveFunctionRequest args resolveFunction
  | .addrInfo => withParams AddrInfoRequest args (addrInfo srv)
  | .functionAt => withParams FunctionAtRequest args (functionAt srv)
  | .disasm => withParams DisasmRequest args (disasm srv)
  | .disasmByName => withParams DisasmByNameRequest args disasmByName
  | .disasmFunctionAt => withParams DisasmFunctionAtRequest args (disasmFunctionAt srv)
  | .decompile => withParams DecompileRequest args (decompile srv)
  | .pseudocodeAt => withParams PseudocodeAtRequest args (pseudocodeAt srv)
  | .segments => answer .segments none
  | .strings => withParams StringsRequest args strings
  | .findString => withParams FindStringRequest args findString
  | .xrefsToString => withParams XrefsToStringRequest args xrefsToString
  | .xrefsTo => withParams XrefsRequest args (xrefsTo srv)
  | .xrefsFrom => withParams XrefsRequest args (xrefsFrom srv)
  | .imports => withParams PaginatedRequest args imports
  | .exports => withParams PaginatedRequest args exports
  | .entrypoints => answer .entrypoints none
  | .getBytes => withParams GetBytesRequest args (getBytes srv)
  | .basicBlocks => withParams AddressRequest args (basicBlocks srv)
  | .callees => withParams AddressRequest args (callees srv)
  | .callers => withParams AddressRequest args (callers srv)
  | .idbMeta => idbMeta srv
  | .lookupFuncs => withParams LookupFuncsRequest args (lookupFuncs srv)
  | .listGlobals => withParams ListGlobalsRequest args listGlobals
  | .analyzeStrings => withParams AnalyzeStringsRequest args analyzeStrings
  | .findBytes => withParams FindBytesRequest args (findBytes srv)
  | .search => withParams SearchRequest args (search srv)
  | .getU8 => withParams AddressRequest args (getIntValues srv 1)
  | .getU16 => withParams AddressRequest args (getIntValues srv 2)
  | .getU32 => withParams AddressRequest args (getIntValues srv 4)
  | .getU64 => withParams AddressRequest args (getIntValues srv 8)
  | .getString => withParams GetStringRequest args (getString srv)
  | .getGlobalValue => withParams GetGlobalValueRequest args (getGlobalValue srv)
  | .findPaths => withParams FindPathsRequest args (findPaths srv)
  | .callgraph => withParams CallGraphRequest args (callgraph srv)
  | .xrefMatrix => withParams XrefMatrixRequest args (xrefMatrix srv)
  | .exportFuncs => withParams ExportFuncsRequest args (exportFuncs srv)
  | .localTypes => withParams LocalTypesRequest args localTypes
  | .xrefsToField => withParams XrefsToFieldRequest args xrefsToField
  | .luminaLookup => withParams LuminaLookupRequest args (luminaLookup srv)
  | .luminaApply => withParams LuminaApplyRequest args (luminaApply srv)
  | .setComments => withParams SetCommentsRequest args (setComments srv)
  | .patchAsm => withParams PatchAsmRequest args (patchAsm srv)
  | .declareType => withParams DeclareTypeRequest args declareType
  | .stackFrame => withParams AddressRequest args (stackFrame srv)
  | .declareStack => withParams DeclareStackRequest args (declareStack srv)
  | .deleteStack => withParams DeleteStackRequest args (deleteStack srv)
  | .structs => withParams StructsRequest args structs
  | .structInfo => withParams StructInfoRequest args structInfo
  | .readStruct => withParams ReadStructRequest args (readStruct srv)
  | .searchStructs => withParams StructsRequest args searchStructs
  | .findInsns => withParams FindInsnsRequest args (findInsns srv)
  | .findInsnOperands => withParams FindInsnOperandsRequest args (findInsnOperands srv)
  | .applyTypes => withParams ApplyTypesRequest args (applyTypes srv)
  | .inferTypes => withParams InferTypesRequest args (inferTypes srv)
  | .rename => withParams RenameRequest args (rename srv)
  | .patch => withParams PatchRequest args (patch srv)

end Backend

end IdaRs
