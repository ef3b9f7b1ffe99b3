import IdaRs.Remote
import IdaRs.Tools

/-!
# The pooled backend (`src/ida/pool.rs` 972-1040, 1161-2086, 2168-2223, `src/ida/remote.rs`)

A pooled backend forwards a call to its child: `childCall` is the tool call a method of `PooledSessionState`
makes, `decodeReply` what it makes of the child's result. The child is a server over a local worker whose
handlers read the arguments again. `pooled` is the whole way of a call, with the requests the child's worker
receives; `localCall` is the way of the same call through a local worker.

Left out: leases, time limits and the retirement of a child (modelled in `IdaRs.Pool`).
-/

namespace IdaRs

namespace Backend

open Serde Calls

def hexAddr (addr : Nat) : Json := .str (hexLit addr)

def optHexAddr (addr : Option Nat) : Json := .ofOption hexAddr addr

def natJson (n : Nat) : Json := .int n

def optNat (n : Option Nat) : Json := .ofOption natJson n

def optInt (n : Option Int) : Json := .ofOption .int n

def optString (s : Option String) : Json := .ofOption .str s

/-- `{ "offset", "limit", "filter", "timeout_secs" }`. -/
def pageArgs (offset limit : Nat) (filter : Option String) (timeoutSecs : Option Nat) : List (String × Json) :=
  [("offset", natJson offset), ("limit", natJson limit), ("filter", optString filter),
    ("timeout_secs", optNat timeoutSecs)]

/-- `{ "query", "offset", "limit", "timeout_secs" }`. -/
def queryArgs (query : Option String) (offset limit : Nat) (timeoutSecs : Option Nat) : List (String × Json) :=
  [("query", optString query), ("offset", natJson offset), ("limit", natJson limit),
    ("timeout_secs", optNat timeoutSecs)]

/-- `{ "address", "target_name", "offset", .. }`. -/
def placeArgs (addr : Option Nat) (name : Option String) (offset : Int) (rest : List (String × Json)) :
    List (String × Json) :=
  ("address", optHexAddr addr) :: ("target_name", optString name) :: ("offset", .int offset) :: rest

def luminaApplyChildArgs (addr : Option Nat) (name : Option String) (offset : Int) (force : Bool) :
    List (String × Json) :=
  placeArgs addr name offset [("force", .bool force), ("timeout_secs", .null)]

def findBytesChildArgs (pattern : String) (maxResults : Nat) (timeoutSecs : Option Nat) : List (String × Json) :=
  [("patterns", .arr [.str pattern]), ("limit", natJson (min maxResults 10000)), ("offset", natJson 0),
    ("timeout_secs", optNat timeoutSecs), ("_worker_max_results", natJson maxResults)]

def searchChildArgs (target kind : String) (maxResults : Nat) (timeoutSecs : Option Nat) : List (String × Json) :=
  [("targets", .arr [.str target]), ("kind", .str kind), ("limit", natJson (min maxResults 10000)),
    ("offset", natJson 0), ("timeout_secs", optNat timeoutSecs), ("_worker_max_results", natJson maxResults)]

def patternArgs (patterns : List String) (maxResults : Nat) (caseInsensitive : Bool) (timeoutSecs : Option Nat) :
    List (String × Json) :=
  [("patterns", .arr (patterns.map .str)), ("limit", natJson maxResults), ("case_insensitive", .bool caseInsensitive),
    ("timeout_secs", optNat timeoutSecs)]

def readIntTool : Nat → Except ToolError Tool
  | 1 => .ok .getU8
  | 2 => .ok .getU16
  | 4 => .ok .getU32
  | 8 => .ok .getU64
  | size => .error (.invalidParams ("unsupported integer size: " ++ size.repr))

/-- The tool call a method of `PooledSessionState` makes. -/
def childCall (c : BackendCall) : Except ToolError (Tool × List (String × Json)) :=
  match c.request with
  | .loadDebugInfo path verbose => .ok (.loadDebugInfo, [("path", optString path), ("verbose", .bool verbose)])
  | .listFunctions offset limit filter => .ok (.listFunctions, pageArgs offset limit filter c.timeoutSecs)
  | .resolveFunction name => .ok (.resolveFunction, [("name", .str name)])
  | .disasmByName name count => .ok (.disasmByName, [("name", .str name), ("count", natJson count)])
  | .disasm addr count => .ok (.disasm, [("address", hexAddr addr), ("count", natJson count)])
  | .decompile addr => .ok (.decompile, [("address", hexAddr addr)])
  | .segments => .ok (.segments, [])
  | .strings offset limit filter => .ok (.strings, pageArgs offset limit filter c.timeoutSecs)
  | .localTypes offset limit filter => .ok (.localTypes, pageArgs offset limit filter c.timeoutSecs)
  | .declareType decl relaxed replace multi =>
    .ok (.declareType, [("decl", .str decl), ("relaxed", .bool relaxed), ("replace", .bool replace),
      ("multi", .bool multi)])
  | .applyTypes addr name offset stackOffset stackName decl typeName relaxed delay strict =>
    .ok (.applyTypes, placeArgs addr name offset [("stack_offset", optInt stackOffset),
      ("stack_name", optString stackName), ("decl", optString decl), ("type_name", optString typeName),
      ("relaxed", .bool relaxed), ("delay", .bool delay), ("strict", .bool strict)])
  | .inferTypes addr name offset => .ok (.inferTypes, placeArgs addr name offset [])
  | .addrInfo addr name offset => .ok (.addrInfo, placeArgs addr name offset [])
  | .functionAt addr name offset => .ok (.functionAt, placeArgs addr name offset [])
  | .disasmFunctionAt addr name offset count =>
    .ok (.disasmFunctionAt, placeArgs addr name offset [("count", natJson count)])
  | .declareStack addr name offset varName decl relaxed =>
    .ok (.declareStack, placeArgs addr name offset [("var_name", optString varName), ("decl", .str decl),
      ("relaxed", .bool relaxed)])
  | .deleteStack addr name offset varName =>
    .ok (.deleteStack, [("address", optHexAddr addr), ("target_name", optString name), ("offset", optInt offset),
      ("var_name", optString varName)])
  | .stackFrame addr => .ok (.stackFrame, [("address", hexAddr addr)])
  | .structs offset limit filter => .ok (.structs, pageArgs offset limit filter c.timeoutSecs)
  | .structInfo ordinal name => .ok (.structInfo, [("ordinal", optNat ordinal), ("name", optString name)])
  | .readStruct addr ordinal name =>
    .ok (.readStruct, [("address", hexAddr addr), ("ordinal", optNat ordinal), ("name", optString name)])
  | .xrefsTo addr offset limit =>
    .ok (.xrefsTo, [("address", hexAddr addr), ("offset", natJson offset), ("limit", natJson limit),
      ("timeout_secs", optNat c.timeoutSecs)])
  | .xrefsFrom addr offset limit =>
    .ok (.xrefsFrom, [("address", hexAddr addr), ("offset", natJson offset), ("limit", natJson limit),
      ("timeout_secs", optNat c.timeoutSecs)])
  | .xrefsToField ordinal name memberIndex memberName limit =>
    .ok (.xrefsToField, [("ordinal", optNat ordinal), ("name", optString name), ("member_index", optNat memberIndex),
      ("member_name", optString memberName), ("limit", natJson limit)])
  | .imports offset limit => .ok (.imports, [("offset", natJson offset), ("limit", natJson limit)])
  | .exports offset limit => .ok (.exports, [("offset", natJson offset), ("limit", natJson limit)])
  | .entrypoints => .ok (.entrypoints, [])
  | .luminaLookup addr name offset =>
    .ok (.luminaLookup, placeArgs addr name offset [("timeout_secs", optNat c.timeoutSecs)])
  -- the child must not give up on an apply that goes on: only the parent's watchdog ends it
  | .luminaApply addr name offset force => .ok (.luminaApply, luminaApplyChildArgs addr name offset force)
  | .getBytes addr name offset size => .ok (.getBytes, placeArgs addr name offset [("size", natJson size)])
  | .setComments addr name offset comment repeatable =>
    .ok (.setComments, placeArgs addr name offset [("comment", .str comment), ("repeatable", .bool repeatable)])
  | .rename addr currentName newName flags =>
    .ok (.rename, [("address", optHexAddr addr), ("current_name", optString currentName), ("name", .str newName),
      ("flags", .int flags)])
  | .patchBytes addr name offset bytes =>
    .ok (.patch, placeArgs addr name offset [("bytes", .arr (bytes.map fun b => .int b.toNat))])
  | .patchAsm addr name offset line => .ok (.patchAsm, placeArgs addr name offset [("line", .str line)])
  | .basicBlocks addr => .ok (.basicBlocks, [("address", hexAddr addr)])
  | .callees addr => .ok (.callees, [("address", hexAddr addr)])
  | .callers addr => .ok (.callers, [("address", hexAddr addr)])
  | .idbMeta => .ok (.idbMeta, [])
  | .lookupFunctions queries => .ok (.lookupFuncs, [("queries", .arr (queries.map .str))])
  | .listGlobals query offset limit => .ok (.listGlobals, queryArgs query offset limit c.timeoutSecs)
  | .analyzeStrings query offset limit => .ok (.analyzeStrings, queryArgs query offset limit c.timeoutSecs)
  | .findString query exact caseInsensitive offset limit =>
    .ok (.findString, [("query", .str query), ("exact", .bool exact), ("case_insensitive", .bool caseInsensitive),
      ("offset", natJson offset), ("limit", natJson limit), ("timeout_secs", optNat c.timeoutSecs)])
  | .xrefsToString query exact caseInsensitive offset limit maxXrefs =>
    .ok (.xrefsToString, [("query", .str query), ("exact", .bool exact), ("case_insensitive", .bool caseInsensitive),
      ("offset", natJson offset), ("limit", natJson limit), ("max_xrefs", natJson maxXrefs),
      ("timeout_secs", optNat c.timeoutSecs)])
  | .findBytes pattern maxResults => .ok (.findBytes, findBytesChildArgs pattern maxResults c.timeoutSecs)
  | .searchText text maxResults => .ok (.search, searchChildArgs text "text" maxResults c.timeoutSecs)
  | .searchImm imm maxResults => .ok (.search, searchChildArgs (hexLit imm) "imm" maxResults c.timeoutSecs)
  | .findInsns patterns maxResults caseInsensitive =>
    .ok (.findInsns, patternArgs patterns maxResults caseInsensitive c.timeoutSecs)
  | .findInsnOperands patterns maxResults caseInsensitive =>
    .ok (.findInsnOperands, patternArgs patterns maxResults caseInsensitive c.timeoutSecs)
  | .readInt addr size => do return (← readIntTool size, [("address", hexAddr addr)])
  | .getString addr maxLen => .ok (.getString, [("address", hexAddr addr), ("max_len", natJson maxLen)])
  | .getGlobalValue query => .ok (.getGlobalValue, [("query", .str query)])
  | .findPaths start stop maxPaths maxDepth =>
    .ok (.findPaths, [("start", hexAddr start), ("end", hexAddr stop), ("max_paths", natJson maxPaths),
      ("max_depth", natJson maxDepth)])
  | .callGraph addr maxDepth maxNodes =>
    .ok (.callgraph, [("roots", hexAddr addr), ("max_depth", natJson maxDepth), ("max_nodes", natJson maxNodes)])
  | .xrefMatrix addrs => .ok (.xrefMatrix, [("addrs", .arr (addrs.map hexAddr))])
  | .exportFuncs offset limit =>
    .ok (.exportFuncs, [("offset", natJson offset), ("limit", natJson limit), ("format", .str "json")])
  | .pseudocodeAt addr endAddr =>
    .ok (.pseudocodeAt, [("address", hexAddr addr), ("end_address", .ofOption hexAddr endAddr)])

/-- The keys a parent takes out of a child's answer. -/
def workerMetadata : List String :=
  ["session_id", "close_hint", "close_owner_session_id", "close_token", "close_token_reused", "close_recovery_hint"]

def stripWorkerMetadata : Json → Json
  | .obj kvs => .obj (kvs.filter fun kv => !workerMetadata.contains kv.1)
  | j => j

section

variable (srv : Server)

/-- `parse_value`; the text of serde's own error is left out of the message. -/
def parseValue : Payload → Except ToolError Json
  | .json j => .ok (stripWorkerMetadata j)
  | .text s =>
    match srv.fromStr s with
    | some j => .ok (stripWorkerMetadata j)
    | none => .error (.remoteProtocol "failed to parse JSON response")

/-- `parse_json::<T>`. -/
def parseJson (t : Ty) (p : Payload) : Except ToolError Reply := do
  match t.de (← parseValue srv p) with
  | some v => return .typed t v
  | none => throw (.remoteProtocol "invalid response")

def resultText : Payload → String
  | .json j => srv.toStringPretty j
  | .text s => s

/-- The tool of the methods that end with `extract_first_matches`. -/
def IdaRequest.searchTool : IdaRequest → Option String
  | findBytes .. => some "find_bytes"
  | searchText .. => some "search"
  | searchImm .. => some "search"
  | _ => none

/-- `extract_first_matches`. -/
def extractFirstMatches (tool : String) (value : Json) : Except ToolError Json :=
  match (value.get? "results").bind Json.asArr with
  | none => .error (.remoteProtocol (tool ++ " response did not include results"))
  | some [] => .ok (.obj [("matches", .arr [])])
  | some (first :: _) =>
    match (first.get? "error").bind Json.asStr with
    | some e => .error (.idaError e)
    | none =>
      match first.get? "matches" with
      | some hits => .ok (.obj [("matches", hits)])
      | none =>
        .error (.remoteProtocol (tool ++ " response did not include results[0].matches or results[0].error"))

/-- What a method of `PooledSessionState` makes of a successful result: `call_json`, `call_value` or `call_text`, by
the type it returns; the searches take the matches out. -/
def decodeReply (req : IdaRequest) (p : Payload) : Except ToolError Reply :=
  match req.searchTool with
  | some tool => do return .value (← extractFirstMatches tool (← parseValue srv p))
  | none =>
    match req.result with
    | .json t => parseJson srv t p
    | .value _ => do return .value (← parseValue srv p)
    | .text => .ok (.text (resultText srv p))

/-- The answer to a call that went through the child; `result_error` reads the class of a tool error back from its
text, refused arguments are a transport error. -/
def pooledReply (req : IdaRequest) : Except Failure Payload → Except Failure Reply
  | .ok p => (decodeReply srv req p).mapError .tool
  | .error (.tool e) => .error (.tool (Remote.classifyChildError e.toString))
  | .error .params => .error .params

end

/-- `c` through the pooled backend whose child is `child`: the requests the child's worker `w` receives, and the
answer. -/
def pooled (child : Server) (w : Worker) (c : BackendCall) : List IdaRequest × Except Failure Reply :=
  match childCall c with
  | .error e => ([], .error (.tool e))
  | .ok (tool, args) =>
    let out := (callTool { child with mode := .worker } tool args).run fun b => w.answer b.request
    (out.1.map (·.request), pooledReply child c.request out.2)

/-- `c` through the local backend. -/
def localCall (w : Worker) (c : BackendCall) : List IdaRequest × Except Failure Reply :=
  ([c.request], (w.answer c.request).mapError .tool)

/-- Both backends send the worker the same requests, and what a local call returns is what the pooled call
returns. -/
def Agrees (child : Server) (w : Worker) (c : BackendCall) : Prop :=
  (pooled child w c).1 = (localCall w c).1 ∧
    ∀ r, (localCall w c).2 = .ok r → (pooled child w c).2 = .ok r

end Backend

end IdaRs
