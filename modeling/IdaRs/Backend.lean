import IdaRs.Values
import IdaRs.Lib.Calls

/-!
# The worker's requests and results (`src/ida/request.rs`, `src/ida/types.rs`, `src/ida/worker.rs`)

`IdaRequest` has the read, search, type and edit requests. Each is answered with a typed record, with a JSON
value or with a text (`IdaRequest.result`); of a JSON value the keys are those its handler in
`src/ida/handlers/` puts at the top. A `BackendCall` is a call of a `WorkerBackend` method: `IdaWorker`, the
local variant, sends its arguments unchanged as the request and waits at most `timeout_secs` for the answer.
-/

namespace IdaRs

namespace Backend

open Serde Calls

/-! ## `src/ida/types.rs` -/

def FunctionRangeInfo : Ty :=
  .plain "address" .str <| .plain "name" .str <| .plain "start" .str <| .plain "end" .str <|
    .plain "size" IntTy.usize.ty .done

def SegmentInfo : Ty :=
  .plain "name" .str <| .plain "start" .str <| .plain "end" .str <| .plain "size" IntTy.usize.ty <|
    .plain "permissions" .str <| .plain "type" .str <| .plain "bitness" IntTy.u32.ty .done

def SymbolInfo : Ty :=
  .plain "name" .str <| .plain "address" .str <| .plain "delta" IntTy.i64.ty <| .plain "exact" .bool <|
    .plain "is_public" .bool <| .plain "is_weak" .bool .done

def AddressInfo : Ty :=
  .plain "address" .str <| .plain "segment" (.opt SegmentInfo) <| .plain "function" (.opt FunctionRangeInfo) <|
    .plain "symbol" (.opt SymbolInfo) .done

def FunctionInfo : Ty :=
  .plain "address" .str <| .plain "name" .str <| .plain "size" IntTy.usize.ty .done

def FunctionListResult : Ty :=
  .plain "functions" (.vec FunctionInfo) <| .plain "total" IntTy.usize.ty <|
    .skipNone "next_offset" IntTy.usize.ty .done

def StringInfo : Ty :=
  .plain "address" .str <| .plain "content" .str <| .plain "length" IntTy.usize.ty .done

def StringListResult : Ty :=
  .plain "strings" (.vec StringInfo) <| .plain "total" IntTy.usize.ty <|
    .skipNone "next_offset" IntTy.usize.ty .done

def StringXrefInfo : Ty :=
  .plain "address" .str <| .plain "content" .str <| .plain "length" IntTy.usize.ty <|
    .plain "xrefs" (.vec .str) <| .plain "xref_count" IntTy.usize.ty .done

def StringXrefsResult : Ty :=
  .plain "strings" (.vec StringXrefInfo) <| .plain "total" IntTy.usize.ty <|
    .skipNone "next_offset" IntTy.usize.ty .done

def LocalTypeInfo : Ty :=
  .plain "ordinal" IntTy.u32.ty <| .plain "name" .str <| .plain "decl" .str <| .plain "kind" .str .done

def LocalTypeListResult : Ty :=
  .plain "types" (.vec LocalTypeInfo) <| .plain "total" IntTy.usize.ty <|
    .skipNone "next_offset" IntTy.usize.ty .done

def FrameRange : Ty :=
  .plain "start" .str <| .plain "end" .str .done

def FrameMemberInfo : Ty :=
  .plain "name" .str <| .plain "type_name" .str <| .plain "offset_bits" IntTy.u64.ty <|
    .plain "size_bits" IntTy.u64.ty <| .plain "offset" IntTy.u64.ty <| .plain "size" IntTy.u64.ty <|
    .plain "is_bitfield" .bool <| .plain "part" .str .done

def FrameInfo : Ty :=
  .plain "address" .str <| .plain "frame_size" IntTy.u64.ty <| .plain "ret_size" IntTy.i32.ty <|
    .plain "frsize" IntTy.u64.ty <| .plain "frregs" IntTy.u16.ty <| .plain "argsize" IntTy.u64.ty <|
    .plain "fpd" IntTy.u64.ty <| .plain "args_range" FrameRange <| .plain "retaddr_range" FrameRange <|
    .plain "savregs_range" FrameRange <| .plain "locals_range" FrameRange <|
    .plain "member_count" IntTy.u32.ty <| .plain "members" (.vec FrameMemberInfo) .done

def StructSummary : Ty :=
  .plain "ordinal" IntTy.u32.ty <| .plain "name" .str <| .plain "size" IntTy.u64.ty <|
    .plain "is_union" .bool <| .plain "member_count" IntTy.u32.ty .done

def StructListResult : Ty :=
  .plain "structs" (.vec StructSummary) <| .plain "total" IntTy.usize.ty <|
    .skipNone "next_offset" IntTy.usize.ty .done

def StructMemberInfo : Ty :=
  .plain "name" .str <| .plain "type_name" .str <| .plain "offset_bits" IntTy.u64.ty <|
    .plain "size_bits" IntTy.u64.ty <| .plain "offset" IntTy.u64.ty <| .plain "size" IntTy.u64.ty <|
    .plain "is_bitfield" .bool .done

def StructInfo : Ty :=
  .plain "ordinal" IntTy.u32.ty <| .plain "name" .str <| .plain "size" IntTy.u64.ty <|
    .plain "is_union" .bool <| .plain "member_count" IntTy.u32.ty <|
    .plain "members" (.vec StructMemberInfo) .done

def StructMemberValue : Ty :=
  .plain "name" .str <| .plain "type_name" .str <| .plain "offset_bits" IntTy.u64.ty <|
    .plain "size_bits" IntTy.u64.ty <| .plain "offset" IntTy.u64.ty <| .plain "size" IntTy.u64.ty <|
    .plain "is_bitfield" .bool <| .plain "bytes" .str .done

def StructReadResult : Ty :=
  .plain "address" .str <| .plain "ordinal" IntTy.u32.ty <| .plain "name" .str <| .plain "size" IntTy.u64.ty <|
    .plain "members" (.vec StructMemberValue) .done

def XRefInfo : Ty :=
  .plain "from" .str <| .plain "to" .str <| .plain "type" .str <| .plain "is_code" .bool .done

def XRefListResult : Ty :=
  .plain "xrefs" (.vec XRefInfo) <| .plain "truncated" .bool <| .skipNone "next_offset" IntTy.usize.ty .done

def GuessTypeResult : Ty :=
  .plain "address" .str <| .plain "code" IntTy.i32.ty <| .plain "status" .str <| .plain "decl" .str <|
    .plain "kind" .str .done

def StackVarResult : Ty :=
  .plain "function" .str <| .plain "name" .str <| .plain "offset" IntTy.i64.ty <| .plain "code" IntTy.i32.ty <|
    .plain "status" .str .done

def XrefsToFieldResult : Ty :=
  .plain "struct_ordinal" IntTy.u32.ty <| .plain "struct_name" .str <| .plain "member_index" IntTy.u32.ty <|
    .plain "member_name" .str <| .plain "member_type" .str <| .plain "member_offset_bits" IntTy.u64.ty <|
    .plain "member_size_bits" IntTy.u64.ty <| .plain "tid" .str <| .plain "xrefs" (.vec XRefInfo) <|
    .plain "truncated" .bool .done

def ImportInfo : Ty :=
  .plain "address" .str <| .plain "name" .str <| .plain "ordinal" IntTy.usize.ty .done

def ExportInfo : Ty :=
  .plain "address" .str <| .plain "name" .str <| .plain "is_public" .bool .done

def BasicBlockInfo : Ty :=
  .plain "start" .str <| .plain "end" .str <| .plain "size" IntTy.usize.ty <| .plain "block_type" .str <|
    .plain "successors" (.vec .str) <| .plain "predecessors" (.vec .str) .done

def BytesResult : Ty :=
  .plain "address" .str <| .plain "bytes" .str <| .plain "length" IntTy.usize.ty .done

/-! ## Requests and answers -/

/-- The requests of the read, search, type and edit operations; `resp` is left out. -/
inductive IdaRequest
  | loadDebugInfo (path : Option String) (verbose : Bool)
  | listFunctions (offset limit : Nat) (filter : Option String)
  | resolveFunction (name : String)
  | disasmByName (name : String) (count : Nat)
  | disasm (addr count : Nat)
  | decompile (addr : Nat)
  | segments
  | strings (offset limit : Nat) (filter : Option String)
  | localTypes (offset limit : Nat) (filter : Option String)
  | declareType (decl : String) (relaxed replace multi : Bool)
  | applyTypes (addr : Option Nat) (name : Option String) (offset : Int) (stackOffset : Option Int)
      (stackName decl typeName : Option String) (relaxed delay strict : Bool)
  | inferTypes (addr : Option Nat) (name : Option String) (offset : Int)
  | addrInfo (addr : Option Nat) (name : Option String) (offset : Int)
  | functionAt (addr : Option Nat) (name : Option String) (offset : Int)
  | disasmFunctionAt (addr : Option Nat) (name : Option String) (offset : Int) (count : Nat)
  | declareStack (addr : Option Nat) (name : Option String) (offset : Int) (varName : Option String)
      (decl : String) (relaxed : Bool)
  | deleteStack (addr : Option Nat) (name : Option String) (offset : Option Int) (varName : Option String)
  | stackFrame (addr : Nat)
  | structs (offset limit : Nat) (filter : Option String)
  | structInfo (ordinal : Option Nat) (name : Option String)
  | readStruct (addr : Nat) (ordinal : Option Nat) (name : Option String)
  | xrefsTo (addr offset limit : Nat)
  | xrefsFrom (addr offset limit : Nat)
  | xrefsToField (ordinal : Option Nat) (name : Option String) (memberIndex : Option Nat)
      (memberName : Option String) (limit : Nat)
  | imports (offset limit : Nat)
  | exports (offset limit : Nat)
  | entrypoints
  | luminaLookup (addr : Option Nat) (name : Option String) (offset : Int)
  | luminaApply (addr : Option Nat) (name : Option String) (offset : Int) (force : Bool)
  | getBytes (addr : Option Nat) (name : Option String) (offset : Int) (size : Nat)
  | setComments (addr : Option Nat) (name : Option String) (offset : Int) (comment : String) (repeatable : Bool)
  | rename (addr : Option Nat) (currentName : Option String) (newName : String) (flags : Int)
  | patchBytes (addr : Option Nat) (name : Option String) (offset : Int) (bytes : List UInt8)
  | patchAsm (addr : Option Nat) (name : Option String) (offset : Int) (line : String)
  | basicBlocks (addr : Nat)
  | callees (addr : Nat)
  | callers (addr : Nat)
  | idbMeta
  | lookupFunctions (queries : List String)
  | listGlobals (query : Option String) (offset limit : Nat)
  | analyzeStrings (query : Option String) (offset limit : Nat)
  | findString (query : String) (exact caseInsensitive : Bool) (offset limit : Nat)
  | xrefsToString (query : String) (exact caseInsensitive : Bool) (offset limit maxXrefs : Nat)
  | findBytes (pattern : String) (maxResults : Nat)
  | searchText (text : String) (maxResults : Nat)
  | searchImm (imm maxResults : Nat)
  | findInsns (patterns : List String) (maxResults : Nat) (caseInsensitive : Bool)
  | findInsnOperands (patterns : List String) (maxResults : Nat) (caseInsensitive : Bool)
  | readInt (addr size : Nat)
  | getString (addr maxLen : Nat)
  | getGlobalValue (query : String)
  | findPaths (start stop maxPaths maxDepth : Nat)
  | callGraph (addr maxDepth maxNodes : Nat)
  | xrefMatrix (addrs : List Nat)
  | exportFuncs (offset limit : Nat)
  | pseudocodeAt (addr : Nat) (endAddr : Option Nat)
deriving DecidableEq

/-- What a request is answered with: a record of `src/ida/types.rs`, a `serde_json::Value` that is an object with
keys among these, or a `String`. -/
inductive ResultKind
  | json (t : Ty)
  | value (keys : List String)
  | text

def luminaKeys : List String :=
  ["address", "status", "matched_name", "matched_size", "frequency", "score", "metadata_keys", "applied", "force",
    "backup_created", "previous_name", "current_name", "error"]

def insnKeys : List String := ["patterns", "case_insensitive", "matches", "count"]

def IdaRequest.result : IdaRequest → ResultKind
  | loadDebugInfo .. => .value ["path", "loaded"]
  | listFunctions .. => .json FunctionListResult
  | resolveFunction .. => .json FunctionInfo
  | disasmByName .. => .text
  | disasm .. => .text
  | decompile .. => .text
  | segments => .json (.vec SegmentInfo)
  | strings .. => .json StringListResult
  | localTypes .. => .json LocalTypeListResult
  -- `DeclareTypesResult` when `multi`, else `DeclareTypeResult`
  | declareType .. => .value ["errors", "code", "name", "decl", "kind", "replaced"]
  -- `StackVarResult` for a stack variable, else `ApplyTypeResult`
  | applyTypes .. => .value ["function", "name", "offset", "code", "status", "address", "applied", "source"]
  | inferTypes .. => .json GuessTypeResult
  | addrInfo .. => .json AddressInfo
  | functionAt .. => .json FunctionRangeInfo
  | disasmFunctionAt .. => .text
  | declareStack .. => .json StackVarResult
  | deleteStack .. => .json StackVarResult
  | stackFrame .. => .json FrameInfo
  | structs .. => .json StructListResult
  | structInfo .. => .json StructInfo
  | readStruct .. => .json StructReadResult
  | xrefsTo .. => .json XRefListResult
  | xrefsFrom .. => .json XRefListResult
  | xrefsToField .. => .json XrefsToFieldResult
  | imports .. => .json (.vec ImportInfo)
  | exports .. => .json (.vec ExportInfo)
  | entrypoints => .json (.vec .str)
  | luminaLookup .. => .value luminaKeys
  | luminaApply .. => .value luminaKeys
  | getBytes .. => .json BytesResult
  | setComments .. => .value ["address", "repeatable", "comment"]
  | rename .. => .value ["address", "name", "flags"]
  | patchBytes .. => .value ["address", "length"]
  | patchAsm .. => .value ["address", "line", "length", "bytes"]
  | basicBlocks .. => .json (.vec BasicBlockInfo)
  | callees .. => .json (.vec FunctionInfo)
  | callers .. => .json (.vec FunctionInfo)
  | idbMeta =>
    .value ["file_type", "processor", "bits", "function_count", "input_file_path", "input_file_size", "md5",
      "sha256", "base_address", "min_address", "max_address", "main_address"]
  | lookupFunctions .. => .value ["results"]
  | listGlobals .. => .value ["globals", "total", "next_offset"]
  | analyzeStrings .. => .value ["strings", "total", "next_offset"]
  | findString .. => .json StringListResult
  | xrefsToString .. => .json StringXrefsResult
  | findBytes .. => .value ["pattern", "matches", "count"]
  | searchText .. => .value ["matches", "count"]
  | searchImm .. => .value ["matches", "count"]
  | findInsns .. => .value insnKeys
  | findInsnOperands .. => .value insnKeys
  | readInt .. => .value ["address", "size", "value", "hex"]
  | getString .. => .value ["address", "string", "length", "bytes"]
  | getGlobalValue .. => .value ["address", "value", "hex", "bytes"]
  | findPaths .. => .value ["paths", "count"]
  | callGraph .. => .value ["nodes", "edges"]
  | xrefMatrix .. => .value ["addrs", "matrix"]
  | exportFuncs .. => .json FunctionListResult
  | pseudocodeAt .. => .value ["function", "query_address", "query_end_address", "eamap_ready", "statements", "count"]

/-- A successful answer. -/
inductive Reply
  | typed (t : Ty) (v : t.Val)
  | value (j : Json)
  | text (s : String)

/-- `serde_json::to_value`. -/
def Reply.toJson : Reply → Json
  | typed t v => t.ser v
  | value j => j
  | text s => .str s

def ResultKind.Fits : ResultKind → Reply → Prop
  | json t, .typed t' _ => t' = t
  | value keys, .value j => ∃ kvs, j = .obj kvs ∧ ∀ kv ∈ kvs, kv.1 ∈ keys
  | text, .text _ => True
  | _, _ => False

/-- The IDA worker: how it answers a request now. -/
structure Worker where
  answer : IdaRequest → Except ToolError Reply
  fits : ∀ req r, answer req = .ok r → req.result.Fits r

/-- A call of a `WorkerBackend` method; without `timeout_secs` where the method has none. -/
structure BackendCall where
  request : IdaRequest
  timeoutSecs : Option Nat
deriving DecidableEq

/-- Why a tool call ends without a result: the handler answers with a tool error, or the server refuses the
arguments before the handler runs. -/
inductive Failure
  | tool (e : ToolError)
  | params

/-- The text of a successful tool result: a rendered JSON value, which serde_json reads back unchanged, or a
plain text. -/
inductive Payload
  | json (j : Json)
  | text (s : String)

abbrev Handler (α : Type) := Prog Failure BackendCall (Except ToolError Reply) α

end Backend

end IdaRs
