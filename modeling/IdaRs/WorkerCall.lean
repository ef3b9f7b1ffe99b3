import IdaRs.CliCommand

/-!
# The calls of a worker (`src/daemon/worker.rs` 313-865)

The arms of `dispatch_analysis` read the parameters of an operation and call a handler: `workerCall` is the call, or why
there is none. The name is that of a target, resolved before; the handlers come later.
-/

namespace IdaRs

open Serde (Json)
open Handlers (Address asU64 checkedAdd paramStr paramUsize paramBool paramAddr parseAddr parseHexBytes textParam)

/-- A handler with what it is called with. A `usize` is a number, as the handlers have it. -/
inductive HandlerCall
  | info
  | idbMeta
  | analysisStatus
  | listFunctions (offset limit : Nat) (filter : Option String)
  | resolveFunction (name : String)
  | functionAt (addr : Address)
  | lookupFuncs (queries : List String)
  | analyzeFuncs
  | disasmByName (name : String) (total offset : Nat)
  | disasm (addr : Address) (total offset : Nat)
  | disasmFunctionAt (addr : Address) (total offset : Nat)
  | decompileByName (name : String) (maxLines : Nat)
  | decompile (addr : Address) (maxLines : Nat)
  | pseudocodeAt (addr : Address) (stop : Option Address)
  | strings (offset limit : Nat) (filter : Option String)
  | findString (query : String) (exact ci : Bool) (offset limit : Nat)
  | getString (addr : Address) (maxLen : Nat)
  | analyzeStrings (query : Option String) (offset limit : Nat)
  | xrefsToString (query : String) (exact ci : Bool) (offset limit maxXrefs : Nat)
  | segments
  | imports (offset limit : Nat)
  | exports (offset limit : Nat)
  | entrypoints
  | listGlobals (filter : Option String) (offset limit : Nat)
  | getGlobalValue (query : String)
  | xrefsTo (addr : Address) (offset limit : Nat)
  | xrefsFrom (addr : Address) (offset limit : Nat)
  | xrefMatrix (addrs : List Address)
  | basicBlocks (addr : Address)
  | callers (addr : Address)
  | callees (addr : Address)
  | callgraph (addr : Address) (maxDepth maxNodes : Nat)
  | findPaths (start stop : Address) (maxPaths maxDepth : Nat)
  | getBytes (addr : Option Address) (name : Option String) (offset : Int64) (size : Nat)
  | readInt (addr : Address) (size : Nat)
  | findBytes (pattern : String) (limit : Nat)
  | searchText (text : String) (max : Nat)
  | searchImm (imm : Address) (max : Nat)
  | findInsns (patterns : List String) (max : Nat) (ci : Bool)
  | findInsnOperands (patterns : List String) (max : Nat) (ci : Bool)
  | addrInfo (addr : Address)
  | localTypes (offset limit : Nat) (filter : Option String)
  | declareType (decl : String) (relaxed replace multi : Bool)
  | applyTypes (addr : Option Address) (name : Option String) (offset : Int64) (stackOffset : Option Int64)
      (stackName decl typeName : Option String) (relaxed delay strict : Bool)
  | inferTypes (addr : Option Address) (name : Option String) (offset : Int64)
  | stackFrame (addr : Address)
  | declareStack (addr : Option Address) (name : Option String) (offset : Int64) (varName : Option String)
      (decl : String) (relaxed : Bool)
  | deleteStack (addr : Option Address) (name : Option String) (offset : Option Int64) (varName : Option String)
  | structs (offset limit : Nat) (filter : Option String)
  | structInfo (ordinal : Option UInt32) (name : Option String)
  | readStruct (addr : Address) (ordinal : Option UInt32) (name : Option String)
  | xrefsToField (ordinal : Option UInt32) (name : Option String) (memberIndex : Option UInt32)
      (memberName : Option String) (limit : Nat)
  | setComments (addr : Option Address) (name : Option String) (offset : Int64) (comment : String) (repeatable : Bool)
  | rename (addr : Option Address) (currentName : Option String) (name : String) (flags : Int32)
  | patchBytes (addr : Option Address) (name : Option String) (offset : Int64) (bytes : List UInt8)
  | patchAsm (addr : Option Address) (name : Option String) (offset : Int64) (line : String)
  | runScript (code : String)
  | loadDebugInfo (path : Option String) (verbose : Bool)
deriving DecidableEq, Repr

/-- Why an operation makes no call: `Err`, or the end of the thread. -/
inductive NoCall
  | message (text : String)
  | panics
deriving DecidableEq, Repr

abbrev Read := Except NoCall

/-- The operations of `dispatch_analysis`. -/
inductive Operation
  | info
  | idbMeta
  | analysisStatus
  | functions
  | resolveFunction
  | functionAt
  | lookupFuncs
  | analyzeFuncs
  | disasm
  | disasmFunctionAt
  | decompile
  | pseudocodeAt
  | strings
  | findString
  | getString
  | analyzeStrings
  | xrefsToString
  | segments
  | imports
  | exports
  | entrypoints
  | globals
  | getGlobalValue
  | xrefsTo
  | xrefsFrom
  | xrefMatrix
  | basicBlocks
  | callers
  | callees
  | callgraph
  | findPaths
  | getBytes
  | readInt
  | findBytes
  | searchText
  | searchImm
  | findInsns
  | findInsnOperands
  | addrInfo
  | localTypes
  | declareType
  | applyTypes
  | inferTypes
  | stackFrame
  | declareStack
  | deleteStack
  | structs
  | structInfo
  | readStruct
  | xrefsToField
  | setComment
  | rename
  | patchBytes
  | patchAsm
  | runScript
  | loadDebugInfo
deriving DecidableEq, Repr

namespace Operation

def ofName : String → Option Operation
  | "info" => some info
  | "meta" => some idbMeta
  | "analysis_status" => some analysisStatus
  | "functions" | "list_functions" => some functions
  | "resolve_function" => some resolveFunction
  | "function_at" => some functionAt
  | "lookup_funcs" => some lookupFuncs
  | "analyze_funcs" => some analyzeFuncs
  | "disasm" => some disasm
  | "disasm_function_at" => some disasmFunctionAt
  | "decompile" => some decompile
  | "pseudocode_at" => some pseudocodeAt
  | "strings" => some strings
  | "find_string" => some findString
  | "get_string" => some getString
  | "analyze_strings" => some analyzeStrings
  | "xrefs_to_string" => some xrefsToString
  | "segments" => some segments
  | "imports" => some imports
  | "exports" | "export_funcs" => some exports
  | "entrypoints" => some entrypoints
  | "globals" | "list_globals" => some globals
  | "get_global_value" => some getGlobalValue
  | "xrefs_to" => some xrefsTo
  | "xrefs_from" => some xrefsFrom
  | "xref_matrix" => some xrefMatrix
  | "basic_blocks" => some basicBlocks
  | "callers" => some callers
  | "callees" => some callees
  | "callgraph" => some callgraph
  | "find_paths" => some findPaths
  | "get_bytes" => some getBytes
  | "read_int" => some readInt
  | "find_bytes" => some findBytes
  | "search_text" => some searchText
  | "search_imm" => some searchImm
  | "find_insns" => some findInsns
  | "find_insn_operands" => some findInsnOperands
  | "addr_info" => some addrInfo
  | "local_types" => some localTypes
  | "declare_type" => some declareType
  | "apply_types" => some applyTypes
  | "infer_types" => some inferTypes
  | "stack_frame" => some stackFrame
  | "declare_stack" => some declareStack
  | "delete_stack" => some deleteStack
  | "structs" => some structs
  | "struct_info" => some structInfo
  | "read_struct" => some readStruct
  | "xrefs_to_field" => some xrefsToField
  | "set_comment" => some setComment
  | "rename" => some rename
  | "patch_bytes" => some patchBytes
  | "patch_asm" => some patchAsm
  | "run_script" => some runScript
  | "load_debug_info" => some loadDebugInfo
  | _ => none

end Operation

namespace Worker

/-! ### Parameters -/

def read {α : Type} (x : Except String α) : Read α := x.mapError .message

/-- `as_i64`. -/
def asI64 : Json → Option Int64
  | .int n => if -2 ^ 63 ≤ n ∧ n < 2 ^ 63 then some (Int64.ofInt n) else none
  | _ => none

def i64Param (p : Json) (key : String) : Option Int64 := (p.get? key).bind asI64

/-- `as_u64().map(|v| v as u32)`. -/
def u32Param (p : Json) (key : String) : Option UInt32 := ((p.get? key).bind asU64).map UInt32.ofNat

/-- `map(parse_addr).transpose()`. -/
def optAddr (s : Option String) : Except String (Option Address) :=
  match s with
  | some s => (parseAddr s).map some
  | none => .ok none

def addrParam (p : Json) (key : String) : Except String (Option Address) := optAddr (textParam p key)

def paramStrVec (p : Json) (key : String) : List String :=
  (((p.get? key).bind Json.asArr).map fun xs => xs.filterMap Json.asStr).getD []

/-- `collect` of results: the first error, or all the addresses. -/
def parseAddrs : List String → Except String (List Address)
  | [] => .ok []
  | s :: ss => do
    let addr ← parseAddr s
    return addr :: (← parseAddrs ss)

def paramAddrVec (p : Json) (key : String) : Except String (List Address) := parseAddrs (paramStrVec p key)

/-- `count + offset`, with checks of overflow. -/
def totalLines (count offset : Nat) : Read Nat := (checkedAdd count offset).mapError fun _ => .panics

/-- `parse_hex_bytes`, which panics in a character. -/
def hexBytes (s : String) : Read (List UInt8) :=
  match parseHexBytes s with
  | some bytes => read bytes
  | none => .error .panics

/-- `limit.clamp(1, 10000)`. -/
def xrefLimit (limit : Nat) : Nat := min (max limit 1) 10000

end Worker

/-! ### Arms -/

open Worker

/-- The arm of an operation. -/
def Operation.call (p : Json) : Operation → Read HandlerCall
  | info => .ok .info
  | idbMeta => .ok .idbMeta
  | analysisStatus => .ok .analysisStatus
  | functions =>
    .ok (.listFunctions (paramUsize p "offset" 0) (paramUsize p "limit" 100) (textParam p "filter"))
  | resolveFunction => do
    let name ← read (paramStr p "name")
    return .resolveFunction name
  | functionAt => do
    let addr ← read (paramAddr p "address")
    return .functionAt addr
  | lookupFuncs => .ok (.lookupFuncs (paramStrVec p "queries"))
  | analyzeFuncs => .ok .analyzeFuncs
  | disasm => do
    let offset := paramUsize p "offset" 0
    let count := paramUsize p "count" 20
    let total ← totalLines count offset
    match textParam p "name" with
    | some name => return .disasmByName name total offset
    | none => do
      let addr ← read (paramAddr p "address")
      return .disasm addr total offset
  | disasmFunctionAt => do
    let addr ← read (paramAddr p "address")
    let offset := paramUsize p "offset" 0
    let count := paramUsize p "count" 200
    let total ← totalLines count offset
    return .disasmFunctionAt addr total offset
  | decompile =>
    let maxLines := paramUsize p "max_lines" 0
    match textParam p "name" with
    | some name => .ok (.decompileByName name maxLines)
    | none => do
      let addr ← read (paramAddr p "address")
      return .decompile addr maxLines
  | pseudocodeAt => do
    let addr ← read (paramAddr p "address")
    let stop ← read (addrParam p "end_address")
    return .pseudocodeAt addr stop
  | strings => .ok (.strings (paramUsize p "offset" 0) (paramUsize p "limit" 100) (textParam p "filter"))
  | findString => do
    let query ← read (paramStr p "query")
    let exact := paramBool p "exact" false
    let ci := paramBool p "case_insensitive" false
    return .findString query exact ci (paramUsize p "offset" 0) (paramUsize p "limit" 100)
  | getString => do
    let addr ← read (paramAddr p "address")
    return .getString addr (paramUsize p "max_len" 1024)
  | analyzeStrings =>
    .ok (.analyzeStrings (textParam p "query") (paramUsize p "offset" 0) (paramUsize p "limit" 100))
  | xrefsToString => do
    let query ← read (paramStr p "query")
    let exact := paramBool p "exact" false
    let ci := paramBool p "case_insensitive" false
    return .xrefsToString query exact ci (paramUsize p "offset" 0) (paramUsize p "limit" 100)
      (paramUsize p "max_xrefs" 10)
  | segments => .ok .segments
  | imports => .ok (.imports (paramUsize p "offset" 0) (paramUsize p "limit" 100))
  | exports => .ok (.exports (paramUsize p "offset" 0) (paramUsize p "limit" 100))
  | entrypoints => .ok .entrypoints
  | globals =>
    .ok (.listGlobals (textParam p "filter") (paramUsize p "offset" 0) (paramUsize p "limit" 100))
  | getGlobalValue => do
    let query ← read (paramStr p "query")
    return .getGlobalValue query
  | xrefsTo => do
    let addr ← read (paramAddr p "address")
    return .xrefsTo addr (paramUsize p "offset" 0) (xrefLimit (paramUsize p "limit" 1000))
  | xrefsFrom => do
    let addr ← read (paramAddr p "address")
    return .xrefsFrom addr (paramUsize p "offset" 0) (xrefLimit (paramUsize p "limit" 1000))
  | xrefMatrix => do
    let addrs ← read (paramAddrVec p "addresses")
    return .xrefMatrix addrs
  | basicBlocks => do
    let addr ← read (paramAddr p "address")
    return .basicBlocks addr
  | callers => do
    let addr ← read (paramAddr p "address")
    return .callers addr
  | callees => do
    let addr ← read (paramAddr p "address")
    return .callees addr
  | callgraph => do
    let addr ← read (paramAddr p "address")
    return .callgraph addr (paramUsize p "max_depth" 3) (paramUsize p "max_nodes" 100)
  | findPaths => do
    let start ← read (paramAddr p "start")
    let stop ← read (paramAddr p "end")
    return .findPaths start stop (paramUsize p "max_paths" 5) (paramUsize p "max_depth" 10)
  | getBytes => do
    let addr ← read (paramAddr p "address")
    return .getBytes (some addr) none 0 (paramUsize p "size" 64)
  | readInt => do
    let addr ← read (paramAddr p "address")
    return .readInt addr (paramUsize p "size" 4)
  | findBytes => do
    let pattern ← read (paramStr p "pattern")
    return .findBytes pattern (paramUsize p "limit" 100)
  | searchText => do
    let text ← read (paramStr p "text")
    return .searchText text (paramUsize p "max_results" 100)
  | searchImm => do
    let v ← read (paramStr p "value")
    let imm ← read (parseAddr v)
    return .searchImm imm (paramUsize p "max_results" 100)
  | findInsns =>
    .ok (.findInsns (paramStrVec p "patterns") (paramUsize p "max_results" 100) (paramBool p "case_insensitive" false))
  | findInsnOperands =>
    .ok (.findInsnOperands (paramStrVec p "patterns") (paramUsize p "max_results" 100)
      (paramBool p "case_insensitive" false))
  | addrInfo => do
    let addr ← read (paramAddr p "address")
    return .addrInfo addr
  | localTypes => .ok (.localTypes (paramUsize p "offset" 0) (paramUsize p "limit" 100) (textParam p "filter"))
  | declareType => do
    let decl ← read (paramStr p "decl")
    return .declareType decl (paramBool p "relaxed" false) (paramBool p "replace" false) (paramBool p "multi" false)
  | applyTypes => do
    let addr ← read (addrParam p "address")
    let offset := (i64Param p "offset").getD 0
    return .applyTypes addr (textParam p "name") offset (i64Param p "stack_offset") (textParam p "stack_name")
      (textParam p "decl") (textParam p "type_name") (paramBool p "relaxed" false) (paramBool p "delay" false)
      (paramBool p "strict" false)
  | inferTypes => do
    let addr ← read (addrParam p "address")
    return .inferTypes addr (textParam p "name") ((i64Param p "offset").getD 0)
  | stackFrame => do
    let addr ← read (paramAddr p "address")
    return .stackFrame addr
  | declareStack => do
    let addr ← read (addrParam p "address")
    let offset := (i64Param p "offset").getD 0
    let decl ← read (paramStr p "decl")
    return .declareStack addr (textParam p "name") offset (textParam p "var_name") decl (paramBool p "relaxed" false)
  | deleteStack => do
    let addr ← read (addrParam p "address")
    return .deleteStack addr (textParam p "name") (i64Param p "offset") (textParam p "var_name")
  | structs => .ok (.structs (paramUsize p "offset" 0) (paramUsize p "limit" 100) (textParam p "filter"))
  | structInfo => .ok (.structInfo (u32Param p "ordinal") (textParam p "name"))
  | readStruct => do
    let addr ← read (paramAddr p "address")
    return .readStruct addr (u32Param p "ordinal") (textParam p "name")
  | xrefsToField =>
    .ok (.xrefsToField (u32Param p "ordinal") (textParam p "name") (u32Param p "member_index")
      (textParam p "member_name") (paramUsize p "limit" 100))
  | setComment => do
    let addr ← read (addrParam p "address")
    let offset := (i64Param p "offset").getD 0
    let comment ← read (paramStr p "comment")
    return .setComments addr (textParam p "name") offset comment (paramBool p "repeatable" false)
  | rename => do
    let addr ← read (addrParam p "address")
    let name ← read (paramStr p "name")
    -- `unwrap_or(0) as i32`
    return .rename addr (textParam p "current_name") name (((i64Param p "flags").getD 0).toInt32)
  | patchBytes => do
    let addr ← read (addrParam p "address")
    let offset := (i64Param p "offset").getD 0
    let hex ← read (paramStr p "bytes")
    let bytes ← hexBytes hex
    return .patchBytes addr (textParam p "name") offset bytes
  | patchAsm => do
    let addr ← read (addrParam p "address")
    let offset := (i64Param p "offset").getD 0
    let line ← read (paramStr p "line")
    return .patchAsm addr (textParam p "name") offset line
  | runScript => do
    let code ← read (paramStr p "code")
    return .runScript code
  | loadDebugInfo => .ok (.loadDebugInfo (textParam p "path") (paramBool p "verbose" false))

def workerCall (op : String) (p : Json) : Read HandlerCall :=
  match Operation.ofName op with
  | some o => o.call p
  | none => .error (.message ("Unknown operation: " ++ op))

/-! ### What a command stands for -/

namespace Cli

/-- The operation of a command; a conversion needs no target and is none of these. -/
def operation : CliCommand → Option Operation
  | .info .. => some .info
  | .idbMeta .. => some .idbMeta
  | .analysisStatus .. => some .analysisStatus
  | .functions .. => some .functions
  | .resolveFunction .. => some .resolveFunction
  | .functionAt .. => some .functionAt
  | .lookupFuncs .. => some .lookupFuncs
  | .analyzeFuncs .. => some .analyzeFuncs
  | .disasm .. => some .disasm
  | .disasmFunctionAt .. => some .disasmFunctionAt
  | .decompile .. => some .decompile
  | .pseudocodeAt .. => some .pseudocodeAt
  | .strings .. => some .strings
  | .findString .. => some .findString
  | .getString .. => some .getString
  | .analyzeStrings .. => some .analyzeStrings
  | .xrefsToString .. => some .xrefsToString
  | .segments .. => some .segments
  | .imports .. => some .imports
  | .exports .. => some .exports
  | .entrypoints .. => some .entrypoints
  | .globals .. => some .globals
  | .getGlobalValue .. => some .getGlobalValue
  | .xrefsTo .. => some .xrefsTo
  | .xrefsFrom .. => some .xrefsFrom
  | .xrefMatrix .. => some .xrefMatrix
  | .basicBlocks .. => some .basicBlocks
  | .callers .. => some .callers
  | .callees .. => some .callees
  | .callgraph .. => some .callgraph
  | .findPaths .. => some .findPaths
  | .getBytes .. => some .getBytes
  | .readInt .. => some .readInt
  | .findBytes .. => some .findBytes
  | .searchText .. => some .searchText
  | .searchImm .. => some .searchImm
  | .findInsns .. => some .findInsns
  | .findInsnOperands .. => some .findInsnOperands
  | .addrInfo .. => some .addrInfo
  | .localTypes .. => some .localTypes
  | .declareType .. => some .declareType
  | .applyTypes .. => some .applyTypes
  | .inferTypes .. => some .inferTypes
  | .stackFrame .. => some .stackFrame
  | .declareStack .. => some .declareStack
  | .deleteStack .. => some .deleteStack
  | .structs .. => some .structs
  | .structInfo .. => some .structInfo
  | .readStruct .. => some .readStruct
  | .xrefsToField .. => some .xrefsToField
  | .setComment .. => some .setComment
  | .rename .. => some .rename
  | .patchBytes .. => some .patchBytes
  | .patchAsm .. => some .patchAsm
  | .runScript .. => some .runScript
  | .loadDebugInfo .. => some .loadDebugInfo
  | .intConvert .. => none

/-- An address or a name has to be given. -/
def addressOf (address : Option String) : Read Address :=
  match address with
  | some s => read (parseAddr s)
  | none => .error (.message "Missing parameter: address")

/-- The call a command stands for; a conversion is no call. -/
def meant : CliCommand → Option (Read HandlerCall)
  | .info => some (.ok .info)
  | .idbMeta => some (.ok .idbMeta)
  | .analysisStatus => some (.ok .analysisStatus)
  | .functions offset limit filter => some (.ok (.listFunctions offset.toNat limit.toNat filter))
  | .resolveFunction name => some (.ok (.resolveFunction name))
  | .functionAt address => some ((read (parseAddr address)).map .functionAt)
  | .lookupFuncs queries => some (.ok (.lookupFuncs queries))
  | .analyzeFuncs => some (.ok .analyzeFuncs)
  | .disasm address name count offset => some do
    let total ← totalLines count.toNat offset.toNat
    match name with
    | some name => return .disasmByName name total offset.toNat
    | none => return .disasm (← addressOf address) total offset.toNat
  | .disasmFunctionAt address count offset => some do
    let addr ← read (parseAddr address)
    return .disasmFunctionAt addr (← totalLines count.toNat offset.toNat) offset.toNat
  | .decompile address name maxLines => some <|
    match name with
    | some name => .ok (.decompileByName name maxLines.toNat)
    | none => (addressOf address).map (.decompile · maxLines.toNat)
  | .pseudocodeAt address endAddress => some do
    let addr ← read (parseAddr address)
    return .pseudocodeAt addr (← read (optAddr endAddress))
  | .strings offset limit filter => some (.ok (.strings offset.toNat limit.toNat filter))
  | .findString query exact ci offset limit => some (.ok (.findString query exact ci offset.toNat limit.toNat))
  | .getString address maxLen => some ((read (parseAddr address)).map (.getString · maxLen.toNat))
  | .analyzeStrings query offset limit => some (.ok (.analyzeStrings query offset.toNat limit.toNat))
  | .xrefsToString query exact ci offset limit maxXrefs =>
    some (.ok (.xrefsToString query exact ci offset.toNat limit.toNat maxXrefs.toNat))
  | .segments => some (.ok .segments)
  | .imports offset limit => some (.ok (.imports offset.toNat limit.toNat))
  | .exports offset limit => some (.ok (.exports offset.toNat limit.toNat))
  | .entrypoints => some (.ok .entrypoints)
  | .globals offset limit filter => some (.ok (.listGlobals filter offset.toNat limit.toNat))
  | .getGlobalValue query => some (.ok (.getGlobalValue query))
  | .xrefsTo address offset limit =>
    some ((read (parseAddr address)).map (.xrefsTo · offset.toNat (xrefLimit limit.toNat)))
  | .xrefsFrom address offset limit =>
    some ((read (parseAddr address)).map (.xrefsFrom · offset.toNat (xrefLimit limit.toNat)))
  | .xrefMatrix addresses => some ((read (parseAddrs addresses)).map .xrefMatrix)
  | .basicBlocks address => some ((read (parseAddr address)).map .basicBlocks)
  | .callers address => some ((read (parseAddr address)).map .callers)
  | .callees address => some ((read (parseAddr address)).map .callees)
  | .callgraph address maxDepth maxNodes =>
    some ((read (parseAddr address)).map (.callgraph · maxDepth.toNat maxNodes.toNat))
  | .findPaths start stop maxPaths maxDepth => some do
    let start ← read (parseAddr start)
    return .findPaths start (← read (parseAddr stop)) maxPaths.toNat maxDepth.toNat
  | .getBytes address size => some ((read (parseAddr address)).map fun a => .getBytes (some a) none 0 size.toNat)
  | .readInt address size => some ((read (parseAddr address)).map (.readInt · size.toNat))
  | .findBytes pattern limit => some (.ok (.findBytes pattern limit.toNat))
  | .searchText text maxResults => some (.ok (.searchText text maxResults.toNat))
  | .searchImm value maxResults => some ((read (parseAddr value)).map (.searchImm · maxResults.toNat))
  | .findInsns patterns maxResults ci => some (.ok (.findInsns patterns maxResults.toNat ci))
  | .findInsnOperands patterns maxResults ci => some (.ok (.findInsnOperands patterns maxResults.toNat ci))
  | .addrInfo address => some ((read (parseAddr address)).map .addrInfo)
  | .localTypes offset limit filter => some (.ok (.localTypes offset.toNat limit.toNat filter))
  | .declareType decl relaxed replace multi => some (.ok (.declareType decl relaxed replace multi))
  | .applyTypes address name offset stackOffset stackName decl typeName relaxed delay strict =>
    some ((read (optAddr address)).map
      (.applyTypes · name offset stackOffset stackName decl typeName relaxed delay strict))
  | .inferTypes address name offset => some ((read (optAddr address)).map (.inferTypes · name offset))
  | .stackFrame address => some ((read (parseAddr address)).map .stackFrame)
  | .declareStack address name offset varName decl relaxed =>
    some ((read (optAddr address)).map (.declareStack · name offset varName decl relaxed))
  | .deleteStack address name offset varName =>
    some ((read (optAddr address)).map (.deleteStack · name offset varName))
  | .structs offset limit filter => some (.ok (.structs offset.toNat limit.toNat filter))
  | .structInfo ordinal name => some (.ok (.structInfo ordinal name))
  | .readStruct address ordinal name => some ((read (parseAddr address)).map (.readStruct · ordinal name))
  | .xrefsToField ordinal name memberIndex memberName limit =>
    some (.ok (.xrefsToField ordinal name memberIndex memberName limit.toNat))
  | .setComment address name offset comment repeatable =>
    some ((read (optAddr address)).map (.setComments · name offset comment repeatable))
  | .rename address currentName name flags =>
    some ((read (optAddr address)).map (.rename · currentName name flags))
  | .patchBytes address name offset bytes => some do
    let addr ← read (optAddr address)
    return .patchBytes addr name offset (← hexBytes bytes)
  | .patchAsm address name offset line => some ((read (optAddr address)).map (.patchAsm · name offset line))
  | .runScript code => some (.ok (.runScript code))
  | .loadDebugInfo path verbose => some (.ok (.loadDebugInfo path verbose))
  | .intConvert _ => none

/-! ### Arguments that are read back -/

theorem asU64_nat {n : Nat} (h : n < 2 ^ 64) : asU64 (.int n) = some n := by
  have hn : (0 : Int) ≤ n ∧ (n : Int) ≤ u64Max := ⟨Int.natCast_nonneg n, by unfold u64Max; omega⟩
  rw [asU64, if_pos hn, Int.toNat_natCast]

@[simp] theorem asU64_usize (n : UInt64) : asU64 (usize n) = some n.toNat := asU64_nat n.toNat_lt

@[simp] theorem asU64_u32 (n : UInt32) : asU64 (u32 n) = some n.toNat :=
  asU64_nat (Nat.lt_trans n.toNat_lt (by decide))

theorem asI64_int (n : Int64) : Worker.asI64 (.int n.toInt) = some n := by
  have hn : -2 ^ 63 ≤ n.toInt ∧ n.toInt < 2 ^ 63 := ⟨n.le_toInt, n.toInt_lt⟩
  rw [Worker.asI64, if_pos hn, Int64.ofInt_toInt]

@[simp] theorem asI64_i64 (n : Int64) : Worker.asI64 (i64 n) = some n := asI64_int n

@[simp] theorem asI64_i32 (n : Int32) : Worker.asI64 (i32 n) = some n.toInt64 := by
  rw [i32, ← Int32.toInt_toInt64, asI64_int]

@[simp] theorem asStr_text (s : String) : (text s).asStr = some s := rfl

@[simp] theorem asStr_optText (s : Option String) : (optText s).asStr = s := by
  cases s <;> rfl

@[simp] theorem asBool_flag (b : Bool) : (flag b).asBool = some b := rfl

@[simp] theorem asI64_optI64 (n : Option Int64) : Worker.asI64 (optI64 n) = n := by
  cases n with
  | none => rfl
  | some n => exact asI64_i64 n

@[simp] theorem u32_optU32 (n : Option UInt32) : (asU64 (optU32 n)).map UInt32.ofNat = n := by
  cases n with
  | none => rfl
  | some n =>
    show (asU64 (u32 n)).map UInt32.ofNat = some n
    rw [asU64_u32, Option.map_some, UInt32.ofNat_toNat]

@[simp] theorem texts_read (ss : List String) :
    ((texts ss).asArr.map fun xs => xs.filterMap Json.asStr) = some ss := by
  simp [texts, Json.asArr, List.filterMap_map, Function.comp_def, Json.asStr]

theorem map_eq {α β : Type} (f : α → β) (x : Read α) : x.map f = f <$> x := rfl

theorem ok_eq {α : Type} (x : α) : (Except.ok x : Read α) = pure x := rfl

theorem ok_bind {α β : Type} (x : α) (f : α → Except String β) : (Except.ok x).bind f = f x := rfl

theorem read_ok {α : Type} (x : α) : Worker.read (Except.ok x) = pure x := rfl

theorem paramAddr_eq (p : Json) (key : String) : paramAddr p key = (paramStr p key).bind parseAddr := rfl

/-! ### Both sides agree -/

/-- The name of an operation is the same on both sides. -/
theorem ofName_request (cmd : CliCommand) : Operation.ofName (cliCommandToRequest cmd).1 = operation cmd := by
  unfold cliCommandToRequest operation
  cases cmd <;> dsimp only <;> decide +kernel

/-- The arm finds every argument under its key, and takes no default. -/
theorem call_request (cmd : CliCommand) : (operation cmd).map (·.call (cliCommandToRequest cmd).2) = meant cmd := by
  unfold operation cliCommandToRequest meant Operation.call
  cases cmd <;> dsimp only [Option.map_some, Option.map_none] <;>
    simp [Json.get?, List.lookup_cons, paramUsize, paramBool, paramStr, paramAddr_eq, textParam, addrParam, i64Param,
      u32Param, paramStrVec, paramAddrVec, map_eq, ok_eq, ok_bind, read_ok]
  case disasm address name count offset => cases name <;> cases address <;> rfl
  case decompile address name maxLines => cases name <;> cases address <;> rfl

theorem workerCall_request {cmd : CliCommand} {call : Read HandlerCall} (h : meant cmd = some call) :
    workerCall (cliCommandToRequest cmd).1 (cliCommandToRequest cmd).2 = call := by
  rw [← call_request] at h
  obtain ⟨o, ho, rfl⟩ := Option.map_eq_some_iff.1 h
  rw [workerCall, ofName_request, ho]

end Cli

end IdaRs
