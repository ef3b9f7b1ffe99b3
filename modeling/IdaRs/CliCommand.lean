import IdaRs.HexCodecs

/-!
# The commands of the CLI and the calls of a worker (`src/cli.rs` 1218-1389, `src/daemon/worker.rs` 313-780)

A command goes over the socket as the name of an operation and a JSON object (`cliCommandToRequest`). The worker reads
them back key by key, with a default for what is missing or of another type (`workerCall`), so a key that is spelled
differently on the two sides would go unnoticed. `meant` is the call a command stands for, without the JSON between;
`workerCall_request`: that is the call the worker makes.
-/

namespace IdaRs

open Serde (Json)
open Handlers (Address asU64 checkedAdd paramStr paramUsize paramBool paramAddr parseAddr parseHexBytes textParam)

/-! ### Commands -/

/-- The subcommands that ask for an analysis, with their arguments. A `usize` is an `UInt64`. -/
inductive CliCommand
  | info
  | idbMeta
  | analysisStatus
  | functions (offset limit : UInt64) (filter : Option String)
  | resolveFunction (name : String)
  | functionAt (address : String)
  | lookupFuncs (queries : List String)
  | analyzeFuncs
  | disasm (address name : Option String) (count offset : UInt64)
  | disasmFunctionAt (address : String) (count offset : UInt64)
  | decompile (address name : Option String) (maxLines : UInt64)
  | pseudocodeAt (address : String) (endAddress : Option String)
  | strings (offset limit : UInt64) (filter : Option String)
  | findString (query : String) (exact caseInsensitive : Bool) (offset limit : UInt64)
  | getString (address : String) (maxLen : UInt64)
  | analyzeStrings (query : Option String) (offset limit : UInt64)
  | xrefsToString (query : String) (exact caseInsensitive : Bool) (offset limit maxXrefs : UInt64)
  | segments
  | imports (offset limit : UInt64)
  | exports (offset limit : UInt64)
  | entrypoints
  | globals (offset limit : UInt64) (filter : Option String)
  | getGlobalValue (query : String)
  | xrefsTo (address : String) (offset limit : UInt64)
  | xrefsFrom (address : String) (offset limit : UInt64)
  | xrefMatrix (addresses : List String)
  | basicBlocks (address : String)
  | callers (address : String)
  | callees (address : String)
  | callgraph (address : String) (maxDepth maxNodes : UInt64)
  | findPaths (start stop : String) (maxPaths maxDepth : UInt64)
  | getBytes (address : String) (size : UInt64)
  | readInt (address : String) (size : UInt64)
  | findBytes (pattern : String) (limit : UInt64)
  | searchText (text : String) (maxResults : UInt64)
  | searchImm (value : String) (maxResults : UInt64)
  | findInsns (patterns : List String) (maxResults : UInt64) (caseInsensitive : Bool)
  | findInsnOperands (patterns : List String) (maxResults : UInt64) (caseInsensitive : Bool)
  | addrInfo (address : String)
  | localTypes (offset limit : UInt64) (filter : Option String)
  | declareType (decl : String) (relaxed replace multi : Bool)
  | applyTypes (address name : Option String) (offset : Int64) (stackOffset : Option Int64)
      (stackName decl typeName : Option String) (relaxed delay strict : Bool)
  | inferTypes (address name : Option String) (offset : Int64)
  | stackFrame (address : String)
  | declareStack (address name : Option String) (offset : Int64) (varName : Option String) (decl : String)
      (relaxed : Bool)
  | deleteStack (address name : Option String) (offset : Option Int64) (varName : Option String)
  | structs (offset limit : UInt64) (filter : Option String)
  | structInfo (ordinal : Option UInt32) (name : Option String)
  | readStruct (address : String) (ordinal : Option UInt32) (name : Option String)
  | xrefsToField (ordinal : Option UInt32) (name : Option String) (memberIndex : Option UInt32)
      (memberName : Option String) (limit : UInt64)
  | setComment (address name : Option String) (offset : Int64) (comment : String) (repeatable : Bool)
  | rename (address currentName : Option String) (name : String) (flags : Int32)
  | patchBytes (address name : Option String) (offset : Int64) (bytes : String)
  | patchAsm (address name : Option String) (offset : Int64) (line : String)
  | runScript (code : String)
  | loadDebugInfo (path : Option String) (verbose : Bool)
  | intConvert (value : String)

namespace Cli

/-! How `json!` writes an argument. -/

def text (s : String) : Json := .str s
def flag (b : Bool) : Json := .bool b
def usize (n : UInt64) : Json := .int n.toNat
def u32 (n : UInt32) : Json := .int n.toNat
def i64 (n : Int64) : Json := .int n.toInt
def i32 (n : Int32) : Json := .int n.toInt
def texts (ss : List String) : Json := .arr (ss.map .str)
def optText (s : Option String) : Json := Json.ofOption text s
def optU32 (n : Option UInt32) : Json := Json.ofOption u32 n
def optI64 (n : Option Int64) : Json := Json.ofOption i64 n

def cliCommandToRequest : CliCommand → String × Json
  | .info => ("info", .obj [])
  | .idbMeta => ("meta", .obj [])
  | .analysisStatus => ("analysis_status", .obj [])
  | .functions offset limit filter =>
    ("functions", .obj [("offset", usize offset), ("limit", usize limit), ("filter", optText filter)])
  | .resolveFunction name => ("resolve_function", .obj [("name", text name)])
  | .functionAt address => ("function_at", .obj [("address", text address)])
  | .lookupFuncs queries => ("lookup_funcs", .obj [("queries", texts queries)])
  | .analyzeFuncs => ("analyze_funcs", .obj [])
  | .disasm address name count offset =>
    ("disasm", .obj [("address", optText address), ("name", optText name), ("count", usize count),
      ("offset", usize offset)])
  | .disasmFunctionAt address count offset =>
    ("disasm_function_at", .obj [("address", text address), ("count", usize count), ("offset", usize offset)])
  | .decompile address name maxLines =>
    ("decompile", .obj [("address", optText address), ("name", optText name), ("max_lines", usize maxLines)])
  | .pseudocodeAt address endAddress =>
    ("pseudocode_at", .obj [("address", text address), ("end_address", optText endAddress)])
  | .strings offset limit filter =>
    ("strings", .obj [("offset", usize offset), ("limit", usize limit), ("filter", optText filter)])
  | .findString query exact caseInsensitive offset limit =>
    ("find_string", .obj [("query", text query), ("exact", flag exact), ("case_insensitive", flag caseInsensitive),
      ("offset", usize offset), ("limit", usize limit)])
  | .getString address maxLen => ("get_string", .obj [("address", text address), ("max_len", usize maxLen)])
  | .analyzeStrings query offset limit =>
    ("analyze_strings", .obj [("query", optText query), ("offset", usize offset), ("limit", usize limit)])
  | .xrefsToString query exact caseInsensitive offset limit maxXrefs =>
    ("xrefs_to_string", .obj [("query", text query), ("exact", flag exact), ("case_insensitive", flag caseInsensitive),
      ("offset", usize offset), ("limit", usize limit), ("max_xrefs", usize maxXrefs)])
  | .segments => ("segments", .obj [])
  | .imports offset limit => ("imports", .obj [("offset", usize offset), ("limit", usize limit)])
  | .exports offset limit => ("exports", .obj [("offset", usize offset), ("limit", usize limit)])
  | .entrypoints => ("entrypoints", .obj [])
  | .globals offset limit filter =>
    ("globals", .obj [("offset", usize offset), ("limit", usize limit), ("filter", optText filter)])
  | .getGlobalValue query => ("get_global_value", .obj [("query", text query)])
  | .xrefsTo address offset limit =>
    ("xrefs_to", .obj [("address", text address), ("offset", usize offset), ("limit", usize limit)])
  | .xrefsFrom address offset limit =>
    ("xrefs_from", .obj [("address", text address), ("offset", usize offset), ("limit", usize limit)])
  | .xrefMatrix addresses => ("xref_matrix", .obj [("addresses", texts addresses)])
  | .basicBlocks address => ("basic_blocks", .obj [("address", text address)])
  | .callers address => ("callers", .obj [("address", text address)])
  | .callees address => ("callees", .obj [("address", text address)])
  | .callgraph address maxDepth maxNodes =>
    ("callgraph", .obj [("address", text address), ("max_depth", usize maxDepth), ("max_nodes", usize maxNodes)])
  | .findPaths start stop maxPaths maxDepth =>
    ("find_paths", .obj [("start", text start), ("end", text stop), ("max_paths", usize maxPaths),
      ("max_depth", usize maxDepth)])
  | .getBytes address size => ("get_bytes", .obj [("address", text address), ("size", usize size)])
  | .readInt address size => ("read_int", .obj [("address", text address), ("size", usize size)])
  | .findBytes pattern limit => ("find_bytes", .obj [("pattern", text pattern), ("limit", usize limit)])
  | .searchText s maxResults => ("search_text", .obj [("text", text s), ("max_results", usize maxResults)])
  | .searchImm value maxResults => ("search_imm", .obj [("value", text value), ("max_results", usize maxResults)])
  | .findInsns patterns maxResults caseInsensitive =>
    ("find_insns", .obj [("patterns", texts patterns), ("max_results", usize maxResults),
      ("case_insensitive", flag caseInsensitive)])
  | .findInsnOperands patterns maxResults caseInsensitive =>
    ("find_insn_operands", .obj [("patterns", texts patterns), ("max_results", usize maxResults),
      ("case_insensitive", flag caseInsensitive)])
  | .addrInfo address => ("addr_info", .obj [("address", text address)])
  | .localTypes offset limit filter =>
    ("local_types", .obj [("offset", usize offset), ("limit", usize limit), ("filter", optText filter)])
  | .declareType decl relaxed replace multi =>
    ("declare_type", .obj [("decl", text decl), ("relaxed", flag relaxed), ("replace", flag replace),
      ("multi", flag multi)])
  | .applyTypes address name offset stackOffset stackName decl typeName relaxed delay strict =>
    ("apply_types", .obj [("address", optText address), ("name", optText name), ("offset", i64 offset),
      ("stack_offset", optI64 stackOffset), ("stack_name", optText stackName), ("decl", optText decl),
      ("type_name", optText typeName), ("relaxed", flag relaxed), ("delay", flag delay), ("strict", flag strict)])
  | .inferTypes address name offset =>
    ("infer_types", .obj [("address", optText address), ("name", optText name), ("offset", i64 offset)])
  | .stackFrame address => ("stack_frame", .obj [("address", text address)])
  | .declareStack address name offset varName decl relaxed =>
    ("declare_stack", .obj [("address", optText address), ("name", optText name), ("offset", i64 offset),
      ("var_name", optText varName), ("decl", text decl), ("relaxed", flag relaxed)])
  | .deleteStack address name offset varName =>
    ("delete_stack", .obj [("address", optText address), ("name", optText name), ("offset", optI64 offset),
      ("var_name", optText varName)])
  | .structs offset limit filter =>
    ("structs", .obj [("offset", usize offset), ("limit", usize limit), ("filter", optText filter)])
  | .structInfo ordinal name => ("struct_info", .obj [("ordinal", optU32 ordinal), ("name", optText name)])
  | .readStruct address ordinal name =>
    ("read_struct", .obj [("address", text address), ("ordinal", optU32 ordinal), ("name", optText name)])
  | .xrefsToField ordinal name memberIndex memberName limit =>
    ("xrefs_to_field", .obj [("ordinal", optU32 ordinal), ("name", optText name), ("member_index", optU32 memberIndex),
      ("member_name", optText memberName), ("limit", usize limit)])
  | .setComment address name offset comment repeatable =>
    ("set_comment", .obj [("address", optText address), ("name", optText name), ("offset", i64 offset),
      ("comment", text comment), ("repeatable", flag repeatable)])
  | .rename address currentName name flags =>
    ("rename", .obj [("address", optText address), ("current_name", optText currentName), ("name", text name),
      ("flags", i32 flags)])
  | .patchBytes address name offset bytes =>
    ("patch_bytes", .obj [("address", optText address), ("name", optText name), ("offset", i64 offset),
      ("bytes", text bytes)])
  | .patchAsm address name offset line =>
    ("patch_asm", .obj [("address", optText address), ("name", optText name), ("offset", i64 offset),
      ("line", text line)])
  | .runScript code => ("run_script", .obj [("code", text code)])
  | .loadDebugInfo path verbose => ("load_debug_info", .obj [("path", optText path), ("verbose", flag verbose)])
  | .intConvert value => ("int_convert", .obj [("value", text value)])

end Cli

end IdaRs
