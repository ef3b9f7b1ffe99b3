import IdaRs.Text
import IdaRs.Lib.Ranking

/-!
# The registry of tools (`src/tool_registry.rs`)

Every tool with its category, texts and keywords, and the search over them. `search_tools` ranks the tools that match
some word of the query: ten for a word in the name, five in the short description, three for each keyword that has the
word in it or is in the word, and two in the category. The flag of the default set is left out. `lowercase` is
`str::to_lowercase`.
-/

namespace IdaRs

namespace ToolRegistry

inductive ToolCategory
  | core
  | functions
  | disassembly
  | decompile
  | xrefs
  | controlFlow
  | memory
  | search
  | metadata
  | types
  | editing
  | debug
  | ui
  | scripting
deriving DecidableEq, Repr

namespace ToolCategory

def asStr : ToolCategory → String
  | core => "core"
  | functions => "functions"
  | disassembly => "disassembly"
  | decompile => "decompile"
  | xrefs => "xrefs"
  | controlFlow => "control_flow"
  | memory => "memory"
  | search => "search"
  | metadata => "metadata"
  | types => "types"
  | editing => "editing"
  | debug => "debug"
  | ui => "ui"
  | scripting => "scripting"

def description : ToolCategory → String
  | core => "Database open/close and discovery tools"
  | functions => "List, search, and resolve functions"
  | disassembly => "Disassemble code at addresses"
  | decompile => "Decompile functions to pseudocode (requires Hex-Rays)"
  | xrefs => "Cross-reference analysis (xrefs to/from)"
  | controlFlow => "Basic blocks, call graphs, control flow"
  | memory => "Read bytes, strings, and data"
  | search => "Search for bytes, strings, patterns"
  | metadata => "Database info, segments, imports, exports"
  | types => "Types, structs, and stack variable info"
  | editing => "Patching, renaming, and comment editing"
  | debug => "Debugger operations (headless unsupported)"
  | ui => "UI/cursor helpers (headless unsupported)"
  | scripting => "Execute Python scripts via IDAPython"

def all : List ToolCategory :=
  [core, functions, disassembly, decompile, xrefs, controlFlow, memory, search, metadata, types, editing, debug, ui,
    scripting]

/-- `replace(['-', ' '], "_")`. -/
def underscored (s : List Char) : List Char := s.map fun c => if c = '-' ∨ c = ' ' then '_' else c

def ofName : String → Option ToolCategory
  | "core" => some core
  | "functions" | "function" => some functions
  | "disassembly" | "disasm" => some disassembly
  | "decompile" | "decompiler" => some decompile
  | "xrefs" | "xref" | "references" => some xrefs
  | "control_flow" | "controlflow" | "cfg" => some controlFlow
  | "memory" | "data" => some memory
  | "search" => some search
  | "metadata" | "meta" | "info" => some metadata
  | "types" | "type" | "structs" => some types
  | "editing" | "edit" => some editing
  | "debug" | "debugger" => some debug
  | "ui" => some ui
  | "scripting" | "script" | "eval" => some scripting
  | _ => none

/-- `from_str`. -/
def fromStr (lowercase : String → String) (input : String) : Option ToolCategory :=
  ofName (String.ofList (underscored (lowercase (String.ofList (trim input.toList))).toList))

end ToolCategory

/-- Metadata for a single tool. -/
structure ToolInfo where
  name : String
  category : ToolCategory
  shortDesc : String
  fullDesc : String
  /-- `example`. -/
  usage : String
  keywords : List String
deriving DecidableEq, Repr

open ToolCategory in
/-- `TOOL_REGISTRY`. -/
def toolRegistry : List ToolInfo :=
  [⟨"open_idb", .core,
      "Open an IDA database or raw binary",
      "Open an IDA Pro database file or a raw binary for analysis. Supports .i64 (64-bit) and .idb (32-bit) " ++
      "databases, as well as raw binaries like Mach-O/ELF/PE. Raw binaries are saved as .i64 alongside the input; if " ++
      "that generated .i64 already exists, ida-mcp opens it directly instead of rebuilding. Set rebuild=true only " ++
      "when the raw input changed or stale analysis should be overwritten. Auto-analysis does NOT run by default — " ++
      "open returns quickly with the database loaded. Check analysis_status in the response: if auto_is_ok is false " ++
      "and you need xrefs/decompile, call analyze_funcs(background=true) and poll task_status. list_functions, " ++
      "disasm, strings, get_bytes work immediately without full analysis. Set auto_analyse=true for small binaries " ++
      "to wait for analysis inline (risks timeout on large files). If opening a raw binary with no existing .i64 and " ++
      "a sibling .dSYM is present, its DWARF debug info is loaded automatically. Set load_debug_info=true to force " ++
      "loading external debug info after open (optionally specify debug_info_path). The database must be opened " ++
      "before using any other analysis tools. Call close_idb when finished to release database locks; in " ++
      "multi-client servers, coordinate before closing. In HTTP/SSE mode, keep the close_token returned by open_idb " ++
      "for sessionless MCP 2026 or cross-session close requests; the owning legacy session can close directly. " ++
      "Supports timeout_secs (default 300s, max 600s). Phase transitions are observable via recent_operations. " ++
      "Returns metadata about the binary: file type, processor, bitness, function count, analysis_status.",
      "\x7b\"path\": \"/path/to/binary\", \"auto_analyse\": false\x7d",
      ["open", "load", "database", "binary", "idb", "i64", "macho", "elf", "pe"]⟩,
    ⟨"open_dsc", .core,
      "Open a dyld_shared_cache and load one module; use dsc_add_dylib/dsc_add_region for more",
      "Open an Apple dyld_shared_cache file and extract a single dylib for analysis. A previously generated .i64 " ++
      "for the same DSC is reopened directly, preserving prior analysis. Otherwise IDA 9.4 opens the DSC header " ++
      "directly and loads images through IDA's native dscu service; older IDA builds keep the legacy idat background " ++
      "flow when a generated .i64 is needed. Use this instead of open_idb when working with dyld_shared_cache files. " ++
      "Optionally load additional frameworks to resolve cross-module references. To load more code modules after the " ++
      "initial open, call dsc_add_dylib. To load additional data/GOT/stub regions by address, call dsc_add_region.",
      "\x7b\"path\": \"/path/to/dyld_shared_cache_arm64e\", \"arch\": \"arm64e\", \"module\": " ++
      "\"/usr/lib/libobjc.A.dylib\", \"frameworks\": " ++
      "[\"/System/Library/Frameworks/Foundation.framework/Foundation\"]\x7d",
      ["open", "dsc", "dyld", "shared", "cache", "dylib", "module", "region", "apple", "macos", "ios"]⟩,
    ⟨"dsc_add_dylib", .core,
      "Load an additional dylib into an open DSC database",
      "Incrementally load a single dylib into a database previously opened via open_dsc. Uses IDA's native dscu " ++
      "service to add the module. Skips full auto-analysis to keep the operation fast. Call once per module; then " ++
      "check analysis_status. If auto_is_ok is false, run analyze_funcs before relying on xrefs/decompile. Requires: " ++
      "database opened via open_dsc.",
      "\x7b\"module\": \"/System/Library/Frameworks/Foundation.framework/Foundation\", \"timeout_secs\": 300\x7d",
      ["dsc", "dyld", "dylib", "module", "load", "add", "framework", "cache"]⟩,
    ⟨"dsc_add_region", .core,
      "Load a DSC memory region by address (data/GOT/stubs)",
      "Incrementally load a specific region from the currently open DSC database by address. Accepts exactly one " ++
      "address per call. Uses IDA's native dscu service for on-demand data/GOT/stub loading. This does not force " ++
      "full auto-analysis; check analysis_status and run analyze_funcs when deeper cross-reference/decompile " ++
      "fidelity is required after loading. Requires: database opened via open_dsc.",
      "\x7b\"address\": \"0x180116000\", \"timeout_secs\": 300\x7d",
      ["dsc", "dyld", "region", "memory", "address", "got", "stubs", "data", "load"]⟩,
    ⟨"load_debug_info", .core,
      "Load external debug info (e.g., dSYM/DWARF)",
      "Load external debug info (e.g., DWARF from a dSYM) into the current database. If path is omitted, attempts " ++
      "to locate a sibling .dSYM for the currently-open database. Returns whether the load succeeded.",
      "\x7b\"path\": \"/path/to/binary.dSYM/Contents/Resources/DWARF/binary\"\x7d",
      ["debug", "dwarf", "dsym", "symbols", "load"]⟩,
    ⟨"analysis_status", .core,
      "Report auto-analysis status",
      "Report auto-analysis status (auto_is_ok, auto_state) so clients can determine whether analysis-dependent " ++
      "tools like xrefs or decompile are fully ready.",
      "\x7b\x7d",
      ["analysis", "autoanalysis", "status", "xrefs", "decompile"]⟩,
    ⟨"close_idb", .core,
      "Close the current database (release locks)",
      "Close the currently open IDA database, releasing resources. Call this when done with analysis or before " ++
      "opening a different database. In multi-client servers, coordinate before closing to avoid interrupting " ++
      "others. In HTTP/SSE mode, provide the close_token returned by open_idb unless the request is in the owning " ++
      "legacy session.",
      "\x7b\"close_token\": \"token-from-open-idb\"\x7d",
      ["close", "unload", "database"]⟩,
    ⟨"tool_catalog", .core,
      "Discover available tools by query or category",
      "Search for relevant tools based on what you're trying to accomplish. Returns tool names with short " ++
      "descriptions and relevance reasons. Use this to find the right tool before calling tool_help for full details.",
      "\x7b\"query\": \"find all callers of a function\"\x7d",
      ["discover", "find", "search", "tools", "help", "catalog"]⟩,
    ⟨"tool_help", .core,
      "Get full documentation for a tool",
      "Returns complete documentation for a specific tool including: full description, parameter schema, and " ++
      "example invocation. Use tool_catalog first to find the tool name.",
      "\x7b\"name\": \"list_functions\"\x7d",
      ["help", "docs", "documentation", "schema", "usage"]⟩,
    ⟨"recent_operations", .core,
      "Inspect recent foreground operation history",
      "Return the currently active foreground operation (if any) and a capped trail of recent phase transitions " ++
      "recorded for open_idb, run_script, and analyze_funcs. Use this after timeouts, cancellations, or failures to " ++
      "inspect the last known phase.",
      "\x7b\"limit\": 10\x7d",
      ["recent", "operations", "history", "progress", "timeout", "cancel", "observability"]⟩,
    ⟨"task_status", .core,
      "Check status of a background task (e.g. DSC loading)",
      "Check the status of a background task started by open_dsc. Returns 'running' (with progress message), " ++
      "'completed' (with db_info — database is already open and ready for analysis), or 'failed' (with error). Use " ++
      "the task_id returned by open_dsc when a new .i64 must be created.",
      "\x7b\"task_id\": \"dsc-abc123\"\x7d",
      ["task", "status", "poll", "background", "dsc", "progress"]⟩,
    ⟨"idb_meta", .core,
      "Get database metadata and summary",
      "Returns metadata about the currently open database: file type, processor architecture, bitness, entry " ++
      "points, segment count, function count, and other summary info.",
      "\x7b\x7d",
      ["info", "metadata", "summary", "database", "binary"]⟩,
    ⟨"list_functions", .functions,
      "List functions with pagination and filtering",
      "List all functions in the database with optional name filtering. Supports pagination via offset/limit. " ++
      "Returns function address, name, and size. Use filter parameter to search by substring in function name.",
      "\x7b\"offset\": 0, \"limit\": 100, \"filter\": \"init\"\x7d",
      ["functions", "list", "enumerate", "find", "filter", "subroutines"]⟩,
    ⟨"list_funcs", .functions,
      "Alias of list_functions",
      "Alias of list_functions. Lists all functions in the database with pagination and optional name filtering.",
      "\x7b\"offset\": 0, \"limit\": 100, \"filter\": \"init\"\x7d",
      ["functions", "list", "alias"]⟩,
    ⟨"resolve_function", .functions,
      "Find function address by name",
      "Resolve a function name to its address. Supports exact names and demangled names. Returns the function's " ++
      "address, full name, and size if found.",
      "\x7b\"name\": \"main\"\x7d",
      ["resolve", "find", "lookup", "function", "name", "address"]⟩,
    ⟨"function_at", .functions,
      "Find the function containing an address",
      "Return the function that contains the given address, including start/end and size. Useful for mapping PC/LR " ++
      "to a function.",
      "\x7b\"address\": \"0x1000\"\x7d",
      ["function", "address", "pc", "lr", "containing"]⟩,
    ⟨"lookup_funcs", .functions,
      "Batch lookup multiple functions by name",
      "Look up multiple function names at once. Returns address and size for each found function. More efficient " ++
      "than multiple resolve_function calls.",
      "\x7b\"names\": [\"main\", \"printf\", \"malloc\"]\x7d",
      ["lookup", "batch", "multiple", "functions", "names"]⟩,
    ⟨"analyze_funcs", .functions,
      "Run auto-analysis (foreground or background task)",
      "Run IDA auto-analysis. Set background=true for large binaries (kernelcache, DSC modules) — returns a task_id " ++
      "immediately, poll task_status for progress. The IDA worker thread blocks on auto_wait() either way, but in " ++
      "background mode the MCP request returns instead of timing out, and task_status reads the registry without " ++
      "going through the worker. Foreground mode (default) waits for completion, records phase transitions in " ++
      "recent_operations, and respects timeout_secs.",
      "\x7b\"background\": true\x7d",
      ["analyze", "functions", "analysis", "auto", "background", "task"]⟩,
    ⟨"disasm", .disassembly,
      "Disassemble instructions at an address",
      "Disassemble machine code starting at the given address. Returns assembly instructions with addresses and " ++
      "opcodes. Specify count to control how many instructions to disassemble.",
      "\x7b\"address\": \"0x1000\", \"count\": 20\x7d",
      ["disassemble", "disasm", "assembly", "instructions", "code"]⟩,
    ⟨"disasm_by_name", .disassembly,
      "Disassemble a function by name",
      "Disassemble a function given its name. Resolves the name to an address and disassembles the specified number " ++
      "of instructions.",
      "\x7b\"name\": \"main\", \"count\": 50\x7d",
      ["disassemble", "function", "name", "assembly"]⟩,
    ⟨"disasm_function_at", .disassembly,
      "Disassemble the function containing an address",
      "Disassemble the function that contains the provided address. Useful when you only have a PC/LR.",
      "\x7b\"address\": \"0x1000\", \"count\": 200\x7d",
      ["disassemble", "function", "address", "pc", "lr"]⟩,
    ⟨"decompile", .decompile,
      "Decompile function to C pseudocode",
      "Decompile a function using Hex-Rays decompiler (if available). Returns C-like pseudocode. Accepts address or " ++
      "function name.",
      "\x7b\"address\": \"0x1000\"\x7d",
      ["decompile", "pseudocode", "c", "source", "hex-rays"]⟩,
    ⟨"pseudocode_at", .decompile,
      "Get pseudocode for specific address/range",
      "Get decompiled pseudocode for a specific address or address range (e.g., a basic block). Unlike decompile " ++
      "which returns the full function, this returns only statements corresponding to the given address(es).",
      "\x7b\"address\": \"0x1000\", \"end_address\": \"0x1020\"\x7d",
      ["pseudocode", "decompile", "block", "range", "statement"]⟩,
    ⟨"xrefs_to", .xrefs,
      "Find all references TO an address",
      "Find all cross-references pointing to the given address. Shows what code/data references this location. " ++
      "Useful for finding callers, data usage, etc.",
      "\x7b\"address\": \"0x1000\"\x7d",
      ["xrefs", "references", "to", "callers", "usage"]⟩,
    ⟨"xrefs_from", .xrefs,
      "Find all references FROM an address",
      "Find all cross-references originating from the given address. Shows what this instruction/data references. " ++
      "Useful for finding callees, data accesses, etc.",
      "\x7b\"address\": \"0x1000\"\x7d",
      ["xrefs", "references", "from", "callees", "targets"]⟩,
    ⟨"xrefs_to_string", .xrefs,
      "Find xrefs to strings matching a query",
      "Find strings that match a query and return xrefs to each match. Useful for 'xref to cstring' workflows.",
      "\x7b\"query\": \"value=%d\", \"limit\": 10\x7d",
      ["xrefs", "strings", "cstring", "references", "usage"]⟩,
    ⟨"xref_matrix", .xrefs,
      "Build xref matrix between addresses",
      "Build a cross-reference matrix showing relationships between multiple addresses. Returns a boolean matrix " ++
      "indicating which addresses reference which others.",
      "\x7b\"addresses\": [\"0x1000\", \"0x2000\", \"0x3000\"]\x7d",
      ["xrefs", "matrix", "relationships", "graph"]⟩,
    ⟨"basic_blocks", .controlFlow,
      "Get basic blocks of a function",
      "Get the control flow graph basic blocks for a function. Returns block addresses, sizes, and successor " ++
      "relationships.",
      "\x7b\"address\": \"0x1000\"\x7d",
      ["basic", "blocks", "cfg", "control", "flow", "graph"]⟩,
    ⟨"callers", .controlFlow,
      "Find all callers of a function",
      "Find all functions that call the specified function. Returns caller addresses and names.",
      "\x7b\"address\": \"0x1000\"\x7d",
      ["callers", "called", "by", "references", "xrefs"]⟩,
    ⟨"callees", .controlFlow,
      "Find all functions called by a function",
      "Find all functions that are called by the specified function. Returns callee addresses and names.",
      "\x7b\"address\": \"0x1000\"\x7d",
      ["callees", "calls", "targets", "functions"]⟩,
    ⟨"callgraph", .controlFlow,
      "Build call graph from a function",
      "Build a call graph starting from a function, exploring callers/callees up to the specified depth. Returns " ++
      "nodes and edges.",
      "\x7b\"roots\": \"0x1000\", \"max_depth\": 2, \"max_nodes\": 256\x7d",
      ["callgraph", "call", "graph", "depth", "tree"]⟩,
    ⟨"find_paths", .controlFlow,
      "Find control-flow paths between two addresses",
      "Find control-flow paths between two addresses within the same function. Returns all paths up to max_depth. " ++
      "Both addresses must be in the same function.",
      "\x7b\"start\": \"0x1000\", \"end\": \"0x2000\", \"max_depth\": 5\x7d",
      ["paths", "route", "flow", "between", "reach"]⟩,
    ⟨"get_bytes", .memory,
      "Read raw bytes from an address",
      "Read raw bytes from the database at the specified address. Returns bytes as hex string. Useful for examining " ++
      "data. You can also supply a symbol/function name with an optional offset.",
      "\x7b\"name\": \"interesting_function\", \"offset\": 0, \"size\": 32\x7d",
      ["bytes", "read", "memory", "data", "raw", "hex"]⟩,
    ⟨"get_string", .memory,
      "Read string at an address",
      "Read a null-terminated string at the specified address. Supports C strings and other string types recognized " ++
      "by IDA.",
      "\x7b\"address\": \"0x1000\"\x7d",
      ["string", "read", "text", "ascii", "data"]⟩,
    ⟨"get_u8", .memory,
      "Read 8-bit value",
      "Read an unsigned 8-bit value (byte) at the specified address.",
      "\x7b\"address\": \"0x1000\"\x7d",
      ["byte", "u8", "read", "value"]⟩,
    ⟨"get_u16", .memory,
      "Read 16-bit value",
      "Read an unsigned 16-bit value (word) at the specified address.",
      "\x7b\"address\": \"0x1000\"\x7d",
      ["word", "u16", "read", "value"]⟩,
    ⟨"get_u32", .memory,
      "Read 32-bit value",
      "Read an unsigned 32-bit value (dword) at the specified address.",
      "\x7b\"address\": \"0x1000\"\x7d",
      ["dword", "u32", "read", "value"]⟩,
    ⟨"get_u64", .memory,
      "Read 64-bit value",
      "Read an unsigned 64-bit value (qword) at the specified address.",
      "\x7b\"address\": \"0x1000\"\x7d",
      ["qword", "u64", "read", "value"]⟩,
    ⟨"get_global_value", .memory,
      "Read global value by name or address",
      "Read a global value by name or address. Returns value and raw bytes.",
      "\x7b\"query\": \"g_flag\"\x7d",
      ["global", "value", "read", "symbol", "data"]⟩,
    ⟨"int_convert", .memory,
      "Convert integers between bases",
      "Convert integers between decimal/hex/binary and show ASCII bytes when possible.",
      "\x7b\"inputs\": [\"0x41424344\", 1234]\x7d",
      ["int", "convert", "hex", "decimal", "ascii"]⟩,
    ⟨"find_bytes", .search,
      "Search for byte pattern",
      "Search for a byte pattern in the database. Supports wildcards. Returns all matching addresses up to the " ++
      "limit.",
      "\x7b\"pattern\": \"48 89 5C 24\", \"limit\": 100\x7d",
      ["find", "search", "bytes", "pattern", "hex"]⟩,
    ⟨"search", .search,
      "Search for text or immediate values",
      "General search tool. Searches for text strings or immediate values in instructions. Use find_bytes for " ++
      "byte-pattern searches.",
      "\x7b\"targets\": \"password\", \"kind\": \"text\"\x7d",
      ["search", "find", "text", "string", "immediate"]⟩,
    ⟨"strings", .search,
      "List all strings in the database",
      "List strings found in the database with pagination and optional substring filter (filter/query). Returns " ++
      "address and content.",
      "\x7b\"offset\": 0, \"limit\": 100, \"filter\": \"http\"\x7d",
      ["strings", "list", "text", "data"]⟩,
    ⟨"find_string", .search,
      "Find strings matching a query",
      "Find strings that match a query (substring by default, optional exact match). Supports pagination.",
      "\x7b\"query\": \"value=%d\", \"limit\": 20\x7d",
      ["strings", "find", "search", "text"]⟩,
    ⟨"analyze_strings", .search,
      "Analyze strings with filtering",
      "List strings with optional substring filter and pagination. Useful for finding specific string patterns like " ++
      "URLs or paths.",
      "\x7b\"query\": \"http\", \"offset\": 0, \"limit\": 100\x7d",
      ["strings", "analyze", "filter", "pattern"]⟩,
    ⟨"find_insns", .search,
      "Find instruction sequences by mnemonic",
      "Search for instruction mnemonic patterns. If patterns is an array, matches contiguous sequences. Each " ++
      "pattern matches the mnemonic substring unless it contains whitespace or commas (then full line match).",
      "\x7b\"patterns\": [\"mov\", \"bl\"], \"limit\": 5\x7d",
      ["find", "instructions", "sequence", "pattern"]⟩,
    ⟨"find_insn_operands", .search,
      "Find instructions by operand substring",
      "Search for instructions whose operand text matches any provided substring. Returns address, mnemonic, " ++
      "operands, and disasm line.",
      "\x7b\"patterns\": [\"sp\", \"0x10\"], \"limit\": 5\x7d",
      ["find", "operands", "instructions", "pattern"]⟩,
    ⟨"segments", .metadata,
      "List all segments",
      "List all segments in the database with their addresses, sizes, names, and permissions (read/write/execute).",
      "\x7b\x7d",
      ["segments", "sections", "memory", "layout"]⟩,
    ⟨"addr_info", .metadata,
      "Resolve address to segment/function/symbol",
      "Return address context including segment info, containing function, and nearest named symbol.",
      "\x7b\"address\": \"0x1000\"\x7d",
      ["address", "segment", "function", "symbol", "context"]⟩,
    ⟨"imports", .metadata,
      "List imported functions",
      "List all imported external symbols with their addresses and names.",
      "\x7b\"offset\": 0, \"limit\": 100\x7d",
      ["imports", "external", "libraries", "api"]⟩,
    ⟨"exports", .metadata,
      "List exported functions",
      "List all exported functions/symbols with their addresses and names.",
      "\x7b\"offset\": 0, \"limit\": 100\x7d",
      ["exports", "symbols", "public", "api"]⟩,
    ⟨"export_funcs", .metadata,
      "Export functions (JSON)",
      "Export functions in JSON format. If addrs is provided, only export those functions.",
      "\x7b\"addrs\": [\"0x1000\", \"0x2000\"], \"format\": \"json\"\x7d",
      ["export", "functions", "json", "dump"]⟩,
    ⟨"entrypoints", .metadata,
      "List entry points",
      "List all entry points in the binary (main, DllMain, etc.).",
      "\x7b\x7d",
      ["entry", "start", "main", "entrypoint"]⟩,
    ⟨"lumina_lookup", .metadata,
      "Look up Lumina metadata for a function",
      "Query the configured Lumina server for a function signature and metadata without changing the database. " ++
      "Requires explicit server startup with --allow-lumina or IDA_MCP_ALLOW_LUMINA=true.",
      "\x7b\"target_name\": \"sub_1000\"\x7d",
      ["lumina", "signature", "metadata", "lookup", "match"]⟩,
    ⟨"lumina_apply", .editing,
      "Apply Lumina metadata to a function",
      "Pull metadata from the configured Lumina server and apply it to one function. Uses IDA's upgrade policy by " ++
      "default; force=true may replace existing names, types, or comments. Requires explicit server startup with " ++
      "--allow-lumina or IDA_MCP_ALLOW_LUMINA=true.",
      "\x7b\"address\": \"0x1000\", \"force\": false\x7d",
      ["lumina", "signature", "metadata", "apply", "rename", "type"]⟩,
    ⟨"list_globals", .metadata,
      "List global variables",
      "List global variables and data items with their addresses, names, and types.",
      "\x7b\"offset\": 0, \"limit\": 100\x7d",
      ["globals", "variables", "data", "symbols"]⟩,
    ⟨"local_types", .types,
      "List local types",
      "List local types (typedefs, enums, structs, etc.) with pagination and optional filter.",
      "\x7b\"query\": \"struct\", \"limit\": 50\x7d",
      ["types", "local", "typedef"]⟩,
    ⟨"xrefs_to_field", .xrefs,
      "Xrefs to a struct field",
      "Get cross-references to a struct field by struct name/ordinal and member name/index.",
      "\x7b\"name\": \"Outer\", \"member_name\": \"inner\", \"limit\": 25\x7d",
      ["xrefs", "struct", "field", "member"]⟩,
    ⟨"declare_type", .types,
      "Declare a type in the local type library",
      "Parse a C declaration and store it in the local type library (optionally replacing existing).",
      "\x7b\"decl\": \"typedef int mcp_int_t;\", \"replace\": true\x7d",
      ["type", "declare", "typedef"]⟩,
    ⟨"apply_types", .types,
      "Apply a type to an address or stack variable",
      "Apply a named type or C declaration to an address/symbol. For stack vars, provide stack_offset or stack_name " ++
      "plus decl.",
      "\x7b\"name\": \"interesting_function\", \"stack_offset\": -16, \"decl\": \"int mcp_local;\"\x7d",
      ["types", "apply", "annotations"]⟩,
    ⟨"infer_types", .types,
      "Infer/guess type at an address",
      "Guess a type for an address or symbol using IDA's heuristics.",
      "\x7b\"name\": \"interesting_function\"\x7d",
      ["types", "infer", "analysis"]⟩,
    ⟨"stack_frame", .types,
      "Get stack frame info",
      "Get stack frame layout for the function at an address, including args/locals ranges and per-member type info.",
      "\x7b\"address\": \"0x1000\"\x7d",
      ["stack", "frame", "locals"]⟩,
    ⟨"declare_stack", .types,
      "Declare a stack variable",
      "Define a stack variable in a function frame using a C declaration. Provide function address/name and stack " ++
      "offset (negative for locals).",
      "\x7b\"name\": \"interesting_function\", \"offset\": -16, \"var_name\": \"mcp_local\", \"decl\": \"int " ++
      "mcp_local;\"\x7d",
      ["stack", "declare", "variable"]⟩,
    ⟨"delete_stack", .types,
      "Delete a stack variable",
      "Delete a stack variable by name or offset in a function frame.",
      "\x7b\"name\": \"interesting_function\", \"offset\": -16\x7d",
      ["stack", "delete", "variable"]⟩,
    ⟨"structs", .types,
      "List structs with pagination",
      "List structs (UDTs) in the database with optional name filtering.",
      "\x7b\"limit\": 50, \"filter\": \"objc\"\x7d",
      ["structs", "types", "list"]⟩,
    ⟨"struct_info", .types,
      "Get struct info by name or ordinal",
      "Get struct details including member layout and sizes.",
      "\x7b\"name\": \"MyStruct\"\x7d",
      ["struct", "info", "types"]⟩,
    ⟨"read_struct", .types,
      "Read a struct instance at an address",
      "Read raw bytes for each struct member at a given address.",
      "\x7b\"address\": \"0x1000\", \"name\": \"MyStruct\"\x7d",
      ["struct", "read", "values"]⟩,
    ⟨"search_structs", .types,
      "Search structs by name",
      "Search for structs by name with optional filter and pagination. Returns the same structure list output as " ++
      "structs.",
      "\x7b\"query\": \"my_struct\", \"limit\": 20\x7d",
      ["struct", "search", "types"]⟩,
    ⟨"set_comments", .editing,
      "Set comments at an address",
      "Set a non-repeatable or repeatable comment at an address. Empty string clears the comment. You can also " ++
      "supply a symbol/function name with an optional offset.",
      "\x7b\"name\": \"interesting_function\", \"comment\": \"note\", \"repeatable\": false\x7d",
      ["comments", "set", "annotate"]⟩,
    ⟨"patch_asm", .editing,
      "Patch instructions with assembly text",
      "Assemble a single instruction line at the target address and patch the bytes. Requires a processor module " ++
      "with assembler support; may fail on some targets. You can supply an address or a symbol name with an optional " ++
      "offset.",
      "\x7b\"name\": \"interesting_function\", \"offset\": 0, \"line\": \"nop\"\x7d",
      ["patch", "asm", "edit", "modify"]⟩,
    ⟨"patch", .editing,
      "Patch bytes at an address",
      "Patch bytes in the database at the given address. You can also supply a symbol/function name with an " ++
      "optional offset.",
      "\x7b\"name\": \"interesting_function\", \"offset\": 0, \"bytes\": \"1f 20 03 d5\"\x7d",
      ["patch", "bytes", "edit", "modify"]⟩,
    ⟨"rename", .editing,
      "Rename symbols",
      "Rename a symbol at an address. Optional flags map to IDA set_name flags. You can also supply the current " ++
      "name instead of an address.",
      "\x7b\"current_name\": \"interesting_function\", \"name\": \"interesting_function_renamed\", \"flags\": 0\x7d",
      ["rename", "symbol", "edit"]⟩,
    ⟨"run_script", .scripting,
      "Execute Python code via IDAPython",
      "Execute a Python script via IDAPython in the currently open database. Provide either 'code' (inline Python) " ++
      "or 'file' (path to a .py file). Has full access to all ida_* modules (ida_funcs, ida_bytes, ida_segment, " ++
      "etc.), idc, and idautils. stdout and stderr are captured and returned. Use this for custom analysis that goes " ++
      "beyond the built-in tools. Supports timeout_secs, records phase transitions in recent_operations, and " ++
      "requires that the IDAPython plugin is loaded (available by default in IDA Pro). API reference: " ++
      "https://python.docs.hex-rays.com",
      "\x7b\"code\": \"import idautils\\nfor f in idautils.Functions():\\n    print(hex(f))\"\x7d",
      ["script", "python", "execute", "eval", "idapython", "run", "code", "file"]⟩]

def getTool (name : String) : Option ToolInfo := toolRegistry.find? fun t => decide (t.name = name)

def toolsByCategory (category : ToolCategory) : List ToolInfo :=
  toolRegistry.filter fun t => decide (t.category = category)

/-! ### Search -/

/-- `contains`, of two texts. -/
def hasText (text pat : List Char) : Bool := decide (pat <:+: text)

structure Match where
  tool : ToolInfo
  matched : List String
  score : Nat
deriving DecidableEq, Repr

section

variable (lowercase : String → String)

/-- `query.to_lowercase().split_whitespace()`. -/
def queryWords (query : String) : List (List Char) := splitWhitespace (lowercase query).toList

def matchTool (queryWords : List (List Char)) (tool : ToolInfo) : Match :=
  let nameLower := (lowercase tool.name).toList
  let m := queryWords.foldl (fun m word =>
    if hasText nameLower word then { m with score := m.score + 10, matched := m.matched ++ ["name match"] } else m)
    ⟨tool, [], 0⟩
  let descLower := (lowercase tool.shortDesc).toList
  let m := queryWords.foldl (fun m word => if hasText descLower word then { m with score := m.score + 5 } else m) m
  let m := tool.keywords.foldl (fun m keyword =>
    let kwLower := (lowercase keyword).toList
    queryWords.foldl (fun m word =>
      if hasText kwLower word || hasText word kwLower then
        { m with
          score := m.score + 3
          matched := if m.matched.contains keyword then m.matched else m.matched ++ [keyword] }
      else m) m) m
  let catStr := (lowercase tool.category.asStr).toList
  queryWords.foldl (fun m word =>
    if hasText catStr word then { m with score := m.score + 2, matched := m.matched ++ [tool.category.asStr] } else m) m

def searchTools (query : String) (limit : Nat) : List (ToolInfo × List String) :=
  let results := (toolRegistry.map (matchTool lowercase (queryWords lowercase query))).filter fun m => decide (0 < m.score)
  ((Ranking.ranked Match.score results).take limit).map fun m => (m.tool, m.matched)

end

end ToolRegistry

end IdaRs
