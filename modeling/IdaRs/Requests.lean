import IdaRs.Backend

/-!
# Arguments of the tools (`src/server/requests.rs`)

The request records with the names and aliases serde accepts for each field. Left out: the records of tools that
open, close, load a DSC, run a script or drive auto-analysis, and the schema attributes.
-/

namespace IdaRs

namespace Backend

open Serde

abbrev optI64 : Ty := .opt IntTy.i64.ty
abbrev optStr : Ty := .opt .str
abbrev optBool : Ty := .opt .bool
abbrev optValue : Ty := .opt .value

def LoadDebugInfoRequest : Ty :=
  .plain "path" optStr <| .plain "verbose" optBool .done

def EmptyParams : Ty := .done

def ListFunctionsRequest : Ty :=
  .plain "offset" optI64 <| .aliased "limit" ["count"] optI64 <|
    .aliased "filter" ["query", "queries", "filter"] optStr <| .plain "timeout_secs" optI64 .done

def ResolveFunctionRequest : Ty := .plain "name" .str .done

/-- A place given by an address or by a name: `AddrInfoRequest`, `FunctionAtRequest`, `InferTypesRequest`. -/
def placeFields (rest : Ty) : Ty :=
  .aliased "address" ["ea", "addr", "addresses"] optValue <| .aliased "target_name" ["name", "symbol"] optStr <|
    .plain "offset" optI64 rest

def AddrInfoRequest : Ty := placeFields .done

def FunctionAtRequest : Ty := placeFields .done

def DisasmFunctionAtRequest : Ty := placeFields (.plain "count" optI64 .done)

def DisasmRequest : Ty :=
  .aliased "address" ["addrs", "addr", "addresses"] .value <| .plain "count" optI64 .done

def DisasmByNameRequest : Ty := .plain "name" .str <| .plain "count" optI64 .done

def DecompileRequest : Ty := .aliased "address" ["addrs", "addr", "addresses"] .value .done

/-- A page of a filtered listing: `StringsRequest`, `LocalTypesRequest`, `StructsRequest`. -/
def filteredPage : Ty :=
  .plain "offset" optI64 <| .aliased "limit" ["count"] optI64 <| .aliased "filter" ["query"] optStr <|
    .plain "timeout_secs" optI64 .done

def StringsRequest : Ty := filteredPage

def LocalTypesRequest : Ty := filteredPage

def StructsRequest : Ty := filteredPage

def FindStringRequest : Ty :=
  .plain "query" .str <| .plain "exact" optBool <| .plain "case_insensitive" optBool <| .plain "offset" optI64 <|
    .aliased "limit" ["count"] optI64 <| .plain "timeout_secs" optI64 .done

def XrefsToStringRequest : Ty :=
  .plain "query" .str <| .plain "exact" optBool <| .plain "case_insensitive" optBool <| .plain "offset" optI64 <|
    .aliased "limit" ["count"] optI64 <| .plain "max_xrefs" optI64 <| .plain "timeout_secs" optI64 .done

def DeclareTypeRequest : Ty :=
  .plain "decl" .str <| .plain "relaxed" optBool <| .plain "replace" optBool <| .plain "multi" optBool .done

def StructInfoRequest : Ty :=
  .plain "ordinal" optI64 <| .aliased "name" ["struct_name", "type_name"] optStr .done

def ReadStructRequest : Ty :=
  .aliased "address" ["ea", "addr", "addresses"] .value <| .plain "ordinal" optI64 <|
    .aliased "name" ["struct_name", "type_name"] optStr .done

def ApplyTypesRequest : Ty :=
  placeFields <| .plain "stack_offset" optI64 <| .plain "stack_name" optStr <| .plain "type_name" optStr <|
    .plain "decl" optStr <| .plain "relaxed" optBool <| .plain "delay" optBool <| .plain "strict" optBool .done

def InferTypesRequest : Ty := placeFields .done

def DeclareStackRequest : Ty :=
  .aliased "address" ["ea", "addr", "addresses"] optValue <| .aliased "target_name" ["function", "name"] optStr <|
    .plain "offset" IntTy.i64.ty <| .plain "var_name" optStr <| .plain "decl" .str <| .plain "relaxed" optBool .done

def DeleteStackRequest : Ty :=
  .aliased "address" ["ea", "addr", "addresses"] optValue <| .aliased "target_name" ["function", "name"] optStr <|
    .plain "offset" optI64 <| .plain "var_name" optStr .done

def XrefsToFieldRequest : Ty :=
  .plain "ordinal" optI64 <| .aliased "name" ["struct_name", "type_name"] optStr <| .plain "member_index" optI64 <|
    .aliased "member_name" ["member", "field", "field_name"] optStr <| .aliased "limit" ["count"] optI64 .done

def AddressRequest : Ty := .aliased "address" ["addrs", "addr", "addresses"] .value .done

/-- The place a Lumina tool works on. -/
def luminaPlace (rest : Ty) : Ty :=
  .aliased "address" ["ea", "addr", "addresses"] optValue <|
    .aliased "target_name" ["function", "name", "symbol"] optStr <| .plain "offset" optI64 rest

def LuminaLookupRequest : Ty := luminaPlace <| .plain "timeout_secs" optI64 .done

def LuminaApplyRequest : Ty := luminaPlace <| .plain "force" optBool <| .plain "timeout_secs" optI64 .done

def XrefsRequest : Ty :=
  .aliased "address" ["addrs", "addr", "addresses"] .value <| .aliased "limit" ["count"] optI64 <|
    .plain "offset" optI64 <| .plain "timeout_secs" optI64 .done

def GetBytesRequest : Ty :=
  .aliased "address" ["addrs", "addr", "addresses"] optValue <| .aliased "target_name" ["name", "symbol"] optStr <|
    .plain "offset" optI64 <| .aliased "size" ["count"] optI64 .done

def SetCommentsRequest : Ty :=
  placeFields <| .aliased "comment" ["text", "comment"] .str <|
    .aliased "repeatable" ["rptble", "repeatable"] optBool .done

def RenameRequest : Ty :=
  .aliased "address" ["ea", "addr", "addresses"] optValue <|
    .aliased "current_name" ["current", "old_name", "from"] optStr <| .aliased "name" ["new_name", "name"] .str <|
    .plain "flags" optI64 .done

def PatchRequest : Ty := placeFields <| .aliased "bytes" ["data", "bytes"] .value .done

def PatchAsmRequest : Ty := placeFields <| .aliased "line" ["asm", "instruction"] .str .done

def PaginatedRequest : Ty := .plain "offset" optI64 <| .aliased "limit" ["count"] optI64 .done

def LookupFuncsRequest : Ty := .aliased "queries" ["query", "queries", "names"] .value .done

/-- A page of a listing that is searched: `ListGlobalsRequest`, `AnalyzeStringsRequest`. -/
def queriedPage : Ty :=
  .aliased "query" ["filter"] optStr <| .plain "offset" optI64 <| .aliased "limit" ["count"] optI64 <|
    .plain "timeout_secs" optI64 .done

def ListGlobalsRequest : Ty := queriedPage

def AnalyzeStringsRequest : Ty := queriedPage

def FindBytesRequest : Ty :=
  .aliased "patterns" ["pattern", "patterns"] .value <| .aliased "limit" ["count"] optI64 <|
    .plain "offset" optI64 <| .plain "timeout_secs" optI64 <| .plain "_worker_max_results" optI64 .done

def SearchRequest : Ty :=
  .aliased "targets" ["query", "queries", "targets"] .value <| .aliased "kind" ["type"] optStr <|
    .aliased "limit" ["count"] optI64 <| .plain "offset" optI64 <| .plain "timeout_secs" optI64 <|
    .plain "_worker_max_results" optI64 .done

def FindInsnsRequest : Ty :=
  .aliased "patterns" ["pattern", "patterns", "query", "queries", "mnemonic", "mnemonics"] .value <|
    .aliased "limit" ["count"] optI64 <| .plain "case_insensitive" optBool <| .plain "timeout_secs" optI64 .done

def FindInsnOperandsRequest : Ty :=
  .aliased "patterns" ["pattern", "patterns", "query", "queries", "operands"] .value <|
    .aliased "limit" ["count"] optI64 <| .plain "case_insensitive" optBool <| .plain "timeout_secs" optI64 .done

def FindPathsRequest : Ty :=
  .plain "start" .value <| .plain "end" .value <| .plain "max_paths" optI64 <| .plain "max_depth" optI64 .done

def CallGraphRequest : Ty :=
  .aliased "roots" ["root", "roots", "addr", "address", "addrs"] .value <| .plain "max_depth" optI64 <|
    .plain "max_nodes" optI64 .done

def XrefMatrixRequest : Ty := .aliased "addrs" ["addr", "address", "addresses"] .value .done

def ExportFuncsRequest : Ty :=
  .aliased "addrs" ["addrs", "addr", "address", "functions"] optValue <| .plain "offset" optI64 <|
    .aliased "limit" ["count"] optI64 <| .plain "format" optStr .done

def GetStringRequest : Ty :=
  .aliased "address" ["addrs", "addr", "addresses"] .value <| .plain "max_len" optI64 .done

def GetGlobalValueRequest : Ty := .aliased "query" ["query", "queries", "names", "addrs"] .value .done

def PseudocodeAtRequest : Ty :=
  .aliased "address" ["addrs", "addr", "addresses"] .value <| .plain "end_address" optStr .done

end Backend

end IdaRs
