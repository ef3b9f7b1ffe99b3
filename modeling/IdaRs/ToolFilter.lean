import IdaRs.ToolRegistry
import IdaRs.Values
import Mathlib.Data.Finset.Card

/-!
# The tool filter and the surfaces that apply it (`src/server/tool_filter.rs`, `src/server/mod.rs` 2391-2552, 5771-5845)

`from_inputs` narrows the set of enabled tools. The wrapper of the server applies it to `tools/list`, `tools/call` and
`get_tool`; `tool_catalog` and `tool_help` apply it themselves. The tools of the router are the methods with `#[tool]`.
-/

namespace IdaRs

namespace ToolRegistry

open Serde (Json)

/-! ### The filter -/

/-- Tools removed when `--read-only` is set. -/
def readOnlyDenyList : List String :=
  ["run_script", "patch", "patch_asm", "rename", "set_comments", "lumina_apply", "declare_type", "apply_types",
    "infer_types", "declare_stack", "delete_stack", "dsc_add_dylib", "dsc_add_region", "analyze_funcs"]

inductive ToolFilterError
  | unknownToolset (raw : String)
  | unknownTool (raw : String)
  | emptyFinalSet
deriving DecidableEq, Repr

def ToolFilterError.toString : ToolFilterError → String
  | unknownToolset raw => "unknown toolset category: '" ++ raw ++ "' (run `tool_catalog` to list categories)"
  | unknownTool raw => "unknown tool name: '" ++ raw ++ "' (run `tool_catalog` to discover tools)"
  | emptyFinalSet => "tool filter resolves to an empty set; refusing to start a server with zero tools " ++
      "(review --toolsets / --tools / --exclude-tools / --read-only)"

structure ToolFilter where
  enabled : Finset String
  /-- Some input narrowed the set. -/
  isActive : Bool
deriving DecidableEq

def ToolFilter.isEnabled (f : ToolFilter) (name : String) : Bool := decide (name ∈ f.enabled)

def allTools : Finset String := (toolRegistry.map ToolInfo.name).toFinset

/-- The names of a category's tools. -/
def categoryTools (cat : ToolCategory) : Finset String := ((toolsByCategory cat).map ToolInfo.name).toFinset

def unrestricted : ToolFilter := ⟨allTools, false⟩

/-- Names are split at commas and trimmed; empty ones are ignored. -/
def clean (input : List String) : List String :=
  ((input.flatMap fun s => s.toList.splitOn ',').map fun s => String.ofList (trim s)).filter fun s => decide (s ≠ "")

/-- The loop over some names, each of which must be known. -/
def forEachKnown {γ : Type} (find : String → Option γ) (unknown : String → ToolFilterError)
    (act : Finset String → γ → Finset String) : List String → Finset String → Except ToolFilterError (Finset String)
  | [], enabled => .ok enabled
  | raw :: rest, enabled =>
    match find raw with
    | some x => forEachKnown find unknown act rest (act enabled x)
    | none => .error (unknown raw)

section

variable (lowercase : String → String)

def fromInputs (toolsets tools excludeTools : List String) (readOnly : Bool) : Except ToolFilterError ToolFilter := do
  let toolsets := clean toolsets
  let tools := clean tools
  let excludes := clean excludeTools
  let anyInput := !toolsets.isEmpty || !tools.isEmpty || !excludes.isEmpty || readOnly
  -- Step 1/2: build the include base.
  let enabled := if toolsets.isEmpty && tools.isEmpty then allTools else ∅
  let enabled ← forEachKnown (ToolCategory.fromStr lowercase) .unknownToolset
    (fun enabled cat => enabled ∪ categoryTools cat) toolsets enabled
  let enabled ← forEachKnown getTool .unknownTool (fun enabled tool => insert tool.name enabled) tools enabled
  -- Step 3: exclude-list wins.
  let enabled ← forEachKnown getTool .unknownTool (fun enabled tool => enabled.erase tool.name) excludes enabled
  -- Step 4: read-only deny-list
  let enabled := if readOnly then readOnlyDenyList.foldl Finset.erase enabled else enabled
  if enabled = ∅ then .error .emptyFinalSet else .ok ⟨enabled, anyInput⟩

/-! ### The wrapper of the server -/

/-- The methods with `#[tool]`. -/
def serverTools : List String :=
  ["open_idb", "load_debug_info", "analysis_status", "close_idb", "tool_catalog", "tool_help", "list_functions",
    "list_funcs", "resolve_function", "addr_info", "function_at", "disasm", "disasm_by_name", "disasm_function_at",
    "decompile", "pseudocode_at", "segments", "strings", "find_string", "xrefs_to_string", "xrefs_to", "xrefs_from",
    "imports", "exports", "entrypoints", "get_bytes", "basic_blocks", "callees", "callers", "idb_meta", "lookup_funcs",
    "list_globals", "analyze_strings", "find_bytes", "search", "get_u8", "get_u16", "get_u32", "get_u64", "get_string",
    "get_global_value", "find_paths", "callgraph", "xref_matrix", "export_funcs", "int_convert", "local_types",
    "xrefs_to_field", "lumina_lookup", "lumina_apply", "set_comments", "patch_asm", "declare_type", "stack_frame",
    "declare_stack", "delete_stack", "structs", "struct_info", "read_struct", "search_structs", "find_insns",
    "find_insn_operands", "apply_types", "infer_types", "analyze_funcs", "rename", "patch", "open_dsc", "dsc_add_dylib",
    "dsc_add_region", "task_status", "recent_operations", "run_script"]

def disabledToolMessage (name : String) : String :=
  "tool '" ++ name ++ "' is disabled by current filter (--toolsets/--tools/--exclude-tools/--read-only); " ++
    "call tool_catalog to see enabled tools"

/-- The names that `tools/list` shows. -/
def listTools (f : ToolFilter) : List String :=
  if f.isActive then serverTools.filter f.isEnabled else serverTools

inductive ToolCall
  | dispatched (name : String)
  | invalidParams (msg : String)
  /-- The router has no such tool. -/
  | notFound (name : String)
deriving DecidableEq, Repr

def callTool (f : ToolFilter) (name : String) : ToolCall :=
  if f.isActive && !f.isEnabled name then .invalidParams (disabledToolMessage name)
  else if name ∈ serverTools then .dispatched name
  else .notFound name

/-- The name of the tool that `get_tool` shows. -/
def shownTool (f : ToolFilter) (name : String) : Option String :=
  if f.isActive && !f.isEnabled name then none else if name ∈ serverTools then some name else none

/-! ### `tool_catalog` and `tool_help` -/

structure CatalogEntry where
  name : String
  description : String
  category : String
  matched : Option (List String)
deriving DecidableEq, Repr

structure CategoryEntry where
  category : String
  description : String
  toolCount : Nat
deriving DecidableEq, Repr

inductive CatalogAnswer
  | ofCategory (category description : String) (tools : List CatalogEntry) (hint : String) (filteringActive : Bool)
  | ofQuery (query : String) (tools : List CatalogEntry) (hint : String) (filteringActive : Bool)
  | ofCategories (categories : List CategoryEntry) (hint : String) (enabledToolCount : Option Nat)
deriving DecidableEq, Repr

/-- The names of tools in an answer. -/
def CatalogAnswer.toolNames : CatalogAnswer → List String
  | ofCategory _ _ tools _ _ => tools.map CatalogEntry.name
  | ofQuery _ tools _ _ => tools.map CatalogEntry.name
  | ofCategories _ _ _ => []

structure ToolCatalogRequest where
  query : Option String
  category : Option String
  limit : Option IntTy.i64.ty.Val

def helpHint : String := "Use tool_help(name) for full documentation and examples"

def toolCatalog (f : ToolFilter) (req : ToolCatalogRequest) : Except ToolError CatalogAnswer := do
  let limit := min ((← parseOptionalUnsigned IntTy.usize req.limit "limit").getD 7) 15
  match req.category.bind (ToolCategory.fromStr lowercase) with
  | some cat =>
    let tools := ((toolsByCategory cat).filter fun t => f.isEnabled t.name).take limit
    return .ofCategory cat.asStr cat.description
      (tools.map fun t => ⟨t.name, t.shortDesc, t.category.asStr, none⟩) helpHint f.isActive
  | none =>
    match req.query with
    | some query =>
      let results := searchTools lowercase query toolRegistry.length
      let tools := (results.filter fun r => f.isEnabled r.1.name).take limit
      return .ofQuery query (tools.map fun r => ⟨r.1.name, r.1.shortDesc, r.1.category.asStr, some r.2⟩) helpHint
        f.isActive
    | none =>
      let categories := ToolCategory.all.map fun c =>
        ⟨c.asStr, c.description, ((toolsByCategory c).filter fun t => f.isEnabled t.name).length⟩
      let hint :=
        if f.isActive then
          "Use tool_catalog(category='...') to list enabled tools in a category, or tool_catalog(query='...') to " ++
            "search enabled tools. tools/list includes only tools enabled by the current filter."
        else
          "Use tool_catalog(category='...') to list tools in a category, or tool_catalog(query='...') to search. " ++
            "tools/list already includes all tools."
      return .ofCategories categories hint (if f.isActive then some f.enabled.card else none)

inductive HelpAnswer
  | disabled (error hint : String)
  | found (name category description : String) (parameters : Json) (usage : String) (keywords : List String)
  | notFound (error : String) (suggestions : List String) (hint : String)

/-- The tools that an answer shows: the one asked for, or those suggested. -/
def HelpAnswer.toolNames : HelpAnswer → List String
  | disabled _ _ => []
  | found name _ _ _ _ _ => [name]
  | notFound _ suggestions _ => suggestions

/-- `paramsSchema` is `tool_params_schema`. -/
def toolHelp (paramsSchema : String → Json) (f : ToolFilter) (name : String) : HelpAnswer :=
  if f.isActive && (getTool name).isSome && !f.isEnabled name then
    .disabled ("tool '" ++ name ++ "' is disabled by current filter (--toolsets/--tools/--exclude-tools/--read-only)")
      "call tool_catalog to see enabled tools"
  else
    match getTool name with
    | some tool =>
      .found tool.name tool.category.asStr tool.fullDesc (paramsSchema name) tool.usage tool.keywords
    | none =>
      .notFound ("Tool '" ++ name ++ "' not found") ((searchTools lowercase name 3).map fun r => r.1.name)
        "Use tool_catalog to discover available tools"

end

/-! ### The enabled set -/

theorem getTool_name {raw : String} {tool : ToolInfo} (h : getTool raw = some tool) : tool.name = raw :=
  of_decide_eq_true (List.find?_some (p := fun t : ToolInfo => decide (t.name = raw)) h)

theorem isSome_find?_name (l : List ToolInfo) (raw : String) :
    (l.find? fun t => decide (t.name = raw)).isSome ↔ raw ∈ (l.map ToolInfo.name).toFinset := by
  simp

theorem getTool_isSome {raw : String} : (getTool raw).isSome ↔ raw ∈ allTools := isSome_find?_name toolRegistry raw

/-- The loop goes through if and only if all names are known. -/
theorem forEachKnown_eq_ok {γ : Type} {find : String → Option γ} {unknown : String → ToolFilterError}
    {act : Finset String → γ → Finset String} {l : List String} {e e' : Finset String} :
    forEachKnown find unknown act l e = .ok e' ↔
      (∀ raw ∈ l, (find raw).isSome) ∧ e' = (l.filterMap find).foldl act e := by
  induction l generalizing e with
  | nil =>
    rw [forEachKnown, Except.ok.injEq, List.filterMap_nil, List.foldl_nil, and_iff_right (List.forall_mem_nil _)]
    exact eq_comm
  | cons raw rest ih =>
    rw [forEachKnown]
    cases h : find raw with
    | none => simp [h]
    | some x => simp [h, ih]

theorem mem_foldl_union (l : List ToolCategory) (e : Finset String) (n : String) :
    n ∈ l.foldl (fun e cat => e ∪ categoryTools cat) e ↔ n ∈ e ∨ ∃ cat ∈ l, n ∈ categoryTools cat := by
  induction l generalizing e with
  | nil => simp
  | cons cat l ih => simp [ih, or_assoc]

theorem mem_foldl_insert (l : List ToolInfo) (e : Finset String) (n : String) :
    n ∈ l.foldl (fun e tool => insert tool.name e) e ↔ n ∈ e ∨ ∃ tool ∈ l, tool.name = n := by
  induction l generalizing e with
  | nil => simp
  | cons tool l ih =>
    simp only [List.foldl_cons, ih, Finset.mem_insert, List.exists_mem_cons_iff, eq_comm (a := n)]
    rw [or_comm (a := tool.name = n), or_assoc]

theorem mem_foldl_erase {γ : Type} (name : γ → String) (l : List γ) (e : Finset String) (n : String) :
    n ∈ l.foldl (fun e x => e.erase (name x)) e ↔ n ∈ e ∧ ∀ x ∈ l, name x ≠ n := by
  induction l generalizing e with
  | nil => simp
  | cons x l ih =>
    simp only [List.foldl_cons, ih, Finset.mem_erase, List.forall_mem_cons, ne_eq, eq_comm (a := n)]
    rw [and_comm (a := ¬ name x = n), and_assoc]

section

variable (lowercase : String → String)

/-- Every name of the cleaned inputs is known. -/
def Known (toolsets tools excludeTools : List String) : Prop :=
  (∀ raw ∈ clean toolsets, (ToolCategory.fromStr lowercase raw).isSome) ∧
    (∀ raw ∈ clean tools, raw ∈ allTools) ∧ ∀ raw ∈ clean excludeTools, raw ∈ allTools

/-- A category or a tool that is asked for, or any tool where nothing is. -/
def Included (toolsets tools : List String) (name : String) : Prop :=
  (clean toolsets = [] ∧ clean tools = [] ∧ name ∈ allTools) ∨
    (∃ raw ∈ clean toolsets, ∃ cat, ToolCategory.fromStr lowercase raw = some cat ∧ name ∈ categoryTools cat) ∨
    name ∈ clean tools

/-- The enabled set: what is included, less the exclusions and, for `--read-only`, the deny-list. -/
def Enabled (toolsets tools excludeTools : List String) (readOnly : Bool) (name : String) : Prop :=
  Included lowercase toolsets tools name ∧ name ∉ clean excludeTools ∧ (readOnly = true → name ∉ readOnlyDenyList)

variable {lowercase} {toolsets tools excludeTools : List String} {readOnly : Bool} {f : ToolFilter}

theorem mem_filterMap_getTool {l : List String} (hknown : ∀ raw ∈ l, raw ∈ allTools) (n : String) :
    (∃ tool ∈ l.filterMap getTool, tool.name = n) ↔ n ∈ l := by
  constructor
  · rintro ⟨tool, htool, rfl⟩
    obtain ⟨raw, hraw, hget⟩ := List.mem_filterMap.1 htool
    rwa [getTool_name hget]
  · intro hn
    obtain ⟨tool, hget⟩ := Option.isSome_iff_exists.1 (getTool_isSome.2 (hknown n hn))
    exact ⟨tool, List.mem_filterMap.2 ⟨n, hn, hget⟩, getTool_name hget⟩

variable (lowercase toolsets tools excludeTools readOnly) in
/-- The set that the steps of `from_inputs` leave. -/
def narrowed : Finset String :=
  let enabled := if (clean toolsets).isEmpty && (clean tools).isEmpty then allTools else ∅
  let enabled := ((clean toolsets).filterMap (ToolCategory.fromStr lowercase)).foldl
    (fun enabled cat => enabled ∪ categoryTools cat) enabled
  let enabled := ((clean tools).filterMap getTool).foldl (fun enabled tool => insert tool.name enabled) enabled
  let enabled := ((clean excludeTools).filterMap getTool).foldl (fun enabled tool => enabled.erase tool.name) enabled
  if readOnly then readOnlyDenyList.foldl Finset.erase enabled else enabled

theorem mem_narrowed (h : Known lowercase toolsets tools excludeTools) (name : String) :
    name ∈ narrowed lowercase toolsets tools excludeTools readOnly ↔
      Enabled lowercase toolsets tools excludeTools readOnly name := by
  obtain ⟨-, htools, hexcludes⟩ := h
  have hdeny : ∀ e : Finset String, name ∈ readOnlyDenyList.foldl Finset.erase e ↔
      name ∈ e ∧ name ∉ readOnlyDenyList := by
    intro e
    have hfold := mem_foldl_erase id readOnlyDenyList e name
    simp only [id_eq] at hfold
    rw [show readOnlyDenyList.foldl Finset.erase e = readOnlyDenyList.foldl (fun e x => e.erase x) e from rfl, hfold]
    refine and_congr_right fun _ => ⟨fun h hn => h name hn rfl, fun h x hx hxn => h (hxn ▸ hx)⟩
  have hexclude : (∀ tool ∈ (clean excludeTools).filterMap getTool, tool.name ≠ name) ↔ name ∉ clean excludeTools := by
    rw [← mem_filterMap_getTool hexcludes]
    push Not
    rfl
  have hcat : (∃ cat ∈ (clean toolsets).filterMap (ToolCategory.fromStr lowercase), name ∈ categoryTools cat) ↔
      ∃ raw ∈ clean toolsets, ∃ cat, ToolCategory.fromStr lowercase raw = some cat ∧ name ∈ categoryTools cat := by
    simp only [List.mem_filterMap]
    constructor
    · rintro ⟨cat, ⟨raw, hraw, hcat⟩, hname⟩
      exact ⟨raw, hraw, cat, hcat, hname⟩
    · rintro ⟨raw, hraw, cat, hcat, hname⟩
      exact ⟨cat, ⟨raw, hraw, hcat⟩, hname⟩
  have hbase : name ∈ (if (clean toolsets).isEmpty && (clean tools).isEmpty then allTools else ∅) ↔
      clean toolsets = [] ∧ clean tools = [] ∧ name ∈ allTools := by
    split
    · rename_i h
      simp only [Bool.and_eq_true, List.isEmpty_iff] at h
      simp only [h, true_and]
    · rename_i h
      simp only [Bool.and_eq_true, List.isEmpty_iff] at h
      refine iff_of_false (Finset.notMem_empty name) ?_
      rintro ⟨hts, htl, -⟩
      exact h ⟨hts, htl⟩
  have hincluded : name ∈ ((clean excludeTools).filterMap getTool).foldl (fun enabled tool => enabled.erase tool.name)
      (((clean tools).filterMap getTool).foldl (fun enabled tool => insert tool.name enabled)
        (((clean toolsets).filterMap (ToolCategory.fromStr lowercase)).foldl
          (fun enabled cat => enabled ∪ categoryTools cat)
          (if (clean toolsets).isEmpty && (clean tools).isEmpty then allTools else ∅))) ↔
      Included lowercase toolsets tools name ∧ name ∉ clean excludeTools := by
    rw [mem_foldl_erase ToolInfo.name, mem_foldl_insert, mem_foldl_union, hbase, hcat, mem_filterMap_getTool htools,
      hexclude, Included, or_assoc]
  simp only [narrowed, Enabled]
  cases readOnly with
  | false => simp only [Bool.false_eq_true, if_false, hincluded, false_implies, and_true]
  | true => simp only [if_true, hdeny, hincluded, and_assoc, true_implies]

theorem fromInputs_of_known (h : Known lowercase toolsets tools excludeTools) :
    fromInputs lowercase toolsets tools excludeTools readOnly =
      if narrowed lowercase toolsets tools excludeTools readOnly = ∅ then .error .emptyFinalSet
      else .ok ⟨narrowed lowercase toolsets tools excludeTools readOnly,
        !(clean toolsets).isEmpty || !(clean tools).isEmpty || !(clean excludeTools).isEmpty || readOnly⟩ := by
  obtain ⟨htoolsets, htools, hexcludes⟩ := h
  have h₁ (e) : forEachKnown (ToolCategory.fromStr lowercase) .unknownToolset
      (fun enabled cat => enabled ∪ categoryTools cat) (clean toolsets) e = .ok _ :=
    forEachKnown_eq_ok.2 ⟨htoolsets, rfl⟩
  have h₂ (e) : forEachKnown getTool .unknownTool (fun enabled tool => insert tool.name enabled) (clean tools) e =
      .ok _ :=
    forEachKnown_eq_ok.2 ⟨fun raw hraw => getTool_isSome.2 (htools raw hraw), rfl⟩
  have h₃ (e) : forEachKnown getTool .unknownTool (fun enabled tool => enabled.erase tool.name) (clean excludeTools) e =
      .ok _ :=
    forEachKnown_eq_ok.2 ⟨fun raw hraw => getTool_isSome.2 (hexcludes raw hraw), rfl⟩
  simp only [fromInputs, h₁, h₂, h₃, bind, Except.bind]
  rfl

theorem known_of_fromInputs (h : fromInputs lowercase toolsets tools excludeTools readOnly = .ok f) :
    Known lowercase toolsets tools excludeTools := by
  simp only [fromInputs, bind, Except.bind] at h
  split at h
  · cases h
  · rename_i e₁ h₁
    split at h
    · cases h
    · rename_i e₂ h₂
      split at h
      · cases h
      · rename_i e₃ h₃
        exact ⟨(forEachKnown_eq_ok.1 h₁).1, fun raw hraw => getTool_isSome.1 ((forEachKnown_eq_ok.1 h₂).1 raw hraw),
          fun raw hraw => getTool_isSome.1 ((forEachKnown_eq_ok.1 h₃).1 raw hraw)⟩

/-- The filter that `from_inputs` makes. -/
theorem fromInputs_spec (h : fromInputs lowercase toolsets tools excludeTools readOnly = .ok f) :
    f = ⟨narrowed lowercase toolsets tools excludeTools readOnly,
        !(clean toolsets).isEmpty || !(clean tools).isEmpty || !(clean excludeTools).isEmpty || readOnly⟩ ∧
      ∀ name, name ∈ f.enabled ↔ Enabled lowercase toolsets tools excludeTools readOnly name := by
  have hknown := known_of_fromInputs h
  rw [fromInputs_of_known hknown] at h
  split at h
  · cases h
  · cases h
    exact ⟨rfl, mem_narrowed hknown⟩

end

/-! ### Spellings of one input -/

/-- Two lists of inputs that differ in the order, in repetitions, in the grouping by commas or in spaces. -/
inductive Respelled : List String → List String → Prop
  | reorder {l l' : List String} : l.Perm l' → Respelled l l'
  | again {s : String} {l : List String} : s ∈ l → Respelled l (s :: l)
  | group (a b : String) (l : List String) : Respelled (a :: b :: l) ((a ++ "," ++ b) :: l)
  | space {a a' : String} (l : List String) :
    (a.toList.splitOn ',').map trim = (a'.toList.splitOn ',').map trim → Respelled (a :: l) (a' :: l)
  | symm {l l' : List String} : Respelled l l' → Respelled l' l
  | trans {l l' l'' : List String} : Respelled l l' → Respelled l' l'' → Respelled l l''

/-- The trimmed pieces of an input. -/
def pieces (s : String) : List (List Char) := (s.toList.splitOn ',').map trim

theorem mem_clean {l : List String} {x : String} :
    x ∈ clean l ↔ x ≠ "" ∧ ∃ s ∈ l, ∃ p ∈ pieces s, String.ofList p = x := by
  simp only [clean, pieces, List.mem_filter, List.mem_map, List.mem_flatMap, decide_eq_true_eq]
  constructor
  · rintro ⟨⟨p, ⟨s, hs, hp⟩, rfl⟩, hne⟩
    exact ⟨hne, s, hs, trim p, ⟨p, hp, rfl⟩, rfl⟩
  · rintro ⟨hne, s, hs, _, ⟨p, hp, rfl⟩, rfl⟩
    exact ⟨⟨p, ⟨s, hs, hp⟩, rfl⟩, hne⟩

theorem pieces_group (a b : String) : pieces (a ++ "," ++ b) = pieces a ++ pieces b := by
  have htext : (a ++ "," ++ b).toList = a.toList ++ ',' :: b.toList := by simp
  rw [pieces, pieces, pieces, htext, List.splitOn_append_cons_self, List.map_append]

/-- The cleaned names are the same. -/
theorem Respelled.mem_clean_iff {l l' : List String} (h : Respelled l l') (x : String) :
    x ∈ clean l ↔ x ∈ clean l' := by
  induction h with
  | reorder hperm => simp only [mem_clean, hperm.mem_iff]
  | again hs =>
    simp only [mem_clean, List.exists_mem_cons_iff]
    refine and_congr_right fun _ => ⟨.inr, ?_⟩
    rintro (hx | hx)
    · exact ⟨_, hs, hx⟩
    · exact hx
  | group a b l =>
    simp only [mem_clean, List.exists_mem_cons_iff, pieces_group, List.mem_append, or_and_right, exists_or, or_assoc]
  | @space a a' l hpieces =>
    have heq : pieces a = pieces a' := hpieces
    simp only [mem_clean, List.exists_mem_cons_iff, heq]
  | symm _ ih => exact ih.symm
  | trans _ _ ih ih' => exact ih.trans ih'

section

variable {lowercase : String → String} {toolsets tools excludeTools toolsets' tools' excludeTools' : List String}
  {readOnly : Bool} {f : ToolFilter}

theorem isEmpty_clean_congr {l l' : List String} (h : ∀ x, x ∈ clean l ↔ x ∈ clean l') :
    (clean l).isEmpty = (clean l').isEmpty := by
  rw [Bool.eq_iff_iff, List.isEmpty_iff, List.isEmpty_iff, List.eq_nil_iff_forall_not_mem,
    List.eq_nil_iff_forall_not_mem]
  exact forall_congr' fun x => not_congr (h x)

/-- Another spelling makes the same filter. -/
theorem fromInputs_respelled (h : fromInputs lowercase toolsets tools excludeTools readOnly = .ok f)
    (htoolsets : Respelled toolsets toolsets') (htools : Respelled tools tools')
    (hexcludes : Respelled excludeTools excludeTools') :
    fromInputs lowercase toolsets' tools' excludeTools' readOnly = .ok f := by
  have hts := htoolsets.mem_clean_iff
  have htl := htools.mem_clean_iff
  have hex := hexcludes.mem_clean_iff
  have hnil : ∀ {l l' : List String}, (∀ x, x ∈ clean l ↔ x ∈ clean l') → (clean l = [] ↔ clean l' = []) := by
    intro l l' hl
    rw [← List.isEmpty_iff, ← List.isEmpty_iff, isEmpty_clean_congr hl]
  have hknown : Known lowercase toolsets' tools' excludeTools' := by
    have hk := known_of_fromInputs h
    simpa only [Known, hts, htl, hex] using hk
  have henabled : ∀ name, Enabled lowercase toolsets' tools' excludeTools' readOnly name ↔
      Enabled lowercase toolsets tools excludeTools readOnly name := by
    intro name
    simp only [Enabled, Included, hts, htl, hex, hnil hts, hnil htl]
  have hset : narrowed lowercase toolsets' tools' excludeTools' readOnly =
      narrowed lowercase toolsets tools excludeTools readOnly := by
    ext name
    rw [mem_narrowed hknown, mem_narrowed (known_of_fromInputs h), henabled]
  have hok := h
  rw [fromInputs_of_known (known_of_fromInputs h), isEmpty_clean_congr hts, isEmpty_clean_congr htl,
    isEmpty_clean_congr hex] at hok
  rw [fromInputs_of_known hknown, hset, hok]

/-- A filter that is not active enables all tools. -/
theorem allTools_of_inactive (h : fromInputs lowercase toolsets tools excludeTools readOnly = .ok f)
    (hf : f.isActive = false) {name : String} (hname : name ∈ allTools) : name ∈ f.enabled := by
  obtain ⟨rfl, henabled⟩ := fromInputs_spec h
  simp only [Bool.or_eq_false_iff, Bool.not_eq_false', List.isEmpty_iff] at hf
  obtain ⟨⟨⟨hts, htl⟩, hex⟩, hro⟩ := hf
  rw [henabled, Enabled, hex, hro]
  exact ⟨.inl ⟨hts, htl, hname⟩, List.not_mem_nil, fun h => absurd h Bool.false_ne_true⟩

end

/-! ### The ranking of a search -/

theorem nodup_names : (toolRegistry.map ToolInfo.name).Nodup := by decide +kernel

theorem nodup_toolRegistry : toolRegistry.Nodup := nodup_names.of_map ToolInfo.name

theorem serverTools_registered : ∀ name ∈ serverTools, name ∈ allTools := by
  have h : ∀ name ∈ serverTools, name ∈ toolRegistry.map ToolInfo.name := by decide +kernel
  exact fun name hname => List.mem_toFinset.2 (h name hname)

section

variable (lowercase : String → String)

theorem foldl_tool {β : Type} {step : Match → β → Match} (h : ∀ m b, (step m b).tool = m.tool) (l : List β) (m : Match) :
    (l.foldl step m).tool = m.tool := by
  induction l generalizing m with
  | nil => rfl
  | cons b l ih => rw [List.foldl_cons, ih, h]

theorem matchTool_tool (words : List (List Char)) (t : ToolInfo) : (matchTool lowercase words t).tool = t := by
  simp only [matchTool]
  rw [foldl_tool, foldl_tool, foldl_tool, foldl_tool]
  · intro m word
    split <;> rfl
  · intro m word
    split <;> rfl
  · intro m keyword
    rw [foldl_tool]
    intro m word
    split <;> rfl
  · intro m word
    split <;> rfl

/-- The score of a tool for a query. -/
def score (query : String) (t : ToolInfo) : Nat := (matchTool lowercase (queryWords lowercase query) t).score

theorem filter_map_matchTool (query : String) (l : List ToolInfo) :
    (l.map (matchTool lowercase (queryWords lowercase query))).filter (fun m => decide (0 < m.score)) =
      (l.filter fun t => decide (0 < score lowercase query t)).map
        (matchTool lowercase (queryWords lowercase query)) := List.filter_map

theorem matchTool_injective (words : List (List Char)) : Function.Injective (matchTool lowercase words) := by
  intro t u h
  rw [← matchTool_tool lowercase words t, h, matchTool_tool]

/-- Tools without a score are ahead of none with one. -/
theorem ahead_results {query : String} {t : ToolInfo} (ht : 0 < score lowercase query t) (pre post : List ToolInfo) :
    Ranking.ahead Match.score
        ((pre.filter fun u => decide (0 < score lowercase query u)).map
          (matchTool lowercase (queryWords lowercase query)))
        (matchTool lowercase (queryWords lowercase query) t)
        ((post.filter fun u => decide (0 < score lowercase query u)).map
          (matchTool lowercase (queryWords lowercase query))) =
      Ranking.ahead (score lowercase query) pre t post := by
  have hle : ∀ u : ToolInfo, score lowercase query t ≤ score lowercase query u → 0 < score lowercase query u :=
    fun u hu => Nat.lt_of_lt_of_le ht hu
  simp only [Ranking.ahead, List.countP_map, List.countP_filter]
  refine congrArg₂ (· + ·) (List.countP_congr fun u _ => ?_) (List.countP_congr fun u _ => ?_)
  · simp only [Function.comp_apply, Bool.and_eq_true, decide_eq_true_eq]
    exact and_iff_left_of_imp (hle u)
  · simp only [Function.comp_apply, Bool.and_eq_true, decide_eq_true_eq]
    exact and_iff_left_of_imp fun hu => hle u (Nat.le_of_lt hu)

/-- A tool is among the first `n` results if and only if it matches and fewer tools are ahead of it. -/
theorem mem_searchTools_iff {pre post : List ToolInfo} {t : ToolInfo} (h : toolRegistry = pre ++ t :: post)
    (query : String) (n : Nat) :
    t ∈ (searchTools lowercase query n).map Prod.fst ↔
      0 < score lowercase query t ∧ Ranking.ahead (score lowercase query) pre t post < n := by
  let g := matchTool lowercase (queryWords lowercase query)
  let results := (toolRegistry.map g).filter fun m => decide (0 < m.score)
  have hresults : results = (toolRegistry.filter fun t => decide (0 < score lowercase query t)).map g :=
    filter_map_matchTool lowercase query toolRegistry
  have hmem : t ∈ (searchTools lowercase query n).map Prod.fst ↔ g t ∈ (Ranking.ranked Match.score results).take n := by
    simp only [searchTools, List.map_map, List.mem_map, Function.comp_apply]
    constructor
    · rintro ⟨m, hm, rfl⟩
      have hmr : m ∈ results := (Ranking.perm_ranked Match.score results).mem_iff.1 (List.mem_of_mem_take hm)
      rw [hresults] at hmr
      obtain ⟨u, -, rfl⟩ := List.mem_map.1 hmr
      rwa [matchTool_tool]
    · intro hm
      exact ⟨g t, hm, matchTool_tool lowercase _ t⟩
  rw [hmem]
  by_cases hpos : 0 < score lowercase query t
  · have hsplit : results = (pre.filter fun u => decide (0 < score lowercase query u)).map g ++
        g t :: (post.filter fun u => decide (0 < score lowercase query u)).map g := by
      have hcons := List.filter_cons_of_pos (p := fun u => decide (0 < score lowercase query u)) (l := post)
        (decide_eq_true hpos)
      rw [hresults, h, List.filter_append, hcons, List.map_append, List.map_cons]
    have hnodup : results.Nodup := by
      rw [hresults]
      exact (nodup_toolRegistry.filter _).map (matchTool_injective lowercase _)
    rw [hsplit] at hnodup ⊢
    rw [Ranking.mem_take_ranked_iff hnodup, ahead_results lowercase hpos, and_iff_right hpos]
  · refine iff_of_false ?_ fun h => hpos h.1
    intro hm
    have hmr : g t ∈ results := (Ranking.perm_ranked Match.score results).mem_iff.1 (List.mem_of_mem_take hm)
    exact hpos (of_decide_eq_true (List.mem_filter.1 hmr).2)

end

/-! ### The surfaces -/

section

variable {lowercase : String → String} {toolsets tools excludeTools : List String} {readOnly : Bool} {f : ToolFilter}

/-- What passes the check of the wrapper is enabled. -/
theorem enabled_of_passes (h : fromInputs lowercase toolsets tools excludeTools readOnly = .ok f) {name : String}
    (hserver : name ∈ serverTools) (hpass : ¬ (f.isActive && !f.isEnabled name) = true) : name ∈ f.enabled := by
  cases hactive : f.isActive with
  | false => exact allTools_of_inactive h hactive (serverTools_registered name hserver)
  | true => simpa [hactive, ToolFilter.isEnabled] using hpass

theorem enabled_of_listTools (h : fromInputs lowercase toolsets tools excludeTools readOnly = .ok f) {name : String}
    (hname : name ∈ listTools f) : name ∈ f.enabled := by
  rw [listTools] at hname
  split at hname
  · exact of_decide_eq_true (List.mem_filter.1 hname).2
  · rename_i hactive
    exact enabled_of_passes h hname (by simp [hactive])

theorem enabled_of_callTool (h : fromInputs lowercase toolsets tools excludeTools readOnly = .ok f)
    {name called : String}
    (hcall : callTool f name = .dispatched called) : called ∈ f.enabled := by
  rw [callTool] at hcall
  split at hcall
  · cases hcall
  · rename_i hpass
    split at hcall
    · rename_i hserver
      cases hcall
      exact enabled_of_passes h hserver hpass
    · cases hcall

/-- The tools that can be called are those that are shown. -/
theorem shownTool_eq_some {name shown : String} :
    shownTool f name = some shown ↔ callTool f name = .dispatched shown := by
  rw [shownTool, callTool]
  split
  · exact iff_of_false (by rintro ⟨⟩) (by rintro ⟨⟩)
  · split
    · rw [Option.some.injEq, ToolCall.dispatched.injEq]
    · exact iff_of_false (by rintro ⟨⟩) (by rintro ⟨⟩)

theorem enabled_of_shownTool (h : fromInputs lowercase toolsets tools excludeTools readOnly = .ok f)
    {name shown : String} (hshown : shownTool f name = some shown) : shown ∈ f.enabled :=
  enabled_of_callTool h (shownTool_eq_some.1 hshown)

/-- `tool_catalog` filters before it cuts off. -/
theorem enabled_of_toolCatalog {req : ToolCatalogRequest} {answer : CatalogAnswer}
    (h : toolCatalog lowercase f req = .ok answer) {name : String} (hname : name ∈ answer.toolNames) :
    name ∈ f.enabled := by
  simp only [toolCatalog, bind, Except.bind] at h
  split at h
  · cases h
  · split at h
    · cases h
      simp only [CatalogAnswer.toolNames, List.map_map, List.mem_map] at hname
      obtain ⟨t, ht, rfl⟩ := hname
      exact of_decide_eq_true (List.mem_filter.1 (List.mem_of_mem_take ht)).2
    · split at h
      · cases h
        simp only [CatalogAnswer.toolNames, List.map_map, List.mem_map] at hname
        obtain ⟨r, hr, rfl⟩ := hname
        exact of_decide_eq_true (List.mem_filter.1 (List.mem_of_mem_take hr)).2
      · cases h
        cases hname

/-- A search finds registered tools that match. -/
theorem of_mem_searchTools {query : String} {n : Nat} {r : ToolInfo × List String}
    (hr : r ∈ searchTools lowercase query n) : r.1 ∈ toolRegistry ∧ 0 < score lowercase query r.1 := by
  simp only [searchTools, List.mem_map] at hr
  obtain ⟨m, hm, rfl⟩ := hr
  have hmr := (Ranking.perm_ranked Match.score _).mem_iff.1 (List.mem_of_mem_take hm)
  rw [filter_map_matchTool] at hmr
  obtain ⟨t, ht, rfl⟩ := List.mem_map.1 hmr
  rw [matchTool_tool]
  exact ⟨(List.mem_filter.1 ht).1, of_decide_eq_true (List.mem_filter.1 ht).2⟩

theorem exists_mem_searchTools {query : String} {t : ToolInfo} (ht : t ∈ toolRegistry)
    (hscore : 0 < score lowercase query t) {n : Nat} (hn : n ≠ 0) : ∃ r, r ∈ searchTools lowercase query n := by
  refine List.exists_mem_of_ne_nil _ fun hnil => ?_
  simp only [searchTools, List.map_eq_nil_iff, List.take_eq_nil_iff, hn, false_or] at hnil
  have hperm := Ranking.perm_ranked Match.score
    ((toolRegistry.map (matchTool lowercase (queryWords lowercase query))).filter fun m => decide (0 < m.score))
  rw [hnil] at hperm
  have hmem := hperm.mem_iff.2 (List.mem_filter.2 ⟨List.mem_map_of_mem ht, decide_eq_true hscore⟩)
  cases hmem

variable (lowercase f) in
/-- Three tools are ahead of every disabled tool that a query matches. -/
def Outranked (query : String) : Prop :=
  ∀ pre t post, toolRegistry = pre ++ t :: post → t.name ∉ f.enabled → 0 < score lowercase query t →
    3 ≤ Ranking.ahead (score lowercase query) pre t post

theorem suggestions_enabled_iff (query : String) :
    (∀ r ∈ searchTools lowercase query 3, r.1.name ∈ f.enabled) ↔ Outranked lowercase f query := by
  constructor
  · intro h pre t post hsplit hdisabled hscore
    by_contra hahead
    have hmem := (mem_searchTools_iff lowercase hsplit query 3).2 ⟨hscore, Nat.not_le.1 hahead⟩
    obtain ⟨r, hr, rfl⟩ := List.mem_map.1 hmem
    exact hdisabled (h r hr)
  · intro h r hr
    by_contra hdisabled
    obtain ⟨pre, post, hsplit⟩ := List.append_of_mem (of_mem_searchTools hr).1
    obtain ⟨hscore, hahead⟩ := (mem_searchTools_iff lowercase hsplit query 3).1 (List.mem_map_of_mem hr)
    exact absurd (h pre r.1 post hsplit hdisabled hscore) (Nat.not_le.2 hahead)

/-- The tools shown for a name that is not registered. -/
theorem toolNames_toolHelp {name : String} (hget : getTool name = none) (paramsSchema : String → Json) :
    (toolHelp lowercase paramsSchema f name).toolNames = (searchTools lowercase name 3).map fun r => r.1.name := by
  have hpass : ¬ (f.isActive && (none : Option ToolInfo).isSome && !f.isEnabled name) = true := by simp
  rw [toolHelp, hget, if_neg hpass]
  rfl

/-- `tool_help` names enabled tools for a registered name, and otherwise if and only if it suggests no disabled tool. -/
theorem toolHelp_iff (h : fromInputs lowercase toolsets tools excludeTools readOnly = .ok f)
    (paramsSchema : String → Json) (name : String) :
    (∀ n ∈ (toolHelp lowercase paramsSchema f name).toolNames, n ∈ f.enabled) ↔
      name ∈ allTools ∨ Outranked lowercase f name := by
  cases hget : getTool name with
  | some tool =>
    have hname : name ∈ allTools := getTool_isSome.1 (by rw [hget, Option.isSome_some])
    refine iff_of_true ?_ (.inl hname)
    rw [toolHelp, hget]
    split
    · simp [HelpAnswer.toolNames]
    · rename_i hpass
      simp only [HelpAnswer.toolNames, List.mem_singleton, forall_eq, getTool_name hget]
      cases hactive : f.isActive with
      | false => exact allTools_of_inactive h hactive hname
      | true => simpa [hactive, ToolFilter.isEnabled] using hpass
  | none =>
    have hname : name ∉ allTools := fun hn => by
      rw [← getTool_isSome, hget] at hn
      cases hn
    rw [toolNames_toolHelp hget, List.forall_mem_map, suggestions_enabled_iff, or_iff_right hname]

/-- The enabled set is what the inputs say, in any spelling, and every surface keeps to it, `tool_help` if and only if the
name is registered or its three best matches leave out every disabled tool. -/
theorem filter_surfaces_agree_iff (lowercase : String → String) (paramsSchema : String → Json)
    (toolsets tools excludeTools : List String) (readOnly : Bool) (f : ToolFilter)
    (h : fromInputs lowercase toolsets tools excludeTools readOnly = .ok f) :
    (∀ name, name ∈ f.enabled ↔ Enabled lowercase toolsets tools excludeTools readOnly name) ∧
      (∀ toolsets' tools' excludeTools', Respelled toolsets toolsets' → Respelled tools tools' →
        Respelled excludeTools excludeTools' → fromInputs lowercase toolsets' tools' excludeTools' readOnly = .ok f) ∧
      (∀ name called, callTool f name = .dispatched called → called ∈ f.enabled) ∧
      (∀ name ∈ listTools f, name ∈ f.enabled) ∧
      (∀ name shown, shownTool f name = some shown → shown ∈ f.enabled) ∧
      (∀ req answer, toolCatalog lowercase f req = .ok answer → ∀ name ∈ answer.toolNames, name ∈ f.enabled) ∧
      ∀ name, (∀ n ∈ (toolHelp lowercase paramsSchema f name).toolNames, n ∈ f.enabled) ↔
        name ∈ allTools ∨ Outranked lowercase f name := by
  refine ⟨(fromInputs_spec h).2, ?_, ?_, ?_, ?_, ?_, toolHelp_iff h paramsSchema⟩
  · intro toolsets' tools' excludeTools' hts htl hex
    exact fromInputs_respelled h hts htl hex
  · intro name called hcall
    exact enabled_of_callTool h hcall
  · intro name hname
    exact enabled_of_listTools h hname
  · intro name shown hshown
    exact enabled_of_shownTool h hshown
  · intro req answer hanswer name hname
    exact enabled_of_toolCatalog hanswer hname

end

/-! Only `open_idb` is enabled. -/

def asciiLower (s : String) : String := String.ofList (toAsciiLowercase s)

def onlyOpenIdb : ToolFilter := ⟨{"open_idb"}, true⟩

def noSchema (_name : String) : Json := .null

theorem fromInputs_onlyOpenIdb : fromInputs asciiLower [] ["open_idb"] [] false = .ok onlyOpenIdb := by
  decide +kernel

theorem filter_surfaces_agree_iff_onlyOpenIdb :
    (∀ name ∈ listTools onlyOpenIdb, name ∈ onlyOpenIdb.enabled) ∧
      fromInputs asciiLower [] ["open_idb", "open_idb"] [] false = .ok onlyOpenIdb := by
  have h := filter_surfaces_agree_iff asciiLower noSchema [] ["open_idb"] [] false onlyOpenIdb fromInputs_onlyOpenIdb
  have hagain : Respelled ["open_idb"] ["open_idb", "open_idb"] := .again (List.mem_singleton_self _)
  exact ⟨h.2.2.2.1, h.2.1 [] _ [] (.reorder (.refl _)) hagain (.reorder (.refl _))⟩

/-- Asked for `dyld`, `tool_help` suggests tools that are disabled. -/
theorem disabled_suggestion :
    fromInputs asciiLower [] ["open_idb"] [] false = .ok onlyOpenIdb ∧
      ¬ ∀ n ∈ (toolHelp asciiLower noSchema onlyOpenIdb "dyld").toolNames, n ∈ onlyOpenIdb.enabled := by
  refine ⟨fromInputs_onlyOpenIdb, fun h => ?_⟩
  have hunknown : getTool "dyld" = none := by decide +kernel
  have hmatch : ∃ t ∈ toolRegistry, t.name = "open_dsc" ∧ 0 < score asciiLower "dyld" t := by decide +kernel
  have hquiet : ∀ t ∈ toolRegistry, t.name = "open_idb" → score asciiLower "dyld" t = 0 := by decide +kernel
  obtain ⟨t, ht, -, hscore⟩ := hmatch
  obtain ⟨r, hr⟩ := exists_mem_searchTools ht hscore (n := 3) (by decide)
  obtain ⟨hregistered, hpos⟩ := of_mem_searchTools hr
  rw [toolNames_toolHelp hunknown] at h
  have hname : r.1.name = "open_idb" := Finset.mem_singleton.1 (List.forall_mem_map.1 h r hr)
  rw [hquiet r.1 hregistered hname] at hpos
  exact absurd hpos (Nat.lt_irrefl 0)

end ToolRegistry

end IdaRs
