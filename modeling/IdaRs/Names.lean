import IdaRs.Disasm
import IdaRs.Lib.Serde

/-!
# Functions by name (`src/ida/handlers/mod.rs` 55-97, `functions.rs` 65-133, `disasm.rs` 9-26, `annotations.rs`,
`memory.rs` 35-84, `types.rs` 145-290)

A name stands for the first function that has it or contains it, so an exact name wins only where nothing that contains
it comes first. A handler that changes the database is modelled with the calls into idalib it makes; `Ida` is what
these answer.
-/

namespace IdaRs

namespace Handlers

open Serde (Json)

/-! ### Scans of the tables -/

/-- `name == query || name.contains(query)`. -/
def nameHits (query name : String) : Bool := decide (name = query) || containsText name.toList query

/-- The same for a function, which may have no name. -/
def functionHits (query : String) (f : Function) : Bool :=
  match f.name with
  | some name => nameHits query name
  | none => false

def resolveAddressByName (idb : Option Idb) (name : String) : Except ToolError Address := do
  let db ← opened idb
  match db.functions.find? (functionHits name) with
  | some f => return f.start
  | none =>
    match db.names.find? fun n => nameHits name n.name with
    | some n => return n.address
    | none => .error (.functionNameNotFound name)

/-- An explicit address, or a name, and a signed offset from it. -/
def resolveAddress (idb : Option Idb) (addr : Option Address) (name : Option String) (offset : Int) :
    Except ToolError Address := do
  let base ←
    match addr, name with
    | some addr, _ => .ok addr
    | none, some name => resolveAddressByName idb name
    | none, none => .error (.invalidParams "expected address or name")
  let sum : Int := base.toNat + offset
  if 0 ≤ sum ∧ sum ≤ u64Max then return UInt64.ofNat sum.toNat
  else
    .error (.invalidParams
      ("offset " ++ toString offset ++ " produces an out-of-range address from base " ++ fmtAddr base))

def handleResolveFunction (idb : Option Idb) (name : String) : Except ToolError FunctionInfo := do
  let db ← opened idb
  match db.functions.find? (functionHits name) with
  | some f => return ⟨fmtAddr f.start, f.display, f.len⟩
  | none => .error (.functionNameNotFound name)

def handleDisasmByName (idb : Option Idb) (name : String) (count : Nat) : Exec (List Char) := do
  let db ← liftTool (opened idb)
  match db.functions.find? (functionHits name) with
  | some f => handleDisasm idb f.start count
  | none => .error (.tool (.functionNameNotFound name))

/-- An entry of the answer of `lookup_funcs`; without a function the text is `Function not found`. -/
structure LookupEntry where
  query : String
  result : Option FunctionInfo
deriving DecidableEq, Repr

def lookupFunc (db : Idb) (query : String) : LookupEntry :=
  match parseAddressStr query with
  | .ok addr => ⟨query, (db.functionAt addr).map Function.info⟩
  | .error _ => ⟨query, (db.functions.map Function.info).find? fun f => nameHits query f.name⟩

def handleLookupFuncs (idb : Option Idb) (queries : List String) : Except ToolError (List LookupEntry) := do
  let db ← opened idb
  return queries.map (lookupFunc db)

/-! ### Changes of the database -/

/-- The calls into idalib that read or change something at an address. -/
inductive Edit
  | setCmt (addr : Address) (comment : String)
  | setCmtWith (addr : Address) (comment : String) (repeatable : Bool)
  | setName (addr : Address) (name : String)
  | setNameWithFlags (addr : Address) (name : String) (flags : Int)
  | patchBytes (addr : Address) (bytes : List UInt8)
  | assembleLine (addr : Address) (line : String)
  | setStackVarType (func : Address) (name : Option String) (offset : Int) (useOffset : Bool) (decl : String)
      (relaxed strict : Bool)
  | applyDeclType (addr : Address) (decl : String) (relaxed delay strict : Bool)
  | applyNamedType (addr : Address) (typeName : String)
  | guessType (addr : Address)
  | defineStackVar (func : Address) (name : Option String) (offset : Int) (decl : String) (relaxed : Bool)
  | deleteStackVar (func : Address) (name : Option String) (offset : Int) (useOffset : Bool)
deriving DecidableEq, Repr

structure StackVar where
  code : Int
  name : String
  offset : Int

structure GuessedType where
  code : Int
  decl : String
  kind : String

/-- What idalib answers. -/
structure Ida where
  done : Edit → Except ToolError Unit
  assembled : Edit → Except String (List UInt8)
  stackVar : Edit → StackVar
  applied : Edit → Bool
  guessed : Edit → GuessedType

/-- The calls that a handler makes, and its result. -/
structure Acted (α : Type) where
  edits : List Edit
  result : Except ToolError α

/-- What a handler does at the address it resolved. -/
def atAddress {α : Type} (resolved : Except ToolError Address) (act : Address → Acted α) : Acted α :=
  match resolved with
  | .ok addr => act addr
  | .error e => ⟨[], .error e⟩

/-- `idb.as_ref().ok_or(..)?` and then `resolve_address`. -/
def openedAddress (idb : Option Idb) (addr : Option Address) (name : Option String) (offset : Int) :
    Except ToolError Address := do
  let _ ← opened idb
  resolveAddress idb addr name offset

variable (ida : Ida)

def handleSetComments (idb : Option Idb) (addr : Option Address) (name : Option String) (offset : Int)
    (comment : String) (repeatable : Bool) : Acted Json :=
  atAddress (openedAddress idb addr name offset) fun addr =>
    let edit := if repeatable then Edit.setCmtWith addr comment true else .setCmt addr comment
    ⟨[edit], (ida.done edit).map fun _ =>
      .obj [("address", .str (fmtAddr addr)), ("repeatable", .bool repeatable), ("comment", .str comment)]⟩

def handleRename (idb : Option Idb) (addr : Option Address) (currentName : Option String) (name : String)
    (flags : Int) : Acted Json :=
  atAddress (openedAddress idb addr currentName 0) fun addr =>
    let edit := if flags = 0 then Edit.setName addr name else .setNameWithFlags addr name flags
    ⟨[edit], (ida.done edit).map fun _ =>
      .obj [("address", .str (fmtAddr addr)), ("name", .str name), ("flags", .int flags)]⟩

def handlePatchBytes (idb : Option Idb) (addr : Option Address) (name : Option String) (offset : Int)
    (bytes : List UInt8) : Acted Json :=
  atAddress (openedAddress idb addr name offset) fun addr =>
    let edit := Edit.patchBytes addr bytes
    ⟨[edit], (ida.done edit).map fun _ => .obj [("address", .str (fmtAddr addr)), ("length", .int bytes.length)]⟩

/-- `{:02x}`. -/
def hexByte (b : UInt8) : List Char := [(b.toNat / 16).digitChar, (b.toNat % 16).digitChar]

def handlePatchAsm (idb : Option Idb) (addr : Option Address) (name : Option String) (offset : Int) (line : String) :
    Acted Json :=
  atAddress (openedAddress idb addr name offset) fun addr =>
    match ida.assembled (.assembleLine addr line) with
    | .error e => ⟨[.assembleLine addr line], .error (.idaError e)⟩
    | .ok bytes =>
      ⟨[.assembleLine addr line, .patchBytes addr bytes], (ida.done (.patchBytes addr bytes)).map fun _ =>
        .obj [("address", .str (fmtAddr addr)), ("line", .str line), ("length", .int bytes.length),
          ("bytes", .str (String.ofList ([' '].intercalate (bytes.map hexByte))))]⟩

/-- `StackVarResult`. -/
def stackVarResult (func : Address) (v : StackVar) : Json :=
  .obj [("function", .str (fmtAddr func)), ("name", .str v.name), ("offset", .int v.offset),
    ("code", .int v.code), ("status", .str (if v.code = 0 then "ok" else "error"))]

def handleApplyTypes (idb : Option Idb) (addr : Option Address) (name : Option String) (offset : Int)
    (stackOffset : Option Int) (stackName decl typeName : Option String) (relaxed delay strict : Bool) : Acted Json :=
  if stackOffset.isSome || stackName.isSome then
    atAddress (openedAddress idb addr name offset) fun func =>
      match decl with
      | none => ⟨[], .error (.invalidParams "apply_types for stack var requires decl")⟩
      | some decl =>
        let edit := Edit.setStackVarType func stackName (stackOffset.getD 0) stackOffset.isSome decl relaxed strict
        ⟨[edit], .ok (stackVarResult func (ida.stackVar edit))⟩
  else
    atAddress (openedAddress idb addr name offset) fun addr =>
      match decl, typeName with
      | some decl, _ =>
        let edit := Edit.applyDeclType addr decl relaxed delay strict
        ⟨[edit], .ok (.obj [("address", .str (fmtAddr addr)), ("applied", .bool (ida.applied edit)),
          ("source", .str "decl")])⟩
      | none, some typeName =>
        let edit := Edit.applyNamedType addr typeName
        ⟨[edit], .ok (.obj [("address", .str (fmtAddr addr)), ("applied", .bool (ida.applied edit)),
          ("source", .str "named")])⟩
      | none, none => ⟨[], .error (.invalidParams "apply_types requires decl or type_name")⟩

def guessStatus (code : Int) : String :=
  if code = 0 then "failed" else if code = 1 then "trivial" else if code = 2 then "ok" else "unknown"

def handleInferTypes (idb : Option Idb) (addr : Option Address) (name : Option String) (offset : Int) : Acted Json :=
  atAddress (openedAddress idb addr name offset) fun addr =>
    let guessed := ida.guessed (.guessType addr)
    ⟨[.guessType addr], .ok (.obj [("address", .str (fmtAddr addr)), ("code", .int guessed.code),
      ("status", .str (guessStatus guessed.code)), ("decl", .str guessed.decl), ("kind", .str guessed.kind)])⟩

def handleDeclareStack (idb : Option Idb) (addr : Option Address) (name : Option String) (offset : Int)
    (varName : Option String) (decl : String) (relaxed : Bool) : Acted Json :=
  atAddress (openedAddress idb addr name 0) fun func =>
    let edit := Edit.defineStackVar func varName offset decl relaxed
    ⟨[edit], .ok (stackVarResult func (ida.stackVar edit))⟩

def handleDeleteStack (idb : Option Idb) (addr : Option Address) (name : Option String) (offset : Option Int)
    (varName : Option String) : Acted Json :=
  match opened idb with
  | .error e => ⟨[], .error e⟩
  | .ok _ =>
    if offset.isNone && varName.isNone then ⟨[], .error (.invalidParams "delete_stack requires offset or name")⟩
    else
      atAddress (resolveAddress idb addr name 0) fun func =>
        let edit := Edit.deleteStackVar func varName (offset.getD 0) offset.isSome
        ⟨[edit], .ok (stackVarResult func (ida.stackVar edit))⟩

/-- The handlers that change or read something at an address or a name, with their other arguments. -/
inductive Operation
  | setComments (offset : Int) (comment : String) (repeatable : Bool)
  | rename (name : String) (flags : Int)
  | patchBytes (offset : Int) (bytes : List UInt8)
  | patchAsm (offset : Int) (line : String)
  | applyTypes (offset : Int) (stackOffset : Option Int) (stackName decl typeName : Option String)
      (relaxed delay strict : Bool)
  | inferTypes (offset : Int)
  | declareStack (offset : Int) (varName : Option String) (decl : String) (relaxed : Bool)
  | deleteStack (offset : Option Int) (varName : Option String)

def Operation.run (idb : Option Idb) (addr : Option Address) (name : Option String) : Operation → Acted Json
  | setComments offset comment repeatable => handleSetComments ida idb addr name offset comment repeatable
  | rename newName flags => handleRename ida idb addr name newName flags
  | patchBytes offset bytes => handlePatchBytes ida idb addr name offset bytes
  | patchAsm offset line => handlePatchAsm ida idb addr name offset line
  | applyTypes offset stackOffset stackName decl typeName relaxed delay strict =>
    handleApplyTypes ida idb addr name offset stackOffset stackName decl typeName relaxed delay strict
  | inferTypes offset => handleInferTypes ida idb addr name offset
  | declareStack offset varName decl relaxed => handleDeclareStack ida idb addr name offset varName decl relaxed
  | deleteStack offset varName => handleDeleteStack ida idb addr name offset varName

/-! ### Exact names -/

/-- The first name equal to `q` comes before every other that contains it. -/
def ExactFirst (names : List (Option String)) (q : String) : Prop :=
  ∃ before after, names = before ++ some q :: after ∧
    ∀ n, some n ∈ before → containsText n.toList q = false

theorem nameHits_self (q : String) : nameHits q q = true := by
  rw [nameHits, decide_eq_true rfl, Bool.true_or]

theorem nameHits_eq_false {q n : String} : nameHits q n = false ↔ containsText n.toList q = false := by
  rw [nameHits, Bool.or_eq_false_iff, and_iff_right_iff_imp, decide_eq_false_iff_not]
  rintro h rfl
  rw [containsText, decide_eq_false_iff_not] at h
  exact h List.infix_rfl

/-- A scan for the first hit finds an exact name if and only if the exact name comes first. -/
theorem find?_exact_iff {α : Type} (name : α → Option String) {q : String} {hits : α → Bool}
    (hhits : ∀ x, hits x = false ↔ ∀ n, name x = some n → containsText n.toList q = false)
    (hself : ∀ x, name x = some q → hits x = true) (l : List α) :
    (∃ x, l.find? hits = some x ∧ name x = some q) ↔ ExactFirst (l.map name) q := by
  constructor
  · rintro ⟨x, hfind, hx⟩
    obtain ⟨-, before, after, rfl, hbefore⟩ := List.find?_eq_some_iff_append.1 hfind
    refine ⟨before.map name, after.map name, by rw [List.map_append, List.map_cons, hx], ?_⟩
    intro n hn
    obtain ⟨y, hy, hyn⟩ := List.mem_map.1 hn
    have hmiss : hits y = false := by simpa using hbefore y hy
    exact (hhits y).1 hmiss n hyn
  · rintro ⟨before, after, hl, hbefore⟩
    obtain ⟨before, rest, rfl, rfl, hrest⟩ := List.map_eq_append_iff.1 hl
    obtain ⟨x, after, rfl, hx, -⟩ := List.map_eq_cons_iff.1 hrest
    refine ⟨x, List.find?_eq_some_iff_append.2 ⟨hself x hx, before, after, rfl, ?_⟩, hx⟩
    intro y hy
    have hmiss : hits y = false := (hhits y).2 fun n hn => hbefore n (hn ▸ List.mem_map_of_mem hy)
    simp [hmiss]

theorem find?_functionHits_iff (db : Idb) (q : String) :
    (∃ f, db.functions.find? (functionHits q) = some f ∧ f.name = some q) ↔
      ExactFirst (db.functions.map Function.name) q := by
  refine find?_exact_iff Function.name ?_ ?_ db.functions
  · intro f
    cases hname : f.name with
    | none => simp [functionHits, hname]
    | some n => simp [functionHits, hname, nameHits_eq_false]
  · intro f hf
    rw [functionHits, hf]
    exact nameHits_self q

theorem find?_display_iff (db : Idb) (q : String) :
    (∃ i, (db.functions.map Function.info).find? (fun f => nameHits q f.name) = some i ∧ some i.name = some q) ↔
      ExactFirst (db.functions.map fun f => some f.display) q := by
  have hmap : (db.functions.map Function.info).map (fun i => some i.name) =
      db.functions.map fun f => some f.display := List.map_map
  rw [← hmap]
  refine find?_exact_iff (fun i : FunctionInfo => some i.name) ?_ ?_ _
  · intro i
    simp [nameHits_eq_false]
  · intro i hi
    cases hi
    exact nameHits_self _

/-- What is resolved is a function named `q`. -/
def Named (db : Idb) (q : String) (resolved : Function → Prop) : Prop :=
  ∃ f ∈ db.functions, f.name = some q ∧ resolved f

theorem functions_start_injective (db : Idb) {f g : Function} (hf : f ∈ db.functions) (hg : g ∈ db.functions)
    (h : f.start = g.start) : f = g :=
  List.inj_on_of_nodup_map db.functions_distinct hf hg h

/-- A handler that resolves `q` to what the scan finds, and to nothing that starts elsewhere. -/
theorem named_iff {db : Idb} {q : String} {g : Function} (hg : db.functions.find? (functionHits q) = some g)
    {resolved : Function → Prop} (hresolved : resolved g) (honly : ∀ f, resolved f → f.start = g.start) :
    Named db q resolved ↔ ExactFirst (db.functions.map Function.name) q := by
  have hmem : g ∈ db.functions := List.mem_of_find?_eq_some hg
  rw [← find?_functionHits_iff]
  constructor
  · rintro ⟨f, hf, hname, hres⟩
    have hfg : f = g := functions_start_injective db hf hmem (honly f hres)
    exact ⟨g, hg, hfg ▸ hname⟩
  · rintro ⟨f, hfind, hname⟩
    have hfg : f = g := Option.some.inj (hfind.symm.trans hg)
    exact ⟨g, hmem, hfg ▸ hname, hresolved⟩

theorem find?_of_named {db : Idb} {q : String} (h : ∃ f ∈ db.functions, f.name = some q) :
    ∃ g, db.functions.find? (functionHits q) = some g := by
  obtain ⟨f, hf, hname⟩ := h
  refine Option.isSome_iff_exists.1 (List.find?_isSome.2 ⟨f, hf, ?_⟩)
  rw [functionHits, hname]
  exact nameHits_self q

theorem resolveAddressByName_eq {db : Idb} {q : String} {g : Function}
    (hg : db.functions.find? (functionHits q) = some g) : resolveAddressByName (some db) q = .ok g.start := by
  simp only [resolveAddressByName, opened, bind, Except.bind, hg]
  rfl

/-- A name that resolves may be replaced by its address. -/
theorem openedAddress_eq {db : Idb} {q : String} {a : Address} (h : resolveAddressByName (some db) q = .ok a)
    (offset : Int) : openedAddress (some db) none (some q) offset = openedAddress (some db) (some a) none offset := by
  simp only [openedAddress, resolveAddress, h]

theorem Operation.run_eq {db : Idb} {q : String} {a : Address} (h : resolveAddressByName (some db) q = .ok a)
    (op : Operation) : op.run ida (some db) none (some q) = op.run ida (some db) (some a) none := by
  cases op with
  | deleteStack offset varName => simp only [run, handleDeleteStack, resolveAddress, h]
  | _ =>
    simp only [run, handleSetComments, handleRename, handlePatchBytes, handlePatchAsm, handleApplyTypes,
      handleInferTypes, handleDeclareStack, openedAddress_eq h]

/-- `rename` calls idalib for the address it was given. -/
theorem rename_edits (db : Idb) (a : Address) :
    ((Operation.rename "" 0).run ida (some db) (some a) none).edits = [.setName a ""] := by
  have hfit : (0 : Int) ≤ (a.toNat : Int) + 0 ∧ (a.toNat : Int) + 0 ≤ u64Max := by
    have hlt := a.toNat_lt
    simp only [u64Max]
    omega
  have haddr : openedAddress (some db) (some a) none 0 = .ok a := by
    simp only [openedAddress, resolveAddress, opened, bind, Except.bind, if_pos hfit]
    simp [pure, Except.pure]
  simp only [Operation.run, handleRename, haddr, atAddress, if_true]

theorem lookup_iff (db : Idb) {q : String} (hparse : ∀ a, parseAddressStr q ≠ .ok a) :
    (∃ f ∈ db.functions, f.display = q ∧
      ∀ queries answers, handleLookupFuncs (some db) queries = .ok answers →
        ∀ entry ∈ answers, entry.query = q → entry.result = some f.info) ↔
      ExactFirst (db.functions.map fun f => some f.display) q := by
  have hentry : lookupFunc db q = ⟨q, (db.functions.map Function.info).find? fun f => nameHits q f.name⟩ := by
    rw [lookupFunc]
    cases h : parseAddressStr q with
    | ok a => exact absurd h (hparse a)
    | error e => rfl
  have hall : ∀ queries, handleLookupFuncs (some db) queries = .ok (queries.map (lookupFunc db)) := fun _ => rfl
  rw [← find?_display_iff]
  constructor
  · rintro ⟨f, -, hname, hres⟩
    refine ⟨f.info, ?_, congrArg some hname⟩
    have h := hres [q] _ (hall [q]) (lookupFunc db q) (List.mem_singleton_self _)
    rw [hentry] at h
    exact h rfl
  · rintro ⟨i, hfind, hname⟩
    obtain ⟨f, hf, rfl⟩ := List.mem_map.1 (List.mem_of_find?_eq_some hfind)
    refine ⟨f, hf, Option.some.inj hname, ?_⟩
    intro queries answers h entry hmem hquery
    cases (hall queries).symm.trans h
    obtain ⟨query, -, rfl⟩ := List.mem_map.1 hmem
    have hqq : query = q := by
      rw [lookupFunc] at hquery
      cases hp : parseAddressStr query with
      | ok a => rw [hp] at hquery; exact hquery
      | error e => rw [hp] at hquery; exact hquery
    rw [hqq, hentry]
    exact hfind

/-- A name that some function has is resolved to a function of that name by each handler if and only if no other name
that contains it comes first; `lookup_funcs` compares the displayed names. -/
theorem exact_names_win_iff (db : Idb) (q : String) (hq : ∃ f ∈ db.functions, f.name = some q) :
    (Named db q (fun f => resolveAddressByName (some db) q = .ok f.start) ↔
        ExactFirst (db.functions.map Function.name) q) ∧
      (Named db q (fun f => handleResolveFunction (some db) q = .ok f.info) ↔
        ExactFirst (db.functions.map Function.name) q) ∧
      (Named db q (fun f => ∀ count, handleDisasmByName (some db) q count = handleDisasm (some db) f.start count) ↔
        ExactFirst (db.functions.map Function.name) q) ∧
      (Named db q (fun f => ∀ op : Operation,
          op.run ida (some db) none (some q) = op.run ida (some db) (some f.start) none) ↔
        ExactFirst (db.functions.map Function.name) q) ∧
      ((∀ a, parseAddressStr q ≠ .ok a) →
        ((∃ f ∈ db.functions, f.display = q ∧
          ∀ queries answers, handleLookupFuncs (some db) queries = .ok answers →
            ∀ entry ∈ answers, entry.query = q → entry.result = some f.info) ↔
          ExactFirst (db.functions.map fun f => some f.display) q)) := by
  obtain ⟨g, hg⟩ := find?_of_named hq
  have hresolve := resolveAddressByName_eq hg
  refine ⟨named_iff hg hresolve ?_, named_iff hg ?_ ?_, named_iff hg ?_ ?_, named_iff hg ?_ ?_, lookup_iff db⟩
  · intro f hf
    exact Except.ok.inj (hf.symm.trans hresolve)
  · simp only [handleResolveFunction, opened, bind, Except.bind, hg]
    rfl
  · intro f hf
    simp only [handleResolveFunction, opened, bind, Except.bind, hg] at hf
    exact fmtAddr_injective (congrArg FunctionInfo.address (Except.ok.inj hf)).symm
  · intro count
    simp only [handleDisasmByName, liftTool, opened, Except.mapError, bind, Except.bind, hg]
  · intro f hf
    have h := hf 0
    simp only [handleDisasmByName, liftTool, opened, Except.mapError, bind, Except.bind, hg] at h
    -- without lines the error names the address
    injection h with h
    injection h with h
    injection h with h
    exact UInt64.toNat_inj.1 h.symm
  · exact Operation.run_eq ida hresolve
  · intro f hf
    have h := congrArg Acted.edits (hf (.rename "" 0))
    rw [Operation.run_eq ida hresolve, rename_edits, rename_edits] at h
    injection h with h
    injection h with h
    exact h.symm

/-! Two functions, one name contained in the other. -/

def quietIda : Ida := ⟨fun _ => .ok (), fun _ => .ok [], fun _ => ⟨0, "", 0⟩, fun _ => true, fun _ => ⟨0, "", ""⟩⟩

def fooFirst : Idb :=
  { Idb.empty with
    functions := [⟨0x1000, 0x1010, some "foo", 16⟩, ⟨0x2000, 0x2010, some "foobar", 16⟩]
    functions_distinct := by decide
    functions_fit := show 2 * 128 ≤ isizeMax by decide }

def foobarFirst : Idb :=
  { Idb.empty with
    functions := [⟨0x2000, 0x2010, some "foobar", 16⟩, ⟨0x1000, 0x1010, some "foo", 16⟩]
    functions_distinct := by decide
    functions_fit := show 2 * 128 ≤ isizeMax by decide }

theorem exact_names_win_iff_fooFirst :
    Named fooFirst "foo" (fun f => ∀ op : Operation,
      op.run quietIda (some fooFirst) none (some "foo") = op.run quietIda (some fooFirst) (some f.start) none) := by
  have h := exact_names_win_iff quietIda fooFirst "foo" ⟨⟨0x1000, 0x1010, some "foo", 16⟩, by decide, rfl⟩
  refine h.2.2.2.1.2 ⟨[], [some "foobar"], rfl, ?_⟩
  intro n hn
  cases hn

/-- Asked for `foo`, all of them take `foobar`. -/
theorem containing_name_wins :
    ¬ ∀ (db : Idb) (q : String), (∃ f ∈ db.functions, f.name = some q) →
      Named db q (fun f => resolveAddressByName (some db) q = .ok f.start) := by
  intro h
  obtain ⟨f, hf, hname, hres⟩ := h foobarFirst "foo" ⟨⟨0x1000, 0x1010, some "foo", 16⟩, by decide, rfl⟩
  have hfirst : resolveAddressByName (some foobarFirst) "foo" = .ok 0x2000 := by decide
  have hstart : f.start = 0x2000 := Except.ok.inj (hres.symm.trans hfirst)
  rcases List.mem_cons.1 hf with rfl | hf
  · exact absurd hname (by decide)
  · rw [List.mem_singleton.1 hf] at hstart
    exact absurd hstart (by decide)

end Handlers

end IdaRs
