import IdaRs.IdatOutput
import IdaRs.Values

/-!
# The files of the DSC tasks (`src/server/mod.rs` 310-362, 1095-1151, 1381-1458, 4563-4698, `src/dsc.rs`)

`open_dsc` calls and the background tasks they start, over the files they share: the load scripts and the `.i64`
databases. A task runs the steps of `DscTask.pcStep`; the worker's part of it, after the open, is one step here.
Between two steps of a thread every other thread may run: around each look at the disk, each write and removal, each
call of the registry and each await.

Paths lead to places (`Host.place`: links, `.` components), which do not change in a run; files are kept by place.
Scripts and databases never share one; the log that a call names may be at any place. Idat reads its script and writes
its log while it is alive.
-/

namespace IdaRs

def IntTy.u8 : IntTy := ⟨"u8", 0, 255⟩

/-! ## The script and the command line of idat -/

/-- `str::replace` of one character. -/
def replaceChar (c : Char) (new : String) (s : List Char) : List Char :=
  s.flatMap fun x => if x = c then new.toList else [x]

def escapePythonString (s : String) : String :=
  String.ofList (replaceChar '\r' "\\r" (replaceChar '\n' "\\n" (replaceChar '"' "\\\"" (replaceChar '\\' "\\\\"
    s.toList))))

example : escapePythonString "a\"b\\\n" = "a\\\"b\\\\\\n" := by decide +kernel

def dscFileType (arch : String) (idaVersion : Nat) : String :=
  "Apple DYLD cache for " ++ arch ++ " (" ++ (if 9 ≤ idaVersion then "select module(s)" else "single module") ++ ")"

def idatDscArgs (dscPath outI64 scriptPath fileType : String) (logPath : Option String) : List String :=
  ["-a-", "-A", "-P+", "-Oobjc:+l"] ++ (logPath.map ("-L" ++ ·)).toList ++
    ["-S" ++ scriptPath, "-T" ++ fileType, "-o" ++ outI64, dscPath]

def dscuPythonHelpers : String :=
  "
def run_plugin_checked(name, arg, context, strict_nonzero=False):
    def plugin_failed():
        raise RuntimeError(f\"\x7bname\x7d plugin failed during \x7bcontext\x7d (return=\x7brc!r\x7d)\")

    rc = load_and_run_plugin(name, arg)
    if rc is None:
        plugin_failed()
    if strict_nonzero and (rc is False or (isinstance(rc, int) and rc <= 0)):
        plugin_failed()
    if isinstance(rc, int) and rc < 0:
        plugin_failed()
    return rc

def legacy_dscu_load_module(module):
    node = idaapi.netnode()
    node.create(\"$ dscu\")
    node.supset(2, module)
    run_plugin_checked(\"dscu\", 1, f\"loading module \x7bmodule\x7d\", True)

def modern_dscu_service():
    try:\n        import ida_dscu
    except ImportError:
        return None, None

    svc = ida_dscu.get_dscu_svc()
    if svc is None:
        return ida_dscu, None
    return ida_dscu, svc

def dscu_load_module(module):
    ida_dscu, svc = modern_dscu_service()
    if svc is None:
        legacy_dscu_load_module(module)
        return \"legacy\"

    image_index = svc.get_image_index(module)
    if image_index < 0:
        raise RuntimeError(f\"DSC image not found: \x7bmodule\x7d\")
    if svc.is_image_loaded(image_index):
        print(f\"[ida-mcp] module already loaded: \x7bmodule\x7d\")
        return \"ida_dscu\"
    if not svc.load_image(image_index):
        raise RuntimeError(f\"ida_dscu failed to load module: \x7bmodule\x7d\")
    return \"ida_dscu\"

def legacy_dscu_load_region(ea):
    node = idaapi.netnode()
    node.create(\"$ dscu\")
    node.altset(3, ea)
    run_plugin_checked(\"dscu\", 2, f\"loading region \x7bea:#x\x7d\", True)

def modern_dscu_load_region(ida_dscu, svc, ea):
    info = svc.locate_address(ea)
    region = info.region
    if region.type == ida_dscu.rt_invalid:
        raise RuntimeError(f\"DSC address is not mapped: \x7bea:#x\x7d\")

    if region.type == ida_dscu.rt_image_entity:
        ok = svc.load_image(region.image_index)
    elif region.type == ida_dscu.rt_island:
        island = getattr(region, \"branch_island_number\", region.image_index)
        ok = svc.load_island(island)
    elif region.type == ida_dscu.rt_mapping:
        ok = svc.load_branch_mapping(region.start)
    elif region.type == ida_dscu.rt_got:
        ok = svc.load_got(region.start)
    elif region.type == ida_dscu.rt_unknown:
        ok = svc.load_unknown_region(region.start)
    elif region.type == ida_dscu.rt_cache_data:
        ok = svc.load_cache_data(region.start)
    else:
        raise RuntimeError(f\"DSC region type is not loadable: \x7bregion.type\x7d\")

    if not ok:
        raise RuntimeError(f\"ida_dscu failed to load region at \x7bea:#x\x7d\")

def dscu_load_region(ea):
    ida_dscu, svc = modern_dscu_service()
    if svc is None:
        legacy_dscu_load_region(ea)
        return \"legacy\"

    modern_dscu_load_region(ida_dscu, svc, ea)
    return \"ida_dscu\"
"

def dscLoadScript (module : String) (frameworks : List String) : String :=
  let escapedModule := escapePythonString module
  let script := "import idaapi\n\tfrom idc import *\n\n\t" ++ dscuPythonHelpers ++ "\n\t" ++
    "\n# Load primary module\nprint(\"[ida-mcp] loading module: " ++ escapedModule ++
    "\")\ndsc_backend = dscu_load_module(\"" ++ escapedModule ++
    "\")\nprint(f\"[ida-mcp] dsc backend: \x7bdsc_backend\x7d\")\n"
  let script := frameworks.foldl (fun script fw =>
    script ++ "\nprint(\"[ida-mcp] loading framework: " ++ escapePythonString fw ++ "\")\ndscu_load_module(\"" ++
      escapePythonString fw ++ "\")\n") script
  script ++ "\n# ObjC type analysis
print(\"[ida-mcp] analyzing objc types\")
load_and_run_plugin(\"objc\", 1)
print(\"[ida-mcp] analyzing NSConcreteGlobalBlock objects\")
load_and_run_plugin(\"objc\", 4)

# Auto-analysis
print(\"[ida-mcp] performing auto-analysis...\")
auto_mark_range(0, BADADDR, AU_FINAL)
auto_wait()

# Stack block analysis
print(\"[ida-mcp] analyzing NSConcreteStackBlock objects\")
load_and_run_plugin(\"objc\", 5)

print(\"[ida-mcp] DSC module loading complete\")
"

/-- The value of the first argument that starts with `-` and this letter. -/
def idatOption (letter : Char) (args : List String) : Option String :=
  args.findSome? fun arg =>
    match arg.toList with
    | '-' :: c :: value => if c = letter then some (String.ofList value) else none
    | _ => none

namespace DscFiles

open Threads IdaRs.Task
open DscTask (Value)

/-! ## The host -/

structure Host where
  sdkVersion : Nat × Nat
  /-- `HOME`. -/
  home : Option String
  isFile : String → Bool
  /-- What `find_idat` finds. -/
  findIdat : Except ToolError String
  /-- The place a path leads to. -/
  place : String → String
  canonicalize : String → Option String
  /-- `DefaultHasher` over a path. -/
  hash : String → UInt64
  tempDir : String

structure OpenDscRequest where
  path : String
  arch : String
  module : String
  frameworks : Option (List String) := none
  idaVersion : Option IntTy.i64.ty.Val := none
  logPath : Option String := none

/-- A call of `open_dsc`: the request, whose tasks it starts and the token of a task's lifetime. -/
structure Call where
  req : OpenDscRequest
  owner : TaskOwner
  cancelToken : Nat

def sanitizeTempComponent (value : String) : String :=
  let sanitized := value.toList.map fun ch =>
    if ch.isAlphanum ∨ ch = '.' ∨ ch = '-' ∨ ch = '_' then ch else '_'
  if sanitized = [] then "dsc" else String.ofList sanitized

/-- `format!("{hash:016x}")`. -/
def hex016 (hash : UInt64) : String :=
  let digits := Nat.toDigits 16 hash.toNat
  String.ofList (List.replicate (16 - digits.length) '0' ++ digits)

example : hex016 0xbeef = "000000000000beef" := by decide +kernel

/-- `out_i64`. -/
def outI64 (dscPath : String) : String := Path.setExtension dscPath "i64"

def scriptPath (dscPath : String) : String := Path.join ((Path.parent dscPath).getD "/tmp") "ida_mcp_dsc_load.py"

namespace Host

variable (h : Host)

/-- `idalib::SDK_VERSION >= (9, 4)`. -/
def direct : Bool := decide (9 < h.sdkVersion.1 ∨ h.sdkVersion.1 = 9 ∧ 4 ≤ h.sdkVersion.2)

def absolute (dscPath : String) : String := (h.canonicalize dscPath).getD dscPath

def cacheName (dscPath : String) : String :=
  "ida-mcp-dsc-" ++ ((Path.fileName (h.absolute dscPath)).map sanitizeTempComponent).getD "dsc" ++ "-" ++
    hex016 (h.hash (h.absolute dscPath)) ++ ".i64"

def directDscCacheI64Path (dscPath : String) : String := Path.join h.tempDir (h.cacheName dscPath)

def validatePath (path : String) : Bool :=
  let path := trim path.toList
  match stripPrefix "~/".toList path with
  | some stripped =>
    match h.home with
    | some home => h.isFile (Path.join home (String.ofList stripped)) && !containsText path ".."
    | none => false
  | none => h.isFile (String.ofList path) && !containsText path ".."

/-- The checks of `open_dsc`; the `ida_version` it goes on with. -/
def validate (req : OpenDscRequest) : Except ToolError Nat :=
  if h.validatePath req.path then
    (parseOptionalUnsigned .u8 req.idaVersion "ida_version").bind fun version =>
      let version := version.getD 9
      if version ≠ 8 ∧ version ≠ 9 then .error (.invalidParams "ida_version must be 8 or 9") else .ok version
  else .error (.invalidPath req.path)

/-- Where the database of a cache is created. -/
def createdI64 (dscPath : String) : String :=
  if h.direct then h.directDscCacheI64Path dscPath else outI64 dscPath

end Host

namespace OpenDscRequest

variable (req : OpenDscRequest)

def script : String := dscLoadScript req.module (req.frameworks.getD [])

def logPathTraverses : Bool := req.logPath.any fun log => containsText log.toList ".."

/-- The command line of idat. -/
def idatArgs (idaVersion : Nat) : List String :=
  idatDscArgs req.path (outI64 req.path) (scriptPath req.path) (dscFileType req.arch idaVersion) req.logPath

end OpenDscRequest

/-! ## The calls and the tasks -/

/-- Where a database comes from. -/
inductive Origin
  /-- Created for the cache at this place. -/
  | madeFor (cache : String)
  /-- Put there by somebody else. -/
  | foreign
deriving DecidableEq

structure Shared where
  scripts : String → Option String := fun _ => none
  databases : String → Option Origin := fun _ => none
  registry : TaskRegistry Value := {}
  /-- The caches that `open_dsc` was called for. -/
  asked : List String := []

/-- What `open_dsc` answers. -/
inductive Answer
  | toolError (e : ToolError)
  | notCreated (e : TaskCreateError)
  | started (id : String)
  /-- What `open_dsc_direct` returns. -/
  | opened
deriving DecidableEq

/-- A background task, with the `ida_version` of its call. -/
structure Job where
  id : String
  call : Call
  idaVersion : Nat

/-- A call of `open_dsc` up to its answer, or a background task; `direct` when it opens the raw DSC. -/
inductive Pc
  | called (call : Call)
  | lookSibling (call : Call) (idaVersion : Nat)
  | lookCache (call : Call) (idaVersion : Nat)
  | reuse (call : Call) (existing : String)
  | writeScript (call : Call) (idaVersion : Nat)
  | create (direct : Bool) (call : Call) (idaVersion : Nat)
  /-- The task is spawned; its token is set next. -/
  | spawned (id : String) (call : Call)
  | answered (a : Answer)
  | task (direct : Bool) (job : Job) (pc : DscTask.Pc)
  /-- `TemporaryFileCleanup`, dropped or called before the task goes on at `next`. -/
  | cleanup (job : Job) (next : Option DscTask.Pc)
  /-- The worker opens the database of the task. -/
  | opening (direct : Bool) (job : Job)
  | finished

inductive Event
  | go
  /-- The write fails; it may leave another text in the file. -/
  | writeFailed (msg : String) (left : Option String)
  | create (uuid : String)
  | task (e : DscTask.Event)
  /-- Idat writes its output. -/
  | idatWrites
  /-- Idat has written this to its log. -/
  | idatLogs (text : String)
  /-- The worker is done with the open, and may have created the database. -/
  | opened (made : Bool)

inductive Env
  | openDsc (call : Call)
  /-- Somebody else puts a database at a path, or removes the one there. -/
  | user (path : String) (present : Bool)
  | registry (now : Nat → Moment) (op : Op Value)

section

variable (h : Host)

/-- `dsc_open_plan` and the part of `open_dsc` after it. -/
def plan (call : Call) (idaVersion : Nat) (existing : Option String) : Pc :=
  match dscOpenPlan h.sdkVersion existing.isSome with
  | .directExistingI64 => .reuse call (existing.getD (outI64 call.req.path))
  | .backgroundDirectRawDsc => .create true call idaVersion
  | .legacyIdatBackground => .writeScript call idaVersion

namespace Shared

def writeScript (s : Shared) (path : String) (text : Option String) : Shared :=
  { s with scripts := Function.update s.scripts (h.place (scriptPath path)) text }

def setDatabase (s : Shared) (path : String) (origin : Option Origin) : Shared :=
  { s with databases := Function.update s.databases (h.place path) origin }

/-- What was in the file is lost; it is no database any more, but it exists. -/
def writeLog (s : Shared) (path text : String) : Shared :=
  { s with
    scripts := Function.update s.scripts (h.place path) (some text)
    databases := Function.update s.databases (h.place path) (some .foreign) }

/-- The file exists. -/
def found (s : Shared) (path : String) : Bool := (s.databases (h.place path)).isSome

/-- The task as `DscTask` sees it; it reads nothing of the worker before its open. -/
def view (s : Shared) (direct : Bool) (job : Job) : DscTask.Shared where
  id := job.id
  source := if direct then .directRawDsc job.call.req.path else .legacyIdat (outI64 job.call.req.path)
  module := job.call.req.module
  frameworks := job.call.req.frameworks.getD []
  cancelToken := job.call.cancelToken
  registry := s.registry
  calls := []
  files := ⟨none, fun _ => false, fun _ => none⟩
  loop := {}
  stopped := true
  queue := []
  capacity := 0
  response := none
  created := []
  closed := []

/-- The packed database after a step of the task: `remove_partial_idat_outputs`. -/
def idatFiles (s : Shared) (job : Job) : DscTask.Pc → DscTask.Event → Shared
  | .idatStop _, .go => s.setDatabase h (outI64 job.call.req.path) none
  | .idatOutput code _, .output found _ =>
    if code ≠ 0 ∨ found = false then s.setDatabase h (outI64 job.call.req.path) none else s
  | _, _ => s

end Shared

/-- The thread after the task went from `pc` to `pc'`: the guard of the script exists from the start of the idat phase
to the look at the output. -/
def nextPc (direct : Bool) (job : Job) : DscTask.Pc → DscTask.Pc → Pc
  | .idatStop _, _ | .idatSettled .., .done .. => .cleanup job none
  | .idatSettled .., pc' => .cleanup job (some pc')
  | _, .done .. => .finished
  | _, .openSend => .opening direct job
  | _, pc' => .task direct job pc'

/-- What `exists` says of the output. -/
def seesOutput (s : Shared) (job : Job) : DscTask.Event → Bool
  | .output found _ => found == s.found h (outI64 job.call.req.path)
  | _ => true

def idatAlive : DscTask.Pc → Bool
  | .idatWait | .idatStop _ => true
  | _ => false

def exec (s : Shared) (_ : Nat) : Pc → (Nat → Moment) × Event → Option (Outcome Shared Pc)
  | .called call, (_, .go) =>
    match h.validate call.req with
    | .error e => some ⟨s, .answered (.toolError e), []⟩
    | .ok version => some ⟨{ s with asked := call.req.path :: s.asked }, .lookSibling call version, []⟩
  | .lookSibling call version, (_, .go) =>
    if s.found h (outI64 call.req.path) then some ⟨s, plan h call version (some (outI64 call.req.path)), []⟩
    else if h.direct then some ⟨s, .lookCache call version, []⟩
    else some ⟨s, plan h call version none, []⟩
  | .lookCache call version, (_, .go) =>
    if s.found h (h.directDscCacheI64Path call.req.path) then
      some ⟨s, plan h call version (some (h.directDscCacheI64Path call.req.path)), []⟩
    else some ⟨s, plan h call version none, []⟩
  | .reuse .., (_, .go) => some ⟨s, .answered .opened, []⟩
  | .writeScript call version, (_, .go) =>
    match h.findIdat with
    | .error e => some ⟨s, .answered (.toolError e), []⟩
    | .ok _ => some ⟨s.writeScript h call.req.path (some call.req.script), .create false call version, []⟩
  | .writeScript call _, (_, .writeFailed msg left) =>
    match h.findIdat with
    | .error _ => none
    | .ok _ =>
      some ⟨match left with | some text => s.writeScript h call.req.path (some text) | none => s,
        .answered (.toolError (.invalidParams ("Failed to write DSC load script: " ++ msg))), []⟩
  | .create direct call version, (now, .create uuid) =>
    if direct = false ∧ call.req.logPathTraverses then
      some ⟨s, .answered (.toolError (.invalidParams "log_path must not contain '..' path traversal")), []⟩
    else
      let (key, message) :=
        if direct then
          (call.req.path,
            "Opening DSC directly with idalib (idb_out=" ++ h.directDscCacheI64Path call.req.path ++ ")...")
        else (outI64 call.req.path, "Running idat to create .i64 from DSC...")
      match s.registry.createKeyed call.owner "dsc" key message uuid now with
      | (registry, .error e) => some ⟨{ s with registry }, .answered (.notCreated e), []⟩
      | (registry, .ok id) =>
        some ⟨{ s with registry }, .spawned id call, [.task direct ⟨id, call, version⟩ .start]⟩
  | .spawned id call, (now, .go) =>
    some ⟨{ s with registry := s.registry.setCancelToken id call.cancelToken now }, .answered (.started id), []⟩
  | .task direct job pc, (now, .task e) =>
    if seesOutput h s job e then
      (DscTask.pcStep (s.view direct job) now pc e).map fun (v, pc') =>
        ⟨{ s.idatFiles h job pc e with registry := v.registry }, nextPc direct job pc pc', []⟩
    else none
  | .task false job pc, (_, .idatWrites) =>
    if idatAlive pc then
      some ⟨s.setDatabase h (outI64 job.call.req.path) (some (.madeFor (h.place job.call.req.path))),
        .task false job pc, []⟩
    else none
  | .task false job pc, (_, .idatLogs text) =>
    match job.call.req.logPath with
    | some log => if idatAlive pc then some ⟨s.writeLog h log text, .task false job pc, []⟩ else none
    | none => none
  | .cleanup job next, (_, .go) =>
    some ⟨s.writeScript h job.call.req.path none,
      match next with | some pc => .task false job pc | none => .finished, []⟩
  | .opening direct job, (_, .opened made) =>
    some ⟨if direct ∧ made then
        s.setDatabase h (h.directDscCacheI64Path job.call.req.path) (some (.madeFor (h.place job.call.req.path)))
      else s, .finished, []⟩
  | _, _ => none

def env (c : Conf Shared Pc) : Env → Option (Shared × List Pc)
  | .openDsc call => some (c.shared, [.called call])
  | .user path present => some (c.shared.setDatabase h path (if present then some .foreign else none), [])
  | .registry now op => some ({ c.shared with registry := (Task.step c.shared.registry now op).1 }, [])

def program : Program Shared Pc ((Nat → Moment) × Event) Env := ⟨exec h, env h⟩

end

/-! ## Who holds which file -/

/-- Between the admission of the task and the clean-up of its script. -/
def guarded : DscTask.Pc → Bool
  | .start | .idatSpawn | .idatWait | .idatStop _ | .idatSettled .. => true
  | _ => false

namespace Pc

/-- The call whose script the thread still needs or removes. -/
def script : Pc → Option Call
  | .create false call _ => if call.req.logPathTraverses then none else some call
  | .task false job pc => if guarded pc then some job.call else none
  | .cleanup job _ => some job.call
  | _ => none

/-- The call and whether it opens the raw DSC, once that is decided. -/
def kind : Pc → Option (Call × Bool)
  | .writeScript call _ => some (call, false)
  | .create direct call _ => some (call, direct)
  | .task direct job _ | .opening direct job => some (job.call, direct)
  | .cleanup job _ => some (job.call, false)
  | _ => none

/-- The database that the thread creates or reuses, and for which call. -/
def database (h : Host) : Pc → Option (Call × String)
  | .reuse call existing => some (call, existing)
  | .task direct job _ | .opening direct job =>
    some (job.call, if direct then h.directDscCacheI64Path job.call.req.path else outI64 job.call.req.path)
  | .cleanup job _ => some (job.call, outI64 job.call.req.path)
  | _ => none

end Pc

section

variable (h : Host)

/-- Different caches: neither has its sibling `.i64` where the database of the other is created. -/
def Apart (p q : String) : Prop :=
  h.place p ≠ h.place q →
    h.place (outI64 p) ≠ h.place (h.createdI64 q) ∧ h.place (outI64 q) ≠ h.place (h.createdI64 p)

instance (p q : String) : Decidable (Apart h p q) := inferInstanceAs (Decidable (_ → _))

/-- The step writes the script of this call. -/
def writes : Pc → Event → Option Call
  | .writeScript call _, .go => if h.findIdat.toOption.isSome then some call else none
  | .writeScript call _, .writeFailed _ (some _) => some call
  | _, _ => none

/-- The step writes the log that its call names. -/
def logs : Pc → Event → Option String
  | .task false job pc, .idatLogs _ => if idatAlive pc then job.call.req.logPath else none
  | _, _ => none

/-- The condition: a script is written only where no other call or task has one and a log where none has, and a new cache
has its databases apart from those of the caches before it. -/
def separate (c : Conf Shared Pc) : Act ((Nat → Moment) × Event) Env → Bool
  | .thread i e =>
    match c.threads[i]? with
    | some (.called call) =>
      match h.validate call.req with
      | .error _ => true
      | .ok _ => decide (∀ q ∈ c.shared.asked, Apart h call.req.path q)
    | some l =>
      ((writes h l e.2).all fun call =>
        c.threads.all fun m => m.script.all fun other =>
          decide (h.place (scriptPath other.req.path) ≠ h.place (scriptPath call.req.path))) &&
      ((logs l e.2).all fun log =>
        c.threads.all fun m => m.script.all fun other =>
          decide (h.place (scriptPath other.req.path) ≠ h.place log))
    | none => true
  | .env _ => true

/-- What the code relies on of the disk: `canonicalize` gives another path to the same file, and the names of the
cache databases in the temporary directory are not links to one another. -/
structure Host.Lawful : Prop where
  canonicalize : ∀ p a, h.canonicalize p = some a → h.place a = h.place p
  cache : ∀ p q, h.place (h.directDscCacheI64Path p) = h.place (h.directDscCacheI64Path q) →
    h.directDscCacheI64Path p = h.directDscCacheI64Path q

/-- The path hash is injective on the caches in use. -/
def HashInjective (asked : List String) : Prop :=
  ∀ p ∈ asked, ∀ q ∈ asked, h.hash (h.absolute p) = h.hash (h.absolute q) → h.absolute p = h.absolute q

instance (asked : List String) : Decidable (HashInjective h asked) :=
  inferInstanceAs (Decidable (∀ p ∈ asked, ∀ q ∈ asked, _ → _))

/-- No call yet; what is on the disk was put there by others. -/
structure Init (c : Conf Shared Pc) : Prop where
  threads : c.threads = []
  asked : c.shared.asked = []
  databases : ∀ x q, c.shared.databases x ≠ some (.madeFor q)

/-! ## The names -/

variable {h}

theorem length_hex016 (n : UInt64) : (hex016 n).toList.length = 16 := by
  have hlt : n.toNat < 16 ^ 16 := n.toNat_lt
  have hle : (Nat.toDigits 16 n.toNat).length ≤ 16 := (Nat.length_toDigits_le_iff (by decide) (by decide)).2 hlt
  simp only [hex016, String.toList_ofList, List.length_append, List.length_replicate]
  omega

theorem hex016_injective {a b : UInt64} (heq : hex016 a = hex016 b) : a = b := by
  have hvalue (n : UInt64) : radixValue 16 (hex016 n).toList = some n.toNat := by
    simp only [hex016, String.toList_ofList]
    rw [radixValue_zeros (by decide), radixValue_toDigits]
  have := hvalue a
  rw [heq, hvalue b] at this
  exact UInt64.toNat.inj (Option.some.inj this).symm

theorem cacheName_toList (p : String) : ∃ start : List Char,
    (h.cacheName p).toList = 'i' :: start ++ (hex016 (h.hash (h.absolute p))).toList ++ ".i64".toList := by
  have hhead : "ida-mcp-dsc-".toList = 'i' :: "da-mcp-dsc-".toList := by decide +kernel
  unfold Host.cacheName
  rw [String.toList_append, String.toList_append, String.toList_append, String.toList_append, hhead]
  simp only [List.cons_append]
  exact ⟨_, rfl⟩

/-- The hash can be read off the name: it has a fixed width. -/
theorem hash_of_cacheName {p q : String} (heq : h.cacheName p = h.cacheName q) :
    h.hash (h.absolute p) = h.hash (h.absolute q) := by
  obtain ⟨startp, hp⟩ := cacheName_toList (h := h) p
  obtain ⟨startq, hq⟩ := cacheName_toList (h := h) q
  have htail := hp.symm.trans ((congrArg String.toList heq).trans hq)
  have h₁ := (List.append_inj' htail rfl).1
  have h₂ := (List.append_inj' h₁ (by rw [length_hex016, length_hex016])).2
  exact hex016_injective (String.toList_inj.1 h₂)

theorem join_injective {base a b : String} (ha : a.toList.head? ≠ some '/') (hb : b.toList.head? ≠ some '/')
    (heq : Path.join base a = Path.join base b) : a = b := by
  rw [Path.join, Path.join, if_neg ha, if_neg hb] at heq
  have := congrArg String.toList heq
  split at this <;> simpa [String.toList_inj] using this

theorem cacheName_head (p : String) : (h.cacheName p).toList.head? ≠ some '/' := by
  obtain ⟨start, hp⟩ := cacheName_toList (h := h) p
  rw [hp]
  nofun

/-- Caches with one database in the temporary directory are one cache. -/
theorem place_of_cache (hh : h.Lawful) {asked : List String} (hash : HashInjective h asked) {p q : String}
    (hp : p ∈ asked) (hq : q ∈ asked)
    (heq : h.place (h.directDscCacheI64Path p) = h.place (h.directDscCacheI64Path q)) : h.place p = h.place q := by
  have habs (p : String) : h.place (h.absolute p) = h.place p := by
    unfold Host.absolute
    cases hc : h.canonicalize p with
    | none => rfl
    | some a => exact hh.canonicalize p a hc
  have hname := join_injective (cacheName_head p) (cacheName_head q) (hh.cache p q heq)
  have := hash p hp q hq (hash_of_cacheName hname)
  rw [← habs p, ← habs q, this]

/-- Idat is told to run the script of its own call. -/
theorem idatOption_script (req : OpenDscRequest) (version : Nat) :
    idatOption 'S' (req.idatArgs version) = some (scriptPath req.path) := by
  unfold OpenDscRequest.idatArgs idatDscArgs idatOption
  cases req.logPath <;> simp

/-! ## One step -/

namespace Shared

variable (s : Shared) (path : String)

@[simp] theorem writeScript_self (text : Option String) :
    (s.writeScript h path text).scripts (h.place (scriptPath path)) = text :=
  Function.update_self ..

theorem writeScript_ne (text : Option String) {x : String} (hx : x ≠ h.place (scriptPath path)) :
    (s.writeScript h path text).scripts x = s.scripts x :=
  Function.update_of_ne hx ..

@[simp] theorem setDatabase_self (origin : Option Origin) :
    (s.setDatabase h path origin).databases (h.place path) = origin :=
  Function.update_self ..

theorem writeLog_scripts_ne (text : String) {x : String} (hx : x ≠ h.place path) :
    (s.writeLog h path text).scripts x = s.scripts x :=
  Function.update_of_ne hx ..

/-- A log is no database. -/
theorem writeLog_databases {text x q : String} (hx : (s.writeLog h path text).databases x = some (.madeFor q)) :
    s.databases x = some (.madeFor q) := by
  by_cases hplace : x = h.place path
  · rw [hplace, Shared.writeLog] at hx
    simp at hx
  · exact (Function.update_of_ne hplace ..).symm.trans hx

theorem setDatabase_ne (origin : Option Origin) {x : String} (hx : x ≠ h.place path) :
    (s.setDatabase h path origin).databases x = s.databases x :=
  Function.update_of_ne hx ..

end Shared

section

variable {s : Shared} {i : Nat} {l : Pc} {e : (Nat → Moment) × Event} {o : Outcome Shared Pc}

/-- A task does not come back to its script. -/
theorem guarded_of_pcStep {v v' : DscTask.Shared} {now : Nat → Moment} {pc pc' : DscTask.Pc} {e : DscTask.Event}
    (hs : DscTask.pcStep v now pc e = some (v', pc')) (hg : guarded pc' = true) : guarded pc = true := by
  have hstage (hafter : pc'.stage = .after ∨ pc'.stage = .done) : False := by
    cases pc' with
    | start | idatSpawn | idatWait | idatStop | idatSettled => rcases hafter with h | h <;> cases h
    | _ => cases hg
  cases pc with
  | start | idatSpawn | idatWait | idatStop | idatSettled => rfl
  | idatOutput code stderr =>
    exfalso
    cases e with
    | output found log =>
      simp only [DscTask.pcStep] at hs
      split at hs <;> obtain ⟨-, rfl⟩ := Prod.mk.inj (Option.some.inj hs) <;> cases hg
    | _ => cases hs
  | done => cases hs
  | _ => exact (hstage (DscTask.stage_after hs rfl)).elim

/-- After idat has settled the task looks at the output or is over. -/
theorem settled_of_pcStep {v v' : DscTask.Shared} {now : Nat → Moment} {code : Int} {stderr : String}
    {pc' : DscTask.Pc} {e : DscTask.Event} (hs : DscTask.pcStep v now (.idatSettled code stderr) e = some (v', pc')) :
    guarded pc' = false := by
  cases e with
  | go =>
    simp only [DscTask.pcStep] at hs
    split at hs <;> obtain ⟨-, rfl⟩ := Prod.mk.inj (Option.some.inj hs) <;> rfl
  | _ => cases hs

/-- A task that opens the raw DSC goes on to the worker. -/
theorem direct_of_pcStep {job : Job} {v : DscTask.Shared} {now : Nat → Moment} {pc' : DscTask.Pc} {e : DscTask.Event}
    (hs : DscTask.pcStep (s.view true job) now .start e = some (v, pc')) :
    nextPc true job .start pc' = .finished ∨ nextPc true job .start pc' = .opening true job := by
  cases e with
  | go =>
    simp only [DscTask.pcStep] at hs
    split at hs <;> obtain ⟨-, rfl⟩ := Prod.mk.inj (Option.some.inj hs)
    · exact .inl rfl
    · exact .inr rfl
  | _ => cases hs

/-- What a step does to the files. -/
inductive Effect (h : Host) (s : Shared) (l : Pc) (ev : Event) (o : Outcome Shared Pc) : Prop
  /-- No file is written; a database may be removed. -/
  | quiet (scripts : o.shared.scripts = s.scripts)
      (databases : ∀ x v, o.shared.databases x = some v → s.databases x = some v)
      (asked : o.shared.asked = s.asked) (script : ∀ a ∈ o.thread.script, a ∈ l.script) (spawned : o.spawned = [])
  | ask (call : Call) (version : Nat) (hl : l = .called call) (valid : h.validate call.req = .ok version)
      (ho : o = ⟨{ s with asked := call.req.path :: s.asked }, .lookSibling call version, []⟩)
  | write (call : Call) (text : String) (hw : writes h l ev = some call) (hl : l.script = none)
      (shared : o.shared = s.writeScript h call.req.path (some text))
      (script : ∀ a ∈ o.thread.script, a = call ∧ text = call.req.script) (spawned : o.spawned = [])
  | spawn (files : o.shared.scripts = s.scripts ∧ o.shared.databases = s.databases ∧ o.shared.asked = s.asked)
      (thread : o.thread.script = none) (m : Pc) (spawned : o.spawned = [m])
      (script : ∀ a ∈ m.script, a ∈ l.script)
  | make (call : Call) (direct : Bool) (kind : l.kind = some (call, direct))
      (shared : o.shared = s.setDatabase h
        (if direct then h.directDscCacheI64Path call.req.path else outI64 call.req.path)
        (some (.madeFor (h.place call.req.path))))
      (script : ∀ a ∈ o.thread.script, a ∈ l.script) (spawned : o.spawned = [])
  | log (path text : String) (hlogs : logs l ev = some path) (shared : o.shared = s.writeLog h path text)
      (thread : o.thread = l) (spawned : o.spawned = [])
  | clean (call : Call) (hl : l.script = some call) (shared : o.shared = s.writeScript h call.req.path none)
      (thread : o.thread.script = none) (spawned : o.spawned = [])

/-- What a thread knows of its call. -/
def Local (h : Host) (asked : List String) : Pc → Prop
  | .lookSibling call _ => call.req.path ∈ asked
  | .lookCache call _ => call.req.path ∈ asked ∧ h.direct = true
  | .reuse call existing =>
    call.req.path ∈ asked ∧
      (existing = outI64 call.req.path ∨ h.direct = true ∧ existing = h.directDscCacheI64Path call.req.path)
  | .writeScript call _ => call.req.path ∈ asked ∧ h.direct = false
  | .create direct call _ => call.req.path ∈ asked ∧ direct = h.direct
  | .task direct job pc => job.call.req.path ∈ asked ∧ direct = h.direct ∧ (direct = true → pc = .start)
  | .cleanup job next => job.call.req.path ∈ asked ∧ h.direct = false ∧ ∀ pc ∈ next, guarded pc = false
  | .opening direct job => job.call.req.path ∈ asked ∧ direct = h.direct
  | _ => True

theorem Local.cons {asked : List String} (p : String) (hl : Local h asked l) : Local h (p :: asked) l := by
  cases l with
  | lookSibling => exact List.mem_cons_of_mem p hl
  | called | spawned | answered | finished => trivial
  | _ => exact ⟨List.mem_cons_of_mem p hl.1, hl.2⟩

theorem plan_spec {asked : List String} {call : Call} (version : Nat) {existing : Option String}
    (hp : call.req.path ∈ asked)
    (hex : ∀ x ∈ existing,
      x = outI64 call.req.path ∨ h.direct = true ∧ x = h.directDscCacheI64Path call.req.path) :
    Local h asked (plan h call version existing) ∧ (plan h call version existing).script = none := by
  cases existing with
  | some x => exact ⟨⟨hp, hex x rfl⟩, rfl⟩
  | none =>
    have hplan : dscOpenPlan h.sdkVersion false =
        if h.direct then .backgroundDirectRawDsc else .legacyIdatBackground := by
      simp [dscOpenPlan, Host.direct]
    rw [plan, Option.isSome_none, hplan]
    cases hd : h.direct with
    | true => exact ⟨⟨hp, hd.symm⟩, rfl⟩
    | false => exact ⟨⟨hp, hd⟩, rfl⟩

variable {ev : Event}

/-- A step that touches no file. -/
theorem Effect.still
    (hs : o.shared.scripts = s.scripts ∧ o.shared.databases = s.databases ∧ o.shared.asked = s.asked)
    (script : ∀ a ∈ o.thread.script, a ∈ l.script) (spawned : o.spawned = []) : Effect h s l ev o :=
  .quiet hs.1 (fun x v hv => by rwa [hs.2.1] at hv) hs.2.2 script spawned

theorem noScript {p : Call → Prop} : ∀ a ∈ (none : Option Call), p a := by simp

/-- What one step of a thread does, and what the thread and those it spawns know afterwards. -/
def StepOk (h : Host) (s : Shared) (l : Pc) (ev : Event) (o : Outcome Shared Pc) : Prop :=
  Effect h s l ev o ∧ Local h o.shared.asked o.thread ∧ ∀ m ∈ o.spawned, Local h o.shared.asked m

theorem StepOk.answered {a : Answer} {registry : TaskRegistry Value} :
    StepOk h s l ev ⟨{ s with registry }, .answered a, []⟩ :=
  ⟨.still ⟨rfl, rfl, rfl⟩ noScript rfl, trivial, List.forall_mem_nil _⟩

theorem StepOk.planned {call : Call} {version : Nat} {existing : Option String} (hp : call.req.path ∈ s.asked)
    (hex : ∀ x ∈ existing,
      x = outI64 call.req.path ∨ h.direct = true ∧ x = h.directDscCacheI64Path call.req.path) :
    StepOk h s l ev ⟨s, plan h call version existing, []⟩ := by
  obtain ⟨hloc, hscript⟩ := plan_spec version hp hex
  refine ⟨.still ⟨rfl, rfl, rfl⟩ ?_ rfl, hloc, List.forall_mem_nil _⟩
  intro a ha
  rw [hscript] at ha
  cases ha

theorem idatFiles_scripts (job : Job) (pc : DscTask.Pc) (e : DscTask.Event) :
    (s.idatFiles h job pc e).scripts = s.scripts ∧ (s.idatFiles h job pc e).asked = s.asked := by
  unfold Shared.idatFiles
  split
  · exact ⟨rfl, rfl⟩
  · split <;> exact ⟨rfl, rfl⟩
  · exact ⟨rfl, rfl⟩

/-- Cleaning up after idat creates no database. -/
theorem idatFiles_databases (job : Job) (pc : DscTask.Pc) (e : DscTask.Event) {x : String} {v : Origin}
    (hv : (s.idatFiles h job pc e).databases x = some v) : s.databases x = some v := by
  have hremove (path : String) (hv : (s.setDatabase h path none).databases x = some v) : s.databases x = some v := by
    by_cases hx : x = h.place path
    · simp [hx] at hv
    · rwa [Shared.setDatabase_ne _ _ _ hx] at hv
  unfold Shared.idatFiles at hv
  split at hv
  · exact hremove _ hv
  · split at hv
    · exact hremove _ hv
    · exact hv
  · exact hv

/-- After a step of a legacy task the thread holds the script only if it did before. -/
theorem script_nextPc {job : Job} {v v' : DscTask.Shared} {now : Nat → Moment} {pc pc' : DscTask.Pc}
    {e : DscTask.Event} (hs : DscTask.pcStep v now pc e = some (v', pc')) :
    ∀ a ∈ (nextPc false job pc pc').script, a ∈ (Pc.task false job pc).script := by
  intro a ha
  have hguarded (hg : guarded pc = true) (ha : a ∈ some job.call) : a ∈ (Pc.task false job pc).script := by
    simp only [Pc.script, hg, if_true]
    exact ha
  unfold nextPc at ha
  split at ha
  · exact hguarded rfl ha
  · exact hguarded rfl ha
  · exact hguarded rfl ha
  · cases ha
  · cases ha
  · simp only [Pc.script] at ha
    split at ha
    · rename_i hg
      exact hguarded (guarded_of_pcStep hs hg) ha
    · cases ha

theorem local_nextPc {job : Job} {v v' : DscTask.Shared} {now : Nat → Moment} {pc pc' : DscTask.Pc}
    {e : DscTask.Event} (hs : DscTask.pcStep v now pc e = some (v', pc')) {asked : List String}
    (hp : job.call.req.path ∈ asked) (hd : h.direct = false) : Local h asked (nextPc false job pc pc') := by
  unfold nextPc
  split
  · exact ⟨hp, hd, by simp⟩
  · exact ⟨hp, hd, by simp⟩
  · refine ⟨hp, hd, fun pc hpc => ?_⟩
    obtain rfl := Option.some.inj hpc
    exact settled_of_pcStep hs
  · trivial
  · exact ⟨hp, hd.symm⟩
  · exact ⟨hp, hd.symm, by simp⟩

theorem exec_called {call : Call} (he : exec h s i (.called call) e = some o) : StepOk h s (.called call) e.2 o := by
  obtain ⟨now, ev⟩ := e
  cases ev with
  | go =>
    simp only [exec] at he
    split at he
    · obtain rfl := Option.some.inj he
      exact .answered
    · rename_i version hv
      obtain rfl := Option.some.inj he
      exact ⟨.ask call version rfl hv rfl, List.mem_cons_self, List.forall_mem_nil _⟩
  | _ => cases he

theorem exec_look {call : Call} {version : Nat} (hl : l = .lookSibling call version ∨ l = .lookCache call version)
    (hloc : Local h s.asked l) (he : exec h s i l e = some o) : StepOk h s l e.2 o := by
  obtain ⟨now, ev⟩ := e
  rcases hl with rfl | rfl
  · cases ev with
    | go =>
      simp only [exec] at he
      split at he
      · obtain rfl := Option.some.inj he
        exact .planned hloc fun x hx => .inl (Option.some.inj hx).symm
      · split at he
        · rename_i hd
          obtain rfl := Option.some.inj he
          exact ⟨.still ⟨rfl, rfl, rfl⟩ noScript rfl, ⟨hloc, hd⟩, List.forall_mem_nil _⟩
        · obtain rfl := Option.some.inj he
          exact .planned hloc nofun
    | _ => cases he
  · cases ev with
    | go =>
      simp only [exec] at he
      split at he
      · obtain rfl := Option.some.inj he
        exact .planned hloc.1 fun x hx => .inr ⟨hloc.2, (Option.some.inj hx).symm⟩
      · obtain rfl := Option.some.inj he
        exact .planned hloc.1 nofun
    | _ => cases he

theorem exec_writeScript {call : Call} {version : Nat} (hloc : Local h s.asked (.writeScript call version))
    (he : exec h s i (.writeScript call version) e = some o) : StepOk h s (.writeScript call version) e.2 o := by
  obtain ⟨now, ev⟩ := e
  cases ev with
  | go =>
    simp only [exec] at he
    split at he
    · obtain rfl := Option.some.inj he
      exact .answered
    · rename_i idat hidat
      obtain rfl := Option.some.inj he
      have hw : writes h (.writeScript call version) .go = some call := by simp [writes, hidat, Except.toOption]
      refine ⟨.write call _ hw rfl rfl (fun a ha => ?_) rfl, ⟨hloc.1, hloc.2.symm⟩, List.forall_mem_nil _⟩
      simp only [Pc.script] at ha
      split at ha
      · cases ha
      · exact ⟨(Option.some.inj ha).symm, rfl⟩
  | writeFailed msg left =>
    simp only [exec] at he
    split at he
    · cases he
    · obtain rfl := Option.some.inj he
      cases left with
      | none => exact .answered
      | some text => exact ⟨.write call text rfl rfl rfl noScript rfl, trivial, List.forall_mem_nil _⟩
  | _ => cases he

theorem exec_create {direct : Bool} {call : Call} {version : Nat} (hloc : Local h s.asked (.create direct call version))
    (he : exec h s i (.create direct call version) e = some o) :
    StepOk h s (.create direct call version) e.2 o := by
  obtain ⟨now, ev⟩ := e
  cases ev with
  | create uuid =>
    simp only [exec] at he
    split at he
    · obtain rfl := Option.some.inj he
      exact .answered
    · rename_i hlog
      split at he
      · obtain rfl := Option.some.inj he
        exact .answered
      · rename_i registry id _
        obtain rfl := Option.some.inj he
        refine ⟨.spawn ⟨rfl, rfl, rfl⟩ rfl _ rfl ?_, trivial, ?_⟩
        · intro a ha
          cases direct with
          | true => cases ha
          | false =>
            have hlog : call.req.logPathTraverses = false := by simpa using hlog
            simp only [Pc.script, hlog]
            exact ha
        · intro m hm
          rw [List.mem_singleton.1 hm]
          exact ⟨hloc.1, hloc.2, fun _ => rfl⟩
  | _ => cases direct <;> cases he

theorem exec_task {direct : Bool} {job : Job} {pc : DscTask.Pc} (hloc : Local h s.asked (.task direct job pc))
    (he : exec h s i (.task direct job pc) e = some o) : StepOk h s (.task direct job pc) e.2 o := by
  obtain ⟨now, ev⟩ := e
  cases ev with
  | task ev =>
    simp only [exec] at he
    split at he
    · obtain ⟨⟨v, pc'⟩, hs, rfl⟩ := Option.map_eq_some_iff.1 he
      have hasked := (idatFiles_scripts (h := h) (s := s) job pc ev).2
      have heffect (hscript : ∀ a ∈ (nextPc direct job pc pc').script, a ∈ (Pc.task direct job pc).script) :
          Effect h s (.task direct job pc) (.task ev)
            ⟨{ s.idatFiles h job pc ev with registry := v.registry }, nextPc direct job pc pc', []⟩ :=
        .quiet (idatFiles_scripts job pc ev).1 (fun x o => idatFiles_databases job pc ev) hasked hscript rfl
      cases direct with
      | true =>
        obtain rfl := hloc.2.2 rfl
        rcases direct_of_pcStep hs with hnext | hnext
        · refine ⟨heffect ?_, ?_, List.forall_mem_nil _⟩
          · rw [hnext]; exact noScript
          · show Local h _ (nextPc ..)
            rw [hnext]; trivial
        · refine ⟨heffect ?_, ?_, List.forall_mem_nil _⟩
          · rw [hnext]; exact noScript
          · show Local h (s.idatFiles h job .start ev).asked (nextPc ..)
            rw [hnext, hasked]
            exact ⟨hloc.1, hloc.2.1⟩
      | false =>
        refine ⟨heffect (script_nextPc hs), ?_, List.forall_mem_nil _⟩
        show Local h (s.idatFiles h job pc ev).asked (nextPc ..)
        rw [hasked]
        exact local_nextPc hs hloc.1 hloc.2.1.symm
    · cases he
  | idatWrites =>
    cases direct with
    | true => cases he
    | false =>
      simp only [exec] at he
      split at he
      · obtain rfl := Option.some.inj he
        exact ⟨.make job.call false rfl rfl (fun a ha => ha) rfl, hloc, List.forall_mem_nil _⟩
      · cases he
  | idatLogs text =>
    cases direct with
    | true => cases he
    | false =>
      simp only [exec] at he
      split at he
      · rename_i log hlog
        split at he
        · rename_i halive
          obtain rfl := Option.some.inj he
          exact ⟨.log log text (by rw [logs, if_pos halive, hlog]) rfl rfl rfl, hloc, List.forall_mem_nil _⟩
        · cases he
      · cases he
  | _ => cases direct <;> cases he

theorem exec_cleanup {job : Job} {next : Option DscTask.Pc} (hloc : Local h s.asked (.cleanup job next))
    (he : exec h s i (.cleanup job next) e = some o) : StepOk h s (.cleanup job next) e.2 o := by
  obtain ⟨now, ev⟩ := e
  cases ev with
  | go =>
    obtain rfl := Option.some.inj he
    cases next with
    | none => exact ⟨.clean job.call rfl rfl rfl rfl, trivial, List.forall_mem_nil _⟩
    | some pc =>
      refine ⟨.clean job.call rfl rfl ?_ rfl, ⟨hloc.1, hloc.2.1.symm, ?_⟩, List.forall_mem_nil _⟩
      · simp [Pc.script, hloc.2.2 pc rfl]
      · simp
  | _ => cases he

theorem exec_opening {direct : Bool} {job : Job} (he : exec h s i (.opening direct job) e = some o) :
    StepOk h s (.opening direct job) e.2 o := by
  obtain ⟨now, ev⟩ := e
  cases ev with
  | opened made =>
    obtain rfl := Option.some.inj he
    refine ⟨?_, trivial, List.forall_mem_nil _⟩
    by_cases hmade : direct = true ∧ made = true
    · obtain ⟨rfl, rfl⟩ := hmade
      refine .make job.call true rfl ?_ noScript rfl
      rw [if_pos ⟨rfl, rfl⟩, if_pos rfl]
    · rw [if_neg hmade]
      exact .still ⟨rfl, rfl, rfl⟩ noScript rfl
  | _ => cases he

theorem exec_step (hloc : Local h s.asked l) (he : exec h s i l e = some o) : StepOk h s l e.2 o := by
  cases l with
  | called => exact exec_called he
  | lookSibling => exact exec_look (.inl rfl) hloc he
  | lookCache => exact exec_look (.inr rfl) hloc he
  | writeScript => exact exec_writeScript hloc he
  | create => exact exec_create hloc he
  | task => exact exec_task hloc he
  | cleanup => exact exec_cleanup hloc he
  | opening => exact exec_opening he
  | reuse | spawned =>
    obtain ⟨now, ev⟩ := e
    cases ev with
    | go =>
      obtain rfl := Option.some.inj he
      exact .answered
    | _ => cases he
  | answered | finished => cases he

end

/-! ## Every run -/

/-- Every database that was made lies where that of its cache is created. -/
structure FilesInv (h : Host) (s : Shared) : Prop where
  made : ∀ x q, s.databases x = some (.madeFor q) → ∃ p ∈ s.asked, h.place p = q ∧ x = h.place (h.createdI64 p)
  apart : ∀ p ∈ s.asked, ∀ q ∈ s.asked, Apart h p q

/-- A thread has its own text in its script. -/
structure ThreadInv (h : Host) (s : Shared) (_ : Nat) (l : Pc) : Prop where
  known : Local h s.asked l
  script : ∀ a ∈ l.script, s.scripts (h.place (scriptPath a.req.path)) = some a.req.script

/-- Two threads have different scripts. -/
def ScriptsDiffer (h : Host) (l m : Pc) : Prop :=
  ∀ a ∈ l.script, ∀ b ∈ m.script, h.place (scriptPath a.req.path) ≠ h.place (scriptPath b.req.path)

abbrev Inv (h : Host) : Conf Shared Pc → Prop := Modular (FilesInv h) (ThreadInv h) (ScriptsDiffer h)

theorem ScriptsDiffer.symm {l m : Pc} (hd : ScriptsDiffer h l m) : ScriptsDiffer h m l :=
  fun a ha b hb => (hd b hb a ha).symm

theorem Apart.symm {p q : String} (ha : Apart h p q) : Apart h q p := fun hne => (ha hne.symm).symm

theorem Local.kind {asked : List String} {l : Pc} {call : Call} {direct : Bool} (hloc : Local h asked l)
    (hk : l.kind = some (call, direct)) : call.req.path ∈ asked ∧ direct = h.direct := by
  cases l with
  | writeScript =>
    obtain ⟨rfl, rfl⟩ := Prod.mk.inj (Option.some.inj hk)
    exact ⟨hloc.1, hloc.2.symm⟩
  | create | opening =>
    obtain ⟨rfl, rfl⟩ := Prod.mk.inj (Option.some.inj hk)
    exact hloc
  | task =>
    obtain ⟨rfl, rfl⟩ := Prod.mk.inj (Option.some.inj hk)
    exact ⟨hloc.1, hloc.2.1⟩
  | cleanup =>
    obtain ⟨rfl, rfl⟩ := Prod.mk.inj (Option.some.inj hk)
    exact ⟨hloc.1, hloc.2.1.symm⟩
  | _ => cases hk

theorem FilesInv.make {s : Shared} (hi : FilesInv h s) {call : Call} {direct : Bool} (hp : call.req.path ∈ s.asked)
    (hd : direct = h.direct) :
    FilesInv h (s.setDatabase h
      (if direct then h.directDscCacheI64Path call.req.path else outI64 call.req.path)
      (some (.madeFor (h.place call.req.path)))) := by
  refine ⟨fun x q hx => ?_, hi.apart⟩
  subst hd
  by_cases hplace : x = h.place (h.createdI64 call.req.path)
  · refine ⟨call.req.path, hp, ?_, hplace⟩
    rw [hplace, Host.createdI64, Shared.setDatabase_self] at hx
    exact Origin.madeFor.inj (Option.some.inj hx)
  · refine hi.made x q ?_
    exact (Shared.setDatabase_ne s _ _ hplace).symm.trans hx

/-- A database may go, and another that was made for no cache may come. -/
theorem FilesInv.keep {s s' : Shared} (hi : FilesInv h s) (hasked : s'.asked = s.asked)
    (hmade : ∀ x q, s'.databases x = some (.madeFor q) → s.databases x = some (.madeFor q)) : FilesInv h s' := by
  constructor
  · intro x q hx
    rw [hasked]
    exact hi.made x q (hmade x q hx)
  · rw [hasked]
    exact hi.apart

theorem FilesInv.ask {s : Shared} (hi : FilesInv h s) {p : String} (ha : ∀ q ∈ s.asked, Apart h p q) :
    FilesInv h { s with asked := p :: s.asked } := by
  constructor
  · intro x q hx
    obtain ⟨p', hp', hrest⟩ := hi.made x q hx
    exact ⟨p', List.mem_cons_of_mem p hp', hrest⟩
  · intro p₁ h₁ p₂ h₂
    rcases List.mem_cons.1 h₁ with rfl | hp₁ <;> rcases List.mem_cons.1 h₂ with rfl | hp₂
    · exact fun hne => (hne rfl).elim
    · exact ha p₂ hp₂
    · exact (ha p₁ hp₁).symm
    · exact hi.apart p₁ hp₁ p₂ hp₂

section

variable {c : Conf Shared Pc} {i : Nat} {l : Pc} {e : (Nat → Moment) × Event} {o : Outcome Shared Pc}

/-- A step that spawns nothing keeps the invariant when it leaves the scripts of the other threads. -/
theorem Inv.alone (hi : Inv h c) (hl : c.threads[i]? = some l) (hspawned : o.spawned = [])
    (hJ : FilesInv h o.shared) (hmono : ∀ m, Local h c.shared.asked m → Local h o.shared.asked m)
    (hself : ThreadInv h o.shared i o.thread)
    (hkeep : ∀ j m, j ≠ i → c.threads[j]? = some m → ∀ a ∈ m.script,
      o.shared.scripts (h.place (scriptPath a.req.path)) = c.shared.scripts (h.place (scriptPath a.req.path)))
    (hdiff : ∀ j m, j ≠ i → c.threads[j]? = some m → ScriptsDiffer h o.thread m) : Inv h (c.after i o) := by
  refine Modular.thread hi (fun _ _ => ScriptsDiffer.symm) hl hJ hself ?_ (by simp [hspawned]) hdiff
    (by simp [hspawned]) (by simp [hspawned])
  intro j m hj hm
  refine ⟨hmono m (hi.threads j m hm).known, fun a ha => ?_⟩
  rw [hkeep j m hj hm a ha]
  exact (hi.threads j m hm).script a ha

/-- The thread has at most the script it had, and nothing was written. -/
theorem Inv.same (hi : Inv h c) (hl : c.threads[i]? = some l) (hspawned : o.spawned = []) (hJ : FilesInv h o.shared)
    (hmono : ∀ m, Local h c.shared.asked m → Local h o.shared.asked m) (hloc : Local h o.shared.asked o.thread)
    (hscripts : o.shared.scripts = c.shared.scripts) (hscript : ∀ a ∈ o.thread.script, a ∈ l.script) :
    Inv h (c.after i o) := by
  refine hi.alone hl hspawned hJ hmono ⟨hloc, fun a ha => ?_⟩ (fun _ _ _ _ _ _ => by rw [hscripts]) ?_
  · rw [hscripts]
    exact (hi.threads i l hl).script a (hscript a ha)
  · intro j m hj hm a ha b hb
    exact hi.pairs i j l m hj.symm hl hm a (hscript a ha) b hb

/-- A script changes: that of the thread is as it has to be, those of the others stay. -/
theorem Inv.rescript (hi : Inv h c) (hl : c.threads[i]? = some l) (hspawned : o.spawned = [])
    (hasked : o.shared.asked = c.shared.asked)
    (hmade : ∀ x q, o.shared.databases x = some (.madeFor q) → c.shared.databases x = some (.madeFor q))
    (hself : ThreadInv h o.shared i o.thread)
    (hkeep : ∀ j m, j ≠ i → c.threads[j]? = some m → ∀ a ∈ m.script,
      o.shared.scripts (h.place (scriptPath a.req.path)) = c.shared.scripts (h.place (scriptPath a.req.path)))
    (hdiff : ∀ j m, j ≠ i → c.threads[j]? = some m → ScriptsDiffer h o.thread m) : Inv h (c.after i o) := by
  refine hi.alone hl hspawned (hi.shared.keep hasked hmade) (fun m hm => ?_) hself hkeep hdiff
  rwa [hasked]

/-- The thread hands its script over to the task it spawns. -/
theorem Inv.spawn (hi : Inv h c) (hl : c.threads[i]? = some l) {m : Pc} (hspawned : o.spawned = [m])
    (hscripts : o.shared.scripts = c.shared.scripts) (hdatabases : o.shared.databases = c.shared.databases)
    (hasked : o.shared.asked = c.shared.asked) (hthread : o.thread.script = none)
    (hloc : Local h o.shared.asked o.thread) (hnew : Local h o.shared.asked m)
    (hscript : ∀ a ∈ m.script, a ∈ l.script) : Inv h (c.after i o) := by
  have hnone : ∀ m, ScriptsDiffer h o.thread m := by
    intro m a ha
    rw [hthread] at ha
    cases ha
  have hself : ThreadInv h o.shared i o.thread := by
    refine ⟨hloc, ?_⟩
    rw [hthread]
    exact noScript
  have hothers : ∀ j m', j ≠ i → c.threads[j]? = some m' → ThreadInv h o.shared j m' := by
    intro j m' _ hm'
    refine ⟨?_, ?_⟩
    · rw [hasked]
      exact (hi.threads j m' hm').known
    · rw [hscripts]
      exact (hi.threads j m' hm').script
  have htask : ∀ j, ThreadInv h o.shared j m := by
    intro j
    refine ⟨hnew, fun a ha => ?_⟩
    rw [hscripts]
    exact (hi.threads i l hl).script a (hscript a ha)
  have hapart : ∀ j k, j ≠ i → c.threads[j]? = some k → ScriptsDiffer h k m := by
    intro j k hj hk a ha b hb
    exact hi.pairs j i k l hj hk hl a ha b (hscript b hb)
  have hmade : ∀ x q, o.shared.databases x = some (.madeFor q) → c.shared.databases x = some (.madeFor q) := by
    intro x q hx
    rwa [hdatabases] at hx
  refine Modular.thread hi (fun _ _ => ScriptsDiffer.symm) hl (hi.shared.keep hasked hmade) hself hothers ?_
    (fun _ m' _ _ => hnone m') ?_ ?_
  · intro j m' hm' _
    rw [hspawned, List.mem_singleton] at hm'
    exact hm' ▸ htask j
  · intro m' hm'
    rw [hspawned, List.mem_singleton] at hm'
    exact hm' ▸ ⟨hnone m, hapart⟩
  · rw [hspawned]
    exact List.pairwise_singleton _ m

/-- At a write no other thread has a script at that place. -/
theorem free_of_separate {call : Call} (hl : c.threads[i]? = some l) (hC : separate h c (.thread i e) = true)
    (hw : writes h l e.2 = some call) {m : Pc} (hm : m ∈ c.threads) {a : Call} (ha : a ∈ m.script) :
    h.place (scriptPath a.req.path) ≠ h.place (scriptPath call.req.path) := by
  cases l with
  | writeScript =>
    simp only [separate, hl, hw, Option.all_some, Bool.and_eq_true, List.all_eq_true] at hC
    have := hC.1 m hm
    rw [Option.mem_def.1 ha] at this
    simpa using this
  | _ => cases hw

/-- No thread has its script at the place of a log. -/
theorem log_of_separate {log : String} (hl : c.threads[i]? = some l) (hC : separate h c (.thread i e) = true)
    (hlogs : logs l e.2 = some log) {m : Pc} (hm : m ∈ c.threads) {a : Call} (ha : a ∈ m.script) :
    h.place (scriptPath a.req.path) ≠ h.place log := by
  cases l with
  | task =>
    simp only [separate, hl, hlogs, Option.all_some, Bool.and_eq_true, List.all_eq_true] at hC
    have := hC.2 m hm
    rw [Option.mem_def.1 ha] at this
    simpa using this
  | _ => cases hlogs

theorem Inv.step (hi : Inv h c) (hl : c.threads[i]? = some l) (hC : separate h c (.thread i e) = true)
    (he : exec h c.shared i l e = some o) : Inv h (c.after i o) := by
  obtain ⟨heffect, hloc, hlocs⟩ := exec_step (hi.threads i l hl).known he
  cases heffect with
  | quiet scripts databases asked script spawned =>
    refine hi.same hl spawned (hi.shared.keep asked fun x q => databases x _) (fun m hm => ?_) hloc scripts script
    rwa [asked]
  | ask call version hcall valid ho =>
    subst hcall ho
    have hapart : ∀ q ∈ c.shared.asked, Apart h call.req.path q := by
      simpa [separate, hl, valid] using hC
    exact hi.same hl rfl (hi.shared.ask hapart) (fun m hm => hm.cons _) hloc rfl noScript
  | write call text hw hnone shared script spawned =>
    have hfree := fun {m} hm {a} => free_of_separate (m := m) (a := a) hl hC hw hm
    refine hi.rescript hl spawned (by rw [shared]; rfl) (fun x q hx => ?_) ⟨hloc, fun a ha => ?_⟩
      (fun j m hj hm a ha => ?_) (fun j m hj hm a ha b hb => ?_)
    · rwa [shared] at hx
    · obtain ⟨rfl, rfl⟩ := script a ha
      rw [shared, Shared.writeScript_self]
    · rw [shared, Shared.writeScript_ne _ _ _ (hfree (List.mem_of_getElem? hm) ha)]
    · obtain ⟨rfl, -⟩ := script a ha
      exact (hfree (List.mem_of_getElem? hm) hb).symm
  | spawn files thread m spawned script =>
    obtain ⟨hscripts, hdatabases, hasked⟩ := files
    exact hi.spawn hl spawned hscripts hdatabases hasked thread hloc (hlocs m (by rw [spawned]; exact List.mem_cons_self))
      script
  | make call direct kind shared script spawned =>
    obtain ⟨hp, hd⟩ := (hi.threads i l hl).known.kind kind
    refine hi.same hl spawned ?_ ?_ hloc ?_ script
    · rw [shared]
      exact hi.shared.make hp hd
    · rw [shared]
      exact fun m hm => hm
    · rw [shared]
      rfl
  | log path text hlogs shared thread spawned =>
    have hfree : ∀ {m}, m ∈ c.threads → ∀ a ∈ m.script,
        o.shared.scripts (h.place (scriptPath a.req.path)) = c.shared.scripts (h.place (scriptPath a.req.path)) := by
      intro m hm a ha
      rw [shared, Shared.writeLog_scripts_ne _ _ _ (log_of_separate hl hC hlogs hm ha)]
    refine hi.rescript hl spawned (by rw [shared]; rfl) (fun x q hx => ?_) ⟨hloc, fun a ha => ?_⟩
      (fun j m _ hm => hfree (List.mem_of_getElem? hm)) (fun j m hj hm => ?_)
    · rw [shared] at hx
      exact Shared.writeLog_databases _ _ hx
    · rw [thread] at ha
      rw [hfree (List.mem_of_getElem? hl) a ha]
      exact (hi.threads i l hl).script a ha
    · rw [thread]
      exact hi.pairs i j l m hj.symm hl hm
  | clean call hcall shared thread spawned =>
    refine hi.rescript hl spawned (by rw [shared]; rfl) (fun x q hx => ?_) ⟨hloc, ?_⟩ (fun j m hj hm a ha => ?_)
      (fun j m hj hm a ha => ?_)
    · rwa [shared] at hx
    · rw [thread]
      exact noScript
    · rw [shared, Shared.writeScript_ne _ _ _ (hi.pairs j i m l hj hm hl a ha call hcall)]
    · rw [thread] at ha
      cases ha

theorem Inv.env (hi : Inv h c) {x : Env} {r : Shared × List Pc} (he : env h c x = some r) :
    Inv h ⟨r.1, c.threads ++ r.2⟩ := by
  cases x with
  | openDsc call =>
    obtain rfl := Option.some.inj he
    refine Modular.env hi (fun _ _ => ScriptsDiffer.symm) hi.shared hi.threads ?_ ?_ (List.pairwise_singleton _ _)
    · intro j m hm _
      rw [List.mem_singleton.1 hm]
      exact ⟨trivial, noScript⟩
    · intro m hm m' _ a _ b hb
      rw [List.mem_singleton.1 hm] at hb
      cases hb
  | user path present =>
    obtain rfl := Option.some.inj he
    refine Modular.env hi (fun _ _ => ScriptsDiffer.symm) (hi.shared.keep rfl fun x q hx => ?_) ?_ ?_ ?_ .nil
    · by_cases hplace : x = h.place path
      · rw [hplace, Shared.setDatabase_self] at hx
        split at hx <;> cases hx
      · rwa [Shared.setDatabase_ne _ _ _ hplace] at hx
    · exact fun j m hm => ⟨(hi.threads j m hm).known, (hi.threads j m hm).script⟩
    · simp
    · simp
  | registry now op =>
    obtain rfl := Option.some.inj he
    refine Modular.env hi (fun _ _ => ScriptsDiffer.symm) ⟨hi.shared.made, hi.shared.apart⟩ ?_ ?_ ?_ .nil
    · exact fun j m hm => ⟨(hi.threads j m hm).known, (hi.threads j m hm).script⟩
    · simp
    · simp

theorem inv_of_reachable (hr : (program h).Reachable Init (fun c a => separate h c a) c) : Inv h c := by
  refine hr.induct (I := Inv h) (fun c h0 => ?_) (fun c c' a _ hi hC hstep => ?_)
  · refine ⟨⟨fun x q hx => (h0.databases x q hx).elim, ?_⟩, ?_, ?_⟩
    · simp [h0.asked]
    · simp [h0.threads]
    · simp [h0.threads]
  · cases a with
    | env x =>
      obtain ⟨r, hr, rfl⟩ := step_env_iff.1 hstep
      exact hi.env hr
    | thread i e =>
      obtain ⟨l, o, hl, ho, rfl⟩ := step_thread_iff.1 hstep
      exact hi.step hl hC ho

end

/-- A thread creates or reuses the sibling or, with a direct open, the cache database of its own cache. -/
theorem Local.database {asked : List String} {l : Pc} {call : Call} {i64 : String} (hloc : Local h asked l)
    (hd : l.database h = some (call, i64)) :
    call.req.path ∈ asked ∧
      (i64 = outI64 call.req.path ∨ h.direct = true ∧ i64 = h.directDscCacheI64Path call.req.path) := by
  have hkind {call : Call} {direct : Bool} (hk : l.kind = some (call, direct)) :
      call.req.path ∈ asked ∧ ((if direct then h.directDscCacheI64Path call.req.path else outI64 call.req.path) =
        outI64 call.req.path ∨ h.direct = true ∧
        (if direct then h.directDscCacheI64Path call.req.path else outI64 call.req.path) =
          h.directDscCacheI64Path call.req.path) := by
    obtain ⟨hp, hdirect⟩ := hloc.kind hk
    cases direct with
    | true => exact ⟨hp, .inr ⟨hdirect.symm, if_pos rfl⟩⟩
    | false => exact ⟨hp, .inl (if_neg Bool.false_ne_true)⟩
  cases l with
  | reuse =>
    obtain ⟨rfl, rfl⟩ := Prod.mk.inj (Option.some.inj hd)
    exact hloc
  | cleanup =>
    obtain ⟨rfl, rfl⟩ := Prod.mk.inj (Option.some.inj hd)
    exact ⟨hloc.1, .inl rfl⟩
  | task | opening =>
    obtain ⟨rfl, rfl⟩ := Prod.mk.inj (Option.some.inj hd)
    exact hkind rfl
  | _ => cases hd

/-- The database that a thread creates or reuses was not created for another cache. -/
theorem Inv.database {c : Conf Shared Pc} (hi : Inv h c) (hh : h.Lawful) (hash : HashInjective h c.shared.asked)
    {m : Pc} (hm : m ∈ c.threads) {call : Call} {i64 : String} (hd : m.database h = some (call, i64)) {q : String}
    (hq : c.shared.databases (h.place i64) = some (.madeFor q)) : q = h.place call.req.path := by
  obtain ⟨j, hj⟩ := List.mem_iff_getElem?.1 hm
  obtain ⟨hp, hi64⟩ := (hi.threads j m hj).known.database hd
  obtain ⟨p, hpasked, rfl, hplace⟩ := hi.shared.made _ _ hq
  by_contra hne
  obtain ⟨-, hapart⟩ := hi.shared.apart p hpasked call.req.path hp hne
  rcases hi64 with hi64 | ⟨hdirect, hi64⟩
  · rw [hi64] at hplace
    exact hapart hplace
  · rw [hi64, Host.createdI64, if_pos hdirect] at hplace
    exact hne (place_of_cache hh hash hp hpasked hplace).symm

/-- In every run in which a script is only written where no other call or task has one, a log where none has, and the
caches asked for have their databases apart: a task whose idat has not settled finds the text of its own call in the
script it is told to run, no step of another thread changes that, and no database that is created or reused for a cache
was created for another. -/
theorem dsc_files_separate (hh : h.Lawful) {c : Conf Shared Pc}
    (hr : (program h).Reachable Init (fun c a => separate h c a) c) (hash : HashInjective h c.shared.asked) :
    (∀ job pc, .task false job pc ∈ c.threads → guarded pc = true →
      ∃ path, idatOption 'S' (job.call.req.idatArgs job.idaVersion) = some path ∧
        c.shared.scripts (h.place path) =
          some (dscLoadScript job.call.req.module (job.call.req.frameworks.getD []))) ∧
    (∀ i j e c' job pc, separate h c (.thread i e) = true → (program h).step c (.thread i e) = some c' → j ≠ i →
      c.threads[j]? = some (.task false job pc) → guarded pc = true →
      c'.shared.scripts (h.place (scriptPath job.call.req.path)) =
        c.shared.scripts (h.place (scriptPath job.call.req.path))) ∧
    ∀ m ∈ c.threads, ∀ call i64, m.database h = some (call, i64) →
      ∀ q, c.shared.databases (h.place i64) = some (.madeFor q) → q = h.place call.req.path := by
  have hscript {c : Conf Shared Pc} (hi : Inv h c) {j : Nat} {job : Job} {pc : DscTask.Pc}
      (hj : c.threads[j]? = some (.task false job pc)) (hg : guarded pc = true) :
      c.shared.scripts (h.place (scriptPath job.call.req.path)) = some job.call.req.script :=
    (hi.threads j _ hj).script job.call (if_pos hg)
  have hi := inv_of_reachable hr
  refine ⟨fun job pc hm hg => ?_, fun i j e c' job pc hC hstep hj hm hg => ?_, fun m hm call i64 hd q hq => ?_⟩
  · obtain ⟨j, hj⟩ := List.mem_iff_getElem?.1 hm
    exact ⟨_, idatOption_script _ _, hscript hi hj hg⟩
  · have hi' := inv_of_reachable (.step hr hC hstep)
    obtain ⟨l, o, hl, ho, rfl⟩ := step_thread_iff.1 hstep
    rw [hscript hi' (Conf.after_get_other hj hm) hg, hscript hi hm hg]
  · exact hi.database hh hash hm hd hq

end

/-- IDA 9.3 on a disk without links, with every file there. -/
def idatHost : Host where
  sdkVersion := (9, 3)
  home := none
  isFile _ := true
  findIdat := .ok "/opt/ida/idat"
  place := id
  canonicalize := some
  hash path := path.toList.foldl (fun n c => 31 * n + c.toNat.toUInt64) 7
  tempDir := "/tmp"

theorem idatHost_place (path : String) : idatHost.place path = path := rfl

theorem idatHost_lawful : idatHost.Lawful := by
  constructor
  · intro p a ha
    obtain rfl := Option.some.inj ha
    rfl
  · intro p q heq
    rwa [idatHost_place, idatHost_place] at heq

def callFor (path module : String) (token : Nat) : Call :=
  ⟨{ path, arch := "arm64e", module }, .session "a", token⟩

def loggingTo (log : String) (call : Call) : Call := { call with req := { call.req with logPath := some log } }

def newServer : Conf Shared Pc := ⟨{}, []⟩

theorem newServer_init : Init newServer := ⟨rfl, rfl, nofun⟩

def moves (i : Nat) (es : List Event) : List (Act ((Nat → Moment) × Event) Env) := es.map fun e => .thread i (still, e)

/-- The call of thread `i` goes on until its task is started. -/
def starts (i : Nat) (uuid : String) : List (Act ((Nat → Moment) × Event) Env) :=
  moves i [.go, .go, .go, .create uuid]

/-- A task starts idat, which writes its output. -/
def idatRuns (i : Nat) : List (Act ((Nat → Moment) × Event) Env) := moves i [.task .go, .task .go, .idatWrites]

/-- A task sees its idat exit and opens the output. -/
def idatExits (i : Nat) : List (Act ((Nat → Moment) × Event) Env) :=
  moves i [.task (.exited (some 0) ""), .task .go, .go, .task (.output true none), .opened false]

def isWaiting (c : Conf Shared Pc) (text : Option String → Bool) : Bool :=
  c.threads.any fun
    | .task false job .idatWait => text (c.shared.scripts (scriptPath job.call.req.path))
    | _ => false

/-- Two calls, of which the first names a log: each idat has its own script. -/
theorem dsc_files_separate_two :
    ∃ c, (program idatHost).Reachable Init (fun c a => separate idatHost c a) c ∧
      HashInjective idatHost c.shared.asked ∧
      ∃ job, .task false job .idatWait ∈ c.threads ∧
        c.shared.scripts (scriptPath job.call.req.path) =
          some (dscLoadScript job.call.req.module (job.call.req.frameworks.getD [])) := by
  obtain ⟨c, hr, hash, hwait⟩ := Program.Reachable.of_runIf_any (P := program idatHost)
    (C := fun c a => separate idatHost c a)
    (r := [Act.env (.openDsc (loggingTo "/d/idat.log" (callFor "/d/dsc" "/usr/lib/libobjc.A.dylib" 7))),
      Act.env (.openDsc (callFor "/e/dsc" "/usr/lib/libSystem.B.dylib" 8))] ++
        starts 0 "1" ++ idatRuns 2 ++ starts 1 "2" ++ moves 2 [.idatLogs "loading"] ++ idatRuns 3)
    (p := fun c => HashInjective idatHost c.shared.asked ∧ isWaiting c fun _ => true) newServer_init
    (by decide +kernel)
  obtain ⟨m, hm, hjob⟩ := List.any_eq_true.1 hwait
  split at hjob
  · rename_i job
    obtain ⟨path, hpath, htext⟩ := (dsc_files_separate idatHost_lawful hr hash).1 job .idatWait hm rfl
    rw [idatOption_script] at hpath
    obtain rfl := Option.some.inj hpath
    exact ⟨c, hr, hash, job, hm, htext⟩
  · cases hjob

/-- Two caches in one directory share a script: the clean-up of the first task removes it while the idat of the second
runs. A log may be the script of another task. Two caches whose names differ in their extension share a database: the
second call reuses that of the first. -/
theorem dsc_files_shared :
    (∃ c, (program idatHost).Reachable Init Program.Free c ∧ HashInjective idatHost c.shared.asked ∧
      ∃ job, .task false job .idatWait ∈ c.threads ∧ c.shared.scripts (scriptPath job.call.req.path) = none) ∧
    (∃ c, (program idatHost).Reachable Init Program.Free c ∧ HashInjective idatHost c.shared.asked ∧
      ∃ job, .task false job .idatWait ∈ c.threads ∧
        c.shared.scripts (scriptPath job.call.req.path) = some "loading") ∧
    ∃ c, (program idatHost).Reachable Init Program.Free c ∧ HashInjective idatHost c.shared.asked ∧
      ∃ call existing q, .reuse call existing ∈ c.threads ∧ c.shared.databases existing = some (.madeFor q) ∧
        q ≠ call.req.path := by
  refine ⟨?_, ?_, ?_⟩
  · obtain ⟨c, hr, hash, hwait⟩ := Program.Reachable.of_run_any (P := program idatHost)
      (r := [Act.env (.openDsc (callFor "/d/a" "/usr/lib/libobjc.A.dylib" 7)),
        Act.env (.openDsc (callFor "/d/b" "/usr/lib/libSystem.B.dylib" 8))] ++
          starts 0 "1" ++ idatRuns 2 ++ starts 1 "2" ++ idatRuns 3 ++ idatExits 2)
      (p := fun c => HashInjective idatHost c.shared.asked ∧ isWaiting c Option.isNone) newServer_init
      (by decide +kernel)
    obtain ⟨m, hm, hjob⟩ := List.any_eq_true.1 hwait
    split at hjob
    · rename_i job
      exact ⟨c, hr, hash, job, hm, Option.isNone_iff_eq_none.1 hjob⟩
    · cases hjob
  · obtain ⟨c, hr, hash, hwait⟩ := Program.Reachable.of_run_any (P := program idatHost)
      (r := [Act.env (.openDsc (loggingTo "/e/ida_mcp_dsc_load.py" (callFor "/d/dsc" "/usr/lib/libobjc.A.dylib" 7))),
        Act.env (.openDsc (callFor "/e/dsc" "/usr/lib/libSystem.B.dylib" 8))] ++
          starts 0 "1" ++ idatRuns 2 ++ starts 1 "2" ++ idatRuns 3 ++ moves 2 [.idatLogs "loading"])
      (p := fun c => HashInjective idatHost c.shared.asked ∧ isWaiting c (· == some "loading")) newServer_init
      (by decide +kernel)
    obtain ⟨m, hm, hjob⟩ := List.any_eq_true.1 hwait
    split at hjob
    · rename_i job
      exact ⟨c, hr, hash, job, hm, eq_of_beq hjob⟩
    · cases hjob
  · obtain ⟨c, hr, hash, hreuse⟩ := Program.Reachable.of_run_any (P := program idatHost)
      (r := [Act.env (.openDsc (callFor "/d/dsc.a" "/usr/lib/libobjc.A.dylib" 7)),
        Act.env (.openDsc (callFor "/d/dsc.b" "/usr/lib/libobjc.A.dylib" 8))] ++
          starts 0 "1" ++ idatRuns 2 ++ idatExits 2 ++ moves 1 [.go, .go])
      (p := fun c => HashInjective idatHost c.shared.asked ∧ c.threads.any fun
        | .reuse call existing => decide (c.shared.databases existing = some (.madeFor "/d/dsc.a") ∧
            "/d/dsc.a" ≠ call.req.path)
        | _ => false) newServer_init (by decide +kernel)
    obtain ⟨m, hm, hcall⟩ := List.any_eq_true.1 hreuse
    split at hcall
    · rename_i call existing
      obtain ⟨hmade, hne⟩ := of_decide_eq_true hcall
      exact ⟨c, hr, hash, call, existing, _, hm, hmade, hne⟩
    · cases hcall

end DscFiles

end IdaRs
