import IdaRs.Backend
import IdaRs.OpenCancel

/-!
# The worker loop (`run_ida_loop` of `src/ida/loop_impl.rs`, `handle_open` of `src/ida/handlers/database.rs`)

The loop with all its variables and all its requests: each request passes the deferred initialization and the version
check before it is dispatched. What the disk, IDA, the cancel token of the request and a handler make of it comes
with the request (`Turn`), and an answer is what is sent on the request's channel. A handler that panics takes the
loop down: under `crash_guarded` the process aborts, in the other arms `run_ida_loop` unwinds.

`Idb.serial` tells the databases apart that IDA opened. Progress messages, the stale lock files that `force` removes
and the arguments that only IDA reads are left out.
-/

namespace IdaRs.IdaLoop

open OpenCancel (cancelledError dsymExpectedPathForBinary dsymPathForBinary)

/-- An open database: the path it reports, and which of the opens made it. -/
structure Idb where
  path : String
  serial : Nat
deriving DecidableEq, Repr

structure DebugInfoLoad where
  path : String
  loaded : Bool
  error : Option String
deriving DecidableEq, Repr

/-- What `build_db_info` says of a database; its other fields are IDA's. -/
structure DbInfo where
  db : Idb
  path : String
  debugInfo : Option DebugInfoLoad
deriving DecidableEq, Repr

structure OpenedDatabase where
  info : DbInfo
  generation : Nat
deriving DecidableEq, Repr

structure OpenArgs where
  path : String
  loadDebugInfo : Bool := false
  debugInfoPath : Option String := none
  rebuild : Bool := false
  idbOut : Option String := none

inductive IdaRequest
  | openIdb (args : OpenArgs)
  | close
  | closeIfGeneration (generation : Nat)
  | analysisStatus (expectedGeneration : Option Nat)
  | dscLoadImage (module : String) (expectedGeneration : Option Nat)
  | dscLoadRegion (addr : Nat)
  | analyzeFuncs
  | runScript (code : String)
  /-- The requests that are only handed to their handler. -/
  | handled (req : Backend.IdaRequest)
  | shutdown

/-- Whether `cancel_token` can give one. -/
def IdaRequest.cancellable : IdaRequest → Bool
  | .openIdb _ | .analyzeFuncs | .runScript _ => true
  | _ => false

/-- The generation that the request is bound to. -/
def IdaRequest.expected : IdaRequest → Option Nat
  | .analysisStatus expected | .dscLoadImage _ expected => expected
  | _ => none

inductive Response (V : Type)
  | opened (r : Except ToolError OpenedDatabase)
  | closed
  | conditional (r : Except ToolError ConditionalCloseResult)
  /-- The handler was not run. -/
  | refused (e : ToolError)
  /-- The handler was run on `idb`. -/
  | ran (idb : Option Idb) (r : Except ToolError V)
deriving DecidableEq

/-- Where the token of a request is looked at. -/
inductive CancelPoint
  | beforeInit
  | arm
  | openStart
  | opened
  | debugInfo
  | openEnd
deriving DecidableEq, Repr

/-- What the disk and IDA make of an open. -/
structure OpenEvents where
  files : Files
  acquireMcpLock : Except ToolError Unit
  /-- IDA opens a path: the path the database reports. -/
  openDatabase : String → Except String String
  detectDbLock : String → Option String
  loadDebugInfo : String → Except String Bool

/-- A request with what happens while it is served. -/
structure Turn (V : Type) where
  req : IdaRequest
  cancelled : CancelPoint → Bool
  /-- `init_ida_library_with_isolated_idausr`: the version mismatch it found. -/
  init : Except String (Option String)
  events : OpenEvents
  /-- The handler of the request; `none` when it panics. -/
  handler : Option Idb → Option (Except ToolError V)

/-- The variables of the loop. -/
structure LoopVars where
  idb : Option Idb := none
  databaseGeneration : Option Nat := none
  nextDatabaseGeneration : Nat := 0
  /-- The path of the file that is open and locked. -/
  lockFile : Option String := none
  lockPath : Option String := none
  libInitialized : Bool
  versionMismatch : Option String
  /-- How many databases IDA has opened. -/
  serial : Nat := 0
deriving DecidableEq, Repr

/-! ## `handle_open` -/

def nonEmptyTrimmed (value : Option String) : Option String :=
  (value.map fun v => String.ofList (trim v.toList)).filter (· ≠ "")

def baseInputPathForDatabase (path : String) : String :=
  if extensionIs path "i64" || extensionIs path "idb" || extensionIs path "id0" then Path.setExtension path ""
  else path

/-- What `handle_open` settles before it takes the lock. -/
structure OpenPlan where
  lockTarget : String
  /-- The database to open, unless the raw binary is opened. -/
  existing : Option String
  dsym : Option String

def planOpen (files : Files) (a : OpenArgs) : OpenPlan :=
  let expanded := expandPath files a.path
  if isIdbPath expanded then { lockTarget := expanded, existing := some expanded, dsym := none }
  else
    let outPath := (a.idbOut.map (expandPath files)).getD (idbPathForRawBinary expanded)
    -- `existing_idb_for_raw_open`
    let generated := if files.exists? outPath then some outPath else none
    { lockTarget := outPath
      existing := generated.filter fun _ => !a.rebuild
      dsym := if generated.isSome then none else dsymPathForBinary files expanded }

/-- The database IDA opened, and the path it was opened as. -/
def openDatabase (ev : OpenEvents) (expanded : String) (plan : OpenPlan) : Except String String × String :=
  match plan.existing with
  | none => (ev.openDatabase expanded, plan.lockTarget)
  | some path =>
    match ev.openDatabase path with
    | .ok db => (.ok db, path)
    | .error e =>
      match (unpackedId0Path path).filter ev.files.exists? with
      | some id0 => (ev.openDatabase id0, id0)
      | none => (.error e, path)

/-- The debug information that was asked for. -/
def loadDebugInfo (ev : OpenEvents) (expanded : String) (a : OpenArgs) : Option DebugInfoLoad :=
  let resolved :=
    match nonEmptyTrimmed a.debugInfoPath with
    | some path => some path
    | none =>
      dsymExpectedPathForBinary (if isIdbPath expanded then baseInputPathForDatabase expanded else expanded)
  resolved.map fun path =>
    if ev.files.exists? path then
      match ev.loadDebugInfo path with
      | .ok true => ⟨path, true, none⟩
      | .ok false => ⟨path, false, some "load returned false"⟩
      | .error e => ⟨path, false, some e⟩
    else ⟨path, false, some "debug info not found"⟩

namespace LoopVars

variable {V : Type}

/-- `release_mcp_lock`. -/
def releaseMcpLock (v : LoopVars) : LoopVars := { v with lockFile := none, lockPath := none }

/-- The part of `handle_open` after IDA opened `db`; on the way out the database and the lock are dropped. -/
def finishOpen (v : LoopVars) (a : OpenArgs) (cancelled : CancelPoint → Bool) (ev : OpenEvents) (plan : OpenPlan)
    (db : Idb) (openedPath : String) : LoopVars × Except ToolError DbInfo :=
  let expanded := expandPath ev.files a.path
  if cancelled .opened then (v, .error cancelledError)
  else if (a.loadDebugInfo || plan.dsym.isSome) && cancelled .debugInfo then (v, .error cancelledError)
  else
    let debugInfo := if a.loadDebugInfo then loadDebugInfo ev expanded a else none
    if cancelled .openEnd then (v, .error cancelledError)
    else
      let lock := Lock.lockPath plan.lockTarget
      ({ v with idb := some db, lockFile := some lock, lockPath := some lock }, .ok ⟨db, openedPath, debugInfo⟩)

def handleOpen (v : LoopVars) (a : OpenArgs) (cancelled : CancelPoint → Bool) (ev : OpenEvents) :
    LoopVars × Except ToolError DbInfo :=
  let expanded := expandPath ev.files a.path
  if cancelled .openStart then (v, .error cancelledError)
  else
    match v.idb with
    | some db =>
      if databasePathsMatch db.path expanded then (v, .ok ⟨db, db.path, none⟩)
      else (v, .error (.databaseAlreadyOpen db.path))
    | none =>
      if ev.files.exists? expanded = false then (v, .error (.invalidPath ("File not found: " ++ expanded)))
      else
        let plan := planOpen ev.files a
        match ev.acquireMcpLock with
        | .error e => (v, .error e)
        | .ok _ =>
          match openDatabase ev expanded plan with
          -- `release_mcp_lock_file`
          | (.error e, openedPath) =>
            match (ev.detectDbLock openedPath).or (ev.detectDbLock expanded) with
            | some lockMsg => (v, .error (.databaseLocked lockMsg))
            | none => (v, .error (.openFailed (openedPath ++ ": " ++ e)))
          | (.ok path, openedPath) =>
            finishOpen { v with serial := v.serial + 1 } a cancelled ev plan ⟨path, v.serial⟩ openedPath

/-! ## The arms of the loop -/

/-- `IdaRequest::Open`. -/
def serveOpen (v : LoopVars) (a : OpenArgs) (cancelled : CancelPoint → Bool) (ev : OpenEvents) :
    LoopVars × Except ToolError OpenedDatabase :=
  let hadOpenDatabase := v.idb.isSome
  match v.handleOpen a cancelled ev with
  | (v, .error e) => (v, .error e)
  | (v, .ok info) =>
    match if hadOpenDatabase then v.databaseGeneration else none with
    | some generation => (v, .ok ⟨info, generation⟩)
    | none =>
      if v.nextDatabaseGeneration + 1 < 2 ^ 64 then
        let next := v.nextDatabaseGeneration + 1
        ({ v with nextDatabaseGeneration := next, databaseGeneration := some next }, .ok ⟨info, next⟩)
      else
        ({ v with idb := none }.releaseMcpLock, .error (.idaError "database generation counter exhausted"))

/-- `IdaRequest::Close`. -/
def serveClose (v : LoopVars) : LoopVars := { v with idb := none, databaseGeneration := none }.releaseMcpLock

def shutdownCleanup (v : LoopVars) : LoopVars := { v with idb := none }.releaseMcpLock

end LoopVars

def requireGeneration (expected current : Option Nat) : Except ToolError Unit :=
  match expected with
  | none => .ok ()
  | some expected => if current = some expected then .ok () else .error .databaseReplaced

section

variable {V : Type}

/-- What `reject_with_error` sends. -/
def rejectWithError (e : ToolError) : IdaRequest → List (Response V)
  | .shutdown => []
  | .close => [.closed]
  | .closeIfGeneration _ => [.conditional (.error e)]
  | .openIdb _ => [.opened (.error e)]
  | _ => [.refused e]

/-- How the loop goes on after a request. -/
inductive Flow
  | goesOn
  /-- It breaks. -/
  | breaks
  /-- A handler panicked. -/
  | panics
deriving DecidableEq, Repr

/-- The variables after a request, what was sent on its channel, and how the loop goes on. -/
abbrev Served (V : Type) := LoopVars × List (Response V) × Flow

/-- A handler is run on the database. -/
def runHandler (v : LoopVars) (t : Turn V) : Served V :=
  match t.handler v.idb with
  | some r => (v, [.ran v.idb r], .goesOn)
  | none => (v, [], .panics)

def dispatch (v : LoopVars) (t : Turn V) : Served V :=
  match t.req with
  | .openIdb a =>
    if t.cancelled .arm then (v, [.opened (.error cancelledError)], .goesOn)
    else
      let (v, r) := v.serveOpen a t.cancelled t.events
      (v, [.opened r], .goesOn)
  | .close => (v.serveClose, [.closed], .goesOn)
  | .closeIfGeneration generation =>
    if v.databaseGeneration = some generation then (v.serveClose, [.conditional (.ok .closed)], .goesOn)
    else (v, [.conditional (.ok .notCurrent)], .goesOn)
  | .analysisStatus expected | .dscLoadImage _ expected =>
    match requireGeneration expected v.databaseGeneration with
    | .error e => (v, [.refused e], .goesOn)
    | .ok _ => runHandler v t
  | .analyzeFuncs | .runScript _ =>
    if t.cancelled .arm then (v, [.refused cancelledError], .goesOn) else runHandler v t
  | .dscLoadRegion _ | .handled _ => runHandler v t
  | .shutdown => (v.shutdownCleanup, [], .breaks)

def versionGate (v : LoopVars) (t : Turn V) : Served V :=
  match v.versionMismatch with
  | some msg =>
    match t.req with
    | .shutdown => (v.shutdownCleanup, [], .breaks)
    | other => (v, rejectWithError (.sdkVersionMismatch msg) other, .goesOn)
  | none => dispatch v t

def initErrorText (err : String) : String := "failed to initialize IDA on the main thread: " ++ err

/-- One turn of the loop. -/
def serve (v : LoopVars) (t : Turn V) : Served V :=
  if v.libInitialized then versionGate v t
  else if t.req.cancellable && t.cancelled .beforeInit then (v, rejectWithError cancelledError t.req, .goesOn)
  else
    match t.init with
    | .ok mismatch => versionGate { v with libInitialized := true, versionMismatch := mismatch } t
    | .error err => (v, rejectWithError (.idaError (initErrorText err)) t.req, .goesOn)

/-- The loop between two requests, with what it sent for each of them. -/
structure Loop (V : Type) where
  vars : LoopVars
  sent : List (List (Response V)) := []
  flow : Flow := .goesOn

def Loop.stopped (st : Loop V) : Bool := st.flow ≠ .goesOn

def Loop.next (st : Loop V) (t : Turn V) : Loop V :=
  let (vars, responses, flow) := serve st.vars t
  { vars, sent := st.sent ++ [responses], flow }

/-- The loop with the requests of its channel: where it is when it ended or they are used up, and what is left. -/
def runIdaLoop (st : Loop V) : List (Turn V) → Loop V × List (Turn V)
  | [] => (st, [])
  | t :: ts => if (st.next t).stopped then (st.next t, ts) else runIdaLoop (st.next t) ts

/-- The loop as it starts. -/
def startLoop (libInitialized : Bool) (versionMismatch : Option String) : Loop V :=
  { vars := { libInitialized, versionMismatch } }

end

end IdaRs.IdaLoop
