import IdaRs.Lib.Threads
import IdaRs.Lock
import IdaRs.WorkerLoop

/-!
# A cancellable `open_idb` (`src/server/mod.rs`, `src/ida/loop_impl.rs`, `src/ida/handlers/database.rs`)

Two threads: the handler of one `open_idb` in the single-worker server (`run_foreground_operation` and
`finish_cancelled_foreground`) and the worker loop with the `Open` it is sent. The handler's `select!` is biased:
it polls the answer, then the client's cancellation, then the timer, and the loop may go on between any two of
these polls. The loop goes from one `ensure_not_cancelled` or one effect to the next. Requests of other clients
may be served before this one; those that open or close a database are left out here.

What IDA and the file system make of a call is the event. Stale lock files, the progress messages, the debug
information of the answer and the arguments that only IDA reads are left out.
-/

namespace IdaRs.OpenCancel

open Threads

/-- The arguments of the request that the loop decides on. -/
structure OpenRequest where
  path : String
  loadDebugInfo : Bool
  idbOut : Option String
deriving DecidableEq, Repr

/-- What `handle_open` settles before it takes the lock. -/
structure OpenPlan where
  lockTarget : String
  loadDsym : Bool
deriving DecidableEq, Repr

structure Shared where
  request : OpenRequest
  files : Files
  loop : LoopState
  /-- The lock file this process has open and locked. -/
  held : Option String
  /-- `lock_path` of the loop. -/
  lockPath : Option String
  libInitialized : Bool
  versionMismatch : Option String
  /-- The request is in the queue of the loop. -/
  sent : Bool
  response : Option (Except ToolError OpenedDatabase)
  /-- The three things the handler watches besides the answer. -/
  clientCancelled : Bool
  timerFired : Bool
  workerCancel : Bool

/-- Why the handler gave up. -/
inductive GaveUp
  | cancelled
  | timedOut
deriving DecidableEq, Repr

inductive Answer
  | success (db : OpenedDatabase)
  | gaveUp (why : GaveUp)
  | error (e : ToolError)
deriving DecidableEq, Repr

inductive HandlerPc
  | send
  /-- The three branches of `select!`. -/
  | pollResult
  | pollCancel
  | pollTimer
  /-- `finish_cancelled_foreground`. -/
  | cleanup (why : GaveUp)
  | answered (a : Answer)
deriving DecidableEq, Repr

inductive LoopPc
  | idle
  | taken
  | initializing
  | versionGate
  | armCheck
  | openCheck
  | planning
  | acquiring (plan : OpenPlan)
  | opening (plan : OpenPlan)
  | openedCheck (plan : OpenPlan) (db : String)
  | debugCheck (db : String)
  | debugLoad (db : String)
  | lastCheck (db : String)
  | store (db : String)
  /-- The generation of the database; `hadOpen` when it was open before. -/
  | generation (db : String) (hadOpen : Bool)
  | respond (r : Except ToolError OpenedDatabase)
  | done
deriving DecidableEq

inductive Thread
  | handler (pc : HandlerPc)
  | loop (pc : LoopPc)
deriving DecidableEq

inductive Event
  | go
  /-- The queue is full. -/
  | busy
  /-- The clean-up window is over. -/
  | expire
  /-- Another request is served, with the initialization it needed, if that went well. -/
  | other (init : Option (Bool × Option String))
  | initialized (lib : Bool) (mismatch : Option String)
  | initFailed (msg : String)
  | acquired
  /-- IDA opened a database that reports this path. -/
  | opened (db : String)
  | failed (e : ToolError)
deriving DecidableEq

inductive Env
  | clientCancel
  | timer
deriving DecidableEq, Repr

def cancelledError : ToolError := .cancelled "Operation cancelled by client"

/-- The answer of an operation that finished before it was given up. -/
def Answer.finished : Except ToolError OpenedDatabase → Answer
  | .ok db => .success db
  | .error (.cancelled _) => .gaveUp .cancelled
  | .error e => .error e

def dsymExpectedPathForBinary (path : String) : Option String :=
  (Path.fileName path).map fun name =>
    ["Contents", "Resources", "DWARF", name].foldl Path.join (path ++ ".dSYM")

def dsymPathForBinary (files : Files) (path : String) : Option String :=
  (dsymExpectedPathForBinary path).filter files.exists?

/-- `lock_target_path`: the output for a raw binary, the input itself for a database. -/
def lockTarget (files : Files) (req : OpenRequest) : String :=
  let expanded := expandPath files req.path
  if isIdbPath expanded then expanded
  else (req.idbOut.map (expandPath files)).getD (idbPathForRawBinary expanded)

/-- The part of `handle_open` between the check for an open database and the lock. -/
def planOpen (files : Files) (req : OpenRequest) : Except ToolError OpenPlan :=
  let expanded := expandPath files req.path
  if files.exists? expanded then
    .ok { lockTarget := lockTarget files req
          loadDsym := !isIdbPath expanded && !files.exists? (lockTarget files req) &&
            (dsymPathForBinary files expanded).isSome }
  else .error (.invalidPath ("File not found: " ++ expanded))

namespace Shared

/-- `ensure_not_cancelled`; the lock of `handle_open` is dropped on the way out. -/
def ensureNotCancelled (s : Shared) (next : LoopPc) : Shared × LoopPc :=
  if s.workerCancel then ({ s with held := none }, .respond (.error cancelledError)) else (s, next)

/-- `release_mcp_lock`. -/
def releaseMcpLock (s : Shared) : Shared := { s with held := none, lockPath := none }

def setIdb (s : Shared) (idb : Option String) : Shared := { s with loop := { s.loop with idb } }

/-- The next generation for the database; without one it is closed again. -/
def newGeneration (s : Shared) (db : String) : Shared × LoopPc :=
  if s.loop.nextGeneration + 1 < 2 ^ 64 then
    ({ s with loop := { s.loop with
         generation := some (s.loop.nextGeneration + 1), nextGeneration := s.loop.nextGeneration + 1 } },
      .respond (.ok ⟨db, s.loop.nextGeneration + 1⟩))
  else ((s.setIdb none).releaseMcpLock, .respond (.error (.idaError "database generation counter exhausted")))

end Shared

/-- One step of the loop. -/
def loopStep (s : Shared) : LoopPc → Event → Option (Shared × LoopPc)
  | .idle, .other init =>
    if s.libInitialized then some (s, .idle)
    else
      match init with
      | some (lib, mismatch) => some ({ s with libInitialized := lib, versionMismatch := mismatch }, .idle)
      | none => some (s, .idle)
  | .idle, .go => if s.sent then some ({ s with sent := false }, .taken) else none
  | .taken, .go =>
    if s.libInitialized then some (s, .versionGate) else some (s.ensureNotCancelled .initializing)
  | .initializing, .initialized lib mismatch =>
    some ({ s with libInitialized := lib, versionMismatch := mismatch }, .versionGate)
  | .initializing, .initFailed msg =>
    some (s, .respond (.error (.idaError ("failed to initialize IDA on the main thread: " ++ msg))))
  | .versionGate, .go =>
    match s.versionMismatch with
    | some msg => some (s, .respond (.error (.sdkVersionMismatch msg)))
    | none => some (s, .armCheck)
  | .armCheck, .go => some (s.ensureNotCancelled .openCheck)
  | .openCheck, .go => some (s.ensureNotCancelled .planning)
  | .planning, .go =>
    match s.loop.idb with
    | some current =>
      if databasePathsMatch current (expandPath s.files s.request.path) then some (s, .generation current true)
      else some (s, .respond (.error (.databaseAlreadyOpen current)))
    | none =>
      match planOpen s.files s.request with
      | .ok plan => some (s, .acquiring plan)
      | .error e => some (s, .respond (.error e))
  | .acquiring plan, .acquired => some ({ s with held := some (Lock.lockPath plan.lockTarget) }, .opening plan)
  | .acquiring _, .failed e => some (s, .respond (.error e))
  | .opening plan, .opened db => some (s, .openedCheck plan db)
  -- `release_mcp_lock_file`
  | .opening _, .failed e => some ({ s with held := none }, .respond (.error e))
  | .openedCheck plan db, .go =>
    some (s.ensureNotCancelled (if s.request.loadDebugInfo || plan.loadDsym then .debugCheck db else .lastCheck db))
  | .debugCheck db, .go => some (s.ensureNotCancelled (.debugLoad db))
  | .debugLoad db, .go => some (s, .lastCheck db)
  | .lastCheck db, .go => some (s.ensureNotCancelled (.store db))
  | .store db, .go => some ({ s.setIdb (some db) with lockPath := s.held }, .generation db false)
  | .generation db hadOpen, .go =>
    match if hadOpen then s.loop.generation else none with
    | some generation => some (s, .respond (.ok ⟨db, generation⟩))
    | none => some (s.newGeneration db)
  | .respond r, .go => some ({ s with response := some r }, .done)
  | _, _ => none

/-- One step of `run_foreground_operation`. -/
def handlerStep (s : Shared) : HandlerPc → Event → Option (Shared × HandlerPc)
  | .send, .go => some ({ s with sent := true }, .pollResult)
  | .send, .busy => some (s, .answered (.error .busy))
  | .pollResult, .go =>
    match s.response with
    | some r => some (s, .answered (.finished r))
    | none => some (s, .pollCancel)
  | .pollCancel, .go =>
    if s.clientCancelled then some ({ s with workerCancel := true }, .cleanup .cancelled) else some (s, .pollTimer)
  | .pollTimer, .go =>
    if s.timerFired then some ({ s with workerCancel := true }, .cleanup .timedOut) else some (s, .pollResult)
  -- the result is dropped
  | .cleanup why, .go => if s.response.isSome then some (s, .answered (.gaveUp why)) else none
  | .cleanup why, .expire => some (s, .answered (.gaveUp why))
  | _, _ => none

def exec (s : Shared) (_ : Nat) : Thread → Event → Option (Outcome Shared Thread)
  | .handler pc, e => (handlerStep s pc e).map fun (s', pc') => { shared := s', thread := .handler pc' }
  | .loop pc, e => (loopStep s pc e).map fun (s', pc') => { shared := s', thread := .loop pc' }

def env (c : Conf Shared Thread) : Env → Option (Shared × List Thread)
  | .clientCancel => some ({ c.shared with clientCancelled := true }, [])
  | .timer => some ({ c.shared with timerFired := true }, [])

def program : Program Shared Thread Event Env := ⟨exec, env⟩

/-- `open_idb` is called while no database is open. -/
structure Init (c : Conf Shared Thread) : Prop where
  threads : c.threads = [.handler .send, .loop .idle]
  idb : c.shared.loop.idb = none
  held : c.shared.held = none
  lockPath : c.shared.lockPath = none
  sent : c.shared.sent = false
  response : c.shared.response = none
  workerCancel : c.shared.workerCancel = false

/-! ### Conditions on a run -/

def expires : Act Event Env → Bool
  | .thread _ .expire => true
  | _ => false

/-- The thread that makes a step. -/
def actor (c : Conf Shared Thread) : Act Event Env → Option Thread
  | .thread i _ => c.threads[i]?
  | .env _ => none

/-- The loop finishes the open within the clean-up window. -/
def InWindow (c : Conf Shared Thread) (a : Act Event Env) : Prop :=
  expires a = true → c.shared.response.isSome = true

/-- The loop is past its last check for a cancellation, and nothing else will stop the open. -/
def Thread.committed (s : Shared) : Thread → Bool
  | .loop (.store _) | .loop (.generation ..) => decide (s.loop.nextGeneration + 1 < 2 ^ 64)
  | .loop (.respond (.ok _)) => true
  | .loop .done => match s.response with | some (.ok _) => true | _ => false
  | _ => false

/-- The next step of the handler is to give up. -/
def Thread.givesUp (s : Shared) : Thread → Bool
  | .handler .pollCancel => s.clientCancelled
  | .handler .pollTimer => s.timerFired
  | _ => false

/-- The handler does not give up on an open that the loop no longer checks for a cancellation. -/
def Timely (c : Conf Shared Thread) (a : Act Event Env) : Prop :=
  (actor c a).any (·.givesUp c.shared) = true → c.threads.any (·.committed c.shared) = false

instance (c : Conf Shared Thread) (a : Act Event Env) : Decidable (InWindow c a) :=
  inferInstanceAs (Decidable (_ → _))

instance (c : Conf Shared Thread) (a : Act Event Env) : Decidable (Timely c a) :=
  inferInstanceAs (Decidable (_ → _))

end IdaRs.OpenCancel
