import IdaRs.Lib.Threads
import IdaRs.Task
import IdaRs.WorkerLoop

/-!
# The background DSC task (`run_dsc_background` of `src/server/mod.rs`)

One task over the task registry, the queue and the worker loop of the single-worker server. A step of the task
is one await, one look at its cancel token, or one call of the registry; `Env` is everybody else: requests of
other sessions, a turn of the loop, a call of the registry that settles another task or none, a cancelled
token. What an awaited call returns is the event, with the clock a registry call reads.

`created` and `closed` record whose request gave a generation and whose closed it (`true` for the task's), and
`calls` the calls of the registry with their answers. The close token that is issued before the completion
and the other fields of the published value are left out.
-/

namespace IdaRs.DscTask

open Threads IdaRs.Task

/-- A value of the registry. -/
inductive Value
  | toolError (e : ToolError)
  | loaded (path : String) (images : List String) (analysisReady : Option Bool)
  /-- The value of another task. -/
  | other
deriving DecidableEq, Repr

inductive IdaRequest
  | openIdb (path : String)
  | close
  | closeIfGeneration (generation : Nat)
  | shutdown
  /-- A request that leaves the database open or closed as it is. -/
  | other
deriving DecidableEq, Repr

inductive Response
  | opened (r : Except ToolError OpenedDatabase)
  | conditional (r : ConditionalCloseResult)
deriving DecidableEq

/-- `DscBackgroundOpen`: raw images are loaded by the task itself, and idat makes the database before. -/
inductive DscBackgroundOpen
  | directRawDsc (openPath : String)
  | legacyIdat (outI64 : String)
deriving DecidableEq, Repr

structure Shared where
  id : String
  source : DscBackgroundOpen
  module : String
  frameworks : List String
  cancelToken : Nat
  registry : TaskRegistry Value
  calls : List (Op Value × Answer Value)
  files : Files
  loop : LoopState
  /-- The loop has ended; nothing in the queue is answered any more. -/
  stopped : Bool
  queue : List (Bool × IdaRequest)
  capacity : Nat
  /-- The answer to the task's last request. -/
  response : Option Response
  created : List (Bool × Nat)
  closed : List (Bool × Nat)

/-- Why the task closes its database again. -/
inductive Cleanup
  | cancelled
  | toolError (e : ToolError)
deriving DecidableEq, Repr

inductive Pc
  | start
  | idatSpawn
  | idatWait
  /-- `stop_idat_and_remove_partial_outputs`, after a cancellation or a failed wait. -/
  | idatStop (waitError : Option String)
  | idatSettled (code : Int) (stderr : String)
  | idatOutput (code : Int) (stderr : String)
  | openSend
  | openWait
  | opened (db : OpenedDatabase)
  | moduleWait (db : OpenedDatabase)
  | moduleCheck (db : OpenedDatabase) (r : Except ToolError String)
  /-- The head of the loop over the frameworks. -/
  | frameworkCheck (db : OpenedDatabase) (images rest : List String)
  | frameworkWait (db : OpenedDatabase) (images : List String) (framework : String) (rest : List String)
  | frameworkLoaded (db : OpenedDatabase) (images : List String) (framework : String) (rest : List String)
      (r : Except ToolError String)
  | statusWait (db : OpenedDatabase) (images : List String)
  | statusCheck (db : OpenedDatabase) (images : List String) (ready : Option Bool)
  | lastCheck (db : OpenedDatabase) (images : List String) (ready : Option Bool)
  | complete (db : OpenedDatabase) (images : List String) (ready : Option Bool)
  /-- `close_if_generation`. -/
  | closeSend (generation : Nat) (why : Cleanup)
  | closeWait (generation : Nat) (why : Cleanup)
  | closeDone (generation : Nat) (why : Cleanup) (r : Except ToolError ConditionalCloseResult)
  /-- The settling call, and the generation that was open then. -/
  | done (call : Op Value × Answer Value) (current : Option Nat)

inductive Event
  | go
  | spawnFailed (msg : String)
  | exited (code : Option Int) (stderr : String)
  | waitFailed (msg : String)
  /-- The `select!` on idat sees the token. -/
  | sawCancel
  /-- Whether the output exists, and the tail of the log. -/
  | output (found : Bool) (log : Option String)
  | image (r : Except ToolError String)
  | status (r : Except ToolError Bool)
  /-- The queue is full, or has been for five seconds. -/
  | busy
  | workerClosed

inductive Env
  | request (req : IdaRequest)
  /-- The loop takes a request; `run` is what IDA makes of an open. -/
  | serve (run : OpenRun)
  | registry (now : Nat → Moment) (op : Op Value)

namespace Shared

def cancelled (s : Shared) : Bool := decide (s.cancelToken ∈ s.registry.cancelled)

/-- A call of the registry. -/
def call (s : Shared) (now : Nat → Moment) (op : Op Value) : Shared :=
  { s with
    registry := (Task.step s.registry now op).1
    calls := s.calls ++ [(op, (Task.step s.registry now op).2)] }

/-- The generation of the open database. -/
def current (s : Shared) : Option Nat := if s.loop.idb.isSome then s.loop.generation else none

/-- The task's last call of the registry. -/
def settle (s : Shared) (now : Nat → Moment) (op : Op Value) : Shared × Pc :=
  (s.call now op, .done (op, (Task.step s.registry now op).2) s.current)

def updateMessage (s : Shared) (now : Nat → Moment) (message : String) : Shared :=
  s.call now (.updateMessage s.id message)

/-- `complete_background_tool_error`. -/
def toolErrorOp (s : Shared) (e : ToolError) (cancelMessage : String) : Op Value :=
  .completeWithCancelToken s.id (.toolError e) s.cancelToken cancelMessage

/-- The task looks at its token after the open and cleans up when it fired. -/
def unlessCancelled (s : Shared) (generation : Nat) (next : Pc) : Shared × Pc :=
  (s, if s.cancelled then .closeSend generation .cancelled else next)

def full (s : Shared) : Bool := decide (s.capacity ≤ s.queue.length)

def send (s : Shared) (req : IdaRequest) : Option Shared :=
  if s.full = false ∧ s.stopped = false then
    some { s with queue := s.queue ++ [(true, req)], response := none }
  else none

def openPath (s : Shared) : String :=
  match s.source with
  | .directRawDsc path => path
  | .legacyIdat out => out

/-! ### The loop -/

/-- An answer to the task; nobody here waits for the others. -/
def respond (s : Shared) (byTask : Bool) (r : Response) : Shared :=
  if byTask then { s with response := some r } else s

def serveOpen (s : Shared) (byTask : Bool) (path : String) (run : OpenRun) : Shared :=
  let (loop, r) := s.loop.serveOpen s.files path run
  let new := if loop.nextGeneration = s.loop.nextGeneration then [] else [(byTask, loop.nextGeneration)]
  { s with loop, created := new ++ s.created }.respond byTask (.opened r)

/-- The database is dropped, if one is open. -/
def serveClose (s : Shared) (byTask : Bool) : Shared :=
  { s with
    loop := s.loop.serveClose
    closed := s.current.toList.map (byTask, ·) ++ s.closed }

def serveCloseIfGeneration (s : Shared) (byTask : Bool) (generation : Nat) : Shared :=
  let r := (s.loop.serveCloseIfGeneration generation).2
  (match r with
    | .closed => s.serveClose byTask
    | .notCurrent => s).respond byTask (.conditional r)

/-- One turn of the loop. -/
def serve (s : Shared) (run : OpenRun) : Option Shared :=
  match s.queue with
  | [] => none
  | (byTask, req) :: queue =>
    let s := { s with queue }
    match req with
    | .openIdb path => some (s.serveOpen byTask path run)
    | .close => some (s.serveClose byTask)
    | .closeIfGeneration generation => some (s.serveCloseIfGeneration byTask generation)
    | .shutdown => some { s.serveClose byTask with stopped := true, queue := [] }
    | .other => some s

/-- A call that another part of the server may make: only the task settles its own id, and ids are fresh. -/
def allows (s : Shared) (op : Op Value) : Bool :=
  decide (op.settles ≠ some s.id ∧ op.newId ≠ some s.id ∧ ∀ id ∈ op.newId, id ∉ s.registry.keys)

end Shared

def idatErrorMessage (code : Int) (stderr : String) (log : Option String) : String :=
  "idat exited with code " ++ toString code ++ ".\nstderr: " ++ stderr ++
    (match log with | some tail => "\nlog (last 20 lines):\n" ++ tail | none => "")

/-- What settles the task after its close. -/
def Cleanup.settleOp (s : Shared) (generation : Nat) : Cleanup → Except ToolError ConditionalCloseResult → Op Value
  | .cancelled, .ok .closed =>
    .finishCancelled s.id "Cancelled after the active DSC operation settled and its database closed"
  | .cancelled, .ok .notCurrent =>
    .finishCancelled s.id
      "Cancelled after the active DSC operation settled; its database generation was already replaced"
  | .cancelled, .error e =>
    .failAfterCleanupError s.id
      ("Cancellation cleanup failed for database generation " ++ generation.repr ++ ": " ++ e.toString)
  | .toolError e, .ok _ => s.toolErrorOp e "Cancelled after the failed DSC operation settled"
  | .toolError e, .error close =>
    .failAfterCleanupError s.id
      (e.toString ++ "; cleanup failed for database generation " ++ generation.repr ++ ": " ++ close.toString)

/-- One step of the task. -/
def pcStep (s : Shared) (now : Nat → Moment) : Pc → Event → Option (Shared × Pc)
  | .start, .go =>
    if s.cancelled then some (s.settle now (.finishCancelled s.id "Cancelled by session shutdown"))
    else
      match s.source with
      | .directRawDsc _ => some (s.updateMessage now "Opening DSC directly with idalib...", .openSend)
      | .legacyIdat _ => some (s.updateMessage now "Running idat to create .i64...", .idatSpawn)
  | .idatSpawn, .go => some (s, .idatWait)
  | .idatSpawn, .spawnFailed msg => some (s, .idatSettled (-1) ("Failed to spawn idat: " ++ msg))
  | .idatWait, .exited code stderr => some (s, .idatSettled (code.getD (-1)) stderr)
  | .idatWait, .waitFailed msg => some (s, .idatStop (some msg))
  | .idatWait, .sawCancel => if s.cancelled then some (s, .idatStop none) else none
  | .idatStop (some msg), .go => some (s.settle now (.fail s.id ("failed to wait for idat: " ++ msg)))
  | .idatStop none, .go =>
    some (s.settle now (.finishCancelled s.id
      "Cancelled; the idat subprocess was killed and its partial output removed"))
  | .idatSettled code stderr, .go =>
    if s.cancelled then some (s.settle now (.finishCancelled s.id "Cancelled after the idat subprocess settled"))
    else some (s, .idatOutput code stderr)
  | .idatOutput code stderr, .output found log =>
    if code ≠ 0 ∨ found = false then
      some (s.settle now (s.toolErrorOp (.openFailed (idatErrorMessage code stderr log))
        "Cancelled after the idat subprocess settled"))
    else some (s.updateMessage now "Opening database with idalib...", .openSend)
  | .openSend, .go => (s.send (.openIdb s.openPath)).map fun s' => (s', .openWait)
  | .openSend, .busy =>
    if s.full then some (s.settle now (s.toolErrorOp .busy "Cancelled after the DSC open operation settled"))
    else none
  | .openSend, .workerClosed =>
    if s.stopped then
      some (s.settle now (s.toolErrorOp .workerClosed "Cancelled after the DSC open operation settled"))
    else none
  | .openWait, .go =>
    match s.response with
    | some (.opened (.ok db)) => some (s, .opened db)
    | some (.opened (.error e)) =>
      some (s.settle now (s.toolErrorOp e "Cancelled after the DSC open operation settled"))
    | _ => none
  | .openWait, .workerClosed =>
    if s.stopped ∧ s.response = none then
      some (s.settle now (s.toolErrorOp .workerClosed "Cancelled after the DSC open operation settled"))
    else none
  | .opened db, .go =>
    if s.cancelled then some (s, .closeSend db.generation .cancelled)
    else
      match s.source with
      | .directRawDsc _ => some (s.updateMessage now "Loading DSC module through ida_dscu...", .moduleWait db)
      | .legacyIdat _ => some (s, .lastCheck db [] none)
  | .moduleWait db, .image r => some (s, .moduleCheck db r)
  | .moduleCheck db r, .go =>
    some (s.unlessCancelled db.generation (match r with
      | .ok image => .frameworkCheck db [image] s.frameworks
      | .error e =>
        .closeSend db.generation
          (.toolError (.idaError ("Failed to load DSC module " ++ s.module ++ ": " ++ e.toString)))))
  | .frameworkCheck db images [], .go => some (s, .statusWait db images)
  | .frameworkCheck db images (framework :: rest), .go =>
    if s.cancelled then some (s, .closeSend db.generation .cancelled)
    else
      some (s.updateMessage now ("Loading DSC framework " ++ framework ++ "..."),
        .frameworkWait db images framework rest)
  | .frameworkWait db images framework rest, .image r => some (s, .frameworkLoaded db images framework rest r)
  | .frameworkLoaded db images framework rest r, .go =>
    some (s.unlessCancelled db.generation (match r with
      | .ok image => .frameworkCheck db (images ++ [image]) rest
      | .error e =>
        .closeSend db.generation
          (.toolError (.idaError ("Failed to load DSC framework " ++ framework ++ ": " ++ e.toString)))))
  | .statusWait db images, .status r => some (s, .statusCheck db images r.toOption)
  | .statusCheck db images ready, .go =>
    some (s.unlessCancelled db.generation (.lastCheck db images ready))
  | .lastCheck db images ready, .go => some (s.unlessCancelled db.generation (.complete db images ready))
  | .complete db images ready, .go =>
    let op : Op Value := .completeOrDeferCancellation s.id (.loaded db.path images ready) s.cancelToken
    if (Task.step s.registry now op).2 = .decision .cancellationPending then
      some (s.call now op, .closeSend db.generation .cancelled)
    else some (s.settle now op)
  | .closeSend generation why, .go =>
    (s.send (.closeIfGeneration generation)).map fun s' => (s', .closeWait generation why)
  | .closeSend generation why, .busy => if s.full then some (s, .closeDone generation why (.error .busy)) else none
  | .closeSend generation why, .workerClosed =>
    if s.stopped then some (s, .closeDone generation why (.error .workerClosed)) else none
  | .closeWait generation why, .go =>
    match s.response with
    | some (.conditional r) => some (s, .closeDone generation why (.ok r))
    | _ => none
  | .closeWait generation why, .workerClosed =>
    if s.stopped ∧ s.response = none then some (s, .closeDone generation why (.error .workerClosed)) else none
  | .closeDone generation why r, .go => some (s.settle now (why.settleOp s generation r))
  | _, _ => none

def exec (s : Shared) (_ : Nat) (pc : Pc) (e : (Nat → Moment) × Event) : Option (Outcome Shared Pc) :=
  (pcStep s e.1 pc e.2).map fun (s', pc') => { shared := s', thread := pc' }

def env (c : Conf Shared Pc) : Env → Option (Shared × List Pc)
  | .request req =>
    if c.shared.full = false ∧ c.shared.stopped = false then
      some ({ c.shared with queue := c.shared.queue ++ [(false, req)] }, [])
    else none
  | .serve run => (c.shared.serve run).map fun s' => (s', [])
  | .registry now op => if c.shared.allows op then some (c.shared.call now op, []) else none

def program : Program Shared Pc ((Nat → Moment) × Event) Env := ⟨exec, env⟩

/-- The task was just created; the loop may have served others before. -/
structure Init (c : Conf Shared Pc) : Prop where
  threads : c.threads = [.start]
  registry : Task.Reachable c.shared.registry
  running : ∃ e, (c.shared.id, e) ∈ c.shared.registry.entries ∧ e.Running
  calls : c.shared.calls = []
  response : c.shared.response = none
  /-- A database is open exactly when it has a generation, which others were given. -/
  generation : c.shared.loop.idb.isSome = c.shared.loop.generation.isSome
  known : ∀ g, c.shared.loop.generation = some g → (false, g) ∈ c.shared.created
  created : ∀ x ∈ c.shared.created, x.1 = false ∧ x.2 ≤ c.shared.loop.nextGeneration
  queue : ∀ x ∈ c.shared.queue, x.1 = false
  closed : ∀ x ∈ c.shared.closed, x.1 = false

/-! ### The condition on a run -/

/-- The loop answers the task's open with a database that was open before. -/
def sharesDatabase (s : Shared) : Env → Bool
  | .serve run =>
    match s.queue, s.loop.idb with
    | (true, .openIdb path) :: _, some current =>
      decide (run ≠ .cancelled) && databasePathsMatch current (expandPath s.files path)
    | _, _ => false
  | _ => false

/-- The task's open never finds its database open already. -/
def OpensItself (c : Conf Shared Pc) : Act ((Nat → Moment) × Event) Env → Prop
  | .env x => sharesDatabase c.shared x = false
  | .thread .. => True

instance (c : Conf Shared Pc) : ∀ a, Decidable (OpensItself c a)
  | .env _ => inferInstanceAs (Decidable (_ = _))
  | .thread .. => inferInstanceAs (Decidable True)

end IdaRs.DscTask
