import IdaRs.Lib.Threads
import IdaRs.Target

/-!
# The router (`src/daemon/router.rs`)

Client requests are threads over the router's state, the load lock and the worker processes. A step
is one critical section of the state lock, one wait on `load_lock` or an `op_lock`, or one event of a
worker process (spawned, answered, exited, killed). A connection task runs its request to the end
whether or not the client is still there, so threads are never dropped.

The list `targets` stands for the hash map; `Env.reorder` makes its order arbitrary. The three file
system reads at the head of `handle_target_load` are one step.
-/

namespace IdaRs.Router

open Threads

/-- `child` is the process's position in `procs`. -/
structure WorkerEntry where
  info : TargetInfo
  sock : String
  canonPath : String
  dbIdentity : String
  child : Nat
deriving DecidableEq, Repr

structure RouterState where
  targets : List (String × WorkerEntry) := []
  active : Option String := none
  nextId : Nat := 1
deriving DecidableEq, Repr

/-- A spawned worker, with the input and the database of the load it was spawned for. -/
structure Process where
  canonPath : String
  dbIdentity : String
  alive : Bool := true
deriving DecidableEq, Repr

structure Shared where
  state : RouterState
  /-- The thread that holds `load_lock`. -/
  loadLock : Option Nat
  /-- The threads that hold the `op_lock` of a worker. -/
  opLocks : Nat → Option Nat
  procs : List Process
  files : Files
  /-- The worker socket directory and the router's pid. -/
  workerDir : String
  pid : Nat

inductive Request
  | ping
  | shutdown
  | load (path : Option String) (autoAnalyse : Option Bool) (idbOut : Option String)
  | list
  | switch (id : Option String)
  | close (id : Option String)
  /-- Any other operation goes to a worker. -/
  | forward (op : String) (target : Option String)
deriving DecidableEq, Repr

inductive Reply
  | pong (targets : Nat)
  | shuttingDown
  | loaded (info : TargetInfo)
  | targets (list : List TargetInfo) (active : Option String)
  | active (id : String)
  | closed (id : String)
  | result (value : String)
deriving DecidableEq, Repr

/-- A load request past its prologue. -/
structure Load where
  expanded : String
  canonPath : String
  dbIdentity : String
  autoAnalyse : Bool
  idbOut : Option String
deriving DecidableEq, Repr

inductive Pc
  | start (req : Request)
  | loadWait (job : Load)
  | loadCheck (job : Load)
  | loadAlloc (job : Load)
  | loadSpawn (job : Load) (id : String)
  | loadBoot (job : Load) (id : String) (child : Nat)
  | loadHandshake (job : Load) (id : String) (child : Nat)
  | loadInsert (job : Load) (id : String) (child : Nat) (info : TargetInfo)
  /-- `stop_worker_child` after a failed handshake. -/
  | loadStop (job : Load) (child : Nat) (err : String)
  /-- `stop_worker` on each entry in turn. -/
  | stopping (todo : List WorkerEntry) (reply : Reply)
  | forwardWait (id : String) (child : Nat)
  | forwardSend (id : String) (child : Nat)
  | done (r : Except String Reply)
deriving DecidableEq, Repr

inductive Event
  | go
  /-- The system call or the round trip in progress fails. -/
  | fail (msg : String)
  /-- The worker answered the load. -/
  | loaded (info : TargetInfo)
  /-- The worker answered a forwarded request. -/
  | answer (r : Except String String)
  /-- The child is found to have exited, with the text of its status. -/
  | exited (status : String)
  /-- The deadline passed and the child was killed. -/
  | killed
deriving DecidableEq, Repr

inductive Env
  | request (req : Request)
  /-- A worker process ends. -/
  | exit (child : Nat)
  | reorder (targets : List (String × WorkerEntry))
  | setFiles (files : Files)

namespace RouterState

def allocId (st : RouterState) : String × RouterState :=
  ("t" ++ st.nextId.repr, { st with nextId := st.nextId + 1 })

def resolve (st : RouterState) (selector : Option String) : Except String String :=
  resolveSelector selector st.active (st.targets.map fun e => (e.1, e.2.info.filename, e.2.info.path))

def conflict (st : RouterState) (job : Load) : Option String :=
  findLoadConflict job.canonPath job.dbIdentity
    (st.targets.map fun e => (e.1, e.2.canonPath, e.2.dbIdentity))

/-- A load is admitted if and only if every target has another input and another database. -/
theorem conflict_eq_none {st : RouterState} {job : Load} : st.conflict job = none ↔
    ∀ e ∈ st.targets, ¬Path.same e.2.canonPath job.canonPath ∧ ¬Path.same e.2.dbIdentity job.dbIdentity := by
  rw [conflict, findLoadConflict_eq_none, List.forall_mem_map]

/-- `HashMap::insert`. -/
def insert (st : RouterState) (id : String) (entry : WorkerEntry) : RouterState :=
  { st with
    active := some (st.active.getD id)
    targets := st.targets.filter (·.1 ≠ id) ++ [(id, entry)] }

/-- The critical section of `target.close`. -/
def remove (st : RouterState) (id : String) : RouterState :=
  let targets := st.targets.filter (·.1 ≠ id)
  { st with
    targets
    active := if st.active = some id then lowestTargetId (targets.map Prod.fst) else st.active }

/-- The answer of `target.list`, in the order of the target numbers. -/
def list (st : RouterState) : List TargetInfo :=
  (st.targets.map (·.2.info)).mergeSort fun a b => targetNumber a.id ≤ targetNumber b.id

end RouterState

/-- `param_str`. -/
def paramStr (value : Option String) (key : String) : Except String String :=
  match value with
  | some v => .ok v
  | none => .error ("Missing parameter: " ++ key)

def workerBootTimeoutSecs : Nat := 30

def workerSocketPath (s : Shared) (id : String) : String :=
  Path.join s.workerDir ("r" ++ s.pid.repr ++ "-" ++ id ++ ".sock")

namespace Shared

def alive (s : Shared) (child : Nat) : Bool := (s.procs[child]?).any Process.alive

def kill (s : Shared) (child : Nat) : Shared :=
  { s with procs := s.procs.modify child fun p => { p with alive := false } }

def withState (s : Shared) (st : RouterState) : Shared := { s with state := st }

/-- The load permit is dropped. -/
def unlockLoad (s : Shared) : Shared := { s with loadLock := none }

def setOpLock (s : Shared) (child : Nat) (holder : Option Nat) : Shared :=
  { s with opLocks := Function.update s.opLocks child holder }

end Shared

/-- The part of `handle_target_load` before `load_lock`. -/
def loadPrologue (fs : Files) (path : Option String) (autoAnalyse : Option Bool) (idbOut : Option String) :
    Except String Load :=
  match path with
  | none => .error "Missing parameter: path"
  | some path =>
    let expanded := expandPath fs path
    if fs.exists? expanded then
      .ok { expanded, canonPath := canonicalizeLenient fs expanded
            dbIdentity := IdaRs.dbIdentity fs expanded idbOut
            autoAnalyse := autoAnalyse.getD true, idbOut }
    else .error ("File not found: " ++ expanded)

/-- The first critical section of a request. -/
def startRequest (s : Shared) : Request → Shared × Pc
  | .ping => (s, .done (.ok (.pong s.state.targets.length)))
  | .shutdown => (s.withState { s.state with targets := [] }, .stopping (s.state.targets.map Prod.snd) .shuttingDown)
  | .load path autoAnalyse idbOut =>
    match loadPrologue s.files path autoAnalyse idbOut with
    | .ok job => (s, .loadWait job)
    | .error e => (s, .done (.error e))
  | .list => (s, .done (.ok (.targets s.state.list s.state.active)))
  | .switch id =>
    match paramStr id "id" >>= fun sel => s.state.resolve (some sel) with
    | .ok id => (s.withState { s.state with active := some id }, .done (.ok (.active id)))
    | .error e => (s, .done (.error e))
  | .close id =>
    match paramStr id "id" >>= fun sel => s.state.resolve (some sel) with
    | .ok id =>
      match s.state.targets.lookup id with
      | some entry => (s.withState (s.state.remove id), .stopping [entry] (.closed id))
      | none => (s, .done (.error ("Target not found: " ++ id)))
    | .error e => (s, .done (.error e))
  | .forward _ target =>
    match s.state.resolve target with
    | .ok id =>
      match s.state.targets.lookup id with
      | some entry => (s, .forwardWait id entry.child)
      | none => (s, .done (.error ("Target not found: " ++ id)))
    | .error e => (s, .done (.error e))

/-- One step of request `i`. -/
def pcStep (s : Shared) (i : Nat) : Pc → Event → Option (Shared × Pc)
  | .start req, .go => some (startRequest s req)
  | .loadWait job, .go => if s.loadLock = none then some ({ s with loadLock := some i }, .loadCheck job) else none
  | .loadCheck job, .go =>
    match s.state.conflict job with
    | some conflict => some (s.unlockLoad, .done (.error (job.expanded ++ ": " ++ conflict)))
    | none => some (s, .loadAlloc job)
  | .loadAlloc job, .go => some (s.withState s.state.allocId.2, .loadSpawn job s.state.allocId.1)
  | .loadSpawn job id, .go =>
    some ({ s with procs := s.procs ++ [{ canonPath := job.canonPath, dbIdentity := job.dbIdentity }] },
      .loadBoot job id s.procs.length)
  | .loadSpawn .., .fail msg => some (s.unlockLoad, .done (.error msg))
  -- the socket accepts a connection
  | .loadBoot job id child, .go => some (s, .loadHandshake job id child)
  | .loadBoot _ _ child, .exited status =>
    if s.alive child then none
    else some (s.unlockLoad, .done (.error ("worker exited during boot: " ++ status)))
  -- `try_wait` fails: the child is dropped, not killed
  | .loadBoot .., .fail msg => some (s.unlockLoad, .done (.error ("worker wait error: " ++ msg)))
  | .loadBoot _ _ child, .killed =>
    some ((s.kill child).unlockLoad,
      .done (.error ("worker did not come up within " ++ workerBootTimeoutSecs.repr ++ "s")))
  | .loadHandshake job id child, .loaded info => some (s, .loadInsert job id child { info with id })
  | .loadHandshake job _ child, .fail msg => some (s, .loadStop job child msg)
  | .loadStop _ child err, .killed =>
    some ((s.kill child).unlockLoad, .done (.error ("load failed: " ++ err)))
  -- `kill` and `wait` fail, and their errors are ignored
  | .loadStop _ _ err, .fail _ => some (s.unlockLoad, .done (.error ("load failed: " ++ err)))
  | .loadInsert job id child info, .go =>
    some ((s.withState (s.state.insert id
        { info, sock := workerSocketPath s id, canonPath := job.canonPath, dbIdentity := job.dbIdentity
          child })).unlockLoad, .done (.ok (.loaded info)))
  | .stopping [] reply, .go => some (s, .done (.ok reply))
  -- `wait_child`: the worker exits in time, the wait fails, or the grace period is over
  | .stopping (e :: todo) reply, .exited _ => if s.alive e.child then none else some (s, .stopping todo reply)
  | .stopping (_ :: todo) reply, .fail _ => some (s, .stopping todo reply)
  | .stopping (e :: todo) reply, .killed => some (s.kill e.child, .stopping todo reply)
  | .forwardWait id child, .go =>
    if s.opLocks child = none then some (s.setOpLock child (some i), .forwardSend id child) else none
  | .forwardSend _ child, .answer r => some (s.setOpLock child none, .done (r.map .result))
  | .forwardSend id child, .fail msg =>
    some (s.setOpLock child none, .done (.error ("worker for target " ++ id ++ ": " ++ msg)))
  | _, _ => none

def exec (s : Shared) (i : Nat) (pc : Pc) (e : Event) : Option (Outcome Shared Pc) :=
  (pcStep s i pc e).map fun (s', pc') => { shared := s', thread := pc' }

def env (c : Conf Shared Pc) : Env → Option (Shared × List Pc)
  | .request req => some (c.shared, [.start req])
  | .exit child => some (c.shared.kill child, [])
  | .reorder targets =>
    if targets.isPerm c.shared.state.targets then some (c.shared.withState { c.shared.state with targets }, [])
    else none
  | .setFiles files => some ({ c.shared with files }, [])

def program : Program Shared Pc Event Env := ⟨exec, env⟩

/-- A fresh router: `RouterState::new`, no worker, no request. -/
structure Init (c : Conf Shared Pc) : Prop where
  state : c.shared.state = {}
  loadLock : c.shared.loadLock = none
  opLocks : ∀ child, c.shared.opLocks child = none
  procs : c.shared.procs = []
  threads : c.threads = []

end IdaRs.Router
