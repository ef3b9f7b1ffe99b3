import IdaRs.Lib.Threads
import IdaRs.Remote
import IdaRs.WorkerLoop

/-!
# The worker pool and its sessions (`src/ida/pool.rs`)

Tasks over the pool's state. A step is one critical section or the end of one await. Three locks are
held across awaits and are modelled as such: the pool lock (`inner`, while `lease` scans and a reaper
counts), a session's lock (`handle`, while `lease_for_open` leases) and a slot's `call_lock`. The lock
of a child is only ever held inside one critical section, so `lease` and the reaper look at the
children one after another while other tasks change them.

A task may be dropped at any await. What its guards do then is the `drop` event: a `WorkerRetireGuard`
spawns a task that runs `mark_dead`, a `SpawnReservation` one that gives the reservation back. Spawned
tasks are not dropped.

`Slot.generation` and `Slot.leases` are not in the source: the lease that the slot serves and how often
it was leased. Nor is `Origin.opened`, the lease of the open that a task was spawned for. Nothing the tasks
do depends on them.
-/

namespace IdaRs.Pool

open Threads

structure Config where
  maxWorkers : Nat
  minWorkers : Nat
  workerIdleTimeout : Nat
  workerOpTimeout : Nat
deriving DecidableEq, Repr

inductive ChildState
  | idle
  | leased (session : String)
  | closing
  | dead
deriving DecidableEq, Repr

/-- The `Debug` text of a state. -/
def ChildState.debug : ChildState → String
  | idle => "Idle"
  | leased session => "Leased \x7b session_id: \"" ++ session ++ "\" \x7d"
  | closing => "Closing"
  | dead => "Dead"

structure Slot where
  state : ChildState
  lastUsed : Nat
  idbPath : Option String := none
  /-- The task that holds `call_lock`. -/
  callLock : Option Nat := none
  generation : Nat := 0
  leases : Nat := 0
deriving DecidableEq, Repr

/-- `PooledDatabaseLease`. -/
structure Lease where
  worker : Nat
  generation : Nat
deriving DecidableEq, Repr

/-- `PooledSessionState`; `lock` is the task that holds the lock of `handle`. -/
structure Session where
  handle : Option Lease := none
  nextGeneration : Nat := 0
  lock : Option Nat := none
  dropped : Bool := false
deriving DecidableEq, Repr

structure Shared where
  config : Config
  clock : Nat
  /-- The task that holds the lock of `PoolInner`. -/
  poolLock : Option Nat
  children : List Nat
  spawning : List Nat
  nextId : Nat
  slots : Nat → Option Slot
  sessions : String → Session

/-! ### Tasks -/

/-- What an open or a call does: the lease it resolved and its arguments. -/
inductive OpKind
  | openIdb (fresh : Bool)
  | call (expected : Option Nat)
deriving DecidableEq, Repr

structure Op where
  session : String
  worker : Nat
  generation : Nat
  kind : OpKind
  tool : String
  timeoutSecs : Nat
deriving DecidableEq, Repr

/-- Why a lease is released. -/
inductive Cause
  | close
  | closeIfGeneration
  /-- An open that had obtained `generation` failed with `err`. -/
  | openFailed (generation : Nat) (err : ToolError)
  | sessionDropped
deriving DecidableEq, Repr

/-- A release of the lease `generation` of `session`. -/
structure Release where
  session : String
  worker : Nat
  generation : Nat
  cause : Cause
deriving DecidableEq, Repr

/-- The operation for which a guard spawns a task: its session, and the generation it obtained if it is an
open. -/
structure Origin where
  session : String
  opened : Option Nat
deriving DecidableEq, Repr

def Op.origin (op : Op) : Origin :=
  ⟨op.session, match op.kind with
    | .openIdb _ => some op.generation
    | .call _ => none⟩

def Release.origin (rel : Release) : Origin :=
  ⟨rel.session, match rel.cause with
    | .openFailed generation _ => some generation
    | _ => none⟩

/-- What is waiting for a `mark_dead` to finish. -/
inductive After
  /-- A task spawned by a guard. -/
  | task (origin : Origin)
  /-- `call_tool`, with `call_lock` held and its guard armed. -/
  | call (op : Op) (err : ToolError)
  /-- `release_inner`, with `call_lock` held and its guard armed. -/
  | release (rel : Release) (err : ToolError)
  /-- `call_result_for_generation`, after it cleared the handle. -/
  | cleared (op : Op) (err : ToolError)
  | shutdown
deriving DecidableEq, Repr

/-- The steps of `mark_dead_inner`; `ensure` is `ensure_min_workers` before it takes the pool lock. -/
inductive Phase
  | take
  | forget
  | ensure
deriving DecidableEq, Repr

/-- A `lease_for_open` that holds the session's lock. -/
structure Lending where
  session : String
  generation : Nat
  timeoutSecs : Nat
deriving DecidableEq, Repr

def Lending.origin (l : Lending) : Origin := ⟨l.session, some l.generation⟩

/-- For whom a worker is spawned. -/
inductive Spawner
  | lease (l : Lending)
  | ensure (worker : Nat) (after : After)
deriving DecidableEq, Repr

inductive Ret
  | done
  | result (r : CallToolResult)
  | opened (db : OpenedDatabase)
  | conditional (r : ConditionalCloseResult)
  | error (e : ToolError)
  | dropped
deriving DecidableEq

/-- A reap timer, with what its slot was when it started. -/
structure Timer where
  worker : Nat
  sleepStarted : Nat
  wasIdle : Bool
  leases : Nat
deriving DecidableEq, Repr

inductive Pc
  | openLock (session : String) (timeoutSecs : Nat)
  | leaseWait (l : Lending)
  /-- `lease` holds the pool lock; `seen` is what it found at each child so far. -/
  | scan (l : Lending) (todo : List Nat) (active : Nat) (deadIds : List Nat) (seen : List (Nat × ChildState))
  | spawn (id : Nat) (who : Spawner)
  | install (id : Nat) (result : Except ToolError Unit) (who : Spawner)
  | store (l : Lending) (worker : Nat)
  | callResolve (session : String) (expected : Option Nat) (tool : String) (timeoutSecs : Nat)
  | waitCall (op : Op)
  | request (op : Op)
  | dying (worker : Nat) (phase : Phase) (after : After)
  | clear (op : Op) (err : ToolError) (retire : Bool)
  | setIdbPath (op : Op) (path : String)
  | openTake (op : Op) (err : ToolError)
  | closeTake (session : String)
  | closeIfTake (session : String) (generation : Nat)
  | sessionTake (session : String)
  | relWait (rel : Release)
  | relRpc (rel : Release)
  | relCheck (rel : Release) (err : Option ToolError)
  | resDrop (id : Nat) (hasSlot : Bool) (origin : Origin)
  | reapStart (worker : Nat)
  | reapSleep (t : Timer)
  | reapCount (t : Timer) (todo : List Nat) (liveCount : Nat)
  | reapForget (worker : Nat)
  | done (r : Ret)
deriving DecidableEq

inductive Event
  | go
  | drop
  /-- Spawning or initialising the worker fails, with the text of the protocol error. -/
  | spawnFailed (msg : String)
  /-- The child answers; `decoded` is what serde makes of a result that is not an error. -/
  | answer (result : CallToolResult) (decoded : Except String String)
  /-- The transport to the child fails. -/
  | transport (msg : String)
  | timeout
  | cancel
deriving DecidableEq

inductive Env
  | openIdb (session : String) (timeoutSecs : Option Nat)
  | call (session : String) (expected : Option Nat) (tool : String) (timeoutSecs : Option Nat)
  | close (session : String)
  | closeIfGeneration (session : String) (generation : Nat)
  | dropSession (session : String)
  | tick
  | shutdownAll
deriving DecidableEq, Repr

/-! ### The shared state -/

namespace Shared

@[simp] def lockPool (s : Shared) (i : Nat) : Shared := { s with poolLock := some i }

@[simp] def unlockPool (s : Shared) : Shared := { s with poolLock := none }

@[simp] def setSession (s : Shared) (session : String) (f : Session → Session) : Shared :=
  { s with sessions := Function.update s.sessions session (f (s.sessions session)) }

@[simp] def unlockSession (s : Shared) (session : String) : Shared :=
  s.setSession session fun x => { x with lock := none }

@[simp] def setHandle (s : Shared) (session : String) (handle : Option Lease) : Shared :=
  s.setSession session fun x => { x with handle }

@[simp] def setSlot (s : Shared) (worker : Nat) (f : Slot → Slot) : Shared :=
  { s with slots := Function.update s.slots worker ((s.slots worker).map f) }

@[simp] def setCallLock (s : Shared) (worker : Nat) (holder : Option Nat) : Shared :=
  s.setSlot worker fun x => { x with callLock := holder }

/-- `lease` marks an idle slot. -/
@[simp] def leaseSlot (s : Shared) (worker : Nat) (l : Lending) : Shared :=
  s.setSlot worker fun x =>
    { x with state := .leased l.session, lastUsed := s.clock, generation := l.generation, leases := x.leases + 1 }

/-- `take_dead_worker`; a dead worker stays as it is. -/
@[simp] def kill (s : Shared) (worker : Nat) : Shared :=
  s.setSlot worker fun x => if x.state = .dead then x else { x with state := .dead, idbPath := none }

/-- `reserve_spawn_slot_locked`; the reservation is for the old `nextId`. -/
@[simp] def reserve (s : Shared) : Shared :=
  { s with nextId := s.nextId + 1, spawning := s.spawning ++ [s.nextId] }

/-- `finish_spawn_reservation`. -/
@[simp] def finishReservation (s : Shared) (id : Nat) (slot : Option Nat) : Shared :=
  { s with spawning := s.spawning.erase id, children := s.children ++ slot.toList }

/-- `forget_slot`. -/
@[simp] def forgetSlot (s : Shared) (worker : Nat) : Shared := { s with children := s.children.filter (· ≠ worker) }

/-- The slot of a worker that came up. -/
@[simp] def addSlot (s : Shared) (id : Nat) (who : Spawner) : Shared :=
  { s with
    slots := Function.update s.slots id (some (match who with
      | .lease l => { state := .leased l.session, lastUsed := s.clock, generation := l.generation, leases := 1 }
      | .ensure .. => { state := .idle, lastUsed := s.clock })) }

def isIdle (s : Shared) (worker : Nat) : Bool := (s.slots worker).any (·.state = .idle)

def isLive (s : Shared) (worker : Nat) : Bool := (s.slots worker).any (·.state ≠ .dead)

/-- Reserved spawns and children that are not dead. -/
def liveOrReserved (s : Shared) : Nat := s.spawning.length + s.children.countP s.isLive

end Shared

def Config.floor (c : Config) : Nat := min c.minWorkers c.maxWorkers

def childCloseTimeoutSecs : Nat := 5
def childTimeoutGraceSecs : Nat := 10
def maxTimeoutSecs : Nat := 600

/-- `worker_op_timeout`, in seconds. -/
def Config.opTimeout (c : Config) (requested : Option Nat) : Nat :=
  match requested with
  | some secs => min (min (min secs maxTimeoutSecs + childTimeoutGraceSecs) (2 ^ 64 - 1)) c.workerOpTimeout
  | none => c.workerOpTimeout

def Op.timedOut (op : Op) : ToolError :=
  .timeoutDetailed (op.tool ++ " exceeded worker operation timeout of " ++ op.timeoutSecs.repr ++
    " seconds; killed worker " ++ op.worker.repr)

def Op.cancelled (op : Op) : ToolError :=
  .cancelled ("cancelled " ++ op.tool ++ "; killed worker " ++ op.worker.repr)

/-- `remote::call_tool` on a transport that fails. -/
def callFailed (tool msg : String) : ToolError := .remoteProtocol (tool ++ " call failed: " ++ msg)

def Op.crashed (op : Op) (msg : String) : ToolError :=
  .workerCrashed op.worker (op.tool ++ ": " ++ (callFailed op.tool msg).toString)

def Op.notLeased (op : Op) (state : ChildState) : ToolError :=
  .remoteProtocol ("worker " ++ op.worker.repr ++ " is not leased to session " ++ op.session ++
    " (state: " ++ state.debug ++ ")")

/-! ### Steps -/

/-- `call_tool` returned an error: a call clears the handle, an open may release the lease. -/
def opFailed (op : Op) (err : ToolError) : Pc :=
  match op.kind with
  | .call _ => .clear op err false
  | .openIdb fresh => if openErrorReleasesLease fresh err then .openTake op err else .done (.error err)

/-- `mark_dead` is done. -/
def afterDying (s : Shared) (worker : Nat) : After → Shared × Pc
  | .task _ | .shutdown => (s, .done .done)
  | .call op err => (s.setCallLock worker none, opFailed op err)
  | .release rel err => (s.setCallLock worker none, .relCheck rel (some err))
  | .cleared _ err => (s, .done (.error err))

/-- `mark_dead` is dropped: an armed guard spawns another one. -/
def dropAfter (s : Shared) (worker : Nat) : After → Option (Outcome Shared Pc)
  | .task _ | .shutdown => none
  | .call op _ => some ⟨s.setCallLock worker none, .done .dropped, [.dying worker .take (.task op.origin)]⟩
  | .release rel _ =>
    if rel.cause = .sessionDropped then none
    else some ⟨s.setCallLock worker none, .done .dropped, [.dying worker .take (.task rel.origin)]⟩
  | .cleared .. => some ⟨s, .done .dropped, []⟩

/-- The session for whose operation a worker is retired. -/
def After.session : After → Option String
  | .task origin => some origin.session
  | .call op _ | .cleared op _ => some op.session
  | .release rel _ => some rel.session
  | .shutdown => none

/-- For whom the reservation of a replacement is given back; only calls clear a handle. -/
def After.origin : After → Origin
  | .task origin => origin
  | .call op _ => op.origin
  | .release rel _ => rel.origin
  | .cleared op _ => ⟨op.session, none⟩
  | .shutdown => ⟨"", none⟩

/-- A reservation is dropped while its worker is spawned or installed. -/
def dropSpawner (s : Shared) (id : Nat) (hasSlot : Bool) : Spawner → Option (Outcome Shared Pc)
  | .lease l => some ⟨s.unlockSession l.session, .done .dropped, [.resDrop id hasSlot l.origin]⟩
  | .ensure worker after =>
    (dropAfter s worker after).map fun o =>
      { o with spawned := .resDrop id hasSlot after.origin :: o.spawned }

def openStep (s : Shared) (i : Nat) (session : String) (timeoutSecs : Nat) : Option (Shared × Pc) :=
  let st := s.sessions session
  if st.lock ≠ none then none
  else
    match st.handle with
    | some lease =>
      some (s, .waitCall ⟨session, lease.worker, lease.generation, .openIdb false, "open_idb", timeoutSecs⟩)
    | none =>
      if st.nextGeneration + 1 < 2 ^ 64 then
        some (s.setSession session fun x => { x with nextGeneration := x.nextGeneration + 1, lock := some i },
          .leaseWait ⟨session, st.nextGeneration + 1, timeoutSecs⟩)
      else some (s, .done (.error (.idaError "database generation counter exhausted")))

/-- `lease` looks at the next child, or comes to the end of the children. -/
def scanStep (s : Shared) (l : Lending) (todo : List Nat) (active : Nat) (deadIds : List Nat)
    (seen : List (Nat × ChildState)) : Option (Shared × Pc) :=
  match todo with
  | worker :: todo =>
    match (s.slots worker).map Slot.state with
    | none => none
    | some .dead => some (s, .scan l todo active (deadIds ++ [worker]) (seen ++ [(worker, .dead)]))
    | some .idle => some ((s.leaseSlot worker l).unlockPool, .store l worker)
    | some st => some (s, .scan l todo (active + 1) deadIds (seen ++ [(worker, st)]))
  | [] =>
    let s := { s with children := s.children.filter fun w => !deadIds.contains w }
    if s.config.maxWorkers ≤ active then
      some (s.unlockPool.unlockSession l.session, .done (.error (.poolExhausted active s.config.maxWorkers)))
    else some (s.reserve.unlockPool, .spawn s.nextId (.lease l))

def installStep (s : Shared) (id : Nat) (result : Except ToolError Unit) (who : Spawner) :
    Option (Shared × Pc) :=
  if s.poolLock ≠ none then none
  else
    match who, result with
    | .lease l, .ok () => some (s.finishReservation id (some id), .store l id)
    | .lease l, .error e => some ((s.finishReservation id none).unlockSession l.session, .done (.error e))
    | .ensure worker after, .ok () => some (s.finishReservation id (some id), .dying worker .ensure after)
    | .ensure worker after, .error _ => some (afterDying (s.finishReservation id none) worker after)

/-- `require_lease_generation` is `none` when the call may go on. -/
def requireLeaseGeneration (current : Nat) (expected : Option Nat) : Option ToolError :=
  match expected with
  | none => none
  | some g => if current = g then none else some .databaseReplaced

def resolveStep (s : Shared) (session : String) (expected : Option Nat) (tool : String) (timeoutSecs : Nat) :
    Option (Shared × Pc) :=
  let st := s.sessions session
  if st.lock ≠ none then none
  else
    match st.handle with
    | none => some (s, .done (.error .noDatabaseOpen))
    | some lease =>
      match requireLeaseGeneration lease.generation expected with
      | some e => some (s, .done (.error e))
      | none => some (s, .waitCall ⟨session, lease.worker, lease.generation, .call expected, tool, timeoutSecs⟩)

/-- `call_tool` takes `call_lock` and looks at the state of the child. -/
def waitCallStep (s : Shared) (i : Nat) (op : Op) : Option (Shared × Pc) :=
  match s.slots op.worker with
  | none => none
  | some slot =>
    if slot.callLock ≠ none then none
    else if slot.state = .leased op.session then some (s.setCallLock op.worker (some i), .request op)
    else if slot.state = .dead then some (s, opFailed op (.workerCrashed op.worker op.tool))
    else some (s, opFailed op (op.notLeased slot.state))

/-- The child answered a request. -/
def answerStep (s : Shared) (op : Op) (result : CallToolResult) (decoded : Except String String) :
    Shared × Pc :=
  (s.setCallLock op.worker none,
    match op.kind with
    | .call _ =>
      match callResultFate result op.tool with
      | .ok => .done (.result result)
      | .err e => .done (.error e)
      | .retire e => .clear op e true
    | .openIdb _ =>
      match Remote.parseJson result "open_idb" decoded with
      | .ok path => .setIdbPath op path
      | .error e => opFailed op e)

def dyingStep (s : Shared) (worker : Nat) (phase : Phase) (after : After) : Option (Shared × Pc) :=
  match phase with
  | .take => some (s.kill worker, .dying worker .forget after)
  | .forget =>
    if s.poolLock ≠ none then none
    else if after = .shutdown then some (afterDying (s.forgetSlot worker) worker after)
    else some (s.forgetSlot worker, .dying worker .ensure after)
  | .ensure =>
    if s.config.floor = 0 then some (afterDying s worker after)
    else if s.poolLock ≠ none then none
    else if s.config.floor ≤ s.spawning.length + s.children.length ∨
        s.config.maxWorkers ≤ s.spawning.length + s.children.length then some (afterDying s worker after)
    else some (s.reserve, .spawn s.nextId (.ensure worker after))

/-- `clear_handle_if_worker`. -/
def clearHandle (s : Shared) (session : String) (worker : Nat) : Shared :=
  if (s.sessions session).handle.any (·.worker = worker) then s.setHandle session none else s

def clearStep (s : Shared) (op : Op) (err : ToolError) (retire : Bool) : Option (Shared × Pc) :=
  if (s.sessions op.session).lock ≠ none then none
  else
    some (clearHandle s op.session op.worker,
      if retire then .dying op.worker .take (.cleared op err) else .done (.error err))

/-- `take_handle`; `absent` is for a session without a lease. -/
def takeStep (s : Shared) (session : String) (cause : Cause) (absent : Ret) : Option (Shared × Pc) :=
  let st := s.sessions session
  if st.lock ≠ none then none
  else
    match st.handle with
    | none => some (s, .done absent)
    | some lease =>
      some (s.setHandle session none, .relWait ⟨session, lease.worker, lease.generation, cause⟩)

def closeIfStep (s : Shared) (session : String) (generation : Nat) : Option (Shared × Pc) :=
  let st := s.sessions session
  if st.lock ≠ none then none
  else if st.handle.all (·.generation ≠ generation) then some (s, .done (.conditional .notCurrent))
  else takeStep s session .closeIfGeneration (.conditional .notCurrent)

/-- `release_inner` takes `call_lock`. -/
def relWaitStep (s : Shared) (i : Nat) (rel : Release) : Option (Shared × Pc) :=
  match s.slots rel.worker with
  | none => none
  | some slot =>
    if slot.callLock ≠ none then none
    else if slot.state = .dead then some (s, .relCheck rel none)
    else some (s.setSlot rel.worker fun x => { x with state := .closing, callLock := some i }, .relRpc rel)

/-- The `close_idb` of a release came back with `err`. -/
def relRpcStep (s : Shared) (rel : Release) (err : Option ToolError) : Option (Shared × Pc) :=
  match err.filter releaseErrorRetiresWorker with
  | some e => some (s, .dying rel.worker .take (.release rel e))
  | none =>
    match (s.slots rel.worker).map Slot.state with
    | none => none
    | some .dead => some (s.setCallLock rel.worker none, .relCheck rel err)
    | some _ =>
      some (s.setSlot rel.worker fun x =>
        { x with state := .idle, lastUsed := s.clock, idbPath := none, callLock := none }, .relCheck rel none)

def closeError (result : CallToolResult) : Option ToolError :=
  if result.isError ≠ some true then none else Remote.resultError result "close_idb"

/-- What the caller of a release answers. -/
def Release.ret (rel : Release) (err : Option ToolError) : Ret :=
  match rel.cause, err with
  | .close, none | .sessionDropped, _ => .done
  | .closeIfGeneration, none => .conditional .closed
  | .openFailed _ e, _ | _, some e => .error e

def relCheckStep (s : Shared) (rel : Release) (err : Option ToolError) : Outcome Shared Pc :=
  ⟨s, .done (rel.ret err), if s.isIdle rel.worker then [.reapStart rel.worker] else []⟩

def reapStartStep (s : Shared) (worker : Nat) : Pc :=
  if s.config.workerIdleTimeout = 0 then .done .done
  else .reapSleep ⟨worker, s.clock, s.isIdle worker, ((s.slots worker).map Slot.leases).getD 0⟩

def reapCountStep (s : Shared) (t : Timer) (todo : List Nat) (liveCount : Nat) : Shared × Pc :=
  match todo with
  | worker :: todo => (s, .reapCount t todo (if s.isLive worker then liveCount + 1 else liveCount))
  | [] =>
    if liveCount ≤ s.config.minWorkers then (s.unlockPool, .done .done)
    else if (s.slots t.worker).any fun x => x.state = .idle && x.lastUsed ≤ t.sleepStarted then
      ((s.kill t.worker).unlockPool, .reapForget t.worker)
    else (s.unlockPool, .done .done)

/-- Without a guard a dropped task leaves nothing behind. -/
def dropped (s : Shared) : Option (Outcome Shared Pc) := some ⟨s, .done .dropped, []⟩

def exec (s : Shared) (i : Nat) (pc : Pc) (e : Event) : Option (Outcome Shared Pc) :=
  let ok (r : Option (Shared × Pc)) : Option (Outcome Shared Pc) := r.map fun (s', pc') => ⟨s', pc', []⟩
  match pc, e with
  | .openLock session secs, .go => ok (openStep s i session secs)
  | .openLock .., .drop => dropped s
  | .leaseWait l, .go =>
    if s.poolLock ≠ none then none
    else ok (some (s.lockPool i, .scan l s.children s.spawning.length [] []))
  | .leaseWait l, .drop => dropped (s.unlockSession l.session)
  | .scan l todo active deadIds seen, .go => ok (scanStep s l todo active deadIds seen)
  | .scan l .., .drop => dropped (s.unlockPool.unlockSession l.session)
  | .spawn id who, .go => ok (some (s.addSlot id who, .install id (.ok ()) who))
  | .spawn id who, .spawnFailed msg => ok (some (s, .install id (.error (.remoteProtocol msg)) who))
  | .spawn id who, .drop => dropSpawner s id false who
  | .install id result who, .go => ok (installStep s id result who)
  | .install id result who, .drop => dropSpawner s id result.isOk who
  | .store l worker, .go =>
    ok (some (s.setSession l.session fun x => { x with handle := some ⟨worker, l.generation⟩, lock := none },
      .waitCall ⟨l.session, worker, l.generation, .openIdb true, "open_idb", l.timeoutSecs⟩))
  | .callResolve session expected tool secs, .go => ok (resolveStep s session expected tool secs)
  | .callResolve .., .drop => dropped s
  | .waitCall op, .go => ok (waitCallStep s i op)
  | .waitCall _, .drop => dropped s
  | .request op, .answer result decoded => ok (some (answerStep s op result decoded))
  | .request op, .transport msg => ok (some (s, .dying op.worker .take (.call op (op.crashed msg))))
  | .request op, .timeout => ok (some (s, .dying op.worker .take (.call op op.timedOut)))
  | .request op, .cancel => ok (some (s, .dying op.worker .take (.call op op.cancelled)))
  | .request op, .drop =>
    some ⟨s.setCallLock op.worker none, .done .dropped, [.dying op.worker .take (.task op.origin)]⟩
  | .dying worker phase after, .go => ok (dyingStep s worker phase after)
  | .dying worker _ after, .drop => dropAfter s worker after
  | .clear op err retire, .go => ok (clearStep s op err retire)
  | .clear .., .drop => dropped s
  | .setIdbPath op path, .go =>
    ok (some (s.setSlot op.worker fun x => { x with idbPath := some path },
      .done (.opened ⟨path, op.generation⟩)))
  | .setIdbPath .., .drop => dropped s
  | .openTake op err, .go => ok (takeStep s op.session (.openFailed op.generation err) (.error err))
  | .openTake .., .drop => dropped s
  | .closeTake session, .go => ok (takeStep s session .close (.error .noDatabaseOpen))
  | .closeTake _, .drop => dropped s
  | .closeIfTake session generation, .go => ok (closeIfStep s session generation)
  | .closeIfTake .., .drop => dropped s
  | .sessionTake session, .go => ok (takeStep s session .sessionDropped .done)
  | .relWait rel, .go => ok (relWaitStep s i rel)
  | .relWait rel, .drop =>
    if rel.cause = .sessionDropped then none
    else some ⟨s, .done .dropped, [.dying rel.worker .take (.task rel.origin)]⟩
  | .relRpc rel, .answer result _ => ok (relRpcStep s rel (closeError result))
  | .relRpc rel, .transport msg => ok (relRpcStep s rel (some (callFailed "close_idb" msg)))
  | .relRpc rel, .timeout => ok (relRpcStep s rel (some (.timeout childCloseTimeoutSecs)))
  | .relRpc rel, .drop =>
    if rel.cause = .sessionDropped then none
    else some ⟨s.setCallLock rel.worker none, .done .dropped, [.dying rel.worker .take (.task rel.origin)]⟩
  | .relCheck rel err, .go => some (relCheckStep s rel err)
  | .relCheck rel _, .drop => if rel.cause = .sessionDropped then none else dropped s
  | .resDrop id hasSlot origin, .go =>
    if s.poolLock ≠ none then none
    else ok (some (s.finishReservation id none,
      if hasSlot then .dying id .take (.task origin) else .done .done))
  | .reapStart worker, .go => ok (some (s, reapStartStep s worker))
  | .reapSleep t, .go =>
    if t.sleepStarted + s.config.workerIdleTimeout ≤ s.clock ∧ s.poolLock = none then
      ok (some (s.lockPool i, .reapCount t s.children s.spawning.length))
    else none
  | .reapCount t todo liveCount, .go => ok (some (reapCountStep s t todo liveCount))
  | .reapForget worker, .go =>
    if s.poolLock ≠ none then none else ok (some (s.forgetSlot worker, .done .done))
  | _, _ => none

/-- The session whose state the task borrows. -/
def After.borrows : After → Option String
  | .call op _ | .cleared op _ => some op.session
  | .release rel _ => if rel.cause = .sessionDropped then none else some rel.session
  | .task _ | .shutdown => none

def Pc.borrows : Pc → Option String
  | .openLock session _ | .callResolve session _ _ _ | .closeTake session | .closeIfTake session _ => some session
  | .leaseWait l | .scan l _ _ _ _ | .store l _ | .spawn _ (.lease l) | .install _ _ (.lease l) => some l.session
  | .spawn _ (.ensure _ after) | .install _ _ (.ensure _ after) | .dying _ _ after => after.borrows
  | .waitCall op | .request op | .clear op _ _ | .setIdbPath op _ | .openTake op _ => some op.session
  | .relWait rel | .relRpc rel | .relCheck rel _ => if rel.cause = .sessionDropped then none else some rel.session
  | _ => none

def env (c : Conf Shared Pc) : Env → Option (Shared × List Pc)
  | .openIdb session secs =>
    if (c.shared.sessions session).dropped then none
    else some (c.shared, [.openLock session (c.shared.config.opTimeout secs)])
  | .call session expected tool secs =>
    if (c.shared.sessions session).dropped then none
    else some (c.shared, [.callResolve session expected tool (c.shared.config.opTimeout secs)])
  | .close session =>
    if (c.shared.sessions session).dropped then none else some (c.shared, [.closeTake session])
  | .closeIfGeneration session generation =>
    if (c.shared.sessions session).dropped then none else some (c.shared, [.closeIfTake session generation])
  | .dropSession session =>
    -- the last reference is gone, so no operation of the session is under way
    if (c.shared.sessions session).dropped ∨ ∃ pc ∈ c.threads, pc.borrows = some session then none
    else some (c.shared.setSession session fun x => { x with dropped := true }, [.sessionTake session])
  | .tick => some ({ c.shared with clock := c.shared.clock + 1 }, [])
  | .shutdownAll =>
    if c.shared.poolLock ≠ none then none
    else some (c.shared, c.shared.children.map fun w => .dying w .take .shutdown)

def program : Program Shared Pc Event Env := ⟨exec, env⟩

/-- A pool after `warm_min`, before the first request. -/
structure Init (c : Conf Shared Pc) : Prop where
  poolLock : c.shared.poolLock = none
  children : c.shared.children = List.range c.shared.config.floor
  spawning : c.shared.spawning = []
  nextId : c.shared.nextId = c.shared.config.floor
  warm : ∀ w < c.shared.config.floor, ∃ t ≤ c.shared.clock, c.shared.slots w = some { state := .idle, lastUsed := t }
  unused : ∀ w, c.shared.config.floor ≤ w → c.shared.slots w = none
  sessions : ∀ session, c.shared.sessions session = {}
  threads : c.threads = []

end IdaRs.Pool
