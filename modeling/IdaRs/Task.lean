import Mathlib.Data.List.Basic

/-!
# The task registry (`src/server/task.rs`)

The map is a list of ids with their entries. A cancellation token is a number, and `cancelled` the
tokens cancelled so far, by the registry or by anyone else (`Op.cancelToken`). Every operation runs under
the registry's mutex; `now k` is the `k`-th reading of the clock it makes. The JSON result of a task is an
arbitrary value, and the text of a UUID and the ISO text of the wall clock are inputs.
-/

namespace IdaRs.Task

def taskRetentionTtlMs : Nat := 24 * 60 * 60 * 1000

def maxTaskRegistryEntries : Nat := 256

inductive TaskOwner
  | session (id : String)
  | runtime
deriving DecidableEq, Repr

inductive TaskCreateError
  | alreadyRunning (id : String)
  | existingTaskIdIsPrivate
  | capacityExceeded (maxEntries : Nat)
deriving DecidableEq, Repr

inductive TaskStatus
  | running
  | completed
  | failed
  | cancelled
deriving DecidableEq, Repr

inductive TaskSettlement
  | completed
  | failed
  | cancelled
  | unchanged
deriving DecidableEq, Repr

inductive TaskCompletionDecision
  | completed
  | cancellationPending
  | unchanged
deriving DecidableEq, Repr

/-- A reading of the clock: an `Instant` in nanoseconds, and the ISO text of the wall clock. -/
structure Moment where
  instant : Nat
  iso : String
deriving DecidableEq, Repr

universe u v

structure TaskState (V : Type u) where
  id : String
  status : TaskStatus
  message : String
  result : Option V
  createdAt : Nat
  updatedAt : Nat
  createdAtIso : String
  updatedAtIso : String
  key : Option String
deriving DecidableEq, Repr

structure TaskEntry (V : Type u) where
  owner : TaskOwner
  state : TaskState V
  cancelToken : Option Nat := none
  cancelRequested : Option String := none
deriving DecidableEq, Repr

structure TaskRegistry (V : Type u) where
  entries : List (String × TaskEntry V) := []
  /-- The cancelled tokens. -/
  cancelled : List Nat := []
deriving DecidableEq, Repr

variable {V : Type u}

def refreshUpdated (state : TaskState V) (now : Moment) : TaskState V :=
  { state with updatedAt := now.instant, updatedAtIso := now.iso }

/-! ### One entry -/

namespace TaskEntry

abbrev Running (e : TaskEntry V) : Prop := e.state.status = .running

/-- With the tokens that are cancelled after the call. -/
def setCancelToken (e : TaskEntry V) (token : Nat) (cancelled : List Nat) : TaskEntry V × List Nat :=
  ({ e with cancelToken := some token }, if e.cancelRequested.isSome then token :: cancelled else cancelled)

def transitionCancelled (e : TaskEntry V) (message : String) (now : Moment) : TaskEntry V :=
  { e with
    cancelToken := none
    cancelRequested := none
    state := refreshUpdated { e.state with status := .cancelled, message } now }

def complete (e : TaskEntry V) (result : V) (now : Moment) : TaskEntry V × TaskSettlement :=
  if e.state.status ≠ .running then (e, .unchanged)
  else
    match e.cancelRequested with
    | some message => (e.transitionCancelled message now, .cancelled)
    | none =>
      ({ e with
          cancelToken := none
          state := refreshUpdated
            { e.state with status := .completed, message := "Completed", result := some result } now }, .completed)

def fail (e : TaskEntry V) (error : String) (now : Moment) : TaskEntry V × TaskSettlement :=
  if e.state.status ≠ .running then (e, .unchanged)
  else
    match e.cancelRequested with
    | some message => (e.transitionCancelled message now, .cancelled)
    | none =>
      ({ e with
          cancelToken := none
          state := refreshUpdated { e.state with status := .failed, message := error } now }, .failed)

def failAfterCleanupError (e : TaskEntry V) (error : String) (now : Moment) : TaskEntry V × TaskSettlement :=
  if e.state.status ≠ .running then (e, .unchanged)
  else
    ({ e with
        cancelRequested := none
        cancelToken := none
        state := refreshUpdated { e.state with status := .failed, message := error } now }, .failed)

def requestCancel (e : TaskEntry V) (message : String) (now : Moment) (cancelled : List Nat) :
    (TaskEntry V × List Nat) × Bool :=
  if e.state.status ≠ .running ∨ e.cancelRequested.isSome then ((e, cancelled), false)
  else
    (({ e with
          cancelRequested := some message
          state := refreshUpdated
            { e.state with message := message ++ "; waiting for the operation to settle" } now },
      e.cancelToken.toList ++ cancelled), true)

def finishCancelled (e : TaskEntry V) (message : String) (now : Moment) : TaskEntry V × Bool :=
  if e.state.status ≠ .running then (e, false) else (e.transitionCancelled message now, true)

def updateMessage (e : TaskEntry V) (message : String) (now : Moment) : TaskEntry V :=
  if e.state.status = .running ∧ e.cancelRequested = none then
    { e with state := refreshUpdated { e.state with message } now }
  else e

end TaskEntry

/-! ### The map -/

/-- `Duration::from_millis(TASK_RETENTION_TTL_MS)`, in nanoseconds. -/
def retention : Nat := taskRetentionTtlMs * 1000000

/-- What `prune_terminal_tasks` retains at `now`; a duration saturates at zero, like subtraction here. -/
def TaskEntry.retained (e : TaskEntry V) (now : Nat) : Bool :=
  decide (e.state.status = .running ∨ now - e.state.updatedAt < retention)

def pruneTerminalTasks (entries : List (String × TaskEntry V)) (now : Nat) : List (String × TaskEntry V) :=
  entries.filter fun x => x.2.retained now

/-- The order of `(updated_at, id)`. -/
def olderFirst (a b : Nat × String) : Bool := decide (a.1 < b.1 ∨ a.1 = b.1 ∧ a.2 ≤ b.2)

/-- The terminal entries as `(updated_at, id)`, least recently updated first. -/
def terminalByAge (entries : List (String × TaskEntry V)) : List (Nat × String) :=
  ((entries.filter fun x => decide (x.2.state.status ≠ .running)).map fun x =>
    (x.2.state.updatedAt, x.1)).mergeSort olderFirst

def reclaimCapacityForAdmission (entries : List (String × TaskEntry V)) : List (String × TaskEntry V) :=
  if entries.length < maxTaskRegistryEntries then entries
  else
    let excess := entries.length - maxTaskRegistryEntries + 1
    ((terminalByAge entries).take excess).foldl (fun entries victim => entries.filter (·.1 ≠ victim.2)) entries

def nextTaskId (pre uuid : String) : String := pre ++ "-" ++ uuid

namespace TaskRegistry

def keys (r : TaskRegistry V) : List String := r.entries.map Prod.fst

def get? (r : TaskRegistry V) (id : String) : Option (TaskEntry V) := r.entries.lookup id

/-- The entry that `get_mut` found is written back. -/
def set (r : TaskRegistry V) (id : String) (e : TaskEntry V) : TaskRegistry V :=
  { r with entries := r.entries.map fun x => if x.1 = id then (x.1, e) else x }

def prune (r : TaskRegistry V) (now : Nat) : TaskRegistry V :=
  { r with entries := pruneTerminalTasks r.entries now }

/-- The Running entry with this key. -/
def findRunning (r : TaskRegistry V) (key : String) : Option (String × TaskEntry V) :=
  r.entries.find? fun x => decide (x.2.Running ∧ x.2.state.key = some key)

def createKeyed (r : TaskRegistry V) (owner : TaskOwner) (pre key message uuid : String) (now : Nat → Moment) :
    TaskRegistry V × Except TaskCreateError String :=
  let r := r.prune (now 0).instant
  match r.findRunning key with
  | some existing =>
    match owner with
    | .session _ =>
      if existing.2.owner = owner then (r, .error (.alreadyRunning existing.2.state.id))
      else (r, .error .existingTaskIdIsPrivate)
    | .runtime => (r, .error .existingTaskIdIsPrivate)
  | none =>
    let entries := reclaimCapacityForAdmission r.entries
    if maxTaskRegistryEntries ≤ entries.length then
      ({ r with entries }, .error (.capacityExceeded maxTaskRegistryEntries))
    else
      let id := nextTaskId pre uuid
      let created := now 1
      let state : TaskState V :=
        { id, status := .running, message, result := none, createdAt := created.instant
          updatedAt := created.instant, createdAtIso := created.iso, updatedAtIso := created.iso, key := some key }
      ({ r with entries := entries.filter (·.1 ≠ id) ++ [(id, { owner, state })] }, .ok id)

/-- An operation on the entry of `id`, which then sweeps the map when `sweeps` says so of its answer. -/
def onEntry {α : Type} (r : TaskRegistry V) (id : String) (now : Nat → Moment) (sweeps : α → Bool) (absent : α)
    (f : TaskEntry V → (TaskEntry V × List Nat) × α) : TaskRegistry V × α :=
  match r.get? id with
  | none => (r, absent)
  | some e =>
    let r' := { r.set id (f e).1.1 with cancelled := (f e).1.2 }
    (if sweeps (f e).2 then r'.prune (now 1).instant else r', (f e).2)

def setCancelToken (r : TaskRegistry V) (id : String) (token : Nat) (now : Nat → Moment) : TaskRegistry V :=
  (r.onEntry id now (fun _ => false) () fun e => (e.setCancelToken token r.cancelled, ())).1

def get (r : TaskRegistry V) (id : String) (now : Nat → Moment) : TaskRegistry V × Option (TaskState V) :=
  let r := r.prune (now 0).instant
  (r, (r.get? id).map (·.state))

def getForOwner (r : TaskRegistry V) (owner : TaskOwner) (id : String) (now : Nat → Moment) :
    TaskRegistry V × Option (TaskState V) :=
  let r := r.prune (now 0).instant
  (r, ((r.get? id).filter fun e => decide (e.owner = owner)).map (·.state))

def updateMessage (r : TaskRegistry V) (id message : String) (now : Nat → Moment) : TaskRegistry V :=
  (r.onEntry id now (fun _ => false) () fun e => ((e.updateMessage message (now 0), r.cancelled), ())).1

/-- The settlement methods: `f` on the entry, and a sweep unless it was `Unchanged`. -/
def settle (r : TaskRegistry V) (id : String) (now : Nat → Moment)
    (f : TaskEntry V → TaskEntry V × TaskSettlement) : TaskRegistry V × TaskSettlement :=
  r.onEntry id now (fun s => decide (s ≠ .unchanged)) .unchanged fun e => (((f e).1, r.cancelled), (f e).2)

def complete (r : TaskRegistry V) (id : String) (result : V) (now : Nat → Moment) :
    TaskRegistry V × TaskSettlement :=
  r.settle id now fun e => e.complete result (now 0)

def completeWithCancelToken (r : TaskRegistry V) (id : String) (result : V) (token : Nat) (cancelMessage : String)
    (now : Nat → Moment) : TaskRegistry V × TaskSettlement :=
  r.settle id now fun e =>
    if token ∈ r.cancelled then
      let (e, finished) := e.finishCancelled cancelMessage (now 0)
      (e, if finished then .cancelled else .unchanged)
    else e.complete result (now 0)

def completeOrDeferCancellation (r : TaskRegistry V) (id : String) (result : V) (token : Nat) (now : Nat → Moment) :
    TaskRegistry V × TaskCompletionDecision :=
  r.onEntry id now (fun d => decide (d = .completed)) .unchanged fun e =>
    if e.state.status ≠ .running then ((e, r.cancelled), .unchanged)
    else if token ∈ r.cancelled ∨ e.cancelRequested.isSome then ((e, r.cancelled), .cancellationPending)
    else
      let (e, settlement) := e.complete result (now 0)
      ((e, r.cancelled), if settlement = .completed then .completed else .unchanged)

def fail (r : TaskRegistry V) (id error : String) (now : Nat → Moment) : TaskRegistry V × TaskSettlement :=
  r.settle id now fun e => e.fail error (now 0)

def failAfterCleanupError (r : TaskRegistry V) (id error : String) (now : Nat → Moment) :
    TaskRegistry V × TaskSettlement :=
  r.settle id now fun e => e.failAfterCleanupError error (now 0)

def cancelForOwner (r : TaskRegistry V) (owner : TaskOwner) (id : String) (now : Nat → Moment) :
    TaskRegistry V × Bool :=
  r.onEntry id now (fun b => b) false fun e =>
    if e.owner = owner then e.requestCancel "Cancelled by client" (now 0) r.cancelled else ((e, r.cancelled), false)

def finishCancelled (r : TaskRegistry V) (id message : String) (now : Nat → Moment) : TaskRegistry V × Bool :=
  r.onEntry id now (fun b => b) false fun e =>
    (((e.finishCancelled message (now 0)).1, r.cancelled), (e.finishCancelled message (now 0)).2)

/-- The fold of `cancel_all_running`: the entries, the cancelled tokens and the number of new requests. -/
def cancelEach (message : String) (now : Nat → Moment) :
    List (String × TaskEntry V) → List Nat → List (String × TaskEntry V) × List Nat × Nat
  | [], cancelled => ([], cancelled, 0)
  | x :: entries, cancelled =>
    let ((e, cancelled), new) := x.2.requestCancel message (now 0) cancelled
    let (entries, cancelled, count) := cancelEach message (fun k => now (k + 1)) entries cancelled
    ((x.1, e) :: entries, cancelled, count + new.toNat)

def cancelAllRunning (r : TaskRegistry V) (message : String) (now : Nat → Moment) : TaskRegistry V × Nat :=
  let (entries, cancelled, count) := cancelEach message now r.entries r.cancelled
  let r' : TaskRegistry V := ⟨entries, cancelled⟩
  (if 0 < count then r'.prune (now r.entries.length).instant else r', count)

end TaskRegistry

/-! ### Operations -/

inductive Op (V : Type u)
  | createKeyed (owner : TaskOwner) (pre key message uuid : String)
  | setCancelToken (id : String) (token : Nat)
  | get (id : String)
  | getForOwner (owner : TaskOwner) (id : String)
  | updateMessage (id message : String)
  | complete (id : String) (result : V)
  | completeWithCancelToken (id : String) (result : V) (token : Nat) (cancelMessage : String)
  | completeOrDeferCancellation (id : String) (result : V) (token : Nat)
  | fail (id error : String)
  | failAfterCleanupError (id error : String)
  | cancelForOwner (owner : TaskOwner) (id : String)
  | finishCancelled (id message : String)
  | cancelAllRunning (message : String)
  /-- Someone cancels a token, without the registry. -/
  | cancelToken (token : Nat)
deriving DecidableEq, Repr

inductive Answer (V : Type u)
  | created (r : Except TaskCreateError String)
  | state (s : Option (TaskState V))
  | settlement (s : TaskSettlement)
  | decision (d : TaskCompletionDecision)
  | accepted (b : Bool)
  | count (n : Nat)
  | unit
deriving DecidableEq

/-- The registry after a call, with its answer. -/
def reply {α : Type v} (p : TaskRegistry V × α) (f : α → Answer V) : TaskRegistry V × Answer V := (p.1, f p.2)

def step (r : TaskRegistry V) (now : Nat → Moment) : Op V → TaskRegistry V × Answer V
  | .createKeyed owner pre key message uuid => reply (r.createKeyed owner pre key message uuid now) .created
  | .setCancelToken id token => (r.setCancelToken id token now, .unit)
  | .get id => reply (r.get id now) .state
  | .getForOwner owner id => reply (r.getForOwner owner id now) .state
  | .updateMessage id message => (r.updateMessage id message now, .unit)
  | .complete id result => reply (r.complete id result now) .settlement
  | .completeWithCancelToken id result token cancelMessage =>
    reply (r.completeWithCancelToken id result token cancelMessage now) .settlement
  | .completeOrDeferCancellation id result token =>
    reply (r.completeOrDeferCancellation id result token now) .decision
  | .fail id error => reply (r.fail id error now) .settlement
  | .failAfterCleanupError id error => reply (r.failAfterCleanupError id error now) .settlement
  | .cancelForOwner owner id => reply (r.cancelForOwner owner id now) .accepted
  | .finishCancelled id message => reply (r.finishCancelled id message now) .accepted
  | .cancelAllRunning message => reply (r.cancelAllRunning message now) .count
  | .cancelToken token => ({ r with cancelled := token :: r.cancelled }, .unit)

/-- The id a creation gives its task. -/
def Op.newId : Op V → Option String
  | .createKeyed _ pre _ _ uuid => some (nextTaskId pre uuid)
  | _ => none

/-- The task an operation may settle. -/
def Op.settles : Op V → Option String
  | .complete id _ | .completeWithCancelToken id _ _ _ | .completeOrDeferCancellation id _ _ | .fail id _ |
    .failAfterCleanupError id _ | .finishCancelled id _ => some id
  | _ => none

/-- New ids are fresh. -/
def Fresh (r : TaskRegistry V) (op : Op V) : Prop := ∀ id, op.newId = some id → id ∉ r.keys

/-- A registry reached from a new one by operations with fresh ids, at any clock. -/
inductive Reachable : TaskRegistry V → Prop
  | new : Reachable {}
  | step {r : TaskRegistry V} {now : Nat → Moment} {op : Op V} :
      Reachable r → Fresh r op → Reachable (step r now op).1

end IdaRs.Task
