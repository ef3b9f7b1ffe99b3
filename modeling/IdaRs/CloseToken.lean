import IdaRs.Lib.Threads
import IdaRs.WorkerLoop

/-!
# Close tokens of the single-worker server (`src/ida/worker.rs`, `src/server/mod.rs`)

Requests of any number of sessions are threads over the request queue, the worker loop and the close
token. `open_idb` sends an `Open`, and issues the token when the answer is there; `close_idb` is
authorised, sends a `Close`, and clears the token when the answer is there; a background
`close_if_generation` sends its request and clears if the answer is `Closed`. A request may be dropped
at any await: what it has sent stays in the queue. `Env.serve` is one turn of the worker loop.

A token is a number: `generate_token` draws a fresh one. `grants` records what `open_idb` returned.
-/

namespace IdaRs.CloseToken

open Threads

structure Lease where
  token : Nat
  owner : String
deriving DecidableEq, Repr

/-- A close token that an `open_idb` of `session` returned for the database `generation`. -/
structure Grant where
  session : String
  token : Nat
  generation : Nat
deriving DecidableEq, Repr

/-- The arguments of a `close_idb`. -/
structure Closer where
  session : String
  token : Option Nat
  force : Bool
deriving DecidableEq, Repr

inductive IdaRequest
  | openIdb (path : String)
  | close (closer : Closer)
  | closeIfGeneration (generation : Nat)
  /-- A request that leaves the database open or closed as it is. -/
  | other
deriving DecidableEq, Repr

inductive Response
  | opened (r : Except ToolError OpenedDatabase)
  | closed
  | conditional (r : ConditionalCloseResult)
deriving DecidableEq, Repr

structure Shared where
  loop : LoopState
  /-- The queue of the loop; a request carries the number its answer is sent to. -/
  queue : List (Nat × IdaRequest)
  capacity : Nat
  responses : Nat → Option Response
  nextId : Nat
  lease : Option Lease
  nextToken : Nat
  grants : List Grant
  files : Files

inductive CloseAuthorization
  | granted
  | grantedByOverride (previousOwner : String)
  | denied (owner : String)
deriving DecidableEq, Repr

inductive Reply
  | opened (path : String) (grant : Except String (Nat × Bool))
  | closed
  | refused (owner : String)
  | conditional (r : ConditionalCloseResult)
  | error (e : ToolError)
  | dropped
deriving DecidableEq, Repr

inductive Pc
  | openSend (session path : String)
  | openWait (session : String) (id : Nat)
  | closeAuthorize (closer : Closer)
  | closeSend (closer : Closer)
  | closeWait (closer : Closer) (id : Nat)
  | conditionalSend (generation : Nat)
  | conditionalWait (id : Nat)
  | done (r : Reply)
deriving DecidableEq, Repr

inductive Event
  | go
  /-- The queue is full, or has been for five seconds. -/
  | busy
  | drop
deriving DecidableEq, Repr

inductive Env
  | openIdb (session path : String)
  | closeIdb (closer : Closer)
  | closeIfGeneration (generation : Nat)
  | other
  /-- The loop takes a request; `run` is what IDA makes of an open. -/
  | serve (run : OpenRun)
deriving DecidableEq, Repr

namespace Shared

/-- `issue_for_session`: the token and whether it is reused, or the owner it is refused for. -/
def issueForSession (s : Shared) (session : String) : Except String (Nat × Bool) :=
  match s.lease with
  | some lease => if lease.owner = session then .ok (lease.token, true) else .error lease.owner
  | none => .ok (s.nextToken, false)

/-- `issue_for_session` as `open_idb` calls it for the database it opened. -/
def issue (s : Shared) (session : String) (generation : Nat) : Shared :=
  match s.issueForSession session with
  | .error _ => s
  | .ok (token, reused) =>
    { s with
      lease := some ⟨token, session⟩
      nextToken := if reused then s.nextToken else s.nextToken + 1
      grants := ⟨session, token, generation⟩ :: s.grants }

def authorizeClose (s : Shared) (closer : Closer) : CloseAuthorization :=
  match s.lease with
  | none => .granted
  | some lease =>
    if closer.token = some lease.token ∨ lease.owner = closer.session then .granted
    else if closer.force then .grantedByOverride lease.owner
    else .denied lease.owner

def clear (s : Shared) : Shared := { s with lease := none }

/-- `try_send`; the caller waits for the answer at the number it gets. -/
def send (s : Shared) (req : IdaRequest) : Option (Shared × Nat) :=
  if s.queue.length < s.capacity then
    some ({ s with queue := s.queue ++ [(s.nextId, req)], nextId := s.nextId + 1 }, s.nextId)
  else none

def respond (s : Shared) (id : Nat) (r : Response) : Shared :=
  { s with responses := Function.update s.responses id (some r) }

/-- One turn of the loop. -/
def serve (s : Shared) (run : OpenRun) : Option Shared :=
  match s.queue with
  | [] => none
  | (id, req) :: queue =>
    let s := { s with queue }
    match req with
    | .openIdb path =>
      some ({ s with loop := (s.loop.serveOpen s.files path run).1 }.respond id
        (.opened (s.loop.serveOpen s.files path run).2))
    | .close _ => some ({ s with loop := s.loop.serveClose }.respond id .closed)
    | .closeIfGeneration generation =>
      some ({ s with loop := (s.loop.serveCloseIfGeneration generation).1 }.respond id
        (.conditional (s.loop.serveCloseIfGeneration generation).2))
    | .other => some s

end Shared

/-- One step of a request. -/
def pcStep (s : Shared) : Pc → Event → Option (Shared × Pc)
  | .openSend session path, .go => (s.send (.openIdb path)).map fun (s', id) => (s', .openWait session id)
  | .openSend .., .busy => some (s, .done (.error .busy))
  | .openWait session id, .go =>
    match s.responses id with
    | some (.opened (.ok db)) =>
      some (s.issue session db.generation, .done (.opened db.path (s.issueForSession session)))
    | some (.opened (.error e)) => some (s, .done (.error e))
    | _ => none
  | .closeAuthorize closer, .go =>
    match s.authorizeClose closer with
    | .denied owner => some (s, .done (.refused owner))
    | _ => some (s, .closeSend closer)
  | .closeSend closer, .go => (s.send (.close closer)).map fun (s', id) => (s', .closeWait closer id)
  | .closeSend _, .busy => some (s, .done (.error .busy))
  | .closeWait _ id, .go => if s.responses id = some .closed then some (s.clear, .done .closed) else none
  | .conditionalSend generation, .go =>
    (s.send (.closeIfGeneration generation)).map fun (s', id) => (s', .conditionalWait id)
  | .conditionalSend _, .busy => some (s, .done (.error .busy))
  | .conditionalWait id, .go =>
    match s.responses id with
    | some (.conditional .closed) => some (s.clear, .done (.conditional .closed))
    | some (.conditional .notCurrent) => some (s, .done (.conditional .notCurrent))
    | _ => none
  | .done _, _ => none
  | _, .drop => some (s, .done .dropped)
  | _, .busy => none

def exec (s : Shared) (_ : Nat) (pc : Pc) (e : Event) : Option (Outcome Shared Pc) :=
  (pcStep s pc e).map fun (s', pc') => { shared := s', thread := pc' }

def env (c : Conf Shared Pc) : Env → Option (Shared × List Pc)
  | .openIdb session path => some (c.shared, [.openSend session path])
  | .closeIdb closer => some (c.shared, [.closeAuthorize closer])
  | .closeIfGeneration generation => some (c.shared, [.conditionalSend generation])
  | .other => (c.shared.send .other).map fun (s', _) => (s', [])
  | .serve run => (c.shared.serve run).map fun s' => (s', [])

def program : Program Shared Pc Event Env := ⟨exec, env⟩

/-- A fresh server. -/
structure Init (c : Conf Shared Pc) : Prop where
  loop : c.shared.loop = {}
  queue : c.shared.queue = []
  responses : ∀ id, c.shared.responses id = none
  lease : c.shared.lease = none
  grants : c.shared.grants = []
  threads : c.threads = []

end IdaRs.CloseToken
