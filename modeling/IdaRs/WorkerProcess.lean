import IdaRs.Connection
import IdaRs.WorkerDispatch

/-!
# A worker process (`src/daemon/worker.rs` 20-250)

The main thread takes requests out of a queue and answers them; the connections put them there and wait, each for its own
answer. The loop of the main thread is ended by an `Exit` in the queue, from the connection that has written the reply to a
`shutdown`, or from the watchdog when the router has closed the pipe.

A step is one of one thread, up to where others can come in between. `channels` are the `oneshot` channels, `served` and
`written` the history: what was dispatched, and what was sent in full, from the first on.
-/

namespace IdaRs.WorkerProcess

open Connection (Request Response lineText)
open Serde (Json)

/-! ### The threads -/

/-- What `dispatch_inner` reads of a request. -/
def work (req : Request) : WorkerRequest := ⟨req.op, req.params, req.target⟩

/-- No response if it panics. -/
def respond (id : String) : WorkerAnswer → Option Response
  | .ok result => some (.success id result)
  | .error (.message e) => some (.failure id e)
  | .error .panics => none

def dispatchRequest (w : World) (mgr : TargetManager) (req : Request) : Option Response × TargetManager :=
  let answer := dispatchInner w mgr (work req)
  (respond req.id answer.1, answer.2)

/-- A request is named by the number of its channel. -/
inductive WorkItem
  | request (ticket : Nat) (request : Request)
  | exit

/-- What is in a channel. -/
inductive Slot
  | empty
  | sent (response : Response)
  /-- The sender is gone. -/
  | dropped

structure Channel where
  /-- The connection that has made it, and what it asks. -/
  connection : Nat
  request : Request
  slot : Slot

/-- Why the main loop has ended. -/
inductive Ending
  | exit
  | disconnected
  | panicked
deriving DecidableEq, Repr

inductive Main
  | recv
  | dispatch (ticket : Nat) (request : Request)
  | reply (ticket : Nat) (response : Response)
  /-- Out of the loop, with the receiver still there. -/
  | cleanup (why : Ending)
  | stopped (why : Ending)

inductive Watchdog
  | watch
  | exit
  | gone
deriving DecidableEq, Repr

inductive Server
  | bind
  | accept
  | gone
deriving DecidableEq, Repr

/-- Where a connection goes on after a write. -/
inductive After
  | next
  | hangUp
  | exit
deriving DecidableEq, Repr

inductive Conn
  | read
  | submit (request : Request)
  | wait (ticket : Nat) (request : Request)
  | write (ticket : Option Nat) (response : Response) (onOk onErr : After)
  | exit
  | closed

def After.conn : After → Conn
  | next => .read
  | hangUp => .closed
  | exit => .exit

/-- A request that was dispatched, and its response. -/
structure Served where
  ticket : Nat
  world : World
  request : Request
  response : Response

/-- A response that a connection has written, and to which of its requests. -/
structure Written where
  connection : Nat
  ticket : Option Nat
  response : Response

structure State where
  mgr : TargetManager
  queue : List WorkItem
  channels : List Channel
  main : Main
  watchdog : Watchdog
  server : Server
  connections : List Conn
  served : List Served
  written : List Written

inductive Event
  /-- The main thread, which the dispatch finds in a world. -/
  | main (w : World)
  | watchdog (ok : Bool)
  | server (ok : Bool)
  | go (i : Nat)
  /-- A line was read, or not. -/
  | line (i : Nat) (bytes : Except String (List UInt8))
  | writeFails (i : Nat)
  /-- The runtime is dropped. -/
  | cancel (i : Nat)

def Event.isMain : Event → Bool
  | main _ => true
  | _ => false

/-- `run_worker` before its loop. -/
def started (id : String) : State where
  mgr := TargetManager.new.seedNextId id
  queue := []
  channels := []
  main := .recv
  watchdog := .watch
  server := .bind
  connections := []
  served := []
  written := []

/-! ### Steps -/

def capacity : Nat := 64

namespace State

variable (s : State)

def receiving : Bool :=
  match s.main with
  | .stopped _ => false
  | _ => true

/-- Every `work_tx` is gone. -/
def disconnected : Bool :=
  s.watchdog = .gone && s.server = .gone && s.connections.all fun | .closed => true | _ => false

def tickets (queue : List WorkItem) : List Nat := queue.filterMap fun | .request k _ => some k | .exit => none

def setSlot (k : Nat) (slot : Slot) : State :=
  { s with channels := s.channels.modify k fun c => { c with slot } }

/-- The receiver is dropped, with what is in the queue. -/
def dropReceiver : State :=
  { s with
    queue := []
    channels := s.channels.mapIdx fun k c => if k ∈ tickets s.queue then { c with slot := .dropped } else c }

/-- The main thread; a call that blocks is no step. -/
def mainStep (w : World) : Option State :=
  match s.main with
  | .recv =>
    match s.queue with
    | .request k request :: queue => some { s with queue, main := .dispatch k request }
    | .exit :: queue => some { s with queue, main := .cleanup .exit }
    | [] => if s.disconnected then some { s with main := .cleanup .disconnected } else none
  | .dispatch k request =>
    match dispatchRequest w s.mgr request with
    | (some response, mgr) =>
      some { s with mgr, main := .reply k response, served := s.served ++ [⟨k, w, request, response⟩] }
    -- the manager and the sender of the reply go with the stack
    | (none, _) => some { s.setSlot k .dropped with main := .cleanup .panicked }
  | .reply k response => some { s.setSlot k (.sent response) with main := .recv }
  | .cleanup why => some { s.dropReceiver with main := .stopped why }
  | .stopped _ => none

/-- `send` of an `Exit`. -/
def sendExit : Option State :=
  if !s.receiving then some s
  else if s.queue.length < capacity then some { s with queue := s.queue ++ [.exit] }
  else none

def watchdogStep (ok : Bool) : Option State :=
  match s.watchdog, ok with
  -- the router never writes
  | .watch, true => some s
  | .watch, false => some { s with watchdog := .exit }
  | .exit, true => s.sendExit.map fun s => { s with watchdog := .gone }
  | _, _ => none

def serverStep (ok : Bool) : Option State :=
  match s.server, ok with
  | .bind, true => some { s with server := .accept }
  | .accept, true => some { s with connections := s.connections ++ [.read] }
  | .gone, _ => none
  | _, false => some { s with server := .gone }

def setConn (i : Nat) (c : Conn) : State := { s with connections := s.connections.set i c }

/-- `try_send` of a request. -/
def trySend (i : Nat) (request : Request) : State :=
  let k := s.channels.length
  if s.receiving && s.queue.length < capacity then
    { s with
      queue := s.queue ++ [.request k request]
      channels := s.channels ++ [⟨i, request, .empty⟩]
      connections := s.connections.set i (.wait k request) }
  else
    { s with
      channels := s.channels ++ [⟨i, request, .dropped⟩]
      connections := s.connections.set i
        (.write (some k) (.failure request.id "Worker busy or shutting down") .next .next) }

/-- What has come for a connection that waits. -/
def takeReply (i k : Nat) (request : Request) : Option State :=
  match s.channels[k]?.map Channel.slot with
  | some (.sent response) =>
    some (s.setConn i (.write (some k) response (if request.op = "shutdown" then .exit else .next) .hangUp))
  | some .dropped =>
    some (s.setConn i (.write (some k) (.failure request.id "Internal: reply dropped") .next .next))
  | _ => none

def goStep (i : Nat) : Option State :=
  match s.connections[i]? with
  | some (.submit request) => some (s.trySend i request)
  | some (.wait k request) => s.takeReply i k request
  | some (.write ticket response onOk _) =>
    some { s.setConn i onOk.conn with written := s.written ++ [⟨i, ticket, response⟩] }
  | some .exit => s.sendExit.map fun s => s.setConn i .closed
  | _ => none

end State

section

variable (parse : List Char → Except String Request)

/-- What a connection makes of a line. -/
def readLine : Except String (List UInt8) → Conn
  | .error e => .write none (.failure "?" ("Read error: " ++ e)) .hangUp .hangUp
  -- clean EOF
  | .ok [] => .closed
  | .ok bytes =>
    if lineText bytes = [] then .read
    else
      match parse (lineText bytes) with
      | .error e => .write none (.failure "?" ("Invalid JSON: " ++ e)) .next .next
      | .ok request => .submit request

/-- A connection is cancelled where it awaits. -/
def Conn.awaits : Conn → Bool
  | read | wait .. | write .. => true
  | _ => false

def step (s : State) : Event → Option State
  | .main w => s.mainStep w
  | .watchdog ok => s.watchdogStep ok
  | .server ok => s.serverStep ok
  | .go i => s.goStep i
  | .line i bytes =>
    match s.connections[i]? with
    | some .read => some (s.setConn i (readLine parse bytes))
    | _ => none
  | .writeFails i =>
    match s.connections[i]? with
    | some (.write _ _ _ onErr) => some (s.setConn i onErr.conn)
    | _ => none
  | .cancel i =>
    match s.connections[i]? with
    | some c => if s.server = .gone && c.awaits then some (s.setConn i .closed) else none
    | none => none

end

/-! ### One step -/

variable {parse : List Char → Except String Request} {s s' : State} {e : Event}

/-- What a connection does that concerns itself only. -/
inductive Conn.Moves (parse : List Char → Except String Request) : Conn → Conn → Prop
  | line (bytes : Except String (List UInt8)) : Moves parse .read (readLine parse bytes)
  | writeFails (ticket : Option Nat) (response : Response) (onOk onErr : After) :
      Moves parse (.write ticket response onOk onErr) onErr.conn
  | close (c : Conn) : Moves parse c .closed

/-- What a step can do, of the main thread or of another. -/
inductive Step (parse : List Char → Except String Request) (s : State) : Bool → State → Prop
  | take (k : Nat) (request : Request) (queue : List WorkItem) (hmain : s.main = .recv)
      (hqueue : s.queue = .request k request :: queue) : Step parse s true { s with queue, main := .dispatch k request }
  | takeExit (queue : List WorkItem) (hmain : s.main = .recv) (hqueue : s.queue = .exit :: queue) :
      Step parse s true { s with queue, main := .cleanup .exit }
  | disconnected (hmain : s.main = .recv) (hqueue : s.queue = []) (h : s.disconnected = true) :
      Step parse s true { s with queue := [], main := .cleanup .disconnected }
  | dispatch (k : Nat) (w : World) (request : Request) (response : Response) (mgr : TargetManager)
      (hmain : s.main = .dispatch k request) (h : dispatchRequest w s.mgr request = (some response, mgr)) :
      Step parse s true { s with mgr, main := .reply k response, served := s.served ++ [⟨k, w, request, response⟩] }
  | panic (k : Nat) (request : Request) (hmain : s.main = .dispatch k request) :
      Step parse s true { s.setSlot k .dropped with main := .cleanup .panicked }
  | reply (k : Nat) (response : Response) (hmain : s.main = .reply k response) :
      Step parse s true { s.setSlot k (.sent response) with main := .recv }
  | cleanup (why : Ending) (hmain : s.main = .cleanup why) : Step parse s true { s.dropReceiver with main := .stopped why }
  | same : Step parse s false s
  | routerGone (h : s.watchdog = .watch) : Step parse s false { s with watchdog := .exit }
  | watchdogExit (h : s.watchdog = .exit) (hroom : s.queue.length < capacity) :
      Step parse s false { s with queue := s.queue ++ [.exit], watchdog := .gone }
  | watchdogGone (h : s.watchdog = .exit) (hstopped : s.receiving = false) : Step parse s false { s with watchdog := .gone }
  | server (server : Server) : Step parse s false { s with server }
  | accept : Step parse s false { s with connections := s.connections ++ [.read] }
  | submit (i : Nat) (request : Request) (hi : s.connections[i]? = some (.submit request))
      (hreceiving : s.receiving = true) (hroom : s.queue.length < capacity) :
      Step parse s false { s with
        queue := s.queue ++ [.request s.channels.length request]
        channels := s.channels ++ [⟨i, request, .empty⟩]
        connections := s.connections.set i (.wait s.channels.length request) }
  | refuse (i : Nat) (request : Request) (hi : s.connections[i]? = some (.submit request)) :
      Step parse s false { s with
        channels := s.channels ++ [⟨i, request, .dropped⟩]
        connections := s.connections.set i (.write (some s.channels.length)
          (.failure request.id "Worker busy or shutting down") .next .next) }
  | answered (i k : Nat) (request : Request) (ch : Channel) (response : Response)
      (hi : s.connections[i]? = some (.wait k request)) (hch : s.channels[k]? = some ch)
      (hslot : ch.slot = .sent response) : Step parse s false (s.setConn i
        (.write (some k) response (if request.op = "shutdown" then .exit else .next) .hangUp))
  | dropped (i k : Nat) (request : Request) (ch : Channel) (hi : s.connections[i]? = some (.wait k request))
      (hch : s.channels[k]? = some ch) (hslot : ch.slot = .dropped) : Step parse s false (s.setConn i
        (.write (some k) (.failure request.id "Internal: reply dropped") .next .next))
  | write (i : Nat) (ticket : Option Nat) (response : Response) (onOk onErr : After)
      (hi : s.connections[i]? = some (.write ticket response onOk onErr)) :
      Step parse s false { s.setConn i onOk.conn with written := s.written ++ [⟨i, ticket, response⟩] }
  | exit (i : Nat) (hi : s.connections[i]? = some .exit) (hroom : s.queue.length < capacity) :
      Step parse s false { s.setConn i .closed with queue := s.queue ++ [.exit] }
  | move (i : Nat) (c c' : Conn) (hi : s.connections[i]? = some c) (h : c.Moves parse c') :
      Step parse s false (s.setConn i c')

theorem Step.of_mainStep {w : World} (h : s.mainStep w = some s') : Step parse s true s' := by
  unfold State.mainStep at h
  rcases hmain : s.main with _ | ⟨k, request⟩ | ⟨k, response⟩ | why | why
  · rw [hmain] at h
    rcases hqueue : s.queue with _ | ⟨⟨k, request⟩ | _, queue⟩
    · rw [hqueue] at h
      dsimp only at h
      split at h <;> cases h
      exact .disconnected hmain hqueue ‹_›
    · rw [hqueue] at h
      cases h
      exact .take k request queue hmain hqueue
    · rw [hqueue] at h
      cases h
      exact .takeExit queue hmain hqueue
  · rw [hmain] at h
    dsimp only at h
    rcases hdispatch : dispatchRequest w s.mgr request with ⟨_ | response, mgr⟩
    · rw [hdispatch] at h
      cases h
      exact .panic k request hmain
    · rw [hdispatch] at h
      cases h
      exact .dispatch k w request response mgr hmain hdispatch
  · rw [hmain] at h
    cases h
    exact .reply k response hmain
  · rw [hmain] at h
    cases h
    exact .cleanup why hmain
  · rw [hmain] at h
    cases h

/-- A `send` that is done: the receiver is gone, or there was room. -/
theorem sendExit_cases (h : s.sendExit = some s') :
    s.receiving = false ∧ s' = s ∨ s.queue.length < capacity ∧ s' = { s with queue := s.queue ++ [.exit] } := by
  unfold State.sendExit at h
  cases hreceiving : s.receiving with
  | false =>
    rw [hreceiving] at h
    exact .inl ⟨rfl, (Option.some.inj h).symm⟩
  | true =>
    rw [hreceiving] at h
    simp only [Bool.not_true, Bool.false_eq_true, if_false, Option.ite_none_right_eq_some, Option.some.injEq] at h
    exact .inr ⟨h.1, h.2.symm⟩

theorem Step.of_watchdogStep {ok : Bool} (h : s.watchdogStep ok = some s') : Step parse s false s' := by
  unfold State.watchdogStep at h
  split at h
  · cases h
    exact .same
  · cases h
    exact .routerGone ‹_›
  · rename_i hexit
    obtain ⟨s₁, hsend, rfl⟩ := Option.map_eq_some_iff.1 h
    rcases sendExit_cases hsend with ⟨hstopped, rfl⟩ | ⟨hroom, rfl⟩
    · exact .watchdogGone hexit hstopped
    · exact .watchdogExit hexit hroom
  · cases h

theorem Step.of_serverStep {ok : Bool} (h : s.serverStep ok = some s') : Step parse s false s' := by
  unfold State.serverStep at h
  split at h <;> cases h
  · exact .server .accept
  · exact .accept
  · exact .server .gone

theorem Step.of_goStep {i : Nat} (h : s.goStep i = some s') : Step parse s false s' := by
  unfold State.goStep at h
  split at h
  · rename_i request hi
    cases h
    unfold State.trySend
    split
    · rename_i hroom
      rw [Bool.and_eq_true, decide_eq_true_iff] at hroom
      exact .submit i request hi hroom.1 hroom.2
    · exact .refuse i request hi
  · rename_i k request hi
    unfold State.takeReply at h
    split at h
    · rename_i response hslot
      cases h
      obtain ⟨ch, hch, hslot⟩ := Option.map_eq_some_iff.1 hslot
      exact .answered i k request ch response hi hch hslot
    · rename_i hslot
      cases h
      obtain ⟨ch, hch, hslot⟩ := Option.map_eq_some_iff.1 hslot
      exact .dropped i k request ch hi hch hslot
    · cases h
  · rename_i ticket response onOk onErr hi
    cases h
    exact .write i ticket response onOk onErr hi
  · rename_i hi
    obtain ⟨s₁, hsend, rfl⟩ := Option.map_eq_some_iff.1 h
    rcases sendExit_cases hsend with ⟨-, rfl⟩ | ⟨hroom, rfl⟩
    · exact .move i .exit .closed hi (.close .exit)
    · exact .exit i hi hroom
  · cases h

theorem Step.of_step (h : step parse s e = some s') : Step parse s e.isMain s' := by
  rcases e with w | ok | ok | i | ⟨i, bytes⟩ | i | i
  · exact .of_mainStep h
  · exact .of_watchdogStep h
  · exact .of_serverStep h
  · exact .of_goStep h
  · simp only [step] at h
    split at h <;> cases h
    exact .move i .read _ ‹_› (.line bytes)
  · simp only [step] at h
    split at h <;> cases h
    exact .move i _ _ ‹_› (.writeFails ..)
  · simp only [step] at h
    split at h
    · split at h <;> cases h
      exact .move i _ .closed ‹_› (.close _)
    · cases h

end IdaRs.WorkerProcess
