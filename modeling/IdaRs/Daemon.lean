import IdaRs.Lib.Threads

/-!
# Daemon start and stop (`run_router`, `ensure_single_instance`, `handle_connection` of `src/daemon/router.rs`)

Daemon processes over one cache directory: the socket file and the registry file, each with the process
that created it. A process runs `run_router`, and a task of `handle_connection` for each client that asks it
to shut down. A step is one system call or one signal between them. A process that ends, by itself or in a
crash, takes no more steps and leaves its files.

Worker sockets (`sweep_stale_worker_sockets`, `shutdown_all_workers`) carry the router's pid in their names
and are other files; the stop of the workers is one step without effect here.
-/

namespace IdaRs.Daemon

open Threads

structure Process where
  alive : Bool := false
  /-- It has bound the socket. -/
  bound : Bool := false
  /-- It has reached its accept loop. -/
  serving : Bool := false
  /-- `shutdown` was notified, or the accept loop ended. -/
  stopping : Bool := false
deriving DecidableEq, Repr

structure Shared where
  /-- The process that created the socket file, and the one that created the registry file. -/
  sock : Option Nat
  registry : Option Nat
  procs : Nat → Process
  /-- The next process number. -/
  next : Nat

inductive Pc
  /-- `sock_path.exists()`. -/
  | exists?
  | ping
  /-- The removals of `ensure_single_instance`. -/
  | removeStaleSock
  | removeStaleRegistry
  | bind
  | writeRegistry
  /-- `run_accept_loop`. -/
  | accept
  /-- The removals at the end of `run_router`. -/
  | cleanSock
  | cleanRegistry
  | exit
  /-- `handle_connection` of a `shutdown` request that was answered. -/
  | notify
  | dropSock
  | dropRegistry
  | shutdownWorkers
  | done
deriving DecidableEq, Repr

structure Task where
  pid : Nat
  pc : Pc
deriving DecidableEq, Repr

inductive Event
  | go
  /-- The system call fails. -/
  | fail
  /-- The registry file is created, and a later call of the start fails. -/
  | failLate
  /-- `ping_socket` returns. -/
  | answered (b : Bool)
deriving DecidableEq, Repr

inductive Env
  | start
  /-- A client's `shutdown` request is acknowledged. -/
  | shutdown (pid : Nat)
  | crash (pid : Nat)
deriving DecidableEq, Repr

namespace Shared

def update (s : Shared) (pid : Nat) (f : Process → Process) : Shared :=
  { s with procs := Function.update s.procs pid (f (s.procs pid)) }

def kill (s : Shared) (pid : Nat) : Shared := s.update pid fun p => { p with alive := false }

def stop (s : Shared) (pid : Nat) : Shared := s.update pid fun p => { p with stopping := true }

/-- Running, with the socket bound. -/
def Owner (s : Shared) (pid : Nat) : Prop := (s.procs pid).alive ∧ (s.procs pid).bound

end Shared

def pcStep (s : Shared) (pid : Nat) : Pc → Event → Option (Shared × Pc)
  | .exists?, .go => some (s, if s.sock = none then .bind else .ping)
  | .ping, .answered true => some (s.kill pid, .done)
  | .ping, .answered false => some (s, .removeStaleSock)
  | .removeStaleSock, .go =>
    if s.sock = none then some (s.kill pid, .done) else some ({ s with sock := none }, .removeStaleRegistry)
  | .removeStaleSock, .fail => some (s.kill pid, .done)
  | .removeStaleRegistry, .go => some ({ s with registry := none }, .bind)
  | .removeStaleRegistry, .fail => some (s, .bind)
  -- a socket file that exists, stale or not, makes the bind fail
  | .bind, .go =>
    if s.sock = none then
      some ({ s.update pid fun p => { p with bound := true } with sock := some pid }, .writeRegistry)
    else some (s.kill pid, .done)
  | .bind, .fail => some (s.kill pid, .done)
  | .writeRegistry, .go =>
    some ({ s.update pid fun p => { p with serving := true } with registry := some pid }, .accept)
  | .writeRegistry, .fail => some (s.kill pid, .done)
  | .writeRegistry, .failLate => some ({ s.kill pid with registry := some pid }, .done)
  | .accept, .go => if (s.procs pid).stopping then some (s, .cleanSock) else none
  -- an accept error ends the loop
  | .accept, .fail => some (s.stop pid, .cleanSock)
  | .cleanSock, .go => some ({ s with sock := none }, .cleanRegistry)
  | .cleanSock, .fail => some (s, .cleanRegistry)
  | .cleanRegistry, .go => some ({ s with registry := none }, .exit)
  | .cleanRegistry, .fail => some (s, .exit)
  | .exit, .go => some (s.kill pid, .done)
  | .notify, .go => some (s.stop pid, .dropSock)
  | .dropSock, .go => some ({ s with sock := none }, .dropRegistry)
  | .dropSock, .fail => some (s, .dropRegistry)
  | .dropRegistry, .go => some ({ s with registry := none }, .shutdownWorkers)
  | .dropRegistry, .fail => some (s, .shutdownWorkers)
  | .shutdownWorkers, .go => some (s, .done)
  | _, _ => none

def exec (s : Shared) (_ : Nat) (t : Task) (e : Event) : Option (Outcome Shared Task) :=
  if (s.procs t.pid).alive then (pcStep s t.pid t.pc e).map fun (s', pc) => { shared := s', thread := { t with pc } }
  else none

def env (c : Conf Shared Task) : Env → Option (Shared × List Task)
  | .start =>
    some ({ c.shared with
        procs := Function.update c.shared.procs c.shared.next { alive := true }, next := c.shared.next + 1 },
      [⟨c.shared.next, .exists?⟩])
  | .shutdown pid =>
    if (c.shared.procs pid).alive ∧ (c.shared.procs pid).serving then some (c.shared, [⟨pid, .notify⟩]) else none
  | .crash pid => some (c.shared.kill pid, [])

def program : Program Shared Task Event Env := ⟨exec, env⟩

/-- No process has started; files of earlier ones may be left. -/
structure Init (c : Conf Shared Task) : Prop where
  procs : ∀ pid, c.shared.procs pid = {}
  /-- The files are of processes that were numbered before. -/
  sock : ∀ pid, c.shared.sock = some pid → pid < c.shared.next
  registry : ∀ pid, c.shared.registry = some pid → pid < c.shared.next
  threads : c.threads = []

end IdaRs.Daemon
