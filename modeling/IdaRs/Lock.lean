import Mathlib.Algebra.Group.Int.Defs
import IdaRs.Error
import IdaRs.Lib.Threads
import IdaRs.Path
import IdaRs.Text

/-!
# MCP lock files (`src/ida/lock.rs`)

Processes over one file system, one system call a step. A lock path names an inode; `F_SETLK` locks
the inode, for the process; closing any descriptor of an inode drops the process's lock on it.
The worker loop runs one operation at a time and opens a database only while it holds no lock, so a
process starts `acquire_mcp_lock`, `remove_mcp_lock_for_pid` and `clean_stale_mcp_lock` from `idle`
and a release from `locked`. `release_mcp_lock`, `release_mcp_lock_file` and the `Drop` of `McpLock`
make the same two calls, `remove_file` and then the close: one event, `release`.
-/

namespace IdaRs.Lock

open Threads

/-- The process that has the `F_WRLCK` of an inode, with its pid for `F_GETLK`. -/
structure Owner where
  proc : Nat
  pid : Nat
deriving DecidableEq, Repr

structure Fs where
  names : String → Option Nat
  content : Nat → String
  locks : Nat → Option Owner
  nextInode : Nat
  /-- The values for which `kill(_, 0)` finds a process or a group, zombies included. -/
  signalable : List Int
  now : Nat

structure StaleLockInfo where
  path : String
  pid : Nat
  reason : String
deriving DecidableEq, Repr

/-- What the last operation of a process returned. -/
inductive Ret
  | unit
  | refused (e : ToolError)
  | cleaned (info : Option StaleLockInfo)
deriving DecidableEq, Repr

/-- Where a process is; each name is that of the call it makes next. -/
inductive Pc
  | idle (last : Ret)
  | acquireOpen (path : String)
  | acquireSetLk (path : String) (ino : Nat)
  | acquireGetLk (path : String) (ino : Nat)
  | acquireSetLen (path : String) (ino : Nat)
  | acquireWrite (path : String) (ino : Nat)
  /-- `acquire_mcp_lock` returned `Ok`. -/
  | locked (path : String) (ino : Nat)
  | releaseClose (ino : Nat)
  | removeOpen (path : String) (pid : Nat)
  | removeRead (path : String) (pid ino : Nat)
  | removeUnlink (path : String)
  | cleanExists (path : String)
  | cleanReadOpen (path : String)
  | cleanRead (path : String) (ino : Nat)
  | cleanKill (path : String) (pid : Nat)
  | cleanOpen (path : String)
  | cleanSetLk (path : String) (ino : Nat)
  | cleanClose (path : String) (ino : Nat)
  | cleanUnlink (path : String) (pid : Nat) (reason : String)
  | dead
deriving DecidableEq, Repr

structure Proc where
  pid : Nat
  host : String
  exe : String
  pc : Pc
deriving DecidableEq, Repr

inductive Event
  | acquire (db : String)
  /-- The first call of a release; `remove_file` may fail, which the code ignores. -/
  | release (removed : Bool)
  | removeForPid (db : String) (pid : Option Nat)
  | cleanStale (db : String)
  /-- The next system call. -/
  | go
  /-- The next system call fails, with the text of the error. -/
  | fail (msg : String)
  | crash
deriving DecidableEq, Repr

inductive Env
  | spawn (pid : Nat) (host exe : String)
  /-- Other processes come and go, zombies are reaped. -/
  | setSignalable (v : Int) (found : Bool)
  | tick
deriving DecidableEq, Repr

def lockPath (db : String) : String := Path.setExtension db "imcp"

/-- `pid as libc::pid_t`. -/
def asPidT (pid : Nat) : Int := if pid < 2 ^ 31 then pid else pid - 2 ^ 32

def Fs.isProcessRunning (fs : Fs) (pid : Nat) : Bool := decide (asPidT pid ∈ fs.signalable)

/-- The text `acquire_mcp_lock` writes. -/
def lockInfo (p : Proc) (now : Nat) : String :=
  "pid=" ++ p.pid.repr ++ "\nhost=" ++ p.host ++ "\nexe=" ++ p.exe ++ "\nopened_at=" ++ now.repr ++ "\n"

/-- The pid in the text of a lock file: the first line that starts with `pid=` decides. -/
def parseLockPid (text : String) : Option Nat :=
  ((strLines text.toList).findSome? (stripPrefix "pid=".toList)).bind fun rest =>
    parseUnsigned (2 ^ 32 - 1) (trim rest)

/-- `DatabaseLocked`, with the holder's pid when `F_GETLK` gave one. -/
def lockedError (path : String) (pid : Nat) : ToolError :=
  .databaseLocked (if pid > 0 then path ++ " (locked by pid " ++ pid.repr ++ ")" else path)

namespace Fs

/-- `open` with `create(true)`. -/
def openCreate (fs : Fs) (path : String) : Fs × Nat :=
  match fs.names path with
  | some ino => (fs, ino)
  | none =>
    ({ fs with
        names := Function.update fs.names path (some fs.nextInode)
        content := Function.update fs.content fs.nextInode ""
        nextInode := fs.nextInode + 1 }, fs.nextInode)

/-- `F_SETLK` by process `i` goes through. -/
def available (fs : Fs) (i ino : Nat) : Prop := (fs.locks ino).all (·.proc = i)

instance (fs : Fs) (i ino : Nat) : Decidable (fs.available i ino) := inferInstanceAs (Decidable (_ = true))

def setLk (fs : Fs) (i pid ino : Nat) : Fs :=
  { fs with locks := Function.update fs.locks ino (some ⟨i, pid⟩) }

def setContent (fs : Fs) (ino : Nat) (text : String) : Fs :=
  { fs with content := Function.update fs.content ino text }

/-- Process `i` closes a descriptor of `ino`. -/
def close (fs : Fs) (i ino : Nat) : Fs :=
  { fs with locks := Function.update fs.locks ino ((fs.locks ino).filter (·.proc ≠ i)) }

def unlink (fs : Fs) (path : String) : Fs := { fs with names := Function.update fs.names path none }

/-- Process `i` ends: the kernel closes what it has open. -/
def exit (fs : Fs) (i : Nat) : Fs := { fs with locks := fun ino => (fs.locks ino).filter (·.proc ≠ i) }

end Fs

/-- The next system call of process `i` and what the code does with its result. -/
def sysCall (fs : Fs) (i : Nat) (p : Proc) : Pc → Option (Fs × Pc)
  | .acquireOpen path => some ((fs.openCreate path).1, .acquireSetLk path (fs.openCreate path).2)
  | .acquireSetLk path ino =>
    if fs.available i ino then some (fs.setLk i p.pid ino, .acquireSetLen path ino)
    else some (fs, .acquireGetLk path ino)
  | .acquireGetLk path ino =>
    -- returning drops the file
    some (fs.close i ino, .idle (.refused (lockedError path (((fs.locks ino).map Owner.pid).getD 0))))
  | .acquireSetLen path ino => some (fs.setContent ino "", .acquireWrite path ino)
  | .acquireWrite path ino => some (fs.setContent ino (lockInfo p fs.now), .locked path ino)
  | .releaseClose ino => some (fs.close i ino, .idle .unit)
  | .removeOpen path pid =>
    match fs.names path with
    | none => some (fs, .idle .unit)
    | some ino => some (fs, .removeRead path pid ino)
  | .removeRead path pid ino =>
    some (fs.close i ino,
      if parseLockPid (fs.content ino) = some pid then .removeUnlink path else .idle .unit)
  | .removeUnlink path => some (fs.unlink path, .idle .unit)
  | .cleanExists path =>
    some (fs, if (fs.names path).isSome then .cleanReadOpen path else .idle (.cleaned none))
  | .cleanReadOpen path =>
    match fs.names path with
    | none => some (fs, .cleanOpen path)
    | some ino => some (fs, .cleanRead path ino)
  | .cleanRead path ino =>
    some (fs.close i ino,
      match parseLockPid (fs.content ino) with
      | some pid => .cleanKill path pid
      | none => .cleanOpen path)
  | .cleanKill path pid =>
    some (fs, if fs.isProcessRunning pid then .idle (.cleaned none)
      else .cleanUnlink path pid ("process " ++ pid.repr ++ " is no longer running"))
  | .cleanOpen path =>
    match fs.names path with
    | none => some (fs, .idle (.cleaned none))
    | some ino => some (fs, .cleanSetLk path ino)
  | .cleanSetLk path ino =>
    if fs.available i ino then some (fs.setLk i p.pid ino, .cleanClose path ino)
    else some (fs.close i ino, .idle (.cleaned none))
  | .cleanClose path ino =>
    some (fs.close i ino, .cleanUnlink path 0 "no valid PID and no fcntl lock held")
  | .cleanUnlink path pid reason =>
    -- `remove_file` of a path that is gone is an error
    some (fs.unlink path,
      .idle (.cleaned (if (fs.names path).isSome then some ⟨path, pid, reason⟩ else none)))
  | .idle _ | .locked .. | .dead => none

/-- What the code does when the next system call of process `i` fails. -/
def sysFail (fs : Fs) (i : Nat) (msg : String) : Pc → Option (Fs × Pc)
  | .acquireOpen path => some (fs, .idle (.refused (.openFailed (path ++ ": " ++ msg))))
  | .acquireSetLk path ino => some (fs, .acquireGetLk path ino)
  | .acquireGetLk path ino => some (fs.close i ino, .idle (.refused (lockedError path 0)))
  | .acquireSetLen path ino => some (fs, .acquireWrite path ino)
  | .acquireWrite path ino => some (fs, .locked path ino)
  | .removeOpen .. | .removeUnlink _ => some (fs, .idle .unit)
  | .removeRead _ _ ino => some (fs.close i ino, .idle .unit)
  | .cleanReadOpen path => some (fs, .cleanOpen path)
  | .cleanRead path ino => some (fs.close i ino, .cleanOpen path)
  | .cleanExists _ | .cleanOpen _ | .cleanUnlink .. => some (fs, .idle (.cleaned none))
  | .cleanSetLk _ ino => some (fs.close i ino, .idle (.cleaned none))
  | .cleanKill .. | .cleanClose .. | .releaseClose _ | .idle _ | .locked .. | .dead => none

/-- One step of process `i`. -/
def pcStep (fs : Fs) (i : Nat) (p : Proc) : Event → Option (Fs × Pc)
  | .crash => if p.pc = .dead then none else some (fs.exit i, .dead)
  | .go => sysCall fs i p p.pc
  | .fail msg => sysFail fs i msg p.pc
  | .release removed =>
    match p.pc with
    | .locked path ino => some (if removed then fs.unlink path else fs, .releaseClose ino)
    | _ => none
  | .acquire db =>
    match p.pc with
    | .idle _ => some (fs, .acquireOpen (lockPath db))
    | _ => none
  | .removeForPid db pid =>
    match p.pc, pid with
    | .idle _, some pid => some (fs, .removeOpen (lockPath db) pid)
    | .idle _, none => some (fs, .idle .unit)
    | _, _ => none
  | .cleanStale db =>
    match p.pc with
    | .idle _ => some (fs, .cleanExists (lockPath db))
    | _ => none

def exec (fs : Fs) (i : Nat) (p : Proc) (e : Event) : Option (Outcome Fs Proc) :=
  (pcStep fs i p e).map fun (fs', pc) => { shared := fs', thread := { p with pc } }

def env (c : Conf Fs Proc) : Env → Option (Fs × List Proc)
  | .spawn pid host exe =>
    if asPidT pid ∈ c.shared.signalable then none
    else some ({ c.shared with signalable := asPidT pid :: c.shared.signalable }, [⟨pid, host, exe, .idle .unit⟩])
  | .setSignalable v found =>
    if found then some ({ c.shared with signalable := v :: c.shared.signalable }, [])
    else if ∀ p ∈ c.threads, p.pc ≠ .dead → asPidT p.pid ≠ v then
      some ({ c.shared with signalable := c.shared.signalable.filter (· ≠ v) }, [])
    else none
  | .tick => some ({ c.shared with now := c.shared.now + 1 }, [])

def program : Program Fs Proc Event Env := ⟨exec, env⟩

/-- Before the first process: any files, no locks, every named inode allocated. -/
structure Init (c : Conf Fs Proc) : Prop where
  noProcs : c.threads = []
  noLocks : ∀ ino, c.shared.locks ino = none
  allocated : ∀ path ino, c.shared.names path = some ino → ino < c.shared.nextInode

/-- The path and inode of the acquired lock file: `F_SETLK` succeeded and no release has begun. -/
def Pc.held : Pc → Option (String × Nat)
  | .acquireSetLen path ino | .acquireWrite path ino | .locked path ino => some (path, ino)
  | _ => none

def Proc.Holds (p : Proc) (path : String) : Prop := p.pc.held.map Prod.fst = some path

instance (p : Proc) (path : String) : Decidable (p.Holds path) := inferInstanceAs (Decidable (_ = _))

end IdaRs.Lock
