import IdaRs.Error
import IdaRs.Target

/-!
# Databases of the worker loop (`src/ida/loop_impl.rs`, `src/ida/handlers/database.rs`)

`LoopState` keeps what the loop decides on: the path of the open database, its generation and the
generation counter. What IDA makes of an open is an input, `OpenRun`.
-/

namespace IdaRs

/-- `ext.eq_ignore_ascii_case(want)`; `want` is in lower case. -/
def extensionIs (path want : String) : Bool :=
  (Path.extension path).any fun ext => decide (toAsciiLowercase ext = want.toList)

def unpackedId0Path (path : String) : Option String :=
  if extensionIs path "i64" || extensionIs path "idb" then some (Path.setExtension path "id0") else none

def rawInputMatchesGeneratedDatabase (raw database : String) : Bool :=
  !isIdbPath raw && Path.same (idbPathForRawBinary raw) database

def databasePathsMatch (current requested : String) : Bool :=
  Path.same current requested ||
    (unpackedId0Path current).any (Path.same · requested) ||
    (unpackedId0Path requested).any (Path.same · current) ||
    rawInputMatchesGeneratedDatabase requested current ||
    rawInputMatchesGeneratedDatabase current requested

/-- What comes of an open that finds no database open. -/
inductive OpenRun
  /-- The cancel token has fired. -/
  | cancelled
  | failed (e : ToolError)
  /-- IDA opened a database that reports this path. -/
  | opened (dbPath : String)
deriving DecidableEq, Repr

structure OpenedDatabase where
  path : String
  generation : Nat
deriving DecidableEq, Repr

inductive ConditionalCloseResult
  | closed
  | notCurrent
deriving DecidableEq, Repr

structure LoopState where
  /-- The path of the open database. -/
  idb : Option String := none
  generation : Option Nat := none
  nextGeneration : Nat := 0
deriving DecidableEq, Repr

namespace LoopState

/-- `handle_open`: the database open afterwards, and its path. -/
def handleOpen (st : LoopState) (files : Files) (path : String) (run : OpenRun) : Except ToolError String :=
  if run = .cancelled then .error (.cancelled "Operation cancelled by client")
  else
    match st.idb with
    | some current =>
      if databasePathsMatch current (expandPath files path) then .ok current
      else .error (.databaseAlreadyOpen current)
    | none =>
      match run with
      | .opened dbPath => .ok dbPath
      | .failed e => .error e
      | .cancelled => .error (.cancelled "Operation cancelled by client")

/-- `IdaRequest::Open`. -/
def serveOpen (st : LoopState) (files : Files) (path : String) (run : OpenRun) :
    LoopState × Except ToolError OpenedDatabase :=
  match st.handleOpen files path run with
  | .error e => (st, .error e)
  | .ok dbPath =>
    match st.idb, st.generation with
    -- the database was open before this request
    | some _, some generation => (st, .ok ⟨dbPath, generation⟩)
    | _, _ =>
      if st.nextGeneration + 1 < 2 ^ 64 then
        ({ idb := some dbPath, generation := some (st.nextGeneration + 1)
           nextGeneration := st.nextGeneration + 1 }, .ok ⟨dbPath, st.nextGeneration + 1⟩)
      else ({ st with idb := none }, .error (.idaError "database generation counter exhausted"))

/-- `IdaRequest::Close`. -/
def serveClose (st : LoopState) : LoopState := { st with idb := none, generation := none }

/-- `IdaRequest::CloseIfGeneration`. -/
def serveCloseIfGeneration (st : LoopState) (generation : Nat) : LoopState × ConditionalCloseResult :=
  if st.generation = some generation then (st.serveClose, .closed) else (st, .notCurrent)

/-- What an open can do: fail and change nothing, return the database that is open, or open the next one. -/
theorem serveOpen_cases {st : LoopState} (files : Files) (path : String) (run : OpenRun)
    (h : st.idb ≠ none → st.generation ≠ none) :
    (∃ e, st.serveOpen files path run = (st, .error e)) ∨
    (∃ current generation, st.idb = some current ∧ st.generation = some generation ∧ run ≠ .cancelled ∧
      databasePathsMatch current (expandPath files path) = true ∧
      st.serveOpen files path run = (st, .ok ⟨current, generation⟩)) ∨
    ∃ db, st.idb = none ∧ st.serveOpen files path run =
      (⟨some db, some (st.nextGeneration + 1), st.nextGeneration + 1⟩, .ok ⟨db, st.nextGeneration + 1⟩) := by
  unfold serveOpen handleOpen
  by_cases hrun : run = .cancelled
  · rw [if_pos hrun]
    exact .inl ⟨_, rfl⟩
  rw [if_neg hrun]
  cases hidb : st.idb with
  | some current =>
    obtain ⟨generation, hg⟩ := Option.ne_none_iff_exists'.1 (h (by rw [hidb]; nofun))
    by_cases hmatch : databasePathsMatch current (expandPath files path) = true
    · simp only [hmatch, if_true, hg]
      exact .inr (.inl ⟨current, generation, rfl, rfl, hrun, hmatch, rfl⟩)
    · simp only [hmatch]
      exact .inl ⟨_, rfl⟩
  | none =>
    cases run with
    | cancelled => exact absurd rfl hrun
    | failed e => exact .inl ⟨e, rfl⟩
    | opened db =>
      simp only
      split
      · exact .inr (.inr ⟨db, trivial, rfl⟩)
      · refine .inl ⟨.idaError "database generation counter exhausted", ?_⟩
        rw [← hidb]

end LoopState

end IdaRs
