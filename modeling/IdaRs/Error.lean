import Mathlib.Data.List.Infix

/-!
# Tool errors and the results a child renders them into (`src/error.rs`)

`ToolError` with the payload of every variant, `ToolError.toString` (the `#[error(..)]` texts) and
`ToolError.toToolResult`. A `CallToolResult` keeps the content blocks and the error flag; the
structured content of a successful result is only ever handed to serde and is left out.
-/

namespace IdaRs

inductive ToolError
  | noDatabaseOpen
  | databaseAlreadyOpen (path : String)
  | openFailed (msg : String)
  | databaseLocked (msg : String)
  | invalidAddress (addr : String)
  | invalidPath (path : String)
  | invalidParams (msg : String)
  | invalidToolCategory (name : String)
  | invalidToolName (name : String)
  | addressOutOfRange (addr : Nat)
  | functionNotFound (addr : Nat)
  | functionNameNotFound (name : String)
  | decompilerUnavailable
  | timeout (secs : Nat)
  | timeoutDetailed (msg : String)
  | cancelled (msg : String)
  | busy
  | databaseReplaced
  | backgroundTaskHandlePrivate
  | backgroundTaskRegistryFull (max : Nat)
  | poolExhausted (active max : Nat)
  | workerCrashed (workerId : Nat) (lastOp : String)
  | remoteProtocol (msg : String)
  | idaError (msg : String)
  | notSupported (msg : String)
  | workerClosed
  | sdkVersionMismatch (msg : String)
deriving DecidableEq, Repr

/-- `{:#x}`. -/
def hexLit (n : Nat) : String := "0x" ++ String.ofList (Nat.toDigits 16 n)

namespace ToolError

/-- The `#[error(..)]` text of each variant. -/
def toString : ToolError → String
  | noDatabaseOpen =>
    "No database is currently open. If you had one open previously, the server may have restarted — call open_idb again."
  | databaseAlreadyOpen path => "A database is already open: " ++ path ++ ". Use close_idb first."
  | openFailed msg => "Failed to open database: " ++ msg
  | databaseLocked msg => "Database appears to be open in another instance: " ++ msg
  | invalidAddress addr => "Invalid address format: " ++ addr
  | invalidPath path => "Invalid database path: " ++ path
  | invalidParams msg => "Invalid parameters: " ++ msg
  | invalidToolCategory name => "Invalid tool category: " ++ name
  | invalidToolName name => "Invalid tool name: " ++ name
  | addressOutOfRange addr => "Address " ++ hexLit addr ++ " is outside valid range"
  | functionNotFound addr => "Function not found at address " ++ hexLit addr
  | functionNameNotFound name => "Function not found: " ++ name
  | decompilerUnavailable => "Decompiler not available"
  | timeout secs => "Operation timed out after " ++ secs.repr ++ " seconds"
  | timeoutDetailed msg => msg
  | cancelled msg => msg
  | busy => "Server is busy (request queue full). Please retry."
  | databaseReplaced =>
    "The database this background operation opened was closed and replaced. Its remaining work was abandoned so it cannot touch the current database."
  | backgroundTaskHandlePrivate =>
    "Matching background work is already running; its task handle stays with the response that started it. Retry after it finishes."
  | backgroundTaskRegistryFull max =>
    "Background task registry is full (" ++ max.repr ++ " retained tasks). Retry after older results expire."
  | poolExhausted active max =>
    "Worker pool exhausted: " ++ active.repr ++ "/" ++ max.repr ++
      " workers are leased. Close an IDB or retry later."
  | workerCrashed workerId lastOp =>
    "Worker " ++ workerId.repr ++ " crashed or disconnected during " ++ lastOp
  | remoteProtocol msg => "Remote worker protocol error: " ++ msg
  | idaError msg => "IDA error: " ++ msg
  | notSupported msg => "Not supported: " ++ msg
  | workerClosed => "Worker channel closed"
  | sdkVersionMismatch msg => "SDK version mismatch: " ++ msg

end ToolError

/-- A content block of a tool result: a text, or a block that is not text. -/
inductive Content
  | text (text : String)
  | other
deriving DecidableEq, Repr

def Content.asText : Content → Option String
  | text t => some t
  | other => none

structure CallToolResult where
  content : List Content
  isError : Option Bool
deriving DecidableEq, Repr

/-- `CallToolResult::error`. -/
def CallToolResult.error (content : List Content) : CallToolResult := ⟨content, some true⟩

def ToolError.toToolResult (e : ToolError) : CallToolResult := .error [.text e.toString]

end IdaRs
