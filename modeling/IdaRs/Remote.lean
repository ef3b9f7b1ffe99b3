import IdaRs.Error
import IdaRs.Text

/-!
# Reading a child's result (`src/ida/remote.rs`) and the fates it decides (`src/ida/pool.rs`)

A child renders its `ToolError` into text; the parent guesses the class back from substrings of the
lowered text (`classifyChildError`). Two consumers act on the guess: `callResultFate` (what
`call_result_for_generation` does with a result) and `openErrorReleasesLease`.
-/

namespace IdaRs

namespace Remote

def resultErrorMessage (result : CallToolResult) (tool : String) : String :=
  match result.content.head?.bind Content.asText with
  | some text => text
  | none => "child tool " ++ tool ++ " returned an error"

def classifyChildError (message : String) : ToolError :=
  let lowered := toAsciiLowercase message
  if containsText lowered "worker channel closed" then .workerClosed
  else if containsText lowered "timed out after" || containsText lowered "operation timed out" ||
      containsText lowered "exceeded worker operation timeout" then .timeoutDetailed message
  else if containsText lowered "cancelled" || containsText lowered "canceled" then .cancelled message
  else .idaError message

def resultError (result : CallToolResult) (tool : String) : Option ToolError :=
  if result.isError ≠ some true then none else some (classifyChildError (resultErrorMessage result tool))

/-- `parse_json`; `decoded` is what serde makes of a result that is not an error, with the text of
the protocol error when it refuses. -/
def parseJson {α : Type} (result : CallToolResult) (tool : String) (decoded : Except String α) :
    Except ToolError α :=
  match resultError result tool with
  | some err => .error err
  | none => decoded.mapError .remoteProtocol

end Remote

def releaseErrorRetiresWorker : ToolError → Bool
  | .timeout _ | .timeoutDetailed _ | .cancelled _ | .workerCrashed .. | .remoteProtocol _ |
    .workerClosed => true
  | _ => false

def childToolErrorRetiresWorker : ToolError → Bool
  | .workerClosed | .workerCrashed .. | .remoteProtocol _ => true
  | _ => false

def openErrorReleasesLease (freshLease : Bool) (err : ToolError) : Bool :=
  freshLease ||
    match err with
    | .timeout _ | .timeoutDetailed _ | .cancelled _ | .workerCrashed .. | .workerClosed => true
    | _ => false

/-- What `call_result_for_generation` does with the result of a call that went through. -/
inductive CallFate
  /-- Hand the result to the caller. -/
  | ok
  /-- Hand the error to the caller; worker and handle stay. -/
  | err (e : ToolError)
  /-- `clear_handle_if_worker`, then `mark_dead`, then the error. -/
  | retire (e : ToolError)
deriving DecidableEq, Repr

def callResultFate (result : CallToolResult) (tool : String) : CallFate :=
  match Remote.resultError result tool with
  | none => .ok
  | some e => if childToolErrorRetiresWorker e then .retire e else .err e

end IdaRs
