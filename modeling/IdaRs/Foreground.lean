import IdaRs.Error
import IdaRs.Lib.Threads
import IdaRs.Operations
import IdaRs.Pool
import IdaRs.Values

/-!
# Foreground operations (`src/server/mod.rs` 866-1095)

`run_foreground_operation` waits for the call of a tool, for the client to cancel it or for the time, whatever comes first,
and tells the registry of operations. A task of its own takes the progress that the worker sends out of a channel and into
the registry. Operation and task are one thread; the registry is what the calls so far have made of it.

When the clock fires is left open, and what the call of the tool does besides sending progress.
-/

namespace IdaRs.Foreground

open Threads Operation

/-! ### Ids -/

/-- `{:0width x}`. -/
def hexPad (width n : Nat) : List Char :=
  List.replicate (width - (Nat.toDigits 16 n).length) '0' ++ Nat.toDigits 16 n

def nextOperationId (nowMs nonce : Nat) : String :=
  String.ofList ("fg-".toList ++ hexPad 16 nowMs ++ '-' :: hexPad 8 nonce)

theorem radixValue_hexPad (width n : Nat) : radixValue 16 (hexPad width n) = some n := by
  rw [hexPad, radixValue_zeros (by decide), radixValue_toDigits]

theorem dash_notMem_hexPad (width n : Nat) : '-' ∉ hexPad width n := by
  intro hmem
  have hdigit := radixValue_digits (radixValue_hexPad width n) _ hmem
  revert hdigit
  decide

theorem takeWhile_dash {s : List Char} (h : '-' ∉ s) (rest : List Char) :
    (s ++ '-' :: rest).takeWhile (· ≠ '-') = s := by
  have hs : ∀ c ∈ s, decide (c ≠ '-') = true := by
    intro c hc
    rw [decide_eq_true_iff]
    rintro rfl
    exact h hc
  rw [List.takeWhile_append_of_pos hs, List.takeWhile_cons_of_neg (by decide), List.append_nil]

theorem nextOperationId_toList (now n : Nat) :
    (nextOperationId now n).toList = "fg-".toList ++ hexPad 16 now ++ '-' :: hexPad 8 n := String.toList_ofList

/-- Ids with different nonces are different. -/
theorem nextOperationId_nonce {now now' n n' : Nat} (h : nextOperationId now n = nextOperationId now' n') : n = n' := by
  have hchars := congrArg (fun s => (s.toList.reverse).takeWhile (· ≠ '-')) h
  have hback : ∀ now n, ((nextOperationId now n).toList.reverse).takeWhile (· ≠ '-') = (hexPad 8 n).reverse := by
    intro now n
    rw [nextOperationId_toList, List.reverse_append, List.reverse_cons, List.append_assoc]
    exact takeWhile_dash (fun hmem => dash_notMem_hexPad 8 n (List.mem_reverse.1 hmem)) _
  simp only [hback, List.reverse_inj] at hchars
  have hvalue := radixValue_hexPad 8 n
  rw [hchars, radixValue_hexPad] at hvalue
  exact (Option.some.inj hvalue).symm

/-! ### Operations -/

/-- How an operation ends without a result. -/
inductive Broken
  /-- The call itself says so. -/
  | cancelled
  | cancelledByClient
  | timedOut (secs : Nat)
deriving DecidableEq, Repr

namespace Broken

def status : Broken → OperationStatus
  | cancelled | cancelledByClient => .cancelled
  | timedOut _ => .timedOut

def message (tool : String) : Broken → String
  | cancelled => tool ++ " cancelled"
  | cancelledByClient => tool ++ " cancelled by client"
  | timedOut secs => tool ++ " timed out after " ++ secs.repr ++ "s"

/-- The phase of `fallback_operation_snapshot`. -/
def phase : Broken → String
  | cancelled | cancelledByClient => "cancelled"
  | timedOut _ => "timed_out"

def call (why : Broken) (opId tool : String) : Call :=
  match why with
  | cancelled | cancelledByClient => .finishCancelled opId (why.message tool)
  | timedOut _ => .finishTimedOut opId (why.message tool)

end Broken

/-- What `run_foreground_operation` returns: a value, or a `ForegroundOperationError`. -/
inductive Reply (α : Type)
  | value (a : α)
  | tool (e : ToolError)
  | timedOut (secs : Nat) (snapshot : OperationSnapshot)
  | cancelled (snapshot : OperationSnapshot)

def Broken.reply {α : Type} (why : Broken) (snapshot : OperationSnapshot) : Reply α :=
  match why with
  | cancelled | cancelledByClient => .cancelled snapshot
  | timedOut secs => .timedOut secs snapshot

inductive Pc (α : Type)
  | register
  | select
  /-- The call is done; the progress it has sent comes first. -/
  | drain (result : Except ToolError α)
  /-- `finish_cancelled_foreground`. -/
  | cleanup (why : Broken)
  | settle (why : Broken)
  /-- The registry did not know the operation. -/
  | lookAgain (why : Broken)
  | done (reply : Reply α)

structure Op (α : Type) where
  id : String
  tool : String
  targetSummary : String
  /-- In seconds. -/
  timeout : Nat
  pc : Pc α
  /-- The progress in the channel, by phase and message, and all that was sent. -/
  channel : List (String × String) := []
  sent : List (String × String) := []
  /-- Whether somebody has a sender. -/
  sending : Bool := false
  /-- Whether the task that drains the channel runs. -/
  draining : Bool := false

structure Shared where
  /-- `operation_nonce`. -/
  nonce : Nat
  calls : List (Call × Moment)

inductive Event (α : Type)
  | go (now : Moment)
  | progress (phase message : String)
  | senderGone
  | drained (now : Moment)
  | finished (result : Except ToolError α)
  | clientCancels
  | timerFires
  /-- The call has come to its end after all, or six seconds have passed. -/
  | cleaned

/-- A tool calls `run_foreground_operation`. -/
inductive Env
  | start (tool targetSummary : String) (timeoutSecs : Option Nat) (defaultTimeoutSecs nowMs : Nat)

variable {α : Type}

def fallbackOperationSnapshot (opId tool phase : String) (status : OperationStatus) (message : String) :
    OperationSnapshot :=
  { opId, tool, targetSummary := "unknown", phase, status, message
    startedAtMs := 0, lastUpdateMs := 0, elapsedMs := 0 }

def Shared.call (s : Shared) (call : Call) (now : Moment) : Shared := { s with calls := s.calls ++ [(call, now)] }

/-- The steps of the operation itself. -/
def advance (s : Shared) (op : Op α) (now : Moment) : Option (Shared × Op α) :=
  match op.pc with
  | .register =>
    some (s.call (.start op.id op.tool op.targetSummary) now,
      { op with pc := .select, sending := true, draining := true })
  | .drain result =>
    if op.draining then none
    else
      match result with
      | .ok a =>
        some (s.call (.finishCompleted op.id (op.tool ++ " completed successfully")) now,
          { op with pc := .done (.value a) })
      | .error (.cancelled _) => some (s, { op with pc := .settle .cancelled })
      | .error e =>
        some (s.call (.finishFailed op.id (op.tool ++ " failed: " ++ e.toString)) now,
          { op with pc := .done (.tool e) })
  | .settle why =>
    some (s.call (why.call op.id op.tool) now,
      match ((registry s.calls).finish op.id why.status (why.message op.tool) now).2 with
      | some snapshot => { op with pc := .done (why.reply snapshot) }
      | none => { op with pc := .lookAgain why })
  | .lookAgain why =>
    some (s, { op with pc := .done (why.reply
      (((registry s.calls).snapshot op.id (now.instant 0)).getD
        (fallbackOperationSnapshot op.id op.tool why.phase why.status (why.message op.tool)))) })
  | _ => none

def exec (s : Shared) (_i : Nat) (op : Op α) (e : Event α) : Option (Outcome Shared (Op α)) :=
  match e with
  | .go now => (advance s op now).map fun x => { shared := x.1, thread := x.2 }
  | .progress phase message =>
    if op.sending then
      let update := [(phase, message)]
      some { shared := s, thread := { op with channel := op.channel ++ update, sent := op.sent ++ update } }
    else none
  | .senderGone => if op.sending then some { shared := s, thread := { op with sending := false } } else none
  | .drained now =>
    if op.draining then
      match op.channel with
      | (phase, message) :: channel =>
        some { shared := s.call (.recordProgress op.id phase message) now, thread := { op with channel } }
      | [] => if op.sending then none else some { shared := s, thread := { op with draining := false } }
    else none
  | .finished result =>
    match op.pc with
    | .select => some { shared := s, thread := { op with pc := .drain result } }
    | _ => none
  | .clientCancels =>
    match op.pc with
    | .select => some { shared := s, thread := { op with pc := .cleanup .cancelledByClient } }
    | _ => none
  | .timerFires =>
    match op.pc with
    | .select => some { shared := s, thread := { op with pc := .cleanup (.timedOut op.timeout) } }
    | _ => none
  | .cleaned =>
    match op.pc with
    -- `abort` of the task, and the wait for it
    | .cleanup why => some { shared := s, thread := { op with pc := .settle why, draining := false } }
    | _ => none

def env (c : Conf Shared (Op α)) : Env → Option (Shared × List (Op α))
  | .start tool targetSummary timeoutSecs defaultTimeoutSecs nowMs =>
    some ({ c.shared with nonce := (c.shared.nonce + 1) % 2 ^ 64 },
      [{ id := nextOperationId nowMs c.shared.nonce, tool, targetSummary, pc := .register
         timeout := min (timeoutSecs.getD defaultTimeoutSecs) Pool.maxTimeoutSecs }])

variable (α) in
def program : Program Shared (Op α) (Event α) Env := ⟨exec, env⟩

def Init (c : Conf Shared (Op α)) : Prop := c = ⟨⟨0, []⟩, []⟩

/-- The counter does not come round. -/
def NoWrap (c : Conf Shared (Op α)) (_ : Act (Event α) Env) : Prop := c.shared.nonce + 1 < 2 ^ 64

/-! ### The registry, for one operation -/

variable {id : String} {r : OperationRegistry} {calls : List (Call × Moment)} {c : Call × Moment}

theorem lookup_filter_other {l : List (String × OperationState)} {other : String} (h : id ≠ other) :
    (l.filter (·.1 ≠ other)).lookup id = l.lookup id := by
  induction l with
  | nil => rfl
  | cons x l ih =>
    rw [List.filter_cons, List.lookup_cons]
    by_cases hx : x.1 = other
    · rw [if_neg (by rw [decide_eq_true_iff]; exact not_not_intro hx), ih]
      rw [beq_false_of_ne (hx ▸ h)]
    · rw [if_pos (decide_eq_true hx), List.lookup_cons, ih]

theorem lookup_filter_self (l : List (String × OperationState)) (id : String) :
    (l.filter (·.1 ≠ id)).lookup id = none := by
  rw [List.lookup_eq_none_iff]
  intro x hx
  have hne := of_decide_eq_true (List.mem_filter.1 hx).2
  exact bne_iff_ne.2 (Ne.symm hne)

theorem lookup_update {l : List (String × OperationState)} {other : String} {state : OperationState} :
    (l.map fun e => if e.1 = other then (e.1, state) else e).lookup id =
      (l.lookup id).map fun old => if id = other then state else old := by
  induction l with
  | nil => rfl
  | cons x l ih =>
    obtain ⟨key, old⟩ := x
    rw [List.map_cons, List.lookup_cons]
    by_cases hx : key = other
    · subst hx
      rw [if_pos rfl, List.lookup_cons, ih]
      by_cases hid : id = key
      · subst hid
        simp
      · simp [hid, beq_false_of_ne hid]
    · rw [if_neg hx, List.lookup_cons, ih]
      by_cases hid : id = key
      · subst hid
        simp [hx]
      · simp [beq_false_of_ne hid]

/-- What other operations do does not concern it. -/
theorem get?_apply_other (h : c.1.opId ≠ id) : (r.apply c).get? id = r.get? id := by
  unfold OperationRegistry.get?
  rcases apply_cases r c with ⟨-, state, e, -, -, heq⟩ | ⟨-, old, state, e, -, -, -, heq⟩ | ⟨-, e, -, -, heq⟩ |
    ⟨-, -, -, heq⟩ <;> rw [heq]
  · show (r.current.filter (·.1 ≠ c.1.opId) ++ [(c.1.opId, state)]).lookup id = _
    rw [List.lookup_append, lookup_filter_other (Ne.symm h), List.lookup_cons, beq_false_of_ne (Ne.symm h)]
    exact Option.or_none
  · show (r.current.map _).lookup id = _
    rw [lookup_update]
    simp only [if_neg (Ne.symm h)]
    exact Option.map_id'
  · exact lookup_filter_other (Ne.symm h)

theorem get?_start (tool targetSummary : String) (now : Moment) :
    (r.start id tool targetSummary now).get? id = some (.queued id tool targetSummary now) := by
  show ((r.current.filter fun x => x.1 ≠ id) ++ [(id, OperationState.queued id tool targetSummary now)]).lookup id = _
  rw [List.lookup_append, lookup_filter_self, List.lookup_cons, beq_self_eq_true]
  rfl

theorem get?_recordProgress {state : OperationState} (h : r.get? id = some state) (phase message : String)
    (now : Moment) : (r.recordProgress id phase message now).1.get? id = some (state.progressed phase message now) := by
  unfold OperationRegistry.recordProgress
  rw [h]
  show (r.current.map _).lookup id = _
  rw [lookup_update]
  have h : r.current.lookup id = some state := h
  rw [h, Option.map_some, if_pos rfl]

theorem finish_eq {state : OperationState} (h : r.get? id = some state) (status : OperationStatus) (message : String)
    (now : Moment) :
    (r.finish id status message now).2 = some ((state.finished status message now).snapshot (now.instant 0)) := by
  unfold OperationRegistry.finish
  rw [h]

/-- The calls about an operation. -/
def callsOf (calls : List (Call × Moment)) (id : String) : List Call :=
  (calls.map Prod.fst).filter (·.opId = id)

theorem callsOf_snoc (calls : List (Call × Moment)) (call : Call) (now : Moment) (id : String) :
    callsOf (calls ++ [(call, now)]) id = callsOf calls id ++ if call.opId = id then [call] else [] := by
  unfold callsOf
  rw [List.map_append, List.filter_append]
  congr 1
  by_cases h : call.opId = id <;> simp [h]

theorem callsOf_snoc_self {call : Call} (h : call.opId = id) (now : Moment) :
    callsOf (calls ++ [(call, now)]) id = callsOf calls id ++ [call] := by
  rw [callsOf_snoc, if_pos h]

theorem callsOf_snoc_other {call : Call} (h : call.opId ≠ id) (now : Moment) :
    callsOf (calls ++ [(call, now)]) id = callsOf calls id := by
  rw [callsOf_snoc, if_neg h, List.append_nil]

theorem registry_snoc (calls : List (Call × Moment)) (c : Call × Moment) :
    registry (calls ++ [c]) = (registry calls).apply c := registry_append calls c

/-! ### One step -/

variable {s s' : Shared} {op op' : Op α} {e : Event α} {i : Nat}

inductive Step (s : Shared) (op : Op α) : Shared → Op α → Prop
  | register (now : Moment) (hpc : op.pc = .register) : Step s op (s.call (.start op.id op.tool op.targetSummary) now)
      { op with pc := .select, sending := true, draining := true }
  | complete (a : α) (now : Moment) (hpc : op.pc = .drain (.ok a)) (hdrained : op.draining = false) :
      Step s op (s.call (.finishCompleted op.id (op.tool ++ " completed successfully")) now)
        { op with pc := .done (.value a) }
  | giveUp (text : String) (hpc : op.pc = .drain (.error (.cancelled text))) (hdrained : op.draining = false) :
      Step s op s { op with pc := .settle .cancelled }
  | fail (e : ToolError) (now : Moment) (hpc : op.pc = .drain (.error e)) (hdrained : op.draining = false) :
      Step s op (s.call (.finishFailed op.id (op.tool ++ " failed: " ++ e.toString)) now)
        { op with pc := .done (.tool e) }
  | settle (why : Broken) (now : Moment) (snapshot : OperationSnapshot) (hpc : op.pc = .settle why)
      (h : ((registry s.calls).finish op.id why.status (why.message op.tool) now).2 = some snapshot) :
      Step s op (s.call (why.call op.id op.tool) now) { op with pc := .done (why.reply snapshot) }
  | unknown (why : Broken) (now : Moment) (hpc : op.pc = .settle why)
      (h : ((registry s.calls).finish op.id why.status (why.message op.tool) now).2 = none) :
      Step s op (s.call (why.call op.id op.tool) now) { op with pc := .lookAgain why }
  | lookAgain (why : Broken) (reply : Reply α) (hpc : op.pc = .lookAgain why) : Step s op s { op with pc := .done reply }
  | progress (update : String × String) (h : op.sending = true) :
      Step s op s { op with channel := op.channel ++ [update], sent := op.sent ++ [update] }
  | senderGone (h : op.sending = true) : Step s op s { op with sending := false }
  | record (update : String × String) (channel : List (String × String)) (now : Moment) (hdraining : op.draining = true)
      (h : op.channel = update :: channel) :
      Step s op (s.call (.recordProgress op.id update.1 update.2) now) { op with channel }
  | drained (hdraining : op.draining = true) (h : op.channel = []) (hgone : op.sending = false) :
      Step s op s { op with draining := false }
  | finished (result : Except ToolError α) (hpc : op.pc = .select) : Step s op s { op with pc := .drain result }
  | breakOff (why : Broken) (hpc : op.pc = .select) (h : why = .cancelledByClient ∨ why = .timedOut op.timeout) :
      Step s op s { op with pc := .cleanup why }
  | cleaned (why : Broken) (hpc : op.pc = .cleanup why) :
      Step s op s { op with pc := .settle why, draining := false }

theorem Step.of_advance {now : Moment} {x : Shared × Op α} (h : advance s op now = some x) : Step s op x.1 x.2 := by
  unfold advance at h
  rcases hpc : op.pc with _ | _ | result | why | why | why | reply
  · rw [hpc] at h
    cases h
    exact .register now hpc
  · rw [hpc] at h
    cases h
  · rw [hpc] at h
    dsimp only at h
    split at h
    · cases h
    rename_i hdrained
    have hdrained := Bool.eq_false_iff.2 hdrained
    split at h
    · cases h
      exact .complete _ now hpc hdrained
    · cases h
      exact .giveUp _ hpc hdrained
    · cases h
      exact .fail _ now hpc hdrained
  · rw [hpc] at h
    cases h
  · rw [hpc] at h
    dsimp only at h
    split at h <;> cases h
    · exact .settle why now _ hpc ‹_›
    · exact .unknown why now hpc ‹_›
  · rw [hpc] at h
    cases h
    exact .lookAgain why _ hpc
  · rw [hpc] at h
    cases h

theorem Step.of_exec {o : Outcome Shared (Op α)} (h : exec s i op e = some o) :
    Step s op o.shared o.thread ∧ o.spawned = [] := by
  unfold exec at h
  rcases e with now | ⟨phase, message⟩ | _ | now | result | _ | _ | _
  · obtain ⟨x, hx, rfl⟩ := Option.map_eq_some_iff.1 h
    exact ⟨.of_advance hx, rfl⟩
  · dsimp only at h
    split at h <;> cases h
    exact ⟨.progress (phase, message) ‹_›, rfl⟩
  · dsimp only at h
    split at h <;> cases h
    exact ⟨.senderGone ‹_›, rfl⟩
  · dsimp only at h
    split at h
    · rename_i hdraining
      split at h
      · rename_i phase message channel hchannel
        cases h
        exact ⟨.record (phase, message) channel now hdraining hchannel, rfl⟩
      · rename_i hchannel
        split at h <;> cases h
        exact ⟨.drained hdraining hchannel (Bool.eq_false_iff.2 ‹_›), rfl⟩
    · cases h
  · dsimp only at h
    split at h <;> cases h
    exact ⟨.finished result ‹_›, rfl⟩
  · dsimp only at h
    split at h <;> cases h
    exact ⟨.breakOff .cancelledByClient ‹_› (.inl rfl), rfl⟩
  · dsimp only at h
    split at h <;> cases h
    exact ⟨.breakOff (.timedOut op.timeout) ‹_› (.inr rfl), rfl⟩
  · dsimp only at h
    split at h <;> cases h
    exact ⟨.cleaned _ ‹_›, rfl⟩

theorem Step.id_eq (h : Step s op s' op') : op'.id = op.id := by cases h <;> rfl

/-- A step makes no call, or one about its own operation. -/
theorem Step.shared (h : Step s op s' op') : s' = s ∨ ∃ call now, call.opId = op.id ∧ s' = s.call call now := by
  cases h with
  | register now | complete _ now | fail _ now | record _ _ now => exact .inr ⟨_, now, rfl, rfl⟩
  | settle why now | unknown why now =>
    refine .inr ⟨_, now, ?_, rfl⟩
    cases why <;> rfl
  | _ => exact .inl rfl

/-! ### What the registry knows of an operation -/

/-- The phase after the progress `taken`. -/
def lastPhase (taken : List (String × String)) : String := (taken.getLast?.map Prod.fst).getD "queued"

/-- The calls of an operation in flight. -/
def Op.begun (op : Op α) (taken : List (String × String)) : List Call :=
  .start op.id op.tool op.targetSummary :: taken.map fun u => .recordProgress op.id u.1 u.2

/-- The registry has the operation, with the progress it was told of; the rest is in the channel. -/
structure Running (s : Shared) (op : Op α) (taken : List (String × String)) : Prop where
  took : op.sent = taken ++ op.channel
  calls : callsOf s.calls op.id = op.begun taken
  state : ∃ state, (registry s.calls).get? op.id = some state ∧ state.opId = op.id ∧ state.tool = op.tool ∧
    state.targetSummary = op.targetSummary ∧ state.phase = lastPhase taken

/-- The task has taken all that was sent, and nothing more comes. -/
def Op.Flushed (op : Op α) : Prop := op.channel = [] ∧ op.sending = false

/-- A snapshot of the operation when it is broken off. -/
structure Own (op : Op α) (taken : List (String × String)) (why : Broken) (snapshot : OperationSnapshot) : Prop where
  opId : snapshot.opId = op.id
  tool : snapshot.tool = op.tool
  targetSummary : snapshot.targetSummary = op.targetSummary
  status : snapshot.status = why.status
  message : snapshot.message = why.message op.tool
  phase : snapshot.phase = finishedPhase why.status (lastPhase taken)

/-- What an operation replies, and the last call about it. -/
inductive Told (op : Op α) (taken : List (String × String)) : Reply α → Call → Prop
  | value (a : α) (h : op.Flushed) :
      Told op taken (.value a) (.finishCompleted op.id (op.tool ++ " completed successfully"))
  | tool (e : ToolError) (h : op.Flushed) :
      Told op taken (.tool e) (.finishFailed op.id (op.tool ++ " failed: " ++ e.toString))
  | broken (why : Broken) (snapshot : OperationSnapshot) (h : Own op taken why snapshot)
      (hflushed : why = .cancelled → op.Flushed) (htimeout : ∀ secs, why = .timedOut secs → secs = op.timeout) :
      Told op taken (why.reply snapshot) (why.call op.id op.tool)

def Op.Law (s : Shared) (op : Op α) : Prop :=
  match op.pc with
  | .register => callsOf s.calls op.id = [] ∧ op.sent = [] ∧ op.Flushed ∧ op.draining = false
  | .select => ∃ taken, Running s op taken ∧ (op.draining = false → op.Flushed)
  | .drain _ => ∃ taken, Running s op taken ∧ (op.draining = false → op.Flushed)
  | .cleanup why => (∃ taken, Running s op taken) ∧ why ≠ .cancelled ∧ ∀ secs, why = .timedOut secs → secs = op.timeout
  | .settle why => (∃ taken, Running s op taken) ∧ op.draining = false ∧ (why = .cancelled → op.Flushed) ∧
      ∀ secs, why = .timedOut secs → secs = op.timeout
  | .lookAgain _ => False
  | .done reply => ∃ taken last, op.sent = taken ++ op.channel ∧ callsOf s.calls op.id = op.begun taken ++ [last] ∧
      op.draining = false ∧ Told op taken reply last

variable {taken : List (String × String)}

theorem lastPhase_snoc (taken : List (String × String)) (update : String × String) :
    lastPhase (taken ++ [update]) = update.1 := by
  unfold lastPhase
  rw [List.getLast?_concat]
  rfl

theorem Running.record (h : Running s op taken) {update : String × String} {channel : List (String × String)}
    (hchannel : op.channel = update :: channel) (now : Moment) (pc : Pc α) (sending draining : Bool) :
    Running (s.call (.recordProgress op.id update.1 update.2) now) { op with pc, channel, sending, draining }
      (taken ++ [update]) := by
  refine ⟨?_, ?_, ?_⟩
  · show op.sent = _
    rw [h.took, hchannel, List.append_assoc]
    rfl
  · have hcall : (Call.recordProgress op.id update.1 update.2).opId = op.id := rfl
    show callsOf (s.calls ++ [_]) op.id = _
    rw [callsOf_snoc_self hcall, h.calls]
    simp only [Op.begun, List.map_append, List.map_cons, List.map_nil, List.cons_append]
  · obtain ⟨state, hget, hid, htool, htarget, -⟩ := h.state
    refine ⟨state.progressed update.1 update.2 now, ?_, hid, htool, htarget, (lastPhase_snoc taken update).symm⟩
    show (registry (s.calls ++ [_])).get? op.id = _
    rw [registry_snoc]
    exact get?_recordProgress hget update.1 update.2 now

/-- The registry knows the operation until it finishes it: there is no need for `fallback_operation_snapshot`. -/
theorem Running.finish (h : Running s op taken) (why : Broken) (now : Moment) :
    ∃ snapshot, ((registry s.calls).finish op.id why.status (why.message op.tool) now).2 = some snapshot ∧
      Own op taken why snapshot := by
  obtain ⟨state, hget, hid, htool, htarget, hphase⟩ := h.state
  refine ⟨_, finish_eq hget why.status (why.message op.tool) now, hid, htool, htarget, rfl, rfl, ?_⟩
  show finishedPhase why.status state.phase = _
  rw [hphase]

theorem Running.last (h : Running s op taken) {call : Call} (hcall : call.opId = op.id) (now : Moment) :
    callsOf (s.call call now).calls op.id = op.begun taken ++ [call] := by
  show callsOf (s.calls ++ [_]) op.id = _
  rw [callsOf_snoc_self hcall, h.calls]

/-- Progress is sent, or a sender dropped. -/
theorem Running.sending (h : Running s op taken) (update : List (String × String)) (pc : Pc α) (sending draining : Bool) :
    Running s { op with pc, channel := op.channel ++ update, sent := op.sent ++ update, sending, draining } taken := by
  refine ⟨?_, h.calls, h.state⟩
  show op.sent ++ update = taken ++ (op.channel ++ update)
  rw [h.took, List.append_assoc]

theorem Running.pc (h : Running s op taken) (pc : Pc α) (sending draining : Bool) :
    Running s { op with pc, sending, draining } taken := ⟨h.took, h.calls, h.state⟩

theorem Broken.call_opId (why : Broken) (opId tool : String) : (why.call opId tool).opId = opId := by
  cases why <;> rfl

theorem Flushed.not_sending (h : op.Flushed) : op.sending ≠ true := by
  rw [h.2]
  exact Bool.false_ne_true

/-- An operation that was told is told of nothing that comes after. -/
theorem Told.congr {reply : Reply α} {last : Call} (h : Told op taken reply last) (hid : op'.id = op.id)
    (htool : op'.tool = op.tool) (htarget : op'.targetSummary = op.targetSummary) (htimeout : op'.timeout = op.timeout)
    (hflushed : op.Flushed → op'.Flushed) : Told op' taken reply last := by
  cases h with
  | value a h =>
    rw [← hid, ← htool]
    exact .value a (hflushed h)
  | tool e h =>
    rw [← hid, ← htool]
    exact .tool e (hflushed h)
  | broken why snapshot h hcancelled hsecs =>
    rw [← hid, ← htool]
    refine .broken why snapshot ?_ (fun hwhy => hflushed (hcancelled hwhy)) fun secs hwhy =>
      (hsecs secs hwhy).trans htimeout.symm
    exact ⟨h.opId.trans hid.symm, h.tool.trans htool.symm, h.targetSummary.trans htarget.symm, h.status,
      htool ▸ h.message, h.phase⟩

theorem Op.Law.step (h : op.Law s) (hstep : Step s op s' op') : op'.Law s' := by
  unfold Op.Law at h
  cases hstep with
  | register now hpc =>
    rw [hpc] at h
    obtain ⟨hcalls, hsent, ⟨hchannel, -⟩, -⟩ := h
    have hcall : (Call.start op.id op.tool op.targetSummary).opId = op.id := rfl
    refine ⟨[], ⟨?_, ?_, ?_⟩, by rintro ⟨⟩⟩
    · show op.sent = [] ++ op.channel
      rw [hsent, hchannel]
      rfl
    · show callsOf (s.calls ++ [_]) op.id = _
      rw [callsOf_snoc_self hcall, hcalls]
      rfl
    · refine ⟨.queued op.id op.tool op.targetSummary now, ?_, rfl, rfl, rfl, rfl⟩
      show (registry (s.calls ++ [_])).get? op.id = _
      rw [registry_snoc]
      exact get?_start _ _ _
  | complete a now hpc hdrained =>
    rw [hpc] at h
    obtain ⟨taken, hrunning, hflushed⟩ := h
    exact ⟨taken, _, hrunning.took, hrunning.last rfl now, hdrained, .value a (hflushed hdrained)⟩
  | giveUp text hpc hdrained =>
    rw [hpc] at h
    obtain ⟨taken, hrunning, hflushed⟩ := h
    exact ⟨⟨taken, hrunning.pc _ _ _⟩, hdrained, fun _ => hflushed hdrained, by rintro _ ⟨⟩⟩
  | fail e now hpc hdrained =>
    rw [hpc] at h
    obtain ⟨taken, hrunning, hflushed⟩ := h
    exact ⟨taken, _, hrunning.took, hrunning.last rfl now, hdrained, .tool e (hflushed hdrained)⟩
  | settle why now snapshot hpc hsnapshot =>
    rw [hpc] at h
    obtain ⟨⟨taken, hrunning⟩, hdrained, hflushed, hsecs⟩ := h
    obtain ⟨_, hfinish, hown⟩ := hrunning.finish why now
    obtain rfl := Option.some.inj (hsnapshot.symm.trans hfinish)
    have htold : Told op taken (why.reply snapshot) (why.call op.id op.tool) := .broken why snapshot hown hflushed hsecs
    exact ⟨taken, _, hrunning.took, hrunning.last (why.call_opId _ _) now, hdrained,
      htold.congr rfl rfl rfl rfl fun h => h⟩
  | unknown why now hpc hnone =>
    rw [hpc] at h
    obtain ⟨⟨taken, hrunning⟩, -⟩ := h
    obtain ⟨_, hfinish, -⟩ := hrunning.finish why now
    cases hnone.symm.trans hfinish
  | lookAgain why reply hpc =>
    rw [hpc] at h
    exact h.elim
  | progress update hsending =>
    have hnot : ¬ op.Flushed := fun hflushed => Flushed.not_sending hflushed hsending
    show Op.Law s { op with pc := op.pc, channel := op.channel ++ [update], sent := op.sent ++ [update] }
    unfold Op.Law
    rcases hpc : op.pc with _ | _ | result | why | why | why | reply <;> rw [hpc] at h
    · exact absurd h.2.2.1 hnot
    · obtain ⟨taken, hrunning, hflushed⟩ := h
      exact ⟨taken, hrunning.sending [update] _ _ _, fun hd => absurd (hflushed hd) hnot⟩
    · obtain ⟨taken, hrunning, hflushed⟩ := h
      exact ⟨taken, hrunning.sending [update] _ _ _, fun hd => absurd (hflushed hd) hnot⟩
    · obtain ⟨⟨taken, hrunning⟩, hwhy⟩ := h
      exact ⟨⟨taken, hrunning.sending [update] _ _ _⟩, hwhy⟩
    · obtain ⟨⟨taken, hrunning⟩, hd, hflushed, hsecs⟩ := h
      exact ⟨⟨taken, hrunning.sending [update] _ _ _⟩, hd, fun hwhy => absurd (hflushed hwhy) hnot, hsecs⟩
    · exact h
    · obtain ⟨taken, last, hsent, hcalls, hd, htold⟩ := h
      refine ⟨taken, last, ?_, hcalls, hd, htold.congr rfl rfl rfl rfl fun hflushed => absurd hflushed hnot⟩
      show op.sent ++ [update] = taken ++ (op.channel ++ [update])
      rw [hsent, List.append_assoc]
  | senderGone hsending =>
    have hnot : ¬ op.Flushed := fun hflushed => Flushed.not_sending hflushed hsending
    show Op.Law s { op with pc := op.pc, sending := false }
    unfold Op.Law
    rcases hpc : op.pc with _ | _ | result | why | why | why | reply <;> rw [hpc] at h
    · exact absurd h.2.2.1 hnot
    · obtain ⟨taken, hrunning, hflushed⟩ := h
      exact ⟨taken, hrunning.pc _ _ _, fun hd => absurd (hflushed hd) hnot⟩
    · obtain ⟨taken, hrunning, hflushed⟩ := h
      exact ⟨taken, hrunning.pc _ _ _, fun hd => absurd (hflushed hd) hnot⟩
    · obtain ⟨⟨taken, hrunning⟩, hwhy⟩ := h
      exact ⟨⟨taken, hrunning.pc _ _ _⟩, hwhy⟩
    · obtain ⟨⟨taken, hrunning⟩, hd, hflushed, hsecs⟩ := h
      exact ⟨⟨taken, hrunning.pc _ _ _⟩, hd, fun hwhy => absurd (hflushed hwhy) hnot, hsecs⟩
    · exact h
    · obtain ⟨taken, last, hsent, hcalls, hd, htold⟩ := h
      exact ⟨taken, last, hsent, hcalls, hd, htold.congr rfl rfl rfl rfl fun hflushed => absurd hflushed hnot⟩
  | record update channel now hdraining hchannel =>
    have hnot : op.draining ≠ false := by
      rw [hdraining]
      exact Bool.noConfusion
    show Op.Law _ { op with pc := op.pc, channel }
    unfold Op.Law
    rcases hpc : op.pc with _ | _ | result | why | why | why | reply <;> rw [hpc] at h
    · exact absurd h.2.2.2 hnot
    · obtain ⟨taken, hrunning, -⟩ := h
      exact ⟨_, hrunning.record hchannel now _ _ _, fun hd => absurd hd hnot⟩
    · obtain ⟨taken, hrunning, -⟩ := h
      exact ⟨_, hrunning.record hchannel now _ _ _, fun hd => absurd hd hnot⟩
    · obtain ⟨⟨taken, hrunning⟩, hwhy⟩ := h
      exact ⟨⟨_, hrunning.record hchannel now _ _ _⟩, hwhy⟩
    · exact absurd h.2.1 hnot
    · exact h
    · obtain ⟨taken, last, -, -, hd, -⟩ := h
      exact absurd hd hnot
  | drained hdraining hchannel hgone =>
    have hnot : op.draining ≠ false := by
      rw [hdraining]
      exact Bool.noConfusion
    show Op.Law s { op with pc := op.pc, draining := false }
    unfold Op.Law
    rcases hpc : op.pc with _ | _ | result | why | why | why | reply <;> rw [hpc] at h
    · exact absurd h.2.2.2 hnot
    · obtain ⟨taken, hrunning, -⟩ := h
      exact ⟨taken, hrunning.pc _ _ _, fun _ => ⟨hchannel, hgone⟩⟩
    · obtain ⟨taken, hrunning, -⟩ := h
      exact ⟨taken, hrunning.pc _ _ _, fun _ => ⟨hchannel, hgone⟩⟩
    · obtain ⟨⟨taken, hrunning⟩, hwhy⟩ := h
      exact ⟨⟨taken, hrunning.pc _ _ _⟩, hwhy⟩
    · exact absurd h.2.1 hnot
    · exact h
    · obtain ⟨taken, last, -, -, hd, -⟩ := h
      exact absurd hd hnot
  | finished result hpc =>
    rw [hpc] at h
    obtain ⟨taken, hrunning, hflushed⟩ := h
    exact ⟨taken, hrunning.pc _ _ _, hflushed⟩
  | breakOff why hpc hwhy =>
    rw [hpc] at h
    obtain ⟨taken, hrunning, -⟩ := h
    refine ⟨⟨taken, hrunning.pc _ _ _⟩, ?_, ?_⟩
    · rcases hwhy with rfl | rfl <;> rintro ⟨⟩
    · rintro secs rfl
      rcases hwhy with hwhy | hwhy
      · cases hwhy
      · exact Broken.timedOut.inj hwhy
  | cleaned why hpc =>
    rw [hpc] at h
    obtain ⟨⟨taken, hrunning⟩, hne, hsecs⟩ := h
    exact ⟨⟨taken, hrunning.pc _ _ _⟩, rfl, fun hwhy => absurd hwhy hne, hsecs⟩

/-- What other operations do does not touch it. -/
theorem Op.Law.frame (h : op.Law s) (hcalls : callsOf s'.calls op.id = callsOf s.calls op.id)
    (hget : (registry s'.calls).get? op.id = (registry s.calls).get? op.id) : op.Law s' := by
  have hrunning : ∀ {taken}, Running s op taken → Running s' op taken :=
    fun h => ⟨h.took, hcalls.trans h.calls, hget ▸ h.state⟩
  unfold Op.Law at h ⊢
  rcases hpc : op.pc with _ | _ | result | why | why | why | reply <;> rw [hpc] at h
  · exact ⟨hcalls.trans h.1, h.2⟩
  · obtain ⟨taken, h, hflushed⟩ := h
    exact ⟨taken, hrunning h, hflushed⟩
  · obtain ⟨taken, h, hflushed⟩ := h
    exact ⟨taken, hrunning h, hflushed⟩
  · obtain ⟨⟨taken, h⟩, hwhy⟩ := h
    exact ⟨⟨taken, hrunning h⟩, hwhy⟩
  · obtain ⟨⟨taken, h⟩, hwhy⟩ := h
    exact ⟨⟨taken, hrunning h⟩, hwhy⟩
  · exact h
  · obtain ⟨taken, last, hsent, h, htold⟩ := h
    exact ⟨taken, last, hsent, hcalls.trans h, htold⟩

/-! ### Any number of operations -/

/-- The id is one of those that were given out. -/
def Named (nonce : Nat) (id : String) : Prop := ∃ now n, n < nonce ∧ id = nextOperationId now n

abbrev Inv (c : Conf Shared (Op α)) : Prop :=
  Modular (fun s => ∀ call ∈ s.calls, Named s.nonce call.1.opId) (fun s _ op => Named s.nonce op.id ∧ op.Law s)
    (fun op op' => op.id ≠ op'.id) c

theorem Inv.thread {c : Conf Shared (Op α)} (h : Inv c) (hop : c.threads[i]? = some op) {o : Outcome Shared (Op α)}
    (hexec : exec c.shared i op e = some o) : Inv (c.after i o) := by
  obtain ⟨hstep, hspawned⟩ := Step.of_exec hexec
  obtain ⟨hnamed, hlaw⟩ := h.threads i op hop
  have hid := hstep.id_eq
  have hnonce : o.shared.nonce = c.shared.nonce := by
    rcases hstep.shared with heq | ⟨call, now, -, heq⟩
    · rw [heq]
    · rw [heq]
      rfl
  have hnone : ∀ m, m ∉ o.spawned := fun m hm => List.not_mem_nil (hspawned ▸ hm)
  refine Modular.thread h (fun _ _ => Ne.symm) hop ?_ ⟨hnonce ▸ hid ▸ hnamed, Op.Law.step hlaw hstep⟩ ?_
    (fun _ m hm => absurd hm (hnone m)) ?_ (fun m hm => absurd hm (hnone m)) (hspawned ▸ .nil)
  · rw [hnonce]
    rcases hstep.shared with heq | ⟨call, now, hcall, heq⟩ <;> rw [heq]
    · exact h.shared
    · intro x hx
      rcases List.mem_append.1 hx with hx | hx
      · exact h.shared x hx
      · obtain rfl := List.mem_singleton.1 hx
        exact hcall ▸ hnamed
  · intro j m hj hm
    obtain ⟨hnamed, hlaw⟩ := h.threads j m hm
    refine ⟨hnonce ▸ hnamed, ?_⟩
    rcases hstep.shared with heq | ⟨call, now, hcall, heq⟩ <;> rw [heq]
    · exact hlaw
    · have hne : call.opId ≠ m.id := hcall ▸ h.pairs i j op m (Ne.symm hj) hop hm
      refine Op.Law.frame hlaw (callsOf_snoc_other hne now) ?_
      show (registry (c.shared.calls ++ [_])).get? m.id = _
      rw [registry_snoc]
      exact get?_apply_other hne
  · intro j m hj hm
    rw [hid]
    exact h.pairs i j op m (Ne.symm hj) hop hm

theorem callsOf_fresh {nonce now : Nat} (h : ∀ call ∈ calls, Named nonce call.1.opId) :
    callsOf calls (nextOperationId now nonce) = [] := by
  unfold callsOf
  rw [List.filter_eq_nil_iff]
  intro call hcall hid
  obtain ⟨x, hx, rfl⟩ := List.mem_map.1 hcall
  obtain ⟨now', n, hn, hname⟩ := h x hx
  exact absurd (nextOperationId_nonce (hname.symm.trans (of_decide_eq_true hid))) (Nat.ne_of_lt hn)

theorem Inv.env {c : Conf Shared (Op α)} (h : Inv c) {x : Env} {r : Shared × List (Op α)}
    (hwrap : c.shared.nonce + 1 < 2 ^ 64) (henv : Foreground.env c x = some r) : Inv ⟨r.1, c.threads ++ r.2⟩ := by
  obtain ⟨tool, targetSummary, timeoutSecs, defaultTimeoutSecs, nowMs⟩ := x
  obtain rfl := Option.some.inj henv
  have hnonce : (c.shared.nonce + 1) % 2 ^ 64 = c.shared.nonce + 1 := Nat.mod_eq_of_lt hwrap
  have hold : ∀ {id}, Named c.shared.nonce id → Named ((c.shared.nonce + 1) % 2 ^ 64) id := by
    rintro id ⟨now, n, hn, hid⟩
    exact ⟨now, n, by omega, hid⟩
  refine Modular.env h (fun _ _ => Ne.symm) (fun call hcall => hold (h.shared call hcall)) ?_ ?_ ?_
    (List.pairwise_singleton _ _)
  · intro j m hm
    exact ⟨hold (h.threads j m hm).1, Op.Law.frame (h.threads j m hm).2 rfl rfl⟩
  · intro j m hm _
    obtain rfl := List.mem_singleton.1 hm
    have hlt : c.shared.nonce < (c.shared.nonce + 1) % 2 ^ 64 := by omega
    exact ⟨⟨nowMs, c.shared.nonce, hlt, rfl⟩, callsOf_fresh h.shared, rfl, ⟨rfl, rfl⟩, rfl⟩
  · intro m hm m' hm' heq
    obtain rfl := List.mem_singleton.1 hm
    obtain ⟨j, hj⟩ := List.mem_iff_getElem?.1 hm'
    obtain ⟨now, n, hn, hname⟩ := (h.threads j m' hj).1
    exact absurd (nextOperationId_nonce (hname.symm.trans heq)) (Nat.ne_of_lt hn)

theorem Inv.reachable {c : Conf Shared (Op α)} (h : (program α).Reachable Init NoWrap c) : Inv c := by
  refine h.induct ?_ ?_
  · rintro _ rfl
    refine ⟨?_, ?_, ?_⟩
    · rintro _ ⟨⟩
    · rintro _ _ ⟨⟩
    · rintro _ _ _ _ _ ⟨⟩
  · intro c c' a _ hinv hwrap hstep
    rcases a with ⟨i, e⟩ | x
    · obtain ⟨op, o, hop, hexec, rfl⟩ := step_thread_iff.1 hstep
      exact hinv.thread hop hexec
    · obtain ⟨r, henv, rfl⟩ := step_env_iff.1 hstep
      exact hinv.env hwrap henv

/-! ### Two operations, of which the client cancels the first -/

namespace Sample

def snapshot : OperationSnapshot :=
  { opId := nextOperationId 1000 0, tool := "run_script", targetSummary := "print(1)", phase := "script"
    status := .cancelled, message := "run_script cancelled by client", startedAtMs := 0, lastUpdateMs := 0
    elapsedMs := 0 }

def listing : Op Unit where
  id := nextOperationId 1000 0
  tool := "run_script"
  targetSummary := "print(1)"
  timeout := 120
  pc := .done (.cancelled snapshot)
  channel := [("script", "half")]
  sent := [("script", "start"), ("script", "half")]
  sending := true

def analysis : Op Unit where
  id := nextOperationId 1000 1
  tool := "analyze_funcs"
  targetSummary := "current database"
  timeout := 60
  pc := .done (.value ())
  sent := [("analysis", "pass 1")]

def cancelled : Conf Shared (Op Unit) :=
  ⟨⟨2, [(.start listing.id listing.tool listing.targetSummary, noon),
    (.start analysis.id analysis.tool analysis.targetSummary, noon),
    (.recordProgress listing.id "script" "start", noon),
    (.recordProgress analysis.id "analysis" "pass 1", noon),
    (.finishCompleted analysis.id "analyze_funcs completed successfully", noon),
    (.finishCancelled listing.id "run_script cancelled by client", noon)]⟩, [listing, analysis]⟩

instance (c : Conf Shared (Op Unit)) (a : Act (Event Unit) Env) : Decidable (NoWrap c a) :=
  inferInstanceAs (Decidable (_ < _))

theorem run_cancelled : (program Unit).runIf NoWrap ⟨⟨0, []⟩, []⟩
    [.env (.start "run_script" "print(1)" none 120 1000), .thread 0 (.go noon),
      .env (.start "analyze_funcs" "current database" none 60 1000), .thread 1 (.go noon),
      .thread 0 (.progress "script" "start"), .thread 1 (.progress "analysis" "pass 1"), .thread 0 (.drained noon),
      .thread 0 .clientCancels, .thread 1 (.drained noon), .thread 0 (.progress "script" "half"),
      .thread 1 (.finished (.ok ())), .thread 1 .senderGone, .thread 1 (.drained noon), .thread 0 .cleaned,
      .thread 1 (.go noon), .thread 0 (.go noon)] = some cancelled := rfl

end Sample

/-- However foreground operations and their progress come in between each other: no operation comes to the fallback
for one the registry does not know. Of an operation that has replied the registry was told its start, progress of its
own in the order it was sent, and one end, the one that fits the reply; all that was sent, if the call has come to an
end by itself. A reply that it was cancelled or timed out has a snapshot of this operation, with its last phase. -/
theorem replied_told_once {c : Conf Shared (Op α)} (h : (program α).Reachable Init NoWrap c) :
    (∀ op ∈ c.threads, ∀ why, op.pc ≠ .lookAgain why) ∧
    ∀ op ∈ c.threads, ∀ reply, op.pc = .done reply → ∃ taken last, op.sent = taken ++ op.channel ∧
      callsOf c.shared.calls op.id =
        .start op.id op.tool op.targetSummary :: taken.map (fun u => .recordProgress op.id u.1 u.2) ++ [last] ∧
      Told op taken reply last := by
  have hlaw : ∀ op ∈ c.threads, op.Law c.shared := by
    intro op hop
    obtain ⟨i, hi⟩ := List.mem_iff_getElem?.1 hop
    exact ((Inv.reachable h).threads i op hi).2
  refine ⟨fun op hop why hpc => ?_, fun op hop reply hdone => ?_⟩
  · have hop := hlaw op hop
    unfold Op.Law at hop
    rw [hpc] at hop
    exact hop
  · have hop := hlaw op hop
    unfold Op.Law at hop
    rw [hdone] at hop
    obtain ⟨taken, last, hsent, hcalls, -, htold⟩ := hop
    exact ⟨taken, last, hsent, hcalls, htold⟩

theorem replied_told_once_cancelled :
    (∃ taken last, Sample.listing.sent = taken ++ Sample.listing.channel ∧
      callsOf Sample.cancelled.shared.calls Sample.listing.id =
        .start Sample.listing.id Sample.listing.tool Sample.listing.targetSummary ::
          taken.map (fun u => .recordProgress Sample.listing.id u.1 u.2) ++ [last] ∧
      Told Sample.listing taken (.cancelled Sample.snapshot) last) ∧
    (∃ taken last, Sample.analysis.sent = taken ++ Sample.analysis.channel ∧
      callsOf Sample.cancelled.shared.calls Sample.analysis.id =
        .start Sample.analysis.id Sample.analysis.tool Sample.analysis.targetSummary ::
          taken.map (fun u => .recordProgress Sample.analysis.id u.1 u.2) ++ [last] ∧
      Told Sample.analysis taken (.value ()) last) ∧
    ∀ op ∈ Sample.cancelled.threads, ∀ why, op.pc ≠ .lookAgain why := by
  obtain ⟨hknown, htold⟩ := replied_told_once (.of_runIf (.init rfl) Sample.run_cancelled)
  refine ⟨htold Sample.listing List.mem_cons_self _ rfl, htold Sample.analysis ?_ _ rfl, hknown⟩
  exact List.mem_cons_of_mem _ List.mem_cons_self

end IdaRs.Foreground
