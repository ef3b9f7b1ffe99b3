import Mathlib.Data.List.DropRight
import IdaRs.Lib.Runs

/-!
# The operation registry (`src/server/operation.rs`)

The map is a list of ids with their states, and every call runs under the registry's mutex. One slot names the active
operation: the one that was started or made progress last, until it finishes. While others are in flight the slot is
then empty, `operations_visible`.
-/

namespace IdaRs.Operation

def recentEventCap : Nat := 20

def maxRecentLimit : Nat := 50

inductive OperationStatus
  | queued
  | running
  | completed
  | failed
  | timedOut
  | cancelled
deriving DecidableEq, Repr

structure OperationSnapshot where
  opId : String
  tool : String
  targetSummary : String
  phase : String
  status : OperationStatus
  message : String
  startedAtMs : Nat
  lastUpdateMs : Nat
  elapsedMs : Nat
deriving DecidableEq, Repr

structure OperationEvent where
  opId : String
  tool : String
  targetSummary : String
  phase : String
  status : OperationStatus
  message : String
  timestampMs : Nat
  elapsedMs : Nat
deriving DecidableEq, Repr

structure RecentOperations where
  activeOperation : Option OperationSnapshot
  recentEvents : List OperationEvent
deriving DecidableEq, Repr

structure OperationState where
  opId : String
  tool : String
  targetSummary : String
  phase : String
  status : OperationStatus
  message : String
  /-- An `Instant`, in milliseconds. -/
  startedAt : Nat
  startedAtMs : Nat
  lastUpdateMs : Nat
deriving DecidableEq, Repr

/-- What a call reads of the clocks: `now_ms`, and its readings of `Instant` in their order. -/
structure Moment where
  nowMs : Nat
  instant : Nat → Nat

structure OperationRegistry where
  activeOpId : Option String := none
  current : List (String × OperationState) := []
  events : List OperationEvent := []
deriving DecidableEq, Repr

namespace OperationState

variable (s : OperationState) (now : Nat)

def snapshot : OperationSnapshot :=
  { opId := s.opId, tool := s.tool, targetSummary := s.targetSummary, phase := s.phase, status := s.status
    message := s.message, startedAtMs := s.startedAtMs, lastUpdateMs := s.lastUpdateMs
    elapsedMs := now - s.startedAt }

def event : OperationEvent :=
  { opId := s.opId, tool := s.tool, targetSummary := s.targetSummary, phase := s.phase, status := s.status
    message := s.message, timestampMs := s.lastUpdateMs, elapsedMs := now - s.startedAt }

end OperationState

def pushEvent (events : List OperationEvent) (event : OperationEvent) : List OperationEvent :=
  (if events.length = recentEventCap then events.drop 1 else events) ++ [event]

/-- The phase of an operation that finishes before it leaves the queue. -/
def finishedPhase (status : OperationStatus) (phase : String) : String :=
  if phase = "queued" then
    match status with
    | .completed => "completed"
    | .failed => "failed"
    | .timedOut => "timed_out"
    | .cancelled => "cancelled"
    | .queued | .running => phase
  else phase

namespace OperationState

def queued (opId tool targetSummary : String) (now : Moment) : OperationState :=
  { opId, tool, targetSummary, phase := "queued", status := .queued, message := "Queued for IDA worker execution"
    startedAt := now.instant 0, startedAtMs := now.nowMs, lastUpdateMs := now.nowMs }

def progressed (s : OperationState) (phase message : String) (now : Moment) : OperationState :=
  { s with phase, status := .running, message, lastUpdateMs := now.nowMs }

def finished (s : OperationState) (status : OperationStatus) (message : String) (now : Moment) : OperationState :=
  { s with status, message, lastUpdateMs := now.nowMs, phase := finishedPhase status s.phase }

end OperationState

namespace OperationRegistry

variable (r : OperationRegistry)

def get? (opId : String) : Option OperationState := r.current.lookup opId

def start (opId tool targetSummary : String) (now : Moment) : OperationRegistry :=
  let state := OperationState.queued opId tool targetSummary now
  { activeOpId := some opId
    current := r.current.filter (·.1 ≠ opId) ++ [(opId, state)]
    events := pushEvent r.events (state.event (now.instant 1)) }

def recordProgress (opId phase message : String) (now : Moment) : OperationRegistry × Option OperationSnapshot :=
  match r.get? opId with
  | none => (r, none)
  | some state =>
    let state := state.progressed phase message now
    ({ activeOpId := some opId
       current := r.current.map fun e => if e.1 = opId then (e.1, state) else e
       events := pushEvent r.events (state.event (now.instant 1)) }, some (state.snapshot (now.instant 0)))

def snapshot (opId : String) (now : Nat) : Option OperationSnapshot := (r.get? opId).map (·.snapshot now)

def finish (opId : String) (status : OperationStatus) (message : String) (now : Moment) :
    OperationRegistry × Option OperationSnapshot :=
  match r.get? opId with
  | none => (r, none)
  | some state =>
    let state := state.finished status message now
    ({ activeOpId := if r.activeOpId = some opId then none else r.activeOpId
       current := r.current.filter (·.1 ≠ opId)
       events := pushEvent r.events (state.event (now.instant 1)) }, some (state.snapshot (now.instant 0)))

def finishCompleted (opId message : String) (now : Moment) := r.finish opId .completed message now

def finishFailed (opId message : String) (now : Moment) := r.finish opId .failed message now

def finishTimedOut (opId message : String) (now : Moment) := r.finish opId .timedOut message now

def finishCancelled (opId message : String) (now : Moment) := r.finish opId .cancelled message now

/-- `limit.unwrap_or(RECENT_EVENT_CAP).clamp(1, MAX_RECENT_LIMIT)`. -/
def recentLimit (limit : Option Nat) : Nat := min (max (limit.getD recentEventCap) 1) maxRecentLimit

def recent (limit : Option Nat) (now : Nat) : RecentOperations where
  activeOperation := (r.activeOpId.bind r.get?).map (·.snapshot now)
  recentEvents := r.events.reverse.take (recentLimit limit)

end OperationRegistry

/-! ### Calls -/

inductive Call
  | start (opId tool targetSummary : String)
  | recordProgress (opId phase message : String)
  | finishCompleted (opId message : String)
  | finishFailed (opId message : String)
  | finishTimedOut (opId message : String)
  | finishCancelled (opId message : String)
deriving DecidableEq, Repr

namespace OperationRegistry

def apply (r : OperationRegistry) (c : Call × Moment) : OperationRegistry :=
  match c.1 with
  | .start opId tool targetSummary => r.start opId tool targetSummary c.2
  | .recordProgress opId phase message => (r.recordProgress opId phase message c.2).1
  | .finishCompleted opId message => (r.finishCompleted opId message c.2).1
  | .finishFailed opId message => (r.finishFailed opId message c.2).1
  | .finishTimedOut opId message => (r.finishTimedOut opId message c.2).1
  | .finishCancelled opId message => (r.finishCancelled opId message c.2).1

/-- The event of a call. -/
def eventOf (r : OperationRegistry) (c : Call × Moment) : Option OperationEvent :=
  let finished opId status message :=
    (r.get? opId).map fun s => (s.finished status message c.2).event (c.2.instant 1)
  match c.1 with
  | .start opId tool targetSummary =>
    some ((OperationState.queued opId tool targetSummary c.2).event (c.2.instant 1))
  | .recordProgress opId phase message =>
    (r.get? opId).map fun s => (s.progressed phase message c.2).event (c.2.instant 1)
  | .finishCompleted opId message => finished opId .completed message
  | .finishFailed opId message => finished opId .failed message
  | .finishTimedOut opId message => finished opId .timedOut message
  | .finishCancelled opId message => finished opId .cancelled message

end OperationRegistry

/-- A call, by what it is to the operations. -/
inductive Kind
  | starts
  | reports
  | ends
deriving DecidableEq, Repr

def Call.kind : Call → Kind
  | start .. => .starts
  | recordProgress .. => .reports
  | finishCompleted .. | finishFailed .. | finishTimedOut .. | finishCancelled .. => .ends

def Call.opId : Call → String
  | start opId .. | recordProgress opId .. | finishCompleted opId _ | finishFailed opId _ | finishTimedOut opId _
  | finishCancelled opId _ => opId

/-- The operations in flight after a call. -/
def Call.inFlight (c : Call) (ids : List String) : List String :=
  match c.kind with
  | .starts => ids.filter (· ≠ c.opId) ++ [c.opId]
  | .reports => ids
  | .ends => ids.filter (· ≠ c.opId)

/-- The operation that was started or made progress last; `ids` are those in flight. -/
def Call.touched (c : Call) (ids : List String) (last : Option String) : Option String :=
  match c.kind with
  | .starts => some c.opId
  | .reports => if c.opId ∈ ids then some c.opId else last
  | .ends => last

/-- The operations that were started and have not finished. -/
def inFlight (calls : List (Call × Moment)) : List String := calls.foldl (fun ids c => c.1.inFlight ids) []

def lastTouched (calls : List (Call × Moment)) : Option String :=
  (calls.foldl (fun s c => (c.1.inFlight s.1, c.1.touched s.1 s.2)) (([] : List String), (none : Option String))).2

def registry (calls : List (Call × Moment)) : OperationRegistry := calls.foldl OperationRegistry.apply {}

/-- The events of the calls, in the order of the calls. -/
def eventsOf (r : OperationRegistry) : List (Call × Moment) → List OperationEvent
  | [] => []
  | c :: calls => (r.eventOf c).toList ++ eventsOf (r.apply c) calls

/-! ### One call -/

section

variable {r : OperationRegistry} {c : Call × Moment}

/-- The four ways to finish differ in the status. -/
theorem apply_ends (r : OperationRegistry) {call : Call} {status : OperationStatus} {message : String} {now : Moment}
    (happly : r.apply (call, now) = (r.finish call.opId status message now).1)
    (hevent : r.eventOf (call, now) =
      (r.get? call.opId).map fun s => (s.finished status message now).event (now.instant 1)) :
    (∃ e, (r.get? call.opId).isSome ∧ r.eventOf (call, now) = some e ∧
      r.apply (call, now) = ⟨if r.activeOpId = some call.opId then none else r.activeOpId,
        r.current.filter (·.1 ≠ call.opId), pushEvent r.events e⟩) ∨
    (r.get? call.opId = none ∧ r.eventOf (call, now) = none ∧ r.apply (call, now) = r) := by
  cases hget : r.get? call.opId with
  | none =>
    refine .inr ⟨rfl, by rw [hevent, hget]; rfl, ?_⟩
    rw [happly, OperationRegistry.finish, hget]
  | some old =>
    refine .inl ⟨_, rfl, by rw [hevent, hget]; rfl, ?_⟩
    rw [happly, OperationRegistry.finish, hget]

/-- What a call can do: start an operation, change one in flight, finish one, or nothing. -/
theorem apply_cases (r : OperationRegistry) (c : Call × Moment) :
    (c.1.kind = .starts ∧ ∃ state e, state.opId = c.1.opId ∧ r.eventOf c = some e ∧
      r.apply c = ⟨some c.1.opId, r.current.filter (·.1 ≠ c.1.opId) ++ [(c.1.opId, state)], pushEvent r.events e⟩) ∨
    (c.1.kind = .reports ∧ ∃ old state e, r.get? c.1.opId = some old ∧ state.opId = old.opId ∧
      r.eventOf c = some e ∧ r.apply c = ⟨some c.1.opId,
        r.current.map fun e => if e.1 = c.1.opId then (e.1, state) else e, pushEvent r.events e⟩) ∨
    (c.1.kind = .ends ∧ ∃ e, (r.get? c.1.opId).isSome ∧ r.eventOf c = some e ∧
      r.apply c = ⟨if r.activeOpId = some c.1.opId then none else r.activeOpId,
        r.current.filter (·.1 ≠ c.1.opId), pushEvent r.events e⟩) ∨
    (c.1.kind ≠ .starts ∧ r.get? c.1.opId = none ∧ r.eventOf c = none ∧ r.apply c = r) := by
  have hfinish : ∀ {status message}, c.1.kind = .ends → r.apply c = (r.finish c.1.opId status message c.2).1 →
      (r.eventOf c = (r.get? c.1.opId).map fun s => (s.finished status message c.2).event (c.2.instant 1)) → _ :=
    fun hkind happly hevent => (apply_ends r happly hevent).imp (And.intro hkind)
      (And.intro (by rw [hkind]; decide : c.1.kind ≠ .starts))
  obtain ⟨call, now⟩ := c
  cases call with
  | start opId tool targetSummary => exact .inl ⟨rfl, _, _, rfl, rfl, rfl⟩
  | recordProgress opId phase message =>
    refine .inr ?_
    cases hget : r.get? opId with
    | none =>
      refine .inr (.inr ⟨by simp [Call.kind], hget, ?_, ?_⟩)
      · simp [OperationRegistry.eventOf, hget]
      · simp [OperationRegistry.apply, OperationRegistry.recordProgress, hget]
    | some old =>
      refine .inl ⟨rfl, old, old.progressed phase message now,
        (old.progressed phase message now).event (now.instant 1), hget, rfl, ?_, ?_⟩
      · simp [OperationRegistry.eventOf, hget]
      · show (r.recordProgress opId phase message now).1 = _
        rw [OperationRegistry.recordProgress, hget]
        rfl
  | finishCompleted opId message => exact .inr (.inr (hfinish rfl rfl rfl))
  | finishFailed opId message => exact .inr (.inr (hfinish rfl rfl rfl))
  | finishTimedOut opId message => exact .inr (.inr (hfinish rfl rfl rfl))
  | finishCancelled opId message => exact .inr (.inr (hfinish rfl rfl rfl))

end

/-! ### The events that are kept -/

theorem pushEvent_rtake (log : List OperationEvent) (e : OperationEvent) :
    pushEvent (log.rtake recentEventCap) e = (log ++ [e]).rtake recentEventCap := by
  have hcap : recentEventCap = 19 + 1 := rfl
  rw [pushEvent, hcap, List.rtake_concat_succ, List.append_left_inj]
  unfold List.rtake
  split_ifs with hfull
  · rw [List.drop_drop]
    rw [List.length_drop] at hfull
    congr 1
    omega
  · rw [List.length_drop] at hfull
    congr 1
    omega

/-! ### After the calls -/

/-- The registry after the calls. -/
structure Follows (calls : List (Call × Moment)) (r : OperationRegistry) : Prop where
  keys : r.current.map Prod.fst = inFlight calls
  named : ∀ e ∈ r.current, e.2.opId = e.1
  /-- The slot names the operation that was touched last, unless this one has finished. -/
  active : r.activeOpId = (lastTouched calls).filter (· ∈ inFlight calls)
  log : r.events = (eventsOf {} calls).rtake recentEventCap

theorem inFlight_append (calls : List (Call × Moment)) (c : Call × Moment) :
    inFlight (calls ++ [c]) = c.1.inFlight (inFlight calls) := by
  rw [inFlight, List.foldl_append]
  rfl

theorem touched_fst (calls : List (Call × Moment)) (s : List String × Option String) :
    (calls.foldl (fun s c => (c.1.inFlight s.1, c.1.touched s.1 s.2)) s).1 =
      calls.foldl (fun ids c => c.1.inFlight ids) s.1 := by
  induction calls generalizing s with
  | nil => rfl
  | cons c calls ih => exact ih _

theorem lastTouched_append (calls : List (Call × Moment)) (c : Call × Moment) :
    lastTouched (calls ++ [c]) = c.1.touched (inFlight calls) (lastTouched calls) := by
  have hids := touched_fst calls ([], none)
  rw [lastTouched, List.foldl_append]
  show c.1.touched (calls.foldl _ ([], none)).1 _ = _
  rw [hids]
  rfl

theorem eventsOf_append (r : OperationRegistry) (calls : List (Call × Moment)) (c : Call × Moment) :
    eventsOf r (calls ++ [c]) = eventsOf r calls ++ ((calls.foldl OperationRegistry.apply r).eventOf c).toList := by
  induction calls generalizing r with
  | nil => rw [List.nil_append, eventsOf, eventsOf, eventsOf, List.append_nil, List.nil_append, List.foldl_nil]
  | cons d calls ih => rw [List.cons_append, eventsOf, eventsOf, ih, List.append_assoc, List.foldl_cons]

theorem registry_append (calls : List (Call × Moment)) (c : Call × Moment) :
    registry (calls ++ [c]) = (registry calls).apply c := by
  rw [registry, List.foldl_append]
  rfl

section

variable {calls : List (Call × Moment)} {r : OperationRegistry} {id : String}

theorem Follows.get?_isSome (h : Follows calls r) : (r.get? id).isSome ↔ id ∈ inFlight calls := by
  rw [OperationRegistry.get?, ← h.keys, List.lookup_isSome_iff]
  simp

theorem Follows.get?_eq_none (h : Follows calls r) : r.get? id = none ↔ id ∉ inFlight calls := by
  rw [← h.get?_isSome, Option.not_isSome_iff_eq_none]

theorem Follows.get?_opId (h : Follows calls r) {state : OperationState} (hget : r.get? id = some state) :
    state.opId = id := by
  obtain ⟨l₁, l₂, hl, -⟩ := List.lookup_eq_some_iff.1 hget
  exact h.named (id, state) (hl ▸ by simp)

theorem log_step {e : OperationEvent} (h : r.events = (eventsOf {} calls).rtake recentEventCap) {c : Call × Moment}
    (he : (registry calls).eventOf c = some e) :
    pushEvent r.events e = (eventsOf {} (calls ++ [c])).rtake recentEventCap := by
  have hevent : (calls.foldl OperationRegistry.apply {}).eventOf c = some e := he
  rw [h, pushEvent_rtake, eventsOf_append, hevent]
  rfl

theorem map_fst_filter (l : List (String × OperationState)) (id : String) :
    (l.filter (·.1 ≠ id)).map Prod.fst = (l.map Prod.fst).filter (· ≠ id) := by
  rw [List.filter_map]
  rfl

theorem filter_mem {ids : List String} (h : id ∈ ids) : (some id).filter (· ∈ ids) = some id := by
  rw [Option.filter_some, if_pos (decide_eq_true h)]

/-- The slot when an operation finishes. -/
theorem filter_ends (last : Option String) (ids : List String) (id : String) :
    (if last.filter (· ∈ ids) = some id then none else last.filter (· ∈ ids)) =
      last.filter (· ∈ ids.filter (· ≠ id)) := by
  cases last with
  | none => rfl
  | some j =>
    rw [Option.filter_some, Option.filter_some]
    by_cases hj : j ∈ ids
    · by_cases heq : j = id
      · simp [heq]
      · simp [hj, heq]
    · simp [hj]

/-- One more call. -/
theorem Follows.step (h : Follows calls (registry calls)) (c : Call × Moment) :
    Follows (calls ++ [c]) ((registry calls).apply c) := by
  rcases apply_cases (registry calls) c with ⟨hkind, state, e, hid, he, heq⟩ |
    ⟨hkind, old, state, e, hget, hid, he, heq⟩ | ⟨hkind, e, -, he, heq⟩ | ⟨hkind, hget, he, heq⟩
  · rw [heq]
    refine ⟨?_, ?_, ?_, log_step h.log he⟩
    · simp only [List.map_append, map_fst_filter, h.keys, inFlight_append, Call.inFlight, hkind]
      rfl
    · intro x hx
      rcases List.mem_append.1 hx with hx | hx
      · exact h.named x (List.mem_filter.1 hx).1
      · rw [List.mem_singleton.1 hx]
        exact hid
    · simp only [lastTouched_append, inFlight_append, Call.touched, Call.inFlight, hkind]
      exact (filter_mem (by simp)).symm
  · rw [heq]
    have hmem : c.1.opId ∈ inFlight calls := h.get?_isSome.1 (by rw [hget]; rfl)
    refine ⟨?_, ?_, ?_, log_step h.log he⟩
    · have hfst : (Prod.fst ∘ fun e : String × OperationState => if e.1 = c.1.opId then (e.1, state) else e) =
          Prod.fst := by
        funext x
        show (if x.1 = c.1.opId then (x.1, state) else x).1 = x.1
        split_ifs <;> rfl
      simp only [List.map_map, hfst, h.keys, inFlight_append, Call.inFlight, hkind]
    · intro x hx
      obtain ⟨y, hy, rfl⟩ := List.mem_map.1 hx
      split_ifs with heq
      · show state.opId = y.1
        rw [hid, h.get?_opId hget, heq]
      · exact h.named y hy
    · simp only [lastTouched_append, inFlight_append, Call.touched, Call.inFlight, hkind, if_pos hmem]
      exact (filter_mem hmem).symm
  · rw [heq]
    refine ⟨?_, ?_, ?_, log_step h.log he⟩
    · simp only [map_fst_filter, h.keys, inFlight_append, Call.inFlight, hkind]
    · intro x hx
      exact h.named x (List.mem_filter.1 hx).1
    · simp only [lastTouched_append, inFlight_append, Call.touched, Call.inFlight, hkind, h.active]
      exact filter_ends (lastTouched calls) (inFlight calls) c.1.opId
  · have hnone : (calls.foldl OperationRegistry.apply {}).eventOf c = none := he
    have hmem := h.get?_eq_none.1 hget
    have hsame : inFlight (calls ++ [c]) = inFlight calls := by
      rw [inFlight_append, Call.inFlight]
      split
      · contradiction
      · rfl
      · exact List.filter_eq_self.2 fun id hid => decide_eq_true fun h => hmem (h ▸ hid)
    have htouched : lastTouched (calls ++ [c]) = lastTouched calls := by
      rw [lastTouched_append, Call.touched]
      split
      · contradiction
      · rw [if_neg hmem]
      · rfl
    rw [heq]
    exact ⟨by rw [hsame, h.keys], h.named, by rw [hsame, htouched, h.active],
      by rw [eventsOf_append, hnone, h.log, Option.toList_none, List.append_nil]⟩

/-- By the calls. -/
theorem follows (calls : List (Call × Moment)) : Follows calls (registry calls) := by
  induction calls using List.reverseRecOn with
  | nil => exact ⟨rfl, fun e he => absurd he List.not_mem_nil, rfl, rfl⟩
  | append_singleton calls c h =>
    rw [registry_append]
    exact h.step c

end

/-! ### Operations in flight -/

/-- The operation was started and did not finish after that. -/
def InFlight (calls : List (Call × Moment)) (id : String) : Prop :=
  ∃ before c after, calls = before ++ c :: after ∧ c.1.kind = .starts ∧ c.1.opId = id ∧
    ∀ d ∈ after, d.1.kind = .ends → d.1.opId ≠ id

section

variable {calls : List (Call × Moment)} {c : Call × Moment} {id : String}

theorem inFlight_snoc : InFlight (calls ++ [c]) id ↔ (c.1.kind = .starts ∧ c.1.opId = id) ∨
    (InFlight calls id ∧ (c.1.kind = .ends → c.1.opId ≠ id)) := by
  constructor
  · rintro ⟨before, d, after, heq, hkind, hid, hafter⟩
    rcases List.eq_nil_or_concat' after with rfl | ⟨init, last, rfl⟩
    · obtain ⟨rfl, hc⟩ := List.append_inj' heq rfl
      rw [List.singleton_inj.1 hc]
      exact .inl ⟨hkind, hid⟩
    · rw [← List.cons_append, ← List.append_assoc] at heq
      obtain ⟨rfl, hc⟩ := List.append_inj' heq rfl
      rw [List.singleton_inj.1 hc]
      exact .inr ⟨⟨before, d, init, rfl, hkind, hid, fun x hx => hafter x (List.mem_append_left _ hx)⟩,
        hafter last (by simp)⟩
  · rintro (⟨hkind, hid⟩ | ⟨⟨before, d, after, rfl, hkind, hid, hafter⟩, hc⟩)
    · exact ⟨calls, c, [], rfl, hkind, hid, fun x hx => absurd hx List.not_mem_nil⟩
    · refine ⟨before, d, after ++ [c], by simp, hkind, hid, fun x hx => ?_⟩
      rcases List.mem_append.1 hx with hx | hx
      · exact hafter x hx
      · exact List.mem_singleton.1 hx ▸ hc

theorem mem_inFlight : id ∈ inFlight calls ↔ InFlight calls id := by
  induction calls using List.reverseRecOn with
  | nil =>
    refine ⟨fun h => absurd h List.not_mem_nil, ?_⟩
    rintro ⟨before, c, after, h, -⟩
    simp at h
  | append_singleton calls c ih =>
    rw [inFlight_append, inFlight_snoc, ← ih, Call.inFlight]
    cases c.1.kind with
    | starts =>
      rw [List.mem_append, List.mem_filter, List.mem_singleton, decide_eq_true_eq]
      by_cases hid : id = c.1.opId
      · simp [hid]
      · simp [hid, Ne.symm hid]
    | reports => simp
    | ends =>
      rw [List.mem_filter, decide_eq_true_eq]
      simp [ne_comm]

end

/-- What the registry shows after the calls. -/
structure Visible (calls : List (Call × Moment)) : Prop where
  activeIff : ∀ limit now,
    ((registry calls).recent limit now).activeOperation.isSome ↔ ∃ id, InFlight calls id
  activeOne : ∀ limit now snapshot,
    ((registry calls).recent limit now).activeOperation = some snapshot → InFlight calls snapshot.opId
  newestFirst : ∀ limit now, ((registry calls).recent limit now).recentEvents =
    (eventsOf {} calls).reverse.take (min recentEventCap (OperationRegistry.recentLimit limit))

/-- The operation that was touched last has not finished, or none is in flight. -/
def TouchedInFlight (calls : List (Call × Moment)) : Prop :=
  (∃ id, InFlight calls id) → ∃ id, lastTouched calls = some id ∧ InFlight calls id

/-- The active operation finishes only when no other is in flight. -/
def FinishesAlone (r : OperationRegistry) (c : Call × Moment) : Prop :=
  c.1.kind = .ends → r.activeOpId = some c.1.opId → ∀ e ∈ r.current, e.1 = c.1.opId

section

variable {calls : List (Call × Moment)}

theorem activeOpId_eq_some {id : String} :
    (registry calls).activeOpId = some id ↔ lastTouched calls = some id ∧ InFlight calls id := by
  rw [(follows calls).active, Option.filter_eq_some_iff, decide_eq_true_eq, mem_inFlight]

theorem activeOperation_isSome (limit : Option Nat) (now : Nat) :
    ((registry calls).recent limit now).activeOperation.isSome ↔
      ∃ id, lastTouched calls = some id ∧ InFlight calls id := by
  show (((registry calls).activeOpId.bind (registry calls).get?).map (·.snapshot now)).isSome ↔ _
  rw [Option.isSome_map, Option.isSome_bind, Option.any_eq_true]
  constructor
  · rintro ⟨id, hid, -⟩
    exact ⟨id, activeOpId_eq_some.1 hid⟩
  · rintro ⟨id, hid⟩
    exact ⟨id, activeOpId_eq_some.2 hid, (follows calls).get?_isSome.2 (mem_inFlight.2 hid.2)⟩

theorem activeOperation_opId {limit : Option Nat} {now : Nat} {snapshot : OperationSnapshot}
    (h : ((registry calls).recent limit now).activeOperation = some snapshot) : InFlight calls snapshot.opId := by
  obtain ⟨state, hstate, rfl⟩ := Option.map_eq_some_iff.1 h
  obtain ⟨id, hid, hget⟩ := Option.bind_eq_some_iff.1 hstate
  show InFlight calls state.opId
  rw [(follows calls).get?_opId hget]
  exact (activeOpId_eq_some.1 hid).2

theorem recentEvents_eq (limit : Option Nat) (now : Nat) : ((registry calls).recent limit now).recentEvents =
    (eventsOf {} calls).reverse.take (min recentEventCap (OperationRegistry.recentLimit limit)) := by
  rw [OperationRegistry.recent, (follows calls).log, List.rtake_eq_reverse_take_reverse, List.reverse_reverse,
    List.take_take, min_comm]

theorem visible_iff : Visible calls ↔ TouchedInFlight calls := by
  constructor
  · intro h hsome
    exact (activeOperation_isSome none 0).1 ((h.activeIff none 0).2 hsome)
  · intro h
    refine ⟨fun limit now => ?_, fun limit now snapshot => activeOperation_opId, recentEvents_eq⟩
    rw [activeOperation_isSome]
    exact ⟨fun hactive => hactive.imp fun id hid => hid.2, h⟩

theorem touched_starts {c : Call × Moment} (h : c.1.kind = .starts) : TouchedInFlight (calls ++ [c]) := by
  intro _
  refine ⟨c.1.opId, ?_, inFlight_snoc.2 (.inl ⟨h, rfl⟩)⟩
  rw [lastTouched_append, Call.touched, h]

theorem touched_reports {c : Call × Moment} (h : TouchedInFlight calls) (hkind : c.1.kind = .reports) :
    TouchedInFlight (calls ++ [c]) := by
  have hsame : ∀ id, InFlight (calls ++ [c]) id ↔ InFlight calls id := fun id => by
    rw [inFlight_snoc, hkind]
    simp
  intro hsome
  simp only [hsame] at hsome ⊢
  rw [lastTouched_append, Call.touched, hkind]
  by_cases hc : c.1.opId ∈ inFlight calls
  · exact ⟨c.1.opId, if_pos hc, mem_inFlight.1 hc⟩
  · simp only [if_neg hc]
    exact h hsome

theorem touched_ends {c : Call × Moment} (h : TouchedInFlight calls) (hkind : c.1.kind = .ends)
    (halone : FinishesAlone (registry calls) c) : TouchedInFlight (calls ++ [c]) := by
  have hleft : ∀ id, InFlight (calls ++ [c]) id ↔ InFlight calls id ∧ c.1.opId ≠ id := fun id => by
    rw [inFlight_snoc, hkind]
    simp
  rintro ⟨other, hother⟩
  obtain ⟨hother, hne⟩ := (hleft other).1 hother
  obtain ⟨id, hid, hin⟩ := h ⟨other, hother⟩
  have hlast : lastTouched (calls ++ [c]) = lastTouched calls := by rw [lastTouched_append, Call.touched, hkind]
  refine ⟨id, hlast.trans hid, (hleft id).2 ⟨hin, ?_⟩⟩
  -- the other operation is in flight when this one finishes
  rintro rfl
  have hkey : other ∈ (registry calls).current.map Prod.fst := by
    rw [(follows calls).keys]
    exact mem_inFlight.2 hother
  obtain ⟨e, he, rfl⟩ := List.mem_map.1 hkey
  exact hne (halone hkind (activeOpId_eq_some.2 ⟨hid, hin⟩) e he).symm

end

/-- Of a run whose steps all meet the condition. -/
theorem run_touched {calls : List (Call × Moment)} {r : OperationRegistry}
    (h : Runs.Run (fun r c => some (OperationRegistry.apply r c)) FinishesAlone {} calls r) :
    r = registry calls ∧ TouchedInFlight calls := by
  refine h.history (I := fun calls r => r = registry calls ∧ TouchedInFlight calls) ?_ ⟨rfl, ?_⟩
  · rintro calls r c r' ⟨rfl, htouched⟩ halone hstep
    refine ⟨(Option.some.inj hstep).symm.trans (registry_append calls c).symm, ?_⟩
    cases hkind : c.1.kind with
    | starts => exact touched_starts hkind
    | reports => exact touched_reports htouched hkind
    | ends => exact touched_ends htouched hkind halone
  · rintro ⟨id, hid⟩
    exact absurd (mem_inFlight.2 hid) List.not_mem_nil

/-- After any calls the registry shows an operation in flight exactly where the one that was touched last has not
finished; so it does throughout a run in which the active operation never finishes before the others. -/
theorem operations_visible (calls : List (Call × Moment)) :
    (Visible calls ↔ TouchedInFlight calls) ∧
    ∀ r, Runs.Run (fun r c => some (OperationRegistry.apply r c)) FinishesAlone {} calls r →
      r = registry calls ∧ Visible calls := by
  refine ⟨visible_iff, fun r h => ?_⟩
  obtain ⟨hr, htouched⟩ := run_touched h
  exact ⟨hr, visible_iff.2 htouched⟩

def noon : Moment := ⟨0, fun _ => 0⟩

/-- Two operations overlap; each is touched last for a while. -/
theorem operations_visible_overlap :
    Visible [(.start "a" "open_idb" "/tmp/a", noon), (.start "b" "run_script" "x", noon),
      (.recordProgress "a" "loading" "half", noon), (.finishCompleted "b" "done", noon),
      (.finishCompleted "a" "done", noon)] := by
  refine ((operations_visible _).2 _
    (.cons ?_ rfl (.cons ?_ rfl (.cons ?_ rfl (.cons ?_ rfl (.cons ?_ rfl (.nil _))))))).2
  all_goals
    unfold FinishesAlone
    decide

/-- Two operations start and the second finishes: the first is in flight and is not shown. -/
theorem first_operation_hidden :
    InFlight [(.start "a" "open_idb" "/tmp/a", noon), (.start "b" "run_script" "x", noon),
      (.finishCompleted "b" "done", noon)] "a" ∧
    ((registry [(.start "a" "open_idb" "/tmp/a", noon), (.start "b" "run_script" "x", noon),
      (.finishCompleted "b" "done", noon)]).recent none 0).activeOperation = none :=
  ⟨mem_inFlight.1 (by decide), by decide⟩

end IdaRs.Operation
