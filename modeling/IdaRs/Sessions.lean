import IdaRs.Lib.Threads
import IdaRs.TaskLife
import IdaRs.Tools

/-!
# Handlers, their lifetimes and their tasks (`src/server/mod.rs` 59-116, 470-496, 4401-4495, 5447-5565)

A background task is cancelled with the lifetime it was started under, and seen by its owner. Both are chosen by
`is_sessionless_http_request`: those of the handler, or those of the runtime, as a handler that is made for one request is
dropped with it. `task_reachable` says that the two choices fit, `request_end_harmless` that the end of a request cancels
nothing.

The transport is `rmcp`: a connection or a session has a handler until it is closed, and with `--stateless`, or all the
metadata in the request, so has each HTTP request. A handler is dropped when no request runs on it. Requests are threads
over the registry; a task itself is what it calls of the registry, in `Env.work`.
-/

namespace IdaRs.Sessions

open Threads
open IdaRs.Task
open Backend (ServerMode)

structure Config where
  mode : ServerMode
  /-- `stateless_http`. -/
  stateless : Bool

/-- What a cancellation token descends from. -/
inductive Lifetime
  | session (handler : Nat)
  | runtime
deriving DecidableEq, Repr

structure Handler where
  sessionId : String
  alive : Bool
  /-- Made for one request. -/
  perRequest : Bool
deriving DecidableEq, Repr

universe u

variable {V : Type u}

structure Shared (V : Type u) where
  registry : TaskRegistry V
  /-- Token `k` is a child of the token of `parents[k]`. -/
  parents : List Lifetime
  handlers : List Handler

/-- What a client asks for. -/
inductive Ask
  /-- A tool that starts background work. -/
  | start (pre key message : String)
  | getTask (id : String)
  | cancelTask (id : String)

inductive Reply (V : Type u)
  | started (id : String)
  | refused (e : TaskCreateError)
  | task (state : Option (TaskState V))
  | cancelled (known : Bool)
  | dropped

inductive Pc (V : Type u)
  | asked (ask : Ask)
  /-- Created, but without its token. -/
  | arm (id : String) (token : Nat)
  | cancel (id : String)
  | done (reply : Reply V)

structure Req (V : Type u) where
  handler : Nat
  /-- `is_sessionless_request_meta` of its metadata. -/
  full : Bool
  pc : Pc V

section

variable (cfg : Config)

def isSessionlessHttpRequest (full : Bool) : Bool := cfg.mode = .http && (cfg.stateless || full)

def taskOwner (h : Handler) (full : Bool) : TaskOwner :=
  if isSessionlessHttpRequest cfg full then .runtime else .session h.sessionId

def backgroundLifetime (handler : Nat) (full : Bool) : Lifetime :=
  if isSessionlessHttpRequest cfg full then .runtime else .session handler

/-- The lifetime of the runtime ends with the server. -/
def Shared.ended (s : Shared V) : Lifetime → Bool
  | .session i => s.handlers[i]?.any fun h => !h.alive
  | .runtime => false

/-- `child_token`. -/
def Shared.childToken (s : Shared V) (parent : Lifetime) : Shared V :=
  let registry := { s.registry with
    cancelled := if s.ended parent then s.parents.length :: s.registry.cancelled else s.registry.cancelled }
  { s with registry, parents := s.parents ++ [parent] }

inductive Event
  /-- The next step of a request; `uuid` is for the id of a task. -/
  | go (uuid : String) (now : Nat → Moment)
  /-- The request is dropped where it awaits, before it has begun. -/
  | dropped

/-- The next step of a request of a client that `owner` stands for. -/
def advance (s : Shared V) (req : Req V) (owner : TaskOwner) (uuid : String) (now : Nat → Moment) :
    Option (Shared V × Pc V) :=
  match req.pc with
  | .asked (.start pre key message) =>
    let s₁ := s.childToken (backgroundLifetime cfg req.handler req.full)
    let created := s₁.registry.createKeyed owner pre key message uuid now
    some ({ s₁ with registry := created.1 },
      match created.2 with
      | .ok id => .arm id s.parents.length
      | .error e => .done (.refused e))
  | .arm id token => some ({ s with registry := s.registry.setCancelToken id token now }, .done (.started id))
  | .asked (.getTask id) =>
    let found := s.registry.getForOwner owner id now
    some ({ s with registry := found.1 }, .done (.task found.2))
  | .asked (.cancelTask id) =>
    let found := s.registry.getForOwner owner id now
    some ({ s with registry := found.1 },
      match found.2 with
      | some state => if state.status = .running then .cancel id else .done (.cancelled true)
      | none => .done (.cancelled false))
  | .cancel id => some ({ s with registry := (s.registry.cancelForOwner owner id now).1 }, .done (.cancelled true))
  | .done _ => none

def exec (s : Shared V) (_i : Nat) (req : Req V) (e : Event) : Option (Outcome (Shared V) (Req V)) :=
  match e with
  | .go uuid now =>
    (s.handlers[req.handler]?).bind fun h =>
      (advance cfg s req (taskOwner cfg h req.full) uuid now).map fun x =>
        { shared := x.1, thread := { req with pc := x.2 } }
  | .dropped =>
    match req.pc with
    | .asked _ => some { shared := s, thread := { req with pc := .done .dropped } }
    | _ => none

inductive Env (V : Type u)
  /-- A connection, or a session. -/
  | connect (sessionId : String)
  | request (handler : Nat) (full : Bool) (ask : Ask)
  /-- A request with a handler of its own. -/
  | sessionless (sessionId : String) (full : Bool) (ask : Ask)
  | drop (handler : Nat)
  /-- A call of the registry by a task, or at the shutdown of the server. -/
  | work (op : Op V) (now : Nat → Moment)

/-- What tasks and the shutdown call. -/
def isWork : Op V → Bool
  | .createKeyed .. | .setCancelToken .. | .getForOwner .. | .cancelForOwner .. | .cancelToken _ => false
  | _ => true

def Pc.isDone : Pc V → Bool
  | done _ => true
  | _ => false

def Shared.named (s : Shared V) (sessionId : String) : Bool := s.handlers.any fun h => h.sessionId = sessionId

/-- `Drop` of a `SessionLifetime`: its token is cancelled, and the tokens below it. -/
def Shared.dropHandler (s : Shared V) (i : Nat) : Shared V :=
  let tokens := (List.range s.parents.length).filter fun k => s.parents[k]? = some (.session i)
  { s with
    registry := { s.registry with cancelled := tokens ++ s.registry.cancelled }
    handlers := s.handlers.modify i fun h => { h with alive := false } }

/-- Whether a connection, or a session, may begin. -/
def connects (s : Shared V) : Bool := if cfg.mode = .http then !cfg.stateless else s.handlers.isEmpty

def env (c : Conf (Shared V) (Req V)) : Env V → Option (Shared V × List (Req V))
  | .connect sessionId =>
    if !c.shared.named sessionId && connects cfg c.shared then
      some ({ c.shared with handlers := c.shared.handlers ++ [⟨sessionId, true, false⟩] }, [])
    else none
  | .request i full ask =>
    match c.shared.handlers[i]? with
    | some h =>
      if h.alive && !h.perRequest && !isSessionlessHttpRequest cfg full then
        some (c.shared, [⟨i, full, .asked ask⟩])
      else none
    | none => none
  | .sessionless sessionId full ask =>
    if !c.shared.named sessionId && isSessionlessHttpRequest cfg full then
      some ({ c.shared with handlers := c.shared.handlers ++ [⟨sessionId, true, true⟩] },
        [⟨c.shared.handlers.length, full, .asked ask⟩])
    else none
  | .drop i =>
    if c.threads.all fun req => req.pc.isDone || req.handler ≠ i then some (c.shared.dropHandler i, []) else none
  | .work op now =>
    if isWork op then some ({ c.shared with registry := (step c.shared.registry now op).1 }, []) else none

def program (V : Type u) : Program (Shared V) (Req V) Event (Env V) := ⟨exec cfg, env cfg⟩

end

def Init (c : Conf (Shared V) (Req V)) : Prop := c = ⟨⟨{}, [], []⟩, []⟩

/-- The task and the token that a request is about to join. -/
def Pc.armed : Pc V → Option (String × Nat)
  | .arm id token => some (id, token)
  | _ => none

/-- The id that a step gives to a task. -/
def newId (c : Conf (Shared V) (Req V)) : Act Event (Env V) → Option String
  | .thread i (.go uuid _) =>
    match (c.threads[i]?).map Req.pc with
    | some (.asked (.start pre _ _)) => some (nextTaskId pre uuid)
    | _ => none
  | _ => none

/-- The id of a task is new: no task has it, and nobody is about to give a task of this id its token. -/
def FreshIds (c : Conf (Shared V) (Req V)) (a : Act Event (Env V)) : Prop :=
  ∀ id ∈ newId c a, id ∉ c.shared.registry.keys ∧ ∀ req ∈ c.threads, id ∉ req.pc.armed.map Prod.fst

instance (c : Conf (Shared V) (Req V)) (a : Act Event (Env V)) : Decidable (FreshIds c a) :=
  inferInstanceAs (Decidable (∀ id ∈ newId c a, _))

/-! ### What the registry keeps of an entry -/

variable {r r' : TaskRegistry V} {now : Nat → Task.Moment} {e e' : TaskEntry V} {x y : String × TaskEntry V} {id : String}

/-- The owner stays, and the token as long as the task runs. -/
structure Keeps (e e' : TaskEntry V) : Prop where
  owner : e'.owner = e.owner
  running : e'.Running → e.Running ∧ e'.cancelToken = e.cancelToken
  token : ∀ token, e'.cancelToken = some token → e.cancelToken = some token

theorem Keeps.refl (e : TaskEntry V) : Keeps e e := ⟨rfl, fun h => ⟨h, rfl⟩, fun _ h => h⟩

/-- A settlement. -/
theorem Keeps.settled (howner : e'.owner = e.owner) (hrunning : ¬ e'.Running) (htoken : e'.cancelToken = none) :
    Keeps e e' := by
  refine ⟨howner, fun h => absurd h hrunning, fun token h => ?_⟩
  cases htoken.symm.trans h

theorem complete_keeps (v : V) (t : Task.Moment) : Keeps e (e.complete v t).1 := by
  unfold TaskEntry.complete
  split
  · exact .refl e
  · split <;> exact .settled rfl (by rintro ⟨⟩) rfl

theorem fail_keeps (error : String) (t : Task.Moment) : Keeps e (e.fail error t).1 := by
  unfold TaskEntry.fail
  split
  · exact .refl e
  · split <;> exact .settled rfl (by rintro ⟨⟩) rfl

theorem failAfterCleanupError_keeps (error : String) (t : Task.Moment) : Keeps e (e.failAfterCleanupError error t).1 := by
  unfold TaskEntry.failAfterCleanupError
  split
  · exact .refl e
  · exact .settled rfl (by rintro ⟨⟩) rfl

theorem finishCancelled_keeps (message : String) (t : Task.Moment) : Keeps e (e.finishCancelled message t).1 := by
  unfold TaskEntry.finishCancelled
  split
  · exact .refl e
  · exact .settled rfl (by rintro ⟨⟩) rfl

theorem updateMessage_keeps (message : String) (t : Task.Moment) : Keeps e (e.updateMessage message t) := by
  unfold TaskEntry.updateMessage
  split
  · exact ⟨rfl, fun h => ⟨h, rfl⟩, fun _ h => h⟩
  · exact .refl e

theorem requestCancel_keeps (message : String) (t : Task.Moment) (cancelled : List Nat) :
    Keeps e (e.requestCancel message t cancelled).1.1 := by
  unfold TaskEntry.requestCancel
  split
  · exact .refl e
  · exact ⟨rfl, fun h => ⟨h, rfl⟩, fun _ h => h⟩

def KeepsAll (entries entries' : List (String × TaskEntry V)) : Prop :=
  ∀ y ∈ entries', ∃ x ∈ entries, y.1 = x.1 ∧ Keeps x.2 y.2

theorem KeepsAll.of_subset {entries entries' : List (String × TaskEntry V)} (h : entries' ⊆ entries) :
    KeepsAll entries entries' := fun y hy => ⟨y, h hy, rfl, .refl y.2⟩

theorem KeepsAll.prune {entries entries' : List (String × TaskEntry V)} (h : KeepsAll entries entries') (t : Nat) :
    KeepsAll entries (pruneTerminalTasks entries' t) := fun y hy => h y (List.mem_filter.1 hy).1

theorem mem_set_entries (hnd : r.keys.Nodup) (hget : r.get? id = some e) (hy : y ∈ (r.set id e').entries) :
    ∃ x ∈ r.entries, y.1 = x.1 ∧ (x.1 ≠ id ∧ y = x ∨ x = (id, e) ∧ y = (id, e')) := by
  obtain ⟨x, hx, rfl⟩ := List.mem_map.1 hy
  by_cases hid : x.1 = id
  · rw [if_pos hid]
    have heq : e = x.2 := Option.some.inj (hget.symm.trans ((lookup_eq_some_iff hnd).2 (hid ▸ hx)))
    exact ⟨x, hx, rfl, .inr ⟨Prod.ext hid heq.symm, Prod.ext hid rfl⟩⟩
  · rw [if_neg hid]
    exact ⟨x, hx, rfl, .inl ⟨hid, rfl⟩⟩

theorem onEntry_keeps {α : Type} {sweeps : α → Bool} {absent : α} {f : TaskEntry V → (TaskEntry V × List Nat) × α}
    (hnd : r.keys.Nodup) (hf : ∀ e, Keeps e (f e).1.1) :
    KeepsAll r.entries (r.onEntry id now sweeps absent f).1.entries := by
  unfold TaskRegistry.onEntry
  split
  · exact .of_subset fun _ h => h
  · rename_i e hget
    have hset : KeepsAll r.entries (r.set id (f e).1.1).entries := by
      intro y hy
      obtain ⟨x, hx, hkey, ⟨-, rfl⟩ | ⟨rfl, rfl⟩⟩ := mem_set_entries hnd hget hy
      · exact ⟨y, hx, rfl, .refl y.2⟩
      · exact ⟨_, hx, rfl, hf e⟩
    dsimp only
    split
    · exact hset.prune _
    · exact hset

theorem cancelEach_keeps (message : String) (entries : List (String × TaskEntry V)) (times : Nat → Task.Moment)
    (cancelled : List Nat) : KeepsAll entries (TaskRegistry.cancelEach message times entries cancelled).1 := by
  induction entries generalizing times cancelled with
  | nil => exact .of_subset fun _ h => h
  | cons x entries ih =>
    intro y hy
    rcases List.mem_cons.1 hy with rfl | hy
    · exact ⟨x, List.mem_cons_self, rfl, requestCancel_keeps message (times 0) cancelled⟩
    · obtain ⟨x', hx', h⟩ := ih _ _ y hy
      exact ⟨x', List.mem_cons_of_mem _ hx', h⟩

theorem work_keeps {op : Op V} (now : Nat → Task.Moment) (hnd : r.keys.Nodup) (hop : isWork op = true) :
    KeepsAll r.entries (step r now op).1.entries := by
  cases op with
  | createKeyed | setCancelToken | getForOwner | cancelForOwner | cancelToken => cases hop
  | get => exact (KeepsAll.of_subset fun _ h => h).prune _
  | updateMessage id message => exact onEntry_keeps hnd fun e => updateMessage_keeps message (now 0)
  | complete id v => exact onEntry_keeps hnd fun e => complete_keeps v (now 0)
  | completeWithCancelToken id v token message =>
    refine onEntry_keeps hnd fun e => ?_
    dsimp only
    split
    · exact finishCancelled_keeps message (now 0)
    · exact complete_keeps v (now 0)
  | completeOrDeferCancellation id v token =>
    refine onEntry_keeps hnd fun e => ?_
    dsimp only
    split
    · exact .refl e
    · split
      · exact .refl e
      · exact complete_keeps v (now 0)
  | fail id error => exact onEntry_keeps hnd fun e => fail_keeps error (now 0)
  | failAfterCleanupError id error => exact onEntry_keeps hnd fun e => failAfterCleanupError_keeps error (now 0)
  | finishCancelled id message => exact onEntry_keeps hnd fun e => finishCancelled_keeps message (now 0)
  | cancelAllRunning message =>
    have h := cancelEach_keeps message r.entries now r.cancelled
    simp only [step, reply, TaskRegistry.cancelAllRunning]
    split
    · exact h.prune _
    · exact h

theorem cancelForOwner_keeps (owner : TaskOwner) (id : String) (now : Nat → Task.Moment) (hnd : r.keys.Nodup) :
    KeepsAll r.entries (r.cancelForOwner owner id now).1.entries := by
  refine onEntry_keeps hnd fun e => ?_
  split
  · exact requestCancel_keeps _ _ _
  · exact .refl e

theorem getForOwner_keeps (r : TaskRegistry V) (owner : TaskOwner) (id : String) (now : Nat → Task.Moment) :
    KeepsAll r.entries (r.getForOwner owner id now).1.entries :=
  (KeepsAll.of_subset fun _ h => h).prune _

theorem settle_cancelled (f : TaskEntry V → TaskEntry V × TaskSettlement) :
    (r.settle id now f).1.cancelled = r.cancelled := by
  unfold TaskRegistry.settle
  rw [onEntry_cancelled]
  cases r.get? id <;> rfl

theorem work_newId {op : Op V} (hop : isWork op = true) : op.newId = none := by
  cases op with
  | createKeyed => cases hop
  | _ => rfl

/-- A task does not cancel a token, the shutdown does. -/
theorem work_cancelled (r : TaskRegistry V) (now : Nat → Task.Moment) {op : Op V} (hop : isWork op = true) :
    (step r now op).1.cancelled = r.cancelled ∨
      ∃ message, op = .cancelAllRunning message ∧ r.cancelled ⊆ (step r now op).1.cancelled := by
  cases op with
  | createKeyed | setCancelToken | getForOwner | cancelForOwner | cancelToken => cases hop
  | get => exact .inl rfl
  | updateMessage id message =>
    left
    show (r.updateMessage id message now).cancelled = _
    unfold TaskRegistry.updateMessage
    rw [onEntry_cancelled]
    cases r.get? id <;> rfl
  | complete | completeWithCancelToken | fail | failAfterCleanupError => exact .inl (settle_cancelled _)
  | completeOrDeferCancellation id v token =>
    left
    show (r.completeOrDeferCancellation id v token now).1.cancelled = _
    unfold TaskRegistry.completeOrDeferCancellation
    rw [onEntry_cancelled]
    cases r.get? id with
    | none => rfl
    | some e =>
      rw [Option.elim_some]
      split
      · rfl
      · split <;> rfl
  | finishCancelled id message =>
    left
    show (r.finishCancelled id message now).1.cancelled = _
    unfold TaskRegistry.finishCancelled
    rw [onEntry_cancelled]
    cases r.get? id <;> rfl
  | cancelAllRunning message =>
    refine .inr ⟨message, rfl, ?_⟩
    have hsub := cancelEach_mono message now r.entries r.cancelled
    simp only [step, reply, TaskRegistry.cancelAllRunning]
    split <;> exact hsub

/-- A token is set at one entry. -/
theorem mem_setCancelToken {token : Nat} (hnd : r.keys.Nodup) (hy : y ∈ (r.setCancelToken id token now).entries) :
    ∃ x ∈ r.entries, y.1 = x.1 ∧ y.2.owner = x.2.owner ∧ (y.2.Running → x.2.Running) ∧
      (x.1 ≠ id ∧ y.2.cancelToken = x.2.cancelToken ∨ x.1 = id ∧ y.2.cancelToken = some token) := by
  unfold TaskRegistry.setCancelToken TaskRegistry.onEntry at hy
  split at hy
  · rename_i hnone
    have hid : y.1 ≠ id := by
      rintro rfl
      have hsome := (lookup_eq_some_iff hnd).2 hy
      cases hnone.symm.trans hsome
    exact ⟨y, hy, rfl, rfl, fun h => h, .inl ⟨hid, rfl⟩⟩
  · rename_i e hget
    obtain ⟨x, hx, hkey, ⟨hid, rfl⟩ | ⟨rfl, rfl⟩⟩ := mem_set_entries hnd hget hy
    · exact ⟨y, hx, rfl, rfl, fun h => h, .inl ⟨hid, rfl⟩⟩
    · exact ⟨_, hx, rfl, rfl, fun h => h, .inr ⟨rfl, rfl⟩⟩

theorem setCancelToken_cancelled (r : TaskRegistry V) (id : String) (token : Nat) (now : Nat → Task.Moment) :
    (r.setCancelToken id token now).cancelled = r.cancelled ∨
      (r.setCancelToken id token now).cancelled = token :: r.cancelled := by
  unfold TaskRegistry.setCancelToken
  rw [onEntry_cancelled]
  cases r.get? id with
  | none => exact .inl rfl
  | some e =>
    rw [Option.elim_some]
    unfold TaskEntry.setCancelToken
    dsimp only
    split
    · exact .inr rfl
    · exact .inl rfl

theorem reclaim_subset (entries : List (String × TaskEntry V)) : reclaimCapacityForAdmission entries ⊆ entries := by
  unfold reclaimCapacityForAdmission
  split
  · exact fun _ h => h
  · have hfold : ∀ (victims : List (Nat × String)) (entries : List (String × TaskEntry V)),
        victims.foldl (fun entries victim => entries.filter (·.1 ≠ victim.2)) entries ⊆ entries := by
      intro victims
      induction victims with
      | nil => exact fun entries _ h => h
      | cons victim victims ih => exact fun entries y hy => (List.mem_filter.1 (ih _ hy)).1
    exact hfold _ _

/-- What is in the registry after a creation was there before, or is the task that was created. -/
theorem mem_createKeyed {owner : TaskOwner} {pre key message uuid : String}
    (hy : y ∈ (r.createKeyed owner pre key message uuid now).1.entries) :
    y ∈ r.entries ∨ (r.createKeyed owner pre key message uuid now).2 = .ok y.1 ∧ y.1 = nextTaskId pre uuid ∧
      y.2.owner = owner ∧ y.2.cancelToken = none := by
  have hprune : ∀ z, z ∈ (r.prune (now 0).instant).entries → z ∈ r.entries := fun z hz => (List.mem_filter.1 hz).1
  unfold TaskRegistry.createKeyed at hy ⊢
  dsimp only at hy ⊢
  split at hy
  · left
    refine hprune y ?_
    split at hy
    · split at hy <;> exact hy
    · exact hy
  · split at hy
    · exact .inl (hprune y (reclaim_subset _ hy))
    · rename_i hroom
      rcases List.mem_append.1 hy with hy | hy
      · exact .inl (hprune y (reclaim_subset _ (List.mem_filter.1 hy).1))
      · obtain rfl := List.mem_singleton.1 hy
        rw [if_neg hroom]
        exact .inr ⟨rfl, rfl, rfl, rfl⟩

theorem createKeyed_ok {owner : TaskOwner} {pre key message uuid : String}
    (h : (r.createKeyed owner pre key message uuid now).2 = .ok id) : id = nextTaskId pre uuid := by
  unfold TaskRegistry.createKeyed at h
  dsimp only at h
  split at h
  · split at h
    · split at h <;> cases h
    · cases h
  · split at h
    · cases h
    · exact (Except.ok.inj h).symm

theorem createKeyed_cancelled (owner : TaskOwner) (pre key message uuid : String) :
    (r.createKeyed owner pre key message uuid now).1.cancelled = r.cancelled := by
  unfold TaskRegistry.createKeyed
  dsimp only
  split
  · split
    · split <;> rfl
    · rfl
  · split <;> rfl

/-! ### Steps -/

variable {cfg : Config} {s s' : Shared V} {req : Req V} {uuid : String} {owner : TaskOwner} {i : Nat}

/-- A step of a request of a client that `owner` stands for. -/
inductive Step (cfg : Config) (s : Shared V) (req : Req V) (owner : TaskOwner) (uuid : String)
    (now : Nat → Task.Moment) : Shared V → Pc V → Prop
  | start (pre key message : String) {s₁ : Shared V} {pc : Pc V} (hpc : req.pc = .asked (.start pre key message))
      (hs₁ : s₁ = s.childToken (backgroundLifetime cfg req.handler req.full))
      (harmed : ∀ id token, pc.armed = some (id, token) →
        (s₁.registry.createKeyed owner pre key message uuid now).2 = .ok id ∧ token = s.parents.length)
      (hcreated : ∀ id, (s₁.registry.createKeyed owner pre key message uuid now).2 = .ok id →
        pc.armed = some (id, s.parents.length))
      (hlive : pc.isDone = false → req.pc.isDone = false) :
      Step cfg s req owner uuid now
        { s₁ with registry := (s₁.registry.createKeyed owner pre key message uuid now).1 } pc
  | arm (id : String) (token : Nat) (hpc : req.pc = .arm id token) :
      Step cfg s req owner uuid now { s with registry := s.registry.setCancelToken id token now } (.done (.started id))
  | look (id : String) {pc : Pc V} (hpc : req.pc.armed = none) (hnew : pc.armed = none)
      (hlive : pc.isDone = false → req.pc.isDone = false) :
      Step cfg s req owner uuid now { s with registry := (s.registry.getForOwner owner id now).1 } pc
  | cancel (id : String) (hpc : req.pc = .cancel id) :
      Step cfg s req owner uuid now { s with registry := (s.registry.cancelForOwner owner id now).1 }
        (.done (.cancelled true))

theorem Step.of_advance {x : Shared V × Pc V} (h : advance cfg s req owner uuid now = some x) :
    Step cfg s req owner uuid now x.1 x.2 := by
  unfold advance at h
  split at h
  · rename_i pre key message hpc
    obtain rfl := Option.some.inj h
    refine .start pre key message hpc rfl ?_ ?_ fun _ => by rw [hpc]; rfl
    · intro id token harmed
      dsimp only at harmed
      split at harmed
      · rename_i id' hok
        obtain ⟨rfl, rfl⟩ := Prod.mk.inj (Option.some.inj harmed)
        exact ⟨hok, rfl⟩
      · cases harmed
    · intro id hok
      dsimp only
      rw [hok]
      rfl
  · rename_i id token hpc
    obtain rfl := Option.some.inj h
    exact .arm id token hpc
  · rename_i id hpc
    obtain rfl := Option.some.inj h
    exact .look id (by rw [hpc]; rfl) rfl (by rintro ⟨⟩)
  · rename_i id hpc
    obtain rfl := Option.some.inj h
    refine .look id (by rw [hpc]; rfl) ?_ fun _ => by rw [hpc]; rfl
    dsimp only
    split
    · split <;> rfl
    · rfl
  · rename_i id hpc
    obtain rfl := Option.some.inj h
    exact .cancel id hpc
  · cases h

/-! ### The invariant -/

variable {pc : Pc V}

/-- The token fits the owner. -/
def Shared.Fits (s : Shared V) (owner : TaskOwner) (token : Nat) : Prop :=
  match owner with
  | .runtime => s.parents[token]? = some .runtime
  | .session sid => ∃ i h, s.parents[token]? = some (.session i) ∧ s.handlers[i]? = some h ∧ h.sessionId = sid

structure Shared.Good (cfg : Config) (s : Shared V) : Prop where
  wf : Wf s.registry
  named : (s.handlers.map Handler.sessionId).Nodup
  /-- What descends from a handler ends with it, and is never one made for one request. -/
  sessions : ∀ k i, s.parents[k]? = some (.session i) →
    ∃ h, s.handlers[i]? = some h ∧ h.perRequest = false ∧ (h.alive = false → k ∈ s.registry.cancelled)
  tokens : ∀ x ∈ s.registry.entries, ∀ token, x.2.cancelToken = some token → s.Fits x.2.owner token
  runtime : ∀ x ∈ s.registry.entries, x.2.owner = .runtime → cfg.mode = .http
  once : ∀ x ∈ s.registry.entries, ∀ y ∈ s.registry.entries, ∀ token,
    x.2.cancelToken = some token → y.2.cancelToken = some token → x.1 = y.1

/-- Of a request with the handler `h`. -/
structure Req.LawAt (cfg : Config) (s : Shared V) (req : Req V) (h : Handler) : Prop where
  alive : req.pc.isDone = false → h.alive = true
  perRequest : h.perRequest = true → isSessionlessHttpRequest cfg req.full = true
  parent : ∀ id token, req.pc.armed = some (id, token) →
    s.parents[token]? = some (backgroundLifetime cfg req.handler req.full)
  owner : ∀ id token, req.pc.armed = some (id, token) →
    ∀ y ∈ s.registry.entries, y.1 = id → y.2.owner = taskOwner cfg h req.full
  unused : ∀ id token, req.pc.armed = some (id, token) → ∀ y ∈ s.registry.entries, y.2.cancelToken ≠ some token

def Req.Law (cfg : Config) (s : Shared V) (req : Req V) : Prop :=
  ∃ h, s.handlers[req.handler]? = some h ∧ req.LawAt cfg s h

/-- Different requests have different tokens to give. -/
def Apart (req req' : Req V) : Prop :=
  ∀ id id' token token', req.pc.armed = some (id, token) → req'.pc.armed = some (id', token') → token ≠ token'

/-- A running task without a token is about to get one. -/
def Armed (c : Conf (Shared V) (Req V)) : Prop :=
  ∀ x ∈ c.shared.registry.entries, x.2.Running → x.2.cancelToken = none →
    ∃ req ∈ c.threads, ∃ token, req.pc.armed = some (x.1, token)

structure Inv (cfg : Config) (c : Conf (Shared V) (Req V)) : Prop where
  requests : Modular (Shared.Good cfg) (fun s _ req => req.Law cfg s) Apart c
  armed : Armed c

theorem Apart.symm (req req' : Req V) (h : Apart req req') : Apart req' req :=
  fun id id' token token' h₁ h₂ => Ne.symm (h id' id token' token h₂ h₁)

theorem Apart.of_none (h : req.pc.armed = none) (req' : Req V) : Apart req req' := by
  intro _ _ _ _ hsome
  cases h.symm.trans hsome

/-! ### The registry and the tokens -/

theorem Shared.Fits.grow {token : Nat} (h : s.Fits owner token)
    (hparents : ∀ (k : Nat) p, s.parents[k]? = some p → s'.parents[k]? = some p)
    (hhandlers : ∀ (i : Nat) h, s.handlers[i]? = some h → ∃ h', s'.handlers[i]? = some h' ∧ h'.sessionId = h.sessionId) :
    s'.Fits owner token := by
  cases owner with
  | runtime => exact hparents token _ h
  | session sid =>
    obtain ⟨i, handler, hparent, hhandler, hsid⟩ := h
    obtain ⟨h', hh', hsame⟩ := hhandlers i handler hhandler
    exact ⟨i, h', hparents token _ hparent, hh', hsame.trans hsid⟩

namespace Shared.Good

theorem wf_call (h : s.Good cfg) (op : Op V) (now : Nat → Task.Moment) (hnew : op.newId = none) :
    Wf (step s.registry now op).1 := by
  refine h.wf.step ?_
  intro id hid
  cases hnew.symm.trans hid

theorem quiet {registry : TaskRegistry V} (h : s.Good cfg) (hwf : Wf registry)
    (hkeeps : KeepsAll s.registry.entries registry.entries) (hc : s.registry.cancelled ⊆ registry.cancelled) :
    Shared.Good cfg { s with registry } := by
  refine ⟨hwf, h.named, fun k i hk => ?_, fun y hy token htoken => ?_, fun y hy howner => ?_, ?_⟩
  · obtain ⟨handler, hhandler, hper, hdead⟩ := h.sessions k i hk
    exact ⟨handler, hhandler, hper, fun hd => hc (hdead hd)⟩
  · obtain ⟨x, hx, -, hk⟩ := hkeeps y hy
    have hfits := h.tokens x hx token (hk.token token htoken)
    rw [← hk.owner] at hfits
    exact hfits
  · obtain ⟨x, hx, -, hk⟩ := hkeeps y hy
    exact h.runtime x hx (hk.owner.symm.trans howner)
  · intro y hy y' hy' token ht ht'
    obtain ⟨x, hx, hkey, hk⟩ := hkeeps y hy
    obtain ⟨x', hx', hkey', hk'⟩ := hkeeps y' hy'
    rw [hkey, hkey']
    exact h.once x hx x' hx' token (hk.token token ht) (hk'.token token ht')

theorem childToken {parent : Lifetime} (h : s.Good cfg)
    (hparent : ∀ i, parent = .session i → ∃ h, s.handlers[i]? = some h ∧ h.perRequest = false) :
    (s.childToken parent).Good cfg := by
  have hold : ∀ (k : Nat) p, s.parents[k]? = some p → (s.parents ++ [parent])[k]? = some p := by
    intro k p hk
    rw [List.getElem?_append_left (List.getElem?_eq_some_iff.1 hk).1]
    exact hk
  refine ⟨h.wf.sublist (.refl _), h.named, fun k i hk => ?_, fun x hx token htoken => ?_, h.runtime, h.once⟩
  · have hk : (s.parents ++ [parent])[k]? = some (.session i) := hk
    show ∃ h, s.handlers[i]? = some h ∧ _ ∧ (_ → k ∈ if s.ended parent then _ else _)
    rw [List.getElem?_append] at hk
    split at hk
    · obtain ⟨handler, hhandler, hper, hdead⟩ := h.sessions k i hk
      refine ⟨handler, hhandler, hper, fun hd => ?_⟩
      split
      · exact List.mem_cons_of_mem _ (hdead hd)
      · exact hdead hd
    · rename_i hge
      rw [List.getElem?_singleton] at hk
      split at hk
      · obtain rfl : parent = .session i := Option.some.inj hk
        obtain ⟨handler, hhandler, hper⟩ := hparent i rfl
        refine ⟨handler, hhandler, hper, fun hd => ?_⟩
        have hended : s.ended (.session i) = true := by
          show (s.handlers[i]?).any _ = true
          rw [hhandler, Option.any_some, hd]
          rfl
        rw [if_pos hended]
        have hlen : k = s.parents.length := by omega
        exact hlen ▸ List.mem_cons_self
      · cases hk
  · exact (h.tokens x hx token htoken).grow hold fun i handler hh => ⟨handler, hh, rfl⟩

theorem token_lt {x : String × TaskEntry V} (h : s.Good cfg) (hx : x ∈ s.registry.entries) :
    x.2.cancelToken ≠ some s.parents.length := by
  intro htoken
  have hfits := h.tokens x hx _ htoken
  have hnone : s.parents[s.parents.length]? = none := List.getElem?_eq_none (Nat.le_refl _)
  unfold Shared.Fits at hfits
  rw [hnone] at hfits
  split at hfits
  · cases hfits
  · obtain ⟨i, handler, hparent, -⟩ := hfits
    cases hparent

/-- A new task has no token yet. -/
theorem create {pre key message : String} (h : s.Good cfg) (hfresh : nextTaskId pre uuid ∉ s.registry.keys)
    (howner : owner = .runtime → cfg.mode = .http) :
    Shared.Good cfg { s with registry := (s.registry.createKeyed owner pre key message uuid now).1 } := by
  have hnew : Fresh s.registry (.createKeyed owner pre key message uuid) := by
    intro id hid
    obtain rfl := Option.some.inj hid
    exact hfresh
  have hwf : Wf (s.registry.createKeyed owner pre key message uuid now).1 := h.wf.step hnew
  have hold : ∀ {y token}, y ∈ (s.registry.createKeyed owner pre key message uuid now).1.entries →
      y.2.cancelToken = some token → y ∈ s.registry.entries := by
    intro y token hy htoken
    rcases mem_createKeyed hy with hy | ⟨-, -, -, hnone⟩
    · exact hy
    · cases hnone.symm.trans htoken
  refine ⟨hwf, h.named, fun k i hk => ?_, fun y hy token htoken => h.tokens y (hold hy htoken) token htoken,
    fun y hy hruntime => ?_, fun y hy y' hy' token ht ht' => h.once y (hold hy ht) y' (hold hy' ht') token ht ht'⟩
  · rw [createKeyed_cancelled]
    exact h.sessions k i hk
  · rcases mem_createKeyed hy with hy | ⟨-, -, hsame, -⟩
    · exact h.runtime y hy hruntime
    · exact howner (hsame.symm.trans hruntime)

theorem arm {id : String} {token : Nat} (h : s.Good cfg)
    (hfits : ∀ y ∈ s.registry.entries, y.1 = id → s.Fits y.2.owner token)
    (hunused : ∀ y ∈ s.registry.entries, y.2.cancelToken ≠ some token) :
    Shared.Good cfg { s with registry := s.registry.setCancelToken id token now } := by
  refine ⟨h.wf_call (.setCancelToken id token) now rfl, h.named, fun k i hk => ?_, fun y hy t ht => ?_,
    fun y hy hruntime => ?_, ?_⟩
  · obtain ⟨handler, hhandler, hper, hdead⟩ := h.sessions k i hk
    refine ⟨handler, hhandler, hper, fun hd => ?_⟩
    rcases setCancelToken_cancelled s.registry id token now with hc | hc
    · exact hc ▸ hdead hd
    · exact hc ▸ List.mem_cons_of_mem _ (hdead hd)
  · obtain ⟨x, hx, -, howner, -, ⟨-, hsame⟩ | ⟨hid, hset⟩⟩ := mem_setCancelToken h.wf.nodup hy
    · rw [howner]
      exact h.tokens x hx t (hsame ▸ ht)
    · rw [howner]
      obtain rfl : token = t := Option.some.inj (hset.symm.trans ht)
      exact hfits x hx hid
  · obtain ⟨x, hx, -, howner, -⟩ := mem_setCancelToken h.wf.nodup hy
    exact h.runtime x hx (howner.symm.trans hruntime)
  · intro y hy y' hy' t ht ht'
    obtain ⟨x, hx, hkey, -, -, ⟨-, hsame⟩ | ⟨hid, hset⟩⟩ := mem_setCancelToken h.wf.nodup hy <;>
      obtain ⟨x', hx', hkey', -, -, ⟨-, hsame'⟩ | ⟨hid', hset'⟩⟩ := mem_setCancelToken h.wf.nodup hy'
    · rw [hkey, hkey']
      exact h.once x hx x' hx' t (hsame ▸ ht) (hsame' ▸ ht')
    · rw [ht'] at hset'
      exact absurd (hsame.symm.trans (ht.trans hset')) (hunused x hx)
    · rw [ht] at hset
      exact absurd (hsame'.symm.trans (ht'.trans hset)) (hunused x' hx')
    · rw [hkey, hkey', hid, hid']

theorem connect {new : Handler} (h : s.Good cfg) (hname : s.named new.sessionId = false) :
    Shared.Good cfg { s with handlers := s.handlers ++ [new] } := by
  have hold : ∀ (i : Nat) handler, s.handlers[i]? = some handler → (s.handlers ++ [new])[i]? = some handler := by
    intro i handler hi
    rw [List.getElem?_append_left (List.getElem?_eq_some_iff.1 hi).1]
    exact hi
  refine ⟨h.wf, ?_, fun k i hk => ?_, fun x hx token htoken => ?_, h.runtime, h.once⟩
  · rw [List.map_append, List.map_singleton, List.nodup_append]
    refine ⟨h.named, List.nodup_singleton _, fun sid hsid sid' hsid' heq => ?_⟩
    obtain rfl := List.mem_singleton.1 hsid'
    obtain ⟨handler, hhandler, hsid⟩ := List.mem_map.1 hsid
    have hnot := List.any_eq_false.1 hname handler hhandler
    exact hnot (decide_eq_true (hsid.trans heq))
  · obtain ⟨handler, hhandler, hrest⟩ := h.sessions k i hk
    exact ⟨handler, hold i handler hhandler, hrest⟩
  · exact (h.tokens x hx token htoken).grow (fun _ _ hk => hk) fun i handler hi => ⟨handler, hold i handler hi, rfl⟩

theorem drop (h : s.Good cfg) (i : Nat) : (s.dropHandler i).Good cfg := by
  have hget : ∀ j : Nat, (s.dropHandler i).handlers[j]? =
      (s.handlers[j]?).map fun h => if i = j then { h with alive := false } else h :=
    fun j => List.getElem?_modify _ i s.handlers j
  refine ⟨h.wf.sublist (.refl _), ?_, fun k j hk => ?_, fun x hx token htoken => ?_, h.runtime, h.once⟩
  · have hsame : (s.dropHandler i).handlers.map Handler.sessionId = s.handlers.map Handler.sessionId := by
      refine List.ext_getElem? fun j => ?_
      rw [List.getElem?_map, List.getElem?_map, hget, Option.map_map]
      congr 1
      funext handler
      show Handler.sessionId (if i = j then _ else _) = _
      split <;> rfl
    rw [hsame]
    exact h.named
  · obtain ⟨handler, hhandler, hper, hdead⟩ := h.sessions k j hk
    refine ⟨_, by rw [hget, hhandler, Option.map_some], ?_, fun hd => ?_⟩
    · split <;> exact hper
    · refine List.mem_append.2 ?_
      split at hd
      · rename_i hij
        have hlt := (List.getElem?_eq_some_iff.1 hk).1
        exact .inl (List.mem_filter.2 ⟨List.mem_range.2 hlt, decide_eq_true (hij ▸ hk)⟩)
      · exact .inr (hdead hd)
  · refine (h.tokens x hx token htoken).grow (fun _ _ hk => hk) fun j handler hj => ?_
    refine ⟨_, by rw [hget, hj, Option.map_some], ?_⟩
    split <;> rfl

end Shared.Good

/-! ### One request beside the others -/

/-- Nothing has come to a request that is to give `token` to `id`. -/
def Untouched (s s' : Shared V) (id : String) (token : Nat) : Prop :=
  ∀ y ∈ s'.registry.entries,
    (y.1 = id → ∃ x ∈ s.registry.entries, x.1 = id ∧ y.2.owner = x.2.owner) ∧
    (y.2.cancelToken = some token → ∃ x ∈ s.registry.entries, x.2.cancelToken = some token)

theorem KeepsAll.untouched {token : Nat} (h : KeepsAll s.registry.entries s'.registry.entries) :
    Untouched s s' id token := by
  intro y hy
  obtain ⟨x, hx, hkey, hk⟩ := h y hy
  exact ⟨fun hid => ⟨x, hx, hkey.symm.trans hid, hk.owner⟩, fun ht => ⟨x, hx, hk.token token ht⟩⟩

namespace Req.LawAt

variable {handler : Handler}

theorem frame (h : req.LawAt cfg s handler)
    (hparents : ∀ (k : Nat) p, s.parents[k]? = some p → s'.parents[k]? = some p)
    (huntouched : ∀ id token, req.pc.armed = some (id, token) → Untouched s s' id token) : req.LawAt cfg s' handler := by
  refine ⟨h.alive, h.perRequest, fun id token harmed => hparents token _ (h.parent id token harmed), ?_, ?_⟩
  · intro id token harmed y hy hid
    obtain ⟨x, hx, hxid, howner⟩ := (huntouched id token harmed y hy).1 hid
    exact howner.trans (h.owner id token harmed x hx hxid)
  · intro id token harmed y hy htoken
    obtain ⟨x, hx, hxtoken⟩ := (huntouched id token harmed y hy).2 htoken
    exact h.unused id token harmed x hx hxtoken

theorem unarmed (h : req.LawAt cfg s handler) (hnone : pc.armed = none)
    (hlive : pc.isDone = false → req.pc.isDone = false) : Req.LawAt cfg s' { req with pc } handler := by
  have hnot : ∀ {id token}, ¬ ({ req with pc } : Req V).pc.armed = some (id, token) := by
    intro id token harmed
    cases hnone.symm.trans harmed
  exact ⟨fun hd => h.alive (hlive hd), h.perRequest, fun _ _ ha => absurd ha hnot, fun _ _ ha => absurd ha hnot,
    fun _ _ ha => absurd ha hnot⟩

/-- The token of a new task descends from a handler that lives and was not made for one request. -/
theorem parent_live (h : req.LawAt cfg s handler) (hlive : req.pc.isDone = false) {i : Nat}
    (hparent : backgroundLifetime cfg req.handler req.full = .session i) :
    i = req.handler ∧ handler.perRequest = false ∧ handler.alive = true := by
  unfold backgroundLifetime at hparent
  split at hparent
  · cases hparent
  · rename_i hnot
    refine ⟨(Lifetime.session.inj hparent).symm, ?_, h.alive hlive⟩
    rw [Bool.eq_false_iff]
    exact fun hper => hnot (h.perRequest hper)

theorem fits (hhandler : s.handlers[req.handler]? = some handler) {token : Nat}
    (hparent : s.parents[token]? = some (backgroundLifetime cfg req.handler req.full)) :
    s.Fits (taskOwner cfg handler req.full) token := by
  unfold taskOwner
  unfold backgroundLifetime at hparent
  split at hparent
  · rename_i hless
    rw [if_pos hless]
    exact hparent
  · rename_i hless
    rw [if_neg hless]
    exact ⟨req.handler, handler, hparent, hhandler, rfl⟩

end Req.LawAt

variable {c : Conf (Shared V) (Req V)}

/-- A step of the request `i`. -/
theorem Inv.after (h : Inv cfg c) (hreq : c.threads[i]? = some req) (hgood : s'.Good cfg)
    (hhandlers : s'.handlers = c.shared.handlers)
    (hparents : ∀ (k : Nat) p, c.shared.parents[k]? = some p → s'.parents[k]? = some p)
    (hself : Req.Law cfg s' { req with pc })
    (hother : ∀ j m, j ≠ i → c.threads[j]? = some m → ∀ id token, m.pc.armed = some (id, token) →
      Untouched c.shared s' id token ∧ ∀ id', pc.armed ≠ some (id', token))
    (harmed : ∀ y ∈ s'.registry.entries, y.2.Running → y.2.cancelToken = none →
      (∃ token, pc.armed = some (y.1, token)) ∨ ∃ x ∈ c.shared.registry.entries, x.1 = y.1 ∧ x.2.Running ∧
        x.2.cancelToken = none ∧ ∀ token, req.pc.armed ≠ some (x.1, token)) :
    Inv cfg (c.after i { shared := s', thread := { req with pc } }) := by
  have hnone : ∀ m, m ∉ ([] : List (Req V)) := fun m => List.not_mem_nil
  constructor
  · refine Modular.thread h.requests Apart.symm hreq hgood hself ?_ (fun _ m hm => absurd hm (hnone m)) ?_
      (fun m hm => absurd hm (hnone m)) .nil
    · intro j m hj hm
      obtain ⟨handler, hhandler, hlaw⟩ := h.requests.threads j m hm
      exact ⟨handler, hhandlers ▸ hhandler, hlaw.frame hparents fun id token ha => (hother j m hj hm id token ha).1⟩
    · intro j m hj hm id id' token token' ha ha' heq
      exact (hother j m hj hm id' token' ha').2 id (heq ▸ ha)
  · intro y hy hrunning htoken
    rcases harmed y hy hrunning htoken with ⟨token, ha⟩ | ⟨x, hx, hkey, hxrunning, hxtoken, hnot⟩
    · exact ⟨_, List.mem_of_getElem? (Conf.after_get_self hreq), token, ha⟩
    · obtain ⟨m, hm, token, ha⟩ := h.armed x hx hxrunning hxtoken
      obtain ⟨j, hj⟩ := List.mem_iff_getElem?.1 hm
      have hji : j ≠ i := by
        rintro rfl
        obtain rfl : req = m := Option.some.inj (hreq.symm.trans hj)
        exact hnot token ha
      exact ⟨m, List.mem_of_getElem? (Conf.after_get_other hji hj), token, hkey ▸ ha⟩

/-- A step that keeps every entry, and gives no token. -/
theorem Inv.quiet (h : Inv cfg c) (hreq : c.threads[i]? = some req) (hgood : s'.Good cfg)
    (hhandlers : s'.handlers = c.shared.handlers)
    (hparents : ∀ (k : Nat) p, c.shared.parents[k]? = some p → s'.parents[k]? = some p)
    (hkeeps : KeepsAll c.shared.registry.entries s'.registry.entries) (hold : req.pc.armed = none)
    (hnew : pc.armed = none) (hlive : pc.isDone = false → req.pc.isDone = false) :
    Inv cfg (c.after i { shared := s', thread := { req with pc } }) := by
  obtain ⟨handler, hhandler, hlaw⟩ := h.requests.threads i req hreq
  refine h.after hreq hgood hhandlers hparents ⟨handler, hhandlers ▸ hhandler, hlaw.unarmed hnew hlive⟩ ?_ ?_
  · intro j m _ _ id token _
    refine ⟨hkeeps.untouched, fun id' ha => ?_⟩
    cases hnew.symm.trans ha
  · intro y hy hrunning htoken
    obtain ⟨x, hx, hkey, hk⟩ := hkeeps y hy
    obtain ⟨hxrunning, hsame⟩ := hk.running hrunning
    refine .inr ⟨x, hx, hkey.symm, hxrunning, hsame.symm.trans htoken, fun token ha => ?_⟩
    cases hold.symm.trans ha

theorem Inv.start (h : Inv cfg c) (hreq : c.threads[i]? = some req) {handler : Handler}
    (hhandler : c.shared.handlers[req.handler]? = some handler) {pre key message : String} {s₁ : Shared V}
    (hpc : req.pc = .asked (.start pre key message))
    (hs₁ : s₁ = c.shared.childToken (backgroundLifetime cfg req.handler req.full))
    (hfresh : nextTaskId pre uuid ∉ c.shared.registry.keys ∧
      ∀ req ∈ c.threads, nextTaskId pre uuid ∉ req.pc.armed.map Prod.fst)
    (harmed : ∀ id token, pc.armed = some (id, token) →
      (s₁.registry.createKeyed (taskOwner cfg handler req.full) pre key message uuid now).2 = .ok id ∧
        token = c.shared.parents.length)
    (hcreated : ∀ id, (s₁.registry.createKeyed (taskOwner cfg handler req.full) pre key message uuid now).2 = .ok id →
      pc.armed = some (id, c.shared.parents.length))
    (hlive : pc.isDone = false → req.pc.isDone = false) :
    Inv cfg (c.after i {
      shared := { s₁ with
        registry := (s₁.registry.createKeyed (taskOwner cfg handler req.full) pre key message uuid now).1 }
      thread := { req with pc } }) := by
  obtain ⟨handler', hhandler', hlaw⟩ := h.requests.threads i req hreq
  obtain rfl : handler = handler' := Option.some.inj (hhandler.symm.trans hhandler')
  have hnotDone : req.pc.isDone = false := by
    rw [hpc]
    rfl
  have hentries : s₁.registry.entries = c.shared.registry.entries := by rw [hs₁]; rfl
  have hparents : s₁.parents = c.shared.parents ++ [backgroundLifetime cfg req.handler req.full] := by rw [hs₁]; rfl
  have hlast : s₁.parents[c.shared.parents.length]? = some (backgroundLifetime cfg req.handler req.full) := by
    rw [hparents, List.getElem?_concat_length]
  have hold : ∀ (k : Nat) p, c.shared.parents[k]? = some p → s₁.parents[k]? = some p := by
    intro k p hk
    rw [hparents, List.getElem?_append_left (List.getElem?_eq_some_iff.1 hk).1]
    exact hk
  have hgood₁ : s₁.Good cfg := by
    rw [hs₁]
    refine h.requests.shared.childToken fun i' hparent => ?_
    obtain ⟨rfl, hper, -⟩ := hlaw.parent_live hnotDone hparent
    exact ⟨handler, hhandler, hper⟩
  have hmode : taskOwner cfg handler req.full = .runtime → cfg.mode = .http := by
    unfold taskOwner isSessionlessHttpRequest
    intro howner
    by_contra hmode
    rw [decide_eq_false hmode] at howner
    cases howner
  have hnew : ∀ y ∈ (s₁.registry.createKeyed (taskOwner cfg handler req.full) pre key message uuid now).1.entries,
      y ∈ c.shared.registry.entries ∨ pc.armed = some (y.1, c.shared.parents.length) ∧ y.1 = nextTaskId pre uuid ∧
        y.2.owner = taskOwner cfg handler req.full ∧ y.2.cancelToken = none := by
    intro y hy
    rcases mem_createKeyed hy with hy | ⟨hok, hrest⟩
    · exact .inl (hentries ▸ hy)
    · exact .inr ⟨hcreated _ hok, hrest⟩
  have hid : ∀ {id token}, pc.armed = some (id, token) → id = nextTaskId pre uuid ∧ token = c.shared.parents.length := by
    intro id token ha
    obtain ⟨hok, htoken⟩ := harmed id token ha
    exact ⟨createKeyed_ok hok, htoken⟩
  refine h.after hreq (hgood₁.create ?_ hmode) (by rw [hs₁]; rfl) hold ?_ ?_ ?_
  · unfold TaskRegistry.keys
    rw [hentries]
    exact hfresh.1
  · refine ⟨handler, by rw [hs₁]; exact hhandler, fun hd => hlaw.alive (hlive hd), hlaw.perRequest, ?_, ?_, ?_⟩
    · intro id token ha
      obtain ⟨-, rfl⟩ := hid ha
      exact hlast
    · intro id token ha y hy hkey
      rcases hnew y hy with hy | ⟨-, -, howner, -⟩
      · refine absurd ?_ hfresh.1
        rw [← (hid ha).1, ← hkey]
        exact List.mem_map_of_mem hy
      · exact howner
    · intro id token ha y hy htoken
      obtain ⟨-, rfl⟩ := hid ha
      rcases hnew y hy with hy | ⟨-, -, -, hnone⟩
      · exact h.requests.shared.token_lt hy htoken
      · cases hnone.symm.trans htoken
  · intro j m hj hm id token ha
    have hne : id ≠ nextTaskId pre uuid := by
      rintro rfl
      refine hfresh.2 m (List.mem_of_getElem? hm) ?_
      rw [ha]
      exact rfl
    refine ⟨fun y hy => ?_, fun id' ha' => ?_⟩
    · rcases hnew y hy with hy | ⟨-, hkey, -, hnone⟩
      · exact ⟨fun hid => ⟨y, hy, hid, rfl⟩, fun ht => ⟨y, hy, ht⟩⟩
      · refine ⟨fun hid => absurd (hid.symm.trans hkey) hne, fun ht => ?_⟩
        cases hnone.symm.trans ht
    · obtain ⟨handler', -, hlaw'⟩ := h.requests.threads j m hm
      have hparent := hlaw'.parent id token ha
      rw [(hid ha').2, List.getElem?_eq_none (Nat.le_refl _)] at hparent
      cases hparent
  · intro y hy hrunning htoken
    rcases hnew y hy with hy | ⟨ha, -⟩
    · refine .inr ⟨y, hy, rfl, hrunning, htoken, fun token ha => ?_⟩
      rw [hpc] at ha
      cases ha
    · exact .inl ⟨_, ha⟩

theorem Inv.arm (h : Inv cfg c) (hreq : c.threads[i]? = some req) {token : Nat} (hpc : req.pc = .arm id token) :
    Inv cfg (c.after i {
      shared := { c.shared with registry := c.shared.registry.setCancelToken id token now }
      thread := { req with pc := .done (.started id) } }) := by
  obtain ⟨handler, hhandler, hlaw⟩ := h.requests.threads i req hreq
  have harmed : req.pc.armed = some (id, token) := by
    rw [hpc]
    rfl
  have hnd := h.requests.shared.wf.nodup
  refine h.after hreq (h.requests.shared.arm ?_ (hlaw.unused id token harmed)) rfl (fun _ _ hk => hk)
    ⟨handler, hhandler, hlaw.unarmed rfl (by rintro ⟨⟩)⟩ ?_ ?_
  · intro y hy hid
    rw [hlaw.owner id token harmed y hy hid]
    exact Req.LawAt.fits hhandler (hlaw.parent id token harmed)
  · intro j m hj hm id' token' ha
    refine ⟨fun y hy => ?_, fun _ ha' => by cases ha'⟩
    obtain ⟨x, hx, hkey, howner, -, ⟨-, hsame⟩ | ⟨-, hset⟩⟩ := mem_setCancelToken hnd hy
    · exact ⟨fun hid => ⟨x, hx, hkey.symm.trans hid, howner⟩, fun ht => ⟨x, hx, hsame.symm.trans ht⟩⟩
    · refine ⟨fun hid => ⟨x, hx, hkey.symm.trans hid, howner⟩, fun ht => ?_⟩
      have heq : token = token' := Option.some.inj (hset.symm.trans ht)
      exact absurd heq (h.requests.pairs i j req m (Ne.symm hj) hreq hm id id' token token' harmed ha)
  · intro y hy hrunning hnone
    obtain ⟨x, hx, hkey, -, hxrunning, ⟨hne, hsame⟩ | ⟨-, hset⟩⟩ := mem_setCancelToken hnd hy
    · refine .inr ⟨x, hx, hkey.symm, hxrunning hrunning, hsame.symm.trans hnone, fun token' ha => ?_⟩
      exact hne (Prod.mk.inj (Option.some.inj (ha.symm.trans harmed))).1
    · cases hset.symm.trans hnone

theorem Inv.thread (h : Inv cfg c) (hreq : c.threads[i]? = some req) {e : Event} (hfresh : FreshIds c (.thread i e))
    {o : Outcome (Shared V) (Req V)} (hexec : exec cfg c.shared i req e = some o) : Inv cfg (c.after i o) := by
  cases e with
  | go uuid now =>
    obtain ⟨handler, hhandler, hadvance⟩ := Option.bind_eq_some_iff.1 hexec
    obtain ⟨x, hx, rfl⟩ := Option.map_eq_some_iff.1 hadvance
    obtain ⟨s', pc⟩ := x
    cases Step.of_advance hx with
    | start pre key message hpc hs₁ harmed hcreated hlive =>
      refine h.start hreq hhandler hpc hs₁ (hfresh _ ?_) harmed hcreated hlive
      show _ ∈ newId c _
      unfold newId
      dsimp only
      rw [hreq, Option.map_some, hpc]
      rfl
    | arm id token hpc => exact h.arm hreq hpc
    | look id hpc hnew hlive =>
      have hkeeps := getForOwner_keeps c.shared.registry (taskOwner cfg handler req.full) id now
      refine h.quiet hreq (h.requests.shared.quiet ?_ hkeeps (List.Subset.refl _)) rfl (fun _ _ hk => hk) hkeeps hpc hnew
        hlive
      exact h.requests.shared.wf_call (.getForOwner (taskOwner cfg handler req.full) id) now rfl
    | cancel id hpc =>
      have hkeeps := cancelForOwner_keeps (taskOwner cfg handler req.full) id now h.requests.shared.wf.nodup
      refine h.quiet hreq (h.requests.shared.quiet ?_ hkeeps ?_) rfl (fun _ _ hk => hk) hkeeps
        (by rw [hpc]; rfl) rfl (by rintro ⟨⟩)
      · exact h.requests.shared.wf_call (.cancelForOwner (taskOwner cfg handler req.full) id) now rfl
      · rcases cancelForOwner_cancelled c.shared.registry (taskOwner cfg handler req.full) id now with hc | ⟨e, -, -, hc⟩
        · exact hc ▸ List.Subset.refl _
        · exact hc ▸ List.subset_append_right _ _
  | dropped =>
    unfold exec at hexec
    dsimp only at hexec
    split at hexec
    · rename_i ask hpc
      obtain rfl := Option.some.inj hexec
      exact h.quiet hreq h.requests.shared rfl (fun _ _ hk => hk) (.of_subset (List.Subset.refl _)) (by rw [hpc]; rfl) rfl
        (by rintro ⟨⟩)
    · cases hexec

theorem Req.Law.frame (h : req.Law cfg s)
    (hhandlers : ∀ handler, s.handlers[req.handler]? = some handler → s'.handlers[req.handler]? = some handler)
    (hparents : s'.parents = s.parents) (hkeeps : KeepsAll s.registry.entries s'.registry.entries) : req.Law cfg s' := by
  obtain ⟨handler, hhandler, hlaw⟩ := h
  exact ⟨handler, hhandlers handler hhandler, hlaw.frame (fun k p hk => hparents ▸ hk) fun _ _ _ => hkeeps.untouched⟩

/-- A step of the environment; what it starts has nothing to give. -/
theorem Inv.outside (h : Inv cfg c) {new : List (Req V)} (hgood : s'.Good cfg)
    (hold : ∀ (j : Nat) m, c.threads[j]? = some m → m.Law cfg s')
    (hnew : ∀ m ∈ new, m.Law cfg s' ∧ m.pc.armed = none)
    (hkeeps : KeepsAll c.shared.registry.entries s'.registry.entries) : Inv cfg ⟨s', c.threads ++ new⟩ := by
  constructor
  · refine Modular.env h.requests Apart.symm hgood hold (fun _ m hm _ => (hnew m hm).1) ?_ ?_
    · intro m hm m' _
      exact Apart.symm _ _ (.of_none (hnew m hm).2 m')
    · exact List.Pairwise.imp_of_mem (fun hm _ _ => .of_none (hnew _ hm).2 _) (List.pairwise_of_forall fun _ _ => trivial)
  · intro y hy hrunning hnone
    obtain ⟨x, hx, hkey, hk⟩ := hkeeps y hy
    obtain ⟨hxrunning, hsame⟩ := hk.running hrunning
    obtain ⟨m, hm, token, ha⟩ := h.armed x hx hxrunning (hsame.symm.trans hnone)
    exact ⟨m, List.mem_append_left _ hm, token, hkey ▸ ha⟩

theorem Inv.env (h : Inv cfg c) {x : Env V} {r : Shared V × List (Req V)} (henv : Sessions.env cfg c x = some r) :
    Inv cfg ⟨r.1, c.threads ++ r.2⟩ := by
  have hsame : KeepsAll c.shared.registry.entries c.shared.registry.entries := .of_subset (List.Subset.refl _)
  have hleft : ∀ {new : Handler} {i : Nat} {handler : Handler}, c.shared.handlers[i]? = some handler →
      (c.shared.handlers ++ [new])[i]? = some handler := by
    intro new i handler hi
    rw [List.getElem?_append_left (List.getElem?_eq_some_iff.1 hi).1]
    exact hi
  have hnone : ∀ m : Req V, m ∉ ([] : List (Req V)) := fun m => List.not_mem_nil
  unfold Sessions.env at henv
  split at henv
  · split at henv
    · rename_i hguard
      obtain rfl := Option.some.inj henv
      have hname := (Bool.and_eq_true_iff.1 hguard).1
      refine h.outside (h.requests.shared.connect (by simpa using hname)) ?_ (fun m hm => absurd hm (hnone m)) hsame
      intro j m hm
      exact (h.requests.threads j m hm).frame (fun _ hh => hleft hh) rfl hsame
    · cases henv
  · split at henv
    · rename_i i full ask handler hhandler
      split at henv
      · rename_i hguard
        obtain rfl := Option.some.inj henv
        obtain ⟨⟨halive, hper⟩, -⟩ : (handler.alive = true ∧ (!handler.perRequest) = true) ∧ _ := by
          simpa only [Bool.and_eq_true] using hguard
        refine h.outside h.requests.shared (fun j m hm => h.requests.threads j m hm) ?_ hsame
        intro m hm
        obtain rfl := List.mem_singleton.1 hm
        refine ⟨⟨handler, hhandler, fun _ => halive, fun hp => ?_, ?_, ?_, ?_⟩, rfl⟩
        · rw [hp] at hper
          cases hper
        all_goals rintro _ _ ⟨⟩
      · cases henv
    · cases henv
  · split at henv
    · rename_i sessionId full ask hguard
      obtain rfl := Option.some.inj henv
      obtain ⟨hname, hless⟩ := Bool.and_eq_true_iff.1 hguard
      refine h.outside (h.requests.shared.connect (by simpa using hname)) ?_ ?_ hsame
      · intro j m hm
        exact (h.requests.threads j m hm).frame (fun _ hh => hleft hh) rfl hsame
      · intro m hm
        obtain rfl := List.mem_singleton.1 hm
        refine ⟨⟨⟨sessionId, true, true⟩, List.getElem?_concat_length, fun _ => rfl, fun _ => hless, ?_, ?_, ?_⟩, rfl⟩
        all_goals rintro _ _ ⟨⟩
    · cases henv
  · split at henv
    · rename_i i hguard
      obtain rfl := Option.some.inj henv
      refine h.outside (h.requests.shared.drop i) ?_ (fun m hm => absurd hm (hnone m)) hsame
      intro j m hm
      obtain ⟨handler, hhandler, hlaw⟩ := h.requests.threads j m hm
      have hfree := List.all_eq_true.1 hguard m (List.mem_of_getElem? hm)
      have hframe : m.LawAt cfg (c.shared.dropHandler i) handler :=
        hlaw.frame (fun _ _ hk => hk) fun _ _ _ => hsame.untouched
      have hget : (c.shared.dropHandler i).handlers[m.handler]? =
          some (if i = m.handler then { handler with alive := false } else handler) := by
        show (c.shared.handlers.modify i _)[m.handler]? = _
        rw [List.getElem?_modify, hhandler]
        rfl
      refine ⟨_, hget, ?_⟩
      split
      · rename_i hi
        have hdone : m.pc.isDone = true := by
          rcases Bool.or_eq_true_iff.1 hfree with hd | hne
          · exact hd
          · exact absurd hi.symm (of_decide_eq_true hne)
        refine ⟨fun hd => absurd (hdone.symm.trans hd) (by decide), hframe.perRequest, hframe.parent, hframe.owner,
          hframe.unused⟩
      · exact hframe
    · cases henv
  · split at henv
    · rename_i op now hwork
      obtain rfl := Option.some.inj henv
      have hkeeps := work_keeps now h.requests.shared.wf.nodup hwork
      have hwf := h.requests.shared.wf_call op now (work_newId hwork)
      refine h.outside (h.requests.shared.quiet hwf hkeeps ?_) ?_ (fun m hm => absurd hm (hnone m)) hkeeps
      · rcases work_cancelled c.shared.registry now hwork with hc | ⟨_, -, hc⟩
        · exact hc ▸ List.Subset.refl _
        · exact hc
      · intro j m hm
        exact (h.requests.threads j m hm).frame (fun _ hh => hh) rfl hkeeps
    · cases henv

theorem Inv.reachable (h : (program cfg V).Reachable Init FreshIds c) : Inv cfg c := by
  refine h.induct ?_ ?_
  · rintro _ rfl
    refine ⟨⟨⟨Wf.reachable .new, .nil, ?_, ?_, ?_, ?_⟩, ?_, ?_⟩, ?_⟩
    · rintro _ _ ⟨⟩
    · rintro _ ⟨⟩
    · rintro _ ⟨⟩
    · rintro _ ⟨⟩
    · rintro _ _ ⟨⟩
    · rintro _ _ _ _ _ ⟨⟩
    · rintro _ ⟨⟩
  · intro c c' a _ hinv hfresh hstep
    rcases a with ⟨i, e⟩ | x
    · obtain ⟨req, o, hreq, hexec, rfl⟩ := step_thread_iff.1 hstep
      exact hinv.thread hreq hfresh hexec
    · obtain ⟨r, henv, rfl⟩ := step_env_iff.1 hstep
      exact hinv.env henv

/-! ### Who sees a task, and who cancels it -/

/-- What a request of a handler that asks for the task is told. -/
def Sees (cfg : Config) (s : Shared V) (handler : Handler) (full : Bool) (x : String × TaskEntry V) : Prop :=
  ∀ now, (s.registry.getForOwner (taskOwner cfg handler full) x.1 now).2 = some x.2.state

theorem get?_prune (hwf : Wf r) (hx : x ∈ r.entries) (hrunning : x.2.Running) (t : Nat) :
    (r.prune t).get? x.1 = some x.2 := by
  have hsub : (r.prune t).entries.Sublist r.entries := List.filter_sublist
  exact (lookup_eq_some_iff (hwf.sublist hsub).nodup).2 (mem_prune.2 ⟨hx, .inl hrunning⟩)

theorem getForOwner_own (hwf : Wf r) (hx : x ∈ r.entries) (hrunning : x.2.Running) (now : Nat → Task.Moment) :
    (r.getForOwner x.2.owner x.1 now).2 = some x.2.state := by
  show (((r.prune (now 0).instant).get? x.1).filter _).map _ = _
  rw [get?_prune hwf hx hrunning, Option.filter_some, if_pos (decide_eq_true rfl), Option.map_some]

theorem getForOwner_other {owner : TaskOwner} (hwf : Wf r) (hx : x ∈ r.entries) (hrunning : x.2.Running)
    (now : Nat → Task.Moment) (hne : x.2.owner ≠ owner) : (r.getForOwner owner x.1 now).2 = none := by
  show (((r.prune (now 0).instant).get? x.1).filter _).map _ = _
  rw [get?_prune hwf hx hrunning, Option.filter_some, if_neg (by rw [decide_eq_true_iff]; exact hne), Option.map_none]

theorem taskOwner_sessionless {handler : Handler} {full : Bool} (h : isSessionlessHttpRequest cfg full = true) :
    taskOwner cfg handler full = .runtime := if_pos h

theorem taskOwner_session {handler : Handler} {full : Bool} (h : isSessionlessHttpRequest cfg full = false) :
    taskOwner cfg handler full = .session handler.sessionId := if_neg (by rw [h]; exact Bool.noConfusion)

/-- The handler of a running task that is not the runtime's. -/
theorem Inv.home (h : Inv cfg c) (hx : x ∈ c.shared.registry.entries) (hrunning : x.2.Running) {sid : String}
    (howner : x.2.owner = .session sid) :
    ∃ (i : Nat) (handler : Handler), c.shared.handlers[i]? = some handler ∧ handler.sessionId = sid ∧
      handler.perRequest = false ∧
      (handler.alive = false → ∃ token, x.2.cancelToken = some token ∧ token ∈ c.shared.registry.cancelled) := by
  cases htoken : x.2.cancelToken with
  | some token =>
    have hfits := h.requests.shared.tokens x hx token htoken
    rw [howner] at hfits
    obtain ⟨i, handler, hparent, hhandler, hsid⟩ := hfits
    obtain ⟨handler', hhandler', hper, hdead⟩ := h.requests.shared.sessions token i hparent
    obtain rfl : handler = handler' := Option.some.inj (hhandler.symm.trans hhandler')
    exact ⟨i, handler, hhandler, hsid, hper, fun hd => ⟨token, rfl, hdead hd⟩⟩
  | none =>
    obtain ⟨req, hreq, token, ha⟩ := h.armed x hx hrunning htoken
    obtain ⟨j, hj⟩ := List.mem_iff_getElem?.1 hreq
    obtain ⟨handler, hhandler, hlaw⟩ := h.requests.threads j req hj
    have hlive : req.pc.isDone = false := by
      cases hpc : req.pc <;> rw [hpc] at ha <;> first | rfl | cases ha
    have hsession : isSessionlessHttpRequest cfg req.full = false := by
      rw [Bool.eq_false_iff]
      intro hless
      have hruntime := hlaw.owner _ _ ha x hx rfl
      rw [taskOwner_sessionless hless, howner] at hruntime
      cases hruntime
    have hsame := hlaw.owner _ _ ha x hx rfl
    rw [taskOwner_session hsession, howner] at hsame
    refine ⟨req.handler, handler, hhandler, (TaskOwner.session.inj hsame).symm, ?_, fun hd => ?_⟩
    · rw [Bool.eq_false_iff]
      intro hper
      cases hsession.symm.trans (hlaw.perRequest hper)
    · cases hd.symm.trans (hlaw.alive hlive)

theorem Inv.handler_eq (h : Inv cfg c) {i j : Nat} {handler handler' : Handler}
    (hi : c.shared.handlers[i]? = some handler) (hj : c.shared.handlers[j]? = some handler')
    (hsid : handler'.sessionId = handler.sessionId) : j = i := by
  have hlt : j < (c.shared.handlers.map Handler.sessionId).length := by
    rw [List.length_map]
    exact (List.getElem?_eq_some_iff.1 hj).1
  refine (List.getElem?_inj hlt h.requests.shared.named).1 ?_
  rw [List.getElem?_map, List.getElem?_map, hi, hj, Option.map_some, Option.map_some, hsid]

/-! ### Two tasks over HTTP -/

namespace Sample

def http : Config := ⟨.http, false⟩

def noon : Nat → Task.Moment := fun _ => ⟨0, "2025-01-01T12:00:00Z"⟩

def running (owner : TaskOwner) (id key message : String) (token : Nat) : String × TaskEntry Unit :=
  (id, {
    owner, cancelToken := some token
    state := { id, status := .running, message, result := none, createdAt := 0, updatedAt := 0, key := some key
               createdAtIso := "2025-01-01T12:00:00Z", updatedAtIso := "2025-01-01T12:00:00Z" } })

def analysis : String × TaskEntry Unit :=
  running (.session "a") "analyze-1" "analyze_funcs" "Waiting for IDA auto-analysis to finish" 0

/-- A session has started a task, and so has a request without one, which has ended. -/
def started : Conf (Shared Unit) (Req Unit) where
  shared := {
    registry := ⟨[analysis, running .runtime "dsc-2" "/tmp/cache" "Opening DSC" 1], []⟩
    parents := [.session 0, .runtime]
    handlers := [⟨"a", true, false⟩, ⟨"b", false, true⟩] }
  threads := [⟨0, false, .done (.started "analyze-1")⟩, ⟨1, true, .done (.started "dsc-2")⟩]

/-- The session has ended. -/
def ended : Conf (Shared Unit) (Req Unit) :=
  { started with shared := started.shared.dropHandler 0 }

theorem run_started : (program http Unit).runIf FreshIds ⟨⟨{}, [], []⟩, []⟩
    [.env (.connect "a"),
      .env (.request 0 false (.start "analyze" "analyze_funcs" "Waiting for IDA auto-analysis to finish")),
      .env (.sessionless "b" true (.start "dsc" "/tmp/cache" "Opening DSC")), .thread 0 (.go "1" noon),
      .thread 1 (.go "2" noon), .thread 1 (.go "" noon), .thread 0 (.go "" noon), .env (.drop 1)] = some started := rfl

theorem started_reachable : (program http Unit).Reachable Init FreshIds started := .of_runIf (.init rfl) run_started

theorem ended_step : (program http Unit).step started (.env (.drop 0)) = some ended := rfl

end Sample

/-- Whatever requests, tasks and ends of handlers come in between each other: a running task is the runtime's, and then
every request without a session sees it, and its token is that of no handler; or it is that of a session, and then the
requests of this session see it and no other handler does, and when the session has ended its token is cancelled. -/
theorem task_reachable (h : (program cfg V).Reachable Init FreshIds c) :
    ∀ x ∈ c.shared.registry.entries, x.2.Running →
      (x.2.owner = .runtime ∧ cfg.mode = .http ∧
        (∀ handler full, isSessionlessHttpRequest cfg full = true → Sees cfg c.shared handler full x) ∧
        ∀ token, x.2.cancelToken = some token → c.shared.parents[token]? = some .runtime) ∨
      ∃ (i : Nat) (handler : Handler), c.shared.handlers[i]? = some handler ∧ handler.perRequest = false ∧
        (∀ full, isSessionlessHttpRequest cfg full = false → Sees cfg c.shared handler full x) ∧
        (∀ (j : Nat) handler' full, c.shared.handlers[j]? = some handler' → j ≠ i → ∀ now,
          (c.shared.registry.getForOwner (taskOwner cfg handler' full) x.1 now).2 = none) ∧
        (handler.alive = false → ∃ token, x.2.cancelToken = some token ∧ token ∈ c.shared.registry.cancelled) := by
  intro x hx hrunning
  have hinv := Inv.reachable h
  have hwf := hinv.requests.shared.wf
  cases howner : x.2.owner with
  | runtime =>
    refine .inl ⟨rfl, hinv.requests.shared.runtime x hx howner, fun handler full hless now => ?_, fun token ht => ?_⟩
    · rw [taskOwner_sessionless hless, ← howner]
      exact getForOwner_own hwf hx hrunning now
    · have hfits := hinv.requests.shared.tokens x hx token ht
      rw [howner] at hfits
      exact hfits
  | session sid =>
    obtain ⟨i, handler, hhandler, rfl, hper, hdead⟩ := hinv.home hx hrunning howner
    refine .inr ⟨i, handler, hhandler, hper, fun full hsession now => ?_, fun j handler' full hj hji now => ?_, hdead⟩
    · rw [taskOwner_session hsession, ← howner]
      exact getForOwner_own hwf hx hrunning now
    · refine getForOwner_other hwf hx hrunning now fun heq => hji ?_
      rw [howner] at heq
      unfold taskOwner at heq
      split at heq
      · cases heq
      · exact hinv.handler_eq hhandler hj (TaskOwner.session.inj heq).symm

theorem task_reachable_ended :
    (TaskOwner.session "a" = .runtime ∧ Sample.http.mode = .http ∧
      (∀ handler full, isSessionlessHttpRequest Sample.http full = true →
        Sees Sample.http Sample.ended.shared handler full Sample.analysis) ∧
      ∀ token, Sample.analysis.2.cancelToken = some token → Sample.ended.shared.parents[token]? = some .runtime) ∨
    ∃ (i : Nat) (handler : Handler), Sample.ended.shared.handlers[i]? = some handler ∧ handler.perRequest = false ∧
      (∀ full, isSessionlessHttpRequest Sample.http full = false →
        Sees Sample.http Sample.ended.shared handler full Sample.analysis) ∧
      (∀ (j : Nat) handler' full, Sample.ended.shared.handlers[j]? = some handler' → j ≠ i → ∀ now,
        (Sample.ended.shared.registry.getForOwner (taskOwner Sample.http handler' full) "analyze-1" now).2 = none) ∧
      (handler.alive = false → ∃ token, Sample.analysis.2.cancelToken = some token ∧
        token ∈ Sample.ended.shared.registry.cancelled) :=
  task_reachable (.step Sample.started_reachable (by decide) Sample.ended_step) Sample.analysis List.mem_cons_self rfl

theorem Inv.armed_unused (h : Inv cfg c) (hreq : c.threads[i]? = some req) {token : Nat} (hpc : req.pc = .arm id token)
    (hx : x ∈ c.shared.registry.entries) : x.2.cancelToken ≠ some token := by
  obtain ⟨handler, -, hlaw⟩ := h.requests.threads i req hreq
  refine hlaw.unused id token ?_ x hx
  rw [hpc]
  rfl

/-- Whatever comes in between: the token of a running task is cancelled by the end of its own session, by a client that
asks for it and owns the task, or by the shutdown of the server; so never by the end of a handler that was made for one
request. -/
theorem cancelled_by_own (h : (program cfg V).Reachable Init FreshIds c) {c' : Conf (Shared V) (Req V)}
    {a : Act Event (Env V)} (hstep : (program cfg V).step c a = some c') :
    ∀ x ∈ c.shared.registry.entries, x.2.Running → ∀ token, x.2.cancelToken = some token →
      token ∉ c.shared.registry.cancelled → token ∈ c'.shared.registry.cancelled →
      (∃ (i : Nat) (handler : Handler), a = .env (.drop i) ∧ c.shared.handlers[i]? = some handler ∧
        handler.perRequest = false ∧ x.2.owner = .session handler.sessionId) ∨
      (∃ (i : Nat) (uuid : String) (now : Nat → Task.Moment) (req : Req V) (handler : Handler),
        a = .thread i (.go uuid now) ∧ c.threads[i]? = some req ∧ req.pc = .cancel x.1 ∧
        c.shared.handlers[req.handler]? = some handler ∧ x.2.owner = taskOwner cfg handler req.full) ∨
      ∃ message now, a = .env (.work (.cancelAllRunning message) now) := by
  intro x hx hrunning token htoken hnot hnew
  have hinv := Inv.reachable h
  have hfits := hinv.requests.shared.tokens x hx token htoken
  rcases a with ⟨i, e⟩ | y
  · obtain ⟨req, o, hreq, hexec, rfl⟩ := step_thread_iff.1 hstep
    have hnew : token ∈ o.shared.registry.cancelled := hnew
    cases e with
    | dropped =>
      have hexec : exec cfg c.shared i req .dropped = some o := hexec
      unfold exec at hexec
      dsimp only at hexec
      split at hexec
      · obtain rfl := Option.some.inj hexec
        exact absurd hnew hnot
      · cases hexec
    | go uuid now =>
      obtain ⟨handler, hhandler, hadvance⟩ := Option.bind_eq_some_iff.1 hexec
      obtain ⟨⟨s', pc⟩, hadv, rfl⟩ := Option.map_eq_some_iff.1 hadvance
      cases Step.of_advance hadv with
      | start pre key message hpc hs₁ harmed hcreated hlive =>
        have hnew : token ∈ (TaskRegistry.createKeyed _ _ pre key message uuid now).1.cancelled := hnew
        rw [createKeyed_cancelled, hs₁] at hnew
        have hnew : token ∈ if c.shared.ended _ = true then _ else _ := hnew
        split at hnew
        · rcases List.mem_cons.1 hnew with rfl | hold
          · exact absurd htoken (hinv.requests.shared.token_lt hx)
          · exact absurd hold hnot
        · exact absurd hnew hnot
      | arm id token' hpc =>
        have hnew : token ∈ (c.shared.registry.setCancelToken id token' now).cancelled := hnew
        rcases setCancelToken_cancelled c.shared.registry id token' now with hc | hc <;> rw [hc] at hnew
        · exact absurd hnew hnot
        · rcases List.mem_cons.1 hnew with rfl | hold
          · exact absurd htoken (hinv.armed_unused hreq hpc hx)
          · exact absurd hold hnot
      | look id hpc hnone hlive => exact absurd hnew hnot
      | cancel id hpc =>
        have hnew : token ∈ (c.shared.registry.cancelForOwner (taskOwner cfg handler req.full) id now).1.cancelled := hnew
        rcases cancelForOwner_cancelled c.shared.registry (taskOwner cfg handler req.full) id now with
          hc | ⟨e, hget, howner, hc⟩ <;> rw [hc] at hnew
        · exact absurd hnew hnot
        · rcases List.mem_append.1 hnew with htok | hold
          · have he := (lookup_eq_some_iff hinv.requests.shared.wf.nodup).1 hget
            have hsame : x.1 = id := hinv.requests.shared.once x hx (id, e) he token htoken (Option.mem_toList.1 htok)
            have hentry : x.2 = e := by
              have hlook := (lookup_eq_some_iff hinv.requests.shared.wf.nodup).2 hx
              rw [hsame] at hlook
              exact Option.some.inj (hlook.symm.trans hget)
            exact .inr (.inl ⟨i, uuid, now, req, handler, rfl, hreq, hsame ▸ hpc, hhandler, hentry ▸ howner⟩)
          · exact absurd hold hnot
  · obtain ⟨r, henv, rfl⟩ := step_env_iff.1 hstep
    have hnew : token ∈ r.1.registry.cancelled := hnew
    unfold program Sessions.env at henv
    dsimp only at henv
    split at henv
    · split at henv
      · obtain rfl := Option.some.inj henv
        exact absurd hnew hnot
      · cases henv
    · split at henv
      · split at henv
        · obtain rfl := Option.some.inj henv
          exact absurd hnew hnot
        · cases henv
      · cases henv
    · split at henv
      · obtain rfl := Option.some.inj henv
        exact absurd hnew hnot
      · cases henv
    · split at henv
      · rename_i i hguard
        obtain rfl := Option.some.inj henv
        rcases List.mem_append.1 hnew with hbelow | hold
        · have hparent := of_decide_eq_true (List.mem_filter.1 hbelow).2
          obtain ⟨handler, hhandler, hper, -⟩ := hinv.requests.shared.sessions token i hparent
          refine .inl ⟨i, handler, rfl, hhandler, hper, ?_⟩
          cases howner : x.2.owner with
          | runtime =>
            rw [howner] at hfits
            cases hfits.symm.trans hparent
          | session sid =>
            rw [howner] at hfits
            obtain ⟨i', handler', hparent', hhandler', rfl⟩ := hfits
            obtain rfl : i' = i := Lifetime.session.inj (Option.some.inj (hparent'.symm.trans hparent))
            rw [Option.some.inj (hhandler'.symm.trans hhandler)]
        · exact absurd hold hnot
      · cases henv
    · split at henv
      · rename_i op now hwork
        obtain rfl := Option.some.inj henv
        have hnew : token ∈ (step c.shared.registry now op).1.cancelled := hnew
        rcases work_cancelled c.shared.registry now hwork with hc | ⟨message, rfl, -⟩
        · exact absurd (hc ▸ hnew) hnot
        · exact .inr (.inr ⟨message, now, rfl⟩)
      · cases henv

theorem cancelled_by_own_ended :
    (∃ (i : Nat) (handler : Handler), (Act.env (.drop 0) : Act Event (Env Unit)) = .env (.drop i) ∧
      Sample.started.shared.handlers[i]? = some handler ∧ handler.perRequest = false ∧
      TaskOwner.session "a" = .session handler.sessionId) ∨
    (∃ (i : Nat) (uuid : String) (now : Nat → Task.Moment) (req : Req Unit) (handler : Handler),
      (Act.env (.drop 0) : Act Event (Env Unit)) = .thread i (.go uuid now) ∧ Sample.started.threads[i]? = some req ∧
      req.pc = .cancel "analyze-1" ∧ Sample.started.shared.handlers[req.handler]? = some handler ∧
      TaskOwner.session "a" = taskOwner Sample.http handler req.full) ∨
    ∃ message now, (Act.env (.drop 0) : Act Event (Env Unit)) = .env (.work (.cancelAllRunning message) now) :=
  cancelled_by_own Sample.started_reachable Sample.ended_step Sample.analysis List.mem_cons_self rfl 0 rfl
    List.not_mem_nil List.mem_cons_self

end IdaRs.Sessions
