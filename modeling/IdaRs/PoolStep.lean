import IdaRs.Pool

/-!
# The steps of a pool task

`Step s i pc s' pc' new`: everything one step of task `i` can do, guards included. `exec_step` says so
once; the invariants go by cases on `Step` and never unfold the step functions.
-/

namespace IdaRs.Pool

open Threads

/-! ### What a task holds -/

/-- The guard around a `mark_dead` retires for this operation when it is dropped. -/
def After.guard : After → Option Origin
  | .call op _ => some op.origin
  | .release rel _ => some rel.origin
  | _ => none

/-- The worker and the operation of an armed `WorkerRetireGuard` under `call_lock`. -/
def Pc.guard : Pc → Option (Nat × Origin)
  | .request op => some (op.worker, op.origin)
  | .dying w _ after => after.guard.map (w, ·)
  | .relRpc rel => some (rel.worker, rel.origin)
  | _ => none

/-- The spawn reservation of a task: its id, whether the slot exists, and for whom it is. -/
def Pc.reservation : Pc → Option (Nat × Bool × Spawner)
  | .spawn id who => some (id, false, who)
  | .install id result who => some (id, result.isOk, who)
  | _ => none

/-- The session a task is about to take the handle of, and why. -/
def Pc.takes : Pc → Option (String × Cause)
  | .openTake op err => some (op.session, .openFailed op.generation err)
  | .closeTake session => some (session, .close)
  | .closeIfTake session _ => some (session, .closeIfGeneration)
  | .sessionTake session => some (session, .sessionDropped)
  | _ => none

/-- The task holds no lock, reservation, lease or guard. -/
def Pc.loose : Pc → Bool
  | .openLock .. | .callResolve .. | .waitCall _ | .clear .. | .setIdbPath .. | .openTake .. | .closeTake _ |
    .closeIfTake .. | .sessionTake _ | .relCheck .. | .reapStart _ | .dying _ _ (.cleared ..) => true
  | _ => false

/-- Where a task goes with the answer of the child. -/
inductive Answered (op : Op) : Pc → Prop
  | done (r : Ret) : Answered op (.done r)
  | clear (expected : Option Nat) (h : op.kind = .call expected) (e : ToolError) : Answered op (.clear op e true)
  | opened (fresh : Bool) (h : op.kind = .openIdb fresh) (path : String) : Answered op (.setIdbPath op path)
  | failed (fresh : Bool) (h : op.kind = .openIdb fresh) (e : ToolError) : Answered op (opFailed op e)

inductive Step (s : Shared) (i : Nat) : Pc → Shared → Pc → List Pc → Prop
  -- `lease_for_open`
  | openReuse {x secs lease} (hl : (s.sessions x).lock = none) (hh : (s.sessions x).handle = some lease) :
      Step s i (.openLock x secs) s
        (.waitCall ⟨x, lease.worker, lease.generation, .openIdb false, "open_idb", secs⟩) []
  | openFresh {x secs} (hl : (s.sessions x).lock = none) (hh : (s.sessions x).handle = none) :
      Step s i (.openLock x secs)
        (s.setSession x fun st => { st with nextGeneration := st.nextGeneration + 1, lock := some i })
        (.leaseWait ⟨x, (s.sessions x).nextGeneration + 1, secs⟩) []
  | lockScan {l} (hp : s.poolLock = none) :
      Step s i (.leaseWait l) (s.lockPool i) (.scan l s.children s.spawning.length [] []) []
  | scanDead {l w todo a d seen} (hs : (s.slots w).map Slot.state = some .dead) :
      Step s i (.scan l (w :: todo) a d seen) s (.scan l todo a (d ++ [w]) (seen ++ [(w, .dead)])) []
  | scanIdle {l w todo a d seen} (hs : (s.slots w).map Slot.state = some .idle) :
      Step s i (.scan l (w :: todo) a d seen) (s.leaseSlot w l).unlockPool (.store l w) []
  | scanBusy {l w todo a d seen st} (hs : (s.slots w).map Slot.state = some st) (hd : st ≠ .dead)
      (hi : st ≠ .idle) :
      Step s i (.scan l (w :: todo) a d seen) s (.scan l todo (a + 1) d (seen ++ [(w, st)])) []
  | scanFull {l a d seen} (h : s.config.maxWorkers ≤ a) :
      Step s i (.scan l [] a d seen)
        ({ s with children := s.children.filter fun w => !d.contains w }.unlockPool.unlockSession l.session)
        (.done (.error (.poolExhausted a s.config.maxWorkers))) []
  | scanReserve {l a d seen} (h : a < s.config.maxWorkers) :
      Step s i (.scan l [] a d seen)
        { s with children := s.children.filter fun w => !d.contains w }.reserve.unlockPool
        (.spawn s.nextId (.lease l)) []
  | store {l w} :
      Step s i (.store l w)
        (s.setSession l.session fun st => { st with handle := some ⟨w, l.generation⟩, lock := none })
        (.waitCall ⟨l.session, w, l.generation, .openIdb true, "open_idb", l.timeoutSecs⟩) []
  -- `spawn_reserved_slot`
  | spawned {id who} : Step s i (.spawn id who) (s.addSlot id who) (.install id (.ok ()) who) []
  | spawnFailed {id who} (e : ToolError) : Step s i (.spawn id who) s (.install id (.error e) who) []
  | installLease {id l} (hp : s.poolLock = none) :
      Step s i (.install id (.ok ()) (.lease l)) (s.finishReservation id (some id)) (.store l id) []
  | installFailed {id l e} (hp : s.poolLock = none) :
      Step s i (.install id (.error e) (.lease l)) ((s.finishReservation id none).unlockSession l.session)
        (.done (.error e)) []
  | installEnsure {id w after} (hp : s.poolLock = none) :
      Step s i (.install id (.ok ()) (.ensure w after)) (s.finishReservation id (some id))
        (.dying w .ensure after) []
  | installEnsureFailed {id w after e} (hp : s.poolLock = none) :
      Step s i (.install id (.error e) (.ensure w after)) (afterDying (s.finishReservation id none) w after).1
        (afterDying (s.finishReservation id none) w after).2 []
  -- `call_tool`
  | resolve {x expected tool secs lease} (hl : (s.sessions x).lock = none)
      (hh : (s.sessions x).handle = some lease)
      (hg : requireLeaseGeneration lease.generation expected = none) :
      Step s i (.callResolve x expected tool secs) s
        (.waitCall ⟨x, lease.worker, lease.generation, .call expected, tool, secs⟩) []
  | request {op slot} (hs : s.slots op.worker = some slot) (hc : slot.callLock = none)
      (hst : slot.state = .leased op.session) :
      Step s i (.waitCall op) (s.setCallLock op.worker (some i)) (.request op) []
  | refused {op slot} (e : ToolError) (hs : s.slots op.worker = some slot)
      (hst : slot.state ≠ .leased op.session) :
      Step s i (.waitCall op) s (opFailed op e) []
  | answered {op pc'} (h : Answered op pc') :
      Step s i (.request op) (s.setCallLock op.worker none) pc' []
  | retire {op} (e : ToolError) : Step s i (.request op) s (.dying op.worker .take (.call op e)) []
  | clear {op e retire} (hl : (s.sessions op.session).lock = none) :
      Step s i (.clear op e retire) (clearHandle s op.session op.worker)
        (if retire then .dying op.worker .take (.cleared op e) else .done (.error e)) []
  | setIdbPath {op path} :
      Step s i (.setIdbPath op path) (s.setSlot op.worker fun x => { x with idbPath := some path })
        (.done (.opened ⟨path, op.generation⟩)) []
  -- `mark_dead`
  | kill {w after} : Step s i (.dying w .take after) (s.kill w) (.dying w .forget after) []
  | forget {w after} (hp : s.poolLock = none) :
      Step s i (.dying w .forget after) (s.forgetSlot w) (.dying w .ensure after) []
  | forgetLast {w} (hp : s.poolLock = none) :
      Step s i (.dying w .forget .shutdown) (s.forgetSlot w) (.done .done) []
  | ensured {w after} : Step s i (.dying w .ensure after) (afterDying s w after).1 (afterDying s w after).2 []
  | ensureReserve {w after} (hp : s.poolLock = none)
      (h : s.spawning.length + s.children.length < s.config.maxWorkers) :
      Step s i (.dying w .ensure after) s.reserve (.spawn s.nextId (.ensure w after)) []
  -- `release`
  | take {pc x cause lease} (hpc : pc.takes = some (x, cause)) (hl : (s.sessions x).lock = none)
      (hh : (s.sessions x).handle = some lease) :
      Step s i pc (s.setHandle x none) (.relWait ⟨x, lease.worker, lease.generation, cause⟩) []
  | relDead {rel slot} (hs : s.slots rel.worker = some slot) (hst : slot.state = .dead) :
      Step s i (.relWait rel) s (.relCheck rel none) []
  | relClose {rel slot} (hs : s.slots rel.worker = some slot) (hc : slot.callLock = none)
      (hst : slot.state ≠ .dead) :
      Step s i (.relWait rel) (s.setSlot rel.worker fun x => { x with state := .closing, callLock := some i })
        (.relRpc rel) []
  | relRetire {rel} (e : ToolError) : Step s i (.relRpc rel) s (.dying rel.worker .take (.release rel e)) []
  | relRpcDead {rel} (e : Option ToolError) (hs : (s.slots rel.worker).map Slot.state = some .dead) :
      Step s i (.relRpc rel) (s.setCallLock rel.worker none) (.relCheck rel e) []
  | relIdle {rel slot} (hs : s.slots rel.worker = some slot) (hst : slot.state ≠ .dead) :
      Step s i (.relRpc rel) (s.setSlot rel.worker fun x =>
        { x with state := .idle, lastUsed := s.clock, idbPath := none, callLock := none }) (.relCheck rel none) []
  | relCheckIdle {rel e} (h : s.isIdle rel.worker) :
      Step s i (.relCheck rel e) s (.done (rel.ret e)) [.reapStart rel.worker]
  -- the reaper
  | reapStart {w} :
      Step s i (.reapStart w) s
        (.reapSleep ⟨w, s.clock, s.isIdle w, ((s.slots w).map Slot.leases).getD 0⟩) []
  | reapLock {t} (hp : s.poolLock = none) :
      Step s i (.reapSleep t) (s.lockPool i) (.reapCount t s.children s.spawning.length) []
  | reapVisit {t w todo n} :
      Step s i (.reapCount t (w :: todo) n) s (.reapCount t todo (if s.isLive w then n + 1 else n)) []
  | reapKeep {t n} : Step s i (.reapCount t [] n) s.unlockPool (.done .done) []
  | reapKill {t n slot} (hn : s.config.minWorkers < n) (hs : s.slots t.worker = some slot)
      (hst : slot.state = .idle) (hu : slot.lastUsed ≤ t.sleepStarted) :
      Step s i (.reapCount t [] n) (s.kill t.worker).unlockPool (.reapForget t.worker) []
  | reapForget {w} (hp : s.poolLock = none) :
      Step s i (.reapForget w) (s.forgetSlot w) (.done .done) []
  | resDrop {id hasSlot o} (hp : s.poolLock = none) :
      Step s i (.resDrop id hasSlot o) (s.finishReservation id none)
        (if hasSlot then .dying id .take (.task o) else .done .done) []
  -- a task that holds nothing ends or is dropped
  | finish {pc} (r : Ret) (h : pc.loose) : Step s i pc s (.done r) []
  -- drops of tasks that hold something
  | dropLeaseWait {l} : Step s i (.leaseWait l) (s.unlockSession l.session) (.done .dropped) []
  | dropScan {l todo a d seen} :
      Step s i (.scan l todo a d seen) (s.unlockPool.unlockSession l.session) (.done .dropped) []
  | dropLease {pc id hasSlot l} (h : pc.reservation = some (id, hasSlot, .lease l)) :
      Step s i pc (s.unlockSession l.session) (.done .dropped) [.resDrop id hasSlot l.origin]
  | dropEnsure {pc id hasSlot w after o} (h : pc.reservation = some (id, hasSlot, .ensure w after))
      (hg : after.guard = some o) :
      Step s i pc (s.setCallLock w none) (.done .dropped)
        [.resDrop id hasSlot o, .dying w .take (.task o)]
  | dropEnsureCleared {pc id hasSlot w op e}
      (h : pc.reservation = some (id, hasSlot, .ensure w (.cleared op e))) :
      Step s i pc s (.done .dropped) [.resDrop id hasSlot ⟨op.session, none⟩]
  | dropGuard {pc w o} (h : pc.guard = some (w, o)) :
      Step s i pc (s.setCallLock w none) (.done .dropped) [.dying w .take (.task o)]
  | dropRelWait {rel} : Step s i (.relWait rel) s (.done .dropped) [.dying rel.worker .take (.task rel.origin)]

variable {s s' : Shared} {i : Nat} {pc pc' : Pc} {e : Event} {o : Outcome Shared Pc} {r : Shared × Pc}

theorem openStep_step {x : String} {secs : Nat} (h : openStep s i x secs = some r) :
    Step s i (.openLock x secs) r.1 r.2 [] := by
  unfold openStep at h
  dsimp only at h
  split at h
  · cases h
  · rename_i hl
    have hl := not_not.1 hl
    split at h
    · rename_i lease hh; cases h; exact .openReuse hl hh
    · rename_i hh
      split at h
      · cases h; exact .openFresh hl hh
      · cases h; exact .finish _ rfl

theorem scanStep_step {l : Lending} {todo : List Nat} {a : Nat} {d : List Nat} {seen : List (Nat × ChildState)}
    (h : scanStep s l todo a d seen = some r) : Step s i (.scan l todo a d seen) r.1 r.2 [] := by
  unfold scanStep at h
  split at h
  · split at h
    · cases h
    · rename_i hs; cases h; exact .scanDead hs
    · rename_i hs; cases h; exact .scanIdle hs
    · rename_i st hd hi hs; cases h
      exact .scanBusy hs (fun hst => hd hst) fun hst => hi hst
  · dsimp only at h
    split at h
    · rename_i hm; cases h; exact .scanFull hm
    · rename_i hm; cases h; exact .scanReserve (not_le.1 hm)

theorem installStep_step {id : Nat} {res : Except ToolError Unit} {who : Spawner}
    (h : installStep s id res who = some r) : Step s i (.install id res who) r.1 r.2 [] := by
  unfold installStep at h
  split at h
  · cases h
  · rename_i hp
    have hp := not_not.1 hp
    split at h <;> cases h
    exacts [.installLease hp, .installFailed hp, .installEnsure hp, .installEnsureFailed hp]

theorem resolveStep_step {x : String} {expected : Option Nat} {tool : String} {secs : Nat}
    (h : resolveStep s x expected tool secs = some r) :
    Step s i (.callResolve x expected tool secs) r.1 r.2 [] := by
  unfold resolveStep at h
  dsimp only at h
  split at h
  · cases h
  · rename_i hl
    split at h
    · cases h; exact .finish _ rfl
    · rename_i hh
      split at h
      · cases h; exact .finish _ rfl
      · rename_i hg; cases h; exact .resolve (not_not.1 hl) hh hg

theorem waitCallStep_step {op : Op} (h : waitCallStep s i op = some r) : Step s i (.waitCall op) r.1 r.2 [] := by
  unfold waitCallStep at h
  split at h
  · cases h
  · rename_i slot hs
    split at h
    · cases h
    · rename_i hc
      split at h
      · rename_i hst; cases h; exact .request hs (not_not.1 hc) hst
      · rename_i hst
        split at h <;> cases h <;> exact .refused _ hs hst

theorem answerStep_step {op : Op} {result : CallToolResult} {decoded : Except String String} :
    Step s i (.request op) (answerStep s op result decoded).1 (answerStep s op result decoded).2 [] := by
  refine .answered ?_
  unfold answerStep
  dsimp only
  split
  · rename_i expected hk
    split
    exacts [.done _, .done _, .clear expected hk _]
  · rename_i fresh hk
    split
    exacts [.opened fresh hk _, .failed fresh hk _]

theorem dyingStep_step {w : Nat} {phase : Phase} {after : After} (h : dyingStep s w phase after = some r) :
    Step s i (.dying w phase after) r.1 r.2 [] := by
  unfold dyingStep at h
  split at h
  · cases h; exact .kill
  · split at h
    · cases h
    · rename_i hp
      split at h
      · rename_i ha; subst ha; cases h; exact .forgetLast (not_not.1 hp)
      · cases h; exact .forget (not_not.1 hp)
  · split at h
    · cases h; exact .ensured
    · split at h
      · cases h
      · rename_i hp
        split at h
        · cases h; exact .ensured
        · rename_i hm; cases h; exact .ensureReserve (not_not.1 hp) (by omega)

theorem takeStep_step {x : String} {cause : Cause} {absent : Ret} (hpc : pc.takes = some (x, cause))
    (h : takeStep s x cause absent = some r) : Step s i pc r.1 r.2 [] := by
  unfold takeStep at h
  dsimp only at h
  split at h
  · cases h
  · rename_i hl
    split at h
    · cases h
      refine .finish _ ?_
      cases pc <;> first | rfl | cases hpc
    · rename_i hh; cases h; exact .take hpc (not_not.1 hl) hh

theorem relWaitStep_step {rel : Release} (h : relWaitStep s i rel = some r) :
    Step s i (.relWait rel) r.1 r.2 [] := by
  unfold relWaitStep at h
  split at h
  · cases h
  · rename_i slot hs
    split at h
    · cases h
    · rename_i hc
      split at h
      · rename_i hst; cases h; exact .relDead hs hst
      · rename_i hst; cases h; exact .relClose hs (not_not.1 hc) hst

theorem relRpcStep_step {rel : Release} {err : Option ToolError} (h : relRpcStep s rel err = some r) :
    Step s i (.relRpc rel) r.1 r.2 [] := by
  unfold relRpcStep at h
  split at h
  · cases h; exact .relRetire _
  · split at h
    · cases h
    · rename_i hs; cases h; exact .relRpcDead _ hs
    · rename_i st hd hs
      obtain ⟨slot, hslot, rfl⟩ := Option.map_eq_some_iff.1 hs
      cases h
      exact .relIdle hslot fun hst => hd hst

theorem reapCountStep_step {t : Timer} {todo : List Nat} {n : Nat} :
    Step s i (.reapCount t todo n) (reapCountStep s t todo n).1 (reapCountStep s t todo n).2 [] := by
  unfold reapCountStep
  split
  · exact .reapVisit
  · split
    · exact .reapKeep
    · rename_i hn
      split
      · rename_i hk
        cases hs : s.slots t.worker with
        | none => simp [hs] at hk
        | some slot =>
          simp only [hs, Option.any_some, Bool.and_eq_true, decide_eq_true_eq] at hk
          exact .reapKill (not_le.1 hn) hs hk.1 hk.2
      · exact .reapKeep

theorem dropAfter_step {w : Nat} {phase : Phase} {after : After} (h : dropAfter s w after = some o) :
    Step s i (.dying w phase after) o.shared o.thread o.spawned := by
  cases after <;> simp only [dropAfter, reduceCtorEq] at h
  case call op err => cases h; exact .dropGuard rfl
  case release rel err =>
    split at h
    · cases h
    · cases h; exact .dropGuard rfl
  case cleared op err => cases h; exact .finish _ rfl

theorem dropSpawner_step {id : Nat} {hasSlot : Bool} {who : Spawner}
    (hpc : pc.reservation = some (id, hasSlot, who)) (h : dropSpawner s id hasSlot who = some o) :
    Step s i pc o.shared o.thread o.spawned := by
  cases who with
  | lease l => cases h; exact .dropLease hpc
  | ensure w after =>
    obtain ⟨o', ho, rfl⟩ := Option.map_eq_some_iff.1 h
    cases after <;> simp only [dropAfter, reduceCtorEq] at ho
    case call op err => cases ho; exact .dropEnsure hpc rfl
    case release rel err =>
      split at ho
      · cases ho
      · cases ho; exact .dropEnsure hpc rfl
    case cleared op err => cases ho; exact .dropEnsureCleared hpc

/-- Every step of a task is one of `Step`. -/
theorem exec_step (h : exec s i pc e = some o) : Step s i pc o.shared o.thread o.spawned := by
  have lift : ∀ {r' : Option (Shared × Pc)} {f : Shared × Pc → Outcome Shared Pc}, (∀ r, f r = ⟨r.1, r.2, []⟩) →
      r'.map f = some o → (∀ r, r' = some r → Step s i pc r.1 r.2 []) →
      Step s i pc o.shared o.thread o.spawned := by
    intro r' f hf h hr
    obtain ⟨r, rfl, rfl⟩ := Option.map_eq_some_iff.1 h
    rw [hf]
    exact hr r rfl
  cases pc <;> cases e <;> simp only [exec, reduceCtorEq] at h
  case openLock.go => exact lift (fun _ => rfl) h fun r hr => openStep_step hr
  case leaseWait.go =>
    split at h
    · cases h
    · rename_i hp; cases h; exact .lockScan (not_not.1 hp)
  case leaseWait.drop => cases h; exact .dropLeaseWait
  case scan.go => exact lift (fun _ => rfl) h fun r hr => scanStep_step hr
  case scan.drop => cases h; exact .dropScan
  case spawn.go => cases h; exact .spawned
  case spawn.spawnFailed => cases h; exact .spawnFailed _
  case spawn.drop => exact dropSpawner_step rfl h
  case install.go => exact lift (fun _ => rfl) h fun r hr => installStep_step hr
  case install.drop => exact dropSpawner_step rfl h
  case store.go => cases h; exact .store
  case callResolve.go => exact lift (fun _ => rfl) h fun r hr => resolveStep_step hr
  case waitCall.go => exact lift (fun _ => rfl) h fun r hr => waitCallStep_step hr
  case request.answer => cases h; exact answerStep_step
  case request.transport | request.timeout | request.cancel => cases h; exact .retire _
  case request.drop => cases h; exact .dropGuard rfl
  case dying.go => exact lift (fun _ => rfl) h fun r hr => dyingStep_step hr
  case dying.drop => exact dropAfter_step h
  case clear.go =>
    refine lift (fun _ => rfl) h fun r hr => ?_
    unfold clearStep at hr
    split at hr
    · cases hr
    · rename_i hl; cases hr; exact .clear (not_not.1 hl)
  case setIdbPath.go => cases h; exact .setIdbPath
  case openTake.go | closeTake.go | sessionTake.go => exact lift (fun _ => rfl) h fun r hr => takeStep_step rfl hr
  case closeIfTake.go =>
    refine lift (fun _ => rfl) h fun r hr => ?_
    unfold closeIfStep at hr
    dsimp only at hr
    split at hr
    · cases hr
    · split at hr
      · cases hr; exact .finish _ rfl
      · exact takeStep_step rfl hr
  case relWait.go => exact lift (fun _ => rfl) h fun r hr => relWaitStep_step hr
  case relWait.drop =>
    split at h
    · cases h
    · cases h; exact .dropRelWait
  case relRpc.answer | relRpc.transport | relRpc.timeout =>
    exact lift (fun _ => rfl) h fun r hr => relRpcStep_step hr
  case relRpc.drop =>
    split at h
    · cases h
    · cases h; exact .dropGuard rfl
  case relCheck.go rel err =>
    cases h
    unfold relCheckStep
    dsimp only
    split
    · exact .relCheckIdle ‹_›
    · exact .finish _ rfl
  case relCheck.drop =>
    split at h
    · cases h
    · cases h; exact .finish _ rfl
  case resDrop.go =>
    split at h
    · cases h
    · rename_i hp; cases h; exact .resDrop (not_not.1 hp)
  case reapStart.go =>
    cases h
    unfold reapStartStep
    dsimp only
    split
    · exact .finish _ rfl
    · exact .reapStart
  case reapSleep.go =>
    split at h
    · rename_i hp; cases h; exact .reapLock hp.2
    · cases h
  case reapCount.go => cases h; exact reapCountStep_step
  case reapForget.go =>
    split at h
    · cases h
    · rename_i hp; cases h; exact .reapForget (not_not.1 hp)
  all_goals cases h; exact .finish _ rfl

/-- A request that starts. -/
def Pc.starts : Pc → Bool
  | .openLock .. | .callResolve .. | .closeTake _ | .closeIfTake .. => true
  | _ => false

/-- What happens outside the tasks. -/
inductive EnvStep (c : Conf Shared Pc) : Shared → List Pc → Prop
  | start {p : Pc} (h : p.starts) : EnvStep c c.shared [p]
  | dropSession {x : String} (hb : ∀ p ∈ c.threads, p.borrows ≠ some x) :
      EnvStep c (c.shared.setSession x fun st => { st with dropped := true }) [.sessionTake x]
  | tick : EnvStep c { c.shared with clock := c.shared.clock + 1 } []
  | shutdown : EnvStep c c.shared (c.shared.children.map fun w => .dying w .take .shutdown)

/-- Where the tasks start that a step spawns or the environment starts. -/
def Pc.newborn : Pc → Bool
  | .sessionTake _ | .reapStart _ | .resDrop .. | .dying _ .take (.task _) | .dying _ .take .shutdown => true
  | pc => pc.starts

theorem Step.newborn {new : List Pc} (h : Step s i pc s' pc' new) : ∀ m ∈ new, m.newborn := by
  intro m hm
  cases h
  case dropEnsure =>
    rcases List.mem_cons.1 hm with rfl | hm
    · rfl
    · obtain rfl := List.mem_singleton.1 hm; rfl
  all_goals first | cases hm; done | obtain rfl := List.mem_singleton.1 hm; rfl

theorem EnvStep.newborn {c : Conf Shared Pc} {new : List Pc} (h : EnvStep c s' new) : ∀ m ∈ new, m.newborn := by
  intro m hm
  cases h with
  | start hp => obtain rfl := List.mem_singleton.1 hm; cases m <;> first | rfl | cases hp
  | dropSession => obtain rfl := List.mem_singleton.1 hm; rfl
  | tick => cases hm
  | shutdown => obtain ⟨v, -, rfl⟩ := List.mem_map.1 hm; rfl

theorem env_step {c : Conf Shared Pc} {x : Env} {r : Shared × List Pc} (h : env c x = some r) :
    EnvStep c r.1 r.2 := by
  cases x <;> simp only [env] at h
  case tick => cases h; exact .tick
  case shutdownAll =>
    split at h
    · cases h
    · cases h; exact .shutdown
  case dropSession x =>
    split at h
    · cases h
    · rename_i hx
      cases h
      exact .dropSession fun pc hpc hb => hx (.inr ⟨pc, hpc, hb⟩)
  all_goals
    split at h
    · cases h
    · cases h; exact .start rfl

end IdaRs.Pool
