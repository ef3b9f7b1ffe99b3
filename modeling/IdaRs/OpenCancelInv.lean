import IdaRs.OpenCancel

/-!
# What a cancelled open leaves

`LoopOk` follows the database and the lock through the loop's handling of the request: the lock is held from
`acquire_mcp_lock` on and is the loop's when the database is, and every error drops both. Step by step this is
one turn of `LoopState.serveOpen` (`Settled`). Once the worker's token is cancelled the loop does not pass
its last check (`loopStep_committed`), so an open that is given up in time ends in an error.
-/

namespace IdaRs

namespace LoopState

variable {st : LoopState} {files : Files} {path : String}

theorem serveOpen_failed (h : st.idb = none) (e : ToolError) :
    st.serveOpen files path (.failed e) = (st, .error e) := by
  simp [serveOpen, handleOpen, h]

theorem serveOpen_opened (h : st.idb = none) (db : String) (hg : st.nextGeneration + 1 < 2 ^ 64) :
    st.serveOpen files path (.opened db) =
      (⟨some db, some (st.nextGeneration + 1), st.nextGeneration + 1⟩, .ok ⟨db, st.nextGeneration + 1⟩) := by
  simp only [serveOpen, handleOpen, h, reduceCtorEq, if_false]
  exact if_pos hg

/-- A database is open afterwards exactly when the answer says so. -/
theorem serveOpen_idb (h : st.idb = none) {run : OpenRun} {st' : LoopState} {r : Except ToolError OpenedDatabase}
    (hs : st.serveOpen files path run = (st', r)) :
    (∀ db, r = .ok db → st'.idb = some db.path) ∧ ∀ e, r = .error e → st'.idb = none := by
  rcases serveOpen_cases files path run (fun hne => absurd h hne) with
    ⟨e, hcase⟩ | ⟨current, _, hidb, -⟩ | ⟨db, -, hcase⟩
  · rw [hcase] at hs
    cases hs
    exact ⟨nofun, fun _ _ => h⟩
  · rw [h] at hidb
    cases hidb
  · rw [hcase] at hs
    cases hs
    exact ⟨fun _ heq => by cases heq; rfl, nofun⟩

end LoopState

namespace OpenCancel

open Threads

variable {s s' : Shared} {st : LoopState} {pc pc' : LoopPc} {h h' : HandlerPc} {e : Event}

/-- The lock file of the request. -/
def Shared.lock (s : Shared) : String := Lock.lockPath (OpenCancel.lockTarget s.files s.request)

/-- Nothing is open or locked, and the request is not answered. -/
structure Closed (st : LoopState) (s : Shared) : Prop where
  loop : s.loop = st
  held : s.held = none
  lockPath : s.lockPath = none
  response : s.response = none

/-- `handle_open` holds the lock. -/
structure Locked (st : LoopState) (s : Shared) : Prop where
  loop : s.loop = st
  held : s.held = some s.lock
  lockPath : s.lockPath = none
  response : s.response = none

/-- The loop holds the database and its lock. -/
structure Stored (st : LoopState) (db : String) (s : Shared) : Prop where
  loop : s.loop = { st with idb := some db }
  held : s.held = some s.lock
  lockPath : s.lockPath = some s.lock
  response : s.response = none

/-- `r` is an answer of the loop to the request, and the lock goes with the database. -/
structure Settled (st : LoopState) (s : Shared) (r : Except ToolError OpenedDatabase) : Prop where
  served : ∃ run, st.serveOpen s.files s.request.path run = (s.loop, r)
  ok : ∀ db, r = .ok db → s.held = some s.lock ∧ s.lockPath = some s.lock
  error : ∀ e, r = .error e → s.held = none ∧ s.lockPath = none

def LoopOk (st : LoopState) (s : Shared) : LoopPc → Prop
  | .idle | .taken | .initializing | .versionGate | .armCheck | .openCheck | .planning => Closed st s
  | .acquiring plan => Closed st s ∧ plan.lockTarget = OpenCancel.lockTarget s.files s.request
  | .opening _ | .openedCheck .. | .debugCheck _ | .debugLoad _ | .lastCheck _ | .store _ => Locked st s
  | .generation db hadOpen => Stored st db s ∧ hadOpen = false
  | .respond r => Settled st s r ∧ s.response = none
  | .done => ∃ r, s.response = some r ∧ Settled st s r

/-! ### The loop -/

theorem planOpen_lockTarget {files : Files} {req : OpenRequest} {plan : OpenPlan}
    (h : planOpen files req = .ok plan) : plan.lockTarget = OpenCancel.lockTarget files req := by
  unfold planOpen at h
  by_cases hex : files.exists? (expandPath files req.path)
  · simp only [hex, if_true, Except.ok.injEq] at h
    rw [← h]
  · simp only [hex, if_false, reduceCtorEq] at h

theorem Closed.settled_error (hc : Closed st s) (hst : st.idb = none) (e : ToolError) : Settled st s (.error e) where
  served := ⟨.failed e, by rw [LoopState.serveOpen_failed hst, hc.loop]⟩
  ok _ h := by cases h
  error _ _ := ⟨hc.held, hc.lockPath⟩

theorem Locked.closed (hl : Locked st s) : Closed st { s with held := none } :=
  ⟨hl.loop, rfl, hl.lockPath, hl.response⟩

/-- The check before the lock is taken. -/
theorem ensureNotCancelled_closed (hc : Closed st s) (hst : st.idb = none) {next : LoopPc}
    (h : s.ensureNotCancelled next = (s', pc')) (hnext : LoopOk st s next) : LoopOk st s' pc' := by
  unfold Shared.ensureNotCancelled at h
  split at h
  · obtain ⟨rfl, rfl⟩ := Prod.mk.inj h
    have hc' : Closed st { s with held := none } := ⟨hc.loop, rfl, hc.lockPath, hc.response⟩
    exact ⟨hc'.settled_error hst _, hc.response⟩
  · obtain ⟨rfl, rfl⟩ := Prod.mk.inj h
    exact hnext

/-- The check while the lock is held. -/
theorem ensureNotCancelled_locked (hl : Locked st s) (hst : st.idb = none) {next : LoopPc}
    (h : s.ensureNotCancelled next = (s', pc')) (hnext : LoopOk st s next) : LoopOk st s' pc' := by
  unfold Shared.ensureNotCancelled at h
  split at h
  · obtain ⟨rfl, rfl⟩ := Prod.mk.inj h
    exact ⟨hl.closed.settled_error hst _, hl.response⟩
  · obtain ⟨rfl, rfl⟩ := Prod.mk.inj h
    exact hnext

/-- The answer once the database is stored. -/
theorem Stored.newGeneration_ok {db : String} (hs : Stored st db s) (hst : st.idb = none)
    (h : s.newGeneration db = (s', pc')) : LoopOk st s' pc' := by
  have hnext : s.loop.nextGeneration = st.nextGeneration := by rw [hs.loop]
  unfold Shared.newGeneration at h
  split at h
  · obtain ⟨rfl, rfl⟩ := Prod.mk.inj h
    refine ⟨⟨⟨.opened db, ?_⟩, fun _ _ => ⟨hs.held, hs.lockPath⟩, fun _ h => by cases h⟩, hs.response⟩
    rw [LoopState.serveOpen_opened hst db (by rwa [← hnext]), hs.loop]
  · obtain ⟨rfl, rfl⟩ := Prod.mk.inj h
    refine ⟨⟨⟨.failed (.idaError "database generation counter exhausted"), ?_⟩, fun _ h => (by cases h),
      fun _ _ => ⟨rfl, rfl⟩⟩, hs.response⟩
    rw [LoopState.serveOpen_failed hst]
    simp only [Shared.releaseMcpLock, Shared.setIdb, hs.loop, ← hst]

theorem loopStep_ok (hok : LoopOk st s pc) (hst : st.idb = none) (h : loopStep s pc e = some (s', pc')) :
    LoopOk st s' pc' := by
  cases pc with
  | idle =>
    cases e with
    | other init =>
      simp only [loopStep] at h
      split at h
      · cases h; exact hok
      · split at h <;> cases h
        · exact ⟨hok.loop, hok.held, hok.lockPath, hok.response⟩
        · exact hok
    | go =>
      simp only [loopStep] at h
      split at h
      · cases h; exact ⟨hok.loop, hok.held, hok.lockPath, hok.response⟩
      · cases h
    | _ => cases h
  | taken =>
    cases e with
    | go =>
      simp only [loopStep] at h
      split at h
      · cases h; exact hok
      · exact ensureNotCancelled_closed hok hst (Option.some.inj h) hok
    | _ => cases h
  | initializing =>
    cases e with
    | initialized lib mismatch => cases h; exact ⟨hok.loop, hok.held, hok.lockPath, hok.response⟩
    | initFailed msg => cases h; exact ⟨Closed.settled_error hok hst _, hok.response⟩
    | _ => cases h
  | versionGate =>
    cases e with
    | go =>
      simp only [loopStep] at h
      split at h
      · cases h; exact ⟨Closed.settled_error hok hst _, hok.response⟩
      · cases h; exact hok
    | _ => cases h
  | armCheck =>
    cases e with
    | go => exact ensureNotCancelled_closed hok hst (Option.some.inj h) hok
    | _ => cases h
  | openCheck =>
    cases e with
    | go => exact ensureNotCancelled_closed hok hst (Option.some.inj h) hok
    | _ => cases h
  | planning =>
    cases e with
    | go =>
      have hidb : s.loop.idb = none := by rw [hok.loop, hst]
      simp only [loopStep, hidb] at h
      cases hplan : planOpen s.files s.request with
      | error e =>
        rw [hplan] at h
        cases h
        exact ⟨Closed.settled_error hok hst _, hok.response⟩
      | ok plan =>
        rw [hplan] at h
        cases h
        exact ⟨hok, planOpen_lockTarget hplan⟩
    | _ => cases h
  | acquiring plan =>
    cases e with
    | acquired =>
      cases h
      exact ⟨hok.1.loop, congrArg (some ∘ Lock.lockPath) hok.2, hok.1.lockPath, hok.1.response⟩
    | failed e => cases h; exact ⟨hok.1.settled_error hst _, hok.1.response⟩
    | _ => cases h
  | opening plan =>
    cases e with
    | opened db => cases h; exact hok
    | failed e => cases h; exact ⟨(Locked.closed hok).settled_error hst _, hok.response⟩
    | _ => cases h
  | openedCheck plan db =>
    cases e with
    | go =>
      refine ensureNotCancelled_locked hok hst (Option.some.inj h) ?_
      split
      · exact hok
      · exact hok
    | _ => cases h
  | debugCheck db =>
    cases e with
    | go => exact ensureNotCancelled_locked hok hst (Option.some.inj h) hok
    | _ => cases h
  | debugLoad db =>
    cases e with
    | go => cases h; exact hok
    | _ => cases h
  | lastCheck db =>
    cases e with
    | go => exact ensureNotCancelled_locked hok hst (Option.some.inj h) hok
    | _ => cases h
  | store db =>
    cases e with
    | go => cases h; exact ⟨⟨by simp only [Shared.setIdb, hok.loop], hok.held, hok.held, hok.response⟩, rfl⟩
    | _ => cases h
  | generation db hadOpen =>
    obtain ⟨hs, rfl⟩ := hok
    cases e with
    | go => exact hs.newGeneration_ok hst (Option.some.inj h)
    | _ => cases h
  | respond r =>
    cases e with
    | go => cases h; exact ⟨r, rfl, hok.1.served, hok.1.ok, hok.1.error⟩
    | _ => cases h
  | done => cases e <;> cases h

/-- The loop leaves the request and the worker's token as they are. -/
theorem loopStep_frame (h : loopStep s pc e = some (s', pc')) :
    s'.workerCancel = s.workerCancel ∧ s'.files = s.files ∧ s'.request = s.request := by
  have hcheck : ∀ next, some (s.ensureNotCancelled next) = some (s', pc') →
      s'.workerCancel = s.workerCancel ∧ s'.files = s.files ∧ s'.request = s.request := by
    intro next h
    unfold Shared.ensureNotCancelled at h
    split at h <;> cases h <;> exact ⟨rfl, rfl, rfl⟩
  have hnew : ∀ db, some (s.newGeneration db) = some (s', pc') →
      s'.workerCancel = s.workerCancel ∧ s'.files = s.files ∧ s'.request = s.request := by
    intro db h
    unfold Shared.newGeneration at h
    split at h <;> cases h <;> exact ⟨rfl, rfl, rfl⟩
  unfold loopStep at h
  repeat' split at h
  all_goals first
    | exact hcheck _ h
    | exact hnew _ h
    | (cases h; done)
    | (cases h; exact ⟨rfl, rfl, rfl⟩)

/-- After a cancellation the loop does not pass its last check. -/
theorem loopStep_committed (hok : LoopOk st s pc) (hst : st.idb = none) (hcancel : s.workerCancel = true)
    (hnot : Thread.committed s (.loop pc) = false) (h : loopStep s pc e = some (s', pc')) :
    Thread.committed s' (.loop pc') = false := by
  have hcheck : ∀ next, some (s.ensureNotCancelled next) = some (s', pc') →
      Thread.committed s' (.loop pc') = false := by
    intro next h
    rw [Shared.ensureNotCancelled, if_pos hcancel] at h
    cases h
    rfl
  unfold loopStep at h
  repeat' split at h
  all_goals first
    | exact hcheck _ h
    | (cases h; done)
    | (cases h; rfl)
    | skip
  -- planning: no database was open
  · rename_i current hidb _
    rw [Closed.loop hok, hst] at hidb
    cases hidb
  -- store
  · cases h
    exact hnot
  -- generation
  · obtain ⟨-, rfl⟩ := hok
    rename_i hgen
    cases hgen
  · have hg : ¬ s.loop.nextGeneration + 1 < 2 ^ 64 := of_decide_eq_false hnot
    rw [Shared.newGeneration, if_neg hg] at h
    cases h
    rfl
  -- respond
  · rename_i r
    cases r with
    | ok db => cases hnot
    | error e => cases h; rfl

/-! ### The handler -/

def HandlerOk (s : Shared) : HandlerPc → Prop
  | .send | .pollResult | .pollCancel | .pollTimer => s.workerCancel = false
  | .cleanup _ => s.workerCancel = true
  | .answered (.error _) => True
  | .answered (.success db) => s.response = some (.ok db)
  | .answered (.gaveUp _) => ∃ e, s.response = some (.error e)

/-- Only a loop that is done has answered. -/
theorem LoopOk.done_of_response (hok : LoopOk st s pc) {r : Except ToolError OpenedDatabase}
    (hr : s.response = some r) : pc = .done ∧ Settled st s r := by
  have hnone : s.response ≠ none := by rw [hr]; nofun
  cases pc with
  | done =>
    obtain ⟨r', hr', hs⟩ := hok
    obtain rfl : r' = r := Option.some.inj (hr'.symm.trans hr)
    exact ⟨rfl, hs⟩
  | acquiring plan => exact absurd hok.1.response hnone
  | generation db hadOpen => exact absurd hok.1.response hnone
  | respond r => exact absurd hok.2 hnone
  | opening plan => exact absurd (Locked.response hok) hnone
  | openedCheck plan db => exact absurd (Locked.response hok) hnone
  | debugCheck db => exact absurd (Locked.response hok) hnone
  | debugLoad db => exact absurd (Locked.response hok) hnone
  | lastCheck db => exact absurd (Locked.response hok) hnone
  | store db => exact absurd (Locked.response hok) hnone
  | _ => exact absurd (Closed.response hok) hnone

theorem HandlerOk.mono (hh : HandlerOk s h) (hcancel : s'.workerCancel = s.workerCancel)
    (hresponse : ∀ r, s.response = some r → s'.response = some r) : HandlerOk s' h := by
  cases h with
  | answered a =>
    cases a with
    | success db => exact hresponse _ hh
    | gaveUp why =>
      obtain ⟨e, he⟩ := hh
      exact ⟨e, hresponse _ he⟩
    | error e => trivial
  | _ => exact hcancel.trans hh

/-- A step of the loop keeps what the handler knows. -/
theorem HandlerOk.loopStep (hh : HandlerOk s h) (hok : LoopOk st s pc) (hs : loopStep s pc e = some (s', pc')) :
    HandlerOk s' h := by
  refine hh.mono (loopStep_frame hs).1 fun r hr => ?_
  obtain ⟨rfl, -⟩ := hok.done_of_response hr
  cases e <;> cases hs

/-- The queue and the tokens are nothing to the database and the lock. -/
theorem LoopOk.signals (hok : LoopOk st s pc) (sent client timer worker : Bool) :
    LoopOk st
      { s with sent := sent, clientCancelled := client, timerFired := timer, workerCancel := worker } pc := by
  have hclosed : Closed st s → Closed st
      { s with sent := sent, clientCancelled := client, timerFired := timer, workerCancel := worker } :=
    fun hc => ⟨hc.loop, hc.held, hc.lockPath, hc.response⟩
  have hlocked : Locked st s → Locked st
      { s with sent := sent, clientCancelled := client, timerFired := timer, workerCancel := worker } :=
    fun hl => ⟨hl.loop, hl.held, hl.lockPath, hl.response⟩
  have hsettled : ∀ r, Settled st s r → Settled st
      { s with sent := sent, clientCancelled := client, timerFired := timer, workerCancel := worker } r :=
    fun _ hr => ⟨hr.served, hr.ok, hr.error⟩
  cases pc with
  | acquiring plan => exact ⟨hclosed hok.1, hok.2⟩
  | generation db hadOpen => exact ⟨⟨hok.1.loop, hok.1.held, hok.1.lockPath, hok.1.response⟩, hok.2⟩
  | respond r => exact ⟨hsettled _ hok.1, hok.2⟩
  | done =>
    obtain ⟨r, hr, hs⟩ := hok
    exact ⟨r, hr, hsettled r hs⟩
  | opening plan => exact hlocked hok
  | openedCheck plan db => exact hlocked hok
  | debugCheck db => exact hlocked hok
  | debugLoad db => exact hlocked hok
  | lastCheck db => exact hlocked hok
  | store db => exact hlocked hok
  | _ => exact hclosed hok

/-- What a step of the handler does: it sends, gives up or reads. -/
theorem handlerStep_cases (hs : handlerStep s h e = some (s', h')) :
    (h = .send ∧ s' = { s with sent := true } ∧ h' = .pollResult) ∨
    (h = .send ∧ s' = s ∧ h' = .answered (.error .busy)) ∨
    (Thread.givesUp s (.handler h) = true ∧ s' = { s with workerCancel := true } ∧ ∃ why, h' = .cleanup why) ∨
    (s' = s ∧ ((h = .pollResult ∧ ((∃ r, s.response = some r ∧ h' = .answered (.finished r)) ∨ h' = .pollCancel)) ∨
      h = .pollCancel ∧ h' = .pollTimer ∨ h = .pollTimer ∧ h' = .pollResult ∨
      ∃ why, h = .cleanup why ∧ h' = .answered (.gaveUp why) ∧ (e = .expire ∨ s.response.isSome = true))) := by
  cases h with
  | send =>
    cases e with
    | go => cases hs; exact .inl ⟨rfl, rfl, rfl⟩
    | busy => cases hs; exact .inr (.inl ⟨rfl, rfl, rfl⟩)
    | _ => cases hs
  | pollResult =>
    cases e with
    | go =>
      simp only [handlerStep] at hs
      split at hs
      · rename_i r hr
        cases hs
        exact .inr (.inr (.inr ⟨rfl, .inl ⟨rfl, .inl ⟨r, hr, rfl⟩⟩⟩))
      · cases hs
        exact .inr (.inr (.inr ⟨rfl, .inl ⟨rfl, .inr rfl⟩⟩))
    | _ => cases hs
  | pollCancel =>
    cases e with
    | go =>
      simp only [handlerStep] at hs
      split at hs
      · rename_i hc
        cases hs
        exact .inr (.inr (.inl ⟨hc, rfl, .cancelled, rfl⟩))
      · cases hs
        exact .inr (.inr (.inr ⟨rfl, .inr (.inl ⟨rfl, rfl⟩)⟩))
    | _ => cases hs
  | pollTimer =>
    cases e with
    | go =>
      simp only [handlerStep] at hs
      split at hs
      · rename_i hc
        cases hs
        exact .inr (.inr (.inl ⟨hc, rfl, .timedOut, rfl⟩))
      · cases hs
        exact .inr (.inr (.inr ⟨rfl, .inr (.inr (.inl ⟨rfl, rfl⟩))⟩))
    | _ => cases hs
  | cleanup why =>
    cases e with
    | go =>
      simp only [handlerStep] at hs
      split at hs
      · rename_i hr
        cases hs
        exact .inr (.inr (.inr ⟨rfl, .inr (.inr (.inr ⟨why, rfl, rfl, .inr hr⟩))⟩))
      · cases hs
    | expire => cases hs; exact .inr (.inr (.inr ⟨rfl, .inr (.inr (.inr ⟨why, rfl, rfl, .inl rfl⟩))⟩))
    | _ => cases hs
  | answered a => cases e <;> cases hs

theorem HandlerOk.finished {r : Except ToolError OpenedDatabase} (hr : s.response = some r) :
    HandlerOk s (.answered (.finished r)) := by
  cases r with
  | ok db => exact hr
  | error e =>
    unfold Answer.finished
    split
    · rename_i heq; cases heq
    · exact ⟨e, hr⟩
    · trivial

/-- The configurations of a run whose handler gives up in time: `st` is the loop's state before the request. -/
structure Inv (c : Conf Shared Thread) (st : LoopState) (h : HandlerPc) (pc : LoopPc) : Prop where
  threads : c.threads = [.handler h, .loop pc]
  idb : st.idb = none
  loop : LoopOk st c.shared pc
  handler : HandlerOk c.shared h
  cancelled : c.shared.workerCancel = true → Thread.committed c.shared (.loop pc) = false

/-- A request that was given up in time and is answered ended in an error. -/
theorem Inv.error_of_response {c : Conf Shared Thread} (hi : Inv c st h pc) (hc : c.shared.workerCancel = true)
    (hr : c.shared.response.isSome = true) : ∃ e, c.shared.response = some (.error e) := by
  obtain ⟨r, hr⟩ := Option.isSome_iff_exists.1 hr
  obtain ⟨rfl, -⟩ := hi.loop.done_of_response hr
  have hnot := hi.cancelled hc
  cases r with
  | ok db =>
    simp only [Thread.committed, hr] at hnot
    cases hnot
  | error e => exact ⟨e, hr⟩

theorem Inv.handlerStep {c : Conf Shared Thread} (hi : Inv c st h pc)
    (htimely : Thread.givesUp c.shared (.handler h) = true → Thread.committed c.shared (.loop pc) = false)
    (hwindow : e = .expire → c.shared.response.isSome = true)
    (hs : handlerStep c.shared h e = some (s', h')) : Inv ⟨s', [.handler h', .loop pc]⟩ st h' pc := by
  rcases handlerStep_cases hs with ⟨rfl, rfl, rfl⟩ | ⟨rfl, rfl, rfl⟩ | ⟨hgives, rfl, why, rfl⟩ | ⟨rfl, hread⟩
  · exact ⟨rfl, hi.idb, hi.loop.signals true _ _ _, hi.handler, hi.cancelled⟩
  · exact ⟨rfl, hi.idb, hi.loop, trivial, hi.cancelled⟩
  · -- the loop has not made its last check
    exact ⟨rfl, hi.idb, hi.loop.signals _ _ _ true, rfl, fun _ => htimely hgives⟩
  · refine ⟨rfl, hi.idb, hi.loop, ?_, hi.cancelled⟩
    rcases hread with ⟨rfl, ⟨r, hr, rfl⟩ | rfl⟩ | ⟨rfl, rfl⟩ | ⟨rfl, rfl⟩ | ⟨why, rfl, rfl, hend⟩
    · exact HandlerOk.finished hr
    · exact hi.handler
    · exact hi.handler
    · exact hi.handler
    · exact hi.error_of_response hi.handler (hend.elim hwindow id)

theorem Inv.loopStep {c : Conf Shared Thread} (hi : Inv c st h pc) (hs : loopStep c.shared pc e = some (s', pc')) :
    Inv ⟨s', [.handler h, .loop pc']⟩ st h pc' where
  threads := rfl
  idb := hi.idb
  loop := loopStep_ok hi.loop hi.idb hs
  handler := hi.handler.loopStep hi.loop hs
  cancelled hc := by
    have hcancel : c.shared.workerCancel = true := (loopStep_frame hs).1.symm.trans hc
    exact loopStep_committed hi.loop hi.idb hcancel (hi.cancelled hcancel) hs

/-- What holds in every configuration of such a run. -/
theorem inv_of_reachable {c : Conf Shared Thread}
    (hr : program.Reachable Init (fun c a => InWindow c a ∧ Timely c a) c) : ∃ st h pc, Inv c st h pc := by
  induction hr with
  | init hinit =>
    exact ⟨_, _, _, hinit.threads, hinit.idb, ⟨rfl, hinit.held, hinit.lockPath, hinit.response⟩, hinit.workerCancel,
      fun hc => by rw [hinit.workerCancel] at hc; cases hc⟩
  | @step c c' a _ hcond hstep ih =>
    obtain ⟨st, h, pc, hi⟩ := ih
    obtain ⟨hwindow, htimely⟩ := hcond
    cases a with
    | env x =>
      obtain ⟨r, hr, rfl⟩ := step_env_iff.1 hstep
      refine ⟨st, h, pc, ?_⟩
      cases x with
      | clientCancel =>
        cases hr
        exact ⟨by simpa using hi.threads, hi.idb, hi.loop.signals _ true _ _, hi.handler.mono rfl fun _ hr => hr,
          hi.cancelled⟩
      | timer =>
        cases hr
        exact ⟨by simpa using hi.threads, hi.idb, hi.loop.signals _ _ true _, hi.handler.mono rfl fun _ hr => hr,
          hi.cancelled⟩
    | thread i e =>
      obtain ⟨l, o, hl, ho, rfl⟩ := step_thread_iff.1 hstep
      simp only [Timely, actor, hi.threads] at htimely
      rw [hi.threads] at hl
      match i, hl with
      | 0, hl =>
        obtain rfl := Option.some.inj hl
        obtain ⟨⟨s', h'⟩, hs, rfl⟩ := Option.map_eq_some_iff.1 ho
        refine ⟨st, h', pc, ?_⟩
        rw [Conf.after, hi.threads]
        refine hi.handlerStep (fun hg => ?_) (fun he => hwindow (by rw [he]; rfl)) hs
        have := htimely hg
        simpa [Thread.committed] using this
      | 1, hl =>
        obtain rfl := Option.some.inj hl
        obtain ⟨⟨s', pc'⟩, hs, rfl⟩ := Option.map_eq_some_iff.1 ho
        refine ⟨st, h, pc', ?_⟩
        rw [Conf.after, hi.threads]
        exact hi.loopStep hs

/-! ### The answer and the database -/

/-- In every run in which the loop finishes the open within the clean-up window and the handler gives up only
before the loop's last check: after a cancellation or a timeout neither the database nor its lock is open, and
after a success both are. -/
theorem open_answer_holds {c : Conf Shared Thread}
    (hr : program.Reachable Init (fun c a => InWindow c a ∧ Timely c a) c) {a : Answer}
    (ha : Thread.handler (.answered a) ∈ c.threads) :
    (∀ why, a = .gaveUp why →
      c.shared.loop.idb = none ∧ c.shared.held = none ∧ c.shared.lockPath = none ∧ .loop .done ∈ c.threads) ∧
    ∀ db, a = .success db →
      c.shared.loop.idb = some db.path ∧ c.shared.held = some c.shared.lock ∧
        c.shared.lockPath = some c.shared.lock := by
  obtain ⟨st, h, pc, hi⟩ := inv_of_reachable hr
  obtain rfl : h = .answered a := by
    rw [hi.threads] at ha
    simpa [eq_comm] using ha
  refine ⟨?_, ?_⟩
  · rintro why rfl
    obtain ⟨e, he⟩ := hi.handler
    obtain ⟨rfl, hsettled⟩ := hi.loop.done_of_response he
    obtain ⟨run, hrun⟩ := hsettled.served
    obtain ⟨hheld, hpath⟩ := hsettled.error e rfl
    exact ⟨(LoopState.serveOpen_idb hi.idb hrun).2 e rfl, hheld, hpath, by simp [hi.threads]⟩
  · rintro db rfl
    obtain ⟨-, hsettled⟩ := hi.loop.done_of_response hi.handler
    obtain ⟨run, hrun⟩ := hsettled.served
    obtain ⟨hheld, hpath⟩ := hsettled.ok db rfl
    exact ⟨(LoopState.serveOpen_idb hi.idb hrun).1 db rfl, hheld, hpath⟩

/-- A server with IDA running, on a file system that has every file. -/
def idleServer : Conf Shared Thread :=
  ⟨{ request := ⟨"a.i64", false, none⟩, files := ⟨none, fun _ => true, fun _ => none⟩, loop := {}, held := none
     lockPath := none, libInitialized := true, versionMismatch := none, sent := false, response := none
     clientCancelled := false, timerFired := false, workerCancel := false }, [.handler .send, .loop .idle]⟩

theorem idleServer_init : Init idleServer := ⟨rfl, rfl, rfl, rfl, rfl, rfl, rfl⟩

/-- The request is sent, and the loop goes on to IDA's open. -/
def untilOpening : List (Act Event Env) :=
  [.thread 0 .go, .thread 1 .go, .thread 1 .go, .thread 1 .go, .thread 1 .go, .thread 1 .go, .thread 1 .go,
    .thread 1 .acquired]

theorem open_answer_cancelled_while_opening :
    ∃ c, program.Reachable Init (fun c a => InWindow c a ∧ Timely c a) c ∧
      Thread.handler (.answered (.gaveUp .cancelled)) ∈ c.threads ∧ c.shared.loop.idb = none ∧
      c.shared.held = none := by
  obtain ⟨c, hr, ha⟩ := Program.Reachable.of_runIf_any (P := program)
    (C := fun c a => InWindow c a ∧ Timely c a)
    (r := untilOpening ++ ([.thread 0 .go, .env .clientCancel, .thread 0 .go, .thread 1 (.opened "a.i64"),
      .thread 1 .go, .thread 1 .go, .thread 0 .go] : List (Act Event Env)))
    (p := fun c => Thread.handler (.answered (.gaveUp .cancelled)) ∈ c.threads) idleServer_init (by decide +kernel)
  obtain ⟨hidb, hheld, -, -⟩ := (open_answer_holds hr ha).1 .cancelled rfl
  exact ⟨c, hr, ha, hidb, hheld⟩

/-- The client cancels after the loop's last check: `open_idb` answers that it was cancelled, and the database
is open. -/
theorem cancelled_open_left_open :
    ∃ c, program.Reachable Init InWindow c ∧ Thread.handler (.answered (.gaveUp .cancelled)) ∈ c.threads ∧
      c.shared.loop.idb = some "a.i64" ∧ c.shared.held = some "a.imcp" :=
  Program.Reachable.of_runIf_any (P := program) (C := InWindow)
    (r := untilOpening ++ ([.thread 1 (.opened "a.i64"), .thread 1 .go, .thread 1 .go, .thread 0 .go,
      .env .clientCancel, .thread 0 .go, .thread 1 .go, .thread 1 .go, .thread 1 .go, .thread 0 .go] :
      List (Act Event Env)))
    (p := fun c => Thread.handler (.answered (.gaveUp .cancelled)) ∈ c.threads ∧
      c.shared.loop.idb = some "a.i64" ∧ c.shared.held = some "a.imcp") idleServer_init (by decide +kernel)

end OpenCancel

end IdaRs
