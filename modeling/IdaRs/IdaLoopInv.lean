import IdaRs.IdaLoop

/-!
# The database of the worker loop, and its end (`src/ida/loop_impl.rs`)

What one request can do (`Move`), the invariant that ties the database to its generation, its lock and the answers
given so far (`Inv`), and where a Shutdown ends the loop. To its database the loop does what `LoopState` of the
coarser models says (`serve_database`).
-/

namespace IdaRs.IdaLoop

open OpenCancel (cancelledError)

section

variable {V : Type}

/-! ## What one request does -/

/-- The database, its generation and its lock go together. -/
def Consistent (v : LoopVars) : Prop :=
  (v.idb.isSome ↔ v.databaseGeneration.isSome) ∧ (v.idb.isSome ↔ v.lockPath.isSome) ∧
    (v.idb.isSome ↔ v.lockFile.isSome)

namespace LoopVars

variable {v : LoopVars} (a : OpenArgs) (cancelled : CancelPoint → Bool) (ev : OpenEvents)

theorem finishOpen_cases (plan : OpenPlan) (db : Idb) (openedPath : String) :
    (∃ e, v.finishOpen a cancelled ev plan db openedPath = (v, .error e)) ∨
    ∃ lock debugInfo, v.finishOpen a cancelled ev plan db openedPath =
      ({ v with idb := some db, lockFile := some lock, lockPath := some lock }, .ok ⟨db, openedPath, debugInfo⟩) := by
  simp only [finishOpen]
  split
  · exact .inl ⟨_, rfl⟩
  split
  · exact .inl ⟨_, rfl⟩
  split
  · exact .inl ⟨_, rfl⟩
  · exact .inr ⟨_, _, rfl⟩

/-- Every exit of `handle_open`: only the last one stores anything. -/
theorem handleOpen_cases (v : LoopVars) :
    (∃ n e, v.handleOpen a cancelled ev = ({ v with serial := v.serial + n }, .error e)) ∨
    (∃ db, v.idb = some db ∧ v.handleOpen a cancelled ev = (v, .ok ⟨db, db.path, none⟩)) ∨
    ∃ path lock openedPath debugInfo, v.idb = none ∧ v.handleOpen a cancelled ev =
      ({ v with idb := some ⟨path, v.serial⟩, lockFile := some lock, lockPath := some lock, serial := v.serial + 1 },
        .ok ⟨⟨path, v.serial⟩, openedPath, debugInfo⟩) := by
  simp only [handleOpen]
  split
  · exact .inl ⟨0, _, rfl⟩
  split
  · rename_i db hdb
    split
    · exact .inr (.inl ⟨db, hdb, rfl⟩)
    · exact .inl ⟨0, _, rfl⟩
  · rename_i hidb
    split
    · exact .inl ⟨0, _, rfl⟩
    split
    · exact .inl ⟨0, _, rfl⟩
    split
    · split <;> exact .inl ⟨0, _, rfl⟩
    · rename_i path openedPath _
      rcases finishOpen_cases (v := { v with serial := v.serial + 1 }) a cancelled ev (planOpen ev.files a)
        ⟨path, v.serial⟩ openedPath with ⟨e, he⟩ | ⟨lock, debugInfo, he⟩
      · exact .inl ⟨1, e, he⟩
      · exact .inr (.inr ⟨path, lock, openedPath, debugInfo, hidb, he⟩)

theorem serveOpen_error {v v' : LoopVars} {e : ToolError} (hh : v.handleOpen a cancelled ev = (v', .error e)) :
    v.serveOpen a cancelled ev = (v', .error e) := by
  rw [serveOpen, hh]

/-- Without a next generation the database is dropped again. -/
theorem serveOpen_cases (hc : Consistent v) :
    (∃ n e, v.serveOpen a cancelled ev = ({ v with serial := v.serial + n }, .error e)) ∨
    (∃ info g, v.idb = some info.db ∧ v.databaseGeneration = some g ∧
      v.serveOpen a cancelled ev = (v, .ok ⟨info, g⟩)) ∨
    ∃ info lock, v.idb = none ∧ info.db.serial = v.serial ∧ v.serveOpen a cancelled ev =
      ({ v with
          idb := some info.db, lockFile := some lock, lockPath := some lock, serial := v.serial + 1
          nextDatabaseGeneration := v.nextDatabaseGeneration + 1
          databaseGeneration := some (v.nextDatabaseGeneration + 1) },
        .ok ⟨info, v.nextDatabaseGeneration + 1⟩) := by
  obtain ⟨hgen, hpath, hfile⟩ := hc
  rcases handleOpen_cases a cancelled ev v with ⟨n, e, hh⟩ | ⟨db, hdb, hh⟩ |
    ⟨path, lock, openedPath, debugInfo, hidb, hh⟩
  · exact .inl ⟨n, e, serveOpen_error a cancelled ev hh⟩
  · obtain ⟨g, hg⟩ := Option.isSome_iff_exists.1 (hgen.1 (by rw [hdb]; rfl))
    refine .inr (.inl ⟨⟨db, db.path, none⟩, g, hdb, hg, ?_⟩)
    simp only [serveOpen, hh, hdb, hg, Option.isSome_some, if_true]
  · simp only [serveOpen, hh, hidb, Option.isSome_none, Bool.false_eq_true, if_false]
    split
    · exact .inr (.inr ⟨⟨⟨path, v.serial⟩, openedPath, debugInfo⟩, lock, trivial, rfl, rfl⟩)
    · refine .inl ⟨1, .idaError "database generation counter exhausted", ?_⟩
      have hnopath : v.lockPath = none := by
        rw [hidb] at hpath
        simpa using hpath
      have hnofile : v.lockFile = none := by
        rw [hidb] at hfile
        simpa using hfile
      simp only [releaseMcpLock, hnopath, hnofile]

end LoopVars

/-! ### The databases of the loop, as `LoopState` has them -/

def LoopVars.database (v : LoopVars) : LoopState :=
  ⟨v.idb.map (·.path), v.databaseGeneration, v.nextDatabaseGeneration⟩

section

variable {v : LoopVars} (a : OpenArgs) (cancelled : CancelPoint → Bool) (ev : OpenEvents)

/-- The model of one cancellable open settles the same lock and the same debug information. -/
theorem planOpen_openCancel (files : Files) (hfile : files.exists? (expandPath files a.path) = true) :
    OpenCancel.planOpen files ⟨a.path, a.loadDebugInfo, a.idbOut⟩ =
      .ok ⟨(planOpen files a).lockTarget, (planOpen files a).dsym.isSome⟩ := by
  simp only [OpenCancel.planOpen, planOpen, OpenCancel.lockTarget, hfile, if_true]
  cases isIdbPath (expandPath files a.path) with
  | true => rfl
  | false =>
    simp only [Bool.false_eq_true, if_false, Bool.not_false, Bool.true_and]
    by_cases hout : files.exists? ((a.idbOut.map (expandPath files)).getD
        (idbPathForRawBinary (expandPath files a.path))) = true
    · simp [hout]
    · simp [hout]

/-- What comes of an open that finds no database open. -/
def openRun : Except ToolError DbInfo → OpenRun
  | .ok info => .opened info.db.path
  | .error e => .failed e

theorem handleOpen_database (v : LoopVars) : ∃ run,
    v.database.handleOpen ev.files a.path run = (v.handleOpen a cancelled ev).2.map (·.db.path) := by
  by_cases hstart : cancelled .openStart = true
  · refine ⟨.cancelled, ?_⟩
    simp only [LoopVars.handleOpen, hstart, if_true, LoopState.handleOpen]
    rfl
  cases hidb : v.idb with
  | some db =>
    refine ⟨.opened db.path, ?_⟩
    simp only [LoopVars.handleOpen, hstart, hidb, LoopState.handleOpen, LoopVars.database, Option.map_some,
      reduceCtorEq, if_false]
    split <;> rfl
  | none =>
    refine ⟨openRun (v.handleOpen a cancelled ev).2, ?_⟩
    simp only [LoopState.handleOpen, LoopVars.database, hidb, Option.map_none]
    cases (v.handleOpen a cancelled ev).2 <;> simp [openRun] <;> rfl

/-- An `Open` does to the database what `LoopState.serveOpen` says. -/
theorem serveOpen_database (hc : Consistent v) : ∃ run,
    v.database.serveOpen ev.files a.path run =
      ((v.serveOpen a cancelled ev).1.database,
        (v.serveOpen a cancelled ev).2.map fun o => ⟨o.info.db.path, o.generation⟩) := by
  obtain ⟨run, hrun⟩ := handleOpen_database a cancelled ev v
  refine ⟨run, ?_⟩
  rcases LoopVars.handleOpen_cases a cancelled ev v with ⟨n, e, hh⟩ | ⟨db, hdb, hh⟩ | ⟨path, lock, _, _, hidb, hh⟩
  · rw [LoopVars.serveOpen_error a cancelled ev hh]
    rw [hh] at hrun
    simp only [LoopState.serveOpen, hrun]
    rfl
  · obtain ⟨g, hg⟩ := Option.isSome_iff_exists.1 (hc.1.1 (by rw [hdb]; rfl))
    rw [hh] at hrun
    simp only [LoopVars.serveOpen, hh, hdb, hg, Option.isSome_some, if_true, LoopState.serveOpen, hrun, Except.map]
    simp only [LoopVars.database, hdb, hg, Option.map_some]
  · rw [hh] at hrun
    simp only [LoopVars.serveOpen, hh, hidb, Option.isSome_none, Bool.false_eq_true, if_false, LoopState.serveOpen,
      hrun, Except.map]
    simp only [LoopVars.database, hidb, Option.map_none]
    split <;> rfl

end

/-- The variables after the deferred initialization. -/
def LoopVars.initialized (v : LoopVars) (t : Turn V) : LoopVars :=
  if v.libInitialized || (t.req.cancellable && t.cancelled .beforeInit) then v
  else
    match t.init with
    | .ok mismatch => { v with libInitialized := true, versionMismatch := mismatch }
    | .error _ => v

/-- The error with which the initialization or the version check turns a request away. -/
def gateError (v : LoopVars) (t : Turn V) : Option ToolError :=
  if v.libInitialized then v.versionMismatch.map .sdkVersionMismatch
  else if t.req.cancellable && t.cancelled .beforeInit then some cancelledError
  else
    match t.init with
    | .ok mismatch => mismatch.map .sdkVersionMismatch
    | .error err => some (.idaError (initErrorText err))

/-- The request initializes the library, if that is still to do. -/
def Turn.initializes (t : Turn V) : Bool :=
  !(t.req.cancellable && t.cancelled .beforeInit) && t.init.toOption.isSome

variable {v : LoopVars} {t : Turn V}

theorem versionGate_eq (v : LoopVars) (ht : t.req ≠ .shutdown) :
    versionGate v t = match v.versionMismatch.map ToolError.sdkVersionMismatch with
      | some e => (v, rejectWithError e t.req, .goesOn)
      | none => dispatch v t := by
  unfold versionGate
  cases v.versionMismatch with
  | none => rfl
  | some msg =>
    cases hreq : t.req with
    | shutdown => exact (ht hreq).elim
    | _ => rfl

theorem versionGate_shutdown (v : LoopVars) (ht : t.req = .shutdown) :
    versionGate v t = (v.shutdownCleanup, [], .breaks) := by
  unfold versionGate dispatch
  cases v.versionMismatch <;> simp only [ht]

/-- A request is turned away or dispatched, after the initialization. -/
theorem serve_eq (ht : t.req ≠ .shutdown) :
    serve v t = match gateError v t with
      | some e => (v.initialized t, rejectWithError e t.req, .goesOn)
      | none => dispatch (v.initialized t) t := by
  unfold serve gateError LoopVars.initialized
  cases hlib : v.libInitialized with
  | true => simpa using versionGate_eq v ht
  | false =>
    cases hcancel : (t.req.cancellable && t.cancelled .beforeInit) with
    | true => simp
    | false =>
      cases t.init with
      | error err => simp
      | ok mismatch => simpa using versionGate_eq { v with libInitialized := true, versionMismatch := mismatch } ht

/-- A Shutdown ends the loop unless the initialization fails. -/
theorem serve_shutdown (ht : t.req = .shutdown) :
    serve v t = if v.libInitialized || t.init.toOption.isSome then ((v.initialized t).shutdownCleanup, [], .breaks)
      else (v, [], .goesOn) := by
  unfold serve LoopVars.initialized
  have hcancel : (t.req.cancellable && t.cancelled .beforeInit) = false := by
    rw [ht]
    rfl
  rw [hcancel]
  cases hlib : v.libInitialized with
  | true => simpa using versionGate_shutdown v ht
  | false =>
    cases t.init with
    | error err => simp [rejectWithError, ht, Except.toOption]
    | ok mismatch =>
      simpa [Except.toOption] using
        versionGate_shutdown { v with libInitialized := true, versionMismatch := mismatch } ht

theorem libInitialized_initialized (v : LoopVars) (t : Turn V) :
    (v.initialized t).libInitialized = (v.libInitialized || t.initializes) := by
  unfold LoopVars.initialized Turn.initializes
  cases hlib : v.libInitialized with
  | true => simp [hlib]
  | false =>
    cases hcancel : (t.req.cancellable && t.cancelled .beforeInit) with
    | true => simp [hlib]
    | false => cases t.init <;> simp [hlib, Except.toOption]

theorem initialized_of_lib (hlib : v.libInitialized = true) : v.initialized t = v := by
  rw [LoopVars.initialized, hlib, Bool.true_or, if_pos rfl]

/-- What gets past both gates finds the library initialized in the right version. -/
theorem ready_of_gateError (hg : gateError v t = none) :
    (v.initialized t).libInitialized = true ∧ (v.initialized t).versionMismatch = none := by
  unfold gateError at hg
  unfold LoopVars.initialized
  cases hlib : v.libInitialized with
  | true =>
    rw [hlib, if_pos rfl] at hg
    simpa [hlib] using hg
  | false =>
    cases hcancel : (t.req.cancellable && t.cancelled .beforeInit) with
    | true => simp [hlib, hcancel] at hg
    | false =>
      cases hinit : t.init with
      | error err => simp [hlib, hcancel, hinit] at hg
      | ok mismatch => simpa [hlib, hcancel, hinit] using hg

/-- The initialization leaves the database alone. -/
structure SameDatabase (v w : LoopVars) : Prop where
  idb : w.idb = v.idb
  databaseGeneration : w.databaseGeneration = v.databaseGeneration
  nextDatabaseGeneration : w.nextDatabaseGeneration = v.nextDatabaseGeneration
  lockFile : w.lockFile = v.lockFile
  lockPath : w.lockPath = v.lockPath
  serial : w.serial = v.serial

theorem sameDatabase_initialized (v : LoopVars) (t : Turn V) : SameDatabase v (v.initialized t) := by
  unfold LoopVars.initialized
  split
  · exact ⟨rfl, rfl, rfl, rfl, rfl, rfl⟩
  · split <;> exact ⟨rfl, rfl, rfl, rfl, rfl, rfl⟩

/-! ## Every run -/

/-- The loop answered an `Open` with this database. -/
def Answered (sent : List (List (Response V))) (o : OpenedDatabase) : Prop := .opened (.ok o) ∈ sent.flatten

theorem answered_append {sent : List (List (Response V))} {rs : List (Response V)} {o : OpenedDatabase} :
    Answered (sent ++ [rs]) o ↔ Answered sent o ∨ .opened (.ok o) ∈ rs := by
  simp [Answered]

/-- What a request that is not the last can do: answer without opening anything, answer with the open database, open
the next one, or close. -/
inductive Move (v : LoopVars) (rs : List (Response V)) (v' : LoopVars) : Prop
  | quiet (n : Nat) (hv : v' = { v with serial := v.serial + n }) (hrs : ∀ o, .opened (.ok o) ∉ rs)
  | same (info : DbInfo) (g : Nat) (hidb : v.idb = some info.db) (hg : v.databaseGeneration = some g) (hv : v' = v)
      (hrs : rs = [.opened (.ok ⟨info, g⟩)])
  | new (info : DbInfo) (lock : String) (hidb : v.idb = none) (hserial : info.db.serial = v.serial)
      (hv : v' = { v with
        idb := some info.db, lockFile := some lock, lockPath := some lock, serial := v.serial + 1
        nextDatabaseGeneration := v.nextDatabaseGeneration + 1
        databaseGeneration := some (v.nextDatabaseGeneration + 1) })
      (hrs : rs = [.opened (.ok ⟨info, v.nextDatabaseGeneration + 1⟩)])
  | close (hv : v' = v.serveClose) (hrs : ∀ o, .opened (.ok o) ∉ rs)

theorem Move.idle {rs : List (Response V)} (hrs : ∀ o, .opened (.ok o) ∉ rs) : Move v rs v := .quiet 0 rfl hrs

/-- A handler answers and the loop goes on, or it panics. -/
theorem runHandler_cases (v : LoopVars) (t : Turn V) :
    (∃ r, t.handler v.idb = some r ∧ runHandler v t = (v, [.ran v.idb r], .goesOn)) ∨
      t.handler v.idb = none ∧ runHandler v t = (v, [], .panics) := by
  unfold runHandler
  cases t.handler v.idb with
  | some r => exact .inl ⟨r, rfl, rfl⟩
  | none => exact .inr ⟨rfl, rfl⟩

theorem runHandler_vars (v : LoopVars) (t : Turn V) : (runHandler v t).1 = v := by
  rcases runHandler_cases v t with ⟨r, -, h⟩ | ⟨-, h⟩ <;> rw [h]

theorem runHandler_sent (v : LoopVars) (t : Turn V) :
    (runHandler v t).2.1 = (t.handler v.idb).toList.map (.ran v.idb) := by
  rcases runHandler_cases v t with ⟨r, hr, h⟩ | ⟨hr, h⟩ <;> rw [h, hr] <;> rfl

theorem runHandler_move (v : LoopVars) (t : Turn V) : Move v (runHandler v t).2.1 (runHandler v t).1 := by
  rcases runHandler_cases v t with ⟨r, -, h⟩ | ⟨-, h⟩ <;> rw [h] <;> exact .idle (by simp)

theorem dispatch_move (ht : t.req ≠ .shutdown) (hc : Consistent v) : Move v (dispatch v t).2.1 (dispatch v t).1 := by
  unfold dispatch
  split
  · rename_i a _
    split
    · exact .idle (by simp)
    · rcases LoopVars.serveOpen_cases a t.cancelled t.events hc with ⟨n, e, hs⟩ | ⟨info, g, hidb, hg, hs⟩ |
        ⟨info, lock, hidb, hserial, hs⟩
      · simp only [hs]
        exact .quiet n rfl (by simp)
      · simp only [hs]
        exact .same info g hidb hg rfl rfl
      · simp only [hs]
        exact .new info lock hidb hserial rfl rfl
  · exact .close rfl (by simp)
  · split
    · exact .close rfl (by simp)
    · exact .idle (by simp)
  · split
    · exact .idle (by simp)
    · exact runHandler_move v t
  · split
    · exact .idle (by simp)
    · exact runHandler_move v t
  · split
    · exact .idle (by simp)
    · exact runHandler_move v t
  · split
    · exact .idle (by simp)
    · exact runHandler_move v t
  · exact runHandler_move v t
  · exact runHandler_move v t
  · exact (ht ‹_›).elim

/-- What a request does to the database of a loop that goes on. -/
inductive DatabaseStep (files : Files) (st : LoopState) : LoopState → Prop
  | opened (path : String) (run : OpenRun) : DatabaseStep files st (st.serveOpen files path run).1
  | closed : DatabaseStep files st st.serveClose
  | stays : DatabaseStep files st st

theorem dispatch_database (ht : t.req ≠ .shutdown) (hc : Consistent v) :
    DatabaseStep t.events.files v.database (dispatch v t).1.database := by
  have hran : DatabaseStep t.events.files v.database (runHandler v t).1.database := by
    rw [runHandler_vars]
    exact .stays
  unfold dispatch
  split
  · rename_i a _
    split
    · exact .stays
    · obtain ⟨run, hrun⟩ := serveOpen_database a t.cancelled t.events hc
      have hstep : DatabaseStep t.events.files v.database (v.database.serveOpen t.events.files a.path run).1 :=
        .opened a.path run
      rwa [hrun] at hstep
  · exact .closed
  · split
    · exact .closed
    · exact .stays
  · split
    · exact .stays
    · exact hran
  · split
    · exact .stays
    · exact hran
  · split
    · exact .stays
    · exact hran
  · split
    · exact .stays
    · exact hran
  · exact hran
  · exact hran
  · exact (ht ‹_›).elim

theorem rejectWithError_opened (e : ToolError) (req : IdaRequest) (o : OpenedDatabase) :
    (.opened (.ok o) : Response V) ∉ rejectWithError e req := by
  cases req <;> simp [rejectWithError]

/-- The variables of the loop, beside what it answered so far. -/
structure Inv (sent : List (List (Response V))) (v : LoopVars) : Prop where
  shape : Consistent v
  ready : ∀ o, Answered sent o → v.libInitialized = true ∧ v.versionMismatch = none
  bound : ∀ o, Answered sent o → o.generation ≤ v.nextDatabaseGeneration ∧ o.info.db.serial < v.serial
  current : ∀ db, v.idb = some db → ∃ o, Answered sent o ∧ o.info.db = db ∧ v.databaseGeneration = some o.generation
  pairs : ∀ o o', Answered sent o → Answered sent o' → (o.generation = o'.generation ↔ o.info.db = o'.info.db)

namespace Inv

variable {sent : List (List (Response V))} {rs : List (Response V)} {v' : LoopVars}

/-- The initialization happens before any database is opened. -/
theorem initialized (hi : Inv sent v) (t : Turn V) : Inv sent (v.initialized t) := by
  have hsame := sameDatabase_initialized v t
  refine ⟨?_, fun o ho => ?_, fun o ho => ?_, fun db hdb => ?_, hi.pairs⟩
  · obtain ⟨hgen, hpath, hfile⟩ := hi.shape
    rw [Consistent, hsame.idb, hsame.databaseGeneration, hsame.lockPath, hsame.lockFile]
    exact ⟨hgen, hpath, hfile⟩
  · rw [initialized_of_lib (hi.ready o ho).1]
    exact hi.ready o ho
  · rw [hsame.nextDatabaseGeneration, hsame.serial]
    exact hi.bound o ho
  · rw [hsame.idb] at hdb
    rw [hsame.databaseGeneration]
    exact hi.current db hdb

/-- Nothing is answered with a database. -/
theorem silent (hi : Inv sent v) (hrs : ∀ o, .opened (.ok o) ∉ rs) : Inv (sent ++ [rs]) v := by
  have hiff (o : OpenedDatabase) : Answered (sent ++ [rs]) o ↔ Answered sent o := by
    rw [answered_append]
    simp [hrs o]
  refine ⟨hi.shape, ?_, ?_, ?_, ?_⟩
  · simpa only [hiff] using hi.ready
  · simpa only [hiff] using hi.bound
  · simpa only [hiff] using hi.current
  · simpa only [hiff] using hi.pairs

theorem opened (hi : Inv sent v) (n : Nat) : Inv sent { v with serial := v.serial + n } := by
  refine ⟨hi.shape, hi.ready, fun o ho => ?_, hi.current, hi.pairs⟩
  obtain ⟨hgen, hserial⟩ := hi.bound o ho
  exact ⟨hgen, Nat.lt_of_lt_of_le hserial (Nat.le_add_right _ n)⟩

theorem closed (hi : Inv sent v) : Inv sent v.serveClose := by
  refine ⟨?_, hi.ready, hi.bound, ?_, hi.pairs⟩
  · simp [Consistent, LoopVars.serveClose, LoopVars.releaseMcpLock]
  · simp [LoopVars.serveClose, LoopVars.releaseMcpLock]

/-- Everything that holds of the answers holds of an answer that repeats one of them. -/
theorem again (hi : Inv sent v) {info : DbInfo} {g : Nat} (hidb : v.idb = some info.db)
    (hg : v.databaseGeneration = some g) : Inv (sent ++ [[Response.opened (.ok ⟨info, g⟩)]]) v := by
  obtain ⟨o, ho, hdb, hgen⟩ := hi.current info.db hidb
  have hgo : g = o.generation := Option.some.inj (hg.symm.trans hgen)
  -- an answer of the longer run has the generation and the database of one of the run before
  have hold (o' : OpenedDatabase) (ho' : Answered (sent ++ [[Response.opened (.ok ⟨info, g⟩)]]) o') :
      ∃ o₀, Answered sent o₀ ∧ o₀.generation = o'.generation ∧ o₀.info.db = o'.info.db := by
    rcases answered_append.1 ho' with ho' | ho'
    · exact ⟨o', ho', rfl, rfl⟩
    · obtain rfl : o' = ⟨info, g⟩ := by simpa using ho'
      exact ⟨o, ho, hgo.symm, hdb⟩
  refine ⟨hi.shape, fun o' ho' => ?_, fun o' ho' => ?_, fun db hdb' => ?_, fun o₁ o₂ h₁ h₂ => ?_⟩
  · obtain ⟨o₀, h₀, -, -⟩ := hold o' ho'
    exact hi.ready o₀ h₀
  · obtain ⟨o₀, h₀, hgen₀, hdb₀⟩ := hold o' ho'
    rw [← hgen₀, ← hdb₀]
    exact hi.bound o₀ h₀
  · obtain ⟨o₀, h₀, hdb₀, hgen₀⟩ := hi.current db hdb'
    exact ⟨o₀, answered_append.2 (.inl h₀), hdb₀, hgen₀⟩
  · obtain ⟨p₁, hp₁, hgen₁, hdb₁⟩ := hold o₁ h₁
    obtain ⟨p₂, hp₂, hgen₂, hdb₂⟩ := hold o₂ h₂
    rw [← hgen₁, ← hgen₂, ← hdb₁, ← hdb₂]
    exact hi.pairs p₁ p₂ hp₁ hp₂

/-- A new database has a new generation. -/
theorem fresh (hi : Inv sent v) {info : DbInfo} (lock : String)
    (hready : v.libInitialized = true ∧ v.versionMismatch = none) (hserial : info.db.serial = v.serial) :
    Inv (sent ++ [[Response.opened (.ok ⟨info, v.nextDatabaseGeneration + 1⟩)]])
      { v with
        idb := some info.db, lockFile := some lock, lockPath := some lock, serial := v.serial + 1
        nextDatabaseGeneration := v.nextDatabaseGeneration + 1
        databaseGeneration := some (v.nextDatabaseGeneration + 1) } := by
  have hcases (o : OpenedDatabase)
      (ho : Answered (sent ++ [[Response.opened (.ok ⟨info, v.nextDatabaseGeneration + 1⟩)]]) o) :
      Answered sent o ∨ o = ⟨info, v.nextDatabaseGeneration + 1⟩ := by
    rcases answered_append.1 ho with ho | ho
    · exact .inl ho
    · exact .inr (by simpa using ho)
  have hapart (o : OpenedDatabase) (ho : Answered sent o) :
      o.generation ≠ v.nextDatabaseGeneration + 1 ∧ o.info.db ≠ info.db := by
    obtain ⟨hgen, hlt⟩ := hi.bound o ho
    refine ⟨by omega, fun heq => ?_⟩
    rw [heq, hserial] at hlt
    omega
  refine ⟨by simp [Consistent], fun _ _ => hready, fun o ho => ?_, fun db hdb => ?_, fun o o' ho ho' => ?_⟩
  · rcases hcases o ho with ho | rfl
    · obtain ⟨hgen, hlt⟩ := hi.bound o ho
      exact ⟨by simp only; omega, by simp only; omega⟩
    · exact ⟨Nat.le_refl _, by simp only [hserial]; omega⟩
  · exact ⟨⟨info, v.nextDatabaseGeneration + 1⟩, answered_append.2 (.inr (by simp)), Option.some.inj hdb, rfl⟩
  · rcases hcases o ho with ho | rfl <;> rcases hcases o' ho' with ho' | rfl
    · exact hi.pairs o o' ho ho'
    · obtain ⟨hne, hdb⟩ := hapart o ho
      simp [hne, hdb]
    · obtain ⟨hne, hdb⟩ := hapart o' ho'
      simp [hne.symm, hdb.symm]
    · simp

theorem move (hi : Inv sent v) (hready : v.libInitialized = true ∧ v.versionMismatch = none)
    (hm : Move v rs v') : Inv (sent ++ [rs]) v' := by
  cases hm with
  | quiet n hv hrs =>
    rw [hv]
    exact (hi.opened n).silent hrs
  | same info g hidb hg hv hrs =>
    rw [hv, hrs]
    exact hi.again hidb hg
  | new info lock hidb hserial hv hrs =>
    rw [hv, hrs]
    exact hi.fresh lock hready hserial
  | close hv hrs =>
    rw [hv]
    exact hi.closed.silent hrs

/-- A request at which the loop does not break keeps the invariant. -/
theorem serve (hi : Inv sent v) (hgo : (serve v t).2.2 ≠ .breaks) :
    Inv (sent ++ [(IdaLoop.serve v t).2.1]) (IdaLoop.serve v t).1 := by
  by_cases ht : t.req = .shutdown
  · rw [serve_shutdown ht] at hgo ⊢
    split at hgo
    · exact (hgo rfl).elim
    · rename_i hfailed
      rw [if_neg hfailed]
      exact hi.silent (by simp)
  · rw [serve_eq ht]
    cases hgate : gateError v t with
    | some e => exact (hi.initialized t).silent (rejectWithError_opened e t.req)
    | none =>
      exact (hi.initialized t).move (ready_of_gateError hgate) (dispatch_move ht (hi.initialized t).shape)

end Inv

/-- The loop does to its database what `LoopState` says. -/
theorem serve_database {sent : List (List (Response V))} (hi : Inv sent v) (hgo : (serve v t).2.2 ≠ .breaks) :
    DatabaseStep t.events.files v.database (serve v t).1.database := by
  have hsame : (v.initialized t).database = v.database := by
    obtain ⟨hidb, hgen, hnext, -, -, -⟩ := sameDatabase_initialized v t
    rw [LoopVars.database, LoopVars.database, hidb, hgen, hnext]
  by_cases ht : t.req = .shutdown
  · rw [serve_shutdown ht] at hgo ⊢
    split at hgo
    · exact (hgo rfl).elim
    · rename_i hfailed
      rw [if_neg hfailed]
      exact .stays
  · rw [serve_eq ht, ← hsame]
    cases gateError v t with
    | some e => exact .stays
    | none => exact dispatch_database ht (hi.initialized t).shape

theorem runIdaLoop_cons (st : Loop V) (t : Turn V) (ts : List (Turn V)) :
    runIdaLoop st (t :: ts) = if (st.next t).stopped then (st.next t, ts) else runIdaLoop (st.next t) ts := rfl

theorem Loop.stopped_next (st : Loop V) (t : Turn V) :
    (st.next t).stopped = decide ((serve st.vars t).2.2 ≠ .goesOn) := rfl

theorem Inv.run {st : Loop V} (hi : Inv st.sent st.vars) {ts : List (Turn V)}
    (hgo : (runIdaLoop st ts).1.stopped = false) : Inv (runIdaLoop st ts).1.sent (runIdaLoop st ts).1.vars := by
  induction ts generalizing st with
  | nil => exact hi
  | cons t ts ih =>
    rw [runIdaLoop_cons] at hgo ⊢
    split at hgo
    · rename_i hstop
      rw [hstop] at hgo
      cases hgo
    · rename_i hnext
      rw [if_neg hnext]
      refine ih ?_ hgo
      refine hi.serve fun hbreaks => hnext ?_
      rw [Loop.stopped_next, hbreaks]
      rfl

theorem inv_start (libInitialized : Bool) (versionMismatch : Option String) :
    Inv (V := V) [] { libInitialized, versionMismatch } := by
  constructor
  · simp [Consistent]
  · simp [Answered]
  · simp [Answered]
  · simp
  · simp [Answered]

/-- An `Open` of the run opened `db` under the generation `g`. -/
def Loop.Under (st : Loop V) (g : Nat) (db : Idb) : Prop :=
  ∃ o, Answered st.sent o ∧ o.generation = g ∧ o.info.db = db

/-- What is sent for a request. -/
def Loop.answer (st : Loop V) (t : Turn V) : List (Response V) := (st.next t).sent.getLastD []

theorem Loop.answer_eq (st : Loop V) (t : Turn V) : st.answer t = (serve st.vars t).2.1 := by
  simp [answer, next]

theorem Loop.next_vars (st : Loop V) (t : Turn V) : (st.next t).vars = (serve st.vars t).1 := rfl

/-- The current generation is that of the database that is open. -/
theorem Inv.under_iff {st : Loop V} (hi : Inv st.sent st.vars) (g : Nat) :
    (∃ db, st.vars.idb = some db ∧ st.Under g db) ↔ st.vars.databaseGeneration = some g := by
  constructor
  · rintro ⟨db, hidb, o, ho, rfl, hdb⟩
    obtain ⟨o', ho', hdb', hgen⟩ := hi.current db hidb
    rw [hgen, (hi.pairs o' o ho' ho).2 (hdb'.trans hdb.symm)]
  · intro hg
    obtain ⟨db, hidb⟩ := Option.isSome_iff_exists.1 (hi.shape.1.2 (by rw [hg]; rfl))
    obtain ⟨o, ho, hdb, hgen⟩ := hi.current db hidb
    exact ⟨db, hidb, o, ho, Option.some.inj (hgen.symm.trans hg), hdb⟩

theorem gateError_of_ready (hready : v.libInitialized = true ∧ v.versionMismatch = none) (t : Turn V) :
    gateError v t = none := by
  rw [gateError, if_pos hready.1, hready.2]
  rfl

/-- An operation that is bound to a generation runs its handler when that is the current one. -/
theorem dispatch_expected {g : Nat} (ht : t.req.expected = some g) :
    dispatch v t = if v.databaseGeneration = some g then runHandler v t
      else (v, [.refused .databaseReplaced], .goesOn) := by
  cases hreq : t.req with
  | analysisStatus expected | dscLoadImage _ expected =>
    rw [hreq] at ht
    obtain rfl : expected = some g := ht
    by_cases hg : v.databaseGeneration = some g
    · simp only [dispatch, hreq, requireGeneration, if_pos hg]
    · simp only [dispatch, hreq, requireGeneration, if_neg hg]
  | _ =>
    rw [hreq] at ht
    cases ht

theorem rejectWithError_expected {g : Nat} {req : IdaRequest} (ht : req.expected = some g) (e : ToolError) :
    rejectWithError e req = [(.refused e : Response V)] := by
  cases req with
  | analysisStatus | dscLoadImage => rfl
  | _ => cases ht

/-- An `Open` of the database that is open gives it back. -/
theorem dispatch_again {a : OpenArgs} (ht : t.req = .openIdb a) {db : Idb} {g : Nat} (hidb : v.idb = some db)
    (hg : v.databaseGeneration = some g) (hmatch : databasePathsMatch db.path (expandPath t.events.files a.path) = true)
    (harm : t.cancelled .arm = false) (hstart : t.cancelled .openStart = false) :
    dispatch v t = (v, [.opened (.ok ⟨⟨db, db.path, none⟩, g⟩)], .goesOn) := by
  have hopen : v.handleOpen a t.cancelled t.events = (v, .ok ⟨db, db.path, none⟩) := by
    simp only [LoopVars.handleOpen, hstart, hidb, hmatch, Bool.false_eq_true, if_false, if_true]
  have hserve : v.serveOpen a t.cancelled t.events = (v, .ok ⟨⟨db, db.path, none⟩, g⟩) := by
    simp only [LoopVars.serveOpen, hopen, hidb, hg, Option.isSome_some, if_true]
  simp only [dispatch, ht, harm, hserve, Bool.false_eq_true, if_false]

section

variable {st : Loop V}

theorem Inv.answer_again (hi : Inv st.sent st.vars) {a : OpenArgs} (ht : t.req = .openIdb a) {db : Idb}
    (hidb : st.vars.idb = some db) (hmatch : databasePathsMatch db.path (expandPath t.events.files a.path) = true)
    (harm : t.cancelled .arm = false) (hstart : t.cancelled .openStart = false) :
    ∃ o, st.answer t = [.opened (.ok o)] ∧ o.info.db = db ∧ st.vars.databaseGeneration = some o.generation := by
  obtain ⟨o, ho, hdb, hgen⟩ := hi.current db hidb
  refine ⟨⟨⟨db, db.path, none⟩, o.generation⟩, ?_, rfl, hgen⟩
  have hready := hi.ready o ho
  rw [Loop.answer_eq, serve_eq (by rw [ht]; nofun), gateError_of_ready hready, initialized_of_lib hready.1]
  simp only [dispatch_again ht hidb hgen hmatch harm hstart]

theorem Inv.answer_open (hi : Inv st.sent st.vars) (ht : t.req ≠ .shutdown) {o : OpenedDatabase}
    (ho : .opened (.ok o) ∈ st.answer t) :
    (st.vars.idb = some o.info.db ∧ st.vars.databaseGeneration = some o.generation) ∨
      st.vars.idb = none ∧ ∀ g db, st.Under g db → g < o.generation := by
  have hsame := sameDatabase_initialized st.vars t
  rw [Loop.answer_eq, serve_eq ht] at ho
  cases hgate : gateError st.vars t with
  | some e =>
    rw [hgate] at ho
    exact (rejectWithError_opened e t.req o ho).elim
  | none =>
    rw [hgate] at ho
    cases (dispatch_move ht (hi.initialized t).shape) with
    | quiet _ _ hrs | close _ hrs => exact (hrs o ho).elim
    | same info g hidb hg _ hrs =>
      simp only [hrs, List.mem_singleton, Response.opened.injEq, Except.ok.injEq] at ho
      subst ho
      exact .inl ⟨hsame.idb ▸ hidb, hsame.databaseGeneration ▸ hg⟩
    | new info lock hidb _ _ hrs =>
      simp only [hrs, List.mem_singleton, Response.opened.injEq, Except.ok.injEq] at ho
      subst ho
      refine .inr ⟨hsame.idb ▸ hidb, ?_⟩
      rintro g db ⟨o, ho, rfl, -⟩
      have hle := (hi.bound o ho).1
      show o.generation < (st.vars.initialized t).nextDatabaseGeneration + 1
      rw [hsame.nextDatabaseGeneration]
      omega

theorem Inv.answer_expected (hi : Inv st.sent st.vars) {g : Nat} (ht : t.req.expected = some g) :
    SameDatabase st.vars (st.next t).vars ∧
    (∀ e, gateError st.vars t = some e → st.answer t = [.refused e]) ∧
    (gateError st.vars t = none →
      ((∃ db, st.vars.idb = some db ∧ st.Under g db) →
        st.answer t = (t.handler st.vars.idb).toList.map (.ran st.vars.idb)) ∧
      ((¬ ∃ db, st.vars.idb = some db ∧ st.Under g db) → st.answer t = [.refused .databaseReplaced])) := by
  have hsame := sameDatabase_initialized st.vars t
  have hshut : t.req ≠ .shutdown := by
    intro hreq
    rw [hreq] at ht
    cases ht
  rw [hi.under_iff, Loop.answer_eq, Loop.next_vars, serve_eq hshut]
  cases hgate : gateError st.vars t with
  | some e =>
    refine ⟨hsame, fun e' he' => ?_, nofun⟩
    obtain rfl := Option.some.inj he'
    exact rejectWithError_expected ht e
  | none =>
    simp only [dispatch_expected ht, hsame.databaseGeneration]
    by_cases hg : st.vars.databaseGeneration = some g
    · rw [if_pos hg]
      refine ⟨by rw [runHandler_vars]; exact hsame, nofun, fun _ => ⟨fun _ => ?_, fun hne => (hne hg).elim⟩⟩
      rw [runHandler_sent, hsame.idb]
    · rw [if_neg hg]
      exact ⟨hsame, nofun, fun _ => ⟨fun hg' => (hg hg').elim, fun _ => rfl⟩⟩

/-- In every state between two requests of a loop that goes on: the database, its generation and its lock are there
together; each generation given out stands for one database; an `Open` that finds the same database open answers with
the current generation, and every other successful one with a generation above all before it; an operation bound to a
generation `g` runs, on the open database, if that was opened under `g`, and is otherwise answered with
`DatabaseReplaced`, unless a gate turns it away before; no gate does when `g` was given out. The database stays as it
is, except for what the handler does with it. The answer is what the handler returns, if it does not panic. -/
theorem loop_database_state (libInitialized : Bool) (versionMismatch : Option String) (ts : List (Turn V))
    (hst : (runIdaLoop (startLoop libInitialized versionMismatch) ts).1 = st) (hgo : st.stopped = false) :
    Consistent st.vars ∧
    (∀ g g' db db', st.Under g db → st.Under g' db' → (g = g' ↔ db = db')) ∧
    (∀ t a, t.req = .openIdb a →
      (∀ db, st.vars.idb = some db → databasePathsMatch db.path (expandPath t.events.files a.path) = true →
        t.cancelled .arm = false → t.cancelled .openStart = false →
        ∃ o, st.answer t = [.opened (.ok o)] ∧ o.info.db = db ∧ st.vars.databaseGeneration = some o.generation) ∧
      ∀ o, .opened (.ok o) ∈ st.answer t →
        (st.vars.idb = some o.info.db ∧ st.vars.databaseGeneration = some o.generation) ∨
        st.vars.idb = none ∧ ∀ g db, st.Under g db → g < o.generation) ∧
    ∀ t g, t.req.expected = some g →
      SameDatabase st.vars (st.next t).vars ∧
      (∀ e, gateError st.vars t = some e → st.answer t = [.refused e]) ∧
      (gateError st.vars t = none →
        ((∃ db, st.vars.idb = some db ∧ st.Under g db) →
        st.answer t = (t.handler st.vars.idb).toList.map (.ran st.vars.idb)) ∧
        ((¬ ∃ db, st.vars.idb = some db ∧ st.Under g db) → st.answer t = [.refused .databaseReplaced])) ∧
      ∀ db, st.Under g db → gateError st.vars t = none := by
  have hi : Inv st.sent st.vars := by
    subst hst
    exact Inv.run (inv_start libInitialized versionMismatch) hgo
  refine ⟨hi.shape, ?_, fun t a ht => ⟨?_, ?_⟩, fun t g ht => ?_⟩
  · rintro g g' db db' ⟨o, ho, rfl, rfl⟩ ⟨o', ho', rfl, rfl⟩
    exact hi.pairs o o' ho ho'
  · intro db hidb hmatch harm hstart
    exact hi.answer_again ht hidb hmatch harm hstart
  · intro o ho
    exact hi.answer_open (by rw [ht]; nofun) ho
  · obtain ⟨hsame, hrefused, hran⟩ := hi.answer_expected ht
    refine ⟨hsame, hrefused, hran, ?_⟩
    rintro db ⟨o, ho, -, -⟩
    exact gateError_of_ready (hi.ready o ho) t

end

/-- A request for which everything goes well but perhaps the initialization. -/
def plainTurn (req : IdaRequest) (init : Except String (Option String)) : Turn Unit where
  req
  cancelled _ := false
  init
  events := ⟨⟨none, fun _ => true, fun _ => none⟩, .ok (), .ok, fun _ => none, fun _ => .ok false⟩
  handler _ := some (.ok ())

def openTurn : Turn Unit := plainTurn (.openIdb { path := "/a.i64" }) (.ok none)

theorem loop_database_state_opened :
    ∃ st, (runIdaLoop (startLoop false none) [openTurn]).1 = st ∧ st.vars.databaseGeneration = some 1 ∧
      Consistent st.vars ∧
      st.answer (plainTurn (.analysisStatus (some 1)) (.ok none)) = [.ran (some ⟨"/a.i64", 0⟩) (.ok ())] := by
  have hgen : (runIdaLoop (startLoop false none) [openTurn]).1.vars.databaseGeneration = some 1 := by decide +kernel
  have hidb : (runIdaLoop (startLoop false none) [openTurn]).1.vars.idb = some ⟨"/a.i64", 0⟩ := by decide +kernel
  obtain ⟨hc, -, -, hexp⟩ := loop_database_state false none [openTurn] rfl (by decide +kernel)
  obtain ⟨-, -, hran, hgate⟩ := hexp (plainTurn (.analysisStatus (some 1)) (.ok none)) 1 rfl
  have hsent : .opened (.ok ⟨⟨⟨"/a.i64", 0⟩, "/a.i64", none⟩, 1⟩) ∈
      (runIdaLoop (startLoop false none) [openTurn]).1.sent.flatten := by decide +kernel
  have hunder : (runIdaLoop (startLoop false none) [openTurn]).1.Under 1 ⟨"/a.i64", 0⟩ := ⟨_, hsent, rfl, rfl⟩
  refine ⟨_, rfl, hgen, hc, ?_⟩
  rw [(hran (hgate _ hunder)).1 ⟨_, hidb, hunder⟩, hidb]
  rfl

/-- An operation bound to a generation that nobody was given is answered with the error of the initialization; and
the Shutdown that ends the loop leaves the generation of the database it drops. -/
theorem gated_and_stopped :
    (∃ st : Loop Unit, (runIdaLoop (startLoop false none) []).1 = st ∧ st.vars.databaseGeneration ≠ some 1 ∧
      st.answer (plainTurn (.analysisStatus (some 1)) (.error "no license")) ≠ [.refused .databaseReplaced]) ∧
    ∃ st, (runIdaLoop (startLoop true none) [openTurn, plainTurn .shutdown (.ok none)]).1 = st ∧
      st.vars.idb = none ∧ st.vars.databaseGeneration = some 1 := by
  refine ⟨⟨_, rfl, by decide, ?_⟩, _, rfl, by decide +kernel, by decide +kernel⟩
  show [Response.refused (.idaError (initErrorText "no license"))] ≠ [Response.refused .databaseReplaced]
  simp

/-! ## The end of the loop -/

theorem rejectWithError_length {req : IdaRequest} (ht : req ≠ .shutdown) (e : ToolError) :
    (rejectWithError (V := V) e req).length = 1 := by
  cases req with
  | shutdown => exact (ht rfl).elim
  | _ => rfl

theorem serveOpen_libInitialized (a : OpenArgs) (cancelled : CancelPoint → Bool) (ev : OpenEvents) :
    (v.serveOpen a cancelled ev).1.libInitialized = v.libInitialized := by
  have hstore {v' : LoopVars} {info : DbInfo} (hh : v.handleOpen a cancelled ev = (v', .ok info)) :
      (v.serveOpen a cancelled ev).1.libInitialized = v'.libInitialized := by
    simp only [LoopVars.serveOpen, hh]
    split
    · rfl
    · split <;> rfl
  rcases LoopVars.handleOpen_cases a cancelled ev v with ⟨n, e, hh⟩ | ⟨db, -, hh⟩ | ⟨path, lock, opened, debug, -, hh⟩
  · rw [LoopVars.serveOpen_error a cancelled ev hh]
  · rw [hstore hh]
  · rw [hstore hh]

/-- The request is one that its arm hands to a handler. -/
def reachesHandler (v : LoopVars) (t : Turn V) : Bool :=
  match t.req with
  | .analysisStatus expected | .dscLoadImage _ expected =>
    (requireGeneration expected v.databaseGeneration).toOption.isSome
  | .analyzeFuncs | .runScript _ => !t.cancelled .arm
  | .dscLoadRegion _ | .handled _ => true
  | .openIdb _ | .close | .closeIfGeneration _ | .shutdown => false

/-- The handler of the request is run. -/
def runsHandler (v : LoopVars) (t : Turn V) : Bool := (gateError v t).isNone && reachesHandler v t

/-- The handler of the request, if it is run, does not panic. -/
def returns (v : LoopVars) (t : Turn V) : Bool := !runsHandler v t || (t.handler v.idb).isSome

/-- Of the handlers that are run for these requests none panics. -/
def handlersReturn (st : Loop V) : List (Turn V) → Bool
  | [] => true
  | t :: ts => returns st.vars t && handlersReturn (st.next t) ts

theorem reachesHandler_initialized (v : LoopVars) (t : Turn V) :
    reachesHandler (v.initialized t) t = reachesHandler v t := by
  simp only [reachesHandler, (sameDatabase_initialized v t).databaseGeneration]

/-- One response, the loop goes on, and the library is as it was. -/
def OneResponse (v : LoopVars) (r : Served V) : Prop :=
  r.2.1.length = 1 ∧ r.2.2 = .goesOn ∧ r.1.libInitialized = v.libInitialized

theorem dispatch_handler (hrun : reachesHandler v t = true) : dispatch v t = runHandler v t := by
  unfold reachesHandler at hrun
  unfold dispatch
  cases hreq : t.req with
  | analysisStatus expected | dscLoadImage _ expected =>
    simp only [hreq] at hrun ⊢
    cases hg : requireGeneration expected v.databaseGeneration with
    | error e => rw [hg] at hrun; cases hrun
    | ok => rfl
  | analyzeFuncs | runScript =>
    simp only [hreq, Bool.not_eq_true'] at hrun ⊢
    rw [hrun]
    rfl
  | dscLoadRegion | handled => rfl
  | openIdb | close | closeIfGeneration | shutdown => simp only [hreq, Bool.false_eq_true] at hrun

theorem dispatch_refused (ht : t.req ≠ .shutdown) (hrun : reachesHandler v t = false) :
    OneResponse v (dispatch v t) := by
  unfold reachesHandler at hrun
  unfold dispatch
  cases hreq : t.req with
  | openIdb a =>
    dsimp only
    split
    · exact ⟨rfl, rfl, rfl⟩
    · exact ⟨rfl, rfl, serveOpen_libInitialized a t.cancelled t.events⟩
  | close => exact ⟨rfl, rfl, rfl⟩
  | closeIfGeneration => dsimp only; split <;> exact ⟨rfl, rfl, rfl⟩
  | analysisStatus expected | dscLoadImage _ expected =>
    simp only [hreq] at hrun ⊢
    cases hg : requireGeneration expected v.databaseGeneration with
    | error e => exact ⟨rfl, rfl, rfl⟩
    | ok => rw [hg] at hrun; cases hrun
  | analyzeFuncs | runScript =>
    simp only [hreq, Bool.not_eq_false'] at hrun ⊢
    rw [hrun]
    exact ⟨rfl, rfl, rfl⟩
  | dscLoadRegion | handled => simp only [hreq, Bool.true_eq_false] at hrun
  | shutdown => exact (ht hreq).elim

theorem serve_oneResponse (v : LoopVars) (ht : t.req ≠ .shutdown) (hret : returns v t = true) :
    (serve v t).2.1.length = 1 ∧ (serve v t).2.2 = .goesOn ∧
      (serve v t).1.libInitialized = (v.libInitialized || t.initializes) := by
  rw [serve_eq ht, ← libInitialized_initialized]
  cases hgate : gateError v t with
  | some e => exact ⟨rejectWithError_length ht e, rfl, rfl⟩
  | none =>
    have hreach := reachesHandler_initialized v t
    show OneResponse (v.initialized t) (dispatch (v.initialized t) t)
    cases hrun : reachesHandler v t with
    | false => exact dispatch_refused ht (hreach.trans hrun)
    | true =>
      rw [dispatch_handler (hreach.trans hrun)]
      rcases runHandler_cases (v.initialized t) t with ⟨r, -, h⟩ | ⟨hnone, -⟩
      · rw [h]
        exact ⟨rfl, rfl, rfl⟩
      · rw [(sameDatabase_initialized v t).idb] at hnone
        simp [returns, runsHandler, hgate, hrun, hnone] at hret

theorem serve_panics (v : LoopVars) (ht : t.req ≠ .shutdown) (hret : returns v t = false) :
    (serve v t).2.2 = .panics := by
  simp only [returns, runsHandler, Bool.or_eq_false_iff, Bool.not_eq_false', Bool.and_eq_true,
    Option.isNone_iff_eq_none, Option.isSome_eq_false_iff] at hret
  obtain ⟨⟨hgate, hrun⟩, hnone⟩ := hret
  rw [serve_eq ht, hgate]
  show (dispatch (v.initialized t) t).2.2 = .panics
  rw [dispatch_handler ((reachesHandler_initialized v t).trans hrun)]
  rcases runHandler_cases (v.initialized t) t with ⟨r, hsome, -⟩ | ⟨-, h⟩
  · rw [(sameDatabase_initialized v t).idb, hnone] at hsome
    cases hsome
  · rw [h]

/-- The loop takes all requests that are not a Shutdown, one response for each, if no handler panics. -/
theorem runIdaLoop_requests (st : Loop V) {pre : List (Turn V)} (hpre : ∀ t ∈ pre, t.req ≠ .shutdown)
    (hret : handlersReturn st pre = true) :
    ∃ st' : Loop V, (∀ ts, runIdaLoop st (pre ++ ts) = runIdaLoop st' ts) ∧
      (∃ rs, st'.sent = st.sent ++ rs ∧ rs.length = pre.length ∧ ∀ r ∈ rs, r.length = 1) ∧
      st'.vars.libInitialized = (st.vars.libInitialized || pre.any Turn.initializes) := by
  induction pre generalizing st with
  | nil => exact ⟨st, fun _ => rfl, ⟨[], by simp⟩, by simp⟩
  | cons t pre ih =>
    rw [handlersReturn, Bool.and_eq_true] at hret
    obtain ⟨hone, hgo, hlib⟩ := serve_oneResponse st.vars (hpre t List.mem_cons_self) hret.1
    obtain ⟨st', hrun, ⟨rs, hsent, hlen, hall⟩, hlib'⟩ :=
      ih (st.next t) (fun t' ht' => hpre t' (List.mem_cons_of_mem t ht')) hret.2
    refine ⟨st', fun ts => ?_, ⟨(serve st.vars t).2.1 :: rs, ?_, by simp [hlen], ?_⟩, ?_⟩
    · rw [List.cons_append, runIdaLoop_cons, ← hrun]
      exact if_neg (by simp [Loop.stopped_next, hgo])
    · rw [hsent]
      simp [Loop.next]
    · intro r hr
      rcases List.mem_cons.1 hr with rfl | hr
      · exact hone
      · exact hall r hr
    · rw [hlib', Loop.next_vars, hlib, List.any_cons, Bool.or_assoc]

/-- A handler that panics is the end of the loop. -/
theorem runIdaLoop_panics (st : Loop V) {pre : List (Turn V)} (hpre : ∀ t ∈ pre, t.req ≠ .shutdown)
    (hret : handlersReturn st pre = false) (ts : List (Turn V)) : (runIdaLoop st (pre ++ ts)).1.flow = .panics := by
  induction pre generalizing st with
  | nil => cases hret
  | cons t pre ih =>
    have ht := hpre t List.mem_cons_self
    rw [List.cons_append, runIdaLoop_cons]
    cases hone : returns st.vars t with
    | true =>
      rw [handlersReturn, hone, Bool.true_and] at hret
      rw [if_neg (by simp [Loop.stopped_next, (serve_oneResponse st.vars ht hone).2.1])]
      exact ih (st.next t) (fun t' ht' => hpre t' (List.mem_cons_of_mem t ht')) hret
    | false =>
      have hpanics := serve_panics st.vars ht hone
      rw [if_pos (by simp [Loop.stopped_next, hpanics])]
      exact hpanics

/-- A loop that ends has taken a request. -/
theorem runIdaLoop_rest {st : Loop V} (hst : st.stopped = false) {ts : List (Turn V)}
    (hstop : (runIdaLoop st ts).1.stopped = true) : (runIdaLoop st ts).2.length < ts.length := by
  induction ts generalizing st with
  | nil =>
    rw [runIdaLoop, hst] at hstop
    cases hstop
  | cons t ts ih =>
    rw [runIdaLoop_cons] at hstop ⊢
    split
    · exact Nat.lt_succ_self _
    · rename_i hnext
      rw [if_neg hnext] at hstop
      exact Nat.lt_succ_of_lt (ih (by simpa using hnext) hstop)

/-- The run ended at the Shutdown after `pre`, with nothing open, and one response for each request before it. -/
structure EndsAtShutdown (r : Loop V × List (Turn V)) (pre post : List (Turn V)) : Prop where
  breaks : r.1.flow = .breaks
  rest : r.2 = post
  idb : r.1.vars.idb = none
  lockFile : r.1.vars.lockFile = none
  lockPath : r.1.vars.lockPath = none
  sent : ∃ rs, r.1.sent = rs ++ [[]] ∧ rs.length = pre.length ∧ ∀ r ∈ rs, r.length = 1

/-- The loop ends at the first Shutdown just when no handler that is run before it panics, and the library was
initialized before it or is with it: a Shutdown whose initialization fails is dropped. -/
theorem shutdown_ends_loop_iff (libInitialized : Bool) (versionMismatch : Option String) {pre post : List (Turn V)}
    {shut : Turn V} (hpre : ∀ t ∈ pre, t.req ≠ .shutdown) (hshut : shut.req = .shutdown) :
    EndsAtShutdown (runIdaLoop (startLoop libInitialized versionMismatch) (pre ++ shut :: post)) pre post ↔
      handlersReturn (startLoop libInitialized versionMismatch) pre = true ∧
        (libInitialized || pre.any Turn.initializes || shut.init.toOption.isSome) = true := by
  cases hret : handlersReturn (startLoop libInitialized versionMismatch) pre with
  | false =>
    refine iff_of_false (fun hends => ?_) (fun h => Bool.false_ne_true h.1)
    have hbreaks := hends.breaks
    rw [runIdaLoop_panics _ hpre hret] at hbreaks
    cases hbreaks
  | true =>
    rw [and_iff_right rfl]
    obtain ⟨st, hrun, ⟨rs, hsent, hlen, hall⟩, hlib⟩ :=
      runIdaLoop_requests (startLoop libInitialized versionMismatch) hpre hret
    have hsent : st.sent = rs := hsent
    rw [hrun, runIdaLoop_cons, show libInitialized = (startLoop (V := V) libInitialized
      versionMismatch).vars.libInitialized from rfl, ← hlib]
    have hserve := serve_shutdown (v := st.vars) hshut
    cases hready : (st.vars.libInitialized || shut.init.toOption.isSome) with
    | true =>
      rw [hready, if_pos rfl] at hserve
      have hnext : st.next shut = ⟨(st.vars.initialized shut).shutdownCleanup, st.sent ++ [[]], .breaks⟩ := by
        rw [Loop.next, hserve]
      rw [hnext, if_pos (show Loop.stopped _ = true from rfl)]
      exact iff_of_true ⟨rfl, rfl, rfl, rfl, rfl, rs, by rw [hsent], hlen, hall⟩ rfl
    | false =>
      rw [hready, if_neg Bool.false_ne_true] at hserve
      have hnext : st.next shut = ⟨st.vars, st.sent ++ [[]], .goesOn⟩ := by
        rw [Loop.next, hserve]
      have hgoes : (⟨st.vars, st.sent ++ [[]], .goesOn⟩ : Loop V).stopped = false := rfl
      rw [hnext, if_neg (by simp [hgoes])]
      refine iff_of_false (fun hends => ?_) Bool.false_ne_true
      have hlt := runIdaLoop_rest rfl (by rw [Loop.stopped, hends.breaks]; rfl)
      rw [hends.rest] at hlt
      exact Nat.lt_irrefl _ hlt

/-- `handle_list_functions` reserves its page before it looks at the functions. -/
def hugePage : Turn Unit :=
  { plainTurn (.handled (.listFunctions 0 (2 ^ 64 - 1) none)) (.ok none) with handler := fun _ => none }

theorem shutdown_ends_loop_iff_opened :
    EndsAtShutdown (runIdaLoop (startLoop false none) [openTurn, plainTurn .shutdown (.ok none), openTurn]) [openTurn]
      [openTurn] := by
  have hpre : ∀ t ∈ [openTurn], t.req ≠ .shutdown := by
    intro t ht
    rw [List.mem_singleton.1 ht]
    nofun
  exact (shutdown_ends_loop_iff false none hpre rfl).2 ⟨rfl, rfl⟩

/-- A Shutdown whose initialization fails: the loop goes on to the next request. And a page of functions that is too
large to reserve: the handler panics, and the Shutdown after it is never taken. -/
theorem shutdown_dropped :
    ¬ EndsAtShutdown (runIdaLoop (startLoop false none) [plainTurn .shutdown (.error "no license"), openTurn]) []
      [openTurn] ∧
    ¬ EndsAtShutdown (runIdaLoop (startLoop true none) [openTurn, hugePage, plainTurn .shutdown (.ok none)])
      [openTurn, hugePage] [] := by
  refine ⟨fun hends => ?_, fun hends => ?_⟩
  · have hbreaks := hends.breaks
    revert hbreaks
    decide +kernel
  · have hbreaks := hends.breaks
    revert hbreaks
    decide +kernel

end

end IdaRs.IdaLoop
