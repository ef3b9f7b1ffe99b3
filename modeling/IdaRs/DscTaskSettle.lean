import IdaRs.DscTaskInv
import IdaRs.TaskLife

/-!
# The settlement of the background DSC task

`Move` lists what a step of the task can do. The task makes one settling call, the one its registry entry is
waiting for (`Settling.settled`, `RegInv`), and it makes it when its database is closed, when it could not be
closed, or with the success value (`Final`).
-/

namespace IdaRs.DscTask

open Threads IdaRs.Task

variable {s s' : Shared} {pc pc' : Pc} {now : Nat → Moment} {g : Nat}

/-! ### The registry -/

section Registry

variable {V : Type} {r : TaskRegistry V} {id : String} {op : Op V}

/-- The calls that settle a running task whatever they find. -/
inductive Settling (id : String) : Op V → Prop
  | finishCancelled (message : String) : Settling id (.finishCancelled id message)
  | fail (error : String) : Settling id (.fail id error)
  | toolError (result : V) (token : Nat) (message : String) :
      Settling id (.completeWithCancelToken id result token message)
  | failAfterCleanupError (error : String) : Settling id (.failAfterCleanupError id error)

theorem Settling.newId (h : Settling id op) : op.newId = none := by cases h <;> rfl

/-- The answer of a settlement method for a running task. -/
theorem settle_answer (hwf : Wf r) {e : TaskEntry V} (he : (id, e) ∈ r.entries) (now : Nat → Moment)
    (f : TaskEntry V → TaskEntry V × TaskSettlement) : (r.settle id now f).2 = (f e).2 :=
  (onEntry_of_mem now (fun s : TaskSettlement => decide (s ≠ .unchanged)) .unchanged
    (fun e => (((f e).1, r.cancelled), (f e).2)) hwf.nodup he).1

theorem complete_settles {e : TaskEntry V} (hr : e.Running) (v : V) (t : Moment) : (e.complete v t).2 ≠ .unchanged := by
  rw [TaskEntry.complete, if_neg (not_not.2 hr)]
  split <;> simp

theorem fail_settles {e : TaskEntry V} (hr : e.Running) (m : String) (t : Moment) : (e.fail m t).2 ≠ .unchanged := by
  rw [TaskEntry.fail, if_neg (not_not.2 hr)]
  split <;> simp

theorem finishCancelled_settles {e : TaskEntry V} (hr : e.Running) (m : String) (t : Moment) :
    (e.finishCancelled m t).2 = true := by
  rw [TaskEntry.finishCancelled, if_neg (not_not.2 hr)]

theorem failAfterCleanupError_answer (hwf : Wf r) (hl : Live r id) (now : Nat → Moment) (m : String) :
    (Task.step r now (.failAfterCleanupError id m)).2 = .settlement .failed := by
  obtain ⟨e, he, hr⟩ := hl
  refine congrArg Answer.settlement ((settle_answer hwf he now _).trans ?_)
  rw [TaskEntry.failAfterCleanupError, if_neg (not_not.2 hr)]

theorem completeOrDefer_answer (hwf : Wf r) (hl : Live r id) (now : Nat → Moment) (v : V) (token : Nat) :
    (Task.step r now (.completeOrDeferCancellation id v token)).2 = .decision .cancellationPending ∨
      (Task.step r now (.completeOrDeferCancellation id v token)).2 = .decision .completed := by
  obtain ⟨e, he, hr⟩ := hl
  have hans := (onEntry_of_mem now (fun d : TaskCompletionDecision => decide (d = .completed)) .unchanged
    (fun e : TaskEntry V =>
      if e.state.status ≠ .running then ((e, r.cancelled), TaskCompletionDecision.unchanged)
      else if token ∈ r.cancelled ∨ e.cancelRequested.isSome then ((e, r.cancelled), .cancellationPending)
      else
        let (e, settlement) := e.complete v (now 0)
        ((e, r.cancelled), if settlement = .completed then .completed else .unchanged)) hwf.nodup he).1
  rw [if_neg (not_not.2 hr)] at hans
  by_cases hc : token ∈ r.cancelled ∨ e.cancelRequested.isSome
  · rw [if_pos hc] at hans
    exact .inl (congrArg Answer.decision hans)
  · rw [if_neg hc] at hans
    rw [not_or, Bool.not_eq_true, Option.isSome_eq_false_iff, Option.isNone_iff_eq_none] at hc
    simp only [TaskEntry.complete, if_neg (not_not.2 hr), hc.2, if_true] at hans
    exact .inr (congrArg Answer.decision hans)

theorem Settling.settled (h : Settling id op) (hwf : Wf r) (hl : Live r id) (now : Nat → Moment) :
    Settled id (op, (Task.step r now op).2) = true := by
  cases h with
  | finishCancelled message =>
    obtain ⟨e, he, hr⟩ := hl
    have hans := (onEntry_of_mem now (fun b : Bool => b) false
      (fun e : TaskEntry V => (((e.finishCancelled message (now 0)).1, r.cancelled),
        (e.finishCancelled message (now 0)).2)) hwf.nodup he).1
    rw [finishCancelled_settles hr] at hans
    exact Bool.and_eq_true_iff.2 ⟨decide_eq_true rfl, hans⟩
  | fail error =>
    obtain ⟨e, he, hr⟩ := hl
    exact Bool.and_eq_true_iff.2 ⟨decide_eq_true rfl,
      decide_eq_true ((settle_answer hwf he now _).trans_ne (fail_settles hr error (now 0)))⟩
  | toolError result token message =>
    obtain ⟨e, he, hr⟩ := hl
    refine Bool.and_eq_true_iff.2 ⟨decide_eq_true rfl, decide_eq_true ((settle_answer hwf he now _).trans_ne ?_)⟩
    split
    · simp [finishCancelled_settles hr]
    · exact complete_settles hr result (now 0)
  | failAfterCleanupError error =>
    rw [failAfterCleanupError_answer hwf hl now error]
    exact Bool.and_eq_true_iff.2 ⟨decide_eq_true rfl, rfl⟩

end Registry

/-! ### The steps of the task -/

/-- What a step of the task can do. -/
inductive Move (s : Shared) (now : Nat → Moment) : Pc → Shared → Pc → Prop
  | quiet {pc pc' : Pc} (hphase : pc'.phase = pc.phase) (hp : pc.phase = .before ∨ ∃ g, pc.phase = .own g) :
      Move s now pc s pc'
  | message {pc pc' : Pc} (m : String) (hphase : pc'.phase = pc.phase)
      (hp : pc.phase = .before ∨ ∃ g, pc.phase = .own g) : Move s now pc (s.updateMessage now m) pc'
  | sendOpen {s' : Shared} (h : s.send (.openIdb s.openPath) = some s') : Move s now .openSend s' .openWait
  | opened {db : OpenedDatabase} (h : s.response = some (.opened (.ok db))) : Move s now .openWait s (.opened db)
  | sendClose {g : Nat} {why : Cleanup} {s' : Shared} (h : s.send (.closeIfGeneration g) = some s') :
      Move s now (.closeSend g why) s' (.closeWait g why)
  | closeAnswered {g : Nat} {why : Cleanup} {r : ConditionalCloseResult}
      (h : s.response = some (.conditional r)) : Move s now (.closeWait g why) s (.closeDone g why (.ok r))
  | closeNotSent {g : Nat} {why : Cleanup} (e : ToolError) :
      Move s now (.closeSend g why) s (.closeDone g why (.error e))
  | closeLost {g : Nat} {why : Cleanup} (e : ToolError) (h : s.stopped = true) :
      Move s now (.closeWait g why) s (.closeDone g why (.error e))
  | pending {db : OpenedDatabase} {images : List String} {ready : Option Bool}
      (h : (Task.step s.registry now (.completeOrDeferCancellation s.id (.loaded db.path images ready)
        s.cancelToken)).2 = .decision .cancellationPending) :
      Move s now (.complete db images ready)
        (s.call now (.completeOrDeferCancellation s.id (.loaded db.path images ready) s.cancelToken))
        (.closeSend db.generation .cancelled)
  | completed {db : OpenedDatabase} {images : List String} {ready : Option Bool}
      (h : (Task.step s.registry now (.completeOrDeferCancellation s.id (.loaded db.path images ready)
        s.cancelToken)).2 ≠ .decision .cancellationPending) :
      Move s now (.complete db images ready)
        (s.settle now (.completeOrDeferCancellation s.id (.loaded db.path images ready) s.cancelToken)).1
        (s.settle now (.completeOrDeferCancellation s.id (.loaded db.path images ready) s.cancelToken)).2
  | settleBefore {pc : Pc} {op : Op Value} (hop : Settling s.id op) (hp : pc.phase = .before) :
      Move s now pc (s.settle now op).1 (s.settle now op).2
  | settleOpen {op : Op Value} (hop : Settling s.id op)
      (h : (∃ e, s.response = some (.opened (.error e))) ∨ s.stopped = true ∧ s.response = none) :
      Move s now .openWait (s.settle now op).1 (s.settle now op).2
  | settleClosed {g : Nat} {why : Cleanup} {r : Except ToolError ConditionalCloseResult} :
      Move s now (.closeDone g why r) (s.settle now (why.settleOp s g r)).1 (s.settle now (why.settleOp s g r)).2

theorem unlessCancelled_move {pc next : Pc} {g : Nat} (hphase : pc.phase = .own g) (hnext : next.phase = .own g)
    (h : some (s.unlessCancelled g next) = some (s', pc')) : Move s now pc s' pc' := by
  unfold Shared.unlessCancelled at h
  obtain ⟨rfl, rfl⟩ := Prod.mk.inj (Option.some.inj h)
  refine .quiet ?_ (.inr ⟨g, hphase⟩)
  split
  · exact hphase.symm
  · exact hnext.trans hphase.symm

theorem settle_move {pc : Pc} {op : Op Value} (hm : Move s now pc (s.settle now op).1 (s.settle now op).2)
    (h : some (s.settle now op) = some (s', pc')) : Move s now pc s' pc' := by
  rw [Option.some.inj h] at hm
  exact hm

/-- The checks of the token that clean up with the database still in hand. -/
theorem cleanUp_move {pc : Pc} {g : Nat} (hphase : pc.phase = .own g) :
    Move s now pc s (.closeSend g .cancelled) :=
  .quiet hphase.symm (.inr ⟨g, hphase⟩)

theorem pcStep_move {e : Event} (h : pcStep s now pc e = some (s', pc')) : Move s now pc s' pc' := by
  unfold pcStep at h
  split at h
  -- before the open
  · split at h
    · exact settle_move (.settleBefore (.finishCancelled _) rfl) h
    · split at h <;> cases h <;> exact .message _ rfl (.inl rfl)
  · cases h; exact .quiet rfl (.inl rfl)
  · cases h; exact .quiet rfl (.inl rfl)
  · cases h; exact .quiet rfl (.inl rfl)
  · cases h; exact .quiet rfl (.inl rfl)
  · split at h
    · cases h; exact .quiet rfl (.inl rfl)
    · cases h
  · exact settle_move (.settleBefore (.fail _) rfl) h
  · exact settle_move (.settleBefore (.finishCancelled _) rfl) h
  · split at h
    · exact settle_move (.settleBefore (.finishCancelled _) rfl) h
    · cases h; exact .quiet rfl (.inl rfl)
  · split at h
    · exact settle_move (.settleBefore (.toolError _ _ _) rfl) h
    · cases h; exact .message _ rfl (.inl rfl)
  -- the open
  · obtain ⟨s₁, hs, heq⟩ := Option.map_eq_some_iff.1 h
    cases heq
    exact .sendOpen hs
  · split at h
    · exact settle_move (.settleBefore (.toolError _ _ _) rfl) h
    · cases h
  · split at h
    · exact settle_move (.settleBefore (.toolError _ _ _) rfl) h
    · cases h
  · split at h
    · rename_i db hr
      cases h; exact .opened hr
    · rename_i e hr
      exact settle_move (.settleOpen (.toolError _ _ _) (.inl ⟨e, hr⟩)) h
    · cases h
  · split at h
    · rename_i hlost
      exact settle_move (.settleOpen (.toolError _ _ _) (.inr hlost)) h
    · cases h
  · rename_i db
    split at h
    · cases h; exact cleanUp_move rfl
    · split at h <;> cases h
      · exact .message _ rfl (.inr ⟨_, rfl⟩)
      · exact .quiet rfl (.inr ⟨_, rfl⟩)
  -- the images
  · cases h; exact .quiet rfl (.inr ⟨_, rfl⟩)
  · rename_i db r
    refine unlessCancelled_move rfl ?_ h
    cases r <;> rfl
  · cases h; exact .quiet rfl (.inr ⟨_, rfl⟩)
  · split at h <;> cases h
    · exact cleanUp_move rfl
    · exact .message _ rfl (.inr ⟨_, rfl⟩)
  · cases h; exact .quiet rfl (.inr ⟨_, rfl⟩)
  · rename_i r
    refine unlessCancelled_move rfl ?_ h
    cases r <;> rfl
  · cases h; exact .quiet rfl (.inr ⟨_, rfl⟩)
  · exact unlessCancelled_move rfl rfl h
  · exact unlessCancelled_move rfl rfl h
  · simp only at h
    split at h
    · rename_i hans
      cases h
      exact .pending hans
    · rename_i hans
      exact settle_move (.completed hans) h
  -- the close
  · obtain ⟨s₁, hs, heq⟩ := Option.map_eq_some_iff.1 h
    cases heq
    exact .sendClose hs
  · split at h
    · cases h; exact .closeNotSent _
    · cases h
  · split at h
    · cases h; exact .closeNotSent _
    · cases h
  · split at h
    · rename_i r hr
      cases h; exact .closeAnswered hr
    · cases h
  · split at h
    · rename_i hlost
      cases h; exact .closeLost _ hlost.1
    · cases h
  · exact settle_move .settleClosed h
  · cases h

/-! ### What a step keeps -/

theorem LoopInv.congr (hl : LoopInv s) (hloop : s'.loop = s.loop) (hcreated : s'.created = s.created)
    (hclosed : s'.closed = s.closed) : LoopInv s' := by
  constructor
  · rw [hloop]; exact hl.generation
  · rw [hloop, hcreated]; exact hl.known
  · rw [hloop, hcreated]; exact hl.bound
  · rw [hcreated]; exact hl.unique
  · rw [hclosed, hcreated]; exact hl.closed

theorem Other.call (s : Shared) (now : Nat → Moment) (op : Op Value) : Other s (s.call now op) :=
  ⟨rfl, fun _ => .rfl, rfl, Nat.le_refl _, fun _ _ h => h, id,
    fun _ h => .inl ⟨h.queue, h.response, h.running⟩, fun h => ⟨h.idle, h.response, h.stopped⟩⟩

/-- A request of another session is queued. -/
theorem Other.request (s : Shared) (req : IdaRequest) : Other s { s with queue := s.queue ++ [(false, req)] } := by
  have hidle : Idle s → ∀ x ∈ s.queue ++ [(false, req)], x.1 = false := by
    intro h x hx
    rcases List.mem_append.1 hx with hx | hx
    · exact h x hx
    · rw [List.mem_singleton.1 hx]
  refine ⟨rfl, fun _ => .rfl, rfl, Nat.le_refl _, fun _ _ h => h, hidle, fun req' h => .inl ?_, fun h =>
    ⟨hidle h.idle, h.response, h.stopped⟩⟩
  obtain ⟨a, b, hab, ha, hb⟩ := h.queue
  refine ⟨⟨a, b ++ [(false, req)], ?_, ha, ?_⟩, h.response, h.running⟩
  · rw [hab, List.append_assoc, List.cons_append]
  · intro x hx
    rcases List.mem_append.1 hx with hx | hx
    · exact hb x hx
    · rw [List.mem_singleton.1 hx]

/-- The task's request joins the queue. -/
theorem send_queued {req : IdaRequest} (hidle : Idle s) (h : s.send req = some s') :
    Queued s' req ∧ s'.loop = s.loop ∧ s'.created = s.created ∧ s'.closed = s.closed ∧ s'.openPath = s.openPath := by
  unfold Shared.send at h
  split at h
  · rename_i hroom
    cases h
    exact ⟨⟨⟨s.queue, [], rfl, hidle, nofun⟩, rfl, hroom.2⟩, rfl, rfl, rfl, rfl⟩
  · cases h

theorem send_registry {req : IdaRequest} (h : s.send req = some s') :
    s'.registry = s.registry ∧ s'.calls = s.calls ∧ s'.id = s.id := by
  unfold Shared.send at h
  split at h
  · cases h; exact ⟨rfl, rfl, rfl⟩
  · cases h

/-- The answer to the task's open. -/
theorem PhaseInv.openedBy (hp : PhaseInv s .opening) {r : Except ToolError OpenedDatabase}
    (hr : s.response = some (.opened r)) : Idle s ∧ OpenedBy s r := by
  rcases hp with ⟨-, hq | hlost⟩ | ⟨hidle, r', hr', ho⟩
  · rw [hq.response] at hr; cases hr
  · rw [hlost.response] at hr; cases hr
  · rw [hr'] at hr
    cases hr
    exact ⟨hidle, ho⟩

theorem PhaseInv.lost (hp : PhaseInv s .opening) (hstopped : s.stopped = true) (hr : s.response = none) :
    Idle s ∧ OwnsNone s := by
  rcases hp with ⟨hnone, hq | hlost⟩ | ⟨-, r', hr', -⟩
  · rw [hq.running] at hstopped; cases hstopped
  · exact ⟨hlost.idle, hnone⟩
  · rw [hr'] at hr; cases hr

theorem Move.phase (hm : Move s now pc s' pc') (hl : LoopInv s) (hp : PhaseInv s pc.phase) :
    LoopInv s' ∧ PhaseInv s' pc'.phase := by
  have hcall : ∀ op, LoopInv (s.call now op) := fun op => hl.congr rfl rfl rfl
  have hsettled : ∀ op, Idle s → PhaseInv (s.settle now op).1 (s.settle now op).2.phase := fun op h => h
  cases hm with
  | quiet hphase _ => exact ⟨hl, hphase ▸ hp⟩
  | message m hphase _ => exact ⟨hcall _, hphase ▸ (Other.call s now _).phase hl hp⟩
  | sendOpen h =>
    obtain ⟨hq, hloop, hcreated, hclosed, hpath⟩ := send_queued hp.1 h
    refine ⟨hl.congr hloop hcreated hclosed, .inl ⟨?_, .inl ?_⟩⟩
    · intro g hg
      exact hp.2 g (hcreated ▸ hg)
    · rw [hpath]; exact hq
  | opened h =>
    obtain ⟨hidle, ho⟩ := PhaseInv.openedBy hp h
    exact ⟨hl, hidle, ho.ok _ rfl⟩
  | sendClose h =>
    obtain ⟨hq, hloop, hcreated, hclosed, -⟩ := send_queued hp.1 h
    refine ⟨hl.congr hloop hcreated hclosed, fun g' => ?_, .inl hq⟩
    rw [hcreated]
    exact hp.2 g'
  | @closeAnswered g why r h =>
    obtain ⟨ho, hq | hlost | ⟨hidle, -, hg⟩⟩ := hp
    · rw [hq.response] at h; cases h
    · rw [hlost.response] at h; cases h
    · exact ⟨hl, hidle, ho, fun _ => hg⟩
  | closeNotSent e => exact ⟨hl, hp.1, hp.2, nofun⟩
  | closeLost e h =>
    obtain ⟨ho, hq | hlost | ⟨hidle, -, -⟩⟩ := hp
    · rw [hq.running] at h; cases h
    · exact ⟨hl, hlost.idle, ho, nofun⟩
    · exact ⟨hl, hidle, ho, nofun⟩
  | pending _ => exact ⟨hcall _, (Other.call s now _).phase hl hp⟩
  | completed _ => exact ⟨hcall _, hsettled _ hp.1⟩
  | settleBefore _ hbefore =>
    rw [hbefore] at hp
    exact ⟨hcall _, hsettled _ hp.1⟩
  | settleOpen _ h =>
    refine ⟨hcall _, hsettled _ ?_⟩
    rcases h with ⟨e, he⟩ | ⟨hstopped, hnone⟩
    · exact (PhaseInv.openedBy hp he).1
    · exact (PhaseInv.lost hp hstopped hnone).1
  | settleClosed => exact ⟨hcall _, hsettled _ hp.1⟩

/-- The registry since the task began. -/
structure RegInv (s : Shared) : Prop where
  wf : Wf s.registry
  run : ∃ r, Wf r ∧ Live r s.id ∧ Run s.id r s.calls s.registry

theorem RegInv.call (h : RegInv s) {op : Op Value} (hf : Fresh s.registry op) (hne : op.newId ≠ some s.id) :
    RegInv (s.call now op) := by
  obtain ⟨r, hr, hlive, hrun⟩ := h.run
  exact ⟨h.wf.step hf, r, hr, hlive, hrun.step hf hne⟩

/-- A call that creates nothing. -/
theorem RegInv.call_of_none (h : RegInv s) {op : Op Value} (hnew : op.newId = none) : RegInv (s.call now op) :=
  h.call (fun _ hid => by rw [hnew] at hid; cases hid) (by rw [hnew]; nofun)

/-- The task runs and was not settled, or it was settled once. -/
theorem RegInv.count (h : RegInv s) :
    (Live s.registry s.id ∧ s.calls.countP (Settled s.id) = 0) ∨
      (¬ Live s.registry s.id ∧ s.calls.countP (Settled s.id) = 1) := by
  obtain ⟨r, hr, hlive, hrun⟩ := h.run
  exact run_settled hr hlive hrun

theorem RegInv.live_call (h : RegInv s) (hlive : Live s.registry s.id) {op : Op Value} (hnew : op.newId = none)
    (hop : Settled s.id (op, (Task.step s.registry now op).2) = false) : Live (s.call now op).registry s.id := by
  have hlaw : LiveLaw (Settled s.id (op, (Task.step s.registry now op).2)) s.registry
      (Task.step s.registry now op).1 s.id :=
    step_live now h.wf (fun _ hid => by rw [hnew] at hid; cases hid) (by rw [hnew]; nofun)
  rw [LiveLaw, hop, if_neg Bool.false_ne_true] at hlaw
  exact hlaw.2 hlive

/-- How the task was settled: with the success value, as Failed because the close failed, or with its own
database not open. -/
structure Final (s : Shared) (call : Op Value × Answer Value) (current : Option Nat) : Prop where
  settled : Settled s.id call = true
  called : call ∈ s.calls
  outcome : (∃ path images ready,
      call = (.completeOrDeferCancellation s.id (.loaded path images ready) s.cancelToken, .decision .completed)) ∨
    (∃ error, call = (.failAfterCleanupError s.id error, .settlement .failed)) ∨
    ∀ g, (true, g) ∈ s.created → current ≠ some g

theorem Final.other {call : Op Value × Answer Value} {current : Option Nat} (h : Final s call current)
    (hid : s'.id = s.id) (htoken : s'.cancelToken = s.cancelToken) (hcalls : s.calls ⊆ s'.calls)
    (hcreated : ∀ g, (true, g) ∈ s'.created ↔ (true, g) ∈ s.created) : Final s' call current where
  settled := hid ▸ h.settled
  called := hcalls h.called
  outcome := by
    rw [hid, htoken]
    exact h.outcome.imp_right (Or.imp_right fun ho g hg => ho g ((hcreated g).1 hg))

/-- The settling call itself. -/
theorem Final.settle {op : Op Value} (hop : Settled s.id (op, (Task.step s.registry now op).2) = true)
    (houtcome : (∃ path images ready, (op, (Task.step s.registry now op).2) =
        (.completeOrDeferCancellation s.id (.loaded path images ready) s.cancelToken, .decision .completed)) ∨
      (∃ error, (op, (Task.step s.registry now op).2) =
        (.failAfterCleanupError s.id error, .settlement .failed)) ∨
      ∀ g, (true, g) ∈ s.created → s.current ≠ some g) :
    ∀ call current, (s.settle now op).2 = .done call current → Final (s.settle now op).1 call current := by
  rintro call current ⟨⟩
  exact ⟨hop, List.mem_append_right _ (List.mem_singleton_self _), houtcome⟩

theorem Shared.current_ne (h : s.loop.generation ≠ some g) : s.current ≠ some g := by
  unfold Shared.current
  split
  · exact h
  · nofun

theorem settleOp_cases (why : Cleanup) (g : Nat) (r : Except ToolError ConditionalCloseResult) :
    Settling s.id (why.settleOp s g r) ∧
      ((∃ result, r = .ok result) ∨ ∃ error, why.settleOp s g r = .failAfterCleanupError s.id error) := by
  cases why with
  | cancelled =>
    match r with
    | .ok .closed => exact ⟨.finishCancelled _, .inl ⟨_, rfl⟩⟩
    | .ok .notCurrent => exact ⟨.finishCancelled _, .inl ⟨_, rfl⟩⟩
    | .error e => exact ⟨.failAfterCleanupError _, .inr ⟨_, rfl⟩⟩
  | toolError e =>
    cases r with
    | ok result => exact ⟨.toolError _ _ _, .inl ⟨_, rfl⟩⟩
    | error close => exact ⟨.failAfterCleanupError _, .inr ⟨_, rfl⟩⟩

/-- A step of the task: the registry, and the settlement if it is one. -/
theorem Move.registry (hm : Move s now pc s' pc') (hp : PhaseInv s pc.phase) (hreg : RegInv s)
    (hlive : Live s.registry s.id) :
    RegInv s' ∧ (pc'.phase ≠ .settled → Live s'.registry s'.id) ∧
      ∀ call current, pc' = .done call current → Final s' call current := by
  -- a settling call, with its outcome
  have hsettle : ∀ op, Settling s.id op →
      ((∃ error, op = .failAfterCleanupError s.id error) ∨ ∀ g, (true, g) ∈ s.created → s.current ≠ some g) →
      RegInv (s.settle now op).1 ∧ ((s.settle now op).2.phase ≠ .settled →
        Live (s.settle now op).1.registry (s.settle now op).1.id) ∧
      ∀ call current, (s.settle now op).2 = .done call current → Final (s.settle now op).1 call current := by
    intro op hop houtcome
    refine ⟨hreg.call_of_none hop.newId, fun h => absurd rfl h,
      Final.settle (hop.settled hreg.wf hlive now) (.inr ?_)⟩
    rcases houtcome with ⟨error, rfl⟩ | hclosed
    · exact .inl ⟨error, by rw [failAfterCleanupError_answer hreg.wf hlive now error]⟩
    · exact .inr hclosed
  -- a request, with the registry as it was
  have hsend : ∀ {req}, s.send req = some s' → pc'.phase ≠ .settled → RegInv s' ∧
      (pc'.phase ≠ .settled → Live s'.registry s'.id) ∧
      ∀ call current, pc' = .done call current → Final s' call current := by
    intro req h hne
    obtain ⟨hregistry, hcalls, hid⟩ := send_registry h
    refine ⟨⟨hregistry ▸ hreg.wf, ?_⟩, fun _ => by rw [hregistry, hid]; exact hlive, ?_⟩
    · rw [hregistry, hcalls, hid]; exact hreg.run
    · rintro call current rfl
      exact absurd rfl hne
  cases hm with
  | quiet hphase hp₀ =>
    refine ⟨hreg, fun _ => hlive, ?_⟩
    rintro call current rfl
    rcases hp₀ with h | ⟨g, h⟩ <;> rw [h] at hphase <;> cases hphase
  | message m hphase hp₀ =>
    unfold Shared.updateMessage
    refine ⟨hreg.call_of_none rfl, fun _ => hreg.live_call hlive rfl (by simp [Settled, Op.settles]), ?_⟩
    rintro call current rfl
    rcases hp₀ with h | ⟨g, h⟩ <;> rw [h] at hphase <;> cases hphase
  | sendOpen h => exact hsend h (by simp [Pc.phase])
  | sendClose h => exact hsend h (by simp [Pc.phase])
  | opened h => exact ⟨hreg, fun _ => hlive, by simp⟩
  | closeAnswered h => exact ⟨hreg, fun _ => hlive, by simp⟩
  | closeNotSent e => exact ⟨hreg, fun _ => hlive, by simp⟩
  | closeLost e h => exact ⟨hreg, fun _ => hlive, by simp⟩
  | pending h =>
    refine ⟨hreg.call_of_none rfl, fun _ => hreg.live_call hlive rfl ?_, by simp⟩
    rw [h]
    exact Bool.and_false _
  | @completed db images ready h =>
    have hans := (completeOrDefer_answer hreg.wf hlive now _ _).resolve_left h
    refine ⟨hreg.call_of_none rfl, fun h => absurd rfl h, Final.settle ?_ (.inl ⟨db.path, images, ready, by rw [hans]⟩)⟩
    rw [hans]
    exact Bool.and_eq_true_iff.2 ⟨decide_eq_true rfl, rfl⟩
  | settleBefore hop hbefore =>
    rw [hbefore] at hp
    exact hsettle _ hop (.inr fun g hg => absurd hg (hp.2 g))
  | settleOpen hop h =>
    have hnone : OwnsNone s := by
      rcases h with ⟨e, he⟩ | ⟨hstopped, hnone⟩
      · exact (PhaseInv.openedBy hp he).2.error e rfl
      · exact (PhaseInv.lost hp hstopped hnone).2
    exact hsettle _ hop (.inr fun g hg => absurd hg (hnone g))
  | @settleClosed g why r =>
    obtain ⟨hop, ⟨result, rfl⟩ | herror⟩ := settleOp_cases (s := s) why g r
    · refine hsettle _ hop (.inr fun g' hg' => ?_)
      rw [(hp.2.1 g').1 hg']
      exact Shared.current_ne (hp.2.2 rfl)
    · exact hsettle _ hop (.inl herror)

/-! ### The way to the settlement -/

/-- How many steps the task can still make; `n` is the number of frameworks. -/
def Pc.rank (n : Nat) : Pc → Nat
  | .done .. => 0
  | .closeDone .. | .idatStop _ => 1
  | .closeWait .. => 2
  | .closeSend .. => 3
  | .complete .. => 4
  | .lastCheck .. => 5
  | .statusCheck .. => 6
  | .statusWait .. => 7
  | .frameworkCheck _ _ rest => 8 + 3 * rest.length
  | .frameworkLoaded _ _ _ rest _ => 9 + 3 * rest.length
  | .frameworkWait _ _ _ rest => 10 + 3 * rest.length
  | .moduleCheck .. => 9 + 3 * n
  | .moduleWait _ => 10 + 3 * n
  | .opened _ => 11 + 3 * n
  | .openWait => 12 + 3 * n
  | .openSend => 13 + 3 * n
  | .idatOutput .. => 14 + 3 * n
  | .idatSettled .. => 15 + 3 * n
  | .idatWait => 16 + 3 * n
  | .idatSpawn => 17 + 3 * n
  | .start => 18 + 3 * n

theorem unlessCancelled_rank {n k : Nat} {next : Pc} (h : some (s.unlessCancelled g next) = some (s', pc'))
    (hnext : next.rank n < k) (hk : 3 < k) : pc'.rank n < k := by
  unfold Shared.unlessCancelled at h
  obtain ⟨-, rfl⟩ := Prod.mk.inj (Option.some.inj h)
  split
  · exact hk
  · exact hnext

theorem settle_rank {n : Nat} {op : Op Value} (h : some (s.settle now op) = some (s', pc')) : pc'.rank n = 0 := by
  obtain ⟨-, rfl⟩ := Prod.mk.inj (Option.some.inj h)
  rfl

theorem send_rank {n k : Nat} {req : IdaRequest} {next : Pc}
    (h : (s.send req).map (fun s' => (s', next)) = some (s', pc')) (hk : next.rank n < k) : pc'.rank n < k := by
  obtain ⟨s₁, -, heq⟩ := Option.map_eq_some_iff.1 h
  cases heq
  exact hk

theorem pcStep_rank {e : Event} (h : pcStep s now pc e = some (s', pc')) :
    pc'.rank s.frameworks.length < pc.rank s.frameworks.length := by
  unfold pcStep at h
  dsimp only at h
  repeat' split at h
  all_goals first
    | (cases h; done)
    | (rw [settle_rank h]; simp only [Pc.rank]; omega)
    | (cases h; simp only [Pc.rank, List.length_cons, List.length_nil]; omega)
    | (refine unlessCancelled_rank h ?_ ?_ <;> simp only [Pc.rank] <;> omega)
    | (refine send_rank h ?_; simp only [Pc.rank]; omega)

/-- A request is sent, or refused by a full queue or by a loop that has ended. -/
theorem send_cases (s : Shared) (req : IdaRequest) :
    (s.send req).isSome = true ∨ s.full = true ∨ s.stopped = true := by
  unfold Shared.send
  by_cases hroom : s.full = false ∧ s.stopped = false
  · rw [if_pos hroom]
    exact .inl rfl
  · simp only [not_and, Bool.not_eq_false] at hroom
    cases hfull : s.full with
    | true => exact .inr (.inl rfl)
    | false => exact .inr (.inr (hroom hfull))

/-- A task that is not settled can go on, or its request is in the queue. -/
theorem canStep (hp : PhaseInv s pc.phase) (hnot : pc.phase ≠ .settled) :
    (∃ e, (pcStep s now pc e).isSome = true) ∨ ∃ req, Queued s req := by
  cases pc with
  | done call current => exact absurd rfl hnot
  | idatWait => exact .inl ⟨.exited none "", rfl⟩
  | idatStop waitError => exact .inl ⟨.go, by cases waitError <;> rfl⟩
  | idatOutput code stderr =>
    refine .inl ⟨.output false none, ?_⟩
    simp only [pcStep, or_true, if_true, Option.isSome_some]
  | moduleWait db => exact .inl ⟨.image (.ok ""), rfl⟩
  | frameworkWait db images framework rest => exact .inl ⟨.image (.ok ""), rfl⟩
  | statusWait db images => exact .inl ⟨.status (.ok true), rfl⟩
  | openSend =>
    rcases send_cases s (.openIdb s.openPath) with h | h | h
    · exact .inl ⟨.go, by rw [pcStep, Option.isSome_map]; exact h⟩
    · exact .inl ⟨.busy, by rw [pcStep, if_pos h]; rfl⟩
    · exact .inl ⟨.workerClosed, by rw [pcStep, if_pos h]; rfl⟩
  | closeSend g why =>
    rcases send_cases s (.closeIfGeneration g) with h | h | h
    · exact .inl ⟨.go, by rw [pcStep, Option.isSome_map]; exact h⟩
    · exact .inl ⟨.busy, by rw [pcStep, if_pos h]; rfl⟩
    · exact .inl ⟨.workerClosed, by rw [pcStep, if_pos h]; rfl⟩
  | openWait =>
    rcases hp with ⟨-, hq | hlost⟩ | ⟨-, r, hr, -⟩
    · exact .inr ⟨_, hq⟩
    · exact .inl ⟨.workerClosed, by rw [pcStep, if_pos ⟨hlost.stopped, hlost.response⟩]; rfl⟩
    · refine .inl ⟨.go, ?_⟩
      simp only [pcStep, hr]
      cases r <;> rfl
  | closeWait g why =>
    obtain ⟨-, hq | hlost | ⟨-, ⟨r, hr⟩, -⟩⟩ := hp
    · exact .inr ⟨_, hq⟩
    · exact .inl ⟨.workerClosed, by rw [pcStep, if_pos ⟨hlost.stopped, hlost.response⟩]; rfl⟩
    · exact .inl ⟨.go, by simp only [pcStep, hr, Option.isSome_some]⟩
  | frameworkCheck db images rest =>
    refine .inl ⟨.go, ?_⟩
    cases rest with
    | nil => rfl
    | cons framework rest =>
      simp only [pcStep]
      split <;> rfl
  | _ =>
    refine .inl ⟨.go, ?_⟩
    simp only [pcStep]
    repeat' split
    all_goals rfl

/-! ### Runs -/

/-- The configurations of a run in which the task's open does not return somebody else's database. -/
structure Inv (c : Conf Shared Pc) (pc : Pc) : Prop where
  threads : c.threads = [pc]
  loop : LoopInv c.shared
  phase : PhaseInv c.shared pc.phase
  registry : RegInv c.shared
  live : pc.phase ≠ .settled → Live c.shared.registry c.shared.id
  final : ∀ call current, pc = .done call current → Final c.shared call current

theorem Init.inv {c : Conf Shared Pc} (h : Init c) : Inv c .start := by
  have hnone : OwnsNone c.shared := fun g hg => nomatch (h.created _ hg).1
  refine ⟨h.threads, ⟨?_, ?_, ?_, ?_, ?_⟩, ⟨h.queue, hnone⟩, ⟨Wf.reachable h.registry, ?_⟩, fun _ => h.running,
    fun _ _ hd => nomatch hd⟩
  · rw [← Option.isSome_iff_ne_none, ← Option.isSome_iff_ne_none, h.generation]
  · exact fun g hg => ⟨false, h.known g hg⟩
  · exact fun x hx => (h.created x hx).2
  · intro b b' g hb hb'
    exact (h.created _ hb).1.trans (h.created _ hb').1.symm
  · exact fun g hg => nomatch h.closed _ hg
  · rw [h.calls]
    exact ⟨_, Wf.reachable h.registry, h.running, .nil _⟩

/-- A step of the task. -/
theorem Inv.task {c : Conf Shared Pc} {e : Event} (hi : Inv c pc) (h : pcStep c.shared now pc e = some (s', pc')) :
    Inv ⟨s', [pc']⟩ pc' := by
  have hm := pcStep_move h
  have hne : pc.phase ≠ .settled := by
    intro hd
    cases pc with
    | done call current => cases e <;> cases h
    | _ => cases hd
  obtain ⟨hl, hp⟩ := hm.phase hi.loop hi.phase
  obtain ⟨hreg, hlive, hfinal⟩ := hm.registry hi.phase hi.registry (hi.live hne)
  exact ⟨rfl, hl, hp, hreg, hlive, hfinal⟩

/-- What a turn of the loop leaves as it is. -/
theorem serve_same {run : OpenRun} (h : s.serve run = some s') :
    (s'.id = s.id ∧ s'.cancelToken = s.cancelToken ∧ s'.registry = s.registry ∧ s'.calls = s.calls) ∧
      s'.source = s.source := by
  have hrespond : ∀ (t : Shared) b r, ((t.respond b r).id = t.id ∧ (t.respond b r).cancelToken = t.cancelToken ∧
      (t.respond b r).registry = t.registry ∧ (t.respond b r).calls = t.calls) ∧ (t.respond b r).source = t.source := by
    intro t b r
    cases b <;> exact ⟨⟨rfl, rfl, rfl, rfl⟩, rfl⟩
  unfold Shared.serve at h
  split at h
  · cases h
  · rename_i b req queue hq
    dsimp only at h
    cases req with
    | openIdb path => cases h; exact hrespond _ _ _
    | close => cases h; exact ⟨⟨rfl, rfl, rfl, rfl⟩, rfl⟩
    | closeIfGeneration g =>
      cases h
      unfold Shared.serveCloseIfGeneration
      dsimp only
      split
      · exact hrespond (Shared.serveClose _ b) _ _
      · exact hrespond { s with queue } _ _
    | shutdown => cases h; exact ⟨⟨rfl, rfl, rfl, rfl⟩, rfl⟩
    | other => cases h; exact ⟨⟨rfl, rfl, rfl, rfl⟩, rfl⟩

/-- A step of somebody else that leaves the registry as it is. -/
theorem Inv.other {c : Conf Shared Pc} (hi : Inv c pc) (hl : LoopInv s') (hp : PhaseInv s' pc.phase)
    (ho : Idle c.shared → Other c.shared s')
    (hsame : s'.id = c.shared.id ∧ s'.cancelToken = c.shared.cancelToken ∧ s'.registry = c.shared.registry ∧
      s'.calls = c.shared.calls) : Inv ⟨s', [pc]⟩ pc := by
  obtain ⟨hid, htoken, hregistry, hcalls⟩ := hsame
  refine ⟨rfl, hl, hp, ⟨hregistry ▸ hi.registry.wf, ?_⟩, fun hne => ?_, ?_⟩
  · rw [hid, hregistry, hcalls]
    exact hi.registry.run
  · rw [hid, hregistry]
    exact hi.live hne
  · rintro call current rfl
    exact (hi.final call current rfl).other hid htoken (hcalls ▸ List.Subset.refl _) (ho hi.phase).created

theorem Inv.env {c c' : Conf Shared Pc} {x : Env} (hi : Inv c pc) (hown : sharesDatabase c.shared x = false)
    (h : program.step c (.env x) = some c') : Inv c' pc := by
  obtain ⟨r, hr, rfl⟩ := step_env_iff.1 h
  cases x with
  | request req =>
    simp only [program, DscTask.env] at hr
    split at hr
    · cases hr
      rw [List.append_nil, hi.threads]
      have ho := Other.request c.shared req
      exact hi.other (hi.loop.congr rfl rfl rfl) (ho.phase hi.loop hi.phase) (fun _ => ho) ⟨rfl, rfl, rfl, rfl⟩
    · cases hr
  | serve run =>
    obtain ⟨s', hs, rfl⟩ := Option.map_eq_some_iff.1 hr
    rw [List.append_nil, hi.threads]
    obtain ⟨hl, hp, ho⟩ := serve_inv hi.loop hi.phase hown hs
    exact hi.other hl hp ho (serve_same hs).1
  | registry now op =>
    simp only [program, DscTask.env] at hr
    split at hr
    · rename_i hallows
      cases hr
      rw [List.append_nil, hi.threads]
      obtain ⟨hsettles, hnew, hfresh⟩ := of_decide_eq_true hallows
      have ho := Other.call c.shared now op
      refine ⟨rfl, hi.loop.congr rfl rfl rfl, ho.phase hi.loop hi.phase, hi.registry.call hfresh hnew,
        fun hne => ?_, ?_⟩
      · exact (step_live_other hi.registry.wf hfresh hnew hsettles).2 (hi.live hne)
      · rintro call current rfl
        exact (hi.final call current rfl).other rfl rfl (List.subset_append_left _ _) ho.created
    · cases hr

theorem inv_of_reachable {c : Conf Shared Pc} (hr : program.Reachable Init OpensItself c) : ∃ pc, Inv c pc := by
  induction hr with
  | init h => exact ⟨.start, h.inv⟩
  | @step c c' a _ hown hstep ih =>
    obtain ⟨pc, hi⟩ := ih
    cases a with
    | env x => exact ⟨pc, hi.env hown hstep⟩
    | thread i e =>
      obtain ⟨l, o, hl, ho, rfl⟩ := step_thread_iff.1 hstep
      rw [hi.threads] at hl
      obtain ⟨hi₀, rfl⟩ := List.getElem?_eq_some_iff.1 hl
      obtain rfl : i = 0 := by simpa using hi₀
      obtain ⟨⟨s', pc'⟩, hs, rfl⟩ := Option.map_eq_some_iff.1 ho
      refine ⟨pc', ?_⟩
      rw [Conf.after, hi.threads]
      exact hi.task hs

/-- In every run in which the task's open never finds its database open already, and in every configuration of
it: the task has not been settled and runs, or it has been settled once; it was settled with the success value,
as Failed because its close failed, or while the lifetime its open created was not open; the task closed no
lifetime that another open created. A task that is not settled can make a step or waits for the loop to take
its request, and each step brings it nearer to its end. -/
theorem dsc_cleanup {c : Conf Shared Pc} (hr : program.Reachable Init OpensItself c) :
    ∃ pc, c.threads = [pc] ∧
      ((∀ call current, pc ≠ .done call current) →
        Live c.shared.registry c.shared.id ∧ c.shared.calls.countP (Settled c.shared.id) = 0 ∧
        ∀ now, (∃ e, (pcStep c.shared now pc e).isSome = true) ∨ ∃ req, (true, req) ∈ c.shared.queue) ∧
      (∀ call current, pc = .done call current →
        ¬ Live c.shared.registry c.shared.id ∧ c.shared.calls.countP (Settled c.shared.id) = 1 ∧
        Final c.shared call current) ∧
      (∀ g, (true, g) ∈ c.shared.closed → (true, g) ∈ c.shared.created ∧ (false, g) ∉ c.shared.created) ∧
      ∀ now e s' pc', pcStep c.shared now pc e = some (s', pc') →
        pc'.rank c.shared.frameworks.length < pc.rank c.shared.frameworks.length := by
  obtain ⟨pc, hi⟩ := inv_of_reachable hr
  refine ⟨pc, hi.threads, fun hnot => ?_, ?_, fun g hg => ?_, fun _ _ _ _ h => pcStep_rank h⟩
  · have hne : pc.phase ≠ .settled := by
      intro hd
      cases pc with
      | done call current => exact hnot call current rfl
      | _ => cases hd
    have hlive := hi.live hne
    refine ⟨hlive, (hi.registry.count.resolve_right fun h => h.1 hlive).2, fun now => ?_⟩
    refine (canStep hi.phase hne).imp_right fun ⟨req, hq⟩ => ⟨req, ?_⟩
    obtain ⟨a, b, hab, -⟩ := hq.queue
    rw [hab]
    exact List.mem_append_right _ List.mem_cons_self
  · rintro call current rfl
    have hfinal := hi.final call current rfl
    -- a settling call is among the calls
    have hcount : c.shared.calls.countP (Settled c.shared.id) ≠ 0 := by
      intro h0
      exact (List.countP_eq_zero.1 h0) call hfinal.called hfinal.settled
    rcases hi.registry.count with ⟨-, h0⟩ | ⟨hdead, h1⟩
    · exact absurd h0 hcount
    · exact ⟨hdead, h1, hfinal⟩
  · have hown := hi.loop.closed g hg
    exact ⟨hown, fun hother => nomatch hi.loop.unique _ _ _ hown hother⟩

/-! ### A task on a database of its own, and on another session's -/

/-- The registry with the task's entry. -/
def taskRegistry : TaskRegistry Value :=
  (Task.step {} still (.createKeyed .runtime "dsc" "/a.i64" "Queued" "1")).1

/-- The task is to open `/a.i64`; the loop has `loop`, whose lifetimes others created. -/
def taskServer (loop : LoopState) (created : List (Bool × Nat)) : Conf Shared Pc :=
  ⟨{ id := "dsc-1", source := .directRawDsc "/a.i64", module := "m", frameworks := [], cancelToken := 7
     registry := taskRegistry, calls := [], files := ⟨none, fun _ => true, fun _ => none⟩, loop, stopped := false
     queue := [], capacity := 8, response := none, created, closed := [] }, [.start]⟩

theorem taskRegistry_reachable : Task.Reachable taskRegistry := .step .new fun _ _ => by simp [TaskRegistry.keys]

theorem taskRegistry_running : ∃ e, ("dsc-1", e) ∈ taskRegistry.entries ∧ e.Running := by
  refine ⟨_, List.mem_singleton.2 rfl, ?_⟩
  decide

theorem freshServer_init : Init (taskServer {} []) :=
  ⟨rfl, taskRegistry_reachable, taskRegistry_running, rfl, rfl, rfl, nofun, nofun, nofun, nofun⟩

theorem sharedServer_init : Init (taskServer ⟨some "/a.i64", some 1, 1⟩ [(false, 1)]) := by
  refine ⟨rfl, taskRegistry_reachable, taskRegistry_running, rfl, rfl, rfl, ?_, ?_, nofun, nofun⟩
  · rintro g ⟨⟩
    exact List.mem_singleton_self _
  · intro x hx
    rw [List.mem_singleton.1 hx]
    exact ⟨rfl, Nat.le_refl 1⟩

/-- The task opens its database, its token is cancelled, and it closes the database and settles. -/
def cancelledRun : List (Act ((Nat → Moment) × Event) Env) :=
  [.thread 0 (still, .go), .thread 0 (still, .go), .env (.serve (.opened "/a.i64")), .thread 0 (still, .go),
    .env (.registry still (.cancelToken 7)), .thread 0 (still, .go), .thread 0 (still, .go), .env (.serve .cancelled),
    .thread 0 (still, .go), .thread 0 (still, .go)]

def isSettled (c : Conf Shared Pc) : Bool :=
  match c.threads with
  | [.done ..] => true
  | _ => false

theorem dsc_cleanup_cancelled :
    ∃ c, program.Reachable Init OpensItself c ∧ isSettled c = true ∧
      c.shared.calls.countP (Settled c.shared.id) = 1 ∧ (false, 1) ∉ c.shared.created := by
  obtain ⟨c, hr, hdone, hclosed⟩ := Program.Reachable.of_runIf_any (P := program) (C := OpensItself)
    (r := cancelledRun) (p := fun c => isSettled c = true ∧ (true, 1) ∈ c.shared.closed) freshServer_init
    (by decide +kernel)
  obtain ⟨pc, hthreads, -, hsettled, htheirs, -⟩ := dsc_cleanup hr
  refine ⟨c, hr, hdone, ?_, (htheirs 1 hclosed).2⟩
  rw [isSettled, hthreads] at hdone
  cases pc with
  | done call current => exact (hsettled call current rfl).2.1
  | _ => cases hdone

/-- Another session has the database open: the task is given its generation, is cancelled, and closes it. -/
theorem task_closes_other_database :
    ∃ c, program.Reachable Init Program.Free c ∧ (true, 1) ∈ c.shared.closed ∧ (false, 1) ∈ c.shared.created ∧
      isSettled c = true :=
  Program.Reachable.of_run_any (P := program) (r := cancelledRun)
    (p := fun c => (true, 1) ∈ c.shared.closed ∧ (false, 1) ∈ c.shared.created ∧ isSettled c = true)
    sharedServer_init (by decide +kernel)

end IdaRs.DscTask
