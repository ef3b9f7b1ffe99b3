import IdaRs.PoolLease

/-!
# Retirement of workers over whole runs

A `mark_dead` for an operation of session `A` is decided under `call_lock`, but a guard runs it from a task
of its own and `call_result_for_generation` runs it after the lock is given up. `retirement_isolated`: when no
release makes a worker idle with a retirement of it still to come, the worker is not leased to another session
when it is killed.
-/

namespace IdaRs.Pool

open Threads

variable {s s' : Shared} {i j w : Nat} {pc pc' : Pc} {new : List Pc} {c c' : Conf Shared Pc}

/-- The worker and the session of a retirement that is decided and still to come. -/
def Pc.retiring : Pc → Option (Nat × String)
  | .dying w .take after => after.session.map (w, ·)
  | .clear op _ true => some (op.worker, op.session)
  | _ => none

/-- The slot behind a spawn reservation, and the session it was spawned for. -/
def Pc.settles : Pc → Option (Nat × Option String)
  | .resDrop id true o => some (id, some o.session)
  | .install id (.ok _) (.lease l) => some (id, some l.session)
  | .install id (.ok _) (.ensure ..) => some (id, none)
  | _ => none

/-- A release makes a worker idle only while no retirement of the worker is still to come. -/
def idlesAfterRetirements (c : Conf Shared Pc) : Act Event Env → Bool
  | .thread i e =>
    match c.threads[i]? with
    | some (.relRpc rel) =>
      !(exec c.shared i (.relRpc rel) e).any (·.shared.isIdle rel.worker) ||
        c.threads.all fun pc => pc.retiring.all (·.1 ≠ rel.worker)
    | _ => true
  | .env _ => true

/-- A worker that no list of the pool names, and none will. -/
structure Shared.Off (s : Shared) (w : Nat) : Prop where
  lt : w < s.nextId
  unlisted : w ∉ s.children ++ s.spawning

theorem Shared.Off.step (h : s.Off w) (hs : Step s i pc s' pc' new) (hM : MembersTask s i pc) : s'.Off w := by
  refine ⟨h.lt.trans_le hs.nextId_le, fun hw => ?_⟩
  rcases hs.members hM hw with hw | ⟨hw, -⟩
  · exact h.unlisted hw
  · exact h.lt.ne hw

/-! ### Where retirements come from -/

/-- The step keeps what the states say about a slot. -/
def KeepsState (s s' : Shared) (w : Nat) : Prop :=
  ∀ p : ChildState → Prop, (s.SlotIs w fun slot => p slot.state) → s'.SlotIs w fun slot => p slot.state

theorem KeepsState.of_slots (h : s'.slots = s.slots) : KeepsState s s' w := fun p hp => by
  rw [Shared.SlotIs, h]; exact hp

theorem KeepsState.setCallLock (v : Nat) (holder : Option Nat) : KeepsState s (s.setCallLock v holder) w := by
  rintro p ⟨slot, hslot, hp⟩
  refine ⟨_, setSlot_get hslot, ?_⟩
  split <;> exact hp

/-- Where a retirement of `w` for `x` comes from. -/
def RetireSource (pc : Pc) (w : Nat) (x : String) : Prop :=
  pc.retiring = some (w, x) ∨ pc.calling = some (w, x) ∨ pc.closing = some w ∨ pc.killed = some w ∨
    ∃ g, pc.owned = some (w, x, g)

theorem opFailed_retiring (op : Op) (e : ToolError) : (opFailed op e).retiring = none := by
  rcases opFailed_cases op e with ⟨_, -, h⟩ | ⟨_, -, h | h⟩ <;> rw [h] <;> rfl

theorem afterDying_retiring (after : After) : (afterDying s w after).2.retiring = none := by
  rcases afterDying_pc (s := s) w after with ⟨r, he⟩ | ⟨op, e, -, he⟩ | ⟨rel, e, -, he⟩ <;> rw [he]
  exacts [rfl, opFailed_retiring op e, rfl]

theorem Step.retiring {x : String} (h : Step s i pc s' pc' new) (hr : pc'.retiring = some (w, x)) :
    KeepsState s s' w ∧ RetireSource pc w x ∨
      ∃ o : Origin, o.session = x ∧ pc = .resDrop w true o ∧ s' = s.finishReservation w none := by
  cases h
  case retire => exact .inl ⟨.of_slots rfl, .inr (.inl hr)⟩
  case relRetire => cases hr; exact .inl ⟨.of_slots rfl, .inr (.inr (.inl rfl))⟩
  case answered op ha =>
    refine .inl ⟨.setCallLock op.worker none, ?_⟩
    cases ha
    case clear => exact .inr (.inl hr)
    case failed => rw [opFailed_retiring] at hr; cases hr
    all_goals cases hr
  case clear op e retire _ =>
    cases retire with
    | false => cases hr
    | true =>
      refine .inl ⟨.of_slots ?_, .inl hr⟩
      unfold clearHandle
      split <;> rfl
  case resDrop id hasSlot y _ =>
    cases hasSlot with
    | false => cases hr
    | true => cases hr; exact .inr ⟨_, rfl, rfl, rfl⟩
  case ensured | installEnsureFailed => rw [afterDying_retiring] at hr; cases hr
  case refused => rw [opFailed_retiring] at hr; cases hr
  all_goals cases hr

theorem Pc.retireSource_of_guard {o : Origin} (h : pc.guard = some (w, o)) : RetireSource pc w o.session := by
  cases pc <;> simp only [Pc.guard, reduceCtorEq] at h
  case request => cases h; exact .inr (.inl rfl)
  case relRpc => cases h; exact .inr (.inr (.inl rfl))
  case dying v phase after =>
    cases phase with
    | take => cases after <;> cases h <;> exact .inl rfl
    | forget | ensure =>
      obtain ⟨y, -, hy⟩ := Option.map_eq_some_iff.1 h
      cases hy
      exact .inr (.inr (.inr (.inl rfl)))

theorem Step.new_retiring {m : Pc} {x : String} (h : Step s i pc s' pc' new) (hm : m ∈ new)
    (hr : m.retiring = some (w, x)) : KeepsState s s' w ∧ RetireSource pc w x := by
  cases h
  case dropGuard v y hg =>
    obtain rfl := List.mem_singleton.1 hm
    cases hr
    exact ⟨.setCallLock w none, Pc.retireSource_of_guard hg⟩
  case dropRelWait rel =>
    obtain rfl := List.mem_singleton.1 hm
    cases hr
    exact ⟨.of_slots rfl, .inr (.inr (.inr (.inr ⟨_, rfl⟩)))⟩
  case dropEnsure id hasSlot v after y hg hres =>
    rcases List.mem_cons.1 hm with rfl | hm
    · cases hr
    · obtain rfl := List.mem_singleton.1 hm
      cases hr
      refine ⟨.setCallLock w none, .inr (.inr (.inr (.inl ?_)))⟩
      cases pc <;> simp only [Pc.reservation, reduceCtorEq, Option.some.injEq, Prod.mk.injEq] at hres
      all_goals
        obtain ⟨-, -, rfl⟩ := hres
        rfl
  case relCheckIdle => obtain rfl := List.mem_singleton.1 hm; cases hr
  case dropLease => obtain rfl := List.mem_singleton.1 hm; cases hr
  case dropEnsureCleared => obtain rfl := List.mem_singleton.1 hm; cases hr
  all_goals cases hm

/-! ### Slots behind reservations -/

theorem Pc.reserved_of_settles {o : Option String} (h : pc.settles = some (w, o)) : pc.reserved = some (w, true) := by
  cases pc <;> simp only [Pc.settles, reduceCtorEq] at h
  case resDrop hasSlot _ => cases hasSlot <;> cases h; rfl
  case install result who => cases result <;> cases who <;> cases h <;> rfl

def Spawner.session : Spawner → Option String
  | .lease l => some l.session
  | .ensure .. => none

theorem Pc.settles_of_reservation {who : Spawner} (h : pc.reservation = some (w, true, who)) :
    pc.settles = some (w, who.session) := by
  cases pc <;> simp only [Pc.reservation, reduceCtorEq, Option.some.injEq, Prod.mk.injEq] at h
  case spawn => cases h.2.1
  case install result who' =>
    obtain ⟨rfl, hr, rfl⟩ := h
    cases result <;> cases who' <;> first | cases hr; done | rfl

theorem Step.settles {o : Option String} (h : Step s i pc s' pc' new) (ho : pc'.settles = some (w, o)) :
    s'.SlotIs w fun slot => ∀ y, slot.state = .leased y → o = some y := by
  have quiet : ∀ {p : Pc}, p.quiet → p.settles ≠ some (w, o) := by
    intro p hp hq
    cases p <;> first | cases hp; done | cases hq
  cases h
  case spawned id who =>
    cases who <;> cases ho <;> refine ⟨_, Function.update_self .., fun y hy => ?_⟩ <;> cases hy
    rfl
  case spawnFailed who e => cases ho
  case ensured | installEnsureFailed => exact absurd ho (quiet (afterDying_quiet ..))
  case refused => exact absurd ho (quiet (opFailed_quiet ..))
  case answered ha => exact absurd ho (quiet ha.quiet)
  case clear | resDrop => split at ho <;> cases ho
  all_goals cases ho

theorem Step.new_settles {m : Pc} {o : Option String} (h : Step s i pc s' pc' new) (hm : m ∈ new)
    (ho : m.settles = some (w, o)) :
    KeepsState s s' w ∧ ∃ o', pc.settles = some (w, o') ∧ (o' = o ∨ o' = none) := by
  cases h
  case dropLease id hasSlot l hr =>
    obtain rfl := List.mem_singleton.1 hm
    cases hasSlot <;> cases ho
    exact ⟨.of_slots rfl, _, Pc.settles_of_reservation hr, .inl rfl⟩
  case dropEnsure id hasSlot v after y hg hr =>
    rcases List.mem_cons.1 hm with rfl | hm
    · cases hasSlot <;> cases ho
      exact ⟨.setCallLock v none, _, Pc.settles_of_reservation hr, .inr rfl⟩
    · obtain rfl := List.mem_singleton.1 hm; cases ho
  case dropEnsureCleared id hasSlot v op e hr =>
    obtain rfl := List.mem_singleton.1 hm
    cases hasSlot <;> cases ho
    exact ⟨.of_slots rfl, _, Pc.settles_of_reservation hr, .inr rfl⟩
  case relCheckIdle | dropGuard | dropRelWait => obtain rfl := List.mem_singleton.1 hm; cases ho
  all_goals cases hm

/-! ### Retirement -/

/-- The slot serves nobody but `x`, and when it is idle no lease finds it. -/
def Due (s : Shared) (w : Nat) (x : String) : Prop :=
  s.SlotIs w fun slot => (∀ y, slot.state = .leased y → y = x) ∧ (slot.state = .idle → s.Off w)

structure RetireTask (s : Shared) (pc : Pc) : Prop where
  retiring : ∀ w x, pc.retiring = some (w, x) → Due s w x
  settles : ∀ w o, pc.settles = some (w, o) → s.SlotIs w fun slot => ∀ y, slot.state = .leased y → o = some y

theorem Due.step {x : String} (h : Due s w x) (hs : Step s i pc s' pc' new)
    (hfresh : ∀ id who, pc = .spawn id who → s.slots id = none) (hM : MembersTask s i pc)
    (hidle : ∀ rel, pc = .relRpc rel → rel.worker = w → ¬ s'.isIdle w) : Due s' w x := by
  obtain ⟨a, ha, hown, hoff⟩ := h
  obtain ⟨b, hb, -, hst⟩ := hs.slot hfresh ha
  refine ⟨b, hb, ?_⟩
  cases hst with
  | same hst => rw [hst]; exact ⟨hown, fun hi => (hoff hi).step hs hM⟩
  | leased l todo n d seen hpc hi =>
    -- a scan looks at children only
    have hmem : w ∈ s.children := (hM.visiting (w :: todo) (by rw [hpc]; rfl)).subset List.mem_cons_self
    exact absurd (List.mem_append_left _ hmem) (hoff hi).unlisted
  | idled rel hpc hw _ hst => exact absurd (by simp [Shared.isIdle, hb, hst]) (hidle rel hpc hw)
  | killed _ _ hst | reaped _ _ _ _ _ _ _ hst | closing _ _ _ _ _ hst => rw [hst]; simp

theorem RetireTask.step {m : Pc} (h : RetireTask s m) (hs : Step s i pc s' pc' new)
    (hfresh : ∀ id who, pc = .spawn id who → s.slots id = none) (hJ : MembersShared s) (hM : MembersTask s i pc)
    (hm : MembersTask s j m)
    (hidle : ∀ rel, pc = .relRpc rel → ∀ x, m.retiring = some (rel.worker, x) → ¬ s'.isIdle rel.worker) :
    RetireTask s' m := by
  refine ⟨fun w x hr => (h.retiring w x hr).step hs hfresh hM ?_, fun w o ho => ?_⟩
  · rintro rel hpc rfl
    exact hidle rel hpc x hr
  · refine (h.settles w o ho).step hs hfresh fun a b ha hp hst y hy => ?_
    cases hst with
    | same hst => exact hp y (hst ▸ hy)
    | leased l todo n d seen hpc =>
      have hmem : w ∈ s.children := (hM.visiting (w :: todo) (by rw [hpc]; rfl)).subset List.mem_cons_self
      exact absurd hmem (hJ.notMem_children (hm.reserved w true (Pc.reserved_of_settles ho)))
    | killed _ _ hst | reaped _ _ _ _ _ _ _ hst | closing _ _ _ _ _ hst | idled _ _ _ _ hst =>
      rw [hst] at hy; cases hy

/-- A retirement is decided where the slot serves its session, is being released, or is dead. -/
theorem RetireSource.due {x : String} (h : RetireSource pc w x) (hR : RetireTask s pc) (hO : OwnersTask s i pc)
    (hk : KeepsState s s' w) (hoff : s.Off w → s'.Off w) : Due s' w x := by
  have hbusy : ∀ p : ChildState → Prop, (∀ st, p st → st = .dead ∨ st = .closing ∨ st = .leased x) →
      (s.SlotIs w fun slot => p slot.state) → Due s' w x := by
    intro p hp hslot
    refine (hk p hslot).mono fun slot hst => ?_
    rcases hp _ hst with h | h | h <;> rw [h] <;> simp
  rcases h with h | h | h | h | ⟨g, h⟩
  · have := hk (fun st => (∀ y, st = .leased y → y = x) ∧ (st = .idle → s.Off w)) (hR.retiring w x h)
    exact this.mono fun slot h => ⟨h.1, fun hi => hoff (h.2 hi)⟩
  · exact hbusy (fun st => st = .dead ∨ st = .leased x) (fun st h => h.imp_right .inr) (hO.calling w x h)
  · exact hbusy (fun st => st = .dead ∨ st = .closing) (fun st h => h.imp_right .inl) (hO.closing w h)
  · exact hbusy (· = .dead) (fun st h => .inl h) (hO.killed w h)
  · refine hbusy (fun st => st = .dead ∨ st = .leased x) (fun st h => h.imp_right .inr) ?_
    exact (hO.serves w x g h).mono fun slot h => h.imp_right And.left

theorem Step.retireTask_self (hs : Step s i pc s' pc' new) (h : RetireTask s pc) (hJ : MembersShared s)
    (hM : MembersTask s i pc) (hO : OwnersTask s i pc) : RetireTask s' pc' := by
  refine ⟨fun w x hr => ?_, fun w o ho => hs.settles ho⟩
  rcases hs.retiring hr with ⟨hk, hsrc⟩ | ⟨o, rfl, rfl, rfl⟩
  · exact hsrc.due h hO hk fun hoff => hoff.step hs hM
  · -- the reservation is given back, so the worker is in no list any more
    have hid := hM.reserved w true rfl
    refine (h.settles w (some o.session) rfl).mono fun slot hown =>
      ⟨fun y hy => (Option.some.inj (hown y hy)).symm, fun _ => ?_⟩
    refine ⟨hJ.lt w (List.mem_append_right _ hid), fun hw => ?_⟩
    simp only [Shared.finishReservation, Option.toList_none, List.append_nil, List.mem_append] at hw
    rcases hw with hw | hw
    · exact hJ.notMem_children hid hw
    · exact (List.nodup_append.1 hJ.nodup).2.1.not_mem_erase hw

theorem Step.retireTask_new {m : Pc} (hs : Step s i pc s' pc' new) (h : RetireTask s pc) (hM : MembersTask s i pc)
    (hO : OwnersTask s i pc) (hm : m ∈ new) : RetireTask s' m := by
  refine ⟨fun w x hr => ?_, fun w o ho => ?_⟩
  · obtain ⟨hk, hsrc⟩ := hs.new_retiring hm hr
    exact hsrc.due h hO hk fun hoff => hoff.step hs hM
  · obtain ⟨hk, o', ho', heq⟩ := hs.new_settles hm ho
    refine (hk (fun st => ∀ y, st = .leased y → o' = some y) (h.settles w o' ho')).mono fun slot hp y hy => ?_
    rcases heq with rfl | rfl
    · exact hp y hy
    · exact absurd (hp y hy) (by simp)

theorem RetireTask.of_env {m : Pc} (hs : EnvStep c s' new) (hm : m ∈ new) : RetireTask s m := by
  cases hs with
  | start hp =>
    obtain rfl := List.mem_singleton.1 hm
    constructor <;> intro w x h <;> cases m <;> first | cases hp; done | cases h
  | dropSession => obtain rfl := List.mem_singleton.1 hm; constructor <;> intro w x h <;> cases h
  | tick => cases hm
  | shutdown => obtain ⟨v, -, rfl⟩ := List.mem_map.1 hm; constructor <;> intro w x h <;> cases h

/-- A worker that is about to be killed for an operation of `x` is not leased to another session, in every run
in which no release makes a worker idle with a retirement of it still to come. -/
theorem retirement_isolated (h : program.Reachable Init (fun c a => idlesAfterRetirements c a) c) {after : After}
    {x y : String} {slot : Slot} (hpc : .dying w .take after ∈ c.threads) (hx : after.session = some x)
    (hw : c.shared.slots w = some slot) (hy : slot.state = .leased y) : y = x := by
  have hI : ∀ (i : Nat) pc, c.threads[i]? = some pc → RetireTask c.shared pc := by
    refine (reachable_induct (I := fun c => ∀ (i : Nat) pc, c.threads[i]? = some pc → RetireTask c.shared pc)
      ?_ ?_ ?_ h).2
    · intro c hc i pc hpc
      rw [hc.threads] at hpc; simp at hpc
    · intro c i e pc s' pc' new _ hI hR hC hpc ho hs
      have hM := hI.members.threads i pc hpc
      have hO := hI.owners.threads i pc hpc
      refine Conf.forall_after (hs.retireTask_self (hR i pc hpc) hI.members.shared hM hO) (fun j m _ hm => ?_)
        fun j m hm => hs.retireTask_new (hR i pc hpc) hM hO hm
      refine (hR j m hm).step hs (hI.ids.fresh hpc) hI.members.shared hM (hI.members.threads j m hm) ?_
      rintro rel rfl x hr (hidle : s'.isIdle rel.worker)
      simp only [idlesAfterRetirements, hpc, ho, Option.any_some, hidle, Bool.not_true, Bool.false_or,
        List.all_eq_true] at hC
      simpa [hr] using hC m (List.mem_of_getElem? hm)
    · intro c x s' new _ hR _ hs
      refine Conf.forall_append (fun j m hm => ?_) fun j m hm => .of_env hs hm
      have hoff : ∀ {w}, c.shared.Off w → s'.Off w := fun h => by
        refine ⟨?_, ?_⟩
        · rw [hs.nextId]; exact h.lt
        · rw [hs.lists.1, hs.lists.2]; exact h.unlisted
      refine ⟨fun w x hr => ?_, fun w o ho => ?_⟩
      · rw [Due, Shared.SlotIs, hs.slots]
        exact ((hR j m hm).retiring w x hr).mono fun slot h => ⟨h.1, fun hi => hoff (h.2 hi)⟩
      · rw [Shared.SlotIs, hs.slots]
        exact (hR j m hm).settles w o ho
  obtain ⟨i, hi⟩ := List.mem_iff_getElem?.1 hpc
  obtain ⟨slot', hslot', hown, -⟩ := (hI i _ hi).retiring w x (by simp [Pc.retiring, hx])
  obtain rfl := Option.some.inj (hw.symm.trans hslot')
  exact hown y hy

def crashAnswer : Event := .answer ToolError.workerClosed.toToolResult (.ok "")

/-- The child's answer retires the worker; before `mark_dead` the session closes and `B` leases the worker. -/
theorem retirement_kills_foreign_lease : ∃ c, program.Reachable Init Program.Free c ∧
    ∃ after, .dying 0 .take after ∈ c.threads ∧ after.session = some "A" ∧
      (∃ slot, c.shared.slots 0 = some slot ∧ slot.state = .leased "B") ∧
      ∃ c', program.step c (.thread 1 .go) = some c' ∧ ∃ slot, c'.shared.slots 0 = some slot ∧ slot.state = .dead := by
  obtain ⟨c, hc, hpc, hs, hs'⟩ := Program.Reachable.of_run_any (P := program)
    (r := List.flatten [openAs "A" 0 7, [.env (.call "A" none "list_functions" none)], goes 1 2,
      [.thread 1 crashAnswer], closeAs "A" 2, openAs "B" 4 5, [.thread 1 .go]])
    (p := fun c => .dying 0 .take (.cleared ⟨"A", 0, 1, .call none, "list_functions", 600⟩ .workerClosed) ∈ c.threads ∧
      (∃ slot ∈ c.shared.slots 0, slot.state = .leased "B") ∧
      ∃ c' ∈ program.step c (.thread 1 .go), ∃ slot ∈ c'.shared.slots 0, slot.state = .dead)
    (init_freshPool 1 0) (by decide +kernel)
  exact ⟨c, hc, _, hpc, rfl, hs, hs'⟩

/-- The worker of a call that timed out is still leased to the session of the call. -/
theorem retirement_isolated_timeout : ∃ c, program.Reachable Init (fun c a => idlesAfterRetirements c a) c ∧
    ∃ after, .dying 0 .take after ∈ c.threads ∧ after.session = some "A" ∧
      ∃ slot y, c.shared.slots 0 = some slot ∧ slot.state = .leased y ∧ y = "A" := by
  obtain ⟨c, hc, hpc, slot, hs, hst⟩ := Program.Reachable.of_runIf_any (P := program)
    (C := fun c a => idlesAfterRetirements c a)
    (r := List.flatten [openAs "A" 0 7, [.env (.call "A" none "list_functions" none)], goes 1 2,
      [.thread 1 .timeout]])
    (p := fun c => .dying 0 .take (.call ⟨"A", 0, 1, .call none, "list_functions", 600⟩
        (Op.timedOut ⟨"A", 0, 1, .call none, "list_functions", 600⟩)) ∈ c.threads ∧
      ∃ slot ∈ c.shared.slots 0, slot.state = .leased "A")
    (init_freshPool 1 0) (by decide +kernel)
  exact ⟨c, hc, _, hpc, rfl, slot, "A", hs, hst, retirement_isolated hc hpc rfl hs hst⟩

end IdaRs.Pool
