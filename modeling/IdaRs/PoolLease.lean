import IdaRs.PoolOwners

/-!
# Leases over whole runs

Two laws of leases, each with the condition on the steps under which it holds and a run that breaks it
without.

* `bound_call_generation`: a call bound to a generation runs on a child that serves that generation.
* `leased_slot_held`: a leased slot is in its session's handle or with a task that stores or ends the lease.
-/

namespace IdaRs.Pool

open Threads

variable {s s' : Shared} {i j w : Nat} {pc pc' : Pc} {new : List Pc} {c c' : Conf Shared Pc}

/-- A pool that has just warmed its minimum of workers. -/
def freshPool (max min : Nat) : Conf Shared Pc :=
  let config : Config := ⟨max, min, 1, 600⟩
  ⟨⟨config, 0, none, List.range config.floor, [], config.floor,
    fun w => if w < config.floor then some { state := .idle, lastUsed := 0 } else none, fun _ => {}⟩, []⟩

theorem init_freshPool (max min : Nat) : Init (freshPool max min) := by
  refine ⟨rfl, rfl, rfl, rfl, fun w hw => ⟨0, le_rfl, if_pos hw⟩, fun w hw => if_neg (not_lt.2 hw),
    fun x => rfl, rfl⟩

def okResult : CallToolResult := ⟨[], none⟩

/-- Task `i` goes on `n` times. -/
def goes (i n : Nat) : List (Act Event Env) := List.replicate n (.thread i .go)

/-- Session `x` opens a database as task `i`, in `n` steps up to the answer of the child. -/
def openAs (x : String) (i n : Nat) : List (Act Event Env) :=
  List.flatten [[.env (.openIdb x none)], goes i n, [.thread i (.answer okResult (.ok "/db/a.i64")), .thread i .go]]

/-- Session `x` closes its database as task `i`; the release starts the reap timer. -/
def closeAs (x : String) (i : Nat) : List (Act Event Env) :=
  List.flatten [[.env (.close x)], goes i 2, [.thread i (.answer okResult (.ok "")), .thread i .go]]

def Pc.isDone : Pc → Bool
  | .done _ => true
  | _ => false

/-! ### Calls bound to a generation -/

/-- The generation a call is bound to. -/
def Op.bound (op : Op) : Option Nat :=
  match op.kind with
  | .call expected => expected
  | .openIdb _ => none

/-- The worker, the session and the generation of a bound call from its resolved handle on. -/
def Pc.bound : Pc → Option (Nat × String × Nat)
  | .waitCall op | .request op => op.bound.map fun g => (op.worker, op.session, g)
  | _ => none

/-- No session leases an idle worker while a bound call of the session waits for the `call_lock` of it. -/
def noLeaseUnderCall (c : Conf Shared Pc) : Act Event Env → Bool
  | .thread i .go =>
    match c.threads[i]? with
    | some (.scan l (w :: _) _ _ _) =>
      !c.shared.isIdle w || c.threads.all fun pc => pc.bound.all fun b => b.1 ≠ w ∨ b.2.1 ≠ l.session
    | _ => true
  | _ => true

theorem Pc.bound_of_quiet (h : pc.quiet) : pc.bound = none := by
  cases pc <;> first | rfl | cases h

theorem Step.bound {x : String} {g : Nat} (h : Step s i pc s' pc' new) (hb : pc'.bound = some (w, x, g)) :
    pc.bound = some (w, x, g) ∨ s' = s ∧ (s.sessions x).handle = some ⟨w, g⟩ := by
  cases h
  case resolve y expected tool secs lease _ hh hg =>
    cases expected with
    | none => cases hb
    | some k =>
      obtain ⟨rfl, rfl, rfl⟩ := by simpa [Pc.bound, Op.bound] using hb
      have : lease.generation = k := by simpa [requireLeaseGeneration] using hg
      exact .inr ⟨rfl, this ▸ hh⟩
  case request => exact .inl hb
  case ensured | installEnsureFailed => rw [Pc.bound_of_quiet (afterDying_quiet ..)] at hb; cases hb
  case refused => rw [Pc.bound_of_quiet (opFailed_quiet ..)] at hb; cases hb
  case answered ha => rw [Pc.bound_of_quiet ha.quiet] at hb; cases hb
  case clear | resDrop => split at hb <;> cases hb
  all_goals cases hb

theorem Pc.bound_of_newborn (h : pc.newborn) : pc.bound = none := by
  cases pc <;> first | rfl | cases h

/-- A bound call's worker serves the call's generation, if it serves the session at all. -/
def BoundTask (s : Shared) (pc : Pc) : Prop :=
  ∀ w x g, pc.bound = some (w, x, g) → s.SlotIs w fun slot => slot.state = .leased x → slot.generation = g

theorem BoundTask.step (h : BoundTask s pc) {m : Pc} (hs : Step s i m s' pc' new)
    (hfresh : ∀ id who, m = .spawn id who → s.slots id = none)
    (hlease : ∀ l w todo a d seen, m = .scan l (w :: todo) a d seen → s.isIdle w → ¬ s'.isIdle w →
      ∀ x g, pc.bound = some (w, x, g) → x ≠ l.session) : BoundTask s' pc := by
  intro w x g hb
  obtain ⟨a, ha, hp⟩ := h w x g hb
  obtain ⟨b, hb', -, hst⟩ := hs.slot hfresh ha
  refine ⟨b, hb', fun hx => ?_⟩
  cases hst with
  | same hst hg => rw [hg]; exact hp (hst ▸ hx)
  | leased l todo n d seen hm hidle hst =>
    rw [hst] at hx
    have := hlease l w todo n d seen hm (by simp [Shared.isIdle, ha, hidle])
      (by simp [Shared.isIdle, hb', hst]) x g hb
    exact absurd (ChildState.leased.inj hx).symm this
  | killed _ _ hst | reaped _ _ _ _ _ _ _ hst | closing _ _ _ _ _ hst | idled _ _ _ _ hst =>
    rw [hst] at hx; cases hx

theorem bound_tasks (h : program.Reachable Init (fun c a => noLeaseUnderCall c a) c) :
    Inv c ∧ ∀ (i : Nat) pc, c.threads[i]? = some pc → BoundTask c.shared pc := by
  refine reachable_induct (I := fun c => ∀ (i : Nat) pc, c.threads[i]? = some pc → BoundTask c.shared pc) ?_ ?_ ?_ h
  · intro c hc i pc hpc
    rw [hc.threads] at hpc; simp at hpc
  · intro c i e pc s' pc' new _ hI hB hC hpc ho hs
    have hfresh := hI.ids.fresh hpc
    have hlease : ∀ (j : Nat) (m : Pc), c.threads[j]? = some m →
        ∀ l w todo a d seen, pc = .scan l (w :: todo) a d seen →
        c.shared.isIdle w → ¬ s'.isIdle w → ∀ x g, m.bound = some (w, x, g) → x ≠ l.session := by
      rintro j m hm l w todo a d seen rfl hidle hleased x g hb
      cases e with
      | go =>
        simp only [noLeaseUnderCall, hpc, hidle, Bool.not_true, Bool.false_or, List.all_eq_true] at hC
        have := hC m (List.mem_of_getElem? hm)
        simpa [hb] using this
      | drop => cases ho; exact absurd hidle hleased
      | _ => cases ho
    refine Conf.forall_after (fun w x g hb => ?_)
      (fun j m _ hm => (hB j m hm).step hs hfresh (hlease j m hm)) fun j m hm w x g hb => ?_
    · rcases hs.bound hb with hb | ⟨rfl, hh⟩
      · exact (hB i pc hpc).step hs hfresh (hlease i pc hpc) w x g hb
      · refine (hI.owners.shared.serves x _ hh).mono fun slot hserves hst => ?_
        rcases hserves with hd | hd
        · rw [hst] at hd; cases hd
        · exact hd.2
    · rw [Pc.bound_of_newborn (hs.newborn m hm)] at hb; cases hb
  · intro c x s' new hI hB hC hs
    refine Conf.forall_append (fun j m hm w x g hb => ?_) fun j m hm w x g hb => ?_
    · rw [Shared.SlotIs, hs.slots]; exact hB j m hm w x g hb
    · rw [Pc.bound_of_newborn (hs.newborn m hm)] at hb; cases hb

/-- A call bound to generation `g` that was dispatched runs on a worker leased to its session for `g` (or
killed meanwhile), in every run in which no session leases a worker again that one of its bound calls
waits for. -/
theorem bound_call_generation (h : program.Reachable Init (fun c a => noLeaseUnderCall c a) c) {op : Op} {g : Nat}
    (hpc : .request op ∈ c.threads) (hg : op.bound = some g) :
    ∃ slot, c.shared.slots op.worker = some slot ∧
      (slot.state = .dead ∨ slot.state = .leased op.session ∧ slot.generation = g) := by
  obtain ⟨hI, hB⟩ := bound_tasks h
  obtain ⟨i, hi⟩ := List.mem_iff_getElem?.1 hpc
  have hcall := (hI.owners.threads i _ hi).calling op.worker op.session rfl
  have hbound := hB i _ hi op.worker op.session g (by simp [Pc.bound, hg])
  obtain ⟨slot, hs, hst, hgen⟩ := hcall.and hbound
  exact ⟨slot, hs, hst.imp_right fun h => ⟨h, hgen h⟩⟩

/-- Between the resolved handle and `call_lock`, the session closes and opens again on the same worker: the
call bound to generation 1 runs on generation 2. -/
theorem bound_call_on_next_generation : ∃ c, program.Reachable Init Program.Free c ∧
    ∃ op, .request op ∈ c.threads ∧ op.bound = some 1 ∧
      ∃ slot, c.shared.slots op.worker = some slot ∧ slot.state = .leased op.session ∧ slot.generation = 2 := by
  obtain ⟨c, hc, hpc, slot, hs, hst⟩ := Program.Reachable.of_run_any (P := program)
    (r := List.flatten [openAs "A" 0 7, [.env (.call "A" (some 1) "list_functions" none), .thread 1 .go],
      closeAs "A" 2, [.env (.openIdb "A" none)], goes 4 4, [.thread 1 .go]])
    (p := fun c => .request ⟨"A", 0, 1, .call (some 1), "list_functions", 600⟩ ∈ c.threads ∧
      ∃ slot ∈ c.shared.slots 0, slot.state = .leased "A" ∧ slot.generation = 2)
    (init_freshPool 1 0) (by decide +kernel)
  exact ⟨c, hc, _, hpc, rfl, slot, hs, hst⟩

/-- A bound call of the current generation, after the session closed and opened again. -/
theorem bound_call_generation_reopened : ∃ c, program.Reachable Init (fun c a => noLeaseUnderCall c a) c ∧
    ∃ op, .request op ∈ c.threads ∧ op.bound = some 2 ∧
      ∃ slot, c.shared.slots op.worker = some slot ∧
        (slot.state = .dead ∨ slot.state = .leased op.session ∧ slot.generation = 2) := by
  obtain ⟨c, hc, hpc⟩ := Program.Reachable.of_runIf_any (P := program) (C := fun c a => noLeaseUnderCall c a)
    (r := List.flatten [openAs "A" 0 7, closeAs "A" 1, openAs "A" 3 5,
      [.env (.call "A" (some 2) "list_functions" none), .thread 4 .go, .thread 4 .go]])
    (p := fun c => .request ⟨"A", 0, 2, .call (some 2), "list_functions", 600⟩ ∈ c.threads)
    (init_freshPool 1 0) (by decide +kernel)
  exact ⟨c, hc, _, hpc, rfl, bound_call_generation hc hpc rfl⟩

/-! ### Leases in use -/

/-- The operation a call or an open is busy with, until it is over or clears the handle. -/
def After.op : After → Option Op
  | .call op _ => some op
  | _ => none

def Pc.op : Pc → Option Op
  | .waitCall op | .request op | .clear op _ _ => some op
  | .dying _ _ after | .spawn _ (.ensure _ after) | .install _ _ (.ensure _ after) => after.op
  | _ => none

/-- The lease `g` of the session is not newer than its last one, and older when a lease is being made. -/
def Session.Past (st : Session) (g : Nat) : Prop :=
  g < st.nextGeneration ∨ g = st.nextGeneration ∧ st.lock = none

theorem Session.Past.step {pc : Pc} {x : String} {a b : Session} {g : Nat} (h : a.Past g)
    (hs : SessionChange i pc pc' x a b) : b.Past g := by
  cases hs with
  | same _ hn hl => rw [Session.Past, hn, hl]; exact h
  | fresh _ _ _ _ hb =>
    subst hb
    left
    rcases h with h | h
    · exact Nat.lt_succ_of_lt h
    · exact h.1 ▸ Nat.lt_succ_self _
  | stored _ _ _ _ hb | unlocked _ _ _ _ hb =>
    subst hb
    exact h.imp_right fun h => ⟨h.1, rfl⟩
  | taken _ _ _ _ _ _ hb | cleared _ _ _ _ _ _ _ hb => subst hb; exact h

theorem opFailed_op {op op' : Op} {e : ToolError} (h : (opFailed op e).op = some op') : op' = op := by
  rcases opFailed_cases op e with ⟨_, -, he⟩ | ⟨_, -, he | he⟩ <;> rw [he] at h <;> cases h
  rfl

theorem afterDying_op {after : After} {op : Op} (h : (afterDying s w after).2.op = some op) :
    after.op = some op := by
  rcases afterDying_pc (s := s) w after with ⟨r, he⟩ | ⟨op', e, rfl, he⟩ | ⟨rel, e, -, he⟩ <;> rw [he] at h
  · cases h
  · rw [opFailed_op h]; rfl
  · cases h

theorem Step.op {op : Op} (h : Step s i pc s' pc' new) (ho : pc'.op = some op) :
    pc.op = some op ∨
      (s' = s ∧ (s.sessions op.session).lock = none ∧
        (s.sessions op.session).handle = some ⟨op.worker, op.generation⟩) ∨
      ∃ l, pc = .store l op.worker ∧ op.session = l.session ∧ op.generation = l.generation ∧
        (s'.sessions l.session).lock = none ∧
        (s'.sessions l.session).nextGeneration = (s.sessions l.session).nextGeneration := by
  cases h
  case openReuse hl hh | resolve hl hh _ => cases ho; exact .inr (.inl ⟨rfl, hl, hh⟩)
  case store l w => cases ho; exact .inr (.inr ⟨l, rfl, rfl, rfl, by simp, by simp⟩)
  case spawned who | spawnFailed who _ => cases who <;> exact .inl ho
  case ensured | installEnsureFailed => exact .inl (afterDying_op ho)
  case refused => exact .inl (congrArg some (opFailed_op ho).symm)
  case answered ha =>
    cases ha
    case clear => exact .inl ho
    case failed => exact .inl (congrArg some (opFailed_op ho).symm)
    all_goals cases ho
  case clear | resDrop => split at ho <;> cases ho
  all_goals first | exact .inl ho | cases ho

theorem Pc.op_of_newborn (h : pc.newborn) : pc.op = none := by
  cases pc
  case dying phase after => cases phase <;> cases after <;> first | rfl | cases h
  all_goals first | rfl | cases h

/-- What an operation knows about its lease: it is a past one, and when the call was refused or its worker
died, the worker does not serve this lease any more. -/
structure StaleTask (s : Shared) (pc : Pc) : Prop where
  past : ∀ op, pc.op = some op → (s.sessions op.session).Past op.generation
  refused : ∀ op e, pc = .clear op e false →
    s.SlotIs op.worker fun slot => slot.state = .leased op.session → slot.generation ≠ op.generation

theorem StaleTask.of_newborn (h : pc.newborn) : StaleTask s pc where
  past op ho := by rw [Pc.op_of_newborn h] at ho; cases ho
  refused op e hp := by rw [hp] at h; cases h

theorem StaleTask.step {m : Pc} (h : StaleTask s m) (hs : Step s i pc s' pc' new)
    (hfresh : ∀ id who, pc = .spawn id who → s.slots id = none) (hL : LocksTask s i pc) (hO : OwnersTask s i pc) :
    StaleTask s' m := by
  refine ⟨fun op ho => (h.past op ho).step (hs.session op.session), fun op e hm => ?_⟩
  refine (h.refused op e hm).step hs hfresh fun a b ha hp hst hx => ?_
  cases hst with
  | same hst hg => rw [hg]; exact hp (hst ▸ hx)
  | leased l todo n d seen hpc _ hst hg =>
    -- the session has begun a newer lease, so the new one is not that of the call
    rw [hst] at hx
    have hx := ChildState.leased.inj hx
    have hl : pc.lending = some l := by rw [hpc]; rfl
    have hlock := hL.session l hl
    have hgen := (hO.lending l hl).2
    have hpast := h.past op (by rw [hm]; rfl)
    rw [← hx, Session.Past, hlock, hgen] at hpast
    rcases hpast with hlt | ⟨-, hnone⟩
    · rw [hg]; exact hlt.ne'
    · cases hnone
  | killed _ _ hst | reaped _ _ _ _ _ _ _ hst | closing _ _ _ _ _ hst | idled _ _ _ _ hst =>
    rw [hst] at hx; cases hx

theorem Step.clear_refused {op : Op} {e : ToolError} (h : Step s i pc s' (.clear op e false) new) (hm : pc.matched) :
    s' = s ∧ s.SlotIs op.worker (fun slot => slot.state ≠ .leased op.session) ∨
      pc.killed = some op.worker := by
  generalize hp : Pc.clear op e false = p at h
  cases h
  case refused op' slot e' hslot hst =>
    have ho : (opFailed op' e').op = some op := by rw [← hp]; rfl
    obtain rfl := opFailed_op ho
    exact .inl ⟨rfl, slot, hslot, hst⟩
  case answered op' ha =>
    subst hp
    generalize hq : Pc.clear op e false = q at ha
    cases ha
    case failed fresh hk e' =>
      rcases opFailed_cases op' e' with ⟨_, hk', -⟩ | ⟨_, -, h | h⟩
      · rw [hk] at hk'; cases hk'
      · rw [h] at hq; cases hq
      · rw [h] at hq; cases hq
    all_goals cases hq
  case ensured v after =>
    have ht : (afterDying s v after).2.target = some op.worker := by rw [← hp]; rfl
    exact .inr (congrArg some (afterDying_target ht hm))
  case installEnsureFailed id v after e' _ =>
    have ht : (afterDying (s.finishReservation id none) v after).2.target = some op.worker := by rw [← hp]; rfl
    exact .inr (congrArg some (afterDying_target ht hm))
  case clear | resDrop => split at hp <;> cases hp
  all_goals cases hp

theorem stale_tasks {C : Conf Shared Pc → Act Event Env → Prop} (h : program.Reachable Init C c) :
    Inv c ∧ ∀ (i : Nat) pc, c.threads[i]? = some pc → StaleTask c.shared pc := by
  refine reachable_induct (I := fun c => ∀ (i : Nat) pc, c.threads[i]? = some pc → StaleTask c.shared pc) ?_ ?_ ?_ h
  · intro c hc i pc hpc
    rw [hc.threads] at hpc; simp at hpc
  · intro c i e pc s' pc' new _ hI hS hC hpc ho hs
    have hO := hI.owners.threads i pc hpc
    have hstep := fun m (hm : StaleTask c.shared m) => hm.step hs (hI.ids.fresh hpc) (hI.locks.threads i pc hpc) hO
    refine Conf.forall_after ⟨fun op hop => ?_, fun op e hp => ?_⟩ (fun j m _ hm => hstep m (hS j m hm))
      fun j m hm => .of_newborn (hs.newborn m hm)
    · rcases hs.op hop with hop | ⟨rfl, hl, hh⟩ | ⟨l, rfl, hx, hg, hl, hn⟩
      · exact (hstep pc (hS i pc hpc)).past op hop
      · exact .inr ⟨(hI.owners.shared.generation _ _ hh).symm, hl⟩
      · refine .inr ⟨?_, hx ▸ hl⟩
        show op.generation = (s'.sessions op.session).nextGeneration
        rw [hx, hn, hg, (hO.lending l rfl).2]
    · subst hp
      rcases hs.clear_refused hO.matched with ⟨rfl, hslot⟩ | hk
      · exact hslot.mono fun slot hne hst => absurd hst hne
      · refine ((hO.killed _ hk).step hs (hI.ids.fresh hpc) fun _ _ _ hx hst => hst.dead hx).mono
          fun slot hd hst => ?_
        rw [hd] at hst; cases hst
  · intro c x s' new hI hS hC hs
    refine Conf.forall_append (fun j m hm => ⟨fun op hop => ?_, fun op e hp => ?_⟩)
      fun j m hm => .of_newborn (hs.newborn m hm)
    · rw [Session.Past, (hs.session op.session).2.1, (hs.session op.session).2.2]
      exact (hS j m hm).past op hop
    · rw [Shared.SlotIs, hs.slots]
      exact (hS j m hm).refused op e hp

/-! ### Leases that nobody holds -/

/-- The worker and the session of a lease that a task is going to store or to end. -/
def Pc.holder : Pc → Option (Nat × String)
  | .install id (.ok _) (.lease l) => some (id, l.session)
  | .store l w => some (w, l.session)
  | .relWait rel => some (rel.worker, rel.session)
  | .resDrop id true o => some (id, o.session)
  | .dying w .take after => after.session.map (w, ·)
  | _ => none

/-- Every leased slot is in its session's handle, or with a task. -/
def LeasesHeld (c : Conf Shared Pc) : Prop :=
  ∀ w slot x, c.shared.slots w = some slot → slot.state = .leased x →
    (∃ g, (c.shared.sessions x).handle = some ⟨w, g⟩) ∨ ∃ pc ∈ c.threads, pc.holder = some (w, x)

/-- The call that failed clears the handle of its own lease if it clears one, and the task that is about to
retire the worker of a handle it cleared is not dropped. -/
def clearsOwn (c : Conf Shared Pc) : Act Event Env → Bool
  | .thread i e =>
    match c.threads[i]?, e with
    | some (.clear op _ false), .go =>
      (c.shared.sessions op.session).handle.all fun lease =>
        lease.worker ≠ op.worker ∨ lease.generation = op.generation
    | some (.dying _ .take (.cleared ..)), .drop => false
    | _, _ => true
  | .env _ => true

/-- A lease that was not there before the step is with the task. -/
theorem Step.leased {x : String} {y : Slot} (h : Step s i pc s' pc' new)
    (hfresh : ∀ id who, pc = .spawn id who → s.slots id = none) (hy : s'.slots w = some y)
    (hst : y.state = .leased x) : (s.SlotIs w fun slot => slot.state = .leased x) ∨ pc'.holder = some (w, x) := by
  cases hx : s.slots w with
  | none =>
    rcases h.slots_none hx with h' | ⟨who, rfl, rfl⟩
    · rw [h'] at hy; cases hy
    · generalize hp : Pc.install w (.ok ()) who = p at h
      cases h
      case spawned =>
        simp only [Shared.addSlot, Function.update_self] at hy
        obtain rfl := Option.some.inj hy
        cases who with
        | lease l => exact .inr (by rw [Pc.holder, ChildState.leased.inj hst])
        | ensure => cases hst
      all_goals cases hp
  | some z =>
    obtain ⟨y', hy', -, hchange⟩ := h.slot hfresh hx
    obtain rfl := Option.some.inj (hy.symm.trans hy')
    cases hchange with
    | same hst' => exact .inl ⟨z, hx, hst'.symm.trans hst⟩
    | leased l todo a d seen hpc hz hst' =>
      have hl := ChildState.leased.inj (hst'.symm.trans hst)
      subst hpc
      -- the other steps of a scan leave the slot idle
      have hne : s'.slots w ≠ s.slots w := by
        rw [hy, hx]
        rintro hyz
        obtain rfl := Option.some.inj hyz
        rw [hst] at hz; cases hz
      cases h
      case scanIdle => exact .inr (by rw [Pc.holder, hl])
      all_goals first | exact absurd rfl hne | (rename_i hp; cases hp)
    | killed _ _ hst' | reaped _ _ _ _ _ _ _ hst' | closing _ _ _ _ _ hst' | idled _ _ _ _ hst' =>
      rw [hst'] at hst; cases hst

/-- The reservation of a task that holds a lease. -/
theorem Pc.holder_of_reservation {id : Nat} {b : Bool} {who : Spawner} {x : String}
    (h : pc.reservation = some (id, b, who)) (hh : pc.holder = some (w, x)) :
    b = true ∧ ∃ l, who = .lease l ∧ (id, l.session) = (w, x) := by
  cases pc <;> simp only [Pc.reservation, reduceCtorEq] at h
  case spawn => cases hh
  case install id' result who' =>
    cases h
    cases result <;> cases who <;> first | cases hh; done | exact ⟨rfl, _, rfl, Option.some.inj hh⟩

/-- A task that holds a lease stores it, hands it on, or the slot is not leased any more. -/
theorem Step.holder {x : String} (h : Step s i pc s' pc' new) (hh : pc.holder = some (w, x))
    (hleased : s'.SlotIs w fun slot => slot.state = .leased x)
    (hdrop : ∀ v op e r, pc = .dying v .take (.cleared op e) → pc' ≠ .done r) :
    (∃ g, (s'.sessions x).handle = some ⟨w, g⟩) ∨ pc'.holder = some (w, x) ∨ ∃ m ∈ new, m.holder = some (w, x) := by
  obtain ⟨slot, hslot, hst⟩ := hleased
  cases h
  case installLease => exact .inr (.inl hh)
  case store l v => cases hh; exact .inl ⟨l.generation, by simp⟩
  case resDrop id hasSlot y _ =>
    cases hasSlot
    · cases hh
    · exact .inr (.inl hh)
  case dropRelWait => exact .inr (.inr ⟨_, List.mem_singleton_self _, hh⟩)
  case relDead rel slot' hs hd =>
    cases hh
    obtain rfl := Option.some.inj (hs.symm.trans hslot)
    rw [hd] at hst; cases hst
  case relClose rel slot' hs _ _ =>
    cases hh
    rw [setSlot_get hs, if_pos rfl] at hslot
    obtain rfl := Option.some.inj hslot
    cases hst
  case kill v after =>
    obtain ⟨y, -, hv⟩ := Option.map_eq_some_iff.1 hh
    obtain ⟨rfl, -⟩ := Prod.mk.inj hv
    obtain ⟨z, hz⟩ : ∃ z, s.slots v = some z := by
      cases hz : s.slots v with
      | none => simp [hz] at hslot
      | some z => exact ⟨z, rfl⟩
    rw [Shared.kill, setSlot_get hz, if_pos rfl] at hslot
    obtain rfl := Option.some.inj hslot
    split at hst
    · rename_i hd; rw [hd] at hst; cases hst
    · cases hst
  case dropGuard v y hg =>
    refine .inr (.inr ⟨_, List.mem_singleton_self _, ?_⟩)
    cases pc <;> simp only [Pc.holder, reduceCtorEq] at hh
    case dying u phase after =>
      cases phase <;> cases after <;> first | cases hg; done | cases hh; done | (cases hg; exact hh)
    all_goals cases hg
  case dropLease id hasSlot l hr =>
    obtain ⟨rfl, l', hl, hw⟩ := Pc.holder_of_reservation hr hh
    cases hl
    exact .inr (.inr ⟨_, List.mem_singleton_self _, congrArg some hw⟩)
  case dropEnsure hr =>
    obtain ⟨-, l', hl, -⟩ := Pc.holder_of_reservation hr hh
    cases hl
  case dropEnsureCleared hr =>
    obtain ⟨-, l', hl, -⟩ := Pc.holder_of_reservation hr hh
    cases hl
  case finish r hl =>
    cases pc <;> simp only [Pc.holder, reduceCtorEq] at hh
    case dying v phase after =>
      cases phase <;> cases after <;> first | cases hl; done | cases hh; done | exact absurd rfl (hdrop _ _ _ r rfl)
    all_goals cases hl
  case take hpc => cases pc <;> first | cases hpc; done | cases hh
  all_goals cases hh

/-- A handle stays, or goes over to the task, or its lease ends when a call clears it. -/
theorem Step.handle_held {x : String} {g : Nat} (h : Step s i pc s' pc' new)
    (hh : (s.sessions x).handle = some ⟨w, g⟩) (hO : OwnersTask s i pc)
    (hclear : ∀ op e, pc = .clear op e false → op.session = x → op.worker = w → (s'.sessions x).handle ≠ none) :
    (s'.sessions x).handle = some ⟨w, g⟩ ∨ pc'.holder = some (w, x) := by
  cases h.session x with
  | same h₁ => exact .inl (h₁ ▸ hh)
  | fresh _ _ _ ha => rw [ha] at hh; cases hh
  | stored l v hpc hx =>
    have := (hO.lending l (by rw [hpc]; rfl)).1
    rw [hx, hh] at this
    cases this
  | unlocked _ _ _ _ hb => rw [hb]; exact .inl hh
  | taken cause lease _ _ ha hpc' =>
    obtain rfl := Option.some.inj (ha.symm.trans hh)
    subst hpc'
    exact .inr rfl
  | cleared op e retire hpc hx _ ha hb hpc' =>
    rw [hh] at ha
    have hw : op.worker = w := by simpa using (of_decide_eq_true ha).symm
    subst hpc
    cases retire with
    | false => exact absurd (by rw [hb]) (hclear op e rfl hx hw)
    | true =>
      right
      rw [hpc', if_pos rfl, Pc.holder, After.session, Option.map_some, hx, hw]

theorem LeasesHeld.after (h : LeasesHeld c) (hI : Inv c) (hpc : c.threads[i]? = some pc)
    (hs : Step c.shared i pc s' pc' new)
    (hclear : ∀ op e, pc = .clear op e false → ∀ g, (c.shared.sessions op.session).handle = some ⟨op.worker, g⟩ →
      c.shared.SlotIs op.worker (fun slot => slot.state = .leased op.session) →
      (s'.sessions op.session).handle ≠ none)
    (hdrop : ∀ v op e r, pc = .dying v .take (.cleared op e) → pc' ≠ .done r) :
    LeasesHeld (c.after i ⟨s', pc', new⟩) := by
  intro w y x hy hst
  have htask : ∀ m, m = pc' ∨ m ∈ new → m.holder = some (w, x) →
      ∃ m ∈ (c.after i ⟨s', pc', new⟩).threads, m.holder = some (w, x) := by
    rintro m (rfl | hm) hmh
    · exact ⟨m, List.mem_of_getElem? (Conf.after_get_self hpc), hmh⟩
    · exact ⟨m, List.mem_append_right _ hm, hmh⟩
  rcases hs.leased (hI.ids.fresh hpc) hy hst with hold | hnew
  · obtain ⟨slot, hslot, hst'⟩ := hold
    rcases h w slot x hslot hst' with ⟨g, hg⟩ | hm
    · have hkept : ∀ op e, pc = .clear op e false → op.session = x → op.worker = w →
          (s'.sessions x).handle ≠ none := by
        rintro op e hop rfl rfl
        exact hclear op e hop g hg ⟨slot, hslot, hst'⟩
      rcases hs.handle_held hg (hI.owners.threads i pc hpc) hkept with hg' | hp
      · exact .inl ⟨g, hg'⟩
      · exact .inr (htask pc' (.inl rfl) hp)
    · obtain ⟨m, hm, hmh⟩ := hm
      obtain ⟨j, hj⟩ := List.mem_iff_getElem?.1 hm
      by_cases hji : j = i
      · subst hji
        obtain rfl := Option.some.inj (hpc.symm.trans hj)
        rcases hs.holder hmh ⟨y, hy, hst⟩ hdrop with hg | hp | ⟨m, hm, hp⟩
        · exact .inl hg
        · exact .inr (htask pc' (.inl rfl) hp)
        · exact .inr (htask m (.inr hm) hp)
      · exact .inr ⟨m, List.mem_of_getElem? (Conf.after_get_other hji hj), hmh⟩
  · exact .inr (htask pc' (.inl rfl) hnew)

theorem LeasesHeld.env (h : LeasesHeld c) (hs : EnvStep c s' new) : LeasesHeld ⟨s', c.threads ++ new⟩ := by
  intro w slot x hslot hst
  rcases h w slot x (hs.slots ▸ hslot) hst with ⟨g, hg⟩ | ⟨m, hm, hmh⟩
  · exact .inl ⟨g, (hs.session x).1 ▸ hg⟩
  · exact .inr ⟨m, List.mem_append_left _ hm, hmh⟩

/-- No lease is leaked, in every run in which a call that failed clears no handle but that of its own lease,
and a task that has cleared a handle gets to the retirement of the worker. -/
theorem leased_slot_held (h : program.Reachable Init (fun c a => clearsOwn c a) c) {slot : Slot} {x : String}
    (hw : c.shared.slots w = some slot) (hx : slot.state = .leased x) :
    (∃ g, (c.shared.sessions x).handle = some ⟨w, g⟩) ∨ ∃ pc ∈ c.threads, pc.holder = some (w, x) := by
  refine (reachable_induct (I := LeasesHeld) ?_ ?_ ?_ h).2 w slot x hw hx
  · intro c hc w slot x hw hx
    by_cases hlt : w < c.shared.config.floor
    · obtain ⟨t, -, ht⟩ := hc.warm w hlt
      obtain rfl := Option.some.inj (ht.symm.trans hw)
      cases hx
    · rw [hc.unused w (not_lt.1 hlt)] at hw; cases hw
  · intro c i e pc s' pc' new hr hI hH hC hpc ho hs
    refine hH.after hI hpc hs ?_ ?_
    · rintro op err rfl g hg hleased hnone
      cases e with
      | go =>
        simp only [clearsOwn, hpc, hg, Option.all_some, decide_eq_true_eq, ne_eq, not_true, false_or] at hC
        obtain ⟨slot, -, ⟨hst, hne⟩, hserves⟩ :=
          (hleased.and (((stale_tasks hr).2 i _ hpc).refused op err rfl)).and (hI.owners.shared.serves _ _ hg)
        rcases hserves with hd | hd
        · rw [hst] at hd; cases hd
        · exact hne hst (hd.2.trans hC)
      | drop => cases ho; rw [hg] at hnone; cases hnone
      | _ => cases ho
    · rintro v op err r rfl
      cases e with
      | go => cases ho; simp
      | drop => simp [clearsOwn, hpc] at hC
      | _ => cases ho
  · intro c x s' new _ hH _ hs
    exact hH.env hs

/-- A call of `A` that resolved the handle before a close is refused, and clears the handle of the next open
on the same worker: every request is over, and the slot stays leased to nobody. -/
theorem stale_call_leaks_lease : ∃ c, program.Reachable Init Program.Free c ∧
    (∃ slot, c.shared.slots 0 = some slot ∧ slot.state = .leased "A") ∧ (c.shared.sessions "A").handle = none ∧
      ∀ pc ∈ c.threads, pc = .reapStart 0 ∨ ∃ r, pc = .done r := by
  obtain ⟨c, hc, hs, hh, hpc⟩ := Program.Reachable.of_run_any (P := program)
    (r := List.flatten [openAs "A" 0 7, [.env (.call "A" none "list_functions" none), .thread 1 .go],
      closeAs "A" 2, [.thread 1 .go], openAs "A" 4 5, [.thread 1 .go]])
    (p := fun c => (∃ slot ∈ c.shared.slots 0, slot.state = .leased "A") ∧
      (c.shared.sessions "A").handle = none ∧ ∀ pc ∈ c.threads, pc = .reapStart 0 ∨ pc.isDone)
    (init_freshPool 1 0) (by decide +kernel)
  refine ⟨c, hc, hs, hh, fun pc hp => (hpc pc hp).imp_right fun h => ?_⟩
  cases pc <;> first | exact ⟨_, rfl⟩ | cases h

/-- The lease of an open that went through. -/
theorem leased_slot_held_open : ∃ c, program.Reachable Init (fun c a => clearsOwn c a) c ∧
    ∃ slot, c.shared.slots 0 = some slot ∧ slot.state = .leased "A" ∧
      ((∃ g, (c.shared.sessions "A").handle = some ⟨0, g⟩) ∨ ∃ pc ∈ c.threads, pc.holder = some (0, "A")) := by
  obtain ⟨c, hc, slot, hs, hst⟩ := Program.Reachable.of_runIf_any (P := program) (C := fun c a => clearsOwn c a)
    (r := openAs "A" 0 7) (p := fun c => ∃ slot ∈ c.shared.slots 0, slot.state = .leased "A")
    (init_freshPool 1 0) (by decide +kernel)
  exact ⟨c, hc, slot, hs, hst, leased_slot_held hc hs hst⟩

end IdaRs.Pool
