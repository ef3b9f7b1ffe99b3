import IdaRs.PoolStep

/-!
# Invariants of the pool that hold in every run

In three layers, each a `Modular` invariant over `Step`.

* `Ids`: reserved ids are below `nextId` and belong to one task each; a slot exists from the moment its
  worker came up.
* `Locks`: a task in a critical section is recorded as the holder of its locks.
* `Owners`: what a session's handle, a lease that is being made and a release that is waiting know about
  their slot. Each slot has at most one of these, which is what makes the facts stable.
-/

namespace IdaRs.Pool

open Threads

variable {s s' : Shared} {i j : Nat} {pc pc' : Pc} {new : List Pc} {c c' : Conf Shared Pc}

/-! ### Reservations and ids -/

/-- The id a task holds a reservation for, and whether the slot exists. -/
def Pc.reserved : Pc → Option (Nat × Bool)
  | .resDrop id hasSlot _ => some (id, hasSlot)
  | pc => pc.reservation.map fun r => (r.1, r.2.1)

theorem opFailed_cases (op : Op) (e : ToolError) :
    (∃ expected, op.kind = .call expected ∧ opFailed op e = .clear op e false) ∨
      (∃ fresh, op.kind = .openIdb fresh ∧ (opFailed op e = .openTake op e ∨ opFailed op e = .done (.error e))) := by
  unfold opFailed
  cases hk : op.kind with
  | call expected => exact .inl ⟨expected, rfl, rfl⟩
  | openIdb fresh =>
    refine .inr ⟨fresh, rfl, ?_⟩
    dsimp only
    split
    exacts [.inl rfl, .inr rfl]

/-- The shared state after `mark_dead`: a guarded one gives up the call lock. -/
theorem afterDying_shared (w : Nat) (after : After) :
    (afterDying s w after).1 = if after.guard.isSome then s.setCallLock w none else s := by
  cases after <;> rfl

/-- What comes after `mark_dead` holds nothing. -/
theorem afterDying_pc (w : Nat) (after : After) :
    (∃ r, (afterDying s w after).2 = .done r) ∨
    (∃ op e, after = .call op e ∧ (afterDying s w after).2 = opFailed op e) ∨
      ∃ rel e, after = .release rel e ∧ (afterDying s w after).2 = .relCheck rel (some e) := by
  cases after <;> simp [afterDying]

/-- Where a task is when its request or its `mark_dead` is over: it holds nothing. -/
def Pc.quiet : Pc → Bool
  | .clear .. | .setIdbPath .. | .openTake .. | .relCheck .. | .done _ => true
  | _ => false

theorem opFailed_quiet (op : Op) (e : ToolError) : (opFailed op e).quiet := by
  rcases opFailed_cases op e with ⟨_, -, h⟩ | ⟨_, -, h | h⟩ <;> rw [h] <;> rfl

theorem afterDying_quiet (w : Nat) (after : After) : (afterDying s w after).2.quiet := by
  rcases afterDying_pc (s := s) w after with ⟨r, h⟩ | ⟨op, e, -, h⟩ | ⟨rel, e, -, h⟩ <;> rw [h]
  exacts [rfl, opFailed_quiet op e, rfl]

theorem Answered.quiet {op : Op} (h : Answered op pc') : pc'.quiet := by
  cases h
  case failed => exact opFailed_quiet ..
  all_goals rfl

/-! ### What a step does to a slot -/

/-- The worker whose call lock a task holds. -/
def Pc.callHeld : Pc → Option Nat
  | .request op => some op.worker
  | .relRpc rel => some rel.worker
  | .dying w _ after | .spawn _ (.ensure w after) | .install _ _ (.ensure w after) =>
    if after.guard.isSome then some w else none
  | _ => none

/-- The lock of a slot after a step of task `i`. -/
inductive LockChange (i : Nat) (pc : Pc) (w : Nat) (x y : Slot) : Prop
  | same (h : y.callLock = x.callLock)
  | locked (hx : x.callLock = none) (hy : y.callLock = some i)
  | unlocked (hpc : pc.callHeld = some w) (hy : y.callLock = none)

/-- The state of a slot after a step, with the reason for each change. -/
inductive StateChange (s : Shared) (pc : Pc) (w : Nat) (x y : Slot) : Prop
  | same (hst : y.state = x.state) (hg : y.generation = x.generation) (hu : y.lastUsed = x.lastUsed)
      (hn : y.leases = x.leases)
  | killed (after : After) (hpc : pc = .dying w .take after) (hst : y.state = .dead) (hn : y.leases = x.leases)
  | reaped (t : Timer) (n : Nat) (hpc : pc = .reapCount t [] n) (hw : t.worker = w)
      (hn : s.config.minWorkers < n) (hx : x.state = .idle) (hu : x.lastUsed ≤ t.sleepStarted)
      (hst : y.state = .dead) (hn : y.leases = x.leases)
  | leased (l : Lending) (todo : List Nat) (a : Nat) (d : List Nat) (seen : List (Nat × ChildState))
      (hpc : pc = .scan l (w :: todo) a d seen) (hx : x.state = .idle) (hst : y.state = .leased l.session)
      (hg : y.generation = l.generation) (hu : y.lastUsed = s.clock) (hn : y.leases = x.leases + 1)
  | closing (rel : Release) (hpc : pc = .relWait rel) (hw : rel.worker = w) (hc : x.callLock = none)
      (hx : x.state ≠ .dead) (hst : y.state = .closing) (hu : y.lastUsed = x.lastUsed) (hn : y.leases = x.leases)
  | idled (rel : Release) (hpc : pc = .relRpc rel) (hw : rel.worker = w) (hx : x.state ≠ .dead)
      (hst : y.state = .idle) (hu : y.lastUsed = s.clock) (hn : y.leases = x.leases)

theorem StateChange.refl {w : Nat} (x : Slot) : StateChange s pc w x x := .same rfl rfl rfl rfl

theorem setSlot_get {w v : Nat} {f : Slot → Slot} {x : Slot} (h : s.slots w = some x) :
    (s.setSlot v f).slots w = some (if w = v then f x else x) := by
  by_cases hw : w = v
  · subst hw; simp [h]
  · simp [hw, h]

/-- A step that changes one slot. -/
theorem slot_of_setSlot {w v : Nat} {f : Slot → Slot} {x : Slot} (hs : s'.slots = (s.setSlot v f).slots)
    (hx : s.slots w = some x) (hv : w = v → LockChange i pc w x (f x) ∧ StateChange s pc w x (f x)) :
    ∃ y, s'.slots w = some y ∧ LockChange i pc w x y ∧ StateChange s pc w x y := by
  refine ⟨_, hs ▸ setSlot_get hx, ?_⟩
  by_cases hw : w = v
  · rw [if_pos hw]; exact hv hw
  · rw [if_neg hw]; exact ⟨.same rfl, .refl x⟩

/-- A step that leaves the slots alone. -/
theorem slot_of_eq {w : Nat} {x : Slot} (hs : s'.slots = s.slots) (hx : s.slots w = some x) :
    ∃ y, s'.slots w = some y ∧ LockChange i pc w x y ∧ StateChange s pc w x y :=
  ⟨x, hs ▸ hx, .same rfl, .refl x⟩

theorem Pc.callHeld_of_guard {w : Nat} {o : Origin} (h : pc.guard = some (w, o)) : pc.callHeld = some w := by
  cases pc <;> simp only [Pc.guard, reduceCtorEq, Option.some.injEq, Prod.mk.injEq, Option.map_eq_some_iff] at h
  case request => exact congrArg some h.1
  case relRpc => exact congrArg some h.1
  case dying v _ after =>
    obtain ⟨a, ha, rfl, -⟩ := h
    simp [Pc.callHeld, ha]

theorem Pc.callHeld_of_reservation {id w : Nat} {hasSlot : Bool} {after : After} {o : Origin}
    (h : pc.reservation = some (id, hasSlot, .ensure w after)) (hg : after.guard = some o) :
    pc.callHeld = some w := by
  cases pc <;> simp only [Pc.reservation, reduceCtorEq, Option.some.injEq, Prod.mk.injEq] at h
  all_goals
    obtain ⟨-, -, rfl⟩ := h
    simp [Pc.callHeld, hg]

/-- What a step does to a slot that exists. -/
theorem Step.slot (h : Step s i pc s' pc' new) (hfresh : ∀ id who, pc = .spawn id who → s.slots id = none)
    {w : Nat} {x : Slot} (hx : s.slots w = some x) :
    ∃ y, s'.slots w = some y ∧ LockChange i pc w x y ∧ StateChange s pc w x y := by
  cases h
  case scanIdle l v todo a d seen hs =>
    refine slot_of_setSlot rfl hx fun hw => ?_
    subst hw
    rw [hx] at hs
    exact ⟨.same rfl, .leased l todo a d seen rfl (Option.some.inj hs) rfl rfl rfl rfl⟩
  case request op slot hs hc hst =>
    refine slot_of_setSlot rfl hx fun hw => ?_
    subst hw
    obtain rfl := Option.some.inj (hs.symm.trans hx)
    exact ⟨.locked hc rfl, .same rfl rfl rfl rfl⟩
  case answered =>
    exact slot_of_setSlot rfl hx fun hw => ⟨.unlocked (congrArg some hw.symm) rfl, .same rfl rfl rfl rfl⟩
  case setIdbPath => exact slot_of_setSlot rfl hx fun _ => ⟨.same rfl, .same rfl rfl rfl rfl⟩
  case kill v after =>
    refine slot_of_setSlot rfl hx fun hw => ?_
    subst hw
    split
    · exact ⟨.same rfl, .refl x⟩
    · exact ⟨.same rfl, .killed after rfl rfl rfl⟩
  case relClose rel slot hs hc hst =>
    refine slot_of_setSlot rfl hx fun hw => ?_
    subst hw
    obtain rfl := Option.some.inj (hs.symm.trans hx)
    exact ⟨.locked hc rfl, .closing rel rfl rfl hc hst rfl rfl rfl⟩
  case relRpcDead =>
    exact slot_of_setSlot rfl hx fun hw => ⟨.unlocked (congrArg some hw.symm) rfl, .same rfl rfl rfl rfl⟩
  case relIdle rel slot hs hst =>
    refine slot_of_setSlot rfl hx fun hw => ?_
    subst hw
    obtain rfl := Option.some.inj (hs.symm.trans hx)
    exact ⟨.unlocked rfl rfl, .idled rel rfl rfl hst rfl rfl rfl⟩
  case reapKill t n slot hn hs hst hu =>
    refine slot_of_setSlot rfl hx fun hw => ?_
    subst hw
    obtain rfl := Option.some.inj (hs.symm.trans hx)
    rw [if_neg (by rw [hst]; exact nofun)]
    exact ⟨.same rfl, .reaped t n rfl rfl hn hst hu rfl rfl⟩
  case dropGuard v y hg =>
    refine slot_of_setSlot rfl hx fun hw => ?_
    exact ⟨.unlocked (hw ▸ Pc.callHeld_of_guard hg) rfl, .same rfl rfl rfl rfl⟩
  case dropEnsure id hasSlot v after y hg hr =>
    refine slot_of_setSlot rfl hx fun hw => ?_
    exact ⟨.unlocked (hw ▸ Pc.callHeld_of_reservation hr hg) rfl, .same rfl rfl rfl rfl⟩
  case ensured v after =>
    rw [afterDying_shared]
    split
    · rename_i hg
      refine slot_of_setSlot rfl hx fun hw => ?_
      exact ⟨.unlocked (by simp [Pc.callHeld, hg, hw]) rfl, .same rfl rfl rfl rfl⟩
    · exact slot_of_eq rfl hx
  case installEnsureFailed id v after e hp =>
    rw [afterDying_shared]
    split
    · rename_i hg
      refine slot_of_setSlot (s := s) rfl hx fun hw => ?_
      exact ⟨.unlocked (by simp [Pc.callHeld, hg, hw]) rfl, .same rfl rfl rfl rfl⟩
    · exact slot_of_eq rfl hx
  case spawned id who =>
    have hw : w ≠ id := by
      rintro rfl
      rw [hfresh w who rfl] at hx
      cases hx
    exact ⟨x, by simp [hw, hx], .same rfl, .refl x⟩
  case clear =>
    refine slot_of_eq ?_ hx
    unfold clearHandle
    split <;> rfl
  all_goals exact slot_of_eq rfl hx

/-! ### Ids -/

/-- The slots after a step: the old ones, and that of the worker it spawned. -/
theorem Step.slots_none (h : Step s i pc s' pc' new) {w : Nat} (hw : s.slots w = none) :
    s'.slots w = none ∨ (∃ who, pc = .spawn w who ∧ pc' = .install w (.ok ()) who) := by
  cases h
  case spawned id who =>
    by_cases hid : w = id
    · subst hid; exact .inr ⟨who, rfl, rfl⟩
    · exact .inl (by simp [hid, hw])
  case ensured | installEnsureFailed =>
    rw [afterDying_shared]
    left
    split
    · simp [Function.update_apply, hw]
      rintro rfl
      simp [hw]
    · exact hw
  case clear =>
    left
    unfold clearHandle
    split <;> simp [hw]
  all_goals
    left
    simp [Function.update_apply, hw]
    try (rintro rfl; simp [hw])

/-- A step takes the next id for a worker it goes on to spawn, or leaves the counter alone. -/
theorem Step.nextId (h : Step s i pc s' pc' new) :
    s'.nextId = s.nextId ∨ s'.nextId = s.nextId + 1 ∧ new = [] ∧ pc.reserved = none ∧ s'.slots = s.slots ∧
      ∃ who, pc' = .spawn s.nextId who := by
  cases h
  case scanReserve => exact .inr ⟨rfl, rfl, rfl, rfl, _, rfl⟩
  case ensureReserve => exact .inr ⟨rfl, rfl, rfl, rfl, _, rfl⟩
  case ensured | installEnsureFailed => rw [afterDying_shared]; split <;> exact .inl rfl
  case clear => unfold clearHandle; split <;> exact .inl rfl
  all_goals exact .inl rfl

theorem Pc.reserved_of_quiet (h : pc.quiet) : pc.reserved = none := by
  cases pc <;> first | rfl | cases h

theorem Pc.reserved_of_reservation {id : Nat} {b : Bool} {who : Spawner}
    (h : pc.reservation = some (id, b, who)) : pc.reserved = some (id, b) := by
  cases pc <;> simp only [Pc.reservation, reduceCtorEq] at h
  all_goals simp only [Pc.reserved, Pc.reservation, Option.map_some, Option.some.injEq, Prod.mk.injEq] at h ⊢
  all_goals exact ⟨h.1, h.2.1⟩

/-- What becomes of reservations: a task takes one, its worker comes up or not, or it is dropped and
hands the reservation to a task it spawns. -/
inductive Reserving (s : Shared) (pc : Pc) (s' : Shared) (pc' : Pc) (new : List Pc) : Prop
  | none (hp : pc'.reserved = none) (hn : ∀ m ∈ new, m.reserved = none)
  | took (hp : pc'.reserved = some (s.nextId, false)) (hid : s'.nextId = s.nextId + 1) (hs : s'.slots = s.slots)
      (hl : s'.spawning = s.spawning ++ [s.nextId]) (hn : new = [])
  | came {id : Nat} (hpc : pc.reserved = some (id, false)) (hp : pc'.reserved = some (id, true))
      (hs : (s'.slots id).isSome) (hl : s'.spawning = s.spawning) (hn : new = [])
  | failed {id : Nat} (hpc : pc.reserved = some (id, false)) (hp : pc'.reserved = some (id, false))
      (hs : s' = s) (hn : new = [])
  | passed {id : Nat} {b : Bool} {m : Pc} {rest : List Pc} (hpc : pc.reserved = some (id, b))
      (hp : pc'.reserved = none) (hnew : new = m :: rest) (hm : m.reserved = some (id, b))
      (hrest : ∀ m ∈ rest, m.reserved = none) (hl : s'.spawning = s.spawning)
      (hsp : ∀ who, pc' ≠ .install id (.ok ()) who)

theorem Step.reserving (h : Step s i pc s' pc' new) : Reserving s pc s' pc' new := by
  cases h
  case scanReserve | ensureReserve => exact .took rfl rfl rfl rfl rfl
  case spawned id who => exact .came rfl rfl (by simp) rfl rfl
  case spawnFailed => exact .failed rfl rfl rfl rfl
  case ensured | installEnsureFailed => exact .none (Pc.reserved_of_quiet (afterDying_quiet ..)) (by simp)
  case refused => exact .none (Pc.reserved_of_quiet (opFailed_quiet ..)) (by simp)
  case answered ha => exact .none (Pc.reserved_of_quiet ha.quiet) (by simp)
  case clear | resDrop => exact .none (by split <;> rfl) (by simp)
  case dropLease hr => exact .passed (Pc.reserved_of_reservation hr) rfl rfl rfl (by simp) rfl (by simp)
  case dropEnsure hr =>
    exact .passed (Pc.reserved_of_reservation hr) rfl rfl rfl (by simp [Pc.reserved, Pc.reservation]) rfl (by simp)
  case dropEnsureCleared hr => exact .passed (Pc.reserved_of_reservation hr) rfl rfl rfl (by simp) rfl (by simp)
  case dropGuard | dropRelWait | relCheckIdle => exact .none rfl (by simp [Pc.reserved, Pc.reservation])
  all_goals exact .none rfl (List.forall_mem_nil _)

/-- `J`, `L` and `K` of the first layer. -/
def IdsShared (s : Shared) : Prop := ∀ w, s.nextId ≤ w → s.slots w = none

def IdsTask (s : Shared) (_ : Nat) (pc : Pc) : Prop :=
  ∀ id b, pc.reserved = some (id, b) → id < s.nextId ∧ (s.slots id).isSome = b

def IdsPair (l m : Pc) : Prop := ∀ id a b, l.reserved = some (id, a) → m.reserved = some (id, b) → False

abbrev Ids : Conf Shared Pc → Prop := Modular IdsShared IdsTask IdsPair

theorem IdsPair.symm {l m : Pc} (h : IdsPair l m) : IdsPair m l := fun id a b ha hb => h id b a hb ha

theorem IdsPair.of_none {l m : Pc} (h : m.reserved = none) : IdsPair l m := fun id a b _ hb => by
  rw [h] at hb; cases hb

theorem IdsTask.of_none (h : pc.reserved = none) : IdsTask s i pc := fun id b hb => by rw [h] at hb; cases hb

theorem Step.nextId_le (h : Step s i pc s' pc' new) : s.nextId ≤ s'.nextId := by
  rcases h.nextId with h | ⟨h, -⟩ <;> omega

/-- A slot whose worker the task is not spawning is there after the step when it was before. -/
theorem Step.isSome_eq (h : Step s i pc s' pc' new) (hfresh : ∀ id who, pc = .spawn id who → s.slots id = none)
    {w : Nat} (hw : ∀ who, pc' ≠ .install w (.ok ()) who) : (s'.slots w).isSome = (s.slots w).isSome := by
  cases hx : s.slots w with
  | none =>
    rcases h.slots_none hx with h | ⟨who, -, h⟩
    · rw [h]
    · exact absurd h (hw who)
  | some x =>
    obtain ⟨y, hy, -⟩ := h.slot hfresh hx
    rw [hy]; rfl

theorem Ids.fresh (h : Ids c) (hpc : c.threads[i]? = some pc) :
    ∀ id who, pc = .spawn id who → c.shared.slots id = none := by
  rintro id who rfl
  simpa using (h.threads i _ hpc id false rfl).2

theorem Ids.after (h : Ids c) (hpc : c.threads[i]? = some pc) (hs : Step c.shared i pc s' pc' new) :
    Ids (c.after i ⟨s', pc', new⟩) := by
  have hfresh := h.fresh hpc
  have hold : ∀ j m, j ≠ i → c.threads[j]? = some m → IdsTask s' j m := by
    intro j m hj hm id b hb
    obtain ⟨h₁, h₂⟩ := h.threads j m hm id b hb
    refine ⟨h₁.trans_le hs.nextId_le, ?_⟩
    rw [← h₂]
    refine hs.isSome_eq hfresh fun who hw => ?_
    -- the task that installs `id` would hold the reservation of `m`
    have : ∃ a, pc.reserved = some (id, a) := by
      cases hs.reserving with
      | none hp _ => rw [hw] at hp; cases hp
      | took hp _ _ _ _ => rw [hw] at hp; cases hp
      | came hpc hp _ _ _ => rw [hw] at hp; cases hp; exact ⟨_, hpc⟩
      | failed hpc hp _ _ => rw [hw] at hp; cases hp
      | passed _ hp _ _ _ _ _ => rw [hw] at hp; cases hp
    obtain ⟨a, ha⟩ := this
    exact h.pairs i j pc m (Ne.symm hj) hpc hm id a b ha hb
  have hpair : ∀ {l : Pc} {id : Nat} {a : Bool}, l.reserved = some (id, a) →
      (∃ b, pc.reserved = some (id, b)) → ∀ j m, j ≠ i → c.threads[j]? = some m → IdsPair l m := by
    rintro l id a hl ⟨b, hb⟩ j m hj hm id' a' b' ha' hb'
    obtain ⟨rfl, -⟩ := Prod.mk.inj (Option.some.inj (hl.symm.trans ha'))
    exact h.pairs i j pc m (Ne.symm hj) hpc hm id b b' hb hb'
  have hJ : IdsShared s' := by
    intro w hw
    rcases hs.slots_none (h.shared w (hs.nextId_le.trans hw)) with h' | ⟨who, hp, -⟩
    · exact h'
    · have := (h.threads i pc hpc w false (by rw [hp]; rfl)).1
      have := hs.nextId_le
      omega
  cases hs.reserving with
  | none hp hn =>
    exact h.thread (fun _ _ => IdsPair.symm) hpc hJ (.of_none hp) hold (fun j m hm _ => .of_none (hn m hm))
      (fun j m _ _ => (IdsPair.of_none hp).symm)
      (fun m hm => ⟨.of_none (hn m hm), fun _ _ _ _ => .of_none (hn m hm)⟩)
      (List.pairwise_of_forall_mem_list fun m _ m' hm' => .of_none (hn m' hm'))
  | took hp hid hsl _ hn =>
    subst hn
    refine h.thread (fun _ _ => IdsPair.symm) hpc hJ ?_ hold (by simp) ?_ (by simp) .nil
    · intro id b hb
      obtain ⟨rfl, rfl⟩ := Prod.mk.inj (Option.some.inj (hp.symm.trans hb))
      refine ⟨by dsimp only; omega, ?_⟩
      rw [hsl, h.shared _ le_rfl]
      rfl
    · intro j m hj hm id a b ha hb
      obtain ⟨rfl, -⟩ := Prod.mk.inj (Option.some.inj (hp.symm.trans ha))
      exact absurd (h.threads j m hm _ b hb).1 (lt_irrefl _)
  | came hpc₀ hp hsl _ hn =>
    subst hn
    refine h.thread (fun _ _ => IdsPair.symm) hpc hJ ?_ hold (by simp) (hpair hp ⟨_, hpc₀⟩) (by simp) .nil
    intro id b hb
    obtain ⟨rfl, rfl⟩ := Prod.mk.inj (Option.some.inj (hp.symm.trans hb))
    exact ⟨(h.threads i pc hpc _ _ hpc₀).1.trans_le hs.nextId_le, hsl⟩
  | failed hpc₀ hp hsl hn =>
    subst hn hsl
    refine h.thread (fun _ _ => IdsPair.symm) hpc hJ ?_ hold (by simp) (hpair hp ⟨_, hpc₀⟩) (by simp) .nil
    intro id b hb
    obtain ⟨rfl, rfl⟩ := Prod.mk.inj (Option.some.inj (hp.symm.trans hb))
    exact h.threads i pc hpc _ _ hpc₀
  | @passed id b m rest hpc₀ hp hnew hm hrest _ hsp =>
    subst hnew
    have hcases : ∀ m' ∈ m :: rest, m' = m ∨ m'.reserved = none := by
      intro m' hm'
      rcases List.mem_cons.1 hm' with rfl | hm'
      exacts [.inl rfl, .inr (hrest m' hm')]
    refine h.thread (fun _ _ => IdsPair.symm) hpc hJ (.of_none hp) hold ?_
      (fun j m _ _ => (IdsPair.of_none hp).symm) ?_ ?_
    · intro j m' hm' _
      rcases hcases m' hm' with rfl | hm'
      · intro id' b' hb'
        obtain ⟨rfl, rfl⟩ := Prod.mk.inj (Option.some.inj (hm.symm.trans hb'))
        obtain ⟨h₁, h₂⟩ := h.threads i pc hpc _ _ hpc₀
        exact ⟨h₁.trans_le hs.nextId_le, (hs.isSome_eq hfresh hsp).trans h₂⟩
      · exact .of_none hm'
    · intro m' hm'
      refine ⟨(IdsPair.of_none hp).symm, fun j l hj hl => ?_⟩
      rcases hcases m' hm' with rfl | hm'
      · exact (hpair hm ⟨b, hpc₀⟩ j l hj hl).symm
      · exact .of_none hm'
    · exact List.pairwise_cons.2 ⟨fun m' hm' => .of_none (hrest m' hm'),
        List.pairwise_of_forall_mem_list fun m₁ _ m₂ hm₂ => .of_none (hrest m₂ hm₂)⟩

theorem Pc.reserved_of_starts (h : pc.starts) : pc.reserved = none := by
  cases pc <;> first | rfl | cases h

theorem EnvStep.new_reserved (h : EnvStep c s' new) : ∀ m ∈ new, m.reserved = none := by
  cases h with
  | start hp => simpa using Pc.reserved_of_starts hp
  | dropSession | shutdown => simp [Pc.reserved, Pc.reservation]
  | tick => simp

theorem EnvStep.nextId (h : EnvStep c s' new) : s'.nextId = c.shared.nextId := by
  cases h <;> rfl

theorem EnvStep.slots (h : EnvStep c s' new) : s'.slots = c.shared.slots := by
  cases h <;> rfl

theorem Ids.env (h : Ids c) (hs : EnvStep c s' new) : Ids ⟨s', c.threads ++ new⟩ := by
  have hnew := hs.new_reserved
  have h₁ := hs.slots
  have h₂ := hs.nextId
  refine Modular.env h (fun _ _ => IdsPair.symm) ?_ (fun j m hm => ?_) (fun j m hm _ => .of_none (hnew m hm))
    (fun m hm m' _ => .of_none (hnew m hm))
    (List.pairwise_of_forall_mem_list fun m _ m' hm' => .of_none (hnew m' hm'))
  · rw [IdsShared, h₁, h₂]; exact h.shared
  · rw [IdsTask, h₁, h₂]; exact h.threads j m hm

/-! ### Locks -/

def Pc.poolHeld : Pc → Bool
  | .scan .. | .reapCount .. => true
  | _ => false

/-- The lease a task is making under its session's lock. -/
def Pc.lending : Pc → Option Lending
  | .leaseWait l | .scan l _ _ _ _ | .spawn _ (.lease l) | .install _ _ (.lease l) | .store l _ => some l
  | _ => none

structure LocksTask (s : Shared) (i : Nat) (pc : Pc) : Prop where
  pool : pc.poolHeld → s.poolLock = some i
  session : ∀ l, pc.lending = some l → (s.sessions l.session).lock = some i
  call : ∀ w, pc.callHeld = some w → ∃ x, s.slots w = some x ∧ x.callLock = some i

/-- The pool lock after a step of task `i`. -/
inductive PoolLockChange (s : Shared) (i : Nat) (pc : Pc) (s' : Shared) (pc' : Pc) : Prop
  | same (h : s'.poolLock = s.poolLock) (hp : pc'.poolHeld = pc.poolHeld)
  | locked (h : s.poolLock = none) (h' : s'.poolLock = some i)
  | unlocked (hpc : pc.poolHeld) (hp : pc'.poolHeld = false) (h' : s'.poolLock = none)

/-- A session after a step of task `i`. -/
inductive SessionChange (i : Nat) (pc pc' : Pc) (x : String) (a b : Session) : Prop
  | same (hh : b.handle = a.handle) (hn : b.nextGeneration = a.nextGeneration) (hl : b.lock = a.lock)
  | fresh (secs : Nat) (hpc : pc = .openLock x secs) (ha : a.lock = none) (hh : a.handle = none)
      (hb : b = { a with nextGeneration := a.nextGeneration + 1, lock := some i })
      (hpc' : pc' = .leaseWait ⟨x, a.nextGeneration + 1, secs⟩)
  | stored (l : Lending) (w : Nat) (hpc : pc = .store l w) (hx : l.session = x)
      (hb : b = { a with handle := some ⟨w, l.generation⟩, lock := none })
  | unlocked (l : Lending) (hpc : pc.lending = some l) (hx : l.session = x) (hpc' : ∃ r, pc' = .done r)
      (hb : b = { a with lock := none })
  | taken (cause : Cause) (lease : Lease) (hpc : pc.takes = some (x, cause)) (ha : a.lock = none)
      (hh : a.handle = some lease) (hpc' : pc' = .relWait ⟨x, lease.worker, lease.generation, cause⟩)
      (hb : b = { a with handle := none })
  | cleared (op : Op) (e : ToolError) (retire : Bool) (hpc : pc = .clear op e retire) (hx : op.session = x)
      (ha : a.lock = none) (hh : a.handle.any (·.worker = op.worker)) (hb : b = { a with handle := none })
      (hpc' : pc' = if retire then .dying op.worker .take (.cleared op e) else .done (.error e))

theorem Pc.poolHeld_of_quiet (h : pc.quiet) : pc.poolHeld = false := by
  cases pc <;> first | rfl | cases h

theorem Pc.lending_of_quiet (h : pc.quiet) : pc.lending = none := by
  cases pc <;> first | rfl | cases h

theorem Pc.callHeld_of_quiet (h : pc.quiet) : pc.callHeld = none := by
  cases pc <;> first | rfl | cases h

theorem Step.poolLock (h : Step s i pc s' pc' new) : PoolLockChange s i pc s' pc' := by
  cases h
  case lockScan hp | reapLock hp => exact .locked hp rfl
  case scanIdle | scanFull | scanReserve | reapKeep | reapKill | dropScan => exact .unlocked rfl rfl rfl
  case ensured | installEnsureFailed =>
    refine .same ?_ (Pc.poolHeld_of_quiet (afterDying_quiet ..))
    rw [afterDying_shared]; split <;> rfl
  case clear =>
    refine .same ?_ (by split <;> rfl)
    unfold clearHandle; split <;> rfl
  case refused => exact .same rfl (Pc.poolHeld_of_quiet (opFailed_quiet ..))
  case answered ha => exact .same rfl (Pc.poolHeld_of_quiet ha.quiet)
  case resDrop => exact .same rfl (by split <;> rfl)
  case take hpc => exact .same rfl (by cases pc <;> first | rfl | cases hpc)
  case finish hpc => exact .same rfl (by cases pc <;> first | rfl | cases hpc)
  case dropLease hpc | dropEnsure hpc | dropEnsureCleared hpc | dropGuard hpc =>
    exact .same rfl (by cases pc <;> first | rfl | cases hpc)
  all_goals exact .same rfl rfl

theorem setSession_get (x y : String) (f : Session → Session) :
    (s.setSession y f).sessions x = if x = y then f (s.sessions x) else s.sessions x := by
  by_cases h : x = y
  · subst h; simp
  · simp [h]

/-- A step that changes one session. -/
theorem session_of_setSession {x y : String} {f : Session → Session} (hs : s'.sessions = (s.setSession y f).sessions)
    (hy : x = y → SessionChange i pc pc' x (s.sessions x) (f (s.sessions x))) :
    SessionChange i pc pc' x (s.sessions x) (s'.sessions x) := by
  rw [hs, setSession_get]
  split
  · exact hy ‹_›
  · exact .same rfl rfl rfl

theorem Pc.lending_of_reservation {id : Nat} {b : Bool} {l : Lending}
    (h : pc.reservation = some (id, b, .lease l)) : pc.lending = some l := by
  cases pc <;> simp only [Pc.reservation, reduceCtorEq, Option.some.injEq, Prod.mk.injEq] at h
  all_goals
    obtain ⟨-, -, rfl⟩ := h
    rfl

theorem session_of_unlock {x : String} {l : Lending} (hpc : pc.lending = some l) (hpc' : ∃ r, pc' = .done r)
    (hs : s'.sessions = (s.unlockSession l.session).sessions) :
    SessionChange i pc pc' x (s.sessions x) (s'.sessions x) :=
  session_of_setSession hs fun hx => .unlocked l hpc hx.symm hpc' rfl

theorem Step.session (h : Step s i pc s' pc' new) (x : String) :
    SessionChange i pc pc' x (s.sessions x) (s'.sessions x) := by
  cases h
  case openFresh y secs hl hh =>
    refine session_of_setSession rfl fun hx => ?_
    subst hx
    exact .fresh secs rfl hl hh rfl rfl
  case store l w => exact session_of_setSession rfl fun hx => .stored l w rfl hx.symm rfl
  case scanFull | installFailed | dropLeaseWait | dropScan => exact session_of_unlock rfl ⟨_, rfl⟩ rfl
  case dropLease hr => exact session_of_unlock (Pc.lending_of_reservation hr) ⟨_, rfl⟩ rfl
  case take y cause lease hl hh hpc =>
    refine session_of_setSession rfl fun hx => ?_
    subst hx
    exact .taken cause lease hpc hl hh rfl rfl
  case clear op e retire hl =>
    by_cases hw : (s.sessions op.session).handle.any (·.worker = op.worker)
    · rw [clearHandle, if_pos hw]
      refine session_of_setSession rfl fun hx => ?_
      subst hx
      exact .cleared op e retire rfl rfl hl hw rfl rfl
    · rw [clearHandle, if_neg hw]
      exact .same rfl rfl rfl
  case ensured | installEnsureFailed =>
    rw [afterDying_shared]; split <;> exact .same rfl rfl rfl
  all_goals exact .same rfl rfl rfl

/-- Task `i` leaves the locks of the others alone. -/
theorem LocksTask.other {m : Pc} (h : LocksTask s j m) (hj : j ≠ i) (hi : LocksTask s i pc)
    (hs : Step s i pc s' pc' new) (hfresh : ∀ id who, pc = .spawn id who → s.slots id = none) :
    LocksTask s' j m := by
  refine ⟨fun hp => ?_, fun l hl => ?_, fun w hw => ?_⟩
  · have hm := h.pool hp
    cases hs.poolLock with
    | same hs _ => rw [hs, hm]
    | locked hs _ => rw [hs] at hm; cases hm
    | unlocked hpc _ _ => exact absurd (Option.some.inj (hm.symm.trans (hi.pool hpc))) hj
  · have hm := h.session l hl
    cases hs.session l.session with
    | same _ _ hl => rw [hl, hm]
    | fresh _ _ ha _ _ _ => rw [ha] at hm; cases hm
    | stored l' w hpc hx _ =>
      have := hi.session l' (by rw [hpc]; rfl)
      rw [hx, hm] at this
      exact absurd (Option.some.inj this) hj
    | unlocked l' hpc hx _ _ =>
      have := hi.session l' hpc
      rw [hx, hm] at this
      exact absurd (Option.some.inj this) hj
    | taken _ _ _ ha _ _ _ => rw [ha] at hm; cases hm
    | cleared _ _ _ _ _ ha _ _ => rw [ha] at hm; cases hm
  · obtain ⟨x, hx, hm⟩ := h.call w hw
    obtain ⟨y, hy, hlock, -⟩ := hs.slot hfresh hx
    refine ⟨y, hy, ?_⟩
    cases hlock with
    | same hs => rw [hs, hm]
    | locked hs _ => rw [hs] at hm; cases hm
    | unlocked hpc _ =>
      obtain ⟨x', hx', hi'⟩ := hi.call w hpc
      obtain rfl := Option.some.inj (hx.symm.trans hx')
      exact absurd (Option.some.inj (hm.symm.trans hi')) hj

/-- A lease in progress after a step was so before, or the task just took its session's lock. -/
theorem Step.lending {l : Lending} (h : Step s i pc s' pc' new) (hl : pc'.lending = some l) :
    pc.lending = some l ∨ ((∃ secs, pc = .openLock l.session secs) ∧ (s.sessions l.session).handle = none ∧
      l.generation = (s.sessions l.session).nextGeneration + 1 ∧
      s' = s.setSession l.session fun st => { st with nextGeneration := st.nextGeneration + 1, lock := some i }) := by
  cases h
  case openFresh x secs _ hh =>
    obtain rfl := Option.some.inj hl
    exact .inr ⟨⟨secs, rfl⟩, hh, rfl, rfl⟩
  case ensured | installEnsureFailed => rw [Pc.lending_of_quiet (afterDying_quiet ..)] at hl; cases hl
  case refused => rw [Pc.lending_of_quiet (opFailed_quiet ..)] at hl; cases hl
  case answered ha => rw [Pc.lending_of_quiet ha.quiet] at hl; cases hl
  case clear | resDrop => split at hl <;> cases hl
  case spawned who | spawnFailed who _ => cases who <;> exact .inl hl
  all_goals first | exact .inl hl | cases hl

/-- The call lock of a task after its step. -/
theorem Step.callHeld {w : Nat} (h : Step s i pc s' pc' new) (hi : LocksTask s i pc)
    (hfresh : ∀ id who, pc = .spawn id who → s.slots id = none) (hw : pc'.callHeld = some w) :
    ∃ x, s'.slots w = some x ∧ x.callLock = some i := by
  cases h
  case request op slot hs hc hst =>
    cases hw
    exact ⟨_, setSlot_get hs, by rw [if_pos rfl]⟩
  case relClose rel slot hs hc hst =>
    cases hw
    exact ⟨_, setSlot_get hs, by rw [if_pos rfl]⟩
  case kill v after =>
    obtain ⟨x, hx, hc⟩ := hi.call w hw
    refine ⟨_, setSlot_get hx, ?_⟩
    split
    · split <;> exact hc
    · exact hc
  case spawned id who =>
    have hheld : (Pc.spawn id who).callHeld = some w := by cases who <;> exact hw
    obtain ⟨x, hx, hc⟩ := hi.call w hheld
    have hne : w ≠ id := by
      rintro rfl
      rw [hfresh w who rfl] at hx
      cases hx
    exact ⟨x, by simp [hne, hx], hc⟩
  case spawnFailed id who e =>
    have hheld : (Pc.spawn id who).callHeld = some w := by cases who <;> exact hw
    exact hi.call w hheld
  case retire | relRetire => exact hi.call w hw
  case ensured | installEnsureFailed => rw [Pc.callHeld_of_quiet (afterDying_quiet ..)] at hw; cases hw
  case refused => rw [Pc.callHeld_of_quiet (opFailed_quiet ..)] at hw; cases hw
  case answered ha => rw [Pc.callHeld_of_quiet ha.quiet] at hw; cases hw
  case clear | resDrop => split at hw <;> cases hw
  all_goals first | exact hi.call w hw | cases hw

theorem Step.store_lending {l : Lending} {w : Nat} (h : Step s i (.store l w) s' pc' new) : pc'.lending = none := by
  cases h
  case store => rfl
  case take hpc => cases hpc
  case finish hpc => cases hpc
  case dropLease hpc => cases hpc
  case dropEnsure hpc => cases hpc
  case dropEnsureCleared hpc => cases hpc
  case dropGuard hpc => cases hpc

/-- A lease that goes on leaves its session alone. -/
theorem Step.session_kept {l l' : Lending} (h : Step s i pc s' pc' new) (hi : LocksTask s i pc)
    (hl : pc.lending = some l) (hl' : pc'.lending = some l') :
    (s'.sessions l.session).handle = (s.sessions l.session).handle ∧
      (s'.sessions l.session).nextGeneration = (s.sessions l.session).nextGeneration ∧
      (s'.sessions l.session).lock = (s.sessions l.session).lock := by
  have hlock := hi.session l hl
  cases h.session l.session with
  | same h₁ h₂ h₃ => exact ⟨h₁, h₂, h₃⟩
  | fresh _ hpc => rw [hpc] at hl; cases hl
  | stored _ _ hpc => rw [hpc] at h; rw [h.store_lending] at hl'; cases hl'
  | unlocked _ _ _ hpc' => obtain ⟨r, rfl⟩ := hpc'; cases hl'
  | taken _ _ _ ha => rw [hlock] at ha; cases ha
  | cleared _ _ _ hpc => rw [hpc] at hl; cases hl

theorem LocksTask.self (hi : LocksTask s i pc) (hs : Step s i pc s' pc' new)
    (hfresh : ∀ id who, pc = .spawn id who → s.slots id = none) : LocksTask s' i pc' := by
  refine ⟨fun hp => ?_, fun l hl => ?_, fun w hw => hs.callHeld hi hfresh hw⟩
  · cases hs.poolLock with
    | same h hp' => rw [h]; exact hi.pool (hp' ▸ hp)
    | locked _ h => exact h
    | unlocked _ h _ => rw [h] at hp; cases hp
  · rcases hs.lending hl with hpc | ⟨-, -, -, rfl⟩
    · rw [(hs.session_kept hi hpc hl).2.2, hi.session l hpc]
    · simp

/-- The task holds no lock. -/
structure Pc.Unlocked (pc : Pc) : Prop where
  pool : pc.poolHeld = false
  lending : pc.lending = none
  call : pc.callHeld = none

theorem LocksTask.of_unlocked (h : pc.Unlocked) : LocksTask s i pc where
  pool hp := by rw [h.pool] at hp; cases hp
  session l hl := by rw [h.lending] at hl; cases hl
  call w hw := by rw [h.call] at hw; cases hw

theorem Pc.unlocked_of_newborn (h : pc.newborn) : pc.Unlocked := by
  cases pc
  case dying phase after => cases phase <;> cases after <;> first | exact ⟨rfl, rfl, rfl⟩ | cases h
  all_goals first | exact ⟨rfl, rfl, rfl⟩ | cases h

abbrev Locks : Conf Shared Pc → Prop := Modular (fun _ => True) LocksTask fun _ _ => True

theorem Locks.after (h : Locks c) (hI : Ids c) (hpc : c.threads[i]? = some pc)
    (hs : Step c.shared i pc s' pc' new) : Locks (c.after i ⟨s', pc', new⟩) := by
  have hi := h.threads i pc hpc
  refine h.thread (fun _ _ _ => trivial) hpc trivial (hi.self hs (hI.fresh hpc))
    (fun j m hj hm => (h.threads j m hm).other hj hi hs (hI.fresh hpc))
    (fun j m hm _ => .of_unlocked (Pc.unlocked_of_newborn (hs.newborn m hm))) (fun _ _ _ _ => trivial)
    (fun _ _ => ⟨trivial, fun _ _ _ _ => trivial⟩) (List.pairwise_of_forall fun _ _ => trivial)

/-- The environment leaves the handle, the counter and the lock of a session alone. -/
theorem EnvStep.session (h : EnvStep c s' new) (x : String) :
    (s'.sessions x).handle = (c.shared.sessions x).handle ∧
      (s'.sessions x).nextGeneration = (c.shared.sessions x).nextGeneration ∧
      (s'.sessions x).lock = (c.shared.sessions x).lock := by
  cases h with
  | dropSession =>
    rw [setSession_get]
    split <;> exact ⟨rfl, rfl, rfl⟩
  | start | tick | shutdown => exact ⟨rfl, rfl, rfl⟩

theorem Locks.env (h : Locks c) (hs : EnvStep c s' new) : Locks ⟨s', c.threads ++ new⟩ := by
  refine Modular.env h (fun _ _ _ => trivial) trivial (fun j m hm => ?_)
    (fun j m hm _ => .of_unlocked (Pc.unlocked_of_newborn (hs.newborn m hm))) (fun _ _ _ _ => trivial)
    (List.pairwise_of_forall fun _ _ => trivial)
  obtain ⟨h₁, h₂, h₃⟩ := h.threads j m hm
  refine ⟨fun hp => ?_, fun l hl => ?_, fun w hw => ?_⟩
  · have : s'.poolLock = c.shared.poolLock := by cases hs <;> rfl
    rw [this, h₁ hp]
  · rw [(hs.session l.session).2.2, h₂ l hl]
  · rw [hs.slots]; exact h₃ w hw

end IdaRs.Pool
