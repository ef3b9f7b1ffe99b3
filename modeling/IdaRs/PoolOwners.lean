import IdaRs.PoolMembers

/-!
# Who owns a lease

`Owners` is the fourth layer: what a session's handle, a lease in progress, a release that is waiting and the
tasks under `call_lock` know about their slot. A lease that is not dead has one owner, which is what makes
these facts stable: a slot leaves `Leased` only through its owner or dead.

`Inv` puts the four layers together; every reachable configuration has it.
-/

namespace IdaRs.Pool

open Threads

variable {s s' : Shared} {i j w : Nat} {pc pc' : Pc} {new : List Pc} {c c' : Conf Shared Pc}

/-- The slot is leased to `x` for the lease `g`, or its worker died. -/
def Slot.Serves (x : String) (g : Nat) (slot : Slot) : Prop :=
  slot.state = .dead ∨ slot.state = .leased x ∧ slot.generation = g

/-- A lease outside a handle: the worker, the session and the generation. -/
def Pc.owned : Pc → Option (Nat × String × Nat)
  | .install id (.ok _) (.lease l) => some (id, l.session, l.generation)
  | .store l w => some (w, l.session, l.generation)
  | .relWait rel => some (rel.worker, rel.session, rel.generation)
  | _ => none

/-- A request under `call_lock`, until its worker is killed. -/
def Pc.calling : Pc → Option (Nat × String)
  | .request op | .dying _ .take (.call op _) => some (op.worker, op.session)
  | _ => none

/-- A release under `call_lock`, until its worker is killed. -/
def Pc.closing : Pc → Option Nat
  | .relRpc rel | .dying _ .take (.release rel _) => some rel.worker
  | _ => none

/-- The worker that a `mark_dead` has killed. -/
def Pc.killed : Pc → Option Nat
  | .dying w .forget _ | .dying w .ensure _ | .spawn _ (.ensure w _) | .install _ _ (.ensure w _) => some w
  | _ => none

/-- The worker a task is about to look at. -/
def Pc.target : Pc → Option Nat
  | .waitCall op | .request op | .clear op _ _ => some op.worker
  | .dying w .take _ => some w
  | _ => none

/-- A `mark_dead` runs on the worker of the operation that waits for it. -/
def After.Matches (w : Nat) : After → Prop
  | .call op _ | .cleared op _ => op.worker = w
  | .release rel _ => rel.worker = w
  | .task _ | .shutdown => True

def Pc.matched : Pc → Prop
  | .dying w _ after | .spawn _ (.ensure w after) | .install _ _ (.ensure w after) => after.Matches w
  | _ => True

structure OwnersShared (s : Shared) : Prop where
  serves : ∀ x lease, (s.sessions x).handle = some lease → s.SlotIs lease.worker (Slot.Serves x lease.generation)
  generation : ∀ x lease, (s.sessions x).handle = some lease → (s.sessions x).nextGeneration = lease.generation
  unique : ∀ x y lease lease', (s.sessions x).handle = some lease → (s.sessions y).handle = some lease' →
    lease.worker = lease'.worker → x = y

structure OwnersTask (s : Shared) (_ : Nat) (pc : Pc) : Prop where
  lending : ∀ l, pc.lending = some l →
    (s.sessions l.session).handle = none ∧ (s.sessions l.session).nextGeneration = l.generation
  serves : ∀ w x g, pc.owned = some (w, x, g) → s.SlotIs w (Slot.Serves x g)
  unhandled : ∀ w x g, pc.owned = some (w, x, g) → ∀ y lease, (s.sessions y).handle = some lease → lease.worker ≠ w
  calling : ∀ w x, pc.calling = some (w, x) → s.SlotIs w fun slot => slot.state = .dead ∨ slot.state = .leased x
  closing : ∀ w, pc.closing = some w → s.SlotIs w fun slot => slot.state = .dead ∨ slot.state = .closing
  killed : ∀ w, pc.killed = some w → s.SlotIs w fun slot => slot.state = .dead
  target : ∀ w, pc.target = some w → (s.slots w).isSome
  matched : pc.matched

def OwnersPair (l m : Pc) : Prop :=
  ∀ w x y g k, l.owned = some (w, x, g) → m.owned = some (w, y, k) → False

abbrev Owners : Conf Shared Pc → Prop := Modular OwnersShared OwnersTask OwnersPair

theorem OwnersPair.symm {l m : Pc} (h : OwnersPair l m) : OwnersPair m l :=
  fun w x y g k hl hm => h w y x k g hm hl

theorem OwnersPair.of_none {l m : Pc} (h : m.owned = none) : OwnersPair l m := fun w x y g k _ hm => by
  rw [h] at hm; cases hm

/-! ### Stability -/

theorem Slot.Serves.not_idle {x : String} {g : Nat} {slot : Slot} (h : slot.Serves x g) : slot.state ≠ .idle := by
  rcases h with h | h
  · rw [h]; simp
  · rw [h.1]; simp

/-- The dead stay dead. -/
theorem StateChange.dead {x y : Slot} (h : StateChange s pc w x y) (hx : x.state = .dead) : y.state = .dead := by
  cases h with
  | same hst => rw [hst, hx]
  | killed _ _ hst => exact hst
  | reaped _ _ _ _ _ _ _ hst => exact hst
  | leased _ _ _ _ _ _ h => rw [h] at hx; cases hx
  | closing _ _ _ _ h => exact absurd hx h
  | idled _ _ _ h => exact absurd hx h

/-- A lease ends by its worker's death or when a release of this worker marks it `Closing`. -/
theorem StateChange.serves {x y : Slot} {z : String} {g : Nat} (h : StateChange s pc w x y) (hx : x.Serves z g)
    (hclosing : ∀ rel, pc = .relWait rel → rel.worker ≠ w)
    (hidle : ∀ rel, pc = .relRpc rel → rel.worker = w → x.state = .dead ∨ x.state = .closing) : y.Serves z g := by
  cases h with
  | same hst hg => rw [Slot.Serves, hst, hg]; exact hx
  | killed _ _ hst => exact .inl hst
  | reaped _ _ _ _ _ _ _ hst => exact .inl hst
  | leased _ _ _ _ _ _ h => exact absurd h hx.not_idle
  | closing rel hpc hw => exact absurd hw (hclosing rel hpc)
  | idled rel hpc hw hd =>
    rcases hidle rel hpc hw with h | h
    · exact absurd h hd
    · rcases hx with hx | hx
      · exact absurd hx hd
      · rw [h] at hx; cases hx.1

/-- Under the call lock of another task a slot stays as it is, or dies. -/
theorem Step.slot_callHeld {m : Pc} {p : ChildState → Prop} (h : Step s i pc s' pc' new) (hi : LocksTask s i pc)
    (hfresh : ∀ id who, pc = .spawn id who → s.slots id = none) (hm : LocksTask s j m) (hj : j ≠ i)
    (hw : m.callHeld = some w) (hp : s.SlotIs w fun x => x.state = .dead ∨ p x.state) (hidle : ¬ p .idle) :
    s'.SlotIs w fun x => x.state = .dead ∨ p x.state := by
  obtain ⟨z, hz, hlock⟩ := hm.call w hw
  refine hp.step h hfresh fun x y hx hp hst => ?_
  obtain rfl := Option.some.inj (hx.symm.trans hz)
  have hne : pc.callHeld ≠ some w := by
    intro hpc
    obtain ⟨z, hz, hlock'⟩ := hi.call w hpc
    obtain rfl := Option.some.inj (hx.symm.trans hz)
    exact hj (Option.some.inj (hlock.symm.trans hlock'))
  cases hst with
  | same hst => rw [hst]; exact hp
  | killed _ _ hst => exact .inl hst
  | reaped _ _ _ _ _ _ _ hst => exact .inl hst
  | leased _ _ _ _ _ _ h =>
    rw [h] at hp
    rcases hp with hp | hp
    · cases hp
    · exact absurd hp hidle
  | closing _ _ _ hc => rw [hc] at hlock; cases hlock
  | idled rel hpc hw => exact absurd (hw ▸ hpc ▸ rfl) hne

theorem Pc.callHeld_of_calling {x : String} (h : pc.calling = some (w, x)) (hm : pc.matched) :
    pc.callHeld = some w := by
  cases pc
  case request op => cases h; rfl
  case dying v phase after =>
    cases phase <;> cases after <;> cases h
    rw [← hm]; rfl
  all_goals cases h

theorem Pc.callHeld_of_closing (h : pc.closing = some w) (hm : pc.matched) : pc.callHeld = some w := by
  cases pc
  case relRpc rel => cases h; rfl
  case dying v phase after =>
    cases phase <;> cases after <;> cases h
    rw [← hm]; rfl
  all_goals cases h

/-! ### What a task comes to own -/

inductive OwnedChange (s : Shared) (pc : Pc) (s' : Shared) (w : Nat) (x : String) (g : Nat) : Prop
  | kept (hpc : pc.owned = some (w, x, g)) (hsl : s'.slots = s.slots) (hses : s'.sessions = s.sessions)
  | leased (hw : ∀ y k, ¬ s.SlotIs w (Slot.Serves y k)) (hsl : s'.SlotIs w (Slot.Serves x g))
      (hses : s'.sessions = s.sessions)
  | taken (hh : (s.sessions x).handle = some ⟨w, g⟩) (hs : s' = s.setHandle x none)

theorem Pc.owned_of_quiet (h : pc.quiet) : pc.owned = none := by
  cases pc <;> first | rfl | cases h

theorem Step.owned {x : String} {g : Nat} (h : Step s i pc s' pc' new)
    (hfresh : ∀ id who, pc = .spawn id who → s.slots id = none) (ho : pc'.owned = some (w, x, g)) :
    OwnedChange s pc s' w x g := by
  cases h
  case scanIdle l v todo a d seen hs =>
    obtain ⟨rfl, rfl, rfl⟩ := by simpa [Pc.owned] using ho
    obtain ⟨slot, hslot, hst⟩ := Option.map_eq_some_iff.1 hs
    refine .leased ?_ ⟨_, setSlot_get hslot, ?_⟩ rfl
    · rintro y k ⟨slot', hslot', hserves⟩
      obtain rfl := Option.some.inj (hslot.symm.trans hslot')
      exact hserves.not_idle hst
    · rw [if_pos rfl]; exact .inr ⟨rfl, rfl⟩
  case spawned id who =>
    cases who with
    | ensure => cases ho
    | lease l =>
      obtain ⟨rfl, rfl, rfl⟩ := by simpa [Pc.owned] using ho
      refine .leased ?_ ⟨_, Function.update_self .., .inr ⟨rfl, rfl⟩⟩ rfl
      rintro y k ⟨slot, hslot, -⟩
      rw [hfresh id _ rfl] at hslot
      cases hslot
  case spawnFailed who e => cases who <;> cases ho
  case installLease => exact .kept ho rfl rfl
  case take y cause lease hl hh hpc =>
    obtain ⟨rfl, rfl, rfl⟩ := by simpa [Pc.owned] using ho
    exact .taken hh rfl
  case ensured | installEnsureFailed => rw [Pc.owned_of_quiet (afterDying_quiet ..)] at ho; cases ho
  case refused => rw [Pc.owned_of_quiet (opFailed_quiet ..)] at ho; cases ho
  case answered ha => rw [Pc.owned_of_quiet ha.quiet] at ho; cases ho
  case clear | resDrop => split at ho <;> cases ho
  all_goals cases ho

/-- A handle after a step: an old one, or the one that the task stored. -/
theorem Step.handle {x : String} {lease : Lease} (h : Step s i pc s' pc' new)
    (hh : (s'.sessions x).handle = some lease) :
    ((s.sessions x).handle = some lease ∧
      ((s'.sessions x).nextGeneration = (s.sessions x).nextGeneration)) ∨
    ∃ l, pc = .store l lease.worker ∧ l.session = x ∧ l.generation = lease.generation ∧
      (s'.sessions x).nextGeneration = (s.sessions x).nextGeneration := by
  cases h.session x with
  | same h₁ h₂ => rw [h₁] at hh; exact .inl ⟨hh, h₂⟩
  | fresh _ _ _ ha hb => rw [hb, ha] at hh; cases hh
  | stored l w hpc hx hb =>
    rw [hb] at hh ⊢
    obtain rfl := Option.some.inj hh
    exact .inr ⟨l, hpc, hx, rfl, rfl⟩
  | unlocked _ _ _ _ hb => rw [hb] at hh ⊢; exact .inl ⟨hh, rfl⟩
  | taken _ _ _ _ _ _ hb => rw [hb] at hh; cases hh
  | cleared _ _ _ _ _ _ _ hb => rw [hb] at hh; cases hh

theorem Pc.calling_of_quiet (h : pc.quiet) : pc.calling = none := by
  cases pc <;> first | rfl | cases h

theorem Pc.closing_of_quiet (h : pc.quiet) : pc.closing = none := by
  cases pc <;> first | rfl | cases h

theorem Step.calling {x : String} (h : Step s i pc s' pc' new) (hc : pc'.calling = some (w, x)) :
    (pc.calling = some (w, x) ∧ s' = s) ∨ s'.SlotIs w fun slot => slot.state = .leased x := by
  cases h
  case request op slot hs _ hst =>
    cases hc
    exact .inr ⟨_, setSlot_get hs, by rw [if_pos rfl]; exact hst⟩
  case retire => exact .inl ⟨hc, rfl⟩
  case ensured | installEnsureFailed => rw [Pc.calling_of_quiet (afterDying_quiet ..)] at hc; cases hc
  case refused => rw [Pc.calling_of_quiet (opFailed_quiet ..)] at hc; cases hc
  case answered ha => rw [Pc.calling_of_quiet ha.quiet] at hc; cases hc
  case clear | resDrop => split at hc <;> cases hc
  all_goals cases hc

theorem Step.closing (h : Step s i pc s' pc' new) (hc : pc'.closing = some w) :
    (pc.closing = some w ∧ s' = s) ∨ s'.SlotIs w fun slot => slot.state = .closing := by
  cases h
  case relClose rel slot hs _ _ =>
    cases hc
    exact .inr ⟨_, setSlot_get hs, by rw [if_pos rfl]⟩
  case relRetire => exact .inl ⟨hc, rfl⟩
  case ensured | installEnsureFailed => rw [Pc.closing_of_quiet (afterDying_quiet ..)] at hc; cases hc
  case refused => rw [Pc.closing_of_quiet (opFailed_quiet ..)] at hc; cases hc
  case answered ha => rw [Pc.closing_of_quiet ha.quiet] at hc; cases hc
  case clear | resDrop => split at hc <;> cases hc
  all_goals cases hc

theorem Pc.killed_of_quiet (h : pc.quiet) : pc.killed = none := by
  cases pc <;> first | rfl | cases h

theorem Pc.matched_of_quiet (h : pc.quiet) : pc.matched := by
  cases pc <;> trivial

theorem Step.killed (h : Step s i pc s' pc' new) (hk : pc'.killed = some w) :
    pc.killed = some w ∨ (pc.target = some w ∧ s' = s.kill w) := by
  cases h
  case kill => cases hk; exact .inr ⟨rfl, rfl⟩
  case spawned who | spawnFailed who _ => cases who <;> exact .inl hk
  case ensured | installEnsureFailed => rw [Pc.killed_of_quiet (afterDying_quiet ..)] at hk; cases hk
  case refused => rw [Pc.killed_of_quiet (opFailed_quiet ..)] at hk; cases hk
  case answered ha => rw [Pc.killed_of_quiet ha.quiet] at hk; cases hk
  case clear | resDrop => split at hk <;> cases hk
  all_goals first | exact .inl hk | cases hk

theorem Step.matched (h : Step s i pc s' pc' new) (hm : pc.matched) : pc'.matched := by
  cases h
  case spawned who | spawnFailed who _ => cases who <;> exact hm
  case ensured | installEnsureFailed => exact Pc.matched_of_quiet (afterDying_quiet ..)
  case refused => exact Pc.matched_of_quiet (opFailed_quiet ..)
  case answered ha => exact Pc.matched_of_quiet ha.quiet
  case retire | relRetire => exact rfl
  case clear | resDrop => split <;> trivial
  all_goals trivial

theorem opFailed_target {op : Op} {e : ToolError} (h : (opFailed op e).target = some w) : op.worker = w := by
  rcases opFailed_cases op e with ⟨_, -, he⟩ | ⟨_, -, he | he⟩ <;> rw [he] at h <;> cases h
  rfl

theorem afterDying_target {v : Nat} {after : After} (h : (afterDying s v after).2.target = some w)
    (hm : after.Matches v) : v = w := by
  rcases afterDying_pc (s := s) v after with ⟨r, he⟩ | ⟨op, e, rfl, he⟩ | ⟨rel, e, -, he⟩ <;> rw [he] at h
  · cases h
  · rw [← opFailed_target h]; exact hm.symm
  · cases h

/-- The worker a task looks at next is that of a handle, of a lease or a request it holds, of its reservation
or of the `mark_dead` it comes from. -/
theorem Step.target (h : Step s i pc s' pc' new) (hm : pc.matched) (ht : pc'.target = some w) :
    pc.target = some w ∨ (∃ x g, pc.owned = some (w, x, g)) ∨ pc.closing = some w ∨ pc.killed = some w ∨
      pc.reserved = some (w, true) ∨ ∃ x lease, (s.sessions x).handle = some lease ∧ lease.worker = w := by
  cases h
  case openReuse hh | resolve hh _ => cases ht; exact .inr (.inr (.inr (.inr (.inr ⟨_, _, hh, rfl⟩))))
  case store => cases ht; exact .inr (.inl ⟨_, _, rfl⟩)
  case relRetire => cases ht; exact .inr (.inr (.inl rfl))
  case resDrop =>
    split at ht
    · rename_i hb; cases ht; rw [hb]; exact .inr (.inr (.inr (.inr (.inl rfl))))
    · cases ht
  case clear =>
    split at ht
    · exact .inl ht
    · cases ht
  case request | retire => exact .inl ht
  case answered op ha =>
    cases ha
    case clear => exact .inl ht
    case failed => exact .inl (congrArg some (opFailed_target ht))
    all_goals cases ht
  case refused => exact .inl (congrArg some (opFailed_target ht))
  case ensured | installEnsureFailed =>
    exact .inr (.inr (.inr (.inl (congrArg some (afterDying_target ht hm)))))
  all_goals cases ht

theorem Step.new_target {m : Pc} (h : Step s i pc s' pc' new) (hm : m ∈ new) (ht : m.target = some w) :
    pc.callHeld = some w ∨ ∃ x g, pc.owned = some (w, x, g) := by
  cases h
  case dropGuard hg =>
    obtain rfl := List.mem_singleton.1 hm
    cases ht
    exact .inl (Pc.callHeld_of_guard hg)
  case dropRelWait =>
    obtain rfl := List.mem_singleton.1 hm
    cases ht
    exact .inr ⟨_, _, rfl⟩
  case dropEnsure hg hr =>
    rcases List.mem_cons.1 hm with rfl | hm
    · cases ht
    · obtain rfl := List.mem_singleton.1 hm
      cases ht
      exact .inl (Pc.callHeld_of_reservation hr hg)
  case relCheckIdle => obtain rfl := List.mem_singleton.1 hm; cases ht
  case dropLease => obtain rfl := List.mem_singleton.1 hm; cases ht
  case dropEnsureCleared => obtain rfl := List.mem_singleton.1 hm; cases ht
  all_goals cases hm

/-- The task knows nothing about any slot. -/
structure Pc.Unowned (pc : Pc) : Prop where
  lending : pc.lending = none
  owned : pc.owned = none
  calling : pc.calling = none
  closing : pc.closing = none
  killed : pc.killed = none
  matched : pc.matched

theorem OwnersTask.of_unowned (h : pc.Unowned) (ht : ∀ w, pc.target = some w → (s.slots w).isSome) :
    OwnersTask s i pc where
  lending l hl := by rw [h.lending] at hl; cases hl
  serves w x g hw := by rw [h.owned] at hw; cases hw
  unhandled w x g hw := by rw [h.owned] at hw; cases hw
  calling w x hw := by rw [h.calling] at hw; cases hw
  closing w hw := by rw [h.closing] at hw; cases hw
  killed w hw := by rw [h.killed] at hw; cases hw
  target := ht
  matched := h.matched

theorem Pc.unowned_of_newborn (h : pc.newborn) : pc.Unowned := by
  cases pc
  case dying phase after =>
    cases phase <;> cases after <;> first | exact ⟨rfl, rfl, rfl, rfl, rfl, trivial⟩ | cases h
  all_goals first | exact ⟨rfl, rfl, rfl, rfl, rfl, trivial⟩ | cases h

/-! ### The layer is kept -/

/-- Facts about slots and handles that a step of task `i` leaves to the others. -/
theorem Owners.serves_step (h : Owners c) (hI : Ids c) (hpc : c.threads[i]? = some pc)
    (hs : Step c.shared i pc s' pc' new) {x : String} {g : Nat} (hw : c.shared.SlotIs w (Slot.Serves x g))
    (howned : ∀ y k, pc.owned ≠ some (w, y, k)) : s'.SlotIs w (Slot.Serves x g) := by
  refine hw.step hs (hI.fresh hpc) fun a b ha hserves hst => hst.serves hserves ?_ ?_
  · rintro rel rfl rfl
    exact howned _ _ rfl
  · rintro rel rfl rfl
    obtain ⟨a', ha', hst⟩ := (h.threads i _ hpc).closing _ rfl
    obtain rfl := Option.some.inj (ha.symm.trans ha')
    exact hst

/-- The session of a lease in progress changes through its own task only. -/
theorem Step.session_lending {l : Lending} {m : Pc} (h : Step s i pc s' pc' new) (hi : LocksTask s i pc)
    (hm : LocksTask s j m) (hj : j ≠ i) (hl : m.lending = some l) :
    (s'.sessions l.session).handle = (s.sessions l.session).handle ∧
      (s'.sessions l.session).nextGeneration = (s.sessions l.session).nextGeneration := by
  have hlock := hm.session l hl
  have hne : ∀ l', pc.lending = some l' → l'.session ≠ l.session := by
    intro l' hl' hx
    have := hi.session l' hl'
    rw [hx, hlock] at this
    exact hj (Option.some.inj this)
  cases h.session l.session with
  | same h₁ h₂ => exact ⟨h₁, h₂⟩
  | fresh _ _ ha => rw [hlock] at ha; cases ha
  | stored l' w hpc hx => exact absurd hx (hne l' (by rw [hpc]; rfl))
  | unlocked l' hpc hx => exact absurd hx (hne l' hpc)
  | taken _ _ _ ha => rw [hlock] at ha; cases ha
  | cleared _ _ _ _ _ ha => rw [hlock] at ha; cases ha

theorem Owners.other {m : Pc} (h : Owners c) (hI : Ids c) (hL : Locks c) (hpc : c.threads[i]? = some pc)
    (hs : Step c.shared i pc s' pc' new) (hj : j ≠ i) (hm : c.threads[j]? = some m) : OwnersTask s' j m := by
  obtain ⟨hlend, hserves, hunh, hcall, hclose, hkill, htgt, hmat⟩ := h.threads j m hm
  have hi := hL.threads i pc hpc
  have hfresh := hI.fresh hpc
  refine ⟨fun l hl => ?_, fun w x g hw => ?_, fun w x g hw y lease hy => ?_, fun w x hw => ?_, fun w hw => ?_,
    fun w hw => ?_, fun w hw => hs.isSome_mono hfresh (htgt w hw), hmat⟩
  · rw [(hs.session_lending hi (hL.threads j m hm) hj hl).1, (hs.session_lending hi (hL.threads j m hm) hj hl).2]
    exact hlend l hl
  · exact h.serves_step hI hpc hs (hserves w x g hw) fun y k hp =>
      h.pairs i j pc m (Ne.symm hj) hpc hm w y x k g hp hw
  · rcases hs.handle hy with ⟨hy, -⟩ | ⟨l, rfl, -⟩
    · exact hunh w x g hw y lease hy
    · rintro rfl
      exact h.pairs i j _ m (Ne.symm hj) hpc hm lease.worker _ x _ g rfl hw
  · exact hs.slot_callHeld (p := fun st => st = .leased x) hi hfresh (hL.threads j m hm) hj
      (Pc.callHeld_of_calling hw hmat) (hcall w x hw) (by simp)
  · exact hs.slot_callHeld (p := fun st => st = .closing) hi hfresh (hL.threads j m hm) hj
      (Pc.callHeld_of_closing hw hmat) (hclose w hw) (by simp)
  · exact (hkill w hw).step hs hfresh fun _ _ _ hx hst => hst.dead hx

theorem Owners.self (h : Owners c) (hI : Ids c) (hL : Locks c) (hpc : c.threads[i]? = some pc)
    (hs : Step c.shared i pc s' pc' new) : OwnersTask s' i pc' := by
  have hown := h.threads i pc hpc
  have hfresh := hI.fresh hpc
  refine ⟨fun l hl => ?_, fun w x g hw => ?_, fun w x g hw y lease hy => ?_, fun w x hw => ?_, fun w hw => ?_,
    fun w hw => ?_, fun w hw => ?_, hs.matched hown.matched⟩
  · rcases hs.lending hl with hpc' | ⟨-, hh, hg, rfl⟩
    · obtain ⟨h₁, h₂, -⟩ := hs.session_kept (hL.threads i pc hpc) hpc' hl
      rw [h₁, h₂]
      exact hown.lending l hpc'
    · simp [hh, hg]
  · cases hs.owned hfresh hw with
    | kept hpc hsl => rw [Shared.SlotIs, hsl]; exact hown.serves w x g hpc
    | leased _ hsl => exact hsl
    | taken hh hs => subst hs; exact h.shared.serves x _ hh
  · cases hs.owned hfresh hw with
    | kept hpc _ hses => rw [hses] at hy; exact hown.unhandled w x g hpc y lease hy
    | leased hne _ hses =>
      rw [hses] at hy
      rintro rfl
      exact hne _ _ (h.shared.serves y lease hy)
    | taken hh hs =>
      rintro rfl
      subst hs
      rw [Shared.setHandle, setSession_get] at hy
      split at hy
      · cases hy
      · rename_i hne
        exact hne (h.shared.unique y x lease _ hy hh rfl)
  · rcases hs.calling hw with ⟨hw, rfl⟩ | hw
    · exact hown.calling w x hw
    · exact hw.mono fun _ => .inr
  · rcases hs.closing hw with ⟨hw, rfl⟩ | hw
    · exact hown.closing w hw
    · exact hw.mono fun _ => .inr
  · rcases hs.killed hw with hw | ⟨hw, rfl⟩
    · exact (hown.killed w hw).step hs hfresh fun _ _ _ hx hst => hst.dead hx
    · obtain ⟨x, hx⟩ := Option.isSome_iff_exists.1 (hown.target w hw)
      refine ⟨_, setSlot_get hx, ?_⟩
      rw [if_pos rfl]
      split
      · assumption
      · rfl
  · refine hs.isSome_mono hfresh ?_
    rcases hs.target hown.matched hw with ht | ⟨x, g, ho⟩ | hc | hk | hr | ⟨x, lease, hh, rfl⟩
    · exact hown.target w ht
    · exact (hown.serves w x g ho).isSome
    · exact (hown.closing w hc).isSome
    · exact (hown.killed w hk).isSome
    · exact (hI.threads i pc hpc w true hr).2
    · exact (h.shared.serves x lease hh).isSome

theorem Owners.shared_step (h : Owners c) (hI : Ids c) (hpc : c.threads[i]? = some pc)
    (hs : Step c.shared i pc s' pc' new) : OwnersShared s' := by
  have hown := h.threads i pc hpc
  refine ⟨fun x lease hx => ?_, fun x lease hx => ?_, fun x y lease lease' hx hy hw => ?_⟩
  · rcases hs.handle hx with ⟨hx, -⟩ | ⟨l, rfl, rfl, hg, -⟩
    · exact h.serves_step hI hpc hs (h.shared.serves x lease hx) fun y k ho =>
        hown.unhandled _ y k ho x lease hx rfl
    · -- the slot of a lease that is stored does not change in that step
      have hserves := hown.serves _ _ _ rfl
      rw [hg] at hserves
      cases hs <;> first | exact hserves | (rename_i hp; cases hp)
  · rcases hs.handle hx with ⟨hx, hn⟩ | ⟨l, rfl, rfl, hg, hn⟩
    · rw [hn, h.shared.generation x lease hx]
    · rw [hn, (hown.lending l rfl).2, hg]
  · rcases hs.handle hx with ⟨hx, -⟩ | ⟨l, rfl, rfl, -⟩ <;> rcases hs.handle hy with ⟨hy, -⟩ | ⟨l', hl', rfl, -⟩
    · exact h.shared.unique x y lease lease' hx hy hw
    · subst hl'
      exact absurd hw (hown.unhandled _ _ _ rfl x lease hx)
    · exact absurd hw.symm (hown.unhandled _ _ _ rfl y lease' hy)
    · obtain ⟨rfl, -⟩ := Pc.store.inj hl'
      rfl

theorem Owners.pair_step {m : Pc} (h : Owners c) (hI : Ids c) (hpc : c.threads[i]? = some pc)
    (hs : Step c.shared i pc s' pc' new) (hj : j ≠ i) (hm : c.threads[j]? = some m) : OwnersPair pc' m := by
  intro w x y g k ho hom
  cases hs.owned (hI.fresh hpc) ho with
  | kept hpc' => exact h.pairs i j pc m (Ne.symm hj) hpc hm w x y g k hpc' hom
  | leased hne => exact hne y k ((h.threads j m hm).serves w y k hom)
  | taken hh => exact (h.threads j m hm).unhandled w y k hom x _ hh rfl

theorem Owners.after (h : Owners c) (hI : Ids c) (hL : Locks c) (hpc : c.threads[i]? = some pc)
    (hs : Step c.shared i pc s' pc' new) : Owners (c.after i ⟨s', pc', new⟩) := by
  have hown := h.threads i pc hpc
  have hnone : ∀ m ∈ new, m.owned = none := fun m hm => (Pc.unowned_of_newborn (hs.newborn m hm)).owned
  refine h.thread (fun _ _ => OwnersPair.symm) hpc (h.shared_step hI hpc hs) (h.self hI hL hpc hs)
    (fun j m hj hm => h.other hI hL hpc hs hj hm)
    (fun j m hm _ => .of_unowned (Pc.unowned_of_newborn (hs.newborn m hm)) fun w ht => ?_)
    (fun j m hj hm => h.pair_step hI hpc hs hj hm)
    (fun m hm => ⟨.of_none (hnone m hm), fun _ _ _ _ => .of_none (hnone m hm)⟩)
    (List.pairwise_of_forall_mem_list fun m _ m' hm' => .of_none (hnone m' hm'))
  refine hs.isSome_mono (hI.fresh hpc) ?_
  rcases hs.new_target hm ht with hc | ⟨x, g, ho⟩
  · obtain ⟨x, hx, -⟩ := (hL.threads i pc hpc).call w hc
    rw [hx]; rfl
  · exact (hown.serves w x g ho).isSome

/-- `shutdown_all` looks at the children. -/
theorem EnvStep.new_target {m : Pc} (h : EnvStep c s' new) (hm : m ∈ new) (ht : m.target = some w) :
    w ∈ c.shared.children := by
  cases h with
  | start hp => obtain rfl := List.mem_singleton.1 hm; cases m <;> first | cases hp; done | cases ht
  | dropSession => obtain rfl := List.mem_singleton.1 hm; cases ht
  | tick => cases hm
  | shutdown =>
    obtain ⟨v, hv, rfl⟩ := List.mem_map.1 hm
    cases ht
    exact hv

theorem Owners.env (h : Owners c) (hM : Members c) (hs : EnvStep c s' new) : Owners ⟨s', c.threads ++ new⟩ := by
  have hnone : ∀ m ∈ new, m.owned = none := fun m hm => (Pc.unowned_of_newborn (hs.newborn m hm)).owned
  have hslot : ∀ {w p}, c.shared.SlotIs w p → s'.SlotIs w p := by
    intro w p hw
    rw [Shared.SlotIs, hs.slots]; exact hw
  have hh := fun x => (hs.session x).1
  have hn := fun x => (hs.session x).2.1
  refine Modular.env h (fun _ _ => OwnersPair.symm)
    ⟨fun x lease hx => ?_, fun x lease hx => ?_, fun x y lease lease' hx hy => ?_⟩
    (fun j m hm => ?_) (fun j m hm _ => .of_unowned (Pc.unowned_of_newborn (hs.newborn m hm)) fun w ht => ?_)
    (fun m hm _ _ => .of_none (hnone m hm))
    (List.pairwise_of_forall_mem_list fun m _ m' hm' => .of_none (hnone m' hm'))
  · exact hslot (h.shared.serves x lease (hh x ▸ hx))
  · rw [hn, h.shared.generation x lease (hh x ▸ hx)]
  · exact h.shared.unique x y lease lease' (hh x ▸ hx) (hh y ▸ hy)
  · obtain ⟨hlend, hserves, hunh, hcall, hclose, hkill, htgt, hmat⟩ := h.threads j m hm
    refine ⟨fun l hl => ?_, fun w x g hw => hslot (hserves w x g hw), fun w x g hw y lease hy => ?_,
      fun w x hw => hslot (hcall w x hw), fun w hw => hslot (hclose w hw), fun w hw => hslot (hkill w hw),
      fun w hw => ?_, hmat⟩
    · rw [hh, hn]; exact hlend l hl
    · exact hunh w x g hw y lease (hh y ▸ hy)
    · rw [hs.slots]; exact htgt w hw
  · rw [hs.slots]; exact hM.shared.slot w (hs.new_target hm ht)

/-! ### All layers -/

structure Inv (c : Conf Shared Pc) : Prop where
  ids : Ids c
  locks : Locks c
  members : Members c
  owners : Owners c

theorem Inv.of_init (h : Init c) : Inv c := by
  have hnone : ∀ {i : Nat} {pc : Pc}, c.threads[i]? ≠ some pc := by
    intro i pc
    rw [h.threads]; simp
  refine ⟨⟨fun w hw => h.unused w (h.nextId ▸ hw), fun i pc hpc => absurd hpc hnone,
      fun i j l m _ hl => absurd hl hnone⟩,
    ⟨trivial, fun i pc hpc => absurd hpc hnone, fun _ _ _ _ _ _ _ => trivial⟩,
    ⟨?_, fun i pc hpc => absurd hpc hnone, fun _ _ _ _ _ _ _ => trivial⟩,
    ⟨?_, fun i pc hpc => absurd hpc hnone, fun i j l m _ hl => absurd hl hnone⟩⟩
  · refine ⟨by rw [h.children, h.spawning]; simpa using List.nodup_range, ?_, ?_⟩
    · rw [h.children, h.spawning, h.nextId]; simp
    · intro w hw
      rw [h.children, List.mem_range] at hw
      obtain ⟨t, -, ht⟩ := h.warm w hw
      rw [ht]; rfl
  · have hh : ∀ x lease, (c.shared.sessions x).handle ≠ some lease := by
      intro x lease
      rw [h.sessions]; simp
    exact ⟨fun x lease hx => absurd hx (hh x lease), fun x lease hx => absurd hx (hh x lease),
      fun x y lease _ hx => absurd hx (hh x lease)⟩

theorem Inv.after (h : Inv c) (hpc : c.threads[i]? = some pc) (hs : Step c.shared i pc s' pc' new) :
    Inv (c.after i ⟨s', pc', new⟩) :=
  ⟨h.ids.after hpc hs, h.locks.after h.ids hpc hs, h.members.after h.ids h.locks hpc hs,
    h.owners.after h.ids h.locks hpc hs⟩

theorem Inv.env (h : Inv c) (hs : EnvStep c s' new) : Inv ⟨s', c.threads ++ new⟩ :=
  ⟨h.ids.env hs, h.locks.env hs, h.members.env hs, h.owners.env h.members hs⟩

/-- The rule for what holds in runs whose steps meet `C`: the steps of a task, then those outside. -/
theorem reachable_induct {C : Conf Shared Pc → Act Event Env → Prop} {I : Conf Shared Pc → Prop}
    (h0 : ∀ c, Init c → I c)
    (hthread : ∀ c i e pc s' pc' new, program.Reachable Init C c → Inv c → I c → C c (.thread i e) →
      c.threads[i]? = some pc →
      exec c.shared i pc e = some ⟨s', pc', new⟩ → Step c.shared i pc s' pc' new → I (c.after i ⟨s', pc', new⟩))
    (henv : ∀ c x s' new, Inv c → I c → C c (.env x) → EnvStep c s' new → I ⟨s', c.threads ++ new⟩)
    {c : Conf Shared Pc} (h : program.Reachable Init C c) : Inv c ∧ I c := by
  refine h.induct (I := fun c => Inv c ∧ I c) (fun c hc => ⟨.of_init hc, h0 c hc⟩) fun c c' a hr hI hC hstep => ?_
  cases a with
  | thread i e =>
    obtain ⟨pc, o, hpc, ho, rfl⟩ := step_thread_iff.1 hstep
    have hs := exec_step ho
    exact ⟨hI.1.after hpc hs, hthread c i e pc _ _ _ hr hI.1 hI.2 hC hpc ho hs⟩
  | env x =>
    obtain ⟨r, hr, rfl⟩ := step_env_iff.1 hstep
    have hs := env_step hr
    exact ⟨hI.1.env hs, henv c x _ _ hI.1 hI.2 hC hs⟩

end IdaRs.Pool
