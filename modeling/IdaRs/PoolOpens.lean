import IdaRs.PoolRetire

/-!
# Opens that fail

An open obtains a generation when it begins a lease or finds one in the session's handle. Until it is over the
session may close that lease and begin another, also on the same worker. `failed_open_releases_own`: where
its request, its retirements and its release meet no lease but its own, an open that obtained `g` leaves
every other lease as it is. `failed_open_releases_next` are the three ways in which it takes one down.
-/

namespace IdaRs.Pool

open Threads

variable {s s' : Shared} {i j w : Nat} {pc pc' : Pc} {new : List Pc} {c c' : Conf Shared Pc} {x : String} {g : Nat}

/-! ### The tasks of an open -/

/-- The session and the generation of the open that a task was spawned for. -/
def Origin.lease (o : Origin) : Option (String × Nat) := o.opened.map (o.session, ·)

/-- The session and the generation of the open whose task this is, until the open went through. -/
def Pc.opening : Pc → Option (String × Nat)
  | .leaseWait l | .scan l _ _ _ _ | .spawn _ (.lease l) | .install _ _ (.lease l) | .store l _ => l.origin.lease
  | .waitCall op | .request op => op.origin.lease
  | .openTake op _ => some (op.session, op.generation)
  | .dying _ _ after | .spawn _ (.ensure _ after) | .install _ _ (.ensure _ after) => after.origin.lease
  | .relWait rel | .relRpc rel | .relCheck rel _ => rel.origin.lease
  | .resDrop _ _ o => o.lease
  | _ => none

/-- The worker that the task is going to kill, or may, for an open. -/
def Pc.ending : Pc → Option (Nat × String × Nat)
  | .request op => op.origin.lease.map (op.worker, ·)
  | .dying w .take after => after.origin.lease.map (w, ·)
  | .resDrop id true o => o.lease.map (id, ·)
  | .install id (.ok _) (.lease l) => l.origin.lease.map (id, ·)
  | .install id (.ok _) (.ensure _ after) => after.origin.lease.map (id, ·)
  | _ => none

def After.release? : After → Option Release
  | .release rel _ => some rel
  | _ => none

/-- The release a task is busy with. -/
def Pc.release : Pc → Option Release
  | .relWait rel | .relRpc rel | .relCheck rel _ => some rel
  | .dying _ _ after | .spawn _ (.ensure _ after) | .install _ _ (.ensure _ after) => after.release?
  | _ => none

/-- An open sends its request to no worker that serves its session for another lease, takes the handle of no
other lease when it fails, and no session leases a worker that is still to be killed for an open. -/
def opensMeetOwn (c : Conf Shared Pc) : Act Event Env → Bool
  | .thread i .go =>
    match c.threads[i]? with
    | some (.waitCall op) =>
      op.origin.opened.all fun g => (c.shared.slots op.worker).all fun slot =>
        decide (slot.callLock = none → slot.state = .leased op.session → slot.generation = g)
    | some (.openTake op _) =>
      let st := c.shared.sessions op.session
      decide (st.handle = none ∨ st.nextGeneration = op.generation)
    | some (.scan _ (w :: _) _ _ _) => !c.shared.isIdle w || c.threads.all fun pc => pc.ending.all (·.1 ≠ w)
    | _ => true
  | _ => true

theorem Origin.lease_eq {o : Origin} : o.lease = some (x, g) ↔ o.session = x ∧ o.opened = some g := by
  rw [Origin.lease, Option.map_eq_some_iff]
  constructor
  · rintro ⟨k, hk, h⟩
    cases h
    exact ⟨rfl, hk⟩
  · rintro ⟨rfl, hk⟩
    exact ⟨g, hk, rfl⟩

theorem Op.origin_lease {op : Op} (h : op.origin.lease = some (x, g)) : op.session = x ∧ op.generation = g := by
  obtain ⟨hx, hg⟩ := Origin.lease_eq.1 h
  refine ⟨hx, ?_⟩
  unfold Op.origin at hg
  split at hg
  · exact Option.some.inj hg
  · cases hg

theorem Release.origin_lease {rel : Release} (h : rel.origin.lease = some (x, g)) :
    rel.session = x ∧ ∃ err, rel.cause = .openFailed g err := by
  obtain ⟨hx, hg⟩ := Origin.lease_eq.1 h
  refine ⟨hx, ?_⟩
  unfold Release.origin at hg
  split at hg
  · rename_i k err hk
    cases hg
    exact ⟨err, hk⟩
  · cases hg

theorem opFailed_release (op : Op) (e : ToolError) : (opFailed op e).release = none := by
  rcases opFailed_cases op e with ⟨_, -, h⟩ | ⟨_, -, h | h⟩ <;> rw [h] <;> rfl

theorem afterDying_release {after : After} {rel : Release} (h : (afterDying s w after).2.release = some rel) :
    after.release? = some rel := by
  rcases afterDying_pc (s := s) w after with ⟨r, he⟩ | ⟨op, e, -, he⟩ | ⟨rel', e, rfl, he⟩ <;> rw [he] at h
  · cases h
  · rw [opFailed_release] at h; cases h
  · exact h

theorem Step.release {rel : Release} (h : Step s i pc s' pc' new) (hr : pc'.release = some rel) :
    pc.release = some rel ∨ (pc.takes = some (rel.session, rel.cause) ∧
      (s.sessions rel.session).handle = some ⟨rel.worker, rel.generation⟩) := by
  cases h
  case take hh hpc => cases hr; exact .inr ⟨hpc, hh⟩
  case spawned who | spawnFailed who _ => cases who <;> exact .inl hr
  case ensured | installEnsureFailed => exact .inl (afterDying_release hr)
  case refused => rw [opFailed_release] at hr; cases hr
  case answered ha =>
    cases ha
    case failed => rw [opFailed_release] at hr; cases hr
    all_goals cases hr
  case clear | resDrop => split at hr <;> cases hr
  all_goals first | exact .inl hr | cases hr

theorem Pc.release_of_newborn (h : pc.newborn) : pc.release = none := by
  cases pc
  case dying phase after => cases phase <;> cases after <;> first | rfl | cases h
  all_goals first | rfl | cases h

/-- The slot serves nobody, or `x` for the lease `g`. -/
def Slot.OnlyServes (x : String) (g : Nat) (slot : Slot) : Prop :=
  ∀ y, slot.state = .leased y → y = x ∧ slot.generation = g

theorem Slot.OnlyServes.of_unleased {slot : Slot} (h : ∀ y, slot.state ≠ .leased y) : slot.OnlyServes x g :=
  fun y hy => absurd hy (h y)

theorem Slot.Serves.onlyServes {slot : Slot} (h : slot.Serves x g) : slot.OnlyServes x g := by
  intro y hy
  rcases h with h | ⟨h, hg⟩
  · rw [hy] at h; cases h
  · rw [hy] at h
    exact ⟨ChildState.leased.inj h, hg⟩

/-- Only when it is leased again does the slot serve another lease. -/
theorem StateChange.onlyServes {a b : Slot} (h : StateChange s pc w a b) (ha : a.OnlyServes x g)
    (hlease : ∀ l todo n d seen, pc = .scan l (w :: todo) n d seen → a.state = .idle → b.state = .idle) :
    b.OnlyServes x g := by
  cases h with
  | same hst hg => rw [Slot.OnlyServes, hst, hg]; exact ha
  | leased l todo n d seen hpc hi hst =>
    rw [hlease l todo n d seen hpc hi] at hst; cases hst
  | killed _ _ hst | reaped _ _ _ _ _ _ _ hst | closing _ _ _ _ _ hst | idled _ _ _ _ hst =>
    refine .of_unleased fun y hy => ?_
    rw [hst] at hy; cases hy

/-- What a task for an open knows of the leases it ends: they are the open's own. -/
structure OpenTask (s : Shared) (pc : Pc) : Prop where
  releases : ∀ rel g err, pc.release = some rel → rel.cause = .openFailed g err → rel.generation = g
  ending : ∀ w x g, pc.ending = some (w, x, g) → s.SlotIs w (Slot.OnlyServes x g)

/-! ### What a step of an open's task changes -/

/-- The task may change a leased slot of the worker. -/
def Pc.Touches (w : Nat) : Pc → Prop
  | .waitCall op | .request op | .setIdbPath op _ => op.worker = w
  | .dying v _ _ | .spawn _ (.ensure v _) | .install _ _ (.ensure v _) => v = w
  | .relWait rel | .relRpc rel => rel.worker = w
  | _ => False

theorem Pc.touches_of_callHeld (h : pc.callHeld = some w) : pc.Touches w := by
  cases pc
  case spawn who | install who =>
    cases who with
    | lease => cases h
    | ensure v after =>
      simp only [Pc.callHeld, Option.ite_none_right_eq_some, Option.some.injEq] at h
      exact h.2
  case dying =>
    simp only [Pc.callHeld, Option.ite_none_right_eq_some, Option.some.injEq] at h
    exact h.2
  all_goals cases h <;> rfl

theorem setSlot_other {f : Slot → Slot} {v : Nat} (h : w ≠ v) : (s.setSlot v f).slots w = s.slots w := by
  simp [h]

/-- A slot that is leased stays exactly as it is under a task that does not touch its worker. -/
theorem Step.leased_untouched {a : Slot} {y : String} (h : Step s i pc s' pc' new)
    (hfresh : ∀ id who, pc = .spawn id who → s.slots id = none) (ha : s.slots w = some a)
    (hst : a.state = .leased y) (hw : ¬ pc.Touches w) : s'.slots w = some a := by
  have other : ∀ {f : Slot → Slot} {v : Nat}, (w = v → pc.Touches w) → (s.setSlot v f).slots w = some a :=
    fun hv => (setSlot_other fun hwv => hw (hv hwv)).trans ha
  cases h
  case scanIdle l v todo n d seen hs =>
    refine (setSlot_other ?_).trans ha
    rintro rfl
    rw [ha, Option.map_some, hst] at hs
    cases hs
  case spawned id who =>
    refine (Function.update_of_ne ?_ ..).trans ha
    rintro rfl
    rw [hfresh w who rfl] at ha
    cases ha
  case reapKill t n slot _ hs hidle _ =>
    refine (setSlot_other ?_).trans ha
    rintro rfl
    obtain rfl := Option.some.inj (hs.symm.trans ha)
    rw [hst] at hidle
    cases hidle
  case ensured | installEnsureFailed =>
    rw [afterDying_shared]
    split
    · exact other fun hv => hv.symm
    · exact ha
  case clear op e retire _ =>
    unfold clearHandle
    split <;> exact ha
  case request | answered | setIdbPath | kill | relClose | relRpcDead | relIdle => exact other fun hv => hv.symm
  case dropEnsure id hasSlot v after o hg hr =>
    exact other fun hv => hv ▸ Pc.touches_of_callHeld (Pc.callHeld_of_reservation hr hg)
  case dropGuard v o hg => exact other fun hv => hv ▸ Pc.touches_of_callHeld (Pc.callHeld_of_guard hg)
  all_goals exact ha

theorem Step.waitCall_shared {op : Op} (h : Step s i (.waitCall op) s' pc' new) :
    s' = s ∨ ∃ slot, s.slots op.worker = some slot ∧ slot.callLock = none ∧ slot.state = .leased op.session ∧
      s' = s.setCallLock op.worker (some i) ∧ pc' = .request op := by
  generalize hp : Pc.waitCall op = p at h
  cases h
  case request slot hs hc hst => cases hp; exact .inr ⟨slot, hs, hc, hst, rfl, rfl⟩
  case refused | finish => exact .inl rfl
  case take hpc => subst hp; cases hpc
  case dropLease hr | dropEnsure hr | dropEnsureCleared hr => subst hp; cases hr
  case dropGuard hg => subst hp; cases hg
  all_goals cases hp

theorem After.lease_of_guard {after : After} {o : Origin} (h : after.guard = some o) : after.origin = o := by
  cases after <;> cases h <;> rfl

theorem Pc.opening_of_guard {o : Origin} (h : pc.guard = some (w, o)) : pc.opening = o.lease := by
  cases pc <;> simp only [Pc.guard, reduceCtorEq] at h
  case request | relRpc => cases h; rfl
  case dying v phase after =>
    obtain ⟨k, hk, hw⟩ := Option.map_eq_some_iff.1 h
    cases hw
    exact congrArg Origin.lease (After.lease_of_guard hk)

def Spawner.origin : Spawner → Origin
  | .lease l => l.origin
  | .ensure _ after => after.origin

theorem Pc.opening_of_reservation {id : Nat} {b : Bool} {who : Spawner} (h : pc.reservation = some (id, b, who)) :
    pc.opening = who.origin.lease := by
  cases pc <;> simp only [Pc.reservation, reduceCtorEq, Option.some.injEq, Prod.mk.injEq] at h
  case spawn who' | install who' =>
    obtain ⟨-, -, rfl⟩ := h
    cases who' <;> rfl

theorem Pc.opening_of_release {rel : Release} (h : pc.release = some rel) : pc.opening = rel.origin.lease := by
  have hafter : ∀ {after : After}, after.release? = some rel → after.origin = rel.origin := by
    intro after ha
    cases after <;> cases ha
    rfl
  cases pc
  case dying => exact congrArg Origin.lease (hafter h)
  case spawn who | install who =>
    cases who with
    | lease => cases h
    | ensure => exact congrArg Origin.lease (hafter h)
  all_goals cases h <;> rfl

/-- The task is the open's still, or it is over, or the open went through. -/
def Pc.GoesOn (x : String) (g : Nat) (pc : Pc) : Prop :=
  pc.opening = some (x, g) ∨ (∃ r, pc = .done r) ∨ ∃ op path, pc = .setIdbPath op path

theorem opFailed_goesOn {op : Op} (e : ToolError) (h : op.origin.lease = some (x, g)) : (opFailed op e).GoesOn x g := by
  rcases opFailed_cases op e with ⟨k, hk, -⟩ | ⟨fresh, -, he | he⟩
  · rw [Op.origin, hk] at h; cases h
  · rw [he]
    obtain ⟨rfl, rfl⟩ := Op.origin_lease h
    exact .inl rfl
  · rw [he]; exact .inr (.inl ⟨_, rfl⟩)

theorem afterDying_goesOn {after : After} (h : after.origin.lease = some (x, g)) :
    (afterDying s w after).2.GoesOn x g := by
  cases after with
  | call op e => exact opFailed_goesOn e h
  | release rel e => exact .inl h
  | task | cleared | shutdown => exact .inr (.inl ⟨_, rfl⟩)

theorem Step.goesOn (h : Step s i pc s' pc' new) (ho : pc.opening = some (x, g)) : pc'.GoesOn x g := by
  cases h
  case scanFull | installFailed | finish | relCheckIdle | forgetLast => exact .inr (.inl ⟨_, rfl⟩)
  case dropLeaseWait | dropScan | dropLease | dropEnsure | dropEnsureCleared | dropGuard | dropRelWait =>
    exact .inr (.inl ⟨_, rfl⟩)
  case spawned who | spawnFailed who _ => cases who <;> exact .inl ho
  case installEnsureFailed | ensured => exact afterDying_goesOn ho
  case refused e _ _ => exact opFailed_goesOn e ho
  case answered op ha =>
    cases ha with
    | done r => exact .inr (.inl ⟨r, rfl⟩)
    | clear k hk => rw [Pc.opening, Op.origin, hk] at ho; cases ho
    | opened _ _ path => exact .inr (.inr ⟨op, path, rfl⟩)
    | failed _ _ e => exact opFailed_goesOn e ho
  case take hpc =>
    cases pc <;> cases hpc <;> cases ho
    exact .inl rfl
  case resDrop hasSlot _ _ =>
    cases hasSlot
    · exact .inr (.inl ⟨_, rfl⟩)
    · exact .inl ho
  all_goals first | exact .inl ho | cases ho

/-- A task that an open's task spawns is the open's, or times the worker's idleness. -/
theorem Step.opening_new {m : Pc} (h : Step s i pc s' pc' new) (ho : pc.opening = some (x, g)) (hm : m ∈ new) :
    m.opening = some (x, g) ∨ ∃ w, m = .reapStart w := by
  cases h
  case relCheckIdle rel e _ => exact .inr ⟨rel.worker, List.mem_singleton.1 hm⟩
  case dropLease hr =>
    obtain rfl := List.mem_singleton.1 hm
    exact .inl ((Pc.opening_of_reservation hr).symm.trans ho)
  case dropEnsure hg hr =>
    have ho' := (Pc.opening_of_reservation hr).symm.trans ho
    rw [← After.lease_of_guard hg] at hm
    rcases List.mem_cons.1 hm with rfl | hm
    · exact .inl ho'
    · obtain rfl := List.mem_singleton.1 hm
      exact .inl ho'
  case dropEnsureCleared hr =>
    have ho' := (Pc.opening_of_reservation hr).symm.trans ho
    cases ho'
  case dropGuard hg =>
    obtain rfl := List.mem_singleton.1 hm
    exact .inl ((Pc.opening_of_guard hg).symm.trans ho)
  case dropRelWait =>
    obtain rfl := List.mem_singleton.1 hm
    exact .inl ho
  all_goals cases hm

/-! ### Where it comes from that a worker is killed -/

/-- Where it comes from that a worker is to be killed for an open. -/
inductive EndSource (s : Shared) (i : Nat) (pc : Pc) (s' : Shared) (pc' : Pc) (w : Nat) (x : String) (g : Nat) : Prop
  | kept (h : pc.ending = some (w, x, g))
  | dispatched (op : Op) (hpc : pc = .waitCall op) (hw : op.worker = w) (hl : op.origin.lease = some (x, g))
      (hslot : s.SlotIs w fun slot => slot.callLock = none ∧ slot.state = .leased op.session)
      (hs : s' = s.setCallLock w (some i)) (hpc' : pc' = .request op)
  | spawned (h : s'.SlotIs w (Slot.OnlyServes x g))
  | closing (h : pc.closing = some w) (hk : KeepsState s s' w)
  | killed (h : pc.killed = some w)
  | released (rel : Release) (hpc : pc = .relWait rel) (hw : rel.worker = w) (hl : rel.origin.lease = some (x, g))
      (hs : s' = s)

theorem Pc.ending_of_quiet (h : pc.quiet) : pc.ending = none := by
  cases pc <;> first | rfl | cases h

theorem Pc.ending_map {o : Option (String × Nat)} {v : Nat} (h : o.map (v, ·) = some (w, x, g)) :
    v = w ∧ o = some (x, g) := by
  obtain ⟨k, hk, hv⟩ := Option.map_eq_some_iff.1 h
  cases hv
  exact ⟨rfl, hk⟩

theorem Step.ending (h : Step s i pc s' pc' new) (he : pc'.ending = some (w, x, g)) :
    EndSource s i pc s' pc' w x g := by
  cases h
  case request op slot hs hc hst =>
    obtain ⟨rfl, hl⟩ := Pc.ending_map he
    exact .dispatched op rfl rfl hl ⟨slot, hs, hc, hst⟩ rfl rfl
  case retire => exact .kept he
  case spawned id who =>
    have he : who.origin.lease.map (id, ·) = some (w, x, g) := by cases who <;> exact he
    obtain ⟨rfl, hl⟩ := Pc.ending_map he
    refine .spawned ⟨_, Function.update_self .., ?_⟩
    cases who with
    | lease l =>
      obtain ⟨rfl, hg⟩ := Origin.lease_eq.1 hl
      exact Slot.Serves.onlyServes (.inr ⟨rfl, Option.some.inj hg⟩)
    | ensure => exact .of_unleased fun y => by simp
  case relRetire =>
    obtain ⟨rfl, -⟩ := Pc.ending_map he
    exact .closing rfl (.of_slots rfl)
  case resDrop id hasSlot o _ =>
    cases hasSlot
    · cases he
    · exact .kept he
  case clear => split at he <;> cases he
  case ensured | installEnsureFailed => rw [Pc.ending_of_quiet (afterDying_quiet ..)] at he; cases he
  case refused => rw [Pc.ending_of_quiet (opFailed_quiet ..)] at he; cases he
  case answered ha => rw [Pc.ending_of_quiet ha.quiet] at he; cases he
  all_goals cases he

theorem Pc.endSource_of_guard {o : Origin} (h : pc.guard = some (w, o)) (hl : o.lease = some (x, g))
    (hk : KeepsState s s' w) : EndSource s i pc s' pc' w x g := by
  cases pc <;> simp only [Pc.guard, reduceCtorEq] at h
  case request op =>
    cases h
    exact .kept (by rw [Pc.ending, hl]; rfl)
  case relRpc => cases h; exact .closing rfl hk
  case dying v phase after =>
    obtain ⟨o', ho, hv⟩ := Option.map_eq_some_iff.1 h
    cases hv
    cases phase with
    | take => exact .kept (by rw [Pc.ending, After.lease_of_guard ho, hl]; rfl)
    | forget | ensure => exact .killed rfl

theorem Pc.ending_of_reservation {id : Nat} {who : Spawner} (h : pc.reservation = some (id, true, who)) :
    pc.ending = who.origin.lease.map (id, ·) := by
  cases pc <;> simp only [Pc.reservation, reduceCtorEq, Option.some.injEq, Prod.mk.injEq] at h
  case spawn => cases h.2.1
  case install result who' =>
    obtain ⟨rfl, hr, rfl⟩ := h
    cases result <;> cases who' <;> first | cases hr; done | rfl

theorem Pc.killed_of_reservation {id v : Nat} {b : Bool} {after : After}
    (h : pc.reservation = some (id, b, .ensure v after)) : pc.killed = some v := by
  cases pc <;> simp only [Pc.reservation, reduceCtorEq, Option.some.injEq, Prod.mk.injEq] at h
  all_goals
    obtain ⟨-, -, rfl⟩ := h
    rfl

theorem Step.new_ending {m : Pc} (h : Step s i pc s' pc' new) (hm : m ∈ new) (he : m.ending = some (w, x, g)) :
    EndSource s i pc s' pc' w x g := by
  cases h
  case dropGuard v o hg =>
    obtain rfl := List.mem_singleton.1 hm
    obtain ⟨rfl, hl⟩ := Pc.ending_map he
    exact Pc.endSource_of_guard hg hl (.setCallLock _ none)
  case dropRelWait rel =>
    obtain rfl := List.mem_singleton.1 hm
    obtain ⟨rfl, hl⟩ := Pc.ending_map he
    exact .released rel rfl rfl hl rfl
  case dropLease id hasSlot l hr =>
    obtain rfl := List.mem_singleton.1 hm
    cases hasSlot
    · cases he
    · exact .kept ((Pc.ending_of_reservation hr).trans he)
  case dropEnsure id hasSlot v after o hg hr =>
    rcases List.mem_cons.1 hm with rfl | hm
    · cases hasSlot
      · cases he
      · refine .kept ((Pc.ending_of_reservation hr).trans ?_)
        rw [Spawner.origin, After.lease_of_guard hg]
        exact he
    · obtain rfl := List.mem_singleton.1 hm
      obtain ⟨rfl, -⟩ := Pc.ending_map he
      exact .killed (Pc.killed_of_reservation hr)
  case dropEnsureCleared hasSlot _ _ _ hr =>
    obtain rfl := List.mem_singleton.1 hm
    cases hasSlot <;> cases he
  case relCheckIdle => obtain rfl := List.mem_singleton.1 hm; cases he
  all_goals cases hm

theorem EndSource.onlyServes (h : EndSource s i pc s' pc' w x g) (hs : Step s i pc s' pc' new)
    (hfresh : ∀ id who, pc = .spawn id who → s.slots id = none) (hO : OwnersTask s i pc) (hT : OpenTask s pc)
    (hown : ∀ op slot, pc = .waitCall op → pc' = .request op → op.origin.lease = some (x, g) →
      s.slots op.worker = some slot → slot.callLock = none → slot.state = .leased op.session →
      slot.generation = g) :
    s'.SlotIs w (Slot.OnlyServes x g) := by
  cases h with
  | kept h =>
    refine (hT.ending w x g h).step hs hfresh fun a b _ ha hst => hst.onlyServes ha ?_
    rintro l todo n d seen rfl
    cases h
  | dispatched op hpc hw hl hslot hs' hpc' =>
    subst hw hs'
    obtain ⟨slot, hslot, hc, hst⟩ := hslot
    obtain ⟨rfl, -⟩ := Op.origin_lease hl
    refine ⟨_, setSlot_get hslot, ?_⟩
    rw [if_pos rfl]
    exact Slot.Serves.onlyServes (.inr ⟨hst, hown op slot hpc hpc' hl hslot hc hst⟩)
  | spawned h => exact h
  | closing h hk =>
    refine (hk (fun st => st = .dead ∨ st = .closing) (hO.closing w h)).mono fun slot hst => ?_
    refine .of_unleased fun y hy => ?_
    rw [hy] at hst; simp at hst
  | killed h =>
    refine ((hO.killed w h).step hs hfresh fun _ _ _ hx hst => hst.dead hx).mono fun slot hst => ?_
    refine .of_unleased fun y hy => ?_
    rw [hy] at hst; cases hst
  | released rel hpc hw hl hs' =>
    subst hpc hw hs'
    obtain ⟨rfl, err, hc⟩ := Release.origin_lease hl
    have hg := hT.releases rel g err rfl hc
    exact (hg ▸ hO.serves _ _ _ rfl).mono fun _ => Slot.Serves.onlyServes

/-! ### Runs -/

theorem OpenTask.of_newborn (h : pc.newborn)
    (hend : ∀ w x g, pc.ending = some (w, x, g) → s.SlotIs w (Slot.OnlyServes x g)) : OpenTask s pc where
  releases rel g err hr := by rw [Pc.release_of_newborn h] at hr; cases hr
  ending := hend

theorem EnvStep.new_ending {m : Pc} (h : EnvStep c s' new) (hm : m ∈ new) : m.ending = none := by
  cases h with
  | start hp => obtain rfl := List.mem_singleton.1 hm; cases m <;> first | cases hp; done | rfl
  | dropSession => obtain rfl := List.mem_singleton.1 hm; rfl
  | tick => cases hm
  | shutdown => obtain ⟨v, -, rfl⟩ := List.mem_map.1 hm; rfl

/-- A step that takes a handle for a failed open takes that of the open's own lease. -/
theorem opensMeetOwn_release {e : Event} {rel : Release} {err : ToolError} (hI : Inv c)
    (hC : opensMeetOwn c (.thread i e)) (hpc : c.threads[i]? = some pc)
    (ho : exec c.shared i pc e = some ⟨s', pc', new⟩) (hr : pc'.release = some rel)
    (htakes : pc.takes = some (rel.session, .openFailed g err))
    (hh : (c.shared.sessions rel.session).handle = some ⟨rel.worker, rel.generation⟩) : rel.generation = g := by
  cases pc <;> simp only [Pc.takes, reduceCtorEq, Option.some.injEq, Prod.mk.injEq, Cause.openFailed.injEq] at htakes
  case openTake op err' =>
    obtain ⟨hx, rfl, -⟩ := htakes
    have hgo : e = .go := by
      cases e <;> first | rfl | cases ho
      cases hr
    subst hgo
    simp only [opensMeetOwn, hpc, hx, hh, reduceCtorEq, false_or, decide_eq_true_eq] at hC
    rw [← hC, hI.owners.shared.generation _ _ hh]
  all_goals cases htakes.2

/-- An open that is dispatched to a worker that serves its session finds its own lease there. -/
theorem opensMeetOwn_dispatch {e : Event} {op : Op} {slot : Slot} (hC : opensMeetOwn c (.thread i e))
    (hpc : c.threads[i]? = some (.waitCall op)) (ho : exec c.shared i (.waitCall op) e = some ⟨s', .request op, new⟩)
    (hl : op.origin.lease = some (x, g)) (hslot : c.shared.slots op.worker = some slot)
    (hlock : slot.callLock = none) (hst : slot.state = .leased op.session) : slot.generation = g := by
  have hgo : e = .go := by cases e <;> first | rfl | cases ho
  subst hgo
  simp only [opensMeetOwn, hpc, (Origin.lease_eq.1 hl).2, hslot, Option.all_some, decide_eq_true_eq] at hC
  exact hC hlock hst

theorem open_tasks (h : program.Reachable Init (fun c a => opensMeetOwn c a) c) :
    Inv c ∧ ∀ (i : Nat) pc, c.threads[i]? = some pc → OpenTask c.shared pc := by
  refine reachable_induct (I := fun c => ∀ (i : Nat) pc, c.threads[i]? = some pc → OpenTask c.shared pc) ?_ ?_ ?_ h
  · intro c hc i pc hpc
    rw [hc.threads] at hpc; simp at hpc
  · intro c i e pc s' pc' new _ hI hT hC hpc ho hs
    have hO := hI.owners.threads i pc hpc
    have hfresh := hI.ids.fresh hpc
    have hown : ∀ x g op slot, pc = .waitCall op → pc' = .request op → op.origin.lease = some (x, g) →
        c.shared.slots op.worker = some slot → slot.callLock = none → slot.state = .leased op.session →
        slot.generation = g := by
      rintro x g op slot rfl rfl hl hslot hlock hst
      exact opensMeetOwn_dispatch hC hpc ho hl hslot hlock hst
    refine Conf.forall_after ⟨fun rel g err hr hc => ?_, fun w x g he => ?_⟩ (fun j m hj hm => ?_) fun j m hm => ?_
    · rcases hs.release hr with hr | ⟨htakes, hh⟩
      · exact (hT i pc hpc).releases rel g err hr hc
      · exact opensMeetOwn_release hI hC hpc ho hr (hc ▸ htakes) hh
    · exact (hs.ending he).onlyServes hs hfresh hO (hT i pc hpc) (hown x g)
    · refine ⟨(hT j m hm).releases, fun w x g he => ?_⟩
      obtain ⟨a, ha, hserves⟩ := (hT j m hm).ending w x g he
      obtain ⟨b, hb, -, hst⟩ := hs.slot hfresh ha
      refine ⟨b, hb, hst.onlyServes hserves ?_⟩
      rintro l todo n d seen rfl hidle
      cases e with
      | go =>
        simp only [opensMeetOwn, hpc, Shared.isIdle, ha, Option.any_some, hidle, decide_true, Bool.not_true,
          Bool.false_or, List.all_eq_true] at hC
        have hne := hC m (List.mem_of_getElem? hm)
        simp [he] at hne
      | drop =>
        cases ho
        obtain rfl := Option.some.inj (ha.symm.trans hb)
        exact hidle
      | _ => cases ho
    · exact .of_newborn (hs.newborn m hm) fun w x g he =>
        (hs.new_ending hm he).onlyServes hs hfresh hO (hT i pc hpc) (hown x g)
  · intro c x s' new hI hT hC hs
    refine Conf.forall_append (fun j m hm => ⟨(hT j m hm).releases, fun w x g he => ?_⟩) fun j m hm =>
      .of_newborn (hs.newborn m hm) fun w x g he => ?_
    · rw [Shared.SlotIs, hs.slots]; exact (hT j m hm).ending w x g he
    · rw [hs.new_ending hm] at he; cases he

/-! ### What an open leaves alone -/

/-- A step of a task of the open `g` of `x`: it goes on as a task of the open, and so do the tasks it spawns
(a timer of the reaper apart), and every other lease stays as it is, in its session's handle and in its slot. -/
structure OpenStep (x : String) (g : Nat) (s s' : Shared) (pc' : Pc) (new : List Pc) : Prop where
  goesOn : pc'.GoesOn x g
  spawned : ∀ m ∈ new, m.opening = some (x, g) ∨ ∃ w, m = .reapStart w
  handle : ∀ y lease, (s.sessions y).handle = some lease → (y = x → lease.generation ≠ g) →
    (s'.sessions y).handle = some lease
  slot : ∀ w slot y, s.slots w = some slot → slot.state = .leased y → (y = x → slot.generation ≠ g) →
    s'.slots w = some slot

/-- A leased slot that a task of the open touches serves the open, or the task is refused there. -/
theorem Pc.onlyServes_of_touches (hO : OwnersTask s i pc) (hT : OpenTask s pc) (ho : pc.opening = some (x, g))
    (hw : pc.Touches w) (hwait : ∀ op, pc ≠ .waitCall op) : s.SlotIs w (Slot.OnlyServes x g) := by
  have dead : pc.killed = some w → s.SlotIs w (Slot.OnlyServes x g) := fun hk =>
    (hO.killed w hk).mono fun slot hst => .of_unleased fun y hy => by rw [hy] at hst; cases hst
  cases pc <;> simp only [Pc.Touches] at hw
  case waitCall op => exact absurd rfl (hwait op)
  case request op => exact hT.ending w x g (by rw [Pc.ending, hw]; exact congrArg (Option.map _) ho)
  case setIdbPath => cases ho
  case dying v phase after =>
    subst hw
    cases phase with
    | take => exact hT.ending v x g (congrArg (Option.map _) ho)
    | forget | ensure => exact dead rfl
  case spawn who | install who =>
    cases who with
    | lease => exact hw.elim
    | ensure => exact dead (congrArg some hw)
  case relWait rel =>
    subst hw
    obtain ⟨rfl, err, hc⟩ := Release.origin_lease ho
    have hg := hT.releases rel g err rfl hc
    exact (hg ▸ hO.serves _ _ _ rfl).mono fun _ => Slot.Serves.onlyServes
  case relRpc rel =>
    refine (hO.closing w (congrArg some hw)).mono fun slot hst => .of_unleased fun y hy => ?_
    rw [hy] at hst; simp at hst

theorem OpenStep.of_step (hI : Inv c) (hT : OpenTask c.shared pc) {e : Event}
    (hC : opensMeetOwn c (.thread i e)) (hpc : c.threads[i]? = some pc) (ho : pc.opening = some (x, g))
    (hexec : exec c.shared i pc e = some ⟨s', pc', new⟩) : OpenStep x g c.shared s' pc' new := by
  have hs : Step c.shared i pc s' pc' new := exec_step hexec
  have hO := hI.owners.threads i pc hpc
  refine ⟨hs.goesOn ho, fun m hm => hs.opening_new ho hm, fun y lease hy hne => ?_, fun w slot y hw hst hne => ?_⟩
  · cases hs.session y with
    | same hh => rw [hh]; exact hy
    | fresh _ _ _ hh => rw [hh] at hy; cases hy
    | stored l w hp hx =>
      have hnone := (hO.lending l (by rw [hp]; rfl)).1
      rw [hx, hy] at hnone
      cases hnone
    | unlocked _ _ _ _ hb => rw [hb]; exact hy
    | taken cause lease' htakes _ hh hp' =>
      -- of the open's tasks only the failed open takes a handle, and that is its own
      obtain ⟨rfl, err, rfl⟩ : y = x ∧ ∃ err, cause = .openFailed g err := by
        cases pc <;> cases htakes <;> cases ho
        exact ⟨rfl, _, rfl⟩
      obtain rfl := Option.some.inj (hh.symm.trans hy)
      exact absurd (opensMeetOwn_release hI hC hpc hexec (by rw [hp']; rfl) htakes hh) (hne rfl)
    | cleared _ _ _ hp => rw [hp] at ho; cases ho
  · by_cases htouch : pc.Touches w
    · by_cases hwait : ∃ op, pc = .waitCall op
      · obtain ⟨op, rfl⟩ := hwait
        rcases hs.waitCall_shared with hs' | ⟨slot', hslot', hlock, hst', -, hpc'⟩
        · rw [hs']; exact hw
        · subst hpc'
          obtain ⟨rfl, -⟩ := Op.origin_lease ho
          obtain rfl := Option.some.inj (hslot'.symm.trans (htouch ▸ hw))
          have hg := opensMeetOwn_dispatch hC hpc hexec ho hslot' hlock hst'
          rw [hst'] at hst
          exact absurd hg (hne (ChildState.leased.inj hst).symm)
      · obtain ⟨slot', hslot', honly⟩ :=
          Pc.onlyServes_of_touches hO hT ho htouch fun op hop => hwait ⟨op, hop⟩
        obtain rfl := Option.some.inj (hslot'.symm.trans hw)
        exact absurd (honly y hst).2 (hne (honly y hst).1)
    · exact hs.leased_untouched (hI.ids.fresh hpc) hw hst htouch

/-- The error of an `open_idb` whose answer holds no text. -/
def noText : String := "child tool open_idb returned no text content"

/-- `A` closed while its open 1 was under way and opened again, as open 2 on worker `w`. -/
def Reopened (c : Conf Shared Pc) (w : Nat) : Prop :=
  ∃ slot ∈ c.shared.slots w, slot.state = .leased "A" ∧ slot.generation = 2 ∧ slot.idbPath = some "/db/a.i64"

instance (c : Conf Shared Pc) (w : Nat) : Decidable (Reopened c w) :=
  inferInstanceAs (Decidable (∃ slot ∈ c.shared.slots w, _))

end IdaRs.Pool
