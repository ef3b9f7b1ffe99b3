import Mathlib.Data.List.Count
import IdaRs.PoolCapacity

/-!
# Idle reaping

Every release of a worker that is then idle starts a timer of its own, so several timers of one worker may be
pending. `idle_reap`: a timer kills its worker only if the worker was idle all the time since the timer
started, and only above `minWorkers`. The count is made under the pool lock, but `mark_dead` kills a child
without it: the second half needs that no counted child dies before the decision (`reap_below_min`).
-/

namespace IdaRs.Pool

open Threads

variable {s s' : Shared} {i j w : Nat} {pc pc' : Pc} {new : List Pc} {c c' : Conf Shared Pc}

/-- The timer of a reaper that sleeps or counts. -/
def Pc.timer : Pc → Option Timer
  | .reapSleep t | .reapCount t _ _ => some t
  | _ => none

/-- No `mark_dead` kills a live child that a reaper has counted and not yet decided on, and no release makes
a worker idle at the clock reading at which a pending timer of the worker started. -/
def reapUndisturbed (c : Conf Shared Pc) : Act Event Env → Bool
  | .thread i e =>
    match c.threads[i]?, e with
    | some (.dying w .take _), .go =>
      c.threads.all fun
        | .reapCount _ todo _ => !c.shared.isLive w || !c.shared.children.contains w || todo.contains w
        | _ => true
    | some (.relRpc rel), e =>
      !(exec c.shared i (.relRpc rel) e).any (·.shared.isIdle rel.worker) ||
        c.threads.all fun pc => pc.timer.all fun t => t.worker ≠ rel.worker ∨ t.sleepStarted ≠ c.shared.clock
    | _, _ => true
  | .env _ => true

theorem Step.clock (h : Step s i pc s' pc' new) : s'.clock = s.clock := by
  cases h
  case ensured | installEnsureFailed => rw [afterDying_shared]; split <;> rfl
  case clear => unfold clearHandle; split <;> rfl
  all_goals rfl

theorem EnvStep.clock (h : EnvStep c s' new) : c.shared.clock ≤ s'.clock := by
  cases h
  case tick => exact Nat.le_succ _
  all_goals exact le_rfl

/-! ### Timers -/

/-- What a timer knows about its slot. -/
structure Timer.Watches (t : Timer) (slot : Slot) : Prop where
  leases : t.leases ≤ slot.leases
  /-- A worker that was idle and was not leased again is idle or dead. -/
  still : t.wasIdle → slot.leases = t.leases → slot.state = .idle ∨ slot.state = .dead
  /-- A worker that is idle now and was not all the time was used after the timer started. -/
  used : slot.state = .idle → slot.lastUsed ≤ t.sleepStarted → t.wasIdle ∧ slot.leases = t.leases

structure ReapTask (s : Shared) (pc : Pc) : Prop where
  clock : ∀ t, pc.timer = some t → t.sleepStarted ≤ s.clock
  watches : ∀ t, pc.timer = some t → s.SlotIs t.worker t.Watches
  start : ∀ w, pc = .reapStart w → (s.slots w).isSome

/-- A release holds `Closing` until it makes the worker idle, and a release that waits holds a lease. -/
theorem Timer.Watches.step {t : Timer} {x y : Slot} (h : t.Watches x) (hst : StateChange s pc w x y)
    (hwait : ∀ rel, pc = .relWait rel → rel.worker = w → x.state ≠ .idle)
    (hidle : ∀ rel, pc = .relRpc rel → rel.worker = w → y.state = .idle → t.sleepStarted < s.clock) :
    t.Watches y := by
  cases hst with
  | same hst _ hu hn => exact ⟨hn ▸ h.leases, hn ▸ hst ▸ h.still, hn ▸ hu ▸ hst ▸ h.used⟩
  | killed _ _ hst hn | reaped _ _ _ _ _ _ _ hst hn =>
    exact ⟨hn ▸ h.leases, fun _ _ => .inr hst, fun hi => by rw [hst] at hi; cases hi⟩
  | leased _ _ _ _ _ _ _ hst _ _ hn =>
    have := h.leases
    exact ⟨by omega, fun _ he => by omega, fun hi => by rw [hst] at hi; cases hi⟩
  | closing rel hpc hw _ hd hst _ hn =>
    refine ⟨hn ▸ h.leases, fun hi he => ?_, fun hi => by rw [hst] at hi; cases hi⟩
    rcases h.still hi (hn ▸ he) with hx | hx
    · exact absurd hx (hwait rel hpc hw)
    · exact absurd hx hd
  | idled rel hpc hw _ hst hu hn =>
    refine ⟨hn ▸ h.leases, fun _ _ => .inl hst, fun _ hle => ?_⟩
    have := hidle rel hpc hw hst
    omega

theorem ReapTask.step {m : Pc} (h : ReapTask s m) (hs : Step s i pc s' pc' new)
    (hfresh : ∀ id who, pc = .spawn id who → s.slots id = none) (hO : OwnersTask s i pc)
    (hidle : ∀ rel, pc = .relRpc rel → ∀ t, m.timer = some t → t.worker = rel.worker → s'.isIdle rel.worker →
      t.sleepStarted ≠ s.clock) : ReapTask s' m := by
  refine ⟨fun t ht => hs.clock ▸ h.clock t ht, fun t ht => ?_, fun w hw => hs.isSome_mono hfresh (h.start w hw)⟩
  obtain ⟨x, hx, hwatch⟩ := h.watches t ht
  obtain ⟨y, hy, -, hst⟩ := hs.slot hfresh hx
  refine ⟨y, hy, hwatch.step hst ?_ ?_⟩
  · rintro rel rfl hw
    obtain ⟨x', hx', hserves⟩ := hO.serves _ _ _ rfl
    rw [hw, hx] at hx'
    exact Option.some.inj hx' ▸ hserves.not_idle
  · rintro rel rfl hw hyi
    have hne := hidle rel rfl t ht hw.symm (by simp [Shared.isIdle, hw, hy, hyi])
    exact lt_of_le_of_ne (h.clock t ht) hne

theorem Step.timer {t : Timer} (h : Step s i pc s' pc' new) (ht : pc'.timer = some t) :
    pc.timer = some t ∧ s'.slots = s.slots ∨ (∃ w, pc = .reapStart w ∧ s' = s ∧
      t = ⟨w, s.clock, s.isIdle w, ((s.slots w).map Slot.leases).getD 0⟩) := by
  have quiet : ∀ {p : Pc}, p.quiet → p.timer ≠ some t := by
    intro p hp hq
    cases p <;> first | cases hp; done | cases hq
  cases h
  case reapStart w => exact .inr ⟨w, rfl, rfl, (Option.some.inj ht).symm⟩
  case reapLock | reapVisit => exact .inl ⟨ht, rfl⟩
  case ensured | installEnsureFailed => exact absurd ht (quiet (afterDying_quiet ..))
  case refused => exact absurd ht (quiet (opFailed_quiet ..))
  case answered ha => exact absurd ht (quiet ha.quiet)
  case clear | resDrop => split at ht <;> cases ht
  all_goals cases ht

theorem Step.reapTask_self (hs : Step s i pc s' pc' new) (h : ReapTask s pc) : ReapTask s' pc' := by
  refine ⟨fun t ht => ?_, fun t ht => ?_, fun w hw => ?_⟩
  · rcases hs.timer ht with ⟨ht, -⟩ | ⟨w, -, rfl, rfl⟩
    · exact hs.clock ▸ h.clock t ht
    · exact le_rfl
  · rcases hs.timer ht with ⟨ht, hsl⟩ | ⟨w, rfl, rfl, rfl⟩
    · rw [Shared.SlotIs, hsl]; exact h.watches t ht
    · obtain ⟨x, hx⟩ := Option.isSome_iff_exists.1 (h.start w rfl)
      refine ⟨x, hx, ?_, fun hi _ => ?_, fun hi _ => ?_⟩
      · simp [hx]
      · exact .inl (by simpa [Shared.isIdle, hx] using hi)
      · simp [Shared.isIdle, hx, hi]
  · subst hw
    generalize hp : Pc.reapStart w = p at hs
    have quiet : ¬ p.quiet := by rw [← hp]; simp [Pc.quiet]
    cases hs
    case ensured | installEnsureFailed => exact absurd (afterDying_quiet ..) quiet
    case refused => exact absurd (opFailed_quiet ..) quiet
    case answered ha => exact absurd ha.quiet quiet
    case clear | resDrop => split at hp <;> cases hp
    all_goals cases hp

theorem Step.reapTask_new {m : Pc} (hs : Step s i pc s' pc' new) (hm : m ∈ new) : ReapTask s' m := by
  have hnb := hs.newborn m hm
  have hnone : m.timer = none := by cases m <;> first | rfl | cases hnb
  refine ⟨fun t ht => ?_, fun t ht => ?_, fun w hw => ?_⟩
  · rw [hnone] at ht; cases ht
  · rw [hnone] at ht; cases ht
  · subst hw
    cases hs
    case relCheckIdle rel _ hi =>
      cases List.mem_singleton.1 hm
      cases hx : s.slots rel.worker with
      | none => simp [Shared.isIdle, hx] at hi
      | some x => rfl
    all_goals simp at hm

/-! ### The count -/

/-- A reaper that counts has counted no more than are live or reserved. -/
def CountTask (s : Shared) (pc : Pc) : Prop :=
  ∀ t todo n, pc = .reapCount t todo n →
    ∃ pre, s.children = pre ++ todo ∧ n ≤ s.spawning.length + pre.countP s.isLive

theorem Step.countTask_self (hs : Step s i pc s' pc' new) (h : CountTask s pc) : CountTask s' pc' := by
  intro t todo n hp
  have quiet : ¬ pc'.quiet := by rw [hp]; simp [Pc.quiet]
  cases hs
  case reapLock => cases hp; exact ⟨[], rfl, by simp⟩
  case reapVisit t' w todo' n' =>
    cases hp
    obtain ⟨pre, hc, hn⟩ := h _ _ _ rfl
    refine ⟨pre ++ [w], by simp [hc], ?_⟩
    rw [List.countP_append]
    by_cases hw : s.isLive w
    · rw [if_pos hw, List.countP_singleton, if_pos hw]; omega
    · rw [if_neg hw]; omega
  case ensured | installEnsureFailed => exact absurd (afterDying_quiet ..) quiet
  case refused => exact absurd (opFailed_quiet ..) quiet
  case answered ha => exact absurd ha.quiet quiet
  case clear | resDrop => split at hp <;> cases hp
  all_goals cases hp

theorem CountTask.other {m : Pc} (h : CountTask s m) (hs : Step s i pc s' pc' new) (hi : LocksTask s i pc)
    (hj : LocksTask s j m) (hne : j ≠ i) (hJ : MembersShared s)
    (hlive : ∀ t todo n, m = .reapCount t todo n → ∀ w ∈ s.children, w ∉ todo → s.isLive w → s'.isLive w) :
    CountTask s' m := by
  rintro t todo n rfl
  obtain ⟨pre, hc, hn⟩ := h t todo n rfl
  obtain ⟨hc', hsp⟩ := hs.lists_locked hi (hj.pool rfl) hne
  refine ⟨pre, hc'.trans hc, hn.trans ?_⟩
  rw [hsp]
  refine Nat.add_le_add_left (List.countP_mono_left fun w hw hl => ?_) _
  have hnodup := (List.nodup_append.1 hJ.nodup).1
  rw [hc] at hnodup
  have hnot : w ∉ todo := fun ht => (List.nodup_append.1 hnodup).2.2 w hw w ht rfl
  exact hlive t todo n rfl w (hc ▸ List.mem_append_left _ hw) hnot hl

theorem dropAfter_isLive {after : After} {o : Outcome Shared Pc} {v : Nat} (h : dropAfter s v after = some o)
    (hl : s.isLive w) : o.shared.isLive w := by
  obtain ⟨x, hx, hne⟩ := Shared.isLive_iff.1 hl
  have hlock : (s.setCallLock v none).isLive w := by
    refine Shared.isLive_iff.2 ⟨_, setSlot_get hx, ?_⟩
    split <;> exact hne
  cases after <;> simp only [dropAfter, reduceCtorEq] at h
  case call => cases h; exact hlock
  case release =>
    split at h
    · cases h
    · cases h; exact hlock
  case cleared => cases h; exact hl

/-- While another task has the pool lock, what kills a child is a `mark_dead`. -/
theorem Step.dies {e : Event} (hs : Step s i pc s' pc' new) (ho : exec s i pc e = some ⟨s', pc', new⟩)
    (hfresh : ∀ id who, pc = .spawn id who → s.slots id = none) (hp : pc.poolHeld = false) (hl : s.isLive w)
    (hd : ¬ s'.isLive w) : e = .go ∧ ∃ after, pc = .dying w .take after := by
  obtain ⟨x, hx, hne⟩ := Shared.isLive_iff.1 hl
  obtain ⟨y, hy, -, hst⟩ := hs.slot hfresh hx
  have hdead : y.state = .dead := by
    by_contra h
    exact hd (Shared.isLive_iff.2 ⟨y, hy, h⟩)
  cases hst with
  | same hst => exact absurd (hst ▸ hdead) hne
  | killed after hpc =>
    subst hpc
    refine ⟨?_, after, rfl⟩
    cases e with
    | go => rfl
    | drop => exact absurd (dropAfter_isLive (o := ⟨s', pc', new⟩) ho hl) hd
    | _ => cases ho
  | reaped t n hpc => rw [hpc] at hp; cases hp
  | leased _ _ _ _ _ _ _ hst | closing _ _ _ _ _ hst | idled _ _ _ _ hst => rw [hst] at hdead; cases hdead

theorem EnvStep.reap_new {m : Pc} (h : EnvStep c s' new) (hm : m ∈ new) : ReapTask s m ∧ CountTask s m := by
  have hnone : m.timer = none ∧ (∀ w, m ≠ .reapStart w) ∧ ∀ t todo n, m ≠ .reapCount t todo n := by
    cases h with
    | start hp => obtain rfl := List.mem_singleton.1 hm; cases m <;> first | cases hp; done | simp [Pc.timer]
    | dropSession => obtain rfl := List.mem_singleton.1 hm; simp [Pc.timer]
    | tick => cases hm
    | shutdown => obtain ⟨v, -, rfl⟩ := List.mem_map.1 hm; simp [Pc.timer]
  obtain ⟨h₁, h₂, h₃⟩ := hnone
  refine ⟨⟨fun t ht => ?_, fun t ht => ?_, fun w hw => absurd hw (h₂ w)⟩,
    fun t todo n hp => absurd hp (h₃ t todo n)⟩
  · rw [h₁] at ht; cases ht
  · rw [h₁] at ht; cases ht

/-! ### Reaping -/

theorem reap_tasks (h : program.Reachable Init (fun c a => reapUndisturbed c a) c) :
    Inv c ∧ ∀ (i : Nat) pc, c.threads[i]? = some pc → ReapTask c.shared pc ∧ CountTask c.shared pc := by
  refine reachable_induct
    (I := fun c => ∀ (i : Nat) pc, c.threads[i]? = some pc → ReapTask c.shared pc ∧ CountTask c.shared pc) ?_ ?_ ?_ h
  · intro c hc i pc hpc
    rw [hc.threads] at hpc; simp at hpc
  · intro c i e pc s' pc' new _ hI hR hC hpc ho hs
    have hfresh := hI.ids.fresh hpc
    refine Conf.forall_after ⟨hs.reapTask_self (hR i pc hpc).1, hs.countTask_self (hR i pc hpc).2⟩
      (fun j m hj hm => ⟨?_, ?_⟩) fun j m hm => ⟨hs.reapTask_new hm, ?_⟩
    · refine (hR j m hm).1.step hs hfresh (hI.owners.threads i pc hpc) ?_
      rintro rel rfl t ht hw (hidle : s'.isIdle rel.worker)
      simp only [reapUndisturbed, hpc, ho, Option.any_some, hidle, Bool.not_true, Bool.false_or,
        List.all_eq_true] at hC
      simpa [ht, hw] using hC m (List.mem_of_getElem? hm)
    · refine (hR j m hm).2.other hs (hI.locks.threads i pc hpc) (hI.locks.threads j m hm) hj hI.members.shared ?_
      rintro t todo n rfl w hw hnot hl
      by_contra hd
      have hp : pc.poolHeld = false := by
        by_contra hp
        have h₁ := (hI.locks.threads i pc hpc).pool (by simpa using hp)
        have h₂ := (hI.locks.threads j _ hm).pool rfl
        exact hj (Option.some.inj (h₂.symm.trans h₁))
      obtain ⟨rfl, after, rfl⟩ := hs.dies ho hfresh hp hl hd
      simp only [reapUndisturbed, hpc, List.all_eq_true] at hC
      simpa [hl, hw, hnot] using hC _ (List.mem_of_getElem? hm)
    · rintro t todo n rfl
      cases hs.newborn _ hm
  · intro c x s' new _ hR _ hs
    have hlive : s'.isLive = c.shared.isLive := by
      funext w; rw [Shared.isLive, Shared.isLive, hs.slots]
    refine Conf.forall_append (fun j m hm => ⟨⟨fun t ht => ?_, fun t ht => ?_, fun w hw => ?_⟩, ?_⟩)
      fun j m hm => hs.reap_new hm
    · exact ((hR j m hm).1.clock t ht).trans hs.clock
    · rw [Shared.SlotIs, hs.slots]; exact (hR j m hm).1.watches t ht
    · rw [hs.slots]; exact (hR j m hm).1.start w hw
    · rw [CountTask, hs.lists.1, hs.lists.2, hlive]; exact (hR j m hm).2

/-- Along a run a worker is leased more and more often, and the dead stay dead. -/
theorem slot_mono {C : Conf Shared Pc → Act Event Env → Prop} (h₀ : program.Reachable Init C c)
    (h : program.Reachable (· = c) C c') {x : Slot} (hx : c.shared.slots w = some x) :
    c'.shared.SlotIs w fun y => x.leases ≤ y.leases ∧ (x.state = .dead → y.state = .dead) := by
  induction h with
  | init hc => subst hc; exact ⟨x, hx, le_rfl, id⟩
  | @step c₁ c₂ a hr hC hstep ih =>
    have hI := (stale_tasks (h₀.trans hr)).1
    cases a with
    | thread i e =>
      obtain ⟨pc, o, hpc, ho, rfl⟩ := step_thread_iff.1 hstep
      refine ih.step (exec_step ho) (hI.ids.fresh hpc) fun y z _ hy hst =>
        ⟨hy.1.trans ?_, fun hd => hst.dead (hy.2 hd)⟩
      cases hst <;> omega
    | env a =>
      obtain ⟨r, hr', rfl⟩ := step_env_iff.1 hstep
      rw [Shared.SlotIs, (env_step hr').slots]
      exact ih

/-- The step in which a reaper kills its worker. -/
theorem Step.reaps {t : Timer} (h : Step s i pc s' (.reapForget t.worker) new) (ht : pc.timer = some t) :
    ∃ n slot, pc = .reapCount t [] n ∧ s.config.minWorkers < n ∧ s.slots t.worker = some slot ∧
      slot.state = .idle ∧ slot.lastUsed ≤ t.sleepStarted ∧ s' = (s.kill t.worker).unlockPool := by
  generalize hp : Pc.reapForget t.worker = p at h
  have quiet : ¬ p.quiet := by rw [← hp]; simp [Pc.quiet]
  cases h
  case reapKill n slot hn hs hst hu =>
    cases ht
    exact ⟨n, slot, rfl, hn, hs, hst, hu, rfl⟩
  case ensured | installEnsureFailed => exact absurd (afterDying_quiet ..) quiet
  case refused => exact absurd (opFailed_quiet ..) quiet
  case answered ha => exact absurd ha.quiet quiet
  case clear | resDrop => split at hp <;> cases hp
  all_goals cases hp

/-- Killing one worker takes one off the count at most. -/
theorem liveOrReserved_kill (h : MembersShared s) : s.liveOrReserved ≤ (s.kill w).liveOrReserved + 1 := by
  have hnodup := (List.nodup_append.1 h.nodup).1
  have hkeep : (s.children.erase w).countP s.isLive ≤ (s.children.erase w).countP (s.kill w).isLive := by
    refine List.countP_mono_left fun v hv hl => ?_
    have hne : v ≠ w := (hnodup.mem_erase_iff.1 hv).1
    obtain ⟨x, hx, hd⟩ := Shared.isLive_iff.1 hl
    exact Shared.isLive_iff.2 ⟨x, by simp [hne, hx], hd⟩
  have hsub : (s.children.erase w).countP (s.kill w).isLive ≤ s.children.countP (s.kill w).isLive :=
    List.erase_sublist.countP_le
  have herase := List.countP_erase s.isLive s.children w
  have : s.children.countP s.isLive ≤ (s.children.erase w).countP s.isLive + 1 := by
    rw [herase]
    split <;> omega
  show s.spawning.length + s.children.countP s.isLive ≤ s.spawning.length + s.children.countP (s.kill w).isLive + 1
  omega

/-- A timer kills its worker only if the worker was idle in every configuration since the timer started, only
while more than `minWorkers` are live or reserved, and leaves at least `minWorkers`. -/
theorem idle_reap {c₁ : Conf Shared Pc} (h₁ : program.Reachable Init (fun c a => reapUndisturbed c a) c₁)
    (h : program.Reachable (· = c₁) (fun c a => reapUndisturbed c a) c) {t : Timer} {e : Event}
    (ht₁ : ∃ pc ∈ c₁.threads, pc.timer = some t) (hpc : c.threads[i]? = some pc) (ht : pc.timer = some t)
    (hkill : exec c.shared i pc e = some ⟨s', .reapForget t.worker, new⟩) :
    c₁.shared.isIdle t.worker ∧ c.shared.config.minWorkers < c.shared.liveOrReserved ∧
      c.shared.config.minWorkers ≤ s'.liveOrReserved := by
  obtain ⟨hI, hR⟩ := reap_tasks (h₁.trans h)
  obtain ⟨n, slot, rfl, hn, hslot, hidle, hused, rfl⟩ := (exec_step hkill).reaps ht
  obtain ⟨hreap, hcount⟩ := hR i _ hpc
  have hmin : c.shared.config.minWorkers < c.shared.liveOrReserved := by
    obtain ⟨pre, hc, hle⟩ := hcount t [] n rfl
    rw [Shared.liveOrReserved, hc, List.append_nil]
    omega
  refine ⟨?_, hmin, ?_⟩
  · obtain ⟨pc₁, hpc₁, ht₁⟩ := ht₁
    obtain ⟨j, hj⟩ := List.mem_iff_getElem?.1 hpc₁
    obtain ⟨x, hx, hwatch⟩ := (((reap_tasks h₁).2 j pc₁ hj).1).watches t ht₁
    obtain ⟨y, hy, hle, hdead⟩ := slot_mono h₁ h hx
    obtain rfl := Option.some.inj (hslot.symm.trans hy)
    obtain ⟨z, hz, hwatch'⟩ := hreap.watches t ht
    obtain rfl := Option.some.inj (hslot.symm.trans hz)
    obtain ⟨hwas, hleases⟩ := hwatch'.used hidle hused
    have hsame : x.leases = t.leases := le_antisymm (hle.trans hleases.le) hwatch.leases
    rcases hwatch.still hwas hsame with hst | hst
    · simp [Shared.isIdle, hx, hst]
    · rw [hdead hst] at hidle; cases hidle
  · have := liveOrReserved_kill (w := t.worker) hI.members.shared
    show _ ≤ (c.shared.kill t.worker).liveOrReserved
    omega

/-- `A` and `B` open, and `A` closes: the timer of worker 0 is task 3. -/
def timerOfA : List (Act Event Env) := openAs "A" 0 5 ++ openAs "B" 1 8 ++ closeAs "A" 2 ++ goes 3 1

/-- The worker of `B` dies after the reaper of worker 0 has counted it: the reaper kills the last live worker
of a pool with a minimum of one. -/
theorem reap_below_min : ∃ c, program.Reachable Init Program.Free c ∧
    (∃ (t : Timer) (n : Nat), c.threads[3]? = some (Pc.reapCount t [] n) ∧ t.worker = 0) ∧
    c.shared.liveOrReserved = c.shared.config.minWorkers ∧
    ∃ c', program.step c (.thread 3 .go) = some c' ∧ c'.threads[3]? = some (Pc.reapForget 0) ∧
      c'.shared.liveOrReserved = 0 ∧ c'.shared.config.minWorkers = 1 := by
  obtain ⟨c, hc, hpc, hlive, hstep⟩ := Program.Reachable.of_run_any (P := program)
    (r := List.flatten [timerOfA, [.env (.call "B" none "list_functions" none)], goes 4 2, [.env .tick],
      goes 3 3, [.thread 4 .timeout, .thread 4 .go]])
    (p := fun c => c.threads[3]? = some (Pc.reapCount ⟨0, 0, true, 1⟩ [] 2) ∧
      c.shared.liveOrReserved = c.shared.config.minWorkers ∧
      ∃ c' ∈ program.step c (.thread 3 .go), c'.threads[3]? = some (Pc.reapForget 0) ∧
        c'.shared.liveOrReserved = 0 ∧ c'.shared.config.minWorkers = 1)
    (init_freshPool 2 1) (by decide +kernel)
  exact ⟨c, hc, ⟨_, _, hpc, rfl⟩, hlive, hstep⟩

/-- The timer of worker 0 runs out while the worker of `B` lives. -/
theorem idle_reap_above_min : ∃ c₁ c, program.Reachable Init (fun c a => reapUndisturbed c a) c₁ ∧
    program.Reachable (· = c₁) (fun c a => reapUndisturbed c a) c ∧ c₁.shared.isIdle 0 ∧
      c.shared.config.minWorkers < c.shared.liveOrReserved := by
  have hrun : ∃ c₁ ∈ program.runIf (fun c a => reapUndisturbed c a) (freshPool 2 1) timerOfA,
      .reapSleep ⟨0, 0, true, 1⟩ ∈ c₁.threads ∧
      ∃ c ∈ program.runIf (fun c a => reapUndisturbed c a) c₁ (.env .tick :: goes 3 3),
        c.threads[3]? = some (Pc.reapCount ⟨0, 0, true, 1⟩ [] 2) ∧
        ∃ o ∈ exec c.shared 3 (.reapCount ⟨0, 0, true, 1⟩ [] 2) .go, o.thread = .reapForget 0 := by
    decide +kernel
  obtain ⟨c₁, hc₁, ht, c, hc, hpc, o, ho, hthread⟩ := hrun
  have h₁ := Program.Reachable.of_runIf (.init (init_freshPool 2 1)) hc₁
  have h : program.Reachable (· = c₁) (fun c a => reapUndisturbed c a) c := .of_runIf (.init rfl) hc
  obtain ⟨s', pc', new⟩ := o
  subst hthread
  obtain ⟨hidle, hmin, -⟩ := idle_reap h₁ h ⟨_, ht, rfl⟩ hpc rfl ho
  exact ⟨c₁, c, h₁, h, hidle, hmin⟩

end IdaRs.Pool
