import IdaRs.Daemon

/-!
# Who removes whose socket

Nothing in the code compares the owner of a file with the process that removes or replaces it. What keeps
another daemon's files safe is that at most one running process has the socket bound (`Files.single`) and
that it keeps the file until it stops (`Files.holds`). `quietStart` is the condition under which these hold:
a ping fails only on a dead owner's socket, and a daemon binds while no other one is still removing files.
-/

namespace IdaRs.Daemon

open Threads

variable {s s' : Shared} {i j pid o : Nat} {pc pc' : Pc} {e : Event} {t : Task} {c c' : Conf Shared Task}

/-- Between the failed ping and the end of `ensure_single_instance`. -/
def Pc.removing : Pc → Bool
  | .removeStaleSock | .removeStaleRegistry => true
  | _ => false

/-- The process has bound the socket. -/
def Pc.owning : Pc → Bool
  | .writeRegistry | .accept | .cleanSock | .cleanRegistry | .exit | .notify | .dropSock | .dropRegistry |
    .shutdownWorkers => true
  | _ => false

/-- The process is stopping. -/
def Pc.closing : Pc → Bool
  | .cleanSock | .cleanRegistry | .exit | .dropSock | .dropRegistry | .shutdownWorkers => true
  | _ => false

theorem Pc.owning_of_closing (h : pc.closing) : pc.owning := by
  cases pc <;> first | rfl | cases h

/-- A ping fails only on the socket of a dead process, and no daemon binds while another running one is
removing files it found stale or has begun to stop. -/
def quietStart (c : Conf Shared Task) : Act Event Env → Bool
  | .thread i e =>
    match c.threads[i]? with
    | some ⟨_, .ping⟩ => decide (e = .answered false) → (c.shared.sock).all fun o => !(c.shared.procs o).alive
    | some ⟨pid, .bind⟩ =>
      (c.threads.zipIdx.all fun (t, j) => decide (j = i) || !(c.shared.procs t.pid).alive || !t.pc.removing) &&
      (List.range c.shared.next).all fun o =>
        decide (o = pid) || !(c.shared.procs o).alive || !(c.shared.procs o).stopping
    | _ => true
  | .env _ => true

/-! ### The invariant -/

/-- The files and their processes. -/
structure Files (s : Shared) : Prop where
  fresh : ∀ pid, s.next ≤ pid → s.procs pid = {}
  serving : ∀ o, (s.procs o).serving → (s.procs o).bound
  sock : ∀ o, s.sock = some o → o < s.next ∧ ((s.procs o).alive → (s.procs o).bound)
  registry : ∀ o, s.registry = some o → o < s.next ∧ ((s.procs o).alive → (s.procs o).bound)
  single : ∀ o o', s.Owner o → s.Owner o' → o = o'
  holds : ∀ o, s.Owner o → s.sock = some o ∨ (s.procs o).stopping ∧ s.sock = none

structure Local (s : Shared) (_ : Nat) (t : Task) : Prop where
  lt : t.pid < s.next
  bound : t.pc.owning → (s.procs t.pid).bound
  stopping : t.pc.closing → (s.procs t.pid).stopping
  /-- The socket file that is about to be removed has no running owner. -/
  stale : (s.procs t.pid).alive → t.pc = .removeStaleSock → ∀ o, s.Owner o → s.sock = none
  staleRegistry : (s.procs t.pid).alive → t.pc = .removeStaleRegistry → ∀ o, ¬ s.Owner o

def Inv : Conf Shared Task → Prop := Modular Files Local fun _ _ => True

/-! ### One step -/

/-- What a step does to the shared state. -/
inductive Change (s : Shared) (pid : Nat) (pc : Pc) : Shared → Prop
  | same : Change s pid pc s
  | kill : Change s pid pc (s.kill pid)
  | stop : Change s pid pc (s.stop pid)
  | removeSock (h : pc = .removeStaleSock ∧ s.sock ≠ none ∨ pc.closing) : Change s pid pc { s with sock := none }
  | removeRegistry (h : pc = .removeStaleRegistry ∨ pc.closing) : Change s pid pc { s with registry := none }
  | bind (hpc : pc = .bind) (h : s.sock = none) :
      Change s pid pc { s.update pid fun p => { p with bound := true } with sock := some pid }
  | write (h : pc = .writeRegistry) :
      Change s pid pc { s.update pid fun p => { p with serving := true } with registry := some pid }
  | writeLate (h : pc = .writeRegistry) : Change s pid pc { s.kill pid with registry := some pid }

/-- Where a step takes the task itself. -/
structure Next (s : Shared) (pid : Nat) (pc : Pc) (e : Event) (s' : Shared) (pc' : Pc) : Prop where
  owning : pc'.owning → pc.owning ∨ (s'.procs pid).bound
  closing : pc'.closing → pc.closing ∨ (s'.procs pid).stopping
  sock : pc' = .removeStaleSock → pc = .ping ∧ e = .answered false ∧ s' = s
  registry : pc' = .removeStaleRegistry → pc = .removeStaleSock ∧ s.sock ≠ none ∧ s' = { s with sock := none }

theorem pcStep_change (h : pcStep s pid pc e = some (s', pc')) : Change s pid pc s' := by
  cases pc <;> cases e <;> simp only [pcStep, reduceCtorEq] at h
  case ping.answered b =>
    cases b <;> obtain ⟨rfl, -⟩ := Prod.mk.inj (Option.some.inj h)
    · exact .same
    · exact .kill
  case removeStaleSock.go =>
    split at h <;> obtain ⟨rfl, -⟩ := Prod.mk.inj (Option.some.inj h)
    · exact .kill
    · exact .removeSock (.inl ⟨rfl, ‹_›⟩)
  case bind.go =>
    split at h <;> obtain ⟨rfl, -⟩ := Prod.mk.inj (Option.some.inj h)
    · exact .bind rfl ‹_›
    · exact .kill
  case accept.go =>
    split at h
    · obtain ⟨rfl, -⟩ := Prod.mk.inj (Option.some.inj h)
      exact .same
    · cases h
  all_goals obtain ⟨rfl, -⟩ := Prod.mk.inj (Option.some.inj h)
  case removeStaleSock.fail | bind.fail | writeRegistry.fail | exit.go => exact .kill
  case accept.fail | notify.go => exact .stop
  case cleanSock.go | dropSock.go => exact .removeSock (.inr rfl)
  case cleanRegistry.go | dropRegistry.go => exact .removeRegistry (.inr rfl)
  case removeStaleRegistry.go => exact .removeRegistry (.inl rfl)
  case writeRegistry.go => exact .write rfl
  case writeRegistry.failLate => exact .writeLate rfl
  all_goals exact .same

theorem Next.out (h₁ : pc'.owning = false) (h₂ : pc'.removing = false) : Next s pid pc e s' pc' := by
  have h₃ : pc'.closing = false := Bool.eq_false_iff.2 fun h => by simp [Pc.owning_of_closing h] at h₁
  refine ⟨fun h => ?_, fun h => ?_, fun h => ?_, fun h => ?_⟩
  · rw [h₁] at h; cases h
  · rw [h₃] at h; cases h
  · subst h; cases h₂
  · subst h; cases h₂

theorem Next.keeps (h₁ : pc.owning) (h₂ : pc'.closing → pc.closing ∨ (s'.procs pid).stopping)
    (h₃ : pc'.removing = false) : Next s pid pc e s' pc' := by
  refine ⟨fun _ => .inl h₁, h₂, fun h => ?_, fun h => ?_⟩
  · subst h; cases h₃
  · subst h; cases h₃

theorem pcStep_next (h : pcStep s pid pc e = some (s', pc')) : Next s pid pc e s' pc' := by
  cases pc <;> cases e <;> simp only [pcStep, reduceCtorEq] at h
  case exists?.go =>
    obtain ⟨-, rfl⟩ := Prod.mk.inj (Option.some.inj h)
    split <;> exact .out rfl rfl
  case ping.answered b =>
    cases b <;> obtain ⟨rfl, rfl⟩ := Prod.mk.inj (Option.some.inj h)
    · exact ⟨nofun, nofun, fun _ => ⟨rfl, rfl, rfl⟩, nofun⟩
    · exact .out rfl rfl
  case removeStaleSock.go =>
    split at h <;> obtain ⟨rfl, rfl⟩ := Prod.mk.inj (Option.some.inj h)
    · exact .out rfl rfl
    · exact ⟨nofun, nofun, nofun, fun _ => ⟨rfl, ‹_›, rfl⟩⟩
  case bind.go =>
    split at h <;> obtain ⟨rfl, rfl⟩ := Prod.mk.inj (Option.some.inj h)
    · exact ⟨fun _ => .inr (by simp [Shared.update]), nofun, nofun, nofun⟩
    · exact .out rfl rfl
  case accept.go =>
    split at h
    · obtain ⟨rfl, rfl⟩ := Prod.mk.inj (Option.some.inj h)
      exact .keeps rfl (fun _ => .inr ‹_›) rfl
    · cases h
  all_goals obtain ⟨rfl, rfl⟩ := Prod.mk.inj (Option.some.inj h)
  case accept.fail | notify.go => exact .keeps rfl (fun _ => .inr (by simp [Shared.stop, Shared.update])) rfl
  case writeRegistry.go => exact .keeps rfl nofun rfl
  case cleanSock.go | cleanSock.fail | cleanRegistry.go | cleanRegistry.fail | dropSock.go | dropSock.fail |
      dropRegistry.go | dropRegistry.fail => exact .keeps rfl (fun _ => .inl rfl) rfl
  all_goals exact .out rfl rfl

/-- Every step but a bind: the process may stop or die, and the socket file may go. -/
structure Quiet (s : Shared) (pid : Nat) (s' : Shared) : Prop where
  next : s'.next = s.next
  others : ∀ o, o ≠ pid → s'.procs o = s.procs o
  alive : (s'.procs pid).alive → (s.procs pid).alive
  bound : (s'.procs pid).bound = (s.procs pid).bound
  stopping : (s.procs pid).stopping → (s'.procs pid).stopping
  sock : s'.sock = s.sock ∨ s'.sock = none

theorem Change.quiet (h : Change s pid pc s') :
    Quiet s pid s' ∨
      pc = .bind ∧ s.sock = none ∧ s' = { s.update pid fun p => { p with bound := true } with sock := some pid } := by
  have hupdate : ∀ (f : Process → Process) (sock registry : Option Nat),
      ((f (s.procs pid)).alive → (s.procs pid).alive) → (f (s.procs pid)).bound = (s.procs pid).bound →
      ((s.procs pid).stopping → (f (s.procs pid)).stopping) → (sock = s.sock ∨ sock = none) →
      Quiet s pid { s.update pid f with sock, registry } := by
    intro f sock registry h₁ h₂ h₃ h₄
    refine ⟨rfl, fun o ho => Function.update_of_ne ho _ _, ?_, ?_, ?_, h₄⟩
    all_goals simpa only [Shared.update, Function.update_self]
  cases h with
  | same => exact .inl ⟨rfl, fun _ _ => rfl, id, rfl, id, .inl rfl⟩
  | kill => exact .inl (hupdate (fun p => { p with alive := false }) s.sock s.registry nofun rfl id (.inl rfl))
  | stop =>
    exact .inl (hupdate (fun p => { p with stopping := true }) s.sock s.registry id rfl (fun _ => rfl) (.inl rfl))
  | removeSock => exact .inl ⟨rfl, fun _ _ => rfl, id, rfl, id, .inr rfl⟩
  | removeRegistry => exact .inl ⟨rfl, fun _ _ => rfl, id, rfl, id, .inl rfl⟩
  | bind hpc h => exact .inr ⟨hpc, h, rfl⟩
  | write => exact .inl (hupdate (fun p => { p with serving := true }) s.sock (some pid) id rfl id (.inl rfl))
  | writeLate => exact .inl (hupdate (fun p => { p with alive := false }) s.sock (some pid) nofun rfl id (.inl rfl))

namespace Quiet

theorem kill (s : Shared) (pid : Nat) : Quiet s pid (s.kill pid) :=
  (show Change s pid .done (s.kill pid) from .kill).quiet.resolve_right fun h => nomatch h.1

theorem owner (h : Quiet s pid s') (ho : s'.Owner o) : s.Owner o := by
  by_cases heq : o = pid
  · subst heq
    exact ⟨h.alive ho.1, h.bound ▸ ho.2⟩
  · rw [Shared.Owner, ← h.others o heq]
    exact ho

theorem alive_le (h : Quiet s pid s') (ha : (s'.procs o).alive) : (s.procs o).alive := by
  by_cases heq : o = pid
  · subst heq
    exact h.alive ha
  · rwa [← h.others o heq]

theorem bound_eq (h : Quiet s pid s') : (s'.procs o).bound = (s.procs o).bound := by
  by_cases heq : o = pid
  · subst heq
    exact h.bound
  · rw [h.others o heq]

theorem stopping_le (h : Quiet s pid s') (hs : (s.procs o).stopping) : (s'.procs o).stopping := by
  by_cases heq : o = pid
  · subst heq
    exact h.stopping hs
  · rwa [h.others o heq]

/-- The facts of a task that is not taking the step. -/
theorem «local» (h : Quiet s pid s') (hl : Local s j t) : Local s' j t := by
  refine ⟨h.next ▸ hl.lt, fun hp => ?_, fun hp => ?_, fun ha hp o ho => ?_, fun ha hp o ho => ?_⟩
  · rw [h.bound_eq]; exact hl.bound hp
  · exact h.stopping_le (hl.stopping hp)
  · rcases h.sock with hs | hs
    · rw [hs]; exact hl.stale (h.alive_le ha) hp o (h.owner ho)
    · exact hs
  · exact hl.staleRegistry (h.alive_le ha) hp o (h.owner ho)

end Quiet

/-- A task of a running process finds no other owner. -/
theorem Local.owner (hl : Local s i ⟨pid, pc⟩) (ha : (s.procs pid).alive) (hp : pc.owning) : s.Owner pid :=
  ⟨ha, hl.bound hp⟩

theorem Files.quiet (h : Files s) (hl : Local s i ⟨pid, pc⟩) (ha : (s.procs pid).alive) (hc : Change s pid pc s')
    (hq : Quiet s pid s') : Files s' := by
  have hne : ∀ o, s.next ≤ o → o ≠ pid := fun o ho heq => by
    have := hl.lt
    simp only at this
    omega
  refine ⟨fun o ho => ?fresh, fun o ho => ?serving, fun o ho => ?sock, fun o ho => ?registry,
    fun o o' ho ho' => h.single o o' (hq.owner ho) (hq.owner ho'), fun o ho => ?holds⟩
  case fresh =>
    rw [hq.next] at ho
    rw [hq.others o (hne o ho), h.fresh o ho]
  case serving =>
    rw [hq.bound_eq]
    by_cases heq : o = pid
    · subst heq
      cases hc with
      | write hp => exact hl.bound (by rw [hp]; rfl)
      | kill | stop | bind | writeLate =>
        exact h.serving o (by simpa [Shared.kill, Shared.stop, Shared.update] using ho)
      | same | removeSock | removeRegistry => exact h.serving o ho
    · rw [hq.others o heq] at ho
      exact h.serving o ho
  case sock =>
    have hs : s.sock = some o := by
      rcases hq.sock with hs | hs
      · rw [← hs, ho]
      · rw [hs] at ho; cases ho
    rw [hq.next, hq.bound_eq]
    exact ⟨(h.sock o hs).1, fun hal => (h.sock o hs).2 (hq.alive_le hal)⟩
  case registry =>
    rw [hq.next, hq.bound_eq]
    have hwrite : pc = .writeRegistry → pid < s.next ∧ ((s'.procs pid).alive → (s.procs pid).bound) := fun hp =>
      ⟨hl.lt, fun _ => hl.bound (by rw [hp]; rfl)⟩
    have hold : s.registry = some o → o < s.next ∧ ((s'.procs o).alive → (s.procs o).bound) := fun hr =>
      ⟨(h.registry o hr).1, fun hal => (h.registry o hr).2 (hq.alive_le hal)⟩
    cases hc with
    | write hp | writeLate hp => exact Option.some.inj ho ▸ hwrite hp
    | removeRegistry => cases ho
    | same | kill | stop | removeSock | bind => exact hold ho
  case holds =>
    have hO := hq.owner ho
    rcases h.holds o hO with hs | ⟨hst, hs⟩
    · -- the file is there, so only a removal matters: the owner's own, or one that finds no owner
      cases hc with
      | removeSock hp =>
        rcases hp with ⟨rfl, hne⟩ | hp
        · exact absurd (hl.stale ha rfl o hO) hne
        · obtain rfl := h.single o pid hO (hl.owner ha (Pc.owning_of_closing hp))
          exact .inr ⟨hl.stopping hp, rfl⟩
      | bind _ hnone => rw [hnone] at hs; cases hs
      | same | kill | stop | removeRegistry | write | writeLate => exact .inl hs
    · refine .inr ⟨hq.stopping_le hst, ?_⟩
      rcases hq.sock with h' | h' <;> rw [h']
      exact hs

/-- A process may die at any time. -/
theorem Files.kill (h : Files s) : Files (s.kill pid) := by
  have hq := Quiet.kill s pid
  have hserving : ∀ o, ((s.kill pid).procs o).serving = (s.procs o).serving := by
    intro o
    by_cases heq : o = pid
    · subst heq
      simp [Shared.kill, Shared.update]
    · rw [hq.others o heq]
  refine ⟨fun o ho => ?_, fun o ho => ?_, fun o ho => ?_, fun o ho => ?_,
    fun o o' ho ho' => h.single o o' (hq.owner ho) (hq.owner ho'), fun o ho => ?_⟩
  · have hold := h.fresh o ho
    by_cases heq : o = pid
    · subst heq
      simp [Shared.kill, Shared.update, hold]
    · rw [hq.others o heq, hold]
  · rw [hserving] at ho
    rw [hq.bound_eq]
    exact h.serving o ho
  · rw [hq.bound_eq]
    exact ⟨(h.sock o ho).1, fun ha => (h.sock o ho).2 (hq.alive_le ha)⟩
  · rw [hq.bound_eq]
    exact ⟨(h.registry o ho).1, fun ha => (h.registry o ho).2 (hq.alive_le ha)⟩
  · exact (h.holds o (hq.owner ho)).imp_right fun hst => ⟨hq.stopping_le hst.1, hst.2⟩

/-- A bind under the condition: no other process has the socket bound. -/
theorem Files.bind (h : Files s) (hlt : pid < s.next) (hsock : s.sock = none)
    (hstop : ∀ o, o ≠ pid → (s.procs o).alive → (s.procs o).stopping = false) :
    (∀ o, o ≠ pid → ¬ s.Owner o) ∧
      Files { s.update pid fun p => { p with bound := true } with sock := some pid } := by
  have hnone : ∀ o, o ≠ pid → ¬ s.Owner o := fun o hne ho => by
    rcases h.holds o ho with hs | ⟨hst, -⟩
    · rw [hsock] at hs; cases hs
    · rw [hstop o hne ho.1] at hst; cases hst
  refine ⟨hnone, ?_⟩
  have hother : ∀ o, o ≠ pid →
      (s.update pid fun p => { p with bound := true }).procs o = s.procs o := fun o ho => Function.update_of_ne ho _ _
  have hself : (s.update pid fun p => { p with bound := true }).procs pid = { s.procs pid with bound := true } :=
    Function.update_self ..
  have honly : ∀ o, Shared.Owner { s.update pid fun p => { p with bound := true } with sock := some pid } o →
      o = pid := fun o ho => by
    by_contra hne
    have ho' : ((s.update pid fun p => { p with bound := true }).procs o).alive ∧
        ((s.update pid fun p => { p with bound := true }).procs o).bound := ho
    rw [hother o hne] at ho'
    exact hnone o hne ho'
  refine ⟨fun o ho => ?_, fun o ho => ?_, fun o ho => ?_, fun o ho => ?_,
    fun o o' ho ho' => (honly o ho).trans (honly o' ho').symm, fun o ho => .inl (by rw [honly o ho])⟩
  · have : s.next ≤ o := ho
    exact (hother o (by omega)).trans (h.fresh o ho)
  · by_cases heq : o = pid
    · subst heq
      show (Shared.procs _ _).bound = true
      rw [hself]
    · have hp := hother o heq
      simp only at ho hp ⊢
      rw [hp] at ho ⊢
      exact h.serving o ho
  · obtain rfl := Option.some.inj ho
    exact ⟨hlt, fun _ => by show (Shared.procs _ _).bound = true; rw [hself]⟩
  · refine ⟨(h.registry o ho).1, fun ha => ?_⟩
    by_cases heq : o = pid
    · subst heq
      show (Shared.procs _ _).bound = true
      rw [hself]
    · have hp := hother o heq
      simp only at ha hp ⊢
      rw [hp] at ha ⊢
      exact (h.registry o ho).2 ha

/-- The task that took the step. -/
theorem Local.self (hl : Local s i ⟨pid, pc⟩) (hnext : Next s pid pc e s' pc') (hlt : pid < s'.next)
    (hbound : (s.procs pid).bound → (s'.procs pid).bound) (hstop : (s.procs pid).stopping → (s'.procs pid).stopping)
    (hping : pc = .ping → e = .answered false → ∀ o, s.Owner o → s.sock = none) (ha : (s.procs pid).alive) :
    Local s' i ⟨pid, pc'⟩ := by
  refine ⟨hlt, fun hp => ?_, fun hp => ?_, fun _ hp o ho => ?_, fun _ hp o ho => ?_⟩
  · exact (hnext.owning hp).elim (fun h => hbound (hl.bound h)) id
  · exact (hnext.closing hp).elim (fun h => hstop (hl.stopping h)) id
  · obtain ⟨hping', he, rfl⟩ := hnext.sock hp
    exact hping hping' he o ho
  · obtain ⟨hp', hne, rfl⟩ := hnext.registry hp
    exact hne (hl.stale ha hp' o ho)

theorem quietStart_ping (hC : quietStart c (.thread i e)) (ht : c.threads[i]? = some ⟨pid, .ping⟩)
    (he : e = .answered false) (hF : Files c.shared) (ho : c.shared.Owner o) : c.shared.sock = none := by
  simp only [quietStart, ht, he, decide_true, true_implies, Option.all_eq_true, Bool.not_eq_true',
    decide_eq_true_eq] at hC
  rcases hF.holds o ho with hs | ⟨-, hs⟩
  · have := hC o hs
    rw [ho.1] at this
    cases this
  · exact hs

theorem quietStart_bind (hC : quietStart c (.thread i e)) (ht : c.threads[i]? = some ⟨pid, .bind⟩)
    (hF : Files c.shared) :
    (∀ j t, j ≠ i → c.threads[j]? = some t → (c.shared.procs t.pid).alive → t.pc.removing = false) ∧
    (∀ o, o ≠ pid → (c.shared.procs o).alive → (c.shared.procs o).stopping = false) := by
  simp only [quietStart, ht, Bool.and_eq_true, List.all_eq_true, Prod.forall, Bool.or_eq_true, decide_eq_true_eq,
    Bool.not_eq_true', List.mem_range] at hC
  refine ⟨fun j t hj htj ha => ?_, fun o ho ha => ?_⟩
  · rcases hC.1 t j (List.mem_zipIdx_iff_getElem?.2 htj) with (h | h) | h
    · exact absurd h hj
    · rw [ha] at h; cases h
    · exact h
  · have hlt : o < c.shared.next := by
      by_contra hge
      rw [hF.fresh o (by omega)] at ha
      cases ha
    rcases hC.2 o hlt with (h | h) | h
    · exact absurd h ho
    · rw [ha] at h; cases h
    · exact h

theorem Inv.thread (h : Inv c) (hC : quietStart c (.thread i e)) (hs : program.step c (.thread i e) = some c') :
    Inv c' := by
  obtain ⟨⟨pid, pc⟩, o, ht, ho, rfl⟩ := step_thread_iff.1 hs
  simp only [program, exec] at ho
  split at ho
  · rename_i ha
    obtain ⟨⟨s', pc'⟩, hstep, rfl⟩ := Option.map_eq_some_iff.1 ho
    have hl := h.threads i _ ht
    have hchange := pcStep_change hstep
    have hnext := pcStep_next hstep
    have hping : pc = .ping → e = .answered false → ∀ o, c.shared.Owner o → c.shared.sock = none := by
      rintro rfl he o ho
      exact quietStart_ping hC ht he h.shared ho
    rcases hchange.quiet with hq | ⟨rfl, hsock, rfl⟩
    · refine h.thread (fun _ _ _ => trivial) ht (h.shared.quiet hl ha hchange hq) ?_
        (fun j t _ htj => hq.local (h.threads j t htj)) (by simp) (by simp) (by simp) .nil
      exact hl.self hnext (hq.next ▸ hl.lt) (hq.bound.symm ▸ id) hq.stopping hping ha
    · obtain ⟨hremoving, hstopping⟩ := quietStart_bind hC ht h.shared
      obtain ⟨-, hF⟩ := h.shared.bind hl.lt hsock hstopping
      refine h.thread (fun _ _ _ => trivial) ht hF ?_ (fun j t hj htj => ?_) (by simp) (by simp) (by simp) .nil
      · exact hl.self hnext hl.lt (fun _ => by simp [Shared.update]) (fun hst => by simpa [Shared.update] using hst)
          hping ha
      · have hlj := h.threads j t htj
        have halive : ∀ o, (((c.shared.update pid fun p => { p with bound := true }).procs o).alive →
            (c.shared.procs o).alive) ∧ ((c.shared.procs o).bound →
            ((c.shared.update pid fun p => { p with bound := true }).procs o).bound) ∧ ((c.shared.procs o).stopping →
            ((c.shared.update pid fun p => { p with bound := true }).procs o).stopping) := by
          intro o
          by_cases heq : o = pid
          · subst heq
            simp [Shared.update]
          · simp [Shared.update, Function.update_of_ne heq]
        refine ⟨hlj.lt, fun hp => (halive _).2.1 (hlj.bound hp), fun hp => (halive _).2.2 (hlj.stopping hp),
          fun hal hp => ?_, fun hal hp => ?_⟩
        all_goals
          have := hremoving j t hj htj ((halive _).1 hal)
          rw [hp] at this
          cases this
  · cases ho

theorem Inv.env {x : Env} (h : Inv c) (hs : program.step c (.env x) = some c') : Inv c' := by
  obtain ⟨r, hr, rfl⟩ := step_env_iff.1 hs
  have hF := h.shared
  cases x with
  | start =>
    obtain rfl := Option.some.inj hr
    have hold : ∀ o, o < c.shared.next →
        Function.update c.shared.procs c.shared.next { alive := true } o = c.shared.procs o := fun o ho =>
      Function.update_of_ne (Nat.ne_of_lt ho) _ _
    have hnew : ∀ o, (Function.update c.shared.procs c.shared.next { alive := true } o).bound = true ∨
        (Function.update c.shared.procs c.shared.next { alive := true } o).serving = true → o ≠ c.shared.next := by
      rintro o ho rfl
      simp at ho
    refine Modular.env h (fun _ _ _ => trivial) ⟨fun o ho => ?_, fun o ho => ?_, fun o ho => ?_, fun o ho => ?_,
      fun o o' ho ho' => ?_, fun o ho => ?_⟩ (fun j t ht => ?_) ?_ (by simp) (by simp)
    · have : c.shared.next < o := ho
      show Function.update _ _ _ o = _
      rw [Function.update_of_ne (by omega), hF.fresh o (by omega)]
    · have hne := hnew o (.inr ho)
      simp only [Function.update_of_ne hne] at ho ⊢
      exact hF.serving o ho
    · obtain ⟨hlt, hb⟩ := hF.sock o ho
      simp only [hold o hlt]
      exact ⟨Nat.lt_succ_of_lt hlt, hb⟩
    · obtain ⟨hlt, hb⟩ := hF.registry o ho
      simp only [hold o hlt]
      exact ⟨Nat.lt_succ_of_lt hlt, hb⟩
    · have hne := hnew o (.inl ho.2)
      have hne' := hnew o' (.inl ho'.2)
      simp only [Shared.Owner, Function.update_of_ne hne] at ho
      simp only [Shared.Owner, Function.update_of_ne hne'] at ho'
      exact hF.single o o' ho ho'
    · have hne := hnew o (.inl ho.2)
      simp only [Shared.Owner, Function.update_of_ne hne] at ho ⊢
      exact hF.holds o ho
    · have hl := h.threads j t ht
      have hown : ∀ o, Shared.Owner ⟨c.shared.sock, c.shared.registry,
          Function.update c.shared.procs c.shared.next { alive := true }, c.shared.next + 1⟩ o → c.shared.Owner o := by
        intro o ho
        have hne := hnew o (.inl ho.2)
        simpa only [Shared.Owner, Function.update_of_ne hne] using ho
      have hp := hold t.pid hl.lt
      refine ⟨Nat.lt_succ_of_lt hl.lt, fun hpc => ?_, fun hpc => ?_, fun ha hpc o ho => ?_, fun ha hpc o ho => ?_⟩
      all_goals simp only [hp] at *
      · exact hl.bound hpc
      · exact hl.stopping hpc
      · exact hl.stale ha hpc o (hown o ho)
      · exact hl.staleRegistry ha hpc o (hown o ho)
    · intro j t ht _
      obtain rfl := List.mem_singleton.1 ht
      exact ⟨Nat.lt_succ_self _, nofun, nofun, nofun, nofun⟩
  | shutdown pid =>
    simp only [program, Daemon.env] at hr
    split at hr
    · rename_i hp
      obtain rfl := Option.some.inj hr
      refine Modular.env h (fun _ _ _ => trivial) hF h.threads ?_ (by simp) (by simp)
      intro j t ht _
      obtain rfl := List.mem_singleton.1 ht
      refine ⟨?_, fun _ => hF.serving pid hp.2, nofun, nofun, nofun⟩
      by_contra hge
      have := hp.1
      rw [hF.fresh pid (by simpa using hge)] at this
      cases this
    · cases hr
  | crash pid =>
    obtain rfl := Option.some.inj hr
    have hq := Quiet.kill c.shared pid
    refine Modular.env h (fun _ _ _ => trivial) hF.kill (fun j t ht => hq.local (h.threads j t ht)) (by simp) (by simp)
      .nil

theorem Inv.init (h : Init c) : Inv c := by
  have hdead : ∀ o, ¬ c.shared.Owner o := fun o ho => by
    rw [Shared.Owner, h.procs] at ho
    cases ho.1
  refine ⟨⟨fun o _ => h.procs o, fun o ho => ?_, fun o ho => ⟨h.sock o ho, fun ha => ?_⟩,
    fun o ho => ⟨h.registry o ho, fun ha => ?_⟩, fun o _ ho => absurd ho (hdead o), fun o ho => absurd ho (hdead o)⟩,
    fun i t ht => ?_, fun _ _ _ _ _ _ _ => trivial⟩
  · rw [h.procs] at ho; cases ho
  · rw [h.procs] at ha; cases ha
  · rw [h.procs] at ha; cases ha
  · rw [h.threads] at ht; simp at ht

theorem Inv.reachable (h : program.Reachable Init (fun c a => quietStart c a) c) : Inv c :=
  h.induct (fun _ => .init) fun c _ a _ hI hC hs => by
    cases a with
    | thread i e => exact hI.thread hC hs
    | env x => exact hI.env hs

/-- A running daemon's socket and registry file stay when another daemon takes a step, in every run whose
steps meet `quietStart`. -/
theorem files_kept (h : program.Reachable Init (fun c a => quietStart c a) c)
    (hs : program.step c (.thread i e) = some c') (ht : c.threads[i]? = some t) (hne : t.pid ≠ o)
    (ho : (c.shared.procs o).alive) :
    (c.shared.sock = some o → c'.shared.sock = some o) ∧
      (c.shared.registry = some o → c'.shared.registry = some o) := by
  have hI := Inv.reachable h
  obtain ⟨⟨pid, pc⟩, out, ht', hout, rfl⟩ := step_thread_iff.1 hs
  obtain rfl := Option.some.inj (ht.symm.trans ht')
  simp only [program, exec] at hout
  split at hout
  · rename_i ha
    obtain ⟨⟨s', pc'⟩, hstep, rfl⟩ := Option.map_eq_some_iff.1 hout
    have hl := hI.threads i _ ht
    -- the other daemon would be a second owner
    have hsingle : pc.owning → ∀ {p : Prop}, c.shared.Owner o → p := fun hp _ hO =>
      absurd (hI.shared.single _ _ (hl.owner ha hp) hO) hne
    have hsock : c.shared.sock = some o → c.shared.Owner o := fun hs => ⟨ho, (hI.shared.sock o hs).2 ho⟩
    have hreg : c.shared.registry = some o → c.shared.Owner o := fun hr => ⟨ho, (hI.shared.registry o hr).2 ho⟩
    cases pcStep_change hstep with
    | same | kill | stop => exact ⟨id, id⟩
    | removeSock hp =>
      refine ⟨fun hs => ?_, id⟩
      rcases hp with ⟨rfl, hsome⟩ | hp
      · exact absurd (hl.stale ha rfl o (hsock hs)) hsome
      · exact hsingle (Pc.owning_of_closing hp) (hsock hs)
    | removeRegistry hp =>
      refine ⟨id, fun hr => ?_⟩
      rcases hp with rfl | hp
      · exact absurd (hreg hr) (hl.staleRegistry ha rfl o)
      · exact hsingle (Pc.owning_of_closing hp) (hreg hr)
    | bind _ hnone => exact ⟨fun hs => (by rw [hnone] at hs; cases hs), id⟩
    | write hp | writeLate hp => exact ⟨id, fun hr => hsingle (by rw [hp]; rfl) (hreg hr)⟩
  · cases hout

def emptyCache : Conf Shared Task := ⟨⟨none, none, fun _ => {}, 0⟩, []⟩

theorem init_emptyCache : Init emptyCache := ⟨fun _ => rfl, nofun, nofun, rfl⟩

/-- A daemon starts as task `i`, up to its accept loop. -/
def startDaemon (i : Nat) : List (Act Event Env) := [.env .start, .thread i .go, .thread i .go, .thread i .go]

/-- Daemon 0 is asked to stop and drops its files; daemon 1 starts; then the accept loop of daemon 0 ends and
its last removal takes the socket of daemon 1. -/
theorem old_daemon_removes_new_socket : ∃ c c', program.Reachable Init Program.Free c ∧
    c.threads[0]? = some ⟨0, .cleanSock⟩ ∧ program.step c (.thread 0 .go) = some c' ∧
    (c.shared.procs 1).alive ∧ c.shared.sock = some 1 ∧ c'.shared.sock = none := by
  obtain ⟨c, hc, h₁, h₂, h₃, h₄⟩ := Program.Reachable.of_run_any (P := program)
    (r := List.flatten [startDaemon 0, [.env (.shutdown 0), .thread 1 .go, .thread 1 .go, .thread 1 .go],
      startDaemon 2, [.thread 0 .go]])
    (p := fun c => c.threads[0]? = some ⟨0, .cleanSock⟩ ∧ (c.shared.procs 0).alive ∧ (c.shared.procs 1).alive ∧
      c.shared.sock = some 1) init_emptyCache (by decide +kernel)
  exact ⟨c, c.after 0 ⟨{ c.shared with sock := none }, ⟨0, .cleanRegistry⟩, []⟩, hc, h₁,
    step_thread_iff.2 ⟨_, _, h₁, by simp [program, exec, pcStep, h₂], rfl⟩, h₃, h₄, rfl⟩

/-- A second daemon finds the first one running. -/
theorem files_kept_second_start : ∃ c c', program.Reachable Init (fun c a => quietStart c a) c ∧
    c.threads[1]? = some ⟨1, .ping⟩ ∧ program.step c (.thread 1 (.answered true)) = some c' ∧
    c'.shared.sock = some 0 ∧ c'.shared.registry = some 0 := by
  obtain ⟨c, hc, h₁, h₃, h₄, h₅, h₆⟩ := Program.Reachable.of_runIf_any (P := program)
    (C := fun c a => quietStart c a)
    (r := startDaemon 0 ++ ([.env .start, .thread 1 .go] : List (Act Event Env)))
    (p := fun c => c.threads[1]? = some ⟨1, .ping⟩ ∧ (program.step c (.thread 1 (.answered true))).isSome ∧
      (c.shared.procs 0).alive ∧ c.shared.sock = some 0 ∧ c.shared.registry = some 0) init_emptyCache (by decide +kernel)
  obtain ⟨c', hs⟩ := Option.isSome_iff_exists.1 h₃
  have := files_kept (o := 0) hc hs h₁ nofun h₄
  exact ⟨c, c', hc, h₁, hs, this.1 h₅, this.2 h₆⟩

end IdaRs.Daemon
