import IdaRs.Router

/-!
# Database exclusivity of the router

`Distinct`: no two live worker processes share a database or an input. The duplicate check looks at
`targets` only, so it protects the database of a process that an entry still records. A process that
`target.close` is stopping (or that an ignored wait error left behind) is recorded nowhere;
`checkSeesClash` asks that a load's check runs while no such process works on its database.
-/

namespace IdaRs.Router

open Threads

/-- Two processes or loads work on one database or one input. -/
def Clash (canonPath dbIdentity : String) (p : Process) : Prop :=
  Path.same p.canonPath canonPath ∨ Path.same p.dbIdentity dbIdentity

instance (canonPath dbIdentity : String) (p : Process) : Decidable (Clash canonPath dbIdentity p) :=
  inferInstanceAs (Decidable (_ ∨ _))

/-- No two live workers work on one database or one input. -/
def Distinct (procs : List Process) : Prop :=
  ∀ (a b : Nat) p q, procs[a]? = some p → procs[b]? = some q → p.alive → q.alive →
    Clash p.canonPath p.dbIdentity q → a = b

/-- At its duplicate check, a load meets live workers on its database only among the `targets`. -/
def checkSeesClash (c : Conf Shared Pc) : Act Event Env → Bool
  | .thread i .go =>
    match c.threads[i]? with
    | some (.loadCheck job) =>
      c.shared.procs.zipIdx.all fun (p, child) =>
        decide (p.alive → Clash job.canonPath job.dbIdentity p → ∃ e ∈ c.shared.state.targets, e.2.child = child)
    | _ => true
  | _ => true

/-- The load in a critical section of `load_lock`. -/
def Pc.inLoad : Pc → Bool
  | .loadCheck .. | .loadAlloc .. | .loadSpawn .. | .loadBoot .. | .loadHandshake .. | .loadInsert .. |
    .loadStop .. => true
  | _ => false

/-- The load that passed its check and has not spawned. -/
def Pc.checked : Pc → Option Load
  | .loadAlloc job | .loadSpawn job _ => some job
  | _ => none

/-- The load and the process it spawned. -/
def Pc.spawned : Pc → Option (Load × Nat)
  | .loadBoot job _ child | .loadHandshake job _ child | .loadInsert job _ child _ => some (job, child)
  | _ => none

/-- `child` is a process that was spawned for this input and database. -/
def Recorded (procs : List Process) (child : Nat) (canonPath dbIdentity : String) : Prop :=
  ∃ p, procs[child]? = some p ∧ p.canonPath = canonPath ∧ p.dbIdentity = dbIdentity

structure Inv (c : Conf Shared Pc) : Prop where
  distinct : Distinct c.shared.procs
  /-- Every entry names the process that was spawned for it. -/
  entries : ∀ e ∈ c.shared.state.targets, Recorded c.shared.procs e.2.child e.2.canonPath e.2.dbIdentity
  locked : ∀ (i : Nat) pc, c.threads[i]? = some pc → pc.inLoad → c.shared.loadLock = some i
  /-- A load that passed its check clashes with no live worker. -/
  clear : ∀ pc ∈ c.threads, ∀ job, pc.checked = some job →
    ∀ p ∈ c.shared.procs, p.alive → ¬ Clash job.canonPath job.dbIdentity p
  spawned : ∀ pc ∈ c.threads, ∀ job child, pc.spawned = some (job, child) →
    Recorded c.shared.procs child job.canonPath job.dbIdentity

/-! ### Processes only die -/

/-- Processes stay where they are and only die. -/
def Dies (procs procs' : List Process) : Prop :=
  procs'.length = procs.length ∧ ∀ (k : Nat) p', procs'[k]? = some p' → ∃ p, procs[k]? = some p ∧
    p'.canonPath = p.canonPath ∧ p'.dbIdentity = p.dbIdentity ∧ (p'.alive → p.alive)

namespace Dies
variable {procs procs' : List Process}

theorem refl (procs : List Process) : Dies procs procs :=
  ⟨rfl, fun _ p h => ⟨p, h, rfl, rfl, id⟩⟩

theorem kill (s : Shared) (child : Nat) : Dies s.procs (s.kill child).procs := by
  refine ⟨List.length_modify .., fun k p' hp => ?_⟩
  simp only [Shared.kill, List.getElem?_modify, Option.map_eq_map, Option.map_eq_some_iff] at hp
  obtain ⟨p, hp, rfl⟩ := hp
  refine ⟨p, hp, ?_⟩
  split <;> simp

theorem recorded (h : Dies procs procs') {child : Nat} {cp di : String} (hr : Recorded procs child cp di) :
    Recorded procs' child cp di := by
  obtain ⟨p, hp, rfl, rfl⟩ := hr
  have hlt : child < procs'.length := h.1 ▸ (List.getElem?_eq_some_iff.1 hp).1
  obtain ⟨q, hq, h₁, h₂, -⟩ := h.2 child _ (List.getElem?_eq_getElem hlt)
  obtain rfl : p = q := Option.some.inj (hp.symm.trans hq)
  exact ⟨_, List.getElem?_eq_getElem hlt, h₁, h₂⟩

theorem clear (h : Dies procs procs') {cp di : String} (hc : ∀ p ∈ procs, p.alive → ¬ Clash cp di p) :
    ∀ p ∈ procs', p.alive → ¬ Clash cp di p := by
  intro p' hp' ha
  obtain ⟨k, hk⟩ := List.mem_iff_getElem?.1 hp'
  obtain ⟨p, hp, h₁, h₂, h₃⟩ := h.2 k p' hk
  rw [Clash, h₁, h₂]
  exact hc p (List.mem_of_getElem? hp) (h₃ ha)

theorem distinct (h : Dies procs procs') (hd : Distinct procs) : Distinct procs' := by
  intro a b p' q' hp' hq' hpa hqa hclash
  obtain ⟨p, hp, h₁, h₂, h₃⟩ := h.2 a p' hp'
  obtain ⟨q, hq, k₁, k₂, k₃⟩ := h.2 b q' hq'
  rw [Clash, h₁, h₂, k₁, k₂] at hclash
  exact hd a b p q hp hq (h₃ hpa) (k₃ hqa) hclash

end Dies

theorem Recorded.append {procs new : List Process} {child : Nat} {cp di : String}
    (h : Recorded procs child cp di) : Recorded (procs ++ new) child cp di := by
  obtain ⟨p, hp, hc, hd⟩ := h
  exact ⟨p, by rw [List.getElem?_append_left (List.getElem?_eq_some_iff.1 hp).1, hp], hc, hd⟩

theorem Clash.symm {p q : Process} (h : Clash p.canonPath p.dbIdentity q) : Clash q.canonPath q.dbIdentity p :=
  h.imp (Path.same_comm .. ▸ ·) (Path.same_comm .. ▸ ·)

/-- A process that clashes with no live one may be added. -/
theorem Distinct.append {procs : List Process} {new : Process} (h : Distinct procs)
    (hc : ∀ p ∈ procs, p.alive → ¬ Clash new.canonPath new.dbIdentity p) : Distinct (procs ++ [new]) := by
  have key : ∀ (a : Nat) p, (procs ++ [new])[a]? = some p →
      procs[a]? = some p ∨ (a = procs.length ∧ p = new) := by
    intro a p hp
    rw [List.getElem?_append] at hp
    split at hp
    · exact .inl hp
    · obtain ⟨h₁, h₂⟩ := List.getElem?_eq_some_iff.1 hp
      simp only [List.length_singleton] at h₁
      exact .inr ⟨by omega, by simpa using h₂.symm⟩
  intro a b p q hp hq hpa hqa hclash
  rcases key a p hp with hp | ⟨rfl, rfl⟩ <;> rcases key b q hq with hq | ⟨hb, hq⟩
  · exact h a b p q hp hq hpa hqa hclash
  · exact absurd (hq ▸ hclash.symm) (hc p (List.mem_of_getElem? hp) hpa)
  · exact absurd hclash (hc q (List.mem_of_getElem? hq) hqa)
  · exact hb.symm

/-! ### What a step may change -/

variable {s s' : Shared} {i j : Nat} {pc pc' : Pc} {e : Event}

/-- The entries after a step: old ones, and the one a load inserts for the process it spawned. -/
def KeepsEntries (s : Shared) (pc : Pc) (s' : Shared) : Prop :=
  ∀ e ∈ s'.state.targets, e ∈ s.state.targets ∨
    ∃ job, pc.spawned = some (job, e.2.child) ∧ e.2.canonPath = job.canonPath ∧ e.2.dbIdentity = job.dbIdentity

/-- A step of request `i` keeps the lock of another, and kills or spawns. -/
inductive Effect (s : Shared) (i : Nat) (pc : Pc) (s' : Shared) : Prop
  | dies (hp : Dies s.procs s'.procs) (ht : KeepsEntries s pc s')
      (hl : ∀ j, j ≠ i → s.loadLock = some j → s'.loadLock = some j)
  | spawn (job : Load) (id : String) (hpc : pc = .loadSpawn job id)
      (h : s' = { s with procs := s.procs ++ [{ canonPath := job.canonPath, dbIdentity := job.dbIdentity }] })

theorem startRequest_effect (req : Request) :
    (startRequest s req).1.procs = s.procs ∧ (startRequest s req).1.loadLock = s.loadLock ∧
      ∀ e ∈ (startRequest s req).1.state.targets, e ∈ s.state.targets := by
  cases req <;> unfold startRequest <;> dsimp only
  case ping | list => exact ⟨rfl, rfl, fun _ h => h⟩
  case shutdown => exact ⟨rfl, rfl, fun _ h => by simp [Shared.withState] at h⟩
  case load => split <;> exact ⟨rfl, rfl, fun _ h => h⟩
  case switch => split <;> exact ⟨rfl, rfl, fun _ h => h⟩
  case close =>
    split
    · split
      · exact ⟨rfl, rfl, fun _ h => (List.mem_filter.1 h).1⟩
      · exact ⟨rfl, rfl, fun _ h => h⟩
    · exact ⟨rfl, rfl, fun _ h => h⟩
  case forward =>
    split
    · split <;> exact ⟨rfl, rfl, fun _ h => h⟩
    · exact ⟨rfl, rfl, fun _ h => h⟩

/-- A step that leaves processes, entries and locks alone, apart from deaths and its own lock. -/
theorem Effect.quiet (hp : Dies s.procs s'.procs) (ht : s'.state.targets = s.state.targets)
    (hl : s'.loadLock = s.loadLock ∨ s.loadLock = some i ∨ s.loadLock = none) : Effect s i pc s' := by
  refine .dies hp (fun e he => .inl (ht ▸ he)) fun j hj hs => ?_
  rcases hl with hl | hl | hl
  · rw [hl, hs]
  · exact absurd (Option.some.inj (hs.symm.trans hl)) hj
  · cases hs.symm.trans hl

theorem pcStep_effect (hs : pcStep s i pc e = some (s', pc')) (hlock : pc.inLoad → s.loadLock = some i) :
    Effect s i pc s' := by
  cases pc <;> cases e <;> simp only [pcStep, reduceCtorEq] at hs
  case start.go req =>
    obtain ⟨h₁, h₂, h₃⟩ := startRequest_effect (s := s) req
    rw [Option.some.inj hs] at h₁ h₂ h₃
    exact .dies (by rw [h₁]; exact .refl _) (fun e he => .inl (h₃ e he)) fun j _ hj => by rw [h₂, hj]
  case loadWait.go =>
    split at hs
    · rename_i hfree
      obtain ⟨rfl, -⟩ := Prod.mk.inj (Option.some.inj hs)
      exact .quiet (.refl _) rfl (.inr (.inr hfree))
    · cases hs
  case loadCheck.go =>
    split at hs <;> obtain ⟨rfl, -⟩ := Prod.mk.inj (Option.some.inj hs)
    · exact .quiet (.refl _) rfl (.inr (.inl (hlock rfl)))
    · exact .quiet (.refl _) rfl (.inl rfl)
  case loadBoot.exited =>
    split at hs
    · cases hs
    · obtain ⟨rfl, -⟩ := Prod.mk.inj (Option.some.inj hs)
      exact .quiet (.refl _) rfl (.inr (.inl (hlock rfl)))
  case stopping.go todo _ | stopping.fail todo _ _ =>
    cases todo <;> simp only [reduceCtorEq] at hs
    obtain ⟨rfl, -⟩ := Prod.mk.inj (Option.some.inj hs)
    exact .quiet (.refl _) rfl (.inl rfl)
  case stopping.killed todo _ =>
    cases todo <;> simp only [reduceCtorEq] at hs
    obtain ⟨rfl, -⟩ := Prod.mk.inj (Option.some.inj hs)
    exact .quiet (.kill ..) rfl (.inl rfl)
  case stopping.exited todo _ _ =>
    cases todo <;> simp only [reduceCtorEq] at hs
    split at hs
    · cases hs
    · obtain ⟨rfl, -⟩ := Prod.mk.inj (Option.some.inj hs)
      exact .quiet (.refl _) rfl (.inl rfl)
  case forwardWait.go =>
    split at hs
    · obtain ⟨rfl, -⟩ := Prod.mk.inj (Option.some.inj hs)
      exact .quiet (.refl _) rfl (.inl rfl)
    · cases hs
  all_goals obtain ⟨rfl, -⟩ := Prod.mk.inj (Option.some.inj hs)
  case loadSpawn.go job id => exact .spawn job id rfl rfl
  case loadInsert.go job id child info =>
    refine .dies (.refl _) (fun e he => ?_) fun j hj hl => ?_
    · rcases List.mem_append.1 he with he | he
      · exact .inl (List.mem_filter.1 he).1
      · obtain rfl := List.mem_singleton.1 he
        exact .inr ⟨job, rfl, rfl, rfl⟩
    · exact absurd (Option.some.inj (hl.symm.trans (hlock rfl))) hj
  case loadSpawn.fail | loadBoot.fail | loadStop.fail =>
    exact .quiet (.refl _) rfl (.inr (.inl (hlock rfl)))
  case loadBoot.killed | loadStop.killed => exact .quiet (.kill ..) rfl (.inr (.inl (hlock rfl)))
  all_goals exact .quiet (.refl _) rfl (.inl rfl)

/-- Where a step takes the request itself, as far as its load is concerned. -/
inductive Next (s : Shared) (i : Nat) (pc : Pc) (s' : Shared) (pc' : Pc) : Prop
  | out (h : pc'.inLoad = false)
  | locks (job : Load) (h : pc' = .loadCheck job) (hl : s'.loadLock = some i)
  | passes (job : Load) (hpc : pc = .loadCheck job) (hc : s.state.conflict job = none)
      (h : pc' = .loadAlloc job) (hs : s' = s)
  | allocates (job : Load) (id : String) (hpc : pc = .loadAlloc job) (h : pc' = .loadSpawn job id)
      (hp : s'.procs = s.procs) (hl : s'.loadLock = s.loadLock)
  | spawns (job : Load) (id : String) (hpc : pc = .loadSpawn job id)
      (h : pc' = .loadBoot job id s.procs.length) (hl : s'.loadLock = s.loadLock)
      (hp : Recorded s'.procs s.procs.length job.canonPath job.dbIdentity)
  | keeps (hi : pc.inLoad) (hs : s' = s) (hc : pc'.checked = none)
      (hsp : pc'.spawned = pc.spawned ∨ pc'.spawned = none)

theorem startRequest_next (req : Request) : (startRequest s req).2.inLoad = false := by
  cases req <;> unfold startRequest <;> dsimp only
  case ping | list | shutdown => rfl
  case load | switch => split <;> rfl
  case close | forward =>
    split
    · split <;> rfl
    · rfl

theorem pcStep_next (hs : pcStep s i pc e = some (s', pc')) : Next s i pc s' pc' := by
  cases pc <;> cases e <;> simp only [pcStep, reduceCtorEq] at hs
  case start.go req => exact .out (by rw [← startRequest_next (s := s) req, Option.some.inj hs])
  case loadWait.go job =>
    split at hs
    · obtain ⟨rfl, rfl⟩ := Prod.mk.inj (Option.some.inj hs)
      exact .locks job rfl rfl
    · cases hs
  case loadCheck.go job =>
    split at hs <;> obtain ⟨rfl, rfl⟩ := Prod.mk.inj (Option.some.inj hs)
    · exact .out rfl
    · exact .passes job rfl ‹_› rfl rfl
  case stopping.go todo _ | stopping.fail todo _ _ | stopping.killed todo _ =>
    cases todo <;> simp only [reduceCtorEq] at hs
    obtain ⟨-, rfl⟩ := Prod.mk.inj (Option.some.inj hs)
    exact .out rfl
  case stopping.exited todo _ _ =>
    cases todo <;> simp only [reduceCtorEq] at hs
    split at hs
    · cases hs
    · obtain ⟨-, rfl⟩ := Prod.mk.inj (Option.some.inj hs)
      exact .out rfl
  case loadBoot.exited =>
    split at hs
    · cases hs
    · obtain ⟨-, rfl⟩ := Prod.mk.inj (Option.some.inj hs)
      exact .out rfl
  case forwardWait.go =>
    split at hs
    · obtain ⟨-, rfl⟩ := Prod.mk.inj (Option.some.inj hs)
      exact .out rfl
    · cases hs
  all_goals obtain ⟨rfl, rfl⟩ := Prod.mk.inj (Option.some.inj hs)
  case loadAlloc.go job => exact .allocates job _ rfl rfl rfl rfl
  case loadSpawn.go job id => exact .spawns job id rfl rfl rfl ⟨_, List.getElem?_concat_length, rfl, rfl⟩
  case loadBoot.go | loadHandshake.loaded => exact .keeps rfl rfl rfl (.inl rfl)
  case loadHandshake.fail => exact .keeps rfl rfl rfl (.inr rfl)
  all_goals exact .out rfl

/-- A passed check, when it can see every process it clashes with. -/
theorem clear_of_conflict {job : Load} (hc : s.state.conflict job = none)
    (hentries : ∀ e ∈ s.state.targets, Recorded s.procs e.2.child e.2.canonPath e.2.dbIdentity)
    (hsees : ∀ (child : Nat) p, s.procs[child]? = some p → p.alive → Clash job.canonPath job.dbIdentity p →
      ∃ e ∈ s.state.targets, e.2.child = child) :
    ∀ p ∈ s.procs, p.alive → ¬ Clash job.canonPath job.dbIdentity p := by
  intro p hp ha hclash
  obtain ⟨child, hchild⟩ := List.mem_iff_getElem?.1 hp
  obtain ⟨e, he, rfl⟩ := hsees child p hchild ha hclash
  obtain ⟨q, hq, hcp, hdi⟩ := hentries e he
  obtain rfl : p = q := Option.some.inj (hchild.symm.trans hq)
  have := RouterState.conflict_eq_none.1 hc e he
  rcases hclash with h | h
  · exact this.1 (hcp ▸ h)
  · exact this.2 (hdi ▸ h)

/-! ### Whole runs -/

variable {c c' : Conf Shared Pc}

theorem Pc.inLoad_of_checked {job : Load} (h : pc.checked = some job) : pc.inLoad := by
  cases pc <;> first | rfl | cases h

theorem Pc.inLoad_of_spawned {x : Load × Nat} (h : pc.spawned = some x) : pc.inLoad := by
  cases pc <;> first | rfl | cases h

theorem Inv.env {x : Env} (h : Inv c) (hs : program.step c (.env x) = some c') : Inv c' := by
  obtain ⟨r, hr, rfl⟩ := step_env_iff.1 hs
  have hsame : Dies c.shared.procs r.1.procs ∧ r.1.loadLock = c.shared.loadLock ∧
      (∀ e ∈ r.1.state.targets, e ∈ c.shared.state.targets) ∧ ∀ pc ∈ r.2, pc.inLoad = false := by
    cases x <;> simp only [program, Router.env] at hr
    case request | setFiles => cases hr; exact ⟨.refl _, rfl, fun _ h => h, by simp [Pc.inLoad]⟩
    case exit => cases hr; exact ⟨.kill .., rfl, fun _ h => h, by simp⟩
    case reorder ts =>
      split at hr
      · rename_i hperm
        cases hr
        exact ⟨.refl _, rfl, fun _ h => (List.isPerm_iff.1 hperm).mem_iff.1 h, by simp⟩
      · cases hr
  obtain ⟨hp, hl, ht, hnew⟩ := hsame
  refine ⟨hp.distinct h.distinct, fun e he => hp.recorded (h.entries e (ht e he)), fun i pc hi hin => ?_,
    fun pc hpc job hj => ?_, fun pc hpc job child hj => ?_⟩
  · rw [hl]
    rcases Conf.append_get hi with hi | ⟨-, hi⟩
    · exact h.locked i pc hi hin
    · rw [hnew pc hi] at hin; cases hin
  · rcases List.mem_append.1 hpc with hpc | hpc
    · exact hp.clear (h.clear pc hpc job hj)
    · have := hnew pc hpc; rw [Pc.inLoad_of_checked hj] at this; cases this
  · rcases List.mem_append.1 hpc with hpc | hpc
    · exact hp.recorded (h.spawned pc hpc job child hj)
    · have := hnew pc hpc; rw [Pc.inLoad_of_spawned hj] at this; cases this

theorem Effect.recorded {child : Nat} {cp di : String} (h : Effect s i pc s')
    (hr : Recorded s.procs child cp di) : Recorded s'.procs child cp di := by
  cases h with
  | dies hp _ _ => exact hp.recorded hr
  | spawn job id _ h => rw [h]; exact hr.append

theorem Effect.loadLock (h : Effect s i pc s') (hne : j ≠ i) (hl : s.loadLock = some j) :
    s'.loadLock = some j := by
  cases h with
  | dies _ _ h => exact h j hne hl
  | spawn job id _ h => rw [h, ← hl]

theorem Next.loadLock (h : Next s i pc s' pc') (hl : pc.inLoad → s.loadLock = some i) (hin : pc'.inLoad) :
    s'.loadLock = some i := by
  cases h with
  | out h => rw [h] at hin; cases hin
  | locks job _ hl => exact hl
  | passes job hp _ _ hs => rw [hs]; exact hl (by rw [hp]; rfl)
  | allocates job id hp _ _ hs => rw [hs]; exact hl (by rw [hp]; rfl)
  | spawns job id hp _ hs _ => rw [hs]; exact hl (by rw [hp]; rfl)
  | keeps hi hs _ _ => rw [hs]; exact hl hi

/-- A load that is checked after the step was so before, or just passed its check. -/
theorem Next.checked {job : Load} (h : Next s i pc s' pc') (hj : pc'.checked = some job) :
    s'.procs = s.procs ∧
      (pc.checked = some job ∨ pc = .loadCheck job ∧ s.state.conflict job = none) := by
  cases h with
  | out h => rw [Pc.inLoad_of_checked hj] at h; cases h
  | locks _ h _ => rw [h] at hj; cases hj
  | passes job' hp hc h hs =>
    rw [h] at hj
    obtain rfl : job' = job := Option.some.inj hj
    exact ⟨by rw [hs], .inr ⟨hp, hc⟩⟩
  | allocates job' id hp h hs _ =>
    rw [h] at hj
    obtain rfl : job' = job := Option.some.inj hj
    exact ⟨hs, .inl (by rw [hp]; rfl)⟩
  | spawns _ id hp h hs _ => rw [h] at hj; cases hj
  | keeps _ _ hc _ => rw [hc] at hj; cases hj

/-- A load with a process after the step had it before, or just spawned it. -/
theorem Next.spawned {job : Load} {child : Nat} (h : Next s i pc s' pc')
    (hj : pc'.spawned = some (job, child)) :
    pc.spawned = some (job, child) ∨ Recorded s'.procs child job.canonPath job.dbIdentity := by
  cases h with
  | out h => rw [Pc.inLoad_of_spawned hj] at h; cases h
  | locks _ h _ => rw [h] at hj; cases hj
  | passes _ hp hc h hs => rw [h] at hj; cases hj
  | allocates _ id hp h hs _ => rw [h] at hj; cases hj
  | spawns _ id hp h hs hr =>
    rw [h] at hj
    obtain ⟨rfl, rfl⟩ := Prod.mk.inj (Option.some.inj hj)
    exact .inr hr
  | keeps _ _ _ hsp =>
    rcases hsp with hsp | hsp <;> rw [hsp] at hj
    · exact .inl hj
    · cases hj

/-- A step of a thread, from what it does to the shared state and to the thread itself. -/
theorem Inv.after (h : Inv c) (hpc : c.threads[i]? = some pc) (heff : Effect c.shared i pc s')
    (hnext : Next c.shared i pc s' pc')
    (hsees : ∀ job, pc = .loadCheck job → c.shared.state.conflict job = none →
      ∀ p ∈ c.shared.procs, p.alive → ¬ Clash job.canonPath job.dbIdentity p) :
    Inv (c.after i ⟨s', pc', []⟩) := by
  have hmem := List.mem_of_getElem? hpc
  have hothers : ∀ m ∈ (c.after i ⟨s', pc', []⟩).threads, m = pc' ∨ ∃ j, j ≠ i ∧ c.threads[j]? = some m := by
    intro m hm
    obtain ⟨j, hj⟩ := List.mem_iff_getElem?.1 hm
    rcases Conf.after_get hj with ⟨-, rfl⟩ | ⟨hj, hm⟩ | ⟨-, hm⟩
    exacts [.inl rfl, .inr ⟨j, hj, hm⟩, by simp at hm]
  refine ⟨?distinct, ?entries, fun j m hm hin => ?locked, fun m hm job hjob => ?clear,
    fun m hm job child hjob => ?spawned⟩
  case distinct =>
    cases heff with
    | dies hp _ _ => exact hp.distinct h.distinct
    | spawn job id hp hs =>
      subst hp hs
      exact h.distinct.append (h.clear _ hmem job rfl)
  case entries =>
    intro entry he
    cases heff with
    | dies hp ht _ =>
      rcases ht entry he with he | ⟨job, hsp, h₁, h₂⟩
      · exact hp.recorded (h.entries entry he)
      · rw [h₁, h₂]
        exact hp.recorded (h.spawned pc hmem job _ hsp)
    | spawn job id _ hs =>
      subst hs
      exact (h.entries entry he).append
  case locked =>
    rcases Conf.after_get hm with ⟨rfl, rfl⟩ | ⟨hj, hm⟩ | ⟨-, hm⟩
    · exact hnext.loadLock (h.locked j pc hpc) hin
    · exact heff.loadLock hj (h.locked j m hm hin)
    · simp at hm
  case clear =>
    rcases hothers m hm with rfl | ⟨j, hj, hm⟩
    · obtain ⟨hp, hck⟩ := hnext.checked hjob
      show ∀ p ∈ s'.procs, _
      rw [hp]
      rcases hck with hck | ⟨hck, hno⟩
      · exact h.clear pc hmem job hck
      · exact hsees job hck hno
    · cases heff with
      | dies hp _ _ => exact hp.clear (h.clear m (List.mem_of_getElem? hm) job hjob)
      | spawn job' id hp _ =>
        -- the spawning load and the checked one would both hold the load lock
        have h₁ := h.locked i pc hpc (by rw [hp]; rfl)
        have h₂ := h.locked j m hm (Pc.inLoad_of_checked hjob)
        exact absurd (Option.some.inj (h₂.symm.trans h₁)) hj
  case spawned =>
    rcases hothers m hm with rfl | ⟨j, hj, hm⟩
    · rcases hnext.spawned hjob with hsp | hr
      · exact heff.recorded (h.spawned pc hmem job child hsp)
      · exact hr
    · exact heff.recorded (h.spawned m (List.mem_of_getElem? hm) job child hjob)

theorem Inv.step {a : Act Event Env} (h : Inv c) (hc : checkSeesClash c a)
    (hs : program.step c a = some c') : Inv c' := by
  cases a with
  | env x => exact h.env hs
  | thread i e =>
    obtain ⟨pc, o, hpc, ho, rfl⟩ := step_thread_iff.1 hs
    obtain ⟨⟨s', pc'⟩, hstep, rfl⟩ := Option.map_eq_some_iff.1 ho
    refine h.after hpc (pcStep_effect hstep (h.locked i pc hpc)) (pcStep_next hstep) fun job hp hno => ?_
    subst hp
    obtain rfl : e = .go := by cases e <;> first | rfl | cases hstep
    simp only [checkSeesClash, hpc, List.all_eq_true, decide_eq_true_eq, Prod.forall] at hc
    refine clear_of_conflict hno h.entries fun child p hp ha hclash => hc p child ?_ ha hclash
    exact List.mem_zipIdx_iff_getElem?.2 hp

theorem Inv.init (h : Init c) : Inv c := by
  refine ⟨?_, ?_, ?_, ?_, ?_⟩ <;> simp [Distinct, h.procs, h.state, h.threads]

/-- No two live workers share a database or an input, in every run in which the check of each load
meets the live workers on its database among the targets. -/
theorem live_workers_distinct (h : program.Reachable Init (fun c a => checkSeesClash c a) c) :
    Distinct c.shared.procs :=
  (h.induct (fun _ => Inv.init) fun _ _ _ _ hI hc hs => Inv.step hI hc hs : Inv c).distinct

/-- A file system in which every path exists and is canonical. -/
def plainFiles : Files := ⟨none, fun _ => true, some⟩

def freshRouter : Conf Shared Pc := ⟨⟨{}, none, fun _ => none, [], plainFiles, "/w", 7⟩, []⟩

theorem init_freshRouter : Init freshRouter := ⟨rfl, rfl, fun _ => rfl, rfl, rfl⟩

def appInfo : TargetInfo := ⟨"", "/bin/app", "app", "ELF", "x86", 64, 12⟩

/-- A load of `/bin/app` as request `i`, up to its reply. -/
def loadApp (i : Nat) : List (Act Event Env) :=
  [.env (.request (.load (some "/bin/app") none none)), .thread i .go, .thread i .go, .thread i .go,
    .thread i .go, .thread i .go, .thread i .go, .thread i (.loaded appInfo), .thread i .go]

/-- The closed worker is still saving when the next load of its input passes the check. -/
theorem reload_during_close : ∃ c, program.Reachable Init Program.Free c ∧ ¬ Distinct c.shared.procs := by
  obtain ⟨c, hc, p, hp, q, hq, hpa, hqa, hclash⟩ := Program.Reachable.of_run_any (P := program)
    (r := List.flatten [loadApp 0, [.env (.request (.close (some "t1"))), .thread 1 .go], loadApp 2])
    (p := fun c => ∃ p : Process, p ∈ c.shared.procs[0]? ∧ ∃ q : Process, q ∈ c.shared.procs[1]? ∧ p.alive ∧ q.alive ∧
      Clash p.canonPath p.dbIdentity q) init_freshRouter (by decide +kernel)
  exact ⟨c, hc, fun h => absurd (h 0 1 p q hp hq hpa hqa hclash) (by decide)⟩

/-- A close that ends before the next load of the input. -/
theorem live_workers_distinct_reload : ∃ c, program.Reachable Init (fun c a => checkSeesClash c a) c ∧
    c.shared.procs.map Process.alive = [false, true] ∧ Distinct c.shared.procs := by
  obtain ⟨c, hc, hp⟩ := Program.Reachable.of_runIf_any (P := program) (C := fun c a => checkSeesClash c a)
    (r := List.flatten [loadApp 0, [.env (.request (.close (some "t1"))), .thread 1 .go, .thread 1 .killed],
      loadApp 2])
    (p := fun c => c.shared.procs.map Process.alive = [false, true]) init_freshRouter (by decide +kernel)
  exact ⟨c, hc, hp, live_workers_distinct hc⟩

end IdaRs.Router
