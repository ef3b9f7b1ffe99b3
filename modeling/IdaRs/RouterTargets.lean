import Mathlib.Data.List.Nodup
import IdaRs.RouterInv

/-!
# The targets of the router

What the router's own state keeps over every run: the keys of `targets` are allocated ids, the entries
have distinct inputs and databases (`Targets`), and `active` names one of them (`Active`). A load passes
its check, allocates its id and inserts its entry under `load_lock`, in three critical sections of the
state lock; `LoadTask` is what holds of it in between.

Ids are never allocated twice, so a closed id never becomes a key again. A selector that is no key is
tried as a part of the file names and paths: `resolve_of_not_key`.
-/

namespace IdaRs.Router

open Threads

variable {s s' : Shared} {i j : Nat} {pc pc' : Pc} {e : Event} {c c' : Conf Shared Pc}

def RouterState.keys (st : RouterState) : List String := st.targets.map Prod.fst

/-- An id that was allocated while the counter stood below `nextId`. -/
def IsId (nextId : Nat) (id : String) : Prop := ∃ n, 1 ≤ n ∧ n < nextId ∧ id = "t" ++ n.repr

theorem IsId.mono {m n : Nat} {id : String} (h : IsId m id) (hmn : m ≤ n) : IsId n id := by
  obtain ⟨k, h₁, h₂, h₃⟩ := h
  exact ⟨k, h₁, by omega, h₃⟩

theorem targetId_inj {m n : Nat} (h : "t" ++ m.repr = "t" ++ n.repr) : m = n := by
  have h := congrArg String.toList h
  simp only [String.toList_append, Nat.toList_repr, List.append_cancel_left_eq] at h
  rw [← Nat.ofDigitChars_toDigits (b := 10) (n := m) (by omega) (by omega), h,
    Nat.ofDigitChars_toDigits (by omega) (by omega)]

theorem not_isId_allocId (st : RouterState) : ¬ IsId st.nextId st.allocId.1 := by
  rintro ⟨k, -, hk, h⟩
  have := targetId_inj h
  omega

/-- Two entries differ in their inputs and in their databases. -/
def Apart (a b : String × WorkerEntry) : Prop :=
  ¬ Path.same a.2.canonPath b.2.canonPath ∧ ¬ Path.same a.2.dbIdentity b.2.dbIdentity

structure Targets (st : RouterState) : Prop where
  pos : 1 ≤ st.nextId
  nodup : st.keys.Nodup
  isId : ∀ x ∈ st.targets, IsId st.nextId x.1
  named : ∀ x ∈ st.targets, x.2.info.id = x.1
  apart : st.targets.Pairwise Apart

structure Active (st : RouterState) : Prop where
  none_iff : st.active = none ↔ st.targets = []
  key : ∀ id, st.active = some id → id ∈ st.keys

/-! ### Selectors -/

/-- The entries whose file name or path contains the selector. -/
def matching (sel : String) (targets : List (String × WorkerEntry)) : List (String × WorkerEntry) :=
  targets.filter fun x => containsText x.2.info.filename.toList sel || containsText x.2.info.path.toList sel

/-- A selector that names no key and is not the active target's stands for a part of a file name or path. -/
theorem resolve_of_not_key {st : RouterState} {sel : String} (hkey : sel ∉ st.keys) (ha : sel ≠ "active")
    (hn : sel ≠ "") :
    (∀ x, matching sel st.targets = [x] → st.resolve (some sel) = .ok x.1) ∧
    ((∀ x, matching sel st.targets ≠ [x]) → ∃ msg, st.resolve (some sel) = .error msg) := by
  by_cases hne : st.targets = []
  · refine ⟨fun x hx => ?_, fun _ => ⟨"No targets loaded. Use 'target load -f <path>' first.", ?_⟩⟩
    · rw [hne] at hx; cases hx
    · rw [RouterState.resolve, hne]; unfold resolveSelector; rfl
  have hany : (st.targets.map fun x => (x.1, x.2.info.filename, x.2.info.path)).any (·.1 = sel) = false := by
    simp only [List.any_map, List.any_eq_false, Function.comp_apply, decide_eq_true_eq]
    exact fun x hx h => hkey (h ▸ List.mem_map_of_mem hx)
  have hfilter : (st.targets.map fun x => (x.1, x.2.info.filename, x.2.info.path)).filter
      (fun x => containsText x.2.1.toList sel || containsText x.2.2.toList sel) =
      (matching sel st.targets).map fun x => (x.1, x.2.info.filename, x.2.info.path) := by
    rw [List.filter_map]; rfl
  rw [RouterState.resolve, resolveSelector_name (by simpa using hne) ha hn, hany, hfilter,
    if_neg Bool.false_ne_true]
  refine ⟨fun x hx => by rw [hx]; rfl, fun hx => ?_⟩
  match h : matching sel st.targets with
  | [] => exact ⟨_, rfl⟩
  | [x] => exact absurd h (hx x)
  | x :: y :: rest => exact ⟨_, rfl⟩

/-! ### One step -/

/-- The load that passed its check and has not inserted. -/
def Pc.passed : Pc → Option Load
  | .loadAlloc job | .loadSpawn job _ | .loadBoot job _ _ | .loadHandshake job _ _ | .loadInsert job _ _ _ => some job
  | _ => none

/-- The id a load holds and has not inserted. -/
def Pc.allocated : Pc → Option String
  | .loadSpawn _ id | .loadBoot _ id _ | .loadHandshake _ id _ | .loadInsert _ id _ _ => some id
  | _ => none

/-- What a step does to the router's state. -/
inductive Change (st : RouterState) (pc : Pc) (st' : RouterState) : Prop
  | same (h : st' = st)
  | alloc (job : Load) (hpc : pc = .loadAlloc job) (h : st' = st.allocId.2)
  | insert (job : Load) (id : String) (child : Nat) (info : TargetInfo) (sock : String)
      (hpc : pc = .loadInsert job id child info)
      (h : st' = st.insert id ⟨info, sock, job.canonPath, job.dbIdentity, child⟩)
  | switch (sel id : String) (hpc : pc = .start (.switch (some sel))) (hres : st.resolve (some sel) = .ok id)
      (h : st' = { st with active := some id })
  | close (sel id : String) (hpc : pc = .start (.close (some sel))) (hres : st.resolve (some sel) = .ok id)
      (h : st' = st.remove id)
  | shutdown (hpc : pc = .start .shutdown) (h : st' = { st with targets := [] })

theorem paramStr_bind {v : Option String} {key id : String} {f : String → Except String String}
    (h : (paramStr v key >>= f) = .ok id) : ∃ sel, v = some sel ∧ f sel = .ok id := by
  cases v with
  | none => cases h
  | some sel => exact ⟨sel, rfl, h⟩

theorem startRequest_change (req : Request) :
    Change s.state (.start req) (startRequest s req).1.state ∧ (startRequest s req).2.allocated = none := by
  cases req <;> unfold startRequest <;> dsimp only
  case ping | list => exact ⟨.same rfl, rfl⟩
  case shutdown => exact ⟨.shutdown rfl rfl, rfl⟩
  case load => split <;> exact ⟨.same rfl, rfl⟩
  case switch v =>
    split
    · rename_i id h
      obtain ⟨sel, rfl, hres⟩ := paramStr_bind h
      exact ⟨.switch sel id rfl hres rfl, rfl⟩
    · exact ⟨.same rfl, rfl⟩
  case close v =>
    split
    · rename_i id h
      obtain ⟨sel, rfl, hres⟩ := paramStr_bind h
      split
      · exact ⟨.close sel id rfl hres rfl, rfl⟩
      · exact ⟨.same rfl, rfl⟩
    · exact ⟨.same rfl, rfl⟩
  case forward =>
    split
    · split <;> exact ⟨.same rfl, rfl⟩
    · exact ⟨.same rfl, rfl⟩

/-- A load's own progress: where its check, its id and its info come from. -/
structure Progress (st : RouterState) (pc pc' : Pc) : Prop where
  passed : ∀ job, pc'.passed = some job →
    pc.passed = some job ∨ (pc = .loadCheck job ∧ st.conflict job = none)
  allocated : ∀ id, pc'.allocated = some id →
    pc.allocated = some id ∨ (∃ job, pc = .loadAlloc job) ∧ id = st.allocId.1
  named : ∀ job id child info, pc' = .loadInsert job id child info → info.id = id

theorem Progress.out {st : RouterState} (hp : pc'.passed = none) : Progress st pc pc' := by
  refine ⟨fun job h => ?_, fun id h => ?_, fun job id child info h => ?_⟩
  · rw [hp] at h; cases h
  · cases pc' <;> simp_all [Pc.passed, Pc.allocated]
  · subst h; cases hp

theorem Progress.keeps {st : RouterState} (hp : pc'.passed = pc.passed) (ha : pc'.allocated = pc.allocated)
    (hn : ∀ job id child info, pc' ≠ .loadInsert job id child info) : Progress st pc pc' :=
  ⟨fun _ h => .inl (hp ▸ h), fun _ h => .inl (ha ▸ h), fun _ _ _ _ h => absurd h (hn _ _ _ _)⟩

theorem pcStep_change (hs : pcStep s i pc e = some (s', pc')) :
    Change s.state pc s'.state ∧ Progress s.state pc pc' := by
  cases pc <;> cases e <;> simp only [pcStep, reduceCtorEq] at hs
  case start.go req =>
    obtain ⟨hc, -⟩ := startRequest_change (s := s) req
    have hp : (startRequest s req).2.passed = none := by
      have := startRequest_next (s := s) req
      cases h : (startRequest s req).2 <;> rw [h] at this <;> first | rfl | cases this
    rw [Option.some.inj hs] at hc hp
    exact ⟨hc, .out hp⟩
  case loadWait.go | forwardWait.go =>
    split at hs
    · obtain ⟨rfl, rfl⟩ := Prod.mk.inj (Option.some.inj hs)
      exact ⟨.same rfl, .out rfl⟩
    · cases hs
  case loadCheck.go job =>
    split at hs <;> obtain ⟨rfl, rfl⟩ := Prod.mk.inj (Option.some.inj hs)
    · exact ⟨.same rfl, .out rfl⟩
    · refine ⟨.same rfl, fun job' h => .inr ⟨?_, ?_⟩, fun id h => (by cases h), fun _ _ _ _ h => by cases h⟩
      all_goals obtain rfl := Option.some.inj h
      · rfl
      · assumption
  case loadBoot.exited =>
    split at hs
    · cases hs
    · obtain ⟨rfl, rfl⟩ := Prod.mk.inj (Option.some.inj hs)
      exact ⟨.same rfl, .out rfl⟩
  case stopping.go todo _ | stopping.fail todo _ _ | stopping.killed todo _ =>
    cases todo <;> simp only [reduceCtorEq] at hs
    obtain ⟨rfl, rfl⟩ := Prod.mk.inj (Option.some.inj hs)
    exact ⟨.same rfl, .out rfl⟩
  case stopping.exited todo _ _ =>
    cases todo <;> simp only [reduceCtorEq] at hs
    split at hs
    · cases hs
    · obtain ⟨rfl, rfl⟩ := Prod.mk.inj (Option.some.inj hs)
      exact ⟨.same rfl, .out rfl⟩
  all_goals obtain ⟨rfl, rfl⟩ := Prod.mk.inj (Option.some.inj hs)
  case loadAlloc.go job =>
    refine ⟨.alloc job rfl rfl, fun _ h => .inl h, fun id h => .inr ⟨⟨job, rfl⟩, ?_⟩,
      fun _ _ _ _ h => by cases h⟩
    exact (Option.some.inj h).symm
  case loadSpawn.go | loadBoot.go => exact ⟨.same rfl, .keeps rfl rfl fun _ _ _ _ h => by cases h⟩
  case loadHandshake.loaded job id child info =>
    refine ⟨.same rfl, fun _ h => .inl h, fun _ h => .inl h, fun _ _ _ _ h => ?_⟩
    cases h
    rfl
  case loadInsert.go job id child info => exact ⟨.insert job id child info _ rfl rfl, .out rfl⟩
  all_goals exact ⟨.same rfl, .out rfl⟩

variable {st st' : RouterState}

theorem Change.nextId_le (h : Change st pc st') : st.nextId ≤ st'.nextId := by
  cases h with
  | alloc job _ h => rw [h]; exact Nat.le_succ _
  | same h => rw [h]
  | insert _ _ _ _ _ _ h => rw [h]; exact le_rfl
  | switch _ _ _ _ h => rw [h]
  | close _ _ _ _ h => rw [h]; exact le_rfl
  | shutdown _ h => rw [h]

/-- An entry after the step was there before, or is the one a load inserts. -/
theorem Change.entry (h : Change st pc st') {x : String × WorkerEntry} (hx : x ∈ st'.targets) :
    x ∈ st.targets ∨ ∃ job child info sock, pc = .loadInsert job x.1 child info ∧
      x.2 = ⟨info, sock, job.canonPath, job.dbIdentity, child⟩ := by
  cases h with
  | insert job id child info sock hpc h =>
    rw [h] at hx
    rcases List.mem_append.1 hx with hx | hx
    · exact .inl (List.mem_filter.1 hx).1
    · obtain rfl := List.mem_singleton.1 hx
      exact .inr ⟨job, child, info, sock, hpc, rfl⟩
  | same h => rw [h] at hx; exact .inl hx
  | alloc _ _ h => rw [h] at hx; exact .inl hx
  | switch _ _ _ _ h => rw [h] at hx; exact .inl hx
  | close _ _ _ _ h => rw [h] at hx; exact .inl (List.mem_filter.1 hx).1
  | shutdown _ h => rw [h] at hx; cases hx

/-! ### Loads between their check and their insertion -/

structure LoadTask (s : Shared) (i : Nat) (pc : Pc) : Prop where
  locked : pc.inLoad → s.loadLock = some i
  /-- No entry clashes with a load that passed its check. -/
  clear : ∀ job, pc.passed = some job → ∀ x ∈ s.state.targets,
    ¬ Path.same x.2.canonPath job.canonPath ∧ ¬ Path.same x.2.dbIdentity job.dbIdentity
  fresh : ∀ id, pc.allocated = some id → id ∉ s.state.keys ∧ IsId s.state.nextId id
  named : ∀ job id child info, pc = .loadInsert job id child info → info.id = id

theorem Pc.inLoad_of_passed {job : Load} (h : pc.passed = some job) : pc.inLoad := by
  cases pc <;> first | rfl | cases h

theorem Pc.passed_of_allocated {id : String} (h : pc.allocated = some id) : ∃ job, pc.passed = some job := by
  cases pc <;> first | exact ⟨_, rfl⟩ | cases h

theorem LoadTask.idle (h : pc.inLoad = false) : LoadTask s i pc := by
  have hp : pc.passed = none := by cases pc <;> first | rfl | cases h
  refine ⟨fun hin => ?_, fun job hj => ?_, fun id hid => ?_, fun job id child info hpc => ?_⟩
  · rw [h] at hin; cases hin
  · rw [hp] at hj; cases hj
  · obtain ⟨job, hj⟩ := Pc.passed_of_allocated hid
    rw [hp] at hj; cases hj
  · subst hpc; cases h

theorem Targets.change (h : Targets s.state) (ht : LoadTask s i pc) (hc : Change s.state pc st') : Targets st' := by
  have hsub : ∀ {targets : List (String × WorkerEntry)}, targets.Sublist s.state.targets →
      ∀ active, Targets ⟨targets, active, s.state.nextId⟩ := fun hsub active =>
    ⟨h.pos, h.nodup.sublist (hsub.map _), fun x hx => h.isId x (hsub.subset hx),
      fun x hx => h.named x (hsub.subset hx), h.apart.sublist hsub⟩
  cases hc with
  | same hs => exact hs ▸ h
  | alloc _ _ hs =>
    rw [hs]
    exact ⟨Nat.le_succ_of_le h.pos, h.nodup, fun x hx => (h.isId x hx).mono (Nat.le_succ _), h.named, h.apart⟩
  | switch _ _ _ _ hs => rw [hs]; exact hsub (.refl _) _
  | close _ _ _ _ hs => rw [hs]; exact hsub List.filter_sublist _
  | shutdown _ hs => rw [hs]; exact hsub (List.nil_sublist _) _
  | insert job id child info sock hpc hs =>
    obtain ⟨hfresh, hid⟩ := ht.fresh id (by rw [hpc]; rfl)
    have hall : s.state.targets.filter (·.1 ≠ id) = s.state.targets :=
      List.filter_eq_self.2 fun x hx => decide_eq_true fun heq => hfresh (heq ▸ List.mem_map_of_mem hx)
    have htargets : st'.targets =
        s.state.targets ++ [(id, ⟨info, sock, job.canonPath, job.dbIdentity, child⟩)] := by
      rw [hs, RouterState.insert, hall]
    have hnext : st'.nextId = s.state.nextId := by rw [hs]; rfl
    refine ⟨hnext ▸ h.pos, ?nodup, fun x hx => ?isId, fun x hx => ?named, ?apart⟩
    case nodup =>
      rw [RouterState.keys, htargets, List.map_append]
      exact List.nodup_append.2 ⟨h.nodup, by simp, fun a ha b hb hab =>
        hfresh ((hab.trans (List.mem_singleton.1 hb) : a = id) ▸ ha)⟩
    case isId =>
      rw [htargets] at hx
      rw [hnext]
      rcases List.mem_append.1 hx with hx | hx
      · exact h.isId x hx
      · obtain rfl := List.mem_singleton.1 hx
        exact hid
    case named =>
      rw [htargets] at hx
      rcases List.mem_append.1 hx with hx | hx
      · exact h.named x hx
      · obtain rfl := List.mem_singleton.1 hx
        exact ht.named job id child info hpc
    case apart =>
      rw [htargets, List.pairwise_append]
      refine ⟨h.apart, List.pairwise_singleton _ _, fun a ha b hb => ?_⟩
      obtain rfl := List.mem_singleton.1 hb
      exact ht.clear job (by rw [hpc]; rfl) a ha

theorem pcStep_start {req : Request} (hs : pcStep s i (.start req) e = some (s', pc')) : pc'.inLoad = false := by
  cases e <;> simp only [pcStep, reduceCtorEq] at hs
  rw [← startRequest_next (s := s) req, Option.some.inj hs]

/-- The load that inserts is over after the step, so a load in progress finds the entries unchanged. -/
theorem pcStep_targets {job : Load} (hs : pcStep s i pc e = some (s', pc')) (hj : pc'.passed = some job) :
    s'.state.targets = s.state.targets := by
  have hin := Pc.inLoad_of_passed hj
  cases (pcStep_change hs).1 with
  | same h => rw [h]
  | alloc _ _ h => rw [h]; rfl
  | insert _ _ _ _ _ hpc _ =>
    subst hpc
    cases e <;> simp only [pcStep, reduceCtorEq] at hs
    obtain ⟨-, rfl⟩ := Prod.mk.inj (Option.some.inj hs)
    cases hj
  | switch _ _ hpc _ _ | close _ _ hpc _ _ | shutdown hpc _ =>
    subst hpc
    rw [pcStep_start hs] at hin; cases hin

/-- The step of request `i`, for `i` itself. -/
theorem LoadTask.self (h : LoadTask s i pc) (hJ : Targets s.state) (hs : pcStep s i pc e = some (s', pc')) :
    LoadTask s' i pc' := by
  obtain ⟨hc, hprog⟩ := pcStep_change hs
  refine ⟨(pcStep_next hs).loadLock h.locked, fun job hj => ?_, fun id hid => ?_, hprog.named⟩
  · rw [pcStep_targets hs hj]
    rcases hprog.passed job hj with hp | ⟨-, hno⟩
    · exact h.clear job hp
    · exact RouterState.conflict_eq_none.1 hno
  · obtain ⟨job, hj⟩ := Pc.passed_of_allocated hid
    rw [RouterState.keys, pcStep_targets hs hj]
    rcases hprog.allocated id hid with hp | ⟨⟨job, rfl⟩, rfl⟩
    · exact ⟨(h.fresh id hp).1, (h.fresh id hp).2.mono hc.nextId_le⟩
    · refine ⟨fun hmem => ?_, s.state.nextId, hJ.pos, ?_, rfl⟩
      · obtain ⟨x, hx, heq⟩ := List.mem_map.1 hmem
        exact not_isId_allocId s.state (heq ▸ hJ.isId x hx)
      · cases e <;> simp only [pcStep, reduceCtorEq] at hs
        obtain ⟨rfl, -⟩ := Prod.mk.inj (Option.some.inj hs)
        exact Nat.lt_succ_self _

/-- The step of request `i`, for another one: only the load that holds the lock inserts. -/
theorem LoadTask.other {m : Pc} (h : LoadTask s j m) (hi : LoadTask s i pc) (hne : j ≠ i)
    (hs : pcStep s i pc e = some (s', pc')) : LoadTask s' j m := by
  obtain ⟨hc, -⟩ := pcStep_change hs
  have hlock : m.inLoad → ¬ pc.inLoad := fun hm hpc =>
    hne (Option.some.inj ((h.locked hm).symm.trans (hi.locked hpc)))
  have hold : m.inLoad → ∀ x ∈ s'.state.targets, x ∈ s.state.targets := by
    intro hm x hx
    rcases hc.entry hx with hx | ⟨job, child, info, sock, rfl, -⟩
    · exact hx
    · exact absurd rfl (hlock hm)
  refine ⟨fun hm => (pcStep_effect hs hi.locked).loadLock hne (h.locked hm), fun job hj x hx => ?_,
    fun id hid => ⟨fun hmem => ?_, (h.fresh id hid).2.mono hc.nextId_le⟩, h.named⟩
  · exact h.clear job hj x (hold (Pc.inLoad_of_passed hj) x hx)
  · obtain ⟨job, hj⟩ := Pc.passed_of_allocated hid
    obtain ⟨x, hx, heq⟩ := List.mem_map.1 hmem
    exact (h.fresh id hid).1 (List.mem_map.2 ⟨x, hold (Pc.inLoad_of_passed hj) x hx, heq⟩)

/-! ### Whole runs -/

/-- The state's own part and the loads', together. -/
def TargetsInv : Conf Shared Pc → Prop := Modular (fun s => Targets s.state) LoadTask fun _ _ => True

theorem Apart.symm {a b : String × WorkerEntry} (h : Apart a b) : Apart b a := by
  simpa only [Apart, Path.same_comm] using h

theorem Targets.perm {targets : List (String × WorkerEntry)} (h : Targets st) (hp : targets.Perm st.targets) :
    Targets { st with targets } :=
  ⟨h.pos, (hp.map _).nodup_iff.2 h.nodup, fun x hx => h.isId x (hp.mem_iff.1 hx),
    fun x hx => h.named x (hp.mem_iff.1 hx), hp.symm.pairwise h.apart Apart.symm⟩

/-- What the environment does to the router's state: it reorders the map, if anything. -/
theorem env_state {x : Env} {r : Shared × List Pc} (h : program.env c x = some r) :
    r.1.loadLock = c.shared.loadLock ∧ (∀ m ∈ r.2, m.inLoad = false) ∧
      ∃ targets, targets.Perm c.shared.state.targets ∧ r.1.state = { c.shared.state with targets } := by
  cases x <;> simp only [program, Router.env] at h
  case request | setFiles | exit => cases h; exact ⟨rfl, by simp [Pc.inLoad], _, .refl _, rfl⟩
  case reorder ts =>
    split at h
    · rename_i hperm
      cases h
      exact ⟨rfl, by simp, ts, List.isPerm_iff.1 hperm, rfl⟩
    · cases h

theorem TargetsInv.step {a : Act Event Env} (h : TargetsInv c) (hs : program.step c a = some c') :
    TargetsInv c' := by
  cases a with
  | thread i e =>
    obtain ⟨pc, o, hpc, ho, rfl⟩ := step_thread_iff.1 hs
    obtain ⟨⟨s', pc'⟩, hstep, rfl⟩ := Option.map_eq_some_iff.1 ho
    have hi := h.threads i pc hpc
    exact h.thread (fun _ _ _ => trivial) hpc (h.shared.change hi (pcStep_change hstep).1) (hi.self h.shared hstep)
      (fun j m hj hm => (h.threads j m hm).other hi hj hstep) (by simp) (by simp) (by simp) .nil
  | env x =>
    obtain ⟨r, hr, rfl⟩ := step_env_iff.1 hs
    obtain ⟨hl, hnew, targets, hperm, hst⟩ := env_state hr
    refine Modular.env h (fun _ _ _ => trivial) (hst ▸ h.shared.perm hperm) (fun j m hm => ?_)
      (fun j m hm _ => .idle (hnew m hm)) (by simp) (List.pairwise_of_forall fun _ _ => trivial)
    have ht := h.threads j m hm
    refine ⟨hl ▸ ht.locked, fun job hj x hx => ?_, fun id hid => ?_, ht.named⟩
    · rw [hst] at hx
      exact ht.clear job hj x (hperm.mem_iff.1 hx)
    · rw [hst]
      exact ⟨fun hmem => (ht.fresh id hid).1 ((hperm.map _).mem_iff.1 hmem), (ht.fresh id hid).2⟩

theorem TargetsInv.init (h : Init c) : TargetsInv c := by
  refine ⟨?_, fun i l hl => ?_, fun i j l m _ hl => ?_⟩
  · rw [h.state]
    exact ⟨le_rfl, .nil, by simp, by simp, .nil⟩
  all_goals rw [h.threads] at hl; simp at hl

theorem TargetsInv.reachable {C : Conf Shared Pc → Act Event Env → Prop} (h : program.Reachable Init C c) :
    TargetsInv c :=
  h.induct (fun _ => .init) fun _ _ _ _ hI _ hs => hI.step hs

/-! ### The active target -/

theorem lowestTargetId_eq_none {ids : List String} : lowestTargetId ids = none ↔ ids = [] := by
  cases ids with
  | nil => simp [lowestTargetId]
  | cons id ids =>
    simp only [lowestTargetId, reduceCtorEq, iff_false]
    split <;> simp

theorem lowestTargetId_mem {ids : List String} {id : String} (h : lowestTargetId ids = some id) : id ∈ ids := by
  induction ids generalizing id with
  | nil => cases h
  | cons k ids ih =>
    rw [lowestTargetId] at h
    split at h
    · obtain rfl := Option.some.inj h
      exact List.mem_cons_self
    · rename_i low hlow
      obtain rfl := Option.some.inj h
      split
      · exact List.mem_cons_of_mem _ (ih hlow)
      · exact List.mem_cons_self

theorem resolve_mem_keys {sel : Option String} {id : String} (h : Active st) (hr : st.resolve sel = .ok id) :
    id ∈ st.keys := by
  rcases resolveSelector_ok hr with ha | ⟨x, hx, rfl⟩
  · exact h.key id ha
  · obtain ⟨y, hy, rfl⟩ := List.mem_map.1 hx
    exact List.mem_map_of_mem hy

theorem mem_keys_filter {targets : List (String × WorkerEntry)} {id k : String} (hk : k ∈ targets.map Prod.fst)
    (hne : k ≠ id) : k ∈ (targets.filter (·.1 ≠ id)).map Prod.fst := by
  obtain ⟨x, hx, rfl⟩ := List.mem_map.1 hk
  exact List.mem_map_of_mem (List.mem_filter.2 ⟨hx, decide_eq_true hne⟩)

/-- Every step keeps `Active`, apart from a shutdown's, which clears `targets` only. -/
theorem Active.change (h : Active st) (hpc : pc ≠ .start .shutdown) (hc : Change st pc st') : Active st' := by
  cases hc with
  | same hs => exact hs ▸ h
  | alloc _ _ hs => rw [hs]; exact ⟨h.none_iff, h.key⟩
  | shutdown hsd _ => exact absurd hsd hpc
  | insert job id child info sock _ hs =>
    rw [hs]
    refine ⟨by simp [RouterState.insert], fun k hk => ?_⟩
    simp only [RouterState.insert, RouterState.keys, List.map_append, List.mem_append, List.map_cons, List.map_nil,
      List.mem_singleton]
    by_cases hkid : k = id
    · exact .inr hkid
    · refine .inl (mem_keys_filter (h.key k ?_) hkid)
      cases ha : st.active with
      | none => rw [RouterState.insert, ha] at hk; exact absurd (Option.some.inj hk).symm hkid
      | some a => rw [RouterState.insert, ha] at hk; exact hk
  | switch sel id _ hres hs =>
    rw [hs]
    have hid := resolve_mem_keys h hres
    refine ⟨iff_of_false (by simp) fun hnil => ?_, fun k hk => Option.some.inj hk ▸ hid⟩
    rw [RouterState.keys, show st.targets = [] from hnil] at hid
    cases hid
  | close sel id _ hres hs =>
    rw [hs]
    by_cases ha : st.active = some id
    · simp only [RouterState.remove, if_pos ha]
      refine ⟨by rw [lowestTargetId_eq_none, List.map_eq_nil_iff], fun k hk => lowestTargetId_mem hk⟩
    · simp only [RouterState.remove, if_neg ha]
      have hkey : ∀ k, st.active = some k → k ∈ (st.targets.filter (·.1 ≠ id)).map Prod.fst := fun k hk =>
        mem_keys_filter (h.key k hk) fun heq => ha (heq ▸ hk)
      refine ⟨⟨fun hn => by rw [h.none_iff.1 hn]; rfl, fun hnil => ?_⟩, hkey⟩
      cases hk : st.active with
      | none => rfl
      | some k =>
        have := hkey k hk
        rw [show st.targets.filter (·.1 ≠ id) = [] from hnil] at this
        cases this

/-- The requests of the run are not `shutdown`. -/
def noShutdown : Act Event Env → Bool
  | .env (.request .shutdown) => false
  | _ => true

def ActiveInv (c : Conf Shared Pc) : Prop := Active c.shared.state ∧ ∀ pc ∈ c.threads, pc ≠ .start .shutdown

theorem pcStep_ne_start {req : Request} (hs : pcStep s i pc e = some (s', pc')) : pc' ≠ .start req := by
  rintro rfl
  cases pc <;> cases e <;> simp only [pcStep, reduceCtorEq] at hs
  case start.go r =>
    cases r <;> unfold startRequest at hs <;> dsimp only at hs
    all_goals repeat' split at hs
    all_goals simp at hs
  case stopping.go todo _ | stopping.fail todo _ _ | stopping.killed todo _ | stopping.exited todo _ _ =>
    cases todo <;> simp at hs
  all_goals first | (split at hs <;> simp at hs) | simp at hs

theorem ActiveInv.step {a : Act Event Env} (h : ActiveInv c) (hC : noShutdown a) (hs : program.step c a = some c') :
    ActiveInv c' := by
  cases a with
  | thread i e =>
    obtain ⟨pc, o, hpc, ho, rfl⟩ := step_thread_iff.1 hs
    obtain ⟨⟨s', pc'⟩, hstep, rfl⟩ := Option.map_eq_some_iff.1 ho
    refine ⟨h.1.change (h.2 pc (List.mem_of_getElem? hpc)) (pcStep_change hstep).1, fun m hm => ?_⟩
    rcases Conf.mem_after hm with rfl | hm | hm
    · exact pcStep_ne_start hstep
    · exact h.2 m hm
    · cases hm
  | env x =>
    obtain ⟨r, hr, rfl⟩ := step_env_iff.1 hs
    obtain ⟨-, -, targets, hperm, hst⟩ := env_state hr
    refine ⟨?_, fun m hm => ?_⟩
    · rw [hst]
      refine ⟨h.1.none_iff.trans ⟨fun h0 => ?_, fun h0 => ?_⟩, fun id hid => ?_⟩
      · exact List.perm_nil.1 (h0 ▸ hperm)
      · exact List.perm_nil.1 ((show targets = [] from h0) ▸ hperm.symm)
      · exact (hperm.map _).mem_iff.2 (h.1.key id hid)
    · rcases List.mem_append.1 hm with hm | hm
      · exact h.2 m hm
      · cases x <;> simp only [program, Router.env] at hr
        case request req =>
          cases hr
          rw [List.mem_singleton.1 hm]
          rintro heq
          obtain rfl := Pc.start.inj heq
          cases hC
        case reorder =>
          split at hr <;> cases hr
          cases hm
        all_goals cases hr; cases hm

theorem ActiveInv.reachable (h : program.Reachable Init (fun _ a => noShutdown a) c) : ActiveInv c :=
  h.induct (fun c h0 => by
    refine ⟨?_, by rw [h0.threads]; simp⟩
    rw [h0.state]
    exact ⟨by simp, by simp⟩) fun _ _ _ _ hI hC hs => hI.step hC hs

/-! ### Ids -/

/-- An id that was allocated and that no load still holds. -/
def Spent (id : String) (c : Conf Shared Pc) : Prop :=
  IsId c.shared.state.nextId id ∧ ∀ pc ∈ c.threads, pc.allocated ≠ some id

theorem TargetsInv.spent {id : String} (h : TargetsInv c) (hid : id ∈ c.shared.state.keys) : Spent id c := by
  obtain ⟨x, hx, rfl⟩ := List.mem_map.1 hid
  refine ⟨h.shared.isId x hx, fun pc hpc ha => ?_⟩
  obtain ⟨i, hi⟩ := List.mem_iff_getElem?.1 hpc
  exact ((h.threads i pc hi).fresh x.1 ha).1 hid

/-- A spent id stays so, and nothing is inserted under it. -/
theorem Spent.step {id : String} {a : Act Event Env} (h : Spent id c) (hs : program.step c a = some c') :
    Spent id c' ∧ ∀ x ∈ c'.shared.state.targets, x.1 = id → x ∈ c.shared.state.targets := by
  cases a with
  | thread i e =>
    obtain ⟨pc, o, hpc, ho, rfl⟩ := step_thread_iff.1 hs
    obtain ⟨⟨s', pc'⟩, hstep, rfl⟩ := Option.map_eq_some_iff.1 ho
    obtain ⟨hc, hprog⟩ := pcStep_change hstep
    have hpc := List.mem_of_getElem? hpc
    refine ⟨⟨h.1.mono hc.nextId_le, fun m hm hid => ?_⟩, fun x hx hid => ?_⟩
    · rcases Conf.mem_after hm with rfl | hm | hm
      · rcases hprog.allocated id hid with hid | ⟨-, rfl⟩
        · exact h.2 pc hpc hid
        · exact not_isId_allocId _ h.1
      · exact h.2 m hm hid
      · cases hm
    · rcases hc.entry hx with hx | ⟨job, child, info, sock, rfl, -⟩
      · exact hx
      · exact absurd (hid ▸ rfl) (h.2 _ hpc)
  | env x =>
    obtain ⟨r, hr, rfl⟩ := step_env_iff.1 hs
    obtain ⟨-, hnew, targets, hperm, hst⟩ := env_state hr
    refine ⟨⟨hst ▸ h.1, fun m hm hid => ?_⟩, fun x hx _ => ?_⟩
    · rcases List.mem_append.1 hm with hm | hm
      · exact h.2 m hm hid
      · obtain ⟨job, hj⟩ := Pc.passed_of_allocated hid
        exact absurd (Pc.inLoad_of_passed hj) (by simp [hnew m hm])
    · rw [hst] at hx
      exact hperm.mem_iff.1 hx

theorem Spent.run {id : String} {C : Conf Shared Pc → Act Event Env → Prop} (h : Spent id c)
    (hr : program.Reachable (· = c) C c') :
    Spent id c' ∧ ∀ x ∈ c'.shared.state.targets, x.1 = id → x ∈ c.shared.state.targets := by
  induction hr with
  | init h0 => subst h0; exact ⟨h, fun x hx _ => hx⟩
  | step _ _ hs ih =>
    obtain ⟨h₁, h₂⟩ := ih.1.step hs
    exact ⟨h₁, fun x hx hid => ih.2 x (h₂ x hx hid) hid⟩

/-- The step is a load's `alloc_id`, which returns `id`. -/
def Allocates (c : Conf Shared Pc) (a : Act Event Env) (id : String) : Prop :=
  ∃ i job, a = .thread i .go ∧ c.threads[i]? = some (.loadAlloc job) ∧ id = c.shared.state.allocId.1

theorem Allocates.isId {a : Act Event Env} {id : String} (ha : Allocates c a id)
    (hpos : 1 ≤ c.shared.state.nextId) (hs : program.step c a = some c') : IsId c'.shared.state.nextId id := by
  obtain ⟨i, job, rfl, hi, rfl⟩ := ha
  obtain ⟨pc, o, hpc, ho, rfl⟩ := step_thread_iff.1 hs
  obtain rfl : Pc.loadAlloc job = pc := Option.some.inj (hi.symm.trans hpc)
  obtain rfl := Option.some.inj ho
  exact ⟨c.shared.state.nextId, hpos, Nat.lt_succ_self _, rfl⟩

theorem nextId_le_step {a : Act Event Env} (hs : program.step c a = some c') :
    c.shared.state.nextId ≤ c'.shared.state.nextId := by
  cases a with
  | thread i e =>
    obtain ⟨pc, o, hpc, ho, rfl⟩ := step_thread_iff.1 hs
    obtain ⟨⟨s', pc'⟩, hstep, rfl⟩ := Option.map_eq_some_iff.1 ho
    exact (pcStep_change hstep).1.nextId_le
  | env x =>
    obtain ⟨r, hr, rfl⟩ := step_env_iff.1 hs
    obtain ⟨-, -, targets, -, hst⟩ := env_state hr
    simp [hst]

theorem nextId_le_run {C : Conf Shared Pc → Act Event Env → Prop} (hr : program.Reachable (· = c) C c') :
    c.shared.state.nextId ≤ c'.shared.state.nextId := by
  induction hr with
  | init h0 => rw [h0]
  | step _ _ hs ih => exact ih.trans (nextId_le_step hs)

/-- The router's state in every run of loads, switches, closes, lists and forwarded requests: `targets`
and `active` are well formed, no id is allocated twice, and no id names two targets. -/
theorem router_state_invariant (h : program.Reachable Init (fun _ a => noShutdown a) c) :
    Targets c.shared.state ∧ Active c.shared.state ∧
    (∀ a c₁ c₂ a' id, Allocates c a id → program.step c a = some c₁ →
      program.Reachable (· = c₁) (fun _ a => noShutdown a) c₂ → ¬ Allocates c₂ a' id) ∧
    (∀ c' id entry entry', program.Reachable (· = c) (fun _ a => noShutdown a) c' →
      (id, entry) ∈ c.shared.state.targets → (id, entry') ∈ c'.shared.state.targets → entry' = entry) := by
  have hI := TargetsInv.reachable h
  refine ⟨hI.shared, (ActiveInv.reachable h).1, fun a c₁ c₂ a' id ha hs hr => ?_,
    fun c' id x x' hr hx hx' => ?_⟩
  · have hid := (ha.isId hI.shared.pos hs).mono (nextId_le_run hr)
    rintro ⟨i, job, -, -, rfl⟩
    exact not_isId_allocId _ hid
  · have hold := ((hI.spent (List.mem_map_of_mem hx)).run hr).2 _ hx' rfl
    have := List.inj_on_of_nodup_map hI.shared.nodup hold hx rfl
    exact (Prod.mk.inj this).2

/-- Two targets, one of them closed. -/
theorem router_state_invariant_two : ∃ c, program.Reachable Init (fun _ a => noShutdown a) c ∧
    c.shared.state.keys = ["t2"] ∧ c.shared.state.nextId = 3 ∧ Targets c.shared.state ∧ Active c.shared.state := by
  obtain ⟨c, hc, h₁, h₂⟩ := Program.Reachable.of_runIf_any (P := program) (C := fun _ a => noShutdown a)
    (r := List.flatten [loadApp 0, [.env (.request (.close (some "t1"))), .thread 1 .go, .thread 1 .killed],
      loadApp 2])
    (p := fun c => c.shared.state.keys = ["t2"] ∧ c.shared.state.nextId = 3) init_freshRouter (by decide +kernel)
  have h := router_state_invariant hc
  exact ⟨c, hc, h₁, h₂, h.1, h.2.1⟩

/-! ### Closed ids as selectors -/

/-- The target a request names. -/
def Request.selector : Request → Option String
  | .switch id | .close id | .forward _ id => id
  | _ => none

/-- The same request for another target. -/
def Request.select (id : String) : Request → Request
  | .switch _ => .switch (some id)
  | .close _ => .close (some id)
  | .forward op _ => .forward op (some id)
  | req => req

theorem IsId.ne {n : Nat} {id : String} (h : IsId n id) : id ≠ "active" ∧ id ≠ "" := by
  obtain ⟨k, -, -, rfl⟩ := h
  constructor <;> intro h <;> have := congrArg (List.head? ∘ String.toList) h <;> simp at this

/-- A request acts through what its selector resolves to. -/
theorem startRequest_select {req : Request} {sel id : String} (hsel : req.selector = some sel)
    (hr : s.state.resolve (some sel) = s.state.resolve (some id)) :
    startRequest s req = startRequest s (req.select id) := by
  cases req <;> cases hsel
  all_goals
    simp only [startRequest, Request.select, paramStr]
    first | rw [hr] | (simp only [bind, Except.bind]; rw [hr])

theorem startRequest_rejected {req : Request} {sel msg : String} (hsel : req.selector = some sel)
    (hr : s.state.resolve (some sel) = .error msg) : startRequest s req = (s, .done (.error msg)) := by
  cases req <;> cases hsel
  all_goals
    simp only [startRequest, paramStr]
    first | rw [hr] | (simp only [bind, Except.bind]; rw [hr])

theorem resolve_key {id : String} (hid : id ∈ st.keys) (hne : id ≠ "active" ∧ id ≠ "") :
    st.resolve (some id) = .ok id := by
  obtain ⟨x, hx, rfl⟩ := List.mem_map.1 hid
  rw [RouterState.resolve, resolveSelector_name (by simpa using List.ne_nil_of_mem hx) hne.1 hne.2, if_pos]
  simp only [List.any_map, List.any_eq_true, Function.comp_apply, decide_eq_true_eq]
  exact ⟨x, hx, rfl⟩

/-- A request for an id that was loaded and closed since: it is rejected and changes nothing, unless the
id's text is part of the file name or path of exactly one target; then it is a request for that one. -/
theorem closed_id_selects {c₀ c₁ : Conf Shared Pc} {id : String} {req : Request}
    (h₀ : program.Reachable Init Program.Free c₀) (hid : id ∈ c₀.shared.state.keys)
    (h₁ : program.Reachable (· = c₀) Program.Free c₁) (hclosed : id ∉ c₁.shared.state.keys)
    (h : program.Reachable (· = c₁) Program.Free c) (hreq : c.threads[i]? = some (.start req))
    (hsel : req.selector = some id) (hs : program.step c (.thread i e) = some c') :
    ((∀ x, matching id c.shared.state.targets ≠ [x]) →
      c'.shared = c.shared ∧ ∃ msg, c'.threads[i]? = some (.done (.error msg))) ∧
    (∀ x, matching id c.shared.state.targets = [x] →
      (c'.shared, c'.threads[i]?) = ((startRequest c.shared (req.select x.1)).1,
        some (startRequest c.shared (req.select x.1)).2)) := by
  have hspent := (TargetsInv.reachable h₀).spent hid
  have hkey : id ∉ c.shared.state.keys := fun hmem => by
    obtain ⟨x, hx, heq⟩ := List.mem_map.1 hmem
    exact hclosed (heq ▸ List.mem_map_of_mem (((hspent.run h₁).1.run h).2 x hx heq))
  have hI := TargetsInv.reachable ((h₀.trans h₁).trans h)
  obtain ⟨hone, hnone⟩ := resolve_of_not_key hkey hspent.1.ne.1 hspent.1.ne.2
  obtain ⟨pc, o, hpc, ho, rfl⟩ := step_thread_iff.1 hs
  obtain rfl : Pc.start req = pc := Option.some.inj (hreq.symm.trans hpc)
  obtain ⟨⟨s', pc'⟩, hstep, rfl⟩ := Option.map_eq_some_iff.1 ho
  obtain hst : startRequest c.shared req = (s', pc') := by
    cases e <;> simp only [pcStep, reduceCtorEq] at hstep
    exact Option.some.inj hstep
  rw [Conf.after_get_self hpc]
  refine ⟨fun hx => ?_, fun x hx => ?_⟩
  · obtain ⟨msg, hmsg⟩ := hnone hx
    rw [startRequest_rejected hsel hmsg] at hst
    cases hst
    exact ⟨rfl, msg, rfl⟩
  · have hmem : x ∈ c.shared.state.targets := (List.mem_filter.1 (hx ▸ List.mem_singleton_self x)).1
    have hres := resolve_key (List.mem_map_of_mem hmem) (hI.shared.isId x hmem).ne
    rw [← startRequest_select hsel ((hone x hx).trans hres.symm), hst]
    rfl

/-- A load of `/bin/t1` as request `i`, up to its reply. -/
def loadNamedT1 (i : Nat) : List (Act Event Env) :=
  [.env (.request (.load (some "/bin/t1") none none)), .thread i .go, .thread i .go, .thread i .go,
    .thread i .go, .thread i .go, .thread i .go,
    .thread i (.loaded ⟨"", "/bin/t1", "t1", "ELF", "x86", 64, 3⟩), .thread i .go]

/-- A close of `t1` as request `i`, up to the end of its worker. -/
def closeT1 (i : Nat) : List (Act Event Env) :=
  [.env (.request (.close (some "t1"))), .thread i .go, .thread i .killed]

/-- The configuration a run ends in. -/
def ran (c : Conf Shared Pc) (r : List (Act Event Env)) : Conf Shared Pc := (program.run c r).getD c

theorem ran_reachable {init : Conf Shared Pc → Prop} {r : List (Act Event Env)} (h0 : init c)
    (h : (program.run c r).isSome) : program.Reachable init Program.Free (ran c r) := by
  obtain ⟨c', hc⟩ := Option.isSome_iff_exists.1 h
  rw [ran, hc]
  exact .of_run (.init h0) hc

/-- `t1` is loaded and closed, and the only target is then `/bin/t1`, loaded as `t2`: a request for `t1`
is forwarded to the worker of `t2`. -/
theorem closed_id_retargets : ∃ c₀ c₁ c c', program.Reachable Init Program.Free c₀ ∧
    "t1" ∈ c₀.shared.state.keys ∧ program.Reachable (· = c₀) Program.Free c₁ ∧ "t1" ∉ c₁.shared.state.keys ∧
    program.Reachable (· = c₁) Program.Free c ∧ c.threads[3]? = some (.start (.forward "functions" (some "t1"))) ∧
    program.step c (.thread 3 .go) = some c' ∧ c'.threads[3]? = some (.forwardWait "t2" 1) := by
  refine ⟨ran freshRouter (loadApp 0), ran (ran freshRouter (loadApp 0)) (closeT1 1),
    ran (ran (ran freshRouter (loadApp 0)) (closeT1 1))
      (loadNamedT1 2 ++ [Act.env (.request (.forward "functions" (some "t1")))]), _,
    ran_reachable init_freshRouter (by decide +kernel), by decide +kernel, ran_reachable rfl (by decide +kernel),
    by decide +kernel, ran_reachable rfl (by decide +kernel), by decide +kernel,
    (Option.some_get (by decide +kernel)).symm, by decide +kernel⟩

/-- The same with `/bin/app` loaded again: the request is rejected. -/
theorem closed_id_selects_app : ∃ c c', c.shared.state.keys = ["t2"] ∧
    c.threads[3]? = some (.start (.close (some "t1"))) ∧ program.step c (.thread 3 .go) = some c' ∧
    c'.shared = c.shared ∧ ∃ msg, c'.threads[3]? = some (.done (.error msg)) := by
  have hloaded : "t1" ∈ (ran freshRouter (loadApp 0)).shared.state.keys := by decide +kernel
  have hclosed : "t1" ∉ (ran (ran freshRouter (loadApp 0)) (closeT1 1)).shared.state.keys := by decide +kernel
  have hreq : (ran (ran (ran freshRouter (loadApp 0)) (closeT1 1))
      (loadApp 2 ++ [Act.env (.request (.close (some "t1")))])).threads[3]? =
      some (Pc.start (.close (some "t1"))) := by decide +kernel
  have hmatch : matching "t1" (ran (ran (ran freshRouter (loadApp 0)) (closeT1 1))
      (loadApp 2 ++ [Act.env (.request (.close (some "t1")))])).shared.state.targets = [] := by decide +kernel
  obtain ⟨c', hs⟩ := Option.isSome_iff_exists.1 (show (program.step (ran (ran (ran freshRouter (loadApp 0))
    (closeT1 1)) (loadApp 2 ++ [Act.env (.request (.close (some "t1")))])) (.thread 3 .go)).isSome by decide +kernel)
  refine ⟨_, c', by decide +kernel, hreq, hs, ?_⟩
  refine (closed_id_selects (ran_reachable init_freshRouter (by decide +kernel)) hloaded
    (ran_reachable rfl (by decide +kernel)) hclosed (ran_reachable rfl (by decide +kernel)) hreq rfl hs).1 ?_
  rw [hmatch]
  simp

end IdaRs.Router
