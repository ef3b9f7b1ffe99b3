import IdaRs.Lock

/-!
# Mutual exclusion of MCP locks

`Held fs i pc`: a process that holds a lock file still has the lock of the inode its path names. Two
things break it: an `F_SETLK` that succeeds on an inode whose name was unlinked since the open, and
an unlink of the path of a live holder by a cleaner that decided on an earlier look at the file.
`careful` rules out these two and nothing else.
-/

namespace IdaRs.Lock

open Threads

/-- An acquire's `F_SETLK` succeeds only while the path names the inode it opened, and the two
cleaners unlink a path only while no live process holds it. -/
def careful (c : Conf Fs Proc) : Act Event Env → Bool
  | .thread i .go =>
    match (c.threads[i]?).map Proc.pc with
    | some (.acquireSetLk path ino) => decide (c.shared.available i ino → c.shared.names path = some ino)
    | some (.removeUnlink path) | some (.cleanUnlink path _ _) => decide (∀ p ∈ c.threads, ¬ p.Holds path)
    | _ => true
  | _ => true

/-- A holder's path names the inode it locked. -/
def Held (fs : Fs) (i : Nat) (pc : Pc) : Prop :=
  ∀ path ino, pc.held = some (path, ino) → fs.names path = some ino ∧ ∃ pid, fs.locks ino = some ⟨i, pid⟩

/-- The step removes the name `path`. -/
def Unlinks (pc : Pc) (e : Event) (path : String) : Prop :=
  match pc, e with
  | .removeUnlink q, .go | .cleanUnlink q _ _, .go | .locked q _, .release _ => q = path
  | _, _ => False

variable {fs fs' : Fs} {i j : Nat} {p : Proc} {pc pc' : Pc} {e : Event}

/-! ### What the file system calls leave alone -/

theorem Fs.openCreate_names {path q : String} {ino : Nat} (h : fs.names q = some ino) :
    (fs.openCreate path).1.names q = some ino := by
  unfold openCreate
  split
  · exact h
  · rename_i hnone
    have hne : q ≠ path := by rintro rfl; rw [hnone] at h; cases h
    show Function.update fs.names path _ q = _
    rw [Function.update_of_ne hne, h]

theorem Fs.openCreate_locks (path : String) : (fs.openCreate path).1.locks = fs.locks := by
  unfold openCreate; split <;> rfl

theorem Fs.setLk_locks {ino ino' pid : Nat} {o : Owner} (hav : fs.available i ino)
    (h : fs.locks ino' = some o) (ho : o.proc ≠ i) : (fs.setLk i pid ino).locks ino' = some o := by
  have hne : ino' ≠ ino := by
    rintro rfl
    rw [available, h] at hav
    exact ho (by simpa using hav)
  show Function.update fs.locks ino _ ino' = _
  rw [Function.update_of_ne hne, h]

theorem Fs.close_locks {ino ino' : Nat} {o : Owner} (h : fs.locks ino' = some o) (ho : o.proc ≠ i) :
    (fs.close i ino).locks ino' = some o := by
  show Function.update fs.locks ino _ ino' = _
  by_cases hne : ino' = ino
  · subst hne
    simp [h, ho]
  · rw [Function.update_of_ne hne, h]

theorem Fs.exit_locks {ino : Nat} {o : Owner} (h : fs.locks ino = some o) (ho : o.proc ≠ i) :
    (fs.exit i).locks ino = some o := by
  show (fs.locks ino).filter _ = _
  simp [h, ho]

theorem Fs.unlink_names {path q : String} {ino : Nat} (h : fs.names q = some ino) (hne : path ≠ q) :
    (fs.unlink path).names q = some ino := by
  show Function.update fs.names path none q = _
  rw [Function.update_of_ne (Ne.symm hne), h]

/-! ### One step -/

/-- What a step of process `i` does to the file system, contents aside. -/
inductive Effect (fs : Fs) (i : Nat) (pc : Pc) (e : Event) (fs' : Fs) : Prop
  | quiet (hn : fs'.names = fs.names) (hl : fs'.locks = fs.locks)
  | created (path : String) (h : fs' = (fs.openCreate path).1)
  | setLk (pid ino : Nat) (hav : fs.available i ino) (h : fs' = fs.setLk i pid ino)
  | closed (ino : Nat) (h : fs' = fs.close i ino)
  | unlinked (path : String) (hu : Unlinks pc e path) (h : fs' = fs.unlink path)
  | exited (h : fs' = fs.exit i)

theorem sysCall_effect (hs : sysCall fs i p pc = some (fs', pc')) :
    Effect fs i pc .go fs' := by
  cases pc <;> simp only [sysCall, reduceCtorEq] at hs
  case acquireSetLk path ino | cleanSetLk path ino =>
    split at hs <;> obtain ⟨rfl, -⟩ := Prod.mk.inj (Option.some.inj hs)
    · exact .setLk _ _ ‹_› rfl
    · first | exact .quiet rfl rfl | exact .closed _ rfl
  case removeOpen | cleanReadOpen | cleanOpen =>
    split at hs <;> obtain ⟨rfl, -⟩ := Prod.mk.inj (Option.some.inj hs) <;> exact .quiet rfl rfl
  all_goals obtain ⟨rfl, -⟩ := Prod.mk.inj (Option.some.inj hs)
  case acquireOpen => exact .created _ rfl
  case removeUnlink | cleanUnlink => exact .unlinked _ rfl rfl
  case acquireGetLk | releaseClose | removeRead | cleanRead | cleanClose => exact .closed _ rfl
  all_goals exact .quiet rfl rfl

theorem sysFail_effect {msg : String} (hs : sysFail fs i msg pc = some (fs', pc')) :
    Effect fs i pc (.fail msg) fs' := by
  cases pc <;> simp only [sysFail, reduceCtorEq] at hs
  all_goals obtain ⟨rfl, -⟩ := Prod.mk.inj (Option.some.inj hs)
  case acquireGetLk | removeRead | cleanRead | cleanSetLk => exact .closed _ rfl
  all_goals exact .quiet rfl rfl

theorem pcStep_effect (hs : pcStep fs i p e = some (fs', pc')) : Effect fs i p.pc e fs' := by
  cases e <;> simp only [pcStep] at hs
  case go => exact sysCall_effect hs
  case fail => exact sysFail_effect hs
  case crash =>
    split at hs
    · cases hs
    · obtain ⟨rfl, -⟩ := Prod.mk.inj (Option.some.inj hs)
      exact .exited rfl
  case release removed =>
    split at hs
    · rename_i path ino hpc
      obtain ⟨rfl, -⟩ := Prod.mk.inj (Option.some.inj hs)
      cases removed
      · exact .quiet rfl rfl
      · exact .unlinked path (by rw [hpc]; rfl) rfl
    · cases hs
  all_goals
    split at hs
    all_goals simp only [Option.some.injEq, Prod.mk.injEq, reduceCtorEq] at hs
    all_goals obtain ⟨rfl, -⟩ := hs; exact .quiet rfl rfl

/-- A step keeps every name but the one it unlinks. -/
theorem Effect.names {path : String} {ino : Nat} (hs : Effect fs i pc e fs')
    (hn : ¬ Unlinks pc e path) (h : fs.names path = some ino) : fs'.names path = some ino := by
  cases hs with
  | quiet hn' _ => rw [hn', h]
  | created q h' => exact h' ▸ Fs.openCreate_names h
  | setLk pid ino' _ h' => rw [h']; exact h
  | closed ino' h' => rw [h']; exact h
  | unlinked q hu h' => exact h' ▸ Fs.unlink_names h fun hq => hn (hq ▸ hu)
  | exited h' => rw [h']; exact h

/-- A step of process `i` keeps the locks of the others. -/
theorem Effect.locks {ino : Nat} {o : Owner} (hs : Effect fs i pc e fs') (h : fs.locks ino = some o)
    (ho : o.proc ≠ i) : fs'.locks ino = some o := by
  cases hs with
  | quiet _ hl => rw [hl, h]
  | created q h' => rw [h', Fs.openCreate_locks, h]
  | setLk pid ino' hav h' => exact h' ▸ Fs.setLk_locks hav h ho
  | closed ino' h' => exact h' ▸ Fs.close_locks h ho
  | unlinked q _ h' => rw [h']; exact h
  | exited h' => exact h' ▸ Fs.exit_locks h ho

/-- Only the steps of an acquire after its `F_SETLK` lead to a process that holds. -/
theorem pcStep_holding {path : String} {ino : Nat} (hs : pcStep fs i p e = some (fs', pc'))
    (hh : pc'.held = some (path, ino)) :
    (p.pc.held = some (path, ino) ∧ fs'.names = fs.names ∧ fs'.locks = fs.locks) ∨
      (p.pc = .acquireSetLk path ino ∧ e = .go ∧ fs.available i ino ∧ fs' = fs.setLk i p.pid ino) := by
  cases e <;> simp only [pcStep] at hs
  case go =>
    cases hpc : p.pc <;> simp only [hpc, sysCall, reduceCtorEq] at hs
    case acquireSetLk q ino' =>
      split at hs <;> obtain ⟨rfl, rfl⟩ := Prod.mk.inj (Option.some.inj hs) <;> cases hh
      exact .inr ⟨rfl, rfl, ‹_›, rfl⟩
    case removeOpen | cleanReadOpen | cleanOpen | cleanSetLk =>
      split at hs <;> obtain ⟨rfl, rfl⟩ := Prod.mk.inj (Option.some.inj hs) <;> cases hh
    all_goals obtain ⟨rfl, rfl⟩ := Prod.mk.inj (Option.some.inj hs)
    case acquireSetLen | acquireWrite => exact .inl ⟨hh, rfl, rfl⟩
    case removeRead | cleanExists | cleanRead | cleanKill => split at hh <;> cases hh
    all_goals cases hh
  case fail =>
    cases hpc : p.pc <;> simp only [hpc, sysFail, reduceCtorEq] at hs
    all_goals obtain ⟨rfl, rfl⟩ := Prod.mk.inj (Option.some.inj hs)
    case acquireSetLen | acquireWrite => exact .inl ⟨hh, rfl, rfl⟩
    all_goals cases hh
  all_goals
    split at hs
    all_goals simp only [Option.some.injEq, Prod.mk.injEq, reduceCtorEq] at hs
    all_goals obtain ⟨-, rfl⟩ := hs; cases hh

/-- The stepping process itself, when an `F_SETLK` that succeeds finds the path on its inode. -/
theorem Held.self (h : Held fs i p.pc) (hs : pcStep fs i p e = some (fs', pc'))
    (hlk : ∀ path ino, p.pc = .acquireSetLk path ino → e = .go → fs.available i ino →
      fs.names path = some ino) : Held fs' i pc' := by
  intro path ino hh
  rcases pcStep_holding hs hh with ⟨hp, hn, hl⟩ | ⟨hpc, he, hav, rfl⟩
  · rw [hn, hl]
    exact h path ino hp
  · exact ⟨hlk path ino hpc he hav, p.pid, Function.update_self ..⟩

/-- Noninterference: the step of another process that does not unlink the path. -/
theorem Held.other (h : Held fs j pc') (hne : j ≠ i) (hs : Effect fs i pc e fs')
    (hu : ∀ path ino, pc'.held = some (path, ino) → ¬ Unlinks pc e path) : Held fs' j pc' := by
  intro path ino hh
  obtain ⟨hn, pid, hl⟩ := h path ino hh
  exact ⟨hs.names (hu path ino hh) hn, pid, hs.locks hl hne⟩

/-- Two processes that hold one path are one process. -/
theorem Held.unique {path : String} {ino ino' : Nat} {pc pc' : Pc} (h : Held fs i pc) (h' : Held fs j pc')
    (hh : pc.held = some (path, ino)) (hh' : pc'.held = some (path, ino')) : i = j := by
  obtain ⟨hn, pid, hl⟩ := h path ino hh
  obtain ⟨hn', pid', hl'⟩ := h' path ino' hh'
  obtain rfl : ino = ino' := Option.some.inj (hn.symm.trans hn')
  exact congrArg Owner.proc (Option.some.inj (hl.symm.trans hl'))

/-! ### Whole runs -/

def Inv (c : Conf Fs Proc) : Prop := ∀ i p, c.threads[i]? = some p → Held c.shared i p.pc

variable {c c' : Conf Fs Proc}

theorem Inv.env {x : Env} (h : Inv c) (hs : program.step c (.env x) = some c') : Inv c' := by
  obtain ⟨r, hr, rfl⟩ := step_env_iff.1 hs
  have hsame : r.1.names = c.shared.names ∧ r.1.locks = c.shared.locks ∧
      ∀ p ∈ r.2, p.pc.held = none := by
    cases x <;> simp only [program, Lock.env] at hr
    case tick => cases hr; simp
    all_goals
      split at hr
      all_goals try split at hr
      all_goals first | (cases hr; simp [Pc.held]) | cases hr
  obtain ⟨hn, hl, hnew⟩ := hsame
  intro i p hi path ino hh
  rw [hn, hl]
  rcases Conf.append_get hi with hi | ⟨-, hi⟩
  · exact h i p hi path ino hh
  · rw [hnew p hi] at hh; cases hh

theorem Inv.step {a : Act Event Env} (h : Inv c) (hc : careful c a) (hs : program.step c a = some c') :
    Inv c' := by
  cases a with
  | env x => exact h.env hs
  | thread i e =>
    obtain ⟨p, o, hp, ho, rfl⟩ := step_thread_iff.1 hs
    obtain ⟨⟨fs', pc'⟩, hstep, rfl⟩ := Option.map_eq_some_iff.1 ho
    intro j q hj
    rcases Conf.after_get hj with ⟨rfl, rfl⟩ | ⟨hne, hq⟩ | ⟨-, hq⟩
    · refine (h j p hp).self hstep fun path ino hpc he hav => ?_
      subst he
      simp only [careful, hp, Option.map_some, hpc, decide_eq_true_eq] at hc
      exact hc hav
    · refine (h j q hq).other hne (pcStep_effect hstep) fun path ino hh hu => ?_
      unfold Unlinks at hu
      split at hu
      case h_4 => exact hu
      case h_3 hpc =>
        -- a release unlinks the path of its own lock, which nobody else holds
        subst hu
        exact hne ((h j q hq).unique (h i p hp) hh (by rw [hpc]; rfl))
      all_goals
        rename_i hpc
        subst hu
        simp only [careful, hp, Option.map_some, hpc, decide_eq_true_eq] at hc
        exact hc q (List.mem_of_getElem? hq) (by rw [Proc.Holds, hh]; rfl)
    · simp at hq

theorem Inv.reachable (h : program.Reachable Init (fun c a => careful c a) c) : Inv c := by
  refine h.induct (fun c hc i p hi => ?_) fun c c' a _ hI hc hs => hI.step hc hs
  simp [hc.noProcs] at hi

/-- At most one live process holds the lock of a database, in every run whose steps are careful. -/
theorem mcp_lock_exclusive (h : program.Reachable Init (fun c a => careful c a) c) (db : String) {i j : Nat}
    {p q : Proc} (hi : c.threads[i]? = some p) (hj : c.threads[j]? = some q) (hp : p.Holds (lockPath db))
    (hq : q.Holds (lockPath db)) : i = j := by
  obtain ⟨⟨path, ino⟩, hh, hpath⟩ := Option.map_eq_some_iff.1 hp
  obtain ⟨⟨path', ino'⟩, hh', hpath'⟩ := Option.map_eq_some_iff.1 hq
  obtain rfl : path' = path := hpath'.trans hpath.symm
  exact (Inv.reachable h i p hi).unique (Inv.reachable h j q hj) hh hh'

/-- An empty directory and no process. -/
def emptyDir : Conf Fs Proc := ⟨⟨fun _ => none, fun _ => "", fun _ => none, 0, [], 0⟩, []⟩

theorem init_emptyDir : Init emptyDir := ⟨rfl, fun _ => rfl, fun _ _ h => by cases h⟩

/-- Three processes; the second opens the lock file of the first before it is unlinked. -/
def openBeforeUnlink : List (Act Event Env) :=
  [.env (.spawn 11 "h" "ida-mcp"), .env (.spawn 12 "h" "ida-mcp"), .env (.spawn 13 "h" "ida-mcp"),
    .thread 0 (.acquire "/db/a.i64"), .thread 0 .go, .thread 0 .go, .thread 0 .go, .thread 0 .go,
    .thread 1 (.acquire "/db/a.i64"), .thread 1 .go,
    .thread 0 (.release true), .thread 0 .go,
    .thread 1 .go, .thread 1 .go, .thread 1 .go,
    .thread 2 (.acquire "/db/a.i64"), .thread 2 .go, .thread 2 .go, .thread 2 .go, .thread 2 .go]

/-- Without the condition two live processes come to hold the lock of one database. -/
theorem mcp_lock_shared : ∃ c, program.Reachable Init Program.Free c ∧
    ∃ p : Proc, p ∈ c.threads[1]? ∧ ∃ q : Proc, q ∈ c.threads[2]? ∧
      p.Holds (lockPath "/db/a.i64") ∧ q.Holds (lockPath "/db/a.i64") :=
  Program.Reachable.of_run_any (r := openBeforeUnlink) init_emptyDir (by decide +kernel)

/-- A refused acquire, a release, and an acquire of the file created anew. -/
def takeTurns : List (Act Event Env) :=
  [.env (.spawn 11 "h" "ida-mcp"), .env (.spawn 12 "h" "ida-mcp"),
    .thread 0 (.acquire "/db/a.i64"), .thread 0 .go, .thread 0 .go, .thread 0 .go, .thread 0 .go,
    .thread 1 (.acquire "/db/a.idb"), .thread 1 .go, .thread 1 .go, .thread 1 .go,
    .thread 0 (.release true), .thread 0 .go,
    .thread 1 (.acquire "/db/a.idb"), .thread 1 .go, .thread 1 .go, .thread 1 .go, .thread 1 .go]

theorem mcp_lock_exclusive_takeTurns : ∃ c, program.Reachable Init (fun c a => careful c a) c ∧
    (∃ p : Proc, p ∈ c.threads[1]? ∧ p.Holds (lockPath "/db/a.i64")) ∧
    ∀ (j : Nat) (q : Proc), q ∈ c.threads[j]? → q.Holds (lockPath "/db/a.i64") → 1 = j := by
  obtain ⟨c, hc, p, hp, hh⟩ := Program.Reachable.of_runIf_any (P := program) (r := takeTurns)
    (C := fun c a => careful c a) (p := fun c => ∃ p : Proc, p ∈ c.threads[1]? ∧ p.Holds (lockPath "/db/a.i64"))
    init_emptyDir (by decide +kernel)
  exact ⟨c, hc, ⟨p, hp, hh⟩, fun j q hq hq' => mcp_lock_exclusive hc "/db/a.i64" hp hq hh hq'⟩

end IdaRs.Lock
