import Mathlib.Data.List.Basic
import Mathlib.Order.Basic

/-!
# Interleaved threads over a shared state

`Program σ τ ε η`: any number of threads, each with a local state `τ`, over one shared state `σ`.
`exec` is what one thread does in one atomic step (it may spawn threads); `env` is what happens
outside every thread (a clock tick, a client that starts a request). A step picks a thread or the
environment, so a list of actions is an interleaving.

`Reachable init C`: the configurations reached from `init` by steps that all meet `C`, a condition
on the configuration before the step and on the step. `Free` asks nothing. Invariants go through
`Reachable.induct`; the invariants that are local to a thread are packaged in `Modular` and kept by
`Modular.thread` / `Modular.env`, whose side conditions are those of one thread's step and of
noninterference with the other threads.
-/

namespace Threads

universe u v w x

/-- A shared state and the local states of the threads; thread `i` is at position `i`. -/
structure Conf (σ : Type u) (τ : Type v) where
  shared : σ
  threads : List τ

/-- What one step of a thread leaves: the shared state, its own state, the threads it spawned. -/
structure Outcome (σ : Type u) (τ : Type v) where
  shared : σ
  thread : τ
  spawned : List τ := []

inductive Act (ε : Type w) (η : Type x)
  | thread (i : Nat) (e : ε)
  | env (x : η)
deriving DecidableEq

/-- `exec` and `env` return `none` on an event that is not enabled. -/
structure Program (σ : Type u) (τ : Type v) (ε : Type w) (η : Type x) where
  exec : σ → Nat → τ → ε → Option (Outcome σ τ)
  env : Conf σ τ → η → Option (σ × List τ)

variable {σ : Type u} {τ : Type v} {ε : Type w} {η : Type x}

/-- The configuration after thread `i` made a step with outcome `o`. -/
def Conf.after (c : Conf σ τ) (i : Nat) (o : Outcome σ τ) : Conf σ τ :=
  ⟨o.shared, c.threads.set i o.thread ++ o.spawned⟩

namespace Program

variable (P : Program σ τ ε η)

def step (c : Conf σ τ) : Act ε η → Option (Conf σ τ)
  | .thread i e =>
    match c.threads[i]? with
    | none => none
    | some l => (P.exec c.shared i l e).map (c.after i)
  | .env x => (P.env c x).map fun r => ⟨r.1, c.threads ++ r.2⟩

def run : Conf σ τ → List (Act ε η) → Option (Conf σ τ)
  | c, [] => some c
  | c, a :: as => (P.step c a).bind fun c' => run c' as

/-- A run that stops at the first step that does not meet `C`. -/
def runIf (C : Conf σ τ → Act ε η → Prop) [∀ c a, Decidable (C c a)] :
    Conf σ τ → List (Act ε η) → Option (Conf σ τ)
  | c, [] => some c
  | c, a :: as => if C c a then (P.step c a).bind fun c' => runIf C c' as else none

/-- No condition on the steps. -/
def Free (_ : Conf σ τ) (_ : Act ε η) : Prop := True

instance (c : Conf σ τ) (a : Act ε η) : Decidable (Free c a) := inferInstanceAs (Decidable True)

/-- Reached from `init` by steps that all meet `C` in the configuration they are taken from. -/
inductive Reachable (init : Conf σ τ → Prop) (C : Conf σ τ → Act ε η → Prop) : Conf σ τ → Prop
  | init {c : Conf σ τ} : init c → Reachable init C c
  | step {c c' : Conf σ τ} {a : Act ε η} :
      Reachable init C c → C c a → P.step c a = some c' → Reachable init C c'

end Program

open Program

variable {P : Program σ τ ε η} {init : Conf σ τ → Prop} {C D : Conf σ τ → Act ε η → Prop}

theorem step_thread_iff {c c' : Conf σ τ} {i : Nat} {e : ε} :
    P.step c (.thread i e) = some c' ↔
      ∃ l o, c.threads[i]? = some l ∧ P.exec c.shared i l e = some o ∧ c' = c.after i o := by
  simp only [Program.step]
  split
  · rename_i h; simp [h]
  · rename_i l h
    simp only [h, Option.map_eq_some_iff, Option.some.injEq, exists_and_left, exists_eq_left']
    exact ⟨fun ⟨o, ho, hc⟩ => ⟨o, ho, hc.symm⟩, fun ⟨o, ho, hc⟩ => ⟨o, ho, hc.symm⟩⟩

theorem step_env_iff {c c' : Conf σ τ} {x : η} :
    P.step c (.env x) = some c' ↔ ∃ r, P.env c x = some r ∧ c' = ⟨r.1, c.threads ++ r.2⟩ := by
  simp only [Program.step, Option.map_eq_some_iff]
  exact ⟨fun ⟨r, hr, hc⟩ => ⟨r, hr, hc.symm⟩, fun ⟨r, hr, hc⟩ => ⟨r, hr, hc.symm⟩⟩

namespace Program.Reachable

/-- The invariant rule; a step may use that the configuration it leaves is reachable. -/
theorem induct {I : Conf σ τ → Prop} (h0 : ∀ c, init c → I c)
    (hs : ∀ c c' a, P.Reachable init C c → I c → C c a → P.step c a = some c' → I c')
    {c : Conf σ τ} (h : P.Reachable init C c) : I c := by
  induction h with
  | init h => exact h0 _ h
  | step h hC hstep ih => exact hs _ _ _ h ih hC hstep

theorem trans {c c' : Conf σ τ} (h : P.Reachable init C c) (h' : P.Reachable (· = c) C c') :
    P.Reachable init C c' := by
  induction h' with
  | init hc => exact hc ▸ h
  | step _ hC hs ih => exact .step ih hC hs

theorem of_run {c c' : Conf σ τ} {as : List (Act ε η)} (h : P.Reachable init Free c)
    (hr : P.run c as = some c') : P.Reachable init Free c' := by
  induction as generalizing c with
  | nil => exact Option.some.inj hr ▸ h
  | cons a as ih =>
    obtain ⟨c₁, h₁, h₂⟩ := Option.bind_eq_some_iff.1 hr
    exact ih (.step h trivial h₁) h₂

theorem of_runIf [∀ c a, Decidable (C c a)] {c c' : Conf σ τ} {as : List (Act ε η)}
    (h : P.Reachable init C c) (hr : P.runIf C c as = some c') : P.Reachable init C c' := by
  induction as generalizing c with
  | nil => exact Option.some.inj hr ▸ h
  | cons a as ih =>
    rw [Program.runIf] at hr
    split at hr
    · rename_i hC
      obtain ⟨c₁, h₁, h₂⟩ := Option.bind_eq_some_iff.1 hr
      exact ih (.step h hC h₁) h₂
    · cases hr

/-- A run that ends where `p` holds reaches such a configuration. -/
theorem of_run_any {c : Conf σ τ} {r : List (Act ε η)} {p : Conf σ τ → Prop} [DecidablePred p] (h : init c)
    (hr : (P.run c r).any (fun c => decide (p c)) = true) : ∃ c', P.Reachable init Free c' ∧ p c' := by
  cases hc : P.run c r with
  | none => simp [hc] at hr
  | some c' =>
    rw [hc] at hr
    exact ⟨c', of_run (.init h) hc, of_decide_eq_true hr⟩

theorem of_runIf_any [∀ c a, Decidable (C c a)] {c : Conf σ τ} {r : List (Act ε η)}
    {p : Conf σ τ → Prop} [DecidablePred p] (h : init c)
    (hr : (P.runIf C c r).any (fun c => decide (p c)) = true) : ∃ c', P.Reachable init C c' ∧ p c' := by
  cases hc : P.runIf C c r with
  | none => simp [hc] at hr
  | some c' =>
    rw [hc] at hr
    exact ⟨c', of_runIf (.init h) hc, of_decide_eq_true hr⟩

end Program.Reachable

/-! ### Thread-modular invariants -/

namespace Conf

variable {c : Conf σ τ} {i j : Nat} {l m : τ} {o : Outcome σ τ}

/-- A thread after a step of thread `i`: `i` itself, another old thread, or one `i` spawned. -/
theorem after_get (h : (c.after i o).threads[j]? = some m) :
    (j = i ∧ m = o.thread) ∨ (j ≠ i ∧ c.threads[j]? = some m) ∨
      (c.threads.length ≤ j ∧ o.spawned[j - c.threads.length]? = some m) := by
  simp only [after, List.getElem?_append, List.length_set, List.getElem?_set] at h
  split at h
  · split at h
    · split at h
      · exact .inl ⟨by omega, (Option.some.inj h).symm⟩
      · cases h
    · exact .inr (.inl ⟨by omega, h⟩)
  · exact .inr (.inr ⟨by omega, h⟩)

theorem after_get_self (hl : c.threads[i]? = some l) : (c.after i o).threads[i]? = some o.thread := by
  have hi := (List.getElem?_eq_some_iff.1 hl).1
  simp [after, List.getElem?_append, hi]

theorem after_get_other (hne : j ≠ i) (hm : c.threads[j]? = some m) :
    (c.after i o).threads[j]? = some m := by
  have hj := (List.getElem?_eq_some_iff.1 hm).1
  rw [after, List.getElem?_append_left (by simpa using hj), List.getElem?_set_ne (Ne.symm hne), hm]

/-- A thread after a step of the environment: an old one, or one it started. -/
theorem append_get {new : List τ} (h : (c.threads ++ new)[j]? = some m) :
    c.threads[j]? = some m ∨ (c.threads.length ≤ j ∧ m ∈ new) := by
  rw [List.getElem?_append] at h
  split at h
  · exact .inl h
  · exact .inr ⟨by omega, List.mem_of_getElem? h⟩

/-- What holds of every thread after a step of thread `i`. -/
theorem forall_after {Q : Nat → τ → Prop} (hself : Q i o.thread)
    (hother : ∀ j m, j ≠ i → c.threads[j]? = some m → Q j m) (hnew : ∀ j, ∀ m ∈ o.spawned, Q j m) :
    ∀ j m, (c.after i o).threads[j]? = some m → Q j m := by
  intro j m hm
  rcases after_get hm with ⟨rfl, rfl⟩ | ⟨hj, hm⟩ | ⟨-, hm⟩
  · exact hself
  · exact hother j m hj hm
  · exact hnew j m (List.mem_of_getElem? hm)

theorem forall_append {Q : Nat → τ → Prop} {new : List τ} (hold : ∀ j m, c.threads[j]? = some m → Q j m)
    (hnew : ∀ j, ∀ m ∈ new, Q j m) : ∀ (j : Nat) m, (c.threads ++ new)[j]? = some m → Q j m := by
  intro j m hm
  rcases append_get hm with hm | ⟨-, hm⟩
  · exact hold j m hm
  · exact hnew j m hm

theorem mem_after (h : m ∈ (c.after i o).threads) : m = o.thread ∨ m ∈ c.threads ∨ m ∈ o.spawned := by
  rcases List.mem_append.1 h with h | h
  · rcases List.mem_or_eq_of_mem_set h with h | h
    · exact .inr (.inl h)
    · exact .inl h
  · exact .inr (.inr h)

/-- A property of some thread stays true of some thread when the step of `i` keeps it or hands it
over to a thread it spawned. -/
theorem exists_after {Q : τ → Prop} (hl : c.threads[i]? = some l) (h : ∃ m ∈ c.threads, Q m)
    (hQ : Q l → Q o.thread ∨ ∃ m ∈ o.spawned, Q m) : ∃ m ∈ (c.after i o).threads, Q m := by
  obtain ⟨m, hm, hq⟩ := h
  obtain ⟨j, hj⟩ := List.mem_iff_getElem?.1 hm
  by_cases hji : j = i
  · subst hji
    obtain rfl : l = m := Option.some.inj (hl.symm.trans hj)
    rcases hQ hq with h | ⟨m, hm, h⟩
    · exact ⟨_, List.mem_of_getElem? (after_get_self hl), h⟩
    · exact ⟨m, List.mem_append_right _ hm, h⟩
  · exact ⟨m, List.mem_of_getElem? (after_get_other hji hj), hq⟩

end Conf

/-- An invariant of the shared state, one of each thread beside it (the thread's number names it as
the owner of a lock), and one of each pair of threads. -/
structure Modular (J : σ → Prop) (L : σ → Nat → τ → Prop) (K : τ → τ → Prop) (c : Conf σ τ) : Prop where
  shared : J c.shared
  threads : ∀ i l, c.threads[i]? = some l → L c.shared i l
  pairs : ∀ (i j : Nat) l m, i ≠ j → c.threads[i]? = some l → c.threads[j]? = some m → K l m

namespace Modular

variable {J : σ → Prop} {L : σ → Nat → τ → Prop} {K : τ → τ → Prop} {c : Conf σ τ}

theorem pairs_of_lt {ts : List τ} (hsymm : ∀ l m, K l m → K m l)
    (h : ∀ (i j : Nat) l m, i < j → ts[i]? = some l → ts[j]? = some m → K l m) (i j : Nat) (l m : τ)
    (hij : i ≠ j) (hl : ts[i]? = some l) (hm : ts[j]? = some m) : K l m := by
  rcases Nat.lt_or_gt_of_ne hij with hlt | hlt
  · exact h i j l m hlt hl hm
  · exact hsymm _ _ (h j i m l hlt hm hl)

/-- One step of thread `i`: `hself` is its own proof, `hother` noninterference with the others. -/
theorem thread (h : Modular J L K c) (hsymm : ∀ l m, K l m → K m l) {i : Nat} {l : τ} {o : Outcome σ τ}
    (hl : c.threads[i]? = some l) (hJ : J o.shared) (hself : L o.shared i o.thread)
    (hother : ∀ j m, j ≠ i → c.threads[j]? = some m → L o.shared j m)
    (hnew : ∀ j, ∀ m ∈ o.spawned, c.threads.length ≤ j → L o.shared j m)
    (hK : ∀ j m, j ≠ i → c.threads[j]? = some m → K o.thread m)
    (hKnew : ∀ m ∈ o.spawned, K o.thread m ∧ ∀ j m', j ≠ i → c.threads[j]? = some m' → K m' m)
    (hKnew' : o.spawned.Pairwise K) : Modular J L K (c.after i o) := by
  refine ⟨hJ, fun j m hm => ?_, pairs_of_lt hsymm fun j k m m' hjk hm hm' => ?_⟩
  · rcases Conf.after_get hm with ⟨rfl, rfl⟩ | ⟨hj, hm⟩ | ⟨hj, hm⟩
    · exact hself
    · exact hother j m hj hm
    · exact hnew j m (List.mem_of_getElem? hm) hj
  · have hi := (List.getElem?_eq_some_iff.1 hl).1
    rcases Conf.after_get hm with ⟨hj, rfl⟩ | ⟨hj, h₁⟩ | ⟨hj, h₁⟩ <;>
      rcases Conf.after_get hm' with ⟨hk, rfl⟩ | ⟨hk, h₂⟩ | ⟨hk, h₂⟩
    · omega
    · exact hK k m' hk h₂
    · exact (hKnew m' (List.mem_of_getElem? h₂)).1
    · exact hsymm _ _ (hK j m hj h₁)
    · exact h.pairs j k m m' (by omega) h₁ h₂
    · exact (hKnew m' (List.mem_of_getElem? h₂)).2 j m hj h₁
    · omega
    · have := (List.getElem?_eq_some_iff.1 h₂).1; omega
    · obtain ⟨hj', rfl⟩ := List.getElem?_eq_some_iff.1 h₁
      obtain ⟨hk', rfl⟩ := List.getElem?_eq_some_iff.1 h₂
      exact List.pairwise_iff_getElem.1 hKnew' _ _ hj' hk' (by omega)

/-- A step of the environment that starts the threads `new`. -/
theorem env (h : Modular J L K c) (hsymm : ∀ l m, K l m → K m l) {s : σ} {new : List τ} (hJ : J s)
    (hold : ∀ j m, c.threads[j]? = some m → L s j m) (hnew : ∀ j, ∀ m ∈ new, c.threads.length ≤ j → L s j m)
    (hK : ∀ m ∈ new, ∀ m' ∈ c.threads, K m' m) (hKnew : new.Pairwise K) :
    Modular J L K ⟨s, c.threads ++ new⟩ := by
  refine ⟨hJ, fun j m hm => ?_, pairs_of_lt hsymm fun j k m m' hjk hm hm' => ?_⟩
  · rcases Conf.append_get hm with hm | ⟨hj, hm⟩
    · exact hold j m hm
    · exact hnew j m hm hj
  · simp only [List.getElem?_append] at hm hm'
    split at hm <;> split at hm'
    · exact h.pairs j k m m' (by omega) hm hm'
    · exact hK m' (List.mem_of_getElem? hm') m (List.mem_of_getElem? hm)
    · omega
    · obtain ⟨hj', rfl⟩ := List.getElem?_eq_some_iff.1 hm
      obtain ⟨hk', rfl⟩ := List.getElem?_eq_some_iff.1 hm'
      exact List.pairwise_iff_getElem.1 hKnew _ _ hj' hk' (by omega)

end Modular

end Threads
