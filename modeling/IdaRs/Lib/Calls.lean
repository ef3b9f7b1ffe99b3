import Mathlib.Init

/-!
# Programs that make calls

A program ends with a value, fails, or makes a call and goes on with the answer. `Makes p i`: some run of `p`,
whatever was answered before, makes the call `i`. `run` answers every call by a function and records the calls.
-/

namespace Calls

inductive Prog (ε ι ο α : Type)
  | done (a : α)
  | fail (e : ε)
  | call (i : ι) (k : ο → Prog ε ι ο α)

namespace Prog

variable {ε ι ο α β κ : Type}

def bind : Prog ε ι ο α → (α → Prog ε ι ο β) → Prog ε ι ο β
  | done a, f => f a
  | fail e, _ => fail e
  | call i k, f => call i fun o => (k o).bind f

instance : Monad (Prog ε ι ο) where
  pure := done
  bind := bind

def ofExcept : Except ε α → Prog ε ι ο α
  | .ok a => done a
  | .error e => fail e

def perform (i : ι) : Prog ε ι ο ο := call i done

/-- `f` on every item in turn. -/
def collect (f : κ → Prog ε ι ο α) : List κ → Prog ε ι ο (List α)
  | [] => pure []
  | x :: xs => do return (← f x) :: (← collect f xs)

def Makes : Prog ε ι ο α → ι → Prop
  | done _, _ => False
  | fail _, _ => False
  | call i k, j => j = i ∨ ∃ o, (k o).Makes j

def run (answer : ι → ο) : Prog ε ι ο α → List ι × Except ε α
  | done a => ([], .ok a)
  | fail e => ([], .error e)
  | call i k => (i :: ((k (answer i)).run answer).1, ((k (answer i)).run answer).2)

@[simp] theorem done_bind (a : α) (f : α → Prog ε ι ο β) : (done a >>= f) = f a := rfl

@[simp] theorem fail_bind (e : ε) (f : α → Prog ε ι ο β) : (fail e >>= f) = fail e := rfl

@[simp] theorem call_bind (i : ι) (k : ο → Prog ε ι ο α) (f : α → Prog ε ι ο β) :
    (call i k >>= f) = call i fun o => k o >>= f := rfl

@[simp] theorem pure_eq (a : α) : (pure a : Prog ε ι ο α) = done a := rfl

@[simp] theorem ofExcept_ok (a : α) : (ofExcept (.ok a) : Prog ε ι ο α) = done a := rfl

@[simp] theorem ofExcept_error (e : ε) : (ofExcept (.error e) : Prog ε ι ο α) = fail e := rfl

theorem bind_assoc {γ : Type} (p : Prog ε ι ο α) (f : α → Prog ε ι ο β) (g : β → Prog ε ι ο γ) :
    (p >>= f >>= g) = p >>= fun a => f a >>= g := by
  induction p with
  | done a => rfl
  | fail e => rfl
  | call i k ih => exact congrArg (call i) (funext ih)

/-- Every call that `p` can make satisfies `P`. -/
def All (P : ι → Prop) (p : Prog ε ι ο α) : Prop := ∀ i, p.Makes i → P i

section

variable {P : ι → Prop}

theorem all_done (a : α) : (done a : Prog ε ι ο α).All P := fun _ h => h.elim

theorem all_fail (e : ε) : (fail e : Prog ε ι ο α).All P := fun _ h => h.elim

theorem all_call {i : ι} {k : ο → Prog ε ι ο α} (hi : P i) (hk : ∀ o, (k o).All P) : (call i k).All P := by
  rintro j (rfl | ⟨o, h⟩)
  · exact hi
  · exact hk o j h

theorem all_bind {p : Prog ε ι ο α} {f : α → Prog ε ι ο β} (hp : p.All P) (hf : ∀ a, (f a).All P) :
    (p >>= f).All P := by
  induction p with
  | done a => exact hf a
  | fail e => exact all_fail e
  | call i k ih => exact all_call (hp i (.inl rfl)) fun o => ih o fun j h => hp j (.inr ⟨o, h⟩)

theorem all_ofExcept_bind {x : Except ε α} {f : α → Prog ε ι ο β} (hf : ∀ a, x = .ok a → (f a).All P) :
    (ofExcept x >>= f).All P := by
  cases x with
  | error e => exact all_fail e
  | ok a => exact hf a rfl

theorem all_collect {f : κ → Prog ε ι ο α} {xs : List κ} (hf : ∀ x ∈ xs, (f x).All P) : (collect f xs).All P := by
  induction xs with
  | nil => exact all_done _
  | cons x xs ih =>
    refine all_bind (hf x (List.mem_cons_self ..)) fun a => ?_
    exact all_bind (ih fun y h => hf y (List.mem_cons_of_mem _ h)) fun as => all_done _

end

end Prog

end Calls
