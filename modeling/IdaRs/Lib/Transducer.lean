import Mathlib.Data.List.Basic

/-!
# Transducers

A machine that reads a list and writes what each element makes it write. `run_append`: a run over two lists is a run
over the first and one over the second from where the first ended.
-/

namespace Transducer

variable {σ α β : Type} (step : σ → α → σ × List β)

/-- The state at the end and the output. -/
def run (s : σ) : List α → σ × List β
  | [] => (s, [])
  | a :: as => ((run (step s a).1 as).1, (step s a).2 ++ (run (step s a).1 as).2)

/-- What a run writes. -/
def output (s : σ) (as : List α) : List β := (run step s as).2

variable {step}

theorem run_cons {s t : σ} {a : α} {out : List β} (h : step s a = (t, out)) (as : List α) :
    run step s (a :: as) = ((run step t as).1, out ++ (run step t as).2) := by
  rw [run, h]

theorem run_append (s : σ) (xs ys : List α) :
    run step s (xs ++ ys) =
      ((run step (run step s xs).1 ys).1, (run step s xs).2 ++ (run step (run step s xs).1 ys).2) := by
  induction xs generalizing s with
  | nil => rfl
  | cons a xs ih => rw [List.cons_append, run, run, ih, List.append_assoc]

theorem run_eq_of_fst {s t : σ} {xs : List α} (h : (run step s xs).1 = t) :
    run step s xs = (t, output step s xs) := by
  rw [← h, output]

theorem run_append_fst {s t : σ} {xs : List α} (h : (run step s xs).1 = t) (ys : List α) :
    (run step s (xs ++ ys)).1 = (run step t ys).1 := by
  rw [run_append, h]

theorem run_trans {s t : σ} {xs : List α} {out : List β} (h : run step s xs = (t, out)) (ys : List α) :
    run step s (xs ++ ys) = ((run step t ys).1, out ++ (run step t ys).2) := by
  rw [run_append, h]

/-- A list of pieces that each lead back to the state writes what each piece writes. -/
theorem run_flatMap {γ : Type} {s : σ} {f : γ → List α} {g : γ → List β} (h : ∀ c, run step s (f c) = (s, g c))
    (cs : List γ) : run step s (cs.flatMap f) = (s, cs.flatMap g) := by
  induction cs with
  | nil => rfl
  | cons c cs ih => rw [List.flatMap_cons, run_trans (h c), ih, List.flatMap_cons]

end Transducer
