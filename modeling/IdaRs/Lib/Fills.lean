import Mathlib.Data.List.Basic

/-!
# Loops that fill a list up to a limit

A loop with room for `n` elements that finds `out` makes `(found ++ out).take n` of the list `found`. Such steps compose,
and a loop may stop as soon as the list is full.
-/

namespace Fills

universe u

variable {α : Type u} {n : Nat} {found out more : List α}

/-- Cutting off in between changes nothing. -/
theorem take_append_take (found out more : List α) (n : Nat) :
    ((found ++ out).take n ++ more).take n = (found ++ (out ++ more)).take n := by
  rw [← List.append_assoc]
  generalize found ++ out = l
  rw [List.take_append, List.take_append, List.take_take, Nat.min_self, List.length_take]
  congr 2
  omega

theorem take_of_full (h : found.length ≤ n) (hfull : n ≤ found.length) : (found ++ out).take n = found := by
  have hlen : found.length = n := by omega
  rw [List.take_append_of_le_length hfull, ← hlen, List.take_length]

/-- `step` adds `out` to what was found, as far as there is room for `n`. -/
def Fill (n : Nat) (step : List α → List α) (out : List α) : Prop :=
  ∀ found : List α, found.length ≤ n → step found = (found ++ out).take n

variable {f g : List α → List α}

theorem Fill.nil : Fill n (fun found : List α => found) [] := by
  intro found h
  rw [List.append_nil, List.take_of_length_le h]

theorem Fill.comp (hf : Fill n f out) (hg : Fill n g more) : Fill n (fun found => g (f found)) (out ++ more) := by
  intro found h
  have hlen : (f found).length ≤ n := by
    rw [hf found h]
    exact List.length_take_le ..
  show g (f found) = _
  rw [hg _ hlen, hf found h, take_append_take]

/-- A loop may stop as soon as there is no room left. -/
theorem Fill.guard (hf : ∀ found : List α, found.length < n → f found = (found ++ out).take n) :
    Fill n (fun found => if n ≤ found.length then found else f found) out := by
  intro found h
  show (if n ≤ found.length then found else f found) = _
  split
  · rename_i hfull
    exact (take_of_full h hfull).symm
  · exact hf found (by omega)

theorem Fill.length_le (hf : Fill n f out) : (f []).length ≤ n := by
  rw [hf [] (Nat.zero_le _)]
  exact List.length_take_le ..

end Fills
