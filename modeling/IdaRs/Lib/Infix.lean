import Mathlib.Data.List.Infix

/-!
# Where a pattern can occur in a composed text

`infix_append_iff` leaves the occurrences of a pattern that straddle the seam of `xs ++ ys`. Two ways
to exclude them: `ApartLeft`/`ApartRight` (no border of the pattern is a border of the fixed part, a
decidable fact about two closed lists) and a separator (`infix_separated`: a non-empty middle part
none of whose elements occurs in the pattern, whatever its value).
-/

namespace List

variable {α : Type*} {p xs ys zs : List α}

/-- No occurrence of `p` starts inside `xs`, whatever follows `xs`. -/
def ApartLeft (p xs : List α) : Prop := ¬ p <:+: xs ∧ ∀ t ∈ p.inits, t ≠ [] → ¬ t <:+ xs

/-- No occurrence of `p` ends inside `xs`, whatever precedes `xs`. -/
def ApartRight (p xs : List α) : Prop := ¬ p <:+: xs ∧ ∀ t ∈ p.tails, t ≠ [] → ¬ t <+: xs

instance [DecidableEq α] (p xs : List α) : Decidable (ApartLeft p xs) :=
  inferInstanceAs (Decidable (_ ∧ _))

instance [DecidableEq α] (p xs : List α) : Decidable (ApartRight p xs) :=
  inferInstanceAs (Decidable (_ ∧ _))

theorem ApartLeft.infix_append (h : ApartLeft p xs) : p <:+: xs ++ ys ↔ p <:+: ys := by
  rw [infix_append_iff_ne_nil]
  constructor
  · rintro (h' | h' | ⟨l₁, l₂, hne, -, rfl, hl₁, -⟩)
    · exact absurd h' h.1
    · exact h'
    · exact absurd hl₁ (h.2 l₁ ((mem_inits _ _).2 (prefix_append _ _)) hne)
  · exact fun h' => .inr (.inl h')

theorem ApartRight.infix_append (h : ApartRight p ys) : p <:+: xs ++ ys ↔ p <:+: xs := by
  rw [infix_append_iff_ne_nil]
  constructor
  · rintro (h' | h' | ⟨l₁, l₂, -, hne, rfl, -, hl₂⟩)
    · exact h'
    · exact absurd h' h.1
    · exact absurd hl₂ (h.2 l₂ ((mem_tails _ _).2 (suffix_append _ _)) hne)
  · exact .inl

/-- An occurrence cannot reach into a part that shares no element with the pattern. -/
theorem infix_append_of_disjoint (hp : p ≠ []) (hx : ∀ a ∈ xs, a ∉ p) : p <:+: xs ++ ys ↔ p <:+: ys := by
  rw [infix_append_iff_ne_nil]
  constructor
  · rintro (h | h | ⟨l₁, l₂, hne, -, rfl, hl₁, -⟩)
    · obtain ⟨a, ha⟩ := exists_mem_of_ne_nil p hp
      exact absurd ha (hx a (h.mem ha))
    · exact h
    · obtain ⟨a, ha⟩ := exists_mem_of_ne_nil l₁ hne
      exact absurd (mem_append_left l₂ ha) (hx a (hl₁.mem ha))
  · exact fun h => .inr (.inl h)

/-- A non-empty part that shares no element with the pattern separates what stands around it. -/
theorem infix_separated (hp : p ≠ []) (hne : ys ≠ []) (hy : ∀ a ∈ ys, a ∉ p) :
    p <:+: xs ++ (ys ++ zs) ↔ p <:+: xs ∨ p <:+: zs := by
  rw [infix_append_iff_ne_nil, infix_append_of_disjoint hp hy]
  constructor
  · rintro (h | h | ⟨l₁, l₂, -, hl, rfl, -, hl₂⟩)
    · exact .inl h
    · exact .inr h
    · obtain ⟨a, l₂, rfl⟩ := exists_cons_of_ne_nil hl
      obtain ⟨b, ys, rfl⟩ := exists_cons_of_ne_nil hne
      obtain rfl : a = b := (cons_prefix_cons.1 (by simpa using hl₂)).1
      exact absurd (mem_append_right l₁ mem_cons_self) (hy a mem_cons_self)
  · rintro (h | h)
    · exact .inl h
    · exact .inr (.inl h)

end List
