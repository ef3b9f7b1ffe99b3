import Mathlib.Data.List.Sort

/-!
# Ranking by a score

`ranked` sorts a list by a score, the greatest first and equal ones in their order. An element is behind those before it
in the list whose score is not less and those after it whose score is greater; `mem_take_ranked_iff` says so for the
elements that a limit leaves.
-/

namespace Ranking

universe u

variable {α : Type u} (score : α → Nat)

def Before (a b : α) : Prop := score b ≤ score a

instance : DecidableRel (Before score) := fun a b => Nat.decLe (score b) (score a)

instance : Std.Total (Before score) := ⟨fun a b => Nat.le_total (score b) (score a)⟩

instance : IsTrans α (Before score) := ⟨fun _ _ _ h h' => Nat.le_trans h' h⟩

def ranked (l : List α) : List α := l.insertionSort (Before score)

theorem perm_ranked (l : List α) : (ranked score l).Perm l := List.perm_insertionSort _ l

theorem pairwise_ranked (l : List α) : (ranked score l).Pairwise (Before score) := List.pairwise_insertionSort _ l

/-- How many elements are ahead of the one between `pre` and `post`. -/
def ahead (pre : List α) (t : α) (post : List α) : Nat :=
  pre.countP (fun a => decide (score t ≤ score a)) + post.countP fun a => decide (score t < score a)

variable {score}

/-- An element that is inserted before another one or on a par with it comes before it. -/
theorem orderedInsert_append_of_le {x t : α} (h : score t ≤ score x) (first rest : List α) :
    ∃ first', (first ++ t :: rest).orderedInsert (Before score) x = first' ++ t :: rest ∧
      first'.length = first.length + 1 := by
  induction first with
  | nil => exact ⟨[x], List.orderedInsert_cons_of_le _ _ h, rfl⟩
  | cons a first ih =>
    by_cases hxa : score a ≤ score x
    · exact ⟨x :: a :: first, List.orderedInsert_cons_of_le _ _ hxa, rfl⟩
    · obtain ⟨first', heq, hlen⟩ := ih
      refine ⟨a :: first', ?_, by rw [List.length_cons, hlen, List.length_cons]⟩
      rw [List.cons_append, List.orderedInsert_of_not_le (Before score) _ hxa, heq]
      rfl

/-- One with a smaller score comes after it. -/
theorem orderedInsert_append_of_lt {x t : α} (h : score x < score t) {first : List α}
    (hfirst : ∀ a ∈ first, score t ≤ score a) (rest : List α) :
    ∃ rest', (first ++ t :: rest).orderedInsert (Before score) x = first ++ t :: rest' := by
  induction first with
  | nil =>
    refine ⟨rest.orderedInsert (Before score) x, ?_⟩
    exact List.orderedInsert_of_not_le _ _ (Nat.not_le.2 h)
  | cons a first ih =>
    have ha : score t ≤ score a := hfirst a List.mem_cons_self
    obtain ⟨rest', heq⟩ := ih fun b hb => hfirst b (List.mem_cons_of_mem _ hb)
    refine ⟨rest', ?_⟩
    rw [List.cons_append, List.orderedInsert_of_not_le (Before score) _ (Nat.not_le.2 (Nat.lt_of_lt_of_le h ha)), heq]
    rfl

/-- In a sorted list the elements with a greater score are the first ones. -/
theorem length_takeWhile_eq {t : α} {l : List α} (h : l.Pairwise (Before score)) :
    (l.takeWhile fun a => decide ¬ Before score t a).length = l.countP fun a => decide (score t < score a) := by
  induction l with
  | nil => rfl
  | cons a l ih =>
    rw [List.pairwise_cons] at h
    by_cases hat : score t < score a
    · have hbefore : ¬ Before score t a := Nat.not_le.2 hat
      simp [hbefore, hat, ← ih h.2]
    · have hbefore : Before score t a := Nat.not_lt.1 hat
      have hrest : ∀ b ∈ l, ¬ decide (score t < score b) = true := by
        intro b hb
        have hba : score b ≤ score a := h.1 b hb
        rw [decide_eq_true_eq]
        omega
      simp [hbefore, hat, List.countP_eq_zero.2 hrest]

variable (score) in
theorem ranked_append (pre : List α) (t : α) (post : List α) :
    ∃ first rest, ranked score (pre ++ t :: post) = first ++ t :: rest ∧ first.length = ahead score pre t post := by
  induction pre with
  | nil =>
    refine ⟨_, _, List.insertionSort_cons_eq_take_drop (Before score) t post, ?_⟩
    rw [ahead, List.countP_nil, Nat.zero_add, ← (perm_ranked score post).countP_eq]
    exact length_takeWhile_eq (pairwise_ranked score post)
  | cons x pre ih =>
    obtain ⟨first, rest, heq, hlen⟩ := ih
    have hinsert : ranked score (x :: pre ++ t :: post) =
        (first ++ t :: rest).orderedInsert (Before score) x := by
      rw [← heq]
      rfl
    by_cases hx : score t ≤ score x
    · obtain ⟨first', heq', hlen'⟩ := orderedInsert_append_of_le hx first rest
      refine ⟨first', rest, hinsert.trans heq', ?_⟩
      simp only [hlen', hlen, ahead, List.countP_cons, hx, decide_true, if_true]
      omega
    · have hfirst : ∀ a ∈ first, score t ≤ score a := by
        have hsorted := pairwise_ranked score (pre ++ t :: post)
        rw [heq, List.pairwise_append] at hsorted
        exact fun a ha => hsorted.2.2 a ha t List.mem_cons_self
      obtain ⟨rest', heq'⟩ := orderedInsert_append_of_lt (Nat.not_le.1 hx) hfirst rest
      refine ⟨first, rest', hinsert.trans heq', ?_⟩
      simp [hlen, ahead, hx]

/-- An element is among the first `n` if and only if fewer are ahead of it. -/
theorem mem_take_ranked_iff {pre post : List α} {t : α} (h : (pre ++ t :: post).Nodup) (n : Nat) :
    t ∈ (ranked score (pre ++ t :: post)).take n ↔ ahead score pre t post < n := by
  obtain ⟨first, rest, heq, hlen⟩ := ranked_append score pre t post
  have hnodup : (first ++ t :: rest).Nodup := heq ▸ (perm_ranked score _).nodup_iff.2 h
  have hfirst : t ∉ first := fun ht => (List.nodup_append.1 hnodup).2.2 t ht t List.mem_cons_self rfl
  rw [heq, ← hlen, List.take_append]
  constructor
  · intro ht
    rcases List.mem_append.1 ht with ht | ht
    · exact absurd (List.mem_of_mem_take ht) hfirst
    · by_contra hle
      rw [Nat.sub_eq_zero_of_le (Nat.not_lt.1 hle), List.take_zero] at ht
      cases ht
  · intro hlt
    obtain ⟨k, hk⟩ : ∃ k, n - first.length = k + 1 := ⟨n - first.length - 1, by omega⟩
    rw [hk, List.take_succ_cons]
    exact List.mem_append_right _ List.mem_cons_self

end Ranking
