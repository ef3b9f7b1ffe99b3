import Mathlib.Data.List.Chain
import Mathlib.Data.List.Infix
import Mathlib.Data.List.Nodup

/-!
# Listing the simple paths between two nodes

`paths` lists, in the order of a depth-first search, the ways on from `cur` after the nodes `pre` were walked, with
at most `k` further nodes. `mem_paths`: they are the simple paths that avoid `pre`, and `paths_nodup`: none is listed
twice when no successor is.
-/

namespace SimplePaths

universe u

variable {α : Type u} {succ : α → List α} {stop cur next a b : α} {pre p q : List α} {k : Nat}

/-- A path from `a` to `b` along `succ` without a repeated node. -/
structure SimplePath (succ : α → List α) (a b : α) (p : List α) : Prop where
  head : p.head? = some a
  last : p.getLast? = some b
  chain : p.IsChain fun x y => y ∈ succ x
  nodup : p.Nodup

theorem SimplePath.eq_cons (h : SimplePath succ a b p) : ∃ q, p = a :: q := by
  have hhead := h.head
  cases p with
  | nil => cases hhead
  | cons x q =>
    obtain rfl : x = a := Option.some.inj hhead
    exact ⟨q, rfl⟩

/-- A path from a node to itself is that node. -/
theorem SimplePath.eq_singleton (h : SimplePath succ a a p) : p = [a] := by
  obtain ⟨q, rfl⟩ := h.eq_cons
  cases q with
  | nil => rfl
  | cons x q =>
    have hlast : (x :: q).getLast? = some a := by
      rw [← h.last, List.getLast?_cons_cons]
    exact absurd (List.mem_of_getLast? hlast) (List.nodup_cons.1 h.nodup).1

theorem simplePath_singleton : SimplePath succ a a [a] := ⟨rfl, rfl, List.isChain_singleton a, List.nodup_singleton a⟩

theorem simplePath_cons (hab : a ≠ b) :
    SimplePath succ a b (a :: q) ↔ ∃ x ∈ succ a, SimplePath succ x b q ∧ a ∉ q := by
  constructor
  · intro h
    cases q with
    | nil => exact absurd (Option.some.inj h.last) hab
    | cons x q =>
      obtain ⟨hx, hchain⟩ := List.isChain_cons_cons.1 h.chain
      obtain ⟨hnot, hnd⟩ := List.nodup_cons.1 h.nodup
      have hlast : (x :: q).getLast? = some b := by
        rw [← h.last, List.getLast?_cons_cons]
      exact ⟨x, hx, ⟨rfl, hlast, hchain, hnd⟩, hnot⟩
  · rintro ⟨x, hx, h, hnot⟩
    obtain ⟨q, rfl⟩ := h.eq_cons
    refine ⟨rfl, ?_, List.isChain_cons_cons.2 ⟨hx, h.chain⟩, List.nodup_cons.2 ⟨hnot, h.nodup⟩⟩
    rw [List.getLast?_cons_cons]
    exact h.last

/-- A simple path meets its end only there. -/
theorem SimplePath.not_mem_dropLast (h : SimplePath succ a b p) : b ∉ p.dropLast := by
  have hsplit : p = p.dropLast ++ [b] := (List.dropLast_append_getLast? b h.last).symm
  have hnd := h.nodup
  rw [hsplit] at hnd
  intro hb
  exact (List.nodup_append.1 hnd).2.2 b hb b (List.mem_singleton_self b) rfl

variable [DecidableEq α]

def paths (succ : α → List α) (stop : α) : Nat → α → List α → List (List α)
  | 0, _, _ => []
  | k + 1, cur, pre =>
    if cur = stop then [pre ++ [cur]]
    else ((succ cur).filter (· ∉ pre ++ [cur])).flatMap fun next => paths succ stop k next (pre ++ [cur])

theorem mem_paths (h : cur ∉ pre) :
    p ∈ paths succ stop k cur pre ↔
      ∃ q, p = pre ++ q ∧ SimplePath succ cur stop q ∧ q.length ≤ k ∧ ∀ x ∈ q, x ∉ pre := by
  induction k generalizing cur pre with
  | zero =>
    simp only [paths, List.not_mem_nil, false_iff, not_exists, not_and]
    rintro q - hq hlen
    obtain ⟨q, rfl⟩ := hq.eq_cons
    simp at hlen
  | succ k ih =>
    rw [paths]
    by_cases hstop : cur = stop
    · subst hstop
      rw [if_pos rfl, List.mem_singleton]
      constructor
      · rintro rfl
        refine ⟨[cur], rfl, simplePath_singleton, by simp, ?_⟩
        intro x hx
        rw [List.mem_singleton.1 hx]
        exact h
      · rintro ⟨q, rfl, hq, -⟩
        rw [hq.eq_singleton]
    · rw [if_neg hstop, List.mem_flatMap]
      constructor
      · rintro ⟨next, hnext, hp⟩
        obtain ⟨hsucc, hnew⟩ := List.mem_filter.1 hnext
        obtain ⟨q, rfl, hq, hlen, havoid⟩ := (ih (of_decide_eq_true hnew)).1 hp
        have hcur : cur ∉ q := fun hc => havoid cur hc (by simp)
        refine ⟨cur :: q, by simp, (simplePath_cons hstop).2 ⟨next, hsucc, hq, hcur⟩, by simpa using hlen, ?_⟩
        intro x hx
        rcases List.mem_cons.1 hx with rfl | hx
        · exact h
        · exact fun hpre => havoid x hx (List.mem_append_left _ hpre)
      · rintro ⟨q, rfl, hq, hlen, havoid⟩
        obtain ⟨q, rfl⟩ := hq.eq_cons
        obtain ⟨next, hsucc, hq, hcur⟩ := (simplePath_cons hstop).1 hq
        have hrest : ∀ x ∈ q, x ∉ pre ++ [cur] := by
          intro x hx hin
          rcases List.mem_append.1 hin with hin | hin
          · exact havoid x (List.mem_cons_of_mem _ hx) hin
          · exact hcur (List.mem_singleton.1 hin ▸ hx)
        have hnew : next ∉ pre ++ [cur] := by
          obtain ⟨r, rfl⟩ := hq.eq_cons
          exact hrest next (List.mem_cons_self ..)
        refine ⟨next, List.mem_filter.2 ⟨hsucc, decide_eq_true hnew⟩, (ih hnew).2 ?_⟩
        exact ⟨q, by simp, hq, by simpa using hlen, hrest⟩

/-- Every listed path begins with the nodes walked so far and `cur`. -/
theorem prefix_of_mem_paths (h : p ∈ paths succ stop k cur pre) : pre ++ [cur] <+: p := by
  induction k generalizing cur pre with
  | zero => cases h
  | succ k ih =>
    rw [paths] at h
    split at h
    · rw [List.mem_singleton.1 h]
    · obtain ⟨next, -, hp⟩ := List.mem_flatMap.1 h
      exact (List.prefix_append _ _).trans (ih hp)

theorem paths_nodup (hs : ∀ x, (succ x).Nodup) : (paths succ stop k cur pre).Nodup := by
  induction k generalizing cur pre with
  | zero => exact List.nodup_nil
  | succ k ih =>
    rw [paths]
    split
    · exact List.nodup_singleton _
    · refine List.nodup_flatMap.2 ⟨fun next _ => ih, ((hs cur).filter _).imp ?_⟩
      intro x y hxy p hx hy
      have hlen : (pre ++ [cur] ++ [x]).length = (pre ++ [cur] ++ [y]).length := by simp
      have heq := List.prefix_of_prefix_length_le (prefix_of_mem_paths hx) (prefix_of_mem_paths hy) hlen.le
      exact hxy (by simpa using heq.eq_of_length hlen)

end SimplePaths
