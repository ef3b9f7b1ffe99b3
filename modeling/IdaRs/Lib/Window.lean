import Mathlib.Data.List.Basic
import Mathlib.Data.Set.Card

/-!
# Windows of a list and clients that follow them

`window` and `nextOffset` are the page of a list at an offset and the offset of the next page. A list may be read by a
loop that counts what it passes (`scan`), by one that skips and then stops (`skipScan`) or along a linked chain
(`walk`); each sees the same window. `fetch` follows the next offsets: it sees the whole list, once and in order.

A list that may not end is given by what its states show and which follow; `element` is its `k`-th element, `slice` a
window of it and `unroll` its beginning.
-/

namespace Window

universe u v

variable {α : Type u} {β : Type v}

def window (l : List α) (offset limit : Nat) : List α := (l.drop offset).take limit

/-- The offset behind the window, if elements remain there. -/
def nextOffset (l : List α) (offset limit : Nat) : Option Nat :=
  let next := offset + (window l offset limit).length
  if next < l.length then some next else none

theorem length_window (l : List α) (offset limit : Nat) :
    (window l offset limit).length = min limit (l.length - offset) := by
  rw [window, List.length_take, List.length_drop]

/-- In a list that is in order, the beginning of it is what fewer elements come before. -/
theorem mem_take_iff_ncard {before : α → α → Prop} (hasymm : ∀ a b, before a b → ¬ before b a) {l : List α}
    (hl : l.Pairwise before) {k : Nat} {a : α} : a ∈ l.take k ↔ a ∈ l ∧ {b | b ∈ l ∧ before b a}.ncard < k := by
  have hirrefl : ∀ a, ¬ before a a := fun a h => hasymm a a h h
  induction l generalizing k with
  | nil => simp
  | cons x xs ih =>
    obtain ⟨hx, hxs⟩ := List.pairwise_cons.1 hl
    rcases k with - | k
    · simp
    have hrest : a ∈ xs.take k ↔ _ := ih hxs
    rw [List.take_succ_cons, List.mem_cons, List.mem_cons, hrest]
    by_cases hax : a = x
    · subst hax
      have hnone : {b | b ∈ a :: xs ∧ before b a} = ∅ := by
        refine Set.eq_empty_of_forall_notMem fun b hb => ?_
        rcases List.mem_cons.1 hb.1 with rfl | hbxs
        · exact hirrefl b hb.2
        · exact hasymm a b (hx b hbxs) hb.2
      rw [hnone, Set.ncard_empty]
      exact iff_of_true (.inl rfl) ⟨.inl rfl, Nat.succ_pos k⟩
    · simp only [hax, false_or]
      refine and_congr_right fun ha => ?_
      have hinsert : {b | b ∈ x :: xs ∧ before b a} = insert x {b | b ∈ xs ∧ before b a} := by
        ext b
        simp only [Set.mem_ofPred_eq, List.mem_cons, Set.mem_insert_iff]
        constructor
        · rintro ⟨rfl | hb, hba⟩
          · exact .inl rfl
          · exact .inr ⟨hb, hba⟩
        · rintro (rfl | ⟨hb, hba⟩)
          · exact ⟨.inl rfl, hx a ha⟩
          · exact ⟨.inr hb, hba⟩
      have hnotMem : x ∉ {b | b ∈ xs ∧ before b a} := fun h => hirrefl x (hx x h.1)
      have hfinite : {b | b ∈ xs ∧ before b a}.Finite := xs.finite_toSet.subset fun b hb => hb.1
      rw [hinsert, Set.ncard_insert_of_notMem hnotMem hfinite, Nat.add_lt_add_iff_right]

theorem window_map (f : α → β) (l : List α) (offset limit : Nat) :
    window (l.map f) offset limit = (window l offset limit).map f := by
  rw [window, window, List.map_take, List.map_drop]

theorem nextOffset_map (f : α → β) (l : List α) (offset limit : Nat) :
    nextOffset (l.map f) offset limit = nextOffset l offset limit := by
  simp only [nextOffset, window_map, List.length_map]

/-- A next offset is past the one that was asked for, unless the window is empty for want of room. -/
theorem nextOffset_eq_some {l : List α} {offset limit next : Nat} :
    nextOffset l offset limit = some next ↔ next = offset + limit ∧ offset + limit < l.length := by
  rw [nextOffset, length_window]
  split
  · rename_i h
    rw [Option.some.injEq]
    omega
  · rename_i h
    simp only [reduceCtorEq, false_iff]
    omega

/-! ### Loops -/

/-- The loop that counts: elements that are not kept are passed over, the first `offset` kept ones are counted, and once
the page is full the rest is counted. -/
def scan (keep : α → Bool) (row : α → β) (offset limit : Nat) : List α → Nat → List β → Nat × List β
  | [], total, page => (total, page)
  | a :: as, total, page =>
    if !keep a then scan keep row offset limit as total page
    else
      let total := total + 1
      if total ≤ offset then scan keep row offset limit as total page
      else if limit ≤ page.length then scan keep row offset limit as total page
      else scan keep row offset limit as total (page ++ [row a])

theorem scan_eq (keep : α → Bool) (row : α → β) (offset limit : Nat) (as : List α) (total : Nat) (page : List β) :
    scan keep row offset limit as total page =
      (total + (as.filter keep).length,
        page ++ (window ((as.filter keep).map row) (offset - total) (limit - page.length))) := by
  induction as generalizing total page with
  | nil => simp [scan, window]
  | cons a as ih =>
    rw [scan]
    by_cases hk : keep a = true
    · rw [List.filter_cons_of_pos hk, List.map_cons, List.length_cons, if_neg (by simp [hk])]
      dsimp only
      split
      · rename_i hskip
        obtain ⟨k, hk⟩ : ∃ k, offset - total = k + 1 := ⟨offset - total - 1, by omega⟩
        have hk' : offset - (total + 1) = k := by omega
        rw [ih, hk', hk, window, window, List.drop_succ_cons]
        congr 1
        omega
      · rename_i hskip
        have h0 : offset - total = 0 := by omega
        have h1 : offset - (total + 1) = 0 := by omega
        split
        · rename_i hfull
          have hroom : limit - page.length = 0 := by omega
          rw [ih, hroom, window, window, List.take_zero, List.take_zero]
          congr 1
          omega
        · rename_i hroom
          obtain ⟨k, hk⟩ : ∃ k, limit - page.length = k + 1 := ⟨limit - page.length - 1, by omega⟩
          have hk' : limit - (page ++ [row a]).length = k := by
            rw [List.length_append, List.length_singleton]
            omega
          rw [ih, h0, h1, hk', hk, window, window, List.drop_zero, List.drop_zero, List.take_succ_cons,
            List.append_assoc]
          congr 1
          omega
    · rw [List.filter_cons_of_neg hk, if_pos (by simp [hk]), ih]

/-- The loop that skips `offset` elements, counting them in `count`, and stops when the page is full. -/
def skipScan (row : Nat → α → β) (offset limit : Nat) : List α → Nat → List β → List β
  | [], _, page => page
  | a :: as, count, page =>
    if count < offset then skipScan row offset limit as (count + 1) page
    else if limit ≤ page.length then page
    else skipScan row offset limit as (count + 1) (page ++ [row count a])

theorem skipScan_eq (row : Nat → α → β) (offset limit : Nat) (as : List α) (count : Nat) (page : List β) :
    skipScan row offset limit as count page =
      page ++ window ((as.zipIdx count).map fun p => row p.2 p.1) (offset - count) (limit - page.length) := by
  induction as generalizing count page with
  | nil => simp [skipScan, window]
  | cons a as ih =>
    rw [skipScan, List.zipIdx_cons, List.map_cons]
    split
    · rename_i hskip
      obtain ⟨k, hk⟩ : ∃ k, offset - count = k + 1 := ⟨offset - count - 1, by omega⟩
      have hk' : offset - (count + 1) = k := by omega
      rw [ih, hk', hk, window, window, List.drop_succ_cons]
    · rename_i hskip
      have h0 : offset - count = 0 := by omega
      have h1 : offset - (count + 1) = 0 := by omega
      split
      · rename_i hfull
        have hroom : limit - page.length = 0 := by omega
        rw [hroom, window, List.take_zero, List.append_nil]
      · rename_i hroom
        obtain ⟨k, hk⟩ : ∃ k, limit - page.length = k + 1 := ⟨limit - page.length - 1, by omega⟩
        have hk' : limit - (page ++ [row count a]).length = k := by
          rw [List.length_append, List.length_singleton]
          omega
        rw [ih, h0, h1, hk', hk, window, window, List.drop_zero, List.drop_zero, List.take_succ_cons, List.append_assoc]
        rfl

/-- A page that is not full has room for one more. -/
theorem length_snoc_le {limit : Nat} (items : {items : List α // items.length ≤ limit}) (item : α)
    (h : ¬items.1.length = limit) : (items.1 ++ [item]).length ≤ limit := by
  rw [List.length_append, List.length_singleton]
  have := items.2
  omega

/-- The walk along a chain: `advance` yields the next link. -/
def walk (advance : α → Option α) (offset limit : Nat) (current : Option α) (skipped : Nat)
    (items : {items : List α // items.length ≤ limit}) : List α × Bool :=
  match current with
  | none => (items.1, false)
  | some item =>
    if skipped < offset then walk advance offset limit (advance item) (skipped + 1) items
    else if h : items.1.length = limit then (items.1, true)
    else
      walk advance offset limit (advance item) skipped
        ⟨items.1 ++ [item], length_snoc_le items item h⟩
termination_by (offset - skipped) + (limit - items.1.length)
decreasing_by
  · omega
  · rw [List.length_append, List.length_singleton]
    have := items.2
    omega

/-- A place in a list: the element there and those after it. -/
def cursor : List α → Option (α × List α)
  | [] => none
  | a :: as => some (a, as)

theorem walk_eq (offset limit : Nat) (l : List α) (skipped : Nat)
    (items : {items : List (α × List α) // items.length ≤ limit}) :
    let r := walk (fun p => cursor p.2) offset limit (cursor l) skipped items
    r.1.map Prod.fst = items.1.map Prod.fst ++ window l (offset - skipped) (limit - items.1.length) ∧
      r.2 = decide (limit - items.1.length < l.length - (offset - skipped)) := by
  induction l generalizing skipped items with
  | nil =>
    rw [cursor, walk]
    simp [window]
  | cons a as ih =>
    rw [cursor, walk]
    dsimp only
    have hle := items.2
    split
    · rename_i hskip
      obtain ⟨k, hk⟩ : ∃ k, offset - skipped = k + 1 := ⟨offset - skipped - 1, by omega⟩
      have hk' : offset - (skipped + 1) = k := by omega
      obtain ⟨hitems, hmore⟩ := ih (skipped + 1) items
      rw [hitems, hmore, hk', hk, window, window, List.drop_succ_cons, List.length_cons]
      refine ⟨rfl, decide_eq_decide.2 ?_⟩
      omega
    · rename_i hskip
      have h0 : offset - skipped = 0 := by omega
      split
      · rename_i hfull
        have hroom : limit - items.1.length = 0 := by omega
        rw [hroom, h0, window, List.take_zero, List.append_nil]
        exact ⟨rfl, by simp⟩
      · rename_i hfull
        obtain ⟨k, hk⟩ : ∃ k, limit - items.1.length = k + 1 := ⟨limit - items.1.length - 1, by omega⟩
        have hk' : limit - (items.1 ++ [(a, as)]).length = k := by
          rw [List.length_append, List.length_singleton]
          omega
        obtain ⟨hitems, hmore⟩ := ih skipped ⟨items.1 ++ [(a, as)], by
          rw [List.length_append, List.length_singleton]; omega⟩
        rw [hitems, hmore]
        simp only [h0, hk', hk, window, List.drop_zero, List.take_succ_cons, List.map_append, List.map_cons,
          List.map_nil, List.append_assoc, List.cons_append, List.nil_append, List.length_cons, decide_eq_decide,
          true_and]
        omega

/-! ### Following the pages -/

/-- The pages from `offset` on, for at most `fuel` of them; a page is its elements and the next offset. -/
def fetch (page : Nat → Option (List α × Option Nat)) : Nat → Nat → Option (List α)
  | 0, _ => none
  | fuel + 1, offset => do
    let (found, next) ← page offset
    match next with
    | none => some found
    | some offset => return found ++ (← fetch page fuel offset)

/-- A client that asks for pages of at least one element sees the list. -/
theorem fetch_eq {page : Nat → Option (List α × Option Nat)} {l : List α} {limit : Nat} (hlimit : 1 ≤ limit)
    (hpage : ∀ offset, page offset = some (window l offset limit, nextOffset l offset limit)) {fuel offset : Nat}
    (hoffset : offset ≤ l.length) (hfuel : l.length - offset < fuel) :
    fetch page fuel offset = some (l.drop offset) := by
  induction fuel generalizing offset with
  | zero => omega
  | succ fuel ih =>
    rw [fetch, hpage]
    simp only [bind, Option.bind]
    cases hnext : nextOffset l offset limit with
    | none =>
      have hshort : (l.drop offset).length ≤ limit := by
        by_contra hlong
        rw [List.length_drop] at hlong
        have hsome := nextOffset_eq_some.2 ⟨rfl, show offset + limit < l.length by omega⟩
        rw [hsome] at hnext
        cases hnext
      simp only [window, List.take_of_length_le hshort]
    | some next =>
      obtain ⟨rfl, hlt⟩ := nextOffset_eq_some.1 hnext
      have hrest : fetch page fuel (offset + limit) = some (l.drop (offset + limit)) :=
        ih (Nat.le_of_lt hlt) (by omega)
      simp only [hrest, pure, window]
      rw [← List.drop_drop, List.take_append_drop]

/-! ### Lists that may not end -/

section

variable (show? : α → Option β) (next : α → Option α)

/-- The element at a place of the list that begins at a state. It ends at a state that shows nothing or has no next. -/
def element : Nat → α → Option β
  | 0, a => show? a
  | k + 1, a => (show? a).bind fun _ => (next a).bind (element k)

/-- At most `n` elements, one after the other. -/
def unroll : Nat → α → List β
  | 0, _ => []
  | n + 1, a =>
    match show? a with
    | none => []
    | some b => b :: ((next a).map (unroll n)).getD []

end

/-- The elements at the places from `offset` to `offset + count`. -/
def slice (f : Nat → Option β) (offset count : Nat) : List β := (List.range' offset count).filterMap f

theorem slice_add (f : Nat → Option β) (offset m n : Nat) :
    slice f offset (m + n) = slice f offset m ++ slice f (offset + m) n := by
  rw [slice, slice, slice, ← List.filterMap_append, List.range'_append_1]

theorem slice_succ (f : Nat → Option β) (offset count : Nat) :
    slice f (offset + 1) count = slice (fun k => f (k + 1)) offset count := by
  rw [slice, slice, Nat.add_comm, ← List.map_add_range', List.filterMap_map]
  congr 1
  funext k
  rw [Function.comp_apply, Nat.add_comm]

theorem slice_zero_succ (f : Nat → Option β) (count : Nat) :
    slice f 0 (count + 1) = (f 0).toList ++ slice (fun k => f (k + 1)) 0 count := by
  rw [← slice_succ, Nat.add_comm, slice_add, Nat.zero_add, List.append_left_inj]
  cases h : f 0 with
  | none => simp [slice, h]
  | some b => simp [slice, h]

theorem slice_none {f : Nat → Option β} (h : ∀ k, f k = none) (offset count : Nat) : slice f offset count = [] := by
  rw [slice, List.filterMap_eq_nil_iff]
  exact fun k _ => h k

section

variable {show? : α → Option β} {next : α → Option α} {a : α}

theorem element_of_show?_none (h : show? a = none) (k : Nat) : element show? next k a = none := by
  cases k with
  | zero => exact h
  | succ k => rw [element, h, Option.bind_none]

theorem element_of_next_none (h : next a = none) (k : Nat) : element show? next (k + 1) a = none := by
  rw [element, h]
  cases show? a with
  | none => rfl
  | some b => rfl

theorem element_succ {b : β} {a' : α} (hs : show? a = some b) (hn : next a = some a') (k : Nat) :
    element show? next (k + 1) a = element show? next k a' := by
  rw [element, hs, hn, Option.bind_some, Option.bind_some]

theorem unroll_eq (n : Nat) (a : α) : unroll show? next n a = slice (fun k => element show? next k a) 0 n := by
  induction n generalizing a with
  | zero => rfl
  | succ n ih =>
    rw [unroll, slice_zero_succ]
    cases hs : show? a with
    | none => simp only [element_of_show?_none hs, Option.toList_none, List.nil_append, slice_none fun _ => rfl]
    | some b =>
      have hb : element show? next 0 a = some b := hs
      rw [hb]
      cases hn : next a with
      | none => simp only [element_of_next_none hn, slice_none fun _ => rfl, Option.map_none, Option.getD_none,
          Option.toList_some, List.append_nil]
      | some a' => simp only [element_succ hs hn, Option.map_some, Option.getD_some, ih, Option.toList_some,
          List.singleton_append]

/-- The beginning may be cut at any place. -/
theorem drop_unroll (offset count : Nat) (a : α) :
    (unroll show? next (offset + count) a).drop offset = slice (fun k => element show? next k a) offset count := by
  induction offset generalizing a with
  | zero => rw [Nat.zero_add, List.drop_zero, unroll_eq]
  | succ offset ih =>
    rw [Nat.add_right_comm, unroll, slice_succ]
    cases hs : show? a with
    | none => simp only [element_of_show?_none hs, List.drop_nil, slice_none fun _ => rfl]
    | some b =>
      dsimp only
      rw [List.drop_succ_cons]
      cases hn : next a with
      | none => simp only [element_of_next_none hn, slice_none fun _ => rfl, Option.map_none, Option.getD_none,
          List.drop_nil]
      | some a' => simp only [element_succ hs hn, Option.map_some, Option.getD_some, ih]

end

end Window
