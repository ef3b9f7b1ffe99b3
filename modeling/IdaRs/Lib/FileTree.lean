import Mathlib.Data.List.Induction
import Mathlib.Logic.Function.Basic

/-!
# Directory trees with symbolic links

A place in the tree is the list of names that leads to it from the root. `walk` resolves the steps of a
path: it follows every link, of which at most `k` may be met, and ends at a place that exists (`found`, with
the links that are left), at a free name in a directory (`absent`) or nowhere (`fail`). `create` puts a file at
a free name; a walk that ended there finds it afterwards, and every other walk that ended still does.
-/

namespace FileTree

universe u

variable {ν : Type u}

/-- A step of a path: stay, go to the parent directory, or go to an entry. -/
inductive Step (ν : Type u)
  | here
  | up
  | name (n : ν)
deriving DecidableEq

/-- A link leads from the root or from the directory it stands in. -/
inductive Entry (ν : Type u)
  | dir
  | file
  | link (absolute : Bool) (steps : List (Step ν))
deriving DecidableEq

/-- Entries stand in directories. -/
structure Tree (ν : Type u) where
  entry : List ν → Option (Entry ν)
  root : entry [] = some .dir
  parent : ∀ l n, entry (l ++ [n]) ≠ none → entry l = some .dir

inductive Res (ν : Type u)
  | found (l : List ν) (k : Nat)
  | absent (l : List ν)
  | fail
deriving DecidableEq

namespace Tree

/-- The steps from `cur`; `follow` is what happens after a link. -/
def go (t : Tree ν) (k : Nat) (follow : List ν → List (Step ν) → Res ν) : List ν → List (Step ν) → Res ν
  | cur, [] => .found cur k
  | cur, step :: rest =>
    match t.entry cur with
    | some .dir =>
      match step with
      | .here => go t k follow cur rest
      | .up => go t k follow cur.dropLast rest
      | .name n =>
        match t.entry (cur ++ [n]) with
        | some (.link absolute steps) => follow (if absolute then [] else cur) (steps ++ rest)
        | some _ => go t k follow (cur ++ [n]) rest
        | none => if rest = [] then .absent (cur ++ [n]) else .fail
    | _ => .fail

/-- Resolves the steps from `cur`, with at most `k` links. -/
def walk (t : Tree ν) : Nat → List ν → List (Step ν) → Res ν
  | 0 => t.go 0 fun _ _ => .fail
  | k + 1 => t.go (k + 1) (walk t k)

/-- What happens after a link. -/
def follow (t : Tree ν) : Nat → List ν → List (Step ν) → Res ν
  | 0 => fun _ _ => .fail
  | k + 1 => t.walk k

variable {t t' : Tree ν} {k k' : Nat} {cur l : List ν} {steps a b : List (Step ν)} {n : ν}

theorem walk_eq_go : t.walk k = t.go k (t.follow k) := by cases k <;> rfl

/-! ### The steps of a walk -/

theorem walk_nil : t.walk k cur [] = .found cur k := by rw [walk_eq_go, go]

theorem walk_here (h : t.entry cur = some .dir) : t.walk k cur (.here :: steps) = t.walk k cur steps := by
  rw [walk_eq_go, go, h]

theorem walk_up (h : t.entry cur = some .dir) : t.walk k cur (.up :: steps) = t.walk k cur.dropLast steps := by
  rw [walk_eq_go, go, h]

theorem walk_name (h : t.entry cur = some .dir) :
    t.walk k cur (.name n :: steps) =
      match t.entry (cur ++ [n]) with
      | some (.link absolute target) => t.follow k (if absolute then [] else cur) (target ++ steps)
      | some _ => t.walk k (cur ++ [n]) steps
      | none => if steps = [] then .absent (cur ++ [n]) else .fail := by
  rw [walk_eq_go, go, h]

theorem walk_not_dir (h : t.entry cur ≠ some .dir) (s : Step ν) : t.walk k cur (s :: steps) = .fail := by
  rw [walk_eq_go]
  unfold go
  split
  · exact absurd ‹_› h
  · rfl

/-- The induction of a walk: over the links that are left, and then over the steps. -/
theorem walk_induction {P : Nat → List ν → List (Step ν) → Prop}
    (nil : ∀ k cur, P k cur [])
    (fail : ∀ k cur s steps, t.entry cur ≠ some .dir → P k cur (s :: steps))
    (here : ∀ k cur steps, t.entry cur = some .dir → P k cur steps → P k cur (.here :: steps))
    (up : ∀ k cur steps, t.entry cur = some .dir → P k cur.dropLast steps → P k cur (.up :: steps))
    (name : ∀ k cur n steps, t.entry cur = some .dir → P k (cur ++ [n]) steps →
      (∀ absolute target, t.entry (cur ++ [n]) = some (.link absolute target) →
        ∀ j, k = j + 1 → P j (if absolute then [] else cur) (target ++ steps)) → P k cur (.name n :: steps))
    (k : Nat) (cur : List ν) (steps : List (Step ν)) : P k cur steps := by
  induction k generalizing cur steps with
  | zero =>
    induction steps generalizing cur with
    | nil => exact nil _ _
    | cons s steps ih =>
      by_cases h : t.entry cur = some .dir
      · cases s with
        | here => exact here _ _ _ h (ih _)
        | up => exact up _ _ _ h (ih _)
        | name n => exact name _ _ _ _ h (ih _) fun _ _ _ j hj => by omega
      · exact fail _ _ _ _ h
  | succ k ihk =>
    induction steps generalizing cur with
    | nil => exact nil _ _
    | cons s steps ih =>
      by_cases h : t.entry cur = some .dir
      · cases s with
        | here => exact here _ _ _ h (ih _)
        | up => exact up _ _ _ h (ih _)
        | name n =>
          refine name _ _ _ _ h (ih _) fun absolute target _ j hj => ?_
          obtain rfl : k = j := by omega
          exact ihk _ _
      · exact fail _ _ _ _ h

/-- The rest of a walk after its first part. -/
def Res.andThen (t : Tree ν) (b : List (Step ν)) : Res ν → Res ν
  | .found l k => t.walk k l b
  | .absent l => if b = [] then .absent l else .fail
  | .fail => .fail

theorem walk_append : t.walk k cur (a ++ b) = Res.andThen t b (t.walk k cur a) := by
  induction k, cur, a using walk_induction (t := t) with
  | nil k cur => rw [walk_nil, Res.andThen, List.nil_append]
  | fail k cur s steps h => rw [List.cons_append, walk_not_dir h, walk_not_dir h, Res.andThen]
  | here k cur steps h ih => rw [List.cons_append, walk_here h, walk_here h, ih]
  | up k cur steps h ih => rw [List.cons_append, walk_up h, walk_up h, ih]
  | name k cur n steps h ih ihl =>
    rw [List.cons_append, walk_name h, walk_name h]
    split
    · rename_i absolute target hl
      cases k with
      | zero => rfl
      | succ k =>
        rw [follow, ← List.append_assoc]
        exact ihl absolute target hl k rfl
    · exact ih
    · by_cases hs : steps = []
      · subst hs
        rw [if_pos rfl, List.nil_append, Res.andThen]
      · rw [if_neg hs, if_neg (by simp [hs]), Res.andThen]

theorem entry_dropLast (h : t.entry cur ≠ none) : t.entry cur.dropLast ≠ none := by
  induction cur using List.reverseRecOn with
  | nil => exact h
  | append_singleton l n =>
    rw [List.dropLast_concat, t.parent l n h]
    nofun

/-- A walk that starts at something ends at something. -/
theorem walk_found (h : t.walk k cur steps = .found l k') (hcur : t.entry cur ≠ none) : t.entry l ≠ none := by
  induction k, cur, steps using walk_induction (t := t) with
  | nil k cur =>
    rw [walk_nil] at h
    cases h
    exact hcur
  | fail k cur s steps hd => rw [walk_not_dir hd] at h; cases h
  | here k cur steps hd ih => exact ih (walk_here hd ▸ h) hcur
  | up k cur steps hd ih => exact ih (walk_up hd ▸ h) (entry_dropLast hcur)
  | name k cur n steps hd ih ihl =>
    rw [walk_name hd] at h
    split at h
    · rename_i absolute target hl
      cases k with
      | zero => cases h
      | succ k =>
        refine ihl absolute target hl k rfl h ?_
        split
        · rw [t.root]; nofun
        · exact hcur
    · rename_i x _ hx
      exact ih h (by rw [hx]; nofun)
    · split at h <;> cases h

/-- The names of a place lead to it from the root. -/
theorem walk_names {x : Entry ν} (h : t.entry l = some x) (hx : ∀ absolute target, x ≠ .link absolute target) :
    t.walk k [] (l.map .name) = .found l k := by
  induction l using List.reverseRecOn generalizing x with
  | nil => exact walk_nil
  | append_singleton l n ih =>
    have hd := t.parent l n (by rw [h]; nofun)
    rw [List.map_append, walk_append, ih hd nofun, List.map_singleton, Res.andThen, walk_name hd, h]
    cases x with
    | link absolute target => exact absurd rfl (hx absolute target)
    | dir => exact walk_nil
    | file => exact walk_nil

/-! ### Creating a file -/

/-- `t'` is `t` with a new file at `l ++ [n]`. -/
def create [DecidableEq ν] (t : Tree ν) (l : List ν) (n : ν) (hdir : t.entry l = some .dir)
    (hfree : t.entry (l ++ [n]) = none) : Tree ν where
  entry := Function.update t.entry (l ++ [n]) (some .file)
  root := by rw [Function.update_of_ne (by simp), t.root]
  parent := by
    intro l' n' h
    have hold : t.entry l' = some .dir := by
      by_cases heq : l' ++ [n'] = l ++ [n]
      · obtain ⟨rfl, -⟩ := List.append_inj' heq rfl
        exact hdir
      · rw [Function.update_of_ne heq] at h
        exact t.parent l' n' h
    rw [Function.update_of_ne (fun heq => by rw [heq, hfree] at hold; cases hold), hold]

/-- A walk that ends at a free name: the name stands in a directory and nothing stands there. -/
theorem walk_absent (h : t.walk k cur steps = .absent l) :
    ∃ d n, l = d ++ [n] ∧ t.entry d = some .dir ∧ t.entry l = none := by
  induction k, cur, steps using walk_induction (t := t) with
  | nil k cur => rw [walk_nil] at h; cases h
  | fail k cur s steps hd => rw [walk_not_dir hd] at h; cases h
  | here k cur steps hd ih => exact ih (walk_here hd ▸ h)
  | up k cur steps hd ih => exact ih (walk_up hd ▸ h)
  | name k cur n steps hd ih ihl =>
    rw [walk_name hd] at h
    split at h
    · rename_i absolute target hl
      cases k with
      | zero => cases h
      | succ k => exact ihl absolute target hl k rfl h
    · exact ih h
    · rename_i hnone
      split at h
      · obtain rfl := Res.absent.inj h
        exact ⟨cur, n, rfl, hd, hnone⟩
      · cases h

section Create

variable [DecidableEq ν] (hdir : t.entry l = some .dir) (hfree : t.entry (l ++ [n]) = none)

theorem create_entry_of_some {d : List ν} {x : Entry ν} (h : t.entry d = some x) :
    (t.create l n hdir hfree).entry d = some x := by
  have hne : d ≠ l ++ [n] := by
    rintro rfl
    rw [hfree] at h
    cases h
  exact (Function.update_of_ne hne _ _).trans h

theorem create_entry_self : (t.create l n hdir hfree).entry (l ++ [n]) = some .file := Function.update_self ..

/-- A walk that ended at some place still does, and one that ended at the new name finds the file. -/
theorem walk_create (d : List ν)
    (h : (∃ k', t.walk k cur steps = .found d k') ∨ t.walk k cur steps = .absent d ∧ d = l ++ [n]) :
    ∃ k', (t.create l n hdir hfree).walk k cur steps = .found d k' ∧
      ∀ k'', t.walk k cur steps = .found d k'' → k' = k'' := by
  induction k, cur, steps using walk_induction (t := t) with
  | nil k cur =>
    rw [walk_nil] at h ⊢
    rcases h with ⟨k', h⟩ | ⟨h, -⟩
    · rw [walk_nil]
      exact ⟨k', h, fun k'' h' => by rw [h] at h'; cases h'; rfl⟩
    · cases h
  | fail k cur s steps hd =>
    rw [walk_not_dir hd] at h
    rcases h with ⟨k', h⟩ | ⟨h, -⟩ <;> cases h
  | here k cur steps hd ih =>
    rw [walk_here hd] at h ⊢
    rw [walk_here (create_entry_of_some hdir hfree hd)]
    exact ih h
  | up k cur steps hd ih =>
    rw [walk_up hd] at h ⊢
    rw [walk_up (create_entry_of_some hdir hfree hd)]
    exact ih h
  | name k cur m steps hd ih ihl =>
    rw [walk_name hd] at h ⊢
    rw [walk_name (create_entry_of_some hdir hfree hd)]
    cases hm : t.entry (cur ++ [m]) with
    | none =>
      rw [hm] at h
      by_cases hs : steps = []
      · subst hs
        rcases h with ⟨k', h⟩ | ⟨h, hd'⟩
        · cases h
        · obtain rfl := Res.absent.inj h
          rw [hd', create_entry_self hdir hfree]
          exact ⟨k, walk_nil, fun k'' h' => by simp at h'⟩
      · simp only [if_neg hs] at h
        rcases h with ⟨k', h⟩ | ⟨h, -⟩ <;> cases h
    | some x =>
      rw [hm] at h
      rw [create_entry_of_some hdir hfree hm]
      cases x with
      | dir => exact ih h
      | file => exact ih h
      | link absolute target =>
        cases k with
        | zero => rcases h with ⟨k', h⟩ | ⟨h, -⟩ <;> cases h
        | succ k => exact ihl absolute target hm k rfl h

end Create

end Tree

end FileTree
