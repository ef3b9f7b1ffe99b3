import IdaRs.Idb
import IdaRs.Lib.Fills
import IdaRs.Lib.SimplePaths
import Mathlib.Data.List.FinRange

/-!
# Paths through a function (`src/ida/handlers/controlflow.rs` 206-311)

`dfs` works on one path and one list of results: it pushes a block, goes on to its successors and pops the block
again. `fuel` bounds how deep the calls may nest; `none` is a search that did not come back. `dfs_eq`: with fuel for
one call more than there may be blocks on a path, the path comes back as it was, and the results have grown by the simple
paths of `IdaRs.Lib.SimplePaths` as far as there was room.
-/

namespace IdaRs

namespace Handlers

open SimplePaths

section

variable (blocks : List BasicBlock)

/-- `index_by_start`: of several blocks with one start, the last. -/
def indexByStart (a : Address) : Option (Fin blocks.length) :=
  (List.finRange blocks.length).reverse.find? fun i => (blocks.get i).start = a

/-- `format!("{:#x}", blocks[idx].start_address())`. -/
def startText (i : Fin blocks.length) : String := fmtAddr (blocks.get i).start

variable (stop : Fin blocks.length) (maxDepth maxPaths : Nat)

/-- The path and the results. -/
abbrev Walk := List (Fin blocks.length) × List (List String)

/-- The loop over the successors of a block; `visit` is the call for one of them. -/
def eachSucc (visit : Fin blocks.length → Walk blocks → Option (Walk blocks)) :
    List Address → Walk blocks → Option (Walk blocks)
  | [], w => some w
  | a :: as, w =>
    match indexByStart blocks a with
    | none => eachSucc visit as w
    | some next =>
      if next ∈ w.1 then eachSucc visit as w
      else do
        let w ← visit next w
        if maxPaths ≤ w.2.length then some w else eachSucc visit as w

def dfs : Nat → Fin blocks.length → Walk blocks → Option (Walk blocks)
  | 0, _, _ => none
  | fuel + 1, cur, (path, results) =>
    if maxPaths ≤ results.length then some (path, results)
    else if maxDepth < path.length then some (path, results)
    else
      let path := path ++ [cur]
      if cur = stop then some (path.dropLast, results ++ [path.map (startText blocks)])
      else do
        let (path, results) ← eachSucc blocks maxPaths (dfs fuel) (blocks.get cur).succs (path, results)
        some (path.dropLast, results)

end

/-- `{"paths": .., "count": ..}`. -/
structure FoundPaths where
  paths : List (List String)
  count : Nat
deriving DecidableEq, Repr

/-- `none` when the fuel does not suffice. -/
def handleFindPaths (fuel : Nat) (idb : Option Idb) (start stop : Address) (maxPaths maxDepth : Nat) :
    Except ToolError (Option FoundPaths) := do
  let db ← opened idb
  match db.functionAt start with
  | none => throw (.functionNotFound start.toNat)
  | some func =>
    if !db.functionContains func stop then
      throw (.notSupported "find_paths only supports addresses within the same function")
    match db.cfg func with
    | .error e => throw (.idaError e)
    | .ok blocks =>
      match blocks.findFinIdx? (·.containsAddress start) with
      | none => throw (.addressOutOfRange start.toNat)
      | some startIdx =>
        match blocks.findFinIdx? (·.containsAddress stop) with
        | none => throw (.addressOutOfRange stop.toNat)
        | some endIdx =>
          return (dfs blocks endIdx (max maxDepth 1) (max maxPaths 1) fuel startIdx ([], [])).map fun w =>
            ⟨w.2, w.2.length⟩

/-! ### The search lists the simple paths -/

section

variable {blocks : List BasicBlock} {stop : Fin blocks.length} {maxDepth maxPaths : Nat}

/-- The successors of a block that are blocks of the graph. -/
def successors (blocks : List BasicBlock) (i : Fin blocks.length) : List (Fin blocks.length) :=
  (blocks.get i).succs.filterMap (indexByStart blocks)

theorem eachSucc_eq (visit : Fin blocks.length → Walk blocks → Option (Walk blocks))
    (path : List (Fin blocks.length)) {out : Fin blocks.length → List (List String)}
    (hvisit : ∀ next ∉ path, ∀ results : List (List String), results.length ≤ maxPaths →
      visit next (path, results) = some (path, (results ++ out next).take maxPaths))
    (as : List Address) {results : List (List String)} (h : results.length ≤ maxPaths) :
    eachSucc blocks maxPaths visit as (path, results) =
      some (path, (results ++ ((as.filterMap (indexByStart blocks)).filter (· ∉ path)).flatMap out).take maxPaths) := by
  induction as generalizing results with
  | nil =>
    simp only [eachSucc, List.filterMap_nil, List.filter_nil, List.flatMap_nil, List.append_nil]
    rw [List.take_of_length_le h]
  | cons a as ih =>
    rw [eachSucc, List.filterMap_cons]
    cases indexByStart blocks a with
    | none => exact ih h
    | some next =>
      dsimp only
      by_cases hin : next ∈ path
      · rw [if_pos hin, ih h, List.filter_cons_of_neg (by simpa using hin)]
      · rw [if_neg hin, hvisit next hin results h, List.filter_cons_of_pos (by simpa using hin), List.flatMap_cons,
          ← Fills.take_append_take]
        have hlen := List.length_take_le maxPaths (results ++ out next)
        show (if maxPaths ≤ _ then _ else _) = _
        split
        · rename_i hfull
          rw [Fills.take_of_full hlen hfull]
        · exact ih hlen

/-- With fuel for the depth that is left, by induction on the fuel. -/
theorem dfs_eq {fuel : Nat} (cur : Fin blocks.length) (path : List (Fin blocks.length)) {results : List (List String)}
    (hfuel : maxDepth + 1 - path.length < fuel) (h : results.length ≤ maxPaths) :
    dfs blocks stop maxDepth maxPaths fuel cur (path, results) =
      some (path, (results ++ (paths (successors blocks) stop (maxDepth + 1 - path.length) cur path).map
        (List.map (startText blocks))).take maxPaths) := by
  induction fuel generalizing cur path results with
  | zero => omega
  | succ fuel ih =>
    rw [dfs]
    by_cases hfull : maxPaths ≤ results.length
    · rw [if_pos hfull, Fills.take_of_full h hfull]
    rw [if_neg hfull]
    by_cases hdeep : maxDepth < path.length
    · have hnone : maxDepth + 1 - path.length = 0 := by omega
      rw [if_pos hdeep, hnone, paths, List.map_nil, List.append_nil, List.take_of_length_le h]
    rw [if_neg hdeep]
    obtain ⟨k, hk⟩ : ∃ k, maxDepth + 1 - path.length = k + 1 := ⟨maxDepth - path.length, by omega⟩
    rw [hk, paths]
    dsimp only
    by_cases hstop : cur = stop
    · rw [if_pos hstop, if_pos hstop, List.dropLast_concat]
      have hroom : (results ++ [List.map (startText blocks) (path ++ [cur])]).length ≤ maxPaths := by
        rw [List.length_append, List.length_singleton]
        omega
      simp only [List.map_cons, List.map_nil]
      rw [List.take_of_length_le hroom]
    · have hlen : (path ++ [cur]).length = path.length + 1 := by simp
      have hleft : maxDepth + 1 - (path ++ [cur]).length = k := by omega
      have hsucc := eachSucc_eq (dfs blocks stop maxDepth maxPaths fuel) (path ++ [cur])
        (fun next _ results hres => ih next (path ++ [cur]) (by omega) hres) (blocks.get cur).succs h
      rw [if_neg hstop, if_neg hstop, hsucc]
      simp only [hleft, List.map_flatMap]
      show some ((path ++ [cur]).dropLast, _) = _
      rw [List.dropLast_concat]
      rfl

/-! ### Graphs with one block for each start -/

/-- Blocks from `a` to `b`, each a successor of the one before it and none twice. -/
structure BlockPath (blocks : List BasicBlock) (a b : Fin blocks.length) (p : List (Fin blocks.length)) : Prop where
  head : p.head? = some a
  last : p.getLast? = some b
  chain : p.IsChain fun i j => (blocks.get j).start ∈ (blocks.get i).succs
  nodup : p.Nodup

theorem start_injective (hd : (blocks.map (·.start)).Nodup) {i j : Fin blocks.length}
    (h : (blocks.get i).start = (blocks.get j).start) : i = j := by
  have hget : blocks.get i = blocks.get j :=
    List.inj_on_of_nodup_map hd (List.get_mem ..) (List.get_mem ..) h
  exact List.nodup_iff_injective_get.1 (List.Nodup.of_map _ hd) hget

theorem indexByStart_eq_some (hd : (blocks.map (·.start)).Nodup) {a : Address} {i : Fin blocks.length} :
    indexByStart blocks a = some i ↔ (blocks.get i).start = a := by
  have hfound : ∀ j, indexByStart blocks a = some j → (blocks.get j).start = a := by
    intro j hj
    have hp := List.find?_some hj
    exact of_decide_eq_true hp
  refine ⟨hfound i, fun h => ?_⟩
  cases hj : indexByStart blocks a with
  | none =>
    have hno := List.find?_eq_none.1 hj i (by simp)
    exact absurd (decide_eq_true h) hno
  | some j => rw [start_injective hd ((hfound j hj).trans h.symm)]

theorem mem_successors (hd : (blocks.map (·.start)).Nodup) {i j : Fin blocks.length} :
    j ∈ successors blocks i ↔ (blocks.get j).start ∈ (blocks.get i).succs := by
  simp only [successors, List.mem_filterMap, indexByStart_eq_some hd]
  constructor
  · rintro ⟨a, ha, rfl⟩
    exact ha
  · intro h
    exact ⟨_, h, rfl⟩

theorem successors_nodup (hd : (blocks.map (·.start)).Nodup) (hs : ∀ b ∈ blocks, b.succs.Nodup)
    (i : Fin blocks.length) : (successors blocks i).Nodup := by
  refine List.Nodup.filterMap ?_ (hs _ (List.get_mem ..))
  intro a a' j h h'
  exact ((indexByStart_eq_some hd).1 h).symm.trans ((indexByStart_eq_some hd).1 h')

theorem simplePath_iff (hd : (blocks.map (·.start)).Nodup) {a b : Fin blocks.length} {p : List (Fin blocks.length)} :
    SimplePath (successors blocks) a b p ↔ BlockPath blocks a b p := by
  constructor
  · intro h
    exact ⟨h.head, h.last, h.chain.imp fun _ _ hij => (mem_successors hd).1 hij, h.nodup⟩
  · intro h
    exact ⟨h.head, h.last, h.chain.imp fun _ _ hij => (mem_successors hd).2 hij, h.nodup⟩

/-- The paths that the search finds with room for all of them. -/
theorem mem_paths_successors (hd : (blocks.map (·.start)).Nodup) {a b : Fin blocks.length} {k : Nat}
    {q : List (Fin blocks.length)} : q ∈ paths (successors blocks) b k a [] ↔ BlockPath blocks a b q ∧ q.length ≤ k := by
  rw [mem_paths List.not_mem_nil]
  simp only [List.nil_append, simplePath_iff hd, List.not_mem_nil, not_false_eq_true, implies_true, and_true]
  constructor
  · rintro ⟨q, rfl, h⟩
    exact h
  · intro h
    exact ⟨q, rfl, h⟩

theorem startText_injective (hd : (blocks.map (·.start)).Nodup) : Function.Injective (startText blocks) :=
  fun _ _ h => start_injective hd (fmtAddr_injective h)

end

/-- The search comes back, and what it returns are the simple paths between the two blocks, all of them unless it
reached `maxPaths`. -/
theorem find_paths_simple (db : Idb) (start stop : Address) (func : Function) (blocks : List BasicBlock)
    (startIdx endIdx : Fin blocks.length) (maxPaths maxDepth : Nat)
    (hfunc : db.functionAt start = some func) (hstop : db.functionContains func stop = true)
    (hcfg : db.cfg func = .ok blocks) (hs : blocks.findFinIdx? (·.containsAddress start) = some startIdx)
    (he : blocks.findFinIdx? (·.containsAddress stop) = some endIdx) (hd : (blocks.map (·.start)).Nodup)
    (hsuccs : ∀ b ∈ blocks, b.succs.Nodup) (hpaths : 1 ≤ maxPaths) (hdepth : 1 ≤ maxDepth) :
    ∃ found, (∀ fuel, maxDepth + 1 < fuel →
        handleFindPaths fuel (some db) start stop maxPaths maxDepth = .ok (some found)) ∧
      (∀ p ∈ found.paths, ∃ q, p = q.map (startText blocks) ∧ BlockPath blocks startIdx endIdx q ∧
        q.length ≤ maxDepth + 1 ∧ endIdx ∉ q.dropLast) ∧
      found.paths.Nodup ∧ found.paths.length ≤ maxPaths ∧ found.count = found.paths.length ∧
      (found.paths.length < maxPaths → ∀ q, BlockPath blocks startIdx endIdx q → q.length ≤ maxDepth + 1 →
        q.map (startText blocks) ∈ found.paths) := by
  have hrun : ∀ fuel, maxDepth + 1 < fuel → dfs blocks endIdx maxDepth maxPaths fuel startIdx ([], []) =
      some ([], ((paths (successors blocks) endIdx (maxDepth + 1) startIdx []).map
        (List.map (startText blocks))).take maxPaths) := by
    intro fuel hfuel
    exact dfs_eq startIdx [] hfuel (Nat.zero_le _)
  have hmem : ∀ q, q ∈ paths (successors blocks) endIdx (maxDepth + 1) startIdx [] ↔
      BlockPath blocks startIdx endIdx q ∧ q.length ≤ maxDepth + 1 := fun q => mem_paths_successors hd
  have hnd : ((paths (successors blocks) endIdx (maxDepth + 1) startIdx []).map
      (List.map (startText blocks))).Nodup :=
    (paths_nodup (successors_nodup hd hsuccs)).map (List.map_injective_iff.2 (startText_injective hd))
  generalize paths (successors blocks) endIdx (maxDepth + 1) startIdx [] = all at *
  let listed := (all.map (List.map (startText blocks))).take maxPaths
  refine ⟨⟨listed, listed.length⟩, ?_, ?_, hnd.sublist (List.take_sublist ..),
    List.length_take_le .., rfl, ?_⟩
  · intro fuel hfuel
    simp only [handleFindPaths, opened, bind, Except.bind, hfunc, hstop, hcfg, hs, he, max_eq_left hdepth,
      max_eq_left hpaths, hrun fuel hfuel]
    rfl
  · intro p hp
    obtain ⟨q, hq, rfl⟩ := List.mem_map.1 (List.mem_of_mem_take hp)
    obtain ⟨hpath, hlen⟩ := (hmem q).1 hq
    exact ⟨q, rfl, hpath, hlen, ((simplePath_iff hd).2 hpath).not_mem_dropLast⟩
  · intro hroom q hq hlen
    have hall : (all.map (List.map (startText blocks))).take maxPaths = all.map (List.map (startText blocks)) := by
      apply List.take_of_length_le
      rw [List.length_take] at hroom
      omega
    show q.map (startText blocks) ∈ (all.map (List.map (startText blocks))).take maxPaths
    rw [hall]
    exact List.mem_map_of_mem ((hmem q).2 ⟨hq, hlen⟩)

/-! A branch that joins again: `0x10` goes on to `0x20` and `0x30`, both to `0x40`. -/

def branchFn : Function := ⟨0x10, 0x50, none, 64⟩

def branchBlocks : List BasicBlock :=
  [⟨0x10, 0x20, [0x20, 0x30]⟩, ⟨0x20, 0x30, [0x40]⟩, ⟨0x30, 0x40, [0x40]⟩, ⟨0x40, 0x50, []⟩]

def branchIdb : Idb :=
  { Idb.empty with
    functionAt := fun a => if 0x10 ≤ a ∧ a < 0x50 then some branchFn else none
    functionContains := fun f a => decide (f.start ≤ a ∧ a < f.stop)
    cfg := fun _ => .ok branchBlocks }

theorem find_paths_simple_branch :
    ∃ found, (∀ fuel, 11 < fuel → handleFindPaths fuel (some branchIdb) 0x10 0x40 5 10 = .ok (some found)) ∧
      (∀ p ∈ found.paths, ∃ q, p = q.map (startText branchBlocks) ∧
        BlockPath branchBlocks ⟨0, by decide⟩ ⟨3, by decide⟩ q ∧ q.length ≤ 11 ∧ ⟨3, by decide⟩ ∉ q.dropLast) ∧
      found.paths.Nodup ∧ found.paths.length ≤ 5 ∧ found.count = found.paths.length ∧
      (found.paths.length < 5 → ∀ q, BlockPath branchBlocks ⟨0, by decide⟩ ⟨3, by decide⟩ q → q.length ≤ 11 →
        q.map (startText branchBlocks) ∈ found.paths) :=
  find_paths_simple branchIdb 0x10 0x40 branchFn branchBlocks ⟨0, by decide⟩ ⟨3, by decide⟩ 5 10 (by decide) (by decide)
    rfl (by decide) (by decide) (by decide) (by decide) (by decide) (by decide)

example : handleFindPaths 12 (some branchIdb) 0x10 0x40 5 10 =
    .ok (some ⟨[["0x10", "0x20", "0x40"], ["0x10", "0x30", "0x40"]], 2⟩) := by decide +kernel

end Handlers

end IdaRs
