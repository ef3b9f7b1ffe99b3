import IdaRs.Idb
import IdaRs.Lib.Bfs

/-!
# Callees and the call graph (`src/ida/handlers/controlflow.rs` 63-164, 313-373)

`handle_callgraph` is a breadth-first search over `handle_callees`. An edge is listed before the node limit is looked at,
so an edge may lead to a function that is not listed (`edges_inside_iff`). `Search.erase` forgets what is kept for each
function besides its address and leads to the search of `IdaRs.Lib.Bfs`.
-/

namespace IdaRs

namespace Handlers

/-! ### `handle_callees` -/

/-- The callees found so far, and the addresses in `seen`. -/
structure Callees where
  list : List FunctionInfo
  seen : List Address

def addCallee (db : Idb) (c : Callees) (target : Address) : Callees :=
  match db.functionAt target with
  | some targetFunc =>
    if targetFunc.start ∈ c.seen then c
    else ⟨c.list ++ [targetFunc.info], c.seen ++ [targetFunc.start]⟩
  | none =>
    if target ∈ c.seen then c
    else
      let name := (db.addressToString target).getD ("sub_" ++ String.ofList (Nat.toDigits 16 target.toNat))
      ⟨c.list ++ [⟨fmtAddr target, name, 0⟩], c.seen ++ [target]⟩

def isDirectBranchOperand (kind : OperandType) : Bool := kind = .near ∨ kind = .far

def directCallTarget (db : Idb) (addr : Address) : Option Address :=
  (db.insnAt addr).bind fun insn =>
    if insn.isCall then
      insn.operands.findSome? fun op =>
        op.bind fun op => if isDirectBranchOperand op.kind then op.address else none
    else none

/-- The calls of one instruction: by its cross references, or else by its operand. -/
def addCallsAt (db : Idb) (addr : Address) (c : Callees) : Callees :=
  let calls := (db.xrefsFrom addr).filter fun x => x.type = .nearCall ∨ x.type = .farCall
  if calls ≠ [] then calls.foldl (fun c x => addCallee db c x.dst) c
  else (directCallTarget db addr).elim c (addCallee db c)

/-- `saturating_add` of an address. -/
def addrAdd (a : Address) (n : Nat) : Address := UInt64.ofNat (saturatingAdd a.toNat n)

/-- Where the walk goes on; it stops where it would not move forward. -/
def nextAddress (db : Idb) (cur : Address) : Option {next : Address // cur < next} :=
  let next :=
    match db.insnAt cur with
    | some insn => some (addrAdd cur insn.len)
    | none => db.nextHead cur
  next.bind fun next => if h : cur < next then some ⟨next, h⟩ else none

def calleesLoop (db : Idb) (stop cur : Address) (c : Callees) : Callees :=
  if cur < stop then
    let c := addCallsAt db cur c
    match nextAddress db cur with
    | some next => calleesLoop db stop next c
    | none => c
  else c
termination_by stop.toNat - cur.toNat
decreasing_by
  have hnext := UInt64.lt_iff_toNat_lt.1 next.2
  have hcur := UInt64.lt_iff_toNat_lt.1 ‹cur < stop›
  omega

def handleCallees (idb : Option Idb) (addr : Address) : Except ToolError (List FunctionInfo) := do
  let db ← opened idb
  match db.functionAt addr with
  | none => throw (.functionNotFound addr.toNat)
  | some func => return (calleesLoop db func.stop func.start ⟨[], []⟩).list

/-! ### `handle_callgraph` -/

structure Search where
  /-- `nodes`, a map by address. -/
  nodes : List (Address × FunctionInfo)
  edges : List (Address × Address)
  queue : List (Address × Nat)

def addCall (maxNodes : Nat) (cur : Address) (depth : Nat) (s : Search) (callee : FunctionInfo) : Search :=
  match parseAddressStr callee.address with
  | .ok target =>
    if target ∉ s.nodes.map Prod.fst ∧ s.nodes.length < maxNodes then
      ⟨s.nodes ++ [(target, callee)], s.edges ++ [(cur, target)], s.queue ++ [(target, depth + 1)]⟩
    else { s with edges := s.edges ++ [(cur, target)] }
  | .error _ => s

/-- `handle_callees(idb, cur_addr).unwrap_or_default()`. -/
def calleesOf (db : Idb) (cur : Address) : List FunctionInfo := (handleCallees (some db) cur).toOption.getD []

/-- The addresses of the callees. -/
def callTargets (db : Idb) (cur : Address) : List Address :=
  (calleesOf db cur).filterMap fun callee => (parseAddressStr callee.address).toOption

def Search.erase (s : Search) : Bfs.State Address := ⟨s.nodes.map Prod.fst, s.edges, s.queue⟩

theorem erase_addCalls (maxNodes : Nat) (cur : Address) (depth : Nat) (callees : List FunctionInfo) (s : Search) :
    (callees.foldl (addCall maxNodes cur depth) s).erase =
      (callees.filterMap fun callee => (parseAddressStr callee.address).toOption).foldl
        (Bfs.visit maxNodes cur depth) s.erase := by
  induction callees generalizing s with
  | nil => rfl
  | cons callee callees ih =>
    rw [List.foldl_cons, ih, addCall, List.filterMap_cons]
    cases parseAddressStr callee.address with
    | error e => rfl
    | ok target =>
      show _ = List.foldl _ _ (target :: _)
      rw [List.foldl_cons]
      congr 1
      simp only [Bfs.visit, Search.erase, List.length_map]
      split
      · simp
      · rfl

def callgraphLoop (db : Idb) (maxDepth maxNodes : Nat) (s : Search) : Search :=
  match s with
  | ⟨nodes, edges, []⟩ => ⟨nodes, edges, []⟩
  | ⟨nodes, edges, (curAddr, depth) :: rest⟩ =>
    if maxDepth ≤ depth then callgraphLoop db maxDepth maxNodes ⟨nodes, edges, rest⟩
    else if maxNodes ≤ nodes.length then ⟨nodes, edges, rest⟩
    else
      callgraphLoop db maxDepth maxNodes
        ((calleesOf db curAddr).foldl (addCall maxNodes curAddr depth) ⟨nodes, edges, rest⟩)
termination_by s.erase.left maxNodes
decreasing_by
  · simp [Search.erase, Bfs.State.left]
  · have hleft : ((calleesOf db curAddr).foldl (addCall maxNodes curAddr depth) ⟨nodes, edges, rest⟩).erase.left
        maxNodes = (Search.erase ⟨nodes, edges, rest⟩).left maxNodes := by
      rw [erase_addCalls]
      exact Bfs.left_expand (callTargets db) maxNodes curAddr depth (Search.erase ⟨nodes, edges, rest⟩)
    rw [hleft]
    simp [Search.erase, Bfs.State.left]

/-- The order in which `HashMap::values` lists a map. -/
structure MapOrder where
  values : List (Address × FunctionInfo) → List FunctionInfo
  perm : ∀ l, (values l).Perm (l.map Prod.snd)

/-- `{"nodes": .., "edges": ..}`; an edge has its `from` and `to`. -/
structure Callgraph where
  nodes : List FunctionInfo
  edges : List (String × String)
deriving DecidableEq, Repr

def handleCallgraph (order : MapOrder) (idb : Option Idb) (addr : Address) (maxDepth maxNodes : Nat) :
    Except ToolError Callgraph := do
  let db ← opened idb
  match db.functionAt addr with
  | none => throw (.functionNotFound addr.toNat)
  | some root =>
    let s := callgraphLoop db (max maxDepth 1) (max maxNodes 1)
      ⟨[(root.start, root.info)], [], [(root.start, 0)]⟩
    return ⟨order.values s.nodes, s.edges.map fun e => (fmtAddr e.1, fmtAddr e.2)⟩

/-! ### Callees are listed once, under their address -/

/-- The listed functions are those in `seen`. -/
structure Callees.Listed (c : Callees) : Prop where
  addresses : c.list.map (·.address) = c.seen.map fmtAddr
  nodup : c.seen.Nodup

theorem Callees.Listed.add {c : Callees} (h : c.Listed) {a : Address} (ha : a ∉ c.seen) {info : FunctionInfo}
    (hinfo : info.address = fmtAddr a) : Callees.Listed ⟨c.list ++ [info], c.seen ++ [a]⟩ where
  addresses := by simp [h.addresses, hinfo]
  nodup := by
    refine List.nodup_append.2 ⟨h.nodup, List.nodup_singleton a, ?_⟩
    intro x hx y hy
    rw [List.mem_singleton.1 hy]
    exact fun heq => ha (heq ▸ hx)

theorem listed_addCallee {db : Idb} {c : Callees} (h : c.Listed) (target : Address) :
    (addCallee db c target).Listed := by
  unfold addCallee
  split
  · split
    · exact h
    · rename_i hnew
      exact h.add hnew rfl
  · split
    · exact h
    · rename_i hnew
      exact h.add hnew rfl

theorem listed_addCallsAt {db : Idb} {c : Callees} (h : c.Listed) (addr : Address) : (addCallsAt db addr c).Listed := by
  have hfold : ∀ (calls : List XRef) (c : Callees), c.Listed →
      (calls.foldl (fun c x => addCallee db c x.dst) c).Listed := by
    intro calls
    induction calls with
    | nil => exact fun c h => h
    | cons x calls ih => exact fun c h => ih _ (listed_addCallee h x.dst)
  unfold addCallsAt
  dsimp only
  split
  · exact hfold _ c h
  · cases directCallTarget db addr with
    | none => exact h
    | some target => exact listed_addCallee h target

theorem listed_calleesLoop (db : Idb) (stop cur : Address) (c : Callees) (h : c.Listed) :
    (calleesLoop db stop cur c).Listed := by
  induction cur, c using calleesLoop.induct db stop with
  | case1 cur c hlt c' next hnext ih =>
    rw [calleesLoop, if_pos hlt]
    simp only [hnext]
    exact ih (listed_addCallsAt h cur)
  | case2 cur c hlt hnext =>
    rw [calleesLoop, if_pos hlt]
    simp only [hnext]
    exact listed_addCallsAt h cur
  | case3 cur c hlt =>
    rw [calleesLoop, if_neg hlt]
    exact h

theorem calleesOf_address (db : Idb) (cur : Address) :
    (calleesOf db cur).map (·.address) = (callTargets db cur).map fmtAddr ∧ (callTargets db cur).Nodup := by
  have hseen : ∃ seen : List Address, (calleesOf db cur).map (·.address) = seen.map fmtAddr ∧ seen.Nodup := by
    unfold calleesOf handleCallees
    simp only [opened, bind, Except.bind]
    cases hf : db.functionAt cur with
    | none => exact ⟨[], rfl, List.nodup_nil⟩
    | some func =>
      have hl := listed_calleesLoop db func.stop func.start ⟨[], []⟩ ⟨rfl, List.nodup_nil⟩
      exact ⟨_, hl.addresses, hl.nodup⟩
  obtain ⟨seen, hmap, hnd⟩ := hseen
  have htargets : callTargets db cur = seen := by
    have hread : callTargets db cur =
        ((calleesOf db cur).map (·.address)).filterMap fun text => (parseAddressStr text).toOption := by
      rw [List.filterMap_map]
      rfl
    rw [hread, hmap, List.filterMap_map]
    have hback : (fun text => (parseAddressStr text).toOption) ∘ fmtAddr = some := by
      funext a
      simp only [Function.comp, parseAddressStr_fmtAddr, Except.toOption]
    rw [hback, List.filterMap_some]
  rw [htargets]
  exact ⟨hmap, hnd⟩

/-! ### The search is the one over addresses -/

theorem erase_callgraphLoop (db : Idb) (maxDepth maxNodes : Nat) (s : Search) :
    (callgraphLoop db maxDepth maxNodes s).erase = Bfs.loop (callTargets db) maxDepth maxNodes s.erase := by
  induction s using callgraphLoop.induct db maxDepth maxNodes with
  | case1 nodes edges =>
    rw [callgraphLoop]
    simp only [Search.erase]
    rw [Bfs.loop]
  | case2 nodes edges cur k rest hk ih =>
    rw [callgraphLoop, if_pos hk, ih]
    simp only [Search.erase]
    rw [Bfs.loop, if_pos hk]
  | case3 nodes edges cur k rest hk hfull =>
    rw [callgraphLoop, if_neg hk, if_pos hfull]
    simp only [Search.erase]
    rw [Bfs.loop, if_neg hk, if_pos (by simpa using hfull)]
  | case4 nodes edges cur k rest hk hroom ih =>
    rw [callgraphLoop, if_neg hk, if_neg hroom, ih, erase_addCalls]
    simp only [Search.erase]
    rw [Bfs.loop, if_neg hk, if_neg (by simpa using hroom)]
    rfl

/-- Every node is kept under its own address. -/
def Search.Named (s : Search) : Prop := ∀ p ∈ s.nodes, p.2.address = fmtAddr p.1

theorem named_addCalls {maxNodes depth : Nat} {cur : Address} (callees : List FunctionInfo)
    (hc : ∀ callee ∈ callees, ∃ a, callee.address = fmtAddr a) (s : Search) (h : s.Named) :
    (callees.foldl (addCall maxNodes cur depth) s).Named := by
  induction callees generalizing s with
  | nil => exact h
  | cons callee callees ih =>
    rw [List.foldl_cons]
    refine ih (fun c hmem => hc c (List.mem_cons_of_mem _ hmem)) _ ?_
    obtain ⟨a, ha⟩ := hc callee (List.mem_cons_self ..)
    simp only [addCall, ha, parseAddressStr_fmtAddr]
    split
    · intro p hp
      rcases List.mem_append.1 hp with hp | hp
      · exact h p hp
      · rw [List.mem_singleton.1 hp]
        exact ha
    · exact h

theorem named_callgraphLoop (db : Idb) (maxDepth maxNodes : Nat) (s : Search) (h : s.Named) :
    (callgraphLoop db maxDepth maxNodes s).Named := by
  induction s using callgraphLoop.induct db maxDepth maxNodes with
  | case1 nodes edges =>
    rw [callgraphLoop]
    exact h
  | case2 nodes edges cur k rest hk ih =>
    rw [callgraphLoop, if_pos hk]
    exact ih h
  | case3 nodes edges cur k rest hk hfull =>
    rw [callgraphLoop, if_neg hk, if_pos hfull]
    exact h
  | case4 nodes edges cur k rest hk hroom ih =>
    rw [callgraphLoop, if_neg hk, if_neg hroom]
    refine ih (named_addCalls _ ?_ _ h)
    intro callee hmem
    have haddr := List.mem_map_of_mem (f := (·.address)) hmem
    rw [(calleesOf_address db cur).1] at haddr
    obtain ⟨a, -, ha⟩ := List.mem_map.1 haddr
    exact ⟨a, ha.symm⟩

/-- What a call graph shows: the nodes and edges of the search, each address as text. -/
theorem handleCallgraph_eq (order : MapOrder) (db : Idb) {addr : Address} {root : Function}
    (h : db.functionAt addr = some root) (maxDepth maxNodes : Nat) :
    ∃ g, handleCallgraph order (some db) addr maxDepth maxNodes = .ok g ∧
      let s := Bfs.loop (callTargets db) (max maxDepth 1) (max maxNodes 1) (Bfs.start root.start)
      (g.nodes.map (·.address)).Perm (s.nodes.map fmtAddr) ∧
        g.edges = s.edges.map fun e => (fmtAddr e.1, fmtAddr e.2) := by
  refine ⟨_, by simp only [handleCallgraph, opened, bind, Except.bind, h]; rfl, ?_⟩
  dsimp only
  rw [← show Search.erase ⟨[(root.start, root.info)], [], [(root.start, 0)]⟩ = Bfs.start root.start from rfl,
    ← erase_callgraphLoop]
  refine ⟨((order.perm _).map _).trans (List.Perm.of_eq ?_), rfl⟩
  simp only [Search.erase, List.map_map]
  refine List.map_congr_left fun p hp => named_callgraphLoop _ _ _ _ ?_ p hp
  intro p hp
  rw [List.mem_singleton.1 hp]
  rfl

/-- The edges stay among the listed functions if and only if the search without a node limit never takes the number of
functions it knows from below the limit to above it in one expansion. -/
theorem edges_inside_iff (order : MapOrder) (db : Idb) (addr : Address) (root : Function) (maxDepth maxNodes : Nat)
    (h : db.functionAt addr = some root) :
    ∃ g, handleCallgraph order (some db) addr maxDepth maxNodes = .ok g ∧
      ((∀ e ∈ g.edges, e.1 ∈ g.nodes.map (·.address) ∧ e.2 ∈ g.nodes.map (·.address)) ↔
        Bfs.Meets (callTargets db) (max maxDepth 1) (max maxNodes 1) root.start) := by
  obtain ⟨g, hok, hnodes, hedges⟩ := handleCallgraph_eq order db h maxDepth maxNodes
  refine ⟨g, hok, ?_⟩
  have hmem : ∀ (a : Address) (l : List Address), (g.nodes.map (·.address)).Perm (l.map fmtAddr) →
      (fmtAddr a ∈ g.nodes.map (·.address) ↔ a ∈ l) := by
    intro a l hp
    rw [hp.mem_iff]
    exact List.mem_map_of_injective fmtAddr_injective
  rw [← Bfs.closed_iff _ _ _ _ (le_max_right ..), hedges]
  simp only [List.forall_mem_map, hmem _ _ hnodes]
  rfl

/-! A function that calls two others. -/

def insertionOrder : MapOrder := ⟨List.map Prod.snd, fun _ => .refl _⟩

def callerFn : Function := ⟨0x1000, 0x1010, some "main", 16⟩

def callerRefs (a : Address) : List XRef :=
  if a = 0x1000 then [⟨0x1000, 0x2000, .nearCall, true⟩, ⟨0x1000, 0x3000, .nearCall, true⟩] else []

def twoCalls : Idb :=
  { Idb.empty with
    functionAt := fun a => if 0x1000 ≤ a ∧ a < 0x1010 then some callerFn else none
    xrefsFrom := callerRefs
    xrefsFrom_fit := by
      intro a
      unfold callerRefs Fits
      split <;> decide
    grants_xrefs := fun _ _ _ _ _ => rfl }

theorem edges_inside_iff_twoCalls :
    ∃ g, handleCallgraph insertionOrder (some twoCalls) 0x1000 1 3 = .ok g ∧
      ((∀ e ∈ g.edges, e.1 ∈ g.nodes.map (·.address) ∧ e.2 ∈ g.nodes.map (·.address)) ↔
        Bfs.Meets (callTargets twoCalls) (max 1 1) (max 3 1) 0x1000) :=
  edges_inside_iff insertionOrder twoCalls 0x1000 callerFn 1 3 (by decide)

/-- With room for two functions the second call leads out of the graph. -/
theorem edge_outside :
    ¬ ∀ g, handleCallgraph insertionOrder (some twoCalls) 0x1000 1 2 = .ok g →
      ∀ e ∈ g.edges, e.1 ∈ g.nodes.map (·.address) ∧ e.2 ∈ g.nodes.map (·.address) := by
  intro h
  have hg : handleCallgraph insertionOrder (some twoCalls) 0x1000 1 2 =
      .ok ⟨[⟨"0x1000", "main", 16⟩, ⟨"0x2000", "sub_2000", 0⟩], [("0x1000", "0x2000"), ("0x1000", "0x3000")]⟩ := by
    decide +kernel
  exact absurd (h _ hg ("0x1000", "0x3000") (by decide)) (by decide)

/-- The search finds what is within `maxDepth` calls, and all of it unless it fills up. -/
theorem callgraph_covers (order : MapOrder) (db : Idb) (addr : Address) (root : Function) (maxDepth maxNodes : Nat)
    (h : db.functionAt addr = some root) (hdepth : 1 ≤ maxDepth) (hnodes : 1 ≤ maxNodes) :
    ∃ g, handleCallgraph order (some db) addr maxDepth maxNodes = .ok g ∧
      (g.nodes.map (·.address)).Nodup ∧ fmtAddr root.start ∈ g.nodes.map (·.address) ∧ g.nodes.length ≤ maxNodes ∧
      (∀ text ∈ g.nodes.map (·.address),
        ∃ a, text = fmtAddr a ∧ Bfs.Within (callTargets db) maxDepth root.start a) ∧
      (g.nodes.length < maxNodes →
        (∀ a, fmtAddr a ∈ g.nodes.map (·.address) ↔ Bfs.Within (callTargets db) maxDepth root.start a) ∧
        ∃ sources : List Address, sources.Nodup ∧
          (∀ a, a ∈ sources ↔ Bfs.Within (callTargets db) (maxDepth - 1) root.start a) ∧
          g.edges = sources.flatMap fun a => (callTargets db a).map fun t => (fmtAddr a, fmtAddr t)) := by
  obtain ⟨g, hok, hperm, hedges⟩ := handleCallgraph_eq order db h maxDepth maxNodes
  rw [max_eq_left hdepth, max_eq_left hnodes] at hperm hedges
  obtain ⟨hnd, hroot, hle, hin, hall⟩ := Bfs.covers (callTargets db) maxDepth maxNodes root.start hnodes hdepth
  generalize Bfs.loop (callTargets db) maxDepth maxNodes (Bfs.start root.start) = s at *
  have hlen : g.nodes.length = s.nodes.length := by simpa using hperm.length_eq
  have hmem : ∀ a, fmtAddr a ∈ g.nodes.map (·.address) ↔ a ∈ s.nodes := by
    intro a
    rw [hperm.mem_iff]
    exact List.mem_map_of_injective fmtAddr_injective
  refine ⟨g, hok, hperm.nodup_iff.2 (hnd.map fmtAddr_injective), (hmem _).2 hroot, hlen ▸ hle, ?_, fun hroom => ?_⟩
  · intro text htext
    obtain ⟨a, ha, rfl⟩ := List.mem_map.1 (hperm.mem_iff.1 htext)
    exact ⟨a, rfl, hin a ha⟩
  · obtain ⟨hcover, sources, hsources, hwithin, hlisted⟩ := hall (hlen ▸ hroom)
    refine ⟨fun a => (hmem a).trans ⟨hin a, hcover a⟩, sources, hsources, hwithin, ?_⟩
    rw [hedges, hlisted]
    simp [List.map_flatMap, Function.comp_def]

/-- With room for four functions nothing within one call is left out. -/
theorem callgraph_covers_twoCalls :
    ∃ g, handleCallgraph insertionOrder (some twoCalls) 0x1000 1 4 = .ok g ∧
      (g.nodes.map (·.address)).Nodup ∧ fmtAddr callerFn.start ∈ g.nodes.map (·.address) ∧ g.nodes.length ≤ 4 ∧
      (∀ text ∈ g.nodes.map (·.address),
        ∃ a, text = fmtAddr a ∧ Bfs.Within (callTargets twoCalls) 1 callerFn.start a) ∧
      (g.nodes.length < 4 →
        (∀ a, fmtAddr a ∈ g.nodes.map (·.address) ↔ Bfs.Within (callTargets twoCalls) 1 callerFn.start a) ∧
        ∃ sources : List Address, sources.Nodup ∧
          (∀ a, a ∈ sources ↔ Bfs.Within (callTargets twoCalls) 0 callerFn.start a) ∧
          g.edges = sources.flatMap fun a => (callTargets twoCalls a).map fun t => (fmtAddr a, fmtAddr t)) :=
  callgraph_covers insertionOrder twoCalls 0x1000 callerFn 1 4 (by decide) (by decide) (by decide)

end Handlers

end IdaRs
