import Mathlib.Data.List.Nodup
import Mathlib.Data.List.Infix
import Mathlib.Logic.Function.Iterate

/-!
# Breadth-first search with a depth bound and room for so many nodes

`loop` takes the head of the queue, lists its edges and adds the ends it has not seen while there is room; a node at
the depth bound is not expanded, and the search stops when it is full. `Inv` is what holds between two turns: the
nodes are what was taken off the queue and what is in it, in the order of their distance, which grows by at most one
along the queue. `covers` reads it off at the end of a search that did not fill up.

`spread` is one turn of the same search without a limit. `closed_iff`: the edges stay among the nodes if no turn of
it steps over the limit.
-/

namespace Bfs

universe u

variable {α : Type u}

/-- `b` is `n` steps of `next` away from `a`. -/
inductive Steps (next : α → List α) (a : α) : Nat → α → Prop
  | zero : Steps next a 0 a
  | succ {n : Nat} {b c : α} : Steps next a n b → c ∈ next b → Steps next a (n + 1) c

def Within (next : α → List α) (d : Nat) (a b : α) : Prop := ∃ n ≤ d, Steps next a n b

structure State (α : Type u) where
  nodes : List α
  edges : List (α × α)
  /-- Nodes that wait, with their distance. -/
  queue : List (α × Nat)

/-- Both ends of every edge are nodes. -/
def State.Closed (s : State α) : Prop := ∀ e ∈ s.edges, e.1 ∈ s.nodes ∧ e.2 ∈ s.nodes

variable [DecidableEq α]

/-- `ns` and what of `ts` is not among them. -/
def grow (ns ts : List α) : List α := ts.foldl (fun ns t => if t ∈ ns then ns else ns ++ [t]) ns

section

variable {ns ts : List α} {t : α}

theorem grow_cons_of_mem (h : t ∈ ns) : grow ns (t :: ts) = grow ns ts := by
  rw [grow, List.foldl_cons, if_pos h]
  rfl

theorem grow_cons_of_not_mem (h : t ∉ ns) : grow ns (t :: ts) = grow (ns ++ [t]) ts := by
  rw [grow, List.foldl_cons, if_neg h]
  rfl

theorem prefix_grow (ns ts : List α) : ns <+: grow ns ts := by
  induction ts generalizing ns with
  | nil => exact List.prefix_rfl
  | cons t ts ih =>
    by_cases h : t ∈ ns
    · rw [grow_cons_of_mem h]
      exact ih ns
    · rw [grow_cons_of_not_mem h]
      exact (List.prefix_append ns [t]).trans (ih _)

theorem mem_grow {x : α} : x ∈ grow ns ts ↔ x ∈ ns ∨ x ∈ ts := by
  induction ts generalizing ns with
  | nil => simp [grow]
  | cons t ts ih =>
    by_cases h : t ∈ ns
    · rw [grow_cons_of_mem h, ih, List.mem_cons]
      constructor
      · rintro (hx | hx)
        · exact .inl hx
        · exact .inr (.inr hx)
      · rintro (hx | rfl | hx)
        · exact .inl hx
        · exact .inl h
        · exact .inr hx
    · rw [grow_cons_of_not_mem h, ih, List.mem_append, List.mem_singleton, List.mem_cons, or_assoc]

theorem grow_nodup (h : ns.Nodup) : (grow ns ts).Nodup := by
  induction ts generalizing ns with
  | nil => exact h
  | cons t ts ih =>
    by_cases ht : t ∈ ns
    · rw [grow_cons_of_mem ht]
      exact ih h
    · rw [grow_cons_of_not_mem ht]
      refine ih (List.nodup_append.2 ⟨h, List.nodup_singleton t, ?_⟩)
      intro a ha b hb
      rw [List.mem_singleton.1 hb]
      exact fun heq => ht (heq ▸ ha)

end

section

variable (next : α → List α) (depth cap : Nat)

/-- The edge from `cur`, at distance `k`, to `t`. -/
def visit (cur : α) (k : Nat) (s : State α) (t : α) : State α :=
  if t ∉ s.nodes ∧ s.nodes.length < cap then
    ⟨s.nodes ++ [t], s.edges ++ [(cur, t)], s.queue ++ [(t, k + 1)]⟩
  else { s with edges := s.edges ++ [(cur, t)] }

def expand (cur : α) (k : Nat) (s : State α) : State α := (next cur).foldl (visit cap cur k) s

/-- What is left to do: room for nodes, and nodes that wait. -/
def State.left (s : State α) : Nat := (cap - s.nodes.length) + s.queue.length

theorem left_visit (cur : α) (k : Nat) (s : State α) (t : α) : (visit cap cur k s t).left cap = s.left cap := by
  unfold visit State.left
  split
  · rename_i h
    have hroom := h.2
    simp only [List.length_append, List.length_singleton]
    omega
  · rfl

theorem left_expand (cur : α) (k : Nat) (s : State α) : (expand next cap cur k s).left cap = s.left cap := by
  unfold expand
  induction next cur generalizing s with
  | nil => rfl
  | cons t ts ih => rw [List.foldl_cons, ih, left_visit]

def loop (s : State α) : State α :=
  match s with
  | ⟨nodes, edges, []⟩ => ⟨nodes, edges, []⟩
  | ⟨nodes, edges, (cur, k) :: rest⟩ =>
    if depth ≤ k then loop ⟨nodes, edges, rest⟩
    else if cap ≤ nodes.length then ⟨nodes, edges, rest⟩
    else loop (expand next cap cur k ⟨nodes, edges, rest⟩)
termination_by s.left cap
decreasing_by
  · simp [State.left]
  · rw [left_expand]
    simp [State.left]

def start (root : α) : State α := ⟨[root], [], [(root, 0)]⟩

/-- One turn of the search without a limit, over the nodes and the queue. -/
def spread (p : List α × List (α × Nat)) : List α × List (α × Nat) :=
  match p with
  | (nodes, []) => (nodes, [])
  | (nodes, (cur, k) :: rest) =>
    if depth ≤ k then (nodes, rest)
    else
      let found := grow nodes (next cur)
      (found, rest ++ (found.drop nodes.length).map (·, k + 1))

/-- What a search without a limit has found after `j` turns. -/
def discovered (root : α) (j : Nat) : List α := ((spread next depth)^[j] ([root], [(root, 0)])).1

/-- No turn of the search without a limit takes the number of nodes over `cap`: it stays below, or meets it. -/
def Meets (root : α) : Prop :=
  ∀ j, ¬ ((discovered next depth root j).length < cap ∧ cap < (discovered next depth root (j + 1)).length)

end

section

variable {next : α → List α} {depth cap : Nat}

/-! ### One expansion -/

/-- Ends are added in their order until the search is full. -/
theorem foldl_visit (cur : α) (k : Nat) (s : State α) (ts : List α) (h : s.nodes.length ≤ cap) :
    ts.foldl (visit cap cur k) s =
      ⟨(grow s.nodes ts).take cap, s.edges ++ ts.map (cur, ·),
        s.queue ++ (((grow s.nodes ts).take cap).drop s.nodes.length).map (·, k + 1)⟩ := by
  induction ts generalizing s with
  | nil =>
    have htake : (grow s.nodes []).take cap = s.nodes := List.take_of_length_le h
    simp [htake]
  | cons t ts ih =>
    rw [List.foldl_cons, visit]
    by_cases ht : t ∈ s.nodes
    · rw [if_neg (fun hc => hc.1 ht), ih ⟨s.nodes, s.edges ++ [(cur, t)], s.queue⟩ h, grow_cons_of_mem ht]
      simp
    by_cases hroom : s.nodes.length < cap
    · have hlen : (s.nodes ++ [t]).length ≤ cap := by
        simp
        omega
      rw [if_pos ⟨ht, hroom⟩, ih _ hlen, grow_cons_of_not_mem ht]
      -- `t` is the first of the nodes that were added
      obtain ⟨more, hmore⟩ := prefix_grow (s.nodes ++ [t]) ts
      have hcut : (grow (s.nodes ++ [t]) ts).take cap = s.nodes ++ t :: more.take (cap - (s.nodes.length + 1)) := by
        rw [← hmore, List.take_append, List.take_of_length_le hlen]
        simp
      simp [hcut]
    · have hfull : ∀ l, s.nodes <+: l → l.take cap = s.nodes := by
        rintro l ⟨more, rfl⟩
        rw [List.take_append_of_le_length (by omega), List.take_of_length_le h]
      rw [if_neg (fun hc => hroom hc.2), ih ⟨s.nodes, s.edges ++ [(cur, t)], s.queue⟩ h, grow_cons_of_not_mem ht,
        hfull _ (prefix_grow _ _), hfull _ ((List.prefix_append _ _).trans (prefix_grow _ _))]
      simp

theorem expand_eq (next : α → List α) (cur : α) (k : Nat) (s : State α) (h : s.nodes.length ≤ cap) :
    expand next cap cur k s =
      ⟨(grow s.nodes (next cur)).take cap, s.edges ++ (next cur).map (cur, ·),
        s.queue ++ (((grow s.nodes (next cur)).take cap).drop s.nodes.length).map (·, k + 1)⟩ :=
  foldl_visit cur k s (next cur) h

theorem nodes_expand_le (cur : α) (k : Nat) (s : State α) (h : s.nodes.length ≤ cap) :
    (expand next cap cur k s).nodes.length ≤ cap := by
  rw [expand_eq next cur k s h]
  exact List.length_take_le ..

/-- A full search adds nothing more. -/
theorem loop_full (next : α → List α) (depth : Nat) (s : State α) (h : cap ≤ s.nodes.length) :
    (loop next depth cap s).nodes = s.nodes ∧ (loop next depth cap s).edges = s.edges := by
  obtain ⟨nodes, edges, queue⟩ := s
  induction queue with
  | nil =>
    rw [loop]
    exact ⟨rfl, rfl⟩
  | cons p rest ih =>
    rw [loop]
    split
    · exact ih h
    · exact ⟨rfl, rfl⟩

/-! ### Edges among the nodes -/

theorem spread_fst_length_le (next : α → List α) (depth : Nat) (p : List α × List (α × Nat)) :
    p.1.length ≤ (spread next depth p).1.length := by
  rcases p with ⟨nodes, _ | ⟨⟨cur, k⟩, rest⟩⟩
  · exact le_rfl
  · rw [spread]
    split
    · exact le_rfl
    · exact (prefix_grow nodes (next cur)).length_le

theorem iterate_spread_length_le (next : α → List α) (depth : Nat) (p : List α × List (α × Nat)) (j : Nat) :
    p.1.length ≤ ((spread next depth)^[j] p).1.length := by
  induction j generalizing p with
  | zero => exact le_rfl
  | succ j ih => exact (spread_fst_length_le next depth p).trans (ih _)

/-- `Meets`, from a state on. -/
def MeetsFrom (next : α → List α) (depth cap : Nat) (p : List α × List (α × Nat)) : Prop :=
  ∀ j, ¬ (((spread next depth)^[j] p).1.length < cap ∧ cap < ((spread next depth)^[j + 1] p).1.length)

theorem meetsFrom_iff (p : List α × List (α × Nat)) :
    MeetsFrom next depth cap p ↔
      ¬ (p.1.length < cap ∧ cap < (spread next depth p).1.length) ∧ MeetsFrom next depth cap (spread next depth p) := by
  constructor
  · intro h
    exact ⟨h 0, fun j => h (j + 1)⟩
  · rintro ⟨h0, h⟩ (_ | j)
    · exact h0
    · exact h j

/-- A turn that finds more than there is room for leaves an edge to a node it dropped. -/
theorem not_closed_of_over {cur : α} {k : Nat} {s : State α} (h : s.nodes.length ≤ cap) (hnd : s.nodes.Nodup)
    (hover : cap < (grow s.nodes (next cur)).length) : ¬ (expand next cap cur k s).Closed := by
  intro hc
  rw [expand_eq next cur k s h] at hc
  have hsub : grow s.nodes (next cur) ⊆ (grow s.nodes (next cur)).take cap := by
    intro x hx
    rcases mem_grow.1 hx with hx | hx
    · exact ((List.prefix_take_iff.2 ⟨prefix_grow _ _, h⟩).subset hx)
    · exact (hc (cur, x) (List.mem_append_right _ (List.mem_map_of_mem hx))).2
  have hle := (grow_nodup hnd).length_le_of_subset hsub
  have hcut := List.length_take_le cap (grow s.nodes (next cur))
  omega

theorem closed_expand {cur : α} {k : Nat} {s : State α} (h : s.nodes.length ≤ cap) (hcur : cur ∈ s.nodes)
    (hc : s.Closed) (hfits : (grow s.nodes (next cur)).length ≤ cap) : (expand next cap cur k s).Closed := by
  rw [expand_eq next cur k s h, List.take_of_length_le hfits]
  intro e he
  rcases List.mem_append.1 he with he | he
  · exact ⟨mem_grow.2 (.inl (hc e he).1), mem_grow.2 (.inl (hc e he).2)⟩
  · obtain ⟨t, ht, rfl⟩ := List.mem_map.1 he
    exact ⟨mem_grow.2 (.inl hcur), mem_grow.2 (.inr ht)⟩

/-- The edges stay among the nodes if and only if no turn of the search without a limit steps over `cap`. -/
theorem closed_loop_iff (s : State α) (h : s.nodes.length ≤ cap) (hnd : s.nodes.Nodup)
    (hq : ∀ p ∈ s.queue, p.1 ∈ s.nodes) (hc : s.Closed) :
    (loop next depth cap s).Closed ↔ MeetsFrom next depth cap (s.nodes, s.queue) := by
  induction s using loop.induct next depth cap with
  | case1 nodes edges =>
    rw [loop]
    refine ⟨fun _ j hj => ?_, fun _ => hc⟩
    have hstay : ∀ j, (spread next depth)^[j] (nodes, []) = (nodes, []) := fun j =>
      Function.iterate_fixed rfl j
    rw [hstay] at hj
    rw [hstay] at hj
    omega
  | case2 nodes edges cur k rest hk ih =>
    have hs : spread next depth (nodes, (cur, k) :: rest) = (nodes, rest) := by rw [spread, if_pos hk]
    rw [loop, if_pos hk, ih h hnd (fun p hp => hq p (List.mem_cons_of_mem _ hp)) hc, meetsFrom_iff (nodes, _ :: _), hs]
    exact ⟨fun hm => ⟨fun hj => absurd (hj.1.trans hj.2) (lt_irrefl _), hm⟩, fun hm => hm.2⟩
  | case3 nodes edges cur k rest hk hfull =>
    rw [loop, if_neg hk, if_pos hfull]
    refine ⟨fun _ j hj => ?_, fun _ => hc⟩
    have hle := iterate_spread_length_le next depth (nodes, (cur, k) :: rest) j
    exact absurd (hle.trans_lt hj.1) (not_lt.2 hfull)
  | case4 nodes edges cur k rest hk hroom ih =>
    have hcur : cur ∈ nodes := hq (cur, k) (List.mem_cons_self ..)
    have hs : spread next depth (nodes, (cur, k) :: rest) =
        (grow nodes (next cur), rest ++ ((grow nodes (next cur)).drop nodes.length).map (·, k + 1)) := by
      rw [spread, if_neg hk]
    rw [loop, if_neg hk, if_neg hroom, meetsFrom_iff (nodes, _ :: _), hs]
    by_cases hfits : (grow nodes (next cur)).length ≤ cap
    · have hexp := expand_eq next cur k ⟨nodes, edges, rest⟩ h
      rw [List.take_of_length_le hfits] at hexp
      rw [ih (nodes_expand_le cur k _ h) ?_ ?_ (closed_expand h hcur hc hfits), hexp]
      · exact ⟨fun hm => ⟨fun hj => absurd hj.2 (not_lt.2 hfits), hm⟩, fun hm => hm.2⟩
      · rw [hexp]
        exact grow_nodup hnd
      · rw [hexp]
        intro p hp
        rcases List.mem_append.1 hp with hp | hp
        · exact mem_grow.2 (.inl (hq p (List.mem_cons_of_mem _ hp)))
        · obtain ⟨t, ht, rfl⟩ := List.mem_map.1 hp
          exact List.mem_of_mem_drop ht
    · refine ⟨fun hclosed => absurd hclosed ?_, fun hm => absurd ⟨not_le.1 hroom, not_le.1 hfits⟩ hm.1⟩
      have hexp := expand_eq next cur k ⟨nodes, edges, rest⟩ h
      have hlen : cap ≤ (expand next cap cur k ⟨nodes, edges, rest⟩).nodes.length := by
        rw [hexp]
        simp only [List.length_take]
        omega
      obtain ⟨hnodes, hedges⟩ := loop_full next depth _ hlen
      unfold State.Closed
      rw [hnodes, hedges]
      exact not_closed_of_over h hnd (by simpa using hfits)

theorem closed_iff (next : α → List α) (depth cap : Nat) (root : α) (h : 1 ≤ cap) :
    (loop next depth cap (start root)).Closed ↔ Meets next depth cap root := by
  refine closed_loop_iff (start root) h (List.nodup_singleton root) ?_ ?_
  · simp [start]
  · simp [start, State.Closed]

/-! ### Distances -/

/-- Between two turns, after `done` was taken off the queue. -/
structure Inv (next : α → List α) (depth cap : Nat) (root : α) (s : State α) (done : List (α × Nat)) : Prop where
  nodes : s.nodes = (done ++ s.queue).map Prod.fst
  nodup : s.nodes.Nodup
  room : s.nodes.length ≤ cap
  started : (root, 0) ∈ done ++ s.queue
  steps : ∀ p ∈ done ++ s.queue, p.2 ≤ depth ∧ Steps next root p.2 p.1
  before : ∀ p ∈ done, ∀ q ∈ s.queue, p.2 ≤ q.2
  sorted : s.queue.Pairwise fun p q => p.2 ≤ q.2 ∧ q.2 ≤ p.2 + 1
  edges : s.edges = (done.filter (·.2 < depth)).flatMap fun p => (next p.1).map (p.1, ·)
  closed : s.nodes.length < cap → ∀ p ∈ done, p.2 < depth → ∀ t ∈ next p.1, ∃ n ≤ p.2 + 1, (t, n) ∈ done ++ s.queue

omit [DecidableEq α] in
theorem inv_start (root : α) (h : 1 ≤ cap) : Inv next depth cap root (start root) [] where
  nodes := rfl
  nodup := List.nodup_singleton root
  room := h
  started := by simp [start]
  steps := by
    intro p hp
    obtain rfl : p = (root, 0) := by simpa [start] using hp
    exact ⟨Nat.zero_le _, .zero⟩
  before := by simp
  sorted := by simp [start]
  edges := by simp [start]
  closed := by simp

omit [DecidableEq α] in
/-- A node at the depth bound is taken off and not expanded. -/
theorem Inv.skip {root cur : α} {k : Nat} {rest done : List (α × Nat)} {nodes : List α} {edges : List (α × α)}
    (h : Inv next depth cap root ⟨nodes, edges, (cur, k) :: rest⟩ done) (hk : depth ≤ k) :
    Inv next depth cap root ⟨nodes, edges, rest⟩ (done ++ [(cur, k)]) := by
  have happ : done ++ [(cur, k)] ++ rest = done ++ (cur, k) :: rest := by simp
  obtain ⟨hhead, hsorted⟩ := List.pairwise_cons.1 h.sorted
  refine ⟨?_, h.nodup, h.room, ?_, ?_, ?_, hsorted, ?_, ?_⟩
  · rw [happ]
    exact h.nodes
  · rw [happ]
    exact h.started
  · rw [happ]
    exact h.steps
  · intro p hp q hq
    rcases List.mem_append.1 hp with hp | hp
    · exact h.before p hp q (List.mem_cons_of_mem _ hq)
    · obtain rfl := List.mem_singleton.1 hp
      exact (hhead q hq).1
  · have hno : [(cur, k)].filter (·.2 < depth) = [] := by simp [hk]
    rw [List.filter_append, hno, List.append_nil]
    exact h.edges
  · rw [happ]
    intro hroom p hp hlt
    rcases List.mem_append.1 hp with hp | hp
    · exact h.closed hroom p hp hlt
    · obtain rfl := List.mem_singleton.1 hp
      exact absurd hlt (not_lt.2 hk)

/-- What a search with room for `cap` nodes adds for an expanded node. -/
theorem take_grow {nodes : List α} (h : nodes.length ≤ cap) (hnd : nodes.Nodup) (ts : List α) :
    ∃ more, nodes ++ more = (grow nodes ts).take cap ∧ ∀ x ∈ more, x ∈ ts := by
  obtain ⟨more, hmore⟩ : nodes <+: (grow nodes ts).take cap := List.prefix_take_iff.2 ⟨prefix_grow _ _, h⟩
  refine ⟨more, hmore, fun x hx => ?_⟩
  have hin : x ∈ grow nodes ts := List.mem_of_mem_take (hmore ▸ List.mem_append_right nodes hx)
  rcases mem_grow.1 hin with hold | hn
  · have hall : (nodes ++ more).Nodup := hmore ▸ (grow_nodup hnd).sublist (List.take_sublist ..)
    exact absurd rfl ((List.nodup_append.1 hall).2.2 x hold x hx)
  · exact hn

omit [DecidableEq α] in
/-- A node that is known is at most one step behind the head of the queue. -/
theorem Inv.level {root cur : α} {k : Nat} {rest done : List (α × Nat)} {nodes : List α} {edges : List (α × α)}
    (h : Inv next depth cap root ⟨nodes, edges, (cur, k) :: rest⟩ done) {p : α × Nat}
    (hp : p ∈ done ++ (cur, k) :: rest) : p.2 ≤ k + 1 := by
  rcases List.mem_append.1 hp with hp | hp
  · exact (h.before p hp (cur, k) (by simp)).trans (Nat.le_succ k)
  · rcases List.mem_cons.1 hp with rfl | hp
    · exact Nat.le_succ k
    · exact ((List.pairwise_cons.1 h.sorted).1 p hp).2

/-- Expanding a node below the depth bound: what is new is one step further away. -/
theorem Inv.expand {root cur : α} {k : Nat} {rest done : List (α × Nat)} {nodes : List α} {edges : List (α × α)}
    (h : Inv next depth cap root ⟨nodes, edges, (cur, k) :: rest⟩ done) (hk : k < depth) :
    Inv next depth cap root (expand next cap cur k ⟨nodes, edges, rest⟩) (done ++ [(cur, k)]) := by
  obtain ⟨hhead, hsorted⟩ := List.pairwise_cons.1 h.sorted
  have hcur : Steps next root k cur := (h.steps (cur, k) (by simp)).2
  rw [expand_eq next cur k ⟨nodes, edges, rest⟩ h.room]
  dsimp only
  obtain ⟨more, hmore, hmem⟩ := take_grow h.room h.nodup (next cur)
  have hnew : ((grow nodes (next cur)).take cap).drop nodes.length = more := by rw [← hmore]; simp
  have happ : done ++ [(cur, k)] ++ (rest ++ more.map (·, k + 1)) =
      done ++ (cur, k) :: rest ++ more.map (·, k + 1) := by simp
  rw [hnew]
  refine ⟨?_, (grow_nodup h.nodup).sublist (List.take_sublist ..), List.length_take_le .., ?_, ?_, ?_, ?_, ?_, ?_⟩
  · have hold : nodes = (done ++ (cur, k) :: rest).map Prod.fst := h.nodes
    have hfst : (more.map (·, k + 1)).map Prod.fst = more := by simp [Function.comp_def]
    rw [happ, List.map_append, ← hold, hfst, hmore]
  · rw [happ]
    exact List.mem_append_left _ h.started
  · rw [happ]
    intro p hp
    rcases List.mem_append.1 hp with hp | hp
    · exact h.steps p hp
    · obtain ⟨x, hx, rfl⟩ := List.mem_map.1 hp
      exact ⟨hk, hcur.succ (hmem x hx)⟩
  · have hold : ∀ p ∈ done ++ [(cur, k)], p.2 ≤ k := by
      intro p hp
      rcases List.mem_append.1 hp with hp | hp
      · exact h.before p hp (cur, k) (by simp)
      · rw [List.mem_singleton.1 hp]
    intro p hp q hq
    rcases List.mem_append.1 hq with hq | hq
    · exact (hold p hp).trans (hhead q hq).1
    · obtain ⟨x, -, rfl⟩ := List.mem_map.1 hq
      exact (hold p hp).trans (Nat.le_succ k)
  · refine List.pairwise_append.2 ⟨hsorted, ?_, ?_⟩
    · exact List.pairwise_map.2 (List.pairwise_of_forall fun _ _ => ⟨le_rfl, Nat.le_succ _⟩)
    · intro p hp q hq
      obtain ⟨x, -, rfl⟩ := List.mem_map.1 hq
      obtain ⟨h₁, h₂⟩ := hhead p hp
      dsimp only at h₁ h₂ ⊢
      omega
  · have hyes : [(cur, k)].filter (·.2 < depth) = [(cur, k)] := by simp [hk]
    rw [List.filter_append, hyes, List.flatMap_append, ← h.edges]
    simp
  · intro hroom p hp hlt t ht
    rw [happ]
    have hfits : (grow nodes (next cur)).take cap = grow nodes (next cur) := by
      apply List.take_of_length_le
      rw [List.length_take] at hroom
      omega
    rcases List.mem_append.1 hp with hp | hp
    · have hlen : nodes.length < cap := by
        have hle := (List.prefix_append nodes more).length_le
        rw [hmore] at hle
        exact hle.trans_lt hroom
      obtain ⟨n, hn, hin⟩ := h.closed hlen p hp hlt t ht
      exact ⟨n, hn, List.mem_append_left _ hin⟩
    · obtain rfl := List.mem_singleton.1 hp
      have hin : t ∈ nodes ++ more := by
        rw [hmore, hfits]
        exact mem_grow.2 (.inr ht)
      rcases List.mem_append.1 hin with hold | hn
      · have hnodes : nodes = (done ++ (cur, k) :: rest).map Prod.fst := h.nodes
        rw [hnodes] at hold
        obtain ⟨⟨x, n⟩, hq, rfl⟩ := List.mem_map.1 hold
        exact ⟨n, h.level hq, List.mem_append_left _ hq⟩
      · exact ⟨k + 1, le_rfl, List.mem_append_right _ (List.mem_map_of_mem hn)⟩

/-- The search ends with an empty queue, or full. -/
theorem loop_inv {root : α} (s : State α) {done : List (α × Nat)} (h : Inv next depth cap root s done) :
    ∃ s' done', Inv next depth cap root s' done' ∧ (loop next depth cap s).nodes = s'.nodes ∧
      (loop next depth cap s).edges = s'.edges ∧ (s'.queue = [] ∨ cap ≤ s'.nodes.length) := by
  induction s using loop.induct next depth cap generalizing done with
  | case1 nodes edges =>
    rw [loop]
    exact ⟨_, done, h, rfl, rfl, .inl rfl⟩
  | case2 nodes edges cur k rest hk ih =>
    rw [loop, if_pos hk]
    exact ih (h.skip hk)
  | case3 nodes edges cur k rest hk hfull =>
    rw [loop, if_neg hk, if_pos hfull]
    exact ⟨_, done, h, rfl, rfl, .inr hfull⟩
  | case4 nodes edges cur k rest hk hroom ih =>
    rw [loop, if_neg hk, if_neg hroom]
    exact ih (h.expand (not_le.1 hk))

omit [DecidableEq α] in
theorem Inv.mem_of_steps {root x : α} {s : State α} {done : List (α × Nat)} {n : Nat}
    (h : Inv next depth cap root s done) (hq : s.queue = []) (hroom : s.nodes.length < cap)
    (hx : Steps next root n x) (hn : n ≤ depth) : ∃ m ≤ n, (x, m) ∈ done := by
  have hdone : done ++ s.queue = done := by rw [hq, List.append_nil]
  induction hx with
  | zero => exact ⟨0, le_rfl, hdone ▸ h.started⟩
  | @succ n b c _ hc ih =>
    obtain ⟨m, hm, hb⟩ := ih (by omega)
    obtain ⟨l, hl, hin⟩ := h.closed hroom (b, m) hb (show m < depth by omega) c hc
    dsimp only at hl
    exact ⟨l, by omega, hdone ▸ hin⟩

/-- A search from `root`: every node is within `depth`, and if there was room left, the nodes are all of these and the
edges those of the nodes before the last layer. -/
theorem covers (next : α → List α) (depth cap : Nat) (root : α) (h : 1 ≤ cap) (hd : 1 ≤ depth) :
    let s := loop next depth cap (start root)
    s.nodes.Nodup ∧ root ∈ s.nodes ∧ s.nodes.length ≤ cap ∧ (∀ x ∈ s.nodes, Within next depth root x) ∧
      (s.nodes.length < cap →
        (∀ x, Within next depth root x → x ∈ s.nodes) ∧
        ∃ sources : List α, sources.Nodup ∧ (∀ x, x ∈ sources ↔ Within next (depth - 1) root x) ∧
          s.edges = sources.flatMap fun x => (next x).map (x, ·)) := by
  intro s
  obtain ⟨s', done, hinv, hnodes, hedges, hend⟩ := loop_inv (start root) (inv_start root h)
  change s.nodes = s'.nodes at hnodes
  change s.edges = s'.edges at hedges
  have hwithin : ∀ x ∈ s'.nodes, Within next depth root x := by
    intro x hx
    rw [hinv.nodes] at hx
    obtain ⟨⟨x, n⟩, hp, rfl⟩ := List.mem_map.1 hx
    exact ⟨n, hinv.steps (x, n) hp⟩
  have hroot : root ∈ s'.nodes := by
    rw [hinv.nodes]
    exact List.mem_map_of_mem hinv.started
  rw [hnodes, hedges]
  refine ⟨hinv.nodup, hroot, hinv.room, hwithin, fun hroom => ?_⟩
  have hq : s'.queue = [] := hend.resolve_right (not_le.2 hroom)
  have hdone : s'.nodes = done.map Prod.fst := by rw [hinv.nodes, hq, List.append_nil]
  refine ⟨?_, (done.filter (·.2 < depth)).map Prod.fst, ?_, ?_, ?_⟩
  · rintro x ⟨n, hn, hx⟩
    obtain ⟨m, -, hin⟩ := hinv.mem_of_steps hq hroom hx hn
    rw [hdone]
    exact List.mem_map_of_mem hin
  · have hnd := hinv.nodup
    rw [hdone] at hnd
    exact hnd.sublist (List.Sublist.map _ List.filter_sublist)
  · intro x
    constructor
    · intro hx
      obtain ⟨⟨x, n⟩, hp, rfl⟩ := List.mem_map.1 hx
      obtain ⟨hin, hlt⟩ := List.mem_filter.1 hp
      have hn : n < depth := of_decide_eq_true hlt
      exact ⟨n, by omega, (hinv.steps (x, n) (List.mem_append_left _ hin)).2⟩
    · rintro ⟨n, hn, hx⟩
      obtain ⟨m, hm, hin⟩ := hinv.mem_of_steps hq hroom hx (by omega)
      refine List.mem_map.2 ⟨(x, m), List.mem_filter.2 ⟨hin, decide_eq_true ?_⟩, rfl⟩
      show m < depth
      omega
  · rw [hinv.edges, List.flatMap_map]

end

end Bfs
