import IdaRs.DscTask

/-!
# What the background DSC task settles and closes

`Phase` is what matters of the task's position: before its open, waiting for it, owning the generation it
returned, closing that, and settled. `PhaseInv` ties the phase to the queue and to the lifetimes the task
created; everybody else keeps it (`Other.phase`), and so does a turn of the loop for the task itself as long as
its open does not return somebody else's database (`serve_inv`). A generation that is no longer current never
comes back, so a close that was answered settles the matter.
-/

namespace IdaRs.DscTask

open Threads IdaRs.Task

variable {s s' : Shared} {pc pc' : Pc} {now : Nat → Moment} {g : Nat} {req : IdaRequest}

inductive Phase
  | before
  | opening
  | own (generation : Nat)
  | closing (generation : Nat)
  /-- `ok` when the close was answered. -/
  | closed (generation : Nat) (ok : Bool)
  | settled
deriving DecidableEq

def Pc.phase : Pc → Phase
  | .start | .idatSpawn | .idatWait | .idatStop _ | .idatSettled .. | .idatOutput .. | .openSend => .before
  | .openWait => .opening
  | .opened db | .moduleWait db | .moduleCheck db _ | .frameworkCheck db .. | .frameworkWait db .. |
    .frameworkLoaded db .. | .statusWait db _ | .statusCheck db .. | .lastCheck db .. | .complete db .. =>
    .own db.generation
  | .closeSend generation _ => .own generation
  | .closeWait generation _ => .closing generation
  | .closeDone generation _ r => .closed generation (match r with | .ok _ => true | .error _ => false)
  | .done .. => .settled

/-! ### The queue and the lifetimes -/

/-- No request of the task is in the queue. -/
def Idle (s : Shared) : Prop := ∀ x ∈ s.queue, x.1 = false

/-- The task's only request in the queue, not answered yet. -/
structure Queued (s : Shared) (req : IdaRequest) : Prop where
  queue : ∃ a b, s.queue = a ++ (true, req) :: b ∧ (∀ x ∈ a, x.1 = false) ∧ ∀ x ∈ b, x.1 = false
  response : s.response = none
  running : s.stopped = false

/-- The loop has ended without an answer to the task. -/
structure Lost (s : Shared) : Prop where
  idle : Idle s
  response : s.response = none
  stopped : s.stopped = true

/-- The task's open created the lifetime `g`, and no other. -/
def Owns (s : Shared) (g : Nat) : Prop := ∀ g', (true, g') ∈ s.created ↔ g' = g

def OwnsNone (s : Shared) : Prop := ∀ g, (true, g) ∉ s.created

/-- What the answer to the task's open says of the lifetimes. -/
structure OpenedBy (s : Shared) (r : Except ToolError OpenedDatabase) : Prop where
  ok : ∀ db, r = .ok db → Owns s db.generation
  error : ∀ e, r = .error e → OwnsNone s

def PhaseInv (s : Shared) : Phase → Prop
  | .before => Idle s ∧ OwnsNone s
  | .opening =>
    OwnsNone s ∧ (Queued s (.openIdb s.openPath) ∨ Lost s) ∨
      Idle s ∧ ∃ r, s.response = some (.opened r) ∧ OpenedBy s r
  | .own g => Idle s ∧ Owns s g
  | .closing g =>
    Owns s g ∧ (Queued s (.closeIfGeneration g) ∨ Lost s ∨
      Idle s ∧ (∃ r, s.response = some (.conditional r)) ∧ s.loop.generation ≠ some g)
  | .closed g ok => Idle s ∧ Owns s g ∧ (ok = true → s.loop.generation ≠ some g)
  | .settled => Idle s

/-- Every lifetime has one creator, and the task closed none but its own. -/
structure LoopInv (s : Shared) : Prop where
  generation : s.loop.idb ≠ none ↔ s.loop.generation ≠ none
  known : ∀ g, s.loop.generation = some g → ∃ byTask, (byTask, g) ∈ s.created
  bound : ∀ x ∈ s.created, x.2 ≤ s.loop.nextGeneration
  unique : ∀ b b' g, (b, g) ∈ s.created → (b', g) ∈ s.created → b = b'
  closed : ∀ g, (true, g) ∈ s.closed → (true, g) ∈ s.created

/-- What a step that is not the task's leaves to it. -/
structure Other (s s' : Shared) : Prop where
  path : s'.openPath = s.openPath
  created : ∀ g, (true, g) ∈ s'.created ↔ (true, g) ∈ s.created
  response : s'.response = s.response
  next : s.loop.nextGeneration ≤ s'.loop.nextGeneration
  gone : ∀ g ≤ s.loop.nextGeneration, s.loop.generation ≠ some g → s'.loop.generation ≠ some g
  idle : Idle s → Idle s'
  queued : ∀ req, Queued s req → Queued s' req ∨ Lost s'
  lost : Lost s → Lost s'

theorem Other.ownsNone (h : Other s s') (ho : OwnsNone s) : OwnsNone s' := fun g hg => ho g ((h.created g).1 hg)

theorem Other.owns (h : Other s s') (ho : Owns s g) : Owns s' g := fun g' => (h.created g').trans (ho g')

theorem Owns.gone (hl : LoopInv s) (ho : Owns s g) (h : Other s s') (hg : s.loop.generation ≠ some g) :
    s'.loop.generation ≠ some g :=
  h.gone g (hl.bound (true, g) ((ho g).2 rfl)) hg

theorem Other.phase (h : Other s s') (hl : LoopInv s) {p : Phase} (hp : PhaseInv s p) : PhaseInv s' p := by
  cases p with
  | before => exact ⟨h.idle hp.1, h.ownsNone hp.2⟩
  | opening =>
    rcases hp with ⟨hnone, hq | hlost⟩ | ⟨hidle, r, hr, ho⟩
    · refine .inl ⟨h.ownsNone hnone, ?_⟩
      rw [h.path]
      exact h.queued _ hq
    · exact .inl ⟨h.ownsNone hnone, .inr (h.lost hlost)⟩
    · exact .inr ⟨h.idle hidle, r, h.response.trans hr, fun db hdb => h.owns (ho.ok db hdb),
        fun e he => h.ownsNone (ho.error e he)⟩
  | own g => exact ⟨h.idle hp.1, h.owns hp.2⟩
  | closing g =>
    obtain ⟨ho, hq | hlost | ⟨hidle, ⟨r, hr⟩, hg⟩⟩ := hp
    · exact ⟨h.owns ho, (h.queued _ hq).imp_right .inl⟩
    · exact ⟨h.owns ho, .inr (.inl (h.lost hlost))⟩
    · exact ⟨h.owns ho, .inr (.inr ⟨h.idle hidle, ⟨r, h.response.trans hr⟩, ho.gone hl h hg⟩)⟩
  | closed g ok => exact ⟨h.idle hp.1, h.owns hp.2.1, fun hok => hp.2.1.gone hl h (hp.2.2 hok)⟩
  | settled => exact h.idle hp

/-! ### A turn of the loop -/

section Respond

variable {b : Bool} {r : Response}

@[simp] theorem respond_true : s.respond true r = { s with response := some r } := rfl

@[simp] theorem respond_false : s.respond false r = s := rfl

end Respond

theorem LoopInv.respond (hl : LoopInv s) (b : Bool) (r : Response) : LoopInv (s.respond b r) := by
  cases b with
  | false => exact hl
  | true => exact ⟨hl.generation, hl.known, hl.bound, hl.unique, hl.closed⟩

theorem serveOpen_cases (hl : LoopInv s) (b : Bool) (path : String) (run : OpenRun) :
    (∃ e, s.serveOpen b path run = s.respond b (.opened (.error e))) ∨
    (∃ current generation, s.loop.idb = some current ∧ run ≠ .cancelled ∧
      databasePathsMatch current (expandPath s.files path) = true ∧
      s.serveOpen b path run = s.respond b (.opened (.ok ⟨current, generation⟩))) ∨
    ∃ db, s.loop.idb = none ∧ s.serveOpen b path run =
      { s with
        loop := ⟨some db, some (s.loop.nextGeneration + 1), s.loop.nextGeneration + 1⟩
        created := (b, s.loop.nextGeneration + 1) :: s.created }.respond b
          (.opened (.ok ⟨db, s.loop.nextGeneration + 1⟩)) := by
  unfold Shared.serveOpen
  rcases LoopState.serveOpen_cases s.files path run hl.generation.1 with
    ⟨e, h⟩ | ⟨current, g, hidb, -, hrun, hmatch, h⟩ | ⟨db, hidb, h⟩
  · rw [h]
    simp only [if_true, List.nil_append]
    exact .inl ⟨e, rfl⟩
  · rw [h]
    simp only [if_true, List.nil_append]
    exact .inr (.inl ⟨current, g, hidb, hrun, hmatch, rfl⟩)
  · rw [h]
    simp only [Nat.succ_ne_self, if_false, List.cons_append, List.nil_append]
    exact .inr (.inr ⟨db, hidb, rfl⟩)

theorem LoopInv.opened (hl : LoopInv s) (b : Bool) (db : String) :
    LoopInv
      { s with
        loop := ⟨some db, some (s.loop.nextGeneration + 1), s.loop.nextGeneration + 1⟩
        created := (b, s.loop.nextGeneration + 1) :: s.created } where
  generation := by simp
  known g hg := by
    cases hg
    exact ⟨b, List.mem_cons_self⟩
  bound x hx := by
    rcases List.mem_cons.1 hx with rfl | hx
    · exact Nat.le_refl _
    · exact Nat.le_succ_of_le (hl.bound x hx)
  unique b₁ b₂ g h₁ h₂ := by
    -- the new generation is above all others
    have hnew : ∀ b', (b', s.loop.nextGeneration + 1) ∉ s.created := fun b' h' =>
      absurd (hl.bound _ h') (Nat.not_succ_le_self _)
    rcases List.mem_cons.1 h₁ with h₁ | h₁ <;> rcases List.mem_cons.1 h₂ with h₂ | h₂
    · rw [(Prod.mk.inj h₁).1, (Prod.mk.inj h₂).1]
    · exact absurd ((Prod.mk.inj h₁).2 ▸ h₂) (hnew _)
    · exact absurd ((Prod.mk.inj h₂).2 ▸ h₁) (hnew _)
    · exact hl.unique _ _ _ h₁ h₂
  closed g hg := List.mem_cons_of_mem _ (hl.closed g hg)

theorem LoopInv.serveOpen (hl : LoopInv s) (b : Bool) (path : String) (run : OpenRun) :
    LoopInv (s.serveOpen b path run) := by
  rcases serveOpen_cases hl b path run with ⟨e, h⟩ | ⟨_, _, -, -, -, h⟩ | ⟨db, -, h⟩
  · exact h ▸ hl.respond b _
  · exact h ▸ hl.respond b _
  · exact h ▸ (hl.opened b db).respond b _

/-- The open database is closed; it is the task's own when the task asks for it. -/
theorem LoopInv.serveClose (hl : LoopInv s) {b : Bool}
    (hown : b = true → ∀ g, s.loop.generation = some g → (true, g) ∈ s.created) : LoopInv (s.serveClose b) where
  generation := by simp [Shared.serveClose, LoopState.serveClose]
  known g hg := by cases hg
  bound := hl.bound
  unique := hl.unique
  closed g hg := by
    rcases List.mem_append.1 hg with hg | hg
    · obtain ⟨g', hg', heq⟩ := List.mem_map.1 hg
      obtain ⟨rfl, rfl⟩ := Prod.mk.inj heq
      rw [Option.mem_toList, Shared.current] at hg'
      split at hg'
      · exact hown rfl g' hg'
      · cases hg'
    · exact hl.closed g hg

theorem Other.refl (s : Shared) : Other s s :=
  ⟨rfl, fun _ => .rfl, rfl, Nat.le_refl _, fun _ _ h => h, id, fun _ h => .inl h, id⟩

theorem Other.trans {s₁ s₂ s₃ : Shared} (h : Other s₁ s₂) (h' : Other s₂ s₃) : Other s₁ s₃ where
  path := h'.path.trans h.path
  created g := (h'.created g).trans (h.created g)
  response := h'.response.trans h.response
  next := h.next.trans h'.next
  gone g hg hne := h'.gone g (hg.trans h.next) (h.gone g hg hne)
  idle hi := h'.idle (h.idle hi)
  queued req hq := (h.queued req hq).elim (h'.queued req) fun hlost => .inr (h'.lost hlost)
  lost hlost := h'.lost (h.lost hlost)

theorem Other.serveOpen (hl : LoopInv s) (path : String) (run : OpenRun) : Other s (s.serveOpen false path run) := by
  rcases serveOpen_cases hl false path run with ⟨e, h⟩ | ⟨_, _, -, -, -, h⟩ | ⟨db, -, h⟩
  · rw [h, respond_false]
    exact .refl s
  · rw [h, respond_false]
    exact .refl s
  · rw [h, respond_false]
    refine ⟨rfl, fun g => ?_, rfl, Nat.le_succ _, fun g hg _ => ?_, id,
      fun _ h => .inl ⟨h.queue, h.response, h.running⟩, fun h => ⟨h.idle, h.response, h.stopped⟩⟩
    · simp
    · simp only [ne_eq, Option.some.injEq]
      omega

theorem Other.serveClose (s : Shared) : Other s (s.serveClose false) :=
  ⟨rfl, fun _ => .rfl, rfl, Nat.le_refl _, fun _ _ _ => nofun, id,
    fun _ h => .inl ⟨h.queue, h.response, h.running⟩, fun h => ⟨h.idle, h.response, h.stopped⟩⟩

theorem Other.serveCloseIfGeneration (s : Shared) (g : Nat) : Other s (s.serveCloseIfGeneration false g) := by
  unfold Shared.serveCloseIfGeneration
  simp only [respond_false]
  split
  · exact .serveClose s
  · exact .refl s

/-- The loop ends, and a request in the queue is lost. -/
theorem Other.shutdown (s : Shared) : Other s { s.serveClose false with stopped := true, queue := [] } :=
  ⟨rfl, fun _ => .rfl, rfl, Nat.le_refl _, fun _ _ _ => nofun, fun _ => nofun,
    fun _ h => .inr ⟨nofun, h.response, rfl⟩, fun h => ⟨nofun, h.response, rfl⟩⟩

/-- Another request leaves the queue. -/
theorem Other.take {queue : List (Bool × IdaRequest)} (hq : s.queue = (false, req) :: queue) :
    Other s { s with queue } := by
  have hidle : Idle s → ∀ x ∈ queue, x.1 = false := fun h x hx => h x (hq ▸ List.mem_cons_of_mem _ hx)
  refine ⟨rfl, fun _ => .rfl, rfl, Nat.le_refl _, fun _ _ h => h, hidle, fun req' h => .inl ?_, fun h =>
    ⟨hidle h.idle, h.response, h.stopped⟩⟩
  obtain ⟨a, b, hab, ha, hb⟩ := h.queue
  cases a with
  | nil => rw [hq] at hab; cases hab
  | cons x a =>
    rw [hq] at hab
    exact ⟨⟨a, b, (List.cons.inj hab).2, fun y hy => ha y (List.mem_cons_of_mem _ hy), hb⟩, h.response, h.running⟩

/-- The loop takes a request of another session. -/
theorem serve_other {run : OpenRun} {queue : List (Bool × IdaRequest)} (hl : LoopInv s)
    (hq : s.queue = (false, req) :: queue) (hs : s.serve run = some s') : LoopInv s' ∧ Other s s' := by
  have hl' : LoopInv { s with queue } := ⟨hl.generation, hl.known, hl.bound, hl.unique, hl.closed⟩
  have ho := Other.take hq
  unfold Shared.serve at hs
  rw [hq] at hs
  cases req with
  | openIdb path =>
    cases hs
    exact ⟨hl'.serveOpen false path run, ho.trans (.serveOpen hl' path run)⟩
  | close =>
    cases hs
    exact ⟨hl'.serveClose nofun, ho.trans (.serveClose _)⟩
  | closeIfGeneration g =>
    cases hs
    refine ⟨?_, ho.trans (.serveCloseIfGeneration _ g)⟩
    unfold Shared.serveCloseIfGeneration
    simp only [respond_false]
    split
    · exact hl'.serveClose nofun
    · exact hl'
  | shutdown =>
    cases hs
    have hc := hl'.serveClose (b := false) nofun
    exact ⟨⟨hc.generation, hc.known, hc.bound, hc.unique, hc.closed⟩, ho.trans (.shutdown _)⟩
  | other =>
    cases hs
    exact ⟨hl', ho⟩

/-- A request of the task at the head of the queue: its open or its close. -/
theorem PhaseInv.head {queue : List (Bool × IdaRequest)} {p : Phase} (hp : PhaseInv s p)
    (hq : s.queue = (true, req) :: queue) :
    (∀ x ∈ queue, x.1 = false) ∧
      (p = .opening ∧ req = .openIdb s.openPath ∧ OwnsNone s ∨
        ∃ g, p = .closing g ∧ req = .closeIfGeneration g ∧ Owns s g) := by
  have hidle : ¬ Idle s := fun h => nomatch h (true, req) (hq ▸ List.mem_cons_self)
  have hhead : ∀ {req'}, Queued s req' → req = req' ∧ ∀ x ∈ queue, x.1 = false := by
    intro req' h
    obtain ⟨a, b, hab, ha, hb⟩ := h.queue
    rw [hq] at hab
    cases a with
    | nil => cases hab; exact ⟨rfl, hb⟩
    | cons x a =>
      obtain ⟨rfl, -⟩ := List.cons.inj hab
      exact absurd (ha _ List.mem_cons_self) nofun
  cases p with
  | opening =>
    rcases hp with ⟨hnone, hqueued | hlost⟩ | ⟨h, -⟩
    · obtain ⟨rfl, hqueue⟩ := hhead hqueued
      exact ⟨hqueue, .inl ⟨rfl, rfl, hnone⟩⟩
    · exact absurd hlost.idle hidle
    · exact absurd h hidle
  | closing g =>
    obtain ⟨ho, hqueued | hlost | ⟨h, -⟩⟩ := hp
    · obtain ⟨rfl, hqueue⟩ := hhead hqueued
      exact ⟨hqueue, .inr ⟨g, rfl, rfl, ho⟩⟩
    · exact absurd hlost.idle hidle
    · exact absurd h hidle
  | before => exact absurd hp.1 hidle
  | own g => exact absurd hp.1 hidle
  | closed g ok => exact absurd hp.1 hidle
  | settled => exact absurd hp hidle

/-- The task's open, when it does not find its database open. -/
theorem serveOpen_own (hl : LoopInv s) (hidle : Idle s) (hnone : OwnsNone s) {path : String} {run : OpenRun}
    (hshared : ∀ current, s.loop.idb = some current → run ≠ .cancelled →
      databasePathsMatch current (expandPath s.files path) = false) :
    PhaseInv (s.serveOpen true path run) .opening := by
  rcases serveOpen_cases hl true path run with ⟨e, h⟩ | ⟨current, _, hidb, hrun, hmatch, -⟩ | ⟨db, -, h⟩
  · rw [h, respond_true]
    exact .inr ⟨hidle, _, rfl, nofun, fun _ _ => hnone⟩
  · rw [hshared current hidb hrun] at hmatch
    cases hmatch
  · rw [h, respond_true]
    refine .inr ⟨hidle, _, rfl, ?_, nofun⟩
    rintro db' ⟨⟩ g
    simp [hnone g]

/-- The task's close: afterwards its generation is not open. -/
theorem serveCloseIfGeneration_own (hl : LoopInv s) (hidle : Idle s) (ho : Owns s g) :
    LoopInv (s.serveCloseIfGeneration true g) ∧ PhaseInv (s.serveCloseIfGeneration true g) (.closing g) := by
  by_cases hg : s.loop.generation = some g
  · have h : s.serveCloseIfGeneration true g = (s.serveClose true).respond true (.conditional .closed) := by
      simp only [Shared.serveCloseIfGeneration, LoopState.serveCloseIfGeneration, if_pos hg]
    rw [h]
    refine ⟨(hl.serveClose fun _ g' hg' => (ho g').2 ?_).respond true _, ho, .inr (.inr ⟨hidle, ⟨_, rfl⟩, nofun⟩)⟩
    exact Option.some.inj (hg'.symm.trans hg)
  · have h : s.serveCloseIfGeneration true g = s.respond true (.conditional .notCurrent) := by
      simp only [Shared.serveCloseIfGeneration, LoopState.serveCloseIfGeneration, if_neg hg]
    rw [h]
    exact ⟨hl.respond true _, ho, .inr (.inr ⟨hidle, ⟨_, rfl⟩, hg⟩)⟩

/-- One turn of the loop. -/
theorem serve_inv {run : OpenRun} {p : Phase} (hl : LoopInv s) (hp : PhaseInv s p)
    (hshared : sharesDatabase s (.serve run) = false) (hs : s.serve run = some s') :
    LoopInv s' ∧ PhaseInv s' p ∧ (Idle s → Other s s') := by
  cases hq : s.queue with
  | nil => rw [Shared.serve, hq] at hs; cases hs
  | cons x queue =>
    obtain ⟨b, req⟩ := x
    cases b with
    | false =>
      obtain ⟨hl', ho⟩ := serve_other hl hq hs
      exact ⟨hl', ho.phase hl hp, fun _ => ho⟩
    | true =>
      have hbusy : ¬ Idle s := fun h => nomatch h (true, req) (hq ▸ List.mem_cons_self)
      have hl' : LoopInv { s with queue } := ⟨hl.generation, hl.known, hl.bound, hl.unique, hl.closed⟩
      unfold Shared.serve at hs
      rw [hq] at hs
      obtain ⟨hidle, ⟨rfl, rfl, hnone⟩ | ⟨g, rfl, rfl, ho⟩⟩ := hp.head hq
      · cases hs
        refine ⟨hl'.serveOpen true _ run, serveOpen_own hl' hidle hnone ?_, fun h => absurd h hbusy⟩
        intro current (hidb : s.loop.idb = some current) hrun
        simp only [sharesDatabase, hq, hidb, decide_eq_true hrun, Bool.true_and] at hshared
        exact hshared
      · cases hs
        obtain ⟨hl'', hp'⟩ := serveCloseIfGeneration_own hl' hidle ho
        exact ⟨hl'', hp', fun h => absurd h hbusy⟩

end IdaRs.DscTask
