import IdaRs.PoolLease

/-!
# Capacity of the pool

`pool_capacity`: reserved spawns and live children never exceed `maxWorkers`, ids are not used twice, a
reservation is counted exactly as long as one task holds it, and `lease` gives up with `PoolExhausted` exactly
when it met no idle child and counted `maxWorkers`. What `lease` counts is each child at its visit: the lock
of a child is given up before the next one is looked at (`exhausted_with_idle_child`).
-/

namespace IdaRs.Pool

open Threads

variable {s s' : Shared} {i j w : Nat} {pc pc' : Pc} {new : List Pc} {c c' : Conf Shared Pc}

/-! ### Live workers -/

theorem Shared.isLive_iff : s.isLive w ↔ ∃ x, s.slots w = some x ∧ x.state ≠ .dead := by
  cases h : s.slots w <;> simp [Shared.isLive, h]

/-- No worker comes back to life. -/
theorem Step.isLive (h : Step s i pc s' pc' new) (hfresh : ∀ id who, pc = .spawn id who → s.slots id = none)
    (hw : (s.slots w).isSome) (hl : s'.isLive w) : s.isLive w := by
  obtain ⟨x, hx⟩ := Option.isSome_iff_exists.1 hw
  obtain ⟨y, hy, -, hst⟩ := h.slot hfresh hx
  obtain ⟨y', hy', hne⟩ := Shared.isLive_iff.1 hl
  obtain rfl := Option.some.inj (hy.symm.trans hy')
  exact Shared.isLive_iff.2 ⟨x, hx, fun hd => hne (hst.dead hd)⟩

theorem Step.config (h : Step s i pc s' pc' new) : s'.config = s.config := by
  cases h
  case ensured | installEnsureFailed => rw [afterDying_shared]; split <;> rfl
  case clear => unfold clearHandle; split <;> rfl
  all_goals rfl

theorem EnvStep.config (h : EnvStep c s' new) : s'.config = c.shared.config := by
  cases h <;> rfl

/-! ### What a scan has counted -/

/-- `lease` on its way through the children: `seen` is what it found so far. -/
structure ScanCount (s : Shared) (todo : List Nat) (a : Nat) (d : List Nat) (seen : List (Nat × ChildState)) :
    Prop where
  children : s.children = seen.map Prod.fst ++ todo
  active : a = s.spawning.length + seen.countP (·.2 ≠ .dead)
  busy : ∀ p ∈ seen, p.2 ≠ .idle
  dead : ∀ p ∈ seen, p.2 = .dead → ¬ s.isLive p.1
  deadIds : ∀ w ∈ d, (w, .dead) ∈ seen
  bound : a + todo.countP s.isLive ≤ s.config.maxWorkers

def CapacityTask (s : Shared) (pc : Pc) : Prop :=
  ∀ l todo a d seen, pc = .scan l todo a d seen → ScanCount s todo a d seen

theorem ScanCount.start (h : s.liveOrReserved ≤ s.config.maxWorkers) :
    ScanCount s s.children s.spawning.length [] [] := by
  refine ⟨by simp, by simp, by simp, by simp, by simp, h⟩

theorem ScanCount.busyChild {todo d : List Nat} {a : Nat} {seen : List (Nat × ChildState)} {st : ChildState}
    (h : ScanCount s (w :: todo) a d seen) (hs : (s.slots w).map Slot.state = some st) (hd : st ≠ .dead)
    (hi : st ≠ .idle) : ScanCount s todo (a + 1) d (seen ++ [(w, st)]) := by
  obtain ⟨x, hx, rfl⟩ := Option.map_eq_some_iff.1 hs
  have hlive : s.isLive w := Shared.isLive_iff.2 ⟨x, hx, hd⟩
  refine ⟨by simp [h.children], ?_, ?_, ?_, fun v hv => List.mem_append_left _ (h.deadIds v hv), ?_⟩
  · rw [List.countP_append, h.active]
    simp [hd]
    omega
  · intro p hp
    rcases List.mem_append.1 hp with hp | hp
    · exact h.busy p hp
    · rw [List.mem_singleton.1 hp]; exact hi
  · intro p hp hpd
    rcases List.mem_append.1 hp with hp | hp
    · exact h.dead p hp hpd
    · rw [List.mem_singleton.1 hp] at hpd; exact absurd hpd hd
  · have := h.bound
    rw [List.countP_cons_of_pos hlive] at this
    omega

theorem ScanCount.deadChild {todo d : List Nat} {a : Nat} {seen : List (Nat × ChildState)}
    (h : ScanCount s (w :: todo) a d seen) (hs : (s.slots w).map Slot.state = some .dead) :
    ScanCount s todo a (d ++ [w]) (seen ++ [(w, ChildState.dead)]) := by
  obtain ⟨x, hx, hd⟩ := Option.map_eq_some_iff.1 hs
  have hlive : ¬ s.isLive w := fun hl => by
    obtain ⟨y, hy, hne⟩ := Shared.isLive_iff.1 hl
    obtain rfl := Option.some.inj (hx.symm.trans hy)
    exact hne hd
  refine ⟨by simp [h.children], by simp [h.active], ?_, ?_, ?_, ?_⟩
  · intro p hp
    rcases List.mem_append.1 hp with hp | hp
    · exact h.busy p hp
    · rw [List.mem_singleton.1 hp]; simp
  · intro p hp hpd
    rcases List.mem_append.1 hp with hp | hp
    · exact h.dead p hp hpd
    · rw [List.mem_singleton.1 hp]; exact hlive
  · intro v hv
    rcases List.mem_append.1 hv with hv | hv
    · exact List.mem_append_left _ (h.deadIds v hv)
    · rw [List.mem_singleton.1 hv]; simp
  · have := h.bound
    rwa [List.countP_cons_of_neg hlive] at this

/-- Lists and configuration as before, and nobody alive who was not. -/
theorem ScanCount.mono {todo d : List Nat} {a : Nat} {seen : List (Nat × ChildState)} (h : ScanCount s todo a d seen)
    (hc : s'.children = s.children) (hsp : s'.spawning = s.spawning) (hcfg : s'.config = s.config)
    (hlive : ∀ w ∈ s.children, s'.isLive w → s.isLive w) :
    ScanCount s' todo a d seen := by
  refine ⟨hc ▸ h.children, hsp ▸ h.active, h.busy, fun p hp hpd hl => ?_, h.deadIds, ?_⟩
  · refine h.dead p hp hpd (hlive _ ?_ hl)
    rw [h.children]
    exact List.mem_append_left _ (List.mem_map_of_mem hp)
  · have : todo.countP s'.isLive ≤ todo.countP s.isLive := List.countP_mono_left fun w hw hl => by
      refine hlive w ?_ hl
      rw [h.children]; exact List.mem_append_right _ hw
    have := h.bound
    rw [hcfg]
    omega

/-- At the end of a scan nobody is alive who was not counted. -/
theorem ScanCount.live_le {d : List Nat} {a : Nat} {seen : List (Nat × ChildState)} (h : ScanCount s [] a d seen) :
    s.liveOrReserved ≤ a := by
  have hle : (seen.map Prod.fst).countP s.isLive ≤ seen.countP (·.2 ≠ .dead) := by
    rw [List.countP_map]
    refine List.countP_mono_left fun p hp hl => ?_
    simpa using fun hpd => h.dead p hp hpd hl
  have := h.active
  rw [Shared.liveOrReserved, h.children, List.append_nil]
  omega

theorem Step.liveOrReserved_le (hs : Step s i pc s' pc' new) (h : s.liveOrReserved ≤ s.config.maxWorkers)
    (hfresh : ∀ id who, pc = .spawn id who → s.slots id = none) (hJ : MembersShared s) (hM : MembersTask s i pc)
    (hT : CapacityTask s pc) : s'.liveOrReserved ≤ s'.config.maxWorkers := by
  have hlive : ∀ w ∈ s.children, s'.isLive w → s.isLive w := fun w hw => hs.isLive hfresh (hJ.slot w hw)
  have hsub : ∀ {cs : List Nat}, cs.Sublist s.children → cs.countP s'.isLive ≤ s.children.countP s.isLive :=
    fun hcs => (List.countP_mono_left fun w hw => hlive w (hcs.subset hw)).trans hcs.countP_le
  rw [hs.config]
  rw [Shared.liveOrReserved] at h ⊢
  cases hs.lists with
  | same hc hsp =>
    have := hsub (.refl s.children)
    rw [hc, hsp]
    omega
  | swept _ _ _ _ _ _ hc hsp | forgot _ _ _ hc hsp =>
    have : s'.children.countP s'.isLive ≤ s.children.countP s.isLive := hsub (hc ▸ List.filter_sublist)
    rw [hsp]
    omega
  | sweptReserved l a d seen hpc ha hc hsp =>
    have : s'.children.countP s'.isLive ≤ s.children.countP s.isLive := hsub (hc ▸ List.filter_sublist)
    have hle := (hT l [] a d seen hpc).live_le
    rw [Shared.liveOrReserved] at hle
    rw [hsp, List.length_append, List.length_singleton]
    omega
  | reserved _ hl hc hsp =>
    have := List.countP_le_length (p := s'.isLive) (l := s.children)
    rw [hc, hsp, List.length_append, List.length_singleton]
    omega
  | installed id _ hpc hc hsp =>
    have := hsub (.refl s.children)
    have hone := List.countP_le_length (p := s'.isLive) (l := [id])
    have hid := hM.reserved id true hpc
    have hpos := List.length_pos_of_mem hid
    rw [hc, hsp, List.length_erase_of_mem hid, List.countP_append]
    rw [List.length_singleton] at hone
    omega
  | released id b _ hpc hc hsp =>
    have := hsub (.refl s.children)
    have := List.length_erase_le (a := id) (l := s.spawning)
    rw [hc, hsp]
    omega

theorem Step.capacityTask_self (hs : Step s i pc s' pc' new) (h : s.liveOrReserved ≤ s.config.maxWorkers)
    (hT : CapacityTask s pc) : CapacityTask s' pc' := by
  intro l todo a d seen hp
  have quiet : ¬ pc'.quiet := by rw [hp]; simp [Pc.quiet]
  cases hs
  case lockScan => cases hp; exact ScanCount.start (s := s.lockPool i) h
  case scanDead hst => cases hp; exact (hT _ _ _ _ _ rfl).deadChild hst
  case scanBusy hst hd hi => cases hp; exact (hT _ _ _ _ _ rfl).busyChild hst hd hi
  case ensured | installEnsureFailed => exact absurd (afterDying_quiet ..) quiet
  case refused => exact absurd (opFailed_quiet ..) quiet
  case answered ha => exact absurd ha.quiet quiet
  case clear | resDrop => split at hp <;> cases hp
  all_goals cases hp

/-- A scan of another task goes on undisturbed: it holds the pool lock. -/
theorem CapacityTask.other {m : Pc} (h : CapacityTask s m) (hs : Step s i pc s' pc' new)
    (hfresh : ∀ id who, pc = .spawn id who → s.slots id = none) (hi : LocksTask s i pc) (hj : LocksTask s j m)
    (hne : j ≠ i) (hJ : MembersShared s) : CapacityTask s' m := by
  rintro l todo a d seen rfl
  obtain ⟨hc, hsp⟩ := hs.lists_locked hi (hj.pool rfl) hne
  exact (h l todo a d seen rfl).mono hc hsp hs.config fun w hw => hs.isLive hfresh (hJ.slot w hw)

/-! ### Reservations -/

/-- The task that holds a reservation keeps it, hands it on, or takes it off the list. -/
theorem Step.reserved_kept {id : Nat} {b : Bool} (h : Step s i pc s' pc' new) (hr : pc.reserved = some (id, b)) :
    (∃ b', pc'.reserved = some (id, b')) ∨ (∃ m ∈ new, ∃ b', m.reserved = some (id, b')) ∨
      s'.spawning = s.spawning.erase id := by
  cases h
  case spawned | spawnFailed => cases hr; exact .inl ⟨_, rfl⟩
  case installLease | installFailed | installEnsure | resDrop => cases hr; exact .inr (.inr rfl)
  case installEnsureFailed =>
    cases hr
    rw [afterDying_shared]
    split <;> exact .inr (.inr rfl)
  case dropLease hres | dropEnsureCleared hres | dropEnsure hres =>
    rw [Pc.reserved_of_reservation hres] at hr
    cases hr
    exact .inr (.inl ⟨_, List.mem_cons_self, _, rfl⟩)
  case take hpc => cases pc <;> first | cases hpc; done | cases hr
  case finish hpc => cases pc <;> first | cases hpc; done | cases hr
  case dropGuard hpc => cases pc <;> first | cases hpc; done | cases hr
  all_goals cases hr

/-- A new reservation is for the next id. -/
theorem Step.reserves {id : Nat} (h : Step s i pc s' pc' new) (hid : id ∈ s'.spawning) :
    id ∈ s.spawning ∨ (id = s.nextId ∧ s'.nextId = s.nextId + 1) := by
  cases h.lists with
  | same _ hs | swept _ _ _ _ _ _ _ hs | forgot _ _ _ _ hs => rw [hs] at hid; exact .inl hid
  | sweptReserved _ _ _ _ _ _ _ hs hn | reserved _ _ _ hs hn =>
    rw [hs, List.mem_append, List.mem_singleton] at hid
    exact hid.imp_right fun h => ⟨h, hn⟩
  | installed _ _ _ _ hs | released _ _ _ _ _ hs => rw [hs] at hid; exact .inl (List.mem_of_mem_erase hid)

/-- Only the task of a reservation takes it off the list. -/
theorem Step.unreserves {id : Nat} (h : Step s i pc s' pc' new) (hid : id ∈ s.spawning) (hid' : id ∉ s'.spawning) :
    ∃ b, pc.reserved = some (id, b) := by
  have herase : ∀ {id' : Nat}, id ∉ s.spawning.erase id' → id' = id := by
    intro id' hn
    by_contra hne
    exact hn ((List.mem_erase_of_ne (Ne.symm hne)).2 hid)
  cases h.lists with
  | same _ hs | swept _ _ _ _ _ _ _ hs | forgot _ _ _ _ hs => rw [hs] at hid'; exact absurd hid hid'
  | sweptReserved _ _ _ _ _ _ _ hs | reserved _ _ _ hs =>
    rw [hs] at hid'
    exact absurd (List.mem_append_left _ hid) hid'
  | installed _ _ hpc _ hs => rw [hs] at hid'; exact ⟨true, herase hid' ▸ hpc⟩
  | released _ b _ hpc _ hs => rw [hs] at hid'; exact ⟨b, herase hid' ▸ hpc⟩

/-- Every reserved id has its task. -/
def Reserved (c : Conf Shared Pc) : Prop := ∀ id ∈ c.shared.spawning, ∃ pc ∈ c.threads, ∃ b, pc.reserved = some (id, b)

theorem Reserved.after (h : Reserved c) (hI : Inv c) (hpc : c.threads[i]? = some pc)
    (hs : Step c.shared i pc s' pc' new) : Reserved (c.after i ⟨s', pc', new⟩) := by
  intro id (hid : id ∈ s'.spawning)
  have hself := List.mem_of_getElem? (Conf.after_get_self (o := ⟨s', pc', new⟩) hpc)
  rcases hs.reserves hid with hsp | ⟨rfl, hnext⟩
  · refine Conf.exists_after hpc (h id hsp) fun ⟨b, hb⟩ => ?_
    rcases hs.reserved_kept hb with hk | hk | hk
    · exact .inl hk
    · exact .inr hk
    · rw [hk] at hid
      exact absurd hid (List.nodup_append.1 hI.members.shared.nodup).2.1.not_mem_erase
  · rcases hs.nextId with hn | ⟨-, -, -, -, who, hp⟩
    · omega
    · exact ⟨pc', hself, false, by rw [hp]; rfl⟩

/-! ### The capacity of the pool -/

structure WithinCapacity (c : Conf Shared Pc) : Prop where
  /-- Reserved spawns and live children never exceed the maximum. -/
  bound : c.shared.liveOrReserved ≤ c.shared.config.maxWorkers
  /-- No id is listed twice, and every id in use was handed out. -/
  nodup : (c.shared.children ++ c.shared.spawning).Nodup
  used : ∀ id, id ∈ c.shared.children ++ c.shared.spawning ∨ (c.shared.slots id).isSome → id < c.shared.nextId
  /-- A reservation is counted as long as a task holds it, and one task holds it. -/
  counted : ∀ id, id ∈ c.shared.spawning ↔ ∃ pc ∈ c.threads, ∃ b, pc.reserved = some (id, b)
  owner : ∀ (i j : Nat) l m id a b, c.threads[i]? = some l → c.threads[j]? = some m → l.reserved = some (id, a) →
    m.reserved = some (id, b) → i = j
  /-- An id is handed out once: a step that reserves takes the next id, and the counter never goes back. -/
  reserves : ∀ a c', program.step c a = some c' → c.shared.nextId ≤ c'.shared.nextId ∧
    ∀ id ∈ c'.shared.spawning, id ∉ c.shared.spawning → id = c.shared.nextId ∧ id < c'.shared.nextId
  /-- A reservation is removed by the task that holds it. -/
  unreserves : ∀ a c', program.step c a = some c' → ∀ id ∈ c.shared.spawning, id ∉ c'.shared.spawning →
    ∃ i e pc b, a = .thread i e ∧ c.threads[i]? = some pc ∧ pc.reserved = some (id, b)
  /-- `lease` fails with `PoolExhausted` exactly when it is through with the children, found none of them idle
  and counted the maximum. -/
  exhausted : ∀ (i : Nat) l todo a d seen, c.threads[i]? = some (.scan l todo a d seen) →
    c.shared.children = seen.map Prod.fst ++ todo ∧ (∀ p ∈ seen, p.2 ≠ .idle) ∧
    ((∃ s', exec c.shared i (.scan l todo a d seen) .go =
        some ⟨s', .done (.error (.poolExhausted c.shared.config.maxWorkers c.shared.config.maxWorkers)), []⟩) ↔
      todo = [] ∧ c.shared.spawning.length + seen.countP (·.2 ≠ .dead) = c.shared.config.maxWorkers)

structure CapacityInv (c : Conf Shared Pc) : Prop where
  bound : c.shared.liveOrReserved ≤ c.shared.config.maxWorkers
  scans : ∀ (i : Nat) pc, c.threads[i]? = some pc → CapacityTask c.shared pc
  reserved : Reserved c

theorem Pc.capacityTask_of_newborn (h : pc.newborn) : CapacityTask s pc := by
  rintro l todo a d seen rfl
  cases h

theorem CapacityInv.of_reachable {C : Conf Shared Pc → Act Event Env → Prop} (h : program.Reachable Init C c) :
    Inv c ∧ CapacityInv c := by
  refine reachable_induct ?_ ?_ ?_ h
  · intro c hc
    refine ⟨?_, fun i pc hpc => ?_, fun id hid => ?_⟩
    · rw [Shared.liveOrReserved, hc.children, hc.spawning]
      have := List.countP_le_length (p := c.shared.isLive) (l := List.range c.shared.config.floor)
      rw [List.length_range, Config.floor] at this
      rw [List.length_nil, Config.floor]
      omega
    · rw [hc.threads] at hpc; simp at hpc
    · rw [hc.spawning] at hid; cases hid
  · intro c i e pc s' pc' new _ hI hT _ hpc _ hs
    have hfresh := hI.ids.fresh hpc
    have hi := hI.locks.threads i pc hpc
    refine ⟨hs.liveOrReserved_le hT.bound hfresh hI.members.shared (hI.members.threads i pc hpc) (hT.scans i pc hpc),
      Conf.forall_after (hs.capacityTask_self hT.bound (hT.scans i pc hpc)) (fun j m hj hm => ?_)
        fun j m hm => Pc.capacityTask_of_newborn (hs.newborn m hm), hT.reserved.after hI hpc hs⟩
    exact (hT.scans j m hm).other hs hfresh hi (hI.locks.threads j m hm) hj hI.members.shared
  · intro c x s' new _ hT _ hs
    have hlive : s'.isLive = c.shared.isLive := by
      funext w; rw [Shared.isLive, Shared.isLive, hs.slots]
    refine ⟨?_, Conf.forall_append (fun j m hm => ?_)
      fun j m hm => Pc.capacityTask_of_newborn (hs.newborn m hm), ?_⟩
    · rw [Shared.liveOrReserved, hs.lists.1, hs.lists.2, hlive, hs.config]
      exact hT.bound
    · rintro l todo a d seen rfl
      exact (hT.scans j _ hm l todo a d seen rfl).mono hs.lists.1 hs.lists.2 hs.config fun w _ hl => hlive ▸ hl
    · intro id hid
      obtain ⟨pc, hpc, hb⟩ := hT.reserved id (hs.lists.2 ▸ hid)
      exact ⟨pc, List.mem_append_left _ hpc, hb⟩

theorem ScanCount.exhausted_iff {l : Lending} {todo d : List Nat} {a : Nat} {seen : List (Nat × ChildState)}
    (h : ScanCount s todo a d seen) :
    (∃ s', exec s i (.scan l todo a d seen) .go =
        some ⟨s', .done (.error (.poolExhausted s.config.maxWorkers s.config.maxWorkers)), []⟩) ↔
      todo = [] ∧ s.spawning.length + seen.countP (·.2 ≠ .dead) = s.config.maxWorkers := by
  rw [← h.active]
  constructor
  · rintro ⟨s', he⟩
    have hs := exec_step he
    generalize hr : Pc.done (.error (.poolExhausted s.config.maxWorkers s.config.maxWorkers)) = p at hs
    cases hs
    case scanFull => cases hr; exact ⟨rfl, rfl⟩
    case finish hl => cases hl
    all_goals cases hr
  · rintro ⟨rfl, rfl⟩
    exact ⟨_, by simp only [exec, scanStep, le_refl, if_true, Option.map_some]; rfl⟩

theorem pool_capacity (h : program.Reachable Init Program.Free c) : WithinCapacity c := by
  obtain ⟨hI, hT⟩ := CapacityInv.of_reachable h
  refine ⟨hT.bound, hI.members.shared.nodup, fun id hid => ?_, fun id => ⟨hT.reserved id, ?_⟩, ?_, ?_, ?_, ?_⟩
  · rcases hid with hid | hid
    · exact hI.members.shared.lt id hid
    · by_contra hle
      rw [hI.ids.shared id (not_lt.1 hle)] at hid
      cases hid
  · rintro ⟨pc, hpc, b, hb⟩
    obtain ⟨i, hi⟩ := List.mem_iff_getElem?.1 hpc
    exact (hI.members.threads i pc hi).reserved id b hb
  · intro i j l m id a b hl hm ha hb
    by_contra hij
    exact hI.ids.pairs i j l m hij hl hm id a b ha hb
  · intro a c' hstep
    cases a with
    | thread i e =>
      obtain ⟨pc, o, hpc, ho, rfl⟩ := step_thread_iff.1 hstep
      have hs := exec_step ho
      refine ⟨hs.nextId_le, fun id hid hnot => ?_⟩
      rcases hs.reserves hid with hold | ⟨rfl, hn⟩
      · exact absurd hold hnot
      · exact ⟨rfl, show _ < o.shared.nextId by omega⟩
    | env x =>
      obtain ⟨r, hr, rfl⟩ := step_env_iff.1 hstep
      have hs := env_step hr
      refine ⟨?_, fun id hid hnot => ?_⟩
      · exact hs.nextId.ge
      · exact absurd (hs.lists.2 ▸ hid) hnot
  · intro a c' hstep id hid hnot
    cases a with
    | thread i e =>
      obtain ⟨pc, o, hpc, ho, rfl⟩ := step_thread_iff.1 hstep
      obtain ⟨b, hb⟩ := (exec_step ho).unreserves hid hnot
      exact ⟨i, e, pc, b, rfl, hpc, hb⟩
    | env x =>
      obtain ⟨r, hr, rfl⟩ := step_env_iff.1 hstep
      exact absurd ((env_step hr).lists.2 ▸ hid) hnot
  · intro i l todo a d seen hpc
    have hscan := hT.scans i _ hpc l todo a d seen rfl
    exact ⟨hscan.children, hscan.busy, hscan.exhausted_iff⟩

/-- One live worker, and one that is being spawned. -/
theorem pool_capacity_spawning : ∃ c, program.Reachable Init Program.Free c ∧ c.shared.children = [0] ∧
    c.shared.spawning = [1] ∧ WithinCapacity c := by
  obtain ⟨c, hc, h₁, h₂⟩ := Program.Reachable.of_run_any (P := program)
    (r := List.flatten [openAs "A" 0 7, [.env (.openIdb "B" none)], goes 1 4])
    (p := fun c => c.shared.children = [0] ∧ c.shared.spawning = [1]) (init_freshPool 2 0) (by decide +kernel)
  exact ⟨c, hc, h₁, h₂, pool_capacity hc⟩

/-- `A` closes after `lease` of `C` has passed its worker: `C` is refused while that worker is idle. -/
theorem exhausted_with_idle_child : ∃ c, program.Reachable Init Program.Free c ∧
    c.shared.config.minWorkers ≤ c.shared.config.maxWorkers ∧ 0 ∈ c.shared.children ∧ c.shared.isIdle 0 ∧
      ∃ c', program.step c (.thread 2 .go) = some c' ∧
        c'.threads[2]? = some (Pc.done (.error (.poolExhausted 2 2))) :=
  Program.Reachable.of_run_any (P := program)
    (r := List.flatten [openAs "A" 0 7, openAs "B" 1 8, [.env (.openIdb "C" none)], goes 2 3, closeAs "A" 3,
      goes 2 1])
    (p := fun c => c.shared.config.minWorkers ≤ c.shared.config.maxWorkers ∧ 0 ∈ c.shared.children ∧
      c.shared.isIdle 0 ∧ ∃ c' ∈ program.step c (.thread 2 .go),
        c'.threads[2]? = some (Pc.done (.error (.poolExhausted 2 2))))
    (init_freshPool 2 0) (by decide +kernel)

end IdaRs.Pool
