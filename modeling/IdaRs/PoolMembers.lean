import IdaRs.PoolInv

/-!
# Children, reservations and the tasks that look at them

`ListChange` says how a step changes `children` and `spawning` of `PoolInner`. Every change is made under
the pool lock, so a task that goes through the children sees one list. `Members` is the third layer: an id
is a child or reserved, never both, and a task's reservation is in `spawning`.
-/

namespace IdaRs.Pool

open Threads

variable {s s' : Shared} {i j w : Nat} {pc pc' : Pc} {new : List Pc} {c c' : Conf Shared Pc}

/-! ### One slot -/

/-- The slot of `w` is there and satisfies `p`. -/
def Shared.SlotIs (s : Shared) (w : Nat) (p : Slot → Prop) : Prop := ∃ x, s.slots w = some x ∧ p x

theorem Shared.SlotIs.mono {p q : Slot → Prop} (h : s.SlotIs w p) (hpq : ∀ x, p x → q x) : s.SlotIs w q :=
  let ⟨x, hx, hp⟩ := h
  ⟨x, hx, hpq x hp⟩

theorem Shared.SlotIs.isSome {p : Slot → Prop} (h : s.SlotIs w p) : (s.slots w).isSome := by
  obtain ⟨x, hx, -⟩ := h
  rw [hx]; rfl

theorem Shared.SlotIs.and {p q : Slot → Prop} (hp : s.SlotIs w p) (hq : s.SlotIs w q) :
    s.SlotIs w fun x => p x ∧ q x := by
  obtain ⟨x, hx, hp⟩ := hp
  obtain ⟨y, hy, hq⟩ := hq
  obtain rfl := Option.some.inj (hx.symm.trans hy)
  exact ⟨x, hx, hp, hq⟩

/-- A fact about a slot after a step. -/
theorem Shared.SlotIs.step {p q : Slot → Prop} (h : s.SlotIs w p) (hs : Step s i pc s' pc' new)
    (hfresh : ∀ id who, pc = .spawn id who → s.slots id = none)
    (hq : ∀ x y, s.slots w = some x → p x → StateChange s pc w x y → q y) : s'.SlotIs w q := by
  obtain ⟨x, hx, hp⟩ := h
  obtain ⟨y, hy, -, hst⟩ := hs.slot hfresh hx
  exact ⟨y, hy, hq x y hx hp hst⟩

/-! ### The lists -/

inductive ListChange (s : Shared) (pc : Pc) (s' : Shared) (pc' : Pc) : Prop
  | same (hc : s'.children = s.children) (hs : s'.spawning = s.spawning)
  | swept (l : Lending) (a : Nat) (d : List Nat) (seen : List (Nat × ChildState)) (hpc : pc = .scan l [] a d seen)
      (ha : s.config.maxWorkers ≤ a) (hc : s'.children = s.children.filter fun w => !d.contains w)
      (hs : s'.spawning = s.spawning) (hsl : s'.slots = s.slots)
  | sweptReserved (l : Lending) (a : Nat) (d : List Nat) (seen : List (Nat × ChildState))
      (hpc : pc = .scan l [] a d seen) (ha : a < s.config.maxWorkers)
      (hc : s'.children = s.children.filter fun w => !d.contains w) (hs : s'.spawning = s.spawning ++ [s.nextId])
      (hid : s'.nextId = s.nextId + 1) (hsl : s'.slots = s.slots)
  | reserved (hp : s.poolLock = none) (hl : s.spawning.length + s.children.length < s.config.maxWorkers)
      (hc : s'.children = s.children) (hs : s'.spawning = s.spawning ++ [s.nextId]) (hid : s'.nextId = s.nextId + 1)
      (hsl : s'.slots = s.slots)
  | installed (id : Nat) (hp : s.poolLock = none) (hpc : pc.reserved = some (id, true))
      (hc : s'.children = s.children ++ [id]) (hs : s'.spawning = s.spawning.erase id) (hsl : s'.slots = s.slots)
      (hp' : pc'.reserved = none)
  | released (id : Nat) (b : Bool) (hp : s.poolLock = none) (hpc : pc.reserved = some (id, b))
      (hc : s'.children = s.children) (hs : s'.spawning = s.spawning.erase id) (hp' : pc'.reserved = none)
  | forgot (w : Nat) (hp : s.poolLock = none) (hpc : pc = .reapForget w ∨ ∃ after, pc = .dying w .forget after)
      (hc : s'.children = s.children.filter (· ≠ w)) (hs : s'.spawning = s.spawning) (hsl : s'.slots = s.slots)

theorem Step.lists (h : Step s i pc s' pc' new) : ListChange s pc s' pc' := by
  cases h
  case scanFull l a d seen ha => exact .swept l a d seen rfl ha rfl rfl rfl
  case scanReserve l a d seen ha => exact .sweptReserved l a d seen rfl ha rfl rfl rfl rfl
  case ensureReserve hp hl => exact .reserved hp hl rfl rfl rfl rfl
  case installLease id l hp => exact .installed id hp rfl rfl rfl rfl rfl
  case installEnsure id w after hp => exact .installed id hp rfl rfl rfl rfl rfl
  case installFailed id l e hp => exact .released id false hp rfl (by simp) rfl rfl
  case installEnsureFailed id w after e hp =>
    refine .released id false hp rfl ?_ ?_ (Pc.reserved_of_quiet (afterDying_quiet ..)) <;>
      rw [afterDying_shared] <;> split <;> simp
  case resDrop id hasSlot x hp => exact .released id hasSlot hp rfl (by simp) rfl (by split <;> rfl)
  case forget w after hp => exact .forgot w hp (.inr ⟨after, rfl⟩) rfl rfl rfl
  case forgetLast w hp => exact .forgot w hp (.inr ⟨.shutdown, rfl⟩) rfl rfl rfl
  case reapForget w hp => exact .forgot w hp (.inl rfl) rfl rfl rfl
  case ensured => rw [afterDying_shared]; split <;> exact .same rfl rfl
  case clear => unfold clearHandle; split <;> exact .same rfl rfl
  all_goals exact .same rfl rfl

/-- Only the holder of the pool lock, or a task that found it free, changes the lists. -/
theorem Step.lists_locked (h : Step s i pc s' pc' new) (hi : LocksTask s i pc) (hj : s.poolLock = some j)
    (hne : j ≠ i) : s'.children = s.children ∧ s'.spawning = s.spawning := by
  have held : ∀ {l a d seen}, pc = .scan l [] a d seen → False := by
    rintro l a d seen rfl
    exact hne (Option.some.inj (hj.symm.trans (hi.pool rfl)))
  have free : s.poolLock = none → False := fun h => by rw [h] at hj; cases hj
  cases h.lists with
  | same hc hs => exact ⟨hc, hs⟩
  | swept _ _ _ _ hpc | sweptReserved _ _ _ _ hpc => exact (held hpc).elim
  | reserved hp | installed _ hp | released _ _ hp | forgot _ hp => exact (free hp).elim

/-- The children a task has still to look at. -/
def Pc.visiting : Pc → Option (List Nat)
  | .scan _ todo _ _ _ | .reapCount _ todo _ => some todo
  | _ => none

theorem Pc.visiting_of_quiet (h : pc.quiet) : pc.visiting = none := by
  cases pc <;> first | rfl | cases h

theorem Pc.poolHeld_of_visiting {todo : List Nat} (h : pc.visiting = some todo) : pc.poolHeld := by
  cases pc <;> first | rfl | cases h

theorem Step.visiting {todo : List Nat} (h : Step s i pc s' pc' new) (hv : pc'.visiting = some todo) :
    s'.children = s.children ∧ (todo = s.children ∨ ∃ w, pc.visiting = some (w :: todo)) := by
  cases h
  case lockScan | reapLock => exact ⟨rfl, .inl (Option.some.inj hv).symm⟩
  case scanDead w _ _ _ _ _ | scanBusy w _ _ _ _ _ _ _ _ | reapVisit w _ _ =>
    exact ⟨rfl, .inr ⟨w, by rw [← Option.some.inj hv]; rfl⟩⟩
  case ensured | installEnsureFailed => rw [Pc.visiting_of_quiet (afterDying_quiet ..)] at hv; cases hv
  case refused => rw [Pc.visiting_of_quiet (opFailed_quiet ..)] at hv; cases hv
  case answered ha => rw [Pc.visiting_of_quiet ha.quiet] at hv; cases hv
  case clear | resDrop => split at hv <;> cases hv
  all_goals cases hv

/-! ### Members -/

structure MembersShared (s : Shared) : Prop where
  nodup : (s.children ++ s.spawning).Nodup
  lt : ∀ w ∈ s.children ++ s.spawning, w < s.nextId
  slot : ∀ w ∈ s.children, (s.slots w).isSome

structure MembersTask (s : Shared) (_ : Nat) (pc : Pc) : Prop where
  reserved : ∀ id b, pc.reserved = some (id, b) → id ∈ s.spawning
  visiting : ∀ todo, pc.visiting = some todo → todo <:+ s.children

abbrev Members : Conf Shared Pc → Prop := Modular MembersShared MembersTask fun _ _ => True

theorem MembersShared.nextId_notMem (h : MembersShared s) : s.nextId ∉ s.children ++ s.spawning :=
  fun hm => lt_irrefl _ (h.lt _ hm)

theorem MembersShared.notMem_children (h : MembersShared s) {id : Nat} (hid : id ∈ s.spawning) : id ∉ s.children :=
  fun hm => (List.nodup_append.1 h.nodup).2.2 id hm id hid rfl

/-- Lists that only lost members. -/
theorem MembersShared.of_sublist (h : MembersShared s) (hc : s'.children.Sublist s.children)
    (hs : s'.spawning.Sublist s.spawning) (hid : s.nextId ≤ s'.nextId)
    (hsl : ∀ w, (s.slots w).isSome → (s'.slots w).isSome) : MembersShared s' where
  nodup := h.nodup.sublist (hc.append hs)
  lt w hw := (h.lt w ((hc.append hs).subset hw)).trans_le hid
  slot w hw := hsl w (h.slot w (hc.subset hw))

/-- A new reservation. -/
theorem MembersShared.reserve (h : MembersShared s) (hc : s'.children.Sublist s.children)
    (hs : s'.spawning = s.spawning ++ [s.nextId]) (hid : s'.nextId = s.nextId + 1) (hsl : s'.slots = s.slots) :
    MembersShared s' where
  nodup := by
    have hsub : (s'.children ++ s'.spawning).Sublist (s.children ++ s.spawning ++ [s.nextId]) := by
      rw [hs, ← List.append_assoc]
      exact (hc.append (.refl _)).append (.refl _)
    refine List.Nodup.sublist hsub (List.nodup_append.2 ⟨h.nodup, by simp, ?_⟩)
    rintro a ha b hb rfl
    rw [List.mem_singleton.1 hb] at ha
    exact h.nextId_notMem ha
  lt w hw := by
    rw [hs, ← List.append_assoc, List.mem_append] at hw
    rcases hw with hw | hw
    · have := h.lt w ((hc.append (.refl _)).subset hw)
      omega
    · have := List.mem_singleton.1 hw
      omega
  slot w hw := by rw [hsl]; exact h.slot w (hc.subset hw)

/-- A reserved worker becomes a child. -/
theorem MembersShared.install {id : Nat} (h : MembersShared s) (hid : id ∈ s.spawning)
    (hslot : (s.slots id).isSome) (hc : s'.children = s.children ++ [id]) (hs : s'.spawning = s.spawning.erase id)
    (hn : s.nextId ≤ s'.nextId) (hsl : s'.slots = s.slots) : MembersShared s' := by
  have hperm : (s'.children ++ s'.spawning).Perm (s.children ++ s.spawning) := by
    rw [hc, hs, List.append_assoc]
    exact (List.perm_cons_erase hid).symm.append_left _
  refine ⟨hperm.nodup_iff.2 h.nodup, fun w hw => (h.lt w (hperm.subset hw)).trans_le hn, fun w hw => ?_⟩
  rw [hsl]
  rw [hc, List.mem_append] at hw
  rcases hw with hw | hw
  · exact h.slot w hw
  · rw [List.mem_singleton.1 hw]; exact hslot

/-- A step lists no worker anew but the next one, which it reserves. -/
theorem Step.members (h : Step s i pc s' pc' new) (hM : MembersTask s i pc)
    (hw : w ∈ s'.children ++ s'.spawning) :
    w ∈ s.children ++ s.spawning ∨ (w = s.nextId ∧ s'.nextId = s.nextId + 1) := by
  have hsub : ∀ {cs : List Nat}, cs.Sublist s.children → w ∈ cs ++ s.spawning → w ∈ s.children ++ s.spawning :=
    fun hcs => fun hw => (hcs.append (.refl _)).subset hw
  have hnext : ∀ {cs : List Nat}, cs.Sublist s.children → w ∈ cs ++ (s.spawning ++ [s.nextId]) →
      w ∈ s.children ++ s.spawning ∨ w = s.nextId := by
    intro cs hcs hw
    rw [← List.append_assoc, List.mem_append, List.mem_singleton] at hw
    exact hw.imp_left (hsub hcs)
  cases h.lists with
  | same hc hs => rw [hc, hs] at hw; exact .inl hw
  | swept _ _ _ _ _ _ hc hs | forgot _ _ _ hc hs =>
    rw [hc, hs] at hw
    exact .inl (hsub List.filter_sublist hw)
  | sweptReserved _ _ _ _ _ _ hc hs hid =>
    rw [hc, hs] at hw
    exact (hnext List.filter_sublist hw).imp_right fun h => ⟨h, hid⟩
  | reserved _ _ hc hs hid =>
    rw [hc, hs] at hw
    exact (hnext (.refl _) hw).imp_right fun h => ⟨h, hid⟩
  | installed id _ hpc hc hs =>
    rw [hc, hs, List.append_assoc] at hw
    have hid := hM.reserved id true hpc
    exact .inl (((List.perm_cons_erase hid).symm.append_left _).subset hw)
  | released _ _ _ _ hc hs =>
    rw [hc, hs] at hw
    exact .inl (((List.Sublist.refl _).append List.erase_sublist).subset hw)

theorem Step.isSome_mono (h : Step s i pc s' pc' new) (hfresh : ∀ id who, pc = .spawn id who → s.slots id = none)
    (hw : (s.slots w).isSome) : (s'.slots w).isSome := by
  obtain ⟨x, hx⟩ := Option.isSome_iff_exists.1 hw
  obtain ⟨y, hy, -⟩ := h.slot hfresh hx
  rw [hy]; rfl

theorem Members.after (h : Members c) (hI : Ids c) (hL : Locks c) (hpc : c.threads[i]? = some pc)
    (hs : Step c.shared i pc s' pc' new) : Members (c.after i ⟨s', pc', new⟩) := by
  have hi := h.threads i pc hpc
  have hsome : ∀ w, (c.shared.slots w).isSome → (s'.slots w).isSome := fun w => hs.isSome_mono (hI.fresh hpc)
  -- a reservation of another task stays where it is
  have hkeep : ∀ j m id b, j ≠ i → c.threads[j]? = some m → m.reserved = some (id, b) → id ∈ s'.spawning := by
    intro j m id b hj hm hr
    have hid := (h.threads j m hm).reserved id b hr
    have herase : ∀ {id' b'}, pc.reserved = some (id', b') → id ∈ c.shared.spawning.erase id' := by
      intro id' b' hpc'
      refine (List.mem_erase_of_ne ?_).2 hid
      rintro rfl
      exact hI.pairs i j pc m (Ne.symm hj) hpc hm id b' b hpc' hr
    cases hs.lists with
    | same _ hs | swept _ _ _ _ _ _ _ hs | forgot _ _ _ _ hs => rw [hs]; exact hid
    | sweptReserved _ _ _ _ _ _ _ hs | reserved _ _ _ hs => rw [hs]; exact List.mem_append_left _ hid
    | installed _ _ hpc _ hs | released _ _ _ hpc _ hs => rw [hs]; exact herase hpc
  have hres : (∀ id b, pc'.reserved = some (id, b) → id ∈ s'.spawning) ∧
      ∀ m ∈ new, ∀ id b, m.reserved = some (id, b) → id ∈ s'.spawning := by
    cases hs.reserving with
    | none hp hn =>
      refine ⟨fun id b hb => ?_, fun m hm id b hb => ?_⟩
      · rw [hp] at hb; cases hb
      · rw [hn m hm] at hb; cases hb
    | took hp _ _ hl hn =>
      subst hn
      refine ⟨fun id b hb => ?_, by simp⟩
      obtain ⟨rfl, -⟩ := Prod.mk.inj (Option.some.inj (hp.symm.trans hb))
      rw [hl]; simp
    | came hpc₀ hp _ hl hn =>
      subst hn
      refine ⟨fun id b hb => ?_, by simp⟩
      obtain ⟨rfl, -⟩ := Prod.mk.inj (Option.some.inj (hp.symm.trans hb))
      rw [hl]; exact hi.reserved _ _ hpc₀
    | failed hpc₀ hp hss hn =>
      subst hn hss
      refine ⟨fun id b hb => ?_, by simp⟩
      obtain ⟨rfl, -⟩ := Prod.mk.inj (Option.some.inj (hp.symm.trans hb))
      exact hi.reserved _ _ hpc₀
    | passed hpc₀ hp hnew hm hrest hl =>
      subst hnew
      refine ⟨fun id b hb => (by rw [hp] at hb; cases hb), fun m' hm' id b hb => ?_⟩
      rcases List.mem_cons.1 hm' with rfl | hm'
      · rw [hm] at hb
        obtain ⟨rfl, -⟩ := Prod.mk.inj (Option.some.inj hb)
        rw [hl]; exact hi.reserved _ _ hpc₀
      · rw [hrest m' hm'] at hb; cases hb
  have hJ : MembersShared s' := by
    cases hs.lists with
    | same hc hs₂ => exact h.shared.of_sublist (hc ▸ .refl _) (hs₂ ▸ .refl _) hs.nextId_le hsome
    | swept _ _ _ _ _ _ hc hs₂ =>
      exact h.shared.of_sublist (hc ▸ List.filter_sublist) (hs₂ ▸ .refl _) hs.nextId_le hsome
    | forgot _ _ _ hc hs₂ =>
      exact h.shared.of_sublist (hc ▸ List.filter_sublist) (hs₂ ▸ .refl _) hs.nextId_le hsome
    | released _ _ _ _ hc hs₂ =>
      exact h.shared.of_sublist (hc ▸ .refl _) (hs₂ ▸ List.erase_sublist) hs.nextId_le hsome
    | sweptReserved _ _ _ _ _ _ hc hs₂ hid hsl => exact h.shared.reserve (hc ▸ List.filter_sublist) hs₂ hid hsl
    | reserved _ _ hc hs₂ hid hsl => exact h.shared.reserve (hc ▸ .refl _) hs₂ hid hsl
    | installed id _ hpc₀ hc hs₂ hsl =>
      exact h.shared.install (hi.reserved id true hpc₀) (hI.threads i pc hpc id true hpc₀).2 hc hs₂ hs.nextId_le hsl
  refine h.thread (fun _ _ _ => trivial) hpc hJ ⟨hres.1, fun todo hv => ?_⟩
    (fun j m hj hm => ⟨fun id b => hkeep j m id b hj hm, fun todo hv => ?_⟩)
    (fun j m hm _ => ⟨hres.2 m hm, fun todo hv => ?_⟩) (fun _ _ _ _ => trivial)
    (fun _ _ => ⟨trivial, fun _ _ _ _ => trivial⟩) (List.pairwise_of_forall fun _ _ => trivial)
  · obtain ⟨hc, rfl | ⟨w, hv'⟩⟩ := hs.visiting hv
    · exact hc ▸ List.suffix_refl _
    · exact hc ▸ (List.suffix_cons w todo).trans (hi.visiting _ hv')
  · have hlock := (hL.threads j m hm).pool (Pc.poolHeld_of_visiting hv)
    rw [(hs.lists_locked (hL.threads i pc hpc) hlock hj).1]
    exact (h.threads j m hm).visiting todo hv
  · have := (Pc.unlocked_of_newborn (hs.newborn m hm)).pool
    rw [Pc.poolHeld_of_visiting hv] at this
    cases this

theorem EnvStep.lists (h : EnvStep c s' new) : s'.children = c.shared.children ∧ s'.spawning = c.shared.spawning := by
  cases h <;> exact ⟨rfl, rfl⟩

theorem Members.env (h : Members c) (hs : EnvStep c s' new) : Members ⟨s', c.threads ++ new⟩ := by
  obtain ⟨hc, hsp⟩ := hs.lists
  refine Modular.env h (fun _ _ _ => trivial) ?_ (fun j m hm => ?_)
    (fun j m hm _ => ⟨fun id b hb => ?_, fun todo hv => ?_⟩)
    (fun _ _ _ _ => trivial) (List.pairwise_of_forall fun _ _ => trivial)
  · exact h.shared.of_sublist (hc ▸ .refl _) (hsp ▸ .refl _) hs.nextId.ge fun w hw => by rw [hs.slots]; exact hw
  · obtain ⟨h₁, h₂⟩ := h.threads j m hm
    exact ⟨fun id b hb => hsp ▸ h₁ id b hb, fun todo hv => hc ▸ h₂ todo hv⟩
  · rw [hs.new_reserved m hm] at hb; cases hb
  · have := (Pc.unlocked_of_newborn (hs.newborn m hm)).pool
    rw [Pc.poolHeld_of_visiting hv] at this
    cases this

end IdaRs.Pool
