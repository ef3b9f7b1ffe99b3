import Mathlib.Data.List.Pairwise
import Mathlib.Logic.Equiv.Basic
import IdaRs.TaskInv

/-!
# Task ownership

Two registries `Agree` for an owner when they hold the same tasks of that owner, up to a renaming `ρ` of
the ids, and have Running tasks under the same keys. The owner's calls keep the agreement and are answered
alike (`agree_step`): a creation is refused for a key that is taken whoever holds it, and says whose task
it is only to a session that asks about its own. `Private` is what one call may tell and change.
-/

namespace IdaRs.Task

universe u

variable {V : Type u} {r r' r₁ r₂ : TaskRegistry V} {now : Nat → Moment} {e e' : TaskEntry V} {o : TaskOwner}
  {id key : String} {ρ : Equiv.Perm String} {x y : String × TaskEntry V}

/-! ### Renaming -/

def TaskState.rename (ρ : Equiv.Perm String) (s : TaskState V) : TaskState V := { s with id := ρ s.id }

def TaskEntry.rename (ρ : Equiv.Perm String) (e : TaskEntry V) : TaskEntry V := { e with state := e.state.rename ρ }

def TaskCreateError.rename (ρ : Equiv.Perm String) : TaskCreateError → TaskCreateError
  | .alreadyRunning id => .alreadyRunning (ρ id)
  | err => err

def Answer.rename (ρ : Equiv.Perm String) : Answer V → Answer V
  | .created (.ok id) => .created (.ok (ρ id))
  | .created (.error err) => .created (.error (err.rename ρ))
  | .state s => .state (s.map (TaskState.rename ρ))
  | ans => ans

theorem TaskEntry.rename_inj (ρ : Equiv.Perm String) (h : e.rename ρ = e'.rename ρ) : e = e' := by
  obtain ⟨o, ⟨i, s, m, v, c, u, ci, ui, k⟩, t, q⟩ := e
  obtain ⟨o', ⟨i', s', m', v', c', u', ci', ui', k'⟩, t', q'⟩ := e'
  simp only [TaskEntry.rename, TaskState.rename, TaskEntry.mk.injEq, TaskState.mk.injEq,
    EmbeddingLike.apply_eq_iff_eq] at h ⊢
  exact h

theorem TaskEntry.rename_symm (ρ : Equiv.Perm String) (e : TaskEntry V) : (e.rename ρ.symm).rename ρ = e := by
  simp [TaskEntry.rename, TaskState.rename]

/-- The entries of `o` in both registries, and the keys that are taken. -/
structure Agree (o : TaskOwner) (ρ : Equiv.Perm String) (r₁ r₂ : TaskRegistry V) : Prop where
  own : ∀ id e, e.owner = o → ((id, e) ∈ r₁.entries ↔ (ρ id, e.rename ρ) ∈ r₂.entries)
  taken : ∀ key, (∃ x ∈ r₁.entries, x.2.Running ∧ x.2.state.key = some key) ↔
    ∃ x ∈ r₂.entries, x.2.Running ∧ x.2.state.key = some key

/-- An entry of `o` on the right is one on the left, renamed. -/
theorem Agree.left (h : Agree o ρ r₁ r₂) (hx : x ∈ r₂.entries) (ho : x.2.owner = o) :
    ∃ y ∈ r₁.entries, y.2.owner = o ∧ x = (ρ y.1, y.2.rename ρ) := by
  have hx' : (ρ (ρ.symm x.1), (x.2.rename ρ.symm).rename ρ) = x := by
    rw [Equiv.apply_symm_apply, TaskEntry.rename_symm]
  exact ⟨(ρ.symm x.1, x.2.rename ρ.symm), (h.own (ρ.symm x.1) (x.2.rename ρ.symm) ho).2 (hx'.symm ▸ hx), ho, hx'.symm⟩

theorem Agree.prune (h : Agree o ρ r₁ r₂) (t : Nat) : Agree o ρ (r₁.prune t) (r₂.prune t) := by
  have htaken : ∀ (r : TaskRegistry V) key, (∃ x ∈ (r.prune t).entries, x.2.Running ∧ x.2.state.key = some key) ↔
      ∃ x ∈ r.entries, x.2.Running ∧ x.2.state.key = some key := by
    intro r key
    constructor
    · rintro ⟨x, hx, hk⟩
      exact ⟨x, (mem_prune.1 hx).1, hk⟩
    · rintro ⟨x, hx, hr, hk⟩
      exact ⟨x, mem_prune.2 ⟨hx, .inl hr⟩, hr, hk⟩
  refine ⟨fun id e ho => ?_, fun key => by rw [htaken, htaken, h.taken]⟩
  show _ ∈ pruneTerminalTasks _ _ ↔ _ ∈ pruneTerminalTasks _ _
  rw [mem_prune, mem_prune, h.own id e ho]
  rfl

/-! ### Calls of an owner -/

inductive Call
  | create (pre key message uuid : String)
  | get (id : String)
  | cancel (id : String)

def Call.op (o : TaskOwner) : Call → Op V
  | .create pre key message uuid => .createKeyed o pre key message uuid
  | .get id => .getForOwner o id
  | .cancel id => .cancelForOwner o id

/-- The same call, up to the ids: those it names and the one it is given. -/
inductive Call.Same (ρ : Equiv.Perm String) : Call → Call → Prop
  | create (pre key message : String) {uuid₁ uuid₂ : String} (h : nextTaskId pre uuid₂ = ρ (nextTaskId pre uuid₁)) :
      Same ρ (.create pre key message uuid₁) (.create pre key message uuid₂)
  | get (id : String) : Same ρ (.get id) (.get (ρ id))
  | cancel (id : String) : Same ρ (.cancel id) (.cancel (ρ id))

/-! ### Creations -/

/-- The entry `create_keyed` inserts. -/
def newEntry (o : TaskOwner) (id key message : String) (t : Moment) : TaskEntry V :=
  { owner := o
    state := { id, status := .running, message, result := none, createdAt := t.instant, updatedAt := t.instant
               createdAtIso := t.iso, updatedAtIso := t.iso, key := some key } }

theorem createKeyed_below {pre message uuid : String} (hbelow : r.entries.length < maxTaskRegistryEntries)
    (hid : nextTaskId pre uuid ∉ r.keys) :
    r.createKeyed o pre key message uuid now =
      match (r.prune (now 0).instant).findRunning key with
      | some x => (r.prune (now 0).instant, .error
          (if o ≠ .runtime ∧ x.2.owner = o then .alreadyRunning x.2.state.id else .existingTaskIdIsPrivate))
      | none => ({ r.prune (now 0).instant with
          entries := (r.prune (now 0).instant).entries ++
            [(nextTaskId pre uuid, newEntry o (nextTaskId pre uuid) key message (now 1))] },
          .ok (nextTaskId pre uuid)) := by
  have hsub : (r.prune (now 0).instant).entries.Sublist r.entries := List.filter_sublist
  have hlen := hsub.length_le
  have hid' : nextTaskId pre uuid ∉ (r.prune (now 0).instant).keys := fun h => hid ((hsub.map Prod.fst).subset h)
  have hroom : reclaimCapacityForAdmission (r.prune (now 0).instant).entries = (r.prune (now 0).instant).entries := by
    rw [reclaimCapacityForAdmission, if_pos (by omega)]
  cases hfind : (r.prune (now 0).instant).findRunning key with
  | some x =>
    cases o with
    | session s =>
      simp only [TaskRegistry.createKeyed, hfind, ne_eq, reduceCtorEq, not_false_eq_true, true_and]
      split <;> rfl
    | runtime => simp [TaskRegistry.createKeyed, hfind]
  | none =>
    simp only [TaskRegistry.createKeyed, hfind, hroom]
    rw [if_neg (by omega), filter_ne_eq_self hid']
    rfl

theorem findRunning_isSome : (r.findRunning key).isSome ↔ ∃ x ∈ r.entries, x.2.Running ∧ x.2.state.key = some key := by
  simp [TaskRegistry.findRunning, List.find?_isSome]

/-- One Running entry for each key. -/
theorem Wf.eq_of_key (h : Wf r) (hx : x ∈ r.entries) (hy : y ∈ r.entries) (hrx : x.2.Running) (hry : y.2.Running)
    (hk : x.2.state.key = y.2.state.key) : x = y := by
  have : Std.Symm fun x y : String × TaskEntry V =>
      x.2.Running → y.2.Running → x.2.state.key ≠ y.2.state.key := ⟨fun _ _ h hx hy => (h hy hx).symm⟩
  by_contra hne
  exact h.unique.forall hx hy hne hrx hry hk

theorem Agree.findRunning (h : Agree o ρ r₁ r₂) (hw₁ : Wf r₁) (hw₂ : Wf r₂) {x₁ x₂ : String × TaskEntry V}
    (h₁ : r₁.findRunning key = some x₁) (h₂ : r₂.findRunning key = some x₂) :
    (x₂.2.owner = o ↔ x₁.2.owner = o) ∧ (x₁.2.owner = o → x₂.2.state.id = ρ x₁.2.state.id) := by
  obtain ⟨hx₁, hr₁, hk₁⟩ := findRunning_some h₁
  obtain ⟨hx₂, hr₂, hk₂⟩ := findRunning_some h₂
  have hren : x₁.2.owner = o → x₂ = (ρ x₁.1, x₁.2.rename ρ) := fun ho =>
    hw₂.eq_of_key hx₂ ((h.own _ _ ho).1 hx₁) hr₂ hr₁ (hk₂.trans hk₁.symm)
  refine ⟨⟨fun ho => ?_, fun ho => ?_⟩, fun ho => ?_⟩
  · obtain ⟨y, hy, hyo, rfl⟩ := h.left hx₂ ho
    obtain rfl := hw₁.eq_of_key hx₁ hy hr₁ hr₂ (hk₁.trans hk₂.symm)
    exact hyo
  · rw [hren ho]
    exact ho
  · rw [hren ho]
    rfl

theorem agree_create {pre message uuid₁ uuid₂ : String} (h : Agree o ρ r₁ r₂) (hw₁ : Wf r₁) (hw₂ : Wf r₂)
    (hb₁ : r₁.entries.length < maxTaskRegistryEntries) (hb₂ : r₂.entries.length < maxTaskRegistryEntries)
    (hid₁ : nextTaskId pre uuid₁ ∉ r₁.keys) (hid₂ : nextTaskId pre uuid₂ ∉ r₂.keys)
    (hid : nextTaskId pre uuid₂ = ρ (nextTaskId pre uuid₁)) :
    Agree o ρ (r₁.createKeyed o pre key message uuid₁ now).1 (r₂.createKeyed o pre key message uuid₂ now).1 ∧
    Answer.created (r₂.createKeyed o pre key message uuid₂ now).2 =
      (Answer.created (r₁.createKeyed o pre key message uuid₁ now).2 : Answer V).rename ρ := by
  rw [createKeyed_below hb₁ hid₁, createKeyed_below hb₂ hid₂]
  have hp := h.prune (now 0).instant
  have hw₁' : Wf (r₁.prune (now 0).instant) := hw₁.sublist List.filter_sublist
  have hw₂' : Wf (r₂.prune (now 0).instant) := hw₂.sublist List.filter_sublist
  have htaken : ((r₁.prune (now 0).instant).findRunning key).isSome ↔
      ((r₂.prune (now 0).instant).findRunning key).isSome := by
    rw [findRunning_isSome, findRunning_isSome, hp.taken]
  cases h₁ : (r₁.prune (now 0).instant).findRunning key with
  | some x₁ =>
    obtain ⟨x₂, h₂⟩ := Option.isSome_iff_exists.1 (htaken.1 (by rw [h₁]; rfl))
    obtain ⟨hown, hidx⟩ := hp.findRunning hw₁' hw₂' h₁ h₂
    rw [h₂]
    refine ⟨hp, ?_⟩
    simp only [hown]
    split
    · rename_i hc
      rw [hidx hc.2]
      rfl
    · rfl
  | none =>
    have h₂ : (r₂.prune (now 0).instant).findRunning key = none := by
      rw [h₁] at htaken
      exact Option.not_isSome_iff_eq_none.1 fun hs => nomatch htaken.2 hs
    rw [h₂, hid]
    refine ⟨⟨fun id e ho => ?_, fun k => ?_⟩, rfl⟩
    · simp only [List.mem_append, List.mem_singleton, hp.own id e ho, Prod.mk.injEq, EmbeddingLike.apply_eq_iff_eq]
      refine or_congr_right (and_congr_right fun _ => ⟨fun he => by rw [he]; rfl, fun he => ?_⟩)
      exact TaskEntry.rename_inj ρ he
    · simp only [List.mem_append, List.mem_singleton, or_and_right, exists_or, exists_eq_left, hp.taken k]
      exact Iff.rfl

/-! ### Lookups and cancellations -/

/-- Neither rewriting nor sweeping frees or takes a key, as long as nothing is settled. -/
theorem taken_step (now : Nat → Moment) (key : String) (op : Op V) (hnd : r.keys.Nodup) (hnew : op.newId = none)
    (hop : op.settles = none) :
    (∃ x ∈ (step r now op).1.entries, x.2.Running ∧ x.2.state.key = some key) ↔
      ∃ x ∈ r.entries, x.2.Running ∧ x.2.state.key = some key := by
  obtain ⟨l, hl, hr⟩ := step_effect now hnd hnew
  have hkept : ∀ y ∈ l, y.2.Running → y ∈ (step r now op).1.entries := by
    intro y hy hrun
    rcases hr with hr | ⟨k, hr, -⟩
    · rw [hr]; exact hy
    · rw [hr]; exact mem_prune.2 ⟨hy, .inl hrun⟩
  have hback : ∀ y ∈ (step r now op).1.entries, y ∈ l := by
    intro y hy
    rcases hr with hr | ⟨k, hr, -⟩
    · exact hr ▸ hy
    · exact (mem_prune.1 (hr ▸ hy)).1
  constructor
  · rintro ⟨y, hy, hrun, hk⟩
    obtain ⟨x, hx, hxy⟩ := forall₂_mem_right hl (hback y hy)
    exact ⟨x, hx, hxy.entry.running hrun, hxy.entry.key ▸ hk⟩
  · rintro ⟨x, hx, hrun, hk⟩
    obtain ⟨y, hy, hxy⟩ := forall₂_mem_left hl hx
    have hrun' : y.2.Running := (hxy.settled hrun).resolve_right fun h => by simp [hop] at h
    exact ⟨y, hkept y hy hrun', hrun', hxy.entry.key.trans hk⟩

theorem agree_get (h : Agree o ρ r₁ r₂) (hw₁ : Wf r₁) (hw₂ : Wf r₂) :
    Answer.state (r₂.getForOwner o (ρ id) now).2 =
      (Answer.state (r₁.getForOwner o id now).2 : Answer V).rename ρ := by
  have hp := h.prune (now 0).instant
  have hw₁' : Wf (r₁.prune (now 0).instant) := hw₁.sublist List.filter_sublist
  have hw₂' : Wf (r₂.prune (now 0).instant) := hw₂.sublist List.filter_sublist
  have hown : ((r₂.prune (now 0).instant).get? (ρ id)).filter (fun e => decide (e.owner = o)) =
      (((r₁.prune (now 0).instant).get? id).filter fun e => decide (e.owner = o)).map (TaskEntry.rename ρ) := by
    ext e
    simp only [Option.filter_eq_some_iff, Option.map_eq_some_iff, TaskRegistry.get?, decide_eq_true_eq,
      lookup_eq_some_iff hw₁'.nodup, lookup_eq_some_iff hw₂'.nodup]
    constructor
    · rintro ⟨he, ho⟩
      obtain ⟨y, hy, hyo, heq⟩ := hp.left he ho
      obtain ⟨hid, rfl⟩ := Prod.mk.inj heq
      obtain rfl : id = y.1 := ρ.injective hid
      exact ⟨y.2, ⟨hy, hyo⟩, rfl⟩
    · rintro ⟨e₁, ⟨he₁, ho⟩, rfl⟩
      exact ⟨(hp.own id e₁ ho).1 he₁, ho⟩
  simp only [TaskRegistry.getForOwner, Answer.rename, hown, Option.map_map]
  rfl

/-- What `cancel_for_owner` does to an entry, before it sweeps. -/
def touched (o : TaskOwner) (id : String) (t : Moment) (x : String × TaskEntry V) : String × TaskEntry V :=
  (x.1, if x.1 = id ∧ x.2.owner = o then (x.2.requestCancel "Cancelled by client" t []).1.1 else x.2)

theorem requestCancel_tokens {m : String} {t : Moment} (c : List Nat) :
    (e.requestCancel m t c).1.1 = (e.requestCancel m t []).1.1 ∧
      (e.requestCancel m t c).2 = (e.requestCancel m t []).2 := by
  unfold TaskEntry.requestCancel
  split <;> exact ⟨rfl, rfl⟩

theorem requestCancel_rename {m : String} {t : Moment} {c : List Nat} :
    (e.rename ρ).requestCancel m t c =
      (((e.requestCancel m t c).1.1.rename ρ, (e.requestCancel m t c).1.2), (e.requestCancel m t c).2) := by
  unfold TaskEntry.requestCancel
  have hif : ((e.rename ρ).state.status ≠ .running ∨ (e.rename ρ).cancelRequested.isSome) ↔
      (e.state.status ≠ .running ∨ e.cancelRequested.isSome) := Iff.rfl
  simp only [hif]
  split <;> rfl

theorem touched_owner (o : TaskOwner) (id : String) (t : Moment) (x : String × TaskEntry V) :
    (touched o id t x).2.owner = x.2.owner := by
  unfold touched TaskEntry.requestCancel
  dsimp only
  repeat' split
  all_goals rfl

theorem touched_of_ne {t : Moment} (h : x.2.owner ≠ o) : touched o id t x = x := by simp [touched, h]

theorem touched_rename {t : Moment} :
    touched o (ρ id) t (ρ x.1, x.2.rename ρ) = (ρ (touched o id t x).1, (touched o id t x).2.rename ρ) := by
  have hcond : (ρ x.1 = ρ id ∧ (x.2.rename ρ).owner = o) ↔ (x.1 = id ∧ x.2.owner = o) := by
    rw [EmbeddingLike.apply_eq_iff_eq]; rfl
  simp only [touched, hcond, requestCancel_rename]
  split <;> rfl

theorem cancelForOwner_spec (o : TaskOwner) (id : String) (now : Nat → Moment) (hnd : r.keys.Nodup) :
    ((r.cancelForOwner o id now).2 = true ↔
      ∃ e, (id, e) ∈ r.entries ∧ e.owner = o ∧ (e.requestCancel "Cancelled by client" (now 0) []).2 = true) ∧
    ∀ y, y ∈ (r.cancelForOwner o id now).1.entries ↔ (∃ x ∈ r.entries, y = touched o id (now 0) x) ∧
      ((r.cancelForOwner o id now).2 = true → y.2.retained (now 1).instant = true) := by
  cases hget : r.get? id with
  | none =>
    have hno : ∀ x ∈ r.entries, x.1 ≠ id := fun x hx heq => by
      have := (lookup_eq_some_iff hnd).2 (heq ▸ hx : (id, x.2) ∈ r.entries)
      rw [show r.entries.lookup id = none from hget] at this
      cases this
    have htouch : ∀ x ∈ r.entries, touched o id (now 0) x = x := fun x hx => by simp [touched, hno x hx]
    rw [TaskRegistry.cancelForOwner, TaskRegistry.onEntry, hget]
    refine ⟨⟨by simp, ?_⟩, fun y => ?_⟩
    · rintro ⟨e, he, -⟩
      exact absurd rfl (hno _ he)
    · simp only [Bool.false_eq_true, false_implies, and_true]
      refine ⟨fun hy => ⟨y, hy, (htouch y hy).symm⟩, ?_⟩
      rintro ⟨x, hx, heq⟩
      rw [heq, htouch x hx]
      exact hx
  | some e =>
    have he : (id, e) ∈ r.entries := (lookup_eq_some_iff hnd).1 hget
    have huniq : ∀ e', (id, e') ∈ r.entries → e' = e := fun e' he' =>
      (Prod.mk.inj (List.inj_on_of_nodup_map hnd he' he rfl)).2
    obtain ⟨hans, -, hmem⟩ := onEntry_of_get now (fun b => b) false
      (fun e => if e.owner = o then e.requestCancel "Cancelled by client" (now 0) r.cancelled
        else ((e, r.cancelled), false)) hget
    have hans : (r.cancelForOwner o id now).2 = true ↔
        e.owner = o ∧ (e.requestCancel "Cancelled by client" (now 0) []).2 = true := by
      rw [TaskRegistry.cancelForOwner, hans]
      by_cases ho : e.owner = o
      · rw [if_pos ho, (requestCancel_tokens r.cancelled).2]
        simp [ho]
      · simp [ho]
    have hmap : ∀ x ∈ r.entries, (if x.1 = id then (x.1, (if e.owner = o then
        e.requestCancel "Cancelled by client" (now 0) r.cancelled else ((e, r.cancelled), false)).1.1) else x) =
        touched o id (now 0) x := by
      intro x hx
      by_cases hid : x.1 = id
      · obtain rfl := huniq x.2 (hid ▸ hx)
        rw [if_pos hid, touched]
        by_cases ho : x.2.owner = o
        · rw [if_pos ho, if_pos ⟨hid, ho⟩, (requestCancel_tokens r.cancelled).1]
        · rw [if_neg ho, if_neg fun h => ho h.2]
      · rw [if_neg hid, touched, if_neg fun h => hid h.1]
    refine ⟨hans.trans ⟨fun h => ⟨e, he, h⟩, ?_⟩, fun y => ?_⟩
    · rintro ⟨e', he', h⟩
      exact huniq e' he' ▸ h
    refine (hmem y).trans (and_congr ?_ ?_)
    · simp only [TaskRegistry.set, List.mem_map]
      constructor
      all_goals
        rintro ⟨x, hx, heq⟩
        exact ⟨x, hx, heq ▸ hmap x hx⟩
    · rw [TaskRegistry.cancelForOwner, (onEntry_of_get _ _ _ _ hget).1]

theorem agree_cancel (id : String) (now : Nat → Moment) (h : Agree o ρ r₁ r₂) (hw₁ : Wf r₁) (hw₂ : Wf r₂) :
    Agree o ρ (r₁.cancelForOwner o id now).1 (r₂.cancelForOwner o (ρ id) now).1 ∧
      (r₂.cancelForOwner o (ρ id) now).2 = (r₁.cancelForOwner o id now).2 := by
  obtain ⟨ha₁, hm₁⟩ := cancelForOwner_spec o id now hw₁.nodup
  obtain ⟨ha₂, hm₂⟩ := cancelForOwner_spec o (ρ id) now hw₂.nodup
  have hans : (r₂.cancelForOwner o (ρ id) now).2 = (r₁.cancelForOwner o id now).2 := by
    rw [Bool.eq_iff_iff, ha₁, ha₂]
    constructor
    · rintro ⟨e, he, ho, hreq⟩
      obtain ⟨y, hy, hyo, heq⟩ := h.left he ho
      obtain ⟨hid, rfl⟩ := Prod.mk.inj heq
      obtain rfl : id = y.1 := ρ.injective hid
      rw [requestCancel_rename] at hreq
      exact ⟨y.2, hy, hyo, hreq⟩
    · rintro ⟨e, he, ho, hreq⟩
      exact ⟨e.rename ρ, (h.own id e ho).1 he, ho, by rw [requestCancel_rename]; exact hreq⟩
  refine ⟨⟨fun id' e ho => ?_, fun key => ?_⟩, hans⟩
  · rw [hm₁, hm₂, hans]
    refine and_congr ⟨?_, ?_⟩ Iff.rfl
    · rintro ⟨x, hx, heq⟩
      have hxo : x.2.owner = o := by rw [← touched_owner o id (now 0) x, ← heq]; exact ho
      refine ⟨(ρ x.1, x.2.rename ρ), (h.own _ _ hxo).1 hx, ?_⟩
      rw [touched_rename, ← heq]
    · rintro ⟨x, hx, heq⟩
      have hxo : x.2.owner = o := by
        rw [← touched_owner o (ρ id) (now 0) x, ← heq]; exact ho
      obtain ⟨y, hy, -, rfl⟩ := h.left hx hxo
      rw [touched_rename] at heq
      obtain ⟨h₁, h₂⟩ := Prod.mk.inj heq
      exact ⟨y, hy, Prod.ext (ρ.injective h₁) (TaskEntry.rename_inj ρ h₂)⟩
  · have h₁ := taken_step now key (.cancelForOwner o id) hw₁.nodup rfl rfl
    have h₂ := taken_step now key (.cancelForOwner o (ρ id)) hw₂.nodup rfl rfl
    exact h₁.trans ((h.taken key).trans h₂.symm)

/-! ### Runs of calls -/

/-- A call of `o` is admitted: its id is fresh, and the registry is below its bound. -/
structure Admits (o : TaskOwner) (r : TaskRegistry V) (c : Call) : Prop where
  fresh : Fresh r (c.op o)
  below : r.entries.length < maxTaskRegistryEntries

/-- The same calls of `o`, at the same times, on two registries. -/
inductive Calls (o : TaskOwner) (ρ : Equiv.Perm String) (r₁ r₂ : TaskRegistry V) :
    TaskRegistry V → TaskRegistry V → Prop
  | nil : Calls o ρ r₁ r₂ r₁ r₂
  | call {r₁' r₂' : TaskRegistry V} {c₁ c₂ : Call} (now : Nat → Moment) : Calls o ρ r₁ r₂ r₁' r₂' →
      Call.Same ρ c₁ c₂ → Admits o r₁' c₁ → Admits o r₂' c₂ →
      Calls o ρ r₁ r₂ (step r₁' now (c₁.op o)).1 (step r₂' now (c₂.op o)).1

theorem agree_step {c₁ c₂ : Call} (h : Agree o ρ r₁ r₂) (hw₁ : Wf r₁) (hw₂ : Wf r₂) (hc : Call.Same ρ c₁ c₂)
    (ha₁ : Admits o r₁ c₁) (ha₂ : Admits o r₂ c₂) :
    Agree o ρ (step r₁ now (c₁.op o)).1 (step r₂ now (c₂.op o)).1 ∧
      (step r₂ now (c₂.op o)).2 = ((step r₁ now (c₁.op o)).2).rename ρ := by
  cases hc with
  | create pre key message hid =>
    exact agree_create h hw₁ hw₂ ha₁.below ha₂.below (ha₁.fresh _ rfl) (ha₂.fresh _ rfl) hid
  | get id => exact ⟨h.prune _, agree_get h hw₁ hw₂⟩
  | cancel id =>
    obtain ⟨hag, hans⟩ := agree_cancel id now h hw₁ hw₂
    exact ⟨hag, congrArg Answer.accepted hans⟩

theorem agree_calls {r₁' r₂' : TaskRegistry V} (h : Agree o ρ r₁ r₂) (hw₁ : Wf r₁) (hw₂ : Wf r₂)
    (hr : Calls o ρ r₁ r₂ r₁' r₂') : Agree o ρ r₁' r₂' ∧ Wf r₁' ∧ Wf r₂' := by
  induction hr with
  | nil => exact ⟨h, hw₁, hw₂⟩
  | call now _ hc ha₁ ha₂ ih =>
    obtain ⟨hag, hw₁, hw₂⟩ := ih
    exact ⟨(agree_step hag hw₁ hw₂ hc ha₁ ha₂).1, hw₁.step ha₁.fresh, hw₂.step ha₂.fresh⟩

/-! ### What one call may tell and change -/

/-- Ids and states in an answer are of tasks of `o`; the other owners' tasks stay as they are and uncancelled. -/
structure Private (o : TaskOwner) (r r' : TaskRegistry V) (now : Nat → Moment) (c : Call) (ans : Answer V) : Prop where
  state : ∀ s, ans = .state (some s) → ∃ e, (s.id, e) ∈ r.entries ∧ e.owner = o ∧ e.state = s
  existing : ∀ id, ans = .created (.error (.alreadyRunning id)) →
    o ≠ .runtime ∧ ∃ e, (id, e) ∈ r.entries ∧ e.owner = o
  created : ∀ id, ans = .created (.ok id) → id ∉ r.keys ∧ ∃ e, (id, e) ∈ r'.entries ∧ e.owner = o
  cancelled : ∀ id, c = .cancel id → ans = .accepted true → ∃ e, (id, e) ∈ r.entries ∧ e.owner = o
  others : ∀ x ∈ r.entries, x.2.owner ≠ o →
    x ∈ r'.entries ∨ ¬ x.2.Running ∧ ∃ k, retention ≤ (now k).instant - x.2.state.updatedAt
  noOthers : ∀ x ∈ r'.entries, x.2.owner ≠ o → x ∈ r.entries
  /-- The call cancels no token but that of the task of `o` it is about. -/
  tokens : ∀ token ∈ r'.cancelled, token ∈ r.cancelled ∨
    ∃ id e, c = .cancel id ∧ (id, e) ∈ r.entries ∧ e.owner = o ∧ e.cancelToken = some token

theorem mem_prune_or {t : Nat} (hx : x ∈ r.entries) :
    x ∈ (r.prune t).entries ∨ ¬ x.2.Running ∧ retention ≤ t - x.2.state.updatedAt := by
  by_cases hret : x.2.Running ∨ t - x.2.state.updatedAt < retention
  · exact .inl (mem_prune.2 ⟨hx, hret⟩)
  · rw [not_or, Nat.not_lt] at hret
    exact .inr hret

theorem private_create {pre message uuid : String} (hw : Wf r) (ha : Admits o r (.create pre key message uuid)) :
    Private o r (r.createKeyed o pre key message uuid now).1 now (.create pre key message uuid)
      (.created (r.createKeyed o pre key message uuid now).2) := by
  have hid := ha.fresh _ rfl
  rw [createKeyed_below ha.below hid]
  cases hfind : (r.prune (now 0).instant).findRunning key with
  | some x =>
    obtain ⟨hx, -, -⟩ := findRunning_some hfind
    have hx := (mem_prune.1 hx).1
    refine ⟨nofun, fun id heq => ?_, fun id heq => ?_, nofun, fun y hy _ => ?_, fun y hy _ => (mem_prune.1 hy).1,
      fun _ htoken => .inl htoken⟩
    · simp only [Answer.created.injEq, Except.error.injEq] at heq
      split at heq
      · rename_i ho
        obtain rfl := TaskCreateError.alreadyRunning.inj heq
        exact ⟨ho.1, x.2, by rw [hw.named x hx]; exact hx, ho.2⟩
      · cases heq
    · cases heq
    · exact (mem_prune_or hy).imp_right fun h => ⟨h.1, 0, h.2⟩
  | none =>
    refine ⟨nofun, nofun, fun id heq => ?_, nofun, fun y hy _ => ?_, fun y hy ho => ?_, fun _ htoken => .inl htoken⟩
    · cases heq
      exact ⟨hid, _, List.mem_append_right _ (List.mem_singleton_self _), rfl⟩
    · rcases mem_prune_or (t := (now 0).instant) hy with h | h
      · exact .inl (List.mem_append_left _ h)
      · exact .inr ⟨h.1, 0, h.2⟩
    · rcases List.mem_append.1 hy with hy | hy
      · exact (mem_prune.1 hy).1
      · rw [List.mem_singleton.1 hy] at ho
        exact absurd rfl ho

theorem private_step {c : Call} (now : Nat → Moment) (hw : Wf r) (ha : Admits o r c) :
    Private o r (step r now (c.op o)).1 now c (step r now (c.op o)).2 := by
  cases c with
  | create pre key message uuid => exact private_create hw ha
  | get id =>
    have hnd : (r.prune (now 0).instant).keys.Nodup := hw.nodup.sublist (List.filter_sublist.map Prod.fst)
    refine ⟨fun s hs => ?_, nofun, nofun, nofun, fun y hy _ => ?_, fun y hy _ => (mem_prune.1 hy).1,
      fun _ htoken => .inl htoken⟩
    · have hs := Answer.state.inj hs
      obtain ⟨e, he, rfl⟩ := Option.map_eq_some_iff.1 hs
      obtain ⟨hget, ho⟩ := Option.filter_eq_some_iff.1 he
      have hmem := (mem_prune.1 ((lookup_eq_some_iff hnd).1 hget)).1
      exact ⟨e, by rw [hw.named _ hmem]; exact hmem, of_decide_eq_true ho, rfl⟩
    · exact (mem_prune_or hy).imp_right fun h => ⟨h.1, 0, h.2⟩
  | cancel id =>
    obtain ⟨hans, hmem⟩ := cancelForOwner_spec o id now hw.nodup
    refine ⟨nofun, nofun, nofun, fun id' hid hacc => ?_, fun y hy ho => ?_, fun y hy ho => ?_, fun token htoken => ?_⟩
    · cases hid
      obtain ⟨e, he, ho, -⟩ := hans.1 (Answer.accepted.inj hacc)
      exact ⟨e, he, ho⟩
    · by_cases hret : y.2.Running ∨ (now 1).instant - y.2.state.updatedAt < retention
      · exact .inl ((hmem y).2 ⟨⟨y, hy, (touched_of_ne ho).symm⟩, fun _ => decide_eq_true hret⟩)
      · rw [not_or, Nat.not_lt] at hret
        exact .inr ⟨hret.1, 1, hret.2⟩
    · obtain ⟨x, hx, rfl⟩ := ((hmem y).1 hy).1
      rw [touched_owner] at ho
      rw [touched_of_ne ho]
      exact hx
    · rcases cancelForOwner_cancelled r o id now with hc | ⟨e, hget, ho, hc⟩
      · exact .inl (hc ▸ htoken)
      · have htoken : token ∈ e.cancelToken.toList ++ r.cancelled := hc ▸ htoken
        rcases List.mem_append.1 htoken with hfired | hbefore
        · exact .inr ⟨id, e, rfl, (lookup_eq_some_iff hw.nodup).1 hget, ho, Option.mem_toList.1 hfired⟩
        · exact .inl hbefore

/-- Two registries with the same tasks of `o` and the same keys taken, after any calls of `o`: the next call
is answered alike, up to the fresh ids, and in neither registry does it tell or change anything of others. -/
theorem owner_isolated (h₁ : Reachable r₁) (h₂ : Reachable r₂)
    (hown : ∀ id e, e.owner = o → ((id, e) ∈ r₁.entries ↔ (id, e) ∈ r₂.entries))
    (htaken : ∀ key, (∃ x ∈ r₁.entries, x.2.Running ∧ x.2.state.key = some key) ↔
      ∃ x ∈ r₂.entries, x.2.Running ∧ x.2.state.key = some key)
    (hρ : ∀ id e, (id, e) ∈ r₁.entries → e.owner = o → ρ id = id)
    {r₁' r₂' : TaskRegistry V} (hr : Calls o ρ r₁ r₂ r₁' r₂') {c₁ c₂ : Call} (hc : Call.Same ρ c₁ c₂)
    (ha₁ : Admits o r₁' c₁) (ha₂ : Admits o r₂' c₂) :
    (step r₂' now (c₂.op o)).2 = ((step r₁' now (c₁.op o)).2).rename ρ ∧
    Private o r₁' (step r₁' now (c₁.op o)).1 now c₁ (step r₁' now (c₁.op o)).2 ∧
    Private o r₂' (step r₂' now (c₂.op o)).1 now c₂ (step r₂' now (c₂.op o)).2 ∧
    (o = .runtime → ∀ id, (step r₁' now (c₁.op o)).2 ≠ .created (.error (.alreadyRunning id)) ∧
      ((step r₁' now (c₁.op o)).2 = .created (.ok id) → id ∉ r₁'.keys)) := by
  have hw₁ := Wf.reachable h₁
  have hw₂ := Wf.reachable h₂
  have hname : ∀ id e, (id, e) ∈ r₁.entries → e.owner = o → (ρ id, e.rename ρ) = (id, e) := by
    intro id e he ho
    have hid := hρ id e he ho
    have hs : ρ e.state.id = e.state.id := by
      have hnamed : e.state.id = id := hw₁.named _ he
      rw [hnamed, hid]
    rw [hid, TaskEntry.rename, TaskState.rename, hs]
  have hagree : Agree o ρ r₁ r₂ := by
    refine ⟨fun id e ho => ⟨fun he => ?_, fun he => ?_⟩, htaken⟩
    · rw [hname id e he ho]
      exact (hown id e ho).1 he
    · -- the task on the right is one on the left, whose id `ρ` keeps
      have hleft := (hown _ (e.rename ρ) ho).2 he
      have hfix := Prod.mk.inj (hname _ _ hleft ho)
      have hid : ρ id = id := ρ.injective hfix.1
      have he' : e.rename ρ = e := TaskEntry.rename_inj ρ hfix.2
      rwa [he', hid] at hleft
  obtain ⟨hag, hw₁', hw₂'⟩ := agree_calls hagree hw₁ hw₂ hr
  have hp₁ := private_step now hw₁' ha₁
  refine ⟨(agree_step hag hw₁' hw₂' hc ha₁ ha₂).2, hp₁, private_step now hw₂' ha₂, fun ho id => ⟨fun heq => ?_, ?_⟩⟩
  · exact (hp₁.existing id heq).1 ho
  · exact fun heq => (hp₁.created id heq).1

/-- One Running task of sessionless clients, under the key `/k`. -/
def othersTask (uuid message : String) : TaskRegistry String :=
  (step {} still (.createKeyed .runtime "dsc" "/k" message uuid)).1

theorem othersTask_entries (uuid message : String) : (othersTask uuid message).entries =
    [(nextTaskId "dsc" uuid, newEntry .runtime (nextTaskId "dsc" uuid) "/k" message (still 1))] := by
  have hb : ({} : TaskRegistry String).entries.length < maxTaskRegistryEntries := by decide
  have hid : nextTaskId "dsc" uuid ∉ ({} : TaskRegistry String).keys := by simp [TaskRegistry.keys]
  simp only [othersTask, step, reply, createKeyed_below hb hid]
  rfl

/-- A session creates a task beside two tasks that differ in id and message. -/
theorem owner_isolated_session :
    let op (uuid : String) : Op String := (Call.create "dsc" "/other" "Queued" uuid).op (.session "a")
    (step (othersTask "1" "x") still (op "7")).2 = .created (.ok "dsc-7") ∧
    (step (othersTask "2" "y") still (op "8")).2 =
      ((step (othersTask "1" "x") still (op "7")).2).rename (Equiv.swap "dsc-7" "dsc-8") := by
  intro op
  have hreach : ∀ uuid message, Reachable (othersTask uuid message) := fun uuid message =>
    .step .new fun _ _ => by simp [TaskRegistry.keys]
  have hadmits : ∀ (uuid message new : String), nextTaskId "dsc" new ≠ nextTaskId "dsc" uuid →
      Admits (.session "a") (othersTask uuid message) (.create "dsc" "/other" "Queued" new) := by
    intro uuid message new hne
    refine ⟨fun id hid => ?_, ?_⟩
    · obtain rfl : nextTaskId "dsc" new = id := Option.some.inj hid
      simpa [TaskRegistry.keys, othersTask_entries] using hne
    · rw [othersTask_entries]
      exact (by decide : 1 < maxTaskRegistryEntries)
  refine ⟨by decide +kernel, (owner_isolated (o := .session "a") (hreach "1" "x") (hreach "2" "y") ?_ ?_ ?_ .nil
    (.create "dsc" "/other" "Queued" (by decide +kernel)) (hadmits "1" "x" "7" (by decide +kernel))
    (hadmits "2" "y" "8" (by decide +kernel))).1⟩
  · intro id e ho
    rw [othersTask_entries, othersTask_entries]
    constructor <;> intro he <;> obtain ⟨-, rfl⟩ := Prod.mk.inj (List.mem_singleton.1 he) <;> cases ho
  · intro key
    simp only [othersTask_entries, List.mem_singleton, exists_eq_left]
    exact Iff.rfl
  · intro id e he ho
    rw [othersTask_entries] at he
    obtain ⟨-, rfl⟩ := Prod.mk.inj (List.mem_singleton.1 he)
    cases ho

end IdaRs.Task
