import Mathlib.Data.List.Forall2
import Mathlib.Data.List.Nodup
import Mathlib.Order.Nat
import IdaRs.Task

/-!
# The store invariant of the task registry

`EntryStep` lists what an operation does to one entry. Every operation but a creation rewrites entries in
place by such steps and may then sweep the map (`step_effect`); a creation sweeps, makes room and appends
(`createKeyed_cases`). `Wf` is what both keep; `registry_store` adds what a step may remove.
-/

namespace IdaRs.Task

universe u

variable {V : Type u} {r r' : TaskRegistry V} {now : Nat → Moment} {op : Op V} {e e' : TaskEntry V} {t : Moment}
  {entries : List (String × TaskEntry V)} {x y : String × TaskEntry V} {id : String}

/-! ### One entry -/

inductive EntryStep (e : TaskEntry V) : TaskEntry V → Prop
  | same : EntryStep e e
  | token (token : Nat) : EntryStep e { e with cancelToken := some token }
  | message (message : String) (t : Moment) (hr : e.Running) (hc : e.cancelRequested = none) :
      EntryStep e { e with state := refreshUpdated { e.state with message } t }
  | requested (message text : String) (t : Moment) (hr : e.Running) (hc : e.cancelRequested = none) :
      EntryStep e { e with
        cancelRequested := some message
        state := refreshUpdated { e.state with message := text } t }
  | completed (message : String) (result : V) (t : Moment) (hr : e.Running) (hc : e.cancelRequested = none) :
      EntryStep e { e with
        cancelToken := none
        state := refreshUpdated { e.state with status := .completed, message, result := some result } t }
  | failed (message : String) (t : Moment) (hr : e.Running) :
      EntryStep e { e with
        cancelRequested := none
        cancelToken := none
        state := refreshUpdated { e.state with status := .failed, message } t }
  | cancelled (message : String) (t : Moment) (hr : e.Running) : EntryStep e (e.transitionCancelled message t)

namespace EntryStep

theorem id_eq (h : EntryStep e e') : e'.state.id = e.state.id := by cases h <;> rfl

theorem key (h : EntryStep e e') : e'.state.key = e.state.key := by cases h <;> rfl

theorem running (h : EntryStep e e') (hr : e'.Running) : e.Running := by
  cases h with
  | same => exact hr
  | token => exact hr
  | message _ _ h _ => exact h
  | requested _ _ _ h _ => exact h
  | completed _ _ _ h _ => exact h
  | failed _ _ h => exact h
  | cancelled _ _ h => exact h

/-- A terminal entry keeps its state. -/
theorem state (h : EntryStep e e') (hr : ¬ e.Running) : e'.state = e.state := by
  cases h with
  | same => rfl
  | token => rfl
  | message _ _ h _ => exact absurd h hr
  | requested _ _ _ h _ => exact absurd h hr
  | completed _ _ _ h _ => exact absurd h hr
  | failed _ _ h => exact absurd h hr
  | cancelled _ _ h => exact absurd h hr

end EntryStep

/-- A settlement at `t`: the entry may have become terminal, and was then updated at `t`. -/
def SettledAt (t : Moment) (e e' : TaskEntry V) : Prop := e.Running → e'.Running ∨ e'.state.updatedAt = t.instant

theorem complete_step (v : V) : EntryStep e (e.complete v t).1 ∧ SettledAt t e (e.complete v t).1 := by
  unfold TaskEntry.complete
  split
  · exact ⟨.same, fun h => .inl h⟩
  · rename_i hr
    rw [ne_eq, not_not] at hr
    split
    · exact ⟨.cancelled _ _ hr, fun _ => .inr rfl⟩
    · exact ⟨.completed _ _ _ hr ‹_›, fun _ => .inr rfl⟩

theorem failAfterCleanupError_step (m : String) :
    EntryStep e (e.failAfterCleanupError m t).1 ∧ SettledAt t e (e.failAfterCleanupError m t).1 := by
  unfold TaskEntry.failAfterCleanupError
  split
  · exact ⟨.same, fun h => .inl h⟩
  · rename_i hr
    exact ⟨.failed _ _ (not_not.1 hr), fun _ => .inr rfl⟩

theorem fail_step (m : String) : EntryStep e (e.fail m t).1 ∧ SettledAt t e (e.fail m t).1 := by
  unfold TaskEntry.fail
  split
  · exact ⟨.same, fun h => .inl h⟩
  · rename_i hr
    rw [ne_eq, not_not] at hr
    split
    · exact ⟨.cancelled _ _ hr, fun _ => .inr rfl⟩
    · rename_i hc
      have := EntryStep.failed m t hr
      rw [← hc] at this
      exact ⟨this, fun _ => .inr rfl⟩

theorem finishCancelled_step (m : String) :
    EntryStep e (e.finishCancelled m t).1 ∧ SettledAt t e (e.finishCancelled m t).1 := by
  unfold TaskEntry.finishCancelled
  split
  · exact ⟨.same, fun h => .inl h⟩
  · rename_i hr
    exact ⟨.cancelled _ _ (not_not.1 hr), fun _ => .inr rfl⟩

theorem updateMessage_step (m : String) :
    EntryStep e (e.updateMessage m t) ∧ (e.Running → (e.updateMessage m t).Running) := by
  unfold TaskEntry.updateMessage
  split
  · rename_i h
    exact ⟨.message _ _ h.1 h.2, fun hr => hr⟩
  · exact ⟨.same, fun hr => hr⟩

theorem requestCancel_step (m : String) (cancelled : List Nat) :
    EntryStep e (e.requestCancel m t cancelled).1.1 ∧ (e.Running → (e.requestCancel m t cancelled).1.1.Running) := by
  unfold TaskEntry.requestCancel
  split
  · exact ⟨.same, fun hr => hr⟩
  · rename_i h
    simp only [not_or, not_not, Bool.not_eq_true, Option.isSome_eq_false_iff, Option.isNone_iff_eq_none] at h
    exact ⟨.requested _ _ _ h.1 h.2, fun hr => hr⟩

/-! ### The map -/

/-- What an operation does to an entry and its key. -/
structure Rewrite (op : Op V) (now : Nat → Moment) (x y : String × TaskEntry V) : Prop where
  key : y.1 = x.1
  entry : EntryStep x.2 y.2
  settled : x.2.Running → y.2.Running ∨ op.settles = some x.1 ∧ y.2.state.updatedAt = (now 0).instant

theorem Rewrite.refl (x : String × TaskEntry V) : Rewrite op now x x := ⟨rfl, .same, fun h => .inl h⟩

theorem Rewrite.keeps (h : EntryStep x.2 e) (hr : x.2.Running → e.Running) : Rewrite op now x (x.1, e) :=
  ⟨rfl, h, fun h => .inl (hr h)⟩

theorem Rewrite.settles (hop : op.settles = some id) (h : EntryStep e e' ∧ SettledAt (now 0) e e') :
    Rewrite op now (id, e) (id, e') :=
  ⟨rfl, h.1, fun hr => (h.2 hr).imp_right fun ht => ⟨hop, ht⟩⟩

/-- The entries are rewritten and then swept, if at all: by a settlement, at its second reading of the clock. -/
def Effect (op : Op V) (now : Nat → Moment) (r r' : TaskRegistry V) : Prop :=
  ∃ l, List.Forall₂ (Rewrite op now) r.entries l ∧
    (r'.entries = l ∨ ∃ k, r'.entries = pruneTerminalTasks l (now k).instant ∧ (op.settles ≠ none → k = 1))

theorem forall₂_rewrite_refl (entries : List (String × TaskEntry V)) :
    List.Forall₂ (Rewrite op now) entries entries :=
  List.forall₂_same.2 fun x _ => .refl x

theorem Effect.same (h : r'.entries = r.entries) : Effect op now r r' :=
  ⟨_, forall₂_rewrite_refl _, .inl h⟩

theorem Effect.sweep (k : Nat) (hop : op.settles = none) : Effect op now r (r.prune (now k).instant) :=
  ⟨_, forall₂_rewrite_refl _, .inr ⟨k, rfl, fun h => absurd hop h⟩⟩

/-- Under distinct keys, `lookup` finds an entry by its key. -/
theorem lookup_eq_some_iff (hnd : (entries.map Prod.fst).Nodup) :
    entries.lookup id = some e ↔ (id, e) ∈ entries := by
  induction entries with
  | nil => simp
  | cons x entries ih =>
    obtain ⟨k, e'⟩ := x
    simp only [List.map_cons, List.nodup_cons, List.mem_map] at hnd
    by_cases hk : id = k
    · subst hk
      simp only [List.lookup_cons_self, Option.some.injEq, List.mem_cons, Prod.mk.injEq, true_and]
      refine ⟨fun h => .inl h.symm, ?_⟩
      rintro (h | h)
      · exact h.symm
      · exact absurd ⟨_, h, rfl⟩ hnd.1
    · have hne : (id == k) = false := by simpa using hk
      rw [List.lookup_cons, hne]
      simp only [ih hnd.2, List.mem_cons, Prod.mk.injEq, hk, false_and, false_or]

section OnEntry

variable {α : Type} {sweeps : α → Bool} {absent : α} {f : TaskEntry V → (TaskEntry V × List Nat) × α}

/-- An operation on an entry that is there. -/
theorem onEntry_of_get (now : Nat → Moment) (sweeps : α → Bool) (absent : α)
    (f : TaskEntry V → (TaskEntry V × List Nat) × α) (h : r.get? id = some e) :
    (r.onEntry id now sweeps absent f).2 = (f e).2 ∧
    (r.onEntry id now sweeps absent f).1.cancelled = (f e).1.2 ∧
    ∀ y, y ∈ (r.onEntry id now sweeps absent f).1.entries ↔
      y ∈ (r.set id (f e).1.1).entries ∧ (sweeps (f e).2 = true → y.2.retained (now 1).instant = true) := by
  unfold TaskRegistry.onEntry
  rw [h]
  dsimp only
  refine ⟨rfl, ?_, fun y => ?_⟩
  · split <;> rfl
  · split
    · rename_i hs
      exact List.mem_filter.trans (and_congr_right fun _ => ⟨fun h _ => h, fun h => h hs⟩)
    · rename_i hs
      exact ⟨fun hy => ⟨hy, fun h => absurd h hs⟩, fun hy => hy.1⟩

theorem onEntry_cancelled (sweeps : α → Bool) (absent : α) (f : TaskEntry V → (TaskEntry V × List Nat) × α) :
    (r.onEntry id now sweeps absent f).1.cancelled = (r.get? id).elim r.cancelled fun e => (f e).1.2 := by
  unfold TaskRegistry.onEntry
  split
  · rename_i hnone
    rw [hnone]
    rfl
  · rename_i e hsome
    rw [hsome]
    dsimp only
    split <;> rfl

/-- What a client cancels is the token of a task of its own. -/
theorem cancelForOwner_cancelled (r : TaskRegistry V) (owner : TaskOwner) (id : String) (now : Nat → Moment) :
    (r.cancelForOwner owner id now).1.cancelled = r.cancelled ∨
      ∃ e, r.get? id = some e ∧ e.owner = owner ∧
        (r.cancelForOwner owner id now).1.cancelled = e.cancelToken.toList ++ r.cancelled := by
  unfold TaskRegistry.cancelForOwner
  rw [onEntry_cancelled]
  cases hget : r.get? id with
  | none => exact .inl rfl
  | some e =>
    rw [Option.elim_some]
    split
    · rename_i howner
      unfold TaskEntry.requestCancel
      split
      · exact .inl rfl
      · exact .inr ⟨e, rfl, howner, rfl⟩
    · exact .inl rfl

theorem onEntry_effect (hnd : r.keys.Nodup) (hf : ∀ e, Rewrite op now (id, e) (id, (f e).1.1)) :
    Effect op now r (r.onEntry id now sweeps absent f).1 := by
  unfold TaskRegistry.onEntry
  split
  · exact .same rfl
  · rename_i e he
    refine ⟨(r.set id (f e).1.1).entries, ?_, ?_⟩
    · rw [TaskRegistry.set, List.forall₂_map_right_iff]
      refine List.forall₂_same.2 fun x hx => ?_
      split
      · rename_i heq
        obtain rfl : e = x.2 :=
          Option.some.inj (he.symm.trans ((lookup_eq_some_iff hnd).2 (heq ▸ hx)))
        have := hf x.2
        rw [← heq] at this
        exact this
      · exact .refl x
    · split
      · exact .inr ⟨1, rfl, fun _ => rfl⟩
      · exact .inl rfl

end OnEntry

theorem cancelEach_rewrite (message : String) (entries : List (String × TaskEntry V)) (times : Nat → Moment)
    (cancelled : List Nat) :
    List.Forall₂ (Rewrite op now) entries (TaskRegistry.cancelEach message times entries cancelled).1 := by
  induction entries generalizing times cancelled with
  | nil => exact .nil
  | cons x entries ih =>
    obtain ⟨h, hr⟩ := requestCancel_step (e := x.2) (t := times 0) message cancelled
    exact .cons (.keeps h hr) (ih _ _)

/-- Every operation but a creation rewrites entries in place and sweeps. -/
theorem step_effect (now : Nat → Moment) (hnd : r.keys.Nodup) (hop : op.newId = none) :
    Effect op now r (step r now op).1 := by
  cases op with
  | createKeyed => cases hop
  | setCancelToken id token => exact onEntry_effect hnd fun e => .keeps (x := (id, e)) (.token token) fun h => h
  | get => exact .sweep 0 rfl
  | getForOwner => exact .sweep 0 rfl
  | updateMessage id message =>
    exact onEntry_effect hnd fun e =>
      .keeps (x := (id, e)) (updateMessage_step message).1 (updateMessage_step message).2
  | complete id v => exact onEntry_effect hnd fun e => .settles rfl (complete_step v)
  | completeWithCancelToken id v token message =>
    refine onEntry_effect hnd fun e => .settles rfl ?_
    split
    · exact finishCancelled_step message
    · exact complete_step v
  | completeOrDeferCancellation id v token =>
    refine onEntry_effect hnd fun e => .settles rfl ?_
    split
    · exact ⟨.same, fun h => .inl h⟩
    · split
      · exact ⟨.same, fun h => .inl h⟩
      · exact complete_step v
  | fail id error => exact onEntry_effect hnd fun e => .settles rfl (fail_step error)
  | failAfterCleanupError id error =>
    exact onEntry_effect hnd fun e => .settles rfl (failAfterCleanupError_step error)
  | cancelForOwner owner id =>
    refine onEntry_effect hnd fun e => ?_
    split
    · obtain ⟨h, hr⟩ := requestCancel_step (e := e) (t := now 0) "Cancelled by client" r.cancelled
      exact .keeps (x := (id, e)) h hr
    · exact .refl _
  | finishCancelled id message => exact onEntry_effect hnd fun e => .settles rfl (finishCancelled_step message)
  | cancelAllRunning message =>
    refine ⟨_, cancelEach_rewrite message r.entries now r.cancelled, ?_⟩
    simp only [step, reply, TaskRegistry.cancelAllRunning]
    split
    · exact .inr ⟨_, rfl, fun h => absurd rfl h⟩
    · exact .inl rfl
  | cancelToken => exact .same rfl

/-! ### Making room -/

theorem mem_terminalByAge {v : Nat × String} :
    v ∈ terminalByAge entries ↔ ∃ x ∈ entries, ¬ x.2.Running ∧ (x.2.state.updatedAt, x.1) = v := by
  rw [terminalByAge, List.mem_mergeSort, List.mem_map]
  simp only [List.mem_filter, decide_eq_true_eq, ne_eq, and_assoc]

theorem olderFirst_trans (a b c : Nat × String) (hab : olderFirst a b) (hbc : olderFirst b c) : olderFirst a c := by
  simp only [olderFirst, decide_eq_true_eq] at *
  rcases hab with hab | ⟨hab, hab'⟩ <;> rcases hbc with hbc | ⟨hbc, hbc'⟩
  · exact .inl (hab.trans hbc)
  · exact .inl (hbc ▸ hab)
  · exact .inl (hab ▸ hbc)
  · exact .inr ⟨hab.trans hbc, String.le_trans hab' hbc'⟩

theorem olderFirst_total (a b : Nat × String) : olderFirst a b || olderFirst b a := by
  simp only [olderFirst, Bool.or_eq_true, decide_eq_true_eq]
  rcases Nat.lt_trichotomy a.1 b.1 with h | h | h
  · exact .inl (.inl h)
  · rcases String.le_total a.2 b.2 with h' | h'
    · exact .inl (.inr ⟨h, h'⟩)
    · exact .inr (.inr ⟨h.symm, h'⟩)
  · exact .inr (.inl h)

/-- The first of the terminal entries by age is one that was updated least recently. -/
theorem terminalByAge_head {v : Nat × String} {rest : List (Nat × String)} (h : terminalByAge entries = v :: rest)
    (hx : x ∈ entries) (ht : ¬ x.2.Running) : v.1 ≤ x.2.state.updatedAt := by
  have hsorted := List.pairwise_mergeSort olderFirst_trans olderFirst_total
    ((entries.filter fun x => decide (x.2.state.status ≠ .running)).map fun x => (x.2.state.updatedAt, x.1))
  rw [← terminalByAge, h, List.pairwise_cons] at hsorted
  have hmem : (x.2.state.updatedAt, x.1) ∈ terminalByAge entries := mem_terminalByAge.2 ⟨x, hx, ht, rfl⟩
  rw [h, List.mem_cons] at hmem
  rcases hmem with heq | hmem
  · exact (congrArg Prod.fst heq).ge
  · have := hsorted.1 _ hmem
    simp only [olderFirst, decide_eq_true_eq] at this
    rcases this with h | ⟨h, -⟩
    · exact h.le
    · exact h.le

theorem length_filter_ne (hnd : (entries.map Prod.fst).Nodup) (hx : x ∈ entries) :
    (entries.filter (·.1 ≠ x.1)).length + 1 = entries.length := by
  have hmem : x.1 ∈ entries.map Prod.fst := List.mem_map_of_mem hx
  have hkeys : (entries.filter (·.1 ≠ x.1)).map Prod.fst = (entries.map Prod.fst).erase x.1 := by
    rw [hnd.erase_eq_filter, List.filter_map]
    congr 1
    exact List.filter_congr fun y _ => by simp [bne, decide_not]; rfl
  have := congrArg List.length hkeys
  rw [List.length_map, List.length_erase_of_mem hmem, List.length_map] at this
  have hpos : 0 < entries.length := List.length_pos_of_mem hx
  omega

/-- A map at its bound: it has only Running entries, or loses one that was updated least recently. -/
theorem reclaim_full (hfull : entries.length = maxTaskRegistryEntries) :
    ((∀ x ∈ entries, x.2.Running) ∧ reclaimCapacityForAdmission entries = entries) ∨
    ∃ x ∈ entries, ¬ x.2.Running ∧ (∀ y ∈ entries, ¬ y.2.Running → x.2.state.updatedAt ≤ y.2.state.updatedAt) ∧
      reclaimCapacityForAdmission entries = entries.filter (·.1 ≠ x.1) := by
  have hexcess : entries.length - maxTaskRegistryEntries + 1 = 1 := by omega
  rw [reclaimCapacityForAdmission, if_neg (by omega), hexcess]
  cases h : terminalByAge entries with
  | nil =>
    refine .inl ⟨fun x hx => Decidable.by_contra fun ht => ?_, by simp⟩
    have := mem_terminalByAge.2 ⟨x, hx, ht, rfl⟩
    rw [h] at this
    cases this
  | cons v rest =>
    obtain ⟨x, hx, ht, rfl⟩ := mem_terminalByAge.1 (h ▸ List.mem_cons_self)
    exact .inr ⟨x, hx, ht, fun y hy hty => terminalByAge_head h hy hty, by simp⟩

/-! ### Creations -/

/-- The entry of a new task. -/
structure Created (owner : TaskOwner) (key id : String) (e : TaskEntry V) : Prop where
  owner : e.owner = owner
  running : e.Running
  id : e.state.id = id
  key : e.state.key = some key
  result : e.state.result = none
  pending : e.cancelRequested = none

/-- What a creation makes of the swept registry `p`, and its answer. -/
inductive CreateOutcome (p r' : TaskRegistry V) (owner : TaskOwner) (key id : String) :
    Except TaskCreateError String → Prop
  | existing (x : String × TaskEntry V) (hx : p.findRunning key = some x) (h : r' = p) :
      CreateOutcome p r' owner key id (.error
        (if owner ≠ .runtime ∧ x.2.owner = owner then .alreadyRunning x.2.state.id else .existingTaskIdIsPrivate))
  | saturated (hfree : p.findRunning key = none) (hfull : p.entries.length = maxTaskRegistryEntries)
      (hall : ∀ x ∈ p.entries, x.2.Running) (h : r' = p) :
      CreateOutcome p r' owner key id (.error (.capacityExceeded maxTaskRegistryEntries))
  | room (e : TaskEntry V) (hfree : p.findRunning key = none) (hroom : p.entries.length < maxTaskRegistryEntries)
      (he : Created owner key id e) (h : r' = { p with entries := p.entries ++ [(id, e)] }) :
      CreateOutcome p r' owner key id (.ok id)
  | evicted (e : TaskEntry V) (victim : String × TaskEntry V) (hfree : p.findRunning key = none)
      (hfull : p.entries.length = maxTaskRegistryEntries) (hv : victim ∈ p.entries) (ht : ¬ victim.2.Running)
      (hmin : ∀ y ∈ p.entries, ¬ y.2.Running → victim.2.state.updatedAt ≤ y.2.state.updatedAt)
      (he : Created owner key id e)
      (h : r' = { p with entries := p.entries.filter (·.1 ≠ victim.1) ++ [(id, e)] }) :
      CreateOutcome p r' owner key id (.ok id)

theorem filter_ne_eq_self (hid : id ∉ entries.map Prod.fst) : entries.filter (·.1 ≠ id) = entries :=
  List.filter_eq_self.2 fun _ hx => decide_eq_true fun heq => hid (heq ▸ List.mem_map_of_mem hx)

theorem createKeyed_outcome {owner : TaskOwner} {pre key message uuid : String}
    (hnd : r.keys.Nodup) (hbound : r.entries.length ≤ maxTaskRegistryEntries)
    (hid : nextTaskId pre uuid ∉ r.keys) :
    CreateOutcome (r.prune (now 0).instant) (r.createKeyed owner pre key message uuid now).1 owner key
      (nextTaskId pre uuid) (r.createKeyed owner pre key message uuid now).2 := by
  have hsub : (r.prune (now 0).instant).entries.Sublist r.entries := List.filter_sublist
  have hnd' := hnd.sublist (hsub.map Prod.fst)
  have hid' : nextTaskId pre uuid ∉ (r.prune (now 0).instant).keys := fun h => hid ((hsub.map Prod.fst).subset h)
  have hbound' := hsub.length_le.trans hbound
  generalize hp : r.prune (now 0).instant = p at *
  unfold TaskRegistry.createKeyed
  simp only [hp]
  split
  · rename_i x hx
    have : CreateOutcome p p owner key (nextTaskId pre uuid) _ := .existing x hx rfl
    cases owner with
    | session s => simp only [ne_eq, reduceCtorEq, not_false_eq_true, true_and] at this ⊢; split at this <;> simp_all
    | runtime => simpa using this
  · rename_i hfree
    by_cases hroom : p.entries.length < maxTaskRegistryEntries
    · rw [reclaimCapacityForAdmission, if_pos hroom, if_neg (by omega)]
      refine .room _ hfree hroom ?_ (by rw [filter_ne_eq_self hid'])
      exact ⟨rfl, rfl, rfl, rfl, rfl, rfl⟩
    · have hfull : p.entries.length = maxTaskRegistryEntries := by omega
      rcases reclaim_full hfull with ⟨hall, heq⟩ | ⟨x, hx, ht, hmin, heq⟩
      · rw [heq, if_pos hfull.ge]
        exact .saturated hfree hfull hall rfl
      · have hlen := length_filter_ne hnd' hx
        rw [heq, if_neg (by omega)]
        have hid'' : nextTaskId pre uuid ∉ (p.entries.filter (·.1 ≠ x.1)).map Prod.fst := fun h =>
          hid' ((List.filter_sublist.map Prod.fst).subset h)
        refine .evicted _ x hfree hfull hx ht hmin ?_ (by rw [filter_ne_eq_self hid''])
        exact ⟨rfl, rfl, rfl, rfl, rfl, rfl⟩

/-! ### Whole runs -/

structure Wf (r : TaskRegistry V) : Prop where
  nodup : r.keys.Nodup
  named : ∀ x ∈ r.entries, x.2.state.id = x.1
  bound : r.entries.length ≤ maxTaskRegistryEntries
  /-- At most one Running entry for each key. -/
  unique : r.entries.Pairwise fun x y => x.2.Running → y.2.Running → x.2.state.key ≠ y.2.state.key
  result : ∀ x ∈ r.entries, (x.2.state.result.isSome ↔ x.2.state.status = .completed)
  /-- Only a Running task has a cancellation request pending. -/
  pending : ∀ x ∈ r.entries, x.2.cancelRequested.isSome → x.2.Running

theorem Wf.sublist (h : Wf r) (hs : r'.entries.Sublist r.entries) : Wf r' :=
  ⟨h.nodup.sublist (hs.map _), fun x hx => h.named x (hs.subset hx), hs.length_le.trans h.bound,
    h.unique.sublist hs, fun x hx => h.result x (hs.subset hx), fun x hx => h.pending x (hs.subset hx)⟩

theorem EntryStep.result (h : EntryStep e e') (hr : e.state.result.isSome ↔ e.state.status = .completed) :
    e'.state.result.isSome ↔ e'.state.status = .completed := by
  cases h with
  | same | token => exact hr
  | message _ _ _ _ | requested _ _ _ _ _ => exact hr
  | completed => simp [refreshUpdated]
  | failed _ _ h | cancelled _ _ h =>
    have hnone : ¬ e.state.result.isSome := fun hsome => by rw [TaskEntry.Running, hr.1 hsome] at h; cases h
    simpa [refreshUpdated, TaskEntry.transitionCancelled] using hnone

theorem EntryStep.pending (h : EntryStep e e') (hp : e.cancelRequested.isSome → e.Running) :
    e'.cancelRequested.isSome → e'.Running := by
  cases h with
  | same | token => exact hp
  | message _ _ hr _ => exact fun _ => hr
  | requested _ _ _ hr _ => exact fun _ => hr
  | completed _ _ _ _ hc => simp [hc]
  | failed => simp
  | cancelled => simp [TaskEntry.transitionCancelled]

theorem forall₂_mem_right {α β : Type u} {R : α → β → Prop} {l : List α} {l' : List β} (h : List.Forall₂ R l l')
    {b : β} (hb : b ∈ l') : ∃ a ∈ l, R a b := by
  induction h with
  | nil => cases hb
  | cons hab _ ih =>
    rcases List.mem_cons.1 hb with rfl | hb
    · exact ⟨_, List.mem_cons_self, hab⟩
    · obtain ⟨a, ha, hr⟩ := ih hb
      exact ⟨a, List.mem_cons_of_mem _ ha, hr⟩

theorem forall₂_mem_left {α β : Type u} {R : α → β → Prop} {l : List α} {l' : List β} (h : List.Forall₂ R l l')
    {a : α} (ha : a ∈ l) : ∃ b ∈ l', R a b := by
  obtain ⟨b, hb, hr⟩ := forall₂_mem_right h.flip ha
  exact ⟨b, hb, hr⟩

theorem rewrite_keys {l : List (String × TaskEntry V)} (h : List.Forall₂ (Rewrite op now) entries l) :
    l.map Prod.fst = entries.map Prod.fst := by
  induction h with
  | nil => rfl
  | cons hxy _ ih => rw [List.map_cons, List.map_cons, ih, hxy.key]

theorem rewrite_unique {l : List (String × TaskEntry V)} (h : List.Forall₂ (Rewrite op now) entries l)
    (hu : entries.Pairwise fun x y => x.2.Running → y.2.Running → x.2.state.key ≠ y.2.state.key) :
    l.Pairwise fun x y => x.2.Running → y.2.Running → x.2.state.key ≠ y.2.state.key := by
  induction h with
  | nil => exact .nil
  | cons hxy hl ih =>
    rw [List.pairwise_cons] at hu ⊢
    refine ⟨fun z hz hr hrz => ?_, ih hu.2⟩
    obtain ⟨w, hw, hwz⟩ := forall₂_mem_right hl hz
    rw [hxy.entry.key, hwz.entry.key]
    exact hu.1 w hw (hxy.entry.running hr) (hwz.entry.running hrz)

theorem Wf.rewrite {l : List (String × TaskEntry V)} (h : Wf r) (hl : List.Forall₂ (Rewrite op now) r.entries l)
    (cancelled : List Nat) : Wf ⟨l, cancelled⟩ := by
  have hback : ∀ y ∈ l, ∃ x ∈ r.entries, Rewrite op now x y := fun y hy => forall₂_mem_right hl hy
  refine ⟨?_, fun y hy => ?_, ?_, rewrite_unique hl h.unique, fun y hy => ?_, fun y hy => ?_⟩
  · rw [TaskRegistry.keys, rewrite_keys hl]
    exact h.nodup
  · obtain ⟨x, hx, hxy⟩ := hback y hy
    rw [hxy.entry.id_eq, hxy.key, h.named x hx]
  · rw [← hl.length_eq]
    exact h.bound
  · obtain ⟨x, hx, hxy⟩ := hback y hy
    exact hxy.entry.result (h.result x hx)
  · obtain ⟨x, hx, hxy⟩ := hback y hy
    exact hxy.entry.pending (h.pending x hx)

theorem Wf.effect (h : Wf r) (he : Effect op now r r') : Wf r' := by
  obtain ⟨l, hl, hr' | ⟨k, hr', -⟩⟩ := he
  · exact (h.rewrite hl r'.cancelled).sublist (hr' ▸ .refl _)
  · exact (h.rewrite hl r'.cancelled).sublist (hr' ▸ List.filter_sublist)

/-- A new entry with a fresh id and a free key may be appended. -/
theorem Wf.append {owner : TaskOwner} {key : String} (h : Wf r) (hid : id ∉ r.keys)
    (hfree : ∀ x ∈ r.entries, x.2.Running → x.2.state.key ≠ some key)
    (hroom : r.entries.length < maxTaskRegistryEntries) (he : Created owner key id e) :
    Wf { r with entries := r.entries ++ [(id, e)] } := by
  have hmem : ∀ {P : String × TaskEntry V → Prop}, (∀ x ∈ r.entries, P x) → P (id, e) →
      ∀ x ∈ r.entries ++ [(id, e)], P x := by
    intro P hold hnew x hx
    rcases List.mem_append.1 hx with hx | hx
    · exact hold x hx
    · exact List.mem_singleton.1 hx ▸ hnew
  refine ⟨?_, hmem h.named he.id, ?_, ?_, hmem h.result ?_, hmem h.pending fun hp => ?_⟩
  · rw [TaskRegistry.keys, List.map_append, List.nodup_append]
    refine ⟨h.nodup, by simp, fun a ha b hb hab => hid ?_⟩
    rwa [hab, show b = id by simpa using hb] at ha
  · rw [List.length_append]
    exact hroom
  · rw [List.pairwise_append]
    refine ⟨h.unique, List.pairwise_singleton _ _, fun x hx y hy hr _ => ?_⟩
    rw [List.mem_singleton.1 hy, he.key]
    exact hfree x hx hr
  · simp only [he.result, Option.isSome_none, Bool.false_eq_true, false_iff]
    exact fun hc => nomatch he.running.symm.trans hc
  · rw [he.pending] at hp
    cases hp

theorem findRunning_some {key : String} (h : r.findRunning key = some x) :
    x ∈ r.entries ∧ x.2.Running ∧ x.2.state.key = some key := by
  have hx := List.find?_some h
  exact ⟨List.mem_of_find?_eq_some h, of_decide_eq_true hx⟩

theorem findRunning_eq_none {key : String} (h : r.findRunning key = none) :
    ∀ x ∈ r.entries, x.2.Running → x.2.state.key ≠ some key := by
  intro x hx hr hk
  have := List.find?_eq_none.1 h x hx
  exact this (decide_eq_true ⟨hr, hk⟩)

theorem Wf.create {owner : TaskOwner} {key : String} {res : Except TaskCreateError String} (h : Wf r)
    (hid : id ∉ r.keys) (ho : CreateOutcome r r' owner key id res) : Wf r' := by
  cases ho with
  | existing x hx hr => exact hr ▸ h
  | saturated _ _ _ hr => exact hr ▸ h
  | room e hfree hroom he hr =>
    rw [hr]
    exact h.append hid (findRunning_eq_none hfree) hroom he
  | evicted e victim hfree hfull hv ht hmin he hr =>
    rw [hr]
    have hsub : (r.entries.filter (·.1 ≠ victim.1)).Sublist r.entries := List.filter_sublist
    have hlen := length_filter_ne h.nodup hv
    refine Wf.append (r := ⟨r.entries.filter (·.1 ≠ victim.1), r.cancelled⟩) (h.sublist hsub)
      (fun hmem => hid ((hsub.map _).subset hmem)) (fun x hx => findRunning_eq_none hfree x (hsub.subset hx)) ?_ he
    show (r.entries.filter (·.1 ≠ victim.1)).length < maxTaskRegistryEntries
    omega

theorem Wf.step (h : Wf r) (hf : Fresh r op) : Wf (step r now op).1 := by
  cases hop : op.newId with
  | none => exact h.effect (step_effect now h.nodup hop)
  | some id =>
    cases op <;> cases hop
    have hid := hf _ rfl
    have hsub : (r.prune (now 0).instant).entries.Sublist r.entries := List.filter_sublist
    exact (h.sublist hsub).create (fun hmem => hid ((hsub.map _).subset hmem))
      (createKeyed_outcome h.nodup h.bound hid)

theorem Wf.reachable (h : Reachable r) : Wf r := by
  induction h with
  | new => exact ⟨.nil, by simp, Nat.zero_le _, .nil, by simp, by simp⟩
  | step _ hf ih => exact ih.step hf

/-! ### What a step removes -/

/-- The map was full when the creation looked for room. -/
def Full (r : TaskRegistry V) (now : Nat → Moment) : Prop :=
  maxTaskRegistryEntries ≤ (r.prune (now 0).instant).entries.length

/-- What a creation does: it is refused for a Running task with its key, or by a map full of Running tasks, and
removes nothing then; any other creation is answered with the new task, which replaces one terminal entry if the map is
full. -/
structure CreateStep (now : Nat → Moment) (r r' : TaskRegistry V) (owner : TaskOwner) (key id : String)
    (res : Except TaskCreateError String) : Prop where
  refused : ∀ err, res = .error err → r'.entries = (r.prune (now 0).instant).entries ∧
    ((∃ x ∈ (r.prune (now 0).instant).entries, x.2.Running ∧ x.2.state.key = some key ∧
        err = if owner ≠ .runtime ∧ x.2.owner = owner then .alreadyRunning x.2.state.id else .existingTaskIdIsPrivate) ∨
      err = .capacityExceeded maxTaskRegistryEntries ∧ Full r now ∧
        ∀ x ∈ (r.prune (now 0).instant).entries, x.2.Running ∧ x.2.state.key ≠ some key)
  admitted : ∀ id', res = .ok id' → id' = id ∧
    ∀ x ∈ (r.prune (now 0).instant).entries, x.2.Running → x.2.state.key ≠ some key
  appended : ∀ id', res = .ok id' → ¬ Full r now →
    ∃ e, Created owner key id e ∧ r'.entries = (r.prune (now 0).instant).entries ++ [(id, e)]
  evicted : ∀ id', res = .ok id' → Full r now →
    ∃ victim ∈ (r.prune (now 0).instant).entries, ¬ victim.2.Running ∧
      (∀ y ∈ (r.prune (now 0).instant).entries, ¬ y.2.Running →
        victim.2.state.updatedAt ≤ y.2.state.updatedAt) ∧
      ∃ e, Created owner key id e ∧
        r'.entries = (r.prune (now 0).instant).entries.filter (·.1 ≠ victim.1) ++ [(id, e)]

structure StoreStep (now : Nat → Moment) (op : Op V) (r r' : TaskRegistry V) (ans : Answer V) : Prop where
  /-- A Running entry stays, unless the operation itself settles it and the TTL passes before its sweep. -/
  running : ∀ x ∈ r.entries, x.2.Running →
    x.1 ∈ r'.keys ∨ op.settles = some x.1 ∧ retention ≤ (now 1).instant - (now 0).instant
  /-- A terminal entry is removed when its age reached the TTL, or by a creation that found the map full. -/
  terminal : ∀ x ∈ r.entries, ¬ x.2.Running →
    x.1 ∈ r'.keys ∨ (∃ k, retention ≤ (now k).instant - x.2.state.updatedAt) ∨ op.newId ≠ none ∧ Full r now
  capacity : ∀ n, ans = .created (.error (.capacityExceeded n)) → ∀ x ∈ r'.entries, x.2.Running
  created : ∀ owner pre key message uuid, op = .createKeyed owner pre key message uuid →
    ∃ res, ans = .created res ∧ CreateStep now r r' owner key (nextTaskId pre uuid) res

theorem mem_prune {now : Nat} : x ∈ pruneTerminalTasks entries now ↔
    x ∈ entries ∧ (x.2.Running ∨ now - x.2.state.updatedAt < retention) := by
  simp [pruneTerminalTasks, TaskEntry.retained]

/-- What a rewriting of the map with a sweep may remove. -/
theorem Effect.storeStep {ans : Answer V} (h : Effect op now r r') (hop : op.newId = none)
    (hans : ∀ res, ans ≠ .created res) : StoreStep now op r r' ans := by
  obtain ⟨l, hl, hr⟩ := h
  have hkept : ∀ y ∈ l, y.1 ∈ r'.keys ∨
      ¬ y.2.Running ∧ ∃ k, retention ≤ (now k).instant - y.2.state.updatedAt ∧ (op.settles ≠ none → k = 1) := by
    intro y hy
    rcases hr with hr | ⟨k, hr, hk⟩
    · exact .inl (List.mem_map_of_mem (hr ▸ hy))
    · by_cases hret : y.2.Running ∨ (now k).instant - y.2.state.updatedAt < retention
      · exact .inl (List.mem_map_of_mem (hr ▸ mem_prune.2 ⟨hy, hret⟩))
      · rw [not_or, Nat.not_lt] at hret
        exact .inr ⟨hret.1, k, hret.2, hk⟩
  refine ⟨fun x hx hrun => ?_, fun x hx hterm => ?_, fun n hn => absurd hn (hans _), fun _ _ _ _ _ hcreate => ?_⟩
  · obtain ⟨y, hy, hxy⟩ := forall₂_mem_left hl hx
    rcases hkept y hy with h | ⟨hterm, k, hold, hk⟩
    · exact .inl (hxy.key ▸ h)
    · rcases hxy.settled hrun with h | ⟨hs, ht⟩
      · exact absurd h hterm
      · rw [ht, hk (by simp [hs])] at hold
        exact .inr ⟨hs, hold⟩
  · obtain ⟨y, hy, hxy⟩ := forall₂_mem_left hl hx
    rcases hkept y hy with h | ⟨-, k, hold, -⟩
    · exact .inl (hxy.key ▸ h)
    · rw [hxy.entry.state hterm] at hold
      exact .inr (.inl ⟨k, hold⟩)
  · rw [hcreate] at hop
    cases hop

/-- Which branch a creation took is read off its answer. -/
theorem CreateOutcome.createStep {owner : TaskOwner} {key : String} {res : Except TaskCreateError String}
    (h : CreateOutcome (r.prune (now 0).instant) r' owner key id res) : CreateStep now r r' owner key id res := by
  cases h with
  | existing x hx h =>
    obtain ⟨hmem, hrun, hkey⟩ := findRunning_some hx
    refine ⟨fun err herr => ⟨by rw [h], .inl ⟨x, hmem, hrun, hkey, ?_⟩⟩, ?_, ?_, ?_⟩
    · exact (Except.error.inj herr).symm
    all_goals
      intro id' hok
      cases hok
  | saturated hfree hfull hall h =>
    refine ⟨fun err herr => ⟨by rw [h], .inr ⟨(Except.error.inj herr).symm, hfull.ge, fun x hx => ?_⟩⟩, ?_, ?_, ?_⟩
    · exact ⟨hall x hx, findRunning_eq_none hfree x hx (hall x hx)⟩
    all_goals
      intro id' hok
      cases hok
  | room e hfree hroom he h =>
    refine ⟨?_, fun id' hok => ?_, fun _ _ _ => ⟨e, he, by rw [h]⟩, fun _ _ hfull => ?_⟩
    · intro err herr
      cases herr
    · exact ⟨(Except.ok.inj hok).symm, findRunning_eq_none hfree⟩
    · exact absurd hfull (Nat.not_le.2 hroom)
  | evicted e victim hfree hfull hv ht hmin he h =>
    refine ⟨?_, fun id' hok => ?_, fun _ _ hroom => ?_, fun _ _ _ => ⟨victim, hv, ht, hmin, e, he, by rw [h]⟩⟩
    · intro err herr
      cases herr
    · exact ⟨(Except.ok.inj hok).symm, findRunning_eq_none hfree⟩
    · exact absurd hfull.ge hroom

theorem CreateOutcome.storeStep {owner : TaskOwner} {pre key message uuid : String}
    {res : Except TaskCreateError String} (hnd : r.keys.Nodup)
    (h : CreateOutcome (r.prune (now 0).instant) r' owner key (nextTaskId pre uuid) res) :
    StoreStep now (.createKeyed owner pre key message uuid) r r' (.created res) := by
  have hcreated : ∀ owner' pre' key' message' uuid',
      Op.createKeyed (V := V) owner pre key message uuid = .createKeyed owner' pre' key' message' uuid' →
      ∃ res', Answer.created (V := V) res = .created res' ∧
        CreateStep now r r' owner' key' (nextTaskId pre' uuid') res' := by
    intro owner' pre' key' message' uuid' heq
    cases heq
    exact ⟨res, rfl, h.createStep⟩
  have hswept : ∀ x ∈ r.entries, x ∈ (r.prune (now 0).instant).entries ∨
      ¬ x.2.Running ∧ retention ≤ (now 0).instant - x.2.state.updatedAt := by
    intro x hx
    by_cases hret : x.2.Running ∨ (now 0).instant - x.2.state.updatedAt < retention
    · exact .inl (mem_prune.2 ⟨hx, hret⟩)
    · rw [not_or, Nat.not_lt] at hret
      exact .inr hret
  -- what remains of the swept map, as far as a creation keeps it
  have hstore : (∀ x ∈ (r.prune (now 0).instant).entries, x.1 ∈ r'.keys ∨ ¬ x.2.Running ∧ Full r now) →
      (∀ x ∈ r.entries, x.2.Running →
        x.1 ∈ r'.keys ∨ (Op.createKeyed (V := V) owner pre key message uuid).settles = some x.1 ∧
          retention ≤ (now 1).instant - (now 0).instant) ∧
      (∀ x ∈ r.entries, ¬ x.2.Running → x.1 ∈ r'.keys ∨
        (∃ k, retention ≤ (now k).instant - x.2.state.updatedAt) ∨
          (Op.createKeyed (V := V) owner pre key message uuid).newId ≠ none ∧ Full r now) := by
    refine fun hkept => ⟨fun x hx hrun => .inl ?_, fun x hx hterm => ?_⟩
    · rcases hswept x hx with hx | ⟨hterm, -⟩
      · exact (hkept x hx).resolve_right fun h => h.1 hrun
      · exact absurd hrun hterm
    · rcases hswept x hx with hx | ⟨-, hold⟩
      · exact (hkept x hx).imp_right fun h => .inr ⟨Option.some_ne_none _, h.2⟩
      · exact .inr (.inl ⟨0, hold⟩)
  cases h with
  | existing x hx h =>
    obtain ⟨h₁, h₂⟩ := hstore fun x hx => .inl (h ▸ List.mem_map_of_mem hx)
    refine ⟨h₁, h₂, fun n hn => ?_, hcreated⟩
    split at hn <;> cases hn
  | saturated _ _ hall h =>
    obtain ⟨h₁, h₂⟩ := hstore fun x hx => .inl (h ▸ List.mem_map_of_mem hx)
    exact ⟨h₁, h₂, fun n _ => h ▸ hall, hcreated⟩
  | room e _ _ _ h =>
    obtain ⟨h₁, h₂⟩ := hstore fun x hx => .inl (h ▸ List.mem_map_of_mem (List.mem_append_left _ hx))
    refine ⟨h₁, h₂, fun n hn => ?_, hcreated⟩
    cases hn
  | evicted e victim _ hfull hv ht _ _ h =>
    obtain ⟨h₁, h₂⟩ := hstore fun x hx => by
      by_cases hxv : x.1 = victim.1
      · have hnd' := hnd.sublist ((List.filter_sublist (l := r.entries)
          (p := fun x => x.2.retained (now 0).instant)).map Prod.fst)
        obtain rfl : x = victim := List.inj_on_of_nodup_map hnd' hx hv hxv
        exact .inr ⟨ht, hfull.ge⟩
      · refine .inl (h ▸ List.mem_map_of_mem (List.mem_append_left _ (List.mem_filter.2 ⟨hx, ?_⟩)))
        exact decide_eq_true hxv
    refine ⟨h₁, h₂, fun n hn => ?_, hcreated⟩
    cases hn

/-- The store invariant: at every reachable registry, and for the next operation at any clock. -/
theorem registry_store (h : Reachable r) :
    r.entries.length ≤ maxTaskRegistryEntries ∧
    (r.entries.Pairwise fun x y => x.2.Running → y.2.Running → x.2.state.key ≠ y.2.state.key) ∧
    ∀ now op, Fresh r op → StoreStep now op r (step r now op).1 (step r now op).2 := by
  have hwf := Wf.reachable h
  refine ⟨hwf.bound, hwf.unique, fun now op hf => ?_⟩
  cases hop : op.newId with
  | none =>
    refine (step_effect now hwf.nodup hop).storeStep hop fun res => ?_
    cases op <;> first | (cases hop; done) | simp [step, reply]
  | some id =>
    cases op <;> cases hop
    exact (createKeyed_outcome hwf.nodup hwf.bound (hf _ rfl)).storeStep hwf.nodup

/-- A clock that stands still. -/
def still : Nat → Moment := fun _ => ⟨0, "1970-01-01T00:00:00Z"⟩

/-- One Running task. -/
def oneTask : TaskRegistry String := (step {} still (.createKeyed .runtime "dsc" "/out.i64" "Queued" "1")).1

theorem reachable_oneTask : Reachable oneTask := .step .new fun _ _ => by simp [TaskRegistry.keys]

theorem registry_store_oneTask : oneTask.keys = ["dsc-1"] ∧
    StoreStep still (.createKeyed .runtime "dsc" "/other.i64" "Queued" "2") oneTask
      (step oneTask still (.createKeyed .runtime "dsc" "/other.i64" "Queued" "2")).1 (.created (.ok "dsc-2")) := by
  have hfresh : Fresh oneTask (.createKeyed .runtime "dsc" "/other.i64" "Queued" "2") := by
    intro id hid
    cases hid
    decide +kernel
  have hans : (step oneTask still (.createKeyed .runtime "dsc" "/other.i64" "Queued" "2")).2 =
      .created (.ok "dsc-2") := by decide +kernel
  exact ⟨by decide +kernel, hans ▸ (registry_store reachable_oneTask).2.2 still _ hfresh⟩

end IdaRs.Task
