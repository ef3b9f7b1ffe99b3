import IdaRs.TaskInv

/-!
# The life of a task

`step_entry`: what stands under an id after an operation came from the entry before it by an `EntryStep`,
so terminal states never change. `Live` says that a task is Running; an operation ends it exactly when its
answer says so (`step_live`). A task whose cancellation was accepted is `Doomed` to end without a result.
-/

namespace IdaRs.Task

universe u

variable {V : Type u} {r r' : TaskRegistry V} {now : Nat → Moment} {op : Op V} {e e' : TaskEntry V} {t : Moment}
  {id : String}

/-- The operation, by its answer, settled the task `id`. -/
def Settled (id : String) (x : Op V × Answer V) : Bool :=
  decide (x.1.settles = some id) &&
    match x.2 with
    | .settlement s => decide (s ≠ .unchanged)
    | .decision d => decide (d = .completed)
    | .accepted b => b
    | _ => false

/-- A run of operations with fresh ids, with their answers, that does not create `id` again. -/
inductive Run (id : String) : TaskRegistry V → List (Op V × Answer V) → TaskRegistry V → Prop
  | nil (r : TaskRegistry V) : Run id r [] r
  | step {r r' : TaskRegistry V} {tr : List (Op V × Answer V)} {now : Nat → Moment} {op : Op V} :
      Run id r tr r' → Fresh r' op → op.newId ≠ some id →
      Run id r (tr ++ [(op, (step r' now op).2)]) (Task.step r' now op).1

/-- The operation requests the cancellation of the task `id`, and the request is new. -/
def Accepts (r : TaskRegistry V) (now : Nat → Moment) (op : Op V) (id : String) : Prop :=
  (∃ owner, op = .cancelForOwner owner id ∧ (step r now op).2 = .accepted true) ∨
  (∃ message, op = .cancelAllRunning message ∧ ∃ e, (id, e) ∈ r.entries ∧ e.Running ∧ e.cancelRequested = none)

def Live (r : TaskRegistry V) (id : String) : Prop := ∃ e, (id, e) ∈ r.entries ∧ e.Running

theorem Wf.run {tr : List (Op V × Answer V)} (h : Wf r) (hr : Run id r tr r') : Wf r' := by
  induction hr with
  | nil => exact h
  | step _ hf _ ih => exact ih.step hf

/-! ### One entry over a run -/

theorem CreateOutcome.mem {owner : TaskOwner} {key id' : String} {res : Except TaskCreateError String}
    (h : CreateOutcome r r' owner key id' res) (hne : id ≠ id') (hx : (id, e) ∈ r'.entries) :
    (id, e) ∈ r.entries := by
  have hnew : ∀ {entries : List (String × TaskEntry V)} {e'}, (id, e) ∈ entries ++ [(id', e')] → (id, e) ∈ entries := by
    intro entries e' hmem
    rcases List.mem_append.1 hmem with hmem | hmem
    · exact hmem
    · exact absurd (Prod.mk.inj (List.mem_singleton.1 hmem)).1 hne
  cases h with
  | existing _ _ h => exact h ▸ hx
  | saturated _ _ _ h => exact h ▸ hx
  | room _ _ _ _ h => exact hnew (h ▸ hx)
  | evicted _ _ _ _ _ _ _ _ h => exact (List.mem_filter.1 (hnew (h ▸ hx))).1

/-- A creation keeps every Running entry. -/
theorem CreateOutcome.keeps {owner : TaskOwner} {key id' : String} {res : Except TaskCreateError String}
    (h : CreateOutcome r r' owner key id' res) (hnd : r.keys.Nodup) (hx : (id, e) ∈ r.entries) (hr : e.Running) :
    (id, e) ∈ r'.entries := by
  cases h with
  | existing _ _ h => exact h ▸ hx
  | saturated _ _ _ h => exact h ▸ hx
  | room _ _ _ _ h => exact h ▸ List.mem_append_left _ hx
  | evicted _ victim _ _ hv ht _ _ h =>
    refine h ▸ List.mem_append_left _ (List.mem_filter.2 ⟨hx, decide_eq_true fun heq => ?_⟩)
    have := List.inj_on_of_nodup_map hnd hx hv heq
    exact ht (this ▸ hr)

/-- An entry after an operation came from the one before it. -/
theorem step_entry (h : Wf r) (hf : Fresh r op) (hne : op.newId ≠ some id) (hx : (id, e') ∈ (step r now op).1.entries) :
    ∃ e, (id, e) ∈ r.entries ∧ EntryStep e e' := by
  cases hop : op.newId with
  | none =>
    obtain ⟨l, hl, hr⟩ := step_effect now h.nodup hop
    have hy : (id, e') ∈ l := by
      rcases hr with hr | ⟨k, hr, -⟩
      · exact hr ▸ hx
      · exact (mem_prune.1 (hr ▸ hx)).1
    obtain ⟨x, hx, hxy⟩ := forall₂_mem_right hl hy
    obtain ⟨k, e⟩ := x
    obtain rfl : id = k := hxy.key
    exact ⟨e, hx, hxy.entry⟩
  | some new =>
    cases op <;> cases hop
    have hmem := (createKeyed_outcome h.nodup h.bound (hf _ rfl)).mem (fun heq => hne (congrArg some heq.symm)) hx
    exact ⟨e', (mem_prune.1 hmem).1, .same⟩

theorem run_state {tr : List (Op V × Answer V)} (h : Wf r) (he : (id, e) ∈ r.entries) (ht : ¬ e.Running)
    (hr : Run id r tr r') : ∀ e', (id, e') ∈ r'.entries → e'.state = e.state := by
  induction hr with
  | nil =>
    intro e' he'
    obtain ⟨-, rfl⟩ := Prod.mk.inj (List.inj_on_of_nodup_map h.nodup he' he rfl)
    rfl
  | step hrun hf hne ih =>
    intro e' he'
    obtain ⟨e₁, he₁, hstep⟩ := step_entry (h.run hrun) hf hne he'
    have hst := ih e₁ he₁
    rw [hstep.state (by rw [TaskEntry.Running, hst]; exact ht), hst]

/-- An entry that will not be completed: no result, and a request pending as long as it runs. -/
structure Doomed (e : TaskEntry V) : Prop where
  status : e.state.status ≠ .completed
  result : e.state.result = none
  pending : e.Running → e.cancelRequested.isSome

theorem Doomed.step (h : Doomed e) (hs : EntryStep e e') : Doomed e' := by
  have hnot : e.Running → e.cancelRequested ≠ none := fun hr hc => by simpa [hc] using h.pending hr
  cases hs with
  | same => exact h
  | token => exact ⟨h.status, h.result, h.pending⟩
  | message _ _ hr hc => exact absurd hc (hnot hr)
  | requested _ _ _ hr hc => exact absurd hc (hnot hr)
  | completed _ _ _ hr hc => exact absurd hc (hnot hr)
  | failed => exact ⟨nofun, h.result, nofun⟩
  | cancelled => exact ⟨nofun, h.result, nofun⟩

theorem run_doomed {tr : List (Op V × Answer V)} (h : Wf r) (hd : ∀ e, (id, e) ∈ r.entries → Doomed e)
    (hr : Run id r tr r') : ∀ e, (id, e) ∈ r'.entries → Doomed e := by
  induction hr with
  | nil => exact hd
  | step hrun hf hne ih =>
    intro e' he'
    obtain ⟨e, he, hs⟩ := step_entry (h.run hrun) hf hne he'
    exact (ih e he).step hs

/-! ### Settlements -/

/-- An operation's answer says whether the entry stopped running. -/
def Honest (settled : Prop) (e e' : TaskEntry V) : Prop :=
  (settled → e.Running ∧ ¬ e'.Running) ∧ (¬ settled → (e'.Running ↔ e.Running))

theorem complete_honest (v : V) : Honest ((e.complete v t).2 ≠ .unchanged) e (e.complete v t).1 := by
  unfold TaskEntry.complete
  split
  · exact ⟨fun h => absurd rfl h, fun _ => .rfl⟩
  · rename_i hr
    split <;> exact ⟨fun _ => ⟨not_not.1 hr, nofun⟩, fun h => absurd nofun h⟩

theorem fail_honest (m : String) : Honest ((e.fail m t).2 ≠ .unchanged) e (e.fail m t).1 := by
  unfold TaskEntry.fail
  split
  · exact ⟨fun h => absurd rfl h, fun _ => .rfl⟩
  · rename_i hr
    split <;> exact ⟨fun _ => ⟨not_not.1 hr, nofun⟩, fun h => absurd nofun h⟩

theorem failAfterCleanupError_honest (m : String) :
    Honest ((e.failAfterCleanupError m t).2 ≠ .unchanged) e (e.failAfterCleanupError m t).1 := by
  unfold TaskEntry.failAfterCleanupError
  split
  · exact ⟨fun h => absurd rfl h, fun _ => .rfl⟩
  · rename_i hr
    exact ⟨fun _ => ⟨not_not.1 hr, nofun⟩, fun h => absurd nofun h⟩

theorem finishCancelled_honest (m : String) :
    Honest ((e.finishCancelled m t).2 = true) e (e.finishCancelled m t).1 := by
  unfold TaskEntry.finishCancelled
  split
  · exact ⟨nofun, fun _ => .rfl⟩
  · rename_i hr
    exact ⟨fun _ => ⟨not_not.1 hr, nofun⟩, fun h => absurd rfl h⟩

theorem completeWithCancelToken_honest (v : V) (m : String) (p : Prop) [Decidable p] :
    Honest ((if p then ((e.finishCancelled m t).1,
        if (e.finishCancelled m t).2 then TaskSettlement.cancelled else .unchanged) else e.complete v t).2 ≠ .unchanged)
      e (if p then ((e.finishCancelled m t).1,
        if (e.finishCancelled m t).2 then TaskSettlement.cancelled else .unchanged) else e.complete v t).1 := by
  split
  · have := finishCancelled_honest (e := e) (t := t) m
    cases h : (e.finishCancelled m t).2 <;> simp only [h, Honest] at this ⊢ <;> simpa using this
  · exact complete_honest v

theorem mem_set (he : (id, e) ∈ r.entries) (e₁ : TaskEntry V) : (id, e') ∈ (r.set id e₁).entries ↔ e' = e₁ := by
  simp only [TaskRegistry.set, List.mem_map]
  constructor
  · rintro ⟨x, hx, heq⟩
    split at heq
    · exact (Prod.mk.inj heq).2.symm
    · rename_i hne
      exact absurd (congrArg Prod.fst heq) hne
  · rintro rfl
    exact ⟨(id, e), he, by simp⟩

section OnEntry

variable {α : Type} {sweeps : α → Bool} {absent : α} {f : TaskEntry V → (TaskEntry V × List Nat) × α}

theorem onEntry_of_mem (now : Nat → Moment) (sweeps : α → Bool) (absent : α)
    (f : TaskEntry V → (TaskEntry V × List Nat) × α) (hnd : r.keys.Nodup) (he : (id, e) ∈ r.entries) :
    (r.onEntry id now sweeps absent f).2 = (f e).2 ∧
    (r.onEntry id now sweeps absent f).1.cancelled = (f e).1.2 ∧
    (∀ e', (id, e') ∈ (r.onEntry id now sweeps absent f).1.entries → e' = (f e).1.1) ∧
    ((f e).1.1.Running → (id, (f e).1.1) ∈ (r.onEntry id now sweeps absent f).1.entries) := by
  obtain ⟨hans, hcancelled, hmem⟩ :=
    onEntry_of_get now sweeps absent f ((lookup_eq_some_iff hnd).2 he)
  refine ⟨hans, hcancelled, fun e' he' => (mem_set he _).1 ((hmem _).1 he').1, fun hr => (hmem _).2 ⟨?_, fun _ => ?_⟩⟩
  · exact (mem_set he _).2 rfl
  · exact decide_eq_true (.inl hr)

theorem onEntry_of_not_mem (hnd : r.keys.Nodup) (hid : id ∉ r.keys) :
    r.onEntry id now sweeps absent f = (r, absent) := by
  have hnone : r.get? id = none := by
    cases h : r.get? id with
    | none => rfl
    | some e => exact absurd (List.mem_map_of_mem ((lookup_eq_some_iff hnd).1 h)) hid
  rw [TaskRegistry.onEntry, hnone]

end OnEntry

/-- A task stops running exactly when it is settled. -/
def LiveLaw (settled : Bool) (r r' : TaskRegistry V) (id : String) : Prop :=
  if settled then Live r id ∧ ¬ Live r' id else (Live r' id ↔ Live r id)

/-- An operation on `id` whose answers are honest. -/
theorem onEntry_settles {α : Type} {sweeps : α → Bool} {absent : α} (settled : α → Bool)
    {f : TaskEntry V → (TaskEntry V × List Nat) × α} (hnd : r.keys.Nodup) (habsent : settled absent = false)
    (hf : ∀ e, Honest (settled (f e).2 = true) e (f e).1.1) :
    LiveLaw (settled (r.onEntry id now sweeps absent f).2) r (r.onEntry id now sweeps absent f).1 id := by
  unfold LiveLaw
  by_cases hid : id ∈ r.keys
  · obtain ⟨⟨k, e⟩, he, rfl⟩ := List.mem_map.1 hid
    obtain ⟨hans, -, hmem, hrun⟩ := onEntry_of_mem now sweeps absent f hnd he
    have hold : Live r k ↔ e.Running := by
      constructor
      · rintro ⟨e', he', hr⟩
        obtain ⟨-, rfl⟩ := Prod.mk.inj (List.inj_on_of_nodup_map hnd he' he rfl)
        exact hr
      · exact fun hr => ⟨e, he, hr⟩
    have hnew : Live (r.onEntry k now sweeps absent f).1 k ↔ (f e).1.1.Running := by
      constructor
      · rintro ⟨e', he', hr⟩
        exact hmem e' he' ▸ hr
      · exact fun hr => ⟨_, hrun hr, hr⟩
    rw [hans, hold, hnew]
    split
    · exact (hf e).1 ‹_›
    · exact (hf e).2 ‹_›
  · rw [onEntry_of_not_mem hnd hid, habsent, if_neg Bool.false_ne_true]

theorem settle_live {f : TaskEntry V → TaskEntry V × TaskSettlement} (hnd : r.keys.Nodup)
    (hf : ∀ e, Honest ((f e).2 ≠ .unchanged) e (f e).1) :
    LiveLaw (decide ((r.settle id now f).2 ≠ .unchanged)) r (r.settle id now f).1 id :=
  onEntry_settles (fun s : TaskSettlement => decide (s ≠ .unchanged)) hnd rfl fun e => by simpa using hf e

/-- An operation that is no settlement of `id` leaves it running. -/
theorem step_live_other (h : Wf r) (hf : Fresh r op) (hne : op.newId ≠ some id) (hop : op.settles ≠ some id) :
    Live (step r now op).1 id ↔ Live r id := by
  constructor
  · rintro ⟨e', he', hr⟩
    obtain ⟨e, he, hs⟩ := step_entry h hf hne he'
    exact ⟨e, he, hs.running hr⟩
  · rintro ⟨e, he, hr⟩
    cases hnew : op.newId with
    | none =>
      obtain ⟨l, hl, hr'⟩ := step_effect now h.nodup hnew
      obtain ⟨⟨k, e'⟩, hy, hxy⟩ := forall₂_mem_left hl he
      obtain rfl : k = id := hxy.key
      have hrun : e'.Running := (hxy.settled hr).resolve_right fun hs => hop hs.1
      refine ⟨e', ?_, hrun⟩
      rcases hr' with hr' | ⟨k, hr', -⟩
      · rw [hr']; exact hy
      · rw [hr']; exact mem_prune.2 ⟨hy, .inl hrun⟩
    | some new =>
      cases op <;> cases hnew
      have hnd : (r.prune (now 0).instant).keys.Nodup := h.nodup.sublist (List.filter_sublist.map Prod.fst)
      have hp : (id, e) ∈ (r.prune (now 0).instant).entries := mem_prune.2 ⟨he, .inl hr⟩
      exact ⟨e, (createKeyed_outcome h.nodup h.bound (hf _ rfl)).keeps hnd hp hr, hr⟩

/-- The task stops running exactly when an answer says that it was settled. -/
theorem step_live (now : Nat → Moment) (h : Wf r) (hf : Fresh r op) (hne : op.newId ≠ some id) :
    LiveLaw (Settled id (op, (step r now op).2)) r (step r now op).1 id := by
  by_cases hop : op.settles = some id
  · rw [Settled, decide_eq_true hop, Bool.true_and]
    cases op with
    | complete id' v =>
      obtain rfl : id' = id := Option.some.inj hop
      exact settle_live h.nodup fun e => complete_honest v
    | completeWithCancelToken id' v token message =>
      obtain rfl : id' = id := Option.some.inj hop
      exact settle_live h.nodup fun e => completeWithCancelToken_honest v message _
    | completeOrDeferCancellation id' v token =>
      obtain rfl : id' = id := Option.some.inj hop
      refine onEntry_settles (fun d : TaskCompletionDecision => decide (d = .completed)) h.nodup rfl fun e => ?_
      split
      · exact ⟨nofun, fun _ => .rfl⟩
      · rename_i hr
        split
        · exact ⟨nofun, fun _ => .rfl⟩
        · rename_i hc
          rw [not_or, Bool.not_eq_true, Option.isSome_eq_false_iff, Option.isNone_iff_eq_none] at hc
          simp only [TaskEntry.complete, if_neg hr, hc.2]
          exact ⟨fun _ => ⟨not_not.1 hr, nofun⟩, fun h => absurd rfl h⟩
    | fail id' error =>
      obtain rfl : id' = id := Option.some.inj hop
      exact settle_live h.nodup fun e => fail_honest error
    | failAfterCleanupError id' error =>
      obtain rfl : id' = id := Option.some.inj hop
      exact settle_live h.nodup fun e => failAfterCleanupError_honest error
    | finishCancelled id' message =>
      obtain rfl : id' = id := Option.some.inj hop
      exact onEntry_settles (fun b => b) h.nodup rfl fun e => finishCancelled_honest message
    | _ => cases hop
  · have hset : Settled id (op, (step r now op).2) = false := by simp [Settled, hop]
    rw [hset, LiveLaw, if_neg Bool.false_ne_true]
    exact step_live_other h hf hne hop

/-- Over a run from a Running task: it still runs and was not settled, or it was settled once. -/
theorem run_settled {tr : List (Op V × Answer V)} (h : Wf r) (hl : Live r id) (hr : Run id r tr r') :
    (Live r' id ∧ tr.countP (Settled id) = 0) ∨ (¬ Live r' id ∧ tr.countP (Settled id) = 1) := by
  induction hr with
  | nil => exact .inl ⟨hl, rfl⟩
  | @step r' tr now op hrun hf hne ih =>
    have hlaw := step_live now (h.run hrun) hf hne
    rw [List.countP_append, List.countP_singleton]
    cases hs : Settled id (op, (step r' now op).2) <;> rw [LiveLaw, hs] at hlaw
    · simp only [Bool.false_eq_true, if_false, Nat.add_zero] at hlaw ⊢
      rwa [hlaw]
    · simp only [if_true] at hlaw ⊢
      rcases ih with ⟨-, h0⟩ | ⟨hdead, -⟩
      · exact .inr ⟨hlaw.2, by rw [h0]⟩
      · exact absurd hlaw.1 hdead

/-! ### Cancellation requests -/

theorem requestCancel_accepted (m : String) (t : Moment) (cancelled : List Nat) (hr : e.Running)
    (hc : e.cancelRequested = none) :
    let p := (e.requestCancel m t cancelled).1
    p.1.Running ∧ p.1.cancelRequested.isSome ∧ p.1.state.result = e.state.result ∧
      ∀ token, e.cancelToken = some token → token ∈ p.2 := by
  have hnot : ¬ (e.state.status ≠ .running ∨ e.cancelRequested.isSome) := by simp [hr, hc]
  simp only [TaskEntry.requestCancel, if_neg hnot]
  exact ⟨hr, rfl, rfl, fun token ht => by simp [ht]⟩

theorem requestCancel_mono (m : String) (cancelled : List Nat) : cancelled ⊆ (e.requestCancel m t cancelled).1.2 := by
  unfold TaskEntry.requestCancel
  split
  · exact List.Subset.refl _
  · exact List.subset_append_right _ _

theorem cancelEach_mono (m : String) (times : Nat → Moment) (entries : List (String × TaskEntry V))
    (cancelled : List Nat) : cancelled ⊆ (TaskRegistry.cancelEach m times entries cancelled).2.1 := by
  induction entries generalizing times cancelled with
  | nil => exact List.Subset.refl _
  | cons x entries ih => exact List.Subset.trans (requestCancel_mono m cancelled) (ih _ _)

/-- Every entry is asked to cancel, and every token that this cancels stays cancelled. -/
theorem cancelEach_requests (m : String) (times : Nat → Moment) (entries : List (String × TaskEntry V))
    (cancelled : List Nat) :
    List.Forall₂ (fun x y => y.1 = x.1 ∧ ∃ t tokens, y.2 = (x.2.requestCancel m t tokens).1.1 ∧
        (x.2.requestCancel m t tokens).1.2 ⊆ (TaskRegistry.cancelEach m times entries cancelled).2.1)
      entries (TaskRegistry.cancelEach m times entries cancelled).1 := by
  induction entries generalizing times cancelled with
  | nil => exact .nil
  | cons x entries ih =>
    exact .cons ⟨rfl, times 0, cancelled, rfl, cancelEach_mono m _ entries _⟩ (ih _ _)

/-- What an accepted request leaves: the registered token cancelled, and an entry that will not complete. -/
theorem accepts_doomed (h : Wf r) (he : (id, e) ∈ r.entries) (ha : Accepts r now op id) :
    e.Running ∧ (∀ token, e.cancelToken = some token → token ∈ (step r now op).1.cancelled) ∧
      ∀ e', (id, e') ∈ (step r now op).1.entries → Doomed e' := by
  have hdoomed : ∀ {e' : TaskEntry V}, e.Running → e'.Running → e'.cancelRequested.isSome →
      e'.state.result = e.state.result → Doomed e' := by
    intro e' hr hr' hc hres
    refine ⟨fun hcomp => ?_, ?_, fun _ => hc⟩
    · cases hr'.symm.trans hcomp
    · rw [hres]
      cases hsome : e.state.result with
      | none => rfl
      | some v => cases hr.symm.trans ((h.result _ he).1 (by rw [hsome]; rfl))
  rcases ha with ⟨owner, rfl, hans⟩ | ⟨message, rfl, e₁, he₁, hr, hc⟩
  · obtain ⟨h₁, h₂, h₃, -⟩ := onEntry_of_mem now (fun b => b) false
      (fun e => if e.owner = owner then e.requestCancel "Cancelled by client" (now 0) r.cancelled
        else ((e, r.cancelled), false)) h.nodup he
    have hacc : (if e.owner = owner then e.requestCancel "Cancelled by client" (now 0) r.cancelled
        else ((e, r.cancelled), false)).2 = true := h₁.symm.trans (Answer.accepted.inj hans)
    by_cases hown : e.owner = owner
    · rw [if_pos hown] at hacc
      have hnot : ¬ (e.state.status ≠ .running ∨ e.cancelRequested.isSome) := fun hor => by
        rw [TaskEntry.requestCancel, if_pos hor] at hacc
        cases hacc
      rw [not_or, not_not, Bool.not_eq_true, Option.isSome_eq_false_iff, Option.isNone_iff_eq_none] at hnot
      obtain ⟨hrun, hreq, hres, htok⟩ := requestCancel_accepted "Cancelled by client" (now 0) r.cancelled
        hnot.1 hnot.2
      simp only [if_pos hown] at h₂ h₃
      refine ⟨hnot.1, fun token ht => ?_, fun e' he' => ?_⟩
      · show token ∈ (r.cancelForOwner owner id now).1.cancelled
        rw [TaskRegistry.cancelForOwner, h₂]
        exact htok token ht
      · rw [h₃ e' he']
        exact hdoomed hnot.1 hrun hreq hres
    · rw [if_neg hown] at hacc
      cases hacc
  · obtain ⟨-, rfl⟩ := Prod.mk.inj (List.inj_on_of_nodup_map h.nodup he₁ he rfl)
    have hall := cancelEach_requests message now r.entries r.cancelled
    have hcancelled : (step r now (.cancelAllRunning message)).1.cancelled =
        (TaskRegistry.cancelEach message now r.entries r.cancelled).2.1 := by
      simp only [step, reply, TaskRegistry.cancelAllRunning]
      split <;> rfl
    refine ⟨hr, fun token ht => ?_, fun e' he' => ?_⟩
    · obtain ⟨y, -, -, t, tokens, -, hsub⟩ := forall₂_mem_left hall he
      rw [hcancelled]
      exact hsub ((requestCancel_accepted message t tokens hr hc).2.2.2 token ht)
    · have hmem : (id, e') ∈ (TaskRegistry.cancelEach message now r.entries r.cancelled).1 := by
        simp only [step, reply, TaskRegistry.cancelAllRunning] at he'
        split at he'
        · exact (mem_prune.1 he').1
        · exact he'
      obtain ⟨⟨k, e₀⟩, hx, hk, t, tokens, heq, -⟩ := forall₂_mem_right hall hmem
      obtain rfl : id = k := hk
      obtain ⟨-, rfl⟩ := Prod.mk.inj (List.inj_on_of_nodup_map h.nodup hx he rfl)
      obtain ⟨hrun, hreq, hres, -⟩ := requestCancel_accepted message t tokens hr hc
      rw [show e' = _ from heq]
      exact hdoomed hr hrun hreq hres

/-! ### Tokens -/

theorem onEntry_mono {α : Type} {sweeps : α → Bool} {absent : α} {f : TaskEntry V → (TaskEntry V × List Nat) × α}
    (hf : ∀ e, r.cancelled ⊆ (f e).1.2) : r.cancelled ⊆ (r.onEntry id now sweeps absent f).1.cancelled := by
  unfold TaskRegistry.onEntry
  split
  · exact List.Subset.refl _
  · dsimp only
    split <;> exact hf _

/-- A cancelled token stays cancelled. -/
theorem step_cancelled : r.cancelled ⊆ (step r now op).1.cancelled := by
  cases op with
  | createKeyed =>
    simp only [step, reply, TaskRegistry.createKeyed]
    repeat' split
    all_goals exact List.Subset.refl _
  | setCancelToken id token =>
    refine onEntry_mono fun e => ?_
    simp only [TaskEntry.setCancelToken]
    split
    · exact List.subset_cons_self _ _
    · exact List.Subset.refl _
  | cancelForOwner owner id =>
    refine onEntry_mono fun e => ?_
    split
    · exact requestCancel_mono _ _
    · exact List.Subset.refl _
  | cancelAllRunning message =>
    simp only [step, reply, TaskRegistry.cancelAllRunning]
    split <;> exact cancelEach_mono _ _ _ _
  | cancelToken => exact List.subset_cons_self _ _
  | completeOrDeferCancellation =>
    refine onEntry_mono fun e => ?_
    repeat' split
    all_goals exact List.Subset.refl _
  | get | getForOwner => exact List.Subset.refl _
  | updateMessage | complete | completeWithCancelToken | fail | failAfterCleanupError | finishCancelled =>
    exact onEntry_mono fun e => List.Subset.refl _

theorem run_cancelled {tr : List (Op V × Answer V)} (hr : Run id r tr r') : r.cancelled ⊆ r'.cancelled := by
  induction hr with
  | nil => exact List.Subset.refl _
  | step _ _ _ ih => exact List.Subset.trans ih step_cancelled

/-- The life of a retained task. Its result is there exactly when it is Completed; a terminal state never
changes; and once a cancellation request was accepted it never completes, it runs until it is settled, which
happens once, and the token registered at the request and those registered while it still runs are cancelled. -/
theorem task_lifecycle (h : Reachable r) (he : (id, e) ∈ r.entries) :
    (e.state.result.isSome ↔ e.state.status = .completed) ∧
    (¬ e.Running → ∀ tr r' e', Run id r tr r' → (id, e') ∈ r'.entries →
      e'.state.status = e.state.status ∧ e'.state.message = e.state.message ∧ e'.state.result = e.state.result) ∧
    (∀ now op, Accepts r now op id →
      (∀ token, e.cancelToken = some token → token ∈ (step r now op).1.cancelled) ∧
      ∀ tr r', Run id (step r now op).1 tr r' →
        (∀ e', (id, e') ∈ r'.entries → e'.state.status ≠ .completed ∧ e'.state.result = none) ∧
        ((Live r' id ∧ tr.countP (Settled id) = 0) ∨ (¬ Live r' id ∧ tr.countP (Settled id) = 1)) ∧
        (∀ token ∈ (step r now op).1.cancelled, token ∈ r'.cancelled) ∧
        (∀ now token, Live r' id → token ∈ (step r' now (.setCancelToken id token)).1.cancelled)) := by
  have hwf := Wf.reachable h
  refine ⟨hwf.result _ he, fun ht tr r' e' hr he' => ?_, fun now op ha => ?_⟩
  · rw [run_state hwf he ht hr e' he']
    exact ⟨rfl, rfl, rfl⟩
  · obtain ⟨hrun, htok, hdoomed⟩ := accepts_doomed hwf he ha
    have hnew : op.newId = none := by rcases ha with ⟨_, rfl, _⟩ | ⟨_, rfl, _⟩ <;> rfl
    have hop : op.settles = none := by rcases ha with ⟨_, rfl, _⟩ | ⟨_, rfl, _⟩ <;> rfl
    have hf : Fresh r op := fun id hid => by rw [hnew] at hid; cases hid
    have hwf₁ : Wf (step r now op).1 := hwf.step hf
    have hlive : Live (step r now op).1 id :=
      (step_live_other hwf hf (by simp [hnew]) (by simp [hop])).2 ⟨e, he, hrun⟩
    refine ⟨htok, fun tr r' hr => ?_⟩
    have hd := run_doomed hwf₁ hdoomed hr
    refine ⟨fun e' he' => ⟨(hd e' he').status, (hd e' he').result⟩, run_settled hwf₁ hlive hr,
      fun token ht => run_cancelled hr ht, fun now token => ?_⟩
    rintro ⟨e', he', hr'⟩
    have hset := (onEntry_of_mem now (fun _ => false) ()
      (fun e => (e.setCancelToken token r'.cancelled, ())) (hwf₁.run hr).nodup he').2.1
    show token ∈ (r'.setCancelToken id token now).cancelled
    rw [TaskRegistry.setCancelToken, hset, TaskEntry.setCancelToken, if_pos ((hd e' he').pending hr')]
    exact List.mem_cons_self

/-- A token replaced before the request, and one registered after the settlement, are not cancelled. -/
theorem tokens_not_cancelled :
    let r₂ := (step (step oneTask still (.setCancelToken "dsc-1" 1)).1 still (.setCancelToken "dsc-1" 2)).1
    let r₃ := (step r₂ still (.cancelForOwner .runtime "dsc-1")).1
    let r₄ := (step (step r₃ still (.finishCancelled "dsc-1" "Cancelled")).1 still (.setCancelToken "dsc-1" 3)).1
    Reachable r₂ ∧ Accepts r₂ still (.cancelForOwner .runtime "dsc-1") "dsc-1" ∧ "dsc-1" ∈ r₄.keys ∧
      1 ∉ r₄.cancelled ∧ 3 ∉ r₄.cancelled := by
  have hnone : ∀ (r : TaskRegistry String) id token, Fresh r (.setCancelToken id token) := fun _ _ _ _ h => nomatch h
  refine ⟨.step (.step reachable_oneTask (hnone _ _ _)) (hnone _ _ _), .inl ⟨.runtime, rfl, by decide +kernel⟩,
    by decide +kernel, by decide +kernel, by decide +kernel⟩

/-- A task with a token, cancelled by its owner. -/
theorem task_lifecycle_cancelled :
    let r := (step oneTask still (.setCancelToken "dsc-1" 1)).1
    let r₁ := (step r still (.cancelForOwner .runtime "dsc-1")).1
    Reachable r ∧ Accepts r still (.cancelForOwner .runtime "dsc-1") "dsc-1" ∧ 1 ∈ r₁.cancelled ∧
      ∀ tr r', Run "dsc-1" r₁ tr r' → ∀ e', ("dsc-1", e') ∈ r'.entries → e'.state.status ≠ .completed := by
  intro r r₁
  have hr : Reachable r := .step reachable_oneTask fun _ h => nomatch h
  have ha : Accepts r still (.cancelForOwner .runtime "dsc-1") "dsc-1" := .inl ⟨.runtime, rfl, by decide +kernel⟩
  obtain ⟨x, hx⟩ : ∃ x, r.entries = [("dsc-1", x)] ∧ x.cancelToken = some 1 :=
    ⟨⟨.runtime, ⟨"dsc-1", .running, "Queued", none, 0, 0, (still 0).iso, (still 0).iso, some "/out.i64"⟩, some 1,
      none⟩, by decide +kernel, rfl⟩
  obtain ⟨htok, hrun⟩ := (task_lifecycle hr (e := x) (by rw [hx.1]; exact List.mem_singleton_self _)).2.2 still _ ha
  exact ⟨hr, ha, htok 1 hx.2, fun tr r' hr' e' he' => ((hrun tr r' hr').1 e' he').1⟩

end IdaRs.Task
