import IdaRs.CloseToken

/-!
# What a close token protects

`Guarded s threads g`: the lease of the grant `g` is recorded, every close that is authorised and not
served yet is one the grant allows, and no close that was served is still to clear the token. A grant
for the open database is guarded as long as no foreign close or late clear was under way when it was
made; `quietIssue` asks for that and no more.
-/

namespace IdaRs.CloseToken

open Threads

/-- The close may end the database of the grant: the owner's, forced, or with the token. -/
def Closer.Allowed (closer : Closer) (g : Grant) : Prop :=
  closer.session = g.session ∨ closer.force = true ∨ closer.token = some g.token

instance (closer : Closer) (g : Grant) : Decidable (closer.Allowed g) := inferInstanceAs (Decidable (_ ∨ _))

/-- A close whose answer is there and that has not cleared the token yet. -/
def Pc.ClearsNext (s : Shared) : Pc → Prop
  | .closeWait _ id => s.responses id = some .closed
  | .conditionalWait id => s.responses id = some (.conditional .closed)
  | _ => False

instance (s : Shared) (pc : Pc) : Decidable (pc.ClearsNext s) :=
  match pc with
  | .closeWait .. | .conditionalWait .. => inferInstanceAs (Decidable (_ = _))
  | .openSend .. | .openWait .. | .closeAuthorize .. | .closeSend .. | .conditionalSend .. | .done .. =>
    inferInstanceAs (Decidable False)

/-- The close that is authorised and not sent yet. -/
def Pc.sendsClose : Pc → Option Closer
  | .closeSend closer => some closer
  | _ => none

/-- The close that waits in the queue. -/
def IdaRequest.closer : IdaRequest → Option Closer
  | .close closer => some closer
  | _ => none

/-- No foreign close is on its way to the loop, and no served close to the token. -/
structure Quiet (s : Shared) (threads : List Pc) (g : Grant) : Prop where
  sending : ∀ pc ∈ threads, ∀ closer ∈ pc.sendsClose, closer.Allowed g
  queued : ∀ r ∈ s.queue, ∀ closer ∈ r.2.closer, closer.Allowed g
  clearing : ∀ pc ∈ threads, ¬ pc.ClearsNext s

theorem quiet_iff {s : Shared} {threads : List Pc} {g : Grant} : Quiet s threads g ↔
    (∀ pc ∈ threads, ∀ closer ∈ pc.sendsClose, closer.Allowed g) ∧
    (∀ r ∈ s.queue, ∀ closer ∈ r.2.closer, closer.Allowed g) ∧ ∀ pc ∈ threads, ¬ pc.ClearsNext s :=
  ⟨fun ⟨h₁, h₂, h₃⟩ => ⟨h₁, h₂, h₃⟩, fun ⟨h₁, h₂, h₃⟩ => ⟨h₁, h₂, h₃⟩⟩

instance (s : Shared) (threads : List Pc) (g : Grant) : Decidable (Quiet s threads g) :=
  decidable_of_iff' _ quiet_iff

/-- `open_idb` gets a token for a database that is still open only while all is quiet around it. -/
def quietIssue (c : Conf Shared Pc) : Act Event Env → Bool
  | .thread i .go =>
    match c.threads[i]? with
    | some (.openWait session id) =>
      match c.shared.responses id, c.shared.issueForSession session with
      | some (.opened (.ok db)), .ok (token, _) =>
        decide (c.shared.loop.generation = some db.generation →
          Quiet c.shared c.threads ⟨session, token, db.generation⟩)
      | _, _ => true
    | _ => true
  | _ => true

/-- The grants for the database that is open. -/
def Current (s : Shared) (g : Grant) : Prop := g ∈ s.grants ∧ s.loop.generation = some g.generation

structure Inv (c : Conf Shared Pc) : Prop where
  lease : ∀ g, Current c.shared g → c.shared.lease = some ⟨g.token, g.session⟩
  quiet : ∀ g, Current c.shared g → Quiet c.shared c.threads g
  /-- The next generation has not been granted or opened. -/
  grants : ∀ g ∈ c.shared.grants, g.generation ≤ c.shared.loop.nextGeneration
  opened : ∀ id db, c.shared.responses id = some (.opened (.ok db)) →
    db.generation ≤ c.shared.loop.nextGeneration
  generation : ∀ g, c.shared.loop.generation = some g → g ≤ c.shared.loop.nextGeneration
  idb : c.shared.loop.generation ≠ none → c.shared.loop.idb ≠ none
  /-- Only requests that were sent are answered. -/
  answered : ∀ id, c.shared.nextId ≤ id → c.shared.responses id = none
  queued : ∀ r ∈ c.shared.queue, r.1 < c.shared.nextId

/-! ### The worker loop -/

namespace LoopState

/-- An open keeps the generation of an open database or takes the next one. -/
theorem serveOpen_generation (st : LoopState) (files : Files) (path : String) (run : OpenRun) :
    (st.serveOpen files path run).1.generation = st.generation ∧
        (st.serveOpen files path run).1.nextGeneration = st.nextGeneration ∨
      (st.serveOpen files path run).1.generation = some (st.nextGeneration + 1) ∧
        (st.serveOpen files path run).1.nextGeneration = st.nextGeneration + 1 := by
  unfold LoopState.serveOpen
  split
  · exact .inl ⟨rfl, rfl⟩
  · split
    · exact .inl ⟨rfl, rfl⟩
    · split
      · exact .inr ⟨rfl, rfl⟩
      · exact .inl ⟨rfl, rfl⟩

/-- An open leaves an open database as it is. -/
theorem serveOpen_of_open {st : LoopState} (files : Files) (path : String) (run : OpenRun)
    (hi : st.idb ≠ none) (hg : st.generation ≠ none) : (st.serveOpen files path run).1 = st := by
  unfold LoopState.serveOpen
  split
  · rfl
  · split
    · rfl
    · rename_i h
      obtain ⟨d, hd⟩ := Option.ne_none_iff_exists'.1 hi
      obtain ⟨n, hn⟩ := Option.ne_none_iff_exists'.1 hg
      exact absurd hn (h d n hd)

theorem serveOpen_idb {st : LoopState} (files : Files) (path : String) (run : OpenRun)
    (h : st.generation ≠ none → st.idb ≠ none) :
    (st.serveOpen files path run).1.generation ≠ none → (st.serveOpen files path run).1.idb ≠ none := by
  by_cases hg : st.generation = none
  · unfold LoopState.serveOpen
    split
    · exact h
    · split
      · exact h
      · split
        · simp
        · exact fun hne => absurd hg hne
  · rw [serveOpen_of_open files path run (h hg) hg]
    exact h

/-- An open that succeeds returns the generation that is then open. -/
theorem serveOpen_ok {st : LoopState} {files : Files} {path : String} {run : OpenRun} {db : OpenedDatabase}
    (h : (st.serveOpen files path run).2 = .ok db) :
    (st.serveOpen files path run).1.generation = some db.generation := by
  unfold LoopState.serveOpen at h ⊢
  split at h
  · cases h
  · split at h
    · cases h; simp_all
    · split at h <;> cases h
      simp_all

end LoopState

/-! ### One step of a request -/

variable {s s' : Shared} {pc pc' : Pc} {e : Event} {c c' : Conf Shared Pc}

/-- What a step of a request does. -/
inductive Effect (s : Shared) (pc : Pc) (e : Event) (s' : Shared) (pc' : Pc) : Prop
  | done (r : Reply) (hs : s' = s) (h : pc' = .done r)
  | sent (req : IdaRequest) (id : Nat) (hr : req.closer = pc.sendsClose) (hs : s.send req = some (s', id))
      (h : pc'.sendsClose = none) (hw : pc'.ClearsNext s' → s'.responses id ≠ none)
  | authorized (closer : Closer) (ha : ∀ owner, s.authorizeClose closer ≠ .denied owner) (hs : s' = s)
      (h : pc' = .closeSend closer)
  | issued (session : String) (id : Nat) (db : OpenedDatabase) (r : Reply) (hpc : pc = .openWait session id)
      (he : e = .go) (hr : s.responses id = some (.opened (.ok db))) (hs : s' = s.issue session db.generation)
      (h : pc' = .done r)
  | cleared (r : Reply) (hc : pc.ClearsNext s) (hs : s' = s.clear) (h : pc' = .done r)

theorem pcStep_effect (hs : pcStep s pc e = some (s', pc')) : Effect s pc e s' pc' := by
  cases pc <;> cases e <;> simp only [pcStep, reduceCtorEq] at hs
  case openSend.go session path =>
    obtain ⟨⟨t, id⟩, ht, h⟩ := Option.map_eq_some_iff.1 hs
    obtain ⟨rfl, rfl⟩ := Prod.mk.inj h
    exact .sent _ id rfl ht rfl False.elim
  case closeSend.go closer =>
    obtain ⟨⟨t, id⟩, ht, h⟩ := Option.map_eq_some_iff.1 hs
    obtain ⟨rfl, rfl⟩ := Prod.mk.inj h
    exact .sent _ id rfl ht rfl fun hw => by rw [hw]; simp
  case conditionalSend.go =>
    obtain ⟨⟨t, id⟩, ht, h⟩ := Option.map_eq_some_iff.1 hs
    obtain ⟨rfl, rfl⟩ := Prod.mk.inj h
    exact .sent _ id rfl ht rfl fun hw => by rw [hw]; simp
  case openWait.go session id =>
    split at hs
    · rename_i db hr
      obtain ⟨rfl, rfl⟩ := Prod.mk.inj (Option.some.inj hs)
      exact .issued session id db _ rfl rfl hr rfl rfl
    · obtain ⟨rfl, rfl⟩ := Prod.mk.inj (Option.some.inj hs)
      exact .done _ rfl rfl
    · cases hs
  case closeAuthorize.go closer =>
    split at hs <;> obtain ⟨rfl, rfl⟩ := Prod.mk.inj (Option.some.inj hs)
    · exact .done _ rfl rfl
    · exact .authorized closer ‹_› rfl rfl
  case closeWait.go =>
    split at hs
    · obtain ⟨rfl, rfl⟩ := Prod.mk.inj (Option.some.inj hs)
      exact .cleared _ ‹_› rfl rfl
    · cases hs
  case conditionalWait.go =>
    split at hs
    · obtain ⟨rfl, rfl⟩ := Prod.mk.inj (Option.some.inj hs)
      exact .cleared _ ‹_› rfl rfl
    · obtain ⟨rfl, rfl⟩ := Prod.mk.inj (Option.some.inj hs)
      exact .done _ rfl rfl
    · cases hs
  all_goals
    obtain ⟨rfl, rfl⟩ := Prod.mk.inj (Option.some.inj hs)
    exact .done _ rfl rfl

theorem send_eq {req : IdaRequest} {id : Nat} (h : s.send req = some (s', id)) :
    id = s.nextId ∧ s' = { s with queue := s.queue ++ [(s.nextId, req)], nextId := s.nextId + 1 } := by
  unfold Shared.send at h
  split at h
  · obtain ⟨rfl, rfl⟩ := Prod.mk.inj (Option.some.inj h)
    exact ⟨rfl, rfl⟩
  · cases h

theorem Pc.ClearsNext.congr (h : s'.responses = s.responses) : pc.ClearsNext s' ↔ pc.ClearsNext s := by
  cases pc <;> simp only [Pc.ClearsNext, h]

/-- What is quiet stays quiet when the new threads and requests are allowed. -/
theorem Quiet.frame {threads threads' : List Pc} {g : Grant} (h : Quiet s threads g)
    (hq : ∀ r ∈ s'.queue, r ∈ s.queue ∨ ∀ closer ∈ r.2.closer, closer.Allowed g)
    (ht : ∀ pc ∈ threads', pc ∈ threads ∨
      (∀ closer ∈ pc.sendsClose, closer.Allowed g) ∧ ¬ pc.ClearsNext s')
    (hr : ∀ pc : Pc, pc.ClearsNext s' → pc.ClearsNext s) : Quiet s' threads' g := by
  refine ⟨fun pc hpc => ?_, fun r hr => ?_, fun pc hpc hcl => ?_⟩
  · rcases ht pc hpc with hpc | hpc
    exacts [h.sending pc hpc, hpc.1]
  · rcases hq r hr with hr | hr
    exacts [h.queued r hr, hr]
  · rcases ht pc hpc with hpc | hpc
    exacts [h.clearing pc hpc (hr pc hcl), hpc.2 hcl]

/-- A close that was not denied beside the lease of the grant is one the grant allows. -/
theorem allowed_of_authorized {closer : Closer} {g : Grant} (hl : s.lease = some ⟨g.token, g.session⟩)
    (ha : ∀ owner, s.authorizeClose closer ≠ .denied owner) : closer.Allowed g := by
  unfold Shared.authorizeClose at ha
  rw [hl] at ha
  dsimp only at ha
  by_cases h₁ : closer.token = some g.token ∨ g.session = closer.session
  · rcases h₁ with h | h
    exacts [.inr (.inr h), .inl h.symm]
  · by_cases h₂ : closer.force
    · exact .inr (.inl h₂)
    · rw [if_neg h₁, if_neg h₂] at ha
      exact absurd rfl (ha g.session)

/-- The grants after an issue: the old ones, and the one that was made. -/
theorem mem_issue_grants {session : String} {generation : Nat} {g : Grant}
    (h : g ∈ (s.issue session generation).grants) :
    g ∈ s.grants ∨ ∃ token reused, s.issueForSession session = .ok (token, reused) ∧
      g = ⟨session, token, generation⟩ := by
  unfold Shared.issue at h
  split at h
  · exact .inl h
  · rename_i token reused hi
    rcases List.mem_cons.1 h with rfl | h
    exacts [.inr ⟨token, reused, hi, rfl⟩, .inl h]

/-- An issue keeps a lease that is there, and records the one it makes. -/
theorem issue_lease {session : String} {generation token : Nat} {reused : Bool}
    (h : s.issueForSession session = .ok (token, reused)) :
    (s.issue session generation).lease = some ⟨token, session⟩ := by
  rw [Shared.issue, h]

theorem issue_keeps_lease {session : String} {generation : Nat} {lease : Lease} (h : s.lease = some lease) :
    (s.issue session generation).lease = some lease := by
  unfold Shared.issue Shared.issueForSession
  rw [h]
  dsimp only
  by_cases ho : lease.owner = session
  · rw [if_pos ho, ← ho]
  · rw [if_neg ho]; exact h

theorem issue_frame (session : String) (generation : Nat) :
    (s.issue session generation).loop = s.loop ∧ (s.issue session generation).queue = s.queue ∧
      (s.issue session generation).responses = s.responses ∧
      (s.issue session generation).nextId = s.nextId := by
  unfold Shared.issue; split <;> exact ⟨rfl, rfl, rfl, rfl⟩

/-- A step that leaves the loop, the queue and the answers alone. -/
theorem Inv.quietStep {threads' : List Pc} (h : Inv c) (hloop : s'.loop = c.shared.loop)
    (hqueue : s'.queue = c.shared.queue) (hresp : s'.responses = c.shared.responses)
    (hid : s'.nextId = c.shared.nextId)
    (hgrants : ∀ g ∈ s'.grants, g.generation ≤ c.shared.loop.nextGeneration)
    (hlease : ∀ g, Current s' g → s'.lease = some ⟨g.token, g.session⟩)
    (hquiet : ∀ g, Current s' g → Quiet s' threads' g) : Inv ⟨s', threads'⟩ :=
  { lease := hlease
    quiet := hquiet
    grants := by rw [hloop]; exact hgrants
    opened := by rw [hloop, hresp]; exact h.opened
    generation := by rw [hloop]; exact h.generation
    idb := by rw [hloop]; exact h.idb
    answered := by rw [hresp, hid]; exact h.answered
    queued := by rw [hqueue, hid]; exact h.queued }

theorem Inv.after {i : Nat} (h : Inv c) (hpc : c.threads[i]? = some pc) (heff : Effect c.shared pc e s' pc')
    (hissue : quietIssue c (.thread i e)) : Inv (c.after i ⟨s', pc', []⟩) := by
  have hmem := List.mem_of_getElem? hpc
  have hmem' : ∀ m ∈ (c.after i ⟨s', pc', []⟩).threads, m ∈ c.threads ∨ m = pc' := by
    intro m hm
    rcases Conf.mem_after hm with h | h | h
    exacts [.inr h, .inl h, by simp at h]
  -- the threads after a step to `done` add nothing to a quiet configuration
  have hdone : ∀ (r : Reply) (g : Grant), pc' = .done r → s'.queue = c.shared.queue →
      s'.responses = c.shared.responses → Quiet c.shared c.threads g →
      Quiet s' (c.after i ⟨s', pc', []⟩).threads g := by
    rintro r g rfl hq hr h
    refine h.frame (fun r hr => .inl (hq ▸ hr)) (fun m hm => ?_) fun pc => (Pc.ClearsNext.congr hr).1
    rcases hmem' m hm with hm | rfl
    exacts [.inl hm, .inr ⟨by simp [Pc.sendsClose], False.elim⟩]
  cases heff with
  | done r hs hpc' =>
    subst hs
    exact h.quietStep rfl rfl rfl rfl h.grants h.lease fun g hg => hdone r g hpc' rfl rfl (h.quiet g hg)
  | sent req id hr hs hpc' hw =>
    obtain ⟨rfl, rfl⟩ := send_eq hs
    refine ⟨h.lease, fun g hg => ?_, h.grants, h.opened, h.generation, h.idb,
      fun id hid => h.answered id (by simp only [Conf.after] at hid; omega), fun r hr' => ?_⟩
    · refine (h.quiet g hg).frame (fun r hr' => ?_) (fun m hm => ?_) fun _ => id
      · rcases List.mem_append.1 hr' with hr' | hr'
        · exact .inl hr'
        · obtain rfl := List.mem_singleton.1 hr'
          exact .inr fun closer hcl => (h.quiet g hg).sending pc hmem closer (hr ▸ hcl)
      · rcases hmem' m hm with hm | rfl
        · exact .inl hm
        · exact .inr ⟨by simp [hpc'], fun hcl => hw hcl (h.answered _ le_rfl)⟩
    · rcases List.mem_append.1 hr' with hr' | hr'
      · exact Nat.lt_succ_of_lt (h.queued r hr')
      · obtain rfl := List.mem_singleton.1 hr'
        exact Nat.lt_succ_self _
  | authorized closer ha hs hpc' =>
    subst hs hpc'
    refine h.quietStep rfl rfl rfl rfl h.grants h.lease fun g hg => ?_
    refine (h.quiet g hg).frame (fun r hr => .inl hr) (fun m hm => ?_) fun _ => id
    rcases hmem' m hm with hm | rfl
    · exact .inl hm
    · refine .inr ⟨fun cl hcl => ?_, False.elim⟩
      obtain rfl : closer = cl := Option.some.inj hcl
      exact allowed_of_authorized (h.lease g hg) ha
  | issued session id db r hpc' he hr hs hpc'' =>
    subst hs he hpc'
    obtain ⟨hl, hq, hrs, hid⟩ := issue_frame (s := c.shared) session db.generation
    have hgen := h.opened id db hr
    have hnew : ∀ g, Current (c.shared.issue session db.generation) g → Current c.shared g ∨
        (∃ token reused, c.shared.issueForSession session = .ok (token, reused) ∧
          g = ⟨session, token, db.generation⟩) ∧ Quiet c.shared c.threads g := by
      rintro g ⟨hg, hopen⟩
      rw [hl] at hopen
      rcases mem_issue_grants hg with hg | ⟨token, reused, hi, rfl⟩
      · exact .inl ⟨hg, hopen⟩
      · simp only [quietIssue, hpc, hr, hi, decide_eq_true_eq] at hissue
        exact .inr ⟨⟨token, reused, hi, rfl⟩, hissue hopen⟩
    refine h.quietStep hl hq hrs hid (fun g hg => ?_) (fun g hg => ?_) fun g hg => ?_
    · rcases mem_issue_grants hg with hg | ⟨token, reused, -, rfl⟩
      exacts [h.grants g hg, hgen]
    · rcases hnew g hg with hg | ⟨⟨token, reused, hi, rfl⟩, -⟩
      exacts [issue_keeps_lease (h.lease g hg), issue_lease hi]
    · rcases hnew g hg with hg | ⟨-, hqg⟩
      exacts [hdone r g hpc'' hq hrs (h.quiet g hg), hdone r g hpc'' hq hrs hqg]
  | cleared r hcl hs hpc' =>
    subst hs
    -- a close that was served left no database open, and none was granted since
    have hno : ∀ g, ¬ Current c.shared g := fun g hg => (h.quiet g hg).clearing pc hmem hcl
    exact h.quietStep rfl rfl rfl rfl h.grants (fun g hg => absurd hg (hno g)) fun g hg => absurd hg (hno g)

/-! ### One turn of the loop -/

/-- An answer that is not a completed close makes no request clear the token. -/
theorem Pc.ClearsNext.of_respond {id : Nat} {r : Response} (hr : r ≠ .closed)
    (hr' : r ≠ .conditional .closed) (h : pc.ClearsNext (s.respond id r)) : pc.ClearsNext s := by
  cases pc <;> simp only [Pc.ClearsNext, Shared.respond, Function.update_apply] at h ⊢
  all_goals
    split at h
    · exact absurd (Option.some.inj h) ‹_›
    · exact h

/-- What a turn of the loop leaves of the invariant, whatever it serves: `hclosed` says that it ended
the database or answered no close. -/
theorem Inv.answered_turn {id : Nat} {req : IdaRequest} {queue : List (Nat × IdaRequest)} {loop : LoopState}
    {r : Response} (h : Inv c) (hq : c.shared.queue = (id, req) :: queue)
    (hloop : loop.generation = c.shared.loop.generation ∧ loop.nextGeneration = c.shared.loop.nextGeneration ∧
        r ≠ .closed ∧ r ≠ .conditional .closed ∨
      loop.generation = none ∧ loop.nextGeneration = c.shared.loop.nextGeneration ∨
      loop.generation = some (c.shared.loop.nextGeneration + 1) ∧
        loop.nextGeneration = c.shared.loop.nextGeneration + 1)
    (hidb : loop.generation ≠ none → loop.idb ≠ none)
    (hdb : ∀ db, r = .opened (.ok db) → loop.generation = some db.generation) :
    Inv ⟨({ c.shared with queue, loop } : Shared).respond id r, c.threads⟩ := by
  have hnext : c.shared.loop.nextGeneration ≤ loop.nextGeneration := by
    rcases hloop with ⟨-, h, -⟩ | ⟨-, h⟩ | ⟨-, h⟩ <;> omega
  have hgen : ∀ g, loop.generation = some g → g ≤ loop.nextGeneration := by
    intro g hg
    rcases hloop with ⟨h₁, h₂, -⟩ | ⟨h₁, -⟩ | ⟨h₁, h₂⟩
    · exact h₂ ▸ h.generation g (h₁ ▸ hg)
    · rw [h₁] at hg; cases hg
    · rw [h₁] at hg; cases hg; omega
  have hold : ∀ g, g ∈ c.shared.grants → loop.generation = some g.generation →
      Current c.shared g ∧ r ≠ .closed ∧ r ≠ .conditional .closed := by
    intro g hg hopen
    rcases hloop with ⟨h₁, -, hr⟩ | ⟨h₁, -⟩ | ⟨h₁, -⟩
    · exact ⟨⟨hg, h₁ ▸ hopen⟩, hr⟩
    · rw [h₁] at hopen; cases hopen
    · -- the new database has no grant yet
      have := h.grants g hg
      have := Option.some.inj (h₁.symm.trans hopen)
      omega
  refine ⟨fun g hg => h.lease g (hold g hg.1 hg.2).1, fun g hg => ?_, fun g hg => ?_, fun k db hk => ?_, hgen, hidb,
    fun k hk => ?_, fun r hr => h.queued r (hq ▸ List.mem_cons_of_mem _ hr)⟩
  · obtain ⟨hg', hr, hr'⟩ := hold g hg.1 hg.2
    exact (h.quiet g hg').frame (fun r hr => .inl (hq ▸ List.mem_cons_of_mem _ hr)) (fun m hm => .inl hm)
      fun pc => (Pc.ClearsNext.of_respond hr hr' : _ → pc.ClearsNext _)
  · exact (h.grants g hg).trans hnext
  · simp only [Shared.respond, Function.update_apply] at hk
    split at hk
    · exact hgen _ (hdb db (Option.some.inj hk))
    · exact (h.opened k db hk).trans hnext
  · have hid := h.queued (id, req) (hq ▸ List.mem_cons_self)
    simp only [Shared.respond, Function.update_apply] at hk ⊢
    rw [if_neg (by omega)]
    exact h.answered k hk

theorem Inv.serve {run : OpenRun} (h : Inv c) (hs : c.shared.serve run = some s') : Inv ⟨s', c.threads⟩ := by
  unfold Shared.serve at hs
  split at hs
  · cases hs
  · rename_i id req queue hq
    cases req <;> dsimp only at hs <;> obtain rfl := Option.some.inj hs
    case openIdb path =>
      refine h.answered_turn hq ?_ (LoopState.serveOpen_idb _ _ _ h.idb)
        fun db hdb => LoopState.serveOpen_ok (Response.opened.inj hdb)
      rcases LoopState.serveOpen_generation c.shared.loop c.shared.files path run with ⟨h₁, h₂⟩ | h
      exacts [.inl ⟨h₁, h₂, by simp, by simp⟩, .inr (.inr h)]
    case close closer => exact h.answered_turn hq (.inr (.inl ⟨rfl, rfl⟩)) (absurd rfl) fun db hdb => by cases hdb
    case closeIfGeneration generation =>
      refine h.answered_turn hq ?_ ?_ fun db hdb => by cases hdb
      all_goals unfold LoopState.serveCloseIfGeneration; split
      exacts [.inr (.inl ⟨rfl, rfl⟩), .inl ⟨rfl, rfl, by simp, by simp⟩, absurd rfl, h.idb]
    case other =>
      refine ⟨h.lease, fun g hg => ?_, h.grants, h.opened, h.generation, h.idb, h.answered,
        fun r hr => h.queued r (hq ▸ List.mem_cons_of_mem _ hr)⟩
      exact (h.quiet g hg).frame (fun r hr => .inl (hq ▸ List.mem_cons_of_mem _ hr)) (fun m hm => .inl hm)
        fun _ h => h

theorem Inv.env {x : Env} (h : Inv c) (hs : program.step c (.env x) = some c') : Inv c' := by
  obtain ⟨r, hr, rfl⟩ := step_env_iff.1 hs
  have hstart : ∀ pc : Pc, pc.sendsClose = none → ¬ pc.ClearsNext c.shared →
      Inv ⟨c.shared, c.threads ++ [pc]⟩ := by
    intro pc h₁ h₂
    refine h.quietStep rfl rfl rfl rfl h.grants h.lease fun g hg => ?_
    refine (h.quiet g hg).frame (fun r hr => .inl hr) (fun m hm => ?_) fun _ => id
    rcases List.mem_append.1 hm with hm | hm
    · exact .inl hm
    · obtain rfl := List.mem_singleton.1 hm
      exact .inr ⟨by simp [h₁], h₂⟩
  cases x <;> simp only [program, CloseToken.env] at hr
  case openIdb | closeIdb | closeIfGeneration =>
    obtain rfl := Option.some.inj hr
    exact hstart _ rfl False.elim
  case other =>
    obtain ⟨⟨t, id⟩, ht, rfl⟩ := Option.map_eq_some_iff.1 hr
    obtain ⟨rfl, rfl⟩ := send_eq ht
    rw [List.append_nil]
    refine ⟨h.lease, fun g hg => ?_, h.grants, h.opened, h.generation, h.idb,
      fun id hid => h.answered id (by dsimp only at hid; omega), fun r hr' => ?_⟩
    · refine (h.quiet g hg).frame (fun r hr' => ?_) (fun m hm => .inl hm) fun _ => id
      rcases List.mem_append.1 hr' with hr' | hr'
      · exact .inl hr'
      · obtain rfl := List.mem_singleton.1 hr'
        exact .inr fun closer hcl => by cases hcl
    · rcases List.mem_append.1 hr' with hr' | hr'
      · exact Nat.lt_succ_of_lt (h.queued r hr')
      · obtain rfl := List.mem_singleton.1 hr'
        exact Nat.lt_succ_self _
  case serve run =>
    obtain ⟨s', hserve, rfl⟩ := Option.map_eq_some_iff.1 hr
    rw [List.append_nil]
    exact h.serve hserve

theorem Inv.step {a : Act Event Env} (h : Inv c) (hc : quietIssue c a) (hs : program.step c a = some c') :
    Inv c' := by
  cases a with
  | env x => exact h.env hs
  | thread i e =>
    obtain ⟨pc, o, hpc, ho, rfl⟩ := step_thread_iff.1 hs
    obtain ⟨⟨s', pc'⟩, hstep, rfl⟩ := Option.map_eq_some_iff.1 ho
    exact h.after hpc (pcStep_effect hstep) hc

theorem Inv.init (h : Init c) : Inv c := by
  refine ⟨?_, ?_, ?_, ?_, ?_, ?_, ?_, ?_⟩ <;> simp [Current, h.loop, h.queue, h.responses, h.grants]

theorem Inv.reachable (h : program.Reachable Init (fun c a => quietIssue c a) c) : Inv c :=
  h.induct (fun _ => Inv.init) fun _ _ _ _ hI hc hs => Inv.step hI hc hs

/-- A step that ends the open database is a turn of the loop that serves a close. -/
theorem ends_by_close {a : Act Event Env} {n : Nat} (h : Inv c) (hs : program.step c a = some c')
    (hopen : c.shared.loop.generation = some n) (hend : c'.shared.loop.generation ≠ some n) :
    ∃ id req queue, c.shared.queue = (id, req) :: queue ∧
      (req = .closeIfGeneration n ∨ ∃ closer, req = .close closer) := by
  cases a with
  | thread i e =>
    obtain ⟨pc, o, hpc, ho, rfl⟩ := step_thread_iff.1 hs
    obtain ⟨⟨s', pc'⟩, hstep, rfl⟩ := Option.map_eq_some_iff.1 ho
    refine absurd ?_ hend
    cases pcStep_effect hstep with
    | done _ hs _ => rw [← hopen, ← hs]; rfl
    | sent _ _ _ hs _ _ => obtain ⟨-, rfl⟩ := send_eq hs; exact hopen
    | authorized _ _ hs _ => rw [← hopen, ← hs]; rfl
    | issued session _ db _ _ _ _ hs _ =>
      show s'.loop.generation = _
      rw [hs, (issue_frame session db.generation).1, hopen]
    | cleared _ _ hs _ => show s'.loop.generation = _; rw [hs]; exact hopen
  | env x =>
    obtain ⟨r, hr, rfl⟩ := step_env_iff.1 hs
    cases x <;> simp only [program, CloseToken.env] at hr
    case openIdb | closeIdb | closeIfGeneration => obtain rfl := Option.some.inj hr; exact absurd hopen hend
    case other =>
      obtain ⟨⟨t, id⟩, ht, rfl⟩ := Option.map_eq_some_iff.1 hr
      obtain ⟨-, rfl⟩ := send_eq ht
      exact absurd hopen hend
    case serve run =>
      obtain ⟨s', hserve, rfl⟩ := Option.map_eq_some_iff.1 hr
      unfold Shared.serve at hserve
      split at hserve
      · cases hserve
      · rename_i id req queue hq
        refine ⟨id, req, queue, hq, ?_⟩
        have hne : c.shared.loop.generation ≠ none := by rw [hopen]; exact Option.some_ne_none n
        cases req <;> dsimp only at hserve <;> obtain rfl := Option.some.inj hserve
        case openIdb path =>
          rw [Shared.respond] at hend
          rw [LoopState.serveOpen_of_open _ _ _ (h.idb hne) hne] at hend
          exact absurd hopen hend
        case close closer => exact .inr ⟨closer, rfl⟩
        case closeIfGeneration m =>
          refine .inl ?_
          by_contra hm
          have hm' : c.shared.loop.generation ≠ some m := fun h => hm (by rw [hopen] at h; cases h; rfl)
          simp only [Shared.respond, LoopState.serveCloseIfGeneration, if_neg hm'] at hend
          exact hend hopen
        case other => exact absurd hopen hend

/-- While the database of a grant is open, the lease is recorded, and what ends the database is the
conditional close of its own generation or a `close_idb` of the owner, forced, or with the token. -/
theorem close_token_protects (h : program.Reachable Init (fun c a => quietIssue c a) c) {g : Grant}
    (hg : g ∈ c.shared.grants) (hopen : c.shared.loop.generation = some g.generation) :
    c.shared.lease = some ⟨g.token, g.session⟩ ∧
    ∀ a c', program.step c a = some c' → c'.shared.loop.generation ≠ some g.generation →
      ∃ id req queue, c.shared.queue = (id, req) :: queue ∧
        (req = .closeIfGeneration g.generation ∨ ∃ closer, req = .close closer ∧ closer.Allowed g) := by
  have hI := Inv.reachable h
  refine ⟨hI.lease g ⟨hg, hopen⟩, fun a c' hs hend => ?_⟩
  obtain ⟨id, req, queue, hq, hreq⟩ := ends_by_close hI hs hopen hend
  refine ⟨id, req, queue, hq, hreq.imp_right fun ⟨closer, hcl⟩ => ⟨closer, hcl, ?_⟩⟩
  subst hcl
  exact (hI.quiet g ⟨hg, hopen⟩).queued _ (hq ▸ List.mem_cons_self) closer rfl

def freshServer : Conf Shared Pc :=
  ⟨⟨{}, [], 64, fun _ => none, 0, none, 0, [], ⟨none, fun _ => true, some⟩⟩, []⟩

theorem init_freshServer : Init freshServer := ⟨rfl, rfl, fun _ => rfl, rfl, rfl, rfl⟩

/-- The open of session `A`, request `i`, up to its close token. -/
def openAsA (i : Nat) : List (Act Event Env) :=
  [.env (.openIdb "A" "/db/a.i64"), .thread i .go, .env (.serve (.opened "/db/a.i64")), .thread i .go]

/-- Session `B` closes without a token. -/
def foreign : Closer := ⟨"B", none, false⟩

/-- A `close_idb` of `B`, authorised while no lease was recorded, ends the database `A` has a token for. -/
theorem foreign_close_ends_database : ∃ c, program.Reachable Init Program.Free c ∧
    ∃ g ∈ c.shared.grants, c.shared.loop.generation = some g.generation ∧ ¬ foreign.Allowed g ∧
      c.shared.queue = [(1, .close foreign)] ∧
      ∃ c' ∈ program.step c (.env (.serve .cancelled)), c'.shared.loop.generation = none :=
  Program.Reachable.of_run_any (P := program)
    (r := List.flatten [[.env (.closeIdb foreign), .thread 0 .go], openAsA 1, [.thread 0 .go]])
    init_freshServer (by decide +kernel)

/-- `B` is refused, and `A` closes with its own session. -/
theorem close_token_protects_owner_close : ∃ c, program.Reachable Init (fun c a => quietIssue c a) c ∧
    ∃ g ∈ c.shared.grants, c.shared.loop.generation = some g.generation ∧
      c.threads[1]? = some (Pc.done (.refused "A")) ∧ c.shared.lease = some ⟨g.token, "A"⟩ := by
  obtain ⟨c, hc, g, hg, hopen, hs, hr⟩ := Program.Reachable.of_runIf_any (P := program)
    (C := fun c a => quietIssue c a)
    (r := List.flatten [openAsA 0,
      [.env (.closeIdb foreign), .thread 1 .go, .env (.closeIdb ⟨"A", none, false⟩), .thread 2 .go]])
    (p := fun c => ∃ g ∈ c.shared.grants, c.shared.loop.generation = some g.generation ∧ g.session = "A" ∧
      c.threads[1]? = some (Pc.done (.refused "A"))) init_freshServer (by decide +kernel)
  exact ⟨c, hc, g, hg, hopen, hr, hs ▸ (close_token_protects hc hg hopen).1⟩

end IdaRs.CloseToken
