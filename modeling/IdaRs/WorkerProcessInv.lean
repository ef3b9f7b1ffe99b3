import IdaRs.WorkerProcess

/-!
# What a client of a worker process can rely on

`Serial` is the run of the worker as it would be with one request at a time. The requests that are not dispatched yet are
those of the main thread and of the queue, `pending`; with those that are, they stand in the order of their channels.
-/

namespace IdaRs.WorkerProcess

open Connection (Request Response)
open State (tickets)

variable {parse : List Char → Except String Request} {s s' : State} {e : Event} {b : Bool} {id : String}

/-! ### The sequential worker -/

/-- What is left when the requests are dispatched one after the other. -/
inductive Serial (id : String) : List Served → TargetManager → Prop
  | nil : Serial id [] (TargetManager.new.seedNextId id)
  | snoc {served : List Served} {mgr mgr' : TargetManager} {e : Served} (h : Serial id served mgr)
      (hdispatch : dispatchRequest e.world mgr e.request = (some e.response, mgr')) : Serial id (served ++ [e]) mgr'

theorem Serial.step (h : Serial id s.served s.mgr) (hstep : Step parse s b s') : Serial id s'.served s'.mgr := by
  cases hstep with
  | dispatch k w request response mgr hmain hdispatch => exact .snoc h hdispatch
  | _ => exact h

/-- A sequential worker has served them. -/
theorem Serial.run {served : List Served} {mgr : TargetManager} (h : Serial id served mgr) :
    ∃ log, Runs.Run Worker.step (fun _ _ => True) (Worker.started id)
      (served.map fun e => (e.world, work e.request)) ⟨mgr, log⟩ := by
  induction h with
  | nil => exact ⟨[], .nil _⟩
  | @snoc served mgr mgr' e _ hdispatch ih =>
    obtain ⟨log, hrun⟩ := ih
    obtain ⟨-, rfl⟩ := Prod.mk.inj hdispatch
    rw [List.map_append]
    exact ⟨_, hrun.append (.singleton trivial rfl)⟩

/-- Every dispatch is from where those before it have left the manager. -/
theorem Serial.at {served : List Served} {mgr : TargetManager} {e : Served} (h : Serial id served mgr)
    (he : e ∈ served) : ∃ before after mgr, served = before ++ e :: after ∧ Serial id before mgr ∧
      (dispatchRequest e.world mgr e.request).1 = some e.response := by
  induction h with
  | nil => cases he
  | @snoc served mgr mgr' e' h hdispatch ih =>
    rcases List.mem_append.1 he with he | he
    · obtain ⟨before, after, mgr₀, rfl, hserial, hresponse⟩ := ih he
      exact ⟨before, after ++ [e'], mgr₀, by rw [List.append_assoc]; rfl, hserial, hresponse⟩
    · obtain rfl := List.mem_singleton.1 he
      exact ⟨served, [], mgr, rfl, h, by rw [hdispatch]⟩

/-! ### Channels -/

def Main.pending : Main → List (Nat × Request)
  | .dispatch k request => [(k, request)]
  | _ => []

def queued (queue : List WorkItem) : List (Nat × Request) :=
  queue.filterMap fun | .request k request => some (k, request) | .exit => none

namespace State

def pending (s : State) : List (Nat × Request) := s.main.pending ++ queued s.queue

/-- The requests that were accepted, but for those that were dropped. -/
def accepted (s : State) : List (Nat × Request) := s.served.map (fun e => (e.ticket, e.request)) ++ s.pending

end State

/-- What a slot says of its request. -/
def Slot.Law (s : State) (k : Nat) (request : Request) : Slot → Prop
  | empty => (k, request) ∈ s.pending ∨ ∃ response, s.main = .reply k response
  | sent response => ∃ e ∈ s.served, e.ticket = k ∧ e.request = request ∧ e.response = response
  | dropped => ∀ x ∈ s.accepted, x.1 ≠ k

structure Channels (s : State) : Prop where
  order : s.accepted.Pairwise fun x y => x.1 < y.1
  asked : ∀ x ∈ s.accepted, ∃ ch, s.channels[x.1]? = some ch ∧ ch.request = x.2
  reply : ∀ k response, s.main = .reply k response → ∃ e ∈ s.served, e.ticket = k ∧ e.response = response
  slots : ∀ (k : Nat) (ch : Channel), s.channels[k]? = some ch → ch.slot.Law s k ch.request

theorem queued_append (queue queue' : List WorkItem) : queued (queue ++ queue') = queued queue ++ queued queue' :=
  List.filterMap_append

theorem tickets_eq (queue : List WorkItem) : tickets queue = (queued queue).map Prod.fst := by
  rw [tickets, queued, List.map_filterMap]
  exact congrFun (congrArg _ (funext fun item => by cases item <;> rfl)) queue

theorem Channels.lt (h : Channels s) {x : Nat × Request} (hx : x ∈ s.accepted) : x.1 < s.channels.length := by
  obtain ⟨ch, hch, -⟩ := h.asked x hx
  exact (List.getElem?_eq_some_iff.1 hch).1

/-- The main thread or the queue change, the requests in them and the channels do not. -/
theorem Channels.same (h : Channels s) (hserved : s'.served = s.served) (hchannels : s'.channels = s.channels)
    (hpending : s'.pending = s.pending) (hreply : ∀ k response, s'.main = .reply k response ↔ s.main = .reply k response) :
    Channels s' := by
  have haccepted : s'.accepted = s.accepted := by
    unfold State.accepted
    rw [hserved, hpending]
  refine ⟨haccepted ▸ h.order, ?_, ?_, ?_⟩
  · rw [haccepted, hchannels]
    exact h.asked
  · intro k response hmain
    rw [hserved]
    exact h.reply k response ((hreply k response).1 hmain)
  · intro k ch hch
    have hlaw := h.slots k ch (hchannels ▸ hch)
    rcases hslot : ch.slot with _ | response | _ <;> rw [hslot] at hlaw
    · exact hlaw.imp (hpending ▸ ·) fun ⟨response, h⟩ => ⟨response, (hreply k response).2 h⟩
    · show ∃ e ∈ s'.served, _
      exact hserved ▸ hlaw
    · show ∀ x ∈ s'.accepted, _
      exact haccepted ▸ hlaw

theorem Channels.take (h : Channels s) {k : Nat} {request : Request} {queue : List WorkItem} (hmain : s.main = .recv)
    (hqueue : s.queue = .request k request :: queue) : Channels { s with queue, main := .dispatch k request } := by
  refine h.same rfl rfl ?_ ?_
  · unfold State.pending
    rw [hmain, hqueue]
    rfl
  · intro k response
    rw [hmain]
    exact iff_of_false (by rintro ⟨⟩) (by rintro ⟨⟩)

/-- Out of the loop with no request in hand; the queue has lost what it has lost at the front. -/
theorem Channels.leave (h : Channels s) {queue : List WorkItem} {why : Ending} (hmain : s.main = .recv)
    (hqueue : queued s.queue = queued queue) : Channels { s with queue, main := .cleanup why } := by
  refine h.same rfl rfl ?_ ?_
  · unfold State.pending
    rw [hmain, hqueue]
    rfl
  · intro k response
    rw [hmain]
    exact iff_of_false (by rintro ⟨⟩) (by rintro ⟨⟩)

theorem Channels.exit (h : Channels s) {connections : List Conn} {watchdog : Watchdog} :
    Channels { s with queue := s.queue ++ [.exit], connections, watchdog } := by
  refine h.same rfl rfl ?_ fun _ _ => Iff.rfl
  unfold State.pending
  rw [queued_append]
  exact congrArg _ (List.append_nil _)

theorem Channels.dispatch (h : Channels s) {k : Nat} {w : World} {request : Request} {response : Response}
    {mgr : TargetManager} (hmain : s.main = .dispatch k request) :
    Channels { s with mgr, main := .reply k response, served := s.served ++ [⟨k, w, request, response⟩] } := by
  have hpending : s.pending = (k, request) :: queued s.queue := by
    unfold State.pending
    rw [hmain]
    rfl
  have haccepted : State.accepted
      { s with
        mgr
        main := .reply k response
        served := s.served ++ [⟨k, w, request, response⟩] } = s.accepted := by
    unfold State.accepted
    rw [hpending, List.map_append, List.append_assoc]
    rfl
  have hmem : (⟨k, w, request, response⟩ : Served) ∈ s.served ++ [⟨k, w, request, response⟩] :=
    List.mem_append_right _ List.mem_cons_self
  refine ⟨haccepted ▸ h.order, haccepted ▸ h.asked, ?_, ?_⟩
  · rintro _ _ ⟨⟩
    exact ⟨_, hmem, rfl, rfl⟩
  · intro j ch hch
    have hlaw := h.slots j ch hch
    rcases hslot : ch.slot with _ | answer | _ <;> rw [hslot] at hlaw
    · rcases hlaw with hlaw | ⟨answer, hanswer⟩
      · rw [hpending] at hlaw
        rcases List.mem_cons.1 hlaw with heq | hlaw
        · obtain ⟨rfl, -⟩ := Prod.mk.inj heq
          exact .inr ⟨response, rfl⟩
        · exact .inl hlaw
      · rw [hmain] at hanswer
        cases hanswer
    · obtain ⟨e, he, hlaw⟩ := hlaw
      exact ⟨e, List.mem_append_left _ he, hlaw⟩
    · show ∀ x ∈ State.accepted _, _
      exact haccepted ▸ hlaw

/-- What is left of the accepted requests when some are dropped. -/
theorem Channels.drop (h : Channels s) (hserved : s'.served = s.served) (hsub : s'.pending.Sublist s.pending)
    (hreply : ∀ k response, s'.main ≠ .reply k response) (hasked : ∀ (k : Nat) (ch : Channel), s.channels[k]? = some ch →
      ∃ ch', s'.channels[k]? = some ch' ∧ ch'.request = ch.request)
    (hslots : ∀ (k : Nat) (ch' : Channel), s'.channels[k]? = some ch' → ch'.slot.Law s' k ch'.request) : Channels s' := by
  have hsub : s'.accepted.Sublist s.accepted := by
    unfold State.accepted
    rw [hserved]
    exact hsub.append_left _
  refine ⟨h.order.sublist hsub, ?_, fun k response hmain => absurd hmain (hreply k response), hslots⟩
  intro x hx
  obtain ⟨ch, hch, hrequest⟩ := h.asked x (hsub.subset hx)
  obtain ⟨ch', hch', heq⟩ := hasked x.1 ch hch
  exact ⟨ch', hch', heq.trans hrequest⟩

theorem setSlot_get {k j : Nat} {slot : Slot} {ch' : Channel} (h : (s.setSlot k slot).channels[j]? = some ch') :
    ∃ ch, s.channels[j]? = some ch ∧ (j = k ∧ ch' = { ch with slot } ∨ j ≠ k ∧ ch' = ch) := by
  have h : (s.channels.modify k fun c => { c with slot })[j]? = some ch' := h
  rw [List.getElem?_modify] at h
  obtain ⟨ch, hch, rfl⟩ := Option.map_eq_some_iff.1 h
  refine ⟨ch, hch, ?_⟩
  by_cases hj : k = j
  · rw [if_pos hj]
    exact .inl ⟨hj.symm, rfl⟩
  · rw [if_neg hj]
    exact .inr ⟨Ne.symm hj, rfl⟩

theorem setSlot_asked {k j : Nat} {slot : Slot} {ch : Channel} (h : s.channels[j]? = some ch) :
    ∃ ch', (s.setSlot k slot).channels[j]? = some ch' ∧ ch'.request = ch.request := by
  show ∃ ch', (s.channels.modify k fun c => { c with slot })[j]? = some ch' ∧ _
  rw [List.getElem?_modify, h]
  refine ⟨_, rfl, ?_⟩
  split <;> rfl

theorem Channels.panic (h : Channels s) {k : Nat} {request : Request} (hmain : s.main = .dispatch k request) :
    Channels { s.setSlot k .dropped with main := .cleanup .panicked } := by
  have hpending : s.pending = (k, request) :: queued s.queue := by
    unfold State.pending
    rw [hmain]
    rfl
  have horder : (s.served.map (fun e => (e.ticket, e.request)) ++ (k, request) :: queued s.queue).Pairwise
      fun x y => x.1 < y.1 := hpending ▸ h.order
  rw [List.pairwise_append, List.pairwise_cons] at horder
  obtain ⟨-, ⟨hafter, -⟩, hbefore⟩ := horder
  have hrest : ∀ x ∈ s.served.map (fun e => (e.ticket, e.request)) ++ queued s.queue, x.1 ≠ k := by
    intro x hx
    rcases List.mem_append.1 hx with hx | hx
    · exact Nat.ne_of_lt (hbefore x hx _ List.mem_cons_self)
    · exact Nat.ne_of_gt (hafter x hx)
  refine h.drop rfl ?_ (by rintro _ _ ⟨⟩) (fun j ch => setSlot_asked) ?_
  · rw [hpending]
    exact List.sublist_cons_self _ _
  · intro j ch' hch'
    obtain ⟨ch, hch, ⟨rfl, rfl⟩ | ⟨hne, rfl⟩⟩ := setSlot_get hch'
    · exact hrest
    · have hlaw := h.slots j _ hch
      rcases hslot : ch'.slot with _ | answer | _ <;> rw [hslot] at hlaw
      · rcases hlaw with hlaw | ⟨answer, hanswer⟩
        · rw [hpending] at hlaw
          rcases List.mem_cons.1 hlaw with heq | hlaw
          · exact absurd (Prod.mk.inj heq).1 hne
          · exact .inl hlaw
        · rw [hmain] at hanswer
          cases hanswer
      · exact hlaw
      · intro x hx
        refine hlaw x ?_
        unfold State.accepted
        rw [hpending]
        exact ((List.sublist_cons_self _ _).append_left _).subset hx

theorem Channels.replied (h : Channels s) {k : Nat} {response : Response} (hmain : s.main = .reply k response) :
    Channels { s.setSlot k (.sent response) with main := .recv } := by
  have hpending : s.pending = queued s.queue := by
    unfold State.pending
    rw [hmain]
    rfl
  obtain ⟨e, he, rfl, rfl⟩ := h.reply k response hmain
  refine h.drop rfl ?_ (by rintro _ _ ⟨⟩) (fun j ch => setSlot_asked) ?_
  · rw [hpending]
    exact List.Sublist.refl _
  · intro j ch' hch'
    obtain ⟨ch, hch, ⟨rfl, rfl⟩ | ⟨hne, rfl⟩⟩ := setSlot_get hch'
    · obtain ⟨ch₁, hch₁, hrequest⟩ := h.asked _ (List.mem_append_left _ (List.mem_map_of_mem he))
      obtain rfl := Option.some.inj (hch.symm.trans hch₁)
      exact ⟨e, he, rfl, hrequest.symm, rfl⟩
    · have hlaw := h.slots j _ hch
      rcases hslot : ch'.slot with _ | answer | _ <;> rw [hslot] at hlaw
      · rcases hlaw with hlaw | ⟨answer, hanswer⟩
        · rw [hpending] at hlaw
          exact .inl hlaw
        · rw [hmain] at hanswer
          exact absurd (Main.reply.inj hanswer).1.symm hne
      · exact hlaw
      · intro x hx
        refine hlaw x ?_
        unfold State.accepted
        rw [hpending]
        exact hx

theorem Channels.cleanup (h : Channels s) {why : Ending} (hmain : s.main = .cleanup why) :
    Channels { s.dropReceiver with main := .stopped why } := by
  have hpending : s.pending = queued s.queue := by
    unfold State.pending
    rw [hmain]
    rfl
  have horder : (s.served.map (fun e => (e.ticket, e.request)) ++ queued s.queue).Pairwise
      fun x y => x.1 < y.1 := hpending ▸ h.order
  have hbefore := (List.pairwise_append.1 horder).2.2
  refine h.drop rfl (List.nil_sublist _) (by rintro _ _ ⟨⟩) ?_ ?_
  · intro k ch hch
    refine ⟨if k ∈ tickets s.queue then { ch with slot := .dropped } else ch, ?_, ?_⟩
    · show (s.channels.mapIdx _)[k]? = _
      rw [List.getElem?_mapIdx, hch]
      rfl
    · split <;> rfl
  · intro k ch' hch'
    have hch' : (s.channels.mapIdx fun k c => if k ∈ tickets s.queue then { c with slot := .dropped } else c)[k]? =
      some ch' := hch'
    rw [List.getElem?_mapIdx] at hch'
    obtain ⟨ch, hch, rfl⟩ := Option.map_eq_some_iff.1 hch'
    have hlaw := h.slots k ch hch
    have hserved : State.accepted { s.dropReceiver with main := .stopped why } =
        s.served.map fun e => (e.ticket, e.request) := List.append_nil _
    by_cases hk : k ∈ tickets s.queue
    · rw [if_pos hk]
      rw [tickets_eq] at hk
      obtain ⟨x, hx, rfl⟩ := List.mem_map.1 hk
      show ∀ y ∈ State.accepted _, _
      rw [hserved]
      exact fun y hy => Nat.ne_of_lt (hbefore y hy x hx)
    · rw [if_neg hk]
      rcases hslot : ch.slot with _ | answer | _ <;> rw [hslot] at hlaw
      · rcases hlaw with hlaw | ⟨answer, hanswer⟩
        · rw [hpending] at hlaw
          exact absurd (tickets_eq s.queue ▸ List.mem_map_of_mem hlaw) hk
        · rw [hmain] at hanswer
          cases hanswer
      · exact hlaw
      · show ∀ y ∈ State.accepted _, _
        rw [hserved]
        exact fun y hy => hlaw y (List.mem_append_left _ hy)

/-- One more channel. -/
theorem snoc_get {ch ch' : Channel} {k : Nat} (h : (s.channels ++ [ch])[k]? = some ch') :
    s.channels[k]? = some ch' ∨ k = s.channels.length ∧ ch' = ch := by
  rw [List.getElem?_append] at h
  split at h
  · exact .inl h
  · rcases hk : k - s.channels.length with _ | n
    · rw [hk] at h
      exact .inr ⟨by omega, (Option.some.inj h).symm⟩
    · rw [hk] at h
      cases h

theorem snoc_some {ch new : Channel} {k : Nat} (h : s.channels[k]? = some ch) :
    (s.channels ++ [new])[k]? = some ch := by
  rw [List.getElem?_append_left (List.getElem?_eq_some_iff.1 h).1, h]

theorem Channels.submit (h : Channels s) {i : Nat} {request : Request} {connections : List Conn} :
    Channels { s with
      queue := s.queue ++ [.request s.channels.length request]
      channels := s.channels ++ [⟨i, request, .empty⟩]
      connections } := by
  have hpending : State.pending { s with
      queue := s.queue ++ [.request s.channels.length request]
      channels := s.channels ++ [⟨i, request, .empty⟩]
      connections } = s.pending ++ [(s.channels.length, request)] := by
    unfold State.pending
    rw [queued_append, List.append_assoc]
    rfl
  have haccepted : State.accepted { s with
      queue := s.queue ++ [.request s.channels.length request]
      channels := s.channels ++ [⟨i, request, .empty⟩]
      connections } = s.accepted ++ [(s.channels.length, request)] := by
    unfold State.accepted
    rw [hpending, List.append_assoc]
  refine ⟨?_, ?_, h.reply, ?_⟩
  · rw [haccepted, List.pairwise_append]
    refine ⟨h.order, List.pairwise_singleton _ _, ?_⟩
    intro x hx y hy
    obtain rfl := List.mem_singleton.1 hy
    exact h.lt hx
  · intro x hx
    rw [haccepted] at hx
    rcases List.mem_append.1 hx with hx | hx
    · obtain ⟨ch, hch, hrequest⟩ := h.asked x hx
      exact ⟨ch, snoc_some hch, hrequest⟩
    · obtain rfl := List.mem_singleton.1 hx
      exact ⟨_, List.getElem?_concat_length, rfl⟩
  · intro k ch hch
    rcases snoc_get hch with hch | ⟨rfl, rfl⟩
    · have hlaw := h.slots k ch hch
      rcases hslot : ch.slot with _ | answer | _ <;> rw [hslot] at hlaw
      · refine hlaw.imp (fun hmem => ?_) id
        rw [hpending]
        exact List.mem_append_left _ hmem
      · exact hlaw
      · intro x hx
        rw [haccepted] at hx
        rcases List.mem_append.1 hx with hx | hx
        · exact hlaw x hx
        · obtain rfl := List.mem_singleton.1 hx
          exact Nat.ne_of_gt (List.getElem?_eq_some_iff.1 hch).1
    · left
      rw [hpending]
      exact List.mem_append_right _ List.mem_cons_self

theorem Channels.refuse (h : Channels s) {i : Nat} {request : Request} {connections : List Conn} :
    Channels { s with channels := s.channels ++ [⟨i, request, .dropped⟩], connections } := by
  refine ⟨h.order, ?_, h.reply, ?_⟩
  · intro x hx
    obtain ⟨ch, hch, hrequest⟩ := h.asked x hx
    exact ⟨ch, snoc_some hch, hrequest⟩
  · intro k ch hch
    rcases snoc_get hch with hch | ⟨rfl, rfl⟩
    · exact h.slots k ch hch
    · intro x hx
      exact Nat.ne_of_lt (h.lt hx)

theorem Channels.step (h : Channels s) (hstep : Step parse s b s') : Channels s' := by
  cases hstep with
  | take k request queue hmain hqueue => exact h.take hmain hqueue
  | takeExit queue hmain hqueue => exact h.leave hmain (by rw [hqueue]; rfl)
  | disconnected hmain hqueue _ => exact h.leave hmain (by rw [hqueue])
  | dispatch k w request response mgr hmain _ => exact h.dispatch hmain
  | panic k request hmain => exact h.panic hmain
  | reply k response hmain => exact h.replied hmain
  | cleanup why hmain => exact h.cleanup hmain
  | watchdogExit | exit => exact h.exit
  | submit => exact h.submit
  | refuse => exact h.refuse
  | _ => exact ⟨h.order, h.asked, h.reply, h.slots⟩

theorem Channels.started (id : String) : Channels (started id) := by
  refine ⟨.nil, ?_, ?_, ?_⟩
  · rintro _ ⟨⟩
  · rintro _ _ ⟨⟩
  · rintro _ _ ⟨⟩

/-! ### Connections -/

/-- The replies to a request that is not dispatched, or not to its end. -/
def Refusal (request : Request) (response : Response) : Prop :=
  response = .failure request.id "Worker busy or shutting down" ∨
    response = .failure request.id "Internal: reply dropped"

/-- What a connection may reply to its request `k`. -/
def State.Answers (s : State) (connection k : Nat) (response : Response) : Prop :=
  ∃ ch, s.channels[k]? = some ch ∧ ch.connection = connection ∧
    ((∃ e ∈ s.served, e.ticket = k ∧ e.request = ch.request ∧ e.response = response) ∨
      ch.slot = .dropped ∧ Refusal ch.request response)

/-- The reply to a request for the shutdown, from the main thread. -/
def State.Accepts (s : State) (ticket : Option Nat) (response : Response) : Prop :=
  ∃ e ∈ s.served, ticket = some e.ticket ∧ e.request.op = "shutdown" ∧ e.response = response

def State.ShutdownWritten (s : State) : Prop := ∃ x ∈ s.written, s.Accepts x.ticket x.response

/-- Request `k` is the last of its connection. -/
structure State.Last (s : State) (i k : Nat) : Prop where
  asked : ∃ ch, s.channels[k]? = some ch ∧ ch.connection = i
  written : ∀ x ∈ s.written, x.connection = i → ∀ l, x.ticket = some l → l < k

def Conn.Law (s : State) (i : Nat) : Conn → Prop
  | wait k request => s.Last i k ∧ ∃ ch, s.channels[k]? = some ch ∧ ch.request = request
  | write ticket response onOk onErr =>
    (∀ k, ticket = some k → s.Last i k ∧ s.Answers i k response) ∧ (onOk = .exit → s.Accepts ticket response) ∧
      onErr ≠ .exit
  | exit => s.ShutdownWritten
  | _ => True

/-- What no step takes back. -/
structure Grows (s s' : State) : Prop where
  served : ∀ e ∈ s.served, e ∈ s'.served
  written : ∀ x ∈ s.written, x ∈ s'.written
  channels : ∀ (k : Nat) (ch : Channel), s.channels[k]? = some ch → ∃ ch', s'.channels[k]? = some ch' ∧
    ch'.connection = ch.connection ∧ ch'.request = ch.request ∧ (ch.slot = .dropped → ch'.slot = .dropped)

theorem Grows.refl (s : State) : Grows s s :=
  ⟨fun _ h => h, fun _ h => h, fun _ ch h => ⟨ch, h, rfl, rfl, id⟩⟩

theorem Grows.setSlot (s : State) {k : Nat} {slot : Slot}
    (hslot : ∀ ch, s.channels[k]? = some ch → ch.slot = .dropped → slot = .dropped) : Grows s (s.setSlot k slot) := by
  refine ⟨fun _ h => h, fun _ h => h, fun j ch hch => ?_⟩
  show ∃ ch', (s.channels.modify k fun c => { c with slot })[j]? = some ch' ∧ _
  rw [List.getElem?_modify, hch]
  refine ⟨if k = j then { ch with slot } else ch, rfl, ?_⟩
  by_cases hk : k = j
  · subst hk
    rw [if_pos rfl]
    exact ⟨rfl, rfl, hslot ch hch⟩
  · rw [if_neg hk]
    exact ⟨rfl, rfl, id⟩

theorem Grows.dropReceiver (s : State) : Grows s s.dropReceiver := by
  refine ⟨fun _ h => h, fun _ h => h, fun k ch hch => ?_⟩
  refine ⟨if k ∈ tickets s.queue then { ch with slot := .dropped } else ch, ?_, ?_⟩
  · show (s.channels.mapIdx _)[k]? = _
    rw [List.getElem?_mapIdx, hch]
    rfl
  · split
    · exact ⟨rfl, rfl, fun _ => rfl⟩
    · exact ⟨rfl, rfl, id⟩

theorem Grows.of_step (h : Channels s) (hstep : Step parse s b s') : Grows s s' := by
  cases hstep with
  | dispatch k w request response mgr _ _ =>
    exact ⟨fun _ h => List.mem_append_left _ h, fun _ h => h, (Grows.refl s).channels⟩
  | panic k request _ =>
    have hgrows : Grows s (s.setSlot k .dropped) := Grows.setSlot s fun _ _ _ => rfl
    exact ⟨hgrows.served, hgrows.written, hgrows.channels⟩
  | reply k response hmain =>
    have hgrows : Grows s (s.setSlot k (.sent response)) := by
      refine Grows.setSlot s fun ch hch hdropped => ?_
      have hlaw := h.slots k ch hch
      rw [hdropped] at hlaw
      obtain ⟨e, he, rfl, -⟩ := h.reply k response hmain
      exact absurd rfl (hlaw _ (List.mem_append_left _ (List.mem_map_of_mem he)))
    exact ⟨hgrows.served, hgrows.written, hgrows.channels⟩
  | cleanup why _ =>
    have hgrows := Grows.dropReceiver s
    exact ⟨hgrows.served, hgrows.written, hgrows.channels⟩
  | submit | refuse =>
    exact ⟨fun _ h => h, fun _ h => h, fun _ ch hch => ⟨ch, snoc_some hch, rfl, rfl, id⟩⟩
  | write => exact ⟨fun _ h => h, fun _ h => List.mem_append_left _ h, (Grows.refl s).channels⟩
  | _ => exact ⟨fun _ h => h, fun _ h => h, (Grows.refl s).channels⟩

variable {i k : Nat} {c : Conn} {response : Response} {ticket : Option Nat}

theorem Grows.answers (h : Grows s s') (ha : s.Answers i k response) : s'.Answers i k response := by
  obtain ⟨ch, hch, hi, hanswer⟩ := ha
  obtain ⟨ch', hch', hconnection, hrequest, hdropped⟩ := h.channels k ch hch
  refine ⟨ch', hch', hconnection.trans hi, ?_⟩
  rcases hanswer with ⟨e, he, hk, hask, hresponse⟩ | ⟨hslot, hrefusal⟩
  · exact .inl ⟨e, h.served e he, hk, hask.trans hrequest.symm, hresponse⟩
  · exact .inr ⟨hdropped hslot, hrequest ▸ hrefusal⟩

theorem Grows.accepts (h : Grows s s') (ha : s.Accepts ticket response) : s'.Accepts ticket response := by
  obtain ⟨e, he, ha⟩ := ha
  exact ⟨e, h.served e he, ha⟩

theorem Grows.shutdownWritten (h : Grows s s') (hs : s.ShutdownWritten) : s'.ShutdownWritten := by
  obtain ⟨x, hx, ha⟩ := hs
  exact ⟨x, h.written x hx, h.accepts ha⟩

/-- What a connection relies on holds while the others go on. -/
theorem Conn.Law.mono (h : Conn.Law s i c) (hgrows : Grows s s')
    (hwritten : ∀ x ∈ s'.written, x.connection = i → x ∈ s.written) : Conn.Law s' i c := by
  have hlast : ∀ {k}, s.Last i k → s'.Last i k := by
    rintro k ⟨⟨ch, hch, hi⟩, hbefore⟩
    obtain ⟨ch', hch', hconnection, -, -⟩ := hgrows.channels k ch hch
    exact ⟨⟨ch', hch', hconnection.trans hi⟩, fun x hx hxi => hbefore x (hwritten x hx hxi) hxi⟩
  rcases c with _ | request | ⟨k, request⟩ | ⟨ticket, response, onOk, onErr⟩ | _ | _
  · trivial
  · trivial
  · obtain ⟨h, ch, hch, hrequest⟩ := h
    obtain ⟨ch', hch', -, heq, -⟩ := hgrows.channels k ch hch
    exact ⟨hlast h, ch', hch', heq.trans hrequest⟩
  · obtain ⟨hticket, haccepts, hne⟩ := h
    exact ⟨fun k hk => ⟨hlast (hticket k hk).1, hgrows.answers (hticket k hk).2⟩,
      fun hexit => hgrows.accepts (haccepts hexit), hne⟩
  · exact hgrows.shutdownWritten h
  · trivial

/-- What was written, and what the connections are at. -/
structure Replies (s : State) : Prop where
  conns : ∀ (i : Nat) (c : Conn), s.connections[i]? = some c → c.Law s i
  answers : ∀ x ∈ s.written, ∀ k, x.ticket = some k → s.Answers x.connection k x.response
  order : s.written.Pairwise fun x y =>
    x.connection = y.connection → ∀ k l, x.ticket = some k → y.ticket = some l → k < l

/-- A step of connection `i`, which writes nothing. -/
theorem Replies.setConn (h : Replies s) (hgrows : Grows s s') (hwritten : s'.written = s.written)
    (hconns : s'.connections = s.connections.set i c) (hlaw : c.Law s' i) : Replies s' := by
  refine ⟨?_, ?_, hwritten ▸ h.order⟩
  · intro j c' hj
    rw [hconns] at hj
    by_cases hne : i = j
    · subst hne
      rw [List.getElem?_set_self'] at hj
      obtain ⟨c₀, -, rfl⟩ := Option.map_eq_some_iff.1 hj
      exact hlaw
    · rw [List.getElem?_set_ne hne] at hj
      exact (h.conns j c' hj).mono hgrows fun x hx _ => hwritten ▸ hx
  · rw [hwritten]
    exact fun x hx k hk => hgrows.answers (h.answers x hx k hk)

/-- A step of another thread. -/
theorem Replies.other (h : Replies s) (hgrows : Grows s s') (hwritten : s'.written = s.written)
    (hconns : s'.connections = s.connections) : Replies s' := by
  refine ⟨?_, ?_, hwritten ▸ h.order⟩
  · rw [hconns]
    exact fun j c hj => (h.conns j c hj).mono hgrows fun x hx _ => hwritten ▸ hx
  · rw [hwritten]
    exact fun x hx k hk => hgrows.answers (h.answers x hx k hk)

theorem Replies.accept (h : Replies s) : Replies { s with connections := s.connections ++ [.read] } := by
  have hgrows : Grows s { s with connections := s.connections ++ [.read] } :=
    ⟨fun _ h => h, fun _ h => h, (Grows.refl s).channels⟩
  refine ⟨?_, h.answers, h.order⟩
  intro j c hj
  rw [List.getElem?_append] at hj
  split at hj
  · exact (h.conns j c hj).mono hgrows fun _ hx _ => hx
  · obtain rfl := List.mem_singleton.1 (List.mem_of_getElem? hj)
    trivial

/-- The next channel is after all that was written. -/
theorem Replies.last (h : Replies s) {request : Request} {slot : Slot}
    (hchannels : s'.channels = s.channels ++ [⟨i, request, slot⟩]) (hwritten : s'.written = s.written) :
    s'.Last i s.channels.length := by
  refine ⟨⟨_, hchannels ▸ List.getElem?_concat_length, rfl⟩, ?_⟩
  rw [hwritten]
  intro x hx _ l hl
  obtain ⟨ch, hch, -⟩ := h.answers x hx l hl
  exact (List.getElem?_eq_some_iff.1 hch).1

theorem Replies.write (h : Replies s) {onOk onErr : After}
    (hi : s.connections[i]? = some (.write ticket response onOk onErr)) :
    Replies { s.setConn i onOk.conn with written := s.written ++ [⟨i, ticket, response⟩] } := by
  obtain ⟨hticket, haccepts, -⟩ := h.conns i _ hi
  have hgrows : Grows s { s.setConn i onOk.conn with written := s.written ++ [⟨i, ticket, response⟩] } :=
    ⟨fun _ h => h, fun _ h => List.mem_append_left _ h, (Grows.refl s).channels⟩
  refine ⟨?_, ?_, ?_⟩
  · intro j c hj
    have hj : (s.connections.set i onOk.conn)[j]? = some c := hj
    by_cases hne : i = j
    · subst hne
      rw [List.getElem?_set_self'] at hj
      obtain ⟨c₀, -, rfl⟩ := Option.map_eq_some_iff.1 hj
      rcases onOk with _ | _ | _
      · trivial
      · trivial
      · exact ⟨_, List.mem_append_right _ List.mem_cons_self, hgrows.accepts (haccepts rfl)⟩
    · rw [List.getElem?_set_ne hne] at hj
      refine (h.conns j c hj).mono hgrows ?_
      intro x hx hxj
      rcases List.mem_append.1 hx with hx | hx
      · exact hx
      · obtain rfl := List.mem_singleton.1 hx
        exact absurd hxj hne
  · intro x hx k hk
    rcases List.mem_append.1 hx with hx | hx
    · exact hgrows.answers (h.answers x hx k hk)
    · obtain rfl := List.mem_singleton.1 hx
      exact hgrows.answers (hticket k hk).2
  · refine List.pairwise_append.2 ⟨h.order, List.pairwise_singleton _ _, ?_⟩
    intro x hx y hy hconnection k l hk hl
    obtain rfl := List.mem_singleton.1 hy
    exact (hticket l hl).1.written x hx hconnection k hk

/-- A connection that moves by itself comes to where it relies on nothing new. -/
theorem Conn.Moves.law {c' : Conn} (h : c.Moves parse c') (hc : c.Law s i) : c'.Law s' i := by
  cases h with
  | line bytes =>
    unfold readLine
    split
    · exact ⟨by rintro _ ⟨⟩, by rintro ⟨⟩, by rintro ⟨⟩⟩
    · trivial
    · split
      · trivial
      · split
        · exact ⟨by rintro _ ⟨⟩, by rintro ⟨⟩, by rintro ⟨⟩⟩
        · trivial
  | writeFails ticket response onOk onErr =>
    rcases onErr with _ | _ | _
    · trivial
    · trivial
    · exact absurd rfl hc.2.2
  | close => trivial

theorem Replies.step (hch : Channels s) (h : Replies s) (hstep : Step parse s b s') : Replies s' := by
  have hgrows := Grows.of_step hch hstep
  cases hstep with
  | submit i request hi _ _ =>
    exact h.setConn hgrows rfl rfl ⟨h.last rfl rfl, _, List.getElem?_concat_length, rfl⟩
  | refuse i request hi =>
    refine h.setConn hgrows rfl rfl ⟨?_, by rintro ⟨⟩, by rintro ⟨⟩⟩
    rintro k ⟨⟩
    exact ⟨h.last rfl rfl, _, List.getElem?_concat_length, rfl, .inr ⟨rfl, .inl rfl⟩⟩
  | answered i k request ch response hi hget hslot =>
    obtain ⟨hlast, ch', hch', rfl⟩ := h.conns i _ hi
    obtain rfl := Option.some.inj (hget.symm.trans hch')
    have hlaw := hch.slots k ch hget
    rw [hslot] at hlaw
    obtain ⟨e, he, hk, hrequest, hresponse⟩ := hlaw
    obtain ⟨_, hch₁, hi₁⟩ := hlast.asked
    obtain rfl := Option.some.inj (hget.symm.trans hch₁)
    refine h.setConn hgrows rfl rfl ⟨?_, ?_, by rintro ⟨⟩⟩
    · rintro _ ⟨⟩
      exact ⟨⟨hlast.asked, hlast.written⟩, ch, hget, hi₁, .inl ⟨e, he, hk, hrequest, hresponse⟩⟩
    · intro hexit
      split at hexit
      · exact ⟨e, he, congrArg some hk.symm, hrequest ▸ ‹_›, hresponse⟩
      · cases hexit
  | dropped i k request ch hi hget hslot =>
    obtain ⟨hlast, ch', hch', rfl⟩ := h.conns i _ hi
    obtain rfl := Option.some.inj (hget.symm.trans hch')
    obtain ⟨_, hch₁, hi₁⟩ := hlast.asked
    obtain rfl := Option.some.inj (hget.symm.trans hch₁)
    refine h.setConn hgrows rfl rfl ⟨?_, by rintro ⟨⟩, by rintro ⟨⟩⟩
    rintro _ ⟨⟩
    exact ⟨⟨hlast.asked, hlast.written⟩, ch, hget, hi₁, .inr ⟨hslot, .inr rfl⟩⟩
  | write i ticket response onOk onErr hi => exact h.write hi
  | exit i hi _ => exact h.setConn hgrows rfl rfl trivial
  | move i c c' hi hmove => exact h.setConn hgrows rfl rfl (hmove.law (h.conns i c hi))
  | accept => exact h.accept
  | _ => exact h.other hgrows rfl rfl

theorem Replies.started (id : String) : Replies (started id) := by
  refine ⟨?_, ?_, .nil⟩
  · rintro _ _ ⟨⟩
  · rintro _ ⟨⟩

/-! ### The end of the main loop -/

/-- The router is gone, or a client has the reply to its `shutdown`. -/
def State.Told (s : State) : Prop := s.watchdog ≠ .watch ∨ s.ShutdownWritten

def State.Ended (s : State) (why : Ending) : Prop := s.main = .cleanup why ∨ s.main = .stopped why

structure Ends (s : State) : Prop where
  exit : .exit ∈ s.queue → s.Told
  main : ∀ why, s.Ended why → why = .exit ∧ s.Told ∨ why = .panicked
  /-- The sender of the watchdog goes after its `Exit`. -/
  watchdog : s.watchdog = .gone → .exit ∈ s.queue ∨ ∃ why, s.Ended why

theorem Grows.told (h : Grows s s') (hwatchdog : s'.watchdog = s.watchdog) (ht : s.Told) : s'.Told :=
  ht.imp (hwatchdog ▸ ·) h.shutdownWritten

/-- A step that leaves the watchdog, and does not end the main loop. -/
theorem Ends.same (h : Ends s) (hgrows : Grows s s') (hwatchdog : s'.watchdog = s.watchdog)
    (hqueue : .exit ∈ s'.queue ↔ .exit ∈ s.queue) (hmain : ∀ why, s'.Ended why ↔ s.Ended why) : Ends s' := by
  refine ⟨fun hexit => hgrows.told hwatchdog (h.exit (hqueue.1 hexit)), ?_, ?_⟩
  · intro why hwhy
    exact (h.main why ((hmain why).1 hwhy)).imp (And.imp_right (hgrows.told hwatchdog)) id
  · intro hgone
    rcases h.watchdog (hwatchdog ▸ hgone) with hexit | ⟨why, hwhy⟩
    · exact .inl (hqueue.2 hexit)
    · exact .inr ⟨why, (hmain why).2 hwhy⟩

/-- The main thread leaves the loop. -/
theorem Ends.leave (hgrows : Grows s s') (hwatchdog : s'.watchdog = s.watchdog)
    (hqueue : .exit ∈ s'.queue → .exit ∈ s.queue) {why : Ending} (hmain : s'.main = .cleanup why ∨ s'.main = .stopped why)
    (hwhy : why = .exit ∧ s.Told ∨ why = .panicked) (h : Ends s) : Ends s' := by
  refine ⟨fun hexit => hgrows.told hwatchdog (h.exit (hqueue hexit)), ?_, fun _ => .inr ⟨why, hmain⟩⟩
  intro why' hwhy'
  have heq : why' = why := by
    rcases hmain with h₁ | h₁ <;> rcases hwhy' with h₂ | h₂ <;> rw [h₁] at h₂ <;> cases h₂ <;> rfl
  subst heq
  exact hwhy.imp (And.imp_right (hgrows.told hwatchdog)) id

/-- An `Exit` is put into the queue. -/
theorem Ends.post (h : Ends s) (htold : s'.Told) (hqueue : s'.queue = s.queue ++ [.exit])
    (hmain : s'.main = s.main) : Ends s' := by
  refine ⟨fun _ => htold, ?_, fun _ => .inl (hqueue ▸ List.mem_append_right _ List.mem_cons_self)⟩
  intro why hwhy
  unfold State.Ended at hwhy
  rw [hmain] at hwhy
  exact (h.main why hwhy).imp (And.imp_right fun _ => htold) id

def Main.loops : Main → Bool
  | recv | dispatch .. | reply .. => true
  | _ => false

theorem not_ended (h : s.main.loops = true) (why : Ending) : ¬ s.Ended why := by
  intro hwhy
  rcases hwhy with hwhy | hwhy <;> rw [hwhy] at h <;> cases h

theorem Ends.step (hch : Channels s) (hreplies : Replies s) (h : Ends s) (hstep : Step parse s b s') : Ends s' := by
  have hgrows := Grows.of_step hch hstep
  cases hstep with
  | take k request queue hmain hqueue =>
    refine h.same hgrows rfl ?_ fun why => iff_of_false (not_ended rfl why) (not_ended (hmain ▸ rfl) why)
    rw [hqueue]
    exact ⟨List.mem_cons_of_mem _, fun hmem => (List.mem_cons.1 hmem).resolve_left (by rintro ⟨⟩)⟩
  | takeExit queue hmain hqueue =>
    have hexit : WorkItem.exit ∈ s.queue := hqueue ▸ List.mem_cons_self
    exact h.leave hgrows rfl (fun _ => hexit) (.inl rfl) (.inl ⟨rfl, h.exit hexit⟩)
  | disconnected hmain hqueue hgone =>
    unfold State.disconnected at hgone
    simp only [Bool.and_eq_true, decide_eq_true_eq] at hgone
    rcases h.watchdog hgone.1.1 with hexit | ⟨why, hwhy⟩
    · rw [hqueue] at hexit
      cases hexit
    · exact absurd hwhy (not_ended (hmain ▸ rfl) why)
  | dispatch k w request response mgr hmain _ =>
    exact h.same hgrows rfl Iff.rfl fun why =>
      iff_of_false (not_ended rfl why) (not_ended (hmain ▸ rfl) why)
  | panic k request hmain => exact h.leave hgrows rfl id (.inl rfl) (.inr rfl)
  | reply k response hmain =>
    exact h.same hgrows rfl Iff.rfl fun why =>
      iff_of_false (not_ended rfl why) (not_ended (hmain ▸ rfl) why)
  | cleanup why hmain => exact h.leave hgrows rfl (by rintro ⟨⟩) (.inr rfl) (h.main why (.inl hmain))
  | routerGone _ =>
    have htold : State.Told { s with watchdog := .exit } := .inl (by rintro ⟨⟩)
    exact ⟨fun _ => htold, fun why hwhy => (h.main why hwhy).imp (And.imp_right fun _ => htold) id, by rintro ⟨⟩⟩
  | watchdogExit _ _ => exact h.post (.inl (by rintro ⟨⟩)) rfl rfl
  | watchdogGone _ hstopped =>
    have htold : State.Told { s with watchdog := .gone } := .inl (by rintro ⟨⟩)
    refine ⟨fun _ => htold, fun why hwhy => (h.main why hwhy).imp (And.imp_right fun _ => htold) id, fun _ => .inr ?_⟩
    unfold State.receiving at hstopped
    split at hstopped
    · exact ⟨_, .inr ‹_›⟩
    · cases hstopped
  | submit i request _ _ _ =>
    refine h.same hgrows rfl ?_ fun _ => Iff.rfl
    show .exit ∈ s.queue ++ [_] ↔ _
    simp
  | exit i hi _ => exact h.post (.inr (hgrows.shutdownWritten (hreplies.conns i _ hi))) rfl rfl
  | _ => exact h.same hgrows rfl Iff.rfl fun _ => Iff.rfl

theorem Ends.started (id : String) : Ends (started id) := by
  refine ⟨?_, fun why hwhy => absurd hwhy (not_ended rfl why), ?_⟩
  · rintro ⟨⟩
  · rintro ⟨⟩

/-! ### How long a request waits -/

/-- Steps of the main thread, from when it looks into the queue, until channel `k` has its reply: `recv`, the dispatch and
the `send` for each request. -/
def queueTurns (k : Nat) : List WorkItem → Nat
  | [] => 0
  | .request j _ :: queue => if j = k then 3 else 3 + queueTurns k queue
  -- what comes after is dropped
  | .exit :: _ => 2

def State.turns (s : State) (k : Nat) : Nat :=
  match s.main with
  | .recv => queueTurns k s.queue
  | .dispatch j _ => if j = k then 2 else 2 + queueTurns k s.queue
  | .reply j _ => if j = k then 1 else 1 + queueTurns k s.queue
  | .cleanup _ => 1
  | .stopped _ => 0

def State.Waits (s : State) (k : Nat) : Prop := ∃ ch, s.channels[k]? = some ch ∧ ch.slot = .empty

theorem queueTurns_le (k : Nat) (queue : List WorkItem) : queueTurns k queue ≤ 3 * queue.length := by
  induction queue with
  | nil => exact Nat.le_refl _
  | cons item queue ih =>
    rcases item with ⟨j, request⟩ | _
    · unfold queueTurns
      split <;> simp only [List.length_cons] <;> omega
    · unfold queueTurns
      simp only [List.length_cons]
      omega

/-- What comes into the queue later comes after. -/
theorem queueTurns_append {k : Nat} {queue : List WorkItem} (h : ∃ request, (k, request) ∈ queued queue)
    (queue' : List WorkItem) : queueTurns k (queue ++ queue') = queueTurns k queue := by
  induction queue with
  | nil =>
    obtain ⟨_, ⟨⟩⟩ := h
  | cons item queue ih =>
    rcases item with ⟨j, request⟩ | _
    · rw [List.cons_append]
      unfold queueTurns
      by_cases hj : j = k
      · rw [if_pos hj, if_pos hj]
      · rw [if_neg hj, if_neg hj, ih]
        obtain ⟨request', h⟩ := h
        rcases List.mem_cons.1 h with heq | h
        · exact absurd (Prod.mk.inj heq).1.symm hj
        · exact ⟨request', h⟩
    · rfl

/-- Where a request is that waits. -/
theorem Channels.waits (h : Channels s) (hk : s.Waits k) :
    (∃ request, s.main = .dispatch k request) ∨ (∃ request, (k, request) ∈ queued s.queue) ∨
      ∃ response, s.main = .reply k response := by
  obtain ⟨ch, hch, hslot⟩ := hk
  have hlaw := h.slots k ch hch
  rw [hslot] at hlaw
  rcases hlaw with hlaw | hlaw
  · rcases List.mem_append.1 hlaw with hlaw | hlaw
    · unfold Main.pending at hlaw
      split at hlaw
      · rename_i j request hmain
        obtain ⟨rfl, -⟩ := Prod.mk.inj (List.mem_singleton.1 hlaw)
        exact .inl ⟨request, hmain⟩
      · cases hlaw
    · exact .inr (.inl ⟨_, hlaw⟩)
  · exact .inr (.inr hlaw)

structure Queue (s : State) : Prop where
  room : s.queue.length ≤ capacity
  stopped : s.receiving = false → queued s.queue = []

theorem Queue.step (h : Queue s) (hstep : Step parse s b s') : Queue s' := by
  have hlength := h.room
  cases hstep with
  | take k request queue hmain hqueue =>
    rw [hqueue, List.length_cons] at hlength
    exact ⟨Nat.le_of_succ_le hlength, by rintro ⟨⟩⟩
  | takeExit queue hmain hqueue =>
    rw [hqueue, List.length_cons] at hlength
    exact ⟨Nat.le_of_succ_le hlength, by rintro ⟨⟩⟩
  | disconnected => exact ⟨Nat.zero_le _, fun _ => rfl⟩
  | dispatch | panic | reply => exact ⟨hlength, by rintro ⟨⟩⟩
  | cleanup => exact ⟨Nat.zero_le _, fun _ => rfl⟩
  | watchdogExit _ hroom | exit _ _ hroom =>
    refine ⟨?_, fun hstopped => ?_⟩
    · rw [List.length_append]
      exact hroom
    · rw [queued_append, h.stopped hstopped]
      rfl
  | submit i request _ hreceiving hroom =>
    refine ⟨?_, fun hstopped => ?_⟩
    · rw [List.length_append]
      exact hroom
    · exact absurd (hreceiving.symm.trans hstopped) (by decide)
  | _ => exact ⟨hlength, h.stopped⟩

theorem Queue.started (id : String) : Queue (started id) := ⟨Nat.zero_le _, fun _ => rfl⟩

/-- Nobody waits for a main thread that has stopped. -/
theorem Channels.not_stopped (h : Channels s) (hqueue : Queue s) (hk : s.Waits k) (why : Ending) :
    s.main ≠ .stopped why := by
  intro hmain
  have hreceiving : s.receiving = false := by
    unfold State.receiving
    rw [hmain]
  rcases h.waits hk with ⟨request, h⟩ | ⟨request, h⟩ | ⟨response, h⟩
  · cases hmain.symm.trans h
  · rw [hqueue.stopped hreceiving] at h
    cases h
  · cases hmain.symm.trans h

/-- The main thread is not blocked while somebody waits. -/
theorem Channels.enabled (h : Channels s) (hqueue : Queue s) (hk : s.Waits k) (w : World) :
    (s.mainStep w).isSome = true := by
  unfold State.mainStep
  rcases hmain : s.main with _ | ⟨j, request⟩ | ⟨j, response⟩ | why | why
  · dsimp only
    rcases hq : s.queue with _ | ⟨⟨j, request⟩ | _, queue⟩
    · rcases h.waits hk with ⟨request, hwaits⟩ | ⟨request, hwaits⟩ | ⟨response, hwaits⟩
      · cases hmain.symm.trans hwaits
      · rw [hq] at hwaits
        cases hwaits
      · cases hmain.symm.trans hwaits
    · rfl
    · rfl
  · dsimp only
    split <;> rfl
  · rfl
  · rfl
  · exact absurd hmain (h.not_stopped hqueue hk why)

/-- A step of the main thread brings every request nearer to its reply. -/
theorem Channels.turns_main (h : Channels s) (hk : s.Waits k) (hstep : Step parse s true s') (hk' : s'.Waits k) :
    s'.turns k + 1 ≤ s.turns k := by
  cases hstep with
  | take j request queue hmain hqueue =>
    simp only [State.turns, hmain, hqueue, queueTurns]
    split <;> omega
  | takeExit queue hmain hqueue =>
    simp only [State.turns, hmain, hqueue, queueTurns]
    omega
  | disconnected hmain hqueue _ =>
    rcases h.waits hk with ⟨request, hwaits⟩ | ⟨request, hwaits⟩ | ⟨response, hwaits⟩
    · cases hmain.symm.trans hwaits
    · rw [hqueue] at hwaits
      cases hwaits
    · cases hmain.symm.trans hwaits
  | dispatch j w request response mgr hmain _ =>
    simp only [State.turns, hmain]
    split <;> omega
  | panic j request hmain =>
    simp only [State.turns, hmain]
    split <;> omega
  | reply j response hmain =>
    by_cases hj : j = k
    · subst hj
      obtain ⟨ch', hch', hslot⟩ := hk'
      obtain ⟨ch, -, ⟨-, rfl⟩ | ⟨hne, -⟩⟩ := setSlot_get hch'
      · cases hslot
      · exact absurd rfl hne
    · simp only [State.turns, hmain, if_neg hj]
      exact Nat.le_of_eq (Nat.add_comm _ _)
  | cleanup why hmain =>
    simp only [State.turns, hmain]
    omega

/-- No other thread puts it off. -/
theorem Channels.turns_other (h : Channels s) (hk : s.Waits k) (hstep : Step parse s false s') :
    s'.turns k = s.turns k := by
  obtain ⟨hmain, queue, hqueue⟩ : s'.main = s.main ∧ ∃ queue, s'.queue = s.queue ++ queue := by
    cases hstep with
    | watchdogExit | submit | exit => exact ⟨rfl, _, rfl⟩
    | _ => exact ⟨rfl, [], (List.append_nil _).symm⟩
  unfold State.turns
  rw [hmain, hqueue]
  rcases h.waits hk with ⟨request, hwaits⟩ | hwaits | ⟨response, hwaits⟩
  · simp only [hwaits, if_true]
  · simp only [queueTurns_append hwaits]
  · simp only [hwaits, if_true]

theorem queueTurns_pos {queue : List WorkItem} {x : Nat × Request} (h : x ∈ queued queue) : 0 < queueTurns k queue := by
  rcases queue with _ | ⟨⟨j, request⟩ | _, queue⟩
  · cases h
  · unfold queueTurns
    split <;> omega
  · exact Nat.zero_lt_two

theorem Channels.turns_pos (h : Channels s) (hqueue : Queue s) (hk : s.Waits k) : 0 < s.turns k := by
  unfold State.turns
  rcases hmain : s.main with _ | ⟨j, request⟩ | ⟨j, response⟩ | why | why
  · rcases h.waits hk with ⟨request, hwaits⟩ | ⟨request, hwaits⟩ | ⟨response, hwaits⟩
    · cases hmain.symm.trans hwaits
    · exact queueTurns_pos hwaits
    · cases hmain.symm.trans hwaits
  · dsimp only
    split <;> omega
  · dsimp only
    split <;> omega
  · exact Nat.zero_lt_one
  · exact absurd hmain (h.not_stopped hqueue hk why)

/-- `recv`, the dispatch and the `send`, for as many requests as there can be in the queue, and the end of the one the main
thread has in hand. -/
theorem Queue.turns_le (h : Queue s) (k : Nat) : s.turns k ≤ 3 * capacity + 2 := by
  have hle := queueTurns_le k s.queue
  have hroom := h.room
  unfold State.turns
  split
  · omega
  · split <;> omega
  · split <;> omega
  · omega
  · omega

/-! ### Runs -/

structure Inv (id : String) (s : State) : Prop where
  serial : Serial id s.served s.mgr
  channels : Channels s
  replies : Replies s
  ends : Ends s
  queue : Queue s

theorem Inv.started (id : String) : Inv id (started id) :=
  ⟨.nil, .started id, .started id, .started id, .started id⟩

theorem Inv.step (h : Inv id s) (hstep : step parse s e = some s') : Inv id s' :=
  have hstep := Step.of_step hstep
  ⟨h.serial.step hstep, h.channels.step hstep, h.replies.step h.channels hstep,
    h.ends.step h.channels h.replies hstep, h.queue.step hstep⟩

variable {C : State → Event → Prop} {events later : List Event}

theorem Inv.run (h : Inv id s) (hrun : Runs.Run (WorkerProcess.step parse) C s events s') : Inv id s' :=
  hrun.history (I := fun _ s => Inv id s) (fun _ _ _ _ h _ hstep => h.step hstep) h

/-- A channel that has got something is not empty again. -/
theorem waits_before (hstep : Step parse s b s') (hlt : k < s.channels.length) (hk : s'.Waits k) : s.Waits k := by
  have hsnoc : ∀ {ch new : Channel}, (s.channels ++ [new])[k]? = some ch → s.channels[k]? = some ch := by
    intro ch new hch
    rcases snoc_get hch with hch | ⟨heq, -⟩
    · exact hch
    · exact absurd heq (Nat.ne_of_lt hlt)
  obtain ⟨ch', hch', hslot⟩ := hk
  cases hstep with
  | panic | reply =>
    obtain ⟨ch, hch, ⟨-, rfl⟩ | ⟨-, rfl⟩⟩ := setSlot_get hch'
    · cases hslot
    · exact ⟨_, hch, hslot⟩
  | cleanup =>
    have hch' : (s.channels.mapIdx fun k c => if k ∈ tickets s.queue then { c with slot := .dropped } else c)[k]? =
      some ch' := hch'
    rw [List.getElem?_mapIdx] at hch'
    obtain ⟨ch, hch, rfl⟩ := Option.map_eq_some_iff.1 hch'
    by_cases hmem : k ∈ tickets s.queue
    · rw [if_pos hmem] at hslot
      cases hslot
    · rw [if_neg hmem] at hslot
      exact ⟨ch, hch, hslot⟩
  | submit | refuse => exact ⟨ch', hsnoc hch', hslot⟩
  | _ => exact ⟨ch', hch', hslot⟩

/-- While a request waits, every step of the main thread is one of its turns. -/
theorem Inv.turns_run (hrun : Runs.Run (WorkerProcess.step parse) C s events s') (h : Inv id s)
    (hlt : k < s.channels.length) (hk' : s'.Waits k) :
    s.Waits k ∧ s'.turns k + events.countP Event.isMain ≤ s.turns k := by
  induction hrun with
  | nil => exact ⟨hk', Nat.le_refl _⟩
  | @cons s s₁ t e es _ hstep hrun ih =>
    have hstep' := Step.of_step hstep
    have hgrows := Grows.of_step h.channels hstep'
    obtain ⟨ch, hch, -⟩ := hgrows.channels k _ (List.getElem?_eq_getElem hlt)
    obtain ⟨hk₁, hle⟩ := ih (h.step hstep) (List.getElem?_eq_some_iff.1 hch).1 hk'
    have hk := waits_before hstep' hlt hk₁
    refine ⟨hk, ?_⟩
    rw [List.countP_cons]
    rcases hmain : e.isMain with _ | _ <;> rw [hmain] at hstep'
    · rw [← h.channels.turns_other hk hstep']
      exact hle
    · have hturn := h.channels.turns_main hk hstep' hk₁
      simp only [if_true]
      omega

/-! ### A worker with two clients, of which the second shuts it down -/

namespace Sample

def shutdown : Request := ⟨"1", "shutdown", .null, none⟩

def shuttingDown : Response := .success "1" (.obj [("status", .str "shutting_down")])

/-- `functions`, as the router sends it on. -/
def listing : Request :=
  ⟨"7", (Worker.forwarded (.functions 1 2 none)).op, (Worker.forwarded (.functions 1 2 none)).params, none⟩

def nothingLoaded : Response := .failure "7" "No targets loaded. Use 'target load -f <path>' first."

def readRequest (line : List Char) : Except String Request := .ok (if line = ['l'] then listing else shutdown)

/-- Both clients have connected and sent a line. -/
def asked : State :=
  { started "t3" with
    queue := [.request 0 listing, .request 1 shutdown]
    channels := [⟨0, listing, .empty⟩, ⟨1, shutdown, .empty⟩]
    server := .accept
    connections := [.wait 0 listing, .wait 1 shutdown] }

def ended : State :=
  { started "t3" with
    channels := [⟨0, listing, .sent nothingLoaded⟩, ⟨1, shutdown, .sent shuttingDown⟩]
    main := .stopped .exit
    server := .accept
    connections := [.read, .closed]
    served := [⟨0, Worker.Sample.world, listing, nothingLoaded⟩, ⟨1, Worker.Sample.world, shutdown, shuttingDown⟩]
    written := [⟨0, some 0, nothingLoaded⟩, ⟨1, some 1, shuttingDown⟩] }

theorem run_asked : Runs.Run (step readRequest) (fun _ _ => True) (started "t3")
    [.server true, .server true, .server true, .line 1 (.ok [115]), .line 0 (.ok [108]), .go 0, .go 1] asked :=
  .cons trivial rfl (.cons trivial rfl (.cons trivial rfl (.cons trivial rfl (.cons trivial rfl (.cons trivial rfl
    (.cons trivial rfl (.nil asked)))))))

/-- The first reply is written while the second request is served; then the `Exit` and the end of the loop. -/
theorem run_ended : Runs.Run (step readRequest) (fun _ _ => True) asked
    [.main Worker.Sample.world, .main Worker.Sample.world, .main Worker.Sample.world, .main Worker.Sample.world, .go 0,
      .main Worker.Sample.world, .go 0, .main Worker.Sample.world, .go 1, .go 1, .go 1, .main Worker.Sample.world,
      .main Worker.Sample.world] ended :=
  .cons trivial rfl (.cons trivial rfl (.cons trivial rfl (.cons trivial rfl (.cons trivial rfl (.cons trivial rfl
    (.cons trivial rfl (.cons trivial rfl (.cons trivial rfl (.cons trivial rfl (.cons trivial rfl (.cons trivial rfl
      (.cons trivial rfl (.nil ended)))))))))))))

end Sample

/-! ### What clients can rely on -/

/-- However the connections come in between each other, and whatever worlds the dispatches find: the worker has dispatched
requests one after the other in the order in which they were accepted, each at most once, and is where this leaves it.
What a connection has written to one of its requests is the response to it, or says that it is refused, and then no
dispatch of it comes to an end, before or after; a connection replies to its requests in order. -/
theorem replies_serial (hrun : Runs.Run (step parse) C (started id) events s) :
    Serial id s.served s.mgr ∧ s.served.Pairwise (fun e e' => e.ticket < e'.ticket) ∧
      (∀ x ∈ s.written, ∀ k, x.ticket = some k → ∃ ch, s.channels[k]? = some ch ∧ ch.connection = x.connection ∧
        ((∃ e ∈ s.served, e.ticket = k ∧ e.request = ch.request ∧ e.response = x.response) ∨
          (∀ e ∈ s.served, e.ticket ≠ k) ∧ Refusal ch.request x.response)) ∧
      s.written.Pairwise fun x y =>
        x.connection = y.connection → ∀ k l, x.ticket = some k → y.ticket = some l → k < l := by
  have h := Inv.run (.started id) hrun
  have horder := (List.pairwise_append.1 h.channels.order).1
  refine ⟨h.serial, (List.pairwise_map (R := fun x y : Nat × Request => x.1 < y.1)).1 horder, ?_, h.replies.order⟩
  intro x hx k hk
  obtain ⟨ch, hch, hconnection, hanswer⟩ := h.replies.answers x hx k hk
  refine ⟨ch, hch, hconnection, ?_⟩
  refine hanswer.imp (fun hserved => hserved) (And.imp_left fun hslot e he => ?_)
  have hlaw := h.channels.slots k ch hch
  rw [hslot] at hlaw
  exact hlaw _ (List.mem_append_left _ (List.mem_map_of_mem he))

theorem replies_serial_ended :
    Serial "t3" Sample.ended.served Sample.ended.mgr ∧
      Sample.ended.served.Pairwise (fun e e' => e.ticket < e'.ticket) ∧
      (∀ x ∈ Sample.ended.written, ∀ k, x.ticket = some k → ∃ ch, Sample.ended.channels[k]? = some ch ∧
        ch.connection = x.connection ∧
        ((∃ e ∈ Sample.ended.served, e.ticket = k ∧ e.request = ch.request ∧ e.response = x.response) ∨
          (∀ e ∈ Sample.ended.served, e.ticket ≠ k) ∧ Refusal ch.request x.response)) ∧
      Sample.ended.written.Pairwise fun x y =>
        x.connection = y.connection → ∀ k l, x.ticket = some k → y.ticket = some l → k < l :=
  replies_serial (Sample.run_asked.append Sample.run_ended)

/-- The main loop ends only when a dispatch panics, when the router has closed the pipe, or when a client has the reply to
its `shutdown`: the queue is never without a sender before. -/
theorem ends_told (hrun : Runs.Run (step parse) C (started id) events s) {why : Ending} (hwhy : s.Ended why) :
    why = .panicked ∨ why = .exit ∧ (s.watchdog ≠ .watch ∨ ∃ x ∈ s.written, ∃ e ∈ s.served,
      x.ticket = some e.ticket ∧ e.request.op = "shutdown" ∧ e.response = x.response) :=
  ((Inv.run (.started id) hrun).ends.main why hwhy).symm

theorem ends_told_ended : Ending.exit = .panicked ∨ Ending.exit = .exit ∧ (Sample.ended.watchdog ≠ .watch ∨
    ∃ x ∈ Sample.ended.written, ∃ e ∈ Sample.ended.served,
      x.ticket = some e.ticket ∧ e.request.op = "shutdown" ∧ e.response = x.response) :=
  ends_told (Sample.run_asked.append Sample.run_ended) (.inr rfl)

/-- Whoever waits for a reply does not wait for a main thread that is blocked or gone, and after 194 steps of the main
thread, whatever the other threads do meanwhile, the reply is there or known not to come. -/
theorem waits_bounded (hrun : Runs.Run (step parse) C (started id) events s) (hk : s.Waits k) :
    (∀ w, (step parse s (.main w)).isSome = true) ∧
      ∀ later s', Runs.Run (step parse) C s later s' → 194 ≤ later.countP Event.isMain → ¬ s'.Waits k := by
  have h := Inv.run (.started id) hrun
  refine ⟨h.channels.enabled h.queue hk, fun later s' hrun' hcount hk' => ?_⟩
  obtain ⟨ch, hch, -⟩ := hk
  have hturns := (h.turns_run hrun' (List.getElem?_eq_some_iff.1 hch).1 hk').2
  have hpos := (h.run hrun').channels.turns_pos (h.run hrun').queue hk'
  have hle := h.queue.turns_le k
  unfold capacity at hle
  omega

theorem waits_bounded_asked : (∀ w, (step Sample.readRequest Sample.asked (.main w)).isSome = true) ∧
    ∀ later s', Runs.Run (step Sample.readRequest) (fun _ _ => True) Sample.asked later s' →
      194 ≤ later.countP Event.isMain → ¬ s'.Waits 0 :=
  waits_bounded Sample.run_asked ⟨_, rfl, rfl⟩

/-- What a connection has written to a command that the router sends on: that it is refused, that nothing is loaded, or what
the call the user meant has answered on the database that was open after the requests before. -/
theorem forwarded_replied (hrun : Runs.Run (step parse) C (started id) events s) {cmd : CliCommand} {call : Read HandlerCall}
    (hmeant : Cli.meant cmd = some call) {x : Written} (hx : x ∈ s.written) (hk : x.ticket = some k) {ch : Channel}
    (hch : s.channels[k]? = some ch) (hcmd : work ch.request = Worker.forwarded cmd) :
    Refusal ch.request x.response ∨ ∃ before e after mgr, s.served = before ++ e :: after ∧ e.ticket = k ∧
      Serial id before mgr ∧
      ((mgr.targets.keys = [] ∧
          x.response = .failure ch.request.id "No targets loaded. Use 'target load -f <path>' first.") ∨
        ∃ t record idb, mgr.targets.keys = [t] ∧ mgr.targets.lookup t = some record ∧ record.idb = some idb ∧
          respond ch.request.id (call.bind fun c => (e.world.handlers c idb).1) = some x.response) := by
  have h := Inv.run (.started id) hrun
  obtain ⟨ch', hch', -, ⟨e, he, rfl, hrequest, hresponse⟩ | ⟨-, hrefusal⟩⟩ := h.replies.answers x hx k hk
  · obtain rfl := Option.some.inj (hch.symm.trans hch')
    obtain ⟨before, after, mgr, hserved, hserial, hanswer⟩ := h.serial.at he
    obtain ⟨log, hsequential⟩ := hserial.run
    obtain ⟨current, hinv⟩ := Worker.Inv.run hsequential
    have hanswer : respond ch.request.id (dispatchInner e.world mgr (Worker.forwarded cmd)).1 = some x.response := by
      rw [← hcmd, ← hrequest, ← hresponse]
      exact hanswer
    refine .inr ⟨before, e, after, mgr, hserved, rfl, hserial, ?_⟩
    rcases hinv.forwarded e.world hmeant with ⟨hempty, hnone⟩ | ⟨t, record, idb, ht, hrecord, hidb, hcall⟩
    · rw [hnone] at hanswer
      exact .inl ⟨hempty, (Option.some.inj hanswer).symm⟩
    · rw [hcall] at hanswer
      exact .inr ⟨t, record, idb, ht, hrecord, hidb, hanswer⟩
  · obtain rfl := Option.some.inj (hch.symm.trans hch')
    exact .inl hrefusal

theorem forwarded_replied_listed :
    Refusal Sample.listing Sample.nothingLoaded ∨ ∃ before e after mgr,
      Sample.ended.served = before ++ e :: after ∧ e.ticket = 0 ∧ Serial "t3" before mgr ∧
      ((mgr.targets.keys = [] ∧ Sample.nothingLoaded =
          .failure Sample.listing.id "No targets loaded. Use 'target load -f <path>' first.") ∨
        ∃ t record idb, mgr.targets.keys = [t] ∧ mgr.targets.lookup t = some record ∧ record.idb = some idb ∧
          respond Sample.listing.id (e.world.handlers (.listFunctions 1 2 none) idb).1 =
            some Sample.nothingLoaded) :=
  have hmeant : Cli.meant (.functions 1 2 none) = some (.ok (.listFunctions 1 2 none)) := rfl
  forwarded_replied (Sample.run_asked.append Sample.run_ended) hmeant (x := ⟨0, some 0, Sample.nothingLoaded⟩)
    List.mem_cons_self rfl rfl rfl

end IdaRs.WorkerProcess
