import IdaRs.CheckedPath
import IdaRs.Lib.Runs
import IdaRs.Tools

/-!
# Asking before a background analysis (`src/server/mod.rs` 1842-1905, 2033-2290)

`open_idb` on a large binary asks the user whether auto-analysis may run in the background. Under the protocol of 2026
the question is an answer of its own: the client gets it with a sealed `requestState` and calls `open_idb` again with
that state and the reply. The server keeps nothing in between, so the seal alone ties the second call to the first.

The seal is `RequestStateCodec`, which is not in this repository: `Codec`, relied on in `Codec.Sound` and
`Codec.Complete`. Clients send any state they like; that they cannot make a seal is `Genuine`, a condition on the steps
of a run. `elicitResult` is `serde_json::from_value::<ElicitResult>`.
-/

namespace IdaRs.OpenConfirm

open Serde (Json)
open CheckedPath (trimText)
open DscFiles (Host)
open Backend (ServerMode)

/-! ### The codec -/

/-- `sealWith` has the bytes drawn for the seal, the payload, the associated data and the second it expires in. -/
structure Codec (Token : Type) where
  sealWith : Nat → String → List Char → Nat → Token
  openWith : Token → List Char → Nat → Option String

variable {Token : Type}

/-- What is opened was sealed over the same data and has not expired. -/
def Codec.Sound (codec : Codec Token) : Prop :=
  ∀ nonce payload data expires data' now payload', codec.openWith (codec.sealWith nonce payload data expires) data' now =
    some payload' → payload' = payload ∧ data' = data ∧ now ≤ expires

/-- What was sealed is opened until it expires. -/
def Codec.Complete (codec : Codec Token) : Prop :=
  ∀ nonce payload data expires now, now < expires →
    codec.openWith (codec.sealWith nonce payload data expires) data now = some payload

/-! ### The decision -/

def openIdbAutoBackgroundThresholdBytes : Nat := 50 * 1024 * 1024

def openIdbRequestStateTtlSecs : Nat := 10 * 60

def stage : String := "open_idb/background-confirmation/v1"

def inputKey : String := "background"

/-- `format!("tools/call:open_idb\0{path}\0{size_bytes}")`. -/
def associatedData (path : String) (sizeBytes : Nat) : List Char :=
  "tools/call:open_idb".toList ++ '\x00' :: path.toList ++ '\x00' :: Nat.toDigits 10 sizeBytes

inductive ElicitationAction
  | accept
  | decline
  | cancel
  /-- An action of a later protocol. -/
  | other
deriving DecidableEq, Repr

/-- `from_value::<OpenIdbBackgroundChoice>`: the field of an object, or the only element of an array. -/
def openIdbBackgroundChoice : Json → Option (Option Bool)
  | .obj kvs =>
    match kvs.lookup "background" with
    | none | some .null => some none
    | some (.bool b) => some (some b)
    | some _ => none
  | .arr [.null] => some none
  | .arr [.bool b] => some (some b)
  | _ => none

inductive Decision (Token : Type)
  | ready (background : Bool)
  | inputRequired (requestState : Token)

structure Client where
  /-- The protocol is that of 2026-07-28 or a later one. -/
  modern : Bool
  /-- The client announces elicitation by form. -/
  form : Bool
  /-- `supported_elicitation_modes` is not empty. -/
  elicits : Bool

/-- How the question of an older protocol ends. -/
inductive Elicited
  | clientCancelled
  | accepted (background : Option Bool)
  | noContent
  | userDeclined
  | userCancelled
  | notSupported
  | timedOut
  | failed

def Elicited.background : Elicited → Bool
  | .accepted background => background.getD true
  | .noContent | .notSupported | .timedOut | .failed => true
  | .clientCancelled | .userDeclined | .userCancelled => false

abbrev InputResponses := List (String × Json)

section

variable (codec : Codec Token) (elicitResult : Json → Option (ElicitationAction × Option Json))

/-- What a reply says; an unknown action is no consent. -/
def replyBackground : ElicitationAction × Option Json → Bool
  | (.accept, content) => ((content.bind openIdbBackgroundChoice).bind id).getD true
  | (.decline, _) | (.cancel, _) | (.other, _) => false

/-- `modern_open_idb_background_decision`. -/
def modernOpenIdbBackgroundDecision (nonce now : Nat) (path : String) (sizeBytes : Nat) (requestState : Option Token)
    (inputResponses : Option InputResponses) : Except String (Decision Token) :=
  match requestState with
  | none =>
    if inputResponses.isSome then .error "inputResponses require a matching requestState"
    else
      .ok (.inputRequired
        (codec.sealWith nonce stage (associatedData path sizeBytes) (now + openIdbRequestStateTtlSecs)))
  | some sealed =>
    match codec.openWith sealed (associatedData path sizeBytes) now with
    | none => .error "expired, tampered, or unknown requestState"
    | some opened =>
      if opened ≠ stage then .error "requestState belongs to a different MRTR stage"
      else
        match inputResponses.bind (·.lookup inputKey) with
        | none => .error "missing background elicitation response"
        | some response =>
          match elicitResult response with
          | none => .error "invalid background elicitation response action"
          | some reply => .ok (.ready (replyBackground reply))

/-- `modern_choose_open_idb_background`. -/
def modernChooseOpenIdbBackground (client : Client) (nonce now : Nat) (path : String) (sizeBytes : Nat)
    (requestState : Option Token) (inputResponses : Option InputResponses) : Except String (Decision Token) :=
  if requestState.isNone && inputResponses.isSome then .error "inputResponses require a matching requestState"
  else if requestState.isNone && !client.form then .ok (.ready true)
  else if !client.form then .error "MRTR retry omitted the form elicitation capability"
  else modernOpenIdbBackgroundDecision codec elicitResult nonce now path sizeBytes requestState inputResponses

/-- `choose_open_idb_background`; `elicited` is how the question ends if it is asked. -/
def chooseOpenIdbBackground (client : Client) (elicited : Elicited) (nonce now : Nat) (path : String) (sizeBytes : Nat)
    (requestState : Option Token) (inputResponses : Option InputResponses) : Except String (Decision Token) :=
  if client.modern then
    modernChooseOpenIdbBackground codec elicitResult client nonce now path sizeBytes requestState inputResponses
  else if requestState.isSome || inputResponses.isSome then
    .error "requestState and inputResponses require MCP 2026-07-28"
  else if !client.elicits then .ok (.ready true)
  else .ok (.ready elicited.background)

end

/-! ### The calls of a server -/

structure OpenIdbRequest (Token : Type) where
  path : String
  timeoutSecs : Option IntTy.i64.ty.Val
  autoAnalyse : Option Bool
  requestState : Option Token
  inputResponses : Option InputResponses

/-- A call, with what the server finds on the disk: `fileLen` is the length in the metadata of a path. -/
structure Call (Token : Type) where
  client : Client
  host : Host
  fileLen : String → Nat
  elicited : Elicited
  req : OpenIdbRequest Token

/-- The text of the path, without the blanks around it. -/
def Call.path (c : Call Token) : String := trimText c.req.path

/-- `expand_path` of a path without blanks. -/
def Call.expanded (c : Call Token) : String :=
  expandPath ⟨c.host.home, c.host.isFile, c.host.canonicalize⟩ c.path

/-- `input_size_above_threshold`. -/
def Call.inputSizeAboveThreshold (c : Call Token) : Option Nat :=
  if c.host.isFile c.expanded then (some (c.fileLen c.expanded)).filter (openIdbAutoBackgroundThresholdBytes < ·) else none

/-- `large_input_size`; `is_database_path` is `isIdbPath` of the path that is opened. -/
def Call.largeInputSize (mode : ServerMode) (c : Call Token) : Option Nat :=
  if mode ≠ .worker && c.req.autoAnalyse.getD false && !isIdbPath c.expanded then c.inputSizeAboveThreshold else none

/-- A question that was sent to the client. -/
structure Prompt (Token : Type) where
  requestState : Token
  path : String
  sizeBytes : Nat
  askedAt : Nat

/-- A call that went on to open its input. -/
structure Opened (Token : Type) where
  call : Call Token
  background : Bool
  openedAt : Nat

/-- The clock, and what has been asked and opened. -/
structure Server (Token : Type) where
  now : Nat
  prompts : List (Prompt Token)
  opened : List (Opened Token)

inductive Answer (Token : Type)
  | invalidParams (msg : String)
  | tool (e : ToolError)
  | inputRequired (requestState : Token)
  /-- The input is opened, with auto-analysis in the background or as asked for. -/
  | opens (autoAnalyse background : Bool)

/-- The route of a call: to the background or not, or the question. -/
def route (codec : Codec Token) (elicitResult : Json → Option (ElicitationAction × Option Json)) (mode : ServerMode)
    (s : Server Token) (c : Call Token) : Except String (Decision Token) :=
  match c.largeInputSize mode with
  | some size =>
    chooseOpenIdbBackground codec elicitResult c.client c.elicited s.prompts.length s.now c.path size c.req.requestState
      c.req.inputResponses
  | none =>
    if c.req.requestState.isSome || c.req.inputResponses.isSome then
      .error "requestState/inputResponses do not match an active open_idb elicitation"
    else .ok (.ready false)

/-- `open_idb`, up to the open. -/
def openIdb (codec : Codec Token) (elicitResult : Json → Option (ElicitationAction × Option Json)) (mode : ServerMode)
    (s : Server Token) (c : Call Token) : Server Token × Answer Token :=
  if !c.host.validatePath c.path then (s, .tool (.invalidPath c.path))
  else
    match parseOptionalUnsigned IntTy.u64 c.req.timeoutSecs "timeout_secs" with
    | .error e => (s, .tool e)
    | .ok _ =>
      match route codec elicitResult mode s c with
      | .error msg => (s, .invalidParams msg)
      | .ok (.inputRequired requestState) =>
        ({ s with prompts := ⟨requestState, c.path, (c.largeInputSize mode).getD 0, s.now⟩ :: s.prompts },
          .inputRequired requestState)
      | .ok (.ready background) =>
        ({ s with opened := ⟨c, background, s.now⟩ :: s.opened },
          .opens (c.req.autoAnalyse.getD false && !background) background)

inductive Event (Token : Type)
  | tick (secs : Nat)
  | call (c : Call Token)

def step (codec : Codec Token) (elicitResult : Json → Option (ElicitationAction × Option Json)) (mode : ServerMode)
    (s : Server Token) : Event Token → Option (Server Token)
  | .tick secs => some { s with now := s.now + secs }
  | .call c => some (openIdb codec elicitResult mode s c).1

/-- A state that opens was sealed by this server. -/
def Genuine (codec : Codec Token) (s : Server Token) : Event Token → Prop
  | .tick _ => True
  | .call c => ∀ sealed data payload, c.req.requestState = some sealed → codec.openWith sealed data s.now = some payload →
    ∃ p ∈ s.prompts, p.requestState = sealed

/-- A server that has just started. -/
def started (now : Nat) : Server Token := ⟨now, [], []⟩

/-! ### The seal -/

/-- What stands before and after the last NUL of a text. -/
theorem last_nul_inj {xs ys ds es : List Char} (hd : '\x00' ∉ ds) (he : '\x00' ∉ es)
    (h : xs ++ '\x00' :: ds = ys ++ '\x00' :: es) : xs = ys ∧ ds = es := by
  have hrev : ds.reverse ++ '\x00' :: xs.reverse = es.reverse ++ '\x00' :: ys.reverse := by
    have := congrArg List.reverse h
    simpa only [List.reverse_append, List.reverse_cons, List.append_assoc, List.singleton_append] using this
  rcases List.append_eq_append_iff.1 hrev with ⟨mid, hes, hmid⟩ | ⟨mid, hds, hmid⟩
  · cases mid with
    | nil =>
      rw [List.append_nil] at hes
      refine ⟨?_, (List.reverse_injective hes).symm⟩
      exact List.reverse_injective (List.cons.inj hmid).2
    | cons c mid =>
      obtain ⟨rfl, -⟩ := List.cons.inj hmid
      exact absurd (List.mem_reverse.1 (hes ▸ List.mem_append_right _ List.mem_cons_self)) he
  · cases mid with
    | nil =>
      rw [List.append_nil] at hds
      refine ⟨?_, List.reverse_injective hds⟩
      exact (List.reverse_injective (List.cons.inj hmid).2).symm
    | cons c mid =>
      obtain ⟨rfl, -⟩ := List.cons.inj hmid
      exact absurd (List.mem_reverse.1 (hds ▸ List.mem_append_right _ List.mem_cons_self)) hd

theorem toDigits_injective {n m : Nat} (h : Nat.toDigits 10 n = Nat.toDigits 10 m) : n = m := by
  have hvalue : radixValue 10 (Nat.toDigits 10 n) = some n := radixValue_toDigits_radix (by decide) (by decide) n
  rw [h, radixValue_toDigits_radix (by decide) (by decide)] at hvalue
  exact (Option.some.inj hvalue).symm

theorem nul_not_mem_toDigits (n : Nat) : '\x00' ∉ Nat.toDigits 10 n := by
  intro h
  have hvalue : radixValue 10 (Nat.toDigits 10 n) = some n := radixValue_toDigits_radix (by decide) (by decide) n
  have hdigit := radixValue_digits hvalue _ h
  cases hdigit

/-- The associated data tell a path and a size from any other, also where a path has a NUL in it. -/
theorem associatedData_inj {path path' : String} {size size' : Nat}
    (h : associatedData path size = associatedData path' size') : path = path' ∧ size = size' := by
  unfold associatedData at h
  obtain ⟨hpath, hsize⟩ := last_nul_inj (nul_not_mem_toDigits size) (nul_not_mem_toDigits size') h
  have hlist := (List.cons.inj (List.append_cancel_left hpath)).2
  exact ⟨String.toList_injective hlist, toDigits_injective hsize⟩

/-! ### One call -/

variable {codec : Codec Token} {elicitResult : Json → Option (ElicitationAction × Option Json)} {mode : ServerMode}
  {s s' : Server Token} {c : Call Token}

/-- What a step can do: time passes, nothing happens, the question is sent, or a call goes on to the open. -/
theorem step_cases {e : Event Token} (h : step codec elicitResult mode s e = some s') :
    (∃ secs, s' = { s with now := s.now + secs }) ∨ s' = s ∨
    (∃ c requestState, e = .call c ∧ route codec elicitResult mode s c = .ok (.inputRequired requestState) ∧
      s' = { s with prompts := ⟨requestState, c.path, (c.largeInputSize mode).getD 0, s.now⟩ :: s.prompts }) ∨
    ∃ c background, e = .call c ∧ route codec elicitResult mode s c = .ok (.ready background) ∧
      s' = { s with opened := ⟨c, background, s.now⟩ :: s.opened } := by
  cases e with
  | tick secs => exact .inl ⟨secs, (Option.some.inj h).symm⟩
  | call c =>
    obtain rfl := Option.some.inj h
    refine .inr ?_
    unfold openIdb
    by_cases hpath : c.host.validatePath c.path = true
    · rw [hpath]
      cases parseOptionalUnsigned IntTy.u64 c.req.timeoutSecs "timeout_secs" with
      | error e => exact .inl rfl
      | ok timeout =>
        rcases hroute : route codec elicitResult mode s c with msg | background | requestState
        · exact .inl rfl
        · exact .inr (.inr ⟨c, background, rfl, hroute, rfl⟩)
        · exact .inr (.inl ⟨c, requestState, rfl, hroute, rfl⟩)
    · rw [Bool.eq_false_iff.2 hpath]
      exact .inl rfl

/-- What a client says to the question, if it does. -/
def replied (elicitResult : Json → Option (ElicitationAction × Option Json)) (responses : Option InputResponses) :
    Option Bool :=
  ((responses.bind (·.lookup inputKey)).bind elicitResult).map replyBackground

/-- The question is sent with a seal over the path and the size. -/
theorem route_asks {requestState : Token} (h : route codec elicitResult mode s c = .ok (.inputRequired requestState)) :
    ∃ size, c.largeInputSize mode = some size ∧ requestState = codec.sealWith s.prompts.length stage
      (associatedData c.path size) (s.now + openIdbRequestStateTtlSecs) := by
  unfold route at h
  cases hsize : c.largeInputSize mode with
  | none =>
    rw [hsize] at h
    simp only at h
    split at h <;> cases h
  | some size =>
    rw [hsize] at h
    refine ⟨size, rfl, ?_⟩
    simp only [chooseOpenIdbBackground, modernChooseOpenIdbBackground, modernOpenIdbBackgroundDecision] at h
    split at h
    · split at h
      · cases h
      split at h
      · cases h
      split at h
      · cases h
      split at h
      · split at h <;> cases h
        rfl
      · split at h
        · cases h
        split at h
        · cases h
        split at h
        · cases h
        split at h <;> cases h
    · split at h
      · cases h
      split at h <;> cases h

/-- A call that has to carry a confirmation to be opened: one that says it does, or one the question is for. -/
def Call.Confirms (mode : ServerMode) (c : Call Token) : Prop :=
  c.req.requestState ≠ none ∨ c.req.inputResponses ≠ none ∨
    (c.client.modern = true ∧ c.client.form = true ∧ c.largeInputSize mode ≠ none)

/-- Such a call is only opened with a seal over its own path and size, and as the reply in it says. -/
theorem route_ready {background : Bool} (h : route codec elicitResult mode s c = .ok (.ready background))
    (hconfirms : c.Confirms mode) :
    ∃ size sealed, c.largeInputSize mode = some size ∧ c.client.modern = true ∧ c.client.form = true ∧
      c.req.requestState = some sealed ∧ codec.openWith sealed (associatedData c.path size) s.now = some stage ∧
      replied elicitResult c.req.inputResponses = some background := by
  unfold Call.Confirms at hconfirms
  unfold route at h
  cases hsize : c.largeInputSize mode with
  | none =>
    rw [hsize] at h hconfirms
    rcases hstate : c.req.requestState with _ | sealed <;> rcases hresp : c.req.inputResponses with _ | responses <;>
      simp [hstate, hresp] at h hconfirms
  | some size =>
    rw [hsize] at h hconfirms
    simp only [chooseOpenIdbBackground] at h
    rcases hmodern : c.client.modern with _ | _
    · rcases hstate : c.req.requestState with _ | sealed <;> rcases hresp : c.req.inputResponses with _ | responses <;>
        simp [hmodern, hstate, hresp] at h hconfirms
    simp only [hmodern, if_true, modernChooseOpenIdbBackground] at h
    rcases hform : c.client.form with _ | _
    · rcases hstate : c.req.requestState with _ | sealed <;> rcases hresp : c.req.inputResponses with _ | responses <;>
        simp [hform, hstate, hresp] at h hconfirms
    rcases hstate : c.req.requestState with _ | sealed
    · rcases hresp : c.req.inputResponses with _ | responses <;>
        simp [hform, hstate, hresp, modernOpenIdbBackgroundDecision] at h
    simp only [hform, hstate, Option.isNone_some, Bool.false_and, Bool.not_true, Bool.and_false,
      modernOpenIdbBackgroundDecision] at h
    rcases hopen : codec.openWith sealed (associatedData c.path size) s.now with _ | opened
    · simp [hopen] at h
    by_cases hstage : opened = stage
    · subst hstage
      rcases hresp : c.req.inputResponses.bind (·.lookup inputKey) with _ | response
      · simp [hopen, hresp] at h
      rcases hreply : elicitResult response with _ | reply
      · simp [hopen, hresp, hreply] at h
      have hbackground : replyBackground reply = background := by simpa [hopen, hresp, hreply] using h
      exact ⟨size, sealed, rfl, rfl, rfl, rfl, hopen, by simp [replied, hresp, hreply, hbackground]⟩
    · simp [hopen, hstage] at h

/-! ### Runs -/

/-- A question of this server that an opened call answers in time. -/
structure Confirmed (elicitResult : Json → Option (ElicitationAction × Option Json)) (mode : ServerMode)
    (o : Opened Token) (p : Prompt Token) : Prop where
  requestState : o.call.req.requestState = some p.requestState
  path : p.path = o.call.path
  size : o.call.largeInputSize mode = some p.sizeBytes
  after : p.askedAt ≤ o.openedAt
  intime : o.openedAt ≤ p.askedAt + openIdbRequestStateTtlSecs
  reply : replied elicitResult o.call.req.inputResponses = some o.background

/-- What has been asked: in the past, and with a seal of ten minutes. -/
structure Asked (codec : Codec Token) (s : Server Token) : Prop where
  asked : ∀ p ∈ s.prompts, p.askedAt ≤ s.now
  sealed : ∀ p ∈ s.prompts, ∃ nonce, p.requestState =
    codec.sealWith nonce stage (associatedData p.path p.sizeBytes) (p.askedAt + openIdbRequestStateTtlSecs)

theorem Asked.started (codec : Codec Token) (now : Nat) : Asked codec (started now) :=
  ⟨by rintro p ⟨⟩, by rintro p ⟨⟩⟩

theorem Asked.ask (h : Asked codec s) {requestState : Token}
    (hroute : route codec elicitResult mode s c = .ok (.inputRequired requestState)) :
    Asked codec { s with prompts := ⟨requestState, c.path, (c.largeInputSize mode).getD 0, s.now⟩ :: s.prompts } := by
  refine ⟨fun p hp => ?_, fun p hp => ?_⟩
  · rcases List.mem_cons.1 hp with rfl | hp
    · exact Nat.le_refl _
    · exact h.asked p hp
  · rcases List.mem_cons.1 hp with rfl | hp
    · obtain ⟨size, hsize, rfl⟩ := route_asks hroute
      exact ⟨s.prompts.length, by rw [hsize, Option.getD_some]⟩
    · exact h.sealed p hp

theorem Asked.next (h : Asked codec s) {e : Event Token} (hstep : step codec elicitResult mode s e = some s') :
    Asked codec s' := by
  rcases step_cases hstep with ⟨secs, rfl⟩ | rfl | ⟨c, requestState, rfl, hroute, rfl⟩ | ⟨c, background, rfl, -, rfl⟩
  · exact ⟨fun p hp => Nat.le_add_right_of_le (h.asked p hp), h.sealed⟩
  · exact h
  · exact h.ask hroute
  · exact ⟨h.asked, h.sealed⟩

theorem Asked.run {C : Server Token → Event Token → Prop} {events : List (Event Token)}
    (hrun : Runs.Run (step codec elicitResult mode) C s events s') (h : Asked codec s) : Asked codec s' :=
  hrun.history (I := fun _ s => Asked codec s) (fun _ _ _ _ h _ hstep => h.next hstep) h

structure Inv (codec : Codec Token) (elicitResult : Json → Option (ElicitationAction × Option Json)) (mode : ServerMode)
    (s : Server Token) : Prop extends Asked codec s where
  opened : ∀ o ∈ s.opened, o.call.Confirms mode → ∃ p ∈ s.prompts, Confirmed elicitResult mode o p

/-- The seal in an opened call is that of a question about its own path and size. -/
theorem Inv.open (hsound : codec.Sound) (h : Inv codec elicitResult mode s) (hgenuine : Genuine codec s (.call c))
    {background : Bool} (hroute : route codec elicitResult mode s c = .ok (.ready background)) :
    Inv codec elicitResult mode { s with opened := ⟨c, background, s.now⟩ :: s.opened } := by
  refine ⟨⟨h.asked, h.sealed⟩, fun o ho hconfirms => ?_⟩
  rcases List.mem_cons.1 ho with rfl | ho
  · obtain ⟨size, sealed, hsize, -, -, hstate, hopen, hreply⟩ := route_ready hroute hconfirms
    obtain ⟨p, hp, rfl⟩ := hgenuine sealed _ _ hstate hopen
    obtain ⟨nonce, hsealed⟩ := h.sealed p hp
    rw [hsealed] at hopen
    obtain ⟨-, hdata, hnow⟩ := hsound _ _ _ _ _ _ _ hopen
    obtain ⟨hpath, rfl⟩ := associatedData_inj hdata
    exact ⟨p, hp, hstate, hpath.symm, hsize, h.asked p hp, hnow, hreply⟩
  · exact h.opened o ho hconfirms

theorem Inv.next (hsound : codec.Sound) (h : Inv codec elicitResult mode s) {e : Event Token}
    (hgenuine : Genuine codec s e) (hstep : step codec elicitResult mode s e = some s') :
    Inv codec elicitResult mode s' := by
  have hasked := h.toAsked.next hstep
  rcases step_cases hstep with ⟨secs, rfl⟩ | rfl | ⟨c, requestState, rfl, -, rfl⟩ | ⟨c, background, rfl, hroute, rfl⟩
  · exact ⟨hasked, h.opened⟩
  · exact h
  · refine ⟨hasked, fun o ho hconfirms => ?_⟩
    obtain ⟨p, hp, hconfirmed⟩ := h.opened o ho hconfirms
    exact ⟨p, List.mem_cons_of_mem _ hp, hconfirmed⟩
  · exact h.open hsound hgenuine hroute

theorem Inv.run (hsound : codec.Sound) {events : List (Event Token)}
    (hrun : Runs.Run (step codec elicitResult mode) (Genuine codec) s events s') (h : Inv codec elicitResult mode s) :
    Inv codec elicitResult mode s' :=
  hrun.history (I := fun _ s => Inv codec elicitResult mode s)
    (fun _ _ _ _ h hgenuine hstep => h.next hsound hgenuine hstep) h

/-! ### A server with a codec that hides nothing -/

namespace Sample

/-- A seal that is what was sealed. -/
def plain : Codec (Nat × String × List Char × Nat) where
  sealWith nonce payload data expires := (nonce, payload, data, expires)
  openWith token data now := if token.2.2.1 = data ∧ now < token.2.2.2 then some token.2.1 else none

def result : Json → Option (ElicitationAction × Option Json)
  | .obj kvs =>
    match kvs.lookup "action" with
    | some (.str "accept") => some (.accept, kvs.lookup "content")
    | some (.str "decline") => some (.decline, kvs.lookup "content")
    | some (.str "cancel") => some (.cancel, kvs.lookup "content")
    | _ => none
  | _ => none

def host : Host where
  sdkVersion := (9, 3)
  home := none
  isFile := (· = "/a.exe")
  findIdat := .ok "idat"
  place := id
  canonicalize := some
  hash _ := 0
  tempDir := "/tmp"

def client : Client := ⟨true, true, true⟩

/-- A call that asks for the analysis of a file of 60 MiB, with blanks around its path. -/
def call (requestState : Option (Nat × String × List Char × Nat)) (inputResponses : Option InputResponses) :
    Call (Nat × String × List Char × Nat) :=
  ⟨client, host, fun _ => 60 * 1024 * 1024, .failed, ⟨" /a.exe ", none, some true, requestState, inputResponses⟩⟩

def token : Nat × String × List Char × Nat := (0, stage, associatedData "/a.exe" (60 * 1024 * 1024), 700)

def yes : InputResponses :=
  [("background", .obj [("action", .str "accept"), ("content", .obj [("background", .bool true)])])]

theorem sound : plain.Sound := by
  intro nonce payload data expires data' now payload' h
  simp only [plain] at h
  split at h
  · rename_i hguard
    exact ⟨(Option.some.inj h).symm, hguard.1.symm, hguard.2.le⟩
  · cases h

theorem complete : plain.Complete := by
  intro nonce payload data expires now h
  exact if_pos ⟨rfl, h⟩

/-- The call is made, the user thinks for five seconds, and the client calls again. -/
theorem run : Runs.Run (step plain result .stdio) (Genuine plain) (started 100)
    [.call (call none none), .tick 5, .call (call (some token) (some yes))]
    ⟨105, [⟨token, "/a.exe", 60 * 1024 * 1024, 100⟩], [⟨call (some token) (some yes), true, 105⟩]⟩ := by
  refine .cons (by rintro _ _ _ ⟨⟩) rfl (.cons trivial rfl (.cons ?_ rfl (.nil _)))
  rintro sealed data payload hstate -
  obtain rfl := Option.some.inj hstate
  exact ⟨_, List.mem_cons_self, rfl⟩

end Sample

/-! ### No open without a reply -/

/-- Whatever clients send and in whatever order, a call that has to carry a confirmation is opened only as the reply to a
question the server has sent for the same path and size, no more than ten minutes before, and as this reply says. -/
theorem opens_confirmed (hsound : codec.Sound) {start : Nat} {events : List (Event Token)}
    (hrun : Runs.Run (step codec elicitResult mode) (Genuine codec) (started start) events s) :
    ∀ o ∈ s.opened, o.call.Confirms mode → ∃ p ∈ s.prompts, Confirmed elicitResult mode o p :=
  (Inv.run hsound hrun ⟨.started codec start, by rintro o ⟨⟩⟩).opened

theorem opens_confirmed_sample : ∃ p ∈ [(⟨Sample.token, "/a.exe", 60 * 1024 * 1024, 100⟩ : Prompt _)],
    Confirmed Sample.result .stdio ⟨Sample.call (some Sample.token) (some Sample.yes), true, 105⟩ p :=
  opens_confirmed Sample.sound Sample.run _ List.mem_cons_self (.inl (by rintro ⟨⟩))

/-! ### A reply in time -/

variable {p : Prompt Token} {background : Bool}

/-- A reply in time to a question about the same path and size. -/
structure Answers (elicitResult : Json → Option (ElicitationAction × Option Json)) (mode : ServerMode) (now : Nat)
    (c : Call Token) (p : Prompt Token) (background : Bool) : Prop where
  client : c.client.modern = true ∧ c.client.form = true
  requestState : c.req.requestState = some p.requestState
  path : c.path = p.path
  size : c.largeInputSize mode = some p.sizeBytes
  intime : now < p.askedAt + openIdbRequestStateTtlSecs
  reply : replied elicitResult c.req.inputResponses = some background

theorem route_of_answers (hcomplete : codec.Complete) (h : Asked codec s) (hp : p ∈ s.prompts)
    (hanswers : Answers elicitResult mode s.now c p background) :
    route codec elicitResult mode s c = .ok (.ready background) := by
  obtain ⟨⟨hmodern, hform⟩, hstate, hpath, hsize, hnow, hreply⟩ := hanswers
  obtain ⟨nonce, hsealed⟩ := h.sealed p hp
  have hopen : codec.openWith p.requestState (associatedData c.path p.sizeBytes) s.now = some stage := by
    rw [hpath, hsealed]
    exact hcomplete nonce stage (associatedData p.path p.sizeBytes) (p.askedAt + openIdbRequestStateTtlSecs) s.now hnow
  obtain ⟨reply, hresult, rfl⟩ := Option.map_eq_some_iff.1 hreply
  obtain ⟨response, hresponse, hresult⟩ := Option.bind_eq_some_iff.1 hresult
  simp [route, hsize, chooseOpenIdbBackground, hmodern, modernChooseOpenIdbBackground, hstate, hform,
    modernOpenIdbBackgroundDecision, hopen, hresponse, hresult]

/-- The question is for calls that ask for the analysis only. -/
theorem autoAnalyse_of_largeInputSize {size : Nat} (h : c.largeInputSize mode = some size) :
    c.req.autoAnalyse.getD false = true := by
  unfold Call.largeInputSize at h
  split at h
  · rename_i hlarge
    simp only [Bool.and_eq_true] at hlarge
    exact hlarge.1.2
  · cases h

/-- However many calls, replayed and forged ones too, have come before: a reply in time to any question of the server
opens the input, and the analysis runs in the background or in the call, as the reply says. -/
theorem answer_opens (hcomplete : codec.Complete) {C : Server Token → Event Token → Prop} {start : Nat}
    {events : List (Event Token)} (hrun : Runs.Run (step codec elicitResult mode) C (started start) events s)
    (hp : p ∈ s.prompts) (hanswers : Answers elicitResult mode s.now c p background)
    (hvalid : c.host.validatePath c.path = true) {timeout : Option Nat}
    (htimeout : parseOptionalUnsigned IntTy.u64 c.req.timeoutSecs "timeout_secs" = .ok timeout) :
    (openIdb codec elicitResult mode s c).2 = .opens (!background) background := by
  have hroute := route_of_answers hcomplete (Asked.run hrun (.started codec start)) hp hanswers
  have hauto := autoAnalyse_of_largeInputSize hanswers.size
  simp only [openIdb, hvalid, Bool.not_true, Bool.false_eq_true, if_false, htimeout, hroute, hauto, Bool.true_and]

/-- The same reply, sent once more. -/
theorem answer_opens_sample :
    (openIdb Sample.plain Sample.result .stdio
      ⟨105, [⟨Sample.token, "/a.exe", 60 * 1024 * 1024, 100⟩],
        [⟨Sample.call (some Sample.token) (some Sample.yes), true, 105⟩]⟩
      (Sample.call (some Sample.token) (some Sample.yes))).2 = .opens (!true) true :=
  answer_opens Sample.complete Sample.run List.mem_cons_self ⟨⟨rfl, rfl⟩, rfl, rfl, rfl, by decide, rfl⟩ rfl rfl

end IdaRs.OpenConfirm
