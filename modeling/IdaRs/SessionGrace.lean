import Mathlib.Algebra.Order.Group.Nat
import Mathlib.Data.List.Count
import IdaRs.Lib.Runs

/-!
# The grace of an abandoned session (`src/server/http_config.rs` 157-343)

`SessionDisconnectRegistry` counts the open streams of each session and remembers the generation of the last stream
that was dropped as abandoned. When the last stream closes after one was, a timer is spawned; it closes the session
if the generation is still the abandoned one and no stream is open. `session_closed` takes the entry out, so the next
stream starts again at generation 1: a timer is safe as long as no such entry is made while a stream or a timer of
the old one is left (`Fresh`).

Left out: the poisoned mutex (nothing panics while it is held) and `LocalSessionManager`. A `TrackedSessionStream`
gives its guard away once, so `finish` may come with either flag, once for each guard.
-/

namespace IdaRs

namespace SessionGrace

open Runs

abbrev SessionId := String

structure SessionDisconnectState where
  generation : Nat := 0
  activeStreams : Nat := 0
  abandonedGeneration : Option Nat := none
deriving DecidableEq

/-- `SessionStreamGuard`. -/
structure Guard where
  session : SessionId
  generation : Nat
deriving DecidableEq

/-- A spawned clean-up; `id` tells apart those of one session and generation. -/
structure Timer where
  id : Nat
  session : SessionId
  generation : Nat
deriving DecidableEq

/-- The registry, the guards that are not finished yet and the timers that have not decided yet. -/
structure State where
  states : SessionId → Option SessionDisconnectState
  guards : List Guard
  timers : List Timer
  nextTimer : Nat

def initial : State := ⟨fun _ => none, [], [], 0⟩

namespace State

def setState (σ : State) (s : SessionId) (st : Option SessionDisconnectState) : State :=
  { σ with states := fun s' => if s' = s then st else σ.states s' }

/-- The entry after `stream_opened`; `wrapping_add` and `saturating_add` of 64 bits. -/
def reopened (st : SessionDisconnectState) : SessionDisconnectState where
  generation := (st.generation + 1) % 2 ^ 64
  activeStreams := min (st.activeStreams + 1) (2 ^ 64 - 1)
  abandonedGeneration := none

def streamOpened (σ : State) (s : SessionId) : State :=
  let st := reopened ((σ.states s).getD {})
  { σ.setState s (some st) with guards := ⟨s, st.generation⟩ :: σ.guards }

def sessionClosed (σ : State) (s : SessionId) : State := σ.setState s none

/-- The entry after a stream of `generation` closed. -/
def left (st : SessionDisconnectState) (generation : Nat) (abandoned : Bool) : SessionDisconnectState :=
  { st with
    activeStreams := st.activeStreams - 1
    abandonedGeneration := if abandoned then some generation else st.abandonedGeneration }

def spawn (σ : State) (s : SessionId) (generation : Nat) : State :=
  { σ with timers := ⟨σ.nextTimer, s, generation⟩ :: σ.timers, nextTimer := σ.nextTimer + 1 }

/-- `stream_closed`; without a runtime the entry is taken out instead. -/
def streamClosed (σ : State) (s : SessionId) (generation : Nat) (abandoned runtime : Bool) : State :=
  match σ.states s with
  | none => σ
  | some st =>
    let st := left st generation abandoned
    let σ := σ.setState s (some st)
    match if st.activeStreams = 0 then st.abandonedGeneration else none with
    | none => σ
    | some closeGeneration => if runtime then σ.spawn s closeGeneration else σ.sessionClosed s

def shouldClose (σ : State) (s : SessionId) (generation : Nat) : Bool :=
  match σ.states s with
  | some st => st.abandonedGeneration == some generation && st.activeStreams == 0
  | none => false

end State

/-- `sessionClosed` comes from `close_session` and from a timer that decided to close. -/
inductive Event
  | streamOpened (s : SessionId)
  | finish (g : Guard) (abandoned runtime : Bool)
  | sessionClosed (s : SessionId)
  | timer (t : Timer)
deriving DecidableEq

open State in
def step (σ : State) : Event → Option State
  | .streamOpened s => some (σ.streamOpened s)
  | .finish g abandoned runtime =>
    if g ∈ σ.guards then
      some (streamClosed { σ with guards := σ.guards.erase g } g.session g.generation abandoned runtime)
    else none
  | .sessionClosed s => some (σ.sessionClosed s)
  -- the decision itself changes nothing: what follows it is a `sessionClosed`
  | .timer t => if t ∈ σ.timers then some { σ with timers := σ.timers.erase t } else none

/-- An entry is made only if nothing of an earlier one of the session is left. -/
def Fresh (σ : State) : Event → Prop
  | .streamOpened s =>
    σ.states s = none → (∀ g ∈ σ.guards, g.session ≠ s) ∧ ∀ t ∈ σ.timers, t.session ≠ s
  | _ => True

/-! ## The entries -/

/-- How often a stream of `s` was opened. -/
def opens (es : List Event) (s : SessionId) : Nat := es.count (.streamOpened s)

/-- The streams of `s` that are open. -/
def openStreams (σ : State) (s : SessionId) : Nat := σ.guards.countP (·.session = s)

/-- The entry of a session that was opened `n` times. -/
structure EntryOk (σ : State) (s : SessionId) (n : Nat) (st : SessionDisconnectState) : Prop where
  generation : st.generation ≤ n
  active : st.activeStreams = openStreams σ s
  guards : ∀ g ∈ σ.guards, g.session = s → g.generation ≤ st.generation
  abandoned : ∀ x, st.abandonedGeneration = some x → x ≤ st.generation
  -- no guard that is left can make the generation of a timer the abandoned one again
  timers : ∀ t ∈ σ.timers, t.session = s → t.generation ≤ st.generation ∧
    ∀ g ∈ σ.guards, g.session = s → g.generation ≠ t.generation

structure Inv (es : List Event) (σ : State) : Prop where
  count : ∀ s, openStreams σ s ≤ opens es s
  entry : ∀ s st, σ.states s = some st → EntryOk σ s (opens es s) st
  ids : ∀ t ∈ σ.timers, t.id < σ.nextTimer

theorem inv_initial : Inv [] initial := by
  refine ⟨fun s => Nat.zero_le _, fun s st h => ?_, fun t h => ?_⟩
  · cases h
  · cases h

@[simp] theorem setState_self (σ : State) (s : SessionId) (st : Option SessionDisconnectState) :
    (σ.setState s st).states s = st := if_pos rfl

theorem setState_ne (σ : State) {s s' : SessionId} (st : Option SessionDisconnectState) (h : s' ≠ s) :
    (σ.setState s st).states s' = σ.states s' := if_neg h

theorem openStreams_eq_zero {σ : State} {s : SessionId} :
    openStreams σ s = 0 ↔ ∀ g ∈ σ.guards, g.session ≠ s := by
  simp [openStreams, List.countP_eq_zero]

/-- An entry does not depend on the streams and timers of other sessions, nor on streams that are gone. -/
theorem EntryOk.frame {σ σ' : State} {s : SessionId} {n n' : Nat} {st : SessionDisconnectState}
    (h : EntryOk σ s n st) (hn : n ≤ n') (hc : openStreams σ' s = openStreams σ s)
    (hg : ∀ g ∈ σ'.guards, g.session = s → g ∈ σ.guards) (ht : ∀ t ∈ σ'.timers, t.session = s → t ∈ σ.timers) :
    EntryOk σ' s n' st where
  generation := h.generation.trans hn
  active := h.active.trans hc.symm
  guards g hmem hs := h.guards g (hg g hmem hs) hs
  abandoned := h.abandoned
  timers t hmem hs := by
    obtain ⟨hle, hne⟩ := h.timers t (ht t hmem hs) hs
    exact ⟨hle, fun g hg' hs' => hne g (hg g hg' hs') hs'⟩

section

variable {es : List Event} {σ : State} {s : SessionId}

/-- The entry a stream is opened in, made if there is none. -/
theorem Inv.entry_getD (h : Inv es σ) (hf : Fresh σ (.streamOpened s)) :
    EntryOk σ s (opens es s) ((σ.states s).getD {}) := by
  cases hst : σ.states s with
  | some st => exact h.entry s st hst
  | none =>
    obtain ⟨hg, ht⟩ := hf hst
    exact
      { generation := Nat.zero_le _
        active := (openStreams_eq_zero.2 hg).symm
        guards := fun g hmem hs => (hg g hmem hs).elim
        abandoned := fun x hx => by cases hx
        timers := fun t hmem hs => (ht t hmem hs).elim }

/-- The new generation is above every one that is in use. -/
theorem EntryOk.reopened {n : Nat} {old : SessionDisconnectState} {σ' : State} (h : EntryOk σ s n old)
    (hcount : openStreams σ s ≤ n) (hn : n + 1 < 2 ^ 64) (hc : openStreams σ' s = openStreams σ s + 1)
    (hg : σ'.guards = ⟨s, (State.reopened old).generation⟩ :: σ.guards) (ht : σ'.timers = σ.timers) :
    EntryOk σ' s (n + 1) (State.reopened old) := by
  have hgen : (State.reopened old).generation = old.generation + 1 := by
    have := h.generation
    exact Nat.mod_eq_of_lt (by omega)
  have hactive : (State.reopened old).activeStreams = old.activeStreams + 1 := by
    have := h.active
    exact Nat.min_eq_left (by omega)
  rw [hgen] at hg
  refine ⟨?_, ?_, fun g hmem hs => ?_, fun x hx => ?_, fun t hmem hs => ⟨?_, fun g hgm hgs => ?_⟩⟩
  · rw [hgen]
    exact Nat.succ_le_succ h.generation
  · rw [hactive, hc, h.active]
  · rw [hgen]
    rw [hg, List.mem_cons] at hmem
    rcases hmem with rfl | hmem
    · exact le_rfl
    · exact Nat.le_succ_of_le (h.guards g hmem hs)
  · cases hx
  · rw [ht] at hmem
    rw [hgen]
    exact Nat.le_succ_of_le (h.timers t hmem hs).1
  · rw [ht] at hmem
    obtain ⟨hle, hne⟩ := h.timers t hmem hs
    rw [hg, List.mem_cons] at hgm
    rcases hgm with rfl | hgm
    · exact (Nat.lt_succ_of_le hle).ne'
    · exact hne g hgm hgs

theorem Inv.streamOpened (h : Inv es σ) (hf : Fresh σ (.streamOpened s))
    (hn : opens (es ++ [Event.streamOpened s]) s < 2 ^ 64) : Inv (es ++ [Event.streamOpened s]) (σ.streamOpened s) := by
  have hopen : opens (es ++ [Event.streamOpened s]) s = opens es s + 1 := by simp [opens]
  have hother : ∀ s', s' ≠ s → opens (es ++ [Event.streamOpened s]) s' = opens es s' := by
    intro s' hs
    simp [opens, Ne.symm hs]
  have hcount : openStreams (σ.streamOpened s) s = openStreams σ s + 1 := by simp [openStreams, State.streamOpened]
  have hsame : ∀ s', s' ≠ s → openStreams (σ.streamOpened s) s' = openStreams σ s' := by
    intro s' hs
    simp [openStreams, State.streamOpened, Ne.symm hs]
  have hold := h.entry_getD hf
  have hbound := h.count s
  refine ⟨fun s' => ?_, fun s' st hst => ?_, h.ids⟩
  · by_cases hs : s' = s
    · subst hs
      omega
    · rw [hsame s' hs, hother s' hs]
      exact h.count s'
  · by_cases hs : s' = s
    · subst hs
      obtain rfl : State.reopened ((σ.states s').getD {}) = st := Option.some.inj ((if_pos rfl).symm.trans hst)
      rw [hopen]
      exact hold.reopened hbound (hopen ▸ hn) hcount rfl rfl
    · have hst' : σ.states s' = some st := (if_neg hs).symm.trans hst
      refine (h.entry s' st hst').frame (hother s' hs).ge (hsame s' hs) (fun g hg hgs => ?_) fun t ht _ => ht
      rcases List.mem_cons.1 hg with rfl | hg
      · exact (hs hgs.symm).elim
      · exact hg

theorem Inv.sessionClosed (h : Inv es σ) (s : SessionId) : Inv (es ++ [Event.sessionClosed s]) (σ.sessionClosed s) := by
  have hopens : ∀ s', opens (es ++ [Event.sessionClosed s]) s' = opens es s' := fun s' => by simp [opens]
  refine ⟨fun s' => ?_, fun s' st hst => ?_, h.ids⟩
  · rw [hopens]
    exact h.count s'
  · by_cases hs : s' = s
    · subst hs
      rw [State.sessionClosed, setState_self] at hst
      cases hst
    · rw [State.sessionClosed, setState_ne _ _ hs] at hst
      exact (h.entry s' st hst).frame (hopens s').ge rfl (fun _ hg _ => hg) fun _ ht _ => ht

theorem Inv.timer (h : Inv es σ) (t : Timer) : Inv (es ++ [Event.timer t]) { σ with timers := σ.timers.erase t } := by
  have hopens : ∀ s', opens (es ++ [Event.timer t]) s' = opens es s' := fun s' => by simp [opens]
  refine ⟨fun s' => ?_, fun s' st hst => ?_, fun t' ht => h.ids t' (List.mem_of_mem_erase ht)⟩
  · rw [hopens]
    exact h.count s'
  · exact (h.entry s' st hst).frame (hopens s').ge rfl (fun _ hg _ => hg) fun _ ht _ => List.mem_of_mem_erase ht

/-- What a closing stream does to the registry. -/
theorem streamClosed_cases (σ : State) (s : SessionId) (generation : Nat) (abandoned runtime : Bool) :
    (σ.states s = none ∧ σ.streamClosed s generation abandoned runtime = σ) ∨
    ∃ st, σ.states s = some st ∧
      (σ.streamClosed s generation abandoned runtime = σ.setState s (some (State.left st generation abandoned)) ∨
        ∃ x, (State.left st generation abandoned).abandonedGeneration = some x ∧
          (State.left st generation abandoned).activeStreams = 0 ∧
          (σ.streamClosed s generation abandoned runtime =
              (σ.setState s (some (State.left st generation abandoned))).spawn s x ∨
            σ.streamClosed s generation abandoned runtime =
              (σ.setState s (some (State.left st generation abandoned))).sessionClosed s)) := by
  unfold State.streamClosed
  cases hst : σ.states s with
  | none => exact .inl ⟨rfl, rfl⟩
  | some st =>
    refine .inr ⟨st, rfl, ?_⟩
    dsimp only
    split
    · exact .inl rfl
    · rename_i x hx
      have hactive : (State.left st generation abandoned).activeStreams = 0 := by
        by_contra hne
        rw [if_neg hne] at hx
        cases hx
      rw [if_pos hactive] at hx
      refine .inr ⟨x, hx, hactive, ?_⟩
      cases runtime
      · exact .inr rfl
      · exact .inl rfl

theorem EntryOk.left_abandoned {n x : Nat} {st : SessionDisconnectState} {g : Guard} {abandoned : Bool}
    (h : EntryOk σ g.session n st) (hmem : g ∈ σ.guards)
    (hx : (State.left st g.generation abandoned).abandonedGeneration = some x) : x ≤ st.generation := by
  cases abandoned with
  | true =>
    obtain rfl := Option.some.inj hx
    exact h.guards g hmem rfl
  | false => exact h.abandoned x hx

/-- The entry after a stream of its session closed. -/
theorem EntryOk.left {n : Nat} {st : SessionDisconnectState} {g : Guard} {abandoned : Bool} {σ' : State}
    (h : EntryOk σ g.session n st) (hmem : g ∈ σ.guards) (hg : σ'.guards = σ.guards.erase g)
    (ht : ∀ t ∈ σ'.timers, t.session = g.session → t ∈ σ.timers ∨
      (State.left st g.generation abandoned).activeStreams = 0 ∧ t.generation ≤ st.generation) :
    EntryOk σ' g.session n (State.left st g.generation abandoned) := by
  have hsub : ∀ g' ∈ σ'.guards, g' ∈ σ.guards := fun g' hg' => List.mem_of_mem_erase (hg ▸ hg')
  have hactive : (State.left st g.generation abandoned).activeStreams = openStreams σ' g.session := by
    show st.activeStreams - 1 = _
    rw [h.active, openStreams, openStreams, hg, List.countP_erase, if_pos ⟨hmem, by simp⟩]
  refine ⟨h.generation, hactive, fun g' hg' hs => h.guards g' (hsub g' hg') hs,
    fun x hx => h.left_abandoned hmem hx, fun t hmem' hs => ?_⟩
  rcases ht t hmem' hs with hold | ⟨hzero, hle⟩
  · obtain ⟨hle, hne⟩ := h.timers t hold hs
    exact ⟨hle, fun g' hg' hs' => hne g' (hsub g' hg') hs'⟩
  · rw [hactive, openStreams_eq_zero] at hzero
    exact ⟨hle, fun g' hg' hs' => (hzero g' hg' hs').elim⟩

/-- A stream of one session closed: the entries of the others stand. -/
theorem Inv.closed (h : Inv es σ) {g : Guard} {e : Event} {σ' : State} (he : ∀ s, opens (es ++ [e]) s = opens es s)
    (hg : σ'.guards = σ.guards.erase g) (hst : ∀ s, s ≠ g.session → σ'.states s = σ.states s)
    (ht : ∀ t ∈ σ'.timers, t.session ≠ g.session → t ∈ σ.timers) (hid : ∀ t ∈ σ'.timers, t.id < σ'.nextTimer)
    (hown : ∀ st, σ'.states g.session = some st → EntryOk σ' g.session (opens es g.session) st) :
    Inv (es ++ [e]) σ' := by
  refine ⟨fun s => ?_, fun s st hs => ?_, hid⟩
  · rw [he, openStreams, hg]
    exact ((List.erase_sublist ..).countP_le).trans (h.count s)
  · rw [he]
    by_cases hsg : s = g.session
    · subst hsg
      exact hown st hs
    · rw [hst s hsg] at hs
      refine (h.entry s st hs).frame le_rfl ?_ (fun g' hg' _ => List.mem_of_mem_erase (hg ▸ hg'))
        fun t hmem hts => ht t hmem (hts ▸ hsg)
      rw [openStreams, openStreams, hg, List.countP_erase, if_neg (by simp [Ne.symm hsg]), Nat.sub_zero]

theorem Inv.finish (h : Inv es σ) {g : Guard} (hmem : g ∈ σ.guards) (abandoned runtime : Bool) :
    Inv (es ++ [Event.finish g abandoned runtime])
      (State.streamClosed { σ with guards := σ.guards.erase g } g.session g.generation abandoned runtime) := by
  have he : ∀ s', opens (es ++ [Event.finish g abandoned runtime]) s' = opens es s' := fun s' => by simp [opens]
  obtain ⟨hnone, hr⟩ | ⟨st, hst, hr | ⟨x, hx, hzero, hr | hr⟩⟩ :=
    streamClosed_cases { σ with guards := σ.guards.erase g } g.session g.generation abandoned runtime
  · rw [hr]
    refine h.closed he rfl (fun _ _ => rfl) (fun _ ht _ => ht) h.ids fun st hst => ?_
    rw [hnone] at hst
    cases hst
  · rw [hr]
    refine h.closed he rfl (fun _ hs => setState_ne _ _ hs) (fun _ ht _ => ht) h.ids fun st' hst' => ?_
    rw [setState_self] at hst'
    obtain rfl := Option.some.inj hst'
    exact (h.entry g.session st hst).left hmem rfl fun _ ht _ => .inl ht
  · rw [hr]
    have hleft : EntryOk ((State.setState { σ with guards := σ.guards.erase g } g.session
        (some (State.left st g.generation abandoned))).spawn g.session x) g.session (opens es g.session)
        (State.left st g.generation abandoned) := by
      refine (h.entry g.session st hst).left hmem rfl fun t ht _ => ?_
      rcases List.mem_cons.1 ht with rfl | ht
      · exact .inr ⟨hzero, (h.entry g.session st hst).left_abandoned hmem hx⟩
      · exact .inl ht
    refine h.closed he rfl (fun _ hs => setState_ne _ _ hs) (fun t ht hs => ?_) (fun t ht => ?_) fun st' hst' => ?_
    · rcases List.mem_cons.1 ht with rfl | ht
      · exact (hs rfl).elim
      · exact ht
    · rcases List.mem_cons.1 ht with rfl | ht
      · exact Nat.lt_succ_self _
      · exact Nat.lt_succ_of_lt (h.ids t ht)
    · obtain rfl : State.left st g.generation abandoned = st' := Option.some.inj ((if_pos rfl).symm.trans hst')
      exact hleft
  · rw [hr]
    refine h.closed he rfl (fun s hs => ?_) (fun _ ht _ => ht) h.ids fun st' hst' => ?_
    · rw [State.sessionClosed, setState_ne _ _ hs, setState_ne _ _ hs]
    · rw [State.sessionClosed, setState_self] at hst'
      cases hst'

theorem Inv.step (h : Inv es σ) {e : Event} {σ' : State} (hf : Fresh σ e) (hs : SessionGrace.step σ e = some σ')
    (hn : ∀ s, opens (es ++ [e]) s < 2 ^ 64) : Inv (es ++ [e]) σ' := by
  cases e with
  | streamOpened s =>
    obtain rfl := Option.some.inj hs
    exact h.streamOpened hf (hn s)
  | finish g abandoned runtime =>
    rw [SessionGrace.step] at hs
    split at hs
    · rename_i hmem
      obtain rfl := Option.some.inj hs
      exact h.finish hmem abandoned runtime
    · cases hs
  | sessionClosed s =>
    obtain rfl := Option.some.inj hs
    exact h.sessionClosed s
  | timer t =>
    rw [SessionGrace.step] at hs
    split at hs
    · obtain rfl := Option.some.inj hs
      exact h.timer t
    · cases hs

theorem Inv.run {fs : List Event} {σ' : State} (h : Inv es σ) (hr : Run SessionGrace.step Fresh σ fs σ')
    (hn : ∀ s, opens (es ++ fs) s < 2 ^ 64) : Inv (es ++ fs) σ' := by
  refine hr.invariant (I := fun es σ => (∀ s, opens es s < 2 ^ 64) → Inv es σ) ?_ (fun _ => h) hn
  intro hist σ e σ' ih hf hs hn
  refine (ih fun s => lt_of_le_of_lt ?_ (hn s)).step hf hs hn
  exact (List.sublist_append_left ..).count_le _

end

/-! ## The timers -/

/-- What a step does to the entry of one session. -/
theorem step_entry {σ σ' : State} {e : Event} (hs : step σ e = some σ') (s : SessionId) :
    (e ≠ .streamOpened s ∧ σ'.states s = σ.states s) ∨ σ'.states s = none ∨
      (e = .streamOpened s ∧ ∃ st, σ'.states s = some (State.reopened st)) ∨
      ∃ g abandoned runtime st, e = .finish g abandoned runtime ∧ g ∈ σ.guards ∧ g.session = s ∧
        σ.states s = some st ∧ σ'.states s = some (State.left st g.generation abandoned) := by
  cases e with
  | streamOpened s' =>
    obtain rfl := Option.some.inj hs
    by_cases h : s = s'
    · subst h
      exact .inr (.inr (.inl ⟨rfl, _, if_pos rfl⟩))
    · exact .inl ⟨fun he => h (Event.streamOpened.inj he).symm, if_neg h⟩
  | finish g abandoned runtime =>
    rw [step] at hs
    split at hs
    · rename_i hmem
      obtain rfl := Option.some.inj hs
      obtain ⟨-, hr⟩ | ⟨st, hst, hr⟩ :=
        streamClosed_cases { σ with guards := σ.guards.erase g } g.session g.generation abandoned runtime
      · rw [hr]
        exact .inl ⟨nofun, rfl⟩
      by_cases h : s = g.session
      · subst h
        rcases hr with hr | ⟨x, -, -, hr | hr⟩ <;> rw [hr]
        · exact .inr (.inr (.inr ⟨g, abandoned, runtime, st, rfl, hmem, rfl, hst, if_pos rfl⟩))
        · exact .inr (.inr (.inr ⟨g, abandoned, runtime, st, rfl, hmem, rfl, hst, if_pos rfl⟩))
        · exact .inr (.inl (if_pos rfl))
      · refine .inl ⟨nofun, ?_⟩
        rcases hr with hr | ⟨x, -, -, hr | hr⟩ <;> rw [hr]
        · exact setState_ne _ _ h
        · exact setState_ne _ _ h
        · rw [State.sessionClosed, setState_ne _ _ h, setState_ne _ _ h]
    · cases hs
  | sessionClosed s' =>
    obtain rfl := Option.some.inj hs
    by_cases h : s = s'
    · exact .inr (.inl (if_pos h))
    · exact .inl ⟨nofun, if_neg h⟩
  | timer t =>
    rw [step] at hs
    split at hs
    · obtain rfl := Option.some.inj hs
      exact .inl ⟨nofun, rfl⟩
    · cases hs

/-- A timer is new only if the last stream of its session closed just now. -/
theorem step_timers {σ σ' : State} {e : Event} (hs : step σ e = some σ') :
    σ.nextTimer ≤ σ'.nextTimer ∧ ∀ t ∈ σ'.timers, t ∈ σ.timers ∨ t.id = σ.nextTimer ∧
      ∃ st, σ'.states t.session = some st ∧ st.activeStreams = 0 ∧ st.abandonedGeneration = some t.generation := by
  cases e with
  | streamOpened s =>
    obtain rfl := Option.some.inj hs
    exact ⟨le_rfl, fun t ht => .inl ht⟩
  | finish g abandoned runtime =>
    rw [step] at hs
    split at hs
    · obtain rfl := Option.some.inj hs
      obtain ⟨-, hr⟩ | ⟨st, -, hr | ⟨x, hx, hzero, hr | hr⟩⟩ :=
        streamClosed_cases { σ with guards := σ.guards.erase g } g.session g.generation abandoned runtime
      · rw [hr]
        exact ⟨le_rfl, fun t ht => .inl ht⟩
      · rw [hr]
        exact ⟨le_rfl, fun t ht => .inl ht⟩
      · rw [hr]
        refine ⟨Nat.le_succ _, fun t ht => ?_⟩
        rcases List.mem_cons.1 ht with rfl | ht
        · exact .inr ⟨rfl, _, if_pos rfl, hzero, hx⟩
        · exact .inl ht
      · rw [hr]
        exact ⟨le_rfl, fun t ht => .inl ht⟩
    · cases hs
  | sessionClosed s =>
    obtain rfl := Option.some.inj hs
    exact ⟨le_rfl, fun t ht => .inl ht⟩
  | timer t =>
    rw [step] at hs
    split at hs
    · obtain rfl := Option.some.inj hs
      exact ⟨le_rfl, fun t ht => .inl (List.mem_of_mem_erase ht)⟩
    · cases hs

/-- The generation of the timer is not the abandoned one. -/
def Spent (σ : State) (t : Timer) : Prop :=
  ∀ st, σ.states t.session = some st → st.abandonedGeneration ≠ some t.generation

theorem not_shouldClose_of_spent {σ : State} {t : Timer} (h : Spent σ t) : ¬ σ.shouldClose t.session t.generation := by
  intro hclose
  unfold State.shouldClose at hclose
  split at hclose
  · rename_i st hst
    simp only [Bool.and_eq_true, beq_iff_eq] at hclose
    exact h st hst hclose.1
  · cases hclose

theorem Spent.step {es : List Event} {σ σ' : State} {e : Event} {t : Timer} (h : Spent σ t) (hi : Inv es σ)
    (ht : t ∈ σ.timers) (hs : SessionGrace.step σ e = some σ') : Spent σ' t := by
  intro st' hst'
  obtain ⟨-, heq⟩ | hnone | ⟨-, st, hre⟩ | ⟨g, abandoned, runtime, st, rfl, hg, hgs, hst, hleft⟩ :=
    step_entry hs t.session
  · exact h st' (heq ▸ hst')
  · rw [hnone] at hst'
    cases hst'
  · rw [hre] at hst'
    obtain rfl := Option.some.inj hst'
    nofun
  · rw [hleft] at hst'
    obtain rfl := Option.some.inj hst'
    intro hx
    cases abandoned with
    | true =>
      exact ((hi.entry t.session st hst).timers t ht rfl).2 g hg hgs (Option.some.inj hx)
    | false => exact h st hst hx

/-- A timer that is left at the end was there all along, unless it is new. -/
theorem mem_timers_of_run {σ σ' : State} {es : List Event} {t : Timer} (hr : Run step Fresh σ es σ')
    (ht : t ∈ σ'.timers) (hid : t.id < σ.nextTimer) : t ∈ σ.timers := by
  induction hr with
  | nil => exact ht
  | cons hC hs hr ih =>
    obtain ⟨hle, hmem⟩ := step_timers hs
    rcases hmem t (ih ht (hid.trans_le hle)) with hold | ⟨hnew, -⟩
    · exact hold
    · exact (hid.ne hnew).elim

theorem Spent.run {es fs : List Event} {σ σ' : State} {t : Timer} (h : Spent σ t) (hi : Inv es σ) (ht : t ∈ σ'.timers)
    (hid : t.id < σ.nextTimer) (hr : Run SessionGrace.step Fresh σ fs σ') (hn : ∀ s, opens (es ++ fs) s < 2 ^ 64) :
    Spent σ' t := by
  induction hr generalizing es with
  | nil => exact h
  | @cons σ σ₁ σ' e fs hC hs hr ih =>
    rw [List.append_cons] at hn
    have hmem := mem_timers_of_run (.cons hC hs hr) ht hid
    have hlt : ∀ s, opens (es ++ [e]) s < 2 ^ 64 := fun s =>
      lt_of_le_of_lt ((List.sublist_append_left ..).count_le _) (hn s)
    exact ih (h.step hi hmem hs) (hi.step hC hs hlt) ht (hid.trans_le (step_timers hs).1) hn

/-- Where an abandoned generation comes from: a stream of the session dropped as abandoned, and none opened since. -/
def AbandonedBy (es : List Event) (s : SessionId) : Prop :=
  ∃ before g runtime after, es = before ++ .finish g true runtime :: after ∧ g.session = s ∧ .streamOpened s ∉ after

theorem AbandonedBy.snoc {es : List Event} {s : SessionId} {e : Event} (h : AbandonedBy es s)
    (he : e ≠ .streamOpened s) : AbandonedBy (es ++ [e]) s := by
  obtain ⟨before, g, runtime, after, rfl, hs, hafter⟩ := h
  refine ⟨before, g, runtime, after ++ [e], by simp, hs, ?_⟩
  rw [List.mem_append, List.mem_singleton]
  rintro (h | rfl)
  · exact hafter h
  · exact he rfl

theorem abandonedBy_of_run {C : State → Event → Prop} {es : List Event} {σ : State} (hr : Run step C initial es σ)
    {s : SessionId} {st : SessionDisconnectState} (hst : σ.states s = some st) (hx : st.abandonedGeneration ≠ none) :
    AbandonedBy es s := by
  refine Run.history (I := fun es σ => ∀ s st, σ.states s = some st → st.abandonedGeneration ≠ none →
    AbandonedBy es s) ?_ hr (fun _ _ h => by cases h) s st hst hx
  intro hist σ e σ' ih _ hs s st' hst' hx
  obtain ⟨he, heq⟩ | hnone | ⟨-, st, hre⟩ | ⟨g, abandoned, runtime, st, rfl, hg, hgs, hst, hleft⟩ := step_entry hs s
  · exact (ih s st' (heq ▸ hst') hx).snoc he
  · rw [hnone] at hst'
    cases hst'
  · rw [hre] at hst'
    obtain rfl := Option.some.inj hst'
    exact (hx rfl).elim
  · rw [hleft] at hst'
    obtain rfl := Option.some.inj hst'
    cases abandoned with
    | true => exact ⟨hist, g, runtime, [], rfl, hgs, nofun⟩
    | false => exact (ih s st hst hx).snoc nofun

/-! ## The decision -/

theorem openStreams_step {σ σ' : State} {e : Event} {s : SessionId} (h : openStreams σ s = 0)
    (he : e ≠ .streamOpened s) (hs : step σ e = some σ') : openStreams σ' s = 0 := by
  rw [openStreams_eq_zero] at h ⊢
  intro g hg
  cases e with
  | streamOpened s' =>
    obtain rfl := Option.some.inj hs
    rcases List.mem_cons.1 hg with rfl | hg
    · exact fun hs => he (congrArg Event.streamOpened hs)
    · exact h g hg
  | finish g' abandoned runtime =>
    rw [step] at hs
    split at hs
    · obtain rfl := Option.some.inj hs
      have hsub : g ∈ σ.guards.erase g' := by
        obtain ⟨-, hr⟩ | ⟨st, -, hr | ⟨x, -, -, hr | hr⟩⟩ :=
          streamClosed_cases { σ with guards := σ.guards.erase g' } g'.session g'.generation abandoned runtime <;>
        · rw [hr] at hg
          exact hg
      exact h g (List.mem_of_mem_erase hsub)
    · cases hs
  | sessionClosed s' =>
    obtain rfl := Option.some.inj hs
    exact h g hg
  | timer t =>
    rw [step] at hs
    split at hs
    · obtain rfl := Option.some.inj hs
      exact h g hg
    · cases hs

theorem openStreams_run {C : State → Event → Prop} {σ σ' : State} {es : List Event} {s : SessionId}
    (hr : Run step C σ es σ') (h : openStreams σ s = 0) (he : .streamOpened s ∉ es) : openStreams σ' s = 0 := by
  induction hr with
  | nil => exact h
  | cons _ hs _ ih =>
    rw [List.mem_cons, not_or] at he
    exact ih (openStreams_step h (Ne.symm he.1) hs) he.2

/-- In a run that makes no entry while something of an earlier one is left: if a timer, scheduled by `e`, decides to
close its session, then no stream of the session was open since, none was opened, and one had been dropped as
abandoned after the last that was opened before. -/
theorem abandoned_close_undisturbed {pre mid : List Event} {e : Event} {σ₀ σ₁ σ₂ : State} {t : Timer}
    (hpre : Run step Fresh initial pre σ₀) (hfresh : Fresh σ₀ e) (he : step σ₀ e = some σ₁) (hnew : t ∉ σ₀.timers)
    (hsched : t ∈ σ₁.timers) (hmid : Run step Fresh σ₁ mid σ₂) (hpending : t ∈ σ₂.timers)
    (hclose : σ₂.shouldClose t.session t.generation) (hopens : ∀ s, opens (pre ++ e :: mid) s < 2 ^ 64) :
    (∀ during rest σ, mid = during ++ rest → Run step Fresh σ₁ during σ → openStreams σ t.session = 0) ∧
      .streamOpened t.session ∉ mid ∧ AbandonedBy (pre ++ [e]) t.session := by
  have hrun : Run step Fresh initial (pre ++ [e]) σ₁ := hpre.append (.singleton hfresh he)
  rw [List.append_cons] at hopens
  have hopens₁ : ∀ s, opens (pre ++ [e]) s < 2 ^ 64 := fun s =>
    lt_of_le_of_lt ((List.sublist_append_left ..).count_le _) (hopens s)
  have hinv₁ : Inv (pre ++ [e]) σ₁ := inv_initial.run hrun hopens₁
  obtain hold | ⟨-, st, hst, hzero, habandoned⟩ := (step_timers he).2 t hsched
  · exact (hnew hold).elim
  have hidle : openStreams σ₁ t.session = 0 := (hinv₁.entry t.session st hst).active.symm.trans hzero
  have hno : .streamOpened t.session ∉ mid := by
    intro hmem
    obtain ⟨p, q, rfl⟩ := List.append_of_mem hmem
    obtain ⟨σ, hp, hq⟩ := hmid.split
    cases hq with
    | cons hC hs hq =>
      obtain rfl := Option.some.inj hs
      have hspent : Spent (σ.streamOpened t.session) t := by
        intro st' hst'
        obtain rfl := Option.some.inj ((if_pos rfl).symm.trans hst')
        nofun
      have hto := hp.append (.singleton hC hs)
      rw [List.append_cons p, ← List.append_assoc] at hopens
      have hinv := hinv₁.run hto fun s => lt_of_le_of_lt ((List.sublist_append_left ..).count_le _) (hopens s)
      have hid : t.id < (σ.streamOpened t.session).nextTimer :=
        (hinv₁.ids t hsched).trans_le (hto.mono (f := State.nextTimer) fun _ _ _ hs => (step_timers hs).1)
      exact not_shouldClose_of_spent (hspent.run hinv hpending hid hq hopens) hclose
  refine ⟨fun during rest σ hmid' hr => openStreams_run hr hidle fun h => hno ?_, hno, ?_⟩
  · rw [hmid']
    exact List.mem_append_left _ h
  · exact abandonedBy_of_run hrun hst (by rw [habandoned]; simp)

/-- Two streams of `s` overlap with one of `t`. -/
def overlapping : List Event := [.streamOpened "s", .streamOpened "t", .streamOpened "s", .finish ⟨"s", 1⟩ false true]

/-- The events of `t` while the timer of `s` runs. -/
def meanwhile : List Event := [.streamOpened "t", .finish ⟨"t", 1⟩ true true]

/-- The last stream of `s` is dropped as abandoned; the timer finds the session as it was. -/
theorem abandoned_close_undisturbed_overlap :
    ∃ σ₀ σ₁ σ₂ : State, Run step Fresh initial overlapping σ₀ ∧ step σ₀ (.finish ⟨"s", 2⟩ true true) = some σ₁ ∧
      Run step Fresh σ₁ meanwhile σ₂ ∧ σ₂.shouldClose "s" 2 ∧
      (∀ during rest σ, meanwhile = during ++ rest → Run step Fresh σ₁ during σ → openStreams σ "s" = 0) ∧
      .streamOpened "s" ∉ meanwhile ∧ AbandonedBy (overlapping ++ [.finish ⟨"s", 2⟩ true true]) "s" := by
  have hpre : Run step Fresh initial overlapping _ :=
    .cons (fun _ => by decide) rfl (.cons (fun _ => by decide) rfl (.cons (fun h => by cases h) rfl
      (.singleton trivial rfl)))
  have hopens : ∀ s, opens (overlapping ++ Event.finish ⟨"s", 2⟩ true true :: meanwhile) s < 2 ^ 64 := fun s =>
    lt_of_le_of_lt (List.count_le_length ..) (by decide)
  refine ⟨_, _, _, hpre, rfl, .cons (fun h => by cases h) rfl (.singleton trivial rfl), by decide, ?_⟩
  exact abandoned_close_undisturbed (e := .finish ⟨"s", 2⟩ true true) (t := ⟨0, "s", 2⟩) hpre trivial rfl (by decide)
    (by decide) (.cons (fun h => by cases h) rfl (.singleton trivial rfl)) (by decide) (by decide) hopens

/-- A session whose entry was taken out while a stream was open: the stream that is opened next has generation 1 again,
the old one counts as its closing, and the timer decides to close while the new one is open. -/
theorem reopened_session_closed :
    ∃ σ₁ σ₂ : State,
      Run step (fun _ _ => True) initial [.streamOpened "s", .sessionClosed "s", .streamOpened "s"] σ₁ ∧
      step σ₁ (.finish ⟨"s", 1⟩ true true) = some σ₂ ∧ (⟨0, "s", 1⟩ : Timer) ∈ σ₂.timers ∧
      σ₂.shouldClose "s" 1 ∧ openStreams σ₂ "s" = 1 :=
  ⟨_, _, .cons trivial rfl (.cons trivial rfl (.singleton trivial rfl)), rfl, by decide, by decide, by decide⟩

end SessionGrace

end IdaRs
