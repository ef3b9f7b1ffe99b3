import IdaRs.DscTaskSettle
import IdaRs.Path

/-!
# What idat leaves behind (`src/server/mod.rs` 280-292, 1407-1490, 1750-1780)

The background DSC task with the files its idat writes: `idat` writes and removes files while it is alive, a killed or
failed run is cleaned up by `remove_partial_idat_outputs`. The check of the token right after idat settled returns
before that: a run that failed by itself and is cancelled there leaves its output, which `dsc_open_plan` reuses.

`start_kill` and the `wait` after it are taken to stop idat; removing a file succeeds.
-/

namespace IdaRs

inductive DscOpenPlan
  | directExistingI64
  | backgroundDirectRawDsc
  | legacyIdatBackground
deriving DecidableEq

/-- `sdkVersion >= (9, 4)` compares major and minor. -/
def dscOpenPlan (sdkVersion : Nat × Nat) (i64Exists : Bool) : DscOpenPlan :=
  if i64Exists then .directExistingI64
  else if 9 < sdkVersion.1 ∨ sdkVersion.1 = 9 ∧ 4 ≤ sdkVersion.2 then .backgroundDirectRawDsc
  else .legacyIdatBackground

namespace DscTask

open Threads IdaRs.Task

/-- How the idat run ended. -/
inductive IdatEnd
  | killed
  | waitFailed
  /-- Without a code when a signal ended it. -/
  | exited (code : Option Int)
deriving DecidableEq

def IdatEnd.Failed (k : IdatEnd) : Prop := k ≠ .exited (some 0)

instance (k : IdatEnd) : Decidable k.Failed := inferInstanceAs (Decidable (¬ _))

/-- The task's idat: its process, how it ended, and the files on disk that it wrote. -/
structure Idat where
  alive : Bool := false
  ended : Option IdatEnd := none
  files : List String := []

/-- The packed database and the components idat works in. -/
def idatOutputs (outI64 : String) : List String :=
  outI64 :: ["id0", "id1", "id2", "nam", "til"].map (Path.setExtension outI64)

def removePartialIdatOutputs (outI64 : String) (d : Idat) : Idat :=
  { d with files := d.files.filter (· ∉ idatOutputs outI64) }

/-- What a step of the task does to idat. -/
def idatStep (s : Shared) (d : Idat) : Pc → Event → Idat
  | .idatSpawn, .go => { d with alive := true }
  | .idatWait, .exited code _ => { d with alive := false, ended := some (.exited code) }
  | .idatWait, .waitFailed _ => { d with ended := some .waitFailed }
  | .idatWait, .sawCancel => { d with ended := some .killed }
  -- `stop_idat_and_remove_partial_outputs`
  | .idatStop _, .go => removePartialIdatOutputs s.openPath { d with alive := false }
  | .idatOutput code _, .output found _ =>
    if code ≠ 0 ∨ found = false then removePartialIdatOutputs s.openPath d else d
  | _, _ => d

inductive IdatEnv
  | server (x : Env)
  | wrote (path : String)
  | unlinked (path : String)

/-- The program of the task, with idat. -/
def idatProgram : Program (Shared × Idat) Pc ((Nat → Moment) × Event) IdatEnv where
  exec s i pc e := (exec s.1 i pc e).map fun o =>
    { shared := (o.shared, idatStep s.1 s.2 pc e.2), thread := o.thread, spawned := o.spawned }
  env c
    | .server x => (env ⟨c.shared.1, c.threads⟩ x).map fun r => ((r.1, c.shared.2), r.2)
    | .wrote path =>
      if c.shared.2.alive then some ((c.shared.1, { c.shared.2 with files := path :: c.shared.2.files }), []) else none
    | .unlinked path =>
      if c.shared.2.alive then
        some ((c.shared.1, { c.shared.2 with files := c.shared.2.files.filter (· ≠ path) }), [])
      else none

/-- The task was just created and has not run idat. -/
structure IdatInit (c : Conf (Shared × Idat) Pc) : Prop where
  task : Init ⟨c.shared.1, c.threads⟩
  idat : c.shared.2 = {}

/-- The token is not cancelled when the task looks at it after an idat that failed by itself. -/
def failedUncancelled (c : Conf (Shared × Idat) Pc) : Act ((Nat → Moment) × Event) IdatEnv → Bool
  | .thread i _ =>
    match c.threads[i]?, c.shared.2.ended with
    | some (.idatSettled ..), some k => decide (¬ k.Failed) || !c.shared.1.cancelled
    | _, _ => true
  | .env _ => true

/-! ## The stages of the task -/

inductive Stage
  | before
  | running
  | stopping
  | settled (code : Int)
  | after
  | done
deriving DecidableEq

def Pc.stage : Pc → Stage
  | .start | .idatSpawn => .before
  | .idatWait => .running
  | .idatStop _ => .stopping
  | .idatSettled code _ | .idatOutput code _ => .settled code
  | .done .. => .done
  | _ => .after

/-- Nothing is left of a run that failed. -/
def Clean (outI64 : String) (d : Idat) : Prop :=
  ∀ k, d.ended = some k → k.Failed → ∀ path ∈ idatOutputs outI64, path ∉ d.files

def StageInv (outI64 : String) (d : Idat) : Stage → Prop
  | .before => d.alive = false ∧ d.ended = none
  | .running => d.ended = none
  | .stopping => True
  | .settled code => d.alive = false ∧ ∀ k, d.ended = some k → ∃ c, k = .exited c ∧ code = c.getD (-1)
  | .after => d.alive = false ∧ ∀ k, d.ended = some k → ¬ k.Failed
  | .done => d.alive = false ∧ Clean outI64 d

section

variable {s s' : Shared} {d : Idat} {pc pc' : Pc} {e : Event} {now : Nat → Moment}

theorem clean_removePartialIdatOutputs (outI64 : String) (d : Idat) :
    Clean outI64 (removePartialIdatOutputs outI64 d) := by
  intro k _ _ path hpath hmem
  have := List.of_mem_filter hmem
  simp [hpath] at this

theorem clean_of_not_failed {outI64 : String} (h : ∀ k, d.ended = some k → ¬ k.Failed) : Clean outI64 d :=
  fun k hk hf => (h k hk hf).elim

theorem send_openPath {req : IdaRequest} (h : s.send req = some s') : s'.openPath = s.openPath := by
  unfold Shared.send at h
  split at h
  · obtain rfl := Option.some.inj h
    rfl
  · cases h

/-- The source of the database does not change. -/
theorem pcStep_openPath (h : pcStep s now pc e = some (s', pc')) : s'.openPath = s.openPath := by
  cases pcStep_move h with
  | sendOpen hs => exact send_openPath hs
  | sendClose hs => exact send_openPath hs
  | _ => rfl

theorem stage_of_phase {pc : Pc} (hpc : pc.phase ≠ .before) : pc.stage = .after ∨ pc.stage = .done := by
  cases pc with
  | start | idatSpawn | idatWait | idatStop | idatSettled | idatOutput | openSend => exact (hpc rfl).elim
  | done => exact .inr rfl
  | _ => exact .inl rfl

theorem phase_openSend (h : pcStep s now .openSend e = some (s', pc')) : pc'.phase ≠ .before := by
  cases e with
  | go =>
    obtain ⟨s₁, -, heq⟩ := Option.map_eq_some_iff.1 h
    obtain ⟨-, rfl⟩ := Prod.mk.inj heq
    simp [Pc.phase]
  | busy | workerClosed =>
    simp only [pcStep] at h
    split at h
    · obtain ⟨-, rfl⟩ := Prod.mk.inj (Option.some.inj h)
      simp [Pc.phase]
    · cases h
  | _ => cases h

/-- Once idat is over, the task does not come back to it. -/
theorem stage_after (h : pcStep s now pc e = some (s', pc')) (hp : pc.stage = .after) :
    pc'.stage = .after ∨ pc'.stage = .done := by
  by_cases hph : pc.phase = .before
  · obtain rfl : pc = .openSend := by
      cases pc with
      | openSend => rfl
      | start | idatSpawn | idatWait | idatStop | idatSettled | idatOutput => cases hp
      | _ => cases hph
    exact stage_of_phase (phase_openSend h)
  · refine stage_of_phase ?_
    cases pcStep_move h with
    | quiet hphase | message m hphase => exact hphase ▸ hph
    | _ => nofun

theorem idatStep_after (s : Shared) (d : Idat) (e : Event) (hp : pc.stage = .after) : idatStep s d pc e = d := by
  cases pc with
  | start | idatSpawn | idatWait | idatStop | idatSettled | idatOutput | done => cases hp
  | _ => rfl

theorem getD_eq_zero {c : Option Int} (h : c.getD (-1) = 0) : c = some 0 := by
  cases c with
  | none => cases h
  | some n => exact congrArg some h

theorem StageInv.settled (hi : StageInv s.openPath d (.settled 0)) : ∀ k, d.ended = some k → ¬ k.Failed := by
  rintro k hk hf
  obtain ⟨c, rfl, hc⟩ := hi.2 k hk
  exact hf (congrArg IdatEnd.exited (getD_eq_zero hc.symm))

theorem StageInv.after (hi : StageInv s.openPath d .after) (hp : pc.stage = .after)
    (h : pcStep s now pc e = some (s', pc')) : StageInv s.openPath (idatStep s d pc e) pc'.stage := by
  rw [idatStep_after s d e hp]
  rcases stage_after h hp with hs | hs <;> rw [hs]
  · exact hi
  · exact ⟨hi.1, clean_of_not_failed hi.2⟩

/-- A step of the task keeps the invariant of its stage. -/
theorem StageInv.task (hi : StageInv s.openPath d pc.stage) (h : pcStep s now pc e = some (s', pc'))
    (hc : ∀ code stderr k, pc = .idatSettled code stderr → d.ended = some k → k.Failed → s.cancelled = false) :
    StageInv s.openPath (idatStep s d pc e) pc'.stage := by
  cases pc with
  | start =>
    obtain ⟨halive, hended⟩ := hi
    have hnone : ∀ k, d.ended = some k → ¬ k.Failed := fun k hk => by rw [hended] at hk; cases hk
    cases e with
    | go =>
      simp only [pcStep] at h
      split at h
      · obtain ⟨-, rfl⟩ := Prod.mk.inj (Option.some.inj h)
        exact ⟨halive, clean_of_not_failed hnone⟩
      · split at h
        · obtain ⟨-, rfl⟩ := Prod.mk.inj (Option.some.inj h)
          exact ⟨halive, hnone⟩
        · obtain ⟨-, rfl⟩ := Prod.mk.inj (Option.some.inj h)
          exact ⟨halive, hended⟩
    | _ => cases h
  | idatSpawn =>
    obtain ⟨halive, hended⟩ := hi
    cases e with
    | go =>
      obtain ⟨-, rfl⟩ := Prod.mk.inj (Option.some.inj h)
      exact hended
    | spawnFailed msg =>
      obtain ⟨-, rfl⟩ := Prod.mk.inj (Option.some.inj h)
      exact ⟨halive, fun k hk => by cases hended.symm.trans hk⟩
    | _ => cases h
  | idatWait =>
    cases e with
    | exited code stderr =>
      obtain ⟨-, rfl⟩ := Prod.mk.inj (Option.some.inj h)
      exact ⟨rfl, fun k hk => ⟨code, (Option.some.inj hk).symm, rfl⟩⟩
    | waitFailed msg =>
      obtain ⟨-, rfl⟩ := Prod.mk.inj (Option.some.inj h)
      trivial
    | sawCancel =>
      simp only [pcStep] at h
      split at h
      · obtain ⟨-, rfl⟩ := Prod.mk.inj (Option.some.inj h)
        trivial
      · cases h
    | _ => cases h
  | idatStop waitError =>
    cases e with
    | go =>
      have hdone : pc'.stage = .done := by
        cases waitError <;>
        · obtain ⟨-, rfl⟩ := Prod.mk.inj (Option.some.inj h)
          rfl
      rw [hdone]
      exact ⟨rfl, clean_removePartialIdatOutputs _ _⟩
    | _ => cases waitError <;> cases h
  | idatSettled code stderr =>
    cases e with
    | go =>
      simp only [pcStep] at h
      split at h
      · rename_i hcancelled
        obtain ⟨-, rfl⟩ := Prod.mk.inj (Option.some.inj h)
        refine ⟨hi.1, fun k hk hf => ?_⟩
        rw [hc code stderr k rfl hk hf] at hcancelled
        cases hcancelled
      · obtain ⟨-, rfl⟩ := Prod.mk.inj (Option.some.inj h)
        exact hi
    | _ => cases h
  | idatOutput code stderr =>
    cases e with
    | output found log =>
      simp only [pcStep] at h
      simp only [idatStep]
      split at h
      · rename_i hfailed
        obtain ⟨-, rfl⟩ := Prod.mk.inj (Option.some.inj h)
        rw [if_pos hfailed]
        exact ⟨hi.1, clean_removePartialIdatOutputs _ _⟩
      · rename_i hok
        obtain ⟨-, rfl⟩ := Prod.mk.inj (Option.some.inj h)
        rw [if_neg hok]
        obtain rfl : code = 0 := by
          by_contra hne
          exact hok (.inl hne)
        exact ⟨hi.1, hi.settled⟩
    | _ => cases h
  | done => cases h
  | _ => exact StageInv.after hi rfl h

end

/-! ## Every run -/

structure IdatInv (c : Conf (Shared × Idat) Pc) (pc : Pc) : Prop where
  threads : c.threads = [pc]
  stage : StageInv c.shared.1.openPath c.shared.2 pc.stage

theorem env_openPath {c : Conf Shared Pc} {x : Env} {r : Shared × List Pc} (h : env c x = some r) :
    r.1.openPath = c.shared.openPath ∧ r.2 = [] := by
  cases x with
  | request req =>
    simp only [env] at h
    split at h
    · obtain rfl := Option.some.inj h
      exact ⟨rfl, rfl⟩
    · cases h
  | serve run =>
    obtain ⟨s', hs, rfl⟩ := Option.map_eq_some_iff.1 h
    exact ⟨by rw [Shared.openPath, (serve_same hs).2]; rfl, rfl⟩
  | registry now op =>
    simp only [env] at h
    split at h
    · obtain rfl := Option.some.inj h
      exact ⟨rfl, rfl⟩
    · cases h

/-- While idat is alive the task has promised nothing about its files. -/
theorem StageInv.write {outI64 : String} {d : Idat} {st : Stage} (hi : StageInv outI64 d st) (ha : d.alive = true)
    (files : List String) : StageInv outI64 { d with files } st := by
  cases st with
  | running | stopping => exact hi
  | before | settled | after | done => cases hi.1.symm.trans ha

theorem IdatInv.env {c : Conf (Shared × Idat) Pc} {pc : Pc} {x : IdatEnv} {r : (Shared × Idat) × List Pc}
    (hi : IdatInv c pc) (h : idatProgram.env c x = some r) : IdatInv ⟨r.1, c.threads ++ r.2⟩ pc := by
  cases x with
  | server x =>
    obtain ⟨r', hr, rfl⟩ := Option.map_eq_some_iff.1 h
    obtain ⟨hpath, hnone⟩ := env_openPath hr
    refine ⟨by rw [hnone, List.append_nil, hi.threads], ?_⟩
    rw [hpath]
    exact hi.stage
  | wrote path | unlinked path =>
    simp only [idatProgram] at h
    split at h
    · rename_i ha
      obtain rfl := Option.some.inj h
      exact ⟨by rw [List.append_nil, hi.threads], hi.stage.write ha _⟩
    · cases h

theorem idatInv_of_reachable {c : Conf (Shared × Idat) Pc}
    (hr : idatProgram.Reachable IdatInit (fun c a => failedUncancelled c a) c) : ∃ pc, IdatInv c pc := by
  induction hr with
  | init h =>
    refine ⟨.start, h.task.threads, ?_⟩
    rw [h.idat]
    exact ⟨rfl, rfl⟩
  | @step c c' a _ hC hstep ih =>
    obtain ⟨pc, hi⟩ := ih
    cases a with
    | env x =>
      obtain ⟨r, hr, rfl⟩ := step_env_iff.1 hstep
      exact ⟨pc, hi.env hr⟩
    | thread i e =>
      obtain ⟨l, o, hl, ho, rfl⟩ := step_thread_iff.1 hstep
      rw [hi.threads] at hl
      obtain ⟨hi₀, rfl⟩ := List.getElem?_eq_some_iff.1 hl
      obtain rfl : i = 0 := by simpa using hi₀
      obtain ⟨o', ho', rfl⟩ := Option.map_eq_some_iff.1 ho
      obtain ⟨⟨s', pc'⟩, hs, rfl⟩ := Option.map_eq_some_iff.1 ho'
      refine ⟨pc', by rw [Conf.after, hi.threads]; rfl, ?_⟩
      show StageInv s'.openPath (idatStep c.shared.1 c.shared.2 pc e.2) pc'.stage
      rw [pcStep_openPath hs]
      refine hi.stage.task hs fun code stderr k hpc hk hf => ?_
      rw [failedUncancelled, hi.threads, hpc, hk] at hC
      simpa [hf] using hC

/-- In every run in which the token is not cancelled at the check after an idat that failed by itself: when the task
is over, a run of idat that was killed, could not be waited for or did not exit with code 0 has left neither the
packed database nor a component of it, so no later `open_dsc` reuses its output. -/
theorem no_untrusted_output {c : Conf (Shared × Idat) Pc}
    (hr : idatProgram.Reachable IdatInit (fun c a => failedUncancelled c a) c) {call : Op Value × Answer Value}
    {current : Option Nat} (hdone : .done call current ∈ c.threads) {k : IdatEnd} (hk : c.shared.2.ended = some k)
    (hf : k.Failed) :
    (∀ path ∈ idatOutputs c.shared.1.openPath, path ∉ c.shared.2.files) ∧
      ∀ sdkVersion, dscOpenPlan sdkVersion (decide (c.shared.1.openPath ∈ c.shared.2.files)) ≠ .directExistingI64 := by
  obtain ⟨pc, hi⟩ := idatInv_of_reachable hr
  obtain rfl : .done call current = pc := by
    rw [hi.threads] at hdone
    exact List.mem_singleton.1 hdone
  have hclean := hi.stage.2 k hk hf
  refine ⟨hclean, fun sdkVersion => ?_⟩
  have habsent : c.shared.1.openPath ∉ c.shared.2.files := hclean _ List.mem_cons_self
  rw [dscOpenPlan, decide_eq_false habsent, if_neg (by decide)]
  split <;> nofun

/-- The task is to make `/a.i64` with idat. -/
def idatServer : Conf (Shared × Idat) Pc :=
  ⟨({ (taskServer {} []).shared with source := .legacyIdat "/a.i64" }, {}), [.start]⟩

theorem idatServer_init : IdatInit idatServer :=
  ⟨⟨rfl, taskRegistry_reachable, taskRegistry_running, rfl, rfl, rfl, nofun, nofun, nofun, nofun⟩, rfl⟩

/-- The task starts idat, which writes its output. -/
def idatWrites : List (Act ((Nat → Moment) × Event) IdatEnv) :=
  [.thread 0 (still, .go), .thread 0 (still, .go), .env (.wrote "/a.i64")]

def cancelsToken : Act ((Nat → Moment) × Event) IdatEnv := .env (.server (.registry still (.cancelToken 7)))

def isOver (c : Conf (Shared × Idat) Pc) : Bool := isSettled ⟨c.shared.1, c.threads⟩

/-- A run that is cancelled while idat works: idat is killed and its output removed. -/
theorem no_untrusted_output_killed :
    ∃ c, idatProgram.Reachable IdatInit (fun c a => failedUncancelled c a) c ∧ isOver c = true ∧
      c.shared.2.ended = some .killed ∧ "/a.i64" ∉ c.shared.2.files := by
  obtain ⟨c, hr, hover, hended, hpath⟩ := Program.Reachable.of_runIf_any (P := idatProgram)
    (C := fun c a => failedUncancelled c a)
    (r := idatWrites ++ [cancelsToken, .thread 0 (still, .sawCancel), .thread 0 (still, .go)])
    (p := fun c => isOver c = true ∧ c.shared.2.ended = some .killed ∧ c.shared.1.openPath = "/a.i64") idatServer_init
    (by decide +kernel)
  refine ⟨c, hr, hover, hended, ?_⟩
  rw [isOver, isSettled] at hover
  split at hover
  · rename_i call current hthreads
    have hdone : .done call current ∈ c.threads := by
      rw [show c.threads = [.done call current] from hthreads]
      exact List.mem_singleton_self _
    exact (no_untrusted_output hr hdone hended (by simp [IdatEnd.Failed])).1 _ (hpath ▸ List.mem_cons_self)
  · cases hover

/-- idat writes its output and exits with code 1; the token is cancelled before the task looks at it: the task ends
as cancelled, and the next `open_dsc` reuses the output. -/
theorem failed_output_reused :
    ∃ c, idatProgram.Reachable IdatInit Program.Free c ∧ isOver c = true ∧
      c.shared.2.ended = some (.exited (some 1)) ∧ "/a.i64" ∈ c.shared.2.files ∧
      dscOpenPlan (9, 3) (decide ("/a.i64" ∈ c.shared.2.files)) = .directExistingI64 :=
  Program.Reachable.of_run_any (P := idatProgram)
    (r := idatWrites ++ [.thread 0 (still, .exited (some 1) ""), cancelsToken, .thread 0 (still, .go)])
    (p := fun c => isOver c = true ∧ c.shared.2.ended = some (.exited (some 1)) ∧ "/a.i64" ∈ c.shared.2.files ∧
      dscOpenPlan (9, 3) (decide ("/a.i64" ∈ c.shared.2.files)) = .directExistingI64)
    idatServer_init (by decide +kernel)

end DscTask

end IdaRs
