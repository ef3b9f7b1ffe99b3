import IdaRs.Lib.Threads
import IdaRs.Values

/-!
# Registry snapshots of processes (`src/ida/registry_isolation.rs`)

On Windows every process has a key of its own under one root, a snapshot of the settings of IDA, named by its pid and a
UUID. A process removes its key when it ends; the keys of processes that could not are removed by the next process that
starts, which takes a key for stale if its name is that of a snapshot and no process has the pid. Pids come again, and
processes start and end while another looks at their keys.

Processes are threads over the keys below the root, one system call a step. `cleared` are the names whose tree a
`RegDeleteTreeW` was called for, even in vain. The crate `uuid` is not in this repository: `UuidText`, relied on in
`UuidText.RoundTrip`. That a UUID is new is the guard of `Env.start`; `names` are all names that were ever given.
-/

namespace IdaRs.Registry

open Threads

/-! ### Names -/

structure UuidText (Uuid : Type) where
  display : Uuid → String
  parseStr : String → Option Uuid

variable {Uuid : Type}

def UuidText.RoundTrip (t : UuidText Uuid) : Prop := ∀ id, t.parseStr (t.display id) = some id

inductive SnapshotOwner
  | process (pid : Nat)
  | unknown
deriving DecidableEq, Repr

def snapshotName (t : UuidText Uuid) (pid : UInt32) (id : Uuid) : String := pid.toNat.repr ++ "-" ++ t.display id

/-- `split_once` of a character. -/
def splitOnce (sep : Char) : List Char → Option (List Char × List Char)
  | [] => none
  | c :: cs => if c = sep then some ([], cs) else (splitOnce sep cs).map fun x => (c :: x.1, x.2)

def snapshotOwner (t : UuidText Uuid) (name : String) : SnapshotOwner :=
  match splitOnce '-' name.toList with
  | none => .unknown
  | some (pid, id) =>
    match parseUnsigned (2 ^ 32 - 1) pid with
    | none => .unknown
    | some pid => if (t.parseStr (String.ofList id)).isNone then .unknown else .process pid

/-! ### Processes -/

/-- Each name is that of the call made next. -/
inductive Pc
  | createIsolationRoot
  | enumKey (index : Nat)
  /-- `process_is_running`, of the owner of a snapshot. -/
  | openProcess (index : Nat) (name : String) (pid : Nat)
  | deleteTree (index : Nat) (name : String)
  | deleteKey (index : Nat) (name : String)
  | createRoot
  /-- The calls below the own key, up to the override of `HKEY_CURRENT_USER`. -/
  | copyTree
  | active
  | dropDeleteTree
  | dropDeleteKey
  /-- Alive, and without a snapshot: `prepare` has failed, or the guard was dropped. -/
  | plain
  | ended
deriving DecidableEq, Repr

structure Proc (Uuid : Type) where
  pid : UInt32
  id : Uuid
  pc : Pc

structure Shared where
  /-- The keys below the root, as they are enumerated. -/
  keys : List String
  cleared : List String
  names : List String
  /-- The pids of the running processes. -/
  live : List UInt32

inductive Event
  | go
  | fail
  | running (b : Bool)
  /-- The process ends, at any point. -/
  | exit
deriving DecidableEq, Repr

inductive Env (Uuid : Type)
  | start (pid : UInt32) (id : Uuid)
  /-- Somebody else makes a key. -/
  | addKey (name : String)
  | reorder (keys : List String)

section

variable (t : UuidText Uuid)

def Proc.name (p : Proc Uuid) : String := snapshotName t p.pid p.id

/-- `RegEnumKeyExW` and the test of the name. -/
def enumerated (s : Shared) (index : Nat) : Pc :=
  match s.keys[index]? with
  | none => .createRoot
  | some name =>
    match snapshotOwner t name with
    | .unknown => .enumKey (index + 1)
    | .process pid => .openProcess index name pid

def exec (s : Shared) (_i : Nat) (p : Proc Uuid) (e : Event) : Option (Outcome Shared (Proc Uuid)) :=
  let at' (pc : Pc) : Proc Uuid := { p with pc }
  match p.pc, e with
  | .ended, _ => none
  | _, .exit => some { shared := { s with live := s.live.erase p.pid }, thread := at' .ended }
  | .createIsolationRoot, .go => some { shared := s, thread := at' (.enumKey 0) }
  | .createIsolationRoot, .fail => some { shared := s, thread := at' .plain }
  | .enumKey index, .go => some { shared := s, thread := at' (enumerated t s index) }
  -- a failure ends the enumeration
  | .enumKey _, .fail => some { shared := s, thread := at' .createRoot }
  | .openProcess index name pid, .running b =>
    if b then some { shared := s, thread := at' (.enumKey (index + 1)) }
    -- a process that is running is never taken for ended
    else if ∃ q ∈ s.live, q.toNat = pid then none
    else some { shared := s, thread := at' (.deleteTree index name) }
  | .deleteTree index name, .go =>
    some { shared := { s with cleared := name :: s.cleared }, thread := at' (.deleteKey index name) }
  | .deleteTree index name, .fail =>
    some { shared := { s with cleared := name :: s.cleared }, thread := at' (.enumKey (index + 1)) }
  -- the next key has moved to the index
  | .deleteKey index name, .go =>
    some { shared := { s with keys := s.keys.erase name }, thread := at' (.enumKey index) }
  | .deleteKey index _, .fail => some { shared := s, thread := at' (.enumKey (index + 1)) }
  | .createRoot, .go => some { shared := { s with keys := p.name t :: s.keys }, thread := at' .copyTree }
  | .createRoot, .fail => some { shared := s, thread := at' .plain }
  | .copyTree, .go => some { shared := s, thread := at' .active }
  | .copyTree, .fail => some { shared := s, thread := at' .dropDeleteTree }
  | .active, .go => some { shared := s, thread := at' .dropDeleteTree }
  | .dropDeleteTree, .go =>
    some { shared := { s with cleared := p.name t :: s.cleared }, thread := at' .dropDeleteKey }
  | .dropDeleteTree, .fail => some { shared := { s with cleared := p.name t :: s.cleared }, thread := at' .plain }
  | .dropDeleteKey, .go => some { shared := { s with keys := s.keys.erase (p.name t) }, thread := at' .plain }
  | .dropDeleteKey, .fail => some { shared := s, thread := at' .plain }
  | _, _ => none

def env (c : Conf Shared (Proc Uuid)) : Env Uuid → Option (Shared × List (Proc Uuid))
  | .start pid id =>
    let name := snapshotName t pid id
    if pid ∉ c.shared.live ∧ name ∉ c.shared.names then
      some ({ c.shared with live := pid :: c.shared.live, names := name :: c.shared.names },
        [⟨pid, id, .createIsolationRoot⟩])
    else none
  | .addKey name =>
    if name ∉ c.shared.names then
      some ({ c.shared with keys := name :: c.shared.keys, names := name :: c.shared.names }, [])
    else none
  | .reorder keys => if keys.Perm c.shared.keys then some ({ c.shared with keys }, []) else none

def program : Program Shared (Proc Uuid) Event (Env Uuid) := ⟨exec t, env t⟩

end

/-- No process has started; the keys below the root are those of users and of former processes. -/
structure Init (c : Conf Shared (Proc Uuid)) : Prop where
  threads : c.threads = []
  keys : c.shared.keys.Nodup
  named : ∀ name ∈ c.shared.keys, name ∈ c.shared.names
  cleared : ∀ name ∈ c.shared.cleared, name ∈ c.shared.names

/-! ### The owner of a snapshot -/

section

variable {t : UuidText Uuid}

theorem splitOnce_append {sep : Char} {before : List Char} (h : sep ∉ before) (after : List Char) :
    splitOnce sep (before ++ sep :: after) = some (before, after) := by
  induction before with
  | nil => exact if_pos rfl
  | cons c before ih =>
    have hc : c ≠ sep := fun heq => h (heq ▸ List.mem_cons_self)
    rw [List.cons_append, splitOnce, if_neg hc, ih fun hmem => h (List.mem_cons_of_mem c hmem)]
    rfl

theorem dash_not_mem_toDigits (n : Nat) : '-' ∉ Nat.toDigits 10 n := by
  intro h
  have hdigit : '-'.isDigit = true := Nat.isDigit_of_mem_toDigits (by decide) (by decide) h
  exact absurd hdigit (by decide)

/-- A name says whose snapshot it names. -/
theorem snapshotOwner_snapshotName (ht : t.RoundTrip) (pid : UInt32) (id : Uuid) :
    snapshotOwner t (snapshotName t pid id) = .process pid.toNat := by
  have hname : (snapshotName t pid id).toList = Nat.toDigits 10 pid.toNat ++ '-' :: (t.display id).toList := by
    rw [snapshotName, String.toList_append, String.toList_append, Nat.toList_repr, List.append_assoc]
    rfl
  have hpid : pid.toNat ≤ 2 ^ 32 - 1 := Nat.le_sub_one_of_lt pid.toNat_lt
  rw [snapshotOwner, hname, splitOnce_append (dash_not_mem_toDigits _)]
  simp only [parseUnsigned_toDigits hpid, String.ofList_toList, ht id]
  rfl

/-! ### Steps -/

variable {s s' : Shared} {p p' q : Proc Uuid} {i : Nat} {e : Event} {name : String}
  {c c' : Conf Shared (Proc Uuid)} {C : Conf Shared (Proc Uuid) → Act Event (Env Uuid) → Prop}

namespace Pc

/-- Up to the call that makes the own key. -/
def unmade : Pc → Bool
  | createIsolationRoot | enumKey _ | openProcess .. | deleteTree .. | deleteKey .. | createRoot => true
  | _ => false

/-- The own key is there to be used. -/
def holds (pc : Pc) : Bool := pc = copyTree || pc = active

/-- The key of another process that is being deleted. -/
def deleting : Pc → Option String
  | deleteTree _ name | deleteKey _ name => some name
  | _ => none

end Pc

/-- What a step of a process does. -/
inductive Step (t : UuidText Uuid) (s : Shared) (p : Proc Uuid) : Shared → Pc → Prop
  | exit (halive : p.pc ≠ .ended) : Step t s p { s with live := s.live.erase p.pid } .ended
  /-- On with the enumeration. -/
  | walk (pc : Pc) (hpc : p.pc.unmade = true) (hnext : pc = .createRoot ∨ ∃ index, pc = .enumKey index) : Step t s p s pc
  | look (index : Nat) (name : String) (pid : Nat) (hpc : p.pc.unmade = true) (hname : name ∈ s.keys)
      (howner : snapshotOwner t name = .process pid) : Step t s p s (.openProcess index name pid)
  | condemn (index : Nat) (name : String) (pid : Nat) (hpc : p.pc = .openProcess index name pid)
      (hended : ∀ q ∈ s.live, q.toNat ≠ pid) : Step t s p s (.deleteTree index name)
  | clear (index : Nat) (name : String) (pc : Pc) (hpc : p.pc = .deleteTree index name)
      (hnext : pc = .deleteKey index name ∨ pc = .enumKey (index + 1)) :
      Step t s p { s with cleared := name :: s.cleared } pc
  | remove (index : Nat) (name : String) (hpc : p.pc = .deleteKey index name) :
      Step t s p { s with keys := s.keys.erase name } (.enumKey index)
  | create (hpc : p.pc = .createRoot) : Step t s p { s with keys := p.name t :: s.keys } .copyTree
  | settle (hpc : p.pc = .copyTree) : Step t s p s .active
  | leave (pc : Pc) (halive : p.pc ≠ .ended) (hnext : pc = .plain ∨ pc = .dropDeleteTree) : Step t s p s pc
  | dropTree (pc : Pc) (hpc : p.pc = .dropDeleteTree) (hnext : pc = .plain ∨ pc = .dropDeleteKey) :
      Step t s p { s with cleared := p.name t :: s.cleared } pc
  | dropKey (hpc : p.pc = .dropDeleteKey) : Step t s p { s with keys := s.keys.erase (p.name t) } .plain

theorem step_enumerated (index : Nat) (hpc : p.pc.unmade = true) : Step t s p s (enumerated t s index) := by
  unfold enumerated
  rcases hname : s.keys[index]? with _ | name
  · exact .walk _ hpc (.inl rfl)
  dsimp only
  rcases howner : snapshotOwner t name with pid | _
  · exact .look index name pid hpc (List.mem_of_getElem? hname) howner
  · exact .walk _ hpc (.inr ⟨_, rfl⟩)

theorem exec_step {o : Outcome Shared (Proc Uuid)} (h : exec t s i p e = some o) :
    ∃ pc, o = ⟨o.shared, { p with pc }, []⟩ ∧ Step t s p o.shared pc := by
  unfold exec at h
  dsimp only at h
  split at h
  · cases h
  · cases h
    exact ⟨_, rfl, .exit ‹_›⟩
  · rename_i hpc
    cases h
    exact ⟨_, rfl, .walk _ (by rw [hpc]; rfl) (.inr ⟨0, rfl⟩)⟩
  · rename_i hpc
    cases h
    exact ⟨_, rfl, .leave _ (by rw [hpc]; rintro ⟨⟩) (.inl rfl)⟩
  · rename_i index hpc
    cases h
    exact ⟨_, rfl, step_enumerated index (by rw [hpc]; rfl)⟩
  · rename_i index hpc
    cases h
    exact ⟨_, rfl, .walk _ (by rw [hpc]; rfl) (.inl rfl)⟩
  · rename_i index name pid b hpc
    split at h
    · cases h
      exact ⟨_, rfl, .walk _ (by rw [hpc]; rfl) (.inr ⟨_, rfl⟩)⟩
    split at h
    · cases h
    · rename_i hended
      cases h
      exact ⟨_, rfl, .condemn index name pid hpc fun q hq heq => hended ⟨q, hq, heq⟩⟩
  · rename_i index name hpc
    cases h
    exact ⟨_, rfl, .clear index name _ hpc (.inl rfl)⟩
  · rename_i index name hpc
    cases h
    exact ⟨_, rfl, .clear index name _ hpc (.inr rfl)⟩
  · rename_i index name hpc
    cases h
    exact ⟨_, rfl, .remove index name hpc⟩
  · rename_i index name hpc
    cases h
    exact ⟨_, rfl, .walk _ (by rw [hpc]; rfl) (.inr ⟨_, rfl⟩)⟩
  · rename_i hpc
    cases h
    exact ⟨_, rfl, .create hpc⟩
  · rename_i hpc
    cases h
    exact ⟨_, rfl, .leave _ (by rw [hpc]; rintro ⟨⟩) (.inl rfl)⟩
  · rename_i hpc
    cases h
    exact ⟨_, rfl, .settle hpc⟩
  · rename_i hpc
    cases h
    exact ⟨_, rfl, .leave _ (by rw [hpc]; rintro ⟨⟩) (.inr rfl)⟩
  · rename_i hpc
    cases h
    exact ⟨_, rfl, .leave _ (by rw [hpc]; rintro ⟨⟩) (.inr rfl)⟩
  · rename_i hpc
    cases h
    exact ⟨_, rfl, .dropTree _ hpc (.inr rfl)⟩
  · rename_i hpc
    cases h
    exact ⟨_, rfl, .dropTree _ hpc (.inl rfl)⟩
  · rename_i hpc
    cases h
    exact ⟨_, rfl, .dropKey hpc⟩
  · rename_i hpc
    cases h
    exact ⟨_, rfl, .leave _ (by rw [hpc]; rintro ⟨⟩) (.inl rfl)⟩
  · cases h

/-! ### The invariant -/

/-- What holds of a process beside the keys. -/
structure Local (t : UuidText Uuid) (s : Shared) (p : Proc Uuid) : Prop where
  named : p.name t ∈ s.names
  live : p.pc ≠ .ended → p.pid ∈ s.live
  made : p.pc.holds = true → p.name t ∈ s.keys
  unmade : p.pc.unmade = true → p.name t ∉ s.keys
  whole : p.pc.unmade = true ∨ p.pc.holds = true → p.name t ∉ s.cleared
  probes : ∀ index name pid, p.pc = .openProcess index name pid →
    snapshotOwner t name = .process pid ∧ name ∈ s.names
  deletes : ∀ name, p.pc.deleting = some name →
    name ∈ s.names ∧ name ≠ p.name t ∧ snapshotOwner t name ≠ .unknown

/-- Two processes have names of their own, and neither deletes the key of the other while that runs. -/
structure Apart (t : UuidText Uuid) (p q : Proc Uuid) : Prop where
  names : p.name t ≠ q.name t
  pids : p.pc ≠ .ended → q.pc ≠ .ended → p.pid ≠ q.pid
  left : ∀ name, p.pc.deleting = some name → q.pc ≠ .ended → name ≠ q.name t
  right : ∀ name, q.pc.deleting = some name → p.pc ≠ .ended → name ≠ p.name t

structure Common (s : Shared) : Prop where
  nodup : s.keys.Nodup
  named : ∀ name ∈ s.keys, name ∈ s.names
  cleared : ∀ name ∈ s.cleared, name ∈ s.names

theorem Apart.symm (h : Apart t p q) : Apart t q p :=
  ⟨h.names.symm, fun hq hp => (h.pids hp hq).symm, h.right, h.left⟩

/-- A process that goes on, without a new key to delete. -/
theorem Apart.next (h : Apart t p q) {pc : Pc} (halive : pc ≠ .ended → p.pc ≠ .ended)
    (hdel : ∀ name, pc.deleting = some name → p.pc.deleting = some name) : Apart t { p with pc } q :=
  ⟨h.names, fun hp hq => h.pids (halive hp) hq, fun name hn hq => h.left name (hdel name hn) hq,
    fun name hn hp => h.right name hn (halive hp)⟩

theorem alive_of_unmade (h : p.pc.unmade = true) : p.pc ≠ .ended := by
  intro heq
  rw [heq] at h
  cases h

theorem alive_of_holds (h : p.pc.holds = true) : p.pc ≠ .ended := by
  intro heq
  rw [heq] at h
  cases h

theorem unmade_of_deleting {pc : Pc} (h : pc.deleting = some name) : pc.unmade = true := by
  cases pc <;> first | rfl | cases h

/-- A process beside a step that leaves its own key alone. -/
theorem Local.frame (h : Local t s q) (hnames : s'.names = s.names)
    (hlive : q.pc ≠ .ended → q.pid ∈ s.live → q.pid ∈ s'.live)
    (hkeys : q.pc ≠ .ended → (q.name t ∈ s'.keys ↔ q.name t ∈ s.keys))
    (hcleared : q.pc ≠ .ended → q.name t ∈ s'.cleared → q.name t ∈ s.cleared) : Local t s' q := by
  refine ⟨hnames ▸ h.named, fun ha => hlive ha (h.live ha), fun hh => ?_, fun hu => ?_, fun hb hc => ?_, ?_, ?_⟩
  · exact (hkeys (alive_of_holds hh)).2 (h.made hh)
  · exact fun hmem => h.unmade hu ((hkeys (alive_of_unmade hu)).1 hmem)
  · have halive : q.pc ≠ .ended := hb.elim alive_of_unmade alive_of_holds
    exact h.whole hb (hcleared halive hc)
  · exact hnames ▸ h.probes
  · exact hnames ▸ h.deletes

/-- The owner of a name is not running when a process takes it for ended. -/
theorem condemned_ne (ht : t.RoundTrip) {pid : Nat} (howner : snapshotOwner t name = .process pid)
    (hended : ∀ q ∈ s.live, q.toNat ≠ pid) (hlive : q.pid ∈ s.live) : name ≠ q.name t := by
  rintro rfl
  rw [Proc.name, snapshotOwner_snapshotName ht] at howner
  exact hended q.pid hlive (SnapshotOwner.process.inj howner)

namespace Step

variable {pc : Pc}

theorem common (h : Common s) (hp : Local t s p) (hstep : Step t s p s' pc) : Common s' := by
  cases hstep with
  | exit | walk | look | condemn | settle | leave => exact ⟨h.nodup, h.named, h.cleared⟩
  | clear index name _ hpc =>
    refine ⟨h.nodup, h.named, fun nm hnm => ?_⟩
    rcases List.mem_cons.1 hnm with rfl | hnm
    · exact (hp.deletes nm (by rw [hpc]; rfl)).1
    · exact h.cleared nm hnm
  | remove index name hpc =>
    exact ⟨h.nodup.erase name, fun nm hnm => h.named nm (List.mem_of_mem_erase hnm), h.cleared⟩
  | create hpc =>
    refine ⟨List.nodup_cons.2 ⟨hp.unmade (by rw [hpc]; rfl), h.nodup⟩, fun nm hnm => ?_, h.cleared⟩
    rcases List.mem_cons.1 hnm with rfl | hnm
    · exact hp.named
    · exact h.named nm hnm
  | dropTree pc hpc =>
    refine ⟨h.nodup, h.named, fun nm hnm => ?_⟩
    rcases List.mem_cons.1 hnm with rfl | hnm
    · exact hp.named
    · exact h.cleared nm hnm
  | dropKey hpc =>
    exact ⟨h.nodup.erase _, fun nm hnm => h.named nm (List.mem_of_mem_erase hnm), h.cleared⟩

/-- Up to its own key, a process that goes on with the enumeration or to a deletion keeps what holds of it. -/
theorem unmade_next (hp : Local t s p) (hunmade : p.pc.unmade = true) {pc : Pc} (hpc : pc.unmade = true)
    (hprobes : ∀ index name pid, pc = .openProcess index name pid →
      snapshotOwner t name = .process pid ∧ name ∈ s.names)
    (hdeletes : ∀ name, pc.deleting = some name →
      name ∈ s.names ∧ name ≠ p.name t ∧ snapshotOwner t name ≠ .unknown) : Local t s { p with pc } := by
  refine ⟨hp.named, fun _ => hp.live (alive_of_unmade hunmade), fun hh => ?_, fun _ => hp.unmade hunmade,
    fun _ => hp.whole (.inl hunmade), hprobes, hdeletes⟩
  cases pc <;> cases hh <;> cases hpc

/-- A process that goes on with the enumeration. -/
theorem enum_next (hp : Local t s p) (hunmade : p.pc.unmade = true) {pc : Pc}
    (hnext : pc = .createRoot ∨ ∃ index, pc = .enumKey index) : Local t s { p with pc } := by
  rcases hnext with rfl | ⟨index, rfl⟩
  · exact unmade_next hp hunmade rfl (fun _ _ _ hpc => by cases hpc) (fun _ hdel => by cases hdel)
  · exact unmade_next hp hunmade rfl (fun _ _ _ hpc => by cases hpc) (fun _ hdel => by cases hdel)

/-- Past its own key, and without it. -/
theorem settled (hnamed : p.name t ∈ s.names) (hlive : p.pc ≠ .ended → p.pid ∈ s.live) (hunmade : p.pc.unmade = false)
    (hholds : p.pc.holds = false) : Local t s p := by
  refine ⟨hnamed, hlive, fun hh => ?_, fun hu => ?_, fun hb => ?_, fun index name pid hpc => ?_, fun name hdel => ?_⟩
  · cases hholds.symm.trans hh
  · cases hunmade.symm.trans hu
  · rcases hb with hu | hh
    · cases hunmade.symm.trans hu
    · cases hholds.symm.trans hh
  · rw [hpc] at hunmade
    cases hunmade
  · cases hunmade.symm.trans (unmade_of_deleting hdel)

/-- A deletion of the key of another process. -/
theorem deleting_next (hp : Local t s p) (hdel : p.pc.deleting = some name) (hnames : s'.names = s.names)
    (hlive : s'.live = s.live) (hkeys : ∀ nm, nm ≠ name → (nm ∈ s'.keys ↔ nm ∈ s.keys))
    (hcleared : ∀ nm, nm ≠ name → nm ∈ s'.cleared → nm ∈ s.cleared) : Local t s' p := by
  have hne := (hp.deletes name hdel).2.1.symm
  exact hp.frame hnames (fun _ h => hlive ▸ h) (fun _ => hkeys _ hne) (fun _ => hcleared _ hne)

theorem self (ht : t.RoundTrip) (h : Common s) (hp : Local t s p) (hstep : Step t s p s' pc) :
    Local t s' { p with pc } := by
  cases hstep with
  | exit halive => exact settled hp.named (fun hne => absurd rfl hne) rfl rfl
  | walk _ hunmade hnext => exact enum_next hp hunmade hnext
  | look index name pid hunmade hname howner =>
    refine unmade_next hp hunmade rfl (fun _ _ _ hpc => ?_) (fun _ hdel => by cases hdel)
    cases hpc
    exact ⟨howner, h.named name hname⟩
  | condemn index name pid hpc hended =>
    refine unmade_next hp (by rw [hpc]; rfl) rfl (fun _ _ _ hpc => by cases hpc) (fun _ hdel => ?_)
    cases hdel
    obtain ⟨howner, hname⟩ := hp.probes index name pid hpc
    refine ⟨hname, condemned_ne ht howner hended (hp.live (by rw [hpc]; rintro ⟨⟩)), ?_⟩
    rw [howner]
    rintro ⟨⟩
  | clear index name _ hpc hnext =>
    have hdel : p.pc.deleting = some name := by rw [hpc]; rfl
    have hunmade : p.pc.unmade = true := by rw [hpc]; rfl
    have hp' : Local t { s with cleared := name :: s.cleared } p :=
      deleting_next hp hdel rfl rfl (fun _ _ => Iff.rfl) fun nm hne hnm =>
        (List.mem_cons.1 hnm).resolve_left hne
    rcases hnext with rfl | rfl
    · refine unmade_next hp' hunmade rfl (fun _ _ _ hpc => by cases hpc) (fun _ hdel' => ?_)
      cases hdel'
      exact hp'.deletes name hdel
    · exact enum_next hp' hunmade (.inr ⟨_, rfl⟩)
  | remove index name hpc =>
    have hp' : Local t { s with keys := s.keys.erase name } p :=
      deleting_next hp (by rw [hpc]; rfl) rfl rfl (fun _ hne => List.mem_erase_of_ne hne) fun _ _ hnm => hnm
    exact enum_next hp' (by rw [hpc]; rfl) (.inr ⟨_, rfl⟩)
  | create hpc =>
    have hunmade : p.pc.unmade = true := by rw [hpc]; rfl
    refine ⟨hp.named, fun _ => hp.live (alive_of_unmade hunmade), fun _ => List.mem_cons_self, ?_,
      fun _ => hp.whole (.inl hunmade), fun _ _ _ hpc => (by cases hpc), fun _ hdel => by cases hdel⟩
    rintro ⟨⟩
  | settle hpc =>
    have hholds : p.pc.holds = true := by rw [hpc]; rfl
    refine ⟨hp.named, fun _ => hp.live (alive_of_holds hholds), fun _ => hp.made hholds, ?_,
      fun _ => hp.whole (.inr hholds), fun _ _ _ hpc => (by cases hpc), fun _ hdel => by cases hdel⟩
    rintro ⟨⟩
  | leave _ halive hnext =>
    rcases hnext with rfl | rfl
    · exact settled hp.named (fun _ => hp.live halive) rfl rfl
    · exact settled hp.named (fun _ => hp.live halive) rfl rfl
  | dropTree _ hpc hnext =>
    have halive : p.pc ≠ .ended := by rw [hpc]; rintro ⟨⟩
    rcases hnext with rfl | rfl
    · exact settled hp.named (fun _ => hp.live halive) rfl rfl
    · exact settled hp.named (fun _ => hp.live halive) rfl rfl
  | dropKey hpc => exact settled hp.named (fun _ => hp.live (by rw [hpc]; rintro ⟨⟩)) rfl rfl

theorem others (hq : Local t s q) (hpq : Apart t p q) (hstep : Step t s p s' pc) : Local t s' q := by
  have hne : ∀ name, p.pc.deleting = some name → q.pc ≠ .ended → q.name t ≠ name :=
    fun name hdel hq => (hpq.left name hdel hq).symm
  cases hstep with
  | walk | look | condemn | settle | leave => exact hq
  | exit halive =>
    exact hq.frame rfl (fun ha hlive => (List.mem_erase_of_ne (hpq.pids halive ha).symm).2 hlive) (fun _ => Iff.rfl)
      fun _ hmem => hmem
  | clear index name _ hpc =>
    exact hq.frame rfl (fun _ h => h) (fun _ => Iff.rfl) fun ha hmem =>
      (List.mem_cons.1 hmem).resolve_left (hne name (by rw [hpc]; rfl) ha)
  | remove index name hpc =>
    exact hq.frame rfl (fun _ h => h) (fun ha => List.mem_erase_of_ne (hne name (by rw [hpc]; rfl) ha)) fun _ h => h
  | create hpc =>
    refine hq.frame rfl (fun _ h => h) (fun _ => ⟨fun hmem => ?_, List.mem_cons_of_mem _⟩) fun _ h => h
    exact (List.mem_cons.1 hmem).resolve_left hpq.names.symm
  | dropTree _ hpc =>
    exact hq.frame rfl (fun _ h => h) (fun _ => Iff.rfl) fun _ hmem =>
      (List.mem_cons.1 hmem).resolve_left hpq.names.symm
  | dropKey hpc =>
    exact hq.frame rfl (fun _ h => h) (fun _ => List.mem_erase_of_ne hpq.names.symm) fun _ h => h

theorem apart (ht : t.RoundTrip) (hp : Local t s p) (hq : Local t s q) (hpq : Apart t p q)
    (hstep : Step t s p s' pc) : Apart t { p with pc } q := by
  have hnone : ∀ {pc : Pc}, pc.deleting = none → ∀ name, pc.deleting = some name → p.pc.deleting = some name :=
    fun hnone name hdel => by cases hnone.symm.trans hdel
  cases hstep with
  | exit halive => exact hpq.next (fun _ => halive) (hnone rfl)
  | walk _ hunmade hnext =>
    rcases hnext with rfl | ⟨index, rfl⟩
    · exact hpq.next (fun _ => alive_of_unmade hunmade) (hnone rfl)
    · exact hpq.next (fun _ => alive_of_unmade hunmade) (hnone rfl)
  | look index name pid hunmade => exact hpq.next (fun _ => alive_of_unmade hunmade) (hnone rfl)
  | condemn index name pid hpc hended =>
    obtain ⟨howner, -⟩ := hp.probes index name pid hpc
    have halive : p.pc ≠ .ended := by rw [hpc]; rintro ⟨⟩
    refine ⟨hpq.names, fun _ => hpq.pids halive, fun nm hdel hqa => ?_, fun nm hdel _ => hpq.right nm hdel halive⟩
    cases hdel
    exact condemned_ne ht howner hended (hq.live hqa)
  | clear index name _ hpc hnext =>
    have halive : p.pc ≠ .ended := by rw [hpc]; rintro ⟨⟩
    rcases hnext with rfl | rfl
    · exact hpq.next (fun _ => halive) fun nm hdel => by rw [hpc]; exact hdel
    · exact hpq.next (fun _ => halive) (hnone rfl)
  | remove index name hpc => exact hpq.next (fun _ => by rw [hpc]; rintro ⟨⟩) (hnone rfl)
  | create hpc => exact hpq.next (fun _ => by rw [hpc]; rintro ⟨⟩) (hnone rfl)
  | settle hpc => exact hpq.next (fun _ => by rw [hpc]; rintro ⟨⟩) (hnone rfl)
  | leave _ halive hnext =>
    rcases hnext with rfl | rfl
    · exact hpq.next (fun _ => halive) (hnone rfl)
    · exact hpq.next (fun _ => halive) (hnone rfl)
  | dropTree _ hpc hnext =>
    rcases hnext with rfl | rfl
    · exact hpq.next (fun _ => by rw [hpc]; rintro ⟨⟩) (hnone rfl)
    · exact hpq.next (fun _ => by rw [hpc]; rintro ⟨⟩) (hnone rfl)
  | dropKey hpc => exact hpq.next (fun _ => by rw [hpc]; rintro ⟨⟩) (hnone rfl)

end Step

/-! ### Every interleaving -/

/-- The invariant of the processes and the keys. -/
def Inv (t : UuidText Uuid) (c : Conf Shared (Proc Uuid)) : Prop :=
  Modular Common (fun s _ p => Local t s p) (Apart t) c

theorem Inv.init (h : Init c) : Inv t c := by
  refine ⟨⟨h.keys, h.named, h.cleared⟩, fun i p hp => ?_, fun i j p q _ hp => ?_⟩
  · rw [h.threads] at hp
    cases hp
  · rw [h.threads] at hp
    cases hp

theorem Inv.thread (ht : t.RoundTrip) (h : Inv t c) (hp : c.threads[i]? = some p) {pc : Pc}
    (hstep : Step t c.shared p s' pc) : Inv t (c.after i ⟨s', { p with pc }, []⟩) := by
  have hlocal := h.threads i p hp
  have hnone : ∀ m : Proc Uuid, m ∉ ([] : List (Proc Uuid)) := fun _ => List.not_mem_nil
  exact Modular.thread h (fun _ _ => Apart.symm) hp (hstep.common h.shared hlocal) (hstep.self ht h.shared hlocal)
    (fun j q hj hq => hstep.others (h.threads j q hq) (h.pairs i j p q (Ne.symm hj) hp hq))
    (fun _ m hm => absurd hm (hnone m))
    (fun j q hj hq => hstep.apart ht hlocal (h.threads j q hq) (h.pairs i j p q (Ne.symm hj) hp hq))
    (fun m hm => absurd hm (hnone m)) .nil

/-- A process that starts has a name that nobody ever had. -/
theorem Inv.start (h : Inv t c) {pid : UInt32} {id : Uuid} (hpid : pid ∉ c.shared.live)
    (hnew : snapshotName t pid id ∉ c.shared.names) :
    Inv t ⟨{ c.shared with live := pid :: c.shared.live, names := snapshotName t pid id :: c.shared.names },
      c.threads ++ [⟨pid, id, .createIsolationRoot⟩]⟩ := by
  refine Modular.env h (fun _ _ => Apart.symm) ?_ ?_ ?_ ?_ (List.pairwise_singleton ..)
  · exact ⟨h.shared.nodup, fun nm hnm => List.mem_cons_of_mem _ (h.shared.named nm hnm),
      fun nm hnm => List.mem_cons_of_mem _ (h.shared.cleared nm hnm)⟩
  · intro j q hq
    have hlocal := h.threads j q hq
    refine ⟨List.mem_cons_of_mem _ hlocal.named, fun ha => List.mem_cons_of_mem _ (hlocal.live ha), hlocal.made,
      hlocal.unmade, hlocal.whole, fun index nm o hpc => ?_, fun nm hdel => ?_⟩
    · exact ⟨(hlocal.probes index nm o hpc).1, List.mem_cons_of_mem _ (hlocal.probes index nm o hpc).2⟩
    · exact ⟨List.mem_cons_of_mem _ (hlocal.deletes nm hdel).1, (hlocal.deletes nm hdel).2⟩
  · intro j q hq _
    obtain rfl := List.mem_singleton.1 hq
    exact ⟨List.mem_cons_self, fun _ => List.mem_cons_self, fun hh => (by cases hh),
      fun _ hmem => hnew (h.shared.named _ hmem), fun _ hmem => hnew (h.shared.cleared _ hmem),
      fun _ _ _ hpc => (by cases hpc), fun _ hdel => by cases hdel⟩
  · intro q hq m hm
    obtain rfl := List.mem_singleton.1 hq
    obtain ⟨j, hj⟩ := List.mem_iff_getElem?.1 hm
    have hlocal := h.threads j m hj
    refine ⟨fun heq => hnew ?_, fun ha _ heq => hpid ?_, fun nm hdel _ heq => hnew ?_, fun _ hdel => by cases hdel⟩
    · exact (show m.name t = snapshotName t pid id from heq) ▸ hlocal.named
    · exact (show m.pid = pid from heq) ▸ hlocal.live ha
    · exact (show nm = snapshotName t pid id from heq) ▸ (hlocal.deletes nm hdel).1

theorem Inv.addKey (h : Inv t c) (hnew : name ∉ c.shared.names) :
    Inv t ⟨{ c.shared with keys := name :: c.shared.keys, names := name :: c.shared.names }, c.threads ++ []⟩ := by
  refine Modular.env h (fun _ _ => Apart.symm) ?_ ?_ (fun _ _ hm => absurd hm List.not_mem_nil)
    (fun _ hm => absurd hm List.not_mem_nil) .nil
  · refine ⟨List.nodup_cons.2 ⟨fun hmem => hnew (h.shared.named name hmem), h.shared.nodup⟩, fun nm hnm => ?_,
      fun nm hnm => List.mem_cons_of_mem _ (h.shared.cleared nm hnm)⟩
    rcases List.mem_cons.1 hnm with rfl | hnm
    · exact List.mem_cons_self
    · exact List.mem_cons_of_mem _ (h.shared.named nm hnm)
  · intro j q hq
    have hlocal := h.threads j q hq
    have hne : q.name t ≠ name := fun heq => hnew (heq ▸ hlocal.named)
    refine ⟨List.mem_cons_of_mem _ hlocal.named, hlocal.live, fun hh => List.mem_cons_of_mem _ (hlocal.made hh),
      fun hu hmem => hlocal.unmade hu ((List.mem_cons.1 hmem).resolve_left hne), hlocal.whole, fun index nm o hpc => ?_,
      fun nm hdel => ?_⟩
    · exact ⟨(hlocal.probes index nm o hpc).1, List.mem_cons_of_mem _ (hlocal.probes index nm o hpc).2⟩
    · exact ⟨List.mem_cons_of_mem _ (hlocal.deletes nm hdel).1, (hlocal.deletes nm hdel).2⟩

theorem Inv.reorder (h : Inv t c) {keys : List String} (hperm : keys.Perm c.shared.keys) :
    Inv t ⟨{ c.shared with keys }, c.threads ++ []⟩ := by
  refine Modular.env h (fun _ _ => Apart.symm) ?_ ?_ (fun _ _ hm => absurd hm List.not_mem_nil)
    (fun _ hm => absurd hm List.not_mem_nil) .nil
  · exact ⟨hperm.nodup_iff.2 h.shared.nodup, fun nm hnm => h.shared.named nm (hperm.mem_iff.1 hnm), h.shared.cleared⟩
  · intro j q hq
    exact (h.threads j q hq).frame rfl (fun _ h => h) (fun _ => hperm.mem_iff) fun _ h => h

theorem Inv.step (ht : t.RoundTrip) (h : Inv t c) {a : Act Event (Env Uuid)}
    (hstep : (program t).step c a = some c') : Inv t c' := by
  rcases a with ⟨i, e⟩ | x
  · obtain ⟨p, o, hp, hexec, rfl⟩ := step_thread_iff.1 hstep
    obtain ⟨pc, ho, hstep⟩ := exec_step (i := i) hexec
    rw [ho]
    exact h.thread ht hp hstep
  · obtain ⟨r, henv, rfl⟩ := step_env_iff.1 hstep
    rcases x with ⟨pid, id⟩ | name | keys
    · simp only [program, env] at henv
      split at henv <;> cases henv
      rename_i hguard
      exact h.start hguard.1 hguard.2
    · simp only [program, env] at henv
      split at henv <;> cases henv
      exact h.addKey ‹_›
    · simp only [program, env] at henv
      split at henv <;> cases henv
      exact h.reorder ‹_›

theorem Inv.reachable (ht : t.RoundTrip) (h : (program t).Reachable Init C c) : Inv t c :=
  h.induct (fun _ => Inv.init) fun _ _ _ _ hinv _ hstep => hinv.step ht hstep

/-! ### A process that reaps what another has left -/

namespace Sample

def left : String := "4f593156-5425-4e8c-a866-b4db4df5972f"

def own : String := "67e55044-10b1-426f-9247-bb680e5fe0c8"

/-- Two UUIDs, and their texts. -/
def texts : UuidText Bool where
  display id := if id then own else left
  parseStr s := if s = own then some true else if s = left then some false else none

theorem roundTrip : texts.RoundTrip := by
  intro id
  cases id <;> rfl

/-- A snapshot that was left behind, and a key somebody made. -/
def keys : List String := ["4242-" ++ left, "legacy-or-user-created-key"]

def before : Conf Shared (Proc Bool) := ⟨⟨keys, [], keys, []⟩, []⟩

theorem init : Init before := ⟨rfl, by decide, fun _ h => h, fun _ h => by cases h⟩

/-- A process starts and begins to enumerate. -/
def starts : List (Act Event (Env Bool)) := [.env (.start 4243 true), .thread 0 .go]

/-- It finds the owner of the first key ended. Another process is started under the pid of that owner; while the first
removes the old key, the second takes it for that of a running process. Both make their own. -/
def reaps : List (Act Event (Env Bool)) :=
  [.thread 0 .go, .thread 0 (.running false), .env (.start 4242 true), .thread 1 .go, .thread 1 .go, .thread 0 .go,
    .thread 1 (.running true), .thread 1 .go, .thread 0 .go, .thread 1 .go, .thread 1 .go, .thread 0 .go,
    .thread 0 (.running true), .thread 0 .go, .thread 0 .go, .thread 0 .go, .thread 1 .go, .thread 0 .go]

def started : Conf Shared (Proc Bool) :=
  ⟨⟨keys, [], ("4243-" ++ own) :: keys, [4243]⟩, [⟨4243, true, .enumKey 0⟩]⟩

theorem reachable_started : (program texts).Reachable Init Program.Free started :=
  .of_run (.init init) (show (program texts).run before starts = some started from rfl)

def reaped : Conf Shared (Proc Bool) :=
  ⟨⟨["4243-" ++ own, "4242-" ++ own, "legacy-or-user-created-key"], ["4242-" ++ left],
    ("4242-" ++ own) :: ("4243-" ++ own) :: keys, [4242, 4243]⟩, [⟨4243, true, .active⟩, ⟨4242, true, .active⟩]⟩

theorem run_reaped : (program texts).run started reaps = some reaped := rfl

end Sample

/-! ### What is kept -/

/-- However processes start, end and look at the keys of others, and whatever pids come again: the snapshot of a process
that uses it is there, and nobody has begun to delete it. -/
theorem live_snapshot_kept (ht : t.RoundTrip) (h : (program t).Reachable Init Program.Free c) :
    ∀ p ∈ c.threads, p.pc.holds = true → p.name t ∈ c.shared.keys ∧ p.name t ∉ c.shared.cleared := by
  intro p hp hholds
  obtain ⟨i, hi⟩ := List.mem_iff_getElem?.1 hp
  have hlocal := (Inv.reachable ht h).threads i p hi
  exact ⟨hlocal.made hholds, hlocal.whole (.inr hholds)⟩

theorem live_snapshot_kept_reaped :
    (Proc.name Sample.texts ⟨4243, true, .active⟩ ∈ Sample.reaped.shared.keys ∧
      Proc.name Sample.texts ⟨4243, true, .active⟩ ∉ Sample.reaped.shared.cleared) ∧
    Proc.name Sample.texts ⟨4242, true, .active⟩ ∈ Sample.reaped.shared.keys ∧
      Proc.name Sample.texts ⟨4242, true, .active⟩ ∉ Sample.reaped.shared.cleared := by
  have hkept := live_snapshot_kept Sample.roundTrip (.of_run Sample.reachable_started Sample.run_reaped)
  exact ⟨hkept _ List.mem_cons_self rfl, hkept _ (List.mem_cons_of_mem _ List.mem_cons_self) rfl⟩

/-! ### Keys of others -/

/-- A step takes away or clears only keys that are named as snapshots. -/
theorem Step.unknown_kept (ht : t.RoundTrip) {pc : Pc} (hp : Local t s p) (hstep : Step t s p s' pc)
    (howner : snapshotOwner t name = .unknown) (hkey : name ∈ s.keys) (hwhole : name ∉ s.cleared) :
    name ∈ s'.keys ∧ name ∉ s'.cleared := by
  have hown : name ≠ p.name t := by
    rintro rfl
    rw [Proc.name, snapshotOwner_snapshotName ht] at howner
    cases howner
  have hother : ∀ nm, p.pc.deleting = some nm → name ≠ nm := by
    rintro nm hdel rfl
    exact (hp.deletes name hdel).2.2 howner
  cases hstep with
  | exit | walk | look | condemn | settle | leave => exact ⟨hkey, hwhole⟩
  | clear index nm _ hpc =>
    exact ⟨hkey, fun hmem => hwhole ((List.mem_cons.1 hmem).resolve_left (hother nm (by rw [hpc]; rfl)))⟩
  | remove index nm hpc => exact ⟨(List.mem_erase_of_ne (hother nm (by rw [hpc]; rfl))).2 hkey, hwhole⟩
  | create => exact ⟨List.mem_cons_of_mem _ hkey, hwhole⟩
  | dropTree => exact ⟨hkey, fun hmem => hwhole ((List.mem_cons.1 hmem).resolve_left hown)⟩
  | dropKey => exact ⟨(List.mem_erase_of_ne hown).2 hkey, hwhole⟩

/-- A key that no process made is never removed and its tree never cleared, whatever processes start, end and reap. -/
theorem others_key_kept (ht : t.RoundTrip) (h : (program t).Reachable Init Program.Free c)
    (howner : snapshotOwner t name = .unknown) (hkey : name ∈ c.shared.keys) (hwhole : name ∉ c.shared.cleared)
    (h' : (program t).Reachable (· = c) Program.Free c') : name ∈ c'.shared.keys ∧ name ∉ c'.shared.cleared := by
  refine h'.induct (I := fun c => name ∈ c.shared.keys ∧ name ∉ c.shared.cleared) ?_ ?_
  · rintro _ rfl
    exact ⟨hkey, hwhole⟩
  · intro c₁ c₂ a hreach hkept _ hstep
    have hinv := Inv.reachable ht (h.trans hreach)
    rcases a with ⟨i, e⟩ | x
    · obtain ⟨p, o, hp, hexec, rfl⟩ := step_thread_iff.1 hstep
      obtain ⟨pc, ho, hstep⟩ := exec_step (i := i) hexec
      rw [ho]
      exact hstep.unknown_kept ht (hinv.threads i p hp) howner hkept.1 hkept.2
    · obtain ⟨r, henv, rfl⟩ := step_env_iff.1 hstep
      rcases x with ⟨pid, id⟩ | nm | keys
      · simp only [program, env] at henv
        split at henv <;> cases henv
        exact hkept
      · simp only [program, env] at henv
        split at henv <;> cases henv
        exact ⟨List.mem_cons_of_mem _ hkept.1, hkept.2⟩
      · simp only [program, env] at henv
        split at henv <;> cases henv
        rename_i hperm
        exact ⟨hperm.mem_iff.2 hkept.1, hkept.2⟩

theorem others_key_kept_reaped : "legacy-or-user-created-key" ∈ Sample.reaped.shared.keys ∧
    "legacy-or-user-created-key" ∉ Sample.reaped.shared.cleared :=
  have hrun : (program Sample.texts).Reachable (· = Sample.started) Program.Free Sample.reaped :=
    .of_run (.init rfl) Sample.run_reaped
  others_key_kept Sample.roundTrip Sample.reachable_started rfl (by decide) List.not_mem_nil hrun

/-! ### A process that reaps alone -/

section

variable (t) (live : List UInt32) (stuckTree stuckKey : String → Bool)

/-- The key survives the enumeration: nobody can say whose it is, its owner runs, or it cannot be deleted. -/
def survives (name : String) : Bool :=
  match snapshotOwner t name with
  | .unknown => true
  | .process pid => decide (∃ q ∈ live, q.toNat = pid) || stuckTree name || stuckKey name

/-- What the system answers to a process that nobody disturbs. -/
def answers (pc : Pc) : Option Event :=
  match pc with
  | .enumKey _ => some .go
  | .openProcess _ _ pid => some (.running (decide (∃ q ∈ live, q.toNat = pid)))
  | .deleteTree _ name => some (if stuckTree name then .fail else .go)
  | .deleteKey _ name => some (if stuckKey name then .fail else .go)
  | _ => none

/-- Only process `i` makes steps, in its enumeration. -/
def Alone (i : Nat) (c : Conf Shared (Proc Uuid)) (a : Act Event (Env Uuid)) : Prop :=
  ∃ p e, c.threads[i]? = some p ∧ answers live stuckTree stuckKey p.pc = some e ∧ a = .thread i e

/-- How many calls an enumeration can still make. -/
def callsLeft (keys : List String) : Pc → Nat
  | .enumKey index => 4 * (keys.length - index) + 1
  | .openProcess index .. => 4 * (keys.length - index)
  | .deleteTree index _ => 4 * (keys.length - index) - 1
  | .deleteKey index _ => 4 * (keys.length - index) - 2
  | _ => 0

/-- How far an enumeration of `keys` is: the keys before the index have survived, the rest is still to come. -/
inductive Progress (keys : List String) : List String → Pc → Prop
  | enumKey (seen rest : List String) (hkeys : keys = seen ++ rest) :
      Progress keys (seen.filter (survives t live stuckTree stuckKey) ++ rest)
        (.enumKey (seen.filter (survives t live stuckTree stuckKey)).length)
  | openProcess (seen : List String) (name : String) (rest : List String) (pid : Nat)
      (hkeys : keys = seen ++ name :: rest) (howner : snapshotOwner t name = .process pid) :
      Progress keys (seen.filter (survives t live stuckTree stuckKey) ++ name :: rest)
        (.openProcess (seen.filter (survives t live stuckTree stuckKey)).length name pid)
  | deleteTree (seen : List String) (name : String) (rest : List String) (pid : Nat)
      (hkeys : keys = seen ++ name :: rest) (howner : snapshotOwner t name = .process pid)
      (hended : ¬ ∃ q ∈ live, q.toNat = pid) :
      Progress keys (seen.filter (survives t live stuckTree stuckKey) ++ name :: rest)
        (.deleteTree (seen.filter (survives t live stuckTree stuckKey)).length name)
  | deleteKey (seen : List String) (name : String) (rest : List String) (pid : Nat)
      (hkeys : keys = seen ++ name :: rest) (howner : snapshotOwner t name = .process pid)
      (hended : ¬ ∃ q ∈ live, q.toNat = pid) (htree : stuckTree name = false) :
      Progress keys (seen.filter (survives t live stuckTree stuckKey) ++ name :: rest)
        (.deleteKey (seen.filter (survives t live stuckTree stuckKey)).length name)
  | done : Progress keys (keys.filter (survives t live stuckTree stuckKey)) .createRoot

end

section

variable {live : List UInt32} {stuckTree stuckKey : String → Bool} {keys seen rest : List String} {pc : Pc}

/-- On to the next key, past one that survives. -/
theorem Progress.pass (hkeys : keys = seen ++ name :: rest) (hname : survives t live stuckTree stuckKey name = true) :
    Progress t live stuckTree stuckKey keys (seen.filter (survives t live stuckTree stuckKey) ++ name :: rest)
      (.enumKey ((seen.filter (survives t live stuckTree stuckKey)).length + 1)) := by
  have h : Progress t live stuckTree stuckKey keys _ _ :=
    .enumKey (seen ++ [name]) rest (by rw [hkeys, List.append_assoc]; rfl)
  have hfilter : (seen ++ [name]).filter (survives t live stuckTree stuckKey) =
      seen.filter (survives t live stuckTree stuckKey) ++ [name] := by
    rw [List.filter_append, List.filter_cons_of_pos hname, List.filter_nil]
  rw [hfilter, List.append_assoc, List.length_append] at h
  exact h

/-- The key is gone, and the next one stands in its place. -/
theorem Progress.drop (hkeys : keys = seen ++ name :: rest) (hname : survives t live stuckTree stuckKey name = false) :
    Progress t live stuckTree stuckKey keys (seen.filter (survives t live stuckTree stuckKey) ++ rest)
      (.enumKey (seen.filter (survives t live stuckTree stuckKey)).length) := by
  have h : Progress t live stuckTree stuckKey keys _ _ :=
    .enumKey (seen ++ [name]) rest (by rw [hkeys, List.append_assoc]; rfl)
  have hfilter : (seen ++ [name]).filter (survives t live stuckTree stuckKey) =
      seen.filter (survives t live stuckTree stuckKey) := by
    rw [List.filter_append, List.filter_cons_of_neg (by rw [hname]; exact Bool.false_ne_true), List.filter_nil,
      List.append_nil]
  rwa [hfilter] at h

theorem length_sub (front : List String) (name : String) (rest : List String) :
    (front ++ name :: rest).length - front.length = rest.length + 1 := by
  rw [List.length_append, Nat.add_sub_cancel_left, List.length_cons]

theorem callsLeft_pass (front : List String) (name : String) (rest : List String) :
    callsLeft (front ++ name :: rest) (.enumKey (front.length + 1)) + 3 ≤
      callsLeft (front ++ name :: rest) (.enumKey front.length) := by
  have h := length_sub front name rest
  simp only [callsLeft]
  omega

theorem enumerated_progress (s : Shared) (hkeys : keys = seen ++ rest)
    (hs : s.keys = seen.filter (survives t live stuckTree stuckKey) ++ rest) :
    Progress t live stuckTree stuckKey keys s.keys
      (enumerated t s (seen.filter (survives t live stuckTree stuckKey)).length) ∧
    callsLeft s.keys (enumerated t s (seen.filter (survives t live stuckTree stuckKey)).length) <
      callsLeft s.keys (.enumKey (seen.filter (survives t live stuckTree stuckKey)).length) := by
  have hget : s.keys[(seen.filter (survives t live stuckTree stuckKey)).length]? = rest.head? := by
    rw [hs, List.getElem?_append_right (Nat.le_refl _), Nat.sub_self, List.head?_eq_getElem?]
  unfold enumerated
  rw [hget, hs]
  rcases rest with _ | ⟨name, rest⟩
  · rw [List.append_nil] at hkeys ⊢
    subst hkeys
    exact ⟨.done, Nat.succ_pos _⟩
  · rw [List.head?_cons]
    dsimp only
    rcases howner : snapshotOwner t name with pid | _
    · exact ⟨.openProcess seen name rest pid hkeys howner, Nat.lt_succ_self _⟩
    · refine ⟨Progress.pass hkeys (by rw [survives, howner]), ?_⟩
      have hless := callsLeft_pass (seen.filter (survives t live stuckTree stuckKey)) name rest
      exact Nat.lt_of_lt_of_le (Nat.lt_add_of_pos_right (by decide)) hless

theorem erase_seen (hnodup : keys.Nodup) (hkeys : keys = seen ++ name :: rest) (f : String → Bool) :
    (seen.filter f ++ name :: rest).erase name = seen.filter f ++ rest := by
  have hnot : name ∉ seen.filter f := by
    intro hmem
    rw [hkeys] at hnodup
    exact (List.nodup_append.1 hnodup).2.2 name (List.mem_of_mem_filter hmem) name List.mem_cons_self rfl
  rw [List.erase_append_right _ hnot, List.erase_cons_head]

/-- A call that is answered truly brings the enumeration further. -/
theorem progress_exec (hnodup : keys.Nodup) (hlive : s.live = live)
    (h : Progress t live stuckTree stuckKey keys s.keys p.pc)
    (he : answers live stuckTree stuckKey p.pc = some e) :
    ∃ s' pc, exec t s i p e = some ⟨s', { p with pc }, []⟩ ∧ s'.live = live ∧
      Progress t live stuckTree stuckKey keys s'.keys pc ∧ callsLeft s'.keys pc < callsLeft s.keys p.pc := by
  rcases p with ⟨pid, id, pc⟩
  obtain ⟨ks, hs, hpc⟩ : ∃ ks, ks = s.keys ∧ Progress t live stuckTree stuckKey keys ks pc := ⟨_, rfl, h⟩
  cases hpc with
  | enumKey seen rest hkeys =>
    cases he
    exact ⟨s, _, rfl, hlive, enumerated_progress s hkeys hs.symm⟩
  | done => cases he
  | openProcess seen name rest owner hkeys howner =>
    cases he
    have hlength := length_sub (seen.filter (survives t live stuckTree stuckKey)) name rest
    by_cases hrun : ∃ q ∈ live, q.toNat = owner
    · refine ⟨s, .enumKey ((seen.filter (survives t live stuckTree stuckKey)).length + 1), ?_, hlive, ?_⟩
      · simp only [exec, decide_eq_true hrun, if_true]
      rw [← hs]
      refine ⟨Progress.pass hkeys ?_, ?_⟩
      · rw [survives, howner]
        simp only [decide_eq_true hrun, Bool.true_or]
      · simp only [callsLeft]
        omega
    · refine ⟨s, .deleteTree (seen.filter (survives t live stuckTree stuckKey)).length name, ?_, hlive, ?_⟩
      · simp only [exec, decide_eq_false hrun, Bool.false_eq_true, if_false, hlive, if_neg hrun]
      rw [← hs]
      refine ⟨.deleteTree seen name rest owner hkeys howner hrun, ?_⟩
      simp only [callsLeft]
      omega
  | deleteTree seen name rest owner hkeys howner hended =>
    cases he
    have hlength := length_sub (seen.filter (survives t live stuckTree stuckKey)) name rest
    rcases htree : stuckTree name with _ | _
    · refine ⟨{ s with cleared := name :: s.cleared }, .deleteKey _ name, rfl, hlive, ?_⟩
      rw [← hs]
      refine ⟨.deleteKey seen name rest owner hkeys howner hended htree, ?_⟩
      simp only [callsLeft]
      omega
    · refine ⟨{ s with cleared := name :: s.cleared }, .enumKey _, rfl, hlive, ?_⟩
      rw [← hs]
      refine ⟨Progress.pass hkeys ?_, ?_⟩
      · rw [survives, howner]
        simp only [htree, Bool.or_true, Bool.true_or]
      · simp only [callsLeft]
        omega
  | deleteKey seen name rest owner hkeys howner hended htree =>
    cases he
    have hlength := length_sub (seen.filter (survives t live stuckTree stuckKey)) name rest
    have hsurvives : survives t live stuckTree stuckKey name = stuckKey name := by
      rw [survives, howner]
      simp only [decide_eq_false hended, htree, Bool.false_or]
    rcases hkey : stuckKey name with _ | _
    · refine ⟨{ s with keys := s.keys.erase name }, .enumKey _, rfl, hlive, ?_⟩
      rw [← hs, erase_seen hnodup hkeys]
      refine ⟨Progress.drop hkeys (hsurvives.trans hkey), ?_⟩
      rw [callsLeft, callsLeft, List.length_append, Nat.add_sub_cancel_left]
      omega
    · refine ⟨s, .enumKey _, rfl, hlive, ?_⟩
      rw [← hs]
      refine ⟨Progress.pass hkeys (hsurvives.trans hkey), ?_⟩
      simp only [callsLeft]
      omega

/-- Process `i` is in an enumeration of `keys`, and the same processes run. -/
def Reaping (t : UuidText Uuid) (live : List UInt32) (stuckTree stuckKey : String → Bool) (keys : List String) (i : Nat)
    (c : Conf Shared (Proc Uuid)) (p : Proc Uuid) : Prop :=
  c.threads[i]? = some p ∧ c.shared.live = live ∧ Progress t live stuckTree stuckKey keys c.shared.keys p.pc

theorem Reaping.step (hnodup : keys.Nodup) (h : Reaping t live stuckTree stuckKey keys i c p)
    (he : answers live stuckTree stuckKey p.pc = some e) :
    ∃ c' p', (program t).step c (.thread i e) = some c' ∧ Reaping t live stuckTree stuckKey keys i c' p' ∧
      callsLeft c'.shared.keys p'.pc < callsLeft c.shared.keys p.pc := by
  obtain ⟨hp, hlive, hprogress⟩ := h
  obtain ⟨s', pc, hexec, hlive', hprogress', hless⟩ := progress_exec (i := i) hnodup hlive hprogress he
  exact ⟨_, { p with pc }, step_thread_iff.2 ⟨p, _, hp, hexec, rfl⟩, ⟨Conf.after_get_self hp, hlive', hprogress'⟩,
    hless⟩

theorem Reaping.run (hnodup : keys.Nodup) (h : Reaping t live stuckTree stuckKey keys i c p)
    (hr : (program t).Reachable (· = c) (Alone live stuckTree stuckKey i) c') :
    ∃ p', Reaping t live stuckTree stuckKey keys i c' p' := by
  refine hr.induct (I := fun c => ∃ p, Reaping t live stuckTree stuckKey keys i c p) ?_ ?_
  · rintro _ rfl
    exact ⟨p, h⟩
  · rintro c₁ c₂ a - ⟨p, h⟩ ⟨q, e, hq, he, rfl⟩ hstep
    obtain rfl := Option.some.inj (h.1.symm.trans hq)
    obtain ⟨c₂', p', hstep', h', -⟩ := h.step hnodup he
    obtain rfl := Option.some.inj (hstep.symm.trans hstep')
    exact ⟨p', h'⟩

theorem Reaping.ends (hnodup : keys.Nodup) (n : Nat) (h : Reaping t live stuckTree stuckKey keys i c p)
    (hn : callsLeft c.shared.keys p.pc = n) :
    ∃ c' p', (program t).Reachable (· = c) (Alone live stuckTree stuckKey i) c' ∧ c'.threads[i]? = some p' ∧
      p'.pc = .createRoot := by
  induction n using Nat.strong_induction_on generalizing c p with
  | _ n ih =>
    rcases he : answers live stuckTree stuckKey p.pc with _ | e
    · refine ⟨c, p, .init rfl, h.1, ?_⟩
      have hprogress := h.2.2
      generalize p.pc = pc at he hprogress
      generalize c.shared.keys = ks at hprogress
      cases hprogress <;> first | rfl | cases he
    · obtain ⟨c₁, p₁, hstep, h₁, hless⟩ := h.step hnodup he
      obtain ⟨c', p', hreach, hp', hpc⟩ := ih _ (hn ▸ hless) h₁ rfl
      have hone : (program t).Reachable (· = c) (Alone live stuckTree stuckKey i) c₁ :=
        .step (.init rfl) ⟨p, e, h.1, he, rfl⟩ hstep
      exact ⟨c', p', hone.trans hreach, hp', hpc⟩

/-- A process that nobody disturbs comes to the end of its enumeration, and then exactly the keys are left that are of
nobody, of a running process, or cannot be deleted, in their order. No key is passed over for one before it that went. -/
theorem reaps_all_stale (ht : t.RoundTrip) (h : (program t).Reachable Init Program.Free c)
    (stuckTree stuckKey : String → Bool) (hp : c.threads[i]? = some p) (hpc : p.pc = .enumKey 0) :
    (∃ c' p', (program t).Reachable (· = c) (Alone c.shared.live stuckTree stuckKey i) c' ∧
      c'.threads[i]? = some p' ∧ p'.pc = .createRoot) ∧
    ∀ c' p', (program t).Reachable (· = c) (Alone c.shared.live stuckTree stuckKey i) c' →
      c'.threads[i]? = some p' → p'.pc = .createRoot →
      c'.shared.keys = c.shared.keys.filter (survives t c.shared.live stuckTree stuckKey) := by
  have hnodup := (Inv.reachable ht h).shared.nodup
  have hstart : Reaping t c.shared.live stuckTree stuckKey c.shared.keys i c p :=
    ⟨hp, rfl, hpc ▸ .enumKey [] c.shared.keys rfl⟩
  refine ⟨hstart.ends hnodup _ rfl, fun c' p' hr hp' hpc' => ?_⟩
  obtain ⟨q, hq, -, hprogress⟩ := hstart.run hnodup hr
  obtain rfl := Option.some.inj (hp'.symm.trans hq)
  rw [hpc'] at hprogress
  generalize c'.shared.keys = ks at hprogress
  cases hprogress
  rfl

theorem reaps_all_stale_started :
    (∃ c' p', (program Sample.texts).Reachable (· = Sample.started)
      (Alone [4243] (fun _ => false) (fun _ => false) 0) c' ∧ c'.threads[0]? = some p' ∧ p'.pc = .createRoot) ∧
    ∀ c' p', (program Sample.texts).Reachable (· = Sample.started)
      (Alone [4243] (fun _ => false) (fun _ => false) 0) c' →
      c'.threads[0]? = some p' → p'.pc = .createRoot →
      c'.shared.keys = Sample.keys.filter (survives Sample.texts [4243] (fun _ => false) fun _ => false) :=
  reaps_all_stale Sample.roundTrip Sample.reachable_started _ _ rfl rfl

end

end

end IdaRs.Registry
