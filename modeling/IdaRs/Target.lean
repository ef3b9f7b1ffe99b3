import IdaRs.Path
import IdaRs.Text

/-!
# Targets, selectors and database identities (`src/daemon/target.rs`, `src/daemon/router.rs`)

The functions the router computes with: paths of a load request, its conflict check, selectors. The
file system is a parameter, `Files`.
-/

namespace IdaRs

structure TargetInfo where
  id : String
  path : String
  filename : String
  fileType : String
  processor : String
  bits : Nat
  functionCount : Nat
deriving DecidableEq, Repr

/-- What the router reads of the file system and the environment. -/
structure Files where
  /-- `$HOME`. -/
  home : Option String
  exists? : String → Bool
  /-- `fs::canonicalize`; `none` on an error. -/
  canonicalize : String → Option String

def expandPath (fs : Files) (path : String) : String :=
  ((stripPrefix ['~', '/'] path.toList).bind fun rest =>
    fs.home.map fun h => Path.join h (String.ofList rest)).getD path

def idbPathForRawBinary (path : String) : String := path ++ ".i64"

def isIdbPath (path : String) : Bool :=
  let ext := toAsciiLowercase ((Path.extension path).getD "")
  decide (ext = ['i', '6', '4'] ∨ ext = ['i', 'd', 'b'] ∨ ext = ['i', 'd', '0'])

def effectiveIdbOut (fs : Files) (path : String) (idbOut : Option String) : Option String :=
  if isIdbPath path then none
  else some (match idbOut with
    | some out => expandPath fs out
    | none => idbPathForRawBinary path)

def canonicalizeLenient (fs : Files) (path : String) : String :=
  match fs.canonicalize path with
  | some c => c
  | none =>
    match Path.parent path, Path.fileName path with
    | some parent, some name =>
      match fs.canonicalize parent with
      | some canonParent => Path.join canonParent name
      | none => path
    | _, _ => path

/-- The database a load works on: the output for a raw binary, the input itself for a database. -/
def dbIdentity (fs : Files) (expanded : String) (idbOut : Option String) : String :=
  match effectiveIdbOut fs expanded idbOut with
  | some out => canonicalizeLenient fs out
  | none => canonicalizeLenient fs expanded

/-- `find_load_conflict`, over `(id, canon_path, db_identity)`. -/
def findLoadConflict (canonPath dbIdentity : String) : List (String × String × String) → Option String
  | [] => none
  | (id, otherPath, otherIdentity) :: rest =>
    if Path.same otherPath canonPath then some ("input already loaded as " ++ id)
    else if Path.same otherIdentity dbIdentity then
      some ("database " ++ dbIdentity ++ " is already in use by " ++ id)
    else findLoadConflict canonPath dbIdentity rest

theorem findLoadConflict_eq_none {canonPath dbIdentity : String} {l : List (String × String × String)} :
    findLoadConflict canonPath dbIdentity l = none ↔
      ∀ e ∈ l, ¬ Path.same e.2.1 canonPath ∧ ¬ Path.same e.2.2 dbIdentity := by
  induction l with
  | nil => simp [findLoadConflict]
  | cons e l ih =>
    obtain ⟨id, path, identity⟩ := e
    rw [findLoadConflict]
    split
    · rename_i h; simp [h]
    · split
      · rename_i h; simp [h]
      · rename_i h₁ h₂; simp [h₁, h₂, ih]

/-- `resolve_selector`, over `(id, filename, path)`. -/
def resolveSelector (selector active : Option String) (entries : List (String × String × String)) :
    Except String String :=
  if entries = [] then .error "No targets loaded. Use 'target load -f <path>' first."
  else
    match selector with
    | none | some "active" | some "" =>
      match active with
      | some id => .ok id
      | none => .error "No active target"
    | some sel =>
      if entries.any (·.1 = sel) then .ok sel
      else
        match entries.filter fun e => containsText e.2.1.toList sel || containsText e.2.2.toList sel with
        | [] => .error ("No target matching '" ++ sel ++ "'")
        | [e] => .ok e.1
        | es => .error ("Ambiguous selector '" ++ sel ++ "': matches " ++ es.length.repr ++ " targets")

/-- A selector that is neither empty nor `active`, among some targets: an id, or part of a name or path. -/
theorem resolveSelector_name {sel : String} {active : Option String} {entries : List (String × String × String)}
    (hne : entries ≠ []) (ha : sel ≠ "active") (hn : sel ≠ "") :
    resolveSelector (some sel) active entries =
      if entries.any (·.1 = sel) then .ok sel
      else
        match entries.filter fun e => containsText e.2.1.toList sel || containsText e.2.2.toList sel with
        | [] => .error ("No target matching '" ++ sel ++ "'")
        | [e] => .ok e.1
        | es => .error ("Ambiguous selector '" ++ sel ++ "': matches " ++ es.length.repr ++ " targets") := by
  unfold resolveSelector
  rw [if_neg hne]
  split
  case h_4 heq => cases heq; rfl
  all_goals simp_all

/-- What a selector resolves to is the active target or one of the entries. -/
theorem resolveSelector_ok {sel active : Option String} {entries : List (String × String × String)} {id : String}
    (h : resolveSelector sel active entries = .ok id) : active = some id ∨ ∃ x ∈ entries, x.1 = id := by
  by_cases hname : ∃ t, sel = some t ∧ t ≠ "active" ∧ t ≠ ""
  · obtain ⟨t, rfl, ha, hn⟩ := hname
    by_cases hne : entries = []
    · unfold resolveSelector at h; rw [if_pos hne] at h; cases h
    rw [resolveSelector_name hne ha hn] at h
    split at h
    · rename_i hany
      obtain ⟨x, hx, hid⟩ := List.any_eq_true.1 hany
      cases h
      exact .inr ⟨x, hx, of_decide_eq_true hid⟩
    · split at h <;> cases h
      rename_i x hx
      exact .inr ⟨x, (List.mem_filter.1 (hx ▸ List.mem_singleton_self x)).1, rfl⟩
  · unfold resolveSelector at h
    split at h
    · cases h
    · split at h
      case h_4 t ha hn => exact absurd ⟨t, rfl, ha, hn⟩ hname
      all_goals
        cases active <;> cases h
        exact .inl rfl

/-- The number of a target id, and `u64::MAX` for any other text. -/
def targetNumber (id : String) : Nat :=
  ((stripPrefix ['t'] id.toList).bind (parseUnsigned (2 ^ 64 - 1))).getD (2 ^ 64 - 1)

/-- `lowest_target_id`; the first of several minima. -/
def lowestTargetId : List String → Option String
  | [] => none
  | id :: ids =>
    match lowestTargetId ids with
    | none => some id
    | some low => some (if targetNumber low < targetNumber id then low else id)

end IdaRs
