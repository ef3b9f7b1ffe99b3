import Mathlib.Data.List.DropRight
import IdaRs.DscFiles
import IdaRs.IdaLoop

/-!
# The path that is checked and the paths that are used (`src/server/mod.rs`, `src/ida/handlers/database.rs`)

`validate_path` reads the text it is given in its own way: without the blanks around it, and with `$HOME` for a leading
`~/`. Here stands what `open_idb`, `open_dsc` and `run_script` do with their path after that check, up to the file that
IDA opens. A database that is there already under a name made from the path is opened in the place of the file; the
use of the path is then its name.
-/

namespace IdaRs

/-! ## Blanks -/

section Trim

variable {s : List Char}

theorem trim_eq_rdropWhile (s : List Char) : trim s = (s.dropWhile isWhitespace).rdropWhile isWhitespace := rfl

theorem trim_split (s : List Char) : ∃ front back, s = front ++ trim s ++ back ∧
    (∀ c ∈ front, isWhitespace c = true) ∧ ∀ c ∈ back, isWhitespace c = true := by
  refine ⟨s.takeWhile isWhitespace, (s.dropWhile isWhitespace).rtakeWhile isWhitespace, ?_, ?_, ?_⟩
  · rw [trim_eq_rdropWhile, List.append_assoc, List.rdropWhile_append_rtakeWhile, List.takeWhile_append_dropWhile]
  · intro c hc
    exact List.mem_takeWhile_imp hc
  · intro c hc
    exact List.mem_rtakeWhile_imp hc

/-- What `trim` leaves does not end in a blank. -/
theorem trim_getLast (hne : trim s ≠ []) : isWhitespace ((trim s).getLast hne) = false :=
  Bool.eq_false_iff.2 (List.rdropWhile_last_not isWhitespace _ hne)

theorem trim_trim (s : List Char) : trim (trim s) = trim s := by
  have hfront : (trim s).dropWhile isWhitespace = trim s := by
    rw [List.dropWhile_eq_self_iff]
    intro hl
    have hpre : trim s <+: s.dropWhile isWhitespace := List.rdropWhile_prefix isWhitespace _
    have hlen : 0 < (s.dropWhile isWhitespace).length := by have := hpre.length_le; omega
    rw [hpre.getElem hl]
    exact List.dropWhile_get_zero_not isWhitespace s hlen
  rw [trim_eq_rdropWhile, hfront]
  exact List.rdropWhile_idempotent isWhitespace _

end Trim

namespace CheckedPath

open DscFiles IdaLoop

/-! ## What is tested -/

def trimText (path : String) : String := String.ofList (trim path.toList)

/-- The path that `validate_path` looks at. -/
def testedPath (home : Option String) (path : String) : Option String :=
  match stripPrefix ['~', '/'] (trim path.toList) with
  | some stripped => home.map fun home => Path.join home (String.ofList stripped)
  | none => some (trimText path)

section

variable {h : Host} {path : String}

theorem validatePath_eq (h : Host) (path : String) :
    h.validatePath path =
      (testedPath h.home path).any fun tested => h.isFile tested && !containsText (trim path.toList) ".." := by
  have hpat : "~/".toList = ['~', '/'] := rfl
  simp only [Host.validatePath, testedPath, hpat]
  cases stripPrefix ['~', '/'] (trim path.toList) with
  | none => rfl
  | some stripped => cases h.home <;> rfl

theorem validatePath_tested (hok : h.validatePath path = true) :
    ∃ tested, testedPath h.home path = some tested ∧ h.isFile tested = true := by
  rw [validatePath_eq] at hok
  cases ht : testedPath h.home path with
  | none => rw [ht] at hok; cases hok
  | some tested =>
    rw [ht] at hok
    exact ⟨tested, rfl, (Bool.and_eq_true_iff.1 hok).1⟩

@[simp] theorem trim_trimText (path : String) : trim (trimText path).toList = trim path.toList := by
  rw [trimText, String.toList_ofList, trim_trim]

@[simp] theorem trimText_trimText (path : String) : trimText (trimText path) = trimText path := by
  rw [trimText, trim_trimText, trimText]

/-- `expand_path` reads a text without blanks around it as `validate_path` does. -/
theorem expandPath_trimText (fs : Files) {tested : String} (ht : testedPath fs.home path = some tested) :
    expandPath fs (trimText path) = tested := by
  have hlist : (trimText path).toList = trim path.toList := String.toList_ofList
  simp only [testedPath] at ht
  simp only [expandPath, hlist]
  cases hs : stripPrefix ['~', '/'] (trim path.toList) with
  | none => rw [hs] at ht; exact Option.some.inj ht
  | some stripped =>
    rw [hs] at ht
    cases hhome : fs.home with
    | none => rw [hhome] at ht; cases ht
    | some home => rw [hhome] at ht; exact Option.some.inj ht

end

/-! ## What is used -/

inductive Use
  /-- IDA opens the file. -/
  | opens (path : String)
  /-- The name of a database is made from the path. -/
  | names (path database : String)
  /-- The text of the file is read. -/
  | reads (path : String)
deriving DecidableEq

def Use.path : Use → String
  | .opens path | .names path _ | .reads path => path

/-- What IDA may be given to open for it: the path or the database, and the unpacked form of a database. -/
def Use.opened : Use → List String
  | .opens path => path :: (unpackedId0Path path).toList
  | .names _ database => database :: (unpackedId0Path database).toList
  | .reads _ => []

/-- A call of one of the three tools; `run_script` with its `file`. -/
inductive Call
  | openIdb (args : OpenArgs)
  | openDsc (req : OpenDscRequest)
  | runScript (file : String)

def Call.path : Call → String
  | .openIdb args => args.path
  | .openDsc req => req.path
  | .runScript file => file

section

variable (h : Host) (found : String → Bool) (pooled : Bool)

def files : Files := ⟨h.home, found, h.canonicalize⟩

/-- `handle_open`, of the worker loop. -/
def handleOpen (a : OpenArgs) : List Use :=
  let expanded := expandPath (files h found) a.path
  if isIdbPath expanded then [.opens expanded]
  else
    (if a.idbOut.isSome then [] else [.names expanded (idbPathForRawBinary expanded)]) ++
      (if (planOpen (files h found) a).existing.isSome then [] else [.opens expanded])

/-- `open_idb` of a server, before its worker. -/
def serverOpen (worker : OpenArgs → List Use) (a : OpenArgs) : List Use :=
  let path := trimText a.path
  if h.validatePath path then worker { a with path } else []

/-- `open_observed`: the worker loop of the process, or `open_idb` of a child process. -/
def workerOpen (a : OpenArgs) : List Use :=
  if pooled then serverOpen h (handleOpen h found) a else handleOpen h found a

def openIdb (a : OpenArgs) : List Use := serverOpen h (workerOpen h found pooled) a

def openDsc (req : OpenDscRequest) : List Use :=
  match h.validate req with
  | .error _ => []
  | .ok _ =>
    let cacheI64 := h.directDscCacheI64Path req.path
    let i64Exists := found (outI64 req.path) || (h.direct && found cacheI64)
    [.names req.path (outI64 req.path), .names req.path cacheI64] ++
      match dscOpenPlan h.sdkVersion i64Exists with
      | .directExistingI64 => []
      | .backgroundDirectRawDsc => workerOpen h found pooled { path := req.path, idbOut := some cacheI64 }
      | .legacyIdatBackground =>
        match h.findIdat with
        | .error _ => []
        | .ok _ => if req.logPathTraverses then [] else [.opens req.path]

def runScript (file : String) : List Use := if h.validatePath file then [.reads file] else []

def Call.uses : Call → List Use
  | .openIdb a => CheckedPath.openIdb h found pooled a
  | .openDsc req => CheckedPath.openDsc h found pooled req
  | .runScript file => CheckedPath.runScript h file

end

/-! ## When they are the same -/

/-- The text is the path that it is read as: no blanks around it, and no `~/` before it but one that `$HOME` puts
there again. -/
def AsWritten (home : Option String) (path : List Char) : Prop :=
  match stripPrefix ['~', '/'] (trim path) with
  | none => trim path = path
  | some rest =>
    ∃ blanks, path = blanks ++ '~' :: '/' :: rest ∧ (∀ c ∈ blanks, isWhitespace c = true) ∧ rest.head? ≠ some '/' ∧
      (home = some (String.ofList (blanks ++ ['~'])) ∨ home = some (String.ofList (blanks ++ ['~', '/'])))

/-- `open_dsc` turns the call down after the check of the path. -/
def VersionRefused (req : OpenDscRequest) : Prop :=
  match parseOptionalUnsigned .u8 req.idaVersion "ida_version" with
  | .error _ => True
  | .ok version => version.getD 9 ≠ 8 ∧ version.getD 9 ≠ 9

def Call.ReadAlike (home : Option String) : Call → Prop
  | .openIdb _ => True
  | .openDsc req => VersionRefused req ∨ AsWritten home req.path.toList
  | .runScript file => AsWritten home file.toList

theorem stripPrefix_eq_some {pat s rest : List Char} : stripPrefix pat s = some rest ↔ s = pat ++ rest := by
  unfold stripPrefix
  constructor
  · intro h
    split at h
    · rename_i hpre
      obtain ⟨rest', rfl⟩ := hpre
      rw [List.drop_left] at h
      rw [Option.some.inj h]
    · cases h
  · rintro rfl
    rw [if_pos (List.prefix_append pat rest), List.drop_left]

/-- `home` as a directory that something is put into. -/
def dirText (home : String) : List Char :=
  if home.toList = [] ∨ home.toList.getLast? = some '/' then home.toList else home.toList ++ ['/']

theorem join_toList (home : String) {rest : List Char} (hrest : rest.head? ≠ some '/') :
    (Path.join home (String.ofList rest)).toList = dirText home ++ rest := by
  unfold Path.join dirText
  rw [String.toList_ofList, if_neg hrest]
  split
  · rw [String.toList_append, String.toList_ofList]
  · rw [String.toList_append, String.toList_append, String.toList_ofList (l := rest)]
    rfl

/-- The two ways to write a directory. -/
theorem dirText_eq_concat {home : String} {dir : List Char} (hdir : dir.getLast? ≠ some '/') (hne : dir ≠ []) :
    dirText home = dir ++ ['/'] ↔ home.toList = dir ∨ home.toList = dir ++ ['/'] := by
  unfold dirText
  constructor
  · intro h
    split at h
    · exact .inr h
    · exact .inl (List.append_cancel_right h)
  · rintro (h | h)
    · rw [h, if_neg (by rintro (h | h); exacts [hne h, hdir h])]
    · rw [h, if_pos (.inr List.getLast?_concat)]

/-- `$HOME` with what stands behind the `~/` does not end in a blank. -/
theorem getLast_join (home : String) {path rest : List Char} (ht : trim path = '~' :: '/' :: rest) (c : Char)
    (hc : (dirText home ++ rest).getLast? = some c) : isWhitespace c = false := by
  have hne : trim path ≠ [] := by rw [ht]; exact List.cons_ne_nil _ _
  by_cases hrest : rest = []
  · rw [hrest, List.append_nil] at hc
    unfold dirText at hc
    split at hc
    · rename_i h
      rcases h with h | h
      · rw [h] at hc; cases hc
      · rw [h] at hc; cases hc; decide
    · rw [List.getLast?_concat] at hc; cases hc; decide
  · rw [List.getLast?_append_of_ne_nil _ hrest] at hc
    have hlast : (trim path).getLast? = some c := by
      rw [ht, List.getLast?_cons_of_ne_nil (List.cons_ne_nil _ _), List.getLast?_cons_of_ne_nil hrest, hc]
    rw [List.getLast?_eq_some_getLast hne] at hlast
    rw [← Option.some.inj hlast]
    exact trim_getLast hne

/-- A tilde path is the path it is read as only when the text in front of the rest is `$HOME`. -/
theorem join_eq_iff {home path : String} {rest : List Char} (ht : trim path.toList = '~' :: '/' :: rest) :
    Path.join home (String.ofList rest) = path ↔
      ∃ blanks, path.toList = blanks ++ '~' :: '/' :: rest ∧ (∀ c ∈ blanks, isWhitespace c = true) ∧
        rest.head? ≠ some '/' ∧
          (home = String.ofList (blanks ++ ['~']) ∨ home = String.ofList (blanks ++ ['~', '/'])) := by
  have hofList {l : List Char} : home = String.ofList l ↔ home.toList = l := by
    rw [← String.toList_inj, String.toList_ofList]
  have hdir (blanks : List Char) : dirText home = blanks ++ ['~', '/'] ↔
      home = String.ofList (blanks ++ ['~']) ∨ home = String.ofList (blanks ++ ['~', '/']) := by
    have hassoc : blanks ++ ['~', '/'] = blanks ++ ['~'] ++ ['/'] := by simp
    rw [hofList, hofList, hassoc]
    exact dirText_eq_concat (by rw [List.getLast?_concat]; decide) (by simp)
  obtain ⟨front, back, hpath, hfront, hback⟩ := trim_split path.toList
  rw [ht] at hpath
  constructor
  · intro hjoin
    have hrest : rest.head? ≠ some '/' := by
      intro hhead
      have : Path.join home (String.ofList rest) = String.ofList rest := by
        rw [Path.join, String.toList_ofList, if_pos hhead]
      have hlen := congrArg List.length hpath
      rw [← hjoin, this, String.toList_ofList] at hlen
      simp only [List.length_append, List.length_cons] at hlen
      omega
    have htext := join_toList home hrest
    rw [hjoin, hpath] at htext
    have hnil : back = [] := by
      by_contra hne
      have hlast := getLast_join home ht (back.getLast hne)
        (by rw [← htext, List.getLast?_append_of_ne_nil _ hne, List.getLast?_eq_some_getLast hne])
      rw [hback _ (List.getLast_mem hne)] at hlast
      cases hlast
    subst hnil
    refine ⟨front, by rw [hpath, List.append_nil], hfront, hrest, (hdir front).1 ?_⟩
    have : dirText home ++ rest = front ++ ['~', '/'] ++ rest := by
      rw [← htext, List.append_nil, List.append_assoc]
      rfl
    exact List.append_cancel_right this
  · rintro ⟨blanks, hblanks, -, hrest, hhome⟩
    rw [← String.toList_inj, join_toList home hrest, (hdir blanks).2 hhome, hblanks, List.append_assoc]
    rfl

theorem testedPath_eq_self_iff {home : Option String} {path : String} :
    testedPath home path = some path ↔ AsWritten home path.toList := by
  unfold testedPath AsWritten
  cases hs : stripPrefix ['~', '/'] (trim path.toList) with
  | none =>
    show some (trimText path) = some path ↔ trim path.toList = path.toList
    rw [Option.some_inj, ← String.toList_inj, trimText, String.toList_ofList]
  | some rest =>
    cases home with
    | none => simp
    | some home =>
      show some (Path.join home (String.ofList rest)) = some path ↔ _
      simp only [Option.some_inj]
      exact join_eq_iff (stripPrefix_eq_some.1 hs)

section

variable {h : Host} {found : String → Bool} {pooled : Bool} {path tested : String} {u : Use}

theorem handleOpen_path {a : OpenArgs} (hu : u ∈ handleOpen h found a) :
    u.path = expandPath (files h found) a.path := by
  unfold handleOpen at hu
  dsimp only at hu
  split at hu
  · rw [List.mem_singleton.1 hu, Use.path]
  · rcases List.mem_append.1 hu with hu | hu
    all_goals
      split at hu
      · cases hu
      · rw [List.mem_singleton.1 hu, Use.path]

theorem openDatabase_congr (ev : OpenEvents) {ida ida' : String → Except String String} (expanded : String)
    (plan : OpenPlan) (hida : ∀ p ∈ (Use.opens (plan.existing.getD expanded)).opened, ida p = ida' p) :
    openDatabase { ev with openDatabase := ida } expanded plan =
      openDatabase { ev with openDatabase := ida' } expanded plan := by
  have hpath := hida _ List.mem_cons_self
  unfold openDatabase
  cases hp : plan.existing with
  | none =>
    rw [hp] at hpath
    exact congrArg (·, plan.lockTarget) hpath
  | some path =>
    rw [hp, Option.getD_some] at hida hpath
    dsimp only
    rw [hpath]
    cases ida' path with
    | ok db => rfl
    | error e =>
      cases hid0 : (unpackedId0Path path).filter ev.files.exists? with
      | none => rfl
      | some id0 =>
        have hmem : id0 ∈ (unpackedId0Path path).toList := Option.mem_toList.2 (Option.filter_eq_some_iff.1 hid0).1
        exact congrArg (·, id0) (hida id0 (List.mem_cons_of_mem _ hmem))

/-- What the worker loop gives to IDA to open is among the uses, or made from the output path of the call. -/
theorem openDatabase_uses {a : OpenArgs} (ev : OpenEvents) {ida ida' : String → Except String String}
    (huses : ∀ u ∈ handleOpen h found a, ∀ p ∈ u.opened, ida p = ida' p)
    (hout : ∀ out ∈ a.idbOut, ∀ p ∈ (Use.opens (expandPath (files h found) out)).opened, ida p = ida' p) :
    openDatabase { ev with openDatabase := ida } (expandPath (files h found) a.path) (planOpen (files h found) a) =
      openDatabase { ev with openDatabase := ida' } (expandPath (files h found) a.path)
        (planOpen (files h found) a) := by
  refine openDatabase_congr ev _ _ ?_
  by_cases hidb : isIdbPath (expandPath (files h found) a.path) = true
  · have hplan : (planOpen (files h found) a).existing = some (expandPath (files h found) a.path) := by
      simp only [planOpen, hidb, if_true]
    rw [hplan]
    exact huses _ (by simp [handleOpen, hidb])
  · cases hex : (planOpen (files h found) a).existing with
    | none => exact huses _ (by simp [handleOpen, hidb, hex])
    | some path =>
      have hpath : path = (a.idbOut.map (expandPath (files h found))).getD
          (idbPathForRawBinary (expandPath (files h found) a.path)) := by
        simp only [planOpen, hidb, Bool.false_eq_true, if_false] at hex
        have hgenerated := (Option.filter_eq_some_iff.1 hex).1
        split at hgenerated
        · exact (Option.some.inj hgenerated).symm
        · cases hgenerated
      cases ho : a.idbOut with
      | none =>
        rw [ho] at hpath
        rw [hpath]
        exact huses (.names (expandPath (files h found) a.path) _) (by simp [handleOpen, hidb, ho])
      | some out =>
        rw [ho] at hpath
        rw [hpath]
        exact hout out ho

theorem serverOpen_path {worker : OpenArgs → List Use} {a : OpenArgs}
    (hw : ∀ a : OpenArgs, a.path = trimText path → ∀ u ∈ worker a, u.path = tested)
    (ha : trimText a.path = trimText path) (hu : u ∈ serverOpen h worker a) : u.path = tested := by
  unfold serverOpen at hu
  dsimp only at hu
  split at hu
  · exact hw _ ha u hu
  · cases hu

theorem handleOpen_trimmed (ht : testedPath h.home path = some tested) (a : OpenArgs) (ha : a.path = trimText path)
    (u : Use) (hu : u ∈ handleOpen h found a) : u.path = tested := by
  rw [handleOpen_path hu, ha]
  exact expandPath_trimText (files h found) ht

/-- A worker that is sent a path without blanks around it uses the path that is tested; a child process also takes
the blanks off. -/
theorem workerOpen_trimmed (ht : testedPath h.home path = some tested) (a : OpenArgs) (ha : a.path = trimText path)
    (u : Use) (hu : u ∈ workerOpen h found pooled a) : u.path = tested := by
  unfold workerOpen at hu
  split at hu
  · exact serverOpen_path (handleOpen_trimmed ht) (by rw [ha, trimText_trimText]) hu
  · exact handleOpen_trimmed ht a ha u hu

theorem openIdb_path {a : OpenArgs} (ht : testedPath h.home a.path = some tested)
    (hu : u ∈ openIdb h found pooled a) : u.path = tested :=
  serverOpen_path (workerOpen_trimmed ht) rfl hu

/-- `expand_path` leaves a path as it is that is read as it is written. -/
theorem AsWritten.expandPath_eq (hw : AsWritten h.home path.toList) : expandPath (files h found) path = path := by
  have htested := testedPath_eq_self_iff.2 hw
  cases hs : stripPrefix ['~', '/'] path.toList with
  | none => simp [expandPath, hs]
  | some stripped =>
    have hpath := stripPrefix_eq_some.1 hs
    unfold AsWritten at hw
    cases ht : stripPrefix ['~', '/'] (trim path.toList) with
    | none =>
      rw [ht] at hw
      rw [hw, hs] at ht
      cases ht
    | some rest =>
      rw [ht] at hw
      obtain ⟨blanks, hblanks, hspace, -, -⟩ := hw
      have hnil : blanks = [] := by
        cases blanks with
        | nil => rfl
        | cons c blanks =>
          have hc : c = '~' := by
            rw [hpath] at hblanks
            exact (List.cons.inj hblanks).1.symm
          have := hspace c List.mem_cons_self
          rw [hc] at this
          exact absurd this (by decide)
      have htrim : trimText path = path := by
        rw [← String.toList_inj, trimText, String.toList_ofList, stripPrefix_eq_some.1 ht, hblanks, hnil]
        rfl
      have := expandPath_trimText (files h found) htested
      rwa [htrim] at this

theorem workerOpen_asWritten {a : OpenArgs} (hw : AsWritten h.home path.toList) (ha : a.path = path)
    (hu : u ∈ workerOpen h found pooled a) : u.path = path := by
  unfold workerOpen at hu
  split at hu
  · exact serverOpen_path (handleOpen_trimmed (testedPath_eq_self_iff.2 hw)) (by rw [ha]) hu
  · rw [handleOpen_path hu, ha, hw.expandPath_eq]

theorem openDsc_asWritten {req : OpenDscRequest} (hw : AsWritten h.home req.path.toList)
    (hu : u ∈ openDsc h found pooled req) : u.path = req.path := by
  unfold openDsc at hu
  split at hu
  · cases hu
  · rcases List.mem_append.1 hu with hu | hu
    · rcases List.mem_pair.1 hu with rfl | rfl <;> rfl
    · split at hu
      · cases hu
      · exact workerOpen_asWritten hw rfl hu
      · split at hu
        · cases hu
        · split at hu
          · cases hu
          · rw [List.mem_singleton.1 hu, Use.path]

theorem validate_eq_error {req : OpenDscRequest} (hok : h.validatePath req.path = true) :
    (∃ e, h.validate req = .error e) ↔ VersionRefused req := by
  unfold Host.validate VersionRefused
  rw [if_pos hok]
  cases parseOptionalUnsigned .u8 req.idaVersion "ida_version" with
  | error e => simp [Except.bind]
  | ok version =>
    simp only [Except.bind]
    split
    · rename_i hv; simp [hv]
    · rename_i hv; simp [hv]

end

/-- A path that passes the check is used as it was read for the check by `open_idb`, whatever it is; `open_dsc` and
`run_script` go on with the text of the request instead. -/
theorem uses_tested_iff {h : Host} {call : Call} (hok : h.validatePath call.path = true) (found : String → Bool)
    (pooled : Bool) :
    (∀ u ∈ call.uses h found pooled, testedPath h.home call.path = some u.path) ↔ call.ReadAlike h.home := by
  obtain ⟨tested, ht, -⟩ := validatePath_tested hok
  cases call with
  | openIdb a =>
    refine ⟨fun _ => trivial, fun _ u hu => ?_⟩
    rw [openIdb_path ht hu]
    exact ht
  | openDsc req =>
    have hversion := validate_eq_error hok
    constructor
    · intro hall
      by_cases hv : VersionRefused req
      · exact .inl hv
      · right
        cases hval : h.validate req with
        | error e => exact absurd (hversion.1 ⟨e, hval⟩) hv
        | ok version =>
          have hmem : Use.names req.path (outI64 req.path) ∈ openDsc h found pooled req := by
            simp [openDsc, hval]
          exact testedPath_eq_self_iff.1 (hall _ hmem)
    · rintro (hv | hw) u hu
      · obtain ⟨e, he⟩ := hversion.2 hv
        simp [Call.uses, openDsc, he] at hu
      · rw [openDsc_asWritten hw hu]
        exact testedPath_eq_self_iff.2 hw
  | runScript file =>
    have huse : (Call.runScript file).uses h found pooled = [.reads file] := if_pos hok
    rw [huse]
    show (∀ u ∈ [Use.reads file], testedPath h.home file = some u.path) ↔ AsWritten h.home file.toList
    rw [List.forall_mem_singleton]
    exact testedPath_eq_self_iff

/-- A home directory with a script, and a cache next to it. -/
def homeHost : Host where
  sdkVersion := (9, 4)
  home := some "/home/u"
  isFile path := path == "/home/u/s.py" || path == "/home/u/dsc"
  findIdat := .error (.idaError "idat not found")
  place := id
  canonicalize := some
  hash _ := 0
  tempDir := "/tmp"

theorem uses_tested_iff_homeScript :
    homeHost.validatePath "/home/u/s.py" = true ∧
      ((∀ u ∈ (Call.runScript "/home/u/s.py").uses homeHost (fun _ => false) false,
          testedPath homeHost.home "/home/u/s.py" = some u.path) ↔
        (Call.runScript "/home/u/s.py").ReadAlike homeHost.home) := by
  have hok : homeHost.validatePath (Call.runScript "/home/u/s.py").path = true := by decide +kernel
  exact ⟨hok, uses_tested_iff hok _ _⟩

/-- `run_script` passes the check for a file of the home directory and reads a path where there is none; `open_dsc`
names databases after such a path and opens it, with the blanks around it. -/
theorem other_paths_used :
    (homeHost.validatePath "~/s.py" = true ∧ testedPath homeHost.home "~/s.py" = some "/home/u/s.py" ∧
      (Call.runScript "~/s.py").uses homeHost (fun _ => false) false = [.reads "~/s.py"] ∧
      homeHost.isFile "~/s.py" = false ∧
      ¬ ∀ u ∈ (Call.runScript "~/s.py").uses homeHost (fun _ => false) false,
        testedPath homeHost.home "~/s.py" = some u.path) ∧
    homeHost.validatePath " /home/u/dsc" = true ∧ testedPath homeHost.home " /home/u/dsc" = some "/home/u/dsc" ∧
      homeHost.isFile " /home/u/dsc" = false ∧
      ∃ uses, (Call.openDsc { path := " /home/u/dsc", arch := "arm64", module := "/m" }).uses homeHost
          (fun _ => false) false = uses ∧
        Use.names " /home/u/dsc" " /home/u/dsc.i64" ∈ uses ∧ Use.opens " /home/u/dsc" ∈ uses ∧
        ¬ ∀ u ∈ uses, testedPath homeHost.home " /home/u/dsc" = some u.path := by
  refine ⟨⟨?_, ?_, ?_, ?_, ?_⟩, ?_, ?_, ?_, _, rfl, ?_, ?_, ?_⟩ <;> decide +kernel

end CheckedPath

end IdaRs
