import IdaRs.Lib.FileTree
import IdaRs.Router

/-!
# The identity of a database file

The file system that `canonicalize_lenient` asks, as a tree of directories, files and links with a working
directory. A database file that does not exist yet is identified by its canonical parent and its name, and
afterwards by its own canonical path (`canonicalizeLenient_absent`, `canonicalizeLenient_found`). They are
one path when the name was given with a directory and was no link itself: the parent of a bare file name is
the empty path, which does not canonicalize, and a dangling link is created where it points.
-/

namespace IdaRs

open FileTree

/-- A name in a directory. -/
@[ext]
structure FileName where
  text : List Char
  nonempty : text ≠ []
  noSeparator : '/' ∉ text
  notDot : text ≠ ['.']
  notDots : text ≠ ['.', '.']
deriving DecidableEq

namespace Path

/-- The step that a part of a path between separators stands for. -/
def step (s : List Char) : Step FileName :=
  if h₁ : s = [] ∨ s = ['.'] then .here
  else if h₂ : s = ['.', '.'] then .up
  else if h₃ : '/' ∈ s then .here
  else .name ⟨s, fun h => h₁ (.inl h), h₃, fun h => h₁ (.inr h), h₂⟩

def steps (s : List Char) : List (Step FileName) := (s.splitOn '/').map step

/-- The canonical path of a place. -/
def render (l : List FileName) : String :=
  if l = [] then "/" else String.ofList (l.flatMap fun n => '/' :: n.text)

end Path

/-- Linux's limit on the links in one lookup. -/
def maxLinks : Nat := 40

structure FileSystem where
  tree : FileTree.Tree FileName
  /-- The working directory. -/
  cwd : List FileName
  cwdDir : tree.entry cwd = some .dir
  home : Option String

namespace FileSystem

def start (fs : FileSystem) (s : List Char) : List FileName := if s.head? = some '/' then [] else fs.cwd

/-- The lookup of a path; the empty path leads nowhere. -/
def resolve (fs : FileSystem) (path : String) : Res FileName :=
  if path.toList = [] then .fail else fs.tree.walk maxLinks (fs.start path.toList) (Path.steps path.toList)

/-- What the router reads of it. -/
def files (fs : FileSystem) : Files where
  home := fs.home
  exists? path := match fs.resolve path with | .found .. => true | _ => false
  canonicalize path := match fs.resolve path with | .found l _ => some (Path.render l) | _ => none

/-- A file is created at a free name. -/
def create (fs : FileSystem) (d : List FileName) (n : FileName) (hdir : fs.tree.entry d = some .dir)
    (hfree : fs.tree.entry (d ++ [n]) = none) : FileSystem :=
  { fs with tree := fs.tree.create d n hdir hfree, cwdDir := Tree.create_entry_of_some hdir hfree fs.cwdDir }

/-- `fs'` is `fs` with the file that opening `path` creates, at the place `l`. -/
def Created (fs : FileSystem) (path : String) (l : List FileName) (fs' : FileSystem) : Prop :=
  fs.resolve path = .absent l ∧ ∃ d n hdir hfree, l = d ++ [n] ∧ fs' = fs.create d n hdir hfree

/-- The last name of the path is a link. -/
def linkAt (fs : FileSystem) (path : String) : Bool :=
  match fs.tree.walk maxLinks (fs.start path.toList) (Path.steps path.toList).dropLast,
    (Path.steps path.toList).getLast? with
  | .found l _, some (.name n) =>
    match fs.tree.entry (l ++ [n]) with
    | some (.link ..) => true
    | _ => false
  | _, _ => false

end FileSystem

/-- The path of the database a load works on. -/
def databasePath (fs : Files) (expanded : String) (idbOut : Option String) : String :=
  (effectiveIdbOut fs expanded idbOut).getD expanded

theorem dbIdentity_eq (fs : Files) (expanded : String) (idbOut : Option String) :
    dbIdentity fs expanded idbOut = canonicalizeLenient fs (databasePath fs expanded idbOut) := by
  unfold dbIdentity databasePath
  cases effectiveIdbOut fs expanded idbOut with
  | none => rfl
  | some out => rfl

/-! ### Canonical paths as texts -/

namespace Path

variable {s : List Char} {n : FileName} {l l' : List FileName}

theorem step_name (n : FileName) : step n.text = .name n := by
  simp [step, n.nonempty, n.noSeparator, n.notDot, n.notDots]

theorem step_eq_name (h : step s = .name n) : s = n.text := by
  unfold step at h
  split at h
  · cases h
  · split at h
    · cases h
    · split at h
      · cases h
      · cases h; rfl

theorem steps_append (a b : List Char) : steps (a ++ '/' :: b) = steps a ++ steps b := by
  rw [steps, List.splitOn_append_cons_self, List.map_append]; rfl

theorem steps_of_not_mem (h : '/' ∉ s) : steps s = [step s] := by
  rw [steps, List.splitOn_eq_singleton h]; rfl

theorem steps_nil : steps [] = [.here] := rfl

/-- A `.` at the end of a path, which is given backwards. -/
theorem steps_dot (r : List Char) : steps ('.' :: '/' :: r).reverse = steps ('/' :: r).reverse := by
  simp only [List.reverse_cons, List.append_assoc, List.cons_append, List.nil_append]
  rw [steps_append, steps_append]
  rfl

/-- The text of a canonical path, split at the separators. -/
theorem splitOn_flatMap (l : List FileName) :
    (l.flatMap fun n => '/' :: n.text).splitOn '/' = [] :: l.map FileName.text := by
  induction l using List.reverseRecOn with
  | nil => rfl
  | append_singleton l n ih =>
    rw [List.flatMap_append, List.flatMap_singleton, List.splitOn_append_cons_self, ih,
      List.splitOn_eq_singleton n.noSeparator, List.map_append]
    rfl

theorem render_toList (l : List FileName) :
    (render l).toList = if l = [] then ['/'] else l.flatMap fun n => '/' :: n.text := by
  unfold render
  split
  · rfl
  · rw [String.toList_ofList]

theorem render_head (l : List FileName) : (render l).toList.head? = some '/' := by
  rw [render_toList]
  cases l with
  | nil => rfl
  | cons n l => rfl

theorem steps_render (h : l ≠ []) : steps (render l).toList = .here :: l.map .name := by
  rw [render_toList, if_neg h, steps, splitOn_flatMap, List.map_cons, List.map_map]
  congr 1
  exact List.map_congr_left fun n _ => step_name n

theorem components_render (l : List FileName) :
    components (render l) = .root :: l.map fun n => Component.normal n.text := by
  by_cases h : l = []
  · subst h; decide
  · have hpart : ∀ n ∈ l, (if n.text = [] ∨ n.text = ['.'] then [] else
        if n.text = ['.', '.'] then [Component.parentDir] else [Component.normal n.text]) =
          [Component.normal n.text] :=
      fun n _ => by rw [if_neg (by simp [n.nonempty, n.notDot]), if_neg n.notDots]
    have hparts : ([] :: l.map FileName.text).flatMap (fun p => if p = [] ∨ p = ['.'] then [] else
        if p = ['.', '.'] then [Component.parentDir] else [Component.normal p]) =
        l.map fun n => Component.normal n.text := by
      rw [List.flatMap_cons, if_pos (.inl rfl), List.nil_append, List.flatMap_map, List.flatMap_congr hpart]
      exact List.flatMap_pure_eq_map _ _
    simp only [components, render_toList, if_neg h, splitOn_flatMap]
    cases l with
    | nil => exact absurd rfl h
    | cons m l => exact congrArg _ hparts

/-- A name alone is a relative path. -/
theorem components_name {path : String} (h : path.toList = n.text) : components path = [.normal n.text] := by
  simp [components, h, List.splitOn_eq_singleton n.noSeparator, n.nonempty, n.notDot, n.notDots]

theorem same_render : same (render l) (render l') ↔ l = l' := by
  rw [same, decide_eq_true_eq, components_render, components_render, List.cons.injEq]
  refine ⟨fun h => ?_, fun h => by rw [h]; exact ⟨rfl, rfl⟩⟩
  exact List.map_injective_iff.2 (fun a b hab => FileName.ext (Component.normal.inj hab)) h.2

/-! ### Parents as texts -/

theorem exists_last_separator (h : '/' ∈ s) : ∃ d n, s = d ++ '/' :: n ∧ '/' ∉ n := by
  obtain ⟨a, b, hab, ha⟩ := List.eq_append_cons_of_mem (List.mem_reverse.2 h)
  refine ⟨b.reverse, a.reverse, ?_, by simpa using ha⟩
  have := congrArg List.reverse hab
  simpa using this

/-- A path that ends in a name, backwards. -/
theorem dropTrailing_name (n : FileName) (r : List Char) :
    dropTrailing (n.text.reverse ++ r) = n.text.reverse ++ r := by
  have hsep : '/' ∉ n.text.reverse := by simpa using n.noSeparator
  have hne : n.text.reverse ≠ [] := by simpa using n.nonempty
  have hdot : n.text.reverse ≠ ['.'] := fun h => n.notDot (by simpa using congrArg List.reverse h)
  generalize n.text.reverse = rev at *
  match rev with
  | [] => exact absurd rfl hne
  | [c] =>
    refine dropTrailing_eq_self (fun x h => ?_) fun x h => ?_
    · simp only [List.cons_append, List.cons.injEq] at h
      exact hsep (by simp [h.1])
    · simp only [List.cons_append, List.cons.injEq] at h
      exact hdot (by rw [h.1])
  | c :: c' :: rev =>
    refine dropTrailing_eq_self (fun x h => ?_) fun x h => ?_
    · simp only [List.cons_append, List.cons.injEq] at h
      exact hsep (by simp [h.1])
    · simp only [List.cons_append, List.cons.injEq] at h
      exact hsep (by simp [h.2.1])

theorem takeWhile_name (n : FileName) {r : List Char} (hr : r = [] ∨ r.head? = some '/') :
    (n.text.reverse ++ r).takeWhile (· ≠ '/') = n.text.reverse ∧
      (n.text.reverse ++ r).dropWhile (· ≠ '/') = r := by
  have hall : ∀ c ∈ n.text.reverse, decide (c ≠ '/') = true := fun c hc =>
    decide_eq_true fun heq => n.noSeparator (by simpa [heq] using hc)
  rw [List.takeWhile_append_of_pos hall, List.dropWhile_append_of_pos hall]
  cases r with
  | nil => simp
  | cons c r =>
    obtain rfl : c = '/' := by simpa using hr
    simp

theorem fileName_name {path : String} (n : FileName) {r : List Char} (hr : r = [] ∨ r.head? = some '/')
    (h : path.toList.reverse = n.text.reverse ++ r) : fileName path = some (String.ofList n.text) := by
  have htake := (takeWhile_name n hr).1
  have hname : ¬ (n.text = [] ∨ n.text = ['.'] ∨ n.text = ['.', '.']) := by
    simp [n.nonempty, n.notDot, n.notDots]
  simp only [fileName, splitFileName, h, dropTrailing_name, htake, List.reverse_reverse, if_neg hname,
    Option.map_some]

theorem parent_bare {path : String} (n : FileName) (h : path.toList.reverse = n.text.reverse) :
    parent path = some "" := by
  have htrail := dropTrailing_name n []
  have hdrop := (takeWhile_name n (.inl rfl : ([] : List Char) = [] ∨ _)).2
  simp only [List.append_nil] at htrail hdrop
  rw [parent, h, htrail]
  split
  · rename_i hnil
    exact absurd hnil (by simpa using n.nonempty)
  · rw [hdrop]

theorem parent_dir {path : String} (n : FileName) {r : List Char}
    (h : path.toList.reverse = n.text.reverse ++ '/' :: r) :
    parent path =
      some (if dropTrailing r = [] then "/" else String.ofList (dropTrailing r).reverse) := by
  have hdrop := (takeWhile_name n (.inr rfl : ('/' :: r) = [] ∨ ('/' :: r).head? = some '/')).2
  rw [parent, h, dropTrailing_name]
  split
  · rename_i hnil
    simp at hnil
  · rw [hdrop]
    rfl

end Path

/-! ### The parent of a path, looked up -/

namespace FileSystem

variable {fs : FileSystem} {k k' : Nat} {cur l : List FileName} {path : String} {r : List Char}

theorem walk_here_found (h : fs.tree.walk k cur [.here] = .found l k') :
    fs.tree.entry cur = some .dir ∧ l = cur ∧ k' = k := by
  by_cases hd : fs.tree.entry cur = some .dir
  · rw [Tree.walk_here hd, Tree.walk_nil] at h
    cases h
    exact ⟨hd, rfl, rfl⟩
  · rw [Tree.walk_not_dir hd] at h
    cases h

/-- A step that stays, at the end of a walk. -/
theorem walk_append_here {steps : List (Step FileName)} (h : fs.tree.walk k cur (steps ++ [Step.here]) = .found l k') :
    fs.tree.walk k cur steps = .found l k' := by
  rw [Tree.walk_append] at h
  cases hw : fs.tree.walk k cur steps with
  | found l₀ k₀ =>
    rw [hw] at h
    obtain ⟨-, rfl, rfl⟩ := walk_here_found h
    rfl
  | absent l₀ => rw [hw] at h; cases h
  | fail => rw [hw] at h; cases h

/-- Dropping the separators and the `.` components at its end leads to the same directory. -/
theorem walk_dropTrailing (h : fs.tree.walk k cur (Path.steps r.reverse) = .found l k')
    (hne : Path.dropTrailing r ≠ []) :
    fs.tree.walk k cur (Path.steps (Path.dropTrailing r).reverse) = .found l k' := by
  induction r using Path.dropTrailing.induct with
  | case1 r ih =>
    rw [Path.dropTrailing] at hne ⊢
    rw [List.reverse_cons, Path.steps_append, Path.steps_nil] at h
    exact ih (walk_append_here h) hne
  | case2 r ih =>
    rw [Path.dropTrailing] at hne ⊢
    refine ih ?_ hne
    exact Path.steps_dot r ▸ h
  | case3 r h₁ h₂ => rwa [Path.dropTrailing_eq_self h₁ h₂] at hne ⊢

/-- A path with nothing but separators and `.` components after the root. -/
theorem steps_of_dropTrailing_nil (h : Path.dropTrailing r = []) :
    (∀ s ∈ Path.steps r.reverse, s = .here) ∧ (r ≠ [] → r.reverse.head? = some '/') := by
  induction r using Path.dropTrailing.induct with
  | case1 r ih =>
    rw [Path.dropTrailing] at h
    obtain ⟨h₁, h₂⟩ := ih h
    rw [List.reverse_cons, Path.steps_append, Path.steps_nil]
    refine ⟨fun s hs => ?_, fun _ => ?_⟩
    · rcases List.mem_append.1 hs with hs | hs
      · exact h₁ s hs
      · exact List.mem_singleton.1 hs
    · cases r with
      | nil => rfl
      | cons c r =>
        rw [List.head?_append, h₂ (by simp)]
        rfl
  | case2 r ih =>
    rw [Path.dropTrailing] at h
    obtain ⟨h₁, h₂⟩ := ih h
    rw [Path.steps_dot]
    refine ⟨h₁, fun _ => ?_⟩
    rw [List.reverse_cons, List.head?_append, h₂ (by simp)]
    rfl
  | case3 r h₁ h₂ =>
    rw [Path.dropTrailing_eq_self h₁ h₂] at h
    subst h
    exact ⟨by simp [Path.steps_nil], fun h => absurd rfl h⟩

theorem walk_all_here {steps : List (Step FileName)} (h : ∀ s ∈ steps, s = .here) :
    fs.tree.walk k [] steps = .found [] k := by
  induction steps with
  | nil => exact Tree.walk_nil
  | cons s steps ih =>
    rw [h s List.mem_cons_self, Tree.walk_here fs.tree.root]
    exact ih fun s hs => h s (List.mem_cons_of_mem _ hs)

theorem dropTrailing_suffix (r : List Char) : Path.dropTrailing r <:+ r := by
  induction r using Path.dropTrailing.induct with
  | case1 r ih =>
    rw [Path.dropTrailing]
    exact ih.trans (List.suffix_cons _ _)
  | case2 r ih =>
    rw [Path.dropTrailing]
    exact ih.trans (List.suffix_cons _ _)
  | case3 r h₁ h₂ =>
    rw [Path.dropTrailing_eq_self h₁ h₂]

/-- The directory of a path, looked up by the text of its parent. -/
theorem resolve_parent {d : List Char} {n : FileName} (hpath : path.toList = d ++ '/' :: n.text)
    (h : fs.tree.walk maxLinks (fs.start path.toList) (Path.steps d) = .found l k') :
    ∃ P k'', Path.parent path = some P ∧ fs.resolve P = .found l k'' := by
  have hrev : path.toList.reverse = n.text.reverse ++ '/' :: d.reverse := by rw [hpath]; simp
  rw [Path.parent_dir n hrev]
  by_cases hnil : Path.dropTrailing d.reverse = []
  · -- nothing but the root
    obtain ⟨hhere, hhead⟩ := steps_of_dropTrailing_nil hnil
    rw [List.reverse_reverse] at hhere hhead
    have hstart : fs.start path.toList = [] := by
      rw [start, hpath]
      cases d with
      | nil => rfl
      | cons c d =>
        rw [List.head?_append, hhead (by simp)]
        rfl
    rw [hstart, walk_all_here hhere] at h
    cases h
    rw [if_pos hnil]
    exact ⟨"/", maxLinks, rfl, walk_all_here (by decide)⟩
  · rw [if_neg hnil]
    refine ⟨_, k', rfl, ?_⟩
    have htext : (String.ofList (Path.dropTrailing d.reverse).reverse).toList =
        (Path.dropTrailing d.reverse).reverse := String.toList_ofList
    have hstart : fs.start (Path.dropTrailing d.reverse).reverse = fs.start path.toList := by
      obtain ⟨x, hx⟩ := dropTrailing_suffix d.reverse
      have hd : d = (Path.dropTrailing d.reverse).reverse ++ x.reverse := by
        rw [← List.reverse_append, hx, List.reverse_reverse]
      have hne : (Path.dropTrailing d.reverse).reverse ≠ [] := by simpa using hnil
      have hhead : path.toList.head? = (Path.dropTrailing d.reverse).reverse.head? := by
        generalize (Path.dropTrailing d.reverse).reverse = y at hd hne
        rw [hpath, hd, List.append_assoc, List.head?_append_of_ne_nil _ hne]
      rw [start, start, hhead]
    rw [resolve, htext, if_neg (by simpa using hnil), hstart]
    exact walk_dropTrailing (by rw [List.reverse_reverse]; exact h) hnil

/-- A lookup of one step that ends at a free name. -/
theorem walk_one_absent {s : Step FileName} {loc : List FileName} (h : fs.tree.walk k l [s] = .absent loc) :
    ∃ n, s = .name n ∧ (fs.tree.entry (l ++ [n]) = none ∧ loc = l ++ [n] ∨
      ∃ absolute target, fs.tree.entry (l ++ [n]) = some (.link absolute target)) := by
  by_cases hd : fs.tree.entry l = some .dir
  · cases s with
    | here => rw [Tree.walk_here hd, Tree.walk_nil] at h; cases h
    | up => rw [Tree.walk_up hd, Tree.walk_nil] at h; cases h
    | name n =>
      refine ⟨n, rfl, ?_⟩
      rw [Tree.walk_name hd] at h
      split at h
      · rename_i absolute target hl
        exact .inr ⟨absolute, target, hl⟩
      · rw [Tree.walk_nil] at h; cases h
      · rename_i hnone
        rw [if_pos rfl] at h
        exact .inl ⟨hnone, (Res.absent.inj h).symm⟩
  · rw [Tree.walk_not_dir hd] at h
    cases h

theorem render_append (l : List FileName) (n : FileName) :
    Path.join (Path.render l) (String.ofList n.text) = Path.render (l ++ [n]) := by
  have hhead : (String.ofList n.text).toList.head? ≠ some '/' := by
    rw [String.toList_ofList]
    intro h
    exact n.noSeparator (List.mem_of_mem_head? h)
  have htext : (Path.render (l ++ [n])).toList = l.flatMap (fun n => '/' :: n.text) ++ '/' :: n.text := by
    rw [Path.render_toList, if_neg (by simp), List.flatMap_append, List.flatMap_singleton]
  apply String.toList_injective
  rw [htext, Path.join, if_neg hhead]
  by_cases hl : l = []
  · subst hl
    rw [if_pos (.inr rfl), String.toList_append, String.toList_ofList]
    rfl
  · have hlast : ¬ ((Path.render l).toList = [] ∨ (Path.render l).toList.getLast? = some '/') := by
      obtain ⟨l₀, m, rfl⟩ := (List.eq_nil_or_concat l).resolve_left hl
      rw [Path.render_toList, if_neg hl, List.concat_eq_append, List.flatMap_append, List.flatMap_singleton,
        List.getLast?_append_of_ne_nil _ (List.cons_ne_nil _ _), List.getLast?_cons_of_ne_nil m.nonempty]
      rintro (h | h)
      · simp at h
      · exact m.noSeparator (List.mem_of_getLast? h)
    rw [if_neg hlast]
    simp [Path.render_toList, hl]

/-! ### The identity before the file exists, and after -/

theorem resolve_absent_ne {loc : List FileName} (h : fs.resolve path = .absent loc) :
    path.toList ≠ [] ∧ fs.tree.walk maxLinks (fs.start path.toList) (Path.steps path.toList) = .absent loc := by
  unfold resolve at h
  split at h
  · cases h
  · exact ⟨‹_›, h⟩

theorem canonicalize_of_absent {loc : List FileName} (h : fs.resolve path = .absent loc) :
    fs.files.canonicalize path = none := by
  simp only [files, h]

theorem canonicalize_of_found (h : fs.resolve path = .found l k) :
    fs.files.canonicalize path = some (Path.render l) := by
  simp only [files, h]

theorem canonicalizeLenient_of_found (h : fs.resolve path = .found l k) :
    canonicalizeLenient fs.files path = Path.render l := by
  rw [canonicalizeLenient, canonicalize_of_found h]

/-- A free name without a directory: the parent is the empty path, and the path stays as it is. -/
theorem canonicalizeLenient_bare {loc : List FileName} (h : fs.resolve path = .absent loc)
    (hsep : '/' ∉ path.toList) :
    canonicalizeLenient fs.files path = path ∧ ∃ n : FileName, path.toList = n.text := by
  obtain ⟨-, hwalk⟩ := resolve_absent_ne h
  rw [Path.steps_of_not_mem hsep] at hwalk
  obtain ⟨n, hstep, -⟩ := walk_one_absent hwalk
  have htext := Path.step_eq_name hstep
  refine ⟨?_, n, htext⟩
  have hempty : fs.files.canonicalize "" = none := rfl
  have hname : Path.fileName path = some (String.ofList n.text) :=
    Path.fileName_name n (.inl rfl) (by rw [htext, List.append_nil])
  rw [canonicalizeLenient, canonicalize_of_absent h, Path.parent_bare n (by rw [htext]), hname]
  simp only [hempty]

/-- A free name with a directory: the canonical path of the directory, and the name. The file will be there
unless the name is a link. -/
theorem canonicalizeLenient_dir {loc : List FileName} (h : fs.resolve path = .absent loc)
    (hsep : '/' ∈ path.toList) :
    ∃ l n, canonicalizeLenient fs.files path = Path.render (l ++ [n]) ∧
      (fs.linkAt path = false ∧ loc = l ++ [n] ∨ fs.linkAt path = true ∧ fs.tree.entry (l ++ [n]) ≠ none) := by
  obtain ⟨-, hwalk⟩ := resolve_absent_ne h
  obtain ⟨d, s, hpath, hs⟩ := Path.exists_last_separator hsep
  have hsteps : Path.steps path.toList = Path.steps d ++ [Path.step s] := by
    rw [hpath, Path.steps_append, Path.steps_of_not_mem hs]
  rw [hsteps, Tree.walk_append] at hwalk
  cases hdir : fs.tree.walk maxLinks (fs.start path.toList) (Path.steps d) with
  | absent l₀ =>
    rw [hdir, Tree.Res.andThen, if_neg (List.cons_ne_nil _ _)] at hwalk
    cases hwalk
  | fail => rw [hdir] at hwalk; cases hwalk
  | found l k' =>
    rw [hdir] at hwalk
    obtain ⟨n, hstep, hend⟩ := walk_one_absent hwalk
    obtain rfl := Path.step_eq_name hstep
    obtain ⟨P, k'', hparent, hP⟩ := resolve_parent hpath hdir
    have hname : Path.fileName path = some (String.ofList n.text) :=
      Path.fileName_name (r := '/' :: d.reverse) n (.inr rfl) (by rw [hpath]; simp)
    refine ⟨l, n, ?_, ?_⟩
    · rw [canonicalizeLenient, canonicalize_of_absent h, hparent, hname]
      simp only [canonicalize_of_found hP]
      exact render_append l n
    · rcases hend with ⟨hnone, hloc⟩ | ⟨absolute, target, hl⟩
      · refine .inl ⟨?_, hloc⟩
        rw [linkAt, hsteps, List.dropLast_concat, hdir, List.getLast?_concat, hstep]
        simp only [hnone]
      · refine .inr ⟨?_, by simp [hl]⟩
        rw [linkAt, hsteps, List.dropLast_concat, hdir, List.getLast?_concat, hstep]
        simp only [hl]

/-- After the file is created its path leads to it. -/
theorem Created.resolve {fs' : FileSystem} {loc : List FileName} (h : fs.Created path loc fs') :
    ∃ k, fs'.resolve path = .found loc k := by
  obtain ⟨habs, d, n, hdir, hfree, rfl, rfl⟩ := h
  obtain ⟨hne, hwalk⟩ := resolve_absent_ne habs
  obtain ⟨k', hk', -⟩ := Tree.walk_create hdir hfree (d ++ [n]) (.inr ⟨hwalk, rfl⟩)
  exact ⟨k', by rw [FileSystem.resolve, if_neg hne]; exact hk'⟩

/-- The two identities of a database file are one exactly when its path has a directory part and does not end
in a link. -/
theorem Created.same_iff {fs' : FileSystem} {loc : List FileName} (h : fs.Created path loc fs') :
    Path.same (canonicalizeLenient fs.files path) (Path.render loc) ↔
      '/' ∈ path.toList ∧ fs.linkAt path = false := by
  by_cases hsep : '/' ∈ path.toList
  · obtain ⟨l, n, hbefore, ⟨hlink, rfl⟩ | ⟨hlink, hentry⟩⟩ := canonicalizeLenient_dir h.1 hsep
    · rw [hbefore]
      exact ⟨fun _ => ⟨hsep, hlink⟩, fun _ => Path.same_render.2 rfl⟩
    · rw [hbefore, Path.same_render]
      -- the link is there and the place of the file was free
      refine ⟨?_, fun hc => by rw [hlink] at hc; cases hc.2⟩
      rintro rfl
      obtain ⟨-, -, -, -, hnone⟩ := Tree.walk_absent (resolve_absent_ne h.1).2
      exact absurd hnone hentry
  · obtain ⟨hbefore, n, htext⟩ := canonicalizeLenient_bare h.1 hsep
    rw [hbefore]
    refine ⟨fun hsame => ?_, fun hc => absurd hc.1 hsep⟩
    rw [Path.same, decide_eq_true_eq, Path.components_render, Path.components_name htext] at hsame
    cases hsame

theorem exists_found (h : fs.files.exists? path = true) : ∃ l k, fs.resolve path = .found l k := by
  cases hr : fs.resolve path with
  | found l k => exact ⟨l, k, rfl⟩
  | absent l => simp [files, hr] at h
  | fail => simp [files, hr] at h

/-- The canonical path of a file leads to it. -/
theorem resolve_render {x : Entry FileName} (h : fs.tree.entry l = some x)
    (hx : ∀ absolute target, x ≠ .link absolute target) (hne : l ≠ []) :
    fs.resolve (Path.render l) = .found l maxLinks := by
  have htext : (Path.render l).toList ≠ [] := by
    intro h
    have := Path.render_head l
    rw [h] at this
    cases this
  rw [resolve, if_neg htext, start, if_pos (Path.render_head l), Path.steps_render hne, Tree.walk_here fs.tree.root]
  exact Tree.walk_names h hx

end FileSystem

/-! ### Loads of one database -/

namespace Router

variable {fs fs' : FileSystem} {loc : List FileName} {p : String} {job : Load}

theorem loadPrologue_ok {fs : Files} {path idbOut : Option String} {auto : Option Bool}
    (h : loadPrologue fs path auto idbOut = .ok job) :
    fs.exists? job.expanded = true ∧ job.canonPath = canonicalizeLenient fs job.expanded ∧
      job.dbIdentity = canonicalizeLenient fs (databasePath fs job.expanded idbOut) := by
  cases path with
  | none => cases h
  | some path =>
    unfold loadPrologue at h
    by_cases hex : fs.exists? (expandPath fs path)
    · simp only [hex, if_true, Except.ok.injEq] at h
      subst h
      refine ⟨hex, rfl, ?_⟩
      dsimp only
      rw [dbIdentity_eq]
    · simp only [hex, if_false, reduceCtorEq] at h

/-- Any load whose database path leads to `loc` conflicts with a loaded target of `job`. -/
def Rejected (fs : FileSystem) (job : Load) (loc : List FileName) : Prop :=
  ∀ (st : RouterState) (id : String) (entry : WorkerEntry) (path : Option String) (auto : Option Bool)
    (idbOut : Option String) (job' : Load),
    (id, entry) ∈ st.targets → entry.canonPath = job.canonPath → entry.dbIdentity = job.dbIdentity →
    loadPrologue fs.files path auto idbOut = .ok job' →
    (∃ k, fs.resolve (databasePath fs.files job'.expanded idbOut) = .found loc k) →
    st.conflict job' ≠ none

theorem rejected_of_same (h : Path.same job.dbIdentity (Path.render loc)) : Rejected fs job loc := by
  intro st id entry path auto idbOut job' hmem _ hdb hload ⟨k, hk⟩ hnone
  have hdb' : job'.dbIdentity = Path.render loc :=
    (loadPrologue_ok hload).2.2.trans (FileSystem.canonicalizeLenient_of_found hk)
  have hfree := RouterState.conflict_eq_none.1 hnone _ hmem
  exact hfree.2 (by rw [hdb, hdb']; exact h)

/-- The load that names the file by its canonical path. -/
theorem loadPrologue_render (h : fs.tree.entry loc = some .file) (hne : loc ≠ []) :
    ∃ job', loadPrologue fs.files (some (Path.render loc)) none (some (Path.render loc)) = .ok job' ∧
      job'.canonPath = Path.render loc ∧ job'.dbIdentity = Path.render loc ∧
      ∃ k, fs.resolve (databasePath fs.files job'.expanded (some (Path.render loc))) = .found loc k := by
  have hfound := FileSystem.resolve_render h nofun hne
  have hexpand : expandPath fs.files (Path.render loc) = Path.render loc := by
    have hhead := Path.render_head loc
    unfold expandPath
    cases hp : (Path.render loc).toList with
    | nil => rfl
    | cons c rest =>
      rw [hp] at hhead
      cases hhead
      rfl
  have hpath : databasePath fs.files (Path.render loc) (some (Path.render loc)) = Path.render loc := by
    unfold databasePath effectiveIdbOut
    split
    · rfl
    · exact hexpand
  have hex : fs.files.exists? (Path.render loc) = true := by simp only [FileSystem.files, hfound]
  have hjob : ∃ job', loadPrologue fs.files (some (Path.render loc)) none (some (Path.render loc)) = .ok job' ∧
      job'.expanded = Path.render loc := by
    simp only [loadPrologue, hexpand, hex, if_true]
    exact ⟨_, rfl, rfl⟩
  obtain ⟨job', hload, hexp⟩ := hjob
  obtain ⟨-, hcanon, hdb⟩ := loadPrologue_ok hload
  rw [hexp] at hcanon hdb
  rw [hpath] at hdb
  refine ⟨job', hload, hcanon.trans (FileSystem.canonicalizeLenient_of_found hfound),
    hdb.trans (FileSystem.canonicalizeLenient_of_found hfound), maxLinks, ?_⟩
  rw [hexp, hpath]
  exact hfound

theorem Created.entry (h : fs.Created p loc fs') :
    fs.tree.entry loc = none ∧ fs'.tree.entry loc = some .file ∧ loc ≠ [] := by
  obtain ⟨-, d, n, hdir, hfree, rfl, rfl⟩ := h
  exact ⟨hfree, Tree.create_entry_self hdir hfree, by simp⟩

theorem start_entry (fs : FileSystem) (path : List Char) : fs.tree.entry (fs.start path) ≠ none := by
  unfold FileSystem.start
  split
  · rw [fs.tree.root]; nofun
  · rw [fs.cwdDir]; nofun

/-- A lookup that ends at a place ends at something. -/
theorem resolve_entry {path : String} {l : List FileName} {k : Nat} (h : fs.resolve path = .found l k) :
    fs.tree.entry l ≠ none := by
  unfold FileSystem.resolve at h
  split at h
  · cases h
  · exact Tree.walk_found h (start_entry fs _)

/-- A load of the new file by its canonical path passes when the identities differ: the first load's input
is another file, as it was there before. -/
theorem not_rejected_of_not_same {path idbOut : Option String} {auto : Option Bool}
    (hload : loadPrologue fs.files path auto idbOut = .ok job) (hcreated : fs.Created p loc fs')
    (h : ¬ Path.same job.dbIdentity (Path.render loc)) : ¬ Rejected fs' job loc := by
  obtain ⟨hfree, hfile, hne⟩ := Created.entry hcreated
  obtain ⟨job', hload', hcanon', hdb', hloc⟩ := loadPrologue_render hfile hne
  obtain ⟨hex, hcanon, -⟩ := loadPrologue_ok hload
  obtain ⟨l, k, hl⟩ := FileSystem.exists_found hex
  have hinput : ¬ Path.same job.canonPath (Path.render loc) := by
    rw [hcanon, FileSystem.canonicalizeLenient_of_found hl, Path.same_render]
    rintro rfl
    exact resolve_entry hl hfree
  intro hrej
  let entry : WorkerEntry :=
    ⟨⟨"t1", job.expanded, "", "", "", 0, 0⟩, "", job.canonPath, job.dbIdentity, 0⟩
  refine hrej (RouterState.insert {} "t1" entry) "t1" entry _ _ _ job' ?_ rfl rfl hload' hloc ?_
  · exact List.mem_append_right _ (List.mem_singleton_self _)
  · refine RouterState.conflict_eq_none.2 fun e he => ?_
    obtain rfl : e = ("t1", entry) := by simpa [RouterState.insert] using he
    rw [hcanon', hdb']
    exact ⟨hinput, h⟩

/-- When the first load's output file is created, its identity and the conflict with every later load of it
stay exactly when the output path has a directory part and does not end in a link. -/
theorem identity_stable (fs fs' : FileSystem) (p : String) (loc : List FileName) (hcreated : fs.Created p loc fs') :
    (Path.same (canonicalizeLenient fs.files p) (canonicalizeLenient fs'.files p) ↔
      '/' ∈ p.toList ∧ fs.linkAt p = false) ∧
    ∀ (path : Option String) (auto : Option Bool) (idbOut : Option String) (job : Load),
      loadPrologue fs.files path auto idbOut = .ok job → effectiveIdbOut fs.files job.expanded idbOut = some p →
      (Rejected fs' job loc ↔ '/' ∈ p.toList ∧ fs.linkAt p = false) := by
  constructor
  · obtain ⟨k, hk⟩ := hcreated.resolve
    rw [FileSystem.canonicalizeLenient_of_found hk]
    exact hcreated.same_iff
  · intro path auto idbOut job hload hout
    have hdb : job.dbIdentity = canonicalizeLenient fs.files p := by
      rw [(loadPrologue_ok hload).2.2, databasePath, hout]
      rfl
    rw [← hcreated.same_iff, ← hdb]
    refine ⟨fun hrej => ?_, rejected_of_same⟩
    by_contra hsame
    exact not_rejected_of_not_same hload hcreated hsame hrej

/-! ### A working directory with one file -/

def cwdName : FileName := ⟨['c', 'w', 'd'], by decide, by decide, by decide, by decide⟩

def appName : FileName := ⟨['a', 'p', 'p'], by decide, by decide, by decide, by decide⟩

def databaseName : FileName :=
  ⟨['a', 'p', 'p', '.', 'i', '6', '4'], by decide, by decide, by decide, by decide⟩

/-- The root and `/cwd`. -/
def cwdTree : FileTree.Tree FileName where
  entry l := if l = [] ∨ l = [cwdName] then some .dir else none
  root := by decide
  parent l n h := by
    have hl : l = [] := by
      cases l with
      | nil => rfl
      | cons m l => simp at h
    rw [if_pos (.inl hl)]

/-- `/cwd/app`, in the working directory `/cwd`. -/
def appFiles : FileSystem where
  tree := cwdTree.create [cwdName] appName (by decide) (by decide)
  cwd := [cwdName]
  cwdDir := by decide
  home := none

/-- The same with `/cwd/app.i64`. -/
def databaseFiles : FileSystem := appFiles.create [cwdName] databaseName (by decide) (by decide)

theorem identity_stable_absolute :
    Rejected databaseFiles ⟨"/cwd/app", "/cwd/app", "/cwd/app.i64", true, none⟩ [cwdName, databaseName] :=
  ((identity_stable appFiles databaseFiles "/cwd/app.i64" [cwdName, databaseName]
    ⟨by decide +kernel, [cwdName], databaseName, by decide, by decide, rfl, rfl⟩).2
    (some "/cwd/app") none none _ (by decide +kernel) (by decide +kernel)).2 (by decide +kernel)

/-- The bare name `app`: its database is found under the name `app.i64` before and under `/cwd/app.i64` after,
and a load of `/cwd/app.i64` passes. -/
theorem bare_name_loaded_twice :
    loadPrologue appFiles.files (some "app") none none =
      .ok ⟨"app", "/cwd/app", "app.i64", true, none⟩ ∧
    effectiveIdbOut appFiles.files "app" none = some "app.i64" ∧
    appFiles.Created "app.i64" [cwdName, databaseName] databaseFiles ∧
    ¬ Path.same (canonicalizeLenient appFiles.files "app.i64") (canonicalizeLenient databaseFiles.files "app.i64") ∧
    ¬ Rejected databaseFiles ⟨"app", "/cwd/app", "app.i64", true, none⟩ [cwdName, databaseName] := by
  refine ⟨by decide +kernel, by decide +kernel,
    ⟨by decide +kernel, [cwdName], databaseName, by decide, by decide, rfl, rfl⟩, by decide +kernel, fun h => ?_⟩
  let entry : WorkerEntry := ⟨⟨"t1", "app", "app", "", "", 64, 0⟩, "", "/cwd/app", "app.i64", 0⟩
  refine h { targets := [("t1", entry)] } "t1" entry (some "/cwd/app.i64") none none
    ⟨"/cwd/app.i64", "/cwd/app.i64", "/cwd/app.i64", true, none⟩ ?_ rfl rfl ?_ ⟨maxLinks, ?_⟩ ?_
  · exact List.mem_singleton_self _
  · decide +kernel
  · decide +kernel
  · decide +kernel

end Router

end IdaRs
