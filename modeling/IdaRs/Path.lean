import Mathlib.Data.List.Basic

/-!
# Paths (`std::path`, on Unix)

A path is its text. `fileName` is the last component when that is a normal one: separators and `.`
components after it do not count, and `/`, `.`, `..` have none.
-/

namespace IdaRs

namespace Path

/-- Drops the separators and `.` components at the end of a path given backwards. -/
def dropTrailing : List Char → List Char
  | '/' :: rest => dropTrailing rest
  | '.' :: '/' :: rest => dropTrailing ('/' :: rest)
  | rev => rev

theorem dropTrailing_eq_self {s : List Char} (h₁ : ∀ x, s ≠ '/' :: x) (h₂ : ∀ x, s ≠ '.' :: '/' :: x) :
    dropTrailing s = s := by
  unfold dropTrailing
  split
  · exact absurd rfl (h₁ _)
  · exact absurd rfl (h₂ _)
  · rfl

/-- What stands before the file name, and the file name. -/
def splitFileName (path : List Char) : Option (List Char × List Char) :=
  let rev := dropTrailing path.reverse
  let name := (rev.takeWhile (· ≠ '/')).reverse
  if name = [] ∨ name = ['.'] ∨ name = ['.', '.'] then none
  else some ((rev.dropWhile (· ≠ '/')).reverse, name)

/-- The stem and the extension of a file name: cut at the last dot, unless it is the first character. -/
def splitExtension (name : List Char) : List Char × Option (List Char) :=
  let ext := (name.reverse.takeWhile (· ≠ '.')).reverse
  match (name.reverse.dropWhile (· ≠ '.')).reverse.dropLast with
  | [] => (name, none)
  | stem => (stem, some ext)

def fileName (path : String) : Option String := (splitFileName path.toList).map fun p => String.ofList p.2

def extension (path : String) : Option String :=
  (splitFileName path.toList).bind fun p => (splitExtension p.2).2.map String.ofList

inductive Component
  | root
  | curDir
  | parentDir
  | normal (name : List Char)
deriving DecidableEq, Repr

/-- `components`: empty parts are skipped, and `.` anywhere but at the head. -/
def components (path : String) : List Component :=
  let part (p : List Char) : List Component :=
    if p = [] ∨ p = ['.'] then [] else if p = ['.', '.'] then [.parentDir] else [.normal p]
  let parts := path.toList.splitOn '/'
  match parts with
  | [] :: _ :: _ => .root :: parts.flatMap part
  | ['.'] :: _ => .curDir :: parts.flatMap part
  | _ => parts.flatMap part

/-- `==` on paths compares their components. -/
def same (a b : String) : Bool := decide (components a = components b)

theorem same_comm (a b : String) : same a b = same b a := decide_eq_decide.2 eq_comm

/-- `parent`, without the separators at its end. -/
def parent (path : String) : Option String :=
  match dropTrailing path.toList.reverse with
  | [] => none
  | rev =>
    match rev.dropWhile (· ≠ '/') with
    | [] => some ""
    | rest => some (if dropTrailing rest = [] then "/" else String.ofList (dropTrailing rest).reverse)

/-- `join`; an absolute path takes the place of `base`. -/
def join (base path : String) : String :=
  if path.toList.head? = some '/' then path
  else if base.toList = [] ∨ base.toList.getLast? = some '/' then base ++ path
  else base ++ "/" ++ path

/-- `set_extension`; a path without a file name stays as it is. -/
def setExtension (path ext : String) : String :=
  match splitFileName path.toList with
  | none => path
  | some (dir, name) =>
    String.ofList (dir ++ (splitExtension name).1) ++ (if ext = "" then "" else "." ++ ext)

example : setExtension "/db/app.i64" "imcp" = "/db/app.imcp" := by decide +kernel
example : setExtension "/db/.hidden/." "imcp" = "/db/.hidden.imcp" := by decide +kernel

end Path

end IdaRs
