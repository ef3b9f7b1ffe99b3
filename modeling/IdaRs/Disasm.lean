import IdaRs.Idb
import IdaRs.Lib.Window

/-!
# Disassembly (`src/ida/handlers/disasm.rs` 28-105, `src/daemon/worker.rs` 376-412, 873-879)

`handle_disasm` walks from an address and `handle_disasm_function_at` from the start of a function to its end; both
join the lines of at most `count` instructions. The worker asks for `offset` lines more than its page has and cuts them
off the text again.
-/

namespace IdaRs

namespace Handlers

open Window

/-! ### Lines of a text -/

/-- `lines.join("\n")`. -/
def joinLines (lines : List (List Char)) : List Char := ['\n'].intercalate lines

/-- Skip the first `offset` lines from a newline-separated string. -/
def applyLineOffset (s : List Char) (offset : Nat) : List Char :=
  if offset = 0 then s else joinLines ((strLines s).drop offset)

/-! ### Handlers -/

/-- `format!("{:#x}:\t{}", current_addr, line)`. -/
def disasmRow (a : Address) (line : String) : List Char := (fmtAddr a).toList ++ ':' :: '\t' :: line.toList

/-- Where the walk goes after the line at an address. -/
def advance (db : Idb) (current : Address) : Exec (Option Address) :=
  match db.insnAt current with
  | some insn => do return some (UInt64.ofNat (← checkedAdd current.toNat insn.len))
  | none =>
    match db.nextHead current with
    | some next => .ok (if next ≤ current then none else some next)
    | none => .ok none

/-- The loop of the walk, for `room` more lines and as long as `inside` holds. -/
def disasmLoop (db : Idb) (inside : Address → Bool) : Nat → Address → List (List Char) → Exec (List (List Char))
  | 0, _, lines => .ok lines
  | room + 1, current, lines =>
    if inside current then
      match db.disasmLine current with
      | some line => do
        let lines := lines ++ [disasmRow current line]
        match ← advance db current with
        | some next => disasmLoop db inside room next lines
        | none => return lines
      | none => .ok lines
    else .ok lines

/-- A line is a string. -/
def lineSize : Nat := 24

def answerLines (addr : Address) (lines : List (List Char)) : Exec (List Char) :=
  if lines = [] then .error (.tool (.addressOutOfRange addr.toNat)) else .ok (joinLines lines)

def handleDisasm (idb : Option Idb) (addr : Address) (count : Nat) : Exec (List Char) := do
  let db ← liftTool (opened idb)
  withCapacity db.grants lineSize count
  answerLines addr (← disasmLoop db (fun _ => true) count addr [])

def handleDisasmFunctionAt (idb : Option Idb) (addr : Address) (count : Nat) : Exec (List Char) := do
  let db ← liftTool (opened idb)
  match db.functionAt addr with
  | none => .error (.tool (.functionNotFound addr.toNat))
  | some func => answerLines addr (← disasmLoop db (fun a => decide (a < func.stop)) count func.start [])

/-! ### Operations of the worker -/

def disasmPage (idb : Option Idb) (addr : Address) (offset count : Nat) : Exec (List Char) := do
  let total ← checkedAdd count offset
  return applyLineOffset (← handleDisasm idb addr total) offset

def disasmFunctionAtPage (idb : Option Idb) (addr : Address) (offset count : Nat) : Exec (List Char) := do
  let total ← checkedAdd count offset
  return applyLineOffset (← handleDisasmFunctionAt idb addr total) offset

/-! ### Joining and cutting lines -/

/-- A line that is one line of any text it is joined into. -/
def OneLine (l : List Char) : Prop := '\n' ∉ l ∧ l.getLast? ≠ some '\r' ∧ l ≠ []

theorem strLines_joinLines {lines : List (List Char)} (h : ∀ l ∈ lines, OneLine l) :
    strLines (joinLines lines) = lines := by
  rcases List.eq_nil_or_concat' lines with rfl | ⟨init, last, rfl⟩
  · rfl
  have hsplit : (joinLines (init ++ [last])).splitOn '\n' = init ++ [last] :=
    List.splitOn_intercalate '\n' (fun l hl => (h l hl).1) (by simp)
  have hinit : (init.map fun l => if l.getLast? = some '\r' then l.dropLast else l) = init := by
    refine (List.map_congr_left fun l hl => ?_).trans (List.map_id _)
    exact if_neg (h l (List.mem_append_left _ hl)).2.1
  have hlast : last ≠ [] := (h last (by simp)).2.2
  simp only [strLines, hsplit, List.dropLast_concat, List.getLast?_concat, Option.getD_some, hinit, if_neg hlast]

theorem applyLineOffset_joinLines {lines : List (List Char)} (h : ∀ l ∈ lines, OneLine l) (offset : Nat) :
    applyLineOffset (joinLines lines) offset = joinLines (lines.drop offset) := by
  rw [applyLineOffset]
  split
  · rename_i h0
    rw [h0, List.drop_zero]
  · rw [strLines_joinLines h]

theorem joinLines_append {a b : List (List Char)} (ha : a ≠ []) (hb : b ≠ []) :
    joinLines (a ++ b) = joinLines a ++ '\n' :: joinLines b := by
  induction a with
  | nil => exact absurd rfl ha
  | cons l a ih =>
    rcases eq_or_ne a [] with rfl | hne
    · rw [List.singleton_append, joinLines, List.intercalate_cons_of_ne_nil hb, joinLines, List.intercalate_singleton,
        List.append_assoc]
      rfl
    · have hab : a ++ b ≠ [] := by simp [hne]
      rw [List.cons_append, joinLines, List.intercalate_cons_of_ne_nil hab, joinLines,
        List.intercalate_cons_of_ne_nil hne, List.append_assoc, ← joinLines, ih hne, ← joinLines]
      simp

/-- A page without text has no lines. -/
theorem joinLines_eq_nil {lines : List (List Char)} (h : ∀ l ∈ lines, OneLine l) :
    joinLines lines = [] ↔ lines = [] := by
  constructor
  · intro hnil
    have hlines := strLines_joinLines h
    rw [hnil] at hlines
    exact hlines.symm
  · rintro rfl
    rfl

/-! ### The walk -/

/-- The line at an address of the walk. -/
def lineAt (db : Idb) (inside : Address → Bool) (a : Address) : Option (List Char) :=
  if inside a then (db.disasmLine a).map (disasmRow a) else none

/-- The address after it. -/
def following (db : Idb) (a : Address) : Option Address :=
  match db.insnAt a with
  | some insn => some (UInt64.ofNat (a.toNat + insn.len))
  | none => (db.nextHead a).filter fun next => decide (a < next)

theorem advance_eq (db : Idb) (a : Address) : advance db a = .ok (following db a) := by
  rw [advance, following]
  cases hinsn : db.insnAt a with
  | some insn =>
    simp only [checkedAdd_ok (db.insn_end a insn hinsn)]
    rfl
  | none =>
    cases db.nextHead a with
    | none => rfl
    | some next =>
      dsimp only
      rw [Option.filter_some]
      by_cases hle : next ≤ a
      · have hlt : ¬ decide (a < next) = true := by simpa using hle
        rw [if_pos hle, if_neg hlt]
      · have hlt : decide (a < next) = true := by simpa using hle
        rw [if_neg hle, if_pos hlt]

theorem disasmLoop_eq (db : Idb) (inside : Address → Bool) (room : Nat) (a : Address) (lines : List (List Char)) :
    disasmLoop db inside room a lines = .ok (lines ++ unroll (lineAt db inside) (following db) room a) := by
  induction room generalizing a lines with
  | zero => rw [disasmLoop, unroll, List.append_nil]
  | succ room ih =>
    rw [disasmLoop, unroll, lineAt]
    by_cases hin : inside a = true
    · rw [if_pos hin, if_pos hin]
      cases hline : db.disasmLine a with
      | none => rw [Option.map_none, List.append_nil]
      | some line =>
        simp only [advance_eq, bind, Except.bind, Option.map_some]
        cases hnext : following db a with
        | none => rfl
        | some next =>
          simp only [ih, Option.map_some, Option.getD_some, List.append_assoc, List.singleton_append]
    · rw [if_neg hin, if_neg hin, List.append_nil]

/-- Line number `k` of the listing that begins at an address. -/
def listing (db : Idb) (inside : Address → Bool) (a : Address) (k : Nat) : Option (List Char) :=
  element (lineAt db inside) (following db) k a

/-- No generated line contains a line terminator. -/
def CleanLines (db : Idb) : Prop :=
  ∀ a line, db.disasmLine a = some line → '\n' ∉ line.toList ∧ line.toList.getLast? ≠ some '\r'

theorem oneLine_lineAt {db : Idb} (h : CleanLines db) {inside : Address → Bool} {a : Address} {l : List Char}
    (hl : lineAt db inside a = some l) : OneLine l := by
  rw [lineAt] at hl
  split at hl
  · obtain ⟨line, hline, rfl⟩ := Option.map_eq_some_iff.1 hl
    obtain ⟨hn, hr⟩ := h a line hline
    have haddr : '\n' ∉ (fmtAddr a).toList := by
      intro hmem
      have hplain := (hexLit_plain hmem).1
      exact absurd hplain (by decide)
    refine ⟨?_, ?_, by simp [disasmRow]⟩
    · simp [disasmRow, haddr, hn]
    · rw [disasmRow, List.getLast?_append_cons]
      cases hlast : line.toList with
      | nil => decide
      | cons c cs =>
        rw [hlast] at hr
        rwa [List.getLast?_cons_cons, List.getLast?_cons_cons]
  · cases hl

theorem oneLine_listing {db : Idb} (h : CleanLines db) {inside : Address → Bool} {a : Address} {k : Nat} {l : List Char}
    (hl : listing db inside a k = some l) : OneLine l := by
  induction k generalizing a with
  | zero => exact oneLine_lineAt h hl
  | succ k ih =>
    rw [listing, element] at hl
    obtain ⟨_, -, hl⟩ := Option.bind_eq_some_iff.1 hl
    obtain ⟨a', -, hl⟩ := Option.bind_eq_some_iff.1 hl
    exact ih hl

theorem oneLine_slice {db : Idb} (h : CleanLines db) (inside : Address → Bool) (a : Address) (offset count : Nat) :
    ∀ l ∈ slice (listing db inside a) offset count, OneLine l := by
  intro l hl
  obtain ⟨k, -, hk⟩ := List.mem_filterMap.1 hl
  exact oneLine_listing h hk

/-! ### Pages -/

/-- The page of a listing: its lines from `offset` on, unless there is no line up to its end. -/
def pageOf (addr : Address) (f : Nat → Option (List Char)) (offset count : Nat) : Exec (List Char) :=
  if slice f 0 (offset + count) = [] then .error (.tool (.addressOutOfRange addr.toNat))
  else .ok (joinLines (slice f offset count))

/-- The page of the function at an address, from its start and within its bounds. -/
def functionPageOf (db : Idb) (addr : Address) (offset count : Nat) : Exec (List Char) :=
  match db.functionAt addr with
  | none => .error (.tool (.functionNotFound addr.toNat))
  | some func => pageOf addr (listing db (fun a => decide (a < func.stop)) func.start) offset count

/-- Cutting the first lines off the answer leaves the page. -/
theorem answerLines_cut {db : Idb} (h : CleanLines db) (addr : Address) (inside : Address → Bool) (a : Address)
    (offset count : Nat) :
    (do
      return applyLineOffset (← answerLines addr (unroll (lineAt db inside) (following db) (count + offset) a)) offset) =
      pageOf addr (listing db inside a) offset count := by
  have hwhole : unroll (lineAt db inside) (following db) (offset + count) a =
      slice (listing db inside a) 0 (offset + count) := unroll_eq _ _
  have hpage :
      (slice (listing db inside a) 0 (offset + count)).drop offset = slice (listing db inside a) offset count := by
    rw [← hwhole]
    exact drop_unroll offset count a
  rw [Nat.add_comm, hwhole, pageOf, answerLines]
  by_cases hnil : slice (listing db inside a) 0 (offset + count) = []
  · rw [if_pos hnil, if_pos hnil]
    rfl
  · rw [if_neg hnil, if_neg hnil, ← hpage, ← applyLineOffset_joinLines (oneLine_slice h inside a 0 (offset + count))]
    rfl

theorem disasmPage_eq {db : Idb} (h : CleanLines db) (addr : Address) {offset count : Nat}
    (hsum : offset + count ≤ u64Max) (hfit : Reserves db.grants lineSize (offset + count)) :
    disasmPage (some db) addr offset count = pageOf addr (listing db (fun _ => true) addr) offset count := by
  rw [Nat.add_comm] at hsum hfit
  rw [← answerLines_cut h]
  simp only [disasmPage, handleDisasm, checkedAdd_ok hsum, withCapacity_ok hfit, liftTool_opened, disasmLoop_eq,
    List.nil_append, bind, Except.bind]

theorem disasmFunctionAtPage_eq {db : Idb} (h : CleanLines db) (addr : Address) {offset count : Nat}
    (hsum : offset + count ≤ u64Max) :
    disasmFunctionAtPage (some db) addr offset count = functionPageOf db addr offset count := by
  rw [Nat.add_comm] at hsum
  rw [functionPageOf]
  cases hfunc : db.functionAt addr with
  | none =>
    simp only [disasmFunctionAtPage, handleDisasmFunctionAt, checkedAdd_ok hsum, liftTool_opened, hfunc, bind,
      Except.bind]
  | some func =>
    dsimp only
    rw [← answerLines_cut h]
    simp only [disasmFunctionAtPage, handleDisasmFunctionAt, checkedAdd_ok hsum, liftTool_opened, hfunc, disasmLoop_eq,
      List.nil_append, bind, Except.bind]

/-- Two pages with text, one behind the other, make the page of their combined length. -/
theorem pageOf_concat {db : Idb} (h : CleanLines db) {addr : Address} {inside : Address → Bool} {a : Address}
    {offset m n : Nat} {p q : List Char} (hp : pageOf addr (listing db inside a) offset m = .ok p)
    (hq : pageOf addr (listing db inside a) (offset + m) n = .ok q) (hpne : p ≠ []) (hqne : q ≠ []) :
    pageOf addr (listing db inside a) offset (m + n) = .ok (p ++ '\n' :: q) := by
  have hfirst := oneLine_slice h inside a offset m
  have hsecond := oneLine_slice h inside a (offset + m) n
  simp only [pageOf] at hp hq ⊢
  split at hp
  · cases hp
  · split at hq
    · cases hq
    · rename_i hnil
      cases hp
      cases hq
      rw [ne_eq, joinLines_eq_nil hfirst] at hpne
      rw [ne_eq, joinLines_eq_nil hsecond] at hqne
      rw [← Nat.add_assoc, if_neg hnil, slice_add, joinLines_append hpne hqne]

/-- Consecutive pages with text, joined by a newline, are the page of their combined length. -/
def Concatenate (page : Nat → Nat → Exec (List Char)) (offset count : Nat) : Prop :=
  ∀ m n p q, m + n = count → page offset m = .ok p → page (offset + m) n = .ok q → p ≠ [] → q ≠ [] →
    page offset count = .ok (p ++ '\n' :: q)

/-- A page that is answered could be reserved. -/
theorem disasmPage_ok {db : Idb} (h : CleanLines db) {addr : Address} {offset count : Nat} {p : List Char}
    (hsum : offset + count ≤ u64Max) (hp : disasmPage (some db) addr offset count = .ok p) :
    pageOf addr (listing db (fun _ => true) addr) offset count = .ok p := by
  by_cases hfit : Reserves db.grants lineSize (offset + count)
  · rw [← disasmPage_eq h addr hsum hfit, hp]
  · rw [Nat.add_comm] at hsum hfit
    rcases withCapacity_stop hfit with hstop | hstop <;>
      simp only [disasmPage, handleDisasm, checkedAdd_ok hsum, liftTool_opened, hstop, bind, Except.bind] at hp <;>
      cases hp

/-- The operations of the worker answer with the pages of the listing, which is that of the function for
`disasm_function_at`, or with an error if it has no line up to the end of the page; `disasm` only if the allocator grants
a vector for all the lines. -/
theorem disasm_pages_concatenate (db : Idb) (h : CleanLines db) (addr : Address) (offset count : Nat)
    (hsum : offset + count ≤ u64Max) :
    (Reserves db.grants lineSize (offset + count) →
      disasmPage (some db) addr offset count = pageOf addr (listing db (fun _ => true) addr) offset count ∧
        Concatenate (disasmPage (some db) addr) offset count) ∧
      disasmFunctionAtPage (some db) addr offset count = functionPageOf db addr offset count ∧
        Concatenate (disasmFunctionAtPage (some db) addr) offset count := by
  constructor
  · intro hfit
    refine ⟨disasmPage_eq h addr hsum hfit, ?_⟩
    rintro m n p q rfl hp hq hpne hqne
    rw [disasmPage_eq h addr hsum hfit]
    exact pageOf_concat h (disasmPage_ok h (by omega) hp) (disasmPage_ok h (by omega) hq) hpne hqne
  · refine ⟨disasmFunctionAtPage_eq h addr hsum, ?_⟩
    rintro m n p q rfl hp hq hpne hqne
    rw [disasmFunctionAtPage_eq h addr (by omega), functionPageOf] at hp
    rw [disasmFunctionAtPage_eq h addr (by omega), functionPageOf] at hq
    rw [disasmFunctionAtPage_eq h addr hsum, functionPageOf]
    cases hfunc : db.functionAt addr with
    | none =>
      rw [hfunc] at hp
      cases hp
    | some func =>
      rw [hfunc] at hp hq
      exact pageOf_concat h hp hq hpne hqne

/-! Two instructions. -/

def twoLines : Idb :=
  { Idb.empty with
    disasmLine := fun a => if a = 0x1000 then some "nop" else if a = 0x1001 then some "ret" else none
    insnAt := fun a => if a = 0x1000 ∨ a = 0x1001 then some ⟨1, false, []⟩ else none
    insn_end := by
      intro a i h
      have ha : a = 0x1000 ∨ a = 0x1001 := by
        by_contra hne
        rw [if_neg hne] at h
        cases h
      rw [if_pos ha] at h
      cases h
      rcases ha with rfl | rfl
      · decide
      · decide }

theorem cleanLines_twoLines : CleanLines twoLines := by
  intro a line h
  simp only [twoLines] at h
  split at h
  · cases h
    decide
  · split at h
    · cases h
      decide
    · cases h

theorem disasm_pages_concatenate_twoLines :
    disasmPage (some twoLines) 0x1000 0 2 = .ok "0x1000:\tnop\n0x1001:\tret".toList ∧
      Concatenate (disasmPage (some twoLines) 0x1000) 0 2 := by
  have h := (disasm_pages_concatenate twoLines cleanLines_twoLines 0x1000 0 2 (by decide)).1 ⟨by decide, .inr rfl⟩
  refine ⟨h.1.trans ?_, h.2⟩
  decide +kernel

/-- The page without lines at the start of a listing is an error. -/
theorem empty_page_refused :
    ¬ ∀ (db : Idb), CleanLines db → ∀ (addr : Address) (offset count : Nat), offset + count ≤ u64Max →
      disasmPage (some db) addr offset count =
        .ok (joinLines (slice (listing db (fun _ => true) addr) offset count)) := by
  intro h
  have hpage := h twoLines cleanLines_twoLines 0x1000 0 0 (by decide)
  have herr : disasmPage (some twoLines) 0x1000 0 0 = .error (.tool (.addressOutOfRange 0x1000)) := rfl
  rw [herr] at hpage
  cases hpage

end Handlers

end IdaRs
