import IdaRs.Lib.Transducer

/-!
# The literals of a Python text

A lexer that tells code from comments and from double-quoted literals, and decodes the literals: a backslash escapes the
next character, an unescaped quote ends a literal, a line break in one is illegal. What a text may not hold here (single
quotes, triple quotes, raw literals, numeric escapes) breaks the lexer for good.
-/

namespace PythonLexer

open Transducer

inductive Token
  | code (c : Char)
  /-- A literal, formatted (`f`) or not, and its value. -/
  | literal (formatted : Bool) (text : List Char)
deriving DecidableEq

inductive Mode
  /-- In code, after this character. -/
  | code (prev : Char)
  | comment
  | literal (formatted : Bool) (text : List Char)
  /-- After a backslash in a literal. -/
  | escape (formatted : Bool) (text : List Char)
  /-- After two quotes: a third would begin another kind of literal. -/
  | empty
  | broken
deriving DecidableEq

/-- The character that an escape stands for. -/
def unescape : Char → Option Char
  | '\\' => some '\\'
  | '"' => some '"'
  | '\'' => some '\''
  | 'n' => some '\n'
  | 'r' => some '\r'
  | 't' => some '\t'
  | _ => none

def codeStep (prev c : Char) : Mode × List Token :=
  if c = '"' then
    if prev = 'r' ∨ prev = 'R' ∨ prev = 'b' ∨ prev = 'B' then (.broken, [])
    else (.literal (prev = 'f' ∨ prev = 'F') [], [])
  else if c = '\'' then (.broken, [])
  else if c = '#' then (.comment, [])
  else (.code c, [.code c])

def step : Mode → Char → Mode × List Token
  | .code prev, c => codeStep prev c
  | .comment, c => if c = '\n' ∨ c = '\r' then (.code c, [.code c]) else (.comment, [])
  | .literal formatted text, c =>
    if c = '"' then (if text = [] then .empty else .code '"', [.literal formatted text])
    else if c = '\\' then (.escape formatted text, [])
    else if c = '\n' ∨ c = '\r' then (.broken, [])
    else (.literal formatted (text ++ [c]), [])
  | .escape formatted text, c =>
    match unescape c with
    | some x => (.literal formatted (text ++ [x]), [])
    | none => (.broken, [])
  | .empty, c => if c = '"' then (.broken, []) else codeStep '"' c
  | .broken, _ => (.broken, [])

/-- The mode after a literal with this value. -/
def afterLiteral (text : List Char) : Mode := if text = [] then .empty else .code '"'

/-- The text ends outside a literal. -/
def Mode.outside : Mode → Bool
  | .code _ | .comment | .empty => true
  | _ => false

/-- The tokens of a text, if all its literals end. -/
def lex (s : List Char) : Option (List Token) :=
  if (run step (.code '\n') s).1.outside then some (run step (.code '\n') s).2 else none

/-- The mode at the end of a text; each mode is known before the next character is read. -/
def endMode : Mode → List Char → Mode
  | m, [] => m
  | m, c :: s =>
    match (step m c).1 with
    | .code prev => endMode (.code prev) s
    | .comment => endMode .comment s
    | .literal formatted text => endMode (.literal formatted text) s
    | .escape formatted text => endMode (.escape formatted text) s
    | .empty => endMode .empty s
    | .broken => endMode .broken s

theorem endMode_eq (m : Mode) (s : List Char) : endMode m s = (run step m s).1 := by
  induction s generalizing m with
  | nil => rfl
  | cons c s ih =>
    rw [run, ← ih, endMode]
    cases (step m c).1 <;> rfl

theorem run_close (formatted : Bool) (text rest : List Char) :
    run step (.literal formatted text) ('"' :: rest) =
      ((run step (afterLiteral text) rest).1, .literal formatted text :: (run step (afterLiteral text) rest).2) := by
  have hstep : step (.literal formatted text) '"' = (afterLiteral text, [.literal formatted text]) := rfl
  rw [run_cons hstep]
  rfl

/-- After a literal, code goes on alike whether the literal was empty or not. -/
theorem run_afterLiteral (text : List Char) {c : Char} (hc : c ≠ '"') (rest : List Char) :
    run step (afterLiteral text) (c :: rest) = run step (.code '"') (c :: rest) := by
  have hstep : step (afterLiteral text) c = step (.code '"') c := by
    unfold afterLiteral
    split_ifs
    · simp only [step, if_neg hc]
    · rfl
  rw [run, run, hstep]

/-- A character of a literal that stands for itself. -/
theorem run_plain {c : Char} (hquote : c ≠ '"') (hslash : c ≠ '\\') (hbreak : c ≠ '\n' ∧ c ≠ '\r') (formatted : Bool)
    (text : List Char) : run step (.literal formatted text) [c] = (.literal formatted (text ++ [c]), []) := by
  have hline : ¬ (c = '\n' ∨ c = '\r') := by
    rintro (h | h)
    · exact hbreak.1 h
    · exact hbreak.2 h
  have hstep : step (.literal formatted text) c = (.literal formatted (text ++ [c]), []) := by
    simp only [step, if_neg hquote, if_neg hslash, if_neg hline]
  rw [run_cons hstep]
  rfl

/-- An escape of a literal. -/
theorem run_escape {c x : Char} (h : unescape c = some x) (formatted : Bool) (text : List Char) :
    run step (.literal formatted text) ['\\', c] = (.literal formatted (text ++ [x]), []) := by
  have hslash : step (.literal formatted text) '\\' = (.escape formatted text, []) := rfl
  have hstep : step (.escape formatted text) c = (.literal formatted (text ++ [x]), []) := by
    simp only [step, h]
  rw [run_cons hslash, run_cons hstep]
  rfl

/-- A text that writes each character as itself or as an escape is read inside a literal as what it writes. -/
theorem run_written {write : Char → List Char}
    (h : ∀ (c : Char) (formatted : Bool) (text : List Char),
      run step (.literal formatted text) (write c) = (.literal formatted (text ++ [c]), []))
    (formatted : Bool) (text s : List Char) :
    run step (.literal formatted text) (s.flatMap write) = (.literal formatted (text ++ s), []) := by
  induction s generalizing text with
  | nil => rw [List.append_nil]; rfl
  | cons c s ih =>
    rw [List.flatMap_cons, run_trans (h c formatted text), ih, List.append_assoc]
    rfl

end PythonLexer
