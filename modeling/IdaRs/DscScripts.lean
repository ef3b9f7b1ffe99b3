import IdaRs.ChildErrors
import IdaRs.DscFiles
import IdaRs.Lib.PythonLexer

/-!
# Names in the scripts of idat (`src/dsc.rs` 16-25, 219-309)

The scripts are templates with the names of modules and frameworks in double-quoted literals. `escape_python_string`
writes each character as itself or as an escape, so a literal ends where the template ends it:
`scripts_hold_template_code`.
-/

namespace IdaRs

namespace DscScripts

open Transducer PythonLexer

def dscAddDylibScript (module : String) : String :=
  let escaped := escapePythonString module
  "import idaapi\n\tfrom idc import *\n\n\t" ++ dscuPythonHelpers ++
    "\n\n\tprint(\"[ida-mcp] loading additional dylib: " ++ escaped ++ "\")
	dsc_backend = dscu_load_module(\"" ++ escaped ++ "\")
	print(f\"[ida-mcp] dsc backend: \x7bdsc_backend\x7d\")

# ObjC type analysis (lightweight, no full auto-analysis)
print(\"[ida-mcp] analyzing objc types\")
run_plugin_checked(\"objc\", 1, \"objc type analysis\", False)
print(\"[ida-mcp] analyzing NSConcreteGlobalBlock objects\")
run_plugin_checked(\"objc\", 4, \"objc global block analysis\", False)

print(\"[ida-mcp] dsc_add_dylib complete for: " ++ escaped ++ "\")
"

/-! ### The escapes -/

/-- What a character is written as. -/
def written (c : Char) : List Char :=
  if c = '\\' then ['\\', '\\']
  else if c = '"' then ['\\', '"']
  else if c = '\n' then ['\\', 'n']
  else if c = '\r' then ['\\', 'r']
  else [c]

/-- Four replacements in a row are one: what an earlier one writes, a later one leaves. -/
theorem escapePythonString_toList (s : String) : (escapePythonString s).toList = s.toList.flatMap written := by
  rw [escapePythonString, String.toList_ofList]
  simp only [replaceChar, List.flatMap_assoc]
  refine congrArg (List.flatMap · s.toList) (funext fun c => ?_)
  by_cases hslash : c = '\\'
  · rw [hslash]
    decide +kernel
  by_cases hquote : c = '"'
  · rw [hquote]
    decide +kernel
  by_cases hline : c = '\n'
  · rw [hline]
    decide +kernel
  by_cases hreturn : c = '\r'
  · rw [hreturn]
    decide +kernel
  simp [written, hslash, hquote, hline, hreturn]

theorem run_writtenChar (c : Char) (formatted : Bool) (text : List Char) :
    run step (.literal formatted text) (written c) = (.literal formatted (text ++ [c]), []) := by
  unfold written
  split_ifs with hslash hquote hline hreturn
  · rw [hslash]
    exact run_escape (by decide) formatted text
  · rw [hquote]
    exact run_escape (by decide) formatted text
  · rw [hline]
    exact run_escape (by decide) formatted text
  · rw [hreturn]
    exact run_escape (by decide) formatted text
  · exact run_plain hquote hslash ⟨hline, hreturn⟩ formatted text

/-- Inside a literal, an escaped text is read as the text. -/
theorem run_escaped (s : String) (formatted : Bool) (text : List Char) :
    run step (.literal formatted text) (escapePythonString s).toList = (.literal formatted (text ++ s.toList), []) := by
  rw [escapePythonString_toList]
  exact run_written run_writtenChar formatted text s.toList

/-- A name in a literal of a template, and the code after the quote that ends it. -/
theorem run_name (name : String) (text : List Char) {c : Char} (hc : c ≠ '"') (rest : List Char) :
    run step (.literal false text) ((escapePythonString name).toList ++ '"' :: c :: rest) =
      ((run step (.code '"') (c :: rest)).1,
        .literal false (text ++ name.toList) :: (run step (.code '"') (c :: rest)).2) := by
  rw [run_trans (run_escaped name false text), run_close, run_afterLiteral _ hc, List.nil_append]

/-! ### The texts of the templates -/

/-- Both scripts begin with the helpers. -/
def scriptHead : String := "import idaapi\n\tfrom idc import *\n\n\t" ++ dscuPythonHelpers

set_option maxRecDepth 20000 in
theorem endMode_helpers : endMode (.code '\t') dscuPythonHelpers.toList = .code '\n' := by
  unfold dscuPythonHelpers
  refine (congrArg (endMode (.code '\t')) (toList_literal rfl)).trans ?_
  decide +kernel

theorem run_imports (helpers : String) :
    (run step (.code '\n') ("import idaapi\n\tfrom idc import *\n\n\t" ++ helpers).toList).1 =
      endMode (.code '\t') helpers.toList := by
  have hfirst : endMode (.code '\n') "import idaapi\n\tfrom idc import *\n\n\t".toList = .code '\t' := by
    decide +kernel
  rw [String.toList_append, run_append_fst ((endMode_eq _ _).symm.trans hfirst), endMode_eq]

/-- The helpers leave no literal open. -/
theorem run_scriptHead : (run step (.code '\n') scriptHead.toList).1 = .code '\n' :=
  (run_imports dscuPythonHelpers).trans endMode_helpers

/-! ### Literals with a name -/

-- The kernel reads lists of characters faster than strings.
theorem opens_of {before : Char} {text literal : String} {s t : List Char} (hs : text = String.ofList s)
    (ht : literal = String.ofList t) (h : endMode (.code before) s = .literal false t) :
    endMode (.code before) text.toList = .literal false literal.toList := by
  rw [hs, ht, String.toList_ofList, String.toList_ofList, h]

/-- A text of the template up to a literal that a name completes. -/
structure Opening where
  text : String
  before : Char
  literal : String
  opens : endMode (.code before) text.toList = .literal false literal.toList

/-- The tokens of the text. -/
def Opening.tokens (o : Opening) : List Token := output step (.code o.before) o.text.toList

/-- A text of the template with a name, up to the quote that ends its literal. -/
def Opening.fill (o : Opening) (name : String) : List Char := o.text.toList ++ (escapePythonString name).toList ++ ['"']

/-- The tokens with the name. -/
def Opening.filled (o : Opening) (name : String) : List Token :=
  o.tokens ++ [.literal false (o.literal.toList ++ name.toList)]

/-- The name completes the literal, and what follows the quote is code. -/
theorem Opening.run_fill (o : Opening) (name : String) {s : List Char} {m : Mode} {out : List Token}
    (hs : s.head? = some ')') (h : run step (.code '"') s = (m, out)) :
    run step (.code o.before) (o.fill name ++ s) = (m, o.filled name ++ out) := by
  obtain ⟨rest, rfl⟩ := List.head?_eq_some_iff.1 hs
  have hopen : run step (.code o.before) o.text.toList = (.literal false o.literal.toList, o.tokens) :=
    run_eq_of_fst ((endMode_eq _ _).symm.trans o.opens)
  have hlist : o.fill name ++ ')' :: rest =
      o.text.toList ++ ((escapePythonString name).toList ++ '"' :: ')' :: rest) := by
    simp [Opening.fill]
  rw [hlist, run_trans hopen, run_name name o.literal.toList (by decide), h, Opening.filled, List.append_assoc]
  rfl

def moduleMessage : Opening :=
  ⟨"\n# Load primary module\nprint(\"[ida-mcp] loading module: ", '\t', "[ida-mcp] loading module: ",
    opens_of rfl rfl (by decide +kernel)⟩

def moduleCall : Opening := ⟨")\ndsc_backend = dscu_load_module(\"", '"', "", opens_of rfl rfl (by decide +kernel)⟩

def frameworkMessage : Opening :=
  ⟨"\nprint(\"[ida-mcp] loading framework: ", '\n', "[ida-mcp] loading framework: ",
    opens_of rfl rfl (by decide +kernel)⟩

def frameworkCall : Opening := ⟨")\ndscu_load_module(\"", '"', "", opens_of rfl rfl (by decide +kernel)⟩

def dylibMessage : Opening :=
  ⟨"\n\n\tprint(\"[ida-mcp] loading additional dylib: ", '\n', "[ida-mcp] loading additional dylib: ",
    opens_of rfl rfl (by decide +kernel)⟩

def dylibCall : Opening := ⟨")\n\tdsc_backend = dscu_load_module(\"", '"', "", opens_of rfl rfl (by decide +kernel)⟩

set_option maxRecDepth 4000 in
def dylibDone : Opening where
  text := ")
	print(f\"[ida-mcp] dsc backend: \x7bdsc_backend\x7d\")

# ObjC type analysis (lightweight, no full auto-analysis)
print(\"[ida-mcp] analyzing objc types\")
run_plugin_checked(\"objc\", 1, \"objc type analysis\", False)
print(\"[ida-mcp] analyzing NSConcreteGlobalBlock objects\")
run_plugin_checked(\"objc\", 4, \"objc global block analysis\", False)

print(\"[ida-mcp] dsc_add_dylib complete for: "
  before := '"'
  literal := "[ida-mcp] dsc_add_dylib complete for: "
  opens := opens_of rfl rfl (by decide +kernel)

/-- A text of the template after a name, up to code. -/
structure Closing where
  text : String
  after : Char
  closes : endMode (.code '"') text.toList = .code after

def Closing.tokens (cl : Closing) : List Token := output step (.code '"') cl.text.toList

theorem Closing.run_text (cl : Closing) {rest : List Char} {m : Mode} {out : List Token}
    (h : run step (.code cl.after) rest = (m, out)) :
    run step (.code '"') (cl.text.toList ++ rest) = (m, cl.tokens ++ out) := by
  have hclose : run step (.code '"') cl.text.toList = (.code cl.after, cl.tokens) :=
    run_eq_of_fst ((endMode_eq _ _).symm.trans cl.closes)
  rw [run_trans hclose, h]

theorem closes_of {text : String} {s : List Char} {after : Char} (hs : text = String.ofList s)
    (h : endMode (.code '"') s = .code after) : endMode (.code '"') text.toList = .code after := by
  rw [hs, String.toList_ofList, h]

set_option maxRecDepth 2000 in
def moduleDone : Closing :=
  ⟨")\nprint(f\"[ida-mcp] dsc backend: \x7bdsc_backend\x7d\")\n", '\n', closes_of rfl (by decide +kernel)⟩

def frameworkDone : Closing := ⟨")\n", '\n', closes_of rfl (by decide +kernel)⟩

def dylibEnd : Closing := ⟨")\n", '\n', closes_of rfl (by decide +kernel)⟩

/-- The end of the script that loads modules. -/
def loadTail : String :=
  "\n# ObjC type analysis
print(\"[ida-mcp] analyzing objc types\")
load_and_run_plugin(\"objc\", 1)
print(\"[ida-mcp] analyzing NSConcreteGlobalBlock objects\")
load_and_run_plugin(\"objc\", 4)

# Auto-analysis
print(\"[ida-mcp] performing auto-analysis...\")
auto_mark_range(0, BADADDR, AU_FINAL)
auto_wait()

# Stack block analysis
print(\"[ida-mcp] analyzing NSConcreteStackBlock objects\")
load_and_run_plugin(\"objc\", 5)

print(\"[ida-mcp] DSC module loading complete\")
"

set_option maxRecDepth 8000 in
theorem endMode_loadTail : endMode (.code '\n') loadTail.toList = .code '\n' := by
  unfold loadTail
  refine (congrArg (endMode (.code '\n')) (toList_literal rfl)).trans ?_
  decide +kernel

theorem head_text {text : String} {s : List Char} (h : text = String.ofList (')' :: s)) (rest : List Char) :
    (text.toList ++ rest).head? = some ')' := by
  rw [h, String.toList_ofList]
  rfl

theorem Opening.head_fill {o : Opening} {s : List Char} (h : o.text = String.ofList (')' :: s)) (name : String)
    (rest : List Char) : (o.fill name ++ rest).head? = some ')' := by
  rw [Opening.fill, List.append_assoc, List.append_assoc]
  exact head_text h _

theorem quote_toList {s t : String} {l : List Char} (hs : s = String.ofList ('"' :: l)) (ht : t = String.ofList l) :
    s.toList = '"' :: t.toList := by
  rw [hs, ht, String.toList_ofList, String.toList_ofList]

/-! ### The scripts -/

/-- The lines for a framework. -/
def frameworkText (fw : String) : List Char :=
  frameworkMessage.fill fw ++ (frameworkCall.fill fw ++ frameworkDone.text.toList)

def frameworkTokens (fw : String) : List Token :=
  frameworkMessage.filled fw ++ (frameworkCall.filled fw ++ frameworkDone.tokens)

theorem run_framework (fw : String) : run step (.code '\n') (frameworkText fw) = (.code '\n', frameworkTokens fw) := by
  have hdone : run step (.code '"') frameworkDone.text.toList = (.code '\n', frameworkDone.tokens) :=
    run_eq_of_fst ((endMode_eq _ _).symm.trans frameworkDone.closes)
  have hhead : frameworkDone.text.toList.head? = some ')' := by simpa using head_text (rfl : frameworkDone.text = _) []
  have hcall := frameworkCall.run_fill fw hhead hdone
  exact frameworkMessage.run_fill fw (Opening.head_fill (o := frameworkCall) rfl fw _) hcall

theorem framework_toList (script : String) (fw : String) :
    (script ++ "\nprint(\"[ida-mcp] loading framework: " ++ escapePythonString fw ++ "\")\ndscu_load_module(\"" ++
      escapePythonString fw ++ "\")\n").toList = script.toList ++ frameworkText fw := by
  have hcall : "\")\ndscu_load_module(\"".toList = '"' :: frameworkCall.text.toList := quote_toList rfl rfl
  have hdone : "\")\n".toList = '"' :: frameworkDone.text.toList := quote_toList rfl rfl
  simp only [String.toList_append, hcall, hdone, frameworkText, Opening.fill, frameworkMessage, List.append_assoc,
    List.cons_append, List.nil_append]

theorem frameworks_toList (frameworks : List String) (script : String) :
    (frameworks.foldl (fun script fw =>
      script ++ "\nprint(\"[ida-mcp] loading framework: " ++ escapePythonString fw ++ "\")\ndscu_load_module(\"" ++
        escapePythonString fw ++ "\")\n") script).toList = script.toList ++ frameworks.flatMap frameworkText := by
  induction frameworks generalizing script with
  | nil => rw [List.foldl_nil, List.flatMap_nil, List.append_nil]
  | cons fw frameworks ih => rw [List.foldl_cons, ih, framework_toList, List.flatMap_cons, List.append_assoc]

/-- The script that loads modules, after the helpers and the blanks behind them. -/
def loadBody (module : String) (frameworks : List String) : List Char :=
  moduleMessage.fill module ++ (moduleCall.fill module ++
    (moduleDone.text.toList ++ (frameworks.flatMap frameworkText ++ loadTail.toList)))

def loadEnd : List Token := output step (.code '\n') loadTail.toList

def bodyTokens (module : String) (frameworks : List String) : List Token :=
  moduleMessage.filled module ++ (moduleCall.filled module ++
    (moduleDone.tokens ++ (frameworks.flatMap frameworkTokens ++ loadEnd)))

theorem run_loadBody (module : String) (frameworks : List String) :
    run step (.code '\t') (loadBody module frameworks) = (.code '\n', bodyTokens module frameworks) := by
  have htail : run step (.code '\n') loadTail.toList = (.code '\n', loadEnd) :=
    run_eq_of_fst ((endMode_eq _ _).symm.trans endMode_loadTail)
  have hframeworks : run step (.code '\n') (frameworks.flatMap frameworkText ++ loadTail.toList) =
      (.code '\n', frameworks.flatMap frameworkTokens ++ loadEnd) := by
    rw [run_trans (run_flatMap run_framework frameworks), htail]
  have hdone := moduleDone.run_text hframeworks
  have hcall := moduleCall.run_fill module (head_text (rfl : moduleDone.text = _) _) hdone
  exact moduleMessage.run_fill module (Opening.head_fill (o := moduleCall) rfl module _) hcall

/-- The helpers. -/
def helperTokens : List Token := output step (.code '\n') scriptHead.toList

theorem run_helpers : run step (.code '\n') scriptHead.toList = (.code '\n', helperTokens) :=
  run_eq_of_fst run_scriptHead

theorem run_blanks : run step (.code '\n') "\n\t".toList = (.code '\t', [.code '\n', .code '\t']) := by
  rw [toList_literal rfl]
  rfl

/-- The tokens of the script that loads modules. -/
def loadTokens (module : String) (frameworks : List String) : List Token :=
  helperTokens ++ (.code '\n' :: .code '\t' :: bodyTokens module frameworks)

/-- The script in front of the lines for frameworks. -/
def modulePart (module : String) : String :=
  scriptHead ++ "\n\t" ++ "\n# Load primary module\nprint(\"[ida-mcp] loading module: " ++ escapePythonString module ++
    "\")\ndsc_backend = dscu_load_module(\"" ++ escapePythonString module ++
    "\")\nprint(f\"[ida-mcp] dsc backend: \x7bdsc_backend\x7d\")\n"

theorem modulePart_toList (module : String) : (modulePart module).toList =
    scriptHead.toList ++ ("\n\t".toList ++ (moduleMessage.fill module ++ (moduleCall.fill module ++
      moduleDone.text.toList))) := by
  have hcall : "\")\ndsc_backend = dscu_load_module(\"".toList = '"' :: moduleCall.text.toList := quote_toList rfl rfl
  have hdone : "\")\nprint(f\"[ida-mcp] dsc backend: \x7bdsc_backend\x7d\")\n".toList =
      '"' :: moduleDone.text.toList := quote_toList rfl rfl
  unfold modulePart
  generalize scriptHead = head
  simp only [String.toList_append, hcall, hdone, Opening.fill, moduleMessage, List.append_assoc, List.cons_append,
    List.nil_append]

theorem dscLoadScript_toList (module : String) (frameworks : List String) :
    (dscLoadScript module frameworks).toList = scriptHead.toList ++ ("\n\t".toList ++ loadBody module frameworks) := by
  have hscript : dscLoadScript module frameworks = frameworks.foldl (fun script fw =>
      script ++ "\nprint(\"[ida-mcp] loading framework: " ++ escapePythonString fw ++ "\")\ndscu_load_module(\"" ++
        escapePythonString fw ++ "\")\n") (modulePart module) ++ loadTail := rfl
  rw [hscript, String.toList_append, frameworks_toList, modulePart_toList, loadBody]
  generalize scriptHead = head
  simp only [List.append_assoc]

theorem lex_dscLoadScript (module : String) (frameworks : List String) :
    lex (dscLoadScript module frameworks).toList = some (loadTokens module frameworks) := by
  have hbody : run step (.code '\n') ("\n\t".toList ++ loadBody module frameworks) =
      (.code '\n', .code '\n' :: .code '\t' :: bodyTokens module frameworks) := by
    rw [run_trans run_blanks, run_loadBody]
    rfl
  have hrun : run step (.code '\n') (dscLoadScript module frameworks).toList =
      (.code '\n', loadTokens module frameworks) := by
    rw [dscLoadScript_toList, run_trans run_helpers, hbody, loadTokens]
  rw [lex, hrun]
  rfl

/-- The script that adds a library, after the helpers. -/
def dylibBody (module : String) : List Char :=
  dylibMessage.fill module ++ (dylibCall.fill module ++ (dylibDone.fill module ++ dylibEnd.text.toList))

/-- The tokens of the script that adds a library. -/
def dylibTokens (module : String) : List Token :=
  helperTokens ++ (dylibMessage.filled module ++ (dylibCall.filled module ++
    (dylibDone.filled module ++ dylibEnd.tokens)))

set_option maxRecDepth 4000 in
theorem head_dylibDone (module : String) (rest : List Char) : (dylibDone.fill module ++ rest).head? = some ')' :=
  Opening.head_fill (o := dylibDone) rfl module rest

theorem run_dylibBody (module : String) : run step (.code '\n') (dylibBody module) =
    (.code '\n', dylibMessage.filled module ++ (dylibCall.filled module ++
      (dylibDone.filled module ++ dylibEnd.tokens))) := by
  have hend : run step (.code '"') dylibEnd.text.toList = (.code '\n', dylibEnd.tokens) :=
    run_eq_of_fst ((endMode_eq _ _).symm.trans dylibEnd.closes)
  have hhead : dylibEnd.text.toList.head? = some ')' := by simpa using head_text (rfl : dylibEnd.text = _) []
  have hdone := dylibDone.run_fill module hhead hend
  have hcall := dylibCall.run_fill module (head_dylibDone module _) hdone
  exact dylibMessage.run_fill module (Opening.head_fill (o := dylibCall) rfl module _) hcall

set_option maxRecDepth 4000 in
theorem quote_dylibDone : ("\")
	print(f\"[ida-mcp] dsc backend: \x7bdsc_backend\x7d\")

# ObjC type analysis (lightweight, no full auto-analysis)
print(\"[ida-mcp] analyzing objc types\")
run_plugin_checked(\"objc\", 1, \"objc type analysis\", False)
print(\"[ida-mcp] analyzing NSConcreteGlobalBlock objects\")
run_plugin_checked(\"objc\", 4, \"objc global block analysis\", False)

print(\"[ida-mcp] dsc_add_dylib complete for: ").toList = '"' :: dylibDone.text.toList :=
  quote_toList rfl rfl

/-- A script of three openings, with its texts for parameters. -/
theorem scriptParts_toList {call done finish : String} {callText doneText endText : List Char}
    (hcall : call.toList = '"' :: callText) (hdone : done.toList = '"' :: doneText)
    (hfinish : finish.toList = '"' :: endText) (head message name : String) :
    (head ++ message ++ name ++ call ++ name ++ done ++ name ++ finish).toList =
      head.toList ++ ((message.toList ++ name.toList ++ ['"']) ++ ((callText ++ name.toList ++ ['"']) ++
        ((doneText ++ name.toList ++ ['"']) ++ endText))) := by
  simp only [String.toList_append, hcall, hdone, hfinish, List.append_assoc, List.cons_append, List.nil_append]

theorem dscAddDylibScript_toList (module : String) :
    (dscAddDylibScript module).toList = scriptHead.toList ++ dylibBody module := by
  have hcall : "\")\n\tdsc_backend = dscu_load_module(\"".toList = '"' :: dylibCall.text.toList := quote_toList rfl rfl
  have hend : "\")\n".toList = '"' :: dylibEnd.text.toList := quote_toList rfl rfl
  exact scriptParts_toList hcall quote_dylibDone hend scriptHead _ (escapePythonString module)

theorem lex_dscAddDylibScript (module : String) :
    lex (dscAddDylibScript module).toList = some (dylibTokens module) := by
  have hrun : run step (.code '\n') (dscAddDylibScript module).toList = (.code '\n', dylibTokens module) := by
    rw [dscAddDylibScript_toList, run_trans run_helpers, run_dylibBody, dylibTokens]
  rw [lex, hrun]
  rfl

/-! ### Names and code -/

/-- A token of the template, or a literal of it with one of the names at its end. -/
inductive Fills (names : List String) : Token → Token → Prop
  | same (t : Token) : Fills names t t
  | named (text : List Char) (name : String) (h : name ∈ names) :
      Fills names (.literal false text) (.literal false (text ++ name.toList))

section

variable {names : List String}

theorem fills_refl (ts : List Token) : List.Forall₂ (Fills names) ts ts := by
  induction ts with
  | nil => exact .nil
  | cons t ts ih => exact .cons (.same t) ih

theorem fills_append {ts ts' us us' : List Token} (ht : List.Forall₂ (Fills names) ts ts')
    (hu : List.Forall₂ (Fills names) us us') : List.Forall₂ (Fills names) (ts ++ us) (ts' ++ us') :=
  List.rel_append ht hu

/-- The tokens of an opening, without a name and with one. -/
theorem fills_filled (o : Opening) {name : String} (h : name ∈ names) :
    List.Forall₂ (Fills names) (o.filled "") (o.filled name) := by
  have hempty : o.literal.toList ++ "".toList = o.literal.toList := List.append_nil _
  rw [Opening.filled, Opening.filled, hempty]
  exact fills_append (fills_refl _) (.cons (.named _ name h) .nil)

theorem fills_framework {fw : String} (h : fw ∈ names) :
    List.Forall₂ (Fills names) (frameworkTokens "") (frameworkTokens fw) :=
  fills_append (fills_filled _ h) (fills_append (fills_filled _ h) (fills_refl _))

theorem fills_frameworks {frameworks : List String} (h : ∀ fw ∈ frameworks, fw ∈ names) :
    List.Forall₂ (Fills names) ((frameworks.map fun _ => "").flatMap frameworkTokens)
      (frameworks.flatMap frameworkTokens) := by
  induction frameworks with
  | nil => exact .nil
  | cons fw frameworks ih =>
    rw [List.map_cons, List.flatMap_cons, List.flatMap_cons]
    exact fills_append (fills_framework (h fw (List.mem_cons_self ..)))
      (ih fun fw' hfw' => h fw' (List.mem_cons_of_mem _ hfw'))

end

theorem fills_load (module : String) (frameworks : List String) :
    List.Forall₂ (Fills (module :: frameworks)) (loadTokens "" (frameworks.map fun _ => ""))
      (loadTokens module frameworks) := by
  have hmodule : module ∈ module :: frameworks := List.mem_cons_self ..
  refine fills_append (fills_refl _) (.cons (.same _) (.cons (.same _) ?_))
  refine fills_append (fills_filled _ hmodule) (fills_append (fills_filled _ hmodule) (fills_append (fills_refl _) ?_))
  exact fills_append (fills_frameworks fun fw hfw => List.mem_cons_of_mem _ hfw) (fills_refl _)

theorem fills_dylib (module : String) : List.Forall₂ (Fills [module]) (dylibTokens "") (dylibTokens module) := by
  have hmodule : module ∈ [module] := List.mem_cons_self ..
  refine fills_append (fills_refl _) (fills_append (fills_filled _ hmodule) ?_)
  exact fills_append (fills_filled _ hmodule) (fills_append (fills_filled _ hmodule) (fills_refl _))

/-- An escaped text is read inside a literal as the text, up to its end and no further; the quote behind it ends the
literal. So a script with names has the tokens of the script without names, but for the names in its literals. -/
theorem scripts_hold_template_code :
    (∀ (s : String) (formatted : Bool) (text rest : List Char),
      run step (.literal formatted text) (escapePythonString s).toList = (.literal formatted (text ++ s.toList), []) ∧
        run step (.literal formatted text) ((escapePythonString s).toList ++ '"' :: rest) =
          ((run step (afterLiteral (text ++ s.toList)) rest).1, .literal formatted (text ++ s.toList) ::
            output step (afterLiteral (text ++ s.toList)) rest) ∧
        (afterLiteral (text ++ s.toList)).outside = true) ∧
    (∀ (module : String) (frameworks : List String), ∃ template tokens,
      lex (dscLoadScript "" (frameworks.map fun _ => "")).toList = some template ∧
        lex (dscLoadScript module frameworks).toList = some tokens ∧
        List.Forall₂ (Fills (module :: frameworks)) template tokens) ∧
    ∀ module : String, ∃ template tokens, lex (dscAddDylibScript "").toList = some template ∧
      lex (dscAddDylibScript module).toList = some tokens ∧ List.Forall₂ (Fills [module]) template tokens := by
  refine ⟨?_, ?_, ?_⟩
  · intro s formatted text rest
    refine ⟨run_escaped s formatted text, ?_, ?_⟩
    · rw [run_trans (run_escaped s formatted text), run_close, List.nil_append]
      rfl
    · unfold afterLiteral
      split_ifs <;> rfl
  · intro module frameworks
    exact ⟨_, _, lex_dscLoadScript "" _, lex_dscLoadScript module frameworks, fills_load module frameworks⟩
  · intro module
    exact ⟨_, _, lex_dscAddDylibScript "", lex_dscAddDylibScript module, fills_dylib module⟩

end DscScripts

end IdaRs
