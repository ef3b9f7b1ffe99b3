import IdaRs.Values
import Mathlib.Data.UInt

/-!
# The open database, as the handlers read it (`src/ida/handlers/mod.rs` 31-75, `src/ida/types.rs`)

`Idb` has what idalib answers: the tables of functions, names, strings and types in the order it lists them, the
cross references of an address as the chain `next_to` and `next_from` walk, instructions and control flow graphs. No
table is too long for a vector with a row for each of its elements, and no instruction reaches past the last address.

A handler ends with a value, with a tool error, or without either: `Vec::with_capacity` panics on more bytes than
`isize::MAX` and aborts the process where the allocator refuses, and a sum of two `usize` may not fit. What the allocator
grants is a parameter beside the tables.
-/

namespace IdaRs

namespace Handlers

abbrev Address := UInt64

/-- `{:#x}`. -/
def fmtAddr (a : Address) : String := hexLit a.toNat

theorem hexLit_injective : Function.Injective hexLit := by
  intro m n h
  have hdigits : Nat.toDigits 16 m = Nat.toDigits 16 n := by
    have htext := congrArg String.toList h
    rw [hexLit_toList, hexLit_toList] at htext
    exact (List.cons.inj (List.cons.inj htext).2).2
  exact Option.some.inj ((radixValue_toDigits m).symm.trans ((congrArg _ hdigits).trans (radixValue_toDigits n)))

theorem fmtAddr_injective : Function.Injective fmtAddr := fun _ _ h => UInt64.toNat_inj.1 (hexLit_injective h)

def parseAddressStr (s : String) : Except ToolError Address :=
  let s := trim s.toList
  let value :=
    if ['0', 'x'] <+: s ∨ ['0', 'X'] <+: s then fromStrRadix 16 u64Max (s.drop 2)
    else if ['0', 'b'] <+: s ∨ ['0', 'B'] <+: s then fromStrRadix 2 u64Max (s.drop 2)
    else if ['0', 'o'] <+: s ∨ ['0', 'O'] <+: s then fromStrRadix 8 u64Max (s.drop 2)
    else fromStrRadix 10 u64Max s
  match value with
  | some a => .ok (UInt64.ofNat a)
  | none => .error (.invalidAddress (String.ofList s))

theorem parseAddressStr_fmtAddr (a : Address) : parseAddressStr (fmtAddr a) = .ok a := by
  have hmax : a.toNat ≤ u64Max := Nat.le_of_lt_succ a.toNat_lt
  have hpre : ['0', 'x'] <+: (fmtAddr a).toList := ⟨Nat.toDigits 16 a.toNat, (hexLit_toList _).symm⟩
  have hval : fromStrRadix 16 u64Max ((fmtAddr a).toList.drop 2) = some a.toNat := by
    rw [fmtAddr, hexLit_toList]
    exact fromStrRadix_toDigits hmax
  have htrim : trim (fmtAddr a).toList = (fmtAddr a).toList := trim_hexLit _
  simp only [parseAddressStr, htrim, if_pos (Or.inl hpre), hval, UInt64.ofNat_toNat]

/-! ### idalib -/

structure Function where
  start : Address
  /-- `end_address`. -/
  stop : Address
  name : Option String
  len : Nat
deriving DecidableEq, Repr

/-- `name().unwrap_or_else(|| format!("sub_{:x}", addr))`. -/
def Function.display (f : Function) : String :=
  f.name.getD ("sub_" ++ String.ofList (Nat.toDigits 16 f.start.toNat))

structure NameItem where
  address : Address
  name : String
  isPublic : Bool
  isWeak : Bool
deriving DecidableEq, Repr

/-- The kinds of operands that are told apart. -/
inductive OperandType
  | near
  | far
  | mem
  | displ
  | phrase
  | reg
  | imm
  | other
deriving DecidableEq, Repr

structure Operand where
  kind : OperandType
  address : Option Address
deriving DecidableEq, Repr

structure Insn where
  len : Nat
  isCall : Bool
  /-- `operand(idx)` for the indices below `operand_count`. -/
  operands : List (Option Operand)
deriving DecidableEq, Repr

/-- `Code(NearCall)` and `Code(FarCall)` are told apart from the rest; `text` is what `{:?}` prints. -/
inductive XRefType
  | nearCall
  | farCall
  | other (text : String)
deriving DecidableEq, Repr

def XRefType.debug : XRefType → String
  | nearCall => "Code(NearCall)"
  | farCall => "Code(FarCall)"
  | other text => text

structure XRef where
  src : Address
  dst : Address
  type : XRefType
  isCode : Bool
deriving DecidableEq, Repr

structure UdtInfo where
  ordinal : Nat
  name : String
  size : Nat
  isUnion : Bool
  memberCount : Nat
deriving DecidableEq, Repr

structure LocalType where
  ordinal : Nat
  name : String
  decl : String
  kind : String
deriving DecidableEq, Repr

/-- A block of a control flow graph: its addresses and the starts of its successors, in their order. -/
structure BasicBlock where
  start : Address
  stop : Address
  succs : List Address
deriving DecidableEq, Repr

def BasicBlock.containsAddress (b : BasicBlock) (a : Address) : Bool := decide (b.start ≤ a ∧ a < b.stop)

def isizeMax : Nat := 9223372036854775807

/-- A vector may have `n` rows; none is longer than 128 bytes. -/
def Fits (n : Nat) : Prop := n * 128 ≤ isizeMax

structure Idb where
  functions : List Function
  functionAt : Address → Option Function
  /-- `func.contains_address(addr)`. -/
  functionContains : Function → Address → Bool
  names : List NameItem
  strings : List (Address × String)
  /-- `segment_at(addr)` is there and its type is external or an import. -/
  importSegmentAt : Address → Bool
  xrefsTo : Address → List XRef
  xrefsFrom : Address → List XRef
  addressToString : Address → Option String
  insnAt : Address → Option Insn
  nextHead : Address → Option Address
  disasmLine : Address → Option String
  udtOrdinalLimit : Nat
  udtInfo : Nat → Option UdtInfo
  localTypeInfo : Nat → Option LocalType
  /-- The blocks of a function's graph, or idalib's error. -/
  cfg : Function → Except String (List BasicBlock)
  /-- No two functions start at one address. -/
  functions_distinct : (functions.map Function.start).Nodup
  functions_fit : Fits functions.length
  names_fit : Fits names.length
  strings_fit : Fits strings.length
  xrefsTo_fit : ∀ a, Fits (xrefsTo a).length
  xrefsFrom_fit : ∀ a, Fits (xrefsFrom a).length
  ordinals_fit : Fits udtOrdinalLimit
  insn_end : ∀ a i, insnAt a = some i → a.toNat + i.len ≤ u64Max
  /-- Whether the allocator grants a reservation of so many bytes. -/
  grants : Nat → Bool
  /-- It grants a row for each cross reference of an address. -/
  grants_xrefs : ∀ a n size, n ≤ (xrefsTo a).length ∨ n ≤ (xrefsFrom a).length → size ≤ 128 → grants (n * size) = true

def Idb.empty : Idb where
  functions := []
  functionAt _ := none
  functionContains _ _ := false
  names := []
  strings := []
  importSegmentAt _ := false
  xrefsTo _ := []
  xrefsFrom _ := []
  addressToString _ := none
  insnAt _ := none
  nextHead _ := none
  disasmLine _ := none
  udtOrdinalLimit := 0
  udtInfo _ := none
  localTypeInfo _ := none
  cfg _ := .ok []
  functions_distinct := List.nodup_nil
  functions_fit := Nat.zero_le _
  names_fit := Nat.zero_le _
  strings_fit := Nat.zero_le _
  xrefsTo_fit _ := Nat.zero_le _
  xrefsFrom_fit _ := Nat.zero_le _
  ordinals_fit := Nat.zero_le _
  insn_end := by simp
  grants _ := true
  grants_xrefs _ _ _ _ _ := rfl

/-! ### Handlers -/

structure FunctionInfo where
  address : String
  name : String
  size : Nat
deriving DecidableEq, Repr

def Function.info (f : Function) : FunctionInfo := ⟨fmtAddr f.start, f.display, f.len⟩

/-- Why a handler does not return a value. -/
inductive Stop
  | tool (e : ToolError)
  | capacityOverflow
  /-- `handle_alloc_error` aborts the process. -/
  | allocRefused
  | addOverflow
deriving DecidableEq, Repr

abbrev Exec := Except Stop

/-- `idb.as_ref().ok_or(ToolError::NoDatabaseOpen)`. -/
def opened (idb : Option Idb) : Except ToolError Idb :=
  match idb with
  | some db => .ok db
  | none => .error .noDatabaseOpen

/-- `Err` of a handler. -/
def liftTool {α : Type} (x : Except ToolError α) : Exec α := x.mapError .tool

/-- `Vec::with_capacity(n)` for elements of `size` bytes. -/
def withCapacity (grants : Nat → Bool) (size n : Nat) : Exec Unit :=
  if isizeMax < n * size then .error .capacityOverflow
  else if n * size = 0 ∨ grants (n * size) = true then .ok ()
  else .error .allocRefused

/-- A vector for `n` elements can be reserved: it may have so many bytes, and the allocator grants them. -/
def Reserves (grants : Nat → Bool) (size n : Nat) : Prop :=
  n * size ≤ isizeMax ∧ (n * size = 0 ∨ grants (n * size) = true)

instance (grants : Nat → Bool) (size n : Nat) : Decidable (Reserves grants size n) :=
  inferInstanceAs (Decidable (_ ∧ _))

/-- `a + b` of a `usize` or a `u64`. -/
def checkedAdd (a b : Nat) : Exec Nat := if a + b ≤ u64Max then .ok (a + b) else .error .addOverflow

/-- `saturating_add`. -/
def saturatingAdd (a b : Nat) : Nat := min (a + b) u64Max

theorem Fits.le {n : Nat} (h : Fits n) : n ≤ u64Max := by
  simp only [Fits, isizeMax] at h
  simp only [u64Max]
  omega

theorem Fits.mono {m n : Nat} (h : Fits n) (hle : m ≤ n) : Fits m := (Nat.mul_le_mul_right 128 hle).trans h

theorem liftTool_opened (db : Idb) : liftTool (opened (some db)) = .ok db := rfl

theorem withCapacity_ok {grants : Nat → Bool} {size n : Nat} (h : Reserves grants size n) :
    withCapacity grants size n = .ok () := by
  unfold withCapacity
  rw [if_neg (Nat.not_lt.2 h.1), if_pos h.2]

/-- What stops is no tool error. -/
theorem withCapacity_stop {grants : Nat → Bool} {size n : Nat} (h : ¬ Reserves grants size n) :
    withCapacity grants size n = .error .capacityOverflow ∨ withCapacity grants size n = .error .allocRefused := by
  unfold withCapacity
  split
  · exact .inl rfl
  · rename_i hlarge
    rw [if_neg fun hroom => h ⟨Nat.not_lt.1 hlarge, hroom⟩]
    exact .inr rfl

theorem checkedAdd_ok {a b : Nat} (h : a + b ≤ u64Max) : checkedAdd a b = .ok (a + b) := if_pos h

end Handlers

end IdaRs
