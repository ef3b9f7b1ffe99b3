import IdaRs.Pooled

/-!
# What the handlers pass to their backend

`Passed`: the bounds that hold of every call a handler makes. Numbers come from `i64` parameters and have gone
through the handler's caps, addresses fit `u64`, lists that must not be empty are not. `callTool_passed` shows it for
every tool, server and argument list; the child's reading of the arguments (`IdaRs.PooledAgree`) rests on it.
-/

namespace IdaRs

namespace Backend

open Serde Calls

def i64Max : Nat := 9223372036854775807

def InI64 (n : Int) : Prop := IntTy.i64.lo ≤ n ∧ n ≤ IntTy.i64.hi

def AddrOk (addr : Option Nat) : Prop := ∀ a ∈ addr, a ≤ u64Max

def OrdinalOk (n : Option Nat) : Prop := ∀ k ∈ n, (k : Int) ≤ IntTy.u32.hi

def IdaRequest.Passed : IdaRequest → Prop
  | listFunctions offset limit _ => offset ≤ i64Max ∧ limit ≤ 10000
  | disasmByName _ count => count ≤ 1000
  | disasm addr count => addr ≤ u64Max ∧ count ≤ 1000
  | decompile addr => addr ≤ u64Max
  | strings offset limit _ => offset ≤ i64Max ∧ limit ≤ 10000
  | localTypes offset limit _ => offset ≤ i64Max ∧ limit ≤ i64Max
  | applyTypes addr _ offset stackOffset _ _ _ _ _ _ => AddrOk addr ∧ InI64 offset ∧ ∀ n ∈ stackOffset, InI64 n
  | inferTypes addr _ offset => AddrOk addr ∧ InI64 offset
  | addrInfo addr _ offset => AddrOk addr ∧ InI64 offset
  | functionAt addr _ offset => AddrOk addr ∧ InI64 offset
  | disasmFunctionAt addr _ offset count => AddrOk addr ∧ InI64 offset ∧ count ≤ 5000
  | declareStack addr _ offset _ _ _ => AddrOk addr ∧ InI64 offset
  | deleteStack addr _ offset _ => AddrOk addr ∧ ∀ n ∈ offset, InI64 n
  | stackFrame addr => addr ≤ u64Max
  -- `search_structs` has no cap
  | structs offset limit _ => offset ≤ i64Max ∧ limit ≤ i64Max
  | structInfo ordinal _ => OrdinalOk ordinal
  | readStruct addr ordinal _ => addr ≤ u64Max ∧ OrdinalOk ordinal
  | xrefsTo addr offset limit => addr ≤ u64Max ∧ offset ≤ i64Max ∧ 1 ≤ limit ∧ limit ≤ 10000
  | xrefsFrom addr offset limit => addr ≤ u64Max ∧ offset ≤ i64Max ∧ 1 ≤ limit ∧ limit ≤ 10000
  | xrefsToField ordinal _ memberIndex _ limit => OrdinalOk ordinal ∧ OrdinalOk memberIndex ∧ limit ≤ 10000
  | imports offset limit => offset ≤ i64Max ∧ limit ≤ 10000
  | exports offset limit => offset ≤ i64Max ∧ limit ≤ 10000
  | luminaLookup addr _ offset => AddrOk addr ∧ InI64 offset
  | luminaApply addr _ offset _ => AddrOk addr ∧ InI64 offset
  | getBytes addr name offset size =>
    size ≤ 0x10000 ∧ ((∃ a, addr = some a ∧ a ≤ u64Max ∧ name = none ∧ offset = 0) ∨
      (addr = none ∧ name ≠ none ∧ InI64 offset))
  | setComments addr _ offset _ _ => AddrOk addr ∧ InI64 offset
  | rename addr _ _ flags => AddrOk addr ∧ IntTy.i32.lo ≤ flags ∧ flags ≤ IntTy.i32.hi
  | patchBytes addr _ offset bytes => AddrOk addr ∧ InI64 offset ∧ bytes ≠ []
  | patchAsm addr _ offset _ => AddrOk addr ∧ InI64 offset
  | basicBlocks addr => addr ≤ u64Max
  | callees addr => addr ≤ u64Max
  | callers addr => addr ≤ u64Max
  | listGlobals _ offset limit => offset ≤ i64Max ∧ limit ≤ 10000
  | analyzeStrings _ offset limit => offset ≤ i64Max ∧ limit ≤ 10000
  | findString _ _ _ offset limit => offset ≤ i64Max ∧ limit ≤ 10000
  | xrefsToString _ _ _ offset limit maxXrefs => offset ≤ i64Max ∧ limit ≤ 10000 ∧ maxXrefs ≤ i64Max
  | findBytes _ maxResults => maxResults ≤ 20000
  | searchText _ maxResults => maxResults ≤ 20000
  | searchImm imm maxResults => imm ≤ u64Max ∧ maxResults ≤ 20000
  | findInsns patterns maxResults _ => patterns ≠ [] ∧ maxResults ≤ i64Max
  | findInsnOperands patterns maxResults _ => patterns ≠ [] ∧ maxResults ≤ i64Max
  | readInt addr size => addr ≤ u64Max ∧ (size = 1 ∨ size = 2 ∨ size = 4 ∨ size = 8)
  | getString addr maxLen => addr ≤ u64Max ∧ maxLen ≤ 0x10000
  | findPaths start stop maxPaths maxDepth => start ≤ u64Max ∧ stop ≤ u64Max ∧ maxPaths ≤ 128 ∧ maxDepth ≤ 2048
  | callGraph addr maxDepth maxNodes => addr ≤ u64Max ∧ maxDepth ≤ 16 ∧ maxNodes ≤ 10000
  | xrefMatrix addrs => addrs ≠ [] ∧ ∀ a ∈ addrs, a ≤ u64Max
  | exportFuncs offset limit => offset ≤ i64Max ∧ limit ≤ 10000
  | pseudocodeAt addr endAddr => addr ≤ u64Max ∧ AddrOk endAddr
  | _ => True

abbrev TimeoutOk (timeoutSecs : Option Nat) : Prop := ∀ t ∈ timeoutSecs, t ≤ i64Max

def BackendCall.Passed (c : BackendCall) : Prop := c.request.Passed ∧ TimeoutOk c.timeoutSecs

/-! ## What the argument readers return -/

theorem parseOptional_le {T : IntTy} {v : OptI64} {name : String} {r : Option Int}
    (h : parseOptional T v name = .ok r) : ∀ n ∈ r, InI64 n ∧ T.lo ≤ n ∧ n ≤ T.hi := by
  cases v with
  | none => cases h; simp
  | some v =>
    simp only [parseOptional] at h
    split at h
    · cases h
      rintro n ⟨⟩
      exact ⟨v.2, ‹_›⟩
    · cases h

theorem parseOptionalUnsigned_le {T : IntTy} {v : OptI64} {name : String} {r : Option Nat} (hT : T.lo = 0)
    (h : parseOptionalUnsigned T v name = .ok r) : ∀ n ∈ r, n ≤ i64Max ∧ (n : Int) ≤ T.hi := by
  unfold parseOptionalUnsigned at h
  cases hp : parseOptional T v name with
  | error e => rw [hp] at h; cases h
  | ok o =>
    rw [hp] at h
    cases h
    intro n hn
    obtain ⟨k, hk, rfl⟩ := Option.map_eq_some_iff.1 hn
    obtain ⟨⟨-, hhi⟩, hlo, hThi⟩ := parseOptional_le hp k hk
    have : IntTy.i64.hi = 9223372036854775807 := rfl
    simp only [i64Max]
    omega

theorem getD_le {r : Option Nat} {d m : Nat} (h : ∀ n ∈ r, n ≤ m) (hd : d ≤ m) : r.getD d ≤ m := by
  cases r with
  | none => exact hd
  | some n => exact h n rfl

theorem fromStrRadix_le {radix max a : Nat} {s : List Char} (h : fromStrRadix radix max s = some a) : a ≤ max := by
  unfold fromStrRadix at h
  split at h
  · cases h
  · obtain ⟨-, hle⟩ := Option.filter_eq_some_iff.1 h
    simpa using hle

theorem parseAddress_le {s : String} {a : Nat} (h : parseAddress s = .ok a) : a ≤ u64Max := by
  simp only [parseAddress] at h
  split at h
  · rename_i hv
    cases h
    split at hv
    · exact fromStrRadix_le hv
    split at hv
    · exact fromStrRadix_le hv
    split at hv
    · exact fromStrRadix_le hv
    · exact fromStrRadix_le hv
  · cases h

theorem mapM_ok_forall {α β ε : Type} {f : α → Except ε β} {P : β → Prop} (hf : ∀ a b, f a = .ok b → P b) {xs : List α}
    {ys : List β} (h : xs.mapM f = .ok ys) : (∀ y ∈ ys, P y) ∧ ys.length = xs.length := by
  induction xs generalizing ys with
  | nil => cases h; simp
  | cons x xs ih =>
    rw [List.mapM_cons] at h
    cases hx : f x with
    | error e => rw [hx] at h; cases h
    | ok y =>
      cases hxs : xs.mapM f with
      | error e => rw [hx, hxs] at h; cases h
      | ok ys' =>
        rw [hx, hxs] at h
        cases h
        obtain ⟨hp, hl⟩ := ih hxs
        refine ⟨fun z hz => ?_, by simp [hl]⟩
        rcases List.mem_cons.1 hz with rfl | hz
        · exact hf x _ hx
        · exact hp z hz

theorem valueToAddresses_le {fromStr : String → Option Json} {value : Json} {addrs : List Nat}
    (h : valueToAddresses fromStr value = .ok addrs) : addrs ≠ [] ∧ ∀ a ∈ addrs, a ≤ u64Max := by
  cases hs : valueToStrings fromStr value with
  | error e => rw [valueToAddresses, hs] at h; cases h
  | ok strings =>
    by_cases hne : strings = []
    · rw [valueToAddresses, hs, hne] at h
      cases h
    · rw [valueToAddresses_eq fromStr hs hne] at h
      obtain ⟨hle, hlen⟩ := mapM_ok_forall (fun _ _ => parseAddress_le) h
      refine ⟨?_, hle⟩
      rintro rfl
      exact hne (List.length_eq_zero_iff.1 hlen.symm)

theorem valueToSingleAddress_le {fromStr : String → Option Json} {value : Json} {a : Nat}
    (h : valueToSingleAddress fromStr value = .ok a) : a ≤ u64Max := by
  cases hs : valueToAddresses fromStr value with
  | error e => rw [valueToSingleAddress, hs] at h; cases h
  | ok addrs =>
    obtain ⟨hne, hle⟩ := valueToAddresses_le hs
    cases addrs with
    | nil => exact absurd rfl hne
    | cons b addrs =>
      rw [valueToSingleAddress, hs] at h
      cases h
      exact hle _ (List.mem_cons_self ..)

theorem hexPairs_ne_nil {a b : Char} {cs : List Char} {bytes : List UInt8}
    (h : hexPairs (a :: b :: cs) = .ok bytes) : bytes ≠ [] := by
  rw [hexPairs] at h
  split at h
  · cases hp : hexPairs cs with
    | error e => rw [hp] at h; cases h
    | ok bs => rw [hp] at h; cases h; exact List.cons_ne_nil _ _
  · cases h

theorem valueToBytes_ne_nil {value : Json} {bytes : List UInt8} (h : valueToBytes value = .ok bytes) : bytes ≠ [] := by
  cases value with
  | str s =>
    rw [valueToBytes] at h
    cases hc : cleanHex s.toList with
    | error e => rw [hc] at h; cases h
    | ok cleaned =>
      rw [hc] at h
      cases cleaned with
      | nil => cases h
      | cons a cs =>
        cases cs with
        | nil => cases h
        | cons b cs =>
          simp only [bind, Except.bind, reduceCtorEq, if_false] at h
          split at h
          · cases h
          · exact hexPairs_ne_nil h
  | arr xs =>
    rw [valueToBytes] at h
    cases hx : xs.mapM elementByte with
    | error e => rw [hx] at h; cases h
    | ok out =>
      rw [hx] at h
      simp only [bind, Except.bind] at h
      split at h
      · cases h
      · cases h
        assumption
  | int n =>
    rw [valueToBytes] at h
    cases hn : numberByte n with
    | error e => rw [hn] at h; cases h
    | ok b => rw [hn] at h; cases h; exact List.cons_ne_nil _ _
  | _ => cases h

/-! ## The calls of the handlers -/

theorem all_tryParam_bind {α β : Type} {P : BackendCall → Prop} {x : Except ToolError α} {f : α → Handler β}
    (hf : ∀ a, x = .ok a → (f a).All P) : (tryParam x >>= f).All P := by
  refine Prog.all_ofExcept_bind fun a ha => hf a ?_
  cases x with
  | error e => cases ha
  | ok b => cases ha; rfl

theorem all_answer {P : BackendCall → Prop} {req : IdaRequest} {t : Option Nat} (h : P ⟨req, t⟩) :
    (answer req t).All P := by
  refine Prog.all_bind (Prog.all_call h fun o => ?_) fun _ => Prog.all_done _
  cases o with
  | error e => exact Prog.all_fail _
  | ok r => exact Prog.all_done _

section

variable {κ : Type} {P : BackendCall → Prop} {item : κ → String × Json} {entry : κ → Reply → Json}
  {req : κ → IdaRequest} {t : Option Nat} {items : List κ}

theorem all_answerEach (h : ∀ x ∈ items, P ⟨req x, t⟩) : (answerEach item entry req t items).All P := by
  refine Prog.all_bind (Prog.all_collect fun x hx => ?_) fun _ => Prog.all_done _
  refine Prog.all_bind (Prog.all_call (h x hx) fun _ => Prog.all_done _) fun o => ?_
  cases o with
  | error e => exact Prog.all_done _
  | ok r => exact Prog.all_done _

theorem all_answerOneOrEach (h : ∀ x ∈ items, P ⟨req x, t⟩) : (answerOneOrEach item entry req t items).All P := by
  unfold answerOneOrEach
  split
  · exact all_answer (h _ (List.mem_singleton_self _))
  · exact all_answerEach h

end

theorem all_answerAddresses {label : String} {P : BackendCall → Prop} {req : Nat → IdaRequest} {addrs : List Nat}
    (h : ∀ a ∈ addrs, P ⟨req a, none⟩) : (answerAddresses label req addrs).All P :=
  all_answerOneOrEach h

theorem all_withParams {P : BackendCall → Prop} {t : Ty} {args : List (String × Json)}
    {handler : t.Val → Handler Payload} (h : ∀ req, (handler req).All P) : (withParams t args handler).All P := by
  unfold withParams
  split
  · exact h _
  · exact Prog.all_fail _

theorem all_param_bind {β : Type} {P : BackendCall → Prop} {T : IntTy} {v : OptI64} {name : String}
    {f : Option Nat → Handler β} (hT : T.lo = 0)
    (hf : ∀ r : Option Nat, (∀ n ∈ r, n ≤ i64Max) → (∀ n ∈ r, (n : Int) ≤ T.hi) → (f r).All P) :
    (tryParam (parseOptionalUnsigned T v name) >>= f).All P :=
  all_tryParam_bind fun r hr =>
    hf r (fun n hn => (parseOptionalUnsigned_le hT hr n hn).1) fun n hn => (parseOptionalUnsigned_le hT hr n hn).2

theorem all_addresses_bind {β : Type} {P : BackendCall → Prop} {fromStr : String → Option Json} {value : Json}
    {f : List Nat → Handler β} (hf : ∀ addrs : List Nat, addrs ≠ [] → (∀ a ∈ addrs, a ≤ u64Max) → (f addrs).All P) :
    (tryParam (valueToAddresses fromStr value) >>= f).All P :=
  all_tryParam_bind fun addrs h => hf addrs (valueToAddresses_le h).1 (valueToAddresses_le h).2

theorem all_optAddress_bind {β : Type} {P : BackendCall → Prop} {srv : Server} {address : Option Json}
    {f : Option Nat → Handler β} (hf : ∀ addr, AddrOk addr → (f addr).All P) :
    (optAddress srv address >>= f).All P := by
  cases address with
  | none => exact hf none fun _ h => by cases h
  | some v =>
    change ((tryParam _ >>= fun a => .done (some a)) >>= f).All P
    cases hv : valueToSingleAddress srv.fromStr v with
    | error e => exact Prog.all_fail _
    | ok a => exact hf (some a) (by rintro b ⟨⟩; exact valueToSingleAddress_le hv)

section

variable {β : Type} {P : BackendCall → Prop} {limit offset timeoutSecs : OptI64} {f : Nat × Nat × Option Nat → Handler β}

theorem all_cappedPage_bind (hf : ∀ o l t, o ≤ i64Max → l ≤ 10000 → TimeoutOk t → (f (o, l, t)).All P) :
    (cappedPage limit offset timeoutSecs >>= f).All P := by
  simp only [cappedPage, Prog.bind_assoc]
  refine all_param_bind rfl fun l _ _ => all_param_bind rfl fun o ho _ => all_param_bind rfl fun t ht _ => ?_
  exact hf _ _ _ (getD_le ho (by decide)) (Nat.min_le_right ..) ht

theorem all_uncappedPage_bind (hf : ∀ o l t, o ≤ i64Max → l ≤ i64Max → TimeoutOk t → (f (o, l, t)).All P) :
    (uncappedPage limit offset timeoutSecs >>= f).All P := by
  simp only [uncappedPage, Prog.bind_assoc]
  refine all_param_bind rfl fun o ho _ => all_param_bind rfl fun l hl _ => all_param_bind rfl fun t ht _ => ?_
  exact hf _ _ _ (getD_le ho (by decide)) (getD_le hl (by decide)) ht

theorem all_parseXrefsPaging_bind
    (hf : ∀ o l t, o ≤ i64Max → 1 ≤ l → l ≤ 10000 → TimeoutOk t → (f (o, l, t)).All P) :
    (parseXrefsPaging limit offset timeoutSecs >>= f).All P := by
  simp only [parseXrefsPaging, Prog.bind_assoc]
  refine all_param_bind rfl fun l _ _ => all_param_bind rfl fun o ho _ => all_param_bind rfl fun t ht _ => ?_
  exact hf _ _ _ (getD_le ho (by decide)) (Nat.le_max_left ..) (by omega) ht

end

theorem timeoutOk_none : TimeoutOk none := fun _ h => by cases h

theorem inI64_getD (offset : OptI64) : InI64 ((offset.map (·.1)).getD 0) := by
  cases offset with
  | none => exact ⟨by decide, by decide⟩
  | some n => exact n.2

theorem inI64_map (offset : OptI64) : ∀ n ∈ offset.map (·.1), InI64 n := by
  intro n hn
  obtain ⟨k, -, rfl⟩ := Option.map_eq_some_iff.1 hn
  exact k.2

/-- The handlers that pass on a place and something more. -/
theorem place_passed {srv : Server} {address : Option Json} {req : Option Nat → IdaRequest} {t : Option Nat}
    (ht : TimeoutOk t) (h : ∀ addr, AddrOk addr → (req addr).Passed) :
    (optAddress srv address >>= fun addr => answer (req addr) t).All BackendCall.Passed :=
  all_optAddress_bind fun addr ha => all_answer ⟨h addr ha, ht⟩

theorem addresses_passed {srv : Server} {address : Json} {label : String} {req : Nat → IdaRequest}
    (h : ∀ a ≤ u64Max, (req a).Passed) :
    (tryParam (valueToAddresses srv.fromStr address) >>= answerAddresses label req).All BackendCall.Passed :=
  all_addresses_bind fun _ _ ha => all_answerAddresses fun a hm => ⟨h a (ha a hm), timeoutOk_none⟩

section

variable (srv : Server)

theorem disasm_passed (req : DisasmRequest.Val) : (disasm srv req).All BackendCall.Passed :=
  all_param_bind rfl fun _ _ _ => addresses_passed fun _ ha => ⟨ha, Nat.min_le_right ..⟩

theorem disasmFunctionAt_passed (req : DisasmFunctionAtRequest.Val) :
    (disasmFunctionAt srv req).All BackendCall.Passed :=
  all_optAddress_bind fun _ ha => all_param_bind rfl fun _ _ _ =>
    all_answer ⟨⟨ha, inI64_getD _, Nat.min_le_right ..⟩, timeoutOk_none⟩

theorem pseudocodeAt_passed (req : PseudocodeAtRequest.Val) : (pseudocodeAt srv req).All BackendCall.Passed := by
  obtain ⟨address, endAddress, -⟩ := req
  refine all_addresses_bind fun addrs _ ha => ?_
  have hgo : ∀ endAddr, AddrOk endAddr →
      (answerAddresses "pseudocode" (.pseudocodeAt · endAddr) addrs).All BackendCall.Passed :=
    fun endAddr he => all_answerAddresses fun a hm => ⟨⟨ha a hm, he⟩, timeoutOk_none⟩
  cases endAddress with
  | none => exact hgo none fun _ h => by cases h
  | some s =>
    exact all_tryParam_bind fun a hs => hgo (some a) (by rintro b ⟨⟩; exact parseAddress_le hs)

theorem xrefsToString_passed (req : XrefsToStringRequest.Val) : (xrefsToString req).All BackendCall.Passed :=
  all_param_bind rfl fun _ _ _ => all_param_bind rfl fun _ ho _ => all_param_bind rfl fun _ hm _ =>
    all_param_bind rfl fun _ ht _ =>
      all_answer ⟨⟨getD_le ho (by decide), Nat.min_le_right .., getD_le hm (by decide)⟩, ht⟩

theorem xrefsLookup_passed {dir : Nat → Nat → Nat → IdaRequest}
    (h : ∀ a o l, a ≤ u64Max → o ≤ i64Max → 1 ≤ l → l ≤ 10000 → (dir a o l).Passed) (req : XrefsRequest.Val) :
    (xrefsLookup srv dir req).All BackendCall.Passed :=
  all_parseXrefsPaging_bind fun _ _ _ ho h₁ hl ht => all_addresses_bind fun _ _ ha =>
    all_answerOneOrEach fun a hm => ⟨h _ _ _ (ha a hm) ho h₁ hl, ht⟩

/-- `imports` and `exports`. -/
theorem paginated_passed (req : Nat → Nat → IdaRequest) (h : ∀ o l, o ≤ i64Max → l ≤ 10000 → (req o l).Passed)
    (offset limit : OptI64) :
    (tryParam (parseOptionalUnsigned .usize limit "limit") >>= fun l =>
      tryParam (parseOptionalUnsigned .usize offset "offset") >>= fun o =>
        answer (req (o.getD 0) (min (l.getD 100) 10000)) none).All BackendCall.Passed :=
  all_param_bind rfl fun _ _ _ => all_param_bind rfl fun _ ho _ =>
    all_answer ⟨h _ _ (getD_le ho (by decide)) (Nat.min_le_right ..), timeoutOk_none⟩

theorem getBytes_passed (req : GetBytesRequest.Val) : (getBytes srv req).All BackendCall.Passed := by
  obtain ⟨address, targetName, offset, size, -⟩ := req
  refine all_param_bind rfl fun size _ _ => ?_
  cases address with
  | some address =>
    exact addresses_passed fun a ha => ⟨Nat.min_le_right .., .inl ⟨a, rfl, ha, rfl, rfl⟩⟩
  | none =>
    cases targetName with
    | none => exact Prog.all_fail _
    | some name =>
      exact all_answer ⟨⟨Nat.min_le_right .., .inr ⟨rfl, Option.some_ne_none _, inI64_getD _⟩⟩, timeoutOk_none⟩

theorem idbMeta_passed : (idbMeta srv).All BackendCall.Passed := by
  refine Prog.all_bind (Prog.all_call ⟨trivial, timeoutOk_none⟩ fun o => ?_) fun _ => Prog.all_done _
  cases o with
  | error e => exact Prog.all_fail _
  | ok r => exact Prog.all_done _

theorem all_workerMaxResults_bind {β : Type} {P : BackendCall → Prop} {mode : ServerMode} {v : OptI64}
    {f : Option Nat → Handler β} (hf : ∀ r : Option Nat, (∀ n ∈ r, n ≤ 20000) → (f r).All P) :
    (workerMaxResults mode v >>= f).All P := by
  unfold workerMaxResults
  split
  · simp only [Prog.bind_assoc]
    refine all_param_bind rfl fun r _ _ => hf _ fun n hn => ?_
    obtain ⟨k, -, rfl⟩ := Option.map_eq_some_iff.1 hn
    exact Nat.min_le_right ..
  · exact hf none fun _ h => by cases h

theorem findBytes_passed (req : FindBytesRequest.Val) : (findBytes srv req).All BackendCall.Passed := by
  refine all_tryParam_bind fun patterns _ => all_param_bind rfl fun l _ _ => all_param_bind rfl fun o _ _ =>
    all_workerMaxResults_bind fun wm hwm => all_param_bind rfl fun t ht _ => ?_
  refine Prog.all_bind (Prog.all_collect fun pattern _ => ?_) fun _ => Prog.all_done _
  refine Prog.all_bind (Prog.all_call ⟨?_, ht⟩ fun _ => Prog.all_done _) fun _ => Prog.all_done _
  exact getD_le hwm (Nat.min_le_right ..)

theorem searchRequest_passed {kind : List Char} {target : String} {maxResults : Nat} {req : IdaRequest}
    (hm : maxResults ≤ 20000) (h : searchRequest kind target maxResults = .ok req) : req.Passed := by
  unfold searchRequest at h
  split at h
  · cases hp : parseAddress target with
    | error e => rw [hp] at h; cases h
    | ok a => rw [hp] at h; cases h; exact ⟨parseAddress_le hp, hm⟩
  split at h
  · cases h; exact hm
  split at h
  · rename_i hp
    cases h
    exact ⟨parseAddress_le hp, hm⟩
  · cases h; exact hm

theorem search_passed (req : SearchRequest.Val) : (search srv req).All BackendCall.Passed := by
  refine all_tryParam_bind fun targets _ => all_param_bind rfl fun l _ _ => all_param_bind rfl fun o _ _ =>
    all_workerMaxResults_bind fun wm hwm => all_param_bind rfl fun t ht _ => ?_
  refine Prog.all_bind (Prog.all_collect fun target _ => ?_) fun _ => Prog.all_done _
  have hm : wm.getD (min (o.getD 0 + min (l.getD 100) 10000) 20000) ≤ 20000 := getD_le hwm (Nat.min_le_right ..)
  split
  · rename_i hreq
    refine Prog.all_bind (Prog.all_call ⟨?_, ht⟩ fun _ => Prog.all_done _) fun _ => Prog.all_done _
    exact searchRequest_passed hm hreq
  · exact Prog.all_done _

theorem getString_passed (req : GetStringRequest.Val) : (getString srv req).All BackendCall.Passed :=
  all_addresses_bind fun _ _ ha => all_param_bind rfl fun _ _ _ =>
    all_answerAddresses fun a hm => ⟨⟨ha a hm, Nat.min_le_right ..⟩, timeoutOk_none⟩

theorem getGlobalValue_passed (req : GetGlobalValueRequest.Val) : (getGlobalValue srv req).All BackendCall.Passed :=
  all_tryParam_bind fun _ _ => all_answerOneOrEach fun _ _ => ⟨trivial, timeoutOk_none⟩

theorem findPaths_passed (req : FindPathsRequest.Val) : (findPaths srv req).All BackendCall.Passed :=
  all_tryParam_bind fun _ hs => all_tryParam_bind fun _ he => all_param_bind rfl fun _ _ _ =>
    all_param_bind rfl fun _ _ _ =>
      all_answer ⟨⟨valueToSingleAddress_le hs, valueToSingleAddress_le he, Nat.min_le_right .., Nat.min_le_right ..⟩,
        timeoutOk_none⟩

theorem callgraph_passed (req : CallGraphRequest.Val) : (callgraph srv req).All BackendCall.Passed :=
  all_addresses_bind fun _ _ ha => all_param_bind rfl fun _ _ _ => all_param_bind rfl fun _ _ _ =>
    all_answerOneOrEach fun a hm => ⟨⟨ha a hm, Nat.min_le_right .., Nat.min_le_right ..⟩, timeoutOk_none⟩

theorem exportFuncs_passed (req : ExportFuncsRequest.Val) : (exportFuncs srv req).All BackendCall.Passed := by
  obtain ⟨addrs, offset, limit, format, -⟩ := req
  -- the request after the check of the format
  have hgo : (exportFuncs srv ⟨addrs, offset, limit, none, ()⟩).All BackendCall.Passed := by
    cases addrs with
    | some v => exact all_tryParam_bind fun _ _ => all_answer ⟨trivial, timeoutOk_none⟩
    | none =>
      exact paginated_passed .exportFuncs (fun _ _ ho hl => ⟨ho, hl⟩) offset limit
  cases format with
  | none => exact hgo
  | some fmt =>
    unfold exportFuncs
    dsimp only
    split
    · exact Prog.all_fail _
    · exact hgo

theorem xrefsToField_passed (req : XrefsToFieldRequest.Val) : (xrefsToField req).All BackendCall.Passed :=
  all_param_bind rfl fun _ _ _ => all_param_bind rfl fun _ _ ho => all_param_bind rfl fun _ _ hm =>
    all_answer ⟨⟨ho, hm, Nat.min_le_right ..⟩, timeoutOk_none⟩

theorem readStruct_passed (req : ReadStructRequest.Val) : (readStruct srv req).All BackendCall.Passed :=
  all_addresses_bind fun _ _ ha => all_param_bind rfl fun _ _ ho =>
    all_answerAddresses fun a hm => ⟨⟨ha a hm, ho⟩, timeoutOk_none⟩

/-- `find_insns` and `find_insn_operands`. -/
theorem findPatterns_passed (req : List String → Nat → Bool → IdaRequest)
    (h : ∀ ps n b, ps ≠ [] → n ≤ i64Max → (req ps n b).Passed) (patterns : Json) (limit : OptI64) (ci : Option Bool)
    (timeoutSecs : OptI64) : (findPatterns srv req patterns limit ci timeoutSecs).All BackendCall.Passed := by
  refine all_tryParam_bind fun ps _ => ?_
  split
  · exact Prog.all_fail _
  · rename_i hne
    exact all_param_bind rfl fun _ hl _ => all_param_bind rfl fun _ ht _ =>
      all_answer ⟨h _ _ _ hne (getD_le hl (by decide)), ht⟩

theorem rename_passed (req : RenameRequest.Val) : (rename srv req).All BackendCall.Passed := by
  refine all_optAddress_bind fun _ ha => all_tryParam_bind fun r hr => all_answer ⟨⟨ha, ?_⟩, timeoutOk_none⟩
  cases r with
  | none => exact ⟨by decide, by decide⟩
  | some n => exact (parseOptional_le hr n rfl).2

theorem patch_passed (req : PatchRequest.Val) : (patch srv req).All BackendCall.Passed :=
  all_optAddress_bind fun _ ha => all_tryParam_bind fun _ hb =>
    all_answer ⟨⟨ha, inI64_getD _, valueToBytes_ne_nil hb⟩, timeoutOk_none⟩

/-- Every call of every handler is within the bounds. -/
theorem callTool_passed (tool : Tool) (args : List (String × Json)) :
    (callTool srv tool args).All BackendCall.Passed := by
  cases tool with
  | loadDebugInfo => exact all_withParams fun _ => all_answer ⟨trivial, timeoutOk_none⟩
  | listFunctions => exact all_withParams fun _ => all_cappedPage_bind fun _ _ _ ho hl ht => all_answer ⟨⟨ho, hl⟩, ht⟩
  | listFuncs => exact all_withParams fun _ => all_cappedPage_bind fun _ _ _ ho hl ht => all_answer ⟨⟨ho, hl⟩, ht⟩
  | resolveFunction => exact all_withParams fun _ => all_answer ⟨trivial, timeoutOk_none⟩
  | addrInfo => exact all_withParams fun _ => place_passed timeoutOk_none fun _ ha => ⟨ha, inI64_getD _⟩
  | functionAt => exact all_withParams fun _ => place_passed timeoutOk_none fun _ ha => ⟨ha, inI64_getD _⟩
  | disasm => exact all_withParams (disasm_passed srv)
  | disasmByName =>
    exact all_withParams fun _ => all_param_bind rfl fun _ _ _ => all_answer ⟨Nat.min_le_right .., timeoutOk_none⟩
  | disasmFunctionAt => exact all_withParams (disasmFunctionAt_passed srv)
  | decompile => exact all_withParams fun _ => addresses_passed fun _ ha => ha
  | pseudocodeAt => exact all_withParams (pseudocodeAt_passed srv)
  | segments => exact all_answer ⟨trivial, timeoutOk_none⟩
  | strings => exact all_withParams fun _ => all_cappedPage_bind fun _ _ _ ho hl ht => all_answer ⟨⟨ho, hl⟩, ht⟩
  | findString => exact all_withParams fun _ => all_cappedPage_bind fun _ _ _ ho hl ht => all_answer ⟨⟨ho, hl⟩, ht⟩
  | xrefsToString => exact all_withParams xrefsToString_passed
  | xrefsTo => exact all_withParams (xrefsLookup_passed srv fun _ _ _ ha ho h₁ hl => ⟨ha, ho, h₁, hl⟩)
  | xrefsFrom => exact all_withParams (xrefsLookup_passed srv fun _ _ _ ha ho h₁ hl => ⟨ha, ho, h₁, hl⟩)
  | imports => exact all_withParams fun req => paginated_passed .imports (fun _ _ ho hl => ⟨ho, hl⟩) req.1 req.2.1
  | exports => exact all_withParams fun req => paginated_passed .exports (fun _ _ ho hl => ⟨ho, hl⟩) req.1 req.2.1
  | entrypoints => exact all_answer ⟨trivial, timeoutOk_none⟩
  | getBytes => exact all_withParams (getBytes_passed srv)
  | basicBlocks => exact all_withParams fun _ => addresses_passed fun _ ha => ha
  | callees => exact all_withParams fun _ => addresses_passed fun _ ha => ha
  | callers => exact all_withParams fun _ => addresses_passed fun _ ha => ha
  | idbMeta => exact idbMeta_passed srv
  | lookupFuncs => exact all_withParams fun _ => all_tryParam_bind fun _ _ => all_answer ⟨trivial, timeoutOk_none⟩
  | listGlobals => exact all_withParams fun _ => all_cappedPage_bind fun _ _ _ ho hl ht => all_answer ⟨⟨ho, hl⟩, ht⟩
  | analyzeStrings =>
    exact all_withParams fun _ => all_cappedPage_bind fun _ _ _ ho hl ht => all_answer ⟨⟨ho, hl⟩, ht⟩
  | findBytes => exact all_withParams (findBytes_passed srv)
  | search => exact all_withParams (search_passed srv)
  | getU8 => exact all_withParams fun _ => addresses_passed fun _ ha => ⟨ha, .inl rfl⟩
  | getU16 => exact all_withParams fun _ => addresses_passed fun _ ha => ⟨ha, .inr (.inl rfl)⟩
  | getU32 => exact all_withParams fun _ => addresses_passed fun _ ha => ⟨ha, .inr (.inr (.inl rfl))⟩
  | getU64 => exact all_withParams fun _ => addresses_passed fun _ ha => ⟨ha, .inr (.inr (.inr rfl))⟩
  | getString => exact all_withParams (getString_passed srv)
  | getGlobalValue => exact all_withParams (getGlobalValue_passed srv)
  | findPaths => exact all_withParams (findPaths_passed srv)
  | callgraph => exact all_withParams (callgraph_passed srv)
  | xrefMatrix =>
    exact all_withParams fun _ => all_addresses_bind fun _ hne ha => all_answer ⟨⟨hne, ha⟩, timeoutOk_none⟩
  | exportFuncs => exact all_withParams (exportFuncs_passed srv)
  | localTypes => exact all_withParams fun _ => all_uncappedPage_bind fun _ _ _ ho hl ht => all_answer ⟨⟨ho, hl⟩, ht⟩
  | xrefsToField => exact all_withParams xrefsToField_passed
  | luminaLookup =>
    exact all_withParams fun _ => all_param_bind rfl fun _ ht _ => place_passed ht fun _ ha => ⟨ha, inI64_getD _⟩
  | luminaApply =>
    exact all_withParams fun _ => all_param_bind rfl fun _ ht _ => place_passed ht fun _ ha => ⟨ha, inI64_getD _⟩
  | setComments => exact all_withParams fun _ => place_passed timeoutOk_none fun _ ha => ⟨ha, inI64_getD _⟩
  | patchAsm => exact all_withParams fun _ => place_passed timeoutOk_none fun _ ha => ⟨ha, inI64_getD _⟩
  | declareType => exact all_withParams fun _ => all_answer ⟨trivial, timeoutOk_none⟩
  | stackFrame =>
    exact all_withParams fun _ => all_tryParam_bind fun _ h => all_answer ⟨valueToSingleAddress_le h, timeoutOk_none⟩
  | declareStack => exact all_withParams fun req => place_passed timeoutOk_none fun _ ha => ⟨ha, req.2.2.1.2⟩
  | deleteStack =>
    exact all_withParams fun req => place_passed timeoutOk_none fun _ ha => ⟨ha, inI64_map req.2.2.1⟩
  | structs =>
    exact all_withParams fun _ => all_cappedPage_bind fun _ _ _ ho hl ht =>
      all_answer ⟨⟨ho, hl.trans (by decide)⟩, ht⟩
  | structInfo =>
    exact all_withParams fun _ => all_param_bind rfl fun _ _ ho => all_answer ⟨ho, timeoutOk_none⟩
  | readStruct => exact all_withParams (readStruct_passed srv)
  | searchStructs =>
    exact all_withParams fun _ => all_uncappedPage_bind fun _ _ _ ho hl ht => all_answer ⟨⟨ho, hl⟩, ht⟩
  | findInsns => exact all_withParams fun _ => findPatterns_passed srv .findInsns (fun _ _ _ hp hn => ⟨hp, hn⟩) _ _ _ _
  | findInsnOperands =>
    exact all_withParams fun _ => findPatterns_passed srv .findInsnOperands (fun _ _ _ hp hn => ⟨hp, hn⟩) _ _ _ _
  | applyTypes =>
    exact all_withParams fun req => place_passed timeoutOk_none fun _ ha =>
      ⟨ha, inI64_getD _, inI64_map req.2.2.2.1⟩
  | inferTypes => exact all_withParams fun _ => place_passed timeoutOk_none fun _ ha => ⟨ha, inI64_getD _⟩
  | rename => exact all_withParams (rename_passed srv)
  | patch => exact all_withParams (patch_passed srv)

end

end Backend

end IdaRs
