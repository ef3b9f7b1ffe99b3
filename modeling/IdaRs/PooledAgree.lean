import IdaRs.PooledArgs

/-!
# The child reads what the parent wrote

The child decodes the arguments of a forwarded call and asks its worker for the very request the parent would have
sent a local worker: `forwards`, over every call that passes the bounds of `IdaRs.PooledArgs`. The two places where
the child reads something else are left out by `Kept`.
-/

namespace IdaRs

namespace Backend

open Serde Calls

/-! ## Decoding arguments -/

section

variable {name : String} {aliases : List String} {skip : Bool} {t rest : Ty} {args : List (String × Json)}

theorem reads_field {j : Json} {v : t.Val} {vs : rest.Val} (hp : Ty.pick (name :: aliases) args = [j])
    (hv : t.de j = some v) (hvs : rest.de (.obj args) = some vs) :
    (Ty.field name aliases skip t rest).de (.obj args) = some (v, vs) := by
  rw [Ty.de_field hp, hv, hvs]
  rfl

theorem reads_missing {vs : rest.Val} (hp : Ty.pick (name :: aliases) args = [])
    (hvs : rest.de (.obj args) = some vs) :
    (Ty.field name aliases skip (.opt t) rest).de (.obj args) = some (none, vs) := by
  rw [Ty.de_field_missing hp, hvs]
  rfl

theorem withParams_eq {handler : t.Val → Handler Payload} {v : t.Val} (h : t.de (.obj args) = some v) :
    withParams t args handler = handler v := by
  rw [withParams, h]

end

theorem inI64_natCast {n : Nat} (h : n ≤ i64Max) : InI64 n := by
  simp only [i64Max] at h
  simp only [InI64, IntTy.i64]
  omega

/-- The parameter the child reads where the parent wrote `n`. -/
def sent : (n : Option Nat) → (∀ k ∈ n, k ≤ i64Max) → OptI64
  | none, _ => none
  | some k, h => some ⟨k, inI64_natCast (h k rfl)⟩

theorem some_le {n m : Nat} (h : n ≤ m) : ∀ k ∈ some n, k ≤ m := by
  rintro k ⟨⟩
  exact h

/-- The same for a signed parameter. -/
def sentInt : (n : Option Int) → (∀ k ∈ n, InI64 k) → OptI64
  | none, _ => none
  | some k, h => some ⟨k, h k rfl⟩

theorem some_inI64 {n : Int} (h : InI64 n) : ∀ k ∈ some n, InI64 k := by
  rintro k ⟨⟩
  exact h

@[simp] theorem map_sentInt {n : Option Int} (h : ∀ k ∈ n, InI64 k) : (sentInt n h).map (·.1) = n := by
  cases n <;> rfl

theorem de_optInt {n : Option Int} (h : ∀ k ∈ n, InI64 k) : optI64.de (optInt n) = some (sentInt n h) := by
  cases n with
  | none => rfl
  | some k =>
    have hk : InI64 k := h k rfl
    have hne : Json.int k ≠ .null := by simp
    rw [optInt, Json.ofOption, Ty.de_opt hne, Ty.de_int hk]
    rfl

theorem de_int {n : Int} (h : InI64 n) : optI64.de (.int n) = some (sentInt (some n) (some_inI64 h)) :=
  de_optInt (some_inI64 h)

theorem de_optNat {n : Option Nat} (h : ∀ k ∈ n, k ≤ i64Max) : optI64.de (optNat n) = some (sent n h) := by
  cases n with
  | none => rfl
  | some k => exact de_int (inI64_natCast (h k rfl))

theorem de_natJson {n m : Nat} (h : n ≤ m) (hm : m ≤ i64Max) :
    optI64.de (natJson n) = some (sent (some n) (some_le (h.trans hm))) :=
  de_optNat (some_le (h.trans hm))

theorem tryParam_sent {n : Option Nat} (h : ∀ k ∈ n, k ≤ i64Max) {T : IntTy} (hlo : T.lo = 0)
    (hhi : ∀ k ∈ n, (k : Int) ≤ T.hi) (name : String) :
    tryParam (parseOptionalUnsigned T (sent n h) name) = .done n := by
  cases n with
  | none => rfl
  | some k =>
    have hk : T.lo ≤ (k : Int) := by omega
    exact congrArg tryParam (parseOptionalUnsigned_natCast name ⟨hk, hhi k rfl⟩ (inI64_natCast (h k rfl)))

theorem le_usize {n : Nat} (h : n ≤ i64Max) : (n : Int) ≤ IntTy.usize.hi := by
  simp only [i64Max] at h
  simp only [IntTy.usize]
  omega

@[simp] theorem tryParam_usize {n : Option Nat} (h : ∀ k ∈ n, k ≤ i64Max) (name : String) :
    tryParam (parseOptionalUnsigned .usize (sent n h) name) = .done n :=
  tryParam_sent (T := .usize) h rfl (fun k hk => le_usize (h k hk)) name

@[simp] theorem tryParam_u64 {n : Option Nat} (h : ∀ k ∈ n, k ≤ i64Max) (name : String) :
    tryParam (parseOptionalUnsigned .u64 (sent n h) name) = .done n :=
  tryParam_sent (T := .u64) h rfl (fun k hk => le_usize (h k hk)) name

theorem ordinalOk_le {n : Option Nat} (h : OrdinalOk n) : ∀ k ∈ n, k ≤ i64Max := by
  intro k hk
  have := h k hk
  simp only [IntTy.u32] at this
  simp only [i64Max]
  omega

theorem tryParam_u32 {n : Option Nat} (h : OrdinalOk n) (name : String) :
    tryParam (parseOptionalUnsigned .u32 (sent n (ordinalOk_le h)) name) = .done n :=
  tryParam_sent (T := .u32) (ordinalOk_le h) rfl h name

@[simp] theorem tryParam_address (srv : Server) {a : Nat} (h : a ≤ u64Max) :
    tryParam (valueToSingleAddress srv.fromStr (hexAddr a)) = .done a := by
  rw [hexAddr, valueToSingleAddress_hexLit srv.fromStr h]
  rfl

theorem tryParam_addresses (srv : Server) {a : Nat} (h : a ≤ u64Max) :
    tryParam (valueToAddresses srv.fromStr (hexAddr a)) = .done [a] := by
  rw [hexAddr, valueToAddresses_hexLit srv.fromStr h]
  rfl

theorem optAddress_map (srv : Server) {addr : Option Nat} (h : AddrOk addr) :
    optAddress srv (addr.map hexAddr) = .done addr := by
  cases addr with
  | none => rfl
  | some a =>
    rw [Option.map_some, optAddress, tryParam_address srv (h a rfl)]
    rfl

theorem de_optHexAddr (addr : Option Nat) : optValue.de (optHexAddr addr) = some (addr.map hexAddr) := by
  cases addr <;> rfl

section

variable {offset limit : Nat} {t : Option Nat} (ho : offset ≤ i64Max) (ht : TimeoutOk t)

theorem cappedPage_sent (hl : limit ≤ 10000) :
    cappedPage (sent (some limit) (some_le (hl.trans (by decide)))) (sent (some offset) (some_le ho)) (sent t ht) =
      .done (offset, limit, t) := by
  simp [cappedPage, hl]

theorem uncappedPage_sent (hl : limit ≤ i64Max) :
    uncappedPage (sent (some limit) (some_le hl)) (sent (some offset) (some_le ho)) (sent t ht) =
      .done (offset, limit, t) := by
  simp [uncappedPage]

theorem de_filteredPage (hl : limit ≤ i64Max) (filter : Option String) :
    filteredPage.de (.obj (pageArgs offset limit filter t)) =
      some (sent (some offset) (some_le ho), sent (some limit) (some_le hl), filter, sent t ht, ()) :=
  reads_field rfl (de_natJson ho le_rfl) <| reads_field rfl (de_natJson hl le_rfl) <|
    reads_field rfl (Ty.de_opt_str filter) <| reads_field rfl (de_optNat ht) rfl

end

/-! ## The handlers on forwarded arguments -/

section

variable (srv : Server) {offset limit : Nat} {t : Option Nat}

theorem listFunctions_child (ho : offset ≤ i64Max) (hl : limit ≤ 10000) (ht : TimeoutOk t) (filter : Option String) :
    callTool srv .listFunctions (pageArgs offset limit filter t) = answer (.listFunctions offset limit filter) t := by
  refine Eq.trans (withParams_eq <| reads_field rfl (de_natJson ho le_rfl) <|
    reads_field rfl (de_natJson hl (by decide)) <| reads_field rfl (Ty.de_opt_str filter) <|
    reads_field rfl (de_optNat ht) rfl) ?_
  simp only [listFunctions, cappedPage_sent ho ht hl, Prog.done_bind]

theorem strings_child (ho : offset ≤ i64Max) (hl : limit ≤ 10000) (ht : TimeoutOk t) (filter : Option String) :
    callTool srv .strings (pageArgs offset limit filter t) = answer (.strings offset limit filter) t := by
  refine (withParams_eq (de_filteredPage ho ht (hl.trans (by decide)) filter)).trans ?_
  simp only [strings, cappedPage_sent ho ht hl, Prog.done_bind]

theorem structs_child (ho : offset ≤ i64Max) (hl : limit ≤ 10000) (ht : TimeoutOk t) (filter : Option String) :
    callTool srv .structs (pageArgs offset limit filter t) = answer (.structs offset limit filter) t := by
  refine (withParams_eq (de_filteredPage ho ht (hl.trans (by decide)) filter)).trans ?_
  simp only [structs, cappedPage_sent ho ht hl, Prog.done_bind]

theorem localTypes_child (ho : offset ≤ i64Max) (hl : limit ≤ i64Max) (ht : TimeoutOk t) (filter : Option String) :
    callTool srv .localTypes (pageArgs offset limit filter t) = answer (.localTypes offset limit filter) t := by
  refine (withParams_eq (de_filteredPage ho ht hl filter)).trans ?_
  simp only [localTypes, uncappedPage_sent ho ht hl, Prog.done_bind]

theorem de_queriedPage (ho : offset ≤ i64Max) (hl : limit ≤ 10000) (ht : TimeoutOk t) (query : Option String) :
    queriedPage.de (.obj (queryArgs query offset limit t)) =
      some (query, sent (some offset) (some_le ho), sent (some limit) (some_le (hl.trans (by decide))), sent t ht, ()) :=
  reads_field rfl (Ty.de_opt_str query) <| reads_field rfl (de_natJson ho le_rfl) <|
    reads_field rfl (de_natJson hl (by decide)) <| reads_field rfl (de_optNat ht) rfl

theorem listGlobals_child (ho : offset ≤ i64Max) (hl : limit ≤ 10000) (ht : TimeoutOk t) (query : Option String) :
    callTool srv .listGlobals (queryArgs query offset limit t) = answer (.listGlobals query offset limit) t := by
  refine (withParams_eq (de_queriedPage ho hl ht query)).trans ?_
  simp only [listGlobals, cappedPage_sent ho ht hl, Prog.done_bind]

theorem analyzeStrings_child (ho : offset ≤ i64Max) (hl : limit ≤ 10000) (ht : TimeoutOk t) (query : Option String) :
    callTool srv .analyzeStrings (queryArgs query offset limit t) = answer (.analyzeStrings query offset limit) t := by
  refine (withParams_eq (de_queriedPage ho hl ht query)).trans ?_
  simp only [analyzeStrings, cappedPage_sent ho ht hl, Prog.done_bind]

end

/-! Places: an address or a name, with an offset. -/

section

variable (srv : Server) {addr : Option Nat} {name : Option String} {offset : Int} {rest : Ty} {vs : rest.Val}
  {args : List (String × Json)}

theorem de_placeFields (ho : InI64 offset) (hrest : rest.de (.obj (placeArgs addr name offset args)) = some vs)
    (ha : Ty.pick ["address", "ea", "addr", "addresses"] args = [])
    (hn : Ty.pick ["target_name", "name", "symbol"] args = []) (hof : Ty.pick ["offset"] args = []) :
    (placeFields rest).de (.obj (placeArgs addr name offset args)) =
      some (addr.map hexAddr, name, sentInt (some offset) (some_inI64 ho), vs) := by
  exact reads_field (congrArg _ ha) (de_optHexAddr addr) <| reads_field (congrArg _ hn) (Ty.de_opt_str name) <|
    reads_field (congrArg _ hof) (de_int ho) hrest

theorem de_luminaPlace (ho : InI64 offset) (hrest : rest.de (.obj (placeArgs addr name offset args)) = some vs)
    (ha : Ty.pick ["address", "ea", "addr", "addresses"] args = [])
    (hn : Ty.pick ["target_name", "function", "name", "symbol"] args = []) (hof : Ty.pick ["offset"] args = []) :
    (luminaPlace rest).de (.obj (placeArgs addr name offset args)) =
      some (addr.map hexAddr, name, sentInt (some offset) (some_inI64 ho), vs) := by
  exact reads_field (congrArg _ ha) (de_optHexAddr addr) <| reads_field (congrArg _ hn) (Ty.de_opt_str name) <|
    reads_field (congrArg _ hof) (de_int ho) hrest

variable (ha : AddrOk addr)
include ha

theorem addrInfo_child (ho : InI64 offset) :
    callTool srv .addrInfo (placeArgs addr name offset []) = answer (.addrInfo addr name offset) none := by
  refine Eq.trans (withParams_eq (de_placeFields ho rfl rfl rfl rfl)) ?_
  simp only [addrInfo, optAddress_map srv ha, Prog.done_bind, map_sentInt, Option.getD_some]

theorem functionAt_child (ho : InI64 offset) :
    callTool srv .functionAt (placeArgs addr name offset []) = answer (.functionAt addr name offset) none := by
  refine Eq.trans (withParams_eq (de_placeFields ho rfl rfl rfl rfl)) ?_
  simp only [functionAt, optAddress_map srv ha, Prog.done_bind, map_sentInt, Option.getD_some]

theorem inferTypes_child (ho : InI64 offset) :
    callTool srv .inferTypes (placeArgs addr name offset []) = answer (.inferTypes addr name offset) none := by
  refine Eq.trans (withParams_eq (de_placeFields ho rfl rfl rfl rfl)) ?_
  simp only [inferTypes, optAddress_map srv ha, Prog.done_bind, map_sentInt, Option.getD_some]

theorem disasmFunctionAt_child (ho : InI64 offset) {count : Nat} (hc : count ≤ 5000) :
    callTool srv .disasmFunctionAt (placeArgs addr name offset [("count", natJson count)]) =
      answer (.disasmFunctionAt addr name offset count) none := by
  refine Eq.trans (withParams_eq <| de_placeFields ho (reads_field rfl (de_natJson hc (by decide)) rfl) rfl rfl rfl) ?_
  simp only [disasmFunctionAt, optAddress_map srv ha, tryParam_usize, Prog.done_bind, map_sentInt,
    Option.getD_some, Nat.min_eq_left hc]

theorem setComments_child (ho : InI64 offset) (comment : String) (repeatable : Bool) :
    callTool srv .setComments (placeArgs addr name offset [("comment", .str comment),
      ("repeatable", .bool repeatable)]) = answer (.setComments addr name offset comment repeatable) none := by
  refine Eq.trans (withParams_eq <| de_placeFields ho (reads_field rfl rfl <| reads_field rfl rfl rfl) rfl rfl rfl) ?_
  simp only [setComments, optAddress_map srv ha, Prog.done_bind, map_sentInt, Option.getD_some]
  rfl

theorem patchAsm_child (ho : InI64 offset) (line : String) :
    callTool srv .patchAsm (placeArgs addr name offset [("line", .str line)]) =
      answer (.patchAsm addr name offset line) none := by
  refine Eq.trans (withParams_eq <| de_placeFields ho (reads_field rfl rfl rfl) rfl rfl rfl) ?_
  simp only [patchAsm, optAddress_map srv ha, Prog.done_bind, map_sentInt, Option.getD_some]

theorem patch_child (ho : InI64 offset) {bytes : List UInt8} (hb : bytes ≠ []) :
    callTool srv .patch (placeArgs addr name offset [("bytes", .arr (bytes.map fun b => .int b.toNat))]) =
      answer (.patchBytes addr name offset bytes) none := by
  refine Eq.trans (withParams_eq <| de_placeFields ho (reads_field rfl rfl rfl) rfl rfl rfl) ?_
  have hbytes : tryParam (valueToBytes (.arr (bytes.map fun b => .int b.toNat))) = .done bytes :=
    congrArg tryParam (valueToBytes_arr hb)
  simp only [patch, optAddress_map srv ha, hbytes, Prog.done_bind, map_sentInt, Option.getD_some]

theorem luminaLookup_child (ho : InI64 offset) {t : Option Nat} (ht : TimeoutOk t) :
    callTool srv .luminaLookup (placeArgs addr name offset [("timeout_secs", optNat t)]) =
      answer (.luminaLookup addr name offset) t := by
  refine Eq.trans (withParams_eq <| de_luminaPlace ho (reads_field rfl (de_optNat ht) rfl) rfl rfl rfl) ?_
  simp only [luminaLookup, optAddress_map srv ha, tryParam_u64, Prog.done_bind, map_sentInt, Option.getD_some]

theorem luminaApply_child (ho : InI64 offset) (force : Bool) :
    callTool srv .luminaApply (luminaApplyChildArgs addr name offset force) =
      answer (.luminaApply addr name offset force) none := by
  refine Eq.trans (withParams_eq <| de_luminaPlace ho (reads_field rfl rfl <|
    reads_field rfl (de_optNat timeoutOk_none) rfl) rfl rfl rfl) ?_
  simp only [luminaApply, optAddress_map srv ha, tryParam_u64, Prog.done_bind, map_sentInt, Option.getD_some]
  rfl

theorem applyTypes_child (ho : InI64 offset) {stackOffset : Option Int} (hs : ∀ n ∈ stackOffset, InI64 n)
    (stackName decl typeName : Option String) (relaxed delay strict : Bool) :
    callTool srv .applyTypes (placeArgs addr name offset [("stack_offset", optInt stackOffset),
      ("stack_name", optString stackName), ("decl", optString decl), ("type_name", optString typeName),
      ("relaxed", .bool relaxed), ("delay", .bool delay), ("strict", .bool strict)]) =
        answer (.applyTypes addr name offset stackOffset stackName decl typeName relaxed delay strict) none := by
  refine Eq.trans (withParams_eq <| de_placeFields ho (reads_field rfl (de_optInt hs) <|
    reads_field rfl (Ty.de_opt_str stackName) <| reads_field rfl (Ty.de_opt_str typeName) <|
    reads_field rfl (Ty.de_opt_str decl) <| reads_field rfl rfl <| reads_field rfl rfl <|
    reads_field rfl rfl rfl) rfl rfl rfl) ?_
  simp only [applyTypes, optAddress_map srv ha, Prog.done_bind, map_sentInt, Option.getD_some]
  rfl

theorem declareStack_child (ho : InI64 offset) (varName : Option String) (decl : String) (relaxed : Bool) :
    callTool srv .declareStack (placeArgs addr name offset [("var_name", optString varName), ("decl", .str decl),
      ("relaxed", .bool relaxed)]) = answer (.declareStack addr name offset varName decl relaxed) none := by
  refine Eq.trans (withParams_eq <| reads_field rfl (de_optHexAddr addr) <| reads_field rfl (Ty.de_opt_str name) <|
    reads_field rfl (Ty.de_int ho) <| reads_field rfl (Ty.de_opt_str varName) <| reads_field rfl rfl <|
    reads_field rfl rfl rfl) ?_
  simp only [declareStack, optAddress_map srv ha, Prog.done_bind]
  rfl

theorem deleteStack_child {offset : Option Int} (ho : ∀ n ∈ offset, InI64 n) (varName : Option String) :
    callTool srv .deleteStack [("address", optHexAddr addr), ("target_name", optString name),
      ("offset", optInt offset), ("var_name", optString varName)] =
        answer (.deleteStack addr name offset varName) none := by
  refine Eq.trans (withParams_eq <| reads_field rfl (de_optHexAddr addr) <| reads_field rfl (Ty.de_opt_str name) <|
    reads_field rfl (de_optInt ho) <| reads_field rfl (Ty.de_opt_str varName) rfl) ?_
  simp only [deleteStack, optAddress_map srv ha, Prog.done_bind, map_sentInt]

theorem rename_child {flags : Int} (hf : IntTy.i32.lo ≤ flags ∧ flags ≤ IntTy.i32.hi) (currentName : Option String)
    (newName : String) :
    callTool srv .rename [("address", optHexAddr addr), ("current_name", optString currentName),
      ("name", .str newName), ("flags", .int flags)] = answer (.rename addr currentName newName flags) none := by
  have hf64 : InI64 flags := by
    simp only [IntTy.i32] at hf
    simp only [InI64, IntTy.i64]
    omega
  refine Eq.trans (withParams_eq <| reads_field rfl (de_optHexAddr addr) <|
    reads_field rfl (Ty.de_opt_str currentName) <| reads_field rfl rfl <| reads_field rfl (de_int hf64) rfl) ?_
  have hflags : tryParam (parseOptional .i32 (sentInt (some flags) (some_inI64 hf64)) "flags") = .done (some flags) :=
    congrArg tryParam (if_pos hf)
  simp only [rename, optAddress_map srv ha, hflags, Prog.done_bind, Option.getD_some]

end

theorem getBytes_child (srv : Server) {addr : Option Nat} {name : Option String} {offset : Int} {size : Nat}
    (h : (IdaRequest.getBytes addr name offset size).Passed) :
    callTool srv .getBytes (placeArgs addr name offset [("size", natJson size)]) =
      answer (.getBytes addr name offset size) none := by
  obtain ⟨hs, hplace⟩ := h
  have ho : InI64 offset := by
    rcases hplace with ⟨_, _, _, _, rfl⟩ | ⟨_, _, ho⟩
    · exact ⟨by decide, by decide⟩
    · exact ho
  refine Eq.trans (withParams_eq <| reads_field rfl (de_optHexAddr addr) <| reads_field rfl (Ty.de_opt_str name) <|
    reads_field rfl (de_int ho) <| reads_field rfl (de_natJson hs (by decide)) rfl) ?_
  rcases hplace with ⟨a, rfl, ha, rfl, rfl⟩ | ⟨rfl, hn, -⟩
  · -- the child reads the address alone
    simp only [getBytes, tryParam_usize, Prog.done_bind, Option.map_some, tryParam_addresses srv ha, Option.getD_some,
      Nat.min_eq_left hs]
    rfl
  · obtain ⟨n, rfl⟩ := Option.ne_none_iff_exists'.1 hn
    simp only [getBytes, tryParam_usize, Prog.done_bind, Option.map_none, map_sentInt, Option.getD_some,
      Nat.min_eq_left hs]

/-! Addresses. -/

theorem withParams_address (j : Json) (handler : AddressRequest.Val → Handler Payload) :
    withParams AddressRequest [("address", j)] handler = handler (j, ()) :=
  withParams_eq (reads_field rfl rfl rfl)

section

variable (srv : Server) {a : Nat} (ha : a ≤ u64Max)
include ha

theorem addresses_child (label : String) (req : Nat → IdaRequest) :
    (tryParam (valueToAddresses srv.fromStr (hexAddr a)) >>= answerAddresses label req) = answer (req a) none := by
  rw [tryParam_addresses srv ha]
  rfl

theorem decompile_child : callTool srv .decompile [("address", hexAddr a)] = answer (.decompile a) none :=
  (withParams_address (hexAddr a) (decompile srv)).trans (addresses_child srv ha "decompile" .decompile)

theorem basicBlocks_child : callTool srv .basicBlocks [("address", hexAddr a)] = answer (.basicBlocks a) none :=
  (withParams_address (hexAddr a) (basicBlocks srv)).trans (addresses_child srv ha "basic_blocks" .basicBlocks)

theorem callees_child : callTool srv .callees [("address", hexAddr a)] = answer (.callees a) none :=
  (withParams_address (hexAddr a) (callees srv)).trans (addresses_child srv ha "callees" .callees)

theorem callers_child : callTool srv .callers [("address", hexAddr a)] = answer (.callers a) none :=
  (withParams_address (hexAddr a) (callers srv)).trans (addresses_child srv ha "callers" .callers)

theorem getIntValues_child (size : Nat) :
    withParams AddressRequest [("address", hexAddr a)] (getIntValues srv size) = answer (.readInt a size) none :=
  (withParams_address (hexAddr a) (getIntValues srv size)).trans (addresses_child srv ha "value" (.readInt · size))

theorem stackFrame_child : callTool srv .stackFrame [("address", hexAddr a)] = answer (.stackFrame a) none := by
  refine (withParams_address (hexAddr a) (stackFrame srv)).trans ?_
  simp only [stackFrame, tryParam_address srv ha, Prog.done_bind]

theorem disasm_child {count : Nat} (hc : count ≤ 1000) :
    callTool srv .disasm [("address", hexAddr a), ("count", natJson count)] = answer (.disasm a count) none := by
  refine Eq.trans (withParams_eq <| reads_field rfl rfl <| reads_field rfl (de_natJson hc (by decide)) rfl) ?_
  simp only [disasm, tryParam_usize, Prog.done_bind, Option.getD_some, Nat.min_eq_left hc]
  exact addresses_child srv ha "disasm" (.disasm · count)

theorem getString_child {maxLen : Nat} (hm : maxLen ≤ 0x10000) :
    callTool srv .getString [("address", hexAddr a), ("max_len", natJson maxLen)] =
      answer (.getString a maxLen) none := by
  refine Eq.trans (withParams_eq <| reads_field rfl rfl <| reads_field rfl (de_natJson hm (by decide)) rfl) ?_
  simp only [getString, tryParam_usize, Prog.done_bind, Option.getD_some, Nat.min_eq_left hm]
  exact addresses_child srv ha "string" (.getString · maxLen)

theorem pseudocodeAt_child {endAddr : Option Nat} (he : AddrOk endAddr) :
    callTool srv .pseudocodeAt [("address", hexAddr a), ("end_address", .ofOption hexAddr endAddr)] =
      answer (.pseudocodeAt a endAddr) none := by
  have hd : optStr.de (.ofOption hexAddr endAddr) = some (endAddr.map hexLit) := by cases endAddr <;> rfl
  refine Eq.trans (withParams_eq <| reads_field rfl rfl <| reads_field rfl hd rfl) ?_
  cases endAddr with
  | none => exact addresses_child srv ha "pseudocode" (.pseudocodeAt · none)
  | some e =>
    have hp : tryParam (parseAddress (hexLit e)) = .done e := congrArg tryParam (parseAddress_hexLit (he e rfl))
    simp only [pseudocodeAt, Option.map_some, hp, Prog.done_bind, Prog.pure_eq]
    exact addresses_child srv ha "pseudocode" (.pseudocodeAt · (some e))

theorem readStruct_child {ordinal : Option Nat} (ho : OrdinalOk ordinal) (name : Option String) :
    callTool srv .readStruct [("address", hexAddr a), ("ordinal", optNat ordinal), ("name", optString name)] =
      answer (.readStruct a ordinal name) none := by
  refine Eq.trans (withParams_eq <| reads_field rfl rfl <| reads_field rfl (de_optNat (ordinalOk_le ho)) <|
    reads_field rfl (Ty.de_opt_str name) rfl) ?_
  simp only [readStruct, tryParam_u32 ho, Prog.done_bind]
  exact addresses_child srv ha "struct" (.readStruct · ordinal name)

theorem xrefsLookup_child (req : Nat → Nat → Nat → IdaRequest) {offset limit : Nat} {t : Option Nat}
    (ho : offset ≤ i64Max) (h1 : 1 ≤ limit) (hl : limit ≤ 10000) (ht : TimeoutOk t) :
    withParams XrefsRequest [("address", hexAddr a), ("offset", natJson offset), ("limit", natJson limit),
      ("timeout_secs", optNat t)] (xrefsLookup srv req) = answer (req a offset limit) t := by
  refine Eq.trans (withParams_eq <| reads_field rfl rfl <| reads_field rfl (de_natJson hl (by decide)) <|
    reads_field rfl (de_natJson ho le_rfl) <| reads_field rfl (de_optNat ht) rfl) ?_
  simp only [xrefsLookup, parseXrefsPaging, tryParam_usize, tryParam_u64, Prog.done_bind, Prog.pure_eq,
    Option.getD_some, Nat.min_eq_left hl, Nat.max_eq_right h1, tryParam_addresses srv ha]
  rfl

theorem callgraph_child {maxDepth maxNodes : Nat} (hd : maxDepth ≤ 16) (hn : maxNodes ≤ 10000) :
    callTool srv .callgraph [("roots", hexAddr a), ("max_depth", natJson maxDepth), ("max_nodes", natJson maxNodes)] =
      answer (.callGraph a maxDepth maxNodes) none := by
  refine Eq.trans (withParams_eq <| reads_field rfl rfl <| reads_field rfl (de_natJson hd (by decide)) <|
    reads_field rfl (de_natJson hn (by decide)) rfl) ?_
  simp only [callgraph, tryParam_usize, Prog.done_bind, Option.getD_some, Nat.min_eq_left hd, Nat.min_eq_left hn,
    tryParam_addresses srv ha]
  rfl

theorem findPaths_child {stop maxPaths maxDepth : Nat} (hs : stop ≤ u64Max) (hp : maxPaths ≤ 128)
    (hd : maxDepth ≤ 2048) :
    callTool srv .findPaths [("start", hexAddr a), ("end", hexAddr stop), ("max_paths", natJson maxPaths),
      ("max_depth", natJson maxDepth)] = answer (.findPaths a stop maxPaths maxDepth) none := by
  refine Eq.trans (withParams_eq <| reads_field rfl rfl <| reads_field rfl rfl <|
    reads_field rfl (de_natJson hp (by decide)) <| reads_field rfl (de_natJson hd (by decide)) rfl) ?_
  simp only [findPaths, tryParam_address srv ha, tryParam_address srv hs, tryParam_usize, Prog.done_bind,
    Option.getD_some, Nat.min_eq_left hp, Nat.min_eq_left hd]

end

theorem xrefMatrix_child (srv : Server) {addrs : List Nat} (hne : addrs ≠ []) (ha : ∀ a ∈ addrs, a ≤ u64Max) :
    callTool srv .xrefMatrix [("addrs", .arr (addrs.map hexAddr))] = answer (.xrefMatrix addrs) none := by
  refine Eq.trans (b := xrefMatrix srv (.arr (addrs.map hexAddr), ())) rfl ?_
  have h : tryParam (valueToAddresses srv.fromStr (.arr (addrs.map hexAddr))) = .done addrs :=
    congrArg tryParam (valueToAddresses_arr srv.fromStr ha hne)
  simp only [xrefMatrix, h, Prog.done_bind]

/-! The others. -/

section

variable (srv : Server)

theorem loadDebugInfo_child (path : Option String) (verbose : Bool) :
    callTool srv .loadDebugInfo [("path", optString path), ("verbose", .bool verbose)] =
      answer (.loadDebugInfo path verbose) none := by
  have hd : LoadDebugInfoRequest.de (.obj [("path", optString path), ("verbose", .bool verbose)]) =
      some (path, some verbose, ()) := reads_field rfl (Ty.de_opt_str path) <| reads_field rfl rfl rfl
  exact withParams_eq hd

theorem resolveFunction_child (name : String) :
    callTool srv .resolveFunction [("name", .str name)] = answer (.resolveFunction name) none := rfl

theorem disasmByName_child (name : String) {count : Nat} (hc : count ≤ 1000) :
    callTool srv .disasmByName [("name", .str name), ("count", natJson count)] =
      answer (.disasmByName name count) none := by
  refine Eq.trans (withParams_eq <| reads_field rfl rfl <| reads_field rfl (de_natJson hc (by decide)) rfl) ?_
  simp only [disasmByName, tryParam_usize, Prog.done_bind, Option.getD_some, Nat.min_eq_left hc]

theorem declareType_child (decl : String) (relaxed replace multi : Bool) :
    callTool srv .declareType [("decl", .str decl), ("relaxed", .bool relaxed), ("replace", .bool replace),
      ("multi", .bool multi)] = answer (.declareType decl relaxed replace multi) none := rfl

theorem structInfo_child {ordinal : Option Nat} (ho : OrdinalOk ordinal) (name : Option String) :
    callTool srv .structInfo [("ordinal", optNat ordinal), ("name", optString name)] =
      answer (.structInfo ordinal name) none := by
  refine Eq.trans (withParams_eq <| reads_field rfl (de_optNat (ordinalOk_le ho)) <|
    reads_field rfl (Ty.de_opt_str name) rfl) ?_
  simp only [structInfo, tryParam_u32 ho, Prog.done_bind]

theorem xrefsToField_child {ordinal memberIndex : Option Nat} (ho : OrdinalOk ordinal) (hm : OrdinalOk memberIndex)
    {limit : Nat} (hl : limit ≤ 10000) (name memberName : Option String) :
    callTool srv .xrefsToField [("ordinal", optNat ordinal), ("name", optString name),
      ("member_index", optNat memberIndex), ("member_name", optString memberName), ("limit", natJson limit)] =
        answer (.xrefsToField ordinal name memberIndex memberName limit) none := by
  refine Eq.trans (withParams_eq <| reads_field rfl (de_optNat (ordinalOk_le ho)) <|
    reads_field rfl (Ty.de_opt_str name) <| reads_field rfl (de_optNat (ordinalOk_le hm)) <|
    reads_field rfl (Ty.de_opt_str memberName) <| reads_field rfl (de_natJson hl (by decide)) rfl) ?_
  simp only [xrefsToField, tryParam_usize, tryParam_u32 ho, tryParam_u32 hm, Prog.done_bind, Option.getD_some,
    Nat.min_eq_left hl]

theorem lookupFuncs_child (queries : List String) :
    callTool srv .lookupFuncs [("queries", .arr (queries.map .str))] = answer (.lookupFunctions queries) none := by
  refine Eq.trans (b := lookupFuncs srv (.arr (queries.map .str), ())) rfl ?_
  have h : tryParam (valueToStrings srv.fromStr (.arr (queries.map .str))) = .done queries :=
    congrArg tryParam (valueToStrings_arr srv.fromStr queries)
  simp only [lookupFuncs, h, Prog.done_bind]

/-- The query is forwarded as one string, which the child reads as a list of queries. -/
theorem getGlobalValue_child {query : String} (h : valueToStrings srv.fromStr (.str query) = .ok [query]) :
    callTool srv .getGlobalValue [("query", .str query)] = answer (.getGlobalValue query) none := by
  refine Eq.trans (b := getGlobalValue srv (.str query, ())) rfl ?_
  have h : tryParam (valueToStrings srv.fromStr (.str query)) = .done [query] := congrArg tryParam h
  simp only [getGlobalValue, h, Prog.done_bind]
  rfl

end

section

variable (srv : Server) {offset limit : Nat} (ho : offset ≤ i64Max) (hl : limit ≤ 10000)
include ho hl

theorem imports_child :
    callTool srv .imports [("offset", natJson offset), ("limit", natJson limit)] =
      answer (.imports offset limit) none := by
  refine Eq.trans (withParams_eq <| reads_field rfl (de_natJson ho le_rfl) <|
    reads_field rfl (de_natJson hl (by decide)) rfl) ?_
  simp only [imports, tryParam_usize, Prog.done_bind, Option.getD_some, Nat.min_eq_left hl]

theorem exports_child :
    callTool srv .exports [("offset", natJson offset), ("limit", natJson limit)] =
      answer (.exports offset limit) none := by
  refine Eq.trans (withParams_eq <| reads_field rfl (de_natJson ho le_rfl) <|
    reads_field rfl (de_natJson hl (by decide)) rfl) ?_
  simp only [exports, tryParam_usize, Prog.done_bind, Option.getD_some, Nat.min_eq_left hl]

theorem exportFuncs_child :
    callTool srv .exportFuncs [("offset", natJson offset), ("limit", natJson limit), ("format", .str "json")] =
      answer (.exportFuncs offset limit) none := by
  refine Eq.trans (withParams_eq <| reads_missing rfl <| reads_field rfl (de_natJson ho le_rfl) <|
    reads_field rfl (de_natJson hl (by decide)) <| reads_field rfl (Ty.de_opt_str (some "json")) rfl) ?_
  have hfmt : toAsciiLowercase "json" = "json".toList := by decide
  simp only [exportFuncs, hfmt, ne_eq, not_true, if_false, Prog.done_bind, tryParam_usize, Option.getD_some,
    Nat.min_eq_left hl]

variable {t : Option Nat} (ht : TimeoutOk t)
include ht

theorem findString_child (query : String) (exact caseInsensitive : Bool) :
    callTool srv .findString [("query", .str query), ("exact", .bool exact),
      ("case_insensitive", .bool caseInsensitive), ("offset", natJson offset), ("limit", natJson limit),
      ("timeout_secs", optNat t)] = answer (.findString query exact caseInsensitive offset limit) t := by
  refine Eq.trans (withParams_eq <| reads_field rfl rfl <| reads_field rfl rfl <| reads_field rfl rfl <|
    reads_field rfl (de_natJson ho le_rfl) <| reads_field rfl (de_natJson hl (by decide)) <|
    reads_field rfl (de_optNat ht) rfl) ?_
  simp only [findString, cappedPage_sent ho ht hl, Prog.done_bind]
  rfl

theorem xrefsToString_child (query : String) (exact caseInsensitive : Bool) {maxXrefs : Nat} (hm : maxXrefs ≤ i64Max) :
    callTool srv .xrefsToString [("query", .str query), ("exact", .bool exact),
      ("case_insensitive", .bool caseInsensitive), ("offset", natJson offset), ("limit", natJson limit),
      ("max_xrefs", natJson maxXrefs), ("timeout_secs", optNat t)] =
        answer (.xrefsToString query exact caseInsensitive offset limit maxXrefs) t := by
  refine Eq.trans (withParams_eq <| reads_field rfl rfl <| reads_field rfl rfl <| reads_field rfl rfl <|
    reads_field rfl (de_natJson ho le_rfl) <| reads_field rfl (de_natJson hl (by decide)) <|
    reads_field rfl (de_natJson hm le_rfl) <| reads_field rfl (de_optNat ht) rfl) ?_
  simp only [xrefsToString, tryParam_usize, tryParam_u64, Prog.done_bind, Option.getD_some, Nat.min_eq_left hl]
  rfl

end

section

variable (srv : Server) {patterns : List String} (hne : patterns ≠ []) {maxResults : Nat} (hm : maxResults ≤ i64Max)
  {t : Option Nat} (ht : TimeoutOk t)
include hne

theorem findPatterns_child (req : List String → Nat → Bool → IdaRequest) (caseInsensitive : Bool) :
    findPatterns srv req (.arr (patterns.map .str)) (sent (some maxResults) (some_le hm)) (some caseInsensitive)
      (sent t ht) = answer (req patterns maxResults caseInsensitive) t := by
  have h : tryParam (valueToStrings srv.fromStr (.arr (patterns.map .str))) = .done patterns :=
    congrArg tryParam (valueToStrings_arr srv.fromStr patterns)
  simp only [findPatterns, h, Prog.done_bind, hne, if_false, tryParam_usize, tryParam_u64, Option.getD_some]

include hm ht

theorem findInsns_child (caseInsensitive : Bool) :
    callTool srv .findInsns (patternArgs patterns maxResults caseInsensitive t) =
      answer (.findInsns patterns maxResults caseInsensitive) t := by
  refine Eq.trans (withParams_eq <| reads_field rfl rfl <| reads_field rfl (de_natJson hm le_rfl) <|
    reads_field rfl rfl <| reads_field rfl (de_optNat ht) rfl) ?_
  exact findPatterns_child srv hne hm ht .findInsns caseInsensitive

theorem findInsnOperands_child (caseInsensitive : Bool) :
    callTool srv .findInsnOperands (patternArgs patterns maxResults caseInsensitive t) =
      answer (.findInsnOperands patterns maxResults caseInsensitive) t := by
  refine Eq.trans (withParams_eq <| reads_field rfl rfl <| reads_field rfl (de_natJson hm le_rfl) <|
    reads_field rfl rfl <| reads_field rfl (de_optNat ht) rfl) ?_
  exact findPatterns_child srv hne hm ht .findInsnOperands caseInsensitive

end

/-! ## One request for each call -/

/-- The child asks for the request of `c` and for nothing else, and answers with what its worker does. -/
def Forwards (srv : Server) (w : Worker) (c : BackendCall) : Prop :=
  ∃ tool args t, childCall c = .ok (tool, args) ∧ (callTool srv tool args).run (fun b => w.answer b.request) =
    ([⟨c.request, t⟩], ((w.answer c.request).map Reply.payload).mapError .tool)

section

variable {srv : Server} {w : Worker}

theorem run_answer (req : IdaRequest) (t : Option Nat) : (answer req t).run (fun b => w.answer b.request) =
    ([⟨req, t⟩], ((w.answer req).map Reply.payload).mapError .tool) := by
  simp only [answer, send, Prog.call_bind, Prog.run]
  cases w.answer req <;> rfl

theorem forwards_of {req : IdaRequest} {timeoutSecs t : Option Nat} {tool : Tool} {args : List (String × Json)}
    (hc : childCall ⟨req, timeoutSecs⟩ = .ok (tool, args)) (h : callTool srv tool args = answer req t) :
    Forwards srv w ⟨req, timeoutSecs⟩ :=
  ⟨tool, args, t, hc, by rw [h, run_answer]⟩

theorem forwards_idbMeta {timeoutSecs : Option Nat} (hm : srv.mode = .worker) :
    Forwards srv w ⟨.idbMeta, timeoutSecs⟩ := by
  refine ⟨.idbMeta, [], none, rfl, ?_⟩
  have hrun : (idbMeta srv).run (fun b => w.answer b.request) =
      ([⟨.idbMeta, none⟩], ((w.answer .idbMeta).map fun r => Payload.json r.toJson).mapError .tool) := by
    simp only [idbMeta, hm, if_true, send, Prog.call_bind, Prog.run]
    cases w.answer .idbMeta <;> rfl
  refine hrun.trans ?_
  cases h : w.answer .idbMeta with
  | error e => rfl
  | ok r =>
    cases r with
    | value j => rfl
    | typed t v => exact (w.fits _ _ h).elim
    | text s => exact (w.fits _ _ h).elim

end

/-- A text that is no list of queries: not empty, no blanks at its ends, no comma in it, and no JSON array. -/
structure OneQuery (fromStr : String → Option Json) (query : String) : Prop where
  nonempty : query ≠ ""
  trimmed : trim query.toList = query.toList
  noComma : ',' ∉ query.toList
  noArray : query.toList.head? = some '[' → (fromStr query).bind Json.asArr = none

/-- Such a text is read as the one query it is. -/
theorem OneQuery.valueToStrings {fromStr : String → Option Json} {query : String} (h : OneQuery fromStr query) :
    valueToStrings fromStr (.str query) = .ok [query] := by
  have hnil : query.toList ≠ [] := fun hq => h.nonempty (String.toList_injective hq)
  have hread : (if query.toList.head? = some '[' then (fromStr query).bind Json.asArr else none) = none := by
    split
    · exact h.noArray ‹_›
    · rfl
  simp only [IdaRs.valueToStrings, h.trimmed, String.ofList_toList, hread, if_neg h.noComma, if_neg hnil]

/-- What the child reads as the parent wrote it. Not every call is kept: `structs` caps its pages while
`search_structs` does not, and `get_global_value` reads its query as a list of queries. -/
def IdaRequest.Kept (fromStr : String → Option Json) : IdaRequest → Prop
  | structs _ limit _ => limit ≤ 10000
  | getGlobalValue query => OneQuery fromStr query
  | _ => True

theorem forwards_readInt {srv : Server} {w : Worker} {timeoutSecs : Option Nat} {a size : Nat} (ha : a ≤ u64Max)
    (hs : size = 1 ∨ size = 2 ∨ size = 4 ∨ size = 8) : Forwards srv w ⟨.readInt a size, timeoutSecs⟩ := by
  rcases hs with rfl | rfl | rfl | rfl
  · exact forwards_of rfl (getIntValues_child srv ha 1)
  · exact forwards_of rfl (getIntValues_child srv ha 2)
  · exact forwards_of rfl (getIntValues_child srv ha 4)
  · exact forwards_of rfl (getIntValues_child srv ha 8)

/-- Every call but the searches, one case for each request. -/
theorem forwards {srv : Server} {w : Worker} {c : BackendCall} (hm : srv.mode = .worker) (h : c.Passed)
    (hk : c.request.Kept srv.fromStr) (hs : c.request.searchTool = none) : Forwards srv w c := by
  obtain ⟨req, t⟩ := c
  obtain ⟨hp, ht⟩ := h
  cases req with
  | loadDebugInfo path verbose => exact forwards_of rfl (loadDebugInfo_child srv path verbose)
  | listFunctions offset limit filter => exact forwards_of rfl (listFunctions_child srv hp.1 hp.2 ht filter)
  | resolveFunction name => exact forwards_of rfl (resolveFunction_child srv name)
  | disasmByName name count => exact forwards_of rfl (disasmByName_child srv name hp)
  | disasm addr count => exact forwards_of rfl (disasm_child srv hp.1 hp.2)
  | decompile addr => exact forwards_of rfl (decompile_child srv hp)
  | segments => exact forwards_of rfl rfl
  | strings offset limit filter => exact forwards_of rfl (strings_child srv hp.1 hp.2 ht filter)
  | localTypes offset limit filter => exact forwards_of rfl (localTypes_child srv hp.1 hp.2 ht filter)
  | declareType decl relaxed replace multi => exact forwards_of rfl (declareType_child srv decl relaxed replace multi)
  | applyTypes addr name offset stackOffset stackName decl typeName relaxed delay strict =>
    exact forwards_of rfl
      (applyTypes_child srv hp.1 hp.2.1 hp.2.2 stackName decl typeName relaxed delay strict)
  | inferTypes addr name offset => exact forwards_of rfl (inferTypes_child srv hp.1 hp.2)
  | addrInfo addr name offset => exact forwards_of rfl (addrInfo_child srv hp.1 hp.2)
  | functionAt addr name offset => exact forwards_of rfl (functionAt_child srv hp.1 hp.2)
  | disasmFunctionAt addr name offset count =>
    exact forwards_of rfl (disasmFunctionAt_child srv hp.1 hp.2.1 hp.2.2)
  | declareStack addr name offset varName decl relaxed =>
    exact forwards_of rfl (declareStack_child srv hp.1 hp.2 varName decl relaxed)
  | deleteStack addr name offset varName => exact forwards_of rfl (deleteStack_child srv hp.1 hp.2 varName)
  | stackFrame addr => exact forwards_of rfl (stackFrame_child srv hp)
  | structs offset limit filter => exact forwards_of rfl (structs_child srv hp.1 hk ht filter)
  | structInfo ordinal name => exact forwards_of rfl (structInfo_child srv hp name)
  | readStruct addr ordinal name => exact forwards_of rfl (readStruct_child srv hp.1 hp.2 name)
  | xrefsTo addr offset limit =>
    exact forwards_of rfl (xrefsLookup_child srv hp.1 .xrefsTo hp.2.1 hp.2.2.1 hp.2.2.2 ht)
  | xrefsFrom addr offset limit =>
    exact forwards_of rfl (xrefsLookup_child srv hp.1 .xrefsFrom hp.2.1 hp.2.2.1 hp.2.2.2 ht)
  | xrefsToField ordinal name memberIndex memberName limit =>
    exact forwards_of rfl (xrefsToField_child srv hp.1 hp.2.1 hp.2.2 name memberName)
  | imports offset limit => exact forwards_of rfl (imports_child srv hp.1 hp.2)
  | exports offset limit => exact forwards_of rfl (exports_child srv hp.1 hp.2)
  | entrypoints => exact forwards_of rfl rfl
  | luminaLookup addr name offset => exact forwards_of rfl (luminaLookup_child srv hp.1 hp.2 ht)
  | luminaApply addr name offset force => exact forwards_of rfl (luminaApply_child srv hp.1 hp.2 force)
  | getBytes addr name offset size => exact forwards_of rfl (getBytes_child srv hp)
  | setComments addr name offset comment repeatable =>
    exact forwards_of rfl (setComments_child srv hp.1 hp.2 comment repeatable)
  | rename addr currentName newName flags => exact forwards_of rfl (rename_child srv hp.1 hp.2 currentName newName)
  | patchBytes addr name offset bytes => exact forwards_of rfl (patch_child srv hp.1 hp.2.1 hp.2.2)
  | patchAsm addr name offset line => exact forwards_of rfl (patchAsm_child srv hp.1 hp.2 line)
  | basicBlocks addr => exact forwards_of rfl (basicBlocks_child srv hp)
  | callees addr => exact forwards_of rfl (callees_child srv hp)
  | callers addr => exact forwards_of rfl (callers_child srv hp)
  | idbMeta => exact forwards_idbMeta hm
  | lookupFunctions queries => exact forwards_of rfl (lookupFuncs_child srv queries)
  | listGlobals query offset limit => exact forwards_of rfl (listGlobals_child srv hp.1 hp.2 ht query)
  | analyzeStrings query offset limit => exact forwards_of rfl (analyzeStrings_child srv hp.1 hp.2 ht query)
  | findString query isExact caseInsensitive offset limit =>
    exact forwards_of rfl (findString_child srv hp.1 hp.2 ht query isExact caseInsensitive)
  | xrefsToString query isExact caseInsensitive offset limit maxXrefs =>
    exact forwards_of rfl (xrefsToString_child srv hp.1 hp.2.1 ht query isExact caseInsensitive hp.2.2)
  | findBytes pattern maxResults => cases hs
  | searchText text maxResults => cases hs
  | searchImm imm maxResults => cases hs
  | findInsns patterns maxResults caseInsensitive =>
    exact forwards_of rfl (findInsns_child srv hp.1 hp.2 ht caseInsensitive)
  | findInsnOperands patterns maxResults caseInsensitive =>
    exact forwards_of rfl (findInsnOperands_child srv hp.1 hp.2 ht caseInsensitive)
  | readInt addr size => exact forwards_readInt hp.1 hp.2
  | getString addr maxLen => exact forwards_of rfl (getString_child srv hp.1 hp.2)
  | getGlobalValue query => exact forwards_of rfl (getGlobalValue_child srv hk.valueToStrings)
  | findPaths start stop maxPaths maxDepth =>
    exact forwards_of rfl (findPaths_child srv hp.1 hp.2.1 hp.2.2.1 hp.2.2.2)
  | callGraph addr maxDepth maxNodes => exact forwards_of rfl (callgraph_child srv hp.1 hp.2.1 hp.2.2)
  | xrefMatrix addrs => exact forwards_of rfl (xrefMatrix_child srv hp.1 hp.2)
  | exportFuncs offset limit => exact forwards_of rfl (exportFuncs_child srv hp.1 hp.2)
  | pseudocodeAt addr endAddr => exact forwards_of rfl (pseudocodeAt_child srv hp.1 hp.2)

end Backend

end IdaRs
