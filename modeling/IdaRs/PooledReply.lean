import IdaRs.PooledAgree

/-!
# Pooled and local backends agree

The parent decodes the child's answer to the worker's result: records are read back by `Ty.de_ser`, and no result
has a key that `stripWorkerMetadata` takes out. The searches return their matches only, at most as many as were asked
for: `extractFirstMatches` keeps nothing else of the child's answer.
-/

namespace IdaRs

namespace Backend

open Serde Calls

/-! ## Decoding the answer -/

theorem strip_obj {kvs : List (String × Json)} (h : ∀ kv ∈ kvs, kv.1 ∉ workerMetadata) :
    stripWorkerMetadata (.obj kvs) = .obj kvs := by
  have hf : kvs.filter (fun kv => !workerMetadata.contains kv.1) = kvs :=
    List.filter_eq_self.2 fun kv hkv => by simpa using h kv hkv
  rw [stripWorkerMetadata, hf]

/-- A result type of the worker: a record or a list, without a key the parent takes out. -/
def plainResult (t : Ty) : Bool :=
  t.WF && (t.isRecord || match t with | .vec _ => true | _ => false) &&
    t.names.all fun n => !workerMetadata.contains n

theorem plainResult_result {req : IdaRequest} {t : Ty} (h : req.result = .json t) : plainResult t := by
  cases req <;> cases h <;> decide +kernel

theorem result_keys {req : IdaRequest} {keys : List String} (h : req.result = .value keys) :
    ∀ k ∈ keys, k ∉ workerMetadata := by
  cases req <;> cases h <;> decide +kernel

theorem strip_ser {t : Ty} (h : plainResult t) (v : t.Val) : stripWorkerMetadata (t.ser v) = t.ser v := by
  simp only [plainResult, Bool.and_eq_true, Bool.or_eq_true, List.all_eq_true] at h
  obtain ⟨⟨hw, hr | hv⟩, hn⟩ := h
  · obtain ⟨kvs, hs, hk⟩ := Ty.ser_record hw hr v
    rw [hs]
    exact strip_obj fun kv hkv => by simpa using hn _ (hk kv hkv)
  · cases t with
    | vec t => rfl
    | _ => cases hv

variable (srv : Server)

theorem parseJson_ser {t : Ty} (h : plainResult t) (v : t.Val) :
    parseJson srv t (.json (t.ser v)) = .ok (.typed t v) := by
  have hw : t.WF := by
    simp only [plainResult, Bool.and_eq_true] at h
    exact h.1.1
  rw [parseJson, parseValue, strip_ser h v]
  simp only [bind, Except.bind, Ty.de_ser hw v]
  rfl

/-- What a method returns is what the worker answered. -/
theorem decodeReply_payload {req : IdaRequest} {r : Reply} (hs : req.searchTool = none) (h : req.result.Fits r) :
    decodeReply srv req r.payload = .ok r := by
  rw [decodeReply, hs]
  cases hres : req.result with
  | json t =>
    rw [hres] at h
    cases r with
    | typed t' v =>
      obtain rfl : t' = t := h
      exact parseJson_ser srv (plainResult_result hres) v
    | value j => exact h.elim
    | text s => exact h.elim
  | value keys =>
    rw [hres] at h
    cases r with
    | value j =>
      obtain ⟨kvs, rfl, hk⟩ := h
      have hstrip := strip_obj fun kv hkv => result_keys hres kv.1 (hk kv hkv)
      simp only [Reply.payload, Reply.toJson, parseValue, hstrip]
      rfl
    | typed t v => exact h.elim
    | text s => exact h.elim
  | text =>
    rw [hres] at h
    cases r with
    | text s => rfl
    | typed t v => exact h.elim
    | value j => exact h.elim

/-! ## The searches -/

/-- How many matches a search is asked for. -/
def IdaRequest.searchLimit : IdaRequest → Option Nat
  | findBytes _ maxResults => some maxResults
  | searchText _ maxResults => some maxResults
  | searchImm _ maxResults => some maxResults
  | _ => none

/-- What the pooled backend returns of the worker's result `r`. -/
def IdaRequest.returned (req : IdaRequest) (r : Reply) : Reply :=
  match req.searchLimit with
  | some n => .value (.obj [("matches", .arr ((matchesOf r.toJson).take n))])
  | none => r

variable {srv}

theorem workerMaxResults_sent (hm : srv.mode = .worker) {n : Nat} (h : n ≤ 20000) :
    workerMaxResults srv.mode (sent (some n) (some_le (h.trans (by decide)))) = .done (some n) := by
  rw [workerMaxResults, if_pos hm, tryParam_usize]
  simp [h]

theorem strings_sent (target : String) :
    tryParam (valueToStrings srv.fromStr (.arr [.str target])) = .done [target] :=
  congrArg tryParam (valueToStrings_arr srv.fromStr [target])

theorem min_le_i64Max (n : Nat) : min n 10000 ≤ 10000 := Nat.min_le_right ..

section

variable {w : Worker} {n : Nat} {t : Option Nat} (hm : srv.mode = .worker) (hn : n ≤ 20000) (ht : TimeoutOk t)
include hm hn ht

theorem findBytes_child (pattern : String) :
    (callTool srv .findBytes (findBytesChildArgs pattern n t)).run (fun b => w.answer b.request) =
      ([⟨.findBytes pattern n, t⟩],
        .ok (.json (.obj [("results", .arr [searchEntry "pattern" pattern 0 n (w.answer (.findBytes pattern n))])]))) := by
  have h : callTool srv .findBytes (findBytesChildArgs pattern n t) = findBytes srv (.arr [.str pattern],
      sent (some (min n 10000)) _, sent (some 0) _, sent t ht, sent (some n) _, ()) :=
    withParams_eq <| reads_field rfl rfl <| reads_field rfl (de_natJson (min_le_i64Max n) (by decide)) <|
      reads_field rfl (de_natJson le_rfl (by decide)) <| reads_field rfl (de_optNat ht) <|
      reads_field rfl (de_natJson hn (by decide)) rfl
  rw [h]
  simp only [findBytes, strings_sent, tryParam_usize, tryParam_u64, workerMaxResults_sent hm hn, Prog.done_bind,
    Option.getD_some]
  rfl

theorem search_child {kind target : String} {req : IdaRequest}
    (hk : searchRequest (searchKind (some kind)) target n = .ok req) :
    (callTool srv .search (searchChildArgs target kind n t)).run (fun b => w.answer b.request) =
      ([⟨req, t⟩], .ok (.json (.obj [("results", .arr [searchEntry "target" target 0 n (w.answer req)])]))) := by
  have h : callTool srv .search (searchChildArgs target kind n t) = search srv (.arr [.str target],
      (some kind : Option String), sent (some (min n 10000)) _, sent (some 0) _, sent t ht, sent (some n) _, ()) :=
    withParams_eq <| reads_field rfl rfl <| reads_field rfl (Ty.de_opt_str (some kind)) <|
      reads_field rfl (de_natJson (min_le_i64Max n) (by decide)) <|
      reads_field rfl (de_natJson le_rfl (by decide)) <| reads_field rfl (de_optNat ht) <|
      reads_field rfl (de_natJson hn (by decide)) rfl
  rw [h]
  simp only [search, strings_sent, tryParam_usize, tryParam_u64, workerMaxResults_sent hm hn, Prog.done_bind,
    Option.getD_some, Prog.collect, hk]
  rfl

end

theorem searchRequest_imm {imm : Nat} (h : imm ≤ u64Max) (n : Nat) :
    searchRequest (searchKind (some "imm")) (hexLit imm) n = .ok (.searchImm imm n) := by
  have hk : searchKind (some "imm") = "imm".toList := by decide
  rw [searchRequest, hk, if_pos (.inl rfl), parseAddress_hexLit h]
  rfl

theorem searchRequest_text (text : String) (n : Nat) :
    searchRequest (searchKind (some "text")) text n = .ok (.searchText text n) := by
  have hk : searchKind (some "text") = "text".toList := by decide
  have h1 : ¬ ("text".toList = "imm".toList ∨ "text".toList = "immediate".toList) := by decide
  rw [searchRequest, hk, if_neg h1, if_pos (.inl rfl)]

/-- The child's answer to a search, decoded. -/
theorem decodeReply_search {req : IdaRequest} {tool key target : String} {n : Nat} {r : Reply}
    (hs : req.searchTool = some tool) (hl : req.searchLimit = some n) (hk : key = "pattern" ∨ key = "target") :
    decodeReply srv req (.json (.obj [("results", .arr [searchEntry key target 0 n (.ok r)])])) =
      .ok (req.returned r) := by
  rw [decodeReply, hs, IdaRequest.returned, hl]
  rcases hk with rfl | rfl <;> rfl

/-! ## Both ways -/

section

variable {child : Server} {w : Worker} {t : Option Nat}

/-- The child's worker receives the request, and the parent returns what `returned` says of the result. -/
def Carried (child : Server) (w : Worker) (c : BackendCall) : Prop :=
  (pooled child w c).1 = [c.request] ∧
    ∀ r, w.answer c.request = .ok r → (pooled child w c).2 = .ok (c.request.returned r)

theorem returned_eq {req : IdaRequest} (hs : req.searchTool = none) (r : Reply) : req.returned r = r := by
  have hl : req.searchLimit = none := by
    cases req <;> first | rfl | cases hs
  rw [IdaRequest.returned, hl]

theorem carried_of_forwards {req : IdaRequest} (hs : req.searchTool = none)
    (h : Forwards { child with mode := .worker } w ⟨req, t⟩) : Carried child w ⟨req, t⟩ := by
  obtain ⟨tool, args, t', hc, hrun⟩ := h
  simp only [Carried, pooled, hc, hrun]
  refine ⟨rfl, fun r hw => ?_⟩
  rw [hw, returned_eq hs]
  change (decodeReply child req r.payload).mapError Failure.tool = _
  rw [decodeReply_payload child hs (w.fits req r hw)]
  rfl

theorem carried_of_search {req : IdaRequest} {tool : Tool} {args : List (String × Json)} {key target name : String}
    {n : Nat} (hc : childCall ⟨req, t⟩ = .ok (tool, args))
    (hrun : (callTool { child with mode := .worker } tool args).run (fun b => w.answer b.request) =
      ([⟨req, t⟩], .ok (.json (.obj [("results", .arr [searchEntry key target 0 n (w.answer req)])]))))
    (hs : req.searchTool = some name) (hl : req.searchLimit = some n) (hk : key = "pattern" ∨ key = "target") :
    Carried child w ⟨req, t⟩ := by
  simp only [Carried, pooled, hc, hrun]
  refine ⟨rfl, fun r hw => ?_⟩
  rw [hw]
  change (decodeReply child req _).mapError Failure.tool = _
  rw [decodeReply_search hs hl hk]
  rfl

theorem carried {c : BackendCall} (h : c.Passed) (hk : c.request.Kept child.fromStr) : Carried child w c := by
  obtain ⟨req, t⟩ := c
  cases hs : req.searchTool with
  | none => exact carried_of_forwards hs (forwards rfl h hk hs)
  | some name =>
    obtain ⟨hp, ht⟩ := h
    cases req with
    | findBytes pattern n => exact carried_of_search rfl (findBytes_child rfl hp ht pattern) rfl rfl (.inl rfl)
    | searchText text n =>
      exact carried_of_search rfl (search_child rfl hp ht (searchRequest_text text n)) rfl rfl (.inr rfl)
    | searchImm imm n =>
      exact carried_of_search rfl (search_child rfl hp.2 ht (searchRequest_imm hp.1 n)) rfl rfl (.inr rfl)
    | _ => cases hs

end

/-- Whatever a handler of the parent asks its backend for, the pooled backend makes the child's worker receive the
request of the local backend and returns the worker's result; the searches return its matches, at most as many as were
asked for. -/
theorem pooled_backend_agrees (parent child : Server) (w : Worker) (tool : Tool) (args : List (String × Json))
    (c : BackendCall) (hc : (callTool parent tool args).Makes c) (hk : c.request.Kept child.fromStr) :
    (pooled child w c).1 = (localCall w c).1 ∧
      ∀ r, (localCall w c).2 = .ok r → (pooled child w c).2 = .ok (c.request.returned r) := by
  obtain ⟨hreq, hret⟩ := carried (w := w) (callTool_passed parent tool args c hc) hk
  refine ⟨hreq, fun r hr => hret r ?_⟩
  rw [localCall] at hr
  cases hw : w.answer c.request with
  | error e => rw [hw] at hr; cases hr
  | ok r' => rw [hw] at hr; cases hr; rfl

/-- A server that has no JSON text to read. -/
def sampleServer : Server := ⟨.http, "s1", fun _ => none, fun _ => ""⟩

/-- A worker that finds one match of every byte pattern and answers nothing else. -/
def sampleWorker : Worker where
  answer
    | .findBytes pattern _ =>
      .ok (.value (.obj [("pattern", .str pattern), ("matches", .arr [.str "0x1000"]), ("count", .int 1)]))
    | _ => .error .noDatabaseOpen
  fits req r h := by
    cases req with
    | findBytes pattern n => cases h; exact ⟨_, rfl, by simp⟩
    | _ => cases h

/-- The call `find_bytes` makes for one pattern. -/
theorem sample_makes : (callTool sampleServer .findBytes [("patterns", .arr [.str "90"])]).Makes
    ⟨.findBytes "90" 100, none⟩ := .inl rfl

theorem pooled_backend_agrees_find_bytes :
    (pooled sampleServer sampleWorker ⟨.findBytes "90" 100, none⟩).1 = [.findBytes "90" 100] ∧
      (pooled sampleServer sampleWorker ⟨.findBytes "90" 100, none⟩).2 =
        .ok (.value (.obj [("matches", .arr [.str "0x1000"])])) := by
  have h := pooled_backend_agrees sampleServer sampleServer sampleWorker .findBytes _ _ sample_makes trivial
  exact ⟨h.1, h.2 _ rfl⟩

/-- The worker's result names the pattern and counts the matches; the pooled backend returns neither. Two calls are
not carried at all: a page of structures that `search_structs` does not cap, and a global whose name is read as a list. -/
theorem pooled_backend_differs :
    (¬ ∀ (parent child : Server) (w : Worker) (tool : Tool) (args : List (String × Json)) (c : BackendCall),
      (callTool parent tool args).Makes c → Agrees child w c) ∧
    ((callTool sampleServer .searchStructs [("limit", .int 10001)]).Makes ⟨.structs 0 10001 none, none⟩ ∧
      (pooled sampleServer sampleWorker ⟨.structs 0 10001 none, none⟩).1 = [.structs 0 10000 none]) ∧
    ((callTool sampleServer .getGlobalValue [("query", .arr [.str "a,b"])]).Makes ⟨.getGlobalValue "a,b", none⟩ ∧
      (pooled sampleServer sampleWorker ⟨.getGlobalValue "a,b", none⟩).1 =
        [.getGlobalValue "a", .getGlobalValue "b"]) := by
  refine ⟨fun h => ?_, ⟨.inl rfl, by decide +kernel⟩, ⟨.inl rfl, by decide +kernel⟩⟩
  have hagree := (h sampleServer sampleServer sampleWorker .findBytes _ _ sample_makes).2 _ rfl
  have hcarried : Carried sampleServer sampleWorker ⟨.findBytes "90" 100, none⟩ :=
    carried (callTool_passed sampleServer _ _ _ sample_makes) trivial
  rw [hcarried.2 _ rfl] at hagree
  simp [IdaRequest.returned, IdaRequest.searchLimit] at hagree

end Backend

end IdaRs
