import Mathlib.Data.List.AList
import IdaRs.Dispatch
import IdaRs.RouterTargets

/-!
# The target manager of a worker (`src/daemon/target.rs`)

`TargetManager` holds the targets in a hash map: an `AList`, whose entries stand in the order in which the map is
iterated. The order is unspecified, so in a run of the manager (`Step`) it changes at any time.

The selector is resolved twice in the source, here and in the router (`resolveSelector`). Both come to the same
(`TargetManager.resolve_eq`), in whatever order either iterates (`resolveSelector_perm`), and in every state the manager
reaches a selector that is resolved stands for a target that is loaded (`getIdb_of_resolve`). What it stands for is
`Selects`, for the manager and for the router.
-/

namespace IdaRs

open Handlers (Idb)

structure TargetRecord where
  idb : Option Idb
  info : TargetInfo

structure TargetManager where
  targets : AList fun _ : String => TargetRecord
  activeId : Option String
  nextId : Nat

/-- What a load reads of the database it opens. -/
structure OpenedIdb where
  idb : Idb
  /-- `format!("{:?}", meta.filetype())`. -/
  fileType : String
  /-- `processor().long_name()`. -/
  processor : String
  is64Bit : Bool
  is32BitExactly : Bool

/-- `IDBOpenOptions::open`, by the path, `auto_analyse` and the path of the output. -/
abbrev IdbOpener := String → Bool → Option String → Except String OpenedIdb

def openIdb (fs : Files) (openOptions : IdbOpener) (path : String) (autoAnalyse : Bool) (idbOut : Option String) :
    Except String OpenedIdb :=
  if isIdbPath path then
    (openOptions path autoAnalyse none).mapError fun e => "Failed to open IDB: " ++ path ++ ": " ++ e
  else
    match effectiveIdbOut fs path idbOut with
    | none => .error "internal: raw binary without idb out path"
    | some outPath =>
      (openOptions path autoAnalyse (some outPath)).mapError fun e => "Failed to open binary: " ++ path ++ ": " ++ e

namespace TargetManager

def new : TargetManager := ⟨∅, none, 1⟩

def load (fs : Files) (openOptions : IdbOpener) (mgr : TargetManager) (path : String) (autoAnalyse : Bool)
    (idbOut : Option String) : Except String (TargetInfo × TargetManager) := do
  let expanded := expandPath fs path
  let db ← openIdb fs openOptions expanded autoAnalyse idbOut
  let id := "t" ++ mgr.nextId.repr
  let targetInfo : TargetInfo :=
    { id
      path := expanded
      filename := (Path.fileName expanded).getD path
      fileType := db.fileType
      processor := db.processor
      bits := if db.is64Bit then 64 else if db.is32BitExactly then 32 else 16
      functionCount := db.idb.functions.length }
  .ok (targetInfo,
    { targets := mgr.targets.insert id ⟨some db.idb, targetInfo⟩
      activeId := some (mgr.activeId.getD id)
      nextId := mgr.nextId + 1 })

def seedNextId (mgr : TargetManager) (id : String) : TargetManager :=
  match (stripPrefix ['t'] id.toList).bind (parseUnsigned (2 ^ 64 - 1)) with
  | some n => { mgr with nextId := n }
  | none => mgr

/-- The target that takes the place of the active one is the first the map lists. -/
def close (mgr : TargetManager) (targetId : String) : Except String TargetManager :=
  if targetId ∈ mgr.targets then
    let targets := mgr.targets.erase targetId
    .ok { mgr with
      targets
      activeId := if mgr.activeId = some targetId then targets.keys.head? else mgr.activeId }
  else .error ("Target not found: " ++ targetId)

def list (mgr : TargetManager) : List TargetInfo := mgr.targets.entries.map (·.2.info)

def setActive (mgr : TargetManager) (targetId : String) : Except String TargetManager :=
  if targetId ∈ mgr.targets then .ok { mgr with activeId := some targetId }
  else .error ("Target not found: " ++ targetId)

def resolve (mgr : TargetManager) (selector : Option String) : Except String String :=
  if mgr.targets.entries.isEmpty then .error "No targets loaded. Use 'target load -f <path>' first."
  else
    match selector with
    | none | some "active" | some "" =>
      match mgr.activeId with
      | some id => .ok id
      | none => .error "No active target"
    | some sel =>
      if sel ∈ mgr.targets then .ok sel
      else
        match mgr.targets.entries.filter fun x =>
          containsText x.2.info.filename.toList sel || containsText x.2.info.path.toList sel with
        | [] => .error ("No target matching '" ++ sel ++ "'")
        | [x] => .ok x.1
        | xs => .error ("Ambiguous selector '" ++ sel ++ "': matches " ++ xs.length.repr ++ " targets")

def getIdb (mgr : TargetManager) (targetId : String) : Except String (Option Idb) :=
  match mgr.targets.lookup targetId with
  | some record => .ok record.idb
  | none => .error ("Target not found: " ++ targetId)

/-- What a selector is compared with: `(id, filename, path)` of each target. -/
def entries (mgr : TargetManager) : List (String × String × String) :=
  mgr.targets.entries.map fun x => (x.1, x.2.info.filename, x.2.info.path)

end TargetManager

/-! ### What a selector stands for -/

variable {selector active : Option String} {entries entries' : List (String × String × String)} {sel id : String}

/-- The file name or the path contains the selector. -/
def fits (sel : String) (entry : String × String × String) : Bool :=
  containsText entry.2.1.toList sel || containsText entry.2.2.toList sel

/-- The selectors of the active target. -/
def AsksActive (selector : Option String) : Prop := selector = none ∨ selector = some "active" ∨ selector = some ""

theorem asksActive_or_name (selector : Option String) :
    AsksActive selector ∨ ∃ sel, selector = some sel ∧ sel ≠ "active" ∧ sel ≠ "" := by
  rcases selector with _ | sel
  · exact .inl (.inl rfl)
  by_cases ha : sel = "active"
  · exact .inl (.inr (.inl (congrArg some ha)))
  by_cases hn : sel = ""
  · exact .inl (.inr (.inr (congrArg some hn)))
  exact .inr ⟨sel, rfl, ha, hn⟩

theorem not_asksActive (ha : sel ≠ "active") (hn : sel ≠ "") : ¬ AsksActive (some sel) := by
  rintro (h | h | h) <;> cases h
  · exact ha rfl
  · exact hn rfl

/-- The answer to a selector that is no id, from the ids of the targets it fits. -/
def answerOf (sel : String) : List String → Except String String
  | [] => .error ("No target matching '" ++ sel ++ "'")
  | [id] => .ok id
  | ids => .error ("Ambiguous selector '" ++ sel ++ "': matches " ++ ids.length.repr ++ " targets")

theorem answerOf_perm {ids ids' : List String} (h : ids.Perm ids') : answerOf sel ids = answerOf sel ids' := by
  rcases ids with _ | ⟨a, _ | ⟨b, rest⟩⟩
  · rw [List.nil_perm.1 h]
  · rw [List.singleton_perm.1 h]
  · have hlen := h.length_eq
    rcases ids' with _ | ⟨a', _ | ⟨b', rest'⟩⟩
    · cases hlen
    · cases hlen
    · show Except.error _ = Except.error _
      rw [hlen]

theorem answerOf_ok_iff {ids : List String} : answerOf sel ids = .ok id ↔ ids = [id] := by
  rcases ids with _ | ⟨a, _ | ⟨b, rest⟩⟩ <;> simp [answerOf]

theorem resolveSelector_nil :
    resolveSelector selector active [] = .error "No targets loaded. Use 'target load -f <path>' first." := rfl

theorem resolveSelector_active (hne : entries ≠ []) (h : AsksActive selector) :
    resolveSelector selector active entries = active.elim (.error "No active target") .ok := by
  unfold resolveSelector
  rw [if_neg hne]
  rcases h with rfl | rfl | rfl <;> cases active <;> rfl

theorem resolveSelector_fits (hne : entries ≠ []) (ha : sel ≠ "active") (hn : sel ≠ "") :
    resolveSelector (some sel) active entries =
      if sel ∈ entries.map Prod.fst then .ok sel else answerOf sel ((entries.filter (fits sel)).map Prod.fst) := by
  rw [resolveSelector_name hne ha hn]
  have hany : (entries.any fun e => e.1 = sel) = true ↔ sel ∈ entries.map Prod.fst := by
    rw [List.any_eq_true, List.mem_map]
    simp only [decide_eq_true_eq]
  by_cases hmem : sel ∈ entries.map Prod.fst
  · rw [if_pos hmem, if_pos (hany.2 hmem)]
  · rw [if_neg hmem, if_neg (mt hany.1 hmem)]
    show _ = answerOf sel ((entries.filter fun e =>
      containsText e.2.1.toList sel || containsText e.2.2.toList sel).map _)
    rcases entries.filter _ with _ | ⟨e, _ | ⟨e', rest⟩⟩
    · rfl
    · rfl
    · simp [answerOf]

/-- The order in which the entries are listed makes no difference. -/
theorem resolveSelector_perm (h : entries.Perm entries') :
    resolveSelector selector active entries = resolveSelector selector active entries' := by
  by_cases hne : entries = []
  · rw [hne] at h ⊢
    rw [h.nil_eq]
  have hne' : entries' ≠ [] := fun hnil => hne (List.perm_nil.1 (hnil ▸ h))
  rcases asksActive_or_name selector with hact | ⟨sel, rfl, ha, hn⟩
  · rw [resolveSelector_active hne hact, resolveSelector_active hne' hact]
  · rw [resolveSelector_fits hne ha hn, resolveSelector_fits hne' ha hn]
    have hids := h.map Prod.fst
    rw [answerOf_perm ((h.filter (fits sel)).map Prod.fst)]
    by_cases hmem : sel ∈ entries.map Prod.fst
    · rw [if_pos hmem, if_pos (hids.mem_iff.1 hmem)]
    · rw [if_neg hmem, if_neg (mt hids.mem_iff.2 hmem)]

/-- The purpose of a selector, without an order: it stands for the active target, for the target of that id, or for the
only target it fits. -/
inductive Selects (active : Option String) (entries : List (String × String × String)) : Option String → String → Prop
  | active {selector : Option String} {id : String} (hsel : AsksActive selector) (hid : active = some id) :
      Selects active entries selector id
  | exact {sel : String} (ha : sel ≠ "active") (hn : sel ≠ "") (hmem : sel ∈ entries.map Prod.fst) :
      Selects active entries (some sel) sel
  | only {sel : String} {entry : String × String × String} (ha : sel ≠ "active") (hn : sel ≠ "")
      (hnot : sel ∉ entries.map Prod.fst) (hmem : entry ∈ entries) (hfits : fits sel entry = true)
      (honly : ∀ other ∈ entries, fits sel other = true → other = entry) :
      Selects active entries (some sel) entry.1

theorem ids_of_fitting_eq_singleton (hnodup : (entries.map Prod.fst).Nodup) :
    (entries.filter (fits sel)).map Prod.fst = [id] ↔
      ∃ entry ∈ entries, fits sel entry = true ∧ (∀ other ∈ entries, fits sel other = true → other = entry) ∧
        entry.1 = id := by
  rw [List.map_eq_singleton_iff]
  constructor
  · rintro ⟨entry, heq, hid⟩
    have hmem : ∀ other, other ∈ entries ∧ fits sel other = true ↔ other = entry := fun other => by
      rw [← List.mem_filter, heq, List.mem_singleton]
    exact ⟨entry, ((hmem entry).2 rfl).1, ((hmem entry).2 rfl).2, fun other h h' => (hmem other).1 ⟨h, h'⟩, hid⟩
  · rintro ⟨entry, hentry, hfits, honly, hid⟩
    refine ⟨entry, List.perm_singleton.1 ?_, hid⟩
    rw [List.perm_ext_iff_of_nodup (hnodup.of_map.filter _) (List.nodup_singleton entry)]
    intro other
    rw [List.mem_filter, List.mem_singleton]
    constructor
    · rintro ⟨hother, hfits'⟩
      exact honly other hother hfits'
    · rintro rfl
      exact ⟨hentry, hfits⟩

/-- Among targets with distinct ids, what a selector is resolved to is what it stands for. -/
theorem resolveSelector_ok_iff (hnodup : (entries.map Prod.fst).Nodup) (hempty : entries = [] → active = none) :
    resolveSelector selector active entries = .ok id ↔ Selects active entries selector id := by
  by_cases hne : entries = []
  · rw [hne, resolveSelector_nil, hempty hne]
    refine iff_of_false (by rintro ⟨⟩) ?_
    rintro (⟨-, ⟨⟩⟩ | ⟨-, -, ⟨⟩⟩ | ⟨-, -, -, ⟨⟩, -, -⟩)
  rcases asksActive_or_name selector with hact | ⟨sel, rfl, ha, hn⟩
  · rw [resolveSelector_active hne hact]
    constructor
    · intro h
      refine .active hact ?_
      cases active <;> cases h
      rfl
    · rintro (⟨-, rfl⟩ | ⟨ha, hn, -⟩ | ⟨ha, hn, -⟩)
      · rfl
      · exact absurd hact (not_asksActive ha hn)
      · exact absurd hact (not_asksActive ha hn)
  · rw [resolveSelector_fits hne ha hn]
    by_cases hmem : sel ∈ entries.map Prod.fst
    · rw [if_pos hmem]
      constructor
      · rintro ⟨⟩
        exact .exact ha hn hmem
      · rintro (⟨hact, -⟩ | ⟨-, -, -⟩ | ⟨-, -, hnot, -, -, -⟩)
        · exact absurd hact (not_asksActive ha hn)
        · rfl
        · exact absurd hmem hnot
    · rw [if_neg hmem, answerOf_ok_iff, ids_of_fitting_eq_singleton hnodup]
      constructor
      · rintro ⟨entry, hentry, hfits, honly, rfl⟩
        exact .only ha hn hmem hentry hfits honly
      · rintro (⟨hact, -⟩ | ⟨-, -, hmem'⟩ | ⟨-, -, -, hentry, hfits, honly⟩)
        · exact absurd hact (not_asksActive ha hn)
        · exact absurd hmem' hmem
        · exact ⟨_, hentry, hfits, honly, rfl⟩

namespace TargetManager

variable {mgr mgr' : TargetManager} {fs : Files} {openOptions : IdbOpener}

theorem keys_entries (mgr : TargetManager) : mgr.entries.map Prod.fst = mgr.targets.keys := by
  rw [entries, List.map_map]
  rfl

theorem nodup_entries (mgr : TargetManager) : (mgr.entries.map Prod.fst).Nodup := by
  rw [keys_entries]
  exact mgr.targets.keys_nodup

theorem mem_targets : id ∈ mgr.targets ↔ id ∈ mgr.entries.map Prod.fst := by
  rw [keys_entries, AList.mem_keys]

theorem resolve_name (hne : mgr.targets.entries ≠ []) (ha : sel ≠ "active") (hn : sel ≠ "") :
    mgr.resolve (some sel) =
      if sel ∈ mgr.targets then .ok sel else answerOf sel ((mgr.entries.filter (fits sel)).map Prod.fst) := by
  unfold resolve
  rw [if_neg (mt List.isEmpty_iff.1 hne)]
  split
  case h_4 heq =>
    obtain rfl := Option.some.inj heq
    by_cases hmem : sel ∈ mgr.targets
    · rw [if_pos hmem, if_pos hmem]
    · rw [if_neg hmem, if_neg hmem, entries, List.filter_map, List.map_map]
      show _ = answerOf sel ((mgr.targets.entries.filter fun x =>
        containsText x.2.info.filename.toList sel || containsText x.2.info.path.toList sel).map _)
      rcases mgr.targets.entries.filter _ with _ | ⟨x, _ | ⟨y, rest⟩⟩
      · rfl
      · rfl
      · simp [answerOf]
  all_goals simp_all

/-- The two copies of the resolution agree. -/
theorem resolve_eq (mgr : TargetManager) (selector : Option String) :
    mgr.resolve selector = resolveSelector selector mgr.activeId mgr.entries := by
  by_cases hnil : mgr.targets.entries = []
  · have hentries : mgr.entries = [] := by rw [entries, hnil]; rfl
    rw [hentries, resolveSelector_nil]
    unfold resolve
    rw [hnil]
    rfl
  have hne : mgr.entries ≠ [] := fun h => hnil (List.map_eq_nil_iff.1 h)
  rcases asksActive_or_name selector with hact | ⟨sel, rfl, ha, hn⟩
  · rw [resolveSelector_active hne hact]
    unfold resolve
    rw [if_neg (mt List.isEmpty_iff.1 hnil)]
    rcases hact with rfl | rfl | rfl <;> cases mgr.activeId <;> rfl
  · rw [resolveSelector_fits hne ha hn, resolve_name hnil ha hn]
    by_cases hmem : sel ∈ mgr.targets
    · rw [if_pos hmem, if_pos (mem_targets.1 hmem)]
    · rw [if_neg hmem, if_neg (mt mem_targets.2 hmem)]

end TargetManager

/-! ### One resolution -/

/-- For every selector and active id a list of targets is resolved the same in every order, and the same by a manager
that holds these targets; what is found is one of the list if the active target is. -/
theorem resolveSelector_order_free (selector active : Option String) (entries : List (String × String × String)) :
    (∀ entries', entries'.Perm entries →
      resolveSelector selector active entries' = resolveSelector selector active entries) ∧
    (∀ mgr : TargetManager, mgr.activeId = active → mgr.entries.Perm entries →
      mgr.resolve selector = resolveSelector selector active entries) ∧
    ((∀ a, active = some a → a ∈ entries.map Prod.fst) →
      ∀ id, resolveSelector selector active entries = .ok id → id ∈ entries.map Prod.fst) := by
  refine ⟨fun entries' h => resolveSelector_perm h, fun mgr hactive h => ?_, fun hactive id h => ?_⟩
  · rw [mgr.resolve_eq, hactive, resolveSelector_perm h]
  · rcases resolveSelector_ok h with ha | ⟨entry, hmem, rfl⟩
    · exact hactive id ha
    · exact List.mem_map_of_mem hmem

/-! The targets of the router's test, and a manager that lists them the other way round. -/

def alphaBeta : List (String × String × String) :=
  [("t1", "libalpha.so", "/tmp/libalpha.so"), ("t2", "beta.bin", "/work/beta.bin")]

/-- The record `insert_dummy` inserts. -/
def dummyRecord (id filename path : String) : TargetRecord where
  idb := none
  info := { id, path, filename, fileType := "", processor := "", bits := 64, functionCount := 0 }

def betaAlpha : TargetManager where
  targets := (AList.singleton "t1" (dummyRecord "t1" "libalpha.so" "/tmp/libalpha.so")).insert "t2"
    (dummyRecord "t2" "beta.bin" "/work/beta.bin")
  activeId := some "t2"
  nextId := 3

theorem resolveSelector_order_free_alphaBeta :
    resolveSelector (some "alpha") (some "t2") alphaBeta.reverse =
        resolveSelector (some "alpha") (some "t2") alphaBeta ∧
      betaAlpha.resolve (some "alpha") = resolveSelector (some "alpha") (some "t2") alphaBeta ∧
      "t1" ∈ alphaBeta.map Prod.fst := by
  obtain ⟨hperm, hmanager, hmem⟩ := resolveSelector_order_free (some "alpha") (some "t2") alphaBeta
  refine ⟨hperm _ (List.reverse_perm _), hmanager betaAlpha rfl ?_, hmem ?_ "t1" ?_⟩
  · exact List.Perm.swap _ _ []
  · rintro a ⟨⟩
    exact List.mem_cons_of_mem _ List.mem_cons_self
  · rfl

/-! ### Runs of a manager -/

namespace TargetManager

variable {mgr mgr' : TargetManager} {record : TargetRecord} {info : TargetInfo}

inductive Step (mgr : TargetManager) : TargetManager → Prop
  /-- The map comes to be iterated in another order. -/
  | rehash (targets : AList fun _ : String => TargetRecord) (h : targets.entries.Perm mgr.targets.entries) :
      Step mgr { mgr with targets }
  | load (fs : Files) (openOptions : IdbOpener) (path : String) (autoAnalyse : Bool) (idbOut : Option String)
      (info : TargetInfo) (mgr' : TargetManager)
      (h : mgr.load fs openOptions path autoAnalyse idbOut = .ok (info, mgr')) : Step mgr mgr'
  | seedNextId (id : String) : Step mgr (mgr.seedNextId id)
  | close (id : String) (mgr' : TargetManager) (h : mgr.close id = .ok mgr') : Step mgr mgr'
  | setActive (id : String) (mgr' : TargetManager) (h : mgr.setActive id = .ok mgr') : Step mgr mgr'
  /-- A handler changes the database `get_idb_mut` gave it. -/
  | analyze (id : String) (record : TargetRecord) (idb : Idb) (h : mgr.targets.lookup id = some record) :
      Step mgr { mgr with targets := mgr.targets.insert id { record with idb := some idb } }

def Reachable : TargetManager → Prop := Relation.ReflTransGen Step new

/-- What holds of a manager between two calls. -/
structure Loaded (mgr : TargetManager) : Prop where
  named : ∀ id record, mgr.targets.lookup id = some record → record.info.id = id
  isOpen : ∀ id record, mgr.targets.lookup id = some record → record.idb.isSome = true
  empty : mgr.activeId = none → mgr.targets.entries = []
  active : ∀ id, mgr.activeId = some id → id ∈ mgr.targets

theorem loaded_new : Loaded new := by
  refine ⟨fun id record h => ?_, fun id record h => ?_, fun _ => rfl, fun id h => ?_⟩
  · cases h
  · cases h
  · cases h

namespace Loaded

theorem rehash (h : Loaded mgr) {targets : AList fun _ : String => TargetRecord}
    (hperm : targets.entries.Perm mgr.targets.entries) : Loaded { mgr with targets } := by
  have hlookup : ∀ id, targets.lookup id = mgr.targets.lookup id := fun id => AList.perm_lookup hperm
  refine ⟨fun id record hr => ?_, fun id record hr => ?_, fun hn => ?_, fun id ha => ?_⟩
  · exact h.named id record (hlookup id ▸ hr)
  · exact h.isOpen id record (hlookup id ▸ hr)
  · exact List.perm_nil.1 (h.empty hn ▸ hperm)
  · exact (AList.mem_of_perm hperm).2 (h.active id ha)

theorem insert (h : Loaded mgr) (n : Nat) (hid : record.info.id = id) (hopen : record.idb.isSome = true) :
    Loaded ⟨mgr.targets.insert id record, some (mgr.activeId.getD id), n⟩ := by
  have hlookup : ∀ k r, (mgr.targets.insert id record).lookup k = some r →
      k = id ∧ r = record ∨ mgr.targets.lookup k = some r := fun k r hr => by
    by_cases hk : k = id
    · subst hk
      rw [AList.lookup_insert] at hr
      exact .inl ⟨rfl, (Option.some.inj hr).symm⟩
    · rw [AList.lookup_insert_ne hk] at hr
      exact .inr hr
  refine ⟨fun k r hr => ?_, fun k r hr => ?_, fun hn => ?_, fun k hk => ?_⟩
  · rcases hlookup k r hr with ⟨rfl, rfl⟩ | hr
    · exact hid
    · exact h.named k r hr
  · rcases hlookup k r hr with ⟨rfl, rfl⟩ | hr
    · exact hopen
    · exact h.isOpen k r hr
  · cases hn
  · obtain rfl := Option.some.inj hk
    rw [AList.mem_insert]
    cases ha : mgr.activeId with
    | none => exact .inl rfl
    | some a => exact .inr (h.active a ha)

theorem close (h : Loaded mgr) (hc : mgr.close id = .ok mgr') : Loaded mgr' := by
  unfold TargetManager.close at hc
  split at hc <;> cases hc
  have hlookup : ∀ k r, (mgr.targets.erase id).lookup k = some r → mgr.targets.lookup k = some r := fun k r hr => by
    by_cases hk : k = id
    · subst hk
      rw [AList.lookup_erase] at hr
      cases hr
    · rwa [AList.lookup_erase_ne hk] at hr
  refine ⟨fun k r hr => h.named k r (hlookup k r hr), fun k r hr => h.isOpen k r (hlookup k r hr), fun hn => ?_,
    fun k hk => ?_⟩
  · simp only at hn
    split at hn
    · have hkeys := List.head?_eq_none_iff.1 hn
      exact List.map_eq_nil_iff.1 hkeys
    · show List.kerase id mgr.targets.entries = []
      rw [h.empty hn, List.kerase_nil]
  · simp only at hk
    split at hk
    · exact AList.mem_keys.2 (List.mem_of_mem_head? hk)
    · rename_i hne
      refine AList.mem_erase.2 ⟨fun hkid => hne (hkid ▸ hk), h.active k hk⟩

theorem seedNextId (h : Loaded mgr) : Loaded (mgr.seedNextId id) := by
  unfold TargetManager.seedNextId
  split
  · exact ⟨h.named, h.isOpen, h.empty, h.active⟩
  · exact h

theorem setActive (h : Loaded mgr) (hs : mgr.setActive id = .ok mgr') : Loaded mgr' := by
  unfold TargetManager.setActive at hs
  split at hs <;> cases hs
  rename_i hmem
  refine ⟨h.named, h.isOpen, fun hn => ?_, fun k hk => ?_⟩
  · cases hn
  · obtain rfl := Option.some.inj hk
    exact hmem

end Loaded

theorem load_eq_ok {fs : Files} {openOptions : IdbOpener} {path : String} {autoAnalyse : Bool} {idbOut : Option String}
    (h : mgr.load fs openOptions path autoAnalyse idbOut = .ok (info, mgr')) :
    ∃ idb, mgr' =
      ⟨mgr.targets.insert info.id ⟨some idb, info⟩, some (mgr.activeId.getD info.id), mgr.nextId + 1⟩ := by
  simp only [load, bind, Except.bind] at h
  cases hdb : openIdb fs openOptions (expandPath fs path) autoAnalyse idbOut with
  | error e =>
    rw [hdb] at h
    cases h
  | ok db =>
    rw [hdb] at h
    cases h
    exact ⟨db.idb, rfl⟩

theorem Loaded.step (h : Loaded mgr) (hs : Step mgr mgr') : Loaded mgr' := by
  cases hs with
  | rehash targets hperm => exact h.rehash hperm
  | load fs openOptions path autoAnalyse idbOut info _ hload =>
    obtain ⟨idb, rfl⟩ := load_eq_ok hload
    exact h.insert _ rfl rfl
  | seedNextId id => exact h.seedNextId
  | close id _ hclose => exact h.close hclose
  | setActive id _ hset => exact h.setActive hset
  | analyze id record idb hrecord =>
    have hopen : Loaded
        ⟨mgr.targets.insert id { record with idb := some idb }, some (mgr.activeId.getD id), mgr.nextId⟩ :=
      h.insert mgr.nextId (h.named id record hrecord) rfl
    cases ha : mgr.activeId with
    | none =>
      rw [AList.lookup, h.empty ha] at hrecord
      cases hrecord
    | some a => rwa [ha] at hopen

theorem Reachable.loaded (h : Reachable mgr) : Loaded mgr := by
  induction h with
  | refl => exact loaded_new
  | tail _ hs ih => exact ih.step hs

/-- In every state the manager reaches a selector is resolved to what it stands for. -/
theorem resolve_ok_iff (h : Reachable mgr) :
    mgr.resolve selector = .ok id ↔ Selects mgr.activeId mgr.entries selector id := by
  rw [resolve_eq]
  refine resolveSelector_ok_iff mgr.nodup_entries fun hnil => ?_
  by_contra hactive
  obtain ⟨a, ha⟩ := Option.ne_none_iff_exists'.1 hactive
  have hmem := mem_targets.1 (h.loaded.active a ha)
  rw [hnil] at hmem
  cases hmem

/-- After `resolve` a handler finds the target, under its id and with its database open. -/
theorem getIdb_of_resolve (h : Reachable mgr) (hr : mgr.resolve selector = .ok id) :
    ∃ record, mgr.targets.lookup id = some record ∧ record.info.id = id ∧
      ∃ idb, mgr.getIdb id = .ok (some idb) := by
  have hmem : id ∈ mgr.targets := by
    rw [resolve_eq] at hr
    rcases resolveSelector_ok hr with ha | ⟨entry, hentry, rfl⟩
    · exact h.loaded.active id ha
    · exact mem_targets.2 (List.mem_map_of_mem hentry)
  obtain ⟨record, hrecord⟩ := Option.isSome_iff_exists.1 (AList.lookup_isSome.2 hmem)
  obtain ⟨idb, hidb⟩ := Option.isSome_iff_exists.1 (h.loaded.isOpen id record hrecord)
  refine ⟨record, hrecord, h.loaded.named id record hrecord, idb, ?_⟩
  rw [getIdb, hrecord]
  show Except.ok record.idb = _
  rw [hidb]

/-! ### The manager of `dispatch_analysis` -/

/-- What the operations with pages read of a manager. -/
def view (mgr : TargetManager) : Handlers.TargetManager where
  targets := mgr.targets.entries.map fun x => ⟨x.1, x.2.info.filename, x.2.info.path, x.2.idb⟩
  activeId := mgr.activeId

theorem view_resolve (mgr : TargetManager) (selector : Option String) :
    mgr.view.resolve selector = mgr.resolve selector := by
  rw [resolve_eq, Handlers.TargetManager.resolve, view, List.map_map]
  rfl

theorem view_getIdb (mgr : TargetManager) (id : String) : mgr.view.getIdb id = mgr.getIdb id := by
  have hfind : (mgr.view.targets.find? fun r => decide (r.id = id)) =
      (mgr.targets.lookup id).map fun record => ⟨id, record.info.filename, record.info.path, record.idb⟩ := by
    have hlookup := List.map_dlookup_eq_find id mgr.targets.entries
    simp only [eq_comm (a := id)] at hlookup
    rw [view, List.find?_map]
    show ((mgr.targets.entries.find? fun x => decide (x.1 = id)).map _) = _
    rw [← hlookup, Option.map_map]
    rfl
  rw [Handlers.TargetManager.getIdb, hfind, getIdb]
  cases mgr.targets.lookup id <;> rfl

/-- An operation with pages is run on an open database, whatever target is asked for. -/
theorem dispatch_of_reachable (lowercase : String → String)
    (others : String → String → Serde.Json → Handlers.Dispatched Serde.Json) {name : String} {op : Handlers.PagedOp}
    (h : Reachable mgr) (hop : Handlers.PagedOp.ofName name = some op) (target : Option String) (p : Serde.Json) :
    (∃ e, mgr.resolve target = .error e ∧
      Handlers.dispatchAnalysis lowercase others mgr.view name target p = .error (.message e)) ∨
    ∃ id idb, mgr.resolve target = .ok id ∧ mgr.getIdb id = .ok (some idb) ∧
      Handlers.dispatchAnalysis lowercase others mgr.view name target p = op.run lowercase (some idb) p := by
  simp only [Handlers.dispatchAnalysis, hop, view_resolve]
  cases hr : mgr.resolve target with
  | error e => exact .inl ⟨e, rfl, rfl⟩
  | ok id =>
    obtain ⟨-, -, -, idb, hidb⟩ := getIdb_of_resolve h hr
    refine .inr ⟨id, idb, rfl, hidb, ?_⟩
    simp only [Handlers.liftMessage, Except.mapError, bind, Except.bind, view_getIdb, hidb]

end TargetManager

/-! ### The router -/

/-- So it is in every state of the router until a shutdown. -/
theorem Router.resolve_ok_iff {c : Threads.Conf Shared Pc}
    (h : program.Reachable Init (fun _ a => noShutdown a) c) :
    c.shared.state.resolve selector = .ok id ↔ Selects c.shared.state.active
      (c.shared.state.targets.map fun e => (e.1, e.2.info.filename, e.2.info.path)) selector id := by
  obtain ⟨hactive, -⟩ := ActiveInv.reachable h
  have hnodup := (TargetsInv.reachable h).shared.nodup
  refine resolveSelector_ok_iff ?_ fun hnil => hactive.none_iff.2 (List.map_eq_nil_iff.1 hnil)
  rw [List.map_map]
  exact hnodup

end IdaRs
