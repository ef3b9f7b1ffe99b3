import Mathlib.Data.Bool.Basic
import IdaRs.Lib.Serde

/-!
# Normalising tool schemas (`src/server/mod.rs` 5631-5743)

`normalize_schema_value` rewrites an object once, then goes on with the members of what it got. Rewriting can leave
a shape it was to remove (an `anyOf` inside the branch it collapses to, a type array inside a type array), and a map of
property names is rewritten as if it were a schema: `normal_form_iff` and `namesStay_iff` say when neither happens.
-/

namespace IdaRs

namespace Schema

open Serde

/-- A `Map<String, Value>`; the order of the members is not observed. -/
abbrev Members := List (String × Json)

/-- `Map::remove`. -/
def remove (k : String) (m : Members) : Members := m.filter (·.1 ≠ k)

/-- `Map::insert`. -/
def insert (k : String) (v : Json) (m : Members) : Members := (k, v) :: remove k m

def isNullSchema (value : Json) : Bool :=
  ((value.asObj.bind (·.lookup "type")).bind Json.asStr) == some "null"

/-- The loop over the branches: the branch that is not null so far, and how many are. -/
def scanBranches : List Json → Option Json → Nat → Option (Option Json × Nat)
  | [], nonNull, nullCount => some (nonNull, nullCount)
  | branch :: rest, nonNull, nullCount =>
    if isNullSchema branch then scanBranches rest nonNull (nullCount + 1)
    else
      match nonNull with
      | some _ => none
      | none => scanBranches rest (some branch) nullCount

/-- The branch a nullable `anyOf` is collapsed to. -/
def nullableBranch (schema : Members) : Option Members :=
  match schema.lookup "anyOf" with
  | some (.arr anyOf) =>
    match scanBranches anyOf none 0 with
    | some (some (.obj branch), 1) => some branch
    | some (some (.bool true), 1) => some []
    | _ => none
  | _ => none

def nullableAnyOfReplacement (schema : Members) : Option Members :=
  (nullableBranch schema).map fun branch =>
    let replacement := (remove "anyOf" schema).foldr (fun kv acc => insert kv.1 kv.2 acc) branch
    match replacement.lookup "default" with
    | some .null => remove "default" replacement
    | _ => replacement

def isNullName (value : Json) : Bool := value.asStr == some "null"

/-- `some none` drops the type. -/
def nullableTypeArrayReplacement (schema : Members) : Option (Option Json) :=
  match schema.lookup "type" with
  | some (.arr types) =>
    if types.any isNullName then
      some (match types.filter (!isNullName ·) with
        | [] => none
        | [t] => some t
        | ts => some (.arr ts))
    else none
  | _ => none

/-- What is done to an object before its members are visited. -/
def rewriteNode (schema : Members) : Members :=
  let schema := (nullableAnyOfReplacement schema).getD schema
  let schema := remove "$schema" schema
  match nullableTypeArrayReplacement schema with
  | some (some t) => insert "type" t schema
  | some none => remove "type" schema
  | none => schema

/-! ## Members -/

section

variable {m : Members} {k j : String} {v : Json}

theorem mem_of_lookup (h : m.lookup k = some v) : (k, v) ∈ m := by
  obtain ⟨l₁, l₂, rfl, -⟩ := List.lookup_eq_some_iff.1 h
  simp

theorem lookup_member (i j : String) (v : Json) (m : Members) :
    ((i, v) :: m).lookup j = if j = i then some v else m.lookup j := by
  by_cases h : j = i
  · subst h
    simp
  · rw [if_neg h, List.lookup_cons, beq_eq_false_iff_ne.2 h]

@[simp] theorem lookup_remove (k j : String) (m : Members) :
    (remove k m).lookup j = if j = k then none else m.lookup j := by
  induction m with
  | nil => simp [remove]
  | cons kv m ih =>
    obtain ⟨i, v⟩ := kv
    rw [remove, List.filter_cons, lookup_member]
    by_cases hi : i = k
    · subst hi
      rw [if_neg (by simp)]
      refine ih.trans ?_
      split <;> rfl
    · rw [if_pos (by simpa using hi), lookup_member]
      change (if j = i then some v else (remove k m).lookup j) = _
      rw [ih]
      by_cases hj : j = i
      · subst hj
        rw [if_pos rfl, if_neg hi, if_pos rfl]
      · rw [if_neg hj, if_neg hj]

@[simp] theorem lookup_insert (k j : String) (v : Json) (m : Members) :
    (insert k v m).lookup j = if j = k then some v else m.lookup j := by
  rw [insert, lookup_member, lookup_remove]
  split <;> rfl

theorem lookup_insertAll (b : Members) (j : String) :
    (m.foldr (fun kv acc => insert kv.1 kv.2 acc) b).lookup j = (m.lookup j).or (b.lookup j) := by
  induction m with
  | nil => simp
  | cons kv m ih =>
    obtain ⟨i, v⟩ := kv
    rw [List.foldr_cons, lookup_insert, lookup_member, ih]
    split <;> rfl

theorem mem_remove {kv : String × Json} (h : kv ∈ remove k m) : kv ∈ m := List.mem_of_mem_filter h

theorem mem_insertAll {b : Members} {kv : String × Json}
    (h : kv ∈ m.foldr (fun kv acc => insert kv.1 kv.2 acc) b) : kv ∈ m ∨ kv ∈ b := by
  induction m with
  | nil => exact .inr h
  | cons iv m ih =>
    rw [List.foldr_cons, insert, List.mem_cons] at h
    rcases h with rfl | h
    · exact .inl (List.mem_cons_self ..)
    · exact (ih (mem_remove h)).imp_left (List.mem_cons_of_mem _)

theorem remove_eq_self (h : m.lookup k = none) : remove k m = m := by
  refine List.filter_eq_self.2 fun kv hkv => ?_
  have hne : k ≠ kv.1 := by simpa using List.lookup_eq_none_iff.1 h kv hkv
  exact decide_eq_true hne.symm

end

/-! ## The nullable branch -/

theorem scanBranches_eq_some {bs : List Json} {nonNull r : Option Json} {n c : Nat} :
    scanBranches bs nonNull n = some (r, c) ↔
      nonNull.toList ++ bs.filter (!isNullSchema ·) = r.toList ∧ n + bs.countP isNullSchema = c := by
  induction bs generalizing nonNull n with
  | nil => cases nonNull <;> cases r <;> simp [scanBranches]
  | cons b bs ih =>
    cases hb : isNullSchema b with
    | true =>
      have hcount : n + 1 + bs.countP isNullSchema = n + (b :: bs).countP isNullSchema := by
        rw [List.countP_cons_of_pos hb]
        omega
      rw [← hcount, List.filter_cons_of_neg (by simpa using hb), ← ih]
      cases nonNull <;> simp [scanBranches, hb]
    | false =>
      rw [List.countP_cons_of_neg (by simp [hb]), List.filter_cons_of_pos (by simp [hb])]
      cases nonNull with
      | none => simp [scanBranches, hb, ih]
      | some x => cases r <;> simp [scanBranches, hb]

/-- An `anyOf` with one null branch and one other, which is an object or `true`. -/
def NullableAnyOf (m : Members) : Prop :=
  ∃ bs b, m.lookup "anyOf" = some (.arr bs) ∧ bs.countP isNullSchema = 1 ∧ bs.filter (!isNullSchema ·) = [b] ∧
    ((∃ o, b = .obj o) ∨ b = .bool true)

theorem nullableBranch_eq_some {m b : Members} : nullableBranch m = some b ↔
    ∃ bs x, m.lookup "anyOf" = some (.arr bs) ∧ bs.countP isNullSchema = 1 ∧ bs.filter (!isNullSchema ·) = [x] ∧
      (x = .obj b ∨ x = .bool true ∧ b = []) := by
  constructor
  · intro h
    unfold nullableBranch at h
    split at h
    · rename_i bs hm
      split at h
      · rename_i o hs
        obtain ⟨hf, hc⟩ := scanBranches_eq_some.1 hs
        exact ⟨bs, _, hm, by omega, hf, .inl (by rw [Option.some.inj h])⟩
      · rename_i hs
        obtain ⟨hf, hc⟩ := scanBranches_eq_some.1 hs
        exact ⟨bs, _, hm, by omega, hf, .inr ⟨rfl, (Option.some.inj h).symm⟩⟩
      · cases h
    · cases h
  · rintro ⟨bs, x, hm, hc, hf, hx⟩
    have hs : scanBranches bs none 0 = some (some x, 1) := scanBranches_eq_some.2 ⟨hf, by omega⟩
    rcases hx with rfl | ⟨rfl, rfl⟩ <;> simp [nullableBranch, hm, hs]

theorem nullableAnyOf_iff {m : Members} : NullableAnyOf m ↔ nullableBranch m ≠ none := by
  rw [Option.ne_none_iff_exists']
  constructor
  · rintro ⟨bs, b, hm, hc, hf, ⟨o, rfl⟩ | rfl⟩
    · exact ⟨o, nullableBranch_eq_some.2 ⟨bs, _, hm, hc, hf, .inl rfl⟩⟩
    · exact ⟨[], nullableBranch_eq_some.2 ⟨bs, _, hm, hc, hf, .inr ⟨rfl, rfl⟩⟩⟩
  · rintro ⟨b, h⟩
    obtain ⟨bs, x, hm, hc, hf, rfl | ⟨rfl, -⟩⟩ := nullableBranch_eq_some.1 h
    · exact ⟨bs, _, hm, hc, hf, .inl ⟨b, rfl⟩⟩
    · exact ⟨bs, _, hm, hc, hf, .inr rfl⟩

/-! ## The rewritten object -/

/-- What a schema has under `k`, of its own or from the branch it is collapsed to. -/
def effective (m : Members) (k : String) : Option Json := (m.lookup k).or ((nullableBranch m).bind (·.lookup k))

/-- The type that is left of a type. -/
def retype : Option Json → Option Json
  | some (.arr types) =>
    if types.any isNullName then
      match types.filter (!isNullName ·) with
      | [] => none
      | [t] => some t
      | ts => some (.arr ts)
    else some (.arr types)
  | t => t

/-- The default that is left of a default. -/
def dropNull : Option Json → Option Json
  | some .null => none
  | d => d

section

variable {m b : Members} {k : String}

theorem effective_eq_lookup (h : nullableBranch m = none) : effective m k = m.lookup k := by
  rw [effective, h]
  simp

theorem collapse_none (h : nullableBranch m = none) : (nullableAnyOfReplacement m).getD m = m := by
  rw [nullableAnyOfReplacement, h]
  rfl

theorem lookup_collapse (h : nullableBranch m = some b) :
    ((nullableAnyOfReplacement m).getD m).lookup k =
      if k = "anyOf" then b.lookup k
      else if k = "default" then dropNull (effective m k)
      else effective m k := by
  have hall : ∀ j, ((remove "anyOf" m).foldr (fun kv acc => insert kv.1 kv.2 acc) b).lookup j =
      if j = "anyOf" then b.lookup j else effective m j := by
    intro j
    rw [lookup_insertAll, lookup_remove, effective, h]
    split <;> rfl
  have hdef : ((remove "anyOf" m).foldr (fun kv acc => insert kv.1 kv.2 acc) b).lookup "default" =
      effective m "default" := (hall "default").trans (if_neg (by decide))
  simp only [nullableAnyOfReplacement, h, Option.map_some, Option.getD_some, hdef]
  split
  · rename_i hnull
    rw [lookup_remove, hall]
    by_cases hk : k = "default"
    · subst hk
      simp [hnull, dropNull]
    · simp [hk]
  · rename_i hnull
    rw [hall]
    by_cases hk : k = "default"
    · subst hk
      rw [if_neg (by decide), if_neg (by decide), if_pos rfl, dropNull]
      intro hc
      exact hnull hc
    · simp [hk]

theorem lookup_collapse_of_ne (hk : k ≠ "anyOf") (hd : k ≠ "default") :
    ((nullableAnyOfReplacement m).getD m).lookup k = effective m k := by
  cases h : nullableBranch m with
  | none => rw [collapse_none h, effective_eq_lookup h]
  | some b => rw [lookup_collapse h, if_neg hk, if_neg hd]

/-- The replacement of a type array, by the type it is computed from. -/
theorem nullableTypeArrayReplacement_cases (m : Members) :
    (nullableTypeArrayReplacement m = none ∧ retype (m.lookup "type") = m.lookup "type") ∨
      nullableTypeArrayReplacement m = some (retype (m.lookup "type")) := by
  unfold nullableTypeArrayReplacement retype
  split
  · rename_i types h
    simp only [h]
    split
    · exact .inr rfl
    · exact .inl ⟨rfl, rfl⟩
  · exact .inl ⟨rfl, rfl⟩

/-- The three ways the type of the collapsed schema is dealt with. -/
theorem rewriteNode_cases (m : Members) :
    ∃ s, s = remove "$schema" ((nullableAnyOfReplacement m).getD m) ∧
      ((retype (effective m "type") = effective m "type" ∧ rewriteNode m = s) ∨
        (retype (effective m "type") = none ∧ rewriteNode m = remove "type" s) ∨
        ∃ t, retype (effective m "type") = some t ∧ rewriteNode m = insert "type" t s) := by
  have htype : (remove "$schema" ((nullableAnyOfReplacement m).getD m)).lookup "type" = effective m "type" := by
    rw [lookup_remove, if_neg (by decide), lookup_collapse_of_ne (by decide) (by decide)]
  have hcases := nullableTypeArrayReplacement_cases (remove "$schema" ((nullableAnyOfReplacement m).getD m))
  rw [htype] at hcases
  refine ⟨_, rfl, ?_⟩
  simp only [rewriteNode]
  rcases hcases with ⟨hrep, hre⟩ | hrep
  · rw [hrep]
    exact .inl ⟨hre, rfl⟩
  · rw [hrep]
    cases retype (effective m "type") with
    | none => exact .inr (.inl ⟨rfl, rfl⟩)
    | some t => exact .inr (.inr ⟨t, rfl, rfl⟩)

theorem lookup_rewriteNode :
    (rewriteNode m).lookup k =
      if k = "$schema" then none
      else if k = "type" then retype (effective m k)
      else ((nullableAnyOfReplacement m).getD m).lookup k := by
  obtain ⟨s, rfl, ⟨hre, h⟩ | ⟨hre, h⟩ | ⟨t, hre, h⟩⟩ := rewriteNode_cases m
  · rw [h, lookup_remove]
    by_cases hk : k = "type"
    · subst hk
      rw [if_neg (by decide), if_neg (by decide), if_pos rfl, hre, lookup_collapse_of_ne (by decide) (by decide)]
    · rw [if_neg hk]
  · rw [h]
    by_cases hk : k = "type"
    · subst hk
      simp [hre]
    · simp [hk]
  · rw [h]
    by_cases hk : k = "type"
    · subst hk
      simp [hre]
    · simp [hk]

end

/-! ## The traversal -/

theorem sizeOf_member {m : Members} {k : String} {c : Json} (h : (k, c) ∈ m) : sizeOf c < sizeOf m := by
  have := List.sizeOf_lt_of_mem h
  simp only [Prod.mk.sizeOf_spec] at this
  omega

theorem sizeOf_filter_le (p : Json → Bool) (xs : List Json) : sizeOf (xs.filter p) ≤ sizeOf xs := by
  induction xs with
  | nil => simp
  | cons x xs ih =>
    rw [List.filter_cons]
    split <;> simp only [List.cons.sizeOf_spec] <;> omega

theorem sizeOf_retype {t c : Json} (h : retype (some t) = some c) : sizeOf c ≤ sizeOf t := by
  unfold retype at h
  split at h
  · rename_i types ht
    obtain rfl := Option.some.inj ht
    have hle := sizeOf_filter_le (!isNullName ·) types
    split at h
    · split at h
      · cases h
      · rename_i x hf
        obtain rfl := Option.some.inj h
        have hmem : x ∈ types := List.mem_of_mem_filter (by rw [hf]; exact List.mem_singleton_self _)
        have := List.sizeOf_lt_of_mem hmem
        simp only [Json.arr.sizeOf_spec]
        omega
      · obtain rfl := Option.some.inj h
        simp only [Json.arr.sizeOf_spec]
        omega
    · exact Nat.le_of_eq (congrArg sizeOf (Option.some.inj h).symm)
  · exact Nat.le_of_eq (congrArg sizeOf (Option.some.inj h).symm)

/-- A member of the branch is smaller than the schema, two levels up. -/
theorem sizeOf_branch {m b : Members} (h : nullableBranch m = some b) {k : String} {c : Json} (hc : (k, c) ∈ b) :
    sizeOf c < sizeOf m := by
  obtain ⟨bs, x, hm, -, hf, rfl | ⟨-, rfl⟩⟩ := nullableBranch_eq_some.1 h
  · have hmem : Json.obj b ∈ bs := List.mem_of_mem_filter (by rw [hf]; exact List.mem_singleton_self _)
    have h1 := sizeOf_member hc
    have h2 := List.sizeOf_lt_of_mem hmem
    have h3 := sizeOf_member (mem_of_lookup hm)
    simp only [Json.obj.sizeOf_spec, Json.arr.sizeOf_spec] at h2 h3
    omega
  · cases hc

theorem sizeOf_effective {m : Members} {k : String} {c : Json} (h : effective m k = some c) : sizeOf c < sizeOf m := by
  rw [effective, Option.or_eq_some_iff] at h
  rcases h with h | ⟨-, h⟩
  · exact sizeOf_member (mem_of_lookup h)
  · obtain ⟨b, hb, hc⟩ := Option.bind_eq_some_iff.1 h
    exact sizeOf_branch hb (mem_of_lookup hc)

theorem sizeOf_collapse {m : Members} {k : String} {c : Json} (h : (k, c) ∈ (nullableAnyOfReplacement m).getD m) :
    sizeOf c < sizeOf m := by
  cases hb : nullableBranch m with
  | none =>
    rw [collapse_none hb] at h
    exact sizeOf_member h
  | some b =>
    have hmem : (k, c) ∈ (remove "anyOf" m).foldr (fun kv acc => insert kv.1 kv.2 acc) b := by
      simp only [nullableAnyOfReplacement, hb, Option.map_some, Option.getD_some] at h
      split at h
      · exact mem_remove h
      · exact h
    rcases mem_insertAll hmem with hm | hm
    · exact sizeOf_member (mem_remove hm)
    · exact sizeOf_branch hb hm

theorem sizeOf_rewriteNode {m : Members} {k : String} {c : Json} (h : (k, c) ∈ rewriteNode m) :
    sizeOf c < sizeOf m := by
  obtain ⟨s, rfl, ⟨-, hr⟩ | ⟨-, hr⟩ | ⟨t, hre, hr⟩⟩ := rewriteNode_cases m
  · rw [hr] at h
    exact sizeOf_collapse (mem_remove h)
  · rw [hr] at h
    exact sizeOf_collapse (mem_remove (mem_remove h))
  · rw [hr] at h
    rcases List.mem_cons.1 h with heq | h
    · obtain ⟨rfl, rfl⟩ := Prod.mk.inj heq
      cases he : effective m "type" with
      | none => rw [he] at hre; cases hre
      | some t =>
        rw [he] at hre
        exact Nat.lt_of_le_of_lt (sizeOf_retype hre) (sizeOf_effective he)
    · exact sizeOf_collapse (mem_remove (mem_remove h))

def normalizeSchemaValue (v : Json) : Json :=
  match v with
  | .obj schema => .obj ((rewriteNode schema).attach.map fun kv => (kv.1.1, normalizeSchemaValue kv.1.2))
  | .arr items => .arr (items.attach.map fun item => normalizeSchemaValue item.1)
  | v => v
termination_by sizeOf v
decreasing_by
  · have hlt := sizeOf_rewriteNode kv.2
    show sizeOf kv.1.2 < sizeOf (Json.obj schema)
    simp only [Json.obj.sizeOf_spec]
    exact Nat.lt_add_left 1 hlt
  · have := List.sizeOf_lt_of_mem item.2
    simp only [Json.arr.sizeOf_spec]
    omega

def mapMembers (f : Json → Json) (m : Members) : Members := m.map fun kv => (kv.1, f kv.2)

theorem normalize_obj (m : Members) :
    normalizeSchemaValue (.obj m) = .obj (mapMembers normalizeSchemaValue (rewriteNode m)) := by
  rw [normalizeSchemaValue, mapMembers]
  congr 1
  exact List.attach_map_val (f := fun kv : String × Json => (kv.1, normalizeSchemaValue kv.2))

theorem normalize_arr (xs : List Json) :
    normalizeSchemaValue (.arr xs) = .arr (xs.map normalizeSchemaValue) := by
  rw [normalizeSchemaValue]
  congr 1
  exact List.attach_map_val

theorem normalize_scalar {v : Json} (ho : ∀ m, v ≠ .obj m) (ha : ∀ xs, v ≠ .arr xs) : normalizeSchemaValue v = v := by
  cases v with
  | obj m => exact (ho m rfl).elim
  | arr xs => exact (ha xs rfl).elim
  | _ => rw [normalizeSchemaValue] <;> nofun

theorem lookup_mapMembers (f : Json → Json) (m : Members) (k : String) :
    (mapMembers f m).lookup k = (m.lookup k).map f := by
  induction m with
  | nil => rfl
  | cons kv m ih =>
    obtain ⟨i, v⟩ := kv
    rw [mapMembers, List.map_cons, lookup_member, lookup_member]
    split
    · rfl
    · exact ih

/-! ## What normalising a member leaves as it is -/

theorem isNullName_iff {v : Json} : isNullName v ↔ v = .str "null" := by
  cases v <;> simp [isNullName, Json.asStr]

theorem any_isNullName {types : List Json} : types.any isNullName ↔ .str "null" ∈ types := by
  rw [List.any_eq_true]
  constructor
  · rintro ⟨t, ht, h⟩
    rwa [← isNullName_iff.1 h]
  · intro h
    exact ⟨_, h, isNullName_iff.2 rfl⟩

theorem normalize_eq_obj {v : Json} {m : Members} (h : normalizeSchemaValue v = .obj m) :
    ∃ m', v = .obj m' ∧ m = mapMembers normalizeSchemaValue (rewriteNode m') := by
  cases v with
  | obj m' =>
    rw [normalize_obj] at h
    exact ⟨m', rfl, (Json.obj.inj h).symm⟩
  | arr xs => rw [normalize_arr] at h; cases h
  | _ => rw [normalize_scalar (by nofun) (by nofun)] at h; cases h

theorem normalize_eq_arr {v : Json} {ys : List Json} (h : normalizeSchemaValue v = .arr ys) :
    ∃ xs, v = .arr xs ∧ ys = xs.map normalizeSchemaValue := by
  cases v with
  | obj m' => rw [normalize_obj] at h; cases h
  | arr xs =>
    rw [normalize_arr] at h
    exact ⟨xs, rfl, (Json.arr.inj h).symm⟩
  | _ => rw [normalize_scalar (by nofun) (by nofun)] at h; cases h

theorem normalize_eq_scalar {v w : Json} (h : normalizeSchemaValue v = w) (ho : ∀ m, w ≠ .obj m)
    (ha : ∀ xs, w ≠ .arr xs) : v = w := by
  cases v with
  | obj m' => rw [normalize_obj] at h; exact (ho _ h.symm).elim
  | arr xs => rw [normalize_arr] at h; exact (ha _ h.symm).elim
  | _ => rwa [normalize_scalar (by nofun) (by nofun)] at h

theorem asStr_normalize (v : Json) : (normalizeSchemaValue v).asStr = v.asStr := by
  cases v with
  | obj m => rw [normalize_obj]; rfl
  | arr xs => rw [normalize_arr]; rfl
  | _ => rw [normalize_scalar] <;> nofun

/-- No type is turned into the name of the null type. -/
theorem asStr_retype (t : Option Json) :
    (retype t).bind Json.asStr = some "null" ↔ t.bind Json.asStr = some "null" := by
  unfold retype
  split
  · rename_i types
    split
    · split
      · simp [Json.asStr]
      · rename_i x hf
        have hmem : x ∈ types.filter (!isNullName ·) := by rw [hf]; exact List.mem_singleton_self _
        have hx : x.asStr ≠ some "null" := by simpa [isNullName] using List.of_mem_filter hmem
        exact iff_of_false hx (by simp [Json.asStr])
      · simp [Json.asStr]
    · rfl
  · rfl

theorem isNullSchema_obj (m : Members) :
    isNullSchema (.obj m) = ((m.lookup "type").bind Json.asStr == some "null") := rfl

theorem isNullSchema_branch {m b : Members} (h : nullableBranch m = some b) : isNullSchema (.obj b) = false := by
  obtain ⟨bs, x, -, -, hf, rfl | ⟨-, rfl⟩⟩ := nullableBranch_eq_some.1 h
  · have hmem : Json.obj b ∈ bs.filter (!isNullSchema ·) := by rw [hf]; exact List.mem_singleton_self _
    simpa using List.of_mem_filter hmem
  · rfl

theorem asStr_effective (m : Members) : (effective m "type").bind Json.asStr = some "null" ↔
    (m.lookup "type").bind Json.asStr = some "null" := by
  cases ht : m.lookup "type" with
  | some t => rw [effective, ht]; rfl
  | none =>
    cases hb : nullableBranch m with
    | none => rw [effective, ht, hb]; rfl
    | some b =>
      have hnull := isNullSchema_branch hb
      rw [isNullSchema_obj, beq_eq_false_iff_ne] at hnull
      rw [effective, ht, hb]
      exact iff_of_false hnull (by simp)

theorem isNullSchema_normalize (v : Json) : isNullSchema (normalizeSchemaValue v) = isNullSchema v := by
  cases v with
  | obj m =>
    have hstr : ∀ t : Option Json, (t.map normalizeSchemaValue).bind Json.asStr = t.bind Json.asStr := by
      intro t
      cases t with
      | none => rfl
      | some t => exact asStr_normalize t
    rw [normalize_obj, Bool.eq_iff_iff, isNullSchema_obj, isNullSchema_obj, beq_iff_eq, beq_iff_eq, lookup_mapMembers,
      lookup_rewriteNode, if_neg (by decide), if_pos rfl, hstr, asStr_retype, asStr_effective]
  | arr xs => rw [normalize_arr]; rfl
  | _ => rw [normalize_scalar] <;> nofun

/-- A type array that names the null type. -/
def NullableType (m : Members) : Prop := ∃ types, m.lookup "type" = some (.arr types) ∧ .str "null" ∈ types

/-- An object in normal form. -/
structure Normal (m : Members) : Prop where
  no_schema : m.lookup "$schema" = none
  no_null_type : ¬ NullableType m
  no_nullable : ¬ NullableAnyOf m

theorem lookup_mapMembers_arr {m : Members} {k : String} {ys : List Json} :
    (mapMembers normalizeSchemaValue m).lookup k = some (.arr ys) ↔
      ∃ xs, m.lookup k = some (.arr xs) ∧ ys = xs.map normalizeSchemaValue := by
  rw [lookup_mapMembers, Option.map_eq_some_iff]
  constructor
  · rintro ⟨v, hv, h⟩
    obtain ⟨xs, rfl, rfl⟩ := normalize_eq_arr h
    exact ⟨xs, hv, rfl⟩
  · rintro ⟨xs, hv, rfl⟩
    exact ⟨_, hv, normalize_arr xs⟩

theorem nullableType_mapMembers (m : Members) : NullableType (mapMembers normalizeSchemaValue m) ↔ NullableType m := by
  have hmem : ∀ xs : List Json, .str "null" ∈ xs.map normalizeSchemaValue ↔ .str "null" ∈ xs := by
    intro xs
    rw [List.mem_map]
    constructor
    · rintro ⟨x, hx, h⟩
      rwa [normalize_eq_scalar h (by nofun) (by nofun)] at hx
    · exact fun hx => ⟨_, hx, normalize_scalar (by nofun) (by nofun)⟩
  constructor
  · rintro ⟨ys, hys, h⟩
    obtain ⟨xs, hxs, rfl⟩ := lookup_mapMembers_arr.1 hys
    exact ⟨xs, hxs, (hmem xs).1 h⟩
  · rintro ⟨xs, hxs, h⟩
    exact ⟨_, lookup_mapMembers_arr.2 ⟨xs, hxs, rfl⟩, (hmem xs).2 h⟩

theorem nullableAnyOf_mapMembers (m : Members) :
    NullableAnyOf (mapMembers normalizeSchemaValue m) ↔ NullableAnyOf m := by
  have hcount : ∀ bs : List Json, (bs.map normalizeSchemaValue).countP isNullSchema = bs.countP isNullSchema := by
    intro bs
    rw [List.countP_map]
    exact List.countP_congr fun b _ => by rw [Function.comp, isNullSchema_normalize]
  have hfilter : ∀ bs : List Json, (bs.map normalizeSchemaValue).filter (!isNullSchema ·) =
      (bs.filter (!isNullSchema ·)).map normalizeSchemaValue := by
    intro bs
    rw [List.filter_map]
    congr 1
    exact List.filter_congr fun b _ => by rw [Function.comp, isNullSchema_normalize]
  constructor
  · rintro ⟨ys, b, hys, hc, hf, hb⟩
    obtain ⟨xs, hxs, rfl⟩ := lookup_mapMembers_arr.1 hys
    rw [hcount] at hc
    rw [hfilter] at hf
    obtain ⟨x, hx, rfl⟩ := List.map_eq_singleton_iff.1 hf
    refine ⟨xs, x, hxs, hc, hx, ?_⟩
    rcases hb with ⟨o, ho⟩ | hb
    · obtain ⟨o', rfl, -⟩ := normalize_eq_obj ho
      exact .inl ⟨o', rfl⟩
    · exact .inr (normalize_eq_scalar hb (by nofun) (by nofun))
  · rintro ⟨xs, x, hxs, hc, hf, hx⟩
    refine ⟨_, normalizeSchemaValue x, lookup_mapMembers_arr.2 ⟨xs, hxs, rfl⟩, (hcount xs).trans hc,
      by rw [hfilter, hf]; rfl, ?_⟩
    rcases hx with ⟨o, rfl⟩ | rfl
    · exact .inl ⟨_, normalize_obj o⟩
    · exact .inr (normalize_scalar (by nofun) (by nofun))

theorem normal_mapMembers (m : Members) : Normal (mapMembers normalizeSchemaValue m) ↔ Normal m := by
  have hschema : (mapMembers normalizeSchemaValue m).lookup "$schema" = none ↔ m.lookup "$schema" = none := by
    rw [lookup_mapMembers, Option.map_eq_none_iff]
  constructor
  · rintro ⟨h1, h2, h3⟩
    exact ⟨hschema.1 h1, mt (nullableType_mapMembers m).2 h2, mt (nullableAnyOf_mapMembers m).2 h3⟩
  · rintro ⟨h1, h2, h3⟩
    exact ⟨hschema.2 h1, mt (nullableType_mapMembers m).1 h2, mt (nullableAnyOf_mapMembers m).1 h3⟩

/-! ## When rewriting an object once is enough -/

/-- Neither the branch a schema is collapsed to nor the one type left of a type array is to be rewritten again. -/
structure Settles (m : Members) : Prop where
  branch : ∀ b, nullableBranch m = some b → ¬ NullableAnyOf b
  types : ∀ types inner, effective m "type" = some (.arr types) → .str "null" ∈ types →
    types.filter (!isNullName ·) = [.arr inner] → .str "null" ∉ inner

theorem anyOf_rewriteNode (m : Members) :
    NullableAnyOf (rewriteNode m) ↔ ∃ b, nullableBranch m = some b ∧ NullableAnyOf b := by
  have hlookup : (rewriteNode m).lookup "anyOf" = ((nullableAnyOfReplacement m).getD m).lookup "anyOf" := by
    rw [lookup_rewriteNode, if_neg (by decide), if_neg (by decide)]
  cases hb : nullableBranch m with
  | none =>
    rw [collapse_none hb] at hlookup
    rw [NullableAnyOf, hlookup]
    exact iff_of_false (fun h => nullableAnyOf_iff.1 h hb) (by simp)
  | some b =>
    rw [lookup_collapse hb, if_pos rfl] at hlookup
    rw [NullableAnyOf, hlookup]
    simp [NullableAnyOf]

theorem type_rewriteNode (m : Members) :
    NullableType (rewriteNode m) ↔ ∃ types inner, effective m "type" = some (.arr types) ∧ .str "null" ∈ types ∧
      types.filter (!isNullName ·) = [.arr inner] ∧ .str "null" ∈ inner := by
  rw [NullableType, lookup_rewriteNode, if_neg (by decide), if_pos rfl]
  constructor
  · rintro ⟨ys, hys, hnull⟩
    unfold retype at hys
    split at hys
    · rename_i types he
      split at hys
      · rename_i hany
        have hnone : .str "null" ∉ types.filter (!isNullName ·) := by
          intro hmem
          have := List.of_mem_filter hmem
          simp [isNullName_iff.2 rfl] at this
        split at hys
        · cases hys
        · rename_i x hf
          obtain rfl := Option.some.inj hys
          exact ⟨types, ys, he, any_isNullName.1 hany, hf, hnull⟩
        · obtain rfl := Json.arr.inj (Option.some.inj hys)
          exact (hnone hnull).elim
      · rename_i hany
        obtain rfl := Json.arr.inj (Option.some.inj hys)
        exact (hany (any_isNullName.2 hnull)).elim
    · rename_i hne
      exact (hne ys hys).elim
  · rintro ⟨types, inner, he, hnull, hf, hin⟩
    refine ⟨inner, ?_, hin⟩
    rw [he, retype, if_pos (any_isNullName.2 hnull), hf]

theorem settles_iff (m : Members) : Settles m ↔ Normal (rewriteNode m) := by
  have hschema : (rewriteNode m).lookup "$schema" = none := by rw [lookup_rewriteNode, if_pos rfl]
  constructor
  · rintro ⟨hb, ht⟩
    refine ⟨hschema, fun h => ?_, fun h => ?_⟩
    · obtain ⟨types, inner, he, hnull, hf, hin⟩ := (type_rewriteNode m).1 h
      exact ht types inner he hnull hf hin
    · obtain ⟨b, hm, hn⟩ := (anyOf_rewriteNode m).1 h
      exact hb b hm hn
  · rintro ⟨-, ht, hb⟩
    exact ⟨fun b hm hn => hb ((anyOf_rewriteNode m).2 ⟨b, hm, hn⟩),
      fun types inner he hnull hf hin => ht ((type_rewriteNode m).2 ⟨types, inner, he, hnull, hf, hin⟩)⟩

/-- The values inside `v`, itself included. -/
inductive Contains : Json → Json → Prop
  | here (v : Json) : Contains v v
  | member {m : Members} {k : String} {c u : Json} : (k, c) ∈ m → Contains c u → Contains (.obj m) u
  | item {xs : List Json} {x u : Json} : x ∈ xs → Contains x u → Contains (.arr xs) u

/-- The values the traversal of `v` comes to. -/
inductive Visits : Json → Json → Prop
  | here (v : Json) : Visits v v
  | member {m : Members} {k : String} {c u : Json} : (k, c) ∈ rewriteNode m → Visits c u → Visits (.obj m) u
  | item {xs : List Json} {x u : Json} : x ∈ xs → Visits x u → Visits (.arr xs) u

theorem contains_of_visits {v u : Json} (h : Visits v u) :
    Contains (normalizeSchemaValue v) (normalizeSchemaValue u) := by
  induction h with
  | here v => exact .here _
  | member hm _ ih =>
    rw [normalize_obj]
    exact .member (List.mem_map_of_mem hm) ih
  | item hx _ ih =>
    rw [normalize_arr]
    exact .item (List.mem_map_of_mem hx) ih

/-- The result holds nothing but the results of what was visited. -/
theorem visits_of_contains {v u : Json} (h : Contains (normalizeSchemaValue v) u) :
    ∃ x, Visits v x ∧ u = normalizeSchemaValue x := by
  generalize hw : normalizeSchemaValue v = w at h
  induction h generalizing v with
  | here => exact ⟨v, .here v, hw.symm⟩
  | member hm _ ih =>
    obtain ⟨m', rfl, rfl⟩ := normalize_eq_obj hw
    obtain ⟨kv, hkv, heq⟩ := List.mem_map.1 hm
    obtain ⟨-, rfl⟩ := Prod.mk.inj heq
    obtain ⟨x, hx, hu⟩ := ih rfl
    exact ⟨x, .member hkv hx, hu⟩
  | item hx _ ih =>
    obtain ⟨xs, rfl, rfl⟩ := normalize_eq_arr hw
    obtain ⟨y, hy, rfl⟩ := List.mem_map.1 hx
    obtain ⟨x, hx, hu⟩ := ih rfl
    exact ⟨x, .item hy hx, hu⟩

theorem normal_form_iff (v : Json) :
    (∀ m, Contains (normalizeSchemaValue v) (.obj m) → Normal m) ↔ ∀ m, Visits v (.obj m) → Settles m := by
  constructor
  · intro h m hm
    have hc := contains_of_visits hm
    rw [normalize_obj] at hc
    exact (settles_iff m).2 ((normal_mapMembers _).1 (h _ hc))
  · intro h m hm
    obtain ⟨x, hx, hu⟩ := visits_of_contains hm
    obtain ⟨m', rfl, rfl⟩ := normalize_eq_obj hu.symm
    exact (normal_mapMembers _).2 ((settles_iff m').1 (h m' hx))

theorem rewriteNode_normal {m : Members} (h : Normal m) : rewriteNode m = m := by
  have hbranch : nullableBranch m = none := by
    by_contra hne
    exact h.no_nullable (nullableAnyOf_iff.2 hne)
  have htype : nullableTypeArrayReplacement m = none := by
    unfold nullableTypeArrayReplacement
    split
    · rename_i types ht
      exact if_neg fun hany => h.no_null_type ⟨types, ht, any_isNullName.1 hany⟩
    · rfl
  simp only [rewriteNode, collapse_none hbranch, remove_eq_self h.no_schema, htype]

/-- By induction on the size of the value. -/
theorem normalize_normal {v : Json} (h : ∀ m, Contains v (.obj m) → Normal m) : normalizeSchemaValue v = v := by
  induction hn : sizeOf v using Nat.strongRecOn generalizing v with
  | _ n ih =>
    subst hn
    cases v with
    | obj m =>
      rw [normalize_obj, rewriteNode_normal (h m (.here _))]
      congr 1
      refine (List.map_congr_left fun kv hkv => ?_).trans (List.map_id m)
      have hlt : sizeOf kv.2 < sizeOf (Json.obj m) := by
        have hm := sizeOf_member (k := kv.1) (c := kv.2) hkv
        simp only [Json.obj.sizeOf_spec]
        omega
      exact congrArg (Prod.mk kv.1) (ih _ hlt (fun o ho => h o (.member hkv ho)) rfl)
    | arr xs =>
      rw [normalize_arr]
      congr 1
      refine (List.map_congr_left fun x hx => ?_).trans (List.map_id xs)
      have hlt : sizeOf x < sizeOf (Json.arr xs) := by
        have := List.sizeOf_lt_of_mem hx
        simp only [Json.arr.sizeOf_spec]
        omega
      exact ih _ hlt (fun o ho => h o (.item hx ho)) rfl
    | _ => exact normalize_scalar (by nofun) (by nofun)

/-! ## The names of properties -/

/-- A type array with nothing but null. -/
def OnlyNull (t : Option Json) : Prop := ∃ types, t = some (.arr types) ∧ types ≠ [] ∧ ∀ x ∈ types, x = .str "null"

/-- What a collapsed schema loses: `$schema`, a null default, a type of only null. -/
def Dropped (k : String) (v : Option Json) : Prop :=
  k = "$schema" ∨ k = "default" ∧ v = some .null ∨ k = "type" ∧ OnlyNull v

/-- The rewriting leaves an object its names: it has no `$schema` and no type of only null, and if it is a nullable
`anyOf`, then its default is not null and the branch has an `anyOf` again and no new name but those that are dropped. -/
structure NamesStay (o : Members) : Prop where
  no_schema : o.lookup "$schema" = none
  some_type : ¬ OnlyNull (o.lookup "type")
  branch : ∀ b, nullableBranch o = some b → o.lookup "default" ≠ some .null ∧ b.lookup "anyOf" ≠ none ∧
    ∀ k, b.lookup k ≠ none → o.lookup k = none → Dropped k (b.lookup k)

theorem retype_eq_none (t : Option Json) : retype t = none ↔ t = none ∨ OnlyNull t := by
  constructor
  · intro h
    unfold retype at h
    split at h
    · rename_i types
      split at h
      · rename_i hany
        split at h
        · rename_i hf
          have hnull := any_isNullName.1 hany
          refine .inr ⟨types, rfl, List.ne_nil_of_mem hnull, fun x hx => ?_⟩
          have hx := List.filter_eq_nil_iff.1 hf x hx
          exact isNullName_iff.1 (by simpa using hx)
        · cases h
        · cases h
      · cases h
    · exact .inl h
  · rintro (rfl | ⟨types, rfl, hne, hall⟩)
    · rfl
    · have hany : types.any isNullName := by
        obtain ⟨x, hx⟩ := List.exists_mem_of_ne_nil types hne
        exact any_isNullName.2 (hall x hx ▸ hx)
      have hf : types.filter (!isNullName ·) = [] :=
        List.filter_eq_nil_iff.2 fun x hx => by simp [isNullName_iff.2 (hall x hx)]
      rw [retype, if_pos hany, hf]

theorem dropNull_eq_none (d : Option Json) : dropNull d = none ↔ d = none ∨ d = some .null := by
  unfold dropNull
  split
  · simp
  · rename_i hne
    exact ⟨.inl, fun h => h.elim id fun h => (hne h).elim⟩

theorem lookup_collapsed_eq_none {o b : Members} (hb : nullableBranch o = some b) {k : String} (hk : k ≠ "anyOf") :
    (rewriteNode o).lookup k = none ↔ effective o k = none ∨ Dropped k (effective o k) := by
  rw [lookup_rewriteNode, Dropped]
  by_cases hs : k = "$schema"
  · simp [hs]
  by_cases ht : k = "type"
  · subst ht
    simp [retype_eq_none]
  rw [if_neg hs, if_neg ht, lookup_collapse hb, if_neg hk]
  by_cases hd : k = "default"
  · subst hd
    simp [dropNull_eq_none]
  · simp [hs, ht, hd]

theorem lookup_uncollapsed_eq_none {o : Members} (hb : nullableBranch o = none) (k : String) :
    (rewriteNode o).lookup k = none ↔ o.lookup k = none ∨ k = "$schema" ∨ k = "type" ∧ OnlyNull (o.lookup k) := by
  rw [lookup_rewriteNode, collapse_none hb]
  by_cases hs : k = "$schema"
  · simp [hs]
  by_cases ht : k = "type"
  · subst ht
    simp [retype_eq_none, effective_eq_lookup hb]
  · simp [hs, ht]

/-- The names of the rewritten object are those of `o`. -/
def SameNames (o : Members) : Prop := ∀ k, (rewriteNode o).lookup k = none ↔ o.lookup k = none

theorem namesStay_uncollapsed {o : Members} (hb : nullableBranch o = none) : NamesStay o ↔ SameNames o := by
  simp only [SameNames, lookup_uncollapsed_eq_none hb]
  constructor
  · rintro ⟨hs, ht, -⟩ k
    refine ⟨?_, .inl⟩
    rintro (h | rfl | ⟨rfl, h⟩)
    · exact h
    · exact hs
    · exact (ht h).elim
  · intro h
    refine ⟨(h _).1 (.inr (.inl rfl)), fun ht => ?_, by simp [hb]⟩
    have hnone := (h "type").1 (.inr (.inr ⟨rfl, ht⟩))
    obtain ⟨types, heq, -⟩ := ht
    rw [heq] at hnone
    cases hnone

section

variable {o b : Members} (hb : nullableBranch o = some b)
include hb

theorem effective_collapsed (k : String) : effective o k = (o.lookup k).or (b.lookup k) := by
  rw [effective, hb]
  rfl

theorem anyOf_collapsed : o.lookup "anyOf" ≠ none ∧ (rewriteNode o).lookup "anyOf" = b.lookup "anyOf" := by
  obtain ⟨bs, x, hm, -⟩ := nullableBranch_eq_some.1 hb
  refine ⟨by rw [hm]; simp, ?_⟩
  rw [lookup_rewriteNode, if_neg (by decide), if_neg (by decide), lookup_collapse hb, if_pos rfl]

/-- A name the object has itself is lost only if it is one of those that are dropped. -/
theorem sameNames_own (h : SameNames o) {k : String} (hk : k ≠ "anyOf") :
    ¬ (o.lookup k ≠ none ∧ Dropped k (o.lookup k)) := by
  rintro ⟨hne, hd⟩
  obtain ⟨v, hv⟩ := Option.ne_none_iff_exists'.1 hne
  have heff : effective o k = o.lookup k := by rw [effective_collapsed hb, hv]; rfl
  exact hne ((h k).1 ((lookup_collapsed_eq_none hb hk).2 (.inr (heff ▸ hd))))

theorem namesStay_of_sameNames (h : SameNames o) : NamesStay o := by
  have hschema : o.lookup "$schema" = none := (h _).1 (by rw [lookup_rewriteNode, if_pos rfl])
  refine ⟨hschema, fun ht => ?_, fun b' hb' => ?_⟩
  · refine sameNames_own hb h (k := "type") (by decide) ⟨?_, .inr (.inr ⟨rfl, ht⟩)⟩
    obtain ⟨types, heq, -⟩ := ht
    rw [heq]
    simp
  · obtain rfl : b = b' := Option.some.inj (hb.symm.trans hb')
    obtain ⟨hany, hbranch⟩ := anyOf_collapsed hb
    refine ⟨fun hd => ?_, fun hnone => ?_, fun k hbk ho => ?_⟩
    · exact sameNames_own hb h (k := "default") (by decide) ⟨by rw [hd]; simp, .inr (.inl ⟨rfl, hd⟩)⟩
    · exact hany ((h _).1 (hbranch.trans hnone))
    · have hk : k ≠ "anyOf" := fun hk => hany (hk ▸ ho)
      have heff : effective o k = b.lookup k := by rw [effective_collapsed hb, ho]; rfl
      have hlost := (lookup_collapsed_eq_none hb hk).1 ((h k).2 ho)
      rw [heff] at hlost
      exact hlost.resolve_left hbk

theorem sameNames_of_namesStay (h : NamesStay o) : SameNames o := by
  obtain ⟨hs, ht, hbr⟩ := h
  obtain ⟨hd, ha, hnew⟩ := hbr b hb
  intro k
  by_cases hk : k = "anyOf"
  · subst hk
    rw [(anyOf_collapsed hb).2]
    exact iff_of_false ha (anyOf_collapsed hb).1
  rw [lookup_collapsed_eq_none hb hk, effective_collapsed hb]
  cases ho : o.lookup k with
  | some v =>
    refine iff_of_false ?_ (by simp)
    rintro (h | rfl | ⟨rfl, h⟩ | ⟨rfl, h⟩)
    · simp at h
    · rw [hs] at ho
      cases ho
    · exact hd (ho.trans h)
    · exact ht (ho ▸ h)
  | none =>
    refine iff_of_true ?_ rfl
    by_cases hbk : b.lookup k = none
    · exact .inl hbk
    · exact .inr (hnew k hbk ho)

end

theorem namesStay_iff_sameNames (o : Members) : NamesStay o ↔ SameNames o := by
  cases hb : nullableBranch o with
  | none => exact namesStay_uncollapsed hb
  | some b => exact ⟨sameNames_of_namesStay hb, namesStay_of_sameNames hb⟩

theorem namesStay_iff (o : Members) :
    NamesStay o ↔ ∀ k, (normalizeSchemaValue (.obj o)).get? k = none ↔ (Json.obj o).get? k = none := by
  have hget : ∀ k, (normalizeSchemaValue (.obj o)).get? k = none ↔ (rewriteNode o).lookup k = none := by
    intro k
    rw [normalize_obj, Json.get?, lookup_mapMembers, Option.map_eq_none_iff]
  rw [namesStay_iff_sameNames]
  exact forall_congr' fun k => by rw [hget]; rfl

end Schema

end IdaRs
