import IdaRs.Schema

/-!
# Where normalising puts what is in a schema (`src/server/mod.rs` 5639-5743)

A value in a schema is named by its place. Collapsing an `anyOf` moves the members of the branch into the object that
has it, unless the object has a member of the name itself, and with the null branch go all objects in it. `Goes` follows
a value to its place in the result; `normalize_reaches_normal_form_iff` says for which schemas no object under a
`properties` is lost or loses a name on the way.
-/

namespace IdaRs

namespace Schema

open Serde

/-! ## Places -/

inductive Step
  | member (k : String)
  | item (i : Nat)
deriving DecidableEq, Repr

/-- The value at a place. -/
def valueAt : Json → List Step → Option Json
  | v, [] => some v
  | .obj m, .member k :: p => (m.lookup k).bind (valueAt · p)
  | .arr xs, .item i :: p => xs[i]?.bind (valueAt · p)
  | _, _ => none

theorem valueAt_append (v : Json) (p q : List Step) :
    valueAt v (p ++ q) = (valueAt v p).bind (valueAt · q) := by
  induction p generalizing v with
  | nil => rfl
  | cons s p ih =>
    cases v <;> cases s <;> try rfl
    · rename_i xs i
      show xs[i]?.bind (valueAt · (p ++ q)) = (xs[i]?.bind (valueAt · p)).bind (valueAt · q)
      cases xs[i]? with
      | none => rfl
      | some x => exact ih x
    · rename_i m k
      show (m.lookup k).bind (valueAt · (p ++ q)) = ((m.lookup k).bind (valueAt · p)).bind (valueAt · q)
      cases m.lookup k with
      | none => rfl
      | some c => exact ih c

/-- The member `k` of the object that `m` is collapsed to, and the place it comes from. -/
inductive Source (m : Members) : List Step → String → Json → Prop
  | own {k : String} {c : Json} (h : m.lookup k = some c) (hany : k = "anyOf" → nullableBranch m = none) :
      Source m [.member k] k c
  | branch {bs : List Json} {i : Nat} {b : Members} {k : String} {c : Json} (hm : m.lookup "anyOf" = some (.arr bs))
      (hi : bs[i]? = some (.obj b)) (hb : nullableBranch m = some b) (hown : k = "anyOf" ∨ m.lookup k = none)
      (h : b.lookup k = some c) : Source m [.member "anyOf", .item i, .member k] k c

/-- The member is not dropped and not replaced. -/
structure Stays (m : Members) (k : String) (c : Json) : Prop where
  schema : k ≠ "$schema"
  default : k = "default" → nullableBranch m ≠ none → c ≠ .null
  type : k = "type" → ∀ types, c = .arr types → .str "null" ∉ types

/-- Where an element of a type array is when the null type is out of it. -/
def typePlace (types : List Json) (j : Nat) : List Step :=
  if (types.filter (!isNullName ·)).length = 1 then [] else [.item ((types.take j).countP (!isNullName ·))]

/-- The traversal of a value takes what is at one place, which is `y`, to another. -/
inductive Goes : Json → List Step → List Step → Json → Prop
  | here (v : Json) : Goes v [] [] v
  | item {xs : List Json} {i : Nat} {x y : Json} {p q : List Step} (h : xs[i]? = some x) (hx : Goes x p q y) :
      Goes (.arr xs) (.item i :: p) (.item i :: q) y
  | member {m : Members} {pre p q : List Step} {k : String} {c y : Json} (h : Source m pre k c) (hk : Stays m k c)
      (hc : Goes c p q y) : Goes (.obj m) (pre ++ p) (.member k :: q) y
  | typeItem {m : Members} {pre p q : List Step} {types : List Json} {j : Nat} {t y : Json}
      (h : Source m pre "type" (.arr types)) (hnull : .str "null" ∈ types) (hj : types[j]? = some t)
      (hne : t ≠ .str "null") (ht : Goes t p q y) :
      Goes (.obj m) (pre ++ .item j :: p) (.member "type" :: (typePlace types j ++ q)) y

/-- The traversal comes to what is at a place: on the way to it there is no `$schema`, no null branch of an `anyOf` that
is collapsed and no member of its other branch that the object has itself. -/
inductive Reached : Json → List Step → Prop
  | here (v : Json) : Reached v []
  | item {xs : List Json} {i : Nat} {x : Json} {p : List Step} (h : xs[i]? = some x) (hx : Reached x p) :
      Reached (.arr xs) (.item i :: p)
  | member {m : Members} {pre p : List Step} {k : String} {c : Json} (h : Source m pre k c) (hk : Stays m k c)
      (hc : Reached c p) : Reached (.obj m) (pre ++ p)
  | typeItem {m : Members} {pre p : List Step} {types : List Json} {j : Nat} {t : Json}
      (h : Source m pre "type" (.arr types)) (hnull : .str "null" ∈ types) (hj : types[j]? = some t)
      (hne : t ≠ .str "null") (ht : Reached t p) : Reached (.obj m) (pre ++ .item j :: p)

/-! ## What is found there -/

section

variable {m : Members} {pre : List Step} {k : String} {c : Json}

theorem retype_eq_self (h : ∀ types, c = .arr types → .str "null" ∉ types) : retype (some c) = some c := by
  cases c with
  | arr types => rw [retype, if_neg fun hany => h types rfl (any_isNullName.1 hany)]
  | _ => rfl

theorem Source.valueAt (h : Source m pre k c) : valueAt (.obj m) pre = some c := by
  cases h with
  | own h _ =>
    show (m.lookup k).bind some = some c
    rw [h]
    rfl
  | @branch bs i b _ _ hm hi _ _ h =>
    show (m.lookup "anyOf").bind (fun v => Schema.valueAt v [.item i, .member k]) = some c
    rw [hm]
    show bs[i]?.bind (fun v => Schema.valueAt v [.member k]) = some c
    rw [hi]
    show (b.lookup k).bind some = some c
    rw [h]
    rfl

theorem Source.lookup (h : Source m pre k c) (hk : Stays m k c) : (rewriteNode m).lookup k = some c := by
  have heff : k ≠ "anyOf" → effective m k = some c := by
    intro hany
    cases h with
    | own h _ => rw [effective, h]; rfl
    | branch _ _ hb hown h =>
      rw [effective, hown.resolve_left hany, hb]
      exact h
  rw [lookup_rewriteNode, if_neg hk.schema]
  by_cases htype : k = "type"
  · subst htype
    rw [if_pos rfl, heff (by decide), retype_eq_self (hk.type rfl)]
  · rw [if_neg htype]
    cases hb : nullableBranch m with
    | none =>
      rw [collapse_none hb]
      cases h with
      | own h _ => exact h
      | branch _ _ hb' _ _ => rw [hb] at hb'; cases hb'
    | some b =>
      rw [lookup_collapse hb]
      by_cases hany : k = "anyOf"
      · rw [if_pos hany]
        cases h with
        | own _ hnone => rw [hnone hany] at hb; cases hb
        | branch _ _ hb' _ h => exact Option.some.inj (hb'.symm.trans hb) ▸ h
      · rw [if_neg hany, heff hany]
        by_cases hdef : k = "default"
        · have hne := hk.default hdef (by rw [hb]; simp)
          rw [if_pos hdef, dropNull]
          intro hnull
          exact hne (Option.some.inj hnull)
        · rw [if_neg hdef]

theorem Source.type {types : List Json} (h : Source m pre "type" (.arr types)) :
    (rewriteNode m).lookup "type" = retype (some (.arr types)) := by
  have heff : effective m "type" = some (.arr types) := by
    cases h with
    | own h _ => rw [effective, h]; rfl
    | branch _ _ hb hown h =>
      rw [effective, hown.resolve_left (by decide), hb]
      exact h
  rw [lookup_rewriteNode, if_neg (by decide), if_pos rfl, heff]

end

theorem getElem?_filter_take {α : Type} (f : α → Bool) {xs : List α} {j : Nat} {x : α} (h : xs[j]? = some x)
    (hx : f x = true) : (xs.filter f)[(xs.take j).countP f]? = some x := by
  induction xs generalizing j with
  | nil => cases h
  | cons y xs ih =>
    cases j with
    | zero =>
      obtain rfl : y = x := Option.some.inj h
      rw [List.filter_cons_of_pos hx]
      rfl
    | succ j =>
      rw [List.take_succ_cons]
      by_cases hy : f y = true
      · rw [List.filter_cons_of_pos hy, List.countP_cons_of_pos hy]
        exact ih h
      · rw [List.filter_cons_of_neg hy, List.countP_cons_of_neg hy]
        exact ih h

/-- What is left of a type array has its elements where `typePlace` says. -/
theorem valueAt_typePlace {types : List Json} {j : Nat} {t : Json} (hnull : .str "null" ∈ types)
    (hj : types[j]? = some t) (hne : t ≠ .str "null") :
    ∃ r, retype (some (.arr types)) = some r ∧
      valueAt (normalizeSchemaValue r) (typePlace types j) = some (normalizeSchemaValue t) := by
  have hkeep : (!isNullName t) = true := by simpa using fun h => hne (isNullName_iff.1 h)
  have hget := getElem?_filter_take (!isNullName ·) hj hkeep
  rw [retype, if_pos (any_isNullName.2 hnull), typePlace]
  split
  · rename_i hf
    rw [hf] at hget
    cases hget
  · rename_i x hf
    rw [hf] at hget ⊢
    obtain ⟨hlt, hx⟩ := List.getElem?_eq_some_iff.1 hget
    refine ⟨x, rfl, ?_⟩
    have hzero : (types.take j).countP (!isNullName ·) = 0 := by simpa using hlt
    rw [if_pos (show [x].length = 1 from rfl)]
    simp only [hzero, List.getElem_cons_zero] at hx
    rw [hx]
    rfl
  · rename_i hnil hone
    refine ⟨_, rfl, ?_⟩
    rw [if_neg fun hlen => ?_, normalize_arr]
    · show (List.map _ _)[_]?.bind some = _
      rw [List.getElem?_map, hget]
      rfl
    · obtain ⟨x, hx⟩ := List.length_eq_one_iff.1 hlen
      exact hone x hx

/-- What goes to a place is found there, rewritten. -/
theorem Goes.found {v y : Json} {p q : List Step} (h : Goes v p q y) :
    valueAt v p = some y ∧ valueAt (normalizeSchemaValue v) q = some (normalizeSchemaValue y) := by
  induction h with
  | here v => exact ⟨rfl, rfl⟩
  | @item xs i x y p q hx _ ih =>
    refine ⟨?_, ?_⟩
    · show xs[i]?.bind (valueAt · p) = some y
      rw [hx]
      exact ih.1
    · rw [normalize_arr]
      show (xs.map normalizeSchemaValue)[i]?.bind (valueAt · q) = some _
      rw [List.getElem?_map, hx]
      exact ih.2
  | @member m pre p q k c y hsource hk _ ih =>
    refine ⟨by rw [valueAt_append, hsource.valueAt]; exact ih.1, ?_⟩
    rw [normalize_obj]
    show ((mapMembers normalizeSchemaValue (rewriteNode m)).lookup k).bind (valueAt · q) = some _
    rw [lookup_mapMembers, hsource.lookup hk]
    exact ih.2
  | @typeItem m pre p q types j t y hsource hnull hj hne _ ih =>
    refine ⟨?_, ?_⟩
    · rw [valueAt_append, hsource.valueAt]
      show types[j]?.bind (valueAt · p) = some y
      rw [hj]
      exact ih.1
    · obtain ⟨r, hr, hat⟩ := valueAt_typePlace hnull hj hne
      rw [normalize_obj]
      show ((mapMembers normalizeSchemaValue (rewriteNode m)).lookup "type").bind (valueAt · _) = some _
      rw [lookup_mapMembers, hsource.type, hr]
      show valueAt (normalizeSchemaValue r) (typePlace types j ++ q) = _
      rw [valueAt_append, hat]
      exact ih.2

theorem Goes.reached {v y : Json} {p q : List Step} (h : Goes v p q y) : Reached v p := by
  induction h with
  | here v => exact .here v
  | item hx _ ih => exact .item hx ih
  | member hsource hk _ ih => exact .member hsource hk ih
  | typeItem hsource hnull hj hne _ ih => exact .typeItem hsource hnull hj hne ih

theorem Reached.goes {v : Json} {p : List Step} (h : Reached v p) {y : Json} (hy : valueAt v p = some y) :
    ∃ q, Goes v p q y := by
  induction h with
  | here v =>
    obtain rfl := Option.some.inj hy
    exact ⟨[], .here v⟩
  | @item xs i x p hx _ ih =>
    have hy : xs[i]?.bind (valueAt · p) = some y := hy
    rw [hx] at hy
    obtain ⟨q, hq⟩ := ih hy
    exact ⟨_, .item hx hq⟩
  | @member m pre p k c hsource hk _ ih =>
    rw [valueAt_append, hsource.valueAt] at hy
    obtain ⟨q, hq⟩ := ih hy
    exact ⟨_, .member hsource hk hq⟩
  | @typeItem m pre p types j t hsource hnull hj hne _ ih =>
    rw [valueAt_append, hsource.valueAt] at hy
    have hy : types[j]?.bind (valueAt · p) = some y := hy
    rw [hj] at hy
    obtain ⟨q, hq⟩ := ih hy
    exact ⟨_, .typeItem hsource hnull hj hne hq⟩

theorem Goes.nil {v y : Json} {p q : List Step} (h : Goes v p q y) (hp : p = []) : q = [] := by
  cases h with
  | here => rfl
  | item => cases hp
  | member hsource _ _ =>
    obtain ⟨hpre, -⟩ := List.append_eq_nil_iff.1 hp
    cases hsource <;> cases hpre
  | typeItem =>
    obtain ⟨-, hitem⟩ := List.append_eq_nil_iff.1 hp
    cases hitem

/-- A value that stands under a name stands under the name in the result. -/
theorem Goes.under {v y : Json} {p p' q : List Step} {k : String} (h : Goes v p' q y) (hp : p' = p ++ [.member k]) :
    ∃ q', q = q' ++ [.member k] := by
  induction h generalizing p with
  | here v => exact absurd hp.symm (by simp)
  | @item xs i x y p₁ q _ _ ih =>
    rcases List.eq_nil_or_concat' p₁ with rfl | ⟨p₂, s, rfl⟩
    · -- the one step is to an item
      rw [← List.nil_append [Step.item i]] at hp
      obtain ⟨-, hs⟩ := List.append_inj' hp rfl
      cases hs
    · rw [← List.cons_append] at hp
      obtain ⟨-, hs⟩ := List.append_inj' hp rfl
      obtain ⟨q', rfl⟩ := ih (p := p₂) (by rw [hs])
      exact ⟨_ :: q', rfl⟩
  | @member m pre p₁ q j c y hsource _ hc ih =>
    rcases List.eq_nil_or_concat' p₁ with rfl | ⟨p₂, s, rfl⟩
    · have hlast : pre.getLast? = some (.member k) := by
        rw [List.append_nil] at hp
        rw [hp, List.getLast?_concat]
      obtain rfl : j = k := by
        cases hsource with
        | own => exact Step.member.inj (Option.some.inj hlast)
        | branch => exact Step.member.inj (Option.some.inj hlast)
      rw [hc.nil rfl]
      exact ⟨[], rfl⟩
    · rw [← List.append_assoc] at hp
      obtain ⟨-, hs⟩ := List.append_inj' hp rfl
      obtain ⟨q', rfl⟩ := ih (p := p₂) (by rw [hs])
      exact ⟨_ :: q', rfl⟩
  | @typeItem m pre p₁ q types j t y _ _ _ _ _ ih =>
    rcases List.eq_nil_or_concat' p₁ with rfl | ⟨p₂, s, rfl⟩
    · obtain ⟨-, hs⟩ := List.append_inj' hp rfl
      cases hs
    · rw [← List.cons_append, ← List.append_assoc] at hp
      obtain ⟨-, hs⟩ := List.append_inj' hp rfl
      obtain ⟨q', rfl⟩ := ih (p := p₂) (by rw [hs])
      exact ⟨.member "type" :: (typePlace types j ++ q'), by simp⟩

/-! ## The names of properties -/

/-- Each object under a `properties` goes to a place under a `properties`, and has the same names there. -/
def KeepsNames (v : Json) : Prop :=
  ∀ p o, valueAt v (p ++ [.member "properties"]) = some (.obj o) →
    ∃ q o', Goes v (p ++ [.member "properties"]) (q ++ [.member "properties"]) (.obj o) ∧
      valueAt (normalizeSchemaValue v) (q ++ [.member "properties"]) = some (.obj o') ∧
      ∀ k, o'.lookup k = none ↔ o.lookup k = none

/-- The values for which one traversal is enough, and in which it comes to all properties. -/
structure Portable (v : Json) : Prop where
  settles : ∀ m, Visits v (.obj m) → Settles m
  properties : ∀ p o, valueAt v (p ++ [.member "properties"]) = some (.obj o) →
    Reached v (p ++ [.member "properties"]) ∧ NamesStay o

/-- The names of an object that goes to a place, there. -/
theorem Goes.names {v : Json} {p q : List Step} {o : Members} (h : Goes v p q (.obj o)) :
    ∃ o', valueAt (normalizeSchemaValue v) q = some (.obj o') ∧
      ((∀ k, o'.lookup k = none ↔ o.lookup k = none) ↔ NamesStay o) := by
  refine ⟨_, by rw [h.found.2, normalize_obj], ?_⟩
  rw [namesStay_iff, normalize_obj]
  rfl

theorem keepsNames_iff (v : Json) : KeepsNames v ↔
    ∀ p o, valueAt v (p ++ [.member "properties"]) = some (.obj o) →
      Reached v (p ++ [.member "properties"]) ∧ NamesStay o := by
  constructor
  · intro h p o ho
    obtain ⟨q, o', hgoes, hat, hnames⟩ := h p o ho
    obtain ⟨o'', hat', hiff⟩ := hgoes.names
    rw [hat] at hat'
    obtain rfl := Json.obj.inj (Option.some.inj hat')
    exact ⟨hgoes.reached, hiff.1 hnames⟩
  · intro h p o ho
    obtain ⟨hreached, hstay⟩ := h p o ho
    obtain ⟨q, hgoes⟩ := hreached.goes ho
    obtain ⟨q, rfl⟩ := hgoes.under rfl
    obtain ⟨o', hat, hiff⟩ := hgoes.names
    exact ⟨q, o', hgoes, hat, hiff.2 hstay⟩

/-- Normalising reaches a normal form, which a second time does not change, and keeps the names of properties, exactly
for the portable values. -/
theorem normalize_reaches_normal_form_iff (v : Json) :
    ((∀ m, Contains (normalizeSchemaValue v) (.obj m) → Normal m) ∧
      normalizeSchemaValue (normalizeSchemaValue v) = normalizeSchemaValue v ∧ KeepsNames v) ↔ Portable v := by
  constructor
  · rintro ⟨hn, -, hk⟩
    exact ⟨(normal_form_iff v).1 hn, (keepsNames_iff v).1 hk⟩
  · rintro ⟨hs, hp⟩
    have hn := (normal_form_iff v).2 hs
    exact ⟨hn, normalize_normal hn, (keepsNames_iff v).2 hp⟩

/-- `{"type": t}`. -/
def ofType (t : String) : Json := .obj [("type", .str t)]

/-- `{"anyOf": [v, {"type": "null"}]}`. -/
def nullable (v : Json) : Json := .obj [("anyOf", .arr [v, ofType "null"])]

theorem normalize_ofType (t : String) : normalizeSchemaValue (ofType t) = ofType t := by
  rw [ofType, normalize_obj]
  show Json.obj [("type", normalizeSchemaValue (.str t))] = _
  rw [normalize_scalar (by nofun) (by nofun)]

/-- `{"properties": {k: {}}}`. -/
def ofProperty (k : String) : List (String × Json) := [("properties", .obj [(k, .obj [])])]

/-- An option of an option keeps a nullable `anyOf`; a property of the name `$schema` is lost, and so are the properties
of a branch where the object has its own. -/
theorem one_traversal_not_enough :
    normalizeSchemaValue (nullable (nullable (ofType "string"))) = nullable (ofType "string") ∧
    NullableAnyOf [("anyOf", .arr [ofType "string", ofType "null"])] ∧
    normalizeSchemaValue (nullable (ofType "string")) = ofType "string" ∧
    normalizeSchemaValue (.obj [("properties", .obj [("$schema", ofType "string")])]) =
      .obj [("properties", .obj [])] ∧
    normalizeSchemaValue (.obj (("anyOf", .arr [.obj (ofProperty "a"), ofType "null"]) :: ofProperty "b")) =
      .obj (ofProperty "b") := by
  refine ⟨?_, ⟨_, _, rfl, rfl, rfl, .inl ⟨_, rfl⟩⟩, ?_, ?_, ?_⟩
  · rw [nullable, normalize_obj]
    show Json.obj [("anyOf", normalizeSchemaValue (.arr [ofType "string", ofType "null"]))] = _
    rw [normalize_arr]
    simp [normalize_ofType, nullable]
  · rw [nullable, normalize_obj]
    show Json.obj [("type", normalizeSchemaValue (.str "string"))] = _
    rw [normalize_scalar (by nofun) (by nofun)]
    rfl
  · rw [normalize_obj]
    show Json.obj [("properties", normalizeSchemaValue (.obj [("$schema", ofType "string")]))] = _
    rw [normalize_obj]
    rfl
  · rw [normalize_obj]
    show Json.obj [("properties", normalizeSchemaValue (.obj [("b", .obj [])]))] = _
    rw [normalize_obj]
    show Json.obj [("properties", .obj [("b", normalizeSchemaValue (.obj []))])] = _
    rw [normalize_obj]
    rfl

end Schema

end IdaRs
