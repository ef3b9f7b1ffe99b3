import IdaRs.FindInsns

/-!
# Bounds of the searches (`src/ida/handlers/search.rs` 45-269)

`handle_find_bytes` and `handle_find_insns` look at the limit before they add a match, `handle_search_text` and
`handle_search_imm` after it: these find one match when none is asked for. `handle_search_imm` asks idalib for the low
32 bits of the value. `search_sound_iff` says exactly when the answers are what was asked for.
-/

namespace IdaRs

namespace Handlers

open Backend Serde

/-- The iterators of idalib yield the addresses with the text, and those with an immediate of the value: these one
after the other, in an order for each value. -/
structure YieldsMatches (db : Database) (textAt : String → Nat → Prop) (immAt : Nat → Nat → Prop)
    (before : Nat → Nat → Nat → Prop) : Prop where
  text : ∀ t a, a ∈ db.findText t ↔ textAt t a
  imm : ∀ v, v < 2 ^ 32 → ∀ a, a ∈ db.findImm v ↔ immAt v a
  asymm : ∀ v a b, before v a b → ¬ before v b a
  inOrder : ∀ v, v < 2 ^ 32 → (db.findImm v).Pairwise (before v)

/-- The addresses with an immediate of `v` that come before `a`. -/
def earlier (immAt : Nat → Nat → Prop) (before : Nat → Nat → Nat → Prop) (v a : Nat) : Set Nat :=
  {b | immAt v b ∧ before v b a}

/-! ### Each search -/

section

variable {n : Nat}

theorem takeMatches_nil (hits : List Nat) : takeMatches n hits [] = (hits.take (max 1 n)).map hexLit := by
  by_cases hn : 1 ≤ n
  · have hroom : ([] : List String).length < n := hn
    rw [takeMatches_eq hits hroom, List.nil_append, List.map_take, max_eq_right hn]
  · obtain rfl : n = 0 := by omega
    cases hits with
    | nil => rfl
    | cons a as => rfl

theorem replyMatches_foundReply (found : List String) :
    replyMatches (.ok (foundReply found)) = found.map .str := rfl

theorem searchText_matches (db : Database) (text : String) :
    replyMatches (handleSearchText db text n) = (((db.findText text).take (max 1 n)).map hexLit).map .str := by
  rw [handleSearchText, takeMatches_nil, replyMatches_foundReply]

theorem searchImm_matches (db : Database) (imm : Nat) : replyMatches (handleSearchImm db imm n) =
    (((db.findImm (imm % 2 ^ 32)).take (max 1 n)).map hexLit).map .str := by
  rw [handleSearchImm, takeMatches_nil, replyMatches_foundReply]

theorem take_bounded_iff {hits : List Nat} :
    (((hits.take (max 1 n)).map hexLit).map Json.str).length ≤ n ↔ 1 ≤ n ∨ hits = [] := by
  rw [List.length_map, List.length_map, List.length_take]
  cases hits with
  | nil => simp
  | cons a as =>
    rw [List.length_cons]
    simp only [reduceCtorEq, or_false]
    omega

theorem findBytes_bounded (db : Database) (pattern : String) :
    (replyMatches (handleFindBytes db pattern n)).length ≤ n := by
  unfold handleFindBytes
  cases parsePattern pattern with
  | error e => exact Nat.zero_le _
  | ok pat =>
    by_cases hnil : pat = []
    · subst hnil
      exact Nat.zero_le _
    · have hfound := @adds_scanSegments db pat n db.segments [] (Nat.zero_le _)
      simp only [bind, Except.bind, if_neg hnil]
      show ((scanSegments db pat n db.segments []).map Json.str).length ≤ n
      rw [hfound, List.length_map]
      exact List.length_take_le ..

end

/-! ### All searches -/

/-- No search returns more than `n` matches, and what is returned for an immediate holds it. -/
structure SoundAndBounded (immAt : Nat → Nat → Prop) (db : Database) (idb : Option CodeDb) (text pattern : String)
    (imm : Nat) (patterns : List String) (caseInsensitive : Bool) (n : Nat) : Prop where
  textBounded : (replyMatches (handleSearchText db text n)).length ≤ n
  immBounded : (replyMatches (handleSearchImm db imm n)).length ≤ n
  bytesBounded : (replyMatches (handleFindBytes db pattern n)).length ≤ n
  insnsBounded : (replyMatches (handleFindInsns idb patterns n caseInsensitive)).length ≤ n
  immSound : ∀ a, Json.str (hexLit a) ∈ replyMatches (handleSearchImm db imm n) → immAt imm a

/-- The addresses in the answer to a search for an immediate. -/
theorem mem_searchImm {db : Database} {imm n a : Nat} :
    Json.str (hexLit a) ∈ replyMatches (handleSearchImm db imm n) ↔
      a ∈ (db.findImm (imm % 2 ^ 32)).take (max 1 n) := by
  rw [searchImm_matches, List.map_map]
  refine ⟨fun h => ?_, fun h => List.mem_map_of_mem h⟩
  obtain ⟨b, hb, heq⟩ := List.mem_map.1 h
  exact hexLit_injective (Json.str.inj heq) ▸ hb

/-- What a search with a limit returns: the matches that fewer matches than the limit come before. -/
theorem YieldsMatches.mem_take_iff {db : Database} {textAt : String → Nat → Prop} {immAt : Nat → Nat → Prop}
    {before : Nat → Nat → Nat → Prop} (h : YieldsMatches db textAt immAt before) {v : Nat} (hv : v < 2 ^ 32) {k a : Nat} :
    a ∈ (db.findImm v).take k ↔ immAt v a ∧ (earlier immAt before v a).ncard < k := by
  have hset : earlier immAt before v a = {b | b ∈ db.findImm v ∧ before v b a} := by
    ext b
    show immAt v b ∧ before v b a ↔ b ∈ db.findImm v ∧ before v b a
    rw [h.imm v hv]
  rw [Window.mem_take_iff_ncard (h.asymm v) (h.inOrder v hv), h.imm v hv, hset]

/-- The searches are bounded exactly where a match is asked for or there is none, and a search for an immediate is
right exactly where the value has 32 bits or the first addresses with its low 32 bits also hold the value itself. -/
theorem search_sound_iff {db : Database} {textAt : String → Nat → Prop} {immAt : Nat → Nat → Prop}
    {before : Nat → Nat → Nat → Prop} (h : YieldsMatches db textAt immAt before) (idb : Option CodeDb)
    (text pattern : String) (imm : Nat) (patterns : List String) (caseInsensitive : Bool) (n : Nat) :
    SoundAndBounded immAt db idb text pattern imm patterns caseInsensitive n ↔
      (1 ≤ n ∨ ((∀ a, ¬ textAt text a) ∧ ∀ a, ¬ immAt (imm % 2 ^ 32) a)) ∧
      (imm < 2 ^ 32 ∨ ∀ a, immAt (imm % 2 ^ 32) a → (earlier immAt before (imm % 2 ^ 32) a).ncard < max 1 n →
        immAt imm a) := by
  have hlow : imm % 2 ^ 32 < 2 ^ 32 := Nat.mod_lt _ (by decide)
  have htext : db.findText text = [] ↔ ∀ a, ¬ textAt text a := by
    simp only [List.eq_nil_iff_forall_not_mem, h.text]
  have himm : db.findImm (imm % 2 ^ 32) = [] ↔ ∀ a, ¬ immAt (imm % 2 ^ 32) a := by
    simp only [List.eq_nil_iff_forall_not_mem, h.imm _ hlow]
  have hboundText : (replyMatches (handleSearchText db text n)).length ≤ n ↔ 1 ≤ n ∨ ∀ a, ¬ textAt text a := by
    rw [searchText_matches, take_bounded_iff, htext]
  have hboundImm : (replyMatches (handleSearchImm db imm n)).length ≤ n ↔ 1 ≤ n ∨ ∀ a, ¬ immAt (imm % 2 ^ 32) a := by
    rw [searchImm_matches, take_bounded_iff, himm]
  constructor
  · intro hs
    refine ⟨?_, .inr fun a hlowAt hfirst =>
      hs.immSound a (mem_searchImm.2 ((h.mem_take_iff hlow).2 ⟨hlowAt, hfirst⟩))⟩
    rcases hboundText.1 hs.textBounded with hn | hnoText
    · exact .inl hn
    · exact (hboundImm.1 hs.immBounded).imp_right fun hnoImm => ⟨hnoText, hnoImm⟩
  · rintro ⟨hroom, hvalue⟩
    refine ⟨hboundText.2 (hroom.imp_right (·.1)), hboundImm.2 (hroom.imp_right (·.2)), findBytes_bounded db pattern,
      findInsns_bounded idb patterns n caseInsensitive, fun a ha => ?_⟩
    have hmem := mem_searchImm.1 ha
    rcases hvalue with hsmall | hall
    · -- the iterator was given the value itself
      rw [Nat.mod_eq_of_lt hsmall] at hmem
      exact (h.imm imm hsmall a).1 (List.mem_of_mem_take hmem)
    · obtain ⟨hlowAt, hfirst⟩ := (h.mem_take_iff hlow).1 hmem
      exact hall a hlowAt hfirst

/-- One string and one instruction, with an immediate of 5. -/
def oneHit : Database :=
  ⟨[], fun _ _ => [], fun t => if t = "main" then [0x2000] else [], fun v => if v = 5 then [0x1000] else []⟩

theorem oneHit_yields : YieldsMatches oneHit (fun t a => t = "main" ∧ a = 0x2000) (fun v a => v = 5 ∧ a = 0x1000)
    (fun _ a b => a < b) where
  text t a := by
    by_cases ht : t = "main" <;> simp [oneHit, ht]
  imm v _ a := by
    by_cases hv : v = 5 <;> simp [oneHit, hv]
  asymm _ _ _ hab := Nat.lt_asymm hab
  inOrder v _ := by
    by_cases hv : v = 5 <;> simp [oneHit, hv]

theorem search_sound_iff_oneHit :
    SoundAndBounded (fun v a => v = 5 ∧ a = 0x1000) oneHit none "main" "90" 5 ["mov"] true 1 :=
  (search_sound_iff oneHit_yields none "main" "90" 5 ["mov"] true 1).2 ⟨.inl (by decide), .inl (by decide)⟩

/-- No match is asked for and one is returned; an address without the value is returned for it. -/
theorem oneHit_overshoots :
    (replyMatches (handleSearchText oneHit "main" 0)).length = 1 ∧
      (replyMatches (handleSearchImm oneHit 5 0)).length = 1 ∧
      Json.str "0x1000" ∈ replyMatches (handleSearchImm oneHit (2 ^ 32 + 5) 10) ∧
      ¬ ((fun v a => v = 5 ∧ a = 0x1000 : Nat → Nat → Prop) (2 ^ 32 + 5) 0x1000) ∧
      YieldsMatches oneHit (fun t a => t = "main" ∧ a = 0x2000) (fun v a => v = 5 ∧ a = 0x1000)
        (fun _ a b => a < b) :=
  ⟨rfl, rfl, List.mem_singleton.2 rfl, by decide, oneHit_yields⟩

end Handlers

end IdaRs
