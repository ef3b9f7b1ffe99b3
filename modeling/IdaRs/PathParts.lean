import Mathlib.Data.List.TakeWhile
import IdaRs.Path

/-!
# The components of a path, read off its text (`std::path`, on Unix)

A text is cut at its last separator. What stands before gives the components before, the last part at most one more;
separators and `.` at the end do not count. So the file name, the extension and `set_extension` are functions of the
components: `splitFileName_cases`, `extension_eq`, `components_setExtension`.
-/

namespace IdaRs

namespace Path

/-- The component of a part of a path. -/
def partOf (p : List Char) : List Component :=
  if p = [] ∨ p = ['.'] then [] else if p = ['.', '.'] then [.parentDir] else [.normal p]

/-- The component at the head of a path, from its parts. -/
def headOf (parts : List (List Char)) : List Component :=
  if parts.head? = some [] ∧ 1 < parts.length then [.root] else if parts.head? = some ['.'] then [.curDir] else []

/-- The components of the parts of a text, without one for its head. -/
def inner (t : List Char) : List Component := (t.splitOn '/').flatMap partOf

def textComponents (t : List Char) : List Component := headOf (t.splitOn '/') ++ inner t

theorem components_eq (path : String) : components path = textComponents path.toList := by
  unfold components textComponents inner
  generalize path.toList.splitOn '/' = parts
  dsimp only
  split
  · rfl
  · rfl
  · rename_i hroot hdot
    have hhead : headOf parts = [] := by
      rcases parts with _ | ⟨p, _ | ⟨p', parts⟩⟩
      · rfl
      · have hp : p ≠ ['.'] := fun h => hdot [] (by rw [h])
        simp [headOf, hp]
      · have hnil : p ≠ [] := fun h => hroot p' parts (by rw [h])
        have hp : p ≠ ['.'] := fun h => hdot (p' :: parts) (by rw [h])
        simp [headOf, hnil, hp]
    rw [hhead]
    rfl

theorem headOf_append {ps : List (List Char)} (h : ps ≠ []) (x y : List Char) :
    headOf (ps ++ [x]) = headOf (ps ++ [y]) := by
  simp [headOf, List.head?_append_of_ne_nil _ h]

theorem headOf_append_nil {ps : List (List Char)} (h : ps ≠ []) (hnil : ps ≠ [[]]) :
    headOf (ps ++ [[]]) = headOf ps := by
  rcases ps with _ | ⟨p, _ | ⟨p', ps⟩⟩
  · exact absurd rfl h
  · have hp : p ≠ [] := fun hp => hnil (by rw [hp])
    simp [headOf, hp]
  · simp [headOf]

/-- The directory of a path: nothing, or a text up to a separator. -/
def IsDir (d : List Char) : Prop := d = [] ∨ ∃ e, d = e ++ ['/']

theorem splitOn_ne_nil (t : List Char) : t.splitOn '/' ≠ [] := by
  exact List.splitOn_ne_nil _ _

theorem splitOn_dir (e n : List Char) (hn : '/' ∉ n) : (e ++ '/' :: n).splitOn '/' = e.splitOn '/' ++ [n] := by
  rw [List.splitOn_append_cons_self, List.splitOn_eq_singleton hn]

theorem textComponents_append {d n : List Char} (hd : IsDir d) (hn : '/' ∉ n) (hdot : d = [] → n ≠ ['.']) :
    textComponents (d ++ n) = textComponents d ++ partOf n := by
  rcases hd with rfl | ⟨e, rfl⟩
  · have hhead : headOf [n] = [] := by simp [headOf, hdot rfl]
    rw [List.nil_append, textComponents, inner, List.splitOn_eq_singleton hn, hhead, List.flatMap_singleton]
    rfl
  · rw [List.append_assoc, List.singleton_append, textComponents, textComponents,
      inner, inner, splitOn_dir e n hn, splitOn_dir e [] (by simp), headOf_append (splitOn_ne_nil e) n [],
      List.flatMap_append, List.flatMap_append, List.flatMap_singleton, List.flatMap_singleton]
    simp [partOf]

/-- A separator at the end does not count. -/
theorem textComponents_separator {t : List Char} (h : t ≠ []) : textComponents (t ++ ['/']) = textComponents t := by
  have hsplit : t.splitOn '/' ≠ [[]] := by
    intro hs
    have hjoin : ['/'].intercalate (t.splitOn '/') = t := List.intercalate_splitOn '/'
    rw [hs] at hjoin
    exact h hjoin.symm
  rw [textComponents, inner, splitOn_dir t [] (by simp), headOf_append_nil (splitOn_ne_nil t) hsplit,
    List.flatMap_append, textComponents, inner]
  simp [partOf]

/-- A `.` at the end does not count. -/
theorem textComponents_dot (r : List Char) :
    textComponents ('.' :: '/' :: r).reverse = textComponents ('/' :: r).reverse := by
  have hdot : textComponents (('/' :: r).reverse ++ ['.']) = textComponents ('/' :: r).reverse ++ partOf ['.'] :=
    textComponents_append (.inr ⟨r.reverse, List.reverse_cons⟩) (by decide) (by simp)
  rw [List.reverse_cons (a := '.'), hdot]
  exact List.append_nil _

theorem textComponents_dropTrailing {r : List Char} (h : dropTrailing r ≠ []) :
    textComponents (dropTrailing r).reverse = textComponents r.reverse := by
  induction r using dropTrailing.induct with
  | case1 r ih =>
    rw [dropTrailing] at h ⊢
    have hr : r.reverse ≠ [] := by
      intro hr
      rw [List.reverse_eq_nil_iff.1 hr] at h
      exact h rfl
    rw [ih h, List.reverse_cons, textComponents_separator hr]
  | case2 r ih =>
    rw [dropTrailing] at h ⊢
    rw [ih h, textComponents_dot]
  | case3 r h₁ h₂ => rw [dropTrailing_eq_self h₁ h₂]

theorem textComponents_eq_nil {t : List Char} : textComponents t = [] ↔ t = [] := by
  refine ⟨fun h => ?_, fun h => by rw [h]; rfl⟩
  obtain ⟨p, ps, hps⟩ := List.exists_cons_of_ne_nil (splitOn_ne_nil t)
  obtain ⟨hhead, hparts⟩ := List.append_eq_nil_iff.1 h
  rw [inner, hps] at hparts
  rw [hps] at hhead
  have hp : p = [] := by
    have hpart : partOf p = [] := (List.append_eq_nil_iff.1 (List.flatMap_cons ▸ hparts)).1
    have hdot : p ≠ ['.'] := fun hdot => by simp [hdot, headOf] at hhead
    unfold partOf at hpart
    split_ifs at hpart with hempty
    exact hempty.resolve_right hdot
  have hone : ps = [] := by
    by_contra hne
    have hlength := List.length_pos_iff.2 hne
    simp [headOf, hp, hlength] at hhead
  have hjoin : ['/'].intercalate (t.splitOn '/') = t := List.intercalate_splitOn '/'
  rw [hps, hp, hone] at hjoin
  exact hjoin.symm

/-- Behind a directory a text has no head. -/
theorem textComponents_dir {d : List Char} (hd : IsDir d) (hne : d ≠ []) (t : List Char) :
    textComponents (d ++ t) = textComponents d ++ inner t := by
  obtain ⟨e, rfl⟩ := hd.resolve_left hne
  have hsplit : (e ++ ['/'] ++ t).splitOn '/' = e.splitOn '/' ++ t.splitOn '/' := by
    rw [List.append_assoc, List.singleton_append, List.splitOn_append_cons_self]
  have hempty : (e ++ ['/']).splitOn '/' = e.splitOn '/' ++ [[]] := splitOn_dir e [] (by simp)
  obtain ⟨p, ps, hp⟩ := List.exists_cons_of_ne_nil (splitOn_ne_nil e)
  obtain ⟨q, qs, hq⟩ := List.exists_cons_of_ne_nil (splitOn_ne_nil t)
  have hhead : headOf (e.splitOn '/' ++ t.splitOn '/') = headOf (e.splitOn '/' ++ [[]]) := by
    have hlong : 0 < ps.length + (qs.length + 1) := by omega
    simp [headOf, hp, hq, hlong]
  have hinner : (e.splitOn '/' ++ [[]]).flatMap partOf = (e.splitOn '/').flatMap partOf := by simp [partOf]
  rw [textComponents, textComponents, inner, inner, hsplit, hempty, hhead, hinner, List.flatMap_append,
    List.append_assoc]
  rfl

theorem eq_of_partOf {p n : List Char} (h : partOf p = [.normal n]) : p = n := by
  unfold partOf at h
  split_ifs at h
  · cases h
  · cases h
    rfl

/-! ### File names -/

/-- A path before its last part. -/
def beforeLast (t : List Char) : List Char := (t.reverse.dropWhile (· ≠ '/')).reverse

/-- The last part of a path, after its last separator. -/
def lastPart (t : List Char) : List Char := (t.reverse.takeWhile (· ≠ '/')).reverse

theorem beforeLast_append_lastPart (t : List Char) : beforeLast t ++ lastPart t = t := by
  rw [beforeLast, lastPart, ← List.reverse_append, List.takeWhile_append_dropWhile, List.reverse_reverse]

theorem separator_notMem_lastPart (t : List Char) : '/' ∉ lastPart t := by
  intro h
  have hne := List.mem_takeWhile_imp (List.mem_reverse.1 h)
  exact of_decide_eq_true hne rfl

theorem isDir_beforeLast (t : List Char) : IsDir (beforeLast t) := by
  unfold beforeLast
  cases h : t.reverse.dropWhile (· ≠ '/') with
  | nil => exact .inl rfl
  | cons c r =>
    have hc : c = '/' := by
      have hfirst := List.head?_dropWhile_not (· ≠ '/') t.reverse
      rw [h] at hfirst
      simpa using hfirst
    exact .inr ⟨r.reverse, by rw [hc, List.reverse_cons]⟩

theorem textComponents_cut {t : List Char} (h : t ≠ ['.']) :
    textComponents t = textComponents (beforeLast t) ++ partOf (lastPart t) := by
  have hcut := beforeLast_append_lastPart t
  rw [← textComponents_append (isDir_beforeLast t) (separator_notMem_lastPart t), hcut]
  intro hd hn
  rw [hd, hn] at hcut
  exact h hcut.symm

theorem eq_dot_iff {t : List Char} : t = ['.'] ↔ beforeLast t = [] ∧ lastPart t = ['.'] := by
  refine ⟨fun h => by rw [h]; decide, fun h => ?_⟩
  rw [← beforeLast_append_lastPart t, h.1, h.2]
  rfl

/-- The name of a normal component at the end. -/
def lastName (cs : List Component) : Option (List Char) :=
  match cs.getLast? with
  | some (.normal n) => some n
  | _ => none

theorem lastName_append (cs : List Component) (n : List Char) : lastName (cs ++ [Component.normal n]) = some n := by
  simp [lastName]

theorem partOf_name {n : List Char} (h : n ≠ [] ∧ n ≠ ['.'] ∧ n ≠ ['.', '.']) : partOf n = [.normal n] := by
  simp [partOf, h.1, h.2.1, h.2.2]

/-- What is left ends in a name, in `.` alone or in nothing. -/
theorem dropTrailing_ne (r x : List Char) : dropTrailing r ≠ '/' :: x ∧ dropTrailing r ≠ '.' :: '/' :: x := by
  induction r using dropTrailing.induct with
  | case1 r ih => rwa [dropTrailing]
  | case2 r ih => rwa [dropTrailing]
  | case3 r h₁ h₂ =>
    rw [dropTrailing_eq_self h₁ h₂]
    exact ⟨h₁ x, h₂ x⟩

theorem lastName_of_dropTrailing {r : List Char} (h : dropTrailing r = []) :
    lastName (textComponents r.reverse) = none := by
  induction r using dropTrailing.induct with
  | case1 r ih =>
    rw [dropTrailing] at h
    by_cases hr : r = []
    · rw [hr]
      rfl
    · rw [List.reverse_cons, textComponents_separator (by simpa using hr)]
      exact ih h
  | case2 r ih =>
    rw [dropTrailing] at h
    rw [textComponents_dot]
    exact ih h
  | case3 r h₁ h₂ =>
    rw [dropTrailing_eq_self h₁ h₂] at h
    rw [h]
    rfl

/-- A path without the separators and the `.` at its end. -/
def trimmed (t : List Char) : List Char := (dropTrailing t.reverse).reverse

theorem textComponents_trimmed {t : List Char} (h : trimmed t ≠ []) :
    textComponents (trimmed t) = textComponents t := by
  rw [trimmed, textComponents_dropTrailing fun hr => h (by rw [trimmed, hr]; rfl), List.reverse_reverse]

theorem lastName_of_trimmed {t : List Char} (h : trimmed t = []) : lastName (textComponents t) = none := by
  simpa using lastName_of_dropTrailing (List.reverse_eq_nil_iff.1 h)

/-- What is left of a path does not end in a separator, and in `.` where that is all. -/
theorem trimmed_append {t e n : List Char} (h : trimmed t = e ++ '/' :: n) : n ≠ [] ∧ n ≠ ['.'] := by
  have hrev : dropTrailing t.reverse = n.reverse ++ '/' :: e.reverse := by
    rw [← List.reverse_reverse (dropTrailing t.reverse)]
    show (trimmed t).reverse = _
    rw [h]
    simp
  have hne := dropTrailing_ne t.reverse e.reverse
  refine ⟨?_, ?_⟩
  · rintro rfl
    exact hne.1 hrev
  · rintro rfl
    exact hne.2 hrev

theorem splitFileName_eq (t : List Char) : splitFileName t =
    if lastPart (trimmed t) = [] ∨ lastPart (trimmed t) = ['.'] ∨ lastPart (trimmed t) = ['.', '.'] then none
    else some (beforeLast (trimmed t), lastPart (trimmed t)) := by
  simp only [splitFileName, lastPart, beforeLast, trimmed, List.reverse_reverse]

/-- The file name is the last component, where that is a name. -/
theorem splitFileName_cases (t : List Char) :
    (∃ d n, splitFileName t = some (d, n) ∧ IsDir d ∧ '/' ∉ n ∧ (n ≠ [] ∧ n ≠ ['.'] ∧ n ≠ ['.', '.']) ∧
      textComponents t = textComponents d ++ [Component.normal n]) ∨
    splitFileName t = none ∧ lastName (textComponents t) = none := by
  have hcut := beforeLast_append_lastPart (trimmed t)
  by_cases hname : lastPart (trimmed t) ≠ [] ∧ lastPart (trimmed t) ≠ ['.'] ∧ lastPart (trimmed t) ≠ ['.', '.']
  · have hdot : trimmed t ≠ ['.'] := fun h => hname.2.1 (by rw [h]; rfl)
    have hnil : trimmed t ≠ [] := fun h => hname.1 (by rw [h]; rfl)
    refine .inl ⟨beforeLast (trimmed t), lastPart (trimmed t), ?_, isDir_beforeLast _, separator_notMem_lastPart _,
      hname, ?_⟩
    · rw [splitFileName_eq, if_neg (by tauto)]
    · rw [← textComponents_trimmed hnil, textComponents_cut hdot, partOf_name hname]
  · refine .inr ⟨by rw [splitFileName_eq, if_pos (by tauto)], ?_⟩
    by_cases hdots : lastPart (trimmed t) = ['.', '.']
    · have hnil : trimmed t ≠ [] := fun h => by simp [h, lastPart] at hdots
      have hdot : trimmed t ≠ ['.'] := fun h => by simp [h, lastPart] at hdots
      rw [← textComponents_trimmed hnil, textComponents_cut hdot, hdots]
      simp [partOf, lastName]
    · rcases isDir_beforeLast (trimmed t) with hd | ⟨e, hd⟩
      · rw [hd, List.nil_append] at hcut
        by_cases hnil : trimmed t = []
        · exact lastName_of_trimmed hnil
        · have hdot : trimmed t = ['.'] := by
            rw [← hcut] at hnil ⊢
            tauto
          rw [← textComponents_trimmed hnil, hdot]
          rfl
      · rw [hd, List.append_assoc, List.singleton_append] at hcut
        have hlast := trimmed_append hcut.symm
        tauto

/-! ### Extensions of the last component -/

/-- `set_extension` on components. -/
def withExtension (cs : List Component) (ext : List Char) : List Component :=
  match lastName cs with
  | some n => cs.dropLast ++ [.normal ((splitExtension n).1 ++ '.' :: ext)]
  | none => cs

theorem withExtension_append (cs : List Component) (n ext : List Char) :
    withExtension (cs ++ [Component.normal n]) ext = cs ++ [Component.normal ((splitExtension n).1 ++ '.' :: ext)] := by
  rw [withExtension, lastName_append, List.dropLast_concat]

/-- A stem and an extension, split again. -/
theorem splitExtension_append {stem ext : List Char} (hstem : stem ≠ []) (hext : '.' ∉ ext) :
    splitExtension (stem ++ '.' :: ext) = (stem, some ext) := by
  have hall : ∀ c ∈ ext.reverse, decide (c ≠ '.') = true := fun c hc =>
    decide_eq_true fun hdot => hext (hdot ▸ List.mem_reverse.1 hc)
  have hrev : (stem ++ '.' :: ext).reverse = ext.reverse ++ '.' :: stem.reverse := by simp
  have htake : (ext.reverse ++ '.' :: stem.reverse).takeWhile (· ≠ '.') = ext.reverse := by
    rw [List.takeWhile_append_of_pos hall]
    simp
  have hdrop : (ext.reverse ++ '.' :: stem.reverse).dropWhile (· ≠ '.') = '.' :: stem.reverse := by
    rw [List.dropWhile_append_of_pos hall]
    simp
  obtain ⟨c, stem, rfl⟩ := List.exists_cons_of_ne_nil hstem
  rw [splitExtension, hrev, htake, hdrop, List.reverse_cons, List.dropLast_concat, List.reverse_reverse,
    List.reverse_reverse]

/-- The stem is a part of the name at its head. -/
theorem stem_of_name {n : List Char} (h : n ≠ []) : (splitExtension n).1 ≠ [] ∧ (splitExtension n).1 <+: n := by
  unfold splitExtension
  dsimp only
  split
  · exact ⟨h, List.prefix_refl n⟩
  · rename_i hstem
    refine ⟨hstem, (List.dropLast_prefix _).trans ?_⟩
    rw [← List.reverse_suffix, List.reverse_reverse]
    exact List.dropWhile_suffix _

theorem withExtension_twice (cs : List Component) {ext : List Char} (hext : '.' ∉ ext) (ext' : List Char)
    (hne : ∀ n, lastName cs = some n → n ≠ []) :
    withExtension (withExtension cs ext) ext' = withExtension cs ext' := by
  unfold withExtension
  cases hn : lastName cs with
  | none => simp only [hn]
  | some n =>
    have hstem := (stem_of_name (hne n hn)).1
    simp only [lastName_append, List.dropLast_concat, splitExtension_append hstem hext]

/-- The components with another extension depend on the components. -/
theorem components_setExtension (path : String) {ext : String} (hne : ext ≠ "") (hsep : '/' ∉ ext.toList) :
    components (setExtension path ext) = withExtension (components path) ext.toList := by
  rw [components_eq, components_eq]
  rcases splitFileName_cases path.toList with ⟨d, n, hsplit, hd, hn, hname, hcs⟩ | ⟨hsplit, hnone⟩
  · obtain ⟨hstem, hpre⟩ := stem_of_name hname.1
    have htext : (setExtension path ext).toList = d ++ ((splitExtension n).1 ++ '.' :: ext.toList) := by
      rw [setExtension, hsplit]
      simp [hne]
    have hsep' : '/' ∉ (splitExtension n).1 ++ '.' :: ext.toList := by
      simp only [List.mem_append, List.mem_cons, not_or]
      exact ⟨fun h => hn (hpre.subset h), by decide, hsep⟩
    -- longer than `..`
    have hlength : 2 < ((splitExtension n).1 ++ '.' :: ext.toList).length := by
      have h₁ := List.length_pos_iff.2 hstem
      have h₂ := List.length_pos_iff.2 fun h => hne (String.toList_eq_nil_iff.1 h)
      rw [List.length_append, List.length_cons]
      omega
    have hne' : ∀ l : List Char, l.length ≤ 2 → (splitExtension n).1 ++ '.' :: ext.toList ≠ l := by
      rintro l hl rfl
      omega
    rw [htext, hcs, withExtension_append, textComponents_append hd hsep' fun _ => hne' _ (by decide),
      partOf_name ⟨hne' _ (by decide), hne' _ (by decide), hne' _ (by decide)⟩]
  · rw [setExtension, hsplit, withExtension, hnone]

theorem extension_eq (path : String) :
    extension path = ((lastName (components path)).bind fun n => (splitExtension n).2).map String.ofList := by
  rw [components_eq, extension]
  rcases splitFileName_cases path.toList with ⟨d, n, hsplit, -, -, -, hcs⟩ | ⟨hsplit, hnone⟩
  · rw [hsplit, hcs, lastName_append]
    rfl
  · rw [hsplit, hnone]
    rfl

theorem lastName_ne_nil {a : String} {n : List Char} (h : lastName (components a) = some n) : n ≠ [] := by
  rw [components_eq] at h
  rcases splitFileName_cases a.toList with ⟨d, m, -, -, -, hname, hcs⟩ | ⟨-, hnone⟩
  · rw [hcs, lastName_append] at h
    exact Option.some.inj h ▸ hname.1
  · rw [hnone] at h
    cases h

theorem extension_setExtension {path ext : String} (hne : ext ≠ "") (hsep : '/' ∉ ext.toList) (hdot : '.' ∉ ext.toList)
    (h : extension path ≠ none) : extension (setExtension path ext) = some ext := by
  rw [extension_eq] at h
  cases hn : lastName (components path) with
  | none =>
    rw [hn] at h
    exact absurd rfl h
  | some n =>
    have hstem := (stem_of_name (lastName_ne_nil hn)).1
    rw [extension_eq, components_setExtension path hne hsep, withExtension, hn]
    simp only [lastName_append, Option.bind_some, splitExtension_append hstem hdot, Option.map_some,
      String.ofList_toList]

end Path

end IdaRs
