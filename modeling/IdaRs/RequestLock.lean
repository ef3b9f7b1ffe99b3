import IdaRs.OpenLock

/-!
# The locks of two requests (`src/lib.rs` 103-107, `src/ida/handlers/database.rs` 110-125, 161-250)

`handle_open` expands `~/` before it looks at the path, so two texts that match may be opened as paths that do not:
`~/app.i64` is in the home directory and `~//app.i64` below the root. Behind a directory, what `database_paths_match`
and the lock look at is a function of the rest of the text (`dirs_match_iff`, `lock_dir`): the locks of such a pair
differ, `expanded_match`.
-/

namespace IdaRs

namespace OpenLock

open IdaLoop IdaRs.Path

/-! ### Names behind a directory -/

def extensionOf (cs : List Component) : Option (List Char) := (lastName cs).bind fun n => (splitExtension n).2

/-- The last component has the extension of a database. -/
def DatabaseName (cs : List Component) : Prop :=
  ∃ ext, extensionOf cs = some ext ∧
    (toAsciiLowercase (String.ofList ext) = "i64".toList ∨ toAsciiLowercase (String.ofList ext) = "idb".toList ∨
      toAsciiLowercase (String.ofList ext) = "id0".toList)

instance (cs : List Component) : Decidable (DatabaseName cs) :=
  decidable_of_iff (((extensionOf cs).any fun ext => decide (toAsciiLowercase (String.ofList ext) = "i64".toList ∨
    toAsciiLowercase (String.ofList ext) = "idb".toList ∨ toAsciiLowercase (String.ofList ext) = "id0".toList)) = true)
    (by simp only [DatabaseName, Option.any_eq_true, decide_eq_true_eq])

/-- The last component has the extension of a packed database. -/
def PackedName (cs : List Component) : Prop :=
  ∃ ext, extensionOf cs = some ext ∧
    (toAsciiLowercase (String.ofList ext) = "i64".toList ∨ toAsciiLowercase (String.ofList ext) = "idb".toList)

section

variable {p q : String} {cs ds : List Component}

theorem isIdbPath_iff : isIdbPath p = true ↔ DatabaseName (components p) := by
  rw [isIdbPath, extension_eq]
  show decide _ = true ↔ ∃ ext, (lastName (components p)).bind _ = some ext ∧ _
  cases (lastName (components p)).bind fun n => (splitExtension n).2 with
  | none =>
    simp only [reduceCtorEq, false_and, exists_false, iff_false]
    decide
  | some ext => simp

theorem unpackedId0Path_eq_some {id0 : String} :
    unpackedId0Path p = some id0 ↔ PackedName (components p) ∧ setExtension p "id0" = id0 := by
  have hext : (extensionIs p "i64" || extensionIs p "idb") = true ↔ PackedName (components p) := by
    rw [extensionIs, extensionIs, extension_eq]
    show _ ↔ ∃ ext, (lastName (components p)).bind _ = some ext ∧ _
    cases (lastName (components p)).bind fun n => (splitExtension n).2 <;> simp
  rw [← hext, unpackedId0Path]
  split
  · rename_i h
    simp [h]
  · rename_i h
    simp [h]

theorem PackedName.database (h : PackedName cs) : DatabaseName cs := by
  obtain ⟨ext, hext, h | h⟩ := h
  · exact ⟨ext, hext, .inl h⟩
  · exact ⟨ext, hext, .inr (.inl h)⟩

theorem DatabaseName.lastName (h : DatabaseName cs) : ∃ n, Path.lastName cs = some n := by
  obtain ⟨ext, hext, -⟩ := h
  cases hn : Path.lastName cs with
  | none => simp [extensionOf, hn] at hext
  | some n => exact ⟨n, rfl⟩

theorem lastName_behind (h : cs ≠ []) : lastName (ds ++ cs) = lastName cs := by
  rw [lastName, lastName, List.getLast?_append_of_ne_nil _ h]

theorem extensionOf_behind (h : cs ≠ []) : extensionOf (ds ++ cs) = extensionOf cs := by
  rw [extensionOf, extensionOf, lastName_behind h]

theorem databaseName_nil : ¬ DatabaseName [] := by
  rintro ⟨ext, hext, -⟩
  cases hext

theorem databaseName_behind (hds : ¬ DatabaseName ds) : DatabaseName (ds ++ cs) ↔ DatabaseName cs := by
  by_cases h : cs = []
  · rw [h, List.append_nil]
    exact iff_of_false hds databaseName_nil
  · rw [DatabaseName, DatabaseName, extensionOf_behind h]

theorem packedName_behind (hds : ¬ DatabaseName ds) : PackedName (ds ++ cs) ↔ PackedName cs := by
  by_cases h : cs = []
  · rw [h, List.append_nil]
    exact iff_of_false (fun hp => hds hp.database) fun hp => databaseName_nil hp.database
  · rw [PackedName, PackedName, extensionOf_behind h]

theorem withExtension_behind (h : DatabaseName cs) (ext : List Char) :
    withExtension (ds ++ cs) ext = ds ++ withExtension cs ext := by
  obtain ⟨n, hn⟩ := h.lastName
  have hne : cs ≠ [] := by
    rintro rfl
    cases hn
  rw [withExtension, withExtension, lastName_behind hne, hn]
  simp only [List.dropLast_append_of_ne_nil hne, List.append_assoc]

theorem length_withExtension (cs : List Component) (ext : List Char) : (withExtension cs ext).length = cs.length := by
  unfold withExtension
  cases hn : lastName cs with
  | none => rfl
  | some n =>
    have hpos : 0 < cs.length := by
      rw [List.length_pos_iff]
      rintro rfl
      cases hn
    rw [List.length_append, List.length_dropLast, List.length_singleton]
    omega

end

/-! ### Texts behind a directory -/

/-- `t` is the text of a directory with the components `cs`, up to a separator, and `r`. -/
structure Behind (cs : List Component) (t r : List Char) : Prop where
  dir : ∃ d, IsDir d ∧ d ≠ [] ∧ textComponents d = cs ∧ t = d ++ r
  notDatabase : ¬ DatabaseName cs

/-- The components of the generated database behind the directory. -/
def generatedTail (r : List Char) : List Component :=
  inner (beforeLast r) ++ [.normal (lastPart r ++ ".i64".toList)]

/-- The components of the lock behind the directory. -/
def lockTail (r : List Char) : List Component :=
  if DatabaseName (inner r) then withExtension (inner r) "imcp".toList
  else inner (beforeLast r) ++ [.normal (rawStem (lastPart r) ++ ".imcp".toList)]

theorem lastPart_dir {d : List Char} (hd : IsDir d) (hne : d ≠ []) (r : List Char) :
    beforeLast (d ++ r) = d ++ beforeLast r ∧ lastPart (d ++ r) = lastPart r := by
  obtain ⟨e, rfl⟩ := hd.resolve_left hne
  have hrev : (e ++ ['/'] ++ r).reverse = r.reverse ++ '/' :: e.reverse := by simp
  have hbefore : beforeLast (e ++ ['/'] ++ r) = e ++ ['/'] ++ beforeLast r := by
    rw [beforeLast, beforeLast, hrev, List.dropWhile_append]
    split
    · rename_i hnil
      rw [List.isEmpty_iff.1 hnil]
      simp
    · simp
  refine ⟨hbefore, ?_⟩
  have hcut := beforeLast_append_lastPart (e ++ ['/'] ++ r)
  have hcut' := beforeLast_append_lastPart r
  rw [hbefore, List.append_assoc] at hcut
  exact List.append_cancel_left ((List.append_cancel_left hcut).trans hcut'.symm)

/-- The text is cut at its last separator. -/
theorem inner_cut (r : List Char) : inner r = inner (beforeLast r) ++ partOf (lastPart r) := by
  have hd : IsDir ['/'] := .inr ⟨[], rfl⟩
  have hcut : textComponents (['/'] ++ r) = _ := textComponents_cut (by simp)
  rw [(lastPart_dir hd (by simp) r).1, (lastPart_dir hd (by simp) r).2, textComponents_dir hd (by simp),
    textComponents_dir hd (by simp), List.append_assoc] at hcut
  exact List.append_cancel_left hcut

theorem length_generatedTail (r : List Char) : (generatedTail r).length = (inner (beforeLast r)).length + 1 := by
  rw [generatedTail, List.length_append, List.length_singleton]

theorem length_partOf (n : List Char) : (partOf n).length ≤ 1 := by
  unfold partOf
  split_ifs <;> simp

theorem lockTail_database {r : List Char} (h : DatabaseName (inner r)) :
    lockTail r = withExtension (inner r) "imcp".toList := by
  rw [lockTail, if_pos h]

theorem lockTail_raw {r : List Char} (h : ¬ DatabaseName (inner r)) :
    lockTail r = inner (beforeLast r) ++ [.normal (rawStem (lastPart r) ++ ".imcp".toList)] := by
  rw [lockTail, if_neg h]

/-- The lock is as long as the path, or by one component longer: that of a raw path whose last part has none. -/
theorem length_lockTail (r : List Char) : (inner r).length ≤ (lockTail r).length ∧
    ((lockTail r).length ≤ (inner r).length ∨ ¬ DatabaseName (inner r) ∧ partOf (lastPart r) = [] ∧
      (lockTail r).length = (inner r).length + 1) := by
  by_cases h : DatabaseName (inner r)
  · rw [lockTail_database h, length_withExtension]
    exact ⟨le_rfl, .inl le_rfl⟩
  · have hcut := congrArg List.length (inner_cut r)
    have hpart := length_partOf (lastPart r)
    rw [List.length_append] at hcut
    rw [lockTail_raw h, List.length_append, List.length_singleton]
    refine ⟨by omega, ?_⟩
    by_cases hnil : partOf (lastPart r) = []
    · refine .inr ⟨h, hnil, ?_⟩
      rw [hnil, List.length_nil] at hcut
      omega
    · have hpos := List.length_pos_iff.2 hnil
      omega

namespace Behind

variable {cs : List Component} {p q : String} {r s : List Char}

theorem components (h : Behind cs p.toList r) : Path.components p = cs ++ inner r := by
  obtain ⟨d, hd, hne, hcs, ht⟩ := h.dir
  rw [components_eq, ht, textComponents_dir hd hne, hcs]

theorem isIdbPath (h : Behind cs p.toList r) : isIdbPath p = true ↔ DatabaseName (inner r) := by
  rw [isIdbPath_iff, h.components, databaseName_behind h.notDatabase]

theorem textComponents_beforeLast (h : Behind cs p.toList r) :
    textComponents (beforeLast p.toList) = cs ++ inner (beforeLast r) ∧ lastPart p.toList = lastPart r := by
  obtain ⟨d, hd, hne, hcs, ht⟩ := h.dir
  obtain ⟨hbefore, hlast⟩ := lastPart_dir hd hne r
  rw [ht, hbefore, hlast, textComponents_dir hd hne, hcs]
  exact ⟨rfl, rfl⟩

theorem generated (h : Behind cs p.toList r) : Path.components (idbPathForRawBinary p) = cs ++ generatedTail r := by
  obtain ⟨hbefore, hlast⟩ := h.textComponents_beforeLast
  rw [components_generated, hbefore, hlast, generatedTail, List.append_assoc]

theorem id0 (h : Behind cs p.toList r) (hp : PackedName (inner r)) :
    Path.components (setExtension p "id0") = cs ++ withExtension (inner r) "id0".toList := by
  rw [components_setExtension p (by decide) (by decide), h.components, withExtension_behind hp.database]

/-- The lock. -/
theorem lock (h : Behind cs p.toList r) : Path.components (openLockPath p) = cs ++ lockTail r := by
  by_cases hdb : DatabaseName (inner r)
  · rw [openLockPath_idb (h.isIdbPath.2 hdb), components_lockPath, h.components, withExtension_behind hdb,
      lockTail_database hdb]
  · have hraw : IdaRs.isIdbPath p = false := Bool.eq_false_iff.2 fun hp => hdb (h.isIdbPath.1 hp)
    obtain ⟨hbefore, hlast⟩ := h.textComponents_beforeLast
    rw [components_rawLock hraw, hbefore, hlast, lockTail_raw hdb, List.append_assoc]

end Behind

/-! ### Matching texts behind directories -/

/-- `database_paths_match` of two texts behind one directory, on what follows it. -/
def TailsMatch (r s : List Char) : Prop :=
  inner r = inner s ∨ (PackedName (inner r) ∧ withExtension (inner r) "id0".toList = inner s) ∨
    (PackedName (inner s) ∧ withExtension (inner s) "id0".toList = inner r) ∨
    (¬ DatabaseName (inner s) ∧ generatedTail s = inner r) ∨ (¬ DatabaseName (inner r) ∧ generatedTail r = inner s)

section

variable {cs : List Component} {p q : String} {r s : List Char}

theorem TailsMatch.symm (h : TailsMatch r s) : TailsMatch s r := by
  rcases h with h | h | h | h | h
  · exact .inl h.symm
  · exact .inr (.inr (.inl h))
  · exact .inr (.inl h)
  · exact .inr (.inr (.inr (.inr h)))
  · exact .inr (.inr (.inr (.inl h)))

theorem dirs_match_iff (hp : Behind cs p.toList r) (hq : Behind cs q.toList s) :
    databasePathsMatch p q = true ↔ TailsMatch r s := by
  have hid0 : ∀ {p q : String} {r s : List Char}, Behind cs p.toList r → Behind cs q.toList s →
      ((∃ id0, unpackedId0Path p = some id0 ∧ same id0 q = true) ↔
        PackedName (inner r) ∧ withExtension (inner r) "id0".toList = inner s) := by
    intro p q r s hp hq
    simp only [unpackedId0Path_eq_some, hp.components, packedName_behind hp.notDatabase, same_iff]
    constructor
    · rintro ⟨_, ⟨hpacked, rfl⟩, hsame⟩
      rw [hp.id0 hpacked, hq.components] at hsame
      exact ⟨hpacked, List.append_cancel_left hsame⟩
    · rintro ⟨hpacked, htail⟩
      exact ⟨_, ⟨hpacked, rfl⟩, by rw [hp.id0 hpacked, hq.components, htail]⟩
  have hgen : ∀ {p q : String} {r s : List Char}, Behind cs p.toList r → Behind cs q.toList s →
      ((isIdbPath q = false ∧ same (idbPathForRawBinary q) p = true) ↔
        ¬ DatabaseName (inner s) ∧ generatedTail s = inner r) := by
    intro p q r s hp hq
    rw [← hq.isIdbPath, Bool.not_eq_true, same_iff, hq.generated, hp.components, List.append_cancel_left_eq]
  rw [databasePathsMatch_iff, hid0 hp hq, hid0 hq hp, hgen hp hq, hgen hq hp, same_iff, hp.components, hq.components,
    List.append_cancel_left_eq, TailsMatch]

theorem PackedName.id0 (h : PackedName cs) : DatabaseName (withExtension cs "id0".toList) := by
  obtain ⟨n, hn⟩ := h.database.lastName
  have hne : n ≠ [] := by
    rintro rfl
    obtain ⟨ext, hext, -⟩ := h
    rw [extensionOf, hn] at hext
    cases hext
  refine ⟨"id0".toList, ?_, .inr (.inr (by decide))⟩
  rw [withExtension, hn, extensionOf, lastName_append]
  exact congrArg Prod.snd (splitExtension_append (stem_of_name hne).1 (by decide))

theorem databaseName_generated (cs : List Component) {n : List Char} (h : n ≠ []) :
    DatabaseName (cs ++ [.normal (n ++ ".i64".toList)]) := by
  refine ⟨"i64".toList, ?_, .inl (by decide)⟩
  rw [extensionOf, lastName_append]
  exact congrArg Prod.snd (splitExtension_append h (by decide))

theorem cons_eq_concat {α : Type} {c x : α} {l : List α} (h : c :: l = l ++ [x]) : c = x := by
  induction l generalizing c with
  | nil => exact List.head_eq_of_cons_eq h
  | cons y l ih =>
    obtain ⟨rfl, htail⟩ := List.cons.inj h
    exact ih htail

/-- A raw path whose last part has no component, and a lock of which that is a part. -/
theorem rawStem_of_partOf {m n : List Char} (hn : partOf n = []) (h : rawStem m = rawStem n) :
    partOf m = [] ∨ m = ".i64".toList ∧ n = [] := by
  rcases rawStem_eq h with rfl | ⟨hm, -⟩ | ⟨hm, hnil⟩
  · exact .inl hn
  · exact .inl (by rw [hm]; rfl)
  · exact .inr ⟨hm, hnil⟩

/-- Of two matching tails one lock lies deeper by the components `cs` only where these are `.i64`: by their lengths. -/
theorem lockTail_deeper (h : TailsMatch r s) (hcs : cs ≠ []) (hlock : cs ++ lockTail r = lockTail s) :
    cs = [.normal ".i64".toList] := by
  have hlen := congrArg List.length hlock
  rw [List.length_append] at hlen
  have hpos := List.length_pos_iff.2 hcs
  obtain ⟨hr, hr'⟩ := length_lockTail r
  obtain ⟨hs, hs'⟩ := length_lockTail s
  -- the tail of `s` is raw, and its last part has no component
  have hend : (inner s).length ≤ (lockTail r).length → ¬ DatabaseName (inner s) ∧ partOf (lastPart s) = [] ∧
      cs.length = 1 := by
    intro hle
    rcases hs' with hshort | ⟨hraw, hnil, hlong⟩
    · omega
    · exact ⟨hraw, hnil, by omega⟩
  have hraw : ∀ {n : List Char}, ¬ DatabaseName (inner s) → lockTail r = inner (beforeLast r) ++ [.normal n] →
      cs ++ inner (beforeLast r) = inner (beforeLast s) ∧ n = rawStem (lastPart s) ++ ".imcp".toList := by
    intro n hdb htail
    rw [htail, lockTail_raw hdb, ← List.append_assoc] at hlock
    obtain ⟨hinit, hlast⟩ := List.append_inj' hlock rfl
    exact ⟨hinit, Component.normal.inj (List.head_eq_of_cons_eq hlast)⟩
  rcases h with heq | ⟨hpacked, heq⟩ | ⟨hpacked, heq⟩ | ⟨hraws, heq⟩ | ⟨hrawr, heq⟩
  · obtain ⟨hdb, hnil, hone⟩ := hend (heq ▸ hr)
    have hdbr : ¬ DatabaseName (inner r) := heq ▸ hdb
    obtain ⟨hinit, hstem⟩ := hraw hdb (lockTail_raw hdbr)
    have hcut := inner_cut s
    rw [hnil, List.append_nil, ← hinit, ← heq, inner_cut r] at hcut
    obtain ⟨c, rfl⟩ := List.length_eq_one_iff.1 hone
    rcases rawStem_of_partOf hnil (List.append_cancel_right hstem) with hpart | ⟨hlast, -⟩
    · rw [hpart, List.append_nil] at hcut
      have := congrArg List.length hcut
      simp at this
    · have hpart : partOf (lastPart r) = [.normal ".i64".toList] := by
        rw [hlast]
        decide
      rw [hpart] at hcut
      rw [cons_eq_concat hcut.symm]
  · have hsame := congrArg List.length heq
    rw [length_withExtension] at hsame
    exact absurd (heq ▸ hpacked.id0) (hend (by omega)).1
  · have hsame := congrArg List.length heq
    rw [length_withExtension] at hsame
    exact absurd hpacked.database (hend (by omega)).1
  · have hgen := congrArg List.length heq
    rw [length_generatedTail] at hgen
    rw [lockTail_raw hraws, List.length_append, List.length_singleton] at hlen
    omega
  · have hgen := congrArg List.length heq
    have hlock' := congrArg List.length (lockTail_raw hrawr)
    rw [length_generatedTail] at hgen
    rw [List.length_append, List.length_singleton] at hlock'
    obtain ⟨hdb, hnil, hone⟩ := hend (by omega)
    obtain ⟨hinit, -⟩ := hraw hdb (lockTail_raw hrawr)
    have hcut := inner_cut s
    rw [hnil, List.append_nil, ← hinit, ← heq] at hcut
    obtain ⟨c, rfl⟩ := List.length_eq_one_iff.1 hone
    obtain rfl := cons_eq_concat hcut.symm
    have hlast : lastPart r = [] := by
      by_contra hne
      exact hdb (heq ▸ databaseName_generated _ hne)
    rw [hlast]
    rfl

end

/-! ### Paths from the root -/

section

variable {cs : List Component} {p q : String}

/-- The path begins at the root. -/
def Rooted (p : String) : Prop := (components p).head? = some .root

theorem head_withExtension (cs : List Component) (ext : List Char) :
    (withExtension cs ext).head? = some .root ↔ cs.head? = some .root := by
  unfold withExtension
  cases hn : lastName cs with
  | none => rfl
  | some n =>
    rcases List.eq_nil_or_concat' cs with rfl | ⟨init, last, rfl⟩
    · cases hn
    · obtain rfl : last = .normal n := by
        simp only [lastName, List.getLast?_concat] at hn
        cases last <;> simp_all
      rw [List.dropLast_concat]
      cases init <;> simp

theorem head_generated (t n : List Char) : (textComponents (beforeLast t) ++ [Component.normal n]).head? = some .root ↔
    (textComponents t).head? = some .root := by
  by_cases hdot : t = ['.']
  · rw [hdot]
    exact iff_of_false (by rw [show beforeLast ['.'] = [] from rfl]; simp [textComponents_eq_nil.2 rfl]) (by decide)
  · rw [textComponents_cut hdot]
    cases hbefore : textComponents (beforeLast t) with
    | cons c cs => rfl
    | nil =>
      have hpart : (partOf (lastPart t)).head? ≠ some .root := by
        unfold partOf
        split_ifs <;> simp
      simp [hpart]

theorem rooted_congr (h : same p q = true) : Rooted p ↔ Rooted q := by
  rw [Rooted, Rooted, same_iff.1 h]

theorem rooted_generated (p : String) : Rooted (idbPathForRawBinary p) ↔ Rooted p := by
  rw [Rooted, Rooted, components_generated, head_generated, components_eq]

theorem rooted_lock (p : String) : Rooted (openLockPath p) ↔ Rooted p := by
  cases hdb : isIdbPath p with
  | true => rw [Rooted, openLockPath_idb hdb, components_lockPath, head_withExtension, Rooted]
  | false => rw [Rooted, components_rawLock hdb, head_generated, Rooted, components_eq]

theorem rooted_match (h : databasePathsMatch p q = true) : Rooted p ↔ Rooted q := by
  have hid0 : ∀ {p q id0 : String}, unpackedId0Path p = some id0 → same id0 q = true → (Rooted p ↔ Rooted q) := by
    intro p q id0 hid0 hsame
    obtain ⟨-, rfl⟩ := unpackedId0Path_eq_some.1 hid0
    rw [← rooted_congr hsame, Rooted, Rooted, components_setExtension p (by decide) (by decide), head_withExtension]
  have hgen : ∀ {p q : String}, same (idbPathForRawBinary q) p = true → (Rooted p ↔ Rooted q) := by
    intro p q hsame
    rw [← rooted_congr hsame, rooted_generated]
  rcases databasePathsMatch_iff.1 h with hsame | ⟨id0, hpacked, hsame⟩ | ⟨id0, hpacked, hsame⟩ | ⟨-, hsame⟩ | ⟨-, hsame⟩
  · exact rooted_congr hsame
  · exact hid0 hpacked hsame
  · exact (hid0 hpacked hsame).symm
  · exact hgen hsame
  · exact (hgen hsame).symm

end

/-! ### Requests -/

/-- A directory from the root that is not named like a database. -/
structure HomeDirectory (home : String) : Prop where
  absolute : home.toList.head? = some '/'
  noDatabase : isIdbPath home = false
  notBare : components home ≠ [.root, .normal ".i64".toList]

section

variable {files : Files} {a b home : String}

theorem HomeDirectory.components (h : HomeDirectory home) :
    ∃ cs, Path.components home = .root :: cs := by
  obtain ⟨t, ht⟩ := List.head?_eq_some_iff.1 h.absolute
  have hroot : textComponents (['/'] ++ t) = textComponents ['/'] ++ inner t :=
    textComponents_dir (.inr ⟨[], rfl⟩) (by simp) t
  exact ⟨inner t, by rw [components_eq, ht]; exact hroot⟩

theorem tilde_notDatabase : ¬ DatabaseName [.normal ['~']] := by decide

theorem root_notDatabase : ¬ DatabaseName [.root] := by decide

/-- `join` puts a relative path behind the home directory. -/
theorem HomeDirectory.behind_join (h : HomeDirectory home) {rest : List Char} (hslash : rest.head? ≠ some '/') :
    Behind (Path.components home) (Path.join home (String.ofList rest)).toList rest := by
  have hne : home.toList ≠ [] := by
    intro hnil
    have habs := h.absolute
    rw [hnil] at habs
    cases habs
  have hndb : ¬ DatabaseName (Path.components home) := by
    rw [← isIdbPath_iff, h.noDatabase]
    decide
  refine ⟨?_, hndb⟩
  rw [Path.join, if_neg (by simpa using hslash)]
  by_cases hend : home.toList.getLast? = some '/'
  · rw [if_pos (.inr hend), String.toList_append, String.toList_ofList]
    obtain ⟨e, he⟩ := List.getLast?_eq_some_iff.1 hend
    exact ⟨home.toList, .inr ⟨e, he⟩, hne, (components_eq home).symm, rfl⟩
  · rw [if_neg (not_or.2 ⟨hne, hend⟩), String.toList_append, String.toList_append, String.toList_ofList]
    refine ⟨home.toList ++ ['/'], .inr ⟨_, rfl⟩, by simp, ?_, by rw [String.toList_ofList]⟩
    rw [textComponents_separator hne, components_eq]

/-- `join` takes an absolute path as it is. -/
theorem behind_join_root (home : String) (r : List Char) :
    Behind [.root] (Path.join home (String.ofList ('/' :: r))).toList r := by
  rw [Path.join, if_pos (by simp), String.toList_ofList]
  exact ⟨⟨['/'], .inr ⟨[], rfl⟩, by decide, by decide, rfl⟩, root_notDatabase⟩

/-- A path is opened as it is written, or what follows `~/` behind the home directory or behind the root. -/
theorem expand_cases (hhome : files.home = some home) (h : HomeDirectory home) (a : String) :
    expandPath files a = a ∨ ∃ r cs, Behind [.normal ['~']] a.toList r ∧ Behind cs (expandPath files a).toList r ∧
      (cs = Path.components home ∨ cs = [.root]) := by
  cases hstrip : stripPrefix ['~', '/'] a.toList with
  | none => exact .inl (by simp [expandPath, hstrip])
  | some rest =>
    have ha : a.toList = ['~', '/'] ++ rest := by
      unfold stripPrefix at hstrip
      split at hstrip
      · rename_i hpre
        obtain ⟨t, ht⟩ := hpre
        rw [← ht] at hstrip ⊢
        cases hstrip
        rfl
      · cases hstrip
    have hexpand : expandPath files a = Path.join home (String.ofList rest) := by
      simp [expandPath, hstrip, hhome]
    right
    rw [hexpand]
    by_cases hslash : rest.head? = some '/'
    · obtain ⟨r, rfl⟩ := List.head?_eq_some_iff.1 hslash
      exact ⟨r, [.root], ⟨⟨"~//".toList, .inr ⟨['~', '/'], rfl⟩, by decide, by decide, ha⟩, tilde_notDatabase⟩,
        behind_join_root home r, .inr rfl⟩
    · exact ⟨rest, Path.components home, ⟨⟨['~', '/'], .inr ⟨['~'], rfl⟩, by decide, by decide, ha⟩,
        tilde_notDatabase⟩, h.behind_join hslash, .inl rfl⟩

/-- Matching paths whose requests have one lock are opened as paths that match. -/
theorem expanded_match (hhome : ∀ home, files.home = some home → HomeDirectory home)
    (h : databasePathsMatch a b = true)
    (hlock : same (openLockPath (expandPath files a)) (openLockPath (expandPath files b)) = true) :
    databasePathsMatch (expandPath files a) (expandPath files b) = true := by
  cases hopt : files.home with
  | none =>
    have hself : ∀ a, expandPath files a = a := fun a => by
      unfold expandPath
      rw [hopt]
      cases stripPrefix ['~', '/'] a.toList <;> rfl
    rw [hself, hself]
    exact h
  | some home =>
    have hdir := hhome home hopt
    obtain ⟨cs, hcs⟩ := hdir.components
    have hrooted : ∀ {a r ds}, Behind [.normal ['~']] a.toList r → Behind ds (expandPath files a).toList r →
        (ds = components home ∨ ds = [.root]) → ¬ Rooted a ∧ Rooted (expandPath files a) := by
      intro a r ds ha hea hds
      rw [Rooted, Rooted, ha.components, hea.components]
      refine ⟨by simp, ?_⟩
      rcases hds with rfl | rfl
      · rw [hcs]
        rfl
      · rfl
    have hlocks : Rooted (expandPath files a) ↔ Rooted (expandPath files b) := by
      rw [← rooted_lock, rooted_congr hlock, rooted_lock]
    -- one lock is in the home directory, the other below the root
    have hdeeper : ∀ {p q : String} {r s}, TailsMatch r s → Behind (components home) p.toList r →
        Behind [.root] q.toList s → same (openLockPath p) (openLockPath q) = true →
        components home = [.root] := by
      intro p q r s htails hp hq hsame
      rw [same_iff, hp.lock, hq.lock, hcs, List.cons_append, List.singleton_append] at hsame
      rw [hcs]
      by_contra hne
      have hbare := lockTail_deeper htails (fun hnil => hne (by rw [hnil])) (List.cons.inj hsame).2
      exact hdir.notBare (by rw [hcs, hbare])
    rcases expand_cases hopt hdir a with ha | ⟨r, ds, ha, hea, hds⟩ <;>
      rcases expand_cases hopt hdir b with hb | ⟨s, es, hb, heb, hes⟩
    · rw [ha, hb]
      exact h
    · obtain ⟨hnb, hreb⟩ := hrooted hb heb hes
      rw [ha] at hlocks
      exact absurd ((rooted_match h).1 (hlocks.2 hreb)) hnb
    · obtain ⟨hna, hrea⟩ := hrooted ha hea hds
      rw [hb] at hlocks
      exact absurd ((rooted_match h).2 (hlocks.1 hrea)) hna
    · have htails := (dirs_match_iff ha hb).1 h
      have hsame : ds = es := by
        rcases hds with rfl | rfl <;> rcases hes with rfl | rfl
        · rfl
        · exact hdeeper htails hea heb hlock
        · exact (hdeeper htails.symm heb hea (by rw [same_comm]; exact hlock)).symm
        · rfl
      exact (dirs_match_iff hea (hsame ▸ heb)).2 htails

end

/-- Two requests for matching paths, without `idb_out`, have one lock exactly where the paths match once `~/` is
expanded, and then one of them is a database by its extension, or they are one path and their texts end alike, or one is
generated from the other and ends in `.i64`. -/
theorem matching_opens_share_lock (files : Files) (a b : OpenArgs) (ha : a.idbOut = none) (hb : b.idbOut = none) :
    databasePathsMatch a.path b.path = databasePathsMatch b.path a.path ∧
    (databasePathsMatch (expandPath files a.path) (expandPath files b.path) = true →
      (same (Lock.lockPath (planOpen files a).lockTarget) (Lock.lockPath (planOpen files b).lockTarget) = true ↔
        SharesLock (expandPath files a.path) (expandPath files b.path))) ∧
    ((∀ home, files.home = some home → HomeDirectory home) → databasePathsMatch a.path b.path = true →
      (same (Lock.lockPath (planOpen files a).lockTarget) (Lock.lockPath (planOpen files b).lockTarget) = true ↔
        databasePathsMatch (expandPath files a.path) (expandPath files b.path) = true ∧
          SharesLock (expandPath files a.path) (expandPath files b.path))) := by
  rw [planOpen_lockTarget files ha, planOpen_lockTarget files hb]
  refine ⟨databasePathsMatch_comm _ _, openLocks_same_iff, fun hhome hmatch => ⟨fun hlock => ?_, fun h => ?_⟩⟩
  · have hexpanded := expanded_match hhome hmatch hlock
    exact ⟨hexpanded, (openLocks_same_iff hexpanded).1 hlock⟩
  · exact (openLocks_same_iff h.1).2 h.2

/-- A home directory, and files that exist. -/
def userFiles : Files := ⟨some "/home/u", fun _ => true, some⟩

theorem userFiles_home : ∀ home, userFiles.home = some home → HomeDirectory home := by
  intro home hhome
  cases hhome
  exact ⟨by decide +kernel, by decide +kernel, by decide +kernel⟩

/-- A raw input in the home directory and its generated database. -/
theorem matching_opens_share_lock_app :
    databasePathsMatch "~/fw/app.v1" "~/fw//app.v1.i64" = databasePathsMatch "~/fw//app.v1.i64" "~/fw/app.v1" ∧
    same (Lock.lockPath (planOpen userFiles { path := "~/fw/app.v1" }).lockTarget)
      (Lock.lockPath (planOpen userFiles { path := "~/fw//app.v1.i64" }).lockTarget) = true ∧
    databasePathsMatch (expandPath userFiles "~/fw/app.v1") (expandPath userFiles "~/fw//app.v1.i64") = true ∧
    SharesLock (expandPath userFiles "~/fw/app.v1") (expandPath userFiles "~/fw//app.v1.i64") := by
  obtain ⟨hcomm, hlock, hiff⟩ := matching_opens_share_lock userFiles { path := "~/fw/app.v1" }
    { path := "~/fw//app.v1.i64" } rfl rfl
  have hsame := (hlock (by decide +kernel)).2 (.inr (.inl (by decide +kernel)))
  exact ⟨hcomm, hsame, (hiff userFiles_home (by decide +kernel)).1 hsame⟩

/-- One path, two locks: with a separator at the end, which exists only for a directory, and with one behind `~/`. -/
theorem trailing_separator_other_lock :
    databasePathsMatch "/fw/boot" "/fw/boot/" = true ∧
      Lock.lockPath (planOpen userFiles { path := "/fw/boot" }).lockTarget = "/fw/boot.imcp" ∧
      Lock.lockPath (planOpen userFiles { path := "/fw/boot/" }).lockTarget = "/fw/boot/.i64.imcp" ∧
      same "/fw/boot.imcp" "/fw/boot/.i64.imcp" = false ∧
    databasePathsMatch "~/app.i64" "~//app.i64" = true ∧
      Lock.lockPath (planOpen userFiles { path := "~/app.i64" }).lockTarget = "/home/u/app.imcp" ∧
      Lock.lockPath (planOpen userFiles { path := "~//app.i64" }).lockTarget = "/app.imcp" ∧
      same "/home/u/app.imcp" "/app.imcp" = false := by
  decide +kernel

end OpenLock

end IdaRs
