import IdaRs.IdaLoop
import IdaRs.Lock
import IdaRs.PathParts

/-!
# The lock of an open (`src/ida/handlers/database.rs` 62-125, 188-250, `src/ida/lock.rs` 43-54)

`handle_open` locks a database by its own path and a raw input by the database it generates. `database_paths_match`
compares components, the path of the generated database is made from the text: a raw input with separators or `.` at
its end has another lock than the same path without them, `matching_opens_share_lock`.
-/

namespace IdaRs

namespace OpenLock

open IdaLoop IdaRs.Path

/-- The path that `handle_open` locks, of an expanded path and without `idb_out`. -/
def lockTarget (expanded : String) : String :=
  if isIdbPath expanded then expanded else idbPathForRawBinary expanded

def openLockPath (expanded : String) : String := Lock.lockPath (lockTarget expanded)

theorem planOpen_lockTarget (files : Files) {args : OpenArgs} (h : args.idbOut = none) :
    (planOpen files args).lockTarget = lockTarget (expandPath files args.path) := by
  unfold planOpen lockTarget
  dsimp only
  split
  · rfl
  · rw [h]
    rfl

/-! ### Databases -/

section

variable {a b : String}

theorem same_iff : same a b = true ↔ components a = components b := decide_eq_true_iff

theorem extension_congr (h : same a b) : extension a = extension b := by
  rw [extension_eq, extension_eq, same_iff.1 h]

theorem isIdbPath_congr (h : same a b) : isIdbPath a = isIdbPath b := by
  unfold isIdbPath
  rw [extension_congr h]

theorem components_lockPath (a : String) :
    components (Lock.lockPath a) = withExtension (components a) "imcp".toList :=
  components_setExtension a (by decide) (by decide)

theorem lockPath_congr (h : same a b) : same (Lock.lockPath a) (Lock.lockPath b) := by
  rw [same_iff, components_lockPath, components_lockPath, same_iff.1 h]

theorem openLockPath_idb (h : isIdbPath a = true) : openLockPath a = Lock.lockPath a := by
  rw [openLockPath, lockTarget, if_pos h]

theorem openLockPath_raw (h : isIdbPath a = false) : openLockPath a = Lock.lockPath (idbPathForRawBinary a) := by
  rw [openLockPath, lockTarget, if_neg (by rw [h]; decide)]

theorem isIdbPath_of_extensionIs (h : extensionIs a "i64" = true ∨ extensionIs a "idb" = true) :
    isIdbPath a = true := by
  unfold extensionIs at h
  unfold isIdbPath
  cases hext : extension a with
  | none => simp [hext] at h
  | some ext =>
    rw [hext] at h
    simp only [Option.any_some, decide_eq_true_eq] at h
    simp only [Option.getD_some, decide_eq_true_eq]
    rcases h with h | h
    · exact .inl h
    · exact .inr (.inl h)

/-- The unpacked database has the lock of the packed one. -/
theorem unpacked_lock {id0 : String} (hid0 : unpackedId0Path a = some id0) (h : same id0 b) :
    isIdbPath a = true ∧ isIdbPath b = true ∧ same (Lock.lockPath a) (Lock.lockPath b) := by
  obtain ⟨hext, hset⟩ : (extensionIs a "i64" || extensionIs a "idb") = true ∧ setExtension a "id0" = id0 := by
    unfold unpackedId0Path at hid0
    split at hid0
    · rename_i hext
      exact ⟨hext, Option.some.inj hid0⟩
    · cases hid0
  have ha := isIdbPath_of_extensionIs (Bool.or_eq_true_iff.1 hext)
  have hsome : extension a ≠ none := by
    intro hnone
    rw [isIdbPath, hnone] at ha
    revert ha
    decide
  have hb : isIdbPath b = true := by
    rw [← isIdbPath_congr h, ← hset, isIdbPath, extension_setExtension (by decide) (by decide) (by decide) hsome]
    decide
  refine ⟨ha, hb, ?_⟩
  rw [same_iff, components_lockPath, components_lockPath, ← same_iff.1 h, ← hset,
    components_setExtension a (by decide) (by decide), withExtension_twice _ (by decide) _ fun n => lastName_ne_nil]

/-! ### Raw inputs -/

/-- The components of a generated database: those before the last part of the input, and a name from this part. -/
theorem components_generated (a : String) : components (idbPathForRawBinary a) =
    textComponents (beforeLast a.toList) ++ [Component.normal (lastPart a.toList ++ ".i64".toList)] := by
  have htext : (idbPathForRawBinary a).toList = beforeLast a.toList ++ (lastPart a.toList ++ ".i64".toList) := by
    rw [← List.append_assoc, beforeLast_append_lastPart, idbPathForRawBinary, String.toList_append]
  have hsep : '/' ∉ lastPart a.toList ++ ".i64".toList := by
    rw [List.mem_append, not_or]
    exact ⟨separator_notMem_lastPart _, by decide⟩
  have hne : ∀ l : List Char, l.length ≤ 2 → lastPart a.toList ++ ".i64".toList ≠ l := by
    rintro l hl rfl
    rw [List.length_append] at hl
    have h4 : ".i64".toList.length = 4 := by decide
    omega
  rw [components_eq, htext, textComponents_append (isDir_beforeLast _) hsep fun _ => hne _ (by decide),
    partOf_name ⟨hne _ (by decide), hne _ (by decide), hne _ (by decide)⟩]

/-- What the lock of a raw input is called after. -/
def rawStem (n : List Char) : List Char := if n = [] then ".i64".toList else n

theorem splitExtension_generated (n : List Char) :
    splitExtension (n ++ ".i64".toList) = (rawStem n, if n = [] then none else some "i64".toList) := by
  unfold rawStem
  split_ifs with hn
  · rw [hn]
    decide
  · exact splitExtension_append hn (by decide)

theorem components_rawLock (h : isIdbPath a = false) : components (openLockPath a) =
    textComponents (beforeLast a.toList) ++ [Component.normal (rawStem (lastPart a.toList) ++ ".imcp".toList)] := by
  rw [openLockPath_raw h, components_lockPath, components_generated, withExtension_append, splitExtension_generated]
  rfl

/-- A generated database has the extension unless its whole name is `.i64`. -/
theorem isIdbPath_generated (a : String) : isIdbPath (idbPathForRawBinary a) = true ↔ lastPart a.toList ≠ [] := by
  rw [isIdbPath, extension_eq, components_generated, lastName_append, Option.bind_some, splitExtension_generated]
  by_cases hn : lastPart a.toList = []
  · simp only [hn, if_true, ne_eq, not_true, iff_false]
    decide
  · simp only [hn, if_false, ne_eq, not_false_iff, iff_true]
    decide

theorem rawLocks_same (ha : isIdbPath a = false) (hb : isIdbPath b = false) :
    same (openLockPath a) (openLockPath b) ↔
      textComponents (beforeLast a.toList) = textComponents (beforeLast b.toList) ∧
        rawStem (lastPart a.toList) = rawStem (lastPart b.toList) := by
  rw [same_iff, components_rawLock ha, components_rawLock hb]
  refine ⟨fun h => ?_, fun h => by rw [h.1, h.2]⟩
  obtain ⟨hdir, hname⟩ := List.append_inj' h rfl
  exact ⟨hdir, List.append_cancel_right (Component.normal.inj (List.head_eq_of_cons_eq hname))⟩

/-- Both texts have the same last part, after a separator or both without one. -/
def EndAlike (a b : List Char) : Prop := lastPart a = lastPart b ∧ (beforeLast a = [] ↔ beforeLast b = [])

instance (a b : List Char) : Decidable (EndAlike a b) := inferInstanceAs (Decidable (_ ∧ _))

theorem rawStem_eq {m n : List Char} (h : rawStem m = rawStem n) :
    m = n ∨ (m = [] ∧ n = ".i64".toList) ∨ (m = ".i64".toList ∧ n = []) := by
  unfold rawStem at h
  split_ifs at h with hm hn hn
  · exact .inl (hm.trans hn.symm)
  · exact .inr (.inl ⟨hm, h.symm⟩)
  · exact .inr (.inr ⟨h, hn⟩)
  · exact .inl h

/-- One path cannot both be a directory and a name in it. -/
theorem lastPart_ne {s t : List Char} (h : textComponents s = textComponents t)
    (hdir : textComponents (beforeLast s) = textComponents (beforeLast t)) (hs : lastPart s = []) :
    lastPart t ≠ ".i64".toList := by
  intro ht
  have hs' : s ≠ ['.'] := fun hdot => absurd hs (by rw [hdot]; decide)
  have ht' : t ≠ ['.'] := fun hdot => absurd ht (by rw [hdot]; decide)
  rw [textComponents_cut hs', textComponents_cut ht', hdir, hs, ht] at h
  have hpart := List.append_cancel_left h
  revert hpart
  decide

/-- One path twice: the locks agree where the texts end alike. -/
theorem same_raw_lock (ha : isIdbPath a = false) (h : same a b) :
    same (openLockPath a) (openLockPath b) ↔ EndAlike a.toList b.toList := by
  have hb : isIdbPath b = false := by rw [← isIdbPath_congr h, ha]
  have hcs : textComponents a.toList = textComponents b.toList := by
    rw [← components_eq, ← components_eq, same_iff.1 h]
  rw [rawLocks_same ha hb]
  constructor
  · rintro ⟨hdir, hstem⟩
    refine ⟨?_, by rw [← textComponents_eq_nil, hdir, textComponents_eq_nil]⟩
    rcases rawStem_eq hstem with hlast | ⟨hla, hlb⟩ | ⟨hla, hlb⟩
    · exact hlast
    · exact absurd hlb (lastPart_ne hcs hdir hla)
    · exact absurd hla (lastPart_ne hcs.symm hdir.symm hlb)
  · rintro ⟨hlast, hnil⟩
    refine ⟨?_, by rw [hlast]⟩
    by_cases hdot : a.toList = ['.']
    · have hbefore := (eq_dot_iff.1 hdot).1
      rw [hbefore, hnil.1 hbefore]
    · have hdot' : b.toList ≠ ['.'] := by
        rwa [ne_eq, eq_dot_iff, ← hlast, ← hnil, ← eq_dot_iff]
      rw [textComponents_cut hdot, textComponents_cut hdot', hlast] at hcs
      exact List.append_cancel_right hcs

/-- A raw input and its generated database, of which neither has an extension of a database. -/
theorem generated_raw_lock (ha : isIdbPath a = false) (hb : isIdbPath b = false) (h : same (idbPathForRawBinary b) a) :
    same (openLockPath a) (openLockPath b) ↔ lastPart a.toList = ".i64".toList := by
  have hlast : lastPart b.toList = [] := by
    by_contra hne
    have hgen := (isIdbPath_generated b).2 hne
    rw [isIdbPath_congr h, ha] at hgen
    cases hgen
  have hcs : textComponents a.toList = textComponents (beforeLast b.toList) ++ [Component.normal ".i64".toList] := by
    rw [← components_eq, ← same_iff.1 h, components_generated, hlast, List.nil_append]
  have hdot : a.toList ≠ ['.'] := by
    intro hdot
    rw [hdot] at hcs
    have := congrArg lastName hcs
    rw [lastName_append] at this
    cases this
  rw [textComponents_cut hdot] at hcs
  rw [rawLocks_same ha hb, hlast]
  constructor
  · rintro ⟨hdir, -⟩
    rw [hdir] at hcs
    exact eq_of_partOf (List.append_cancel_left hcs)
  · intro hla
    rw [hla, partOf_name (by decide)] at hcs
    exact ⟨List.append_cancel_right hcs, by rw [hla]; decide⟩

/-! ### Matching paths -/

/-- Where the locks of two matching paths agree. -/
def SharesLock (a b : String) : Prop :=
  isIdbPath a = true ∨ isIdbPath b = true ∨
    (same a b = true ∧ EndAlike a.toList b.toList) ∨
    (same (idbPathForRawBinary a) b = true ∧ lastPart b.toList = ".i64".toList) ∨
    (same (idbPathForRawBinary b) a = true ∧ lastPart a.toList = ".i64".toList)

instance (a b : String) : Decidable (SharesLock a b) := inferInstanceAs (Decidable (_ ∨ _))

theorem databasePathsMatch_comm (a b : String) : databasePathsMatch a b = databasePathsMatch b a := by
  unfold databasePathsMatch
  rw [same_comm a b, Bool.or_right_comm (same b a), Bool.or_right_comm _ (rawInputMatchesGeneratedDatabase b a)]

theorem databasePathsMatch_iff : databasePathsMatch a b = true ↔
    same a b = true ∨ (∃ id0, unpackedId0Path a = some id0 ∧ same id0 b = true) ∨
      (∃ id0, unpackedId0Path b = some id0 ∧ same id0 a = true) ∨
      (isIdbPath b = false ∧ same (idbPathForRawBinary b) a = true) ∨
      (isIdbPath a = false ∧ same (idbPathForRawBinary a) b = true) := by
  simp only [databasePathsMatch, rawInputMatchesGeneratedDatabase, Bool.or_eq_true, Bool.and_eq_true,
    Bool.not_eq_true', Option.any_eq_true, or_assoc]

/-- A raw input and its generated database with the extension. -/
theorem generated_idb_lock (hb : isIdbPath b = false) (h : same (idbPathForRawBinary b) a) (ha : isIdbPath a = true) :
    same (openLockPath a) (openLockPath b) := by
  rw [openLockPath_idb ha, openLockPath_raw hb, same_comm]
  exact lockPath_congr h

theorem idb_lock (h : databasePathsMatch a b = true) (hidb : isIdbPath a = true ∨ isIdbPath b = true) :
    same (openLockPath a) (openLockPath b) := by
  rcases databasePathsMatch_iff.1 h with hsame | ⟨id0, hid0, hsame⟩ | ⟨id0, hid0, hsame⟩ | ⟨hb, hgen⟩ | ⟨ha, hgen⟩
  · have hboth : isIdbPath a = true ∧ isIdbPath b = true := by
      rw [isIdbPath_congr hsame] at hidb ⊢
      tauto
    rw [openLockPath_idb hboth.1, openLockPath_idb hboth.2]
    exact lockPath_congr hsame
  · obtain ⟨ha, hb, hlock⟩ := unpacked_lock hid0 hsame
    rwa [openLockPath_idb ha, openLockPath_idb hb]
  · obtain ⟨hb, ha, hlock⟩ := unpacked_lock hid0 hsame
    rwa [openLockPath_idb ha, openLockPath_idb hb, same_comm]
  · exact generated_idb_lock hb hgen (hidb.resolve_right (by rw [hb]; decide))
  · rw [same_comm]
    exact generated_idb_lock ha hgen (hidb.resolve_left (by rw [ha]; decide))

theorem raw_lock (h : databasePathsMatch a b = true) (ha : isIdbPath a = false) (hb : isIdbPath b = false) :
    same (openLockPath a) (openLockPath b) ↔ SharesLock a b := by
  constructor
  · intro hlock
    refine .inr (.inr ?_)
    rcases databasePathsMatch_iff.1 h with hsame | ⟨id0, hid0, hsame⟩ | ⟨id0, hid0, hsame⟩ | ⟨-, hgen⟩ | ⟨-, hgen⟩
    · exact .inl ⟨hsame, (same_raw_lock ha hsame).1 hlock⟩
    · exact absurd (unpacked_lock hid0 hsame).1 (by rw [ha]; decide)
    · exact absurd (unpacked_lock hid0 hsame).1 (by rw [hb]; decide)
    · exact .inr (.inr ⟨hgen, (generated_raw_lock ha hb hgen).1 hlock⟩)
    · rw [same_comm] at hlock
      exact .inr (.inl ⟨hgen, (generated_raw_lock hb ha hgen).1 hlock⟩)
  · rintro (hidb | hidb | ⟨hsame, hend⟩ | ⟨hgen, hlast⟩ | ⟨hgen, hlast⟩)
    · exact absurd hidb (by rw [ha]; decide)
    · exact absurd hidb (by rw [hb]; decide)
    · exact (same_raw_lock ha hsame).2 hend
    · rw [same_comm]
      exact (generated_raw_lock hb ha hgen).2 hlast
    · exact (generated_raw_lock ha hb hgen).2 hlast

/-- Two matching paths have one lock exactly where one of them is a database by its extension, or they are one path
and their texts end alike, or one is generated from the other and ends in `.i64`. -/
theorem openLocks_same_iff (h : databasePathsMatch a b = true) :
    same (openLockPath a) (openLockPath b) = true ↔ SharesLock a b := by
  by_cases hidb : isIdbPath a = true ∨ isIdbPath b = true
  · refine ⟨fun _ => ?_, fun _ => idb_lock h hidb⟩
    rcases hidb with ha | hb
    · exact .inl ha
    · exact .inr (.inl hb)
  · rw [not_or, Bool.not_eq_true, Bool.not_eq_true] at hidb
    exact raw_lock h hidb.1 hidb.2

end

end OpenLock

end IdaRs
