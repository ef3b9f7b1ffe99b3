import IdaRs.Lib.Infix
import IdaRs.Remote

/-!
# Child error text and the worker's fate

`mentions_iff`: the rendered text of an error contains one of the phrases `classifyChildError` looks
for exactly when one of the error's own payload strings does, so the class guessed by the parent is
decided by caller-controlled data. The two consumers of the guess are then safe exactly on the
errors whose payloads stay clear of the phrases (`child_error_text_iff`).
-/

namespace IdaRs

open List

/-- The phrases that `classifyChildError` looks for, in the order it tries them. -/
def classPhrases : List String :=
  ["worker channel closed", "timed out after", "operation timed out",
    "exceeded worker operation timeout", "cancelled", "canceled"]

namespace ToolError

/-- The strings an error carries. -/
def payloads : ToolError → List String
  | databaseAlreadyOpen s | openFailed s | databaseLocked s | invalidAddress s | invalidPath s |
    invalidParams s | invalidToolCategory s | invalidToolName s | functionNameNotFound s |
    timeoutDetailed s | cancelled s | workerCrashed _ s | remoteProtocol s | idaError s |
    notSupported s | sdkVersionMismatch s => [s]
  | _ => []

/-- The errors that mean the operation, not the database, ended: a failed open may release for them. -/
def isLifecycle : ToolError → Bool
  | timeout _ | timeoutDetailed _ | cancelled _ | workerClosed => true
  | _ => false

/-- A payload string of the error contains the phrase, in any ASCII case. -/
def Mentions (e : ToolError) (phrase : String) : Prop :=
  ∃ s ∈ e.payloads, phrase.toList <:+: toAsciiLowercase s

instance (e : ToolError) (phrase : String) : Decidable (e.Mentions phrase) :=
  inferInstanceAs (Decidable (∃ s ∈ e.payloads, _))

end ToolError

theorem toAsciiLowercase_append (s t : String) :
    toAsciiLowercase (s ++ t) = toAsciiLowercase s ++ toAsciiLowercase t := by
  simp [toAsciiLowercase]

/-! ### Numbers in a rendered text -/

theorem toLower_of_isDigit {c : Char} (h : c.isDigit) : c.toLower = c := by
  have h₁ : ¬ (c.val ≥ 'A'.val ∧ c.val ≤ 'Z'.val) := by
    simp only [Char.isDigit, Bool.and_eq_true, decide_eq_true_eq] at h
    intro hc
    exact absurd (UInt32.le_trans hc.1 h.2) (by decide)
  exact dif_neg h₁

theorem isDigit_of_mem_lower_repr {n : Nat} {c : Char} (h : c ∈ toAsciiLowercase n.repr) : c.isDigit := by
  simp only [toAsciiLowercase, Nat.toList_repr, mem_map] at h
  obtain ⟨d, hd, rfl⟩ := h
  have := Nat.isDigit_of_mem_toDigits (by decide) (by decide) hd
  rwa [toLower_of_isDigit this]

theorem lower_repr_ne_nil (n : Nat) : toAsciiLowercase n.repr ≠ [] := by
  simp [toAsciiLowercase, Nat.toList_repr, Nat.toDigits_ne_nil]

/-- A decimal number separates the texts around it. -/
theorem infix_repr_iff {p : List Char} {n : Nat} {xs zs : List Char} (hp : p ≠ [])
    (hd : ∀ c ∈ p, c.isDigit = false) :
    p <:+: xs ++ (toAsciiLowercase n.repr ++ zs) ↔ p <:+: xs ∨ p <:+: zs :=
  infix_separated hp (lower_repr_ne_nil n) fun c hc hcp => by
    have := isDigit_of_mem_lower_repr hc
    rw [hd c hcp] at this
    cases this

/-- The characters of `hexLit`. -/
def hexChars : List Char := "0123456789abcdefx".toList

theorem mem_hexChars_of_mem_toDigits (n : Nat) : ∀ c ∈ Nat.toDigits 16 n, c ∈ hexChars := by
  have hdigit : ∀ d < 16, Nat.digitChar d ∈ hexChars := by decide
  induction n using Nat.strongRecOn with
  | ind n ih =>
    intro c hc
    rw [Nat.toDigits_eq_if (by decide)] at hc
    split at hc
    · rename_i hn
      rw [mem_singleton.1 hc]
      exact hdigit n hn
    · rcases mem_append.1 hc with hc | hc
      · exact ih (n / 16) (by omega) c hc
      · rw [mem_singleton.1 hc]
        exact hdigit (n % 16) (Nat.mod_lt _ (by decide))

theorem mem_hexChars_of_mem_hexLit {n : Nat} {c : Char} (h : c ∈ toAsciiLowercase (hexLit n)) :
    c ∈ hexChars := by
  have hlower : ∀ d ∈ hexChars, d.toLower ∈ hexChars := by
    simpa using (by decide : hexChars.all fun d => d.toLower ∈ hexChars)
  simp only [toAsciiLowercase, hexLit, String.toList_append, String.toList_ofList, map_append,
    mem_append, mem_map] at h
  rcases h with ⟨d, hd, rfl⟩ | ⟨d, hd, rfl⟩
  · have hpre : "0x".toList ⊆ hexChars := by decide
    exact hlower d (hpre hd)
  · exact hlower d (mem_hexChars_of_mem_toDigits n d hd)

/-! ### The phrases and the fixed texts -/

/-- The fixed texts that stand before a payload or a number. -/
def fixedPrefixes : List String :=
  ["A database is already open: ", "Failed to open database: ",
    "Database appears to be open in another instance: ", "Invalid address format: ",
    "Invalid database path: ", "Invalid parameters: ", "Invalid tool category: ",
    "Invalid tool name: ", "Address ", "Function not found at address ", "Function not found: ",
    " crashed or disconnected during ", "Remote worker protocol error: ", "IDA error: ",
    "Not supported: ", "SDK version mismatch: "]

/-- The fixed texts that stand after a payload or a number. -/
def fixedSuffixes : List String := [". Use close_idb first.", " is outside valid range"]

/-- The fixed texts that are a whole message, or are cut off by numbers on their other side. -/
def fixedTexts : List String :=
  [ToolError.noDatabaseOpen.toString, ToolError.decompilerUnavailable.toString,
    ToolError.busy.toString, ToolError.databaseReplaced.toString,
    ToolError.backgroundTaskHandlePrivate.toString, "Background task registry is full (",
    " retained tasks). Retry after older results expire.", "Worker pool exhausted: ", "/",
    " workers are leased. Close an IDB or retry later.", "Worker "]

theorem toList_literal {s : String} {l : List Char} (h : s = String.ofList l) : s.toList = l :=
  h ▸ String.toList_ofList

theorem toAsciiLowercase_literal {s : String} {l : List Char} (h : s = String.ofList l) :
    toAsciiLowercase s = l.map Char.toLower := by
  rw [toAsciiLowercase, toList_literal h]

-- The kernel is slow on the bytes of a `String`, so the literals become lists of characters first.
theorem phrases_apart_prefixes : ∀ t ∈ fixedPrefixes.map toAsciiLowercase,
    ∀ p ∈ classPhrases.map String.toList, ApartLeft p t := by
  simp only [fixedPrefixes, classPhrases, map_cons, map_nil]
  repeat rw [toList_literal rfl]
  repeat rw [toAsciiLowercase_literal rfl]
  simp only [map_cons, map_nil, Char.reduceToLower]
  decide +kernel

theorem phrases_apart_suffixes : ∀ t ∈ fixedSuffixes.map toAsciiLowercase,
    ∀ p ∈ classPhrases.map String.toList, ApartRight p t := by
  simp only [fixedSuffixes, classPhrases, map_cons, map_nil]
  repeat rw [toList_literal rfl]
  repeat rw [toAsciiLowercase_literal rfl]
  simp only [map_cons, map_nil, Char.reduceToLower]
  decide +kernel

set_option maxRecDepth 4000 in
theorem phrases_not_infix_texts : ∀ t ∈ fixedTexts.map toAsciiLowercase,
    ∀ p ∈ classPhrases.map String.toList, ¬ p <:+: t := by
  unfold fixedTexts ToolError.toString
  simp only [classPhrases, map_cons, map_nil]
  repeat rw [toList_literal rfl]
  repeat rw [toAsciiLowercase_literal rfl]
  simp only [map_cons, map_nil, Char.reduceToLower]
  decide +kernel

section Phrases

variable {phrase : String} (hphrase : phrase ∈ classPhrases)
include hphrase

theorem phrase_ne_nil : phrase.toList ≠ [] := by
  have h : ∀ p ∈ classPhrases, p ≠ "" := by decide
  simpa using h phrase hphrase

theorem phrase_not_digit : ∀ c ∈ phrase.toList, c.isDigit = false := by
  have h : ∀ p ∈ classPhrases.map String.toList, p.all fun c => !c.isDigit := by
    simp only [classPhrases, map_cons, map_nil]
    repeat rw [toList_literal rfl]
    decide +kernel
  intro c hc
  simpa using all_eq_true.1 (h _ (mem_map_of_mem hphrase)) c hc

theorem phrase_not_infix_hexLit (n : Nat) : ¬ phrase.toList <:+: toAsciiLowercase (hexLit n) := by
  have h : ∀ p ∈ classPhrases.map String.toList, p.any fun c => c ∉ hexChars := by
    rw [show hexChars = _ from toList_literal rfl]
    simp only [classPhrases, map_cons, map_nil]
    repeat rw [toList_literal rfl]
    decide +kernel
  intro hn
  obtain ⟨c, hc, hne⟩ := any_eq_true.1 (h _ (mem_map_of_mem hphrase))
  exact of_decide_eq_true hne (mem_hexChars_of_mem_hexLit (hn.mem hc))

theorem phrase_infix_prefixed {t : String} {ys : List Char} (ht : t ∈ fixedPrefixes) :
    phrase.toList <:+: toAsciiLowercase t ++ ys ↔ phrase.toList <:+: ys :=
  (phrases_apart_prefixes _ (mem_map_of_mem ht) _ (mem_map_of_mem hphrase)).infix_append

theorem phrase_infix_suffixed {t : String} {xs : List Char} (ht : t ∈ fixedSuffixes) :
    phrase.toList <:+: xs ++ toAsciiLowercase t ↔ phrase.toList <:+: xs :=
  (phrases_apart_suffixes _ (mem_map_of_mem ht) _ (mem_map_of_mem hphrase)).infix_append

theorem phrase_not_infix_text {t : String} (ht : t ∈ fixedTexts) :
    ¬ phrase.toList <:+: toAsciiLowercase t :=
  phrases_not_infix_texts _ (mem_map_of_mem ht) _ (mem_map_of_mem hphrase)

theorem phrase_infix_repr {n : Nat} {xs zs : List Char} :
    phrase.toList <:+: xs ++ (toAsciiLowercase n.repr ++ zs) ↔
      phrase.toList <:+: xs ∨ phrase.toList <:+: zs :=
  infix_repr_iff (phrase_ne_nil hphrase) (phrase_not_digit hphrase)

end Phrases

/-- The text of an error contains a phrase exactly when one of its payload strings does. The
exceptions are the errors whose own text is a phrase: `workerClosed` for the first one, `timeout`
for those about time. -/
theorem mentions_iff {phrase : String} (hphrase : phrase ∈ classPhrases) {e : ToolError}
    (he : e.isLifecycle = false ∨ phrase = "worker channel closed" ∧ e ≠ .workerClosed) :
    phrase.toList <:+: toAsciiLowercase e.toString ↔ e.Mentions phrase := by
  cases e
  case noDatabaseOpen | decompilerUnavailable | busy | databaseReplaced | backgroundTaskHandlePrivate =>
    simp only [ToolError.Mentions, ToolError.payloads, not_mem_nil, false_and, exists_false, iff_false]
    exact phrase_not_infix_text hphrase (by simp [fixedTexts])
  case workerClosed => simp [ToolError.isLifecycle] at he
  all_goals
    unfold ToolError.toString
    simp only [toAsciiLowercase_append, append_assoc, ToolError.Mentions, ToolError.payloads,
      mem_singleton, exists_eq_left, not_mem_nil, false_and, exists_false, iff_false]
  case databaseAlreadyOpen s =>
    rw [phrase_infix_prefixed hphrase (by decide), phrase_infix_suffixed hphrase (by decide)]
  case addressOutOfRange n =>
    rw [phrase_infix_prefixed hphrase (by decide), phrase_infix_suffixed hphrase (by decide)]
    exact phrase_not_infix_hexLit hphrase n
  case functionNotFound n =>
    rw [phrase_infix_prefixed hphrase (by decide)]
    exact phrase_not_infix_hexLit hphrase n
  case timeout n =>
    obtain he | ⟨rfl, -⟩ := he
    · cases he
    rw [phrase_infix_repr hphrase]
    decide +kernel
  case backgroundTaskRegistryFull n =>
    rw [phrase_infix_repr hphrase]
    exact not_or.2 ⟨phrase_not_infix_text hphrase (by simp [fixedTexts]),
      phrase_not_infix_text hphrase (by simp [fixedTexts])⟩
  case poolExhausted n m =>
    rw [phrase_infix_repr hphrase, phrase_infix_repr hphrase]
    exact not_or.2 ⟨phrase_not_infix_text hphrase (by simp [fixedTexts]),
      not_or.2 ⟨phrase_not_infix_text hphrase (by simp [fixedTexts]),
        phrase_not_infix_text hphrase (by simp [fixedTexts])⟩⟩
  case workerCrashed n s =>
    rw [phrase_infix_repr hphrase, phrase_infix_prefixed hphrase (by decide)]
    exact or_iff_right (phrase_not_infix_text hphrase (by simp [fixedTexts]))
  -- what is left ends with its payload
  all_goals rw [phrase_infix_prefixed hphrase (by decide)]

/-! ### The two consumers of the class -/

theorem toToolResult_resultError (e : ToolError) (tool : String) :
    Remote.resultError e.toToolResult tool = some (Remote.classifyChildError e.toString) := by
  simp [Remote.resultError, Remote.resultErrorMessage, ToolError.toToolResult, CallToolResult.error,
    Content.asText]

theorem classify_retires (msg : String) :
    childToolErrorRetiresWorker (Remote.classifyChildError msg) =
      containsText (toAsciiLowercase msg) "worker channel closed" := by
  unfold Remote.classifyChildError
  dsimp only
  generalize containsText (toAsciiLowercase msg) "worker channel closed" = b₁
  cases b₁
  · simp only [Bool.false_eq_true, ↓reduceIte]
    split
    · rfl
    · split <;> rfl
  · rfl

theorem classify_releases (msg : String) :
    openErrorReleasesLease false (Remote.classifyChildError msg) =
      classPhrases.any (containsText (toAsciiLowercase msg)) := by
  unfold Remote.classifyChildError classPhrases
  simp only [any_cons, any_nil]
  generalize containsText (toAsciiLowercase msg) "worker channel closed" = b₁
  generalize containsText (toAsciiLowercase msg) "timed out after" = b₂
  generalize containsText (toAsciiLowercase msg) "operation timed out" = b₃
  generalize containsText (toAsciiLowercase msg) "exceeded worker operation timeout" = b₄
  generalize containsText (toAsciiLowercase msg) "cancelled" = b₅
  generalize containsText (toAsciiLowercase msg) "canceled" = b₆
  cases b₁ <;> cases b₂ <;> cases b₃ <;> cases b₄ <;> cases b₅ <;> cases b₆ <;> rfl

/-- The text a child renders `e` into decides nothing: a call whose result carries it neither clears
the handle nor retires the worker (unless `e` says the worker is closed), and an `open_idb` that
fails with it on an existing lease keeps the lease (unless `e` ends the operation itself). -/
def TextDecidesNothing {α : Type} (e : ToolError) (tool : String) (decoded : Except String α) : Prop :=
  (e ≠ .workerClosed → ∀ err, callResultFate e.toToolResult tool ≠ .retire err) ∧
  (e.isLifecycle = false → ∀ err, Remote.parseJson e.toToolResult "open_idb" decoded = .error err →
    openErrorReleasesLease false err = false)

theorem callResultFate_retires_iff (e : ToolError) (tool : String) :
    (∀ err, callResultFate e.toToolResult tool ≠ .retire err) ↔
      ¬ "worker channel closed".toList <:+: toAsciiLowercase e.toString := by
  rw [callResultFate, toToolResult_resultError]
  dsimp only
  rw [classify_retires, ← decide_eq_true_eq (p := "worker channel closed".toList <:+: _), ← containsText]
  cases containsText (toAsciiLowercase e.toString) "worker channel closed"
  · exact iff_of_true (fun err h => by cases h) Bool.false_ne_true
  · exact iff_of_false (fun hk => hk _ rfl) (fun hk => hk rfl)

theorem parseJson_releases_iff {α : Type} (e : ToolError) (decoded : Except String α) :
    (∀ err, Remote.parseJson e.toToolResult "open_idb" decoded = .error err →
      openErrorReleasesLease false err = false) ↔
      ∀ p ∈ classPhrases, ¬ p.toList <:+: toAsciiLowercase e.toString := by
  have h : Remote.parseJson e.toToolResult "open_idb" decoded =
      .error (Remote.classifyChildError e.toString) := by
    rw [Remote.parseJson, toToolResult_resultError]
  have hany : openErrorReleasesLease false (Remote.classifyChildError e.toString) = false ↔
      ∀ p ∈ classPhrases, ¬ p.toList <:+: toAsciiLowercase e.toString := by
    rw [classify_releases, any_eq_false]
    exact forall₂_congr fun p _ => by rw [containsText, decide_eq_true_eq]
  rw [← hany, h]
  exact ⟨fun hk => hk _ rfl, fun hk err herr => Except.error.inj herr ▸ hk⟩

/-- The text decides nothing exactly for the errors none of whose payload strings contains one of
the phrases: "worker channel closed" for every error, all of them for an ordinary one. -/
theorem child_error_text_iff {α : Type} (e : ToolError) (tool : String) (decoded : Except String α) :
    TextDecidesNothing e tool decoded ↔
      (e ≠ .workerClosed → ¬ e.Mentions "worker channel closed") ∧
      (e.isLifecycle = false → ∀ phrase ∈ classPhrases, ¬ e.Mentions phrase) := by
  have hclosed : "worker channel closed" ∈ classPhrases := mem_cons_self
  refine and_congr (imp_congr_right fun he => ?_) (imp_congr_right fun he => ?_)
  · rw [callResultFate_retires_iff, mentions_iff hclosed (.inr ⟨rfl, he⟩)]
  · rw [parseJson_releases_iff]
    exact forall₂_congr fun p hp => not_congr (mentions_iff hp (.inl he))

/-- A database whose path contains "cancelled" loses its lease to an `open_idb` that is refused
because it is open; a script whose error quotes the closed-channel text loses its worker. -/
theorem child_error_text_decides :
    ¬ TextDecidesNothing (.databaseAlreadyOpen "/samples/cancelled.i64") "open_idb" (.ok () : Except String Unit) ∧
    ¬ TextDecidesNothing (.idaError "print('worker channel closed')") "run_script" (.ok () : Except String Unit) := by
  constructor <;> rw [child_error_text_iff] <;> rintro ⟨h₁, h₂⟩
  · refine h₂ rfl "cancelled" (by decide) ⟨_, mem_singleton.2 rfl, ?_⟩
    rw [toList_literal rfl, toAsciiLowercase_literal rfl]
    decide +kernel
  · refine h₁ (by decide) ⟨_, mem_singleton.2 rfl, ?_⟩
    rw [toList_literal rfl, toAsciiLowercase_literal rfl]
    decide +kernel

end IdaRs
