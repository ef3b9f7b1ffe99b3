import Mathlib.Data.List.TakeWhile
import IdaRs.Values

/-!
# Addresses in text (`IpAddr::from_str` of the Rust standard library)

A reader takes a part off the front of the text or fails and takes nothing. Whatever is read as an address is written
in hexadecimal digits, colons and dots (`parseIpAddr_chars`), so that a name which a resolver would look up, and which
has a letter past `f`, is none.
-/

namespace IdaRs

inductive IpAddr
  | v4 (a b c d : Nat)
  | v6 (groups : List Nat)
deriving DecidableEq, Repr

namespace IpAddr

def isLoopback : IpAddr → Bool
  | v4 a _ _ _ => a = 127
  | v6 groups => groups = [0, 0, 0, 0, 0, 0, 0, 1]

def isUnspecified : IpAddr → Bool
  | v4 a b c d => a = 0 ∧ b = 0 ∧ c = 0 ∧ d = 0
  | v6 groups => groups = [0, 0, 0, 0, 0, 0, 0, 0]

abbrev Reader (α : Type) := StateT (List Char) Option α

def readGivenChar (target : Char) : Reader Unit := fun s =>
  match s with
  | c :: rest => if c = target then some ((), rest) else none
  | [] => none

/-- The separator stands before every item but the first. -/
def readSeparator {α : Type} (sep : Char) (first : Bool) (inner : Reader α) : Reader α := do
  if first then inner
  else
    readGivenChar sep
    inner

/-- A number of at most `maxDigits` digits and at most `max`. -/
def readNumber (radix maxDigits max : Nat) (allowZeroPrefix : Bool) : Reader Nat := fun s =>
  let digits := s.takeWhile fun c => (toDigit radix c).isSome
  let rest := s.dropWhile fun c => (toDigit radix c).isSome
  if digits = [] ∨ maxDigits < digits.length then none
  else if !allowZeroPrefix && digits.head? = some '0' && 1 < digits.length then none
  else ((radixValue radix digits).filter (· ≤ max)).map (·, rest)

def readOctet : Reader Nat := readNumber 10 3 255 false

def readIpv4Addr : Reader (Nat × Nat × Nat × Nat) := do
  let a ← readSeparator '.' true readOctet
  let b ← readSeparator '.' false readOctet
  let c ← readSeparator '.' false readOctet
  let d ← readSeparator '.' false readOctet
  return (a, b, c, d)

/-- Up to so many groups of sixteen bits; the last two may be written as an address of version 4. -/
def readGroups (first : Bool) : Nat → Reader (List Nat × Bool)
  | 0 => pure ([], false)
  | left + 1 => fun s =>
    match if 1 ≤ left then (readSeparator ':' first readIpv4Addr) s else none with
    | some ((a, b, c, d), rest) => some (([256 * a + b, 256 * c + d], true), rest)
    | none =>
      match (readSeparator ':' first (readNumber 16 4 65535 true)) s with
      | some (group, rest) => (readGroups false left rest).map fun r => ((group :: r.1.1, r.1.2), r.2)
      | none => some (([], false), s)

def readIpv6Addr : Reader (List Nat) := do
  let (head, headIpv4) ← readGroups true 8
  if head.length = 8 then return head
  -- the part of version 4 is not allowed before `::`
  if headIpv4 then failure
  readGivenChar ':'
  readGivenChar ':'
  let (tail, _) ← readGroups true (8 - (head.length + 1))
  return head ++ List.replicate (8 - head.length - tail.length) 0 ++ tail

def readIpAddr : Reader IpAddr := fun s =>
  match readIpv4Addr s with
  | some ((a, b, c, d), rest) => some (.v4 a b c d, rest)
  | none => (readIpv6Addr s).map fun r => (.v6 r.1, r.2)

end IpAddr

/-- `str::parse::<IpAddr>`: all of the text is read. -/
def parseIpAddr (s : List Char) : Option IpAddr :=
  match IpAddr.readIpAddr s with
  | some (ip, []) => some ip
  | _ => none

namespace IpAddr

/-- What an address is written in. -/
def IpChar (c : Char) : Prop := (toDigit 16 c).isSome ∨ c = ':' ∨ c = '.'

/-- A reader takes only such characters off the front. -/
def Takes {α : Type} (p : Reader α) : Prop :=
  ∀ s a rest, p s = some (a, rest) → ∃ used, s = used ++ rest ∧ ∀ c ∈ used, IpChar c

variable {α β : Type} {p : Reader α}

theorem takes_pure (a : α) : Takes (pure a) := by
  intro s b rest h
  cases h
  exact ⟨[], rfl, fun c hc => absurd hc List.not_mem_nil⟩

theorem takes_failure : Takes (failure : Reader α) := by
  intro s a rest h
  cases h

theorem Takes.bind {f : α → Reader β} (hp : Takes p) (hf : ∀ a, Takes (f a)) : Takes (p >>= f) := by
  intro s b rest h
  obtain ⟨x, hx, hb⟩ := Option.bind_eq_some_iff.1 h
  obtain ⟨used, rfl, hused⟩ := hp s x.1 x.2 hx
  obtain ⟨used', hrest, hused'⟩ := hf x.1 x.2 b rest hb
  refine ⟨used ++ used', by rw [hrest, List.append_assoc], ?_⟩
  intro c hc
  rcases List.mem_append.1 hc with hc | hc
  · exact hused c hc
  · exact hused' c hc

theorem Takes.map (f : α → β) (hp : Takes p) : Takes fun s => (p s).map fun r => (f r.1, r.2) := by
  intro s b rest h
  obtain ⟨x, hx, heq⟩ := Option.map_eq_some_iff.1 h
  cases heq
  exact hp s x.1 x.2 hx

theorem takes_givenChar {target : Char} (h : IpChar target) : Takes (readGivenChar target) := by
  intro s a rest hs
  unfold readGivenChar at hs
  cases s with
  | nil => cases hs
  | cons c cs =>
    simp only at hs
    split at hs <;> cases hs
    rename_i hc
    refine ⟨[c], rfl, fun x hx => ?_⟩
    rw [List.mem_singleton.1 hx, hc]
    exact h

theorem Takes.separated {sep : Char} (hsep : IpChar sep) (hp : Takes p) (first : Bool) :
    Takes (readSeparator sep first p) := by
  unfold readSeparator
  cases first with
  | true => exact hp
  | false => exact (takes_givenChar hsep).bind fun _ => hp

theorem ipChar_of_digit {radix : Nat} (hradix : radix ≤ 16) {c : Char} (h : (toDigit radix c).isSome) : IpChar c := by
  left
  simp only [toDigit] at h ⊢
  -- a character that is no digit has the radix for its value
  split_ifs at h ⊢ <;> first | rfl | omega

theorem takes_number {radix : Nat} (hradix : radix ≤ 16) (maxDigits max : Nat) (allowZeroPrefix : Bool) :
    Takes (readNumber radix maxDigits max allowZeroPrefix) := by
  intro s n rest h
  unfold readNumber at h
  simp only at h
  split at h
  · cases h
  split at h
  · cases h
  obtain ⟨v, -, heq⟩ := Option.map_eq_some_iff.1 h
  cases heq
  refine ⟨_, List.takeWhile_append_dropWhile.symm, fun c hc => ipChar_of_digit hradix ?_⟩
  exact List.mem_takeWhile_imp (p := fun c => (toDigit radix c).isSome) hc

theorem takes_ipv4 : Takes readIpv4Addr := by
  have hoctet (first : Bool) : Takes (readSeparator '.' first readOctet) :=
    (takes_number (by omega) 3 255 false).separated (.inr (.inr rfl)) first
  exact (hoctet true).bind fun a => (hoctet false).bind fun b => (hoctet false).bind fun c =>
    (hoctet false).bind fun d => takes_pure (a, b, c, d)

theorem takes_groups (first : Bool) (left : Nat) : Takes (readGroups first left) := by
  induction left generalizing first with
  | zero => exact takes_pure ([], false)
  | succ left ih =>
    have hcolon : IpChar ':' := .inr (.inl rfl)
    intro s r rest h
    unfold readGroups at h
    split at h
    · rename_i x a b c d rest' hv4
      cases h
      split at hv4
      · exact takes_ipv4.separated hcolon first s _ _ hv4
      · cases hv4
    · split at h
      · rename_i group rest' hgroup
        obtain ⟨used, rfl, hused⟩ := (takes_number (by omega) 4 65535 true).separated hcolon first s _ _ hgroup
        obtain ⟨used', rfl, hused'⟩ := (ih false).map (fun r => (group :: r.1, r.2)) rest' r rest h
        refine ⟨used ++ used', by rw [List.append_assoc], fun c hc => ?_⟩
        rcases List.mem_append.1 hc with hc | hc
        · exact hused c hc
        · exact hused' c hc
      · cases h
        exact ⟨[], rfl, fun c hc => absurd hc List.not_mem_nil⟩

theorem takes_ipv6 : Takes readIpv6Addr := by
  have hcolon : Takes (readGivenChar ':') := takes_givenChar (.inr (.inl rfl))
  refine (takes_groups true 8).bind fun x => ?_
  obtain ⟨head, headIpv4⟩ := x
  have htail : Takes (readGivenChar ':' >>= fun _ => readGivenChar ':' >>= fun _ =>
      readGroups true (8 - (head.length + 1)) >>= fun x => match x with
      | (tail, _) => pure (head ++ List.replicate (8 - head.length - tail.length) 0 ++ tail)) :=
    hcolon.bind fun _ => hcolon.bind fun _ => (takes_groups true _).bind fun _ => takes_pure _
  by_cases hlen : head.length = 8
  · simp only [hlen, if_true]
    exact takes_pure head
  · simp only [hlen, if_false]
    cases headIpv4 with
    | true => exact takes_failure.bind fun _ => htail
    | false => exact (takes_pure ()).bind fun _ => htail

theorem takes_ipAddr : Takes readIpAddr := by
  intro s ip rest h
  unfold readIpAddr at h
  split at h
  · rename_i hv4
    cases h
    exact takes_ipv4 s _ _ hv4
  · exact takes_ipv6.map .v6 s ip rest h

end IpAddr

theorem parseIpAddr_chars {s : List Char} {ip : IpAddr} (h : parseIpAddr s = some ip) : ∀ c ∈ s, IpAddr.IpChar c := by
  unfold parseIpAddr at h
  split at h
  · rename_i hread
    obtain ⟨used, rfl, hused⟩ := IpAddr.takes_ipAddr s _ _ hread
    rwa [List.append_nil]
  · cases h

end IdaRs
