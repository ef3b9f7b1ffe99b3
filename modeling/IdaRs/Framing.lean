import Mathlib.Data.List.Basic

/-!
# Reading protocol lines (`read_line_capped` of `src/daemon/mod.rs`)

A `Reader` is a buffered reader by the buffers its `fill_buf` will return, none of them empty. `readLineCapped` takes
them one at a time up to a newline. What the calls return is compared with the lines of the whole stream: `line n` is
its `n`-th piece between newlines, and empty after the last, as is the answer at the end of the stream.
-/

namespace IdaRs

namespace Framing

def newline : UInt8 := 10

/-- The buffers still to come. -/
structure Reader where
  buffers : List (List UInt8)
  nonempty : ∀ b ∈ buffers, b ≠ []

namespace Reader

/-- The bytes still to come. -/
def stream (r : Reader) : List UInt8 := r.buffers.flatten

end Reader

/-- `reader.consume(n)` of the buffer `available`. -/
def consume (n : Nat) (available : List UInt8) (rest : List (List UInt8)) : List (List UInt8) :=
  if available.drop n = [] then rest else available.drop n :: rest

def exceeds (max : Nat) : String := "protocol line exceeds " ++ max.repr ++ " bytes"

/-- The loop of `read_line_capped`: the buffers left and what it returns, `out` with its length. -/
def readLoop (max : Nat) (out : List UInt8) :
    List (List UInt8) → List (List UInt8) × Except String (List UInt8)
  | [] => ([], .ok out)
  | available :: rest =>
    match available.idxOf? newline with
    | some pos =>
      (consume (pos + 1) available rest,
        if (out ++ available.take pos).length > max then .error (exceeds max) else .ok (out ++ available.take pos))
    | none =>
      if (out ++ available).length > max then (rest, .error (exceeds max)) else readLoop max (out ++ available) rest

theorem consume_nonempty {n : Nat} {available : List UInt8} {rest : List (List UInt8)} (h : ∀ b ∈ rest, b ≠ []) :
    ∀ b ∈ consume n available rest, b ≠ [] := by
  unfold consume
  split
  · exact h
  · intro b hb
    rcases List.mem_cons.1 hb with rfl | hb
    · assumption
    · exact h b hb

theorem flatten_consume (n : Nat) (available : List UInt8) (rest : List (List UInt8)) :
    (consume n available rest).flatten = available.drop n ++ rest.flatten := by
  unfold consume
  split
  · simp [*]
  · rfl

theorem readLoop_nonempty {max : Nat} {buffers : List (List UInt8)} (h : ∀ b ∈ buffers, b ≠ []) (out : List UInt8) :
    ∀ b ∈ (readLoop max out buffers).1, b ≠ [] := by
  induction buffers generalizing out with
  | nil => simp [readLoop]
  | cons available rest ih =>
    have hrest : ∀ b ∈ rest, b ≠ [] := fun b hb => h b (List.mem_cons_of_mem _ hb)
    unfold readLoop
    split
    · exact consume_nonempty hrest
    · split
      · exact hrest
      · exact ih hrest _

namespace Reader

/-- `read_line_capped`: the reader afterwards and what it returns. -/
def readLineCapped (max : Nat) (r : Reader) : Reader × Except String (List UInt8) :=
  (⟨(readLoop max [] r.buffers).1, readLoop_nonempty r.nonempty []⟩, (readLoop max [] r.buffers).2)

/-- The reader after `n` calls. -/
def after (max : Nat) : Nat → Reader → Reader
  | 0, r => r
  | n + 1, r => after max n (r.readLineCapped max).1

/-- What call `n` returns, counted from 0. -/
def call (max n : Nat) (r : Reader) : Except String (List UInt8) := ((r.after max n).readLineCapped max).2

/-- The lines of the stream, each without its newline; the last is what stands after the last newline. -/
def lines (r : Reader) : List (List UInt8) := r.stream.splitOn newline

def line (r : Reader) (n : Nat) : List UInt8 := r.lines.getD n []

end Reader

/-- What is due for a line. -/
def judge (max : Nat) (line : List UInt8) : Except String (List UInt8) :=
  if line.length ≤ max then .ok line else .error (exceeds max)

/-! ## One call -/

theorem idxOf?_eq_some {available : List UInt8} {pos : Nat} (h : available.idxOf? newline = some pos) :
    ∃ before behind, available = before ++ newline :: behind ∧ newline ∉ before ∧ before.length = pos := by
  induction available generalizing pos with
  | nil => simp at h
  | cons b rest ih =>
    rw [List.idxOf?_cons] at h
    by_cases hb : b = newline
    · simp only [hb, beq_self_eq_true, if_true, Option.some.injEq] at h
      exact ⟨[], rest, by simp [hb], by simp, h⟩
    · simp only [beq_iff_eq, hb, if_false, Option.map_eq_some_iff] at h
      obtain ⟨k, hk, rfl⟩ := h
      obtain ⟨before, behind, rfl, hmem, rfl⟩ := ih hk
      exact ⟨b :: before, behind, rfl, by simpa [Ne.symm hb] using hmem, rfl⟩

/-- The bytes of a stream before its first newline. -/
def firstLine (bytes : List UInt8) : List UInt8 := bytes.takeWhile (· ≠ newline)

/-- The bytes after the first newline. -/
def afterLine (bytes : List UInt8) : List UInt8 := (bytes.dropWhile (· ≠ newline)).tail

theorem firstLine_append {bs : List UInt8} (h : newline ∉ bs) (rest : List UInt8) :
    firstLine (bs ++ rest) = bs ++ firstLine rest :=
  List.takeWhile_append_of_pos fun b hb => by simpa using fun heq : b = newline => h (heq ▸ hb)

theorem afterLine_append {bs : List UInt8} (h : newline ∉ bs) (rest : List UInt8) :
    afterLine (bs ++ rest) = afterLine rest :=
  congrArg List.tail (List.dropWhile_append_of_pos fun b hb => by simpa using fun heq : b = newline => h (heq ▸ hb))

theorem firstLine_newline (rest : List UInt8) : firstLine (newline :: rest) = [] := rfl

theorem afterLine_newline (rest : List UInt8) : afterLine (newline :: rest) = rest := rfl

theorem judge_of_lt {max : Nat} {line : List UInt8} (h : max < line.length) : judge max line = .error (exceeds max) :=
  if_neg (by omega)

/-- The loop returns the line, or the error when it is too long; a line it returns is taken off the stream with its
newline. -/
theorem readLoop_spec {max : Nat} (buffers : List (List UInt8)) {out : List UInt8} (hout : out.length ≤ max) :
    (readLoop max out buffers).2 = judge max (out ++ firstLine buffers.flatten) ∧
      ((out ++ firstLine buffers.flatten).length ≤ max →
        (readLoop max out buffers).1.flatten = afterLine buffers.flatten) := by
  induction buffers generalizing out with
  | nil => simp [readLoop, firstLine, afterLine, judge, hout]
  | cons available rest ih =>
    rw [List.flatten_cons]
    cases hpos : available.idxOf? newline with
    | some pos =>
      obtain ⟨before, behind, rfl, hmem, rfl⟩ := idxOf?_eq_some hpos
      have hline : firstLine (before ++ newline :: behind ++ rest.flatten) = before := by
        rw [List.append_assoc, firstLine_append hmem, List.cons_append, firstLine_newline, List.append_nil]
      have hafter : afterLine (before ++ newline :: behind ++ rest.flatten) = behind ++ rest.flatten := by
        rw [List.append_assoc, afterLine_append hmem, List.cons_append, afterLine_newline]
      simp only [readLoop, hpos, hline, hafter, List.take_left, flatten_consume]
      refine ⟨?_, fun _ => by simp⟩
      by_cases hlen : (out ++ before).length ≤ max
      · rw [if_neg (by omega), judge, if_pos hlen]
      · rw [if_pos (by omega), judge_of_lt (by omega)]
    | none =>
      have hmem : newline ∉ available := List.idxOf?_eq_none_iff.1 hpos
      rw [firstLine_append hmem, afterLine_append hmem, ← List.append_assoc]
      simp only [readLoop, hpos]
      by_cases hlen : (out ++ available).length ≤ max
      · rw [if_neg (by omega)]
        exact ih hlen
      · -- the rest of the line only makes it longer
        have hlong : max < (out ++ available ++ firstLine rest.flatten).length := by
          rw [List.length_append]
          omega
        rw [if_pos (by omega), judge_of_lt hlong]
        exact ⟨rfl, fun h => by omega⟩

/-! ## All calls -/

theorem splitOn_of_mem {bytes : List UInt8} (h : newline ∈ bytes) :
    bytes.splitOn newline = firstLine bytes :: (afterLine bytes).splitOn newline := by
  obtain ⟨before, behind, rfl, hmem⟩ := List.eq_append_cons_of_mem h
  rw [firstLine_append hmem, afterLine_append hmem, firstLine_newline, afterLine_newline, List.append_nil,
    List.splitOn_append_cons_self_of_not_mem hmem]

theorem splitOn_of_not_mem {bytes : List UInt8} (h : newline ∉ bytes) :
    bytes.splitOn newline = [firstLine bytes] ∧ afterLine bytes = [] := by
  have hline := firstLine_append h []
  have hafter := afterLine_append h []
  rw [List.append_nil] at hline hafter
  rw [hline, hafter, List.splitOn_eq_singleton h]
  exact ⟨by simp [firstLine], rfl⟩

/-- The lines from the second on are those of the stream after the first. -/
theorem getD_splitOn (bytes : List UInt8) (n : Nat) :
    (bytes.splitOn newline).getD (n + 1) [] = ((afterLine bytes).splitOn newline).getD n [] := by
  by_cases h : newline ∈ bytes
  · rw [splitOn_of_mem h, List.getD_cons_succ]
  · obtain ⟨hs, ha⟩ := splitOn_of_not_mem h
    rw [hs, ha, List.splitOn_nil]
    cases n <;> rfl

/-- What is left of a stream without its first `n` lines. -/
def dropLines (n : Nat) (bytes : List UInt8) : List UInt8 := [newline].intercalate ((bytes.splitOn newline).drop n)

theorem dropLines_zero (bytes : List UInt8) : dropLines 0 bytes = bytes := List.intercalate_splitOn newline

theorem dropLines_succ (n : Nat) (bytes : List UInt8) : dropLines (n + 1) bytes = dropLines n (afterLine bytes) := by
  unfold dropLines
  by_cases h : newline ∈ bytes
  · rw [splitOn_of_mem h, List.drop_succ_cons]
  · obtain ⟨hs, ha⟩ := splitOn_of_not_mem h
    rw [hs, ha, List.splitOn_nil]
    cases n <;> simp

namespace Reader

variable {max : Nat} {r : Reader}

theorem line_zero (r : Reader) : r.line 0 = firstLine r.stream := by
  unfold line lines
  by_cases h : newline ∈ r.stream
  · rw [splitOn_of_mem h]; rfl
  · rw [(splitOn_of_not_mem h).1]; rfl

theorem call_zero (max : Nat) (r : Reader) : (r.readLineCapped max).2 = judge max (r.line 0) := by
  rw [line_zero]
  exact (readLoop_spec r.buffers (Nat.zero_le max)).1

theorem stream_readLineCapped (h : (r.line 0).length ≤ max) :
    (r.readLineCapped max).1.stream = afterLine r.stream := by
  rw [line_zero] at h
  exact (readLoop_spec r.buffers (Nat.zero_le max)).2 h

theorem line_readLineCapped (h : (r.line 0).length ≤ max) (n : Nat) :
    (r.readLineCapped max).1.line n = r.line (n + 1) := by
  unfold line lines
  rw [stream_readLineCapped h, getD_splitOn]

/-- The lines that are left after a call are the later ones. -/
theorem fits_readLineCapped {n : Nat} (h : ∀ j < n + 1, (r.line j).length ≤ max) :
    ∀ j < n, ((r.readLineCapped max).1.line j).length ≤ max := by
  intro j hj
  rw [line_readLineCapped (h 0 (Nat.succ_pos n))]
  exact h (j + 1) (Nat.succ_lt_succ hj)

/-- After calls that all returned a line, the next returns the next line. -/
theorem call_eq {n : Nat} (h : ∀ j < n, (r.line j).length ≤ max) : r.call max n = judge max (r.line n) := by
  induction n generalizing r with
  | zero => exact call_zero max r
  | succ n ih =>
    have h0 : (r.line 0).length ≤ max := h 0 (Nat.succ_pos n)
    rw [← line_readLineCapped h0]
    exact ih (fits_readLineCapped h)

/-- Calls that returned a line took their lines and newlines off the stream, and nothing else. -/
theorem stream_after {n : Nat} (h : ∀ j < n, (r.line j).length ≤ max) :
    (r.after max n).stream = dropLines n r.stream := by
  induction n generalizing r with
  | zero => exact (dropLines_zero r.stream).symm
  | succ n ih =>
    have h0 : (r.line 0).length ≤ max := h 0 (Nat.succ_pos n)
    rw [dropLines_succ, ← stream_readLineCapped h0]
    exact ih (fits_readLineCapped h)

/-- Up to the first line that is too long, the calls return the lines of the stream in order and take nothing else off
it, and that line gives the error, whatever the buffers are. -/
theorem framing_independent_of_buffers (max n : Nat) (r : Reader) (h : ∀ j < n, (r.line j).length ≤ max) :
    r.call max n = judge max (r.line n) ∧ (r.after max n).stream = dropLines n r.stream :=
  ⟨call_eq h, stream_after h⟩

theorem framing_independent_of_buffers_second :
    Reader.call 2 1 ⟨[[97], [98, 10, 99], [99, 99, 10]], by decide⟩ = .error (exceeds 2) := by
  refine (framing_independent_of_buffers 2 1 ⟨[[97], [98, 10, 99], [99, 99, 10]], by decide⟩ ?_).1
  intro j hj
  obtain rfl : j = 0 := by omega
  decide

/-- After the error the rest of the line that was too long may be returned as a line, depending on the buffers. -/
theorem framing_after_error :
    (¬ ∀ (max n : Nat) (r : Reader), r.call max n = judge max (r.line n)) ∧
    ∃ r r' : Reader, r.stream = r'.stream ∧ r.line 0 = [97, 97, 97, 98] ∧ r.call 2 0 = .error (exceeds 2) ∧
      r.call 2 1 = .ok [98] ∧ r'.call 2 0 = .error (exceeds 2) ∧ r'.call 2 1 = .ok [99] := by
  refine ⟨fun h => ?_, ⟨[[97, 97, 97], [98, 10, 99, 10]], by decide⟩, ⟨[[97, 97, 97, 98, 10, 99, 10]], by decide⟩,
    rfl, rfl, rfl, rfl, rfl, rfl⟩
  have h1 := h 2 1 ⟨[[97, 97, 97], [98, 10, 99, 10]], by decide⟩
  exact absurd (Except.ok.inj h1) (by decide)

end Reader

end Framing

end IdaRs
