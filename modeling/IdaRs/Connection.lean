import IdaRs.Framing
import IdaRs.Lib.Serde
import IdaRs.Text

/-!
# A connection of the daemon (`handle_connection` of `src/daemon/router.rs` and `src/daemon/worker.rs`)

Both functions read lines, answer each and go on; they differ in who answers a request. What the router or the
worker's main thread make of request `k` of the connection is a parameter, so that every interleaving with other
connections is covered; so is `serde_json::from_str::<Request>`. Writes succeed: a response that cannot be written ends
the connection.

`Law` is what a client may expect of the responses, stated on the lines of the whole stream. The loop takes an empty
line for the end of the stream, which the line reader answers in the same way.
-/

namespace IdaRs

namespace Connection

open Framing Serde

structure Request where
  id : String
  op : String
  params : Json
  target : Option String

structure Response where
  id : String
  ok : Bool
  result : Option Json
  error : Option String

namespace Response

def success (id : String) (result : Json) : Response := ⟨id, true, some result, none⟩

def failure (id msg : String) : Response := ⟨id, false, none, some msg⟩

/-- `route_request` and `dispatch_request`. -/
def ofResult (id : String) : Except String Json → Response
  | .ok result => success id result
  | .error e => failure id e

end Response

def maxLineBytes : Nat := 16 * 1024 * 1024

/-- The text of a line, trimmed. -/
def lineText (bytes : List UInt8) : List Char := trim (fromUtf8Lossy bytes)

section

variable (parse : List Char → Except String Request) (reply : Nat → Request → Response × Bool)

/-- The loop of `handle_connection`, `k` requests in: the responses it writes. `reply` is the response to a request
and whether it ends the loop. Every turn that goes on has taken a byte off the stream, which bounds `fuel`. -/
def conversation : Nat → Nat → Reader → List Response
  | 0, _, _ => []
  | fuel + 1, k, r =>
    match r.readLineCapped maxLineBytes with
    | (_, .error e) => [.failure "?" ("Read error: " ++ e)]
    -- clean EOF
    | (_, .ok []) => []
    | (r', .ok bytes) =>
      if lineText bytes = [] then conversation fuel k r'
      else
        match parse (lineText bytes) with
        | .error e => .failure "?" ("Invalid JSON: " ++ e) :: conversation fuel k r'
        | .ok request =>
          (reply k request).1 :: if (reply k request).2 then [] else conversation fuel (k + 1) r'

def converse (r : Reader) : List Response := conversation parse reply (r.stream.length + 1) 0 r

end

namespace Router

/-- The router answers every request. -/
def reply (route : Nat → Request → Except String Json) (k : Nat) (request : Request) : Response × Bool :=
  (.ofResult request.id (route k request), request.op = "shutdown")

/-- `handle_connection` of the router; `route` is `route_inner`. -/
def handleConnection (parse : List Char → Except String Request) (route : Nat → Request → Except String Json)
    (r : Reader) : List Response :=
  converse parse (reply route) r

/-- A shutdown is always accepted. -/
def accepts (_ : Nat) (request : Request) : Bool := request.op = "shutdown"

end Router

namespace Worker

/-- What becomes of a request that is handed to the main thread. -/
inductive Handed
  /-- The queue is full or closed. -/
  | refused
  | dispatched (result : Except String Json)
  /-- The main loop has ended. -/
  | dropped

def reply (submit : Nat → Request → Handed) (k : Nat) (request : Request) : Response × Bool :=
  match submit k request with
  | .refused => (.failure request.id "Worker busy or shutting down", false)
  | .dispatched result => (.ofResult request.id result, request.op = "shutdown")
  | .dropped => (.failure request.id "Internal: reply dropped", false)

/-- `handle_connection` of a worker. -/
def handleConnection (parse : List Char → Except String Request) (submit : Nat → Request → Handed) (r : Reader) :
    List Response :=
  converse parse (reply submit) r

/-- A shutdown is accepted when the main thread has answered it. -/
def accepts (submit : Nat → Request → Handed) (k : Nat) (request : Request) : Bool :=
  match submit k request with
  | .dispatched _ => request.op = "shutdown"
  | _ => false

end Worker

/-! ## The law of a conversation -/

section

variable (parse : List Char → Except String Request) (accepts : Nat → Request → Bool)

def Blank (line : List UInt8) : Prop := lineText line = []

instance (line : List UInt8) : Decidable (Blank line) := inferInstanceAs (Decidable (_ = _))

def Fits (line : List UInt8) : Prop := line.length ≤ maxLineBytes

instance (line : List UInt8) : Decidable (Fits line) := inferInstanceAs (Decidable (_ ≤ _))

/-- The responses due for the lines of a stream, `k` requests in; `accepts` says which requests are a shutdown that
is accepted. -/
inductive Law : Nat → List (List UInt8) → List Response → Prop
  | done (k : Nat) : Law k [] []
  | tooLong {k line lines} (response : Response) (h : ¬ Fits line) : Law k (line :: lines) [response]
  | blank {k line lines out} (hf : Fits line) (hb : Blank line) (h : Law k lines out) : Law k (line :: lines) out
  | malformed {k line lines out} {e : String} (response : Response) (hf : Fits line) (hb : ¬ Blank line)
      (hp : parse (lineText line) = .error e) (h : Law k lines out) : Law k (line :: lines) (response :: out)
  | request {k line lines out} {req : Request} {response : Response} (hf : Fits line) (hb : ¬ Blank line)
      (hp : parse (lineText line) = .ok req) (hid : response.id = req.id) (ha : accepts k req = false)
      (h : Law (k + 1) lines out) : Law k (line :: lines) (response :: out)
  | shutdown {k line lines} {req : Request} {response : Response} (hf : Fits line) (hb : ¬ Blank line)
      (hp : parse (lineText line) = .ok req) (hid : response.id = req.id) (ha : accepts k req) :
      Law k (line :: lines) [response]

/-- No empty line is met before a line that is due a response. -/
def Clear : Nat → List (List UInt8) → Prop
  | _, [] => True
  | k, line :: lines =>
    if ¬ Fits line then True
    else if line = [] then ∀ l ∈ lines, Fits l ∧ Blank l
    else if Blank line then Clear k lines
    else
      match parse (lineText line) with
      | .error _ => Clear k lines
      | .ok req => if accepts k req then True else Clear (k + 1) lines

end

/-! ## The loop on the lines of its stream -/

section

variable (parse : List Char → Except String Request) (reply : Nat → Request → Response × Bool)

/-- The conversation, line by line. -/
def talk : Nat → List (List UInt8) → List Response
  | _, [] => []
  | k, line :: lines =>
    if ¬ Fits line then [.failure "?" ("Read error: " ++ exceeds maxLineBytes)]
    else if line = [] then []
    else if Blank line then talk k lines
    else
      match parse (lineText line) with
      | .error e => .failure "?" ("Invalid JSON: " ++ e) :: talk k lines
      | .ok request => (reply k request).1 :: if (reply k request).2 then [] else talk (k + 1) lines

/-- After a line that fits, the reader has the other lines; without one, the end of the stream reads as an empty
line. -/
theorem talk_rest {r : Reader} (h : Fits (r.line 0)) (k : Nat) :
    talk parse reply k (r.readLineCapped maxLineBytes).1.lines = talk parse reply k r.lines.tail := by
  unfold Reader.lines
  rw [Reader.stream_readLineCapped h]
  by_cases hn : newline ∈ r.stream
  · rw [splitOn_of_mem hn, List.tail_cons]
  · obtain ⟨hs, ha⟩ := splitOn_of_not_mem hn
    rw [hs, ha, List.splitOn_nil, List.tail_cons]
    rfl

theorem length_afterLine {bytes : List UInt8} (h : firstLine bytes ≠ []) :
    (afterLine bytes).length < bytes.length := by
  have hsum : (firstLine bytes).length + (bytes.dropWhile (· ≠ newline)).length = bytes.length := by
    rw [← List.length_append, firstLine, List.takeWhile_append_dropWhile]
  have hpos := List.length_pos_iff.2 h
  rw [afterLine, List.length_tail]
  omega

theorem conversation_eq_talk {fuel : Nat} {r : Reader} (hfuel : r.stream.length < fuel) (k : Nat) :
    conversation parse reply fuel k r = talk parse reply k r.lines := by
  induction fuel generalizing r k with
  | zero => omega
  | succ fuel ih =>
    have hcons : r.lines = r.line 0 :: r.lines.tail := by
      unfold Reader.line
      cases hl : r.lines with
      | nil => exact absurd hl (List.splitOn_ne_nil _ _)
      | cons l ls => rfl
    rw [hcons, talk]
    rw [conversation]
    by_cases hf : Fits (r.line 0)
    · have hcall : (r.readLineCapped maxLineBytes).2 = .ok (r.line 0) :=
        (Reader.call_zero _ r).trans (if_pos hf)
      have hrest := talk_rest parse reply hf
      have hstream := Reader.stream_readLineCapped hf
      have hshort := @length_afterLine r.stream
      rw [← Reader.line_zero] at hshort
      generalize r.readLineCapped maxLineBytes = read at hcall hrest hstream
      obtain ⟨r', res⟩ := read
      obtain rfl : res = .ok (r.line 0) := hcall
      generalize r.line 0 = line at hf hshort
      rw [if_neg (not_not.2 hf)]
      cases line with
      | nil => rfl
      | cons b bytes =>
        have hlt : r'.stream.length < fuel := by
          have := hshort (List.cons_ne_nil b bytes)
          rw [hstream]
          omega
        have hgo : ∀ k, conversation parse reply fuel k r' = talk parse reply k r.lines.tail :=
          fun k => (ih hlt k).trans (hrest k)
        simp only [hgo]
        rfl
    · have hcall : (r.readLineCapped maxLineBytes).2 = .error (exceeds maxLineBytes) :=
        (Reader.call_zero _ r).trans (if_neg hf)
      generalize r.readLineCapped maxLineBytes = read at hcall
      obtain ⟨r', res⟩ := read
      obtain rfl : res = .error (exceeds maxLineBytes) := hcall
      rw [if_pos hf]

/-! ## When the law holds -/

variable {parse reply} {accepts : Nat → Request → Bool}

theorem blank_nil : Blank [] := rfl

theorem fits_nil : Fits [] := Nat.zero_le _

/-- Nothing is due for blank lines only. -/
theorem law_nil_iff {k : Nat} {lines : List (List UInt8)} :
    Law parse accepts k lines [] ↔ ∀ l ∈ lines, Fits l ∧ Blank l := by
  induction lines with
  | nil => simpa using Law.done k
  | cons line lines ih =>
    constructor
    · intro h
      cases h with
      | blank hf hb h => simpa using ⟨⟨hf, hb⟩, ih.1 h⟩
    · intro h
      obtain ⟨hf, hb⟩ := h line (List.mem_cons_self ..)
      exact .blank hf hb (ih.2 fun l hl => h l (List.mem_cons_of_mem _ hl))

section

variable {k : Nat} {line : List UInt8} {lines : List (List UInt8)} {response : Response} {out : List Response}

theorem law_blank_iff (hf : Fits line) (hb : Blank line) :
    Law parse accepts k (line :: lines) out ↔ Law parse accepts k lines out := by
  refine ⟨fun h => ?_, .blank hf hb⟩
  cases h with
  | tooLong _ h => exact absurd hf h
  | blank _ _ h => exact h
  | malformed _ _ h => exact absurd hb h
  | request _ h => exact absurd hb h
  | shutdown _ h => exact absurd hb h

theorem law_malformed_iff (hf : Fits line) (hb : ¬ Blank line) {e : String}
    (hp : parse (lineText line) = .error e) :
    Law parse accepts k (line :: lines) (response :: out) ↔ Law parse accepts k lines out := by
  refine ⟨fun h => ?_, .malformed response hf hb hp⟩
  cases h with
  | tooLong _ h => exact absurd hf h
  | blank _ h => exact absurd h hb
  | malformed _ _ _ _ h => exact h
  | request _ _ h => rw [hp] at h; cases h
  | shutdown _ _ h => rw [hp] at h; cases h

theorem law_request_iff (hf : Fits line) (hb : ¬ Blank line) {req : Request}
    (hp : parse (lineText line) = .ok req) (hid : response.id = req.id) (ha : accepts k req = false) :
    Law parse accepts k (line :: lines) (response :: out) ↔ Law parse accepts (k + 1) lines out := by
  refine ⟨fun h => ?_, .request hf hb hp hid ha⟩
  cases h with
  | tooLong _ h => exact absurd hf h
  | blank _ h => exact absurd h hb
  | malformed _ _ _ h => rw [hp] at h; cases h
  | request _ _ h _ _ hl =>
    rw [hp] at h
    cases h
    exact hl
  | shutdown _ _ h _ hacc =>
    rw [hp] at h
    cases h
    rw [ha] at hacc
    cases hacc

end

/-- The responses of the loop are lawful exactly when no empty line is met before a line that is due one. -/
theorem law_talk_iff (hid : ∀ k req, (reply k req).1.id = req.id) (hend : ∀ k req, (reply k req).2 = accepts k req)
    (k : Nat) (lines : List (List UInt8)) :
    Law parse accepts k lines (talk parse reply k lines) ↔ Clear parse accepts k lines := by
  induction lines generalizing k with
  | nil => simpa [talk, Clear] using Law.done k
  | cons line lines ih =>
    rw [talk, Clear]
    by_cases hf : Fits line
    · rw [if_neg (not_not.2 hf), if_neg (not_not.2 hf)]
      by_cases hnil : line = []
      · rw [if_pos hnil, if_pos hnil, law_nil_iff]
        subst hnil
        simp [fits_nil, blank_nil]
      · rw [if_neg hnil, if_neg hnil]
        by_cases hb : Blank line
        · rw [if_pos hb, if_pos hb, law_blank_iff hf hb, ih]
        · rw [if_neg hb, if_neg hb]
          cases hp : parse (lineText line) with
          | error e => exact (law_malformed_iff hf hb hp).trans (ih k)
          | ok req =>
            simp only [hend]
            by_cases ha : accepts k req
            · simpa [ha] using Law.shutdown hf hb hp (hid k req) ha
            · rw [if_neg ha, if_neg ha]
              exact (law_request_iff hf hb hp (hid k req) (by simpa using ha)).trans (ih (k + 1))
    · rw [if_pos hf, if_pos hf]
      simpa using Law.tooLong _ hf

theorem law_converse_iff (hid : ∀ k req, (reply k req).1.id = req.id)
    (hend : ∀ k req, (reply k req).2 = accepts k req) (r : Reader) :
    Law parse accepts 0 r.lines (converse parse reply r) ↔ Clear parse accepts 0 r.lines := by
  rw [converse, conversation_eq_talk parse reply (Nat.lt_succ_self _)]
  exact law_talk_iff hid hend 0 r.lines

end

theorem Response.id_ofResult (id : String) (result : Except String Json) : (Response.ofResult id result).id = id := by
  cases result <;> rfl

theorem Router.reply_id (route : Nat → Request → Except String Json) (k : Nat) (req : Request) :
    (Router.reply route k req).1.id = req.id :=
  Response.id_ofResult _ _

theorem Worker.reply_id (submit : Nat → Request → Handed) (k : Nat) (req : Request) :
    (Worker.reply submit k req).1.id = req.id := by
  rw [Worker.reply]
  cases submit k req with
  | refused => rfl
  | dispatched result => exact Response.id_ofResult _ _
  | dropped => rfl

theorem Worker.reply_accepts (submit : Nat → Request → Handed) (k : Nat) (req : Request) :
    (Worker.reply submit k req).2 = Worker.accepts submit k req := by
  rw [Worker.reply, Worker.accepts]
  cases submit k req <;> rfl

/-- The responses on a connection follow the law, in the router and in a worker, exactly for the streams in which no
empty line is met before a line that is due a response. -/
theorem connection_lawful_iff (parse : List Char → Except String Request)
    (route : Nat → Request → Except String Json) (submit : Nat → Request → Worker.Handed) (r : Reader) :
    (Law parse Router.accepts 0 r.lines (Router.handleConnection parse route r) ↔
      Clear parse Router.accepts 0 r.lines) ∧
    (Law parse (Worker.accepts submit) 0 r.lines (Worker.handleConnection parse submit r) ↔
      Clear parse (Worker.accepts submit) 0 r.lines) :=
  ⟨law_converse_iff (Router.reply_id route) (fun _ _ => rfl) r,
    law_converse_iff (Worker.reply_id submit) (Worker.reply_accepts submit) r⟩

/-- The bytes of a ping request. -/
def pingLine : List UInt8 :=
  [0x7b, 0x22, 0x69, 0x64, 0x22, 0x3a, 0x22, 0x31, 0x22, 0x2c, 0x22, 0x6f, 0x70, 0x22, 0x3a, 0x22, 0x70, 0x69, 0x6e,
    0x67, 0x22, 0x7d]

def pingText : List Char := "\x7b\"id\":\"1\",\"op\":\"ping\"\x7d".toList

/-- A reader of requests that knows the ping. -/
def parsePing (text : List Char) : Except String Request :=
  if text = pingText then .ok ⟨"1", "ping", .null, none⟩ else .error "expected value at line 1 column 1"

/-- An empty line, then a request. -/
def emptyLineFirst : Reader := ⟨[newline :: pingLine ++ [newline]], by decide⟩

/-- The request after the empty line is not answered. -/
theorem empty_line_ends_conversation :
    Router.handleConnection parsePing (fun _ _ => .ok (.obj [("pong", .bool true), ("targets", .int 0)]))
      emptyLineFirst = [] ∧
    ¬ Law parsePing Router.accepts 0 emptyLineFirst.lines [] ∧
    Worker.handleConnection parsePing (fun _ _ => .dispatched (.ok (.obj [("pong", .bool true), ("targets", .int 1)])))
      emptyLineFirst = [] ∧
    ¬ Law parsePing (Worker.accepts fun _ _ => .dispatched (.ok (.obj [("pong", .bool true), ("targets", .int 1)]))) 0
      emptyLineFirst.lines [] := by
  have hlines : emptyLineFirst.lines = [[], pingLine, []] := by decide
  have hdue : ¬ ∀ l ∈ emptyLineFirst.lines, Fits l ∧ Blank l := by
    rw [hlines]
    intro h
    exact absurd (h pingLine (by simp)).2 (by decide)
  exact ⟨rfl, fun h => hdue (law_nil_iff.1 h), rfl, fun h => hdue (law_nil_iff.1 h)⟩

end Connection

end IdaRs
