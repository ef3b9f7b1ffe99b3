import IdaRs.HexCodecs

/-!
# Members of structures and frames (`src/ida/handlers/structs.rs` 13-49, 103-200, `src/ida/handlers/types.rs` 65-115)

idalib gives a member by its first bit and its number of bits. The handlers report the byte of the first bit, rounded
down, and the number of bytes, rounded up, each for itself: a bit-field that crosses a byte may need one byte more,
`member_windows_cover`.
-/

namespace IdaRs

namespace Handlers

/-! ### idalib -/

structure UdtMember where
  name : String
  typeName : String
  offsetBits : Nat
  sizeBits : Nat
  isBitfield : Bool
deriving DecidableEq, Repr

structure FrameMember extends UdtMember where
  part : String
deriving DecidableEq, Repr

/-- Two addresses of a frame, of which the second is the end. -/
structure FrameBounds where
  start : Nat
  stop : Nat
deriving DecidableEq, Repr

structure RawFrame where
  frameSize : Nat
  retSize : Int
  frsize : Nat
  frregs : Nat
  argsize : Nat
  fpd : Nat
  args : FrameBounds
  retaddr : FrameBounds
  savregs : FrameBounds
  locals : FrameBounds
  memberCount : Nat
deriving DecidableEq, Repr

/-- What the handlers read of a database. -/
structure TypesDb where
  db : Idb
  udtMember : Nat → Nat → Option UdtMember
  frameInfo : Address → Option RawFrame
  frameMember : Address → Nat → Option FrameMember
  getBytes : Nat → Nat → List UInt8

/-! ### Results -/

structure StructMemberInfo extends UdtMember where
  offset : Nat
  size : Nat
deriving DecidableEq, Repr

structure StructInfo where
  ordinal : Nat
  name : String
  size : Nat
  isUnion : Bool
  memberCount : Nat
  members : List StructMemberInfo
deriving DecidableEq, Repr

structure StructMemberValue extends StructMemberInfo where
  bytes : String
deriving DecidableEq, Repr

structure StructReadResult where
  address : String
  ordinal : Nat
  name : String
  size : Nat
  members : List StructMemberValue
deriving DecidableEq, Repr

structure FrameMemberInfo extends StructMemberInfo where
  part : String
deriving DecidableEq, Repr

structure FrameRange where
  start : String
  stop : String
deriving DecidableEq, Repr

structure FrameInfo where
  address : String
  frameSize : Nat
  retSize : Int
  frsize : Nat
  frregs : Nat
  argsize : Nat
  fpd : Nat
  argsRange : FrameRange
  retaddrRange : FrameRange
  savregsRange : FrameRange
  localsRange : FrameRange
  memberCount : Nat
  members : List FrameMemberInfo
deriving DecidableEq, Repr

/-! ### Structures by their name -/

/-- A name without `struct ` or `union ` at its head. -/
def withoutKeyword (name : List Char) : List Char :=
  ((stripPrefix "struct ".toList name).or (stripPrefix "union ".toList name)).getD name

section

variable (lowercase : String → String) (db : Idb) (query : List Char)

/-- The loop over the ordinals, with the last structure whose name contains the query and how many do. -/
def findStruct : List Nat → Option UdtInfo → Nat → Option UdtInfo
  | [], fuzzyMatch, fuzzyCount => if fuzzyCount = 1 then fuzzyMatch else none
  | ordinal :: ordinals, fuzzyMatch, fuzzyCount =>
    match db.udtInfo ordinal with
    | none => findStruct ordinals fuzzyMatch fuzzyCount
    | some info =>
      let infoName := info.name.toList
      if infoName = query ∨ withoutKeyword infoName = query ∨ withoutKeyword infoName = withoutKeyword query then
        some info
      else if containsText (lowercase info.name).toList (lowercase (String.ofList query)) then
        findStruct ordinals (some info) (fuzzyCount + 1)
      else findStruct ordinals fuzzyMatch fuzzyCount

end

def findStructByName (lowercase : String → String) (db : Idb) (name : String) : Option UdtInfo :=
  findStruct lowercase db (trim name.toList) (List.range' 1 (db.udtOrdinalLimit - 1)) none 0

/-- The structure that a request names; `tool` is in the error of a request that names none. -/
def namedStruct (lowercase : String → String) (db : Idb) (tool : String) (ordinal : Option Nat) (name : Option String) :
    Except ToolError UdtInfo :=
  match ordinal, name with
  | some ord, _ =>
    match db.udtInfo ord with
    | some info => .ok info
    | none => .error (.invalidParams ("unknown struct ordinal: " ++ ord.repr))
  | none, some name =>
    match findStructByName lowercase db name with
    | some info => .ok info
    | none => .error (.invalidParams ("unknown struct name: " ++ name))
  | none, none => .error (.invalidParams (tool ++ " requires ordinal or name"))

/-! ### Handlers -/

/-- `size_bits.div_ceil(8)`. -/
def divCeil8 (bits : Nat) : Nat := bits / 8 + if bits % 8 = 0 then 0 else 1

def memberInfo (m : UdtMember) : StructMemberInfo := { m with offset := m.offsetBits / 8, size := divCeil8 m.sizeBits }

/-- The members that idalib gives for the indices below `count`. -/
def membersBelow {α : Type} (member : Nat → Option α) (count : Nat) : List α := (List.range count).filterMap member

/-- Where `handle_read_struct` reads a member, and how many bytes. -/
def readWindow (addr : Address) (m : StructMemberInfo) : Nat × Nat :=
  (saturatingAdd addr.toNat m.offset, min m.size 0x10000)

def memberValue (db : TypesDb) (addr : Address) (m : UdtMember) : StructMemberValue :=
  let info := memberInfo m
  let (start, readLen) := readWindow addr info
  { info with bytes := if readLen = 0 then "" else hexEncode (db.getBytes start readLen) }

def frameMemberInfo (m : FrameMember) : FrameMemberInfo := { memberInfo m.toUdtMember with part := m.part }

def frameRange (b : FrameBounds) : FrameRange := ⟨hexLit b.start, hexLit b.stop⟩

def openedTypes (idb : Option TypesDb) : Except ToolError TypesDb :=
  match idb with
  | some db => .ok db
  | none => .error .noDatabaseOpen

def handleStructInfo (lowercase : String → String) (idb : Option TypesDb) (ordinal : Option Nat)
    (name : Option String) : Except ToolError StructInfo := do
  let db ← openedTypes idb
  let info ← namedStruct lowercase db.db "struct_info" ordinal name
  return { ordinal := info.ordinal, name := info.name, size := info.size, isUnion := info.isUnion
           memberCount := info.memberCount
           members := (membersBelow (db.udtMember info.ordinal) info.memberCount).map memberInfo }

def handleReadStruct (lowercase : String → String) (idb : Option TypesDb) (addr : Address) (ordinal : Option Nat)
    (name : Option String) : Except ToolError StructReadResult := do
  let db ← openedTypes idb
  let info ← namedStruct lowercase db.db "read_struct" ordinal name
  return { address := fmtAddr addr, ordinal := info.ordinal, name := info.name, size := info.size
           members := (membersBelow (db.udtMember info.ordinal) info.memberCount).map (memberValue db addr) }

def handleStackFrame (idb : Option TypesDb) (addr : Address) : Except ToolError FrameInfo := do
  let db ← openedTypes idb
  match db.frameInfo addr with
  | none => throw (.functionNotFound addr.toNat)
  | some info =>
    return { address := fmtAddr addr, frameSize := info.frameSize, retSize := info.retSize, frsize := info.frsize
             frregs := info.frregs, argsize := info.argsize, fpd := info.fpd
             argsRange := frameRange info.args, retaddrRange := frameRange info.retaddr
             savregsRange := frameRange info.savregs, localsRange := frameRange info.locals
             memberCount := info.memberCount
             members := (membersBelow (db.frameMember addr) info.memberCount).map frameMemberInfo }

/-! ### Bits and bytes -/

/-- Each bit of the member is in one of `len` bytes from `start` on. -/
def Covers (offsetBits sizeBits start len : Nat) : Prop :=
  ∀ bit, offsetBits ≤ bit → bit < offsetBits + sizeBits → start ≤ bit / 8 ∧ bit / 8 < start + len

/-- The bits that rounding the size up adds make up for those that rounding the offset down takes. -/
def RoundingSuffices (offsetBits sizeBits : Nat) : Prop := sizeBits = 0 ∨ offsetBits % 8 ≤ (8 - sizeBits % 8) % 8

instance (offsetBits sizeBits : Nat) : Decidable (RoundingSuffices offsetBits sizeBits) :=
  inferInstanceAs (Decidable (_ ∨ _))

section

variable {offsetBits sizeBits start len : Nat}

/-- The first and the last bit decide. -/
theorem covers_iff_ends (h : sizeBits ≠ 0) : Covers offsetBits sizeBits start len ↔
    start ≤ offsetBits / 8 ∧ (offsetBits + sizeBits - 1) / 8 < start + len := by
  constructor
  · intro hc
    exact ⟨(hc offsetBits le_rfl (by omega)).1, (hc (offsetBits + sizeBits - 1) (by omega) (by omega)).2⟩
  · rintro ⟨hfirst, hlast⟩ bit hlo hhi
    have hdivLo : offsetBits / 8 ≤ bit / 8 := Nat.div_le_div_right hlo
    have hdivHi : bit / 8 ≤ (offsetBits + sizeBits - 1) / 8 := Nat.div_le_div_right (by omega)
    omega

theorem covers_nothing : Covers offsetBits 0 start len := by
  intro bit hlo hhi
  omega

theorem divCeil8_eq (bits : Nat) : divCeil8 bits = (bits + 7) / 8 := by
  unfold divCeil8
  split_ifs <;> omega

/-- The window that the handlers report. -/
theorem covers_reported_iff (offsetBits sizeBits : Nat) :
    Covers offsetBits sizeBits (offsetBits / 8) (divCeil8 sizeBits) ↔ RoundingSuffices offsetBits sizeBits := by
  unfold RoundingSuffices
  rcases Nat.eq_zero_or_pos sizeBits with rfl | hpos
  · exact iff_of_true covers_nothing (.inl rfl)
  · rw [covers_iff_ends hpos.ne', divCeil8_eq]
    omega

/-- The window that is read: an address past the last one is not reached. -/
theorem covers_read_iff (addr : Address) (m : StructMemberInfo) (hoffset : m.offset = m.offsetBits / 8)
    (hsize : m.size = divCeil8 m.sizeBits) (h : m.size ≤ 0x10000) :
    Covers (8 * addr.toNat + m.offsetBits) m.sizeBits (readWindow addr m).1 (readWindow addr m).2 ↔
      RoundingSuffices m.offsetBits m.sizeBits ∧ (m.sizeBits = 0 ∨ addr.toNat + m.offset ≤ u64Max) := by
  have hlen : (readWindow addr m).2 = divCeil8 m.sizeBits := by rw [readWindow, min_eq_left h, hsize]
  have hstart : (readWindow addr m).1 = min (addr.toNat + m.offsetBits / 8) u64Max := by
    rw [readWindow, saturatingAdd, hoffset]
  rw [hlen, hstart, hoffset]
  rcases Nat.eq_zero_or_pos m.sizeBits with hzero | hpos
  · rw [hzero]
    exact iff_of_true covers_nothing ⟨.inl rfl, .inl rfl⟩
  · unfold RoundingSuffices
    rw [covers_iff_ends hpos.ne', divCeil8_eq]
    generalize u64Max = last
    omega

end

/-! ### The members of an answer -/

/-- `rows` are the members that there are below `count`, each once and in the order of their indices. -/
def RowsOf {α : Type} (member : Nat → Option α) (count : Nat) (rows : List α) : Prop :=
  ∃ indices : List Nat, indices.Pairwise (· < ·) ∧ (∀ idx, idx ∈ indices ↔ idx < count ∧ (member idx).isSome) ∧
    indices.map member = rows.map some

theorem map_filter_isSome {α : Type} (member : Nat → Option α) (indices : List Nat) :
    (indices.filter fun idx => (member idx).isSome).map member = (indices.filterMap member).map some := by
  induction indices with
  | nil => rfl
  | cons idx indices ih =>
    cases hm : member idx with
    | none => rw [List.filter_cons_of_neg (by simp [hm]), List.filterMap_cons_none hm, ih]
    | some m =>
      rw [List.filter_cons_of_pos (by simp [hm]), List.filterMap_cons_some hm, List.map_cons, List.map_cons, ih, hm]

theorem rowsOf_membersBelow {α : Type} (member : Nat → Option α) (count : Nat) :
    RowsOf member count (membersBelow member count) := by
  refine ⟨(List.range count).filter fun idx => (member idx).isSome, List.pairwise_lt_range.filter _, fun idx => ?_,
    map_filter_isSome member (List.range count)⟩
  rw [List.mem_filter, List.mem_range]

/-- The rows of an answer name their members if each tells the member it is made from. -/
theorem rowsOf_map {α β : Type} {row : α → β} {back : β → α} (h : ∀ m, back (row m) = m) (member : Nat → Option α)
    (count : Nat) : RowsOf member count (((membersBelow member count).map row).map back) := by
  have hback : back ∘ row = id := funext h
  rw [List.map_map, hback, List.map_id]
  exact rowsOf_membersBelow member count

section

variable {lowercase : String → String} {db : TypesDb} {ordinal : Option Nat} {name : Option String} {info : UdtInfo}

theorem handleStructInfo_ok (h : namedStruct lowercase db.db "struct_info" ordinal name = .ok info) :
    ∃ r, handleStructInfo lowercase (some db) ordinal name = .ok r ∧
      r.members = (membersBelow (db.udtMember info.ordinal) info.memberCount).map memberInfo := by
  simp only [handleStructInfo, openedTypes, bind, Except.bind, h]
  exact ⟨_, rfl, rfl⟩

theorem handleReadStruct_ok (addr : Address)
    (h : namedStruct lowercase db.db "read_struct" ordinal name = .ok info) :
    ∃ r, handleReadStruct lowercase (some db) addr ordinal name = .ok r ∧
      r.members = (membersBelow (db.udtMember info.ordinal) info.memberCount).map (memberValue db addr) := by
  simp only [handleReadStruct, openedTypes, bind, Except.bind, h]
  exact ⟨_, rfl, rfl⟩

theorem handleStackFrame_ok {addr : Address} {frame : RawFrame} (h : db.frameInfo addr = some frame) :
    ∃ r, handleStackFrame (some db) addr = .ok r ∧
      r.members = (membersBelow (db.frameMember addr) frame.memberCount).map frameMemberInfo := by
  simp only [handleStackFrame, openedTypes, bind, Except.bind, h]
  exact ⟨_, rfl, rfl⟩

end

/-- An answer has a row for each member. A member's window has all its bits exactly where the rounding of its size
makes up for that of its offset; the window that is read also has to end before the addresses do. -/
theorem member_windows_cover (lowercase : String → String) (db : TypesDb) :
    (∀ ordinal name info, namedStruct lowercase db.db "struct_info" ordinal name = .ok info →
      ∃ r, handleStructInfo lowercase (some db) ordinal name = .ok r ∧
        RowsOf (db.udtMember info.ordinal) info.memberCount (r.members.map (·.toUdtMember)) ∧
        ∀ m ∈ r.members,
          (Covers m.offsetBits m.sizeBits m.offset m.size ↔ RoundingSuffices m.offsetBits m.sizeBits)) ∧
    (∀ addr frame, db.frameInfo addr = some frame →
      ∃ r, handleStackFrame (some db) addr = .ok r ∧
        RowsOf (db.frameMember addr) frame.memberCount (r.members.map fun m => ⟨m.toUdtMember, m.part⟩) ∧
        ∀ m ∈ r.members,
          (Covers m.offsetBits m.sizeBits m.offset m.size ↔ RoundingSuffices m.offsetBits m.sizeBits)) ∧
    (∀ addr ordinal name info, namedStruct lowercase db.db "read_struct" ordinal name = .ok info →
      ∃ r, handleReadStruct lowercase (some db) addr ordinal name = .ok r ∧
        RowsOf (db.udtMember info.ordinal) info.memberCount (r.members.map (·.toUdtMember)) ∧
        ∀ m ∈ r.members, m.size ≤ 0x10000 →
          (m.size ≠ 0 → m.bytes = hexEncode (db.getBytes (readWindow addr m.toStructMemberInfo).1
            (readWindow addr m.toStructMemberInfo).2)) ∧
          (Covers (8 * addr.toNat + m.offsetBits) m.sizeBits (readWindow addr m.toStructMemberInfo).1
              (readWindow addr m.toStructMemberInfo).2 ↔
            RoundingSuffices m.offsetBits m.sizeBits ∧ (m.sizeBits = 0 ∨ addr.toNat + m.offset ≤ u64Max))) := by
  refine ⟨?_, ?_, ?_⟩
  · intro ordinal name info hinfo
    obtain ⟨r, hr, hrows⟩ := handleStructInfo_ok hinfo
    refine ⟨r, hr, ?_, fun m hm => ?_⟩
    · rw [hrows]
      exact rowsOf_map (fun _ => rfl) _ _
    · rw [hrows] at hm
      obtain ⟨member, -, rfl⟩ := List.mem_map.1 hm
      exact covers_reported_iff _ _
  · intro addr frame hframe
    obtain ⟨r, hr, hrows⟩ := handleStackFrame_ok hframe
    refine ⟨r, hr, ?_, fun m hm => ?_⟩
    · rw [hrows]
      exact rowsOf_map (fun _ => rfl) _ _
    · rw [hrows] at hm
      obtain ⟨member, -, rfl⟩ := List.mem_map.1 hm
      exact covers_reported_iff _ _
  · intro addr ordinal name info hinfo
    obtain ⟨r, hr, hrows⟩ := handleReadStruct_ok addr hinfo
    refine ⟨r, hr, ?_, fun m hm hsize => ?_⟩
    · rw [hrows]
      exact rowsOf_map (fun _ => rfl) _ _
    · rw [hrows] at hm
      obtain ⟨member, -, rfl⟩ := List.mem_map.1 hm
      refine ⟨fun hne => ?_, covers_read_iff addr _ rfl rfl hsize⟩
      have hread : (readWindow addr (memberInfo member)).2 ≠ 0 := by
        show min (divCeil8 member.sizeBits) 0x10000 ≠ 0
        have hpos : divCeil8 member.sizeBits ≠ 0 := hne
        omega
      exact if_neg hread

/-- `struct { int a : 6; int b : 4; }`, and a frame with one variable. -/
def bitFields : TypesDb where
  db := { Idb.empty with udtInfo := fun ordinal => if ordinal = 1 then some ⟨1, "flags", 4, false, 2⟩ else none }
  udtMember _ idx := [⟨"a", "int", 0, 6, true⟩, ⟨"b", "int", 6, 4, true⟩][idx]?
  frameInfo _ := some ⟨16, 8, 8, 0, 0, 0, ⟨16, 16⟩, ⟨8, 16⟩, ⟨8, 8⟩, ⟨0, 8⟩, 1⟩
  frameMember _ idx := [⟨⟨"saved", "int", 32, 32, false⟩, "lvars"⟩][idx]?
  getBytes _ n := List.replicate n 0xFF

theorem member_windows_cover_first :
    (∃ r, handleStructInfo id (some bitFields) (some 1) none = .ok r ∧
      RowsOf (bitFields.udtMember 1) 2 (r.members.map (·.toUdtMember)) ∧
      ∀ m ∈ r.members, (Covers m.offsetBits m.sizeBits m.offset m.size ↔ RoundingSuffices m.offsetBits m.sizeBits)) ∧
    (∃ r, handleStackFrame (some bitFields) 0x1000 = .ok r ∧
      RowsOf (bitFields.frameMember 0x1000) 1 (r.members.map fun m => ⟨m.toUdtMember, m.part⟩) ∧
      ∀ m ∈ r.members, (Covers m.offsetBits m.sizeBits m.offset m.size ↔ RoundingSuffices m.offsetBits m.sizeBits)) ∧
    Covers 0 6 0 1 ∧ Covers (8 * 0x1000) 6 0x1000 1 := by
  refine ⟨(member_windows_cover id bitFields).1 (some 1) none _ rfl,
    (member_windows_cover id bitFields).2.1 0x1000 _ rfl, ?_, ?_⟩
  · obtain ⟨r, hr, -, hcovers⟩ := (member_windows_cover id bitFields).1 (some 1) none _ rfl
    cases hr
    exact (hcovers _ (List.mem_cons_self ..)).2 (by decide)
  · obtain ⟨r, hr, -, hcovers⟩ := (member_windows_cover id bitFields).2.2 0x1000 (some 1) none _ rfl
    cases hr
    exact (hcovers _ (List.mem_cons_self ..) (by decide)).2.2 ⟨by decide, .inr (by decide)⟩

/-- The second field begins in byte 0 and ends in byte 1; its window is byte 0. -/
theorem bit_field_cut :
    (handleStructInfo id (some bitFields) (some 1) none).toOption.map
        (·.members.map fun m => (m.offsetBits, m.sizeBits, m.offset, m.size)) = some [(0, 6, 0, 1), (6, 4, 0, 1)] ∧
      (handleReadStruct id (some bitFields) 0x1000 (some 1) none).toOption.map
        (·.members.map fun m => (m.sizeBits, m.bytes)) = some [(6, "ff"), (4, "ff")] ∧
      ¬ Covers 6 4 0 1 ∧ ¬ Covers (8 * 0x1000 + 6) 4 0x1000 1 := by
  refine ⟨rfl, by decide +kernel, ?_, ?_⟩
  · rw [covers_iff_ends (by decide)]
    decide
  · rw [covers_iff_ends (by decide)]
    decide

end Handlers

end IdaRs
