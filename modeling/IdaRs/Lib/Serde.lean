import Mathlib.Data.List.Basic

/-!
# JSON values and derived record codecs

`Ty` describes a type the way a `derive(Serialize, Deserialize)` sees it: scalars with their bounds, options,
lists, raw values and records, field by field with the accepted names. `Ty.Val` are its values, `ser` and `de`
the derived functions. A record ignores keys it does not know, refuses a field given twice and reads a missing
field of an option type as `none`. `de_ser`: a well-formed type reads back what it wrote.
-/

namespace Serde

/-- Integers are kept apart from floating point numbers, of which only the text matters. -/
inductive Json
  | null
  | bool (b : Bool)
  | int (n : Int)
  | float (text : String)
  | str (s : String)
  | arr (xs : List Json)
  | obj (kvs : List (String × Json))

namespace Json

def get? : Json → String → Option Json
  | obj kvs, k => kvs.lookup k
  | _, _ => none

def asArr : Json → Option (List Json)
  | arr xs => some xs
  | _ => none

def asStr : Json → Option String
  | str s => some s
  | _ => none

def asBool : Json → Option Bool
  | bool b => some b
  | _ => none

def asObj : Json → Option (List (String × Json))
  | obj kvs => some kvs
  | _ => none

def ofOption {α : Type} (f : α → Json) : Option α → Json
  | none => null
  | some a => f a

end Json

inductive Ty
  | str
  | bool
  | int (lo hi : Int)
  | value
  | opt (t : Ty)
  | vec (t : Ty)
  /-- The record without fields. -/
  | done
  /-- One more field in front of a record; `skip` leaves it out of the text when it is `none`. -/
  | field (name : String) (aliases : List String) (skip : Bool) (t rest : Ty)
deriving DecidableEq

namespace Ty

abbrev plain (name : String) (t rest : Ty) : Ty := .field name [] false t rest

abbrev aliased (name : String) (aliases : List String) (t rest : Ty) : Ty := .field name aliases false t rest

/-- `skip_serializing_if = "Option::is_none"`. -/
abbrev skipNone (name : String) (t rest : Ty) : Ty := .field name [] true (.opt t) rest

def Val : Ty → Type
  | str => String
  | bool => Bool
  | int lo hi => {n : Int // lo ≤ n ∧ n ≤ hi}
  | value => Json
  | opt t => Option t.Val
  | vec t => List t.Val
  | done => Unit
  | field _ _ _ t rest => t.Val × rest.Val

/-- The value of a field that is not there. -/
def missing : (t : Ty) → Option t.Val
  | opt _ => some none
  | _ => none

def isNone : (t : Ty) → t.Val → Bool
  | opt _, none => true
  | _, _ => false

def pick (names : List String) (kvs : List (String × Json)) : List Json :=
  (kvs.filter fun kv => names.contains kv.1).map Prod.snd

def ser : (t : Ty) → t.Val → Json
  | str, s => .str s
  | bool, b => .bool b
  | int _ _, n => .int n.1
  | value, j => j
  | opt _, none => .null
  | opt t, some v => ser t v
  | vec t, vs => .arr (List.map (ser t) vs)
  | done, _ => .obj []
  | field name _ skip t rest, (v, vs) =>
    match ser rest vs with
    | .obj kvs => .obj (if skip && isNone t v then kvs else (name, ser t v) :: kvs)
    | _ => .obj []

def de : (t : Ty) → Json → Option t.Val
  | str, j => j.asStr
  | bool, j => j.asBool
  | int lo hi, j =>
    match j with
    | .int n => if h : lo ≤ n ∧ n ≤ hi then some ⟨n, h⟩ else none
    | _ => none
  | value, j => some j
  | opt t, j =>
    match j with
    | .null => some none
    | j => (de t j).map some
  | vec t, j => j.asArr.bind fun xs => xs.mapM (de t)
  | done, j => j.asObj.map fun _ => ()
  | field name aliases _ t rest, j =>
    j.asObj.bind fun kvs =>
      match pick (name :: aliases) kvs with
      | [] => (missing t).bind fun v => (de rest j).map fun vs => (v, vs)
      | [x] => (de t x).bind fun v => (de rest j).map fun vs => (v, vs)
      | _ => none

/-- The names a record reads. -/
def names : Ty → List String
  | field name aliases _ _ rest => name :: aliases ++ rest.names
  | _ => []

def isRecord : Ty → Bool
  | done => true
  | field .. => true
  | _ => false

/-- Some value of the type is written as `null`. -/
def nullable : Ty → Bool
  | opt _ => true
  | value => true
  | _ => false

/-- The fields of a record have names of their own, only options are skipped, and an option does not hold what
is itself written as `null`. -/
def WF : Ty → Bool
  | opt t => t.WF && !t.nullable
  | vec t => t.WF
  | field name aliases skip t rest =>
    t.WF && rest.WF && rest.isRecord && (name :: aliases).all (fun n => !rest.names.contains n) &&
      (!skip || match t with | opt _ => true | _ => false)
  | _ => true

section

variable {t rest : Ty} {lo hi n : Int} {kvs : List (String × Json)}

@[simp] theorem de_str (s : String) : de str (.str s) = some s := rfl

@[simp] theorem de_bool (b : Bool) : de bool (.bool b) = some b := rfl

theorem de_int (h : lo ≤ n ∧ n ≤ hi) : de (int lo hi) (.int n) = some ⟨n, h⟩ := dif_pos h

@[simp] theorem de_value (j : Json) : de value j = some j := by cases j <;> rfl

theorem de_opt {j : Json} (h : j ≠ .null) : de (opt t) j = (de t j).map some := by
  cases j with
  | null => exact absurd rfl h
  | _ => rfl

@[simp] theorem de_opt_str (o : Option String) : de (opt str) (.ofOption .str o) = some o := by
  cases o <;> rfl

@[simp] theorem de_done : de done (.obj kvs) = some () := rfl

theorem de_field {name : String} {aliases : List String} {skip : Bool} {j : Json}
    (h : pick (name :: aliases) kvs = [j]) :
    de (field name aliases skip t rest) (.obj kvs) =
      (de t j).bind fun v => (de rest (.obj kvs)).map fun vs => (v, vs) := by
  rw [de, Json.asObj, Option.bind_some, h]; rfl

theorem de_field_missing {name : String} {aliases : List String} {skip : Bool}
    (h : pick (name :: aliases) kvs = []) :
    de (field name aliases skip t rest) (.obj kvs) =
      (missing t).bind fun v => (de rest (.obj kvs)).map fun vs => (v, vs) := by
  rw [de, Json.asObj, Option.bind_some, h]; rfl

theorem pick_append (ns : List String) (xs ys : List (String × Json)) :
    pick ns (xs ++ ys) = pick ns xs ++ pick ns ys := by
  simp [pick]

theorem pick_eq_nil {ns : List String} (h : ∀ kv ∈ kvs, kv.1 ∉ ns) : pick ns kvs = [] := by
  simpa [pick] using h

end

theorem ser_ne_null {t : Ty} (h : t.nullable = false) (v : t.Val) : ser t v ≠ .null := by
  cases t with
  | opt t => simp [nullable] at h
  | value => simp [nullable] at h
  | field name aliases skip t rest =>
    obtain ⟨v, vs⟩ := v
    simp only [ser]
    split <;> simp
  | _ => simp [ser]

theorem wf_field {name : String} {aliases : List String} {skip : Bool} {t rest : Ty}
    (h : (field name aliases skip t rest).WF) :
    t.WF ∧ rest.WF ∧ rest.isRecord ∧ (∀ n ∈ name :: aliases, n ∉ rest.names) ∧ (skip → ∃ t', t = opt t') := by
  simp only [WF, Bool.and_eq_true, List.all_eq_true, Bool.not_eq_true', List.contains_eq_mem,
    decide_eq_false_iff_not] at h
  obtain ⟨⟨⟨⟨ht, hr⟩, hrec⟩, hn⟩, hs⟩ := h
  refine ⟨ht, hr, hrec, hn, ?_⟩
  rintro rfl
  cases t <;> simp at hs
  exact ⟨_, rfl⟩

/-- A record is written as an object with some of its names. -/
theorem ser_record {t : Ty} (hw : t.WF) (hr : t.isRecord) (v : t.Val) :
    ∃ kvs, ser t v = .obj kvs ∧ ∀ kv ∈ kvs, kv.1 ∈ t.names := by
  induction t with
  | done => exact ⟨[], rfl, by simp⟩
  | field name aliases skip t rest _ ih =>
    obtain ⟨v, vs⟩ := v
    obtain ⟨-, hrest, hrec, -, -⟩ := wf_field hw
    obtain ⟨kvs, hs, hk⟩ := ih hrest hrec vs
    refine ⟨_, by rw [ser, hs], ?_⟩
    have hrest : ∀ kv ∈ kvs, kv.1 ∈ (Ty.field name aliases skip t rest).names :=
      fun kv h => List.mem_append_right _ (hk kv h)
    split
    · exact hrest
    · intro kv h
      rcases List.mem_cons.1 h with rfl | h
      · exact List.mem_append_left _ (List.mem_cons_self ..)
      · exact hrest kv h
  | _ => simp [isRecord] at hr

theorem mapM_map_some {α β : Type} {f : α → β} {g : β → Option α} (h : ∀ a, g (f a) = some a) (l : List α) :
    (l.map f).mapM g = some l := by
  induction l with
  | nil => rfl
  | cons a l ih => simp [h a, ih]

theorem de_ser_field {name : String} {aliases : List String} {skip : Bool} {t rest : Ty}
    (hw : (field name aliases skip t rest).WF) (ht : ∀ v, de t (ser t v) = some v)
    (hrest : ∀ vs pre kvs, ser rest vs = .obj kvs → (∀ kv ∈ pre, kv.1 ∉ rest.names) →
      de rest (.obj (pre ++ kvs)) = some vs)
    (v : (field name aliases skip t rest).Val) (pre kvs : List (String × Json))
    (hs : ser (field name aliases skip t rest) v = .obj kvs)
    (hp : ∀ kv ∈ pre, kv.1 ∉ (field name aliases skip t rest).names) :
    de (field name aliases skip t rest) (.obj (pre ++ kvs)) = some v := by
  obtain ⟨v, vs⟩ := v
  obtain ⟨-, hwr, hrec, hn, hskip⟩ := wf_field hw
  obtain ⟨rk, hrk, hk⟩ := ser_record hwr hrec vs
  have hpre : pick (name :: aliases) pre = [] :=
    pick_eq_nil fun kv h hm => hp kv h (List.mem_append_left _ hm)
  have hpre' : ∀ kv ∈ pre, kv.1 ∉ rest.names := fun kv h hm => hp kv h (List.mem_append_right _ hm)
  have hrkp : pick (name :: aliases) rk = [] := pick_eq_nil fun kv h hm => hn _ hm (hk kv h)
  rw [ser, hrk] at hs
  cases hs
  split
  · rename_i hsk
    rw [Bool.and_eq_true] at hsk
    obtain ⟨t', rfl⟩ := hskip hsk.1
    cases v with
    | some v => simp [isNone] at hsk
    | none =>
      rw [de_field_missing (by rw [pick_append, hpre, hrkp, List.append_nil]), hrest vs pre rk hrk hpre']
      rfl
  · have hone : pick (name :: aliases) (pre ++ (name, ser t v) :: rk) = [ser t v] := by
      rw [List.append_cons, pick_append, pick_append, hpre, hrkp]
      simp [pick]
    rw [de_field hone, ht v, List.append_cons, hrest vs _ rk hrk]
    · rfl
    · intro kv h
      rcases List.mem_append.1 h with h | h
      · exact hpre' kv h
      · obtain rfl := List.mem_singleton.1 h
        exact hn _ (List.mem_cons_self ..)

theorem de_ser_append {t : Ty} (hw : t.WF) : (∀ v, de t (ser t v) = some v) ∧
    (t.isRecord → ∀ v pre kvs, ser t v = .obj kvs → (∀ kv ∈ pre, kv.1 ∉ t.names) →
      de t (.obj (pre ++ kvs)) = some v) := by
  induction t with
  | str => exact ⟨fun _ => rfl, by simp [isRecord]⟩
  | bool => exact ⟨fun _ => rfl, by simp [isRecord]⟩
  | int lo hi => exact ⟨fun v => de_int v.2, by simp [isRecord]⟩
  | value => exact ⟨fun v => de_value v, by simp [isRecord]⟩
  | opt t ih =>
    simp only [WF, Bool.and_eq_true, Bool.not_eq_true'] at hw
    refine ⟨fun v => ?_, by simp [isRecord]⟩
    cases v with
    | none => rfl
    | some v => rw [ser, de_opt (ser_ne_null hw.2 v), (ih hw.1).1 v]; rfl
  | vec t ih =>
    have hw : t.WF := hw
    exact ⟨fun vs => mapM_map_some (ih hw).1 vs, by simp [isRecord]⟩
  | done => exact ⟨fun _ => rfl, fun _ _ _ _ _ _ => rfl⟩
  | field name aliases skip t rest iht ihr =>
    obtain ⟨hwt, hwr, hrec, -, -⟩ := wf_field hw
    have h := de_ser_field hw (iht hwt).1 ((ihr hwr).2 hrec)
    refine ⟨fun v => ?_, fun _ => h⟩
    obtain ⟨kvs, hs, -⟩ := ser_record hw rfl v
    rw [hs]
    exact h v [] kvs hs (by simp)

/-- A well-formed type reads back what it wrote. -/
theorem de_ser {t : Ty} (hw : t.WF) (v : t.Val) : de t (ser t v) = some v :=
  (de_ser_append hw).1 v

end Ty

end Serde
