import Lookaside.Json.Token

/-!
# The outline of a JSON text

Cached entities are flat records, so a reader needs the outermost object or array with its values one
level deep. A value inside a value is only checked for well-formedness: `skip?` walks over it with an
explicit stack of open brackets, which makes any depth acceptable. `Outline.columns?` picks the
declared fields of a record, by name from an object and by place from an array.
-/

namespace Lookaside.Json

inductive Item where
  | null
  | flag (b : Bool)
  | integer (i : Int)
  | number
  | text (pieces : List Piece)
  | nested
deriving DecidableEq, Repr

inductive Outline where
  | object (members : List (String × Item))
  | array (items : List Item)
deriving DecidableEq, Repr

inductive Expect where
  | first
  | more
  | item
  | key
  | colon
deriving DecidableEq, Repr

namespace Expect

def takesValue : Frame → Expect → Bool
  | .array, .first => true
  | _, .item => true
  | _, _ => false

def takesKey : Frame → Expect → Bool
  | .object, .first => true
  | .object, .key => true
  | _, _ => false

def mayClose : Expect → Bool
  | .first => true
  | .more => true
  | _ => false

def afterComma : Frame → Expect
  | .array => .item
  | .object => .key

end Expect

/-- What follows the composite values that are open, innermost first. -/
def skip? : List Frame → Expect → List Token → Option (List Token)
  | [], _, ts => some ts
  | _ :: _, _, [] => none
  | f :: fs, e, t :: ts =>
    match t with
    | .closing g => if g = f && e.mayClose then skip? fs .more ts else none
    | .comma => if e = .more then skip? (f :: fs) (.afterComma f) ts else none
    | .colon => if e = .colon then skip? (f :: fs) .item ts else none
    | .opening g => if e.takesValue f then skip? (g :: f :: fs) .first ts else none
    | .text _ =>
      if e.takesKey f then skip? (f :: fs) .colon ts
      else if e.takesValue f then skip? (f :: fs) .more ts
      else none
    | .null | .flag _ | .integer _ | .number =>
      if e.takesValue f then skip? (f :: fs) .more ts else none

def Item.scan? : List Token → Option (Item × List Token)
  | .null :: ts => some (.null, ts)
  | .flag b :: ts => some (.flag b, ts)
  | .integer i :: ts => some (.integer i, ts)
  | .number :: ts => some (.number, ts)
  | .text p :: ts => some (.text p, ts)
  | .opening f :: ts => (skip? [f] .first ts).map (.nested, ·)
  | _ => none

theorem length_skip? {fs : List Frame} {e : Expect} {ts rest : List Token}
    (h : skip? fs e ts = some rest) : rest.length ≤ ts.length := by
  fun_induction skip? fs e ts <;> grind

theorem Item.length_scan? {ts : List Token} {r : Item × List Token} (h : scan? ts = some r) :
    r.2.length < ts.length := by
  unfold scan? at h
  split at h
  case h_6 =>
    obtain ⟨rest, hr, rfl⟩ := Option.map_eq_some_iff.1 h
    have := length_skip? hr
    simp only [List.length_cons]; omega
  case h_7 => simp at h
  all_goals cases h; simp

namespace Outline

def members? (ts : List Token) : Option (List (String × Item)) :=
  match ts with
  | .text key :: .colon :: rest =>
    (Literal.text? key).bind fun name =>
      match _h : Item.scan? rest with
      | some (item, [.closing .object]) => some [(name, item)]
      | some (item, .comma :: more) => (members? more).map ((name, item) :: ·)
      | _ => none
  | _ => none
termination_by ts.length
decreasing_by
  have := Item.length_scan? _h
  simp only [List.length_cons] at *; omega

def items? (ts : List Token) : Option (List Item) :=
  match _h : Item.scan? ts with
  | some (item, [.closing .array]) => some [item]
  | some (item, .comma :: more) => (items? more).map (item :: ·)
  | _ => none
termination_by ts.length
decreasing_by
  have := Item.length_scan? _h
  simp only [List.length_cons] at *; omega

def ofTokens? : List Token → Option Outline
  | [.opening .object, .closing .object] => some (.object [])
  | .opening .object :: ts => (members? ts).map .object
  | [.opening .array, .closing .array] => some (.array [])
  | .opening .array :: ts => (items? ts).map .array
  | _ => none

def ofBytes? (s : Bytes) : Option Outline :=
  (Token.list? s).bind ofTokens?

def member? (members : List (String × Item)) (name : String) : Option (Option Item) :=
  match members.filter fun m => m.1 = name with
  | [] => some none
  | [m] => some (some m.2)
  | _ => none

/-- The declared fields of a record. An object may leave fields out and may hold others; an array
gives exactly the declared fields, in order. -/
def columns? (names : List String) : Outline → Option (List (Option Item))
  | .object members => names.mapM (member? members)
  | .array items => if items.length = names.length then some (items.map some) else none

end Outline

namespace Item

def text? : Item → Option String
  | .text p => Literal.text? p
  | _ => none

def flag? : Item → Option Bool
  | .flag b => some b
  | _ => none

def int32? : Item → Option Int32
  | .integer i => if Int32.minValue.toInt ≤ i ∧ i ≤ Int32.maxValue.toInt then some (.ofInt i) else none
  | _ => none

def required {α : Type} (read : Item → Option α) (item : Option Item) : Option α :=
  item.bind read

def optional {α : Type} (read : Item → Option α) : Option Item → Option (Option α)
  | none => some none
  | some .null => some none
  | some item => (read item).map some

end Item

end Lookaside.Json
