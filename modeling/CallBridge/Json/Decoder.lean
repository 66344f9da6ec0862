import CallBridge.Json.Printer
import CallBridge.Text.Quoted

/-!
# Records out of JSON

A decoder takes a JSON value to a value of a type or says what is wrong. A record is written as an
object, whose unknown members are ignored, or as an array of its fields in their order. The members
of an object are looked at in the order they stand in, which is the order of their keys once the
object was read, and the first one of a wrong form is the error; only then fields are missed, in the
order of the record. A choice among names is written as the name or as an object with the name as
its only key and null as its value.
-/

namespace CallBridge

/-- What is wrong with a value. -/
inductive DecodeError where
  | invalidType (found expected : String)
  | invalidValue (found expected : String)
  | invalidLength (length : Nat) (expected : String)
  | unknownVariant (name : String) (variants : List String)
  | missingField (name : String)
  deriving DecidableEq, Repr

namespace DecodeError

/-- A name between backquotes. -/
def ticked (s : String) : String := "`" ++ s ++ "`"

def expectedNames : List String → String
  | [] => "there are no variants"
  | [a] => s!"expected {ticked a}"
  | [a, b] => s!"expected {ticked a} or {ticked b}"
  | names => "expected one of " ++ ", ".intercalate (names.map ticked)

/-- The error in words. -/
def message : DecodeError → String
  | invalidType found expected => s!"invalid type: {found}, expected {expected}"
  | invalidValue found expected => s!"invalid value: {found}, expected {expected}"
  | invalidLength length expected => s!"invalid length {length}, expected {expected}"
  | unknownVariant name variants =>
    s!"unknown variant {ticked name}, " ++ expectedNames variants
  | missingField name => s!"missing field {ticked name}"

end DecodeError

/-- A decoder of values of a type. -/
abbrev Decoder (α : Type) := Json → Except DecodeError α

namespace Json

/-- What a value is, in the words of an error. -/
def describe : Json → String
  | .null => "null"
  | .bool b => "boolean " ++ DecodeError.ticked (toString b)
  | .int n => "integer " ++ DecodeError.ticked (String.ofList (Decimal.signedDigits n))
  | .float x => "floating point " ++ DecodeError.ticked (String.ofList (floatChars x))
  | .str s => "string " ++ Text.quoted s
  | .array _ => "sequence"
  | .object _ => "map"

end Json

namespace Decoder
variable {α β : Type}

/-- The value is of another type. -/
def mismatch (expected : String) (j : Json) : Except DecodeError α :=
  .error (.invalidType j.describe expected)

def string : Decoder String
  | .str s => .ok s
  | j => mismatch "a string" j

def bool : Decoder Bool
  | .bool b => .ok b
  | j => mismatch "a boolean" j

/-- An integer from `lowest` on and below `limit`, of a type called `name`. -/
def integer (name : String) (lowest limit : Int) : Decoder Int
  | .int n =>
    if lowest ≤ n ∧ n < limit then .ok n
    else .error (.invalidValue (Json.describe (.int n)) name)
  | j => mismatch name j

/-- An unsigned integer of a width in bits. -/
def unsigned (name : String) (width : Nat) : Decoder Nat :=
  fun j => (integer name 0 (Nat.pow 2 width : Nat) j).map Int.toNat

/-- A length or count. -/
def size : Decoder Nat := unsigned "usize" 64

/-- An unsigned 64-bit number. -/
def word : Decoder Nat := unsigned "u64" 64

/-- A double; an integer stands for the double nearest to it. -/
def float : Decoder Binary64
  | .float x => .ok x
  | .int n => .ok (Binary64.ofInt n)
  | j => mismatch "f64" j

/-- Null, or a value. -/
def nullable (d : Decoder α) : Decoder (Option α)
  | .null => .ok none
  | j => (d j).map some

/-- A value of any form. -/
def any : Decoder Json := .ok

def list (d : Decoder α) : Decoder (List α)
  | .array items => items.mapM d
  | j => mismatch "a sequence" j

/-- One of the named values. -/
def choice (names : List (String × α)) : Decoder α :=
  let pick (name : String) (payload : Option Json) : Except DecodeError α :=
    match names.find? (·.1 = name) with
    | none => .error (.unknownVariant name (names.map (·.1)))
    | some (_, a) =>
      match payload with
      | none | some .null => .ok a
      | some j => mismatch "unit" j
  fun
  | .str name => pick name none
  | .object [(name, payload)] => pick name (some payload)
  | .object _ => .error (.invalidValue "map" "map with a single key")
  | j => mismatch "string or map" j

end Decoder

/-- A field of a record as it is checked when it is met. -/
structure Field where
  name : String
  check : Json → Except DecodeError Unit

/-- A record: its fields in their order and how it is built from its members. -/
structure Record (α : Type) where
  fields : List Field
  build : Json.Members → Except DecodeError α

namespace Record
variable {α β : Type}

/-- A record without fields. -/
def of (a : α) : Record α := ⟨[], fun _ => .ok a⟩

/-- A record with one more field, `read` from the members. -/
def extend (r : Record (α → β)) (name : String) (d : Decoder α)
    (absent : Except DecodeError α) : Record β where
  fields := r.fields ++ [⟨name, fun j => (d j).map fun _ => ()⟩]
  build ms := do
    let f ← r.build ms
    match ms.find? name with
    | some j => return f (← d j)
    | none => return f (← absent)

/-- A field that has to be there. -/
def required (r : Record (α → β)) (name : String) (d : Decoder α) : Record β :=
  r.extend name d (.error (.missingField name))

/-- A field that may be missing or null. -/
def optional (r : Record (Option α → β)) (name : String) (d : Decoder α) : Record β :=
  r.extend name d.nullable (.ok none)

/-- Check the members that are fields, in the order they stand in. -/
def checkMembers (r : Record α) (ms : Json.Members) : Except DecodeError Unit :=
  ms.forM fun (name, j) =>
    match r.fields.find? (·.name = name) with
    | some field => field.check j
    | none => .ok ()

/-- The record called `title`, from an object or from an array of its fields. -/
def decode (r : Record α) (title : String) : Decoder α
  | .object ms => do
    r.checkMembers ms
    r.build ms
  | .array items => do
    let ms := r.fields.map (·.name) |>.zip items
    r.checkMembers ms
    let n := r.fields.length
    if items.length < n then
      .error (.invalidLength items.length
        (s!"struct {title} with {n} element" ++ if n = 1 then "" else "s"))
    else if n < items.length then
      .error (.invalidLength items.length "fewer elements in array")
    else r.build ms
  | j => Decoder.mismatch s!"struct {title}" j

end Record
end CallBridge
