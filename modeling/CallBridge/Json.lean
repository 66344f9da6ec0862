import CallBridge.Binary64

/-!
# JSON values

Numbers are integers within the signed or unsigned 64-bit range, or doubles. An object is a list of
members in the order they are written; an object that was read has its members sorted by key, with
one member for each key.
-/

namespace CallBridge

/-- A JSON value. -/
inductive Json where
  | null
  | bool (b : Bool)
  | int (n : Int)
  | float (x : Binary64)
  | str (s : String)
  | array (items : List Json)
  | object (members : List (String × Json))
  deriving Inhabited

namespace Json

/-- The members of an object, keyed. -/
abbrev Members := List (String × Json)

/-- Whether an integer is written as one; beyond these bounds a number is a double. -/
def isIntegral (n : Int) : Bool := -(Nat.pow 2 63 : Nat) ≤ n && n < (Nat.pow 2 64 : Nat)

namespace Members

/-- The value of a key. -/
def find? (ms : Members) (key : String) : Option Json :=
  (List.find? (·.1 = key) ms).map (·.2)

def contains (ms : Members) (key : String) : Bool :=
  ms.any (·.1 = key)

/-- Put a value under a key of sorted members, in place of the value that is there. -/
def insert (key : String) (value : Json) : Members → Members
  | [] => [(key, value)]
  | (k, v) :: rest =>
    if key < k then (key, value) :: (k, v) :: rest
    else if key = k then (key, value) :: rest
    else (k, v) :: insert key value rest

/-- Members sorted by key; of several under one key the last counts. -/
def sort (ms : Members) : Members :=
  ms.foldl (fun sorted (key, value) => insert key value sorted) []

end Members

/-- The value of a key of an object. -/
def find? (j : Json) (key : String) : Option Json :=
  match j with
  | .object ms => Members.find? ms key
  | _ => none

/-- A member that is left out when there is no value for it. -/
def optional {α : Type} (key : String) (f : α → Json) : Option α → Members
  | none => []
  | some a => [(key, f a)]

/-- A natural number. -/
def nat (n : Nat) : Json := .int n

end Json
end CallBridge
