import CallBridge.RunError

/-!
# Call shapes

What is measured: calls across the boundary that do nothing, hand over a text, return one, fill a
structure, and sort a buffer with a comparator on this side or on the far side of the boundary.
-/

namespace CallBridge.Bench

/-- A shape of call, in their order. -/
inductive CallShape where
  | noop | acceptString | strlen | getString | sysinfo
  | qsortNative | qsortStatic | qsortInstance | qsortFresh
  deriving DecidableEq, Repr, Inhabited

namespace CallShape

def all : List CallShape :=
  [noop, acceptString, strlen, getString, sysinfo, qsortNative, qsortStatic, qsortInstance,
    qsortFresh]

def name : CallShape → String
  | noop => "noop"
  | acceptString => "accept_string"
  | strlen => "strlen"
  | getString => "get_string"
  | sysinfo => "sysinfo"
  | qsortNative => "qsort_native"
  | qsortStatic => "qsort_static"
  | qsortInstance => "qsort_instance"
  | qsortFresh => "qsort_fresh"

/-- The place in the order of shapes. -/
def rank (s : CallShape) : Nat := all.idxOf s

def ofName? (name : String) : Option CallShape := all.find? (·.name = name)

/-- Whether a length makes a difference. -/
def takesLength : CallShape → Bool
  | noop | sysinfo => false
  | _ => true

/-- Whether a buffer is sorted. -/
def isSort : CallShape → Bool
  | qsortNative | qsortStatic | qsortInstance | qsortFresh => true
  | _ => false

/-- Whether managed code is asked. -/
def isBridged : CallShape → Bool
  | qsortStatic | qsortInstance | qsortFresh => true
  | _ => false

/-- Read a shape, with blanks around its name. -/
def read (s : String) : Except RunError CallShape :=
  match ofName? (Text.trim s) with
  | some shape => .ok shape
  | none => .error (.invalidArgument ("unknown call shape " ++ DecodeError.ticked s))

/-- Read a list of shapes; there has to be one, and the word `all` alone stands for every shape. -/
def readList (s : String) : Except RunError (List CallShape) := do
  if Text.trim s = "all" then return all
  let shapes ← (Text.items s).mapM read
  if shapes.isEmpty then .error (.invalidArgument "no call shapes given") else .ok shapes

def decode : Decoder CallShape := .choice (all.map fun s => (s.name, s))

/-- A shape is found by its name. -/
@[simp] theorem ofName?_name (s : CallShape) : ofName? s.name = some s := by
  cases s <;> decide

end CallShape
end CallBridge.Bench
