import CallBridge.Sort.Buffer
import CallBridge.Token

/-!
# A managed runtime

A managed runtime knows classes with static and instance methods, objects of these classes, frames
of native calls in progress, faults that were switched on, and counts of what was asked of it.
Method bodies answer for two elements and may remember what they were asked. The memory they share
is all they reach: a body that holds on to a runtime, to attach threads to it or to sort within a
comparison, is not among them.
-/

namespace CallBridge.Managed

/-- A method's name and signature. -/
structure Method where
  name : String
  signature : String
  deriving DecidableEq, Repr, Inhabited

/-- The signature of a comparator: two longs to an int. -/
def comparatorSignature : String := "(JJ)I"

/-- The class of the static comparator. -/
def benchmarkClass : String := "benchmark/QSortBenchmark"

/-- The class of the comparator objects. -/
def ascendingClass : String := "benchmark/AscendingComparator"

/-- A class without a comparator. -/
def brokenClass : String := "benchmark/BrokenComparator"

namespace Method

def staticComparator : Method := ⟨"qsortCompare", comparatorSignature⟩

def instanceComparator : Method := ⟨"compare", comparatorSignature⟩

/-- Whether the signature is that of a comparator. -/
def isComparator (m : Method) : Bool := m.signature = comparatorSignature

end Method

/-- What a method body is told: the tokens of two elements and, read through them, their values. -/
structure Question where
  left : Token
  right : Token
  leftValue : Int32
  rightValue : Int32
  deriving DecidableEq, Repr

/-- A method body: one that puts elements in ascending order, or one that answers from what managed
code remembers. -/
inductive Body (σ : Type) where
  | ascending
  | remembering (answer : Question → σ → Int32 × σ)

namespace Body
variable {σ : Type}

@[inline]
def answer : Body σ → Question → σ → Int32 × σ
  | ascending, q, memory => (Sort.ascending q.leftValue q.rightValue, memory)
  | remembering f, q, memory => f q memory

def isAscending : Body σ → Bool
  | ascending => true
  | remembering _ => false

end Body

/-- A method of a class. -/
structure MethodEntry (σ : Type) where
  method : Method
  isStatic : Bool
  body : Body σ

/-- A class with its methods in the order they were added. -/
structure Class (σ : Type) where
  name : String
  methods : List (MethodEntry σ) := []

namespace Class
variable {σ : Type}

/-- The first method of a name, signature and kind. -/
def find? (c : Class σ) (m : Method) (isStatic : Bool) : Option (MethodEntry σ) :=
  c.methods.find? fun e => e.method = m ∧ e.isStatic = isStatic

/-- A class with one more method. -/
def add (c : Class σ) (m : Method) (isStatic : Bool) (body : Body σ) : Class σ :=
  { c with methods := c.methods ++ [⟨m, isStatic, body⟩] }

/-- The class of the static comparator. -/
def benchmark : Class σ := add ⟨benchmarkClass, []⟩ .staticComparator true .ascending

/-- A class of comparator objects for ascending order. -/
def ascending (name : String) : Class σ := add ⟨name, []⟩ .instanceComparator false .ascending

/-- The classes of the benchmark: a static comparator, comparator objects, and no comparator. -/
def benchmarks : List (Class σ) := [benchmark, ascending ascendingClass, ⟨brokenClass, []⟩]

end Class

/-- What can be made to fail. -/
inductive Fault where
  | handle | attach | invoke
  deriving DecidableEq, Repr

/-- The faults switched on. -/
structure Faults where
  handle : Bool := false
  attach : Bool := false
  invoke : Bool := false
  deriving DecidableEq, Repr, Inhabited

namespace Faults

def has (f : Faults) : Fault → Bool
  | .handle => f.handle
  | .attach => f.attach
  | .invoke => f.invoke

def inject (f : Faults) : Fault → Faults
  | .handle => { f with handle := true }
  | .attach => { f with attach := true }
  | .invoke => { f with invoke := true }

end Faults

/-- How often a runtime was asked for what. -/
structure Counters where
  handleRequests : Nat := 0
  methodLookups : Nat := 0
  globalRefsCreated : Nat := 0
  liveGlobalRefs : Nat := 0
  attachChecks : Nat := 0
  attachments : Nat := 0
  invocations : Nat := 0
  deriving DecidableEq, Repr, Inhabited

namespace Counters

/-- The counts in their order. -/
def toList (c : Counters) : List Nat :=
  [c.handleRequests, c.methodLookups, c.globalRefsCreated, c.liveGlobalRefs, c.attachChecks,
    c.attachments, c.invocations]

def countHandle (c : Counters) : Counters := { c with handleRequests := c.handleRequests + 1 }

def countLookup (c : Counters) : Counters := { c with methodLookups := c.methodLookups + 1 }

def countPromotion (c : Counters) : Counters :=
  { c with
    globalRefsCreated := c.globalRefsCreated + 1
    liveGlobalRefs := c.liveGlobalRefs + 1 }

def countRelease (c : Counters) : Counters := { c with liveGlobalRefs := c.liveGlobalRefs - 1 }

def countCheck (c : Counters) : Counters := { c with attachChecks := c.attachChecks + 1 }

def countAttachment (c : Counters) : Counters := { c with attachments := c.attachments + 1 }

def countInvocation (c : Counters) : Counters := { c with invocations := c.invocations + 1 }

end Counters

/-- A managed runtime. Objects are known by their class names, frames by their number. -/
structure Machine (σ : Type) where
  classes : List (Class σ)
  objects : List String := []
  faults : Faults := {}
  counters : Counters := {}
  frames : Nat := 0

namespace Machine
variable {σ : Type}

/-- The first class of a name. -/
def class? (m : Machine σ) (name : String) : Option (Class σ) :=
  m.classes.find? (·.name = name)

/-- Define a class; one of the same name is forgotten. -/
def define (m : Machine σ) (c : Class σ) : Machine σ :=
  { m with classes := m.classes.filter (·.name ≠ c.name) ++ [c] }

def count (m : Machine σ) (f : Counters → Counters) : Machine σ :=
  { m with counters := f m.counters }

end Machine
end CallBridge.Managed
