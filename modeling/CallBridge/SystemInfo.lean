/-!
# Memory figures of the system

The system-facility call fills a structure of the caller's with the kernel's figures. A caller who
gives none gets nothing, and a structure the kernel does not fill keeps its zeros.
-/

namespace CallBridge

/-- The kernel's figures on memory: how much there is, in units of how many bytes. -/
structure SystemInfo where
  totalRam : UInt64 := 0
  memUnit : UInt32 := 0
  deriving DecidableEq, Repr, Inhabited

namespace SystemInfo

/-- Fill a structure, if there is one, with what the kernel tells, if it does. -/
def fill (kernel : Option SystemInfo) (target : Option SystemInfo) : Option SystemInfo :=
  target.map fun old => kernel.getD old

/-- The unit of memory the kernel tells, or zero if it tells nothing. -/
def reportedUnit (kernel : Option SystemInfo) : UInt32 :=
  ((fill kernel (some {})).map (·.memUnit)).getD 0

end SystemInfo
end CallBridge
