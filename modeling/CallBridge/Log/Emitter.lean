import CallBridge.Log.Entry
import CallBridge.Text.Blank
import CallBridge.Text.Number

/-!
# Emitters

An emitter writes the log of one run. It numbers the entries it begins; the number, after the kind
and the name of the run, is the entry's trace id. An entry that is begun and not written takes its
number with it.

The numbers given out are counted without a bound. A count in 64 bits is the same until it has gone
through all of its numbers, which no run lives to see.
-/

namespace CallBridge.Log

/-- A log in the making: its run, how many numbers were given out, and the lines written. -/
structure Emitter where
  kind : RunKind
  runId : String
  issued : Nat := 0
  lines : Array String := #[]
  deriving Repr, Inhabited

/-- The trace id of a run's number. -/
def traceId (kind : RunKind) (runId : String) (number : Nat) : String :=
  s!"{kind.name}::{runId}::{Text.padded 3 number}"

namespace Emitter

/-- Give out the next trace id. -/
def nextTraceId (e : Emitter) : String × Emitter :=
  (traceId e.kind e.runId (e.issued + 1), { e with issued := e.issued + 1 })

/-- Begin an entry. -/
def entry (e : Emitter) (timestamp : String) (level : Level) (event : String) :
    Entry × Emitter :=
  let (id, e) := e.nextTraceId
  ({ timestamp, traceId := id, level, event, runKind := some e.kind }, e)

def write (e : Emitter) (entry : Entry) : Emitter := { e with lines := e.lines.push entry.line }

/-- Begin an entry and write it. -/
def emit (e : Emitter) (timestamp : String) (level : Level) (event : String) :
    Entry × Emitter :=
  let (entry, e) := e.entry timestamp level event
  (entry, e.write entry)

/-- Complete an entry: one without a trace id gets the next one, and one without a kind the run's
kind. -/
def complete (e : Emitter) (entry : Entry) : Entry × Emitter :=
  let (id, e) := if entry.traceId = "" then e.nextTraceId else (entry.traceId, e)
  ({ entry with traceId := id, runKind := some (entry.runKind.getD e.kind) }, e)

/-- Complete an entry and write it. -/
def emitEntry (e : Emitter) (entry : Entry) : Emitter :=
  let (entry, e) := e.complete entry
  e.write entry

/-- All that was written, each line ended by a line feed. -/
def text (e : Emitter) : String := Text.ofLines e.lines.toList

end Emitter
end CallBridge.Log
