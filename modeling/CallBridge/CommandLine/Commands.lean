import CallBridge.Bench.Report
import CallBridge.Bench.Run
import CallBridge.Check.Property
import CallBridge.CommandLine.Arguments
import CallBridge.CommandLine.Help
import CallBridge.Diagnostic.Setting
import CallBridge.Log.ArtifactIndex
import CallBridge.Log.Validation

/-!
# Commands

What the program does for each command, as a program that asks its host. A trouble ends a command
early; it is reported in full and the process ends with status 1, or breaks down if there was no
memory. A failure at the raw-address boundary ends the process as the settings say.
-/

namespace CallBridge.CommandLine
open Bench Bridge Diagnostic

/-- What the environment and the process say: the threshold of diagnostics, what an unreportable
failure does, and the number of the process. -/
structure Settings where
  threshold : Level := .standard
  onFatal : OnFatal := .standard
  processId : String
  deriving Repr, Inhabited

def Settings.ofEnvironment (environment : String → Option String) (processId : String) :
    Settings :=
  { threshold := .ofByte (Level.setting.configured environment)
    onFatal := .ofByte (OnFatal.setting.configured environment)
    processId }

/-- Why a command ended early. -/
inductive Trouble where
  | run (e : RunError)
  | file (e : FileError)
  | number (e : Text.NumberError)
  | tooManyElements
  | message (text : String)
  deriving DecidableEq, Repr

/-- The trouble with all its parts. -/
def Trouble.inFull : Trouble → String
  | run e => e.inFull
  | file e => e.inFull
  | number e => s!"ParseIntError \x7b kind: {e.name} \x7d"
  | tooManyElements => "TryFromIntError(PosOverflow)"
  | message text => Text.quoted text

/-- A part of a command. -/
abbrev Step (α : Type) : Type 1 := ExceptT Trouble Program α

namespace Step
variable {α : Type}

/-- Ask the host. -/
def ask (r : Request α) : Step α := ExceptT.lift (Program.request r)

/-- Ask the host for something that may fail. -/
def attempt (r : Request (Except FileError α)) : Step α := do
  match ← ask r with
  | .ok a => return a
  | .error e => throw (.file e)

/-- A result of this library that may be an error. -/
def ofResult : Except RunError α → Step α
  | .ok a => return a
  | .error e => throw (.run e)

def report (line : String) : Step Unit := ask (.report line)

end Step

/-- Write the diagnostics that pass the threshold, each with the time at which its line is made. -/
def writeNotices (settings : Settings) (notices : List Notice) : Step Unit := do
  for n in Notice.passing settings.threshold notices do
    let now ← Step.ask .wallTime
    Step.report (n.render now.stamp)

/-- Write an entry to a log, and its line to the log that is open. -/
def writeEntry (log : Log.Emitter) (entry : Log.Entry) : Step Log.Emitter := do
  let (entry, log) := log.complete entry
  Step.attempt (.appendLog entry.line)
  return log.write entry

/-- The name of a run: the time it began and the number of its process. -/
def nameRun (settings : Settings) : Step String := do
  let now ← Step.ask .wallTime
  return s!"{now.milliseconds}-{settings.processId}"

def seed (s : String) : Step UInt64 :=
  match readSeed s with
  | .ok n => return n
  | .error e => throw (.number e)

/-! ### Benchmark -/

def planOf (o : RunOptions) : Step Plan := do
  let shapes ← Step.ofResult (CallShape.readList o.shapes)
  let lengths ← Step.ofResult (readLengths o.lengths)
  let input ← Step.ofResult (Arrangement.read o.input)
  let seed ← seed o.seed
  return { shapes, lengths, input, seed, sizing := ⟨o.warmup, o.samples, o.calls⟩ }

/-- The log of a run, begun in a file if one is given. -/
def beginLog (path : Option String) (runId : String) : Step (Option Log.Emitter) :=
  match path with
  | none => return none
  | some path => do
    Step.attempt (.openLog path)
    let now ← Step.ask .wallTime
    let (entry, log) := ({ kind := .bench, runId } : Log.Emitter).entry now.utc .info "run_start"
    return some (← writeEntry log entry)

/-- What is said before measuring. -/
def measuringLine (p : Plan) : String :=
  s!"Measuring {p.shapes.length} shape(s) at lengths [" ++
    ", ".intercalate (p.lengths.map toString) ++ s!"] ({p.input.name} input)"

/-- Write a file and say so. -/
def writeReport (what path text : String) : Step Unit := do
  Step.attempt (.writeFile path text)
  Step.report s!"Wrote {what} to {path}"

/-- The ending of a path's last name, if there is a point behind its first character. -/
def extension? (path : String) : Option String :=
  let name := ((Text.splitChars '/' path.toList).getLast?).getD []
  let ending := name.reverse.takeWhile (· ≠ '.')
  if ending.length + 1 < name.length then some (String.ofList ending.reverse) else none

/-- The kind of an artifact, by the ending of its path. -/
def artifactKind (path : String) : String :=
  if extension? path = some "md" then "markdown_report" else "json_report"

/-- Look at the files of a run for the index. -/
def indexFiles : Log.ArtifactIndex → List String → Step Log.ArtifactIndex
  | x, [] => return x
  | x, path :: rest => do
    let content ← Step.attempt (.readFile path)
    indexFiles (x.add (.ofContent path (artifactKind path) content)) rest

/-- The time that a report bears: the one given, or that of the clock. -/
def timestamp (given : Option String) : Step String :=
  match given with
  | some text => return text
  | none => do
    let now ← Step.ask .wallTime
    return now.utc

/-- Write the reports of a benchmark; the paths written are given. -/
def writeReports (o : RunOptions) (r : Bench.Report) : Step (List String) := do
  match o.output with
  | some path => writeReport "JSON report" path r.jsonText
  | none => Step.ask (.printLine r.jsonText)
  match o.markdown with
  | some path => writeReport "markdown report" path r.markdown
  | none => pure ()
  return o.output.toList ++ o.markdown.toList

/-- Write the index of the files of a run, if one is asked for. -/
def writeIndex (o : RunOptions) (runId : String) (paths : List String) : Step Unit :=
  match o.artifactIndex with
  | none => return
  | some path => do
    if o.output.isNone then throw (.message "--artifact-index requires --output")
    let now ← Step.ask .wallTime
    let x ← indexFiles { runId, generated := now.utc } paths
    writeReport "artifact index" path x.jsonText

/-- End the log of a run. -/
def endLog (log : Option Log.Emitter) (start : Nat) (paths : List String) : Step Unit :=
  match log with
  | none => return
  | some log => do
    let now ← Step.ask .wallTime
    let stop ← Step.ask .reading
    let (entry, log) := log.entry now.utc .info "run_end"
    let _ ← writeEntry log { entry with
      outcome := some .pass
      duration := some (milliseconds start stop)
      artifacts := some paths }
    Step.attempt .closeLog

def doTask {α : Type} (b : Workbench Unit) (task : Task Unit α) : Step (α × Workbench Unit) := do
  let (result, b) ← ExceptT.lift (task b)
  return (← Step.ofResult result, b)

/-- Run a benchmark and report on it. -/
def run (settings : Settings) (o : RunOptions) : Step Ending := do
  let plan ← planOf o
  let runId ← nameRun settings
  let log ← beginLog o.log runId
  let start ← Step.ask .reading
  Step.report (measuringLine plan)
  let workbench := { Workbench.standard with log, threshold := settings.threshold }
  let (measurements, b) ← doTask workbench (Bench.run plan)
  let timestamp ← timestamp o.timestamp
  let paths ← writeReports o {
    title := "ffibench call-shape benchmark"
    timestamp
    input := plan.input
    seed := plan.seed
    sizing := plan.sizing
    measurements
    runtime := b.counters }
  writeIndex o runId paths
  endLog b.log start paths
  return .status 0

/-! ### Verification -/

/-- Write the entry of a verdict. -/
def logVerdict (log : Log.Emitter) (v : Check.Verdict) : Step Log.Emitter := do
  let now ← Step.ask .wallTime
  let (entry, log) :=
    log.entry now.utc (if v.passed then .info else .error) "property_checked"
  writeEntry log { entry with
    property := some v.property
    outcome := some (if v.passed then .pass else .fail)
    details := some (.object [("detail", .str v.detail)]) }

/-- Log the verdicts in a file. -/
def logVerdicts (settings : Settings) (path : String) (vs : List Check.Verdict) : Step Unit := do
  let runId ← nameRun settings
  Step.attempt (.openLog path)
  let _ ← vs.foldlM logVerdict { kind := .verify, runId }
  Step.attempt .closeLog

/-- Check the properties asked for and report on them. -/
def verify (settings : Settings) (o : VerifyOptions) : Step Ending := do
  let seed ← seed o.seed
  let (summary, notices) ← match o.property with
    | some name => Step.ofResult (Check.verifyOne name seed)
    | none => pure (Check.verifyAll seed)
  writeNotices settings notices
  match o.log with
  | some path => logVerdicts settings path summary.verdicts
  | none => pure ()
  for v in summary.verdicts do
    Step.report s!"[{v.status}] {v.property}: {v.detail}"
  let now ← Step.ask .wallTime
  let report : Check.Report :=
    { title := "ffibench bridge properties", timestamp := now.utc, seed, summary }
  match o.report with
  | some path => writeReport "report" path report.markdown
  | none => pure ()
  Step.ofResult summary.ensurePassed
  Step.report s!"OK: {summary.passed} properties verified"
  return .status 0

/-! ### Failing and validating -/

/-- Sort descending elements through the raw-address boundary with a class of comparators. -/
def bindFailure (settings : Settings) (className : String) (elements : Nat) : Step Ending := do
  if maxInput < elements then throw .tooManyElements
  Step.report s!"Sorting {elements} elements with comparator class {className}"
  let data := generate .descending elements 0
  let workbench := { Workbench.standard with threshold := settings.threshold }
  let ((result, _), _) ← doTask workbench do
    let ended ← (sortThroughBoundary settings.onFatal className data).attempt
    Task.announce
    match ended with
    | .ok ended => return ended
    | .error e => Task.fail e
  match outcome settings.onFatal result with
  | .returned =>
    Step.report s!"Sort completed; {className} is a valid comparator"
    return .status 0
  | .ended ending => return ending

/-- Validate a log file. -/
def validateLog (path : String) : Step Ending := do
  let content ← Step.attempt (.readFile path)
  match content.text? with
  | .error e => throw (.file e)
  | .ok text =>
    let (lines, defects) := Log.Validation.log text
    for d in defects do
      Step.report d.text
    if defects.isEmpty then
      Step.report s!"OK: {lines} valid line(s) in {path}"
      return .status 0
    else
      throw (.message s!"{defects.length} validation error(s) in {lines} line(s) of {path}")

/-- Do what is asked for. -/
def Command.perform (settings : Settings) : Command → Step Ending
  | .run o => CommandLine.run settings o
  | .verify o => CommandLine.verify settings o
  | .bindFailure className elements => CommandLine.bindFailure settings className elements
  | .validateLog path => CommandLine.validateLog path

/-- The status of a process whose words ask for nothing the program knows. -/
def usageStatus : Nat := 2

/-- The status of a process that broke down and could still tidy up. -/
def breakdownStatus : Nat := 101

/-- What is added to the report of a breakdown. -/
def breakdownNote : String :=
  "note: run with `RUST_BACKTRACE=1` environment variable to display a backtrace"

/-- End the process after a trouble. If memory was refused it is aborted, and what the log holds
back is lost; else the log is closed, as far as that can be done, and a breakdown is reported
before that. -/
def Trouble.conclude : Trouble → Program Ending
  | run (.memory (.refused bytes)) => do
    Program.request (.report (MemoryError.refused bytes).message)
    Program.request (.report breakdownNote)
    return .aborted
  | run (.memory .unaddressable) => do
    Program.request (.report MemoryError.unaddressable.message)
    Program.request (.report breakdownNote)
    let _ ← Program.request .closeLog
    return .status breakdownStatus
  | trouble => do
    let _ ← Program.request .closeLog
    Program.request (.report s!"Error: {trouble.inFull}")
    return .status 1

/-- The program: do what the words ask for and bring that to its end. -/
def program (settings : Settings) (words : List String) : Program Ending := do
  match Demand.ofWords words with
  | .nothing =>
    Program.request (.report Topic.program.usage)
    return .status usageStatus
  | .explain topic =>
    Program.request (.printLine topic.explanation)
    return .status 0
  | .perform command =>
    match ← (command.perform settings).run with
    | .ok ending => return ending
    | .error trouble => trouble.conclude

end CallBridge.CommandLine
