import CallBridge.CommandLine.Commands
import Std.Time.DateTime.Timestamp

/-!
# The executable

Answers the requests of the program from the machine it runs on. All decisions are the program's.
-/

namespace CallBridge.CommandLine

/-- The number of an error of the system, with either sign; one without a number counts as a failed
transfer. -/
def systemCode : IO.Error → UInt32
  | .alreadyExists _ code _ | .otherError code _ | .resourceBusy code _ | .resourceVanished code _
  | .unsupportedOperation code _ | .hardwareFault code _ | .unsatisfiedConstraints code _
  | .illegalOperation code _ | .protocolError code _ | .timeExpired code _
  | .interrupted _ code _ | .noFileOrDirectory _ code _ | .invalidArgument _ code _
  | .permissionDenied _ code _ | .resourceExhausted _ code _ | .inappropriateType _ code _
  | .noSuchThing _ code _ => code
  | .unexpectedEof | .userError _ => 5

/-- Try a file operation. -/
def trying {α : Type} (x : IO α) : IO (Except FileError α) := do
  try
    return .ok (← x)
  catch e =>
    return .error (.system ⟨(systemCode e).toInt32.toInt.natAbs⟩)

/-- The instant of the machine's clock. -/
def currentTime : IO WallTime := do
  let now ← Std.Time.Timestamp.now
  let nanoseconds := now.toNanosecondsSinceUnixEpoch.val
  return ⟨nanoseconds.fdiv 1000000000, (nanoseconds.fmod 1000000000).toNat⟩

/-- Answer a request. The log that is open is kept between requests. -/
def serve {β : Type} (log : IO.Ref (Option IO.FS.Handle)) : Request β → IO β
  | .reading => IO.monoNanosNow
  | .wallTime => currentTime
  | .reserve bytes => return Memory.reserve Memory.addressable bytes
  | .readFile path => trying do
    let content ← IO.FS.readBinFile path
    return content.toList
  | .writeFile path text => trying (IO.FS.writeFile path text)
  | .openLog path => trying do
    log.set (some (← IO.FS.Handle.mk path .write))
  | .appendLog line => trying do
    if let some handle ← log.get then
      handle.putStr (line ++ "\n")
  | .closeLog => do
    let handle ← log.modifyGet fun handle => (handle, none)
    trying do
      if let some handle := handle then
        handle.flush
  | .printLine line => IO.println line
  | .report line => IO.eprintln line

/-- Run a program on this machine. -/
def perform {α : Type} (log : IO.Ref (Option IO.FS.Handle)) : Program α → IO α
  | .done a => return a
  | .ask request next => do
    let answer ← serve log request
    perform log (next answer)

/-- The number of this process, as its entry among the processes tells it. -/
def processNumber : IO String := do
  try
    let entry ← IO.FS.readFile "/proc/self/stat"
    return String.ofList (entry.toList.takeWhile Char.isDigit)
  catch _ =>
    return "0"

/-- The environment, as far as settings come from it. -/
def currentEnvironment : IO (String → Option String) := do
  let names := [Diagnostic.Level.setting.name, Diagnostic.OnFatal.setting.name]
  let values ← names.mapM fun name => return (name, ← IO.getEnv name)
  return fun name => (values.lookup name).join

/-- The status of a process; an aborted one is told by the status of its signal. -/
def exitStatus : Diagnostic.Ending → UInt32
  | .status code => UInt32.ofNat code
  | .aborted => 134

end CallBridge.CommandLine

def main (words : List String) : IO UInt32 := do
  let settings := CallBridge.CommandLine.Settings.ofEnvironment
    (← CallBridge.CommandLine.currentEnvironment) (← CallBridge.CommandLine.processNumber)
  let log ← IO.mkRef none
  let ending ← CallBridge.CommandLine.perform log (CallBridge.CommandLine.program settings words)
  return CallBridge.CommandLine.exitStatus ending
