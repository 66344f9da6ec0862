import CallBridge.SystemError
import CallBridge.Text.Blank
import CallBridge.Text.Quoted

/-!
# Files

Files in a tree of folders, among the places that every system has. A path leads to a file, to a
device, to a stream of the process or to an error; files and folders are plain, so no two paths to a
file differ but in the way they go. Bytes are written into a file at a place, and zeros fill the gap
if the file is shorter. The null device is empty and stays so whatever is written to it; the full
device has no room for any byte.

Paths and names are texts. A name whose bytes are not one, which systems allow and can only be shown
with marks of replacement in it, has no counterpart here.
-/

namespace CallBridge

/-- Why a file operation failed. -/
inductive FileError where
  | system (e : SystemError)
  | notText
  | nulInPath
  deriving DecidableEq, Repr

namespace FileError

/-- The error in words. -/
def message : FileError → String
  | system e => e.message
  | notText => "stream did not contain valid UTF-8"
  | nulInPath => "file name contained an unexpected NUL byte"

/-- An error that has no number, with its kind. -/
def plain (kind message : String) : String :=
  s!"Error \x7b kind: {kind}, message: {Text.quoted message} \x7d"

/-- The error with all its parts. -/
def inFull : FileError → String
  | system e =>
    s!"Os \x7b code: {e.code}, kind: {e.kind}, message: {Text.quoted e.text} \x7d"
  | notText => plain "InvalidData" notText.message
  | nulInPath => plain "InvalidInput" nulInPath.message

end FileError

/-- What a file holds. -/
abbrev Content := List UInt8

def Content.ofText (s : String) : Content := s.toUTF8.toList

/-- The text of a file, if its bytes are one. -/
def Content.text? (c : Content) : Except FileError String :=
  match String.fromUTF8? ⟨c.toArray⟩ with
  | some s => .ok s
  | none => .error .notText

namespace Files

/-- The streams of a process. Nothing comes in by the input. -/
inductive Stream where
  | input | output | errors
  deriving DecidableEq, Repr, Inhabited

/-- What a path leads to: a file, the device that keeps nothing, the device that takes nothing, or a
stream. -/
inductive Target where
  | file (name : String)
  | null
  | full
  | stream (s : Stream)
  deriving DecidableEq, Repr, Inhabited

/-- What stands open in every process. -/
def standardTargets : List Target := [.stream .input, .stream .output, .stream .errors]

/-- A directory: that of the process, that for temporary files, in which this one stands under a name
that is not known, the root, one in which the system shows its devices, its processes, this process
or what it has open, or one of some name inside of another. -/
inductive Place where
  | here | temporary | root | devices | processes | process | opened
  | inside (parent : Place) (name : String)
  deriving DecidableEq, Repr, Inhabited

/-- The place around a place. -/
def Place.parent : Place → Place
  | here => temporary
  | temporary | root | devices | processes => root
  | process => processes
  | opened => process
  | inside parent _ => parent

/-- What the paths of all that is in a place begin with. Seen from the directory of the process they
begin with nothing. -/
def Place.front : Place → String
  | here => ""
  | temporary => "/tmp/"
  | root => "/"
  | devices => "/dev/"
  | processes => "/proc/"
  | process => "/proc/self/"
  | opened => "/proc/self/fd/"
  | inside parent name => parent.front ++ name ++ "/"

end Files

/-- The files by their paths, the folders there are besides the places that every system has, and
what stands open, each under its number. -/
structure Files where
  entries : List (String × Content) := []
  folders : List Files.Place := []
  opened : List Files.Target := Files.standardTargets
  deriving Repr, Inhabited

namespace Files

def find? (f : Files) (name : String) : Option Content :=
  (f.entries.find? (·.1 = name)).map (·.2)

def erase (f : Files) (name : String) : Files :=
  { f with entries := f.entries.filter (·.1 ≠ name) }

/-- Give a file a content; a file of this name is replaced. -/
def put (f : Files) (name : String) (c : Content) : Files :=
  { f with entries := (f.erase name).entries ++ [(name, c)] }

/-- What is wanted of a path: a file that is there, or one that may have to be made. -/
inductive Use where
  | existing | new
  deriving DecidableEq, Repr

/-- What bears a name at a place; it may be something that cannot be opened. -/
inductive Entry where
  | place (p : Place)
  | target (t : Target)
  | closed (e : SystemError)
  deriving DecidableEq, Repr

/-- The names in the directory of devices. The devices of zeros and of chance keep nothing of what
is written to them; what can be read from them has no end. There is no terminal. -/
def devices : List (String × Entry) :=
  [("null", .target .null), ("zero", .target .null), ("random", .target .null),
    ("urandom", .target .null), ("full", .target .full), ("stdin", .target (.stream .input)),
    ("stdout", .target (.stream .output)), ("stderr", .target (.stream .errors)),
    ("tty", .closed .noDevice), ("fd", .place .opened)] ++
    ["pts", "shm", "mqueue"].map fun name => (name, .place (.inside .devices name))

/-- The names in the root of every system. -/
def rootEntries : List (String × Entry) :=
  [("dev", .place .devices), ("proc", .place .processes), ("tmp", .place .temporary)] ++
    ["bin", "boot", "etc", "home", "lib", "media", "mnt", "opt", "root", "run", "sbin", "srv",
      "sys", "usr", "var"].map fun name => (name, .place (.inside .root name))

/-- The names that lead on from a process. -/
def processEntries : List (String × Entry) :=
  [("fd", .place .opened), ("cwd", .place .here), ("root", .place .root)]

/-- The names that every system shows at a place, besides those of what stands open. -/
def shown : Place → List (String × Entry)
  | .root => rootEntries
  | .devices => devices
  | .processes => [("self", .place .process)]
  | .process => processEntries
  | .here | .temporary | .opened | .inside .. => []

/-- The longest name and the longest path, in bytes. -/
def maxName : Nat := 255

def maxPath : Nat := 4095

/-- Whether files can be made at a place: in the directory of the process, in that for temporary
files and in folders. A directory that the system shows is a folder if it is listed as one, and only
seems to be empty if not. -/
def keepsFiles (f : Files) : Place → Bool
  | .here | .temporary => true
  | .opened => false
  | place => place ∈ f.folders

/-- The name under which a file of a place is kept, where files can be. -/
def fileName? (f : Files) (place : Place) (name : String) : Option String :=
  if f.keepsFiles place then some (place.front ++ name) else none

/-- What bears a name at a place whatever files there are: what the system shows, or a folder. -/
def standing? (f : Files) (place : Place) (name : String) : Option Entry :=
  (shown place).lookup name <|>
    if .inside place name ∈ f.folders then some (.place (.inside place name)) else none

/-- What bears a name at a place, if anything does. -/
def entry? (f : Files) (place : Place) (name : String) : Option Entry :=
  match place with
  | .opened => (f.opened.zipIdx.find? (toString ·.2 = name)).map (.target ·.1)
  | place => f.standing? place name <|>
    (f.fileName? place name).bind fun file => (f.find? file).map fun _ => .target (.file file)

/-- Take what is not there, by the last name of a path. A file can be made where files can be. -/
def take (f : Files) (use : Use) (place : Place) (name : String) : Except SystemError Target :=
  match use, f.fileName? place name with
  | .new, some file => .ok (.file file)
  | _, _ => .error .notFound

/-- Walk along the parts of a path. Empty parts and single dots lead nowhere else, double dots lead
to the place around. Only a directory may stand before a slash, and none is made by it. -/
def walk (f : Files) (use : Use) (place : Place) : List String → Except SystemError Target
  | [] => .error .isADirectory
  | part :: rest =>
    if part = "" ∨ part = "." then f.walk use place rest
    else if part = ".." then f.walk use place.parent rest
    else if use = .new ∧ !rest.isEmpty ∧ rest.all (· = "") then .error .isADirectory
    else if maxName < part.utf8ByteSize then .error .nameTooLong
    else
      match f.entry? place part with
      | some (.place p) => f.walk use p rest
      | some (.target t) => if rest.isEmpty then .ok t else .error .notADirectory
      | some (.closed e) => .error (if rest.isEmpty then e else .notADirectory)
      | none => if rest.isEmpty then f.take use place part else .error .notFound

/-- What a path leads to. -/
def locate (f : Files) (use : Use) (path : String) : Except SystemError Target :=
  if path = "" then .error .notFound
  else if maxPath < path.utf8ByteSize then .error .nameTooLong
  else
    let start : Place := if path.startsWith "/" then .root else .here
    f.walk use start ((Text.splitChars '/' path.toList).map String.ofList)

/-- What a path leads to, for a path that may hold any character. -/
def resolve (f : Files) (use : Use) (path : String) : Except FileError Target :=
  if path.toList.contains '\x00' then .error .nulInPath
  else match f.locate use path with
    | .ok target => .ok target
    | .error e => .error (.system e)

/-- What can be read from a target; devices and streams give nothing. -/
def content (f : Files) : Target → Content
  | .file name => (f.find? name).getD []
  | _ => []

/-- Take from a target what it holds. -/
def clear (f : Files) : Target → Files
  | .file name => f.put name []
  | _ => f

/-- Write bytes into a target at a place. What goes to a stream leaves no trace in the files. -/
def writeAt (f : Files) (t : Target) (place : Nat) (c : Content) : Except SystemError Files :=
  match t with
  | .file name =>
    let old := f.content t
    let front := old.take place ++ List.replicate (place - old.length) 0
    .ok (f.put name (front ++ c ++ old.drop (place + c.length)))
  | .full => if c.isEmpty then .ok f else .error .noSpace
  | .null | .stream _ => .ok f

def read (f : Files) (path : String) : Except FileError Content :=
  (f.resolve .existing path).map f.content

/-- Write a file from its beginning. -/
def write (f : Files) (path : String) (c : Content) : Except FileError Files := do
  let target ← f.resolve .new path
  ((f.clear target).writeAt target 0 c).mapError .system

end Files
end CallBridge
