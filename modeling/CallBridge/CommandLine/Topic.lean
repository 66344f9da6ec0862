import CallBridge.Text.Number

/-!
# Topics

What the program can be asked for, and what it says about each: the program as a whole, its commands
with their options, and help itself.
-/

namespace CallBridge.CommandLine

/-- What the value of an option has to be. -/
inductive ValueKind where
  | text | path | number
  deriving DecidableEq, Repr

/-- Whether a text is a value of a kind: a path is not empty, and a number is an unsigned 64-bit
one. -/
def ValueKind.admits (k : ValueKind) (value : String) : Bool :=
  match k with
  | text => true
  | path => value ≠ ""
  | number => (Text.readWord value.toList).isOk

/-- An option: its name, what it is about, its kind of value, the value where it is not given, and
whether it has to be given. -/
structure OptionForm where
  name : String
  about : String
  kind : ValueKind := .text
  standard : Option String := none
  required : Bool := false
  deriving DecidableEq, Repr

/-- The name of a command. -/
inductive CommandName where
  | run | verify | bindFailure | validateLog
  deriving DecidableEq, Repr

/-- The seed where none is given. -/
def standardSeed : String := "0xDEAD_BEEF"

namespace CommandName

def all : List CommandName := [run, verify, bindFailure, validateLog]

def word : CommandName → String
  | run => "run"
  | verify => "verify"
  | bindFailure => "bind-failure"
  | validateLog => "validate-log"

def ofWord? (word : String) : Option CommandName := all.find? (·.word = word)

def about : CommandName → String
  | run => "Time every call shape across a list of lengths"
  | verify => "Check the bridge's sorting and binding properties. Exits 1 on a violation"
  | bindFailure =>
    "Sort through the raw-address boundary with a comparator whose class lacks `compare(JJ)I`. " ++
      "The process terminates with the bridge's fatal exit status"
  | validateLog => "Validate a structured JSONL log file"

def options : CommandName → List OptionForm
  | run =>
    [{ name := "shapes", about := "Comma-separated call shapes, or `all`", standard := "all" },
      { name := "lengths", about := "Comma-separated string lengths / element counts",
        standard := "0,8,16,32,64,128" },
      { name := "input", about := "Sort input kind (`ascending`, `descending`, `random`)",
        standard := "ascending" },
      { name := "seed", about := "Seed for random inputs (decimal or 0x...)",
        standard := standardSeed },
      { name := "warmup-iters", about := "Warmup calls per shape and length", kind := .number,
        standard := "1000" },
      { name := "samples", about := "Sample count", kind := .number, standard := "15" },
      { name := "iters", about := "Calls per sample", kind := .number, standard := "2000" },
      { name := "output", about := "Output JSON report path (if omitted, prints to stdout)",
        kind := .path },
      { name := "markdown", about := "Optional markdown report path", kind := .path },
      { name := "log", about := "Optional structured JSONL log path", kind := .path },
      { name := "artifact-index", about := "Optional artifact index path (requires `--output`)",
        kind := .path },
      { name := "timestamp",
        about := "Optional fixed timestamp string for deterministic report generation" }]
  | verify =>
    [{ name := "seed", about := "Root seed (decimal or 0x...)", standard := standardSeed },
      { name := "property", about := "Check only this property" },
      { name := "report", about := "Output report path (markdown)", kind := .path },
      { name := "log", about := "Optional structured JSONL log path", kind := .path }]
  | bindFailure =>
    [{ name := "class", about := "Comparator class to bind against",
        standard := "benchmark/BrokenComparator" },
      { name := "elements", about := "Elements to sort", kind := .number, standard := "16" }]
  | validateLog => [{ name := "log", about := "Log path", kind := .path, required := true }]

end CommandName

/-- What help can be given on. -/
inductive Topic where
  | program
  | command (c : CommandName)
  | help
  deriving DecidableEq, Repr

namespace Topic

def helpWord : String := "help"

def ofWord? (word : String) : Option Topic :=
  if word = helpWord then some help else (CommandName.ofWord? word).map command

def about : Topic → String
  | program => "Native/managed FFI boundary benchmark harness"
  | command c => c.about
  | help => "Print this message or the help of the given subcommand(s)"

end Topic
end CallBridge.CommandLine
