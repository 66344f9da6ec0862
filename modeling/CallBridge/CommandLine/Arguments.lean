import CallBridge.CommandLine.Topic
import CallBridge.Text.Blank

/-!
# Arguments

What the words after the program's name ask for. The first word is a command; after it come options,
each with a value, either as one word with an equals sign in between or as two words. Each option is
given at most once, and a value that is a word of its own does not begin with a minus sign, unless
it is nothing but that. A double minus may end the options, and nothing may come after it. Where an
option may stand, help can be asked for; it is given if the words before are right, whatever comes
after.
-/

namespace CallBridge.CommandLine

/-- The options of a command, each with its value. -/
abbrev Options := List (String × String)

namespace Options

/-- The value of an option. -/
def find? (o : Options) (name : String) : Option String :=
  (List.find? (·.1 = name) o).map (·.2)

def text (o : Options) (name : String) : String := (o.find? name).getD ""

def number (o : Options) (name : String) : Nat :=
  ((o.find? name).bind fun s => (Text.readWord s.toList).toOption).getD 0

/-- The options with the values of those not given; none if one that is not given has to be. -/
def complete (forms : List OptionForm) (given : Options) : Option Options :=
  let missing := forms.filter fun f => (given.find? f.name).isNone
  if missing.any (·.required) then none
  else some (given ++ missing.filterMap fun f => f.standard.map fun s => (f.name, s))

end Options

/-- Why the words are no command: they ask for help, or for nothing the program knows. -/
inductive Refusal where
  | help | misuse
  deriving DecidableEq, Repr

/-- Whether a word asks for help: the long form alone, or the short form with whatever follows. -/
def asksForHelp (word : String) : Bool := word = "--help" || word.startsWith "-h"

/-- Whether a word can be a value of its own. -/
def isValue (word : String) : Bool := !word.startsWith "-" || word = "-"

/-- The name and the value of an option in one word. -/
def splitOption (word : List Char) : String × Option String :=
  let name := String.ofList (word.takeWhile (· ≠ '='))
  match word.dropWhile (· ≠ '=') with
  | [] => (name, none)
  | _ :: value => (name, some (String.ofList value))

/-- The option of a word with its value if the word has one, unless it has been given or is of none
of the forms. -/
def option? (forms : List OptionForm) (given : Options) (word : String) :
    Option (OptionForm × Option String) :=
  match word.toList with
  | '-' :: '-' :: rest =>
    let (name, value) := splitOption rest
    if (given.find? name).isSome then none
    else (forms.find? (·.name = name)).map fun form => (form, value)
  | _ => none

/-- Read options of these forms, after those given. -/
def readOptions (forms : List OptionForm) (given : Options) :
    List String → Except Refusal Options
  | [] => .ok given
  | ["--"] => .ok given
  | word :: rest =>
    if asksForHelp word then .error .help
    else
      match option? forms given word with
      | none => .error .misuse
      | some (form, some value) =>
        if form.kind.admits value then readOptions forms (given ++ [(form.name, value)]) rest
        else .error .misuse
      | some (form, none) =>
        match rest with
        | value :: rest =>
          if isValue value ∧ form.kind.admits value then
            readOptions forms (given ++ [(form.name, value)]) rest
          else .error .misuse
        | [] => .error .misuse

/-- The options of a benchmark. -/
structure RunOptions where
  shapes : String
  lengths : String
  input : String
  seed : String
  warmup : Nat
  samples : Nat
  calls : Nat
  output : Option String
  markdown : Option String
  log : Option String
  artifactIndex : Option String
  timestamp : Option String
  deriving DecidableEq, Repr, Inhabited

/-- The options of a verification. -/
structure VerifyOptions where
  seed : String
  property : Option String
  report : Option String
  log : Option String
  deriving DecidableEq, Repr, Inhabited

/-- What is to be done. -/
inductive Command where
  | run (options : RunOptions)
  | verify (options : VerifyOptions)
  | bindFailure (className : String) (elements : Nat)
  | validateLog (path : String)
  deriving DecidableEq, Repr, Inhabited

def CommandName.command (o : Options) : CommandName → Command
  | run => .run {
      shapes := o.text "shapes"
      lengths := o.text "lengths"
      input := o.text "input"
      seed := o.text "seed"
      warmup := o.number "warmup-iters"
      samples := o.number "samples"
      calls := o.number "iters"
      output := o.find? "output"
      markdown := o.find? "markdown"
      log := o.find? "log"
      artifactIndex := o.find? "artifact-index"
      timestamp := o.find? "timestamp" }
  | verify => .verify {
      seed := o.text "seed"
      property := o.find? "property"
      report := o.find? "report"
      log := o.find? "log" }
  | bindFailure => .bindFailure (o.text "class") (o.number "elements")
  | validateLog => .validateLog (o.text "log")

/-- What is asked for. -/
inductive Demand where
  | perform (c : Command)
  | explain (t : Topic)
  | nothing
  deriving DecidableEq, Repr, Inhabited

namespace Demand

/-- What is asked for by a command and the words after it. -/
def ofCommand (name : CommandName) (words : List String) : Demand :=
  match readOptions name.options [] words with
  | .error .help => explain (.command name)
  | .error .misuse => nothing
  | .ok given =>
    match Options.complete name.options given with
    | some options => perform (name.command options)
    | none => nothing

/-- What is asked for by the word for help and the words after it: help on at most one topic. -/
def ofHelp : List String → Demand
  | [] => explain .program
  | [word] => ((Topic.ofWord? word).map explain).getD nothing
  | _ => nothing

/-- What the program's words ask for. -/
def ofWords : List String → Demand
  | [] => nothing
  | word :: rest =>
    if asksForHelp word then explain .program
    else if word = Topic.helpWord then ofHelp rest
    else
      match CommandName.ofWord? word with
      | some name => ofCommand name rest
      | none => nothing

end Demand

/-- A text without its mark for hexadecimal digits, if it has one. -/
def hexDigits? : List Char → Option (List Char)
  | '0' :: 'x' :: rest => some rest
  | '0' :: 'X' :: rest => some rest
  | _ => none

/-- Read a seed: decimal digits, or hexadecimal ones after their mark, with blanks around and
underscores among them. -/
def readSeed (s : String) : Except Text.NumberError UInt64 :=
  let digits (cs : List Char) : List Char := cs.filter (· ≠ '_')
  let word := Text.trimChars s.toList
  let number := match hexDigits? word with
    | some rest => Text.readNumber 16 Text.wordLimit (digits rest)
    | none => Text.readWord (digits word)
  number.map UInt64.ofNat

end CallBridge.CommandLine
