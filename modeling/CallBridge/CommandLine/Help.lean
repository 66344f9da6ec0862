import CallBridge.CommandLine.Topic

/-!
# Help

The text that explains a topic: what it is about, how it is used, and a table for its commands,
arguments and options. The rows of a table explain their labels beside them, unless the labels take
up too much of a line for that; then all explanations stand below their labels.
-/

namespace CallBridge.CommandLine

/-- A label and what explains it. -/
structure HelpRow where
  label : String
  about : String
  deriving DecidableEq, Repr

/-- A table with its title. -/
structure HelpTable where
  title : String
  rows : List HelpRow
  deriving DecidableEq, Repr

namespace HelpTable

/-- The columns of a line, and the columns of a table's row besides its label and explanation. -/
def lineWidth : Nat := 100

def margins : Nat := 12

/-- The width of the longest label. -/
def labelWidth (t : HelpTable) : Nat := (t.rows.map (·.label.length)).foldl max 0

/-- Whether the labels take up more than two fifths of a line and leave an explanation less than it
needs. -/
def isCrowded (t : HelpTable) : Bool :=
  let taken := t.labelWidth + margins
  2 * lineWidth < 5 * taken && t.rows.any fun r => lineWidth - taken < r.about.length

/-- So many blanks. -/
def blanks (n : Nat) : String := String.ofList (List.replicate n ' ')

def rowText (t : HelpTable) (r : HelpRow) : String :=
  if t.isCrowded then "  " ++ r.label ++ "\n" ++ blanks 10 ++ r.about
  else "  " ++ r.label ++ blanks (t.labelWidth - r.label.length + 2) ++ r.about

def text (t : HelpTable) : String :=
  t.title ++ ":\n" ++ "\n".intercalate (t.rows.map t.rowText)

end HelpTable

namespace OptionForm

/-- The option with a name for its value. -/
def usage (o : OptionForm) : String :=
  let value := o.name.map fun c => if c = '-' then '_' else c.toUpper
  s!"--{o.name} <{value}>"

/-- What stands for the short form of an option that has none. -/
def withoutShort : String := "    "

/-- The row of an option, with its value where it is not given. -/
def row (o : OptionForm) : HelpRow :=
  { label := withoutShort ++ o.usage
    about := o.about ++ ((o.standard.map fun s => s!" [default: {s}]").getD "") }

end OptionForm

namespace Topic

def programName : String := "harness"

/-- The words of a use of the topic. -/
def usageWords : Topic → List String
  | program => ["<COMMAND>"]
  | command c =>
    c.word :: (if c.options.all (·.required) then [] else ["[OPTIONS]"]) ++
      (c.options.filter (·.required)).map (·.usage)
  | help => [helpWord, "[COMMAND]..."]

/-- How the topic is used. -/
def usage (t : Topic) : String := "Usage: " ++ " ".intercalate (programName :: t.usageWords)

def optionTable (options : List OptionForm) : HelpTable :=
  ⟨"Options", options.map (·.row) ++ [⟨"-h, --help", "Print help"⟩]⟩

def tables : Topic → List HelpTable
  | program =>
    [⟨"Commands", (CommandName.all.map fun c => ⟨c.word, c.about⟩) ++ [⟨helpWord, about help⟩]⟩,
      optionTable []]
  | command c => [optionTable c.options]
  | help => [⟨"Arguments", [⟨"[COMMAND]...", "Print help for the subcommand(s)"⟩]⟩]

def explanation (t : Topic) : String :=
  "\n\n".intercalate (t.about :: t.usage :: t.tables.map (·.text))

end Topic
end CallBridge.CommandLine
