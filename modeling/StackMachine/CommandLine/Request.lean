import StackMachine.CommandLine.Option
import StackMachine.Text.Digit
import StackMachine.Text.Quote

/-!
# Reading the command line

The arguments are classified first. Behind the separator `--` everything is a word. In front of it, an argument with a
leading dash is an option if it is spelled or abbreviated like one; otherwise it is a word if it looks like a negative
number or contains a blank, and an unknown option if not.

Then the options are carried out from left to right. Short options may be joined (`-rl`), and a value may be joined to
its option (`-opath`, `--output=path`); a value that stands apart must be a word. Only the first contiguous row of words
counts as program names. All later words and all unknown options are left over, which is an error at the end.
-/

namespace StackMachine.CommandLine

/-- Why a command line is not understood. -/
inductive UsageError where
  /-- The abbreviation stands for several options. -/
  | ambiguous (argument : String) (spellings : List String)
  /-- The option takes no value and has one joined to it. -/
  | unusedValue (action : Action) (value : String)
  /-- The option takes a value and has none. -/
  | missingValue (action : Action)
  /-- Arguments are left over. -/
  | leftOver (arguments : List String)
deriving DecidableEq

/-- The message of a usage error. -/
def UsageError.message : UsageError → String
  | ambiguous argument spellings =>
    let matching := ", ".intercalate spellings
    s!"ambiguous option: {argument} could match {matching}"
  | unusedValue action value => s!"argument {action.label}: ignored explicit argument {Text.quote value}"
  | missingValue action => s!"argument {action.label}: expected one argument"
  | leftOver arguments => "unrecognized arguments: " ++ " ".intercalate arguments

/-- An option as it was found: what it asks for, whether it has the short spelling, and the value joined to it. -/
structure Found where
  action : Action
  isShort : Bool
  joined : Option (List Char)
deriving DecidableEq

/-- A classified argument. -/
inductive Token where
  | word (argument : String)
  | separator
  | option (found : Found)
  | unknown (argument : String)
deriving DecidableEq

/-- Whether an argument is a minus sign followed by digits, or by a decimal fraction. One line feed may follow. -/
def looksNegative (argument : List Char) : Bool :=
  let number := if argument.getLast? = some '\n' then argument.dropLast else argument
  match number with
  | '-' :: digits =>
    let fraction := digits.dropWhile Text.isDecimalDigit
    match fraction with
    | [] => !digits.isEmpty
    | '.' :: places => !places.isEmpty && places.all Text.isDecimalDigit
    | _ => false
  | _ => false

/-- An argument split at its first equals sign. -/
def splitAtEquals (argument : List Char) : List Char × Option (List Char) :=
  let rest := argument.dropWhile (· != '=')
  (argument.takeWhile (· != '='), if rest.isEmpty then none else some (rest.drop 1))

/-- Whether a spelling has one dash. -/
def isShortSpelling (spelling : List Char) : Bool :=
  spelling.length = 2

/-- The options that an argument can stand for, which is spelled like none of them: a long one may be abbreviated, a
short one may have its value or further short options joined to it. -/
def candidates (argument : List Char) : List (String × Found) :=
  spellings.filterMap fun (spelling, action) =>
    let chars := spelling.toList
    if argument.take 2 = ['-', '-'] then
      let (name, joined) := splitAtEquals argument
      if name.isPrefixOf chars then some (spelling, ⟨action, false, joined⟩) else none
    else if chars = argument.take 2 then some (spelling, ⟨action, true, some (argument.drop 2)⟩)
    else none

/-- Classifies an argument in front of the separator. -/
def classify (argument : String) : Except UsageError Token :=
  let chars := argument.toList
  if chars.head? ≠ some '-' then .ok (.word argument)
  else
    match spellings.lookup argument with
    | some action => .ok (.option ⟨action, isShortSpelling chars, none⟩)
    | none =>
      if chars.length = 1 then .ok (.word argument)
      else
        let (name, joined) := splitAtEquals chars
        match joined, spellings.lookup (String.ofList name) with
        | some _, some action => .ok (.option ⟨action, isShortSpelling name, joined⟩)
        | _, _ =>
          match candidates chars with
          | [(_, found)] => .ok (.option found)
          | [] =>
            if looksNegative chars || chars.contains ' ' then .ok (.word argument)
            else .ok (.unknown argument)
          | several => .error (.ambiguous argument (several.map Prod.fst))

/-- Classifies all arguments. -/
def tokens : List String → Except UsageError (List Token)
  | [] => .ok []
  | argument :: rest =>
    if argument = "--" then .ok (.separator :: rest.map .word)
    else do
      let token ← classify argument
      let others ← tokens rest
      return token :: others

/-- One thing to be carried out. -/
inductive Step where
  | flag (action : Action)
  /-- The value is the next word. -/
  | nextValue (action : Action)
  | value (action : Action) (value : String)
deriving DecidableEq

/-- The short option of a letter. -/
def short? (c : Char) : Option Action :=
  spellings.lookup (String.ofList ['-', c])

/-- The steps of a short option and of what is joined to it: a value, or further short options. -/
def joinedSteps (action : Action) (joined : List Char) : Except UsageError (List Step) :=
  if action.takesValue then .ok [.value action (String.ofList joined)]
  else
    match joined with
    | [] => .error (.unusedValue action "")
    | c :: rest =>
      match short? c with
      | none => .error (.unusedValue action (String.ofList joined))
      | some next =>
        if rest.isEmpty then
          .ok [.flag action, if next.takesValue then .nextValue next else .flag next]
        else (joinedSteps next rest).map (.flag action :: ·)

/-- The steps of an option. -/
def Found.steps (found : Found) : Except UsageError (List Step) :=
  match found.joined with
  | none => .ok [if found.action.takesValue then .nextValue found.action else .flag found.action]
  | some joined =>
    if found.isShort then joinedSteps found.action joined
    else if found.action.takesValue then .ok [.value found.action (String.ofList joined)]
    else .error (.unusedValue found.action (String.ofList joined))

/-- What the options ask for. -/
structure Settings where
  list : Bool := false
  run : Bool := false
  trace : Bool := false
  /-- The path of the output file; an empty one counts as none. -/
  output : Option String := none
deriving DecidableEq

/-- What is asked for. -/
inductive Request where
  | help
  /-- Listings of the named programs, or of all if no name is given; the settings may ask for the names alone. -/
  | listing (settings : Settings) (names : List String)
deriving DecidableEq

/-- The settings after a flag. -/
def Settings.withFlag (s : Settings) : Action → Settings
  | .list => { s with list := true }
  | .run => { s with run := true }
  | .trace => { s with trace := true }
  | .help | .output => s

/-- The settings after the output file was given. The separator is no path and takes back an earlier one. -/
def Settings.withValue (s : Settings) (value : String) : Settings :=
  { s with output := if value = "--" then none else some value }

/-- Which words are taken for program names. -/
inductive Names where
  /-- No word has come yet. -/
  | awaited
  /-- The row of names, the last one first, may still go on. -/
  | current (reversed : List String)
  /-- The row of names, the last one first, is complete. -/
  | complete (reversed : List String)
deriving DecidableEq

namespace Names

/-- An option ends the row of names. -/
def close : Names → Names
  | current reversed => complete reversed
  | names => names

/-- A word joins the row of names, or is left over. -/
def add (argument : String) : Names → Option Names
  | awaited => some (current [argument])
  | current reversed => some (current (argument :: reversed))
  | complete _ => none

/-- The names in their order, without the first separator. -/
def toList : Names → List String
  | awaited => []
  | current reversed | complete reversed => reversed.reverse.erase "--"

end Names

/-- What has been read of a command line. -/
structure Reading where
  settings : Settings := {}
  names : Names := .awaited
  /-- What is left over, the last one first. -/
  leftOver : List String := []

namespace Reading

/-- Takes up a word or the separator. -/
def takeWord (r : Reading) (argument : String) : Reading :=
  match r.names.add argument with
  | some names => { r with names := names }
  | none => { r with leftOver := argument :: r.leftOver }

/-- Sets aside an unknown option. -/
def takeUnknown (r : Reading) (argument : String) : Reading :=
  { r with names := r.names.close, leftOver := argument :: r.leftOver }

/-- Carries out the steps of an option; `none` stands for a request for help. -/
def carryOut (r : Reading) : List Step → Option Reading
  | [] => some { r with names := r.names.close }
  | .flag .help :: _ => none
  | .flag action :: rest => carryOut { r with settings := r.settings.withFlag action } rest
  | .value _ value :: rest => carryOut { r with settings := r.settings.withValue value } rest
  | .nextValue _ :: rest => carryOut r rest

/-- The request, if nothing is left over. -/
def finish (r : Reading) : Except UsageError Request :=
  if r.leftOver.isEmpty then .ok (.listing r.settings r.names.toList)
  else .error (.leftOver r.leftOver.reverse)

/-- The option that still needs a value after some steps. -/
def wanting? (steps : List Step) : Option Action :=
  steps.findSome? fun
    | .nextValue action => some action
    | _ => none

/-- Reads classified arguments. -/
def takeAll (r : Reading) : List Token → Except UsageError Request
  | [] => r.finish
  | .word argument :: rest => takeAll (r.takeWord argument) rest
  | .separator :: rest => takeAll (r.takeWord "--") rest
  | .unknown argument :: rest => takeAll (r.takeUnknown argument) rest
  | .option found :: rest => do
    let steps ← found.steps
    match wanting? steps with
    | none =>
      match r.carryOut steps with
      | none => return .help
      | some r' => takeAll r' rest
    | some action =>
      match rest with
      | .word value :: rest =>
        match r.carryOut steps with
        | none => return .help
        | some r' => takeAll { r' with settings := r'.settings.withValue value } rest
      | _ => throw (.missingValue action)

end Reading

/-- Reads a command line. -/
def parse (arguments : List String) : Except UsageError Request := do
  ({} : Reading).takeAll (← tokens arguments)

end StackMachine.CommandLine
