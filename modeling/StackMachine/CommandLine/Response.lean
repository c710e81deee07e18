import StackMachine.CommandLine.Request
import StackMachine.CommandLine.System
import StackMachine.Listing
import StackMachine.Registry

/-!
# Answering the command line

The answer to a command line is what goes to the two output streams, the exit code, and possibly a file. The listings
of all named programs are made before anything is put out, so a single unknown name leaves no output but its report.
-/

namespace StackMachine.CommandLine

/-- Why there are no listings. -/
inductive Failure where
  | refused (refusal : Refusal)
  | faulted (f : Fault)
  /-- Something to be shown would hold an integer too long to be written. -/
  | unwritable
  /-- A program holds a literal that is no instruction. -/
  | stray
deriving DecidableEq

/-- The report of a failure, if there is one. -/
def Failure.report? : Failure → Option Report
  | refused refusal => refusal.report?
  | faulted f => some f.report
  | unwritable | stray => none

/-- The lines on one program: its listing, and those on its run if the settings ask for one. -/
def block (settings : Settings) (p : Program) : Except Failure (List String) := do
  let listing ← p.listing.mapError fun
    | .unwritable => .unwritable
    | .stray => .stray
  if settings.run || settings.trace then
    let lines ← (p.run.lines settings.trace).mapError fun
      | .faulted f _ => .faulted f
      | _ => .unwritable
    return listing ++ lines
  else return listing

/-- The lines on the programs of all names. -/
def blocks (settings : Settings) (r : Registry) : List String → Except Failure (List String)
  | [] => .ok []
  | name :: rest =>
    match r.compile name with
    | (_, .error refusal) => .error (.refused refusal)
    | (r', .ok p) => do
      let lines ← block settings p
      let others ← blocks settings r' rest
      return lines ++ others

/-- The answer to a command line. -/
structure Response where
  exit : Nat
  stdout : String := ""
  stderr : String := ""
  /-- The file to be written before anything else is done: its path, and its contents. -/
  file : Option (Path × String) := none
deriving DecidableEq

/-- The notice that a file was written. -/
def written (path : Path) : String :=
  s!"✓ Disassembly written to: {path.text}\n"

/-- The listings as text, printed or written to the file that the settings give. -/
def Response.ofLines (settings : Settings) (lines : List String) : Response :=
  let text := "\n".intercalate lines
  match settings.output with
  | none | some "" => { exit := 0, stdout := text ++ "\n" }
  | some path => { exit := 0, stderr := written (Path.ofString path), file := some (Path.ofString path, text) }

/-- The answer to a request about the programs of a registry; `none` if a failure has no report. -/
def Request.answer (r : Registry) : Request → Option Response
  | .help => some { exit := 0, stdout := CommandLine.help }
  | .listing settings names =>
    if settings.list then some { exit := 0, stdout := "\n".intercalate r.names ++ "\n" }
    else
      match blocks settings r (if names.isEmpty then r.names else names) with
      | .ok lines => some (.ofLines settings lines)
      | .error failure => failure.report?.map fun report => { exit := 1, stderr := report.text ++ "\n" }

/-- The answer to a usage error. -/
def UsageError.answer (e : UsageError) : Response :=
  { exit := 2, stderr := usage ++ s!"{command}: error: {e.message}\n" }

/-- The answer to a command line about the programs of a registry. -/
def respond (r : Registry) (arguments : List String) : Option Response :=
  match parse arguments with
  | .ok request => request.answer r
  | .error e => some e.answer

/-- The files in the working directory after a command that ran in an empty one, the rest of the system being given. -/
def Response.filesIn (r : Response) (tree : FileTree) : Except OpenError (List (String × String)) :=
  match r.file with
  | none => .ok []
  | some (path, text) =>
    (path.place tree).map fun
      | .inside name => [(name, text)]
      | .outside => []

/-- The files in the working directory after a command that ran in an empty one. -/
def Response.files (r : Response) : Except OpenError (List (String × String)) :=
  r.filesIn .system

end StackMachine.CommandLine
