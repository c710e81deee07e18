/-!
# The options of the command line

The command lists programs, and takes their names as arguments. Its options have a short and a long spelling; one of
them takes a value.
-/

namespace StackMachine.CommandLine

/-- The name of the command. -/
def command : String := "portvm-disassemble"

/-- What an option asks for. -/
inductive Action where
  /-- Shows the help text and ends. -/
  | help
  /-- Shows the registered names and ends. -/
  | list
  /-- Runs each program, too. -/
  | run
  /-- Runs each program and shows the trace. -/
  | trace
  /-- Writes to a file; takes the path as its value. -/
  | output
deriving DecidableEq

namespace Action

/-- The spellings of an option, as messages give them. -/
def label : Action → String
  | help => "-h/--help"
  | list => "--list/-l"
  | run => "--run/-r"
  | trace => "--trace/-t"
  | output => "--output/-o"

/-- Whether the option takes a value. -/
def takesValue (a : Action) : Bool := a == output

end Action

/-- All spellings of options, in the order in which ambiguous abbreviations are explained. -/
def spellings : List (String × Action) :=
  [("-h", .help), ("--help", .help), ("--list", .list), ("-l", .list), ("--run", .run), ("-r", .run),
   ("--trace", .trace), ("-t", .trace), ("--output", .output), ("-o", .output)]

/-- The usage lines. -/
def usage : String :=
  "usage: portvm-disassemble [-h] [--list] [--run] [--trace] [--output OUTPUT]\n"
    ++ "                          [names ...]\n"

/-- The help text. -/
def help : String :=
  usage ++ "\n"
    ++ "Disassemble PortVM programs with annotations\n\n"
    ++ "positional arguments:\n"
    ++ "  names                 Program names to disassemble (default: all)\n\n"
    ++ "options:\n"
    ++ "  -h, --help            show this help message and exit\n"
    ++ "  --list, -l            List registered program names and exit\n"
    ++ "  --run, -r             Also execute each program and show its result\n"
    ++ "  --trace, -t           Also show a per-instruction execution trace (implies\n"
    ++ "                        --run)\n"
    ++ "  --output OUTPUT, -o OUTPUT\n"
    ++ "                        Output file (default: stdout)\n"

end StackMachine.CommandLine
