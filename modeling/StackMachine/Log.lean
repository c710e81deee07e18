/-!
# Log records

Compiling, running and resolving leave records of what was done. They are returned in order, next to the results.
-/

namespace StackMachine

/-- How serious a record is. -/
inductive LogLevel where
  | debug
  | warning
  | error
deriving DecidableEq

/-- The part of the program that writes a record. -/
inductive LogSource where
  | machine
  | compiler
  | ports
deriving DecidableEq

/-- The level as it is written. -/
def LogLevel.name : LogLevel → String
  | debug => "DEBUG"
  | warning => "WARNING"
  | error => "ERROR"

/-- The source as it is written. -/
def LogSource.name : LogSource → String
  | machine => "PortVM"
  | compiler => "PortVMCompiler"
  | ports => "PortService"

/-- One record. -/
structure LogRecord where
  level : LogLevel
  source : LogSource
  message : String
deriving DecidableEq

/-- The record on one line. -/
def LogRecord.text (r : LogRecord) : String :=
  s!"{r.level.name} {r.source.name}: {r.message}"

end StackMachine
