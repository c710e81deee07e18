/-!
# Paths

A path is brought to its plain form before it is used: empty parts and single dots say nothing and are dropped, double
dots stay, since what they lead to depends on the directory in front of them.
-/

namespace StackMachine.CommandLine

/-- A path in its plain form: how many slashes it starts with, and its parts. -/
structure Path where
  root : Nat
  parts : List String
deriving DecidableEq

namespace Path

/-- The number of slashes that count at the start of a path: two are kept, any other number is as good as one. -/
def rootSlashes (path : String) : Nat :=
  match (path.toList.takeWhile (· == '/')).length with
  | 0 => 0
  | 2 => 2
  | _ => 1

/-- The plain form of a path. -/
def ofString (path : String) : Path :=
  ⟨rootSlashes path,
    ((path.toList.splitOn '/').map String.ofList).filter fun part => part != "" && part != "."⟩

/-- The path as text. -/
def text (p : Path) : String :=
  if p.root = 0 ∧ p.parts.isEmpty then "."
  else String.ofList (List.replicate p.root '/') ++ "/".intercalate p.parts

/-- Whether the path starts at the root. -/
def isAbsolute (p : Path) : Bool := p.root != 0

end Path

end StackMachine.CommandLine
