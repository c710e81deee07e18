import Std.Data.TreeMap
import StackMachine.Log
import StackMachine.Report
import StackMachine.Similarity
import StackMachine.Validation

/-!
# The registry of programs

The registry holds a template under each registered name, and compiles a name to a program. A template is validated
before it is registered. Compiled programs may be kept in a cache; registering a name again drops its program from the
cache. The registry counts how many programs it built and how many it found in the cache.
-/

namespace StackMachine

/-- Why the registry turns a request down. -/
inductive Refusal where
  /-- The name is not a text, or is empty. -/
  | badName (name : Literal)
  /-- The template of the name was rejected. -/
  | badTemplate (name : String) (rejection : Validation.Rejection)
  /-- The name is not registered; the names that are registered are given. -/
  | unknownProgram (name : String) (available : List String)
  /-- The message would hold an integer too long to be written. -/
  | unwritable
deriving DecidableEq

namespace Refusal

/-- What to do about an unknown name: the three closest registered names, if any is close. -/
def hint (name : String) (available : List String) : String :=
  match Similarity.suggest? name available 3 with
  | some (similar :: more) => "Did you mean: " ++ ", ".intercalate (similar :: more) ++ "?"
  | _ => "Register a template for this name before compiling it"

/-- The report of a refusal, if it can be written. -/
def report? : Refusal → Option Report
  | badName name =>
    some
      { kind := .badTemplate
        message := "Program names must be non-empty strings"
        received := some name.shown }
  | badTemplate name r =>
    some
      { kind := .badTemplate
        message := s!"Program template '{name}' is inconsistent: {r.violation.message}"
        context := some s!"Validation failure: {r.violation.kind.label}"
        index := r.index.map Int.ofNat
        opcode := r.opcode.map Opcode.name }
  | unknownProgram name available =>
    let names := if available.isEmpty then "(none)" else ", ".intercalate available
    some
      { kind := .unknownProgram
        message := s!"Unknown program: '{name}'"
        context := some s!"Available programs: {names}"
        suggestion := some (hint name available) }
  | unwritable => none

end Refusal

/-- Templates by name, the cache of compiled programs, and two counters. -/
structure Registry where
  templates : Std.TreeMap String (List Item)
  cache : Std.TreeMap String Program
  /-- Whether compiled programs are kept. -/
  caching : Bool
  /-- How many programs were built from templates. -/
  compilations : Nat
  /-- How many programs were found in the cache. -/
  hits : Nat

/-- The size of the cache, and the counters. -/
structure CacheStats where
  size : Nat
  compilations : Nat
  hits : Nat
deriving DecidableEq

namespace Registry

/-- A registry without any name. -/
def empty (caching : Bool) : Registry := ⟨∅, ∅, caching, 0, 0⟩

/-- The verdict on a template, as a refusal if it is not accepted. -/
def checkTemplate (p : Program) : Except Refusal Unit :=
  match p.validate with
  | .accepted _ => .ok ()
  | .rejected rejection => .error (.badTemplate p.name rejection)
  | .unwritable => .error .unwritable

/-- The name and the items to be registered, if they are acceptable. -/
def accept (name : Literal) (items : List Item) : Except Refusal String :=
  match name with
  | .text s =>
    if s.isEmpty then .error (.badName name)
    else (checkTemplate ⟨s, items⟩).map fun _ => s
  | name => .error (if name.isWritable then .badName name else .unwritable)

/-- Registers a template under a name, or changes nothing. -/
def register (r : Registry) (name : Literal) (items : List Item) : Registry × Except Refusal Unit :=
  match accept name items with
  | .ok s => ({ r with templates := r.templates.insert s items, cache := r.cache.erase s }, .ok ())
  | .error refusal => (r, .error refusal)

/-- The record of a registration. -/
def registerLogs (name : Literal) (items : List Item) : Except Refusal Unit → List LogRecord
  | .ok _ => [⟨.debug, .compiler, s!"Registered program '{name.plain}' ({items.length} instructions)"⟩]
  | .error _ => []

/-- The registered names in ascending order. -/
def names (r : Registry) : List String :=
  r.templates.keys

/-- Where a compiled program comes from. -/
inductive Origin where
  | cache
  | template
deriving DecidableEq

/-- The program of a name and where it comes from, without any change to the registry. -/
def find (r : Registry) (name : String) : Except Refusal (Program × Origin) :=
  match (if r.caching then r.cache[name]? else none) with
  | some p => .ok (p, .cache)
  | none =>
    match r.templates[name]? with
    | none => .error (.unknownProgram name r.names)
    | some items => (checkTemplate ⟨name, items⟩).map fun _ => (⟨name, items⟩, .template)

/-- Compiles a name: a cached program is handed out again, any other is built from the template and cached. -/
def compile (r : Registry) (name : String) : Registry × Except Refusal Program :=
  match r.find name with
  | .ok (p, .cache) => ({ r with hits := r.hits + 1 }, .ok p)
  | .ok (p, .template) =>
    ({ r with
        compilations := r.compilations + 1
        cache := if r.caching then r.cache.insert name p else r.cache }, .ok p)
  | .error refusal => (r, .error refusal)

/-- The record that compiling the name leaves: one if a program is built. -/
def compileLogs (r : Registry) (name : String) : List LogRecord :=
  match r.find name with
  | .ok (p, .template) => [⟨.debug, .compiler, s!"Compiled program '{name}' ({p.size} instructions)"⟩]
  | _ => []

/-- Empties the cache. -/
def clearCache (r : Registry) : Registry :=
  { r with cache := ∅ }

/-- The size of the cache, and the counters. -/
def stats (r : Registry) : CacheStats :=
  ⟨r.cache.size, r.compilations, r.hits⟩

/-- Puts a value under a key of an association list: a known key keeps its place. -/
def assign [BEq α] (key : α) (value : β) : List (α × β) → List (α × β)
  | [] => [(key, value)]
  | (k, v) :: rest => if k == key then (k, value) :: rest else (k, v) :: assign key value rest

/-- Pairs with the repeated names merged: a name keeps its first place and gets its last value. -/
def merge [BEq α] (pairs : List (α × β)) : List (α × β) :=
  pairs.foldl (fun merged (k, v) => assign k v merged) []

/-- Registers pairs one after the other until one of them is refused. -/
def registerAll (r : Registry) : List (Literal × List Item) → Except Refusal Registry × List LogRecord
  | [] => (.ok r, [])
  | (name, items) :: rest =>
    match r.register name items with
    | (r', .ok _) =>
      let (result, logs) := registerAll r' rest
      (result, registerLogs name items (.ok ()) ++ logs)
    | (_, .error refusal) => (.error refusal, [])

/-- A registry of the given pairs, and the records of its construction. -/
def ofPairs (caching : Bool) (pairs : List (Literal × List Item)) : Except Refusal Registry × List LogRecord :=
  (empty caching).registerAll (merge pairs)

end Registry

/-- The programs that are registered unless others are given: each joins groups of digits and reads the result. -/
def defaultPrograms : List (String × List Instruction) :=
  [("frontend", [.pushStr (.text "69"), .dup, .concat, .toInt, .halt]),
   ("backend", [.pushStr (.text "420"), .pushStr (.text "69"), .concat, .toInt, .halt])]

/-- The default programs as pairs of a registry. -/
def defaultPairs : List (Literal × List Item) :=
  defaultPrograms.map fun (name, instructions) => (.text name, instructions.map .instruction)

/-- The registry of the default programs. -/
def Registry.default : Registry :=
  match Registry.ofPairs true defaultPairs with
  | (.ok r, _) => r
  | (.error _, _) => .empty true

end StackMachine
