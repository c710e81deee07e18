/-!
# Similarity of names

The similarity of two texts is measured by matching blocks. The longest block that the two have in common is matched,
then the same is done with what stands to its left, and with what stands to its right. If `m` characters of either text
are matched and the texts have `n` characters together, their ratio is `2 m / n`.

Of several longest blocks the one that starts first in the first text is matched, and of these the one that starts first
in the second text. In a second text of at least 200 characters, the characters that occur more than `n / 100 + 1`
times among its `n` are too common to find a block by; a block that was found is extended over them.
-/

namespace StackMachine.Similarity

/-- A character of the second text, and whether blocks are found by it. -/
structure Mark where
  char : Char
  isKey : Bool
deriving DecidableEq

/-- A common block: where it starts in either text, and its length. -/
structure Block where
  left : Nat
  right : Nat
  size : Nat
deriving DecidableEq

/-- The second text, prepared for finding blocks. -/
def marks (b : List Char) : List Mark :=
  let n := b.length
  let common := if n < 200 then [] else b.eraseDups.filter fun c => n / 100 + 1 < b.count c
  b.map fun c => ⟨c, !common.contains c⟩

/-- The lengths of the blocks that end with `c` and at each place of the second text, from the lengths of those that end
one character before. -/
def nextRow (c : Char) (b : List Mark) (row : List Nat) : List Nat :=
  List.zipWith (fun m k => if m.isKey && m.char == c then k + 1 else 0) b (0 :: row)

/-- The better of `best` and the blocks of a row that end at place `i` of the first text. -/
def improve (i : Nat) (row : List Nat) (best : Block) : Block :=
  row.zipIdx.foldl (fun best (k, j) => if best.size < k then ⟨i + 1 - k, j + 1 - k, k⟩ else best) best

/-- The first longest block among `best` and those that end in the rest of the first text, which starts at place `i`. -/
def longestFrom (b : List Mark) (i : Nat) (row : List Nat) (best : Block) : List Char → Block
  | [] => best
  | c :: rest =>
    let row' := nextRow c b row
    longestFrom b (i + 1) row' (improve i row' best) rest

/-- The number of characters that two texts have in common at their start. -/
def commonStart : List Char → List Mark → Nat
  | c :: a, m :: b => if c = m.char then commonStart a b + 1 else 0
  | _, _ => 0

/-- A block extended on both sides over all characters that agree. -/
def extend (a : List Char) (b : List Mark) (block : Block) : Block :=
  let before := commonStart (a.take block.left).reverse (b.take block.right).reverse
  let after := commonStart (a.drop (block.left + block.size)) (b.drop (block.right + block.size))
  ⟨block.left - before, block.right - before, before + block.size + after⟩

/-- The block of two texts that is matched first. -/
def firstBlock (a : List Char) (b : List Mark) : Block :=
  extend a b (longestFrom b 0 (b.map fun _ => 0) ⟨0, 0, 0⟩ a)

/-- The number of characters in the matched blocks. -/
def matched (a : List Char) (b : List Mark) : Nat :=
  match firstBlock a b with
  | ⟨left, right, size⟩ =>
    if 0 < size ∧ left + size ≤ a.length then
      size + matched (a.take left) (b.take right) + matched (a.drop (left + size)) (b.drop (right + size))
    else 0
termination_by a.length
decreasing_by all_goals simp only [List.length_take, List.length_drop]; omega

/-- A name with the parts of its ratio. -/
structure Candidate where
  name : String
  matched : Nat
  total : Nat

/-- A name compared with the target. -/
def Candidate.ofName (target : String) (name : String) : Candidate :=
  let a := name.toList
  let b := target.toList
  ⟨name, Similarity.matched a (marks b), a.length + b.length⟩

/-- Whether the ratio is at least three fifths. -/
def Candidate.isClose (c : Candidate) : Bool :=
  3 * c.total ≤ 10 * c.matched

/-- The order of suggestions: the greater ratio first, and of equal ratios the greater name. -/
def Candidate.precedes (c d : Candidate) : Bool :=
  let x := c.matched * d.total
  let y := d.matched * c.total
  y < x || (x == y && d.name ≤ c.name)

/-- The names closest to the target, at most `count`; `none` if names are asked for but not even one. -/
def suggest? (target : String) (available : List String) (count : Int) : Option (List String) :=
  if target.isEmpty || available.isEmpty then some []
  else if count ≤ 0 then none
  else
    let close := (available.map (Candidate.ofName target)).filter Candidate.isClose
    some (((close.mergeSort Candidate.precedes).take count.toNat).map Candidate.name)

end StackMachine.Similarity
