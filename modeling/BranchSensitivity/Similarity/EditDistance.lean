import BranchSensitivity.Text.Lowercase

/-!
# Edit distance and similarity ratio

The edit distance of two strings counts the insertions, deletions and substitutions of characters
that turn one into the other, where a substitution between two characters that are the same
letter (`Text.sameLetter`, equal up to lowercase) costs nothing. It is computed row by row, each
row the distances from one more prefix of the first string to every prefix of the second.

The similarity ratio of two strings is one minus their distance over the longer length, raised
by the factor `1 + 1/length` when the longer has at most three characters; two empty strings
have ratio one.

    editDistance a b = levenshtein a.toList b.toList
-/

namespace BranchSensitivity.Similarity

open Text

/-- The cost of putting `b` where `a` was. -/
def substitutionCost (a b : Char) : Nat := if sameLetter a b then 0 else 1

/-! ## Specification -/

/-- The edit distance by its defining recursion. -/
def levenshtein : List Char → List Char → Nat
  | [], ys => ys.length
  | x :: xs, [] => xs.length + 1
  | x :: xs, y :: ys =>
    min (min (levenshtein xs (y :: ys) + 1) (levenshtein (x :: xs) ys + 1))
      (levenshtein xs ys + substitutionCost x y)
termination_by xs ys => xs.length + ys.length

/-! ## Algorithm -/

/-- The rest of the row for the character `c`, from the previous row, whose entries `diag` and
`up` stand above-left and above, and the entry `left` just computed. -/
def rowStep (c : Char) : List Char → List Nat → Nat → List Nat
  | t :: ts, diag :: up :: rest, left =>
    let v := min (min (up + 1) (left + 1)) (diag + substitutionCost c t)
    v :: rowStep c ts (up :: rest) v
  | _, _, _ => []

/-- The row of the prefix ending in `c`, the `i`-th character, from the previous row. -/
def nextRow (tail : List Char) (prev : List Nat) (i : Nat) (c : Char) : List Nat :=
  (i + 1) :: rowStep c tail prev (i + 1)

/-- All rows for the characters of `head`, starting from the `i`-th. -/
def finalRow (tail : List Char) : List Char → Nat → List Nat → List Nat
  | [], _, row => row
  | c :: cs, i, row => finalRow tail cs (i + 1) (nextRow tail row i c)

/-- The edit distance of two strings, on their characters. -/
def editDistance (head tail : String) : Nat :=
  let h := head.toList
  let t := tail.toList
  if h.isEmpty then t.length
  else if t.isEmpty then h.length
  else (finalRow t h 0 (List.range (t.length + 1))).getLastD 0

/-- `1 - distance / longer length`, raised by `1 + 1/length` for lengths up to three. -/
def ratio (head tail : String) : Float :=
  let n := max head.length tail.length
  if n == 0 then 1.0
  else
    let m := Float.ofNat n
    let score := 1.0 - Float.ofNat (editDistance head tail) / m
    if m ≤ 3.0 then score * (1.0 + 1.0 / m) else score

example : editDistance "kitten" "sitting" = 3 := by decide +kernel
example : editDistance "Straße" "STRASSE" = 2 := by decide +kernel
example : levenshtein "kitten".toList "sitting".toList = 3 := by decide +kernel

end BranchSensitivity.Similarity
