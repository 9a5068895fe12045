import TouchBar.Rust.Text

/-!
# Splitting strings

The operations of `str` that cut a string at a pattern, as the standard library computes
them: the first or the last occurrence counts, and the pattern itself is left out.
-/

namespace TouchBar.Rust.Text

/-- What stands before the first occurrence of `p` in a list, and what stands after it. -/
def splitOnceList (p : List Char) : List Char → Option (List Char × List Char)
  | [] => if p = [] then some ([], []) else none
  | c :: l =>
    if p.isPrefixOf (c :: l) then some ([], (c :: l).drop p.length)
    else (splitOnceList p l).map fun parts => (c :: parts.1, parts.2)

/-- `s.split_once(p)`. -/
def splitOnce (s p : String) : Option (String × String) :=
  (splitOnceList p.toList s.toList).map fun parts => (.ofList parts.1, .ofList parts.2)

/-- `s.rsplit_once(c)`. -/
def rsplitOnce (s : String) (c : Char) : Option (String × String) :=
  (splitOnceList [c] s.toList.reverse).map fun parts =>
    (.ofList parts.2.reverse, .ofList parts.1.reverse)

/-- A line without the carriage return before its line feed. -/
def stripCarriageReturn (line : String) : String := (stripSuffix line "\r").getD line

/-- `s.lines()`: what follows the last line feed is a line only if it is not empty, and keeps
its carriage return. -/
def lines (s : String) : List String :=
  let pieces := split s '\n'
  pieces.dropLast.map stripCarriageReturn ++ pieces.getLast?.toList.filter fun l => l ≠ ""

/-- `s.trim_matches(p)`. -/
def trimMatches (s : String) (p : Char → Bool) : String :=
  .ofList (((s.toList.dropWhile p).reverse.dropWhile p).reverse)

example : splitOnce "workspacev2>>3,coding" ">>" = some ("workspacev2", "3,coding") := by decide

example : rsplitOnce "3,a,b" ',' = some ("3,a", "b") := by decide

example : lines "a\r\n\nb\r" = ["a", "", "b\r"] := by decide

end TouchBar.Rust.Text
