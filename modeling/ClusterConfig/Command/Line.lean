/-!
# Splitting a command line

A command line is split into words at blanks and line breaks. Quotes and backslashes keep blanks inside a word, and a number sign
where a word would start begins a comment. A line whose quotes do not close, or that ends in a backslash, has no words.
-/

namespace ClusterConfig.CommandLine

/-- Where in a command line a character stands. -/
inductive Position where
  | gap
  | comment
  | word
  /-- After a backslash. -/
  | escaped
  /-- Between single quotes. -/
  | single
  /-- Between double quotes. -/
  | double
  /-- After a backslash between double quotes. -/
  | doubleEscaped
  deriving DecidableEq, Repr

/-- A character between words. -/
def isGap (c : Char) : Bool := c == ' ' || c == '\t' || c == '\n'

/-- A character that a backslash keeps its meaning from between double quotes. -/
def isSpecial (c : Char) : Bool := c == '$' || c == '\x60' || c == '"' || c == '\\'

/-- A character put before the first word. -/
def push (c : Char) : List (List Char) → List (List Char)
  | [] => [[c]]
  | word :: words => (c :: word) :: words

/-- The words from a position on. Inside a word, the first of them is what is left of it. -/
def wordsFrom : Position → List Char → Option (List (List Char))
  | .gap, [] => some []
  | .gap, c :: cs =>
    if isGap c then wordsFrom .gap cs
    else if c = '#' then wordsFrom .comment cs
    else if c = '"' then wordsFrom .double cs
    else if c = '\'' then wordsFrom .single cs
    else if c = '\\' then wordsFrom .escaped cs
    else (wordsFrom .word cs).map (push c)
  | .comment, [] => some []
  | .comment, c :: cs => if c = '\n' then wordsFrom .gap cs else wordsFrom .comment cs
  | .word, [] => some [[]]
  | .word, c :: cs =>
    if isGap c then (wordsFrom .gap cs).map ([] :: ·)
    else if c = '"' then wordsFrom .double cs
    else if c = '\'' then wordsFrom .single cs
    else if c = '\\' then wordsFrom .escaped cs
    else (wordsFrom .word cs).map (push c)
  | .escaped, [] => none
  | .escaped, c :: cs => if c = '\n' then wordsFrom .word cs else (wordsFrom .word cs).map (push c)
  | .single, [] => none
  | .single, c :: cs => if c = '\'' then wordsFrom .word cs else (wordsFrom .single cs).map (push c)
  | .double, [] => none
  | .double, c :: cs =>
    if c = '"' then wordsFrom .word cs
    else if c = '\\' then wordsFrom .doubleEscaped cs
    else (wordsFrom .double cs).map (push c)
  | .doubleEscaped, [] => none
  | .doubleEscaped, c :: cs =>
    if c = '\n' then wordsFrom .double cs
    else if isSpecial c then (wordsFrom .double cs).map (push c)
    else (wordsFrom .double cs).map fun words => push '\\' (push c words)

/-- The words of a command line. -/
def split? (line : String) : Option (List String) := (wordsFrom .gap line.toList).map fun words => words.map String.ofList

end ClusterConfig.CommandLine
