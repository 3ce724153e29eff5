import ClusterConfig.FileSystem.Tree
import ClusterConfig.Text.Utf8

/-!
# Patterns

A word may stand for many names: an unquoted star for any text and an unquoted question mark for any character. A path whose last
name has such a sign is replaced by the entries that match it, if there are any.
-/

namespace ClusterConfig.Shell

/-- A character of a word; one that is quoted stands for itself. -/
structure Letter where
  char : Char
  quoted : Bool
  deriving DecidableEq, Repr

/-- The characters of a word after everything has been put in. -/
abbrev Pattern := List Letter

namespace Pattern

/-- A text, all of it quoted or not. -/
def ofText (isQuoted : Bool) (s : String) : Pattern := s.toList.map (⟨·, isQuoted⟩)

/-- The characters of a pattern as they are. -/
def text (p : Pattern) : String := String.ofList (p.map Letter.char)

/-- The letter stands for more than itself. -/
def isWild (l : Letter) : Bool := !l.quoted && (l.char == '*' || l.char == '?')

/-- The text is one that the pattern stands for. -/
def covers : Pattern → List Char → Bool
  | [], cs => cs.isEmpty
  | l :: p, cs =>
    if isWild l && l.char == '*' then (List.range (cs.length + 1)).any fun n => covers p (cs.drop n)
    else match cs with
      | [] => false
      | c :: cs => (isWild l || l.char == c) && covers p cs

/-- The paths that a pattern stands for, and its own text if there are none. -/
def paths (fs : FileSystem) (p : Pattern) : List String :=
  let last := (p.reverse.takeWhile fun l => l.char != '/').reverse
  let directory := text (p.take (p.length - last.length))
  let dotted := (last.head?.map Letter.char) == some '.'
  let names := if last.any isWild then
      (fs.visibleNames (Path.ofString (if directory.isEmpty then "." else directory)) dotted).filter fun n => covers last n.toList
    else []
  if names.isEmpty then [text p] else names.map (directory ++ ·)

end Pattern

end ClusterConfig.Shell
