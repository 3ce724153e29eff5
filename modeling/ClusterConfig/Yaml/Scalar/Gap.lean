import ClusterConfig.Yaml.Cursor

/-!
# Gaps inside scalars

Between the words of a plain or quoted scalar may stand blanks and line breaks. Blanks within a line are kept. A single line
break reads as a blank, and of several the first is dropped; blanks around a break are dropped.
-/

namespace ClusterConfig.Yaml

/-- Blanks before the first line break, and the line breaks. -/
structure Gap where
  blanks : List Char
  breaks : List Char

namespace Gap

/-- What the gap reads as. -/
def folded (g : Gap) : List Char :=
  match g.breaks with
  | [] => g.blanks
  | ['\n'] => [' ']
  | '\n' :: more => more
  | breaks => breaks

/-- Read a gap, at most `fuel` blanks and breaks. After a break, a tab left of the column `indent` is a fault. `broken` says that
a line break came before. -/
def readUpTo (indent : Nat) : Nat → Bool → Cursor → Except SyntaxFault (Gap × Cursor)
  | 0, _, c => .ok (⟨[], []⟩, c)
  | fuel + 1, broken, c =>
    match c.rest with
    | [] => .ok (⟨[], []⟩, c)
    | b :: _ =>
      if isBlankChar b then
        if broken && b == '\t' && decide (c.column < indent) then .error .tabAsIndentation
        else (readUpTo indent fuel broken (c.advance 1)).map fun r =>
          (if broken then r.1 else ⟨b :: r.1.blanks, r.1.breaks⟩, r.2)
      else match c.readBreak? with
        | some (b, next) =>
          (readUpTo indent fuel true next).map fun r => (⟨[], b :: r.1.breaks⟩, r.2)
        | none => .ok (⟨[], []⟩, c)

/-- Read a gap. -/
def read (indent : Nat) (broken : Bool) (c : Cursor) : Except SyntaxFault (Gap × Cursor) :=
  readUpTo indent c.rest.length broken c

end Gap

end ClusterConfig.Yaml
