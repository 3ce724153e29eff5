import ClusterConfig.Decimal.Notation

/-!
# Arithmetic of scripts

Integer expressions with variables: sums, products, comparisons, and parentheses. A variable without a value is zero.
-/

namespace ClusterConfig.Shell.Arithmetic

/-- The binary operators by how closely they bind, the loosest first; of each group the longer ones come first. -/
def levels : List (List String) := [["||"], ["&&"], ["==", "!="], ["<=", ">=", "<", ">"], ["+", "-"], ["*", "/", "%"]]

/-- The value of an operator; none for a division by zero. -/
def result? (operator : String) (a b : Int) : Option Int :=
  let truth (p : Bool) : Option Int := some (if p then 1 else 0)
  match operator with
  | "+" => some (a + b)
  | "-" => some (a - b)
  | "*" => some (a * b)
  | "/" => if b = 0 then none else some (Int.tdiv a b)
  | "%" => if b = 0 then none else some (Int.tmod a b)
  | "==" => truth (a == b)
  | "!=" => truth (a != b)
  | "<" => truth (decide (a < b))
  | "<=" => truth (decide (a ≤ b))
  | ">" => truth (decide (b < a))
  | ">=" => truth (decide (b ≤ a))
  | "&&" => truth (a != 0 && b != 0)
  | "||" => truth (a != 0 || b != 0)
  | _ => none

/-- An expression without the blanks in front. -/
def skipBlanks (cs : List Char) : List Char := cs.dropWhile fun c => c == ' ' || c == '\t' || c == '\n'

mutual

/-- An operand: a number, a variable, a sign before an operand, or an expression between parentheses. -/
def operand (valueOf : String → String) : Nat → List Char → Option (Int × List Char)
  | 0, _ => none
  | fuel + 1, cs =>
    match skipBlanks cs with
    | '-' :: rest => (operand valueOf fuel rest).map fun r => (-r.1, r.2)
    | '+' :: rest => operand valueOf fuel rest
    | '!' :: rest => (operand valueOf fuel rest).map fun r => (if r.1 = 0 then 1 else 0, r.2)
    | '(' :: rest => do
      let (n, rest) ← expression valueOf fuel levels rest
      match skipBlanks rest with
      | ')' :: rest => return (n, rest)
      | _ => none
    | '$' :: rest => operand valueOf fuel rest
    | c :: rest =>
      let name := (c :: rest).takeWhile fun c => c.isAlphanum || c == '_'
      let rest := (c :: rest).drop name.length
      if name.isEmpty then none
      else if c.isDigit then (Decimal.natOfDigits? 10 name).map fun n => ((n : Int), rest)
      else
        let value := valueOf (String.ofList name)
        if value.isEmpty then some (0, rest) else (Decimal.intOfDigits? 10 value.toList).map fun n => (n, rest)
    | [] => none

/-- An expression whose operators are on the given levels. -/
def expression (valueOf : String → String) : Nat → List (List String) → List Char → Option (Int × List Char)
  | 0, _, _ => none
  | fuel + 1, [], cs => operand valueOf fuel cs
  | fuel + 1, operators :: tighter, cs => do
    let (n, cs) ← expression valueOf fuel tighter cs
    further valueOf fuel operators tighter n cs

/-- Further operands on a level, after a value. -/
def further (valueOf : String → String) : Nat → List String → List (List String) → Int → List Char → Option (Int × List Char)
  | 0, _, _, _, _ => none
  | fuel + 1, operators, tighter, n, cs =>
    let cs := skipBlanks cs
    match operators.find? fun operator => operator.toList.isPrefixOf cs with
    | none => some (n, cs)
    | some operator => do
      let (m, cs) ← expression valueOf fuel tighter (cs.drop operator.length)
      further valueOf fuel operators tighter (← result? operator n m) cs

end

/-- The value of an expression; none for one that has none. -/
def value? (valueOf : String → String) (text : String) : Option Int :=
  if (skipBlanks text.toList).isEmpty then some 0
  else match expression valueOf (12 * text.length + 12) levels text.toList with
    | some (n, []) => some n
    | _ => none

end ClusterConfig.Shell.Arithmetic
