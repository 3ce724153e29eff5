import ClusterConfig.Decimal.Notation
import ClusterConfig.FileSystem

/-!
# Conditions

The condition that a test program is given as its arguments: about files, texts and integers, with a negation in front.
-/

namespace ClusterConfig.Condition

/-- What a test with one operand says; none for an unknown one. -/
def unary? (fs : FileSystem) (operator operand : String) : Option Bool :=
  let path := Path.ofString operand
  match operator with
  | "-n" => some (!operand.isEmpty)
  | "-z" => some operand.isEmpty
  | "-e" => some (fs.holds path)
  | "-f" => some (fs.isFile path)
  | "-d" => some (fs.isDirectory path)
  | "-r" => some (fs.holds path)
  | "-w" => some (fs.holds path)
  | "-s" => some (((fs.find path).toOption.bind fs.content?).any fun content => !content.isEmpty)
  | "-x" => some (match (fs.find path).toOption.bind (fs.inodes[·]?) with
    | some (.directory _) => true
    | some (.program _) => true
    | _ => false)
  | _ => none

/-- What a test with two operands says; none for an unknown one, or for operands that are no integers. -/
def binary? (left operator right : String) : Option Bool :=
  let compare (f : Int → Int → Bool) : Option Bool := do
    return f (← Decimal.intOfDigits? 10 left.toList) (← Decimal.intOfDigits? 10 right.toList)
  match operator with
  | "=" => some (left == right)
  | "!=" => some (left != right)
  | "-eq" => compare fun a b => a == b
  | "-ne" => compare fun a b => a != b
  | "-lt" => compare fun a b => decide (a < b)
  | "-le" => compare fun a b => decide (a ≤ b)
  | "-gt" => compare fun a b => decide (b < a)
  | "-ge" => compare fun a b => decide (b ≤ a)
  | _ => none

/-- What a condition says; none for one that cannot be read. -/
def holds? (fs : FileSystem) : List String → Option Bool
  | [] => some false
  | [text] => some (!text.isEmpty)
  | ["!", operand] => some operand.isEmpty
  | [operator, operand] => unary? fs operator operand
  | [left, operator, right] =>
    match binary? left operator right with
    | some b => some b
    | none => if left = "!" then (unary? fs operator right).map (!·) else none
  | "!" :: rest => (holds? fs rest).map (!·)
  | _ => none

end ClusterConfig.Condition
