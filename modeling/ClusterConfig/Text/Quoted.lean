import ClusterConfig.Text.Printable
import ClusterConfig.Text.Utf8

/-!
# Quoted text

Texts and paths stand in messages between double quotes. A quote or backslash inside gets a backslash before it, the common
control characters have a letter, other characters without a shape are given by number, and bytes that are no UTF-8 by their
two hexadecimal digits.
-/

namespace ClusterConfig.Text.Quoted

/-- Lower-case hexadecimal digits of a number. -/
def hex (n : Nat) : String := String.ofList (Nat.toDigits 16 n)

/-- Two upper-case hexadecimal digits of a byte. -/
def byteHex (b : UInt8) : String :=
  String.ofList ([b.toNat / 16, b.toNat % 16].map fun d => (Nat.digitChar d).toUpper)

/-- A character inside quotes. -/
def escape (c : Char) : String :=
  match c with
  | '\x00' => "\\0"
  | '\t' => "\\t"
  | '\n' => "\\n"
  | '\r' => "\\r"
  | '"' => "\\\""
  | '\\' => "\\\\"
  | c => if isShown c then c.toString else "\\u\x7b" ++ hex c.toNat ++ "\x7d"

/-- A piece of bytes inside quotes. -/
def escapePiece : Piece → String
  | .char c => escape c
  | .fault bytes => String.join (bytes.map fun b => "\\x" ++ byteHex b)

/-- A text in quotes. -/
def string (s : String) : String := "\"" ++ String.join (s.toList.map escape) ++ "\""

/-- Bytes in quotes. -/
def bytes (bs : List UInt8) : String := "\"" ++ String.join ((Utf8.pieces bs).map escapePiece) ++ "\""

end ClusterConfig.Text.Quoted
