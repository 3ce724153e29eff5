/-!
# UTF-8 with faults

Bytes are read as UTF-8 piece by piece: each piece is a character or a faulty run, which is the longest start of a character
that the next byte breaks off, or a single byte that starts none. Lossy decoding puts one replacement character for each run.
-/

namespace ClusterConfig.Text

/-- A piece of bytes read as UTF-8. -/
inductive Piece where
  | char (c : Char)
  | fault (bytes : List UInt8)
  deriving DecidableEq, Repr

namespace Utf8

/-- The bounds of the byte after the given leading byte, and how many more bytes follow that one. None for a byte that starts no
character of several bytes. -/
def second? (b : UInt8) : Option (UInt8 × UInt8 × Nat) :=
  if 0xC2 ≤ b ∧ b ≤ 0xDF then some (0x80, 0xBF, 0)
  else if b = 0xE0 then some (0xA0, 0xBF, 1)
  else if b = 0xED then some (0x80, 0x9F, 1)
  else if 0xE1 ≤ b ∧ b ≤ 0xEF then some (0x80, 0xBF, 1)
  else if b = 0xF0 then some (0x90, 0xBF, 2)
  else if 0xF1 ≤ b ∧ b ≤ 0xF3 then some (0x80, 0xBF, 2)
  else if b = 0xF4 then some (0x80, 0x8F, 2)
  else none

/-- The byte continues a character. -/
def continues (b : UInt8) : Bool := decide (0x80 ≤ b) && decide (b ≤ 0xBF)

/-- The value bits of the byte that starts a character of `2 + more` bytes. -/
def leadBits (b : UInt8) (more : Nat) : Nat := b.toNat % Nat.pow 2 (5 - more)

/-- One piece, for bytes that start with `b`. -/
def piece (b : UInt8) (rest : List UInt8) : Piece × List UInt8 :=
  if b < 0x80 then (.char (Char.ofNat b.toNat), rest)
  else match second? b with
    | none => (.fault [b], rest)
    | some (lo, hi, more) =>
      match rest with
      | b1 :: rest1 =>
        if b1 < lo ∨ hi < b1 then (.fault [b], rest)
        else
          let tail := (rest1.take more).takeWhile continues
          if tail.length = more then
            (.char (Char.ofNat ((b1 :: tail).foldl (fun n c => n * 64 + c.toNat % 64) (leadBits b more))), rest1.drop more)
          else (.fault (b :: b1 :: tail), rest1.drop tail.length)
      | [] => (.fault [b], rest)

/-- The pieces of bytes, at most as many as the first argument says. -/
def piecesUpTo : Nat → List UInt8 → List Piece
  | 0, _ => []
  | _ + 1, [] => []
  | n + 1, b :: rest => (piece b rest).1 :: piecesUpTo n (piece b rest).2

/-- The pieces of bytes. Each takes one byte at least. -/
def pieces (bytes : List UInt8) : List Piece := piecesUpTo bytes.length bytes

/-- The text with a replacement character for each faulty run. -/
def lossy (bytes : List UInt8) : String :=
  String.ofList ((pieces bytes).map fun
    | .char c => c
    | .fault _ => Char.ofNat 0xFFFD)

/-- The bytes of a text. -/
def encode (s : String) : List UInt8 := s.toUTF8.data.toList

/-- The text of bytes without faults. -/
def decode? (bytes : List UInt8) : Option String := String.fromUTF8? ⟨bytes.toArray⟩

end Utf8

end ClusterConfig.Text
