import ClusterConfig.Number

/-!
# JSON trees

Deployment properties may come as JSON: an object keeps the order of its members, and a number that is no finite one is null.
A number of a description is made from a JSON number by the first reading that it has: as a signed word, as an unsigned word, as
a double.
-/

namespace ClusterConfig

/-- A number as JSON has it: an integer that fits a signed or an unsigned 64-bit word, or a finite double. -/
inductive JsonNumber where
  | int (n : WordInt)
  | float (x : Binary64) (finite : x.isFinite = true)

namespace JsonNumber

/-- A number as JSON has it, unless it is infinite or no number. -/
def ofNumber? : Number → Option JsonNumber
  | .int n => some (int n)
  | .float x => if h : x.isFinite = true then some (float x h) else none

/-- The value as a signed word, for an integer in its range. -/
def toInt64? : JsonNumber → Option Int64
  | int n => if n.val < 0x8000000000000000 then some (Int64.ofInt n.val) else none
  | float _ _ => none

/-- The value as an unsigned word, for an integer in its range. -/
def toUInt64? : JsonNumber → Option UInt64
  | int n => if 0 ≤ n.val then some (UInt64.ofNat n.val.toNat) else none
  | float _ _ => none

/-- The value as a double; an integer is rounded to the nearest one. -/
def toBinary64 : JsonNumber → Binary64
  | int n => Binary64.ofInt n.val
  | float x _ => x

/-- The number of a description that a JSON number becomes. -/
def toNumber (n : JsonNumber) : Number :=
  match n.toInt64? with
  | some i => Number.ofInt64 i
  | none =>
    match n.toUInt64? with
    | some u => Number.ofUInt64 u
    | none => .float n.toBinary64

end JsonNumber

/-- A JSON tree. -/
inductive Json where
  | null
  | bool (b : Bool)
  | number (n : JsonNumber)
  | string (s : String)
  | array (items : List Json)
  | object (members : List (String × Json))
  deriving Inhabited

namespace Json

/-- A number as JSON has it: without infinities and values that are no number. -/
def ofNumber (n : Number) : Json :=
  match JsonNumber.ofNumber? n with
  | some m => number m
  | none => null

/-- Members with a value put under a name: in its place if it is there, at the end otherwise. -/
def put (name : String) (value : Json) : List (String × Json) → List (String × Json)
  | [] => [(name, value)]
  | (k, v) :: rest => if k = name then (k, value) :: rest else (k, v) :: put name value rest

/-- An object made of pairs, each put in turn. -/
def ofPairs (pairs : List (String × Json)) : Json :=
  object (pairs.foldl (fun members e => put e.1 e.2 members) [])

end Json

end ClusterConfig
