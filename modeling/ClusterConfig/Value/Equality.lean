import ClusterConfig.Namespace

/-!
# Equality of values

Values are compared by meaning. The order of keys does not matter, numbers compare as `Number.same`, and two paths by their
components. A path also equals the string it is written as, byte for byte, so that a description read back from a file equals
the one that was written.
-/

namespace ClusterConfig

namespace Value

mutual

/-- The two values mean the same. -/
def same : Value → Value → Bool
  | null, null => true
  | bool a, bool b => a == b
  | number a, number b => a.same b
  | string a, string b => a == b
  | path p, path q => p.same q
  | path p, string s => p.bytes == Text.Utf8.encode s
  | string s, path p => p.bytes == Text.Utf8.encode s
  | seq xs, seq ys => sameItems xs ys
  | map es, map fs => es.length == fs.length && foundIn es fs
  | _, _ => false

/-- Sequences of the same length with the same elements in order. -/
def sameItems : List Value → List Value → Bool
  | [], [] => true
  | x :: xs, y :: ys => same x y && sameItems xs ys
  | _, _ => false

/-- Every entry of the first namespace has one in the second under its key with the same value. -/
def foundIn : List (String × Value) → List (String × Value) → Bool
  | [], _ => true
  | (k, v) :: es, fs =>
    (match fs.lookup k with
      | some w => same v w
      | none => false) && foundIn es fs

end

/-- Values are compared by `same`. -/
instance : BEq Value := ⟨same⟩

end Value

namespace Namespace

/-- The two namespaces hold the same values under the same keys, in any order. -/
def same (a b : Namespace) : Bool := (Value.map a.entries).same (.map b.entries)

/-- Namespaces are compared by `same`. -/
instance : BEq Namespace := ⟨same⟩

end Namespace

end ClusterConfig
