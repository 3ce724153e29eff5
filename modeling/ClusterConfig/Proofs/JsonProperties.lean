import ClusterConfig.Config
import ClusterConfig.Proofs.Value.PlainTree

/-!
# Properties from JSON

A JSON object has a YAML mapping with the same entries in the same order. Each of the two has a conversion of its own, and a
JSON number is read in three ways in turn, where a YAML number is taken as it is. Both lead to the same namespace, number by
number (`toNumber_eq_exact`), and so to the same configuration (`ofMembers_eq_ofMapping`). Nothing is lost on either way: the
namespace is written as that mapping.
-/

namespace ClusterConfig

/-! ## Numbers -/

namespace JsonNumber

/-- The same number in a description: of the same kind and with the same value. -/
def exact : JsonNumber → Number
  | int n => .int n
  | float x _ => .float x

theorem ofInt64_ofInt {n : WordInt} (h : n.val < 0x8000000000000000) : Number.ofInt64 (Int64.ofInt n.val) = .int n := by
  have hval : (Int64.ofInt n.val).toInt = n.val := Int64.toInt_ofInt_of_le n.lower h
  simp only [Number.ofInt64, hval]

theorem ofUInt64_ofNat {n : WordInt} (h : 0 ≤ n.val) : Number.ofUInt64 (UInt64.ofNat n.val.toNat) = .int n := by
  have hbound : n.val.toNat < UInt64.size := by
    have hupper := n.upper
    simp only [UInt64.size]
    omega
  have hval : ((UInt64.ofNat n.val.toNat).toNat : Int) = n.val := by
    rw [UInt64.toNat_ofNat_of_lt' hbound, Int.toNat_of_nonneg h]
  simp only [Number.ofUInt64, hval]

/-- The first reading that a JSON number has gives the number itself: integers below `2 ^ 63` are signed words, the others are
unsigned words, and only doubles are read as doubles. -/
theorem toNumber_eq_exact (n : JsonNumber) : n.toNumber = n.exact := by
  cases n with
  | int n =>
    by_cases hsigned : n.val < 0x8000000000000000
    · rw [toNumber, toInt64?, if_pos hsigned]
      exact ofInt64_ofInt hsigned
    · have hunsigned : 0 ≤ n.val := by omega
      rw [toNumber, toInt64?, if_neg hsigned, toUInt64?, if_pos hunsigned]
      exact ofUInt64_ofNat hunsigned
  | float x finite => rfl

end JsonNumber

/-! ## Trees -/

namespace Yaml.Node

mutual

/-- The YAML tree with the content of a JSON tree. -/
def ofJson : Json → Node
  | .null => null
  | .bool b => bool b
  | .number n => number n.exact
  | .string s => string s
  | .array items => seq (ofJsons items)
  | .object members => map (ofMembers members)

/-- The YAML trees of the elements of an array. -/
def ofJsons : List Json → List Node
  | [] => []
  | j :: rest => ofJson j :: ofJsons rest

/-- The entries with the members of an object, in their order. -/
def ofMembers : List (String × Json) → List (Node × Node)
  | [] => []
  | (name, j) :: rest => (string name, ofJson j) :: ofMembers rest

end

theorem textKeys_ofMembers (members : List (String × Json)) : TextKeys (ofMembers members) := by
  induction members with
  | nil => exact List.forall_mem_nil _
  | cons m rest ih => exact List.forall_mem_cons.mpr ⟨⟨m.1, rfl⟩, ih⟩

mutual

theorem plain_ofJson : ∀ j : Json, (ofJson j).Plain
  | .null => .null
  | .bool b => .bool b
  | .number n => .number n.exact
  | .string s => .string s
  | .array items => .seq (plain_ofJsons items)
  | .object members => .map (textKeys_ofMembers members) (plain_ofMembers members)

theorem plain_ofJsons : ∀ items : List Json, ∀ n ∈ ofJsons items, n.Plain
  | [] => List.forall_mem_nil _
  | j :: rest => List.forall_mem_cons.mpr ⟨plain_ofJson j, plain_ofJsons rest⟩

theorem plain_ofMembers : ∀ members : List (String × Json), ∀ e ∈ ofMembers members, e.2.Plain
  | [] => List.forall_mem_nil _
  | (_, j) :: rest => List.forall_mem_cons.mpr ⟨plain_ofJson j, plain_ofMembers rest⟩

end

end Yaml.Node

namespace Value

open Yaml

mutual

/-- A JSON tree has the value that the YAML tree with its content has. -/
theorem ofNode_ofJson : ∀ j : Json, ofNode (Node.ofJson j) = ofJson j
  | .null => rfl
  | .bool _ => rfl
  | .number n => congrArg number n.toNumber_eq_exact.symm
  | .string _ => rfl
  | .array items => congrArg seq (ofNodes_ofJsons items)
  | .object members => congrArg (fun pairs => ofNamespace (Namespace.ofPairs pairs)) (ofEntries_ofMembers members)

theorem ofNodes_ofJsons : ∀ items : List Json, ofNodes (Node.ofJsons items) = ofJsons items
  | [] => rfl
  | j :: rest => congrArg₂ List.cons (ofNode_ofJson j) (ofNodes_ofJsons rest)

theorem ofEntries_ofMembers : ∀ members : List (String × Json), ofEntries (Node.ofMembers members) = ofMembers members
  | [] => rfl
  | (name, j) :: rest => by
    have htext : (Node.string name).keyText? = some name := by rw [Node.keyText?]
    rw [Node.ofMembers, ofEntries_cons_of_some htext, ofNode_ofJson j, ofEntries_ofMembers rest]
    rfl

end

end Value

namespace Config

open Yaml

/-- The members of a JSON object make the same namespace as the YAML mapping with the same entries, and deployment properties
given in either form make the same configuration. With distinct keys at every depth, the namespace is written as that mapping:
each number, each entry and their order are kept. -/
theorem ofMembers_eq_ofMapping (members : List (String × Json)) (host : Host) :
    Namespace.ofMembers members = Namespace.ofMapping (Node.ofMembers members) ∧
      ofProperties (Namespace.ofMembers members) host = ofProperties (Namespace.ofMapping (Node.ofMembers members)) host ∧
      ((Node.map (Node.ofMembers members)).Distinct →
        (Namespace.ofMembers members).toNode = .ok (.map (Node.ofMembers members))) := by
  have hsame : Namespace.ofMembers members = Namespace.ofMapping (Node.ofMembers members) :=
    congrArg Namespace.ofPairs (Value.ofEntries_ofMembers members).symm
  refine ⟨hsame, by rw [hsame], fun hd => ?_⟩
  rw [hsame]
  exact Value.toNode_ofNode (Node.plain_ofJson (.object members)) hd

/-- The largest and the least integer, and a double that is integral, at two depths. -/
theorem ofMembers_eq_ofMapping_limits :
    let largest : WordInt := ⟨0xFFFFFFFFFFFFFFFF, by decide, by decide⟩
    let least : WordInt := ⟨-0x8000000000000000, by decide, by decide⟩
    let one : Binary64 := Binary64.ofInt 1
    let members : List (String × Json) :=
      [("seed", .number (.int largest)),
        ("partitions", .array [.object [("offset", .number (.int least)), ("ratio", .number (.float one (by decide)))]])]
    let entries : List (Node × Node) :=
      [(.string "seed", .number (.int largest)),
        (.string "partitions",
          .seq [.map [(.string "offset", .number (.int least)), (.string "ratio", .number (.float one))]])]
    (Node.map entries).Distinct ∧ Namespace.ofMembers members = Namespace.ofMapping entries ∧
      (Namespace.ofMembers members).toNode = .ok (.map entries) := by
  intro largest least one members entries
  have hentries : Node.ofMembers members = entries := rfl
  have hp : (Node.map entries).Plain := Node.plain_ofJson (.object members)
  have hd : (Node.map entries).Distinct := hp.distinct (by simp [entries])
  obtain ⟨hsame, -, hwritten⟩ := ofMembers_eq_ofMapping members (.fixed 0 none "h")
  rw [hentries] at hsame hwritten
  exact ⟨hd, hsame, hwritten hd⟩

end Config

end ClusterConfig
