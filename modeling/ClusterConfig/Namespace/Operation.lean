import ClusterConfig.Namespace

/-!
# Operations on a namespace

A program collects a namespace from pairs and changes it afterwards: under one key, in all its values, or by taking the entries
out and collecting them again. Insertion and removal answer with the value that they displace.
-/

namespace ClusterConfig

/-- What is done to a namespace. -/
inductive NamespaceStep where
  | insert (key : String) (value : Value)
  | remove (key : String)
  /-- Change the value under a key, if there is one. -/
  | edit (key : String) (change : Value → Value)
  /-- Change every value, in view of its place. -/
  | editValues (change : Nat → Value → Value)
  /-- Change every value, in view of its place and its key. -/
  | editEntries (change : Nat → String → Value → Value)
  /-- Take the entries out and collect them again. -/
  | collect
  /-- Take the entries out and collect them in reverse order. -/
  | reverse

/-- What an operation answers. -/
inductive NamespaceReply where
  | done
  /-- The value that was there before. -/
  | former (value : Option Value)
  /-- Whether there was something to change. -/
  | changed (there : Bool)

namespace Namespace

/-- All values changed in place, in view of their places and keys. -/
def mapPlaces (ns : Namespace) (f : Nat → String → Value → Value) : Namespace :=
  ⟨ns.entries.mapIdx fun i e => (e.1, f i e.1 e.2)⟩

/-- Carry out an operation. -/
def step (ns : Namespace) : NamespaceStep → Namespace × NamespaceReply
  | .insert key value => (ns.insert key value, .former (ns.getRaw? key))
  | .remove key => (ns.erase key, .former (ns.getRaw? key))
  | .edit key change => (ns.modify key change, .changed (ns.contains key))
  | .editValues change => (ns.mapPlaces fun i _ v => change i v, .done)
  | .editEntries change => (ns.mapPlaces change, .done)
  | .collect => (ofPairs ns.entries, .done)
  | .reverse => (ns.reversed, .done)

/-- Carry out operations one after the other. -/
def run (ns : Namespace) : List NamespaceStep → Namespace × List NamespaceReply
  | [] => (ns, [])
  | next :: rest =>
    let (ns, reply) := ns.step next
    let (ns, replies) := ns.run rest
    (ns, reply :: replies)

end Namespace

end ClusterConfig
