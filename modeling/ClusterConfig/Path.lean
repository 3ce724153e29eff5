import ClusterConfig.Text.Quoted

/-!
# Paths

A path is a sequence of bytes, with slashes between its segments. Two paths are the same when their components are: repeated
slashes, a slash at the end and segments `.` after the first one make no component. The text of a path exists only where its
bytes are UTF-8.
-/

namespace ClusterConfig

/-- A file-system path, as its bytes. -/
structure Path where
  bytes : List UInt8
  deriving DecidableEq, Repr

namespace Path

/-- The byte between segments. -/
def slash : UInt8 := 47

/-- The segment that names the directory it stands in. -/
def dot : List UInt8 := [46]

/-- The segment that names the parent of the directory it stands in. -/
def dotDot : List UInt8 := [46, 46]

/-- The path written as the given text. -/
def ofString (s : String) : Path := ⟨Text.Utf8.encode s⟩

/-- The text of the path, where it has one. -/
def text? (p : Path) : Option String := Text.Utf8.decode? p.bytes

/-- The path with faulty bytes replaced, for messages. -/
def shown (p : Path) : String := Text.Utf8.lossy p.bytes

/-- The path in quotes, for messages. -/
def quoted (p : Path) : String := Text.Quoted.bytes p.bytes

/-- The path starts at the root. -/
def isAbsolute (p : Path) : Bool := p.bytes.head? == some slash

/-- The parts of a list between separators; there is one more than there are separators. -/
def splitAt (sep : UInt8) : List UInt8 → List (List UInt8)
  | [] => [[]]
  | b :: rest =>
    if b = sep then [] :: splitAt sep rest
    else match splitAt sep rest with
      | [] => [[b]]
      | part :: parts => (b :: part) :: parts

/-- The bytes between slashes, empty ones included. -/
def segments (p : Path) : List (List UInt8) := splitAt slash p.bytes

/-- The segment names something: it is neither empty nor the directory itself. -/
def significant (segment : List UInt8) : Bool := !segment.isEmpty && segment != dot

/-- What a path is made of. -/
inductive Component where
  | root
  | here
  | name (bytes : List UInt8)
  deriving DecidableEq, Repr

/-- The components: the root or a leading `.`, then the significant segments. -/
def components (p : Path) : List Component :=
  let start := if p.isAbsolute then [Component.root] else if p.segments.head? = some dot then [.here] else []
  start ++ (p.segments.filter significant).map .name

/-- Two paths with the same components. -/
def same (p q : Path) : Bool := p.components == q.components

/-- Segments put together again. -/
def ofSegments (segments : List (List UInt8)) : Path := ⟨[slash].intercalate segments⟩

/-- Segments without insignificant ones at the end; the first one stays, as it tells an absolute path. -/
def trimEnd : List (List UInt8) → List (List UInt8)
  | [] => []
  | first :: rest => first :: (rest.reverse.dropWhile fun s => !significant s).reverse

/-- The path without its last component; none for the root and the empty path. -/
def parent? (p : Path) : Option Path :=
  match p.components.getLast? with
  | none => none
  | some .root => none
  | some .here => some ⟨[]⟩
  | some (.name _) =>
    match (p.segments.reverse.dropWhile fun s => !significant s).tail.reverse with
    | [] => some ⟨[]⟩
    | before =>
      let kept := trimEnd before
      some (if kept = [[]] then ⟨[slash]⟩ else ofSegments kept)

end Path

end ClusterConfig
