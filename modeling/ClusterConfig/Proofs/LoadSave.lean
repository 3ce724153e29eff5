import ClusterConfig.Config
import ClusterConfig.Proofs.Files

/-!
# Loading and saving, step by step

What it takes for a file to be loaded and for a configuration to be saved, and what is loaded from a file that was just saved:
the tree of the saved view, with its merge entries expanded.
-/

namespace ClusterConfig

namespace Config

open Yaml

/-- A configuration is loaded exactly where the text of the file is that of a tree which expands to a mapping, and holds the
namespace of this mapping. -/
theorem load_eq_ok {fs : FileSystem} {file : Path} {host : Host} {c : Config} :
    load fs file host = .ok c ↔
      ∃ text node entries, fs.readText file = .ok text ∧ Yaml.read text = .ok node ∧
        node.expandMerges = .ok (.map entries) ∧ c = wrap (Namespace.ofMapping entries) host := by
  unfold load loadEntries entriesOfText
  cases hread : fs.readText file with
  | error fault => simp [Except.map]
  | ok text =>
    cases hnode : Yaml.read text with
    | error fault => simp [Except.map, Except.mapError, hnode]
    | ok node =>
      cases hmerge : node.expandMerges with
      | error fault => simp [Except.map, Except.mapError, hnode, hmerge]
      | ok expanded =>
        cases expanded <;> simp [Except.map, Except.mapError, hnode, hmerge, eq_comm]

/-- A configuration is saved exactly where its saved view is written as a tree and the text of this tree as the file. -/
theorem save_eq_ok {c : Config} {fs fs' : FileSystem} {file : Path} :
    c.save fs file = .ok fs' ↔
      ∃ node, c.savedView.toNode = .ok node ∧ fs.write file (Text.Utf8.encode (Yaml.write node)) = .ok fs' := by
  unfold save textOf
  cases hnode : c.savedView.toNode with
  | error path => simp [bind, Except.bind]
  | ok node =>
    cases hwrite : fs.write file (Text.Utf8.encode (Yaml.write node)) with
    | error fault => simp [bind, Except.bind, hwrite, throw, throwThe, MonadExceptOf.throw]
    | ok written => simp [bind, Except.bind, hwrite, pure, Except.pure]

/-- A saved view is written as one tree, so what holds of that tree holds of every one it is written as. -/
theorem readsBack_of_toNode {c : Config} {node : Node} (hnode : c.savedView.toNode = .ok node)
    (hread : Yaml.read (Yaml.write node) = .ok node) (node' : Node) (h : c.savedView.toNode = .ok node') :
    Yaml.read (Yaml.write node') = .ok node' := by
  obtain rfl : node = node' := Except.ok.inj (hnode.symm.trans h)
  exact hread

/-- Only files can be loaded: what else can be read has no content, and nothing is no mapping. -/
theorem isFile_of_load {fs : FileSystem} {file : Path} {host : Host} {c : Config} (h : load fs file host = .ok c) :
    fs.isFile file = true := by
  obtain ⟨text, node, entries, htext, hnode, hexpand, -⟩ := load_eq_ok.mp h
  by_contra hf
  have hbytes := FileSystem.read_of_not_isFile (FileSystem.readText_eq_ok.mp htext) (Bool.not_eq_true _ ▸ hf)
  have hempty : Text.Utf8.decode? [] = some "" := Text.Utf8.decode_eq_some.mpr rfl
  obtain rfl : text = "" := Option.some.inj ((Text.Utf8.decode_eq_some.mpr hbytes.symm).symm.trans hempty)
  obtain rfl : Node.null = node := Except.ok.inj hnode
  nomatch hexpand

/-- The file that a save leaves at its path is loaded as the tree of the saved view with its merge entries expanded. -/
theorem load_of_save {c loaded : Config} {fs fs' : FileSystem} {file : Path} {host : Host} {node : Node}
    (hsave : c.save fs file = .ok fs') (hnode : c.savedView.toNode = .ok node)
    (hread : Yaml.read (Yaml.write node) = .ok node) (hf : fs'.isFile file = true) :
    load fs' file host = .ok loaded ↔
      ∃ entries, node.expandMerges = .ok (.map entries) ∧ loaded = wrap (Namespace.ofMapping entries) host := by
  obtain ⟨node', hnode', hwrite⟩ := save_eq_ok.mp hsave
  obtain rfl : node' = node := Except.ok.inj (hnode'.symm.trans hnode)
  have htext : fs'.readText file = .ok (Yaml.write node') :=
    FileSystem.readText_eq_ok.mpr (FileSystem.read_of_write hwrite hf)
  rw [load_eq_ok]
  constructor
  · rintro ⟨text, node, entries, htext', hread', hexpand, hloaded⟩
    obtain rfl : text = Yaml.write node' := Except.ok.inj (htext'.symm.trans htext)
    obtain rfl : node = node' := Except.ok.inj (hread'.symm.trans hread)
    exact ⟨entries, hexpand, hloaded⟩
  · rintro ⟨entries, hexpand, hloaded⟩
    exact ⟨_, node', entries, htext, hread, hexpand, hloaded⟩

end Config

end ClusterConfig
