import ClusterConfig.FileSystem.Standard
import ClusterConfig.Proofs.LoadSave
import ClusterConfig.Proofs.Value.Written
import ClusterConfig.Session.Config

/-!
# When saving fails

A configuration is refused exactly for a path of its saved view that has no text, the first one in document order, and then
nothing has happened: the whole text is there before any file is opened. Every other configuration has a text, which is that of
the saved view with paths replaced, and it is only the file that may fail to take it.
-/

namespace ClusterConfig

namespace Config

/-- A saved view with a path that has no text is written nowhere. -/
theorem save_of_unwritable {c : Config} {p : Path} (h : (Value.ofNamespace c.savedView).unwritable? = some p)
    (fs : FileSystem) (file : Path) : c.save fs file = .error (.configSerialize p) := by
  have hnode : c.savedView.toNode = .error p := by
    rw [← Value.faultOf_toNode, faultOf_eq_some] at h
    exact h
  rw [save, textOf, hnode]
  rfl

/-- Any other saved view has a text, the one that it also has with its paths replaced. -/
theorem textOf_of_writable {ns : Namespace} (h : (Value.ofNamespace ns).unwritable? = none) :
    ∃ node, ns.toNode = .ok node ∧ textOf ns = .ok (Yaml.write node) ∧
      textOf (ns.mapValues Value.written) = .ok (Yaml.write node) := by
  rw [← Value.faultOf_toNode, faultOf_eq_none] at h
  obtain ⟨node, hnode⟩ := h
  have hself : ns.toNode = .ok node := hnode
  have hwritten : (ns.mapValues Value.written).toNode = .ok node := by
    have htoNode := Value.toNode_written hnode
    rw [Value.written_ofNamespace] at htoNode
    exact htoNode
  refine ⟨node, hself, ?_, ?_⟩
  · rw [textOf, hself]
  · rw [textOf, hwritten]

/-- A save of a view with a text leaves this text in the file, or fails on the file. -/
theorem save_of_toNode {c : Config} {node : Yaml.Node} (h : c.savedView.toNode = .ok node) (fs : FileSystem) (file : Path) :
    (∃ fs', c.save fs file = .ok fs' ∧ (fs'.isFile file = true → fs'.readText file = .ok (Yaml.write node))) ∨
      ∃ fault, c.save fs file = .error (.configWrite file fault) := by
  cases hwrite : fs.write file (Text.Utf8.encode (Yaml.write node)) with
  | ok fs' =>
    refine Or.inl ⟨fs', save_eq_ok.mpr ⟨node, h, hwrite⟩, fun hf => ?_⟩
    exact FileSystem.readText_eq_ok.mpr (FileSystem.read_of_write hwrite hf)
  | error fault =>
    refine Or.inr ⟨fault, ?_⟩
    simp [save, textOf, h, hwrite, bind, Except.bind, throw, throwThe, MonadExceptOf.throw]

end Config

namespace Session

/-- Saving fails with a path exactly if it is the first path of the saved view, in document order, that has no text, and then
nothing has changed. In every other case the text is the one of the saved view with all paths replaced; either the file takes it,
and holds just this text if it is a file, or saving fails with the file and nothing has changed. -/
theorem save_outcome (s : Session) (c : Config) (file : Path) :
    ((∃ p, (s.save c file).2 = .error (.configSerialize p)) ↔
        ∃ p ∈ (Value.ofNamespace c.savedView).paths, p.text? = none) ∧
      (∀ p, (s.save c file).2 = .error (.configSerialize p) →
        (Value.ofNamespace c.savedView).paths.find? (fun p => p.text?.isNone) = some p ∧
        (Error.configSerialize p).message = "Failed to serialize configuration: path " ++ p.quoted ++ " is not valid UTF-8" ∧
        (s.save c file).1 = s) ∧
      ((∀ p ∈ (Value.ofNamespace c.savedView).paths, p.text? ≠ none) →
        (Value.ofNamespace (c.savedView.mapValues Value.written)).paths = [] ∧
        ∃ text, Config.textOf c.savedView = .ok text ∧ Config.textOf (c.savedView.mapValues Value.written) = .ok text ∧
          ((∃ files, c.save s.files file = .ok files ∧ (files.isFile file = true → files.readText file = .ok text) ∧
              s.save c file = ({ s with files := files }.emit (fileEvent "Saved config" file), .ok ())) ∨
            ∃ fault, s.save c file = (s, .error (.configWrite file fault)))) := by
  cases hfirst : (Value.ofNamespace c.savedView).unwritable? with
  | some p =>
    have hsave : s.save c file = (s, .error (.configSerialize p)) := by
      rw [save, Config.save_of_unwritable hfirst]
    obtain ⟨hmem, htext⟩ := Value.mem_of_unwritable hfirst
    refine ⟨⟨fun _ => ⟨p, hmem, htext⟩, fun _ => ⟨p, by rw [hsave]⟩⟩, fun q hq => ?_, fun hall => ?_⟩
    · rw [hsave] at hq ⊢
      obtain rfl : p = q := Error.configSerialize.inj (Except.error.inj hq)
      exact ⟨hfirst, rfl, rfl⟩
    · exact absurd htext (hall p hmem)
  | none =>
    obtain ⟨node, hnode, htext, hwritten⟩ := Config.textOf_of_writable hfirst
    have hall := Value.unwritable_eq_none.mp hfirst
    have hpaths : (Value.ofNamespace (c.savedView.mapValues Value.written)).paths = [] := by
      rw [← Value.written_ofNamespace, Value.paths_written, List.filter_eq_nil_iff]
      exact List.find?_eq_none.mp hfirst
    have hcases : (∃ files, c.save s.files file = .ok files ∧
          (files.isFile file = true → files.readText file = .ok (Yaml.write node)) ∧
          s.save c file = ({ s with files := files }.emit (fileEvent "Saved config" file), .ok ())) ∨
        ∃ fault, s.save c file = (s, .error (.configWrite file fault)) := by
      rcases Config.save_of_toNode hnode s.files file with ⟨files, hsave, hread⟩ | ⟨fault, hsave⟩
      · exact Or.inl ⟨files, hsave, hread, by rw [save, hsave]⟩
      · exact Or.inr ⟨fault, by rw [save, hsave]⟩
    have hnever : ∀ p, (s.save c file).2 ≠ .error (.configSerialize p) := by
      intro p hp
      rcases hcases with ⟨files, -, -, hsave⟩ | ⟨fault, hsave⟩
      · rw [hsave] at hp
        cases hp
      · rw [hsave] at hp
        cases hp
    refine ⟨⟨fun ⟨p, hp⟩ => absurd hp (hnever p), fun ⟨p, hp, hnone⟩ => absurd hnone (hall p hp)⟩,
      fun p hp => absurd hp (hnever p), fun _ => ⟨hpaths, _, htext, hwritten, hcases⟩⟩

end Session

namespace Config

/-- A device takes what is saved and keeps nothing of it: not every save that succeeds leaves the text at its path. -/
theorem not_readText_of_save :
    ¬∀ (c : Config) (fs fs' : FileSystem) (file : Path) (text : String), c.save fs file = .ok fs' →
      textOf c.savedView = .ok text → fs'.readText file = .ok text := by
  intro hall
  let c := wrap .empty (.fixed 0 none "h")
  have hnode : c.savedView.toNode = .ok (.map []) := by rfl
  have hsave : c.save .machine (.ofString "/dev/null") = .ok .machine := save_eq_ok.mpr ⟨_, hnode, by rfl⟩
  have htext : textOf c.savedView = .ok "\x7b\x7d\n" := by rfl
  have hread : FileSystem.machine.readText (.ofString "/dev/null") = .ok "" := by rfl
  have hsame := hall c .machine .machine (.ofString "/dev/null") _ hsave htext
  rw [hread] at hsame
  exact absurd (Except.ok.inj hsame) (by decide)

end Config

end ClusterConfig
