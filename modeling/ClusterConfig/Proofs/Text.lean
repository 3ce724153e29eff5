import ClusterConfig.Path

/-!
# Text and its bytes

A text is read back from the bytes it is written as, and no other bytes read as it. So a path that has a text is the path written
as that text.
-/

namespace ClusterConfig

/-- Bytes read as a text exactly where they are the bytes of it. -/
theorem Text.Utf8.decode_eq_some {bytes : List UInt8} {s : String} : decode? bytes = some s ↔ bytes = encode s := by
  unfold decode? String.fromUTF8? encode
  constructor
  · intro h
    split at h
    · cases h
      rfl
    · nomatch h
  · rintro rfl
    have hvalid : ByteArray.IsValidUTF8 ⟨s.toUTF8.data.toList.toArray⟩ := s.isValidUTF8
    rw [dif_pos hvalid]
    rfl

/-- Only the empty text has no bytes. -/
theorem Text.Utf8.encode_ne_nil {s : String} (h : s ≠ "") : encode s ≠ [] := by
  intro hnil
  have hempty : decode? [] = some "" := decode_eq_some.mpr rfl
  rw [decode_eq_some.mpr hnil.symm] at hempty
  exact h (Option.some.inj hempty)

/-- A path that has a text is written as it. -/
theorem Path.text_eq_some {p : Path} {s : String} : p.text? = some s ↔ p = ofString s := by
  obtain ⟨bytes⟩ := p
  simp only [text?, ofString, Text.Utf8.decode_eq_some, Path.mk.injEq]

end ClusterConfig
