import ClusterConfig.Proofs.Text
import Mathlib.Data.List.Basic
import Mathlib.Data.List.TakeWhile

/-!
# Texts among bytes with faults

Lossy decoding reads bytes piece by piece, and the bytes of a text are read as its characters, without a fault. One character is
`piece_encodeChar` and a text is `lossy_encode`. So decoding keeps every text, and it changes bytes exactly where they are not
those of a text (`encode_lossy_iff`).
-/

namespace ClusterConfig.Text.Utf8

/-! ## The bytes of a character -/

/-- A byte that continues a character, with six bits of it. -/
def continuing (bits : Nat) : UInt8 := UInt8.ofNat (bits + 128)

theorem toNat_continuing {n : Nat} (h : n < 64) : (continuing n).toNat = n + 128 := by
  have hsmall : n + 128 < 256 := by omega
  exact UInt8.toNat_ofNat_of_lt' hsmall

theorem continues_continuing {n : Nat} (h : n < 64) : continues (continuing n) = true := by
  have hhigh : n + 128 ≤ 191 := by omega
  simp only [continues, Bool.and_eq_true, decide_eq_true_iff, UInt8.le_iff_toNat_le, toNat_continuing h]
  exact ⟨Nat.le_add_left _ _, hhigh⟩

/-- The byte has the first bits `d` of a character. It asks for a second byte, which may be the one with the bits `e`, and for so
many more. -/
structure Leads (b : UInt8) (d e more : Nat) : Prop where
  high : 0x80 ≤ b
  bits : leadBits b more = d
  second : ∃ lo hi, second? b = some (lo, hi, more) ∧ lo.toNat ≤ e + 128 ∧ e + 128 ≤ hi.toNat

theorem leads_two {d e : Nat} (hlow : 2 ≤ d) (hd : d < 32) (he : e < 64) : Leads (UInt8.ofNat (d + 192)) d e 0 := by
  have htable : ∀ d < 32, 2 ≤ d → 0x80 ≤ UInt8.ofNat (d + 192) ∧ leadBits (UInt8.ofNat (d + 192)) 0 = d ∧
      second? (UInt8.ofNat (d + 192)) = some (0x80, 0xBF, 0) := by decide
  obtain ⟨hhigh, hbits, hsecond⟩ := htable d hd hlow
  exact ⟨hhigh, hbits, _, _, hsecond, Nat.le_add_left 128 e, Nat.le_of_lt_succ (Nat.add_lt_add_right he 128)⟩

/-- After the lowest bits the second byte starts higher, as fewer bytes would do for what is below, and after some others it ends
lower, as what is above is no character. -/
theorem leads_of_second {b lo hi : UInt8} {d e more lowest limited : Nat} (hhigh : 0x80 ≤ b) (hbits : leadBits b more = d)
    (hsecond : second? b = some (if d = lowest then lo else 0x80, if d = limited then hi else 0xBF, more)) (he : e < 64)
    (hlo : d = lowest → lo.toNat ≤ e + 128) (hhi : d = limited → e + 128 ≤ hi.toNat) : Leads b d e more := by
  refine ⟨hhigh, hbits, _, _, hsecond, ?_, ?_⟩
  · split
    · exact hlo ‹d = lowest›
    · exact Nat.le_add_left 128 e
  · split
    · exact hhi ‹d = limited›
    · exact Nat.le_of_lt_succ (Nat.add_lt_add_right he 128)

/-- Three bytes are for no character that two would do for, and for no half of a pair. -/
theorem leads_three {d e : Nat} (hd : d < 16) (he : e < 64) (hlowest : d = 0 → 32 ≤ e) (hpair : d = 13 → e < 32) :
    Leads (UInt8.ofNat (d + 224)) d e 1 := by
  have htable : ∀ d < 16, 0x80 ≤ UInt8.ofNat (d + 224) ∧ leadBits (UInt8.ofNat (d + 224)) 1 = d ∧
      second? (UInt8.ofNat (d + 224)) = some (if d = 0 then 0xA0 else 0x80, if d = 13 then 0x9F else 0xBF, 1) := by decide
  obtain ⟨hhigh, hbits, hsecond⟩ := htable d hd
  exact leads_of_second hhigh hbits hsecond he (fun h => Nat.add_le_add_right (hlowest h) 128)
    fun h => Nat.le_of_lt_succ (Nat.add_lt_add_right (hpair h) 128)

/-- Four bytes are for no character that three would do for, and for nothing beyond the last character. -/
theorem leads_four {d e : Nat} (hd : d < 5) (he : e < 64) (hlowest : d = 0 → 16 ≤ e) (hlast : d = 4 → e < 16) :
    Leads (UInt8.ofNat (d + 240)) d e 2 := by
  have htable : ∀ d < 5, 0x80 ≤ UInt8.ofNat (d + 240) ∧ leadBits (UInt8.ofNat (d + 240)) 2 = d ∧
      second? (UInt8.ofNat (d + 240)) = some (if d = 0 then 0x90 else 0x80, if d = 4 then 0x8F else 0xBF, 2) := by decide
  obtain ⟨hhigh, hbits, hsecond⟩ := htable d hd
  exact leads_of_second hhigh hbits hsecond he (fun h => Nat.add_le_add_right (hlowest h) 128)
    fun h => Nat.le_of_lt_succ (Nat.add_lt_add_right (hlast h) 128)

/-- A byte that leads a character, and those that continue it, are read as this character, whatever follows. -/
theorem piece_of_leads {b : UInt8} {d e more : Nat} {tail : List Nat} (h : Leads b d e more) (hbits : ∀ n ∈ e :: tail, n < 64)
    (hlength : tail.length = more) (rest : List UInt8) :
    piece b ((e :: tail).map continuing ++ rest) =
      (.char (Char.ofNat ((e :: tail).foldl (fun n bits => n * 64 + bits) d)), rest) := by
  obtain ⟨lo, hi, hsecond, hlo, hhi⟩ := h.second
  obtain ⟨he, htail⟩ := List.forall_mem_cons.mp hbits
  have hbounds : ¬(continuing e < lo ∨ hi < continuing e) := by
    rw [not_or, UInt8.not_lt, UInt8.not_lt, UInt8.le_iff_toNat_le, UInt8.le_iff_toNat_le, toNat_continuing he]
    exact ⟨hlo, hhi⟩
  have hlength' : (tail.map continuing).length = more := by rw [List.length_map, hlength]
  have htake : ((tail.map continuing ++ rest).take more).takeWhile continues = tail.map continuing := by
    rw [List.take_left' hlength', List.takeWhile_eq_self_iff]
    exact List.forall_mem_map.mpr fun n hn => continues_continuing (htail n hn)
  have hvalue : ((e :: tail).map continuing).foldl (fun n c => n * 64 + c.toNat % 64) d =
      (e :: tail).foldl (fun n bits => n * 64 + bits) d := by
    rw [List.foldl_map]
    refine List.foldl_ext _ _ d fun n bits hmem => ?_
    have hsmall := hbits bits hmem
    rw [toNat_continuing hsmall]
    omega
  rw [piece, if_neg (UInt8.not_lt.mpr h.high), hsecond, List.map_cons, List.cons_append]
  simp only [if_neg hbounds, htake, hlength', if_true, List.drop_left' hlength', h.bits]
  rw [← List.map_cons, hvalue]

/-- The bytes of a character are read as this character, whatever follows. -/
theorem piece_encodeChar (c : Char) (rest : List UInt8) :
    ∃ b bytes, String.utf8EncodeChar c = b :: bytes ∧ piece b (bytes ++ rest) = (.char c, rest) := by
  have hchar : Char.ofNat c.val.toNat = c := Char.ofNat_toNat c
  have hvalid : c.val.toNat < 0xD800 ∨ 0xDFFF < c.val.toNat ∧ c.val.toNat < 0x110000 := c.valid
  simp only [String.utf8EncodeChar]
  generalize c.val.toNat = v at hchar hvalid ⊢
  -- By the number of bytes; the bits of the character are the digits of its number in base 64.
  split
  · have hsmall : v < 128 := by omega
    have hb : (UInt8.ofNat v).toNat = v := UInt8.toNat_ofNat_of_lt' (hsmall.trans (by decide))
    have hlead : UInt8.ofNat v < 0x80 := UInt8.lt_iff_toNat_lt.mpr (by rwa [hb])
    refine ⟨_, [], rfl, ?_⟩
    rw [piece, if_pos hlead, hb, hchar, List.nil_append]
  · split
    · have hleads : Leads (UInt8.ofNat (v / 64 % 32 + 192)) (v / 64 % 32) (v % 64) 0 :=
        leads_two (by omega) (by omega) (by omega)
      have hv : v / 64 % 32 * 64 + v % 64 = v := by omega
      refine ⟨_, [v % 64].map continuing, rfl, ?_⟩
      rw [piece_of_leads hleads (by simp; omega) rfl, List.foldl_cons, List.foldl_nil, hv, hchar]
    · split
      · have hleads : Leads (UInt8.ofNat (v / 4096 % 16 + 224)) (v / 4096 % 16) (v / 64 % 64) 1 :=
          leads_three (by omega) (by omega) (by omega) (by omega)
        have hv : (v / 4096 % 16 * 64 + v / 64 % 64) * 64 + v % 64 = v := by omega
        refine ⟨_, [v / 64 % 64, v % 64].map continuing, rfl, ?_⟩
        rw [piece_of_leads hleads (by simp; omega) rfl, List.foldl_cons, List.foldl_cons, List.foldl_nil, hv, hchar]
      · have hleads : Leads (UInt8.ofNat (v / 262144 % 8 + 240)) (v / 262144 % 8) (v / 4096 % 64) 2 :=
          leads_four (by omega) (by omega) (by omega) (by omega)
        have hv : ((v / 262144 % 8 * 64 + v / 4096 % 64) * 64 + v / 64 % 64) * 64 + v % 64 = v := by omega
        refine ⟨_, [v / 4096 % 64, v / 64 % 64, v % 64].map continuing, rfl, ?_⟩
        rw [piece_of_leads hleads (by simp; omega) rfl, List.foldl_cons, List.foldl_cons, List.foldl_cons, List.foldl_nil, hv,
          hchar]

/-! ## The bytes of a text -/

/-- The bytes of a text are those of its characters. -/
theorem encode_eq_flatMap (s : String) : encode s = s.toList.flatMap String.utf8EncodeChar := by
  have h : s.toByteArray = s.toList.utf8Encode := by
    rw [← String.toByteArray_ofList, String.ofList_toList]
  rw [encode, String.toUTF8_eq_toByteArray, h, List.utf8Encode, List.toList_data_toByteArray]

/-- The bytes of characters are read as these, by as many steps as there are bytes at least. -/
theorem piecesUpTo_chars {n : Nat} {cs : List Char} (h : (cs.flatMap String.utf8EncodeChar).length ≤ n) :
    piecesUpTo n (cs.flatMap String.utf8EncodeChar) = cs.map .char := by
  induction cs generalizing n with
  | nil => cases n <;> rfl
  | cons c cs ih =>
    obtain ⟨b, bytes, hbytes, hpiece⟩ := piece_encodeChar c (cs.flatMap String.utf8EncodeChar)
    rw [List.flatMap_cons, hbytes, List.cons_append] at h ⊢
    rw [List.length_cons, List.length_append] at h
    cases n with
    | zero => omega
    | succ n => rw [piecesUpTo, hpiece, ih (by omega), List.map_cons]

/-- Lossy decoding changes no text. -/
theorem lossy_encode (s : String) : lossy (encode s) = s := by
  rw [lossy, pieces, encode_eq_flatMap, piecesUpTo_chars le_rfl, List.map_map]
  change String.ofList (s.toList.map id) = s
  rw [List.map_id, String.ofList_toList]

/-- Nothing is lost by lossy decoding exactly where the bytes are those of a text. -/
theorem encode_lossy_iff {bytes : List UInt8} : encode (lossy bytes) = bytes ↔ ∃ s, decode? bytes = some s := by
  constructor
  · intro h
    exact ⟨lossy bytes, decode_eq_some.mpr h.symm⟩
  · rintro ⟨s, h⟩
    rw [decode_eq_some.mp h, lossy_encode]

end ClusterConfig.Text.Utf8
