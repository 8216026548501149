import LineShell.Proofs.Decoding

/-!
# ByteOrder — texts are in the order of their bytes

The order of texts is by characters. Written out, a character of more bytes has a larger first byte,
and of two characters with equally many bytes the first digit that differs decides. So bytes,
compared one by one, are in the same order as the texts that they spell.

* `encodeChar_append_lt` — one character, whatever follows it;
* `encode_lt_encode` — whole texts.
-/

namespace LineShell
namespace Utf8

/-! ## Bytes -/

theorem byte_lt_iff {m n : Nat} (hm : m < 256) (hn : n < 256) :
    UInt8.ofNat m < UInt8.ofNat n ↔ m < n := by
  rw [UInt8.lt_iff_toNat_lt, UInt8.toNat_ofNat', UInt8.toNat_ofNat']
  omega

theorem byte_eq_iff {m n : Nat} (hm : m < 256) (hn : n < 256) :
    UInt8.ofNat m = UInt8.ofNat n ↔ m = n := by
  rw [← UInt8.toNat_inj, UInt8.toNat_ofNat', UInt8.toNat_ofNat']
  omega

section Forms

variable {v w : Nat} {x y : Bytes}

/-- The first byte decides if it is smaller. -/
theorem lead_lt (h : v < w) (hw : w < 256) : UInt8.ofNat v :: x < UInt8.ofNat w :: y :=
  List.cons_lt_cons_iff.2 (.inl ((byte_lt_iff (by omega) hw).2 h))

/-- Among two-byte encodings a smaller code point comes first, whatever follows. -/
theorem two_bytes_lt (h : v < w) (hw : w ≤ 2047) :
    [UInt8.ofNat (v / 64 % 32 + 192), .ofNat (v % 64 + 128)] ++ x <
      [UInt8.ofNat (w / 64 % 32 + 192), .ofNat (w % 64 + 128)] ++ y := by
  simp (disch := omega) only [List.cons_append, List.cons_lt_cons_iff, byte_lt_iff, byte_eq_iff]
  omega

/-- Among three-byte encodings a smaller code point comes first, whatever follows. -/
theorem three_bytes_lt (h : v < w) (hw : w ≤ 65535) :
    [UInt8.ofNat (v / 4096 % 16 + 224), .ofNat (v / 64 % 64 + 128), .ofNat (v % 64 + 128)] ++ x <
      [UInt8.ofNat (w / 4096 % 16 + 224), .ofNat (w / 64 % 64 + 128), .ofNat (w % 64 + 128)] ++
        y := by
  simp (disch := omega) only [List.cons_append, List.cons_lt_cons_iff, byte_lt_iff, byte_eq_iff]
  omega

/-- Among four-byte encodings a smaller code point comes first, whatever follows. -/
theorem four_bytes_lt (h : v < w) (hw : w < 0x110000) :
    [UInt8.ofNat (v / 262144 % 8 + 240), .ofNat (v / 4096 % 64 + 128), .ofNat (v / 64 % 64 + 128),
        .ofNat (v % 64 + 128)] ++ x <
      [UInt8.ofNat (w / 262144 % 8 + 240), .ofNat (w / 4096 % 64 + 128), .ofNat (w / 64 % 64 + 128),
        .ofNat (w % 64 + 128)] ++ y := by
  simp (disch := omega) only [List.cons_append, List.cons_lt_cons_iff, byte_lt_iff, byte_eq_iff]
  -- The larger digits decide first: those of the first two bytes, then those of the last two.
  rcases Nat.lt_or_ge (v / 4096) (w / 4096) with hfront | hfront
  · omega
  · have hsame : v / 4096 = w / 4096 := by omega
    have hlead : v / 262144 = w / 262144 := by omega
    omega

end Forms

/-- Characters are in the order of their bytes, whatever follows. -/
theorem encodeChar_append_lt {c d : Char} (h : c < d) (x y : Bytes) :
    String.utf8EncodeChar c ++ x < String.utf8EncodeChar d ++ y := by
  have hval : c.val.toNat < d.val.toNat := h
  have hlast : d.val.toNat < 0x110000 := by
    rcases d.valid with hlow | hhigh
    · exact Nat.lt_trans hlow (by decide)
    · exact hhigh.2
  rw [String.utf8EncodeChar, String.utf8EncodeChar]
  generalize c.val.toNat = v at hval
  generalize d.val.toNat = w at hval hlast
  -- The cases are the lengths: a character of fewer bytes has a smaller first byte.
  split
  · split
    · exact lead_lt hval (by omega)
    · split
      · exact lead_lt (by omega) (by omega)
      · split
        · exact lead_lt (by omega) (by omega)
        · exact lead_lt (by omega) (by omega)
  · rw [if_neg (show ¬ w ≤ 127 by omega)]
    split
    · split
      · exact two_bytes_lt hval ‹_›
      · split
        · exact lead_lt (by omega) (by omega)
        · exact lead_lt (by omega) (by omega)
    · rw [if_neg (show ¬ w ≤ 2047 by omega)]
      split
      · split
        · exact three_bytes_lt hval ‹_›
        · exact lead_lt (by omega) (by omega)
      · rw [if_neg (show ¬ w ≤ 65535 by omega)]
        exact four_bytes_lt hval hlast

/-! ## Texts -/

/-- The order of texts by characters is that of their bytes. -/
theorem flatMap_encodeChar_lt {a b : List Char} (h : a < b) :
    a.flatMap String.utf8EncodeChar < b.flatMap String.utf8EncodeChar := by
  induction a generalizing b with
  | nil =>
      cases b with
      | nil => exact absurd h (List.lt_irrefl [])
      | cons d ds =>
          rw [List.flatMap_nil, List.flatMap_cons]
          obtain ⟨byte, bytes, hd, -⟩ := encodeChar_eq_cons d
          rw [hd]
          exact List.nil_lt_cons _ _
  | cons c cs ih =>
      cases b with
      | nil => exact absurd h (List.not_lt_nil _)
      | cons d ds =>
          rw [List.flatMap_cons, List.flatMap_cons]
          rcases List.cons_lt_cons_iff.1 h with hlt | ⟨rfl, hrest⟩
          · exact encodeChar_append_lt hlt _ _
          · exact List.append_left_lt (ih hrest)

/-- Texts are in the order of their bytes. -/
theorem encode_lt_encode {a b : String} (h : compare a b = .lt) : encode a < encode b := by
  have hlt : a < b := compareOfLessAndEq_eq_lt.1 h
  exact flatMap_encodeChar_lt hlt

end Utf8
end LineShell
