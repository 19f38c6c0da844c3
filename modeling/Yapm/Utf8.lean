import Mathlib.Data.List.Basic
import Mathlib.Data.Nat.Notation

/-!
# Bytes that are text

Bytes are text when they are the UTF-8 encoding of some characters (`valid_iff`). The byte of
a line break is in the encoding of no other character (`newline_mem_iff`), so breaking lines
and decoding commute (`splitOn_encode`), and bytes are text exactly when each of their lines
is (`valid_iff_pieces`).
-/

namespace Utf8

/-- The encoding of a text. -/
def encode (cs : List Char) : List UInt8 :=
  cs.flatMap String.utf8EncodeChar

/-- The bytes are the encoding of a text. -/
def Valid (b : List UInt8) : Prop :=
  b.toByteArray.IsValidUTF8

instance (b : List UInt8) : Decidable (Valid b) :=
  inferInstanceAs (Decidable b.toByteArray.IsValidUTF8)

/-- The text that bytes encode. -/
def decode (b : List UInt8) : Option String :=
  String.fromUTF8? b.toByteArray

/-- The byte of a line break. -/
def newline : UInt8 := 10

@[simp] theorem encode_nil : encode [] = [] := rfl

@[simp] theorem encode_cons (c : Char) (cs : List Char) :
    encode (c :: cs) = String.utf8EncodeChar c ++ encode cs := rfl

theorem encode_append (cs cs' : List Char) : encode (cs ++ cs') = encode cs ++ encode cs' :=
  List.flatMap_append

theorem valid_iff {b : List UInt8} : Valid b ↔ ∃ cs, b = encode cs := by
  constructor
  · rintro ⟨cs, h⟩
    refine ⟨cs, ?_⟩
    have hdata := congrArg (·.data.toList) h
    rwa [List.toList_data_toByteArray, List.utf8Encode, List.toList_data_toByteArray] at hdata
  · rintro ⟨cs, rfl⟩
    exact ⟨cs, rfl⟩

theorem valid_nil : Valid [] :=
  valid_iff.mpr ⟨[], rfl⟩

theorem Valid.append {b b' : List UInt8} (h : Valid b) (h' : Valid b') : Valid (b ++ b') := by
  obtain ⟨cs, rfl⟩ := valid_iff.mp h
  obtain ⟨cs', rfl⟩ := valid_iff.mp h'
  exact valid_iff.mpr ⟨cs ++ cs', (encode_append cs cs').symm⟩

theorem decode_isSome_iff {b : List UInt8} : (decode b).isSome ↔ Valid b := by
  unfold decode String.fromUTF8? Valid
  split <;> simp_all

/-! ## Lines -/

theorem utf8EncodeChar_newline : String.utf8EncodeChar '\n' = [newline] := rfl

/-- The bytes of longer encodings have their first bit set. -/
theorem ascii_ne_or {b x y : UInt8} (hb : b.toNat.testBit 7 = false) (hy : y.toNat.testBit 7) :
    b ≠ x ||| y := by
  intro h
  have hbit : (x ||| y).toNat.testBit 7 = true := by
    rw [UInt8.toNat_or, Nat.testBit_or, hy, Bool.or_true]
  rw [← h, hb] at hbit
  cases hbit

/-- A byte of seven bits is in the encoding of its own character only. -/
theorem ascii_mem_iff {b : UInt8} (hb : b.toNat < 128) {c : Char} :
    b ∈ String.utf8EncodeChar c ↔ c.toNat = b.toNat := by
  have hbit : b.toNat.testBit 7 = false := Nat.testBit_lt_two_pow hb
  constructor
  · intro h
    rcases c.utf8Size_eq with hsize | hsize | hsize | hsize
    · rw [String.utf8EncodeChar_eq_singleton hsize, List.mem_singleton] at h
      have hle : c.toNat ≤ 127 := Char.utf8Size_eq_one_iff.mp hsize
      have hval : b.toNat = c.toNat % 256 :=
        (congrArg UInt8.toNat h).trans (UInt32.toNat_toUInt8 c.val)
      rw [hval, Nat.mod_eq_of_lt (by omega)]
    · rw [String.utf8EncodeChar_eq_cons_cons hsize] at h
      simp only [List.mem_cons, List.not_mem_nil, or_false] at h
      rcases h with h | h <;> exact absurd h (ascii_ne_or hbit (by decide))
    · rw [String.utf8EncodeChar_eq_cons_cons_cons hsize] at h
      simp only [List.mem_cons, List.not_mem_nil, or_false] at h
      rcases h with h | h | h <;> exact absurd h (ascii_ne_or hbit (by decide))
    · rw [String.utf8EncodeChar_eq_cons_cons_cons_cons hsize] at h
      simp only [List.mem_cons, List.not_mem_nil, or_false] at h
      rcases h with h | h | h | h <;> exact absurd h (ascii_ne_or hbit (by decide))
  · intro h
    have hsize : c.utf8Size = 1 :=
      Char.utf8Size_eq_one_iff.mpr (UInt32.le_iff_toNat_le.mpr (show c.toNat ≤ 127 by omega))
    rw [String.utf8EncodeChar_eq_singleton hsize, List.mem_singleton, ← UInt8.toNat_inj, ← h]
    exact (Nat.mod_eq_of_lt (show c.toNat < 256 by omega)).symm.trans
      (UInt32.toNat_toUInt8 c.val).symm

/-- Only a line break is encoded with the byte of a line break. -/
theorem newline_mem_iff {c : Char} : newline ∈ String.utf8EncodeChar c ↔ c = '\n' := by
  rw [ascii_mem_iff (by decide), ← Char.toNat_inj]
  rfl

/-- The same of a text. -/
theorem ascii_mem_encode_iff {b : UInt8} (hb : b.toNat < 128) {cs : List Char} :
    b ∈ encode cs ↔ ∃ c ∈ cs, c.toNat = b.toNat := by
  simp only [encode, List.mem_flatMap, ascii_mem_iff hb]

/-- What has no line break goes before the first line. -/
theorem splitOn_append {xs : List UInt8} (h : newline ∉ xs) (ys : List UInt8) :
    (xs ++ ys).splitOn newline = (ys.splitOn newline).modifyHead (xs ++ ·) := by
  induction xs with
  | nil =>
    obtain ⟨head, tail, hsplit⟩ := List.exists_cons_of_ne_nil (List.splitOn_ne_nil newline ys)
    simp [hsplit]
  | cons x xs ih =>
    rw [List.mem_cons, not_or] at h
    have hx : (x == newline) = false := beq_eq_false_iff_ne.mpr (Ne.symm h.1)
    obtain ⟨head, tail, hsplit⟩ := List.exists_cons_of_ne_nil (List.splitOn_ne_nil newline ys)
    simp [List.splitOn_cons_eq_if_modifyHead, hx, ih h.2, hsplit]

/-- Breaking lines and encoding commute. -/
theorem splitOn_encode (cs : List Char) :
    (encode cs).splitOn newline = (cs.splitOn '\n').map encode := by
  induction cs with
  | nil => rfl
  | cons c cs ih =>
    obtain ⟨head, tail, hsplit⟩ := List.exists_cons_of_ne_nil (List.splitOn_ne_nil '\n' cs)
    by_cases hc : c = '\n'
    · subst c
      rw [encode_cons, utf8EncodeChar_newline, List.singleton_append,
        List.splitOn_cons_eq_if_modifyHead, List.splitOn_cons_eq_if_modifyHead, ih]
      rfl
    · have hc' : (c == '\n') = false := beq_eq_false_iff_ne.mpr hc
      rw [encode_cons, splitOn_append (newline_mem_iff.not.mpr hc), ih, hsplit]
      simp [List.splitOn_cons_eq_if_modifyHead, hc', hsplit]

theorem valid_intercalate : ∀ {pieces : List (List UInt8)}, (∀ piece ∈ pieces, Valid piece) →
    Valid ([newline].intercalate pieces)
  | [], _ => valid_nil
  | [piece], h => by simpa using h
  | piece :: piece' :: pieces, h => by
    rw [List.forall_mem_cons] at h
    have hbreak : Valid [newline] := valid_iff.mpr ⟨['\n'], rfl⟩
    rw [List.intercalate_cons_cons]
    exact (h.1.append hbreak).append (valid_intercalate h.2)

/-- Bytes are text exactly when all pieces between line breaks are. -/
theorem valid_iff_pieces {b : List UInt8} :
    Valid b ↔ ∀ piece ∈ b.splitOn newline, Valid piece := by
  constructor
  · intro h
    obtain ⟨cs, rfl⟩ := valid_iff.mp h
    rw [splitOn_encode]
    intro piece hpiece
    obtain ⟨cs', -, rfl⟩ := List.mem_map.mp hpiece
    exact valid_iff.mpr ⟨cs', rfl⟩
  · intro h
    have hb := valid_intercalate h
    rwa [List.intercalate_splitOn] at hb

end Utf8
