import CallAdmission.Host

/-!
# CallAdmission.Proofs.Text.ByteOrder

The order of texts by their characters is the order of their UTF-8 bytes: of two characters the
greater has the greater bytes, whatever follows them.

* `fromUTF8?_eq_some_iff` — a text is known by its bytes;
* `utf8EncodeChar_append_lt` — the bytes of one character;
* `lt_iff_bytes_lt` — the bytes of a text.
-/

namespace CallAdmission.Text

/-- The UTF-8 bytes of a text. -/
def bytes (s : String) : List UInt8 := s.toByteArray.data.toList

/-- The bytes of a text are those of its characters. -/
theorem bytes_eq (s : String) : bytes s = s.toList.flatMap String.utf8EncodeChar := by
  have hchars : s.toByteArray = s.toList.utf8Encode := by
    rw [← String.toByteArray_ofList, String.ofList_toList]
  rw [bytes, hchars, List.utf8Encode, List.data_toByteArray]

/-- Bytes are read as the text whose UTF-8 bytes they are. -/
theorem fromUTF8?_eq_some_iff {b : List UInt8} {s : String} :
    String.fromUTF8? b.toByteArray = some s ↔ bytes s = b := by
  have hbytes : bytes s = b ↔ s.toByteArray = b.toByteArray := by
    rw [ByteArray.ext_iff, ← Array.toList_inj, List.data_toByteArray, bytes]
  rw [hbytes]
  unfold String.fromUTF8?
  split
  · next hutf8 =>
    rw [Option.some.injEq, ← String.toByteArray_inj]
    exact eq_comm
  · next hutf8 => exact ⟨nofun, fun hs => absurd (hs ▸ s.isValidUTF8) hutf8⟩

theorem bytes_inj {s t : String} : bytes s = bytes t ↔ s = t := by
  rw [← fromUTF8?_eq_some_iff, fromUTF8?_eq_some_iff.2 rfl, Option.some_inj, eq_comm]

/-- The greater of two characters has the greater bytes, whatever follows them. -/
theorem utf8EncodeChar_append_lt {a b : Char} (h : a < b) (x y : List UInt8) :
    String.utf8EncodeChar a ++ x < String.utf8EncodeChar b ++ y := by
  have hless : a.val.toNat < b.val.toNat := UInt32.lt_iff_toNat_lt.1 h
  have hvalid : b.val.toNat.isValidChar := b.valid
  -- the parts of six bits one after the other, so that they are cut off one by one
  have hparts : ∀ n, n / 4096 = n / 64 / 64 ∧ n / 262144 = n / 64 / 64 / 64 := by
    intro n
    simp only [Nat.div_div_eq_div_mul, Nat.reduceMul, and_self]
  unfold Nat.isValidChar at hvalid
  unfold String.utf8EncodeChar
  dsimp only
  repeat' split
  all_goals
    simp only [hparts, List.cons_append, List.nil_append, List.cons_lt_cons_iff,
      UInt8.lt_iff_toNat_lt, ← UInt8.toNat_inj, UInt8.toNat_ofNat']
    omega

/-- The bytes of the greater of two texts are greater. -/
theorem flatMap_utf8EncodeChar_lt {cs ds : List Char} (h : cs < ds) :
    cs.flatMap String.utf8EncodeChar < ds.flatMap String.utf8EncodeChar := by
  induction h with
  | @nil d ds =>
    rw [List.flatMap_nil, List.flatMap_cons]
    cases hd : String.utf8EncodeChar d with
    | nil => exact absurd hd String.utf8EncodeChar_ne_nil
    | cons b bs => exact List.nil_lt_cons _ _
  | rel h => exact utf8EncodeChar_append_lt h _ _
  | cons h ih =>
    rw [List.flatMap_cons, List.flatMap_cons]
    exact List.append_left_lt ih

theorem bytes_lt_of_lt {s t : String} (h : s < t) : bytes s < bytes t := by
  rw [bytes_eq, bytes_eq]
  exact flatMap_utf8EncodeChar_lt h

/-- Texts compare as their bytes do. -/
theorem lt_iff_bytes_lt {s t : String} : s < t ↔ bytes s < bytes t := by
  constructor
  · exact bytes_lt_of_lt
  · intro h
    rw [← String.not_le]
    intro hle
    by_cases hst : t = s
    · exact List.lt_irrefl _ (hst ▸ h)
    · have hlt : t < s := String.not_le.1 fun hle' => hst (String.le_antisymm hle hle')
      exact List.lt_asymm h (bytes_lt_of_lt hlt)

example : bytes "ｚ" < bytes "😀" := lt_iff_bytes_lt.1 (by decide)

end CallAdmission.Text
