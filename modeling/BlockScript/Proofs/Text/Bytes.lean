import Mathlib.Data.List.Basic
import Mathlib.Data.String.Basic

/-!
# The order of texts

Texts are ordered by their characters.  Encoded as bytes they stand in the same order
(`bytes_lt_iff`): of two characters the lesser one has the lesser encoding, and they differ before
either encoding ends.
-/

namespace BlockScript.Text

def bytes (s : String) : List UInt8 := s.toUTF8.data.toList

theorem bytes_eq_flatMap (s : String) : bytes s = s.toList.flatMap String.utf8EncodeChar := by
  rw [bytes, String.toUTF8, ← String.utf8Encode_toList, List.utf8Encode,
    List.toList_data_toByteArray]

theorem utf8EncodeChar_append_lt {c d : Char} (less : c < d) (cs ds : List UInt8) :
    String.utf8EncodeChar c ++ cs < String.utf8EncodeChar d ++ ds := by
  have less : c.val.toNat < d.val.toNat := UInt32.lt_iff_toNat_lt.1 less
  have bound : d.val.toNat < 0x110000 := by
    rcases d.valid with small | ⟨-, small⟩ <;> omega
  simp only [String.utf8EncodeChar]
  generalize c.val.toNat = v at less
  generalize d.val.toNat = w at less bound
  split_ifs <;> simp only [List.cons_append, List.nil_append, List.cons_lt_cons_iff,
    UInt8.lt_iff_toNat_lt, ← UInt8.toNat_inj, UInt8.toNat_ofNat']
  -- a longer encoding begins with a greater byte
  any_goals (left; omega)
  -- of encodings of two, three or four bytes the first different digits decide
  · omega
  · by_cases first : v / 4096 = w / 4096
    · exact .inr ⟨by rw [first], by omega⟩
    · exact .inl (by omega)
  · by_cases first : v / 262144 = w / 262144
    · refine .inr ⟨by rw [first], ?_⟩
      by_cases second : v / 4096 = w / 4096
      · exact .inr ⟨by rw [second], by omega⟩
      · exact .inl (by omega)
    · exact .inl (by omega)

theorem utf8EncodeChar_ne_nil (c : Char) : String.utf8EncodeChar c ≠ [] := by
  simp only [String.utf8EncodeChar]
  split_ifs <;> exact List.cons_ne_nil _ _

theorem flatMap_utf8EncodeChar_lt {cs ds : List Char} (less : cs < ds) :
    cs.flatMap String.utf8EncodeChar < ds.flatMap String.utf8EncodeChar := by
  induction less with
  | nil =>
      rw [List.flatMap_cons]
      obtain ⟨byte, rest, encodes⟩ := List.exists_cons_of_ne_nil (utf8EncodeChar_ne_nil _)
      rw [encodes]
      exact List.nil_lt_cons byte _
  | rel less => exact utf8EncodeChar_append_lt less _ _
  | cons _ ih => exact List.append_left_lt ih

theorem bytes_lt_iff {a b : String} : bytes a < bytes b ↔ a < b := by
  have forward {a b : String} (less : a < b) : bytes a < bytes b := by
    rw [bytes_eq_flatMap, bytes_eq_flatMap]
    exact flatMap_utf8EncodeChar_lt (String.lt_iff.1 less)
  refine ⟨fun less => ?_, forward⟩
  rcases Std.lt_trichotomy a b with below | rfl | above
  · exact below
  · exact absurd less Std.lt_irrefl
  · exact absurd (Std.lt_trans less (forward above)) Std.lt_irrefl

end BlockScript.Text
