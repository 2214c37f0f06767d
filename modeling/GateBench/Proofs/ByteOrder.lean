import Mathlib.Data.String.Basic
import Mathlib.Data.List.Lex

/-!
The order of bytes.  UTF-8 keeps the order of texts: a character whose code is smaller is written
with a smaller byte at the first place where the two differ.
-/

namespace GateBench.Text

/-- The bytes of a text in UTF-8. -/
def bytes (text : String) : List UInt8 :=
  text.toUTF8.data.toList

theorem bytes_eq_flatMap (text : String) :
    bytes text = text.toList.flatMap String.utf8EncodeChar := by
  rw [bytes, String.toUTF8_eq_toByteArray, ← String.utf8Encode_toList, List.utf8Encode,
    List.toList_data_toByteArray]

/-- A character in front of another is written with smaller bytes, whatever comes behind them. -/
theorem encode_lt {first second : Char} (hlt : first < second) (rest more : List UInt8) :
    String.utf8EncodeChar first ++ rest < String.utf8EncodeChar second ++ more := by
  have hcodes : first.val.toNat < second.val.toNat := hlt
  have hbound : second.val.toNat < 0x110000 := by
    rcases second.valid with hlow | ⟨-, hhigh⟩
    · exact hlow.trans (by decide)
    · exact hhigh
  simp only [String.utf8EncodeChar]
  generalize first.val.toNat = code at *
  generalize second.val.toNat = other at *
  split_ifs
  all_goals
    simp only [List.cons_append, List.nil_append, List.cons_lt_cons_iff, UInt8.lt_iff_toNat_lt,
      ← UInt8.toNat_inj, UInt8.toNat_ofNat']
  -- the first bytes differ, unless both characters take as many
  all_goals try omega
  -- of two characters of four bytes, the first digits that differ decide
  rcases Nat.lt_or_ge (code / 262144) (other / 262144) with hfirst | hfirst
  · exact .inl (by omega)
  refine .inr ⟨by omega, ?_⟩
  rcases Nat.lt_or_ge (code / 4096) (other / 4096) with hsecond | hsecond
  · exact .inl (by omega)
  refine .inr ⟨by omega, ?_⟩
  rcases Nat.lt_or_ge (code / 64) (other / 64) with hthird | hthird
  · exact .inl (by omega)
  exact .inr ⟨by omega, .inl (by omega)⟩

/-- The induction is on the order of the characters: those in common are written alike, and then one
text ends or the first characters that differ decide. -/
theorem bytes_lt_of_lt {text other : String} (hlt : text < other) : bytes text < bytes other := by
  rw [String.lt_iff] at hlt
  rw [bytes_eq_flatMap, bytes_eq_flatMap]
  generalize text.toList = letters at *
  generalize other.toList = others at *
  induction hlt with
  | @nil letter others =>
      obtain ⟨byte, more, hbytes⟩ :=
        List.exists_cons_of_ne_nil (String.utf8EncodeChar_ne_nil (c := letter))
      rw [List.flatMap_nil, List.flatMap_cons, hbytes]
      exact List.nil_lt_cons byte _
  | rel hfirst => exact encode_lt hfirst _ _
  | cons _ ih => exact List.append_left_lt ih

/-- Texts are in the order of their bytes. -/
theorem bytes_lt_iff {text other : String} : bytes text < bytes other ↔ text < other := by
  refine ⟨fun hbytes => ?_, bytes_lt_of_lt⟩
  rcases lt_trichotomy text other with hlt | rfl | hgt
  · exact hlt
  · exact absurd hbytes (List.lt_irrefl _)
  · exact absurd hbytes (List.lt_asymm (bytes_lt_of_lt hgt))

end GateBench.Text
