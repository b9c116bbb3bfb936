import Mathlib.Data.List.Lex
import Mathlib.Tactic.SplitIfs
import FeatureFlags.SortedMap

/-!
The order of strings is the order of their bytes.

Strings are compared character by character, and their UTF-8 forms byte by byte.  It is the same
order: of two characters, the one with the larger number has the larger form, whatever follows
(`Text.utf8EncodeChar_append_lt`), because a longer form starts with a larger byte, and forms of one
length are the digits of the numbers, the most significant first.
-/

namespace FeatureFlags.Text

/-- The UTF-8 form of a string. -/
def utf8 (s : String) : List UInt8 := s.toUTF8.data.toList

theorem utf8_eq (s : String) : utf8 s = s.toList.flatMap String.utf8EncodeChar := by
  have hbytes : s.toUTF8 = s.toList.utf8Encode := by
    rw [← String.toByteArray_ofList, String.ofList_toList]
    rfl
  rw [utf8, hbytes, List.utf8Encode, List.toList_data_toByteArray]

/-! ### Characters -/

variable {m n : Nat} {xs ys : List UInt8}

theorem ofNat_cons_lt_of_lt (h : m < n) (hn : n < 256) :
    UInt8.ofNat m :: xs < UInt8.ofNat n :: ys := by
  have hbyte : UInt8.ofNat m < UInt8.ofNat n := by
    rw [UInt8.lt_iff_toNat_lt, UInt8.toNat_ofNat_of_lt' (Nat.lt_trans h hn),
      UInt8.toNat_ofNat_of_lt' hn]
    exact h
  exact List.cons_lt_cons_iff.2 (.inl hbyte)

theorem ofNat_cons_lt_of_eq (h : m = n) (htail : xs < ys) :
    UInt8.ofNat m :: xs < UInt8.ofNat n :: ys :=
  List.cons_lt_cons_iff.2 (.inr ⟨congrArg UInt8.ofNat h, htail⟩)

/-! Digits of 64, as a form has them behind its first byte: of two numbers that agree in the digits
before, the larger one has the larger bytes. -/

theorem last_digit_lt (h : m < n) (hbefore : m / 64 = n / 64) (xs ys : List UInt8) :
    UInt8.ofNat (m % 64 + 128) :: xs < UInt8.ofNat (n % 64 + 128) :: ys :=
  ofNat_cons_lt_of_lt (by omega) (by omega)

theorem last_two_digits_lt (h : m < n) (hbefore : m / 4096 = n / 4096) (xs ys : List UInt8) :
    UInt8.ofNat (m / 64 % 64 + 128) :: UInt8.ofNat (m % 64 + 128) :: xs
      < UInt8.ofNat (n / 64 % 64 + 128) :: UInt8.ofNat (n % 64 + 128) :: ys := by
  obtain hdigit | hdigit : m / 64 < n / 64 ∨ m / 64 = n / 64 := by omega
  · exact ofNat_cons_lt_of_lt (by omega) (by omega)
  · exact ofNat_cons_lt_of_eq (by omega) (last_digit_lt h hdigit xs ys)

theorem last_three_digits_lt (h : m < n) (hbefore : m / 262144 = n / 262144)
    (xs ys : List UInt8) :
    UInt8.ofNat (m / 4096 % 64 + 128) :: UInt8.ofNat (m / 64 % 64 + 128)
        :: UInt8.ofNat (m % 64 + 128) :: xs
      < UInt8.ofNat (n / 4096 % 64 + 128) :: UInt8.ofNat (n / 64 % 64 + 128)
        :: UInt8.ofNat (n % 64 + 128) :: ys := by
  obtain hdigit | hdigit : m / 4096 < n / 4096 ∨ m / 4096 = n / 4096 := by omega
  · exact ofNat_cons_lt_of_lt (by omega) (by omega)
  · exact ofNat_cons_lt_of_eq (by omega) (last_two_digits_lt h hdigit xs ys)

theorem utf8EncodeChar_append_lt {c d : Char} (h : c < d) (xs ys : List UInt8) :
    String.utf8EncodeChar c ++ xs < String.utf8EncodeChar d ++ ys := by
  have hlt : c.val.toNat < d.val.toNat := h
  have hbound : d.val.toNat < 0x110000 := by
    have hvalid := d.valid
    simp only [UInt32.isValidChar, Nat.isValidChar] at hvalid
    omega
  unfold String.utf8EncodeChar
  generalize c.val.toNat = m at hlt
  generalize d.val.toNat = n at hlt hbound
  dsimp only
  split_ifs
  all_goals simp only [List.cons_append, List.nil_append]
  -- the smaller number has no longer form; where its form is shorter, the first bytes decide
  all_goals try exact absurd hlt (by omega)
  all_goals try exact ofNat_cons_lt_of_lt (by omega) (by omega)
  · obtain hlead | hlead : m / 64 < n / 64 ∨ m / 64 = n / 64 := by omega
    · exact ofNat_cons_lt_of_lt (by omega) (by omega)
    · exact ofNat_cons_lt_of_eq (by omega) (last_digit_lt hlt hlead xs ys)
  · obtain hlead | hlead : m / 4096 < n / 4096 ∨ m / 4096 = n / 4096 := by omega
    · exact ofNat_cons_lt_of_lt (by omega) (by omega)
    · exact ofNat_cons_lt_of_eq (by omega) (last_two_digits_lt hlt hlead xs ys)
  · obtain hlead | hlead : m / 262144 < n / 262144 ∨ m / 262144 = n / 262144 := by omega
    · exact ofNat_cons_lt_of_lt (by omega) (by omega)
    · exact ofNat_cons_lt_of_eq (by omega) (last_three_digits_lt hlt hlead xs ys)

/-! ### Strings -/

theorem flatMap_utf8EncodeChar_lt {cs ds : List Char} (h : cs < ds) :
    cs.flatMap String.utf8EncodeChar < ds.flatMap String.utf8EncodeChar := by
  induction h with
  | @nil d ds =>
    -- a character has a byte, and so the empty form is before that of any other string
    have hne : (d :: ds).flatMap String.utf8EncodeChar ≠ [] := by
      rw [List.flatMap_cons]
      exact List.append_ne_nil_of_left_ne_nil String.utf8EncodeChar_ne_nil _
    obtain ⟨b, bytes, hbytes⟩ := List.exists_cons_of_ne_nil hne
    rw [List.flatMap_nil, hbytes]
    exact List.nil_lt_cons b bytes
  | rel hlt =>
    rw [List.flatMap_cons, List.flatMap_cons]
    exact utf8EncodeChar_append_lt hlt _ _
  | cons _ ih =>
    rw [List.flatMap_cons, List.flatMap_cons]
    exact List.Lex.append_left _ ih _

/-- A string comes before another exactly if its bytes do. -/
theorem lt_iff_utf8_lt {s t : String} : s < t ↔ utf8 s < utf8 t := by
  have hmono : ∀ {s t : String}, s < t → utf8 s < utf8 t := by
    intro s t h
    rw [utf8_eq, utf8_eq]
    exact flatMap_utf8EncodeChar_lt (String.lt_iff.1 h)
  refine ⟨hmono, fun h => ?_⟩
  -- were the strings equal or in the other order, so would their bytes be
  by_cases hst : s < t
  · exact hst
  · by_cases hts : t < s
    · exact absurd (hmono hts) (List.lt_asymm h)
    · obtain rfl := eq_of_not_lt hst hts
      exact absurd h (List.lt_irrefl _)

end FeatureFlags.Text
