import Mathlib.Tactic.SplitIfs

/-! The order of texts as rows of octets. The octets of a character grow with its number, first in
their count and then from the leading octet on, so texts are ordered by their octets as they are by
their characters. -/
namespace RouteForge.Text

/-- The octets of a text. -/
def octets (s : String) : List UInt8 := s.toUTF8.data.toList

theorem octets_eq (s : String) : octets s = s.toList.flatMap String.utf8EncodeChar := by
  unfold octets
  rw [String.toUTF8_eq_toByteArray, ← String.utf8Encode_toList]
  unfold List.utf8Encode
  simp

section Octet

variable {m n : Nat}

theorem ofNat_lt_iff (small : m < 256) (other : n < 256) :
    UInt8.ofNat m < UInt8.ofNat n ↔ m < n := by
  rw [UInt8.lt_iff_toNat_lt, UInt8.toNat_ofNat_of_lt' small, UInt8.toNat_ofNat_of_lt' other]

theorem ofNat_eq_iff (small : m < 256) (other : n < 256) :
    UInt8.ofNat m = UInt8.ofNat n ↔ m = n := by
  rw [← UInt8.toNat_inj, UInt8.toNat_ofNat_of_lt' small, UInt8.toNat_ofNat_of_lt' other]

/-- The digits of a smaller number to the base 64 are smaller where they first differ. -/
theorem digits_lt (less : m < n) :
    m / 262144 < n / 262144 ∨ m / 262144 = n / 262144 ∧
      (m / 4096 % 64 < n / 4096 % 64 ∨ m / 4096 % 64 = n / 4096 % 64 ∧
        (m / 64 % 64 < n / 64 % 64 ∨ m / 64 % 64 = n / 64 % 64 ∧ m % 64 < n % 64)) := by
  have step {k l : Nat} (above : k < l) : k / 64 < l / 64 ∨ k / 64 = l / 64 ∧ k % 64 < l % 64 := by
    omega
  have second (above : m / 64 < n / 64) := step above
  have third (above : m / 64 / 64 < n / 64 / 64) := step above
  simp only [Nat.div_div_eq_div_mul] at second third
  rcases step less with above | ⟨same, last⟩
  · rcases second above with above | ⟨same, digit⟩
    · rcases third above with above | ⟨same, digit⟩
      · exact .inl above
      · exact .inr ⟨same, .inl digit⟩
    · exact .inr ⟨by omega, .inr ⟨by omega, .inl digit⟩⟩
  · exact .inr ⟨by omega, .inr ⟨by omega, .inr ⟨by omega, last⟩⟩⟩

end Octet

theorem toNat_lt (c : Char) : c.val.toNat < 0x110000 := by
  rcases c.valid with low | ⟨-, high⟩
  · exact Nat.lt_trans low (by decide)
  · exact high

/-- A character with a smaller number is smaller in its octets, whatever follows them. -/
theorem utf8EncodeChar_lt {c d : Char} (less : c < d) (us vs : List UInt8) :
    String.utf8EncodeChar c ++ us < String.utf8EncodeChar d ++ vs := by
  have order : c.val.toNat < d.val.toNat := less
  have small := toNat_lt c
  have other := toNat_lt d
  unfold String.utf8EncodeChar
  generalize c.val.toNat = v at *
  generalize d.val.toNat = w at *
  have digits := digits_lt order
  have lead : v / 262144 % 8 = v / 262144 := Nat.mod_eq_of_lt (by omega)
  have other_lead : w / 262144 % 8 = w / 262144 := Nat.mod_eq_of_lt (by omega)
  dsimp only
  -- Two characters differ in the count of their octets or in a digit of one of them.
  split_ifs <;> simp (disch := omega) only [List.cons_append, List.nil_append,
    List.cons_lt_cons_iff, ofNat_lt_iff, ofNat_eq_iff]
  all_goals omega

theorem flatMap_utf8EncodeChar_lt {cs ds : List Char} (less : cs < ds) :
    cs.flatMap String.utf8EncodeChar < ds.flatMap String.utf8EncodeChar := by
  induction less with
  | @nil d ds =>
    have solid : String.utf8EncodeChar d ≠ [] := String.utf8EncodeChar_ne_nil
    obtain ⟨first, rest, encoded⟩ := List.exists_cons_of_ne_nil solid
    rw [List.flatMap_cons, encoded]
    exact List.nil_lt_cons _ _
  | rel less => exact utf8EncodeChar_lt less _ _
  | cons _ ih => exact List.append_left_lt ih

/-- A smaller text is smaller in its octets. -/
theorem octets_lt {s t : String} (less : s < t) : octets s < octets t := by
  rw [octets_eq, octets_eq]
  exact flatMap_utf8EncodeChar_lt less

end RouteForge.Text
