import Mathlib.Data.Set.Function
import RouteForge.Sha256

/-! Rows of digests. A word can be read off its eight digits and a digest off its eight words, and
all digests are written with one length, so a row says which digests stand in it and in what
order. -/
namespace RouteForge.Sha256

theorem hexDigit_injOn : Set.InjOn hexDigit {n | n < 16} := by
  have each : ∀ m < 16, ∀ n < 16, hexDigit m = hexDigit n → m = n := by decide
  exact fun m small n other same => each m small n other same

theorem eq_of_digits_eq {width m n : Nat} (short : m >>> (4 * width) = 0)
    (other : n >>> (4 * width) = 0)
    (digits : ∀ i < width, (m >>> (4 * i)) % 16 = (n >>> (4 * i)) % 16) : m = n := by
  induction width generalizing m n with
  | zero => exact short.trans other.symm
  | succ width ih =>
    have shift (k i : Nat) : k >>> (4 * (i + 1)) = k >>> 4 >>> (4 * i) := by
      rw [Nat.mul_succ, Nat.add_comm, Nat.shiftRight_add]
    rw [shift] at short other
    have low : m % 16 = n % 16 := digits 0 (Nat.succ_pos width)
    have high : m >>> 4 = n >>> 4 := by
      apply ih short other
      intro i bound
      have digit := digits (i + 1) (Nat.succ_lt_succ bound)
      rwa [shift, shift] at digit
    rw [Nat.shiftRight_eq_div_pow, Nat.shiftRight_eq_div_pow] at high
    omega

theorem wordHex_injective : Function.Injective wordHex := by
  intro v w same
  have short (u : UInt32) : u.toNat >>> (4 * 8) = 0 := Nat.shiftRight_eq_zero _ _ u.toNat_lt
  apply UInt32.toNat_inj.mp
  apply eq_of_digits_eq (short v) (short w)
  intro i bound
  have listed : i ∈ [7, 6, 5, 4, 3, 2, 1, 0] := by
    simp only [List.mem_cons, List.not_mem_nil, or_false]
    omega
  have digit := List.map_inj_left.mp same i listed
  exact hexDigit_injOn (Nat.mod_lt _ (Nat.succ_pos 15)) (Nat.mod_lt _ (Nat.succ_pos 15)) digit

/-- Pieces of one length that each say what they were made from can be cut out of a row again. -/
theorem flatMap_injective {α β : Type} {f : α → List β} {width : Nat} (wide : 0 < width)
    (fixed : ∀ x, (f x).length = width) (injective : Function.Injective f) :
    Function.Injective (fun xs : List α => xs.flatMap f) := by
  intro xs
  induction xs with
  | nil =>
    intro ys same
    cases ys with
    | nil => rfl
    | cons y ys =>
      have lengths := congrArg List.length same
      simp only [List.flatMap_nil, List.flatMap_cons, List.length_nil, List.length_append,
        fixed y] at lengths
      omega
  | cons x xs ih =>
    intro ys same
    cases ys with
    | nil =>
      have lengths := congrArg List.length same
      simp only [List.flatMap_nil, List.flatMap_cons, List.length_nil, List.length_append,
        fixed x] at lengths
      omega
    | cons y ys =>
      simp only [List.flatMap_cons] at same
      obtain ⟨first, rest⟩ := List.append_inj same ((fixed x).trans (fixed y).symm)
      rw [injective first, ih rest]

theorem Words.hex_injective : Function.Injective Words.hex := by
  intro s t same
  have eight (w : UInt32) : (wordHex w).length = 8 := rfl
  have words := flatMap_injective (Nat.succ_pos 7) eight wordHex_injective same
  simp only [List.cons.injEq, and_true] at words
  obtain ⟨a, b, c, d, e, f, g, h⟩ := words
  cases s
  cases t
  simp_all

/-- The digests of contents in a row. -/
def row (contents : List ByteArray) : List Char := contents.flatMap (fun x => (digest x).hex)

/-- Where no two contents have one digest, a row tells which contents it was made from. -/
theorem row_injOn {contents : Set ByteArray} (apart : Set.InjOn digest contents) :
    Set.InjOn row {xs | ∀ x ∈ xs, x ∈ contents} := by
  intro xs inside ys outside same
  have digests : xs.map digest = ys.map digest := by
    apply flatMap_injective (Nat.succ_pos 63) Words.hex_length Words.hex_injective
    simpa only [row, List.flatMap_map] using same
  have undone {zs : List ByteArray} (within : ∀ x ∈ zs, x ∈ contents) :
      (zs.map digest).map (Function.invFunOn digest contents) = zs := by
    have each : zs.map (Function.invFunOn digest contents ∘ digest) = zs.map id :=
      List.map_congr_left fun x member => apart.leftInvOn_invFunOn (within x member)
    rw [List.map_map, each, List.map_id]
  rw [← undone inside, digests, undone outside]

end RouteForge.Sha256
