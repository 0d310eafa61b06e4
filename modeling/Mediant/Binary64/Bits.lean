import Mediant.Binary64.Basic

/-!
# The interchange encoding of doubles

A double is exchanged as a word of 64 bits: one sign bit, eleven exponent bits, and the low 52
bits of the significand.  The exponent field is zero for subnormal values and zeros and one more
than the scale for all other finite values; its largest value marks infinities and not-a-number.

`ofBits` decodes every word, and `toBits` encodes a double, all not-a-numbers by one word.
Decoding undoes encoding (`ofBits_toBits`).
-/

namespace Mediant
namespace Binary64

/-- The word with the given fields. -/
def pack (negative : Bool) (exponent fraction : Nat) : Nat :=
  negative.toNat * 0x8000000000000000 + exponent * 0x10000000000000 + fraction

/-- The scale of the lowest binades is in range. -/
theorem lowest_scale_le : 0 ≤ 2045 := Nat.zero_le 2045

/-- Every exponent field but the largest belongs to a scale. -/
theorem exponent_pred_le {exponent : Nat} (he : exponent < 2048) (h1 : exponent ≠ 2047) :
    exponent - 1 ≤ 2045 := by
  omega

/-- A significand with its highest bit has 53 bits. -/
theorem normal_significand_lt {fraction : Nat} (hf : fraction < 0x10000000000000) :
    0x10000000000000 + fraction < 0x20000000000000 := by
  omega

/-- The double with the given fields. -/
def ofFields (negative : Bool) (exponent fraction : Nat) (he : exponent < 2048)
    (hf : fraction < 0x10000000000000) : Binary64 :=
  if h0 : exponent = 0 then
    .finite ⟨negative, fraction, 0, Nat.lt_trans hf (by decide), lowest_scale_le, .inl rfl⟩
  else if h1 : exponent = 2047 then
    if fraction = 0 then .infinity negative else .nan
  else
    .finite ⟨negative, 0x10000000000000 + fraction, exponent - 1, normal_significand_lt hf,
      exponent_pred_le he h1, .inr (Nat.le_add_right _ _)⟩

/-- The double that a word encodes.  Bits above the lowest 64 are ignored. -/
def ofBits (word : Nat) : Binary64 :=
  ofFields (decide (word / 0x8000000000000000 % 2 = 1)) (word / 0x10000000000000 % 2048)
    (word % 0x10000000000000) (Nat.mod_lt _ (by decide)) (Nat.mod_lt _ (by decide))

/-- The word that encodes a double. -/
def toBits : Binary64 → Nat
  | .nan => pack false 2047 0x8000000000000
  | .infinity negative => pack negative 2047 0
  | .finite x =>
    if x.significand < 0x10000000000000 then pack x.negative 0 x.significand
    else pack x.negative (x.scale + 1) (x.significand - 0x10000000000000)

theorem ofBits_pack (negative : Bool) {exponent fraction : Nat} (he : exponent < 2048)
    (hf : fraction < 0x10000000000000) :
    ofBits (pack negative exponent fraction) = ofFields negative exponent fraction he hf := by
  have hsign :
      decide (pack negative exponent fraction / 0x8000000000000000 % 2 = 1) = negative := by
    cases negative <;> simp [pack] <;> omega
  have hexponent : pack negative exponent fraction / 0x10000000000000 % 2048 = exponent := by
    cases negative <;> simp [pack] <;> omega
  have hfraction : pack negative exponent fraction % 0x10000000000000 = fraction := by
    cases negative <;> simp [pack] <;> omega
  simp only [ofBits, hsign, hexponent, hfraction]

/-- Decoding undoes encoding. -/
theorem ofBits_toBits (x : Binary64) : ofBits x.toBits = x := by
  match x with
  | .nan =>
    rw [toBits, ofBits_pack false (by decide) (by decide)]
    rfl
  | .infinity negative =>
    rw [toBits, ofBits_pack negative (by decide) (by decide)]
    rfl
  | .finite ⟨negative, significand, scale, hlt, hle, hnormal⟩ =>
    unfold toBits
    dsimp only
    split
    · rename_i hlow
      have hscale : scale = 0 := hnormal.resolve_right (Nat.not_le.mpr hlow)
      subst hscale
      rw [ofBits_pack negative (by decide) hlow]
      rfl
    · rename_i hhigh
      rw [ofBits_pack negative (by omega) (by omega)]
      simp only [ofFields, Nat.add_one_ne_zero, dite_false]
      rw [dif_neg (by omega)]
      simp only [finite.injEq, Finite.mk.injEq, true_and]
      omega

end Binary64
end Mediant
