import Mediant.Proofs.Bracket.Growth

/-!
# Denominators and the ceiling

A refinement is made if an estimate of the next denominator, computed in doubles, is below the
ceiling; the next denominator itself is not looked at.  So the ceiling bounds the denominators only
as far as the estimate is not too small.

If all denominators are multiples of `2 ^ e`, those up to `2 ^ (53 + e)` are doubles, and below a
ceiling in that range the estimate is never too small (`Advance.next_denom_lt`).  The usual seed is
even, which gives one bit more than `2 ^ 53`.  Beyond, the estimate falls short by at most four
parts in `2 ^ 53` (`Advance.next_denom_mul_lt`).  `Capped` says both of one denominator, and
`capped_of_reached` says it of every denominator on the way.
-/

namespace Mediant

open Binary64

/-! ## Multiples of a power of two -/

lemma representable_mul_two_pow {n : ℤ} (h : |n| ≤ 2 ^ 53) (e : ℕ) :
    Representable (n * 2 ^ e) := by
  rw [Int.abs_eq_natAbs] at h
  refine ⟨n.natAbs * 2 ^ (e + unitScale), (short_of_le (by omega)).mul_two_pow _, ?_⟩
  rw [abs_mul, ← Int.cast_abs, Int.abs_eq_natAbs, Int.cast_natCast,
    abs_of_pos (by positivity : (0 : ℚ) < 2 ^ e), unitsPerOne_eq, pow_add]
  simp only [Nat.cast_mul, Nat.cast_pow, Nat.cast_ofNat]
  ring

lemma representable_of_dvd {j : ℤ} {e : ℕ} (hj : 0 ≤ j) (hdvd : 2 ^ e ∣ j)
    (hle : j ≤ 2 ^ (53 + e)) : Representable (j : ℚ) := by
  obtain ⟨n, rfl⟩ := hdvd
  have hpow : (0 : ℤ) < 2 ^ e := by positivity
  have hn : 0 ≤ n := nonneg_of_mul_nonneg_right hj hpow
  have hn' : n ≤ 2 ^ 53 := by
    rw [pow_add, mul_comm] at hle
    exact le_of_mul_le_mul_right hle hpow
  rw [Int.cast_mul, mul_comm]
  push_cast
  exact representable_mul_two_pow (by rwa [abs_of_nonneg hn]) e

/-- What is at least a multiple of `2 ^ e` is, after rounding, at least that multiple or
`2 ^ (53 + e)`. -/
lemma min_le_roundOff {q : ℚ} {j : ℤ} {e : ℕ} (hj : 0 ≤ j) (hdvd : 2 ^ e ∣ j) (h : j ≤ q) :
    ((min j (2 ^ (53 + e)) : ℤ) : ℚ) ≤ roundOff q := by
  refine (representable_of_dvd (le_min hj (by positivity)) ?_ (min_le_right _ _)).le_roundOff ?_
  · rcases min_choice j (2 ^ (53 + e)) with hmin | hmin <;> rw [hmin]
    · exact hdvd
    · exact pow_dvd_pow 2 (Nat.le_add_left e 53)
  · exact le_trans (by exact_mod_cast min_le_left _ _) h

/-! ## One refinement -/

namespace Bracket

/-- As long as denominators are doubles the estimate of the next one is not too small. -/
lemma Advance.next_denom_lt {m n : ℤ} {e : ℕ} {nearGap farGap : ℚ} {near far : Bound ℤ}
    (h : Advance m nearGap farGap near far n) (hm : m ≤ 2 ^ (53 + e)) (hnear : 0 < near.denom)
    (hfar : 0 < far.denom) (hneardvd : 2 ^ e ∣ near.denom) (hfardvd : 2 ^ e ∣ far.denom)
    (hnearlt : near.denom < m) (hfarlt : far.denom < m) :
    (n + 1) * near.denom + far.denom < m := by
  have hn := h.one_le
  have hround : ∀ {k : ℤ}, 0 < k → 2 ^ e ∣ k → k < m → roundOff k = k := fun hk hdvd hkm =>
    (representable_of_dvd hk.le hdvd (hkm.le.trans hm)).roundOff_eq
  have hguard := h.estimate_lt
  rw [estimate, hround hnear hneardvd hnearlt, hround hfar hfardvd hfarlt] at hguard
  -- the three roundings of the estimate, from the inside out
  have hcopies : ((min (n + 1) (2 ^ 53) : ℤ) : ℚ) ≤ roundOff (roundOff (farGap / nearGap) + 1) := by
    refine min_le_roundOff (e := 0) (by omega) (by simp) ?_
    have hfloor := h.le_ratio
    push_cast
    linarith
  generalize hk : min (n + 1) (2 ^ 53) = k at hcopies
  have hkpos : 0 < k := by omega
  have hkdvd : 2 ^ e ∣ k * near.denom := hneardvd.mul_left k
  have hprod : ((min (k * near.denom) (2 ^ (53 + e)) : ℤ) : ℚ) ≤
      roundOff (roundOff (roundOff (farGap / nearGap) + 1) * near.denom) := by
    refine min_le_roundOff (mul_nonneg hkpos.le hnear.le) hkdvd ?_
    push_cast
    exact mul_le_mul_of_nonneg_right hcopies (by exact_mod_cast hnear.le)
  have hjdvd : 2 ^ e ∣ min (k * near.denom) (2 ^ (53 + e)) := by
    rcases min_choice (k * near.denom) (2 ^ (53 + e)) with hmin | hmin <;> rw [hmin]
    · exact hkdvd
    · exact pow_dvd_pow 2 (Nat.le_add_left e 53)
  have hjpos : 0 < min (k * near.denom) (2 ^ (53 + e)) :=
    lt_min (mul_pos hkpos hnear) (by positivity)
  generalize hj : min (k * near.denom) (2 ^ (53 + e)) = j at hprod hjdvd hjpos
  have hsum : ((min (j + far.denom) (2 ^ (53 + e)) : ℤ) : ℚ) ≤
      roundOff (roundOff (roundOff (roundOff (farGap / nearGap) + 1) * near.denom) +
        far.denom) := by
    refine min_le_roundOff (by omega) (dvd_add hjdvd hfardvd) ?_
    push_cast
    linarith
  -- the guard excludes that one of the minima is the greatest number
  have hlt : min (j + far.denom) (2 ^ (53 + e)) < m := by exact_mod_cast hsum.trans_lt hguard
  have hjlt : j + far.denom < 2 ^ (53 + e) := by
    by_contra! hge
    rw [min_eq_right hge] at hlt
    omega
  have hjeq : j = k * near.denom := by omega
  have hkeq : k = n + 1 := by
    by_contra hne
    have hkmax : k = 2 ^ 53 := by omega
    have hbig : (2 : ℤ) ^ 53 * 2 ^ e ≤ k * near.denom := by
      rw [hkmax]
      exact mul_le_mul_of_nonneg_left (Int.le_of_dvd hnear hneardvd) (by positivity)
    rw [← pow_add] at hbig
    omega
  rw [← hkeq, ← hjeq]
  omega

end Bracket

/-! ## Along a run -/

/-- What a ceiling says of an even denominator: below the ceiling, if that is at most `2 ^ 54`, and
in any case above it by less than one part in `2 ^ 50`. -/
structure Capped (m d : ℤ) : Prop where
  two_dvd : 2 ∣ d
  lt_of_le : m ≤ 2 ^ 54 → d < m
  mul_lt : (2 ^ 51 - 1) * d < 2 ^ 51 * m

lemma Capped.of_lt {m d : ℤ} (hpos : 0 < d) (hdvd : 2 ∣ d) (h : d < m) : Capped m d :=
  ⟨hdvd, fun _ => h, by linarith⟩

/-- Up to the range of 64-bit integers, what exceeds the ceiling exceeds it by at most `2 ^ 12`. -/
lemma Capped.le_add {m d : ℤ} (h : Capped m d) (hm : m ≤ 2 ^ 63) : d ≤ m + 2 ^ 12 := by
  have := h.mul_lt
  omega

namespace Bracket

variable {m k : ℤ} {nearGap farGap : ℚ} {near far : Bound ℤ}

/-- **An advance keeps denominators under the ceiling.** -/
lemma Advance.capped (h : Advance m nearGap farGap near far k) (hnear : near.Sized)
    (hfar : far.Sized) (hcnear : Capped m near.denom) (hcfar : Capped m far.denom) :
    Capped m (Bound.combine k near far).denom ∧
      Capped m (Bound.combine 1 (Bound.combine k near far) near).denom := by
  have hk := h.one_le
  have hnearpos := hnear.denom_pos
  have hfarpos := hfar.denom_pos
  have hcopies : 0 < k * near.denom := mul_pos (by omega) hnearpos
  have hdvd : 2 ∣ k * near.denom + far.denom := dvd_add (hcnear.two_dvd.mul_left k) hcfar.two_dvd
  have hlt : m ≤ 2 ^ 54 → k * near.denom + far.denom + near.denom < m := by
    intro hm
    have hnext := h.next_denom_lt (e := 1) hm hnearpos hfarpos hcnear.two_dvd hcfar.two_dvd
      (hcnear.lt_of_le hm) (hcfar.lt_of_le hm)
    linarith
  have hmul : (2 ^ 51 - 1) * (k * near.denom + far.denom + near.denom) < 2 ^ 51 * m := by
    have hnext := h.next_denom_mul_lt hnear hfar
    have hcast : ((2 ^ 51 - 1) * (k * near.denom + far.denom + near.denom) : ℚ) < 2 ^ 51 * m := by
      linarith
    exact_mod_cast hcast
  simp only [Bound.combine, Denominator.combine_int, one_mul]
  refine ⟨⟨hdvd, fun hm => ?_, ?_⟩, dvd_add hdvd hcnear.two_dvd, hlt, hmul⟩
  · linarith [hlt hm]
  · linarith

variable {seed : ℤ} {t p : ℚ} {goal : Goal} {b c d : Bracket ℤ} {n : ℕ}

/-- Every refinement keeps both denominators under the ceiling. -/
theorem capped_of_refined (hb : Start seed t p m goal b) (hlow : Capped m b.low.denom)
    (hhigh : Capped m b.high.denom) (h : b.step goal = .ok (.refined d)) :
    Capped m d.low.denom ∧ Capped m d.high.denom := by
  have hsized := hb.sized
  rw [hb.step_eq] at h
  obtain ⟨k, ⟨rfl, hadv⟩ | ⟨rfl, hadv⟩⟩ :=
    refined_cases hb.denotes.precision_pos (Except.ok.inj h)
  · exact (hadv.capped hsized.low hsized.high hlow hhigh).symm
  · exact hadv.capped hsized.high hsized.low hhigh hlow

/-- Every denominator on the way of a run that starts from a cell is under the ceiling. -/
theorem capped_of_reached {i : ℤ} (hb : Start seed t p m goal (.cell seed i)) (hseed : 2 ∣ seed)
    (hlt : seed < m) (h : (cell seed i).Reaches goal n c) :
    Capped m c.low.denom ∧ Capped m c.high.denom := by
  induction h with
  | start =>
    have hcell : Capped m seed := .of_lt hb.seed_pos hseed hlt
    exact ⟨hcell, hcell⟩
  | step hprev hstep ih => exact capped_of_refined (hb.reached hprev) ih.1 ih.2 hstep

end Bracket
end Mediant
