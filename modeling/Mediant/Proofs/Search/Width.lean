import Mediant.Proofs.Bracket.Coarse
import Mediant.Proofs.Search.Ceiling
import Mediant.Proofs.Search.Enclosure
import Mediant.Proofs.Tensor.Filling

/-!
# The width of a result

The default ceiling is the largest signed integer of 64 bits, but it guards the denominators only.
The numerator comes out of the integer part that is put back at the end, and is as large as the
value times the denominator: a search for a value of some thousands can return a numerator beyond
64 bits, which no array of integers can hold.  `numerator_too_wide` is one that does, with the
default precision.

What can be said in general is how wide the pair is for its denominator (`PairWidth.num_bounds`),
from which it fits wherever the value times the denominator does.  With a precision of at least
`10 ^ (-11)` the precision bounds the denominators, and value and precision alone decide.
-/

namespace Mediant

open Binary64

/-! ## Pairs of 64 bits -/

/-- Numerator and denominator are signed integers of 64 bits, and the denominator is positive. -/
structure Fits (t : ℤ × ℤ) : Prop where
  abs_num_le : |t.1| ≤ 2 ^ 63 - 1
  denom_pos : 0 < t.2
  denom_le : t.2 ≤ 2 ^ 63 - 1

lemma Fits.storable {t : ℤ × ℤ} (h : Fits t) : Storable t := by
  have hnum := abs_le.mp h.abs_num_le
  have hpos := h.denom_pos
  have hle := h.denom_le
  rw [Storable]
  omega

lemma Storable.abs_num_le {t : ℤ × ℤ} (h : Storable t) : |t.1| ≤ 2 ^ 63 :=
  abs_le.mpr ⟨h.1.1, h.1.2.le⟩

lemma abs_num_bounds {n d : ℤ} {v e : ℚ} (hd : 0 < d) (h : |(n : ℚ) / d - v| ≤ e) :
    (|v| - e) * d ≤ |(n : ℚ)| ∧ |(n : ℚ)| ≤ (|v| + e) * d := by
  have hdpos : (0 : ℚ) < d := by exact_mod_cast hd
  have habs : |(n : ℚ)| = |(n : ℚ) / d| * d := by
    rw [abs_div, abs_of_pos hdpos, div_mul_cancel₀ _ hdpos.ne']
  have hbelow := abs_sub_abs_le_abs_sub v ((n : ℚ) / d)
  have habove := abs_sub_abs_le_abs_sub ((n : ℚ) / d) v
  rw [abs_sub_comm] at hbelow
  rw [habs]
  exact ⟨mul_le_mul_of_nonneg_right (by linarith) hdpos.le,
    mul_le_mul_of_nonneg_right (by linarith) hdpos.le⟩

namespace Query.Course

variable {q : Query ℤ} {v p : ℚ} {m : ℤ} {x : Binary64} {n : ℕ} {c : Bracket ℤ} {o : Outcome ℤ}
  {r : Approximant}

/-- Every answer is about as near as the width of a cell of the starting lattice. -/
lemma abs_fraction_sub_le_cell (h : q.Course v p m x n c o r) :
    |r.fraction.toRat - v| ≤ 1 / 2309 := by
  obtain ⟨hfraction, hlow⟩ := h.denoms_ge
  have hfraction' : (2310 : ℚ) ≤ r.fraction.denom := by exact_mod_cast hfraction
  have hlow' : (2310 : ℚ) ≤ r.low.denom := by exact_mod_cast hlow
  have hwidth : |r.fraction.toRat - r.low.toRat| ≤ 1 / 2310 := by
    rw [h.distance_eq, div_le_div_iff₀ (by positivity) (by norm_num)]
    have hprod := mul_le_mul hfraction' hlow' (by norm_num) (by linarith)
    linarith
  linarith [h.abs_fraction_sub_le]

/-- With a coarse precision, the precision bounds the denominator of the answer. -/
lemma denom_le_of_coarse (h : q.Course v p m x n c o r) (hp : coarsePrecision ≤ p) :
    (r.fraction.denom : ℚ) ≤ max 2310 (10000 / p) := by
  have hdenoms := h.start.denomsLe_of_reached hp h.reaches
  rw [h.returns.fraction.denom_eq]
  exact (h.stages.forall_bounds (P := fun a => (a.denom : ℚ) ≤ max 2310 (10000 / p))
    hdenoms.low hdenoms.high).1

/-! ### Lowest terms -/

lemma reduced_denom_pos (h : q.Course v p m x n c o r) : 0 < r.fraction.lowestTerms.2 :=
  lowestTerms_denom_pos _ h.denom_pos.ne'

lemma reduced_denom_le (h : q.Course v p m x n c o r) :
    r.fraction.lowestTerms.2 ≤ m + 2 ^ 12 :=
  (Fraction.lowestTerms_denom_le h.denom_pos).trans (h.capped.1.le_add h.admissible.ceiling_le)

lemma reduced_num_bounds (h : q.Course v p m x n c o r) :
    (|v| - 1 / 2309) * r.fraction.lowestTerms.2 ≤ |(r.fraction.lowestTerms.1 : ℚ)| ∧
      |(r.fraction.lowestTerms.1 : ℚ)| ≤ (|v| + 1 / 2309) * r.fraction.lowestTerms.2 := by
  refine abs_num_bounds h.reduced_denom_pos ?_
  rw [Fraction.lowestTerms_div h.denom_pos]
  exact h.abs_fraction_sub_le_cell

lemma fits (h : q.Course v p m x n c o r)
    (hle : max 1 (|v| + 1 / 2309) * r.fraction.lowestTerms.2 ≤ 2 ^ 63 - 1) :
    Fits r.fraction.lowestTerms := by
  have hpos : (0 : ℚ) ≤ r.fraction.lowestTerms.2 := by exact_mod_cast h.reduced_denom_pos.le
  have hone := (mul_le_mul_of_nonneg_right (le_max_left 1 (|v| + 1 / 2309)) hpos).trans hle
  have hnum := h.reduced_num_bounds.2.trans
    ((mul_le_mul_of_nonneg_right (le_max_right 1 (|v| + 1 / 2309)) hpos).trans hle)
  rw [one_mul] at hone
  exact ⟨by exact_mod_cast hnum, h.reduced_denom_pos, by exact_mod_cast hone⟩

/-- With a coarse precision, value and precision decide. -/
lemma fits_of_coarse (h : q.Course v p m x n c o r) (hp : coarsePrecision ≤ p)
    (hle : max 1 (|v| + 1 / 2309) * max 2310 (10000 / p) ≤ 2 ^ 63 - 1) :
    Fits r.fraction.lowestTerms := by
  have hreduced : (r.fraction.lowestTerms.2 : ℚ) ≤ r.fraction.denom := by
    exact_mod_cast Fraction.lowestTerms_denom_le h.denom_pos
  have hnonneg : 0 ≤ max 1 (|v| + 1 / 2309) := zero_le_one.trans (le_max_left _ _)
  apply h.fits
  calc max 1 (|v| + 1 / 2309) * r.fraction.lowestTerms.2
      ≤ max 1 (|v| + 1 / 2309) * max 2310 (10000 / p) :=
        mul_le_mul_of_nonneg_left (hreduced.trans (h.denom_le_of_coarse hp)) hnonneg
    _ ≤ 2 ^ 63 - 1 := hle

/-- For a value clearly below one the numerator fits, whatever the denominator is. -/
lemma reduced_num_le (h : q.Course v p m x n c o r) (hv : |v| ≤ 999 / 1000) :
    |r.fraction.lowestTerms.1| ≤ 2 ^ 63 - 1 := by
  have hdenom : (r.fraction.lowestTerms.2 : ℚ) ≤ 2 ^ 63 + 2 ^ 12 := by
    have hm := h.admissible.ceiling_le
    exact_mod_cast h.reduced_denom_le.trans (by omega)
  have hpos : (0 : ℚ) ≤ r.fraction.lowestTerms.2 := by exact_mod_cast h.reduced_denom_pos.le
  have hfactor : |v| + 1 / 2309 ≤ 9995 / 10000 := by linarith
  have hnum : |(r.fraction.lowestTerms.1 : ℚ)| ≤ 2 ^ 63 - 1 := by
    linarith [h.reduced_num_bounds.2, mul_le_mul_of_nonneg_right hfactor hpos]
  exact_mod_cast hnum

end Query.Course

/-! ## The law -/

/-- How wide the pair of a search for `v` with the precision `p` is, under the default ceiling. -/
structure PairWidth (s : Settings) (a : Arguments) (v p : ℚ) : Prop where
  exists_pair : ∃ t, nearbyPair s false a = .ok t
  /-- The ceiling bounds the denominator, but for some units in the last place of a double. -/
  denom_le {strict : Bool} {t : Reported (ℤ × ℤ)} : nearbyPair s strict a = .ok t →
    0 < t.value.2 ∧ t.value.2 ≤ 2 ^ 63 - 1 + 2 ^ 12
  /-- The numerator is as large as the value times the denominator. -/
  num_bounds {strict : Bool} {t : Reported (ℤ × ℤ)} : nearbyPair s strict a = .ok t →
    (|v| - 1 / 2309) * t.value.2 ≤ |(t.value.1 : ℚ)| ∧
      |(t.value.1 : ℚ)| ≤ (|v| + 1 / 2309) * t.value.2
  /-- For a value clearly below one the numerator fits in any case. -/
  num_le {strict : Bool} {t : Reported (ℤ × ℤ)} : nearbyPair s strict a = .ok t →
    |v| ≤ 999 / 1000 → |t.value.1| ≤ 2 ^ 63 - 1
  fits {strict : Bool} {t : Reported (ℤ × ℤ)} : nearbyPair s strict a = .ok t →
    max 1 (|v| + 1 / 2309) * t.value.2 ≤ 2 ^ 63 - 1 → Fits t.value
  fits_of_coarse {strict : Bool} {t : Reported (ℤ × ℤ)} : nearbyPair s strict a = .ok t →
    coarsePrecision ≤ p → max 1 (|v| + 1 / 2309) * max 2310 (10000 / p) ≤ 2 ^ 63 - 1 →
      Fits t.value
  /-- A pair that fits is stored in rows of integers, by every library of arrays. -/
  entry {strict : Bool} {t : Reported (ℤ × ℤ)} {α δ ι : Type} {lib : ArrayLibrary α δ ι}
    {read : ArrayLibrary.Reading α δ ι} {n place : ℕ} {rows : ι × ι} {x : Binary64} :
    lib.Lawful read → read.AreRows n rows → place < n → a.value = .double x →
      nearbyPair s strict a = .ok t → Fits t.value →
        ∃ rows', lib.storeNearby s strict a rows place x = .ok ⟨rows', t.warnings⟩ ∧
          read.Filled n rows rows' place [t.value]
  /-- Where value times denominator is too large, the pair is refused. -/
  entry_refused {strict : Bool} {t : Reported (ℤ × ℤ)} {α δ ι : Type} {lib : ArrayLibrary α δ ι}
    {read : ArrayLibrary.Reading α δ ι} {n place : ℕ} {rows : ι × ι} {x : Binary64} :
    lib.Lawful read → read.AreRows n rows → place < n → a.value = .double x →
      nearbyPair s strict a = .ok t → 2 ^ 63 < (|v| - 1 / 2309) * t.value.2 →
        lib.storeNearby s strict a rows place x = .error .entryTooLarge

lemma Arguments.with_value (a : Arguments) {v : Value} (h : a.value = v) :
    { a with value := v } = a := by
  rw [← h]

/-- **The pair is as wide as value times denominator**, and fits where that does. -/
theorem pairWidth_of_accepted {flag : Bool} {a : Arguments} {v p : ℚ} {policy : Splitting}
    (ha : a.Accepted (.rational leastPrecision) v p 0x7fffffffffffffff policy) :
    PairWidth { warnOnOverflow := .boolean flag } a v p := by
  have hcourse : ∀ {strict t}, nearbyPair { warnOnOverflow := .boolean flag } strict a = .ok t →
      ∃ q x n c o r, Query.Course q v p 0x7fffffffffffffff x n c o r ∧
        t.value = r.fraction.lowestTerms := by
    intro strict t ht
    obtain ⟨r, hr, rfl⟩ := nearbyPair_eq_ok_iff.mp ht
    obtain ⟨q, x, n, c, o, -, h⟩ := ha.exists_course hr
    exact ⟨q, x, n, c, o, r.value, h, rfl⟩
  constructor
  · obtain ⟨r, hr⟩ := ha.exists_search flag
    exact ⟨_, nearbyPair_eq_ok_iff.mpr ⟨r, hr, rfl⟩⟩
  · intro strict t ht
    obtain ⟨q, x, n, c, o, r, h, hvalue⟩ := hcourse ht
    rw [hvalue]
    exact ⟨h.reduced_denom_pos, h.reduced_denom_le⟩
  · intro strict t ht
    obtain ⟨q, x, n, c, o, r, h, hvalue⟩ := hcourse ht
    rw [hvalue]
    exact h.reduced_num_bounds
  · intro strict t ht hv
    obtain ⟨q, x, n, c, o, r, h, hvalue⟩ := hcourse ht
    rw [hvalue]
    exact h.reduced_num_le hv
  · intro strict t ht hle
    obtain ⟨q, x, n, c, o, r, h, hvalue⟩ := hcourse ht
    rw [hvalue] at hle ⊢
    exact h.fits hle
  · intro strict t ht hp hle
    obtain ⟨q, x, n, c, o, r, h, hvalue⟩ := hcourse ht
    rw [hvalue]
    exact h.fits_of_coarse hp hle
  · intro strict t α δ ι lib read n place rows x hlib hrows hplace hx ht hfit
    rw [← a.with_value hx] at ht
    exact hlib.exists_storeNearby_eq_ok hrows hplace ht hfit.storable
  · intro strict t α δ ι lib read n place rows x hlib hrows hplace hx ht hlt
    obtain ⟨q, x', n', c, o, r, h, hvalue⟩ := hcourse ht
    rw [← a.with_value hx] at ht
    refine hlib.storeNearby_eq_error hrows hplace ht fun hstorable => ?_
    have hcast : |(t.value.1 : ℚ)| ≤ 2 ^ 63 := by exact_mod_cast hstorable.abs_num_le
    rw [hvalue] at hlt hcast
    linarith [h.reduced_num_bounds.1]

/-- The double nearest to `-π`, floored. -/
theorem pairWidth_negPi :
    (Arguments.negPi 0x7fffffffffffffff .floor).Accepted (.rational leastPrecision) negPi
        (1 / 2 ^ 40) 0x7fffffffffffffff .floor ∧
      PairWidth { warnOnOverflow := .boolean true } (.negPi 0x7fffffffffffffff .floor) negPi
        (1 / 2 ^ 40) := by
  have ha := accepted_negPi 0x7fffffffffffffff .floor (by norm_num) (by norm_num)
  exact ⟨ha, pairWidth_of_accepted ha⟩

/-- The double `5000 + 19 / 2 ^ 40` with all bounds at their defaults: its numerator needs more than
64 bits, and an array that has it as its entry is refused. -/
theorem numerator_too_wide :
    (∃ t, nearbyPair {} false { value := .double (.ofBits 0x40B3880000000013) } = .ok t ∧
      t.value = (9596711094328083167, 1919342218865610) ∧ ¬Fits t.value) ∧
    rationalize {} false { value := .nothing }
        (.array ⟨[1], #[.real .double (.ofBits 0x40B3880000000013)], .plain⟩) =
      .error .entryTooLarge := by
  have hpair : ∃ t, nearbyPair {} false { value := .double (.ofBits 0x40B3880000000013) } = .ok t ∧
      t.value = (9596711094328083167, 1919342218865610) :=
    Except.exists_of_toOption_map_eq_some
      (x := nearbyPair {} false { value := .double (.ofBits 0x40B3880000000013) })
      (f := Reported.value) (by decide +kernel)
  obtain ⟨t, ht, hvalue⟩ := hpair
  refine ⟨⟨t, ht, hvalue, ?_⟩, ?_⟩
  · intro hfits
    have hle := hfits.abs_num_le
    rw [hvalue] at hle
    norm_num at hle
  · have hlarge : ¬Storable t.value := by
      rw [hvalue, Storable]
      norm_num
    have hstore := Tensor.lawful.storeNearby_eq_error (Tensor.lawful.areRows_empty 1)
      Nat.zero_lt_one (a := { value := .nothing }) ht hlarge
    have hrow : Tensor.library.ravel (Tensor.library.convert
        ⟨[1], #[.real .double (.ofBits 0x40B3880000000013)], .plain⟩) =
      [.ofBits 0x40B3880000000013] := by
      simp [Tensor.library, Tensor.toDoubles, Tensor.map, Tensor.viewed, Tensor.viewedShape,
        View.shape, indices, Tensor.entry, View.source, position, Entry.nearest]
    rw [rationalize, Except.map_eq_error_iff, ArrayLibrary.rationalize, hrow,
      List.length_singleton, ArrayLibrary.fill, hstore, Except.bind_error, Except.bind_error]

end Mediant
