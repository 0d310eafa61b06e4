import Mediant.Proofs.Bracket.Growth

/-!
# Runs for a tighter goal

Precision and ceiling have no part in how a bracket is refined; they only decide where a run stops.
A goal with a finer precision or a higher ceiling therefore makes the same refinements and perhaps
some more: what the one run reaches the other reaches too (`Goal.Tightens.reaches`), and from the
bracket where the one stops the other goes on (`Goal.Tightens.exists_reaches`).

A higher ceiling alone changes nothing for a run that was not stopped (`Goal.Tightens.run_eq`), and
a finer precision alone changes nothing for a run that was (`Goal.Tightens.ends_of_overflowed`).
All this holds of denominators of any kind.

With integers, every refinement that is made in addition makes both denominators larger than both
were before (`Start.denoms_lt`).
-/

namespace Mediant

open Binary64

/-! ## The order of extended numbers -/

namespace Extended

variable {x y z : Extended}

lemma lt_of_lt_of_le (h : x.lt y = true) (h' : y.le z = true) : x.lt z = true := by
  cases x <;> cases y <;> cases z <;> grind [lt, le, eq]

lemma le_trans (h : x.le y = true) (h' : y.le z = true) : x.le z = true := by
  cases x <;> cases y <;> cases z <;> grind [lt, le, eq]

end Extended

/-! ## Goals -/

/-- A goal with the same target that asks for no less: its precision is as fine, and its ceiling as
high. -/
structure Goal.Tightens (fine coarse : Goal) : Prop where
  target_eq : fine.target = coarse.target
  precision_le : fine.precision.le coarse.precision = true
  ceiling_le : coarse.ceiling.le fine.ceiling = true

namespace Bracket

variable {δ : Type} [Denominator δ] {b : Bracket δ}

/-! ## One step -/

/-- What a ceiling does not stop, a higher one does not stop. -/
lemma refineUnder_of_le {ceiling ceiling' : Extended} {ratio : Binary64} {near far : Bound δ}
    {next : ℤ → Bracket δ} {out : Step δ} (hle : ceiling.le ceiling' = true)
    (h : refineUnder ceiling ratio near far next = .ok out) (hout : out ≠ .blocked) :
    refineUnder ceiling' ratio near far next = .ok out := by
  unfold refineUnder at h ⊢
  obtain ⟨guard, hguard, h⟩ := Except.bind_eq_ok.mp h
  split at h
  · exact absurd (Except.ok.inj h).symm hout
  · rename_i hbelow
    have hbelow' : ¬ceiling'.le guard.toExtended = true :=
      fun hreached => hbelow (Extended.le_trans hle hreached)
    rw [hguard, Except.bind_ok, if_neg hbelow', h]

lemma refine_of_le {ceiling ceiling' : Extended} {below above : Binary64} {out : Step δ}
    (hle : ceiling.le ceiling' = true) (h : b.refine ceiling below above = .ok out)
    (hout : out ≠ .blocked) : b.refine ceiling' below above = .ok out := by
  unfold refine at h ⊢
  obtain ⟨down, hdown, h⟩ := Except.bind_eq_ok.mp h
  obtain ⟨up, hup, h⟩ := Except.bind_eq_ok.mp h
  rw [hdown, Except.bind_ok, hup, Except.bind_ok]
  split at h
  · rename_i hdir
    rw [if_pos hdir, refineUnder_of_le hle h hout]
  · rename_i hdir
    rw [if_neg hdir, refineUnder_of_le hle h hout]

end Bracket

namespace Goal.Tightens

open Mediant.Bracket

variable {δ : Type} [Denominator δ] {fine coarse : Goal} {b c d : Bracket δ} {i n k fuel : ℕ}
  {o o' : Outcome δ} {out : Step δ}

lemma lt_precision (h : fine.Tightens coarse) {x : Binary64}
    (hx : x.lt coarse.precision = false) : x.lt fine.precision = false := by
  rw [← Bool.not_eq_true] at hx ⊢
  exact fun hlt => hx (Extended.lt_of_lt_of_le hlt h.precision_le)

/-- A refinement is made for the tighter goal as well. -/
theorem step_of_refined (h : fine.Tightens coarse) (hstep : c.step coarse = .ok (.refined d)) :
    c.step fine = .ok (.refined d) := by
  obtain ⟨below, above, hbelow, habove, hhigh, hlow, hrefine⟩ :=
    exists_refine_eq_of_step hstep nofun nofun
  have hrefine' := refine_of_le h.ceiling_le hrefine nofun
  rw [step_eq_ok_iff, h.target_eq]
  exact ⟨below, above, hbelow, habove,
    .inr (.inr ⟨h.lt_precision hhigh, h.lt_precision hlow, hrefine'⟩)⟩

/-- With the same precision, only a step that the ceiling blocks can turn out otherwise. -/
theorem step_of_ne_blocked (h : fine.Tightens coarse)
    (hprecision : fine.precision.toExtended = coarse.precision.toExtended)
    (hstep : c.step coarse = .ok out) (hout : out ≠ .blocked) : c.step fine = .ok out := by
  have hlt : ∀ x : Binary64, x.lt fine.precision = x.lt coarse.precision := fun x => by
    rw [Binary64.lt, Binary64.lt, hprecision]
  obtain ⟨below, above, hbelow, habove, hcases⟩ := step_eq_ok_iff.mp hstep
  rw [step_eq_ok_iff, h.target_eq]
  simp only [hlt]
  refine ⟨below, above, hbelow, habove, ?_⟩
  rcases hcases with hhit | hhit | ⟨hhigh, hlow, hrefine⟩
  · exact .inl hhit
  · exact .inr (.inl hhit)
  · exact .inr (.inr ⟨hhigh, hlow, refine_of_le h.ceiling_le hrefine hout⟩)

/-- With the same ceiling, only a step that finds a bound near enough can turn out otherwise. -/
theorem step_of_blocked (h : fine.Tightens coarse) (hceiling : fine.ceiling = coarse.ceiling)
    (hstep : c.step coarse = .ok .blocked) : c.step fine = .ok .blocked := by
  obtain ⟨below, above, hbelow, habove, hhigh, hlow, hrefine⟩ :=
    exists_refine_eq_of_step hstep nofun nofun
  rw [step_eq_ok_iff, h.target_eq, hceiling]
  exact ⟨below, above, hbelow, habove,
    .inr (.inr ⟨h.lt_precision hhigh, h.lt_precision hlow, hrefine⟩)⟩

/-! ## Runs -/

/-- What is reached for one goal is reached for a tighter one, with as many refinements. -/
theorem reaches (h : fine.Tightens coarse) (hreach : b.Reaches coarse n c) :
    b.Reaches fine n c := by
  induction hreach with
  | start => exact .start
  | step _ hstep ih => exact ih.step (h.step_of_refined hstep)

/-- **The run for the tighter goal goes on where the other one stops.** -/
theorem exists_reaches (h : fine.Tightens coarse) (hreach : b.Reaches coarse n c)
    (hlast : b.Reaches fine k d) (hends : d.Ends fine k o) :
    ∃ j, k = n + j ∧ c.Reaches fine j d :=
  (h.reaches hreach).exists_rest hlast hends

/-- With the same precision, a run that was not stopped ends in the same way. -/
lemma ends_of_not_overflowed (h : fine.Tightens coarse)
    (hprecision : fine.precision.toExtended = coarse.precision.toExtended)
    (hends : c.Ends coarse n o) (hover : o.overflowed = false) : c.Ends fine n o := by
  cases hends with
  | hitHigh hstep => exact .hitHigh (h.step_of_ne_blocked hprecision hstep nofun)
  | hitLow hstep => exact .hitLow (h.step_of_ne_blocked hprecision hstep nofun)
  | blocked => cases hover

/-- With the same ceiling, a run that was stopped is stopped in the same way. -/
lemma ends_of_overflowed (h : fine.Tightens coarse) (hceiling : fine.ceiling = coarse.ceiling)
    (hends : c.Ends coarse n o) (hover : o.overflowed = true) : c.Ends fine n o := by
  cases hends with
  | hitHigh => cases hover
  | hitLow => cases hover
  | blocked hstep => exact .blocked (h.step_of_blocked hceiling hstep)

/-- Two runs of which one reaches the bracket where the other one ends have one outcome. -/
lemma outcome_eq (h : fine.Tightens coarse) (hreach : b.Reaches coarse n c)
    (hends : c.Ends fine n o) (hlast : b.Reaches fine k d) (hends' : d.Ends fine k o') :
    o' = o := by
  obtain ⟨j, rfl, hrest⟩ := h.exists_reaches hreach hlast hends'
  obtain ⟨rfl, rfl⟩ := hrest.eq_of_ends hends
  exact hends'.unique hends

/-- **A higher ceiling does not change a run that was not stopped.** -/
theorem run_eq (h : fine.Tightens coarse)
    (hprecision : fine.precision.toExtended = coarse.precision.toExtended)
    (hrun : b.run coarse i fuel = .ok o) (hover : o.overflowed = false) :
    b.run fine i fuel = .ok o := by
  induction fuel generalizing b i with
  | zero => cases hrun
  | succ fuel ih =>
    obtain ⟨n, c, hreach, hends⟩ := exists_reaches_of_run_eq_ok hrun
    rcases hreach.exists_head with ⟨rfl, rfl⟩ | ⟨k, d, rfl, hfirst, hrest⟩
    · exact (h.ends_of_not_overflowed hprecision hends hover).run_eq
    · rw [run_of_refined hfirst] at hrun
      rw [run_of_refined (h.step_of_refined hfirst)]
      exact ih hrun

end Goal.Tightens

/-! ## The denominators of further refinements -/

namespace Bracket

variable {seed : ℤ} {m t p : ℚ} {goal : Goal} {b c d : Bracket ℤ} {n : ℕ}

lemma denoms_lt_of_refined (hs : 0 < seed) (hb : b.Regular seed) (hp : 0 < p)
    (h : exactStep t p m b = .refined d) :
    max b.low.denom b.high.denom < min d.low.denom d.high.denom := by
  have hlow := hb.low_denom_pos hs
  have hhigh := hb.high_denom_pos hs
  obtain ⟨k, ⟨rfl, hadv⟩ | ⟨rfl, hadv⟩⟩ := refined_cases hp h
  · have hcopies : b.low.denom ≤ k * b.low.denom := le_mul_of_one_le_left hlow.le hadv.one_le
    simp only [refineHigh, Bound.combine, Denominator.combine_int]
    omega
  · have hcopies : b.high.denom ≤ k * b.high.denom := le_mul_of_one_le_left hhigh.le hadv.one_le
    simp only [refineLow, Bound.combine, Denominator.combine_int]
    omega

/-- Both denominators are larger after any number of refinements, but none. -/
theorem Start.denoms_lt (hb : Start seed t p m goal b) (h : b.Reaches goal n c) (hn : n ≠ 0) :
    max b.low.denom b.high.denom < min c.low.denom c.high.denom := by
  induction h with
  | start => exact absurd rfl hn
  | @step n c d hreach hstep ih =>
    have hc := hb.reached hreach
    rw [hc.step_eq] at hstep
    have hlt := denoms_lt_of_refined hc.seed_pos hc.bounded.toRegular hc.denotes.precision_pos
      (Except.ok.inj hstep)
    rcases hreach.exists_head with ⟨-, rfl⟩ | ⟨k, e, rfl, -, -⟩
    · exact hlt
    · have hprev := ih (Nat.succ_ne_zero k)
      omega

end Bracket
end Mediant
