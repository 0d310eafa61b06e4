import Mediant.Proofs.Faults
import Mediant.Search

/-!
# Runs as sequences of steps

`Bracket.run` counts down a limit and hides the brackets that it passes.  Here they are brought
into view: `b.Reaches goal n c` says that `n` refinements lead from `b` to `c`, and
`c.Ends goal n o` that a step at `c`, after `n` refinements, ends the run with the outcome `o`.

A run that returns has passed along such a sequence (`exists_reaches_of_run_eq_ok`), so what every
refinement preserves holds of its last bracket.  There is only one such sequence
(`Reaches.exists_rest`).  Conversely a run returns if no step along the way fails and the limit is
never met (`exists_run_eq_ok`).
-/

namespace Mediant
namespace Bracket

variable {δ : Type} [Denominator δ] {goal : Goal} {b c d : Bracket δ} {i n fuel : ℕ}

/-- `n` refinements lead from one bracket to another. -/
inductive Reaches (goal : Goal) (b : Bracket δ) : ℕ → Bracket δ → Prop
  | start : Reaches goal b 0 b
  | step {n : ℕ} {c d : Bracket δ} :
      Reaches goal b n c → c.step goal = .ok (.refined d) → Reaches goal b (n + 1) d

/-- The outcome of a run whose next step, after `n` refinements, is not a refinement. -/
inductive Ends (goal : Goal) (c : Bracket δ) (n : ℕ) : Outcome δ → Prop
  | hitHigh : c.step goal = .ok .hitHigh → Ends goal c n ⟨c, n, false⟩
  | hitLow : c.step goal = .ok .hitLow → Ends goal c n ⟨c.swap, n, false⟩
  | blocked : c.step goal = .ok .blocked → Ends goal c n ⟨c, n, true⟩

/-- A sequence of refinements can be extended at its beginning. -/
lemma Reaches.head (hstep : b.step goal = .ok (.refined c)) (h : c.Reaches goal n d) :
    b.Reaches goal (n + 1) d := by
  induction h with
  | start => exact .step .start hstep
  | step _ hlast ih => exact .step ih hlast

lemma Reaches.exists_head (h : b.Reaches goal n d) : n = 0 ∧ d = b ∨
    ∃ k c, n = k + 1 ∧ b.step goal = .ok (.refined c) ∧ c.Reaches goal k d := by
  induction h with
  | start => exact .inl ⟨rfl, rfl⟩
  | step _ hlast ih =>
    rcases ih with ⟨rfl, rfl⟩ | ⟨k, c, rfl, hfirst, hrest⟩
    · exact .inr ⟨0, _, rfl, hlast, .start⟩
    · exact .inr ⟨k + 1, c, rfl, hfirst, hrest.step hlast⟩

/-- What the first bracket has and every refinement preserves, the last bracket has. -/
lemma Reaches.invariant {P : Bracket δ → Prop} (h : b.Reaches goal n c) (hb : P b)
    (hP : ∀ {c d : Bracket δ}, P c → c.step goal = .ok (.refined d) → P d) : P c := by
  induction h with
  | start => exact hb
  | step _ hlast ih => exact hP ih hlast

/-! ## One turn of a run -/

lemma run_of_refined (h : b.step goal = .ok (.refined c)) :
    b.run goal i (fuel + 1) = c.run goal (i + 1) fuel := by
  rw [run, h, Except.bind_ok]

lemma Ends.run_eq {o : Outcome δ} (h : b.Ends goal i o) : b.run goal i (fuel + 1) = .ok o := by
  cases h with
  | hitHigh h => simp only [run, h, Except.bind_ok, Except.pure_eq]
  | hitLow h => simp only [run, h, Except.bind_ok, Except.pure_eq]
  | blocked h => simp only [run, h, Except.bind_ok, Except.pure_eq]

/-- No refinement leads away from a bracket at which a run ends. -/
lemma Reaches.eq_of_ends {o : Outcome δ} (hends : b.Ends goal i o) (h : b.Reaches goal n c) :
    n = 0 ∧ c = b := by
  induction h with
  | start => exact ⟨rfl, rfl⟩
  | step _ hlast ih =>
    rw [ih.2] at hlast
    cases hends with
    | hitHigh hstep => rw [hstep] at hlast; cases hlast
    | hitLow hstep => rw [hstep] at hlast; cases hlast
    | blocked hstep => rw [hstep] at hlast; cases hlast

/-- All refinements lie on one way: from any bracket on it they lead on to its end. -/
lemma Reaches.exists_rest {k : ℕ} {o : Outcome δ} (hreach : b.Reaches goal n c)
    (hlast : b.Reaches goal k d) (hends : d.Ends goal i o) :
    ∃ j, k = n + j ∧ c.Reaches goal j d := by
  induction hreach with
  | start => exact ⟨k, (Nat.zero_add k).symm, hlast⟩
  | @step n c c' _ hstep ih =>
    obtain ⟨j, rfl, hrest⟩ := ih
    rcases hrest.exists_head with ⟨-, rfl⟩ | ⟨j, e, rfl, hfirst, hrest⟩
    · -- the way ends at `c`, so `c'` cannot be on it
      exact absurd (Reaches.eq_of_ends hends (Reaches.start.step hstep)).1 (Nat.succ_ne_zero 0)
    · rw [hstep] at hfirst
      cases hfirst
      exact ⟨j, by omega, hrest⟩

lemma Ends.unique {o o' : Outcome δ} (h : b.Ends goal i o) (h' : b.Ends goal i o') : o = o' := by
  have hrun : b.run goal i 1 = .ok o := h.run_eq
  rw [h'.run_eq] at hrun
  exact (Except.ok.inj hrun).symm

lemma refined_or_ends {out : Step δ} (h : b.step goal = .ok out) (i : ℕ) :
    (∃ c, b.step goal = .ok (.refined c)) ∨ ∃ o, b.Ends goal i o := by
  cases out with
  | refined c => exact .inl ⟨c, h⟩
  | hitHigh => exact .inr ⟨_, .hitHigh h⟩
  | hitLow => exact .inr ⟨_, .hitLow h⟩
  | blocked => exact .inr ⟨_, .blocked h⟩

/-! ## Whole runs -/

/-- A run that returns ends at a bracket that it has reached. -/
theorem exists_reaches_of_run_eq_ok {o : Outcome δ} (h : b.run goal i fuel = .ok o) :
    ∃ n c, b.Reaches goal n c ∧ c.Ends goal (i + n) o := by
  induction fuel generalizing b i with
  | zero => cases h
  | succ fuel ih =>
    have hok : ∃ out, b.step goal = .ok out := by
      rw [run] at h
      obtain ⟨out, hout, -⟩ := Except.bind_eq_ok.mp h
      exact ⟨out, hout⟩
    obtain ⟨out, hout⟩ := hok
    rcases refined_or_ends hout i with ⟨c, hc⟩ | ⟨o', ho'⟩
    · rw [run_of_refined hc] at h
      obtain ⟨n, d, hreach, hends⟩ := ih h
      refine ⟨n + 1, d, hreach.head hc, ?_⟩
      rwa [show i + (n + 1) = i + 1 + n by ring]
    · rw [ho'.run_eq] at h
      rw [← Except.ok.inj h]
      exact ⟨0, b, .start, ho'⟩

/-- A run returns if every step along the way succeeds and fewer refinements are possible than the
limit admits. -/
theorem exists_run_eq_ok
    (h : ∀ n c, b.Reaches goal n c → n < fuel ∧ ∃ out, c.step goal = .ok out) :
    ∃ o, b.run goal i fuel = .ok o := by
  induction fuel generalizing b i with
  | zero => exact absurd (h 0 b .start).1 (Nat.not_lt_zero 0)
  | succ fuel ih =>
    obtain ⟨-, out, hout⟩ := h 0 b .start
    rcases refined_or_ends hout i with ⟨c, hc⟩ | ⟨o, ho⟩
    · rw [run_of_refined hc]
      apply ih
      intro n d hd
      obtain ⟨hn, hd⟩ := h (n + 1) d (hd.head hc)
      exact ⟨Nat.lt_of_succ_lt_succ hn, hd⟩
    · exact ⟨o, ho.run_eq⟩

end Bracket
end Mediant
