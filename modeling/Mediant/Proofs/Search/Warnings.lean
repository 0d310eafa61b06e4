import Mediant.Proofs.Search.Checks

/-!
# What a search warns of

A search that returned has warned once if it was stopped and the flag for it is set, and otherwise
not at all.  This is so under all settings, with a starting lattice of integers as well as one of
doubles.
-/

namespace Mediant

open Binary64

variable {s : Settings} {strict : Bool} {a : Arguments} {r : Reported Approximant} {x : Binary64}

/-- The warnings of a search for a double that returned. -/
structure Warned (s : Settings) (x : Binary64) (r : Reported Approximant) : Prop where
  /-- A search that was stopped has warned of that, if the flag is set. -/
  once : r.value.overflowed = true → s.warnOnOverflow.truth = .ok true →
    ∃ w, r.warnings = [w] ∧ w.value = x ∧ w.iterations = r.value.iterations
  /-- There is no other reason to warn. -/
  silent : (r.value.overflowed = true → s.warnOnOverflow.truth ≠ .ok true) → r.warnings = []

/-- The warnings about a refinement that has ended. -/
lemma of_overflowWarnings_eq_ok {δ : Type} {q : Query δ} {ceiling : Value} {o : Outcome δ}
    {warnings : List OverflowWarning}
    (h : overflowWarnings s strict q ceiling o = .ok warnings) :
    (o.overflowed = true ∧ s.warnOnOverflow.truth = .ok true ∧
        ∃ text, warnings = [⟨q.value, q.precision, o.iterations, text⟩]) ∨
      ((o.overflowed = true → s.warnOnOverflow.truth ≠ .ok true) ∧ warnings = []) := by
  unfold overflowWarnings at h
  cases hover : o.overflowed with
  | false =>
    rw [hover] at h
    exact .inr ⟨nofun, (Except.ok.inj h).symm⟩
  | true =>
    rw [hover, if_neg (by decide)] at h
    obtain ⟨flag, hflag, h⟩ := Except.bind_eq_ok.mp h
    cases flag with
    | false =>
      refine .inr ⟨fun _ hset => ?_, (Except.ok.inj h).symm⟩
      rw [hflag] at hset
      cases hset
    | true =>
      rw [if_neg (by decide)] at h
      obtain ⟨text, -, h⟩ := Except.bind_eq_ok.mp h
      cases strict with
      | false => exact .inl ⟨rfl, hflag, text, (Except.ok.inj h).symm⟩
      | true => cases h

/-- A query that was answered has warned of nothing but being stopped. -/
lemma warned_of_searchQuery_eq_ok {δ : Type} [Denominator δ] {q : Query δ} {ceiling : Value}
    (h : searchQuery s strict q ceiling = .ok r) : Warned s q.value r := by
  unfold searchQuery at h
  obtain ⟨⟨integer, o⟩, -, h⟩ := Except.bind_eq_ok.mp h
  obtain ⟨warnings, hwarnings, h⟩ := Except.bind_eq_ok.mp h
  obtain ⟨value, hresult, h⟩ := Except.bind_eq_ok.mp h
  unfold Query.result at hresult
  obtain ⟨f, -, hresult⟩ := Except.bind_eq_ok.mp hresult
  obtain ⟨g, -, hresult⟩ := Except.bind_eq_ok.mp hresult
  rw [← Except.ok.inj h, ← Except.ok.inj hresult]
  rcases of_overflowWarnings_eq_ok hwarnings with ⟨hover, hset, text, rfl⟩ | ⟨hunset, rfl⟩
  · exact ⟨fun _ _ => ⟨_, rfl, rfl, rfl⟩, fun hnone => absurd hset (hnone hover)⟩
  · exact ⟨fun hover hset => absurd hset (hunset hover), fun _ => rfl⟩

/-- **A search warns if and only if it was stopped and the flag is set**, and then once. -/
theorem warned_of_search_eq_ok (h : search s strict a = .ok r) (hx : a.value.toDouble = .ok x) :
    Warned s x r := by
  unfold search at h
  obtain ⟨⟨q, ceiling⟩, hquery, h⟩ := Except.bind_eq_ok.mp h
  obtain rfl : x = q.value := Except.ok.inj (hx.symm.trans (value_of_query_eq_ok hquery))
  dsimp only at h
  -- the kind of the seed decides the kind of the denominators, and nothing else
  split at h
  · have hwarned := warned_of_searchQuery_eq_ok h
    exact hwarned
  · have hwarned := warned_of_searchQuery_eq_ok h
    exact hwarned
  · cases h

end Mediant
