import Mathlib.Tactic
import Mediant.Fault

/-!
# Computations that can fail

A computation in `Except` that returned a result has returned one at each of its stages.  The
lemmas here take such computations apart, one stage at a time.

`Gives` says what is known of the result, and when a computation may fail.  `Related` compares two
computations that go through the same stages: both return, or both fail, and what they end with is
related.
-/

namespace Mediant
namespace Except

variable {ε α β : Type}

@[simp] lemma bind_ok (a : α) (f : α → Except ε β) : (Except.ok a >>= f) = f a := rfl

@[simp] lemma bind_error (e : ε) (f : α → Except ε β) : (Except.error e >>= f) = .error e := rfl

@[simp] lemma pure_eq (a : α) : (pure a : Except ε α) = .ok a := rfl

lemma bind_eq_ok {x : Except ε α} {f : α → Except ε β} {b : β} :
    (x >>= f) = .ok b ↔ ∃ a, x = .ok a ∧ f a = .ok b := by
  constructor
  · intro h
    cases x with
    | error e => cases h
    | ok a => exact ⟨a, rfl, h⟩
  · rintro ⟨a, rfl, h⟩
    exact h

lemma bind_error_ne_ok {x : Except ε α} {f : α → ε} {b : β} :
    (x >>= fun a => .error (f a)) ≠ .ok b := by
  cases x <;> nofun

/-- What is done with a result has no part in the faults. -/
lemma map_eq_error_iff {x : Except ε α} {f : α → β} {e : ε} :
    x.map f = .error e ↔ x = .error e := by
  cases x with
  | error e' => exact ⟨fun h => by rw [Except.error.inj h], fun h => by rw [h]; rfl⟩
  | ok a => exact iff_of_false nofun nofun

lemma exists_of_toOption_map_eq_some {x : Except ε α} {f : α → β} {b : β}
    (h : x.toOption.map f = some b) : ∃ a, x = .ok a ∧ f a = b := by
  cases x with
  | error e => cases h
  | ok a => exact ⟨a, rfl, Option.some.inj h⟩

/-! ## What a computation gives -/

/-- The result of a computation, if it has one, satisfies `Q`; it may only fail if `mayFail`
holds. -/
def Gives (mayFail : Prop) (Q : α → Prop) : Except ε α → Prop
  | .ok a => Q a
  | .error _ => mayFail

namespace Gives

variable {mayFail : Prop} {Q : α → Prop} {R : β → Prop} {x : Except ε α}

lemma bind {f : α → Except ε β} (h : Gives mayFail Q x) (hf : ∀ a, Q a → Gives mayFail R (f a)) :
    Gives mayFail R (x >>= f) := by
  cases x with
  | ok a => exact hf a h
  | error e => exact h

lemma map {f : α → β} (h : Gives mayFail Q x) (hf : ∀ a, Q a → R (f a)) :
    Gives mayFail R (f <$> x) := by
  cases x with
  | ok a => exact hf a h
  | error e => exact h

lemma imp {Q' : α → Prop} (h : Gives mayFail Q x) (hQ : ∀ a, Q a → Q' a) :
    Gives mayFail Q' x := by
  cases x with
  | ok a => exact hQ a h
  | error e => exact h

end Gives

/-! ## Two computations side by side -/

/-- Two computations end in the same way: both return, and the results are related, or both fail,
and the faults are. -/
inductive Related (F : ε → ε → Prop) (R : α → β → Prop) : Except ε α → Except ε β → Prop
  | ok {a : α} {b : β} (h : R a b) : Related F R (.ok a) (.ok b)
  | error {e f : ε} (h : F e f) : Related F R (.error e) (.error f)

namespace Related

variable {γ δ : Type} {F : ε → ε → Prop} {R : α → β → Prop} {S : γ → δ → Prop}
  {x : Except ε α} {y : Except ε β}

/-- Two computations in two stages are related if they are so stage by stage. -/
lemma bind {f : α → Except ε γ} {g : β → Except ε δ} (h : Related F R x y)
    (hfg : ∀ a b, R a b → Related F S (f a) (g b)) : Related F S (x >>= f) (y >>= g) := by
  cases h with
  | ok h => exact hfg _ _ h
  | error h => exact .error h

lemma map {f : α → γ} {g : β → δ} (h : Related F R x y) (hfg : ∀ a b, R a b → S (f a) (g b)) :
    Related F S (x.map f) (y.map g) := by
  cases h with
  | ok h => exact .ok (hfg _ _ h)
  | error h => exact .error h

/-- Two computations with a common first stage are related if their second stages are. -/
lemma bind_congr {f : α → Except ε γ} {g : α → Except ε δ} (hF : ∀ e, F e e)
    (hfg : ∀ a, x = .ok a → Related F S (f a) (g a)) : Related F S (x >>= f) (x >>= g) := by
  cases x with
  | ok a => exact hfg a rfl
  | error e => exact .error (hF e)

lemma of_eq {y : Except ε α} (h : x = y) : Related Eq Eq x y := by
  rw [← h]
  cases x with
  | ok a => exact .ok rfl
  | error e => exact .error rfl

lemma eq {y : Except ε α} (h : Related Eq Eq x y) : x = y := by
  cases h with
  | ok h => rw [h]
  | error h => rw [h]

/-- Where one returns, so does the other. -/
lemma exists_eq_ok {a : α} (h : Related F R x y) (hx : x = .ok a) : ∃ b, y = .ok b ∧ R a b := by
  cases h with
  | ok h =>
    rw [← Except.ok.inj hx]
    exact ⟨_, rfl, h⟩
  | error h => cases hx

/-- What related faults have in common is a property of both failures or of none. -/
lemma exists_error_iff {P : ε → Prop} (hP : ∀ e f, F e f → (P e ↔ P f)) (h : Related F R x y) :
    (∃ e, x = .error e ∧ P e) ↔ ∃ f, y = .error f ∧ P f := by
  cases h with
  | ok h => exact iff_of_false (fun ⟨_, he, _⟩ => nomatch he) (fun ⟨_, hf, _⟩ => nomatch hf)
  | @error e f h =>
    constructor
    · rintro ⟨e', he, hp⟩
      rw [← Except.error.inj he] at hp
      exact ⟨f, rfl, (hP e f h).mp hp⟩
    · rintro ⟨f', hf, hp⟩
      rw [← Except.error.inj hf] at hp
      exact ⟨e, rfl, (hP e f h).mpr hp⟩

end Related
end Except
end Mediant
