import Mediant.Search
import Mediant.Settings
import Mediant.Value.Comparison
import Mediant.Value.Number

/-!
# Approximating a value by a fraction

This is the search as callers see it: its arguments are values of any sort, its bounds come from
the settings, and it reports a search that was stopped.

The arguments are checked in a fixed order, which decides among several faults: first the ceiling
of denominators, then the conversion of value and precision to doubles, then that the value is
finite, that the precision is a finite number and not below the least one, that the value is
within the ceiling, the split policy, and last the seed denominator.

`search` gives the full result, `nearbyFraction` the fraction as found, `nearbyPair` its lowest
terms, and `nearbyReduced` the reduced fraction with all bounds at their defaults.
-/

namespace Mediant

/-- The arguments of a search. -/
structure Arguments where
  value : Value
  precision : Value := .double defaultPrecision
  ceiling : Value := .nothing
  split : Value := .nothing

/-- A value together with the warnings that arose on the way to it. -/
structure Reported (α : Type) where
  value : α
  warnings : List OverflowWarning

/-- Applies a function that does not warn. -/
def Reported.map {α β : Type} (f : α → β) (r : Reported α) : Reported β :=
  ⟨f r.value, r.warnings⟩

/-! ## Checks -/

/-- The ceiling of denominators: the one of the settings if none is asked for, and else the one
asked for, which is refused if it is not above the seed denominator. -/
def resolveCeiling (s : Settings) (asked : Value) : Except Fault Value :=
  match asked with
  | .nothing => .ok s.ceiling
  | asked => do
    if ← asked.holds .atMost s.seed then
      throw (.ceilingRefused (← s.seed.shown) (← asked.shown))
    return .integer (← asked.toInteger)

/-- Replaces the fault of a conversion to a double that is out of range. -/
def orBeyondDoubles {α : Type} (value : Value) : Except Fault α → Except Fault α
  | .ok x => .ok x
  | .error fault =>
    if fault.kind = .overflow then do throw (.beyondDoubles (← value.shown)) else .error fault

/-- Value and precision as doubles, if a search with this ceiling is defined for them. -/
def checkInput (s : Settings) (value precision ceiling : Value) :
    Except Fault (Binary64 × Binary64) := do
  let v ← orBeyondDoubles value value.toDouble
  let p ← orBeyondDoubles value precision.toDouble
  if !v.isFinite then
    throw (.nonFiniteValue v)
  if !p.isFinite then
    throw (.precisionRefused (← s.leastPrecision.shown) p)
  if ← (Value.double p).holds .less s.leastPrecision then
    throw (.precisionRefused (← s.leastPrecision.shown) p)
  if ← (Value.double v.abs).holds .atLeast ceiling then
    throw (.magnitudeRefused v (← ceiling.shown))
  return (v, p)

/-- The split policy that a value names; nothing names truncation. -/
def resolvePolicy : Value → Except Fault Splitting
  | .nothing => .ok .truncate
  | .policy p => .ok p
  | v => do throw (.unknownSplitPolicy (← v.shown))

/-! ## Searching -/

/-- The query that a call stands for, with the seed denominator as it is set, and the ceiling that
a warning shows. -/
def Arguments.query (s : Settings) (a : Arguments) : Except Fault (Query Value × Value) := do
  let ceiling ← resolveCeiling s a.ceiling
  let (value, precision) ← checkInput s a.value a.precision ceiling
  let policy ← resolvePolicy a.split
  return (⟨value, precision, ← ceiling.toCeiling, s.seed, policy⟩, ceiling)

/-- The warnings about a refinement that has ended; a strict caller gets a fault instead. -/
def overflowWarnings {δ : Type} (s : Settings) (strict : Bool) (q : Query δ) (ceiling : Value)
    (o : Outcome δ) : Except Fault (List OverflowWarning) :=
  if !o.overflowed then .ok []
  else do
    if !(← s.warnOnOverflow.truth) then return []
    let warning : OverflowWarning := ⟨q.value, q.precision, o.iterations, ← ceiling.shown⟩
    if strict then throw (.denominatorOverflow warning) else return [warning]

/-- Answers a query, and reports a refinement that was stopped. -/
def searchQuery {δ : Type} [Denominator δ] (s : Settings) (strict : Bool) (q : Query δ)
    (ceiling : Value) : Except Fault (Reported Approximant) := do
  let (integer, outcome) ← q.refine
  let warnings ← overflowWarnings s strict q ceiling outcome
  return ⟨← q.result integer outcome, warnings⟩

/-- Searches a fraction near a value.  The kind of the seed denominator decides the kind of all
denominators. -/
def search (s : Settings) (strict : Bool) (a : Arguments) :
    Except Fault (Reported Approximant) := do
  let (q, ceiling) ← a.query s
  match s.seed.integer?, s.seed.double? with
  | some seed, _ => searchQuery s strict (q.withSeed seed) ceiling
  | none, some seed => searchQuery s strict (q.withSeed seed) ceiling
  | none, none => throw .wrongType

/-- The fraction that a search finds, not reduced. -/
def nearbyFraction (s : Settings) (strict : Bool) (a : Arguments) :
    Except Fault (Reported Fraction) :=
  (search s strict a).map (·.map Approximant.fraction)

/-- The lowest terms of the fraction that a search finds. -/
def nearbyPair (s : Settings) (strict : Bool) (a : Arguments) :
    Except Fault (Reported (Int × Int)) :=
  (nearbyFraction s strict a).map (·.map Fraction.lowestTerms)

/-- The reduced fraction that a search with default bounds finds. -/
def nearbyReduced (s : Settings) (strict : Bool) (value precision : Value) :
    Except Fault (Reported Fraction) :=
  (nearbyFraction s strict { value, precision }).map (·.map Fraction.reduced)

end Mediant
