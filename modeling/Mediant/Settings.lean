import Mediant.Value.Basic

/-!
# Settings

Seven named settings govern the library.  Four of them are read whenever an operation needs them:
whether a stopped search warns, the ceiling of denominators, the denominator of the starting
lattice, and the least precision.  The other three are only shown: what they say is built into the
default precision and into the comparison of fractions with doubles.

A setting holds a value of any sort.  A value of the wrong sort is found by the operation that
uses it.
-/

namespace Mediant

/-- The names of the settings. -/
inductive Setting where
  | warnOnOverflow
  | ceiling
  | seed
  | leastPrecision
  | defaultPrecision
  | tolerance
  | integerWidth
deriving DecidableEq

namespace Setting

/-- All settings, in the order in which they are shown. -/
def all : List Setting :=
  [warnOnOverflow, ceiling, seed, leastPrecision, defaultPrecision,
   tolerance, integerWidth]

/-- The name under which a setting is shown and changed. -/
def name : Setting → String
  | warnOnOverflow => "WARN_ON_DENOMINATOR_OVERFLOW"
  | ceiling => "MAX_INTEGER"
  | seed => "SEED_DENOMINATOR"
  | leastPrecision => "MIN_PRECISION"
  | defaultPrecision => "DEFAULT_PRECISION"
  | tolerance => "ATOL_COMPARISON"
  | integerWidth => "INTEGER_BITS"

/-- The setting of a name. -/
def ofName? (name : String) : Option Setting := all.find? (·.name = name)

end Setting

/-- The precision of a search that names none: the double nearest to `10 ^ (-13)`. -/
def defaultPrecision : Binary64 := Binary64.quotient 1 10000000000000

/-- The values of all settings. -/
structure Settings where
  warnOnOverflow : Value := .boolean true
  ceiling : Value := .integer 0x7fffffffffffffff
  seed : Value := .integer 2310
  leastPrecision : Value := .double (Binary64.quotient 1 1000000000000000)
  defaultPrecision : Value := .double Mediant.defaultPrecision
  tolerance : Value := .double (Binary64.quotient 1 1000000000000000)
  integerWidth : Value := .integer 64

namespace Settings

instance : Inhabited Settings := ⟨{}⟩

/-- The value of a setting. -/
def get (s : Settings) : Setting → Value
  | .warnOnOverflow => s.warnOnOverflow
  | .ceiling => s.ceiling
  | .seed => s.seed
  | .leastPrecision => s.leastPrecision
  | .defaultPrecision => s.defaultPrecision
  | .tolerance => s.tolerance
  | .integerWidth => s.integerWidth

/-- The settings with one of them changed. -/
def set (s : Settings) (v : Value) : Setting → Settings
  | .warnOnOverflow => { s with warnOnOverflow := v }
  | .ceiling => { s with ceiling := v }
  | .seed => { s with seed := v }
  | .leastPrecision => { s with leastPrecision := v }
  | .defaultPrecision => { s with defaultPrecision := v }
  | .tolerance => { s with tolerance := v }
  | .integerWidth => { s with integerWidth := v }

@[simp] theorem get_set_self (s : Settings) (v : Value) (k : Setting) : (s.set v k).get k = v := by
  cases k <;> rfl

theorem get_set_of_ne (s : Settings) (v : Value) {k l : Setting} (h : k ≠ l) :
    (s.set v k).get l = s.get l := by
  cases k <;> cases l <;> first | rfl | exact absurd rfl h

end Settings
end Mediant
