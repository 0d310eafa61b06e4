import Mediant.Decimal.Numeral
import Mediant.Decimal.Printing
import Mediant.Text.Quoted

/-!
# Faults and warnings

Everything that can go wrong is one constructor of `Fault`, which carries what its message shows.
Values that a caller handed in are carried as the text they are shown by, since a message may
have to show any kind of value; doubles that the library computed are carried as doubles.  A value
that cannot be written, because it holds an integer with too many digits, cannot be shown in a
message either: `integerTooLong` then takes the place of the fault that was to show it.

A fault has a `kind`, by which callers tell faults apart, and for most kinds a `message`.  Faults
that only say that a value is of the wrong sort have none.

`OverflowWarning` is the one warning: a search was stopped before a denominator became too large.
A caller who is strict gets it as the fault `denominatorOverflow`.
-/

namespace Mediant

/-- A search stopped early, because the next denominator would have reached the ceiling. -/
structure OverflowWarning where
  value : Binary64
  precision : Binary64
  iterations : Nat
  ceiling : String
deriving DecidableEq

/-- The text of the warning. -/
def OverflowWarning.message (w : OverflowWarning) : String :=
  "Approximation of " ++ w.value.text ++ " stopped after " ++ toString w.iterations ++
    " iterations: the next denominator would exceed " ++ w.ceiling ++
    ". The result may not match precision " ++ w.precision.text ++ "."

/-- The sorts of fault that a caller can tell apart. -/
inductive FaultKind where
  | invalidInput
  | zeroDivision
  | unsuitableType
  | unsuitableValue
  | overflow
  | noMethod
  | denominatorOverflow
  | unknownName
  | endless
deriving DecidableEq

/-- What went wrong. -/
inductive Fault where
  /-- A fraction was asked for with a numerator or denominator that is infinite or no number. -/
  | nonFiniteInteger (x : Binary64)
  /-- The value to approximate, or the precision, is beyond the range of doubles. -/
  | beyondDoubles (value : String)
  /-- The value to approximate is infinite or no number. -/
  | nonFiniteValue (x : Binary64)
  /-- The precision is not a finite number of at least the least precision. -/
  | precisionRefused (least : String) (precision : Binary64)
  /-- The value to approximate is as large as the ceiling, or larger. -/
  | magnitudeRefused (value : Binary64) (ceiling : String)
  /-- The ceiling leaves no room above the seed denominator. -/
  | ceilingRefused (seed ceiling : String)
  /-- A fraction over zero. -/
  | zeroDenominator (num denom : String)
  /-- A pair over zero has no lowest terms. -/
  | irreducible (num denom : String)
  /-- Zero and zero have no greatest common divisor. -/
  | gcdOfZeros
  /-- A double was divided by zero. -/
  | divisionByZero
  /-- A value of a sort for which the operation has no meaning. -/
  | wrongType
  /-- A split policy that does not exist. -/
  | unknownSplitPolicy (policy : String)
  /-- The argument is a placeholder of a compiled computation and has no value yet. -/
  | tracedArgument
  /-- A not-a-number has no integer part. -/
  | integerOfNan
  /-- A text that is no number. -/
  | malformedNumber (text : String)
  /-- A text that is no integer. -/
  | malformedInteger (text : String)
  /-- An integer has too many digits to be written. -/
  | integerTooLong
  /-- A numeral has too many digits to be read. -/
  | numeralTooLong (digits : Nat)
  /-- An array without entries is neither true nor false. -/
  | truthOfNone
  /-- An array with several entries is neither true nor false. -/
  | truthOfMany
  /-- No items to choose the least or greatest of. -/
  | noItems (chooser : String)
  /-- A quotient of integers beyond the range of doubles. -/
  | quotientTooLarge
  /-- An infinity has no integer part. -/
  | integerOfInfinity
  /-- An integer beyond the range of doubles. -/
  | integerTooLarge
  /-- An integer that does not fit an array of 64-bit integers. -/
  | entryTooLarge
  /-- Values of this sort cannot be rationalized. -/
  | notRationalizable
  /-- A stopped search, for a caller who accepts no warnings. -/
  | denominatorOverflow (warning : OverflowWarning)
  /-- No register has this name. -/
  | unknownRegister (name : String)
  /-- A computation that does not end: a search with a precision of zero or less that makes no
  headway, or a division with remainder that meets a not-a-number. -/
  | endless
deriving DecidableEq

namespace Fault

/-- The sort of a fault. -/
def kind : Fault → FaultKind
  | nonFiniteInteger _ | beyondDoubles _ | nonFiniteValue _ | precisionRefused .. |
    magnitudeRefused .. | ceilingRefused .. => .invalidInput
  | zeroDenominator .. | irreducible .. | gcdOfZeros | divisionByZero => .zeroDivision
  | wrongType | unknownSplitPolicy _ | tracedArgument => .unsuitableType
  | integerOfNan | malformedNumber _ | malformedInteger _ | integerTooLong | numeralTooLong _ |
    truthOfNone | truthOfMany | noItems _ => .unsuitableValue
  | quotientTooLarge | integerOfInfinity | integerTooLarge | entryTooLarge => .overflow
  | notRationalizable => .noMethod
  | denominatorOverflow _ => .denominatorOverflow
  | unknownRegister _ => .unknownName
  | endless => .endless

/-- What is said of numerals that do not keep to the limit, with what there is to add. -/
def beyondDigitLimit (addition : String) : String :=
  "Exceeds the limit (" ++ toString Decimal.digitLimit ++
    " digits) for integer string conversion" ++ addition ++
    "; use sys.set_int_max_str_digits() to increase the limit"

/-- The text of a fault, if it has one. -/
def message : Fault → Option String
  | nonFiniteInteger x => some ("Cannot convert non-finite value " ++ x.text ++ " to an integer")
  | beyondDoubles value => some ("Cannot approximate " ++ value ++ ": out of float range")
  | nonFiniteValue x => some ("Cannot approximate non-finite value " ++ x.text)
  | precisionRefused least precision =>
    some ("Precision has to be a finite number of at least " ++ least ++ ", got " ++
      precision.text)
  | magnitudeRefused value ceiling =>
    some ("Magnitude of " ++ value.text ++ " exceeds the integer range (max " ++ ceiling ++ ")")
  | ceilingRefused seed ceiling =>
    some ("max_integer must be larger than the seed denominator " ++ seed ++ ", got " ++ ceiling)
  | zeroDenominator num denom =>
    some ("Denominator of fraction " ++ num ++ "/" ++ denom ++ " is zero")
  | irreducible num denom =>
    some ("Cannot reduce " ++ num ++ "/" ++ denom ++ ": denominator is zero")
  | gcdOfZeros => some "gcd(0, 0) is undefined"
  | divisionByZero => some "float division by zero"
  | wrongType => none
  | unknownSplitPolicy policy => some ("Unknown split policy: " ++ policy)
  | tracedArgument =>
    some "rationalize cannot be used on traced values, e.g. inside of jax.jit"
  | integerOfNan => some "cannot convert float NaN to integer"
  | malformedNumber text => some ("could not convert string to float: " ++ Text.quoted text)
  | malformedInteger text =>
    some ("invalid literal for int() with base 10: " ++
      String.ofList ((Text.quoted text).toList.take 200))
  | integerTooLong => some (beyondDigitLimit "")
  | numeralTooLong digits =>
    some (beyondDigitLimit (": value has " ++ toString digits ++ " digits"))
  | truthOfNone =>
    some ("The truth value of an empty array is ambiguous. " ++
      "Use `array.size > 0` to check that an array is not empty.")
  | truthOfMany =>
    some ("The truth value of an array with more than one element is ambiguous. " ++
      "Use a.any() or a.all()")
  | noItems chooser => some (chooser ++ "() arg is an empty sequence")
  | quotientTooLarge => some "integer division result too large for a float"
  | integerOfInfinity => some "cannot convert float infinity to integer"
  | integerTooLarge => some "int too large to convert to float"
  | entryTooLarge => some "Python int too large to convert to C long"
  | notRationalizable => none
  | denominatorOverflow warning => some warning.message
  | unknownRegister name => some ("no register " ++ Text.quoted name)
  | endless => some "the computation does not end"

end Fault
end Mediant
