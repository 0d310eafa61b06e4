import Mediant.Session.Evaluation
import Mediant.Value.Arithmetic

/-!
# Running a session

`Session.answer` answers one command.  Registers are set when everything else has succeeded, but
settings are changed one after another, and those that were changed before one fails stay changed.
Marks that were given out before a command fails are not given out again.  The session goes on in
any case.  `Session.run` answers a list of commands from the initial state.
-/

namespace Mediant

/-- A pair of integers as a value. -/
def Value.ofPair (p : Int × Int) : Value := .tuple [.integer p.1, .integer p.2]

/-- A value that arose without warnings. -/
def Reported.silent {α : Type} (a : α) : Reported α := ⟨a, []⟩

/-- Applies a function to its arguments. -/
def Function.apply (s : Settings) (strict : Bool) :
    Function → List Value → Except Fault (Reported Value)
  | .identity, [v] => return .silent v
  | .neg, [v] => return .silent (← v.neg)
  | .abs, [v] => return .silent (← v.abs)
  | .reduced, [.fraction f] => return .silent (.fraction f.reduced)
  | .value, [.fraction f] => return .silent (.double (← f.value))
  | .num, [.fraction f] => return .silent (.integer f.num)
  | .denom, [.fraction f] => return .silent (.integer f.denom)
  | .shown, [v] => return .silent (.text (← v.shown))
  | .display, [v] => return .silent (.text (← v.display))
  | .nearbyReduced, [v] =>
    (Mediant.nearbyReduced s strict v (.double defaultPrecision)).map (·.map .fraction)
  | .nearbyReduced, [v, p] => (Mediant.nearbyReduced s strict v p).map (·.map .fraction)
  | .nearbyFraction, [v] => (Mediant.nearbyFraction s strict { value := v }).map (·.map .fraction)
  | .nearbyFraction, [v, p] =>
    (Mediant.nearbyFraction s strict { value := v, precision := p }).map (·.map .fraction)
  | .fraction, fields => return .silent (← Operand.buildFraction fields)
  | .greatestCommonDivisor, [x, y] => return .silent (← x.greatestCommonDivisor y)
  | .lowestTerms, [x, y] => do
    let terms ← x.lowestTerms y
    return .silent (.tuple [terms.1, terms.2])
  | _, _ => throw .wrongType

namespace Session

/-- Adds the value of an operand to the values kept so far, unless it counts as one of them. -/
def keepDistinct (kept : Value.Kept) (x : Operand) : Turn Value.Kept := do
  Value.keepNew kept (← x.eval)

/-- Changes settings one after another. -/
def configure : List (Setting × Operand) → Turn Unit
  | [] => return
  | (setting, x) :: rest => do
    change setting (← x.eval)
    configure rest

/-- Answers a command. -/
def answer : Command → Turn Answer
  | .search value bounds strict keepAs => do
    let a ← bounds.arguments (← value.eval)
    let r ← Mediant.search (← get).settings strict a
    if let some name := keepAs then
      keep (name ++ ".fraction") (.fraction r.value.fraction)
      keep (name ++ ".low") (.fraction r.value.low)
    return .search r.value r.warnings
  | .nearbyFraction value bounds strict => do
    let a ← bounds.arguments (← value.eval)
    let r ← Mediant.nearbyFraction (← get).settings strict a
    return .reported (.fraction r.value) r.warnings
  | .nearbyPair value bounds strict => do
    let a ← bounds.arguments (← value.eval)
    let r ← Mediant.nearbyPair (← get).settings strict a
    return .reported (.ofPair r.value) r.warnings
  | .nearbyReduced value precision strict => do
    let v ← value.eval
    let p ← Operand.evalOr (.double defaultPrecision) precision
    let r ← Mediant.nearbyReduced (← get).settings strict v p
    return .reported (.fraction r.value) r.warnings
  | .rationalize x compiled bounds strict => do
    let v ← x.eval
    let a ← bounds.arguments v
    if compiled then throw v.compilationFault
    let r ← Mediant.rationalize (← get).settings strict a v
    match r.value with
    | .pair num denom => return .reported (.ofPair (num, denom)) r.warnings
    | .arrays arrays => return .arrays arrays r.warnings
  | .greatestCommonDivisor x y => do
    let v ← x.eval
    return .value (← v.greatestCommonDivisor (← y.eval))
  | .lowestTerms num denom => do
    let v ← num.eval
    let terms ← v.lowestTerms (← denom.eval)
    return .value (.tuple [terms.1, terms.2])
  | .fraction num denom => do
    let n ← num.eval
    let d ← Operand.evalOr (.integer 1) denom
    let f ← Fraction.ofValues n d
    if !f.isShort then throw .integerTooLong
    return .fraction f
  | .compare left right => do
    let v ← left.eval
    return .comparison (v.compare (← right.eval))
  | .hashesLike left right => do
    let k ← left.key
    return .value (.boolean (k.agrees (← right.key)))
  | .distinct items => return .values ((← items.foldlM keepDistinct []).map Prod.snd)
  | .sort items => do
    return .arrangement (← Value.arrange (← Operand.evalAll items))
  | .split value policy => do
    let v ← value.eval
    let parts ← v.split (← policy.eval)
    return .value (.tuple [parts.1, parts.2])
  | .resolveCeiling asked => do
    let v ← asked.eval
    return .value (← Mediant.resolveCeiling (← get).settings v)
  | .checkInput value precision ceiling => do
    let v ← value.eval
    let p ← precision.eval
    let c ← ceiling.eval
    let (x, y) ← Mediant.checkInput (← get).settings v p c
    return .value (.tuple [.double x, .double y])
  | .results parts => do
    let rs ← parts.mapM (·.build)
    if !rs.all Approximant.isShort then throw .integerTooLong
    return .results rs
  | .showSettings => return .settings (← get).settings
  | .configure changes => do
    configure changes
    let names := changes.map fun (setting, _) => setting.name
    return .configured (names.mergeSort fun a b => !(b < a))
  | .apply keepAs function arguments strict => do
    let r ← function.apply (← get).settings strict (← Operand.evalAll arguments)
    let v ← mark r.value
    keep keepAs v
    return .reported v r.warnings

/-- Answers a list of commands. -/
def runFrom (s : Session) : List Command → List (Except Fault Answer)
  | [] => []
  | c :: rest =>
    let r := (answer c).run.run s
    r.1 :: r.2.runFrom rest

/-- Answers a list of commands from the initial state. -/
def run (commands : List Command) : List (Except Fault Answer) := runFrom {} commands

end Session
end Mediant
