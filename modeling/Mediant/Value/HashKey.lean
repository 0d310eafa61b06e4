import Mediant.Value.Comparison

/-!
# Keys for telling values apart quickly

Values are sorted into buckets by a key such that values which count as the same have the same
key.  The key of a number is its residue modulo the prime `2 ^ 61 - 1`, taken of the absolute
value and given the sign of the number: integers and doubles of the same value agree, and two
distant integers may agree as well.  The residue of a quotient is the quotient of the residues;
the denominators of doubles are powers of two, and `2 ^ 61` leaves the residue one, so division by
a power of two is multiplication by another.  The key `-1` is not in use, and `-2` takes its place.

The keys of the items of a sequence are mixed into one number of 64 bits if all of them are
numbers, so the key of a sequence may by chance be that of another value.  Texts, nothing and
not-a-numbers have keys that are no numbers and agree with their like only, and the key of a
sequence that holds one of them is the row of the keys.  A fraction has the key of its integer if
it is one, and otherwise the key of the pair of its lowest terms.  The key of a not-a-number is its
mark; without a mark it agrees with nothing.  Lists and arrays have no keys.
-/

namespace Mediant

/-- A key for sorting values into buckets. -/
inductive HashKey where
  | nothing
  | number (residue : Int)
  | text (s : String)
  | marked (mark : Nat)
  | sequence (keys : List HashKey)
  | unique

namespace HashKey

mutual

/-- Whether two keys agree. -/
def agrees : HashKey → HashKey → Bool
  | .nothing, .nothing => true
  | .number m, .number n => m = n
  | .text s, .text t => s = t
  | .marked m, .marked n => m = n
  | .sequence ks, .sequence ls => agreesAll ks ls
  | _, _ => false

/-- Whether two rows of keys agree in all places. -/
def agreesAll : List HashKey → List HashKey → Bool
  | [], [] => true
  | k :: ks, l :: ls => agrees k l && agreesAll ks ls
  | _, _ => false

end

/-! ## Keys of sequences -/

/-- The number that a key is, if it is one. -/
def number? : HashKey → Option Int
  | .number n => some n
  | _ => none

/-- The word with its bits moved to the left by 31 places, the highest ones coming back in at the
right. -/
def rotate (word : UInt64) : UInt64 := word <<< 31 ||| word >>> 33

/-- Mixes the key of one more item into a word. -/
def mixItem (word : UInt64) (n : Int) : UInt64 :=
  rotate (word + UInt64.ofInt n * 14029467366897019727) * 11400714785074694791

/-- Mixes the keys of the items of a sequence, and their number, into one key.  The key `-1` is
not in use. -/
def mix (keys : List Int) : Int :=
  let word := keys.foldl mixItem 2870177450012600261 +
    (UInt64.ofNat keys.length ^^^ (2870177450012600261 ^^^ 3527539))
  if word = 0xffffffffffffffff then 1546275796 else word.toInt64.toInt

/-- The key of a sequence from the keys of its items. -/
def ofKeys (keys : List HashKey) : HashKey :=
  match keys.mapM number? with
  | some numbers => .number (mix numbers)
  | none => .sequence keys

/-! ## Keys of values -/

/-- The modulus of the keys of numbers, `2 ^ 61 - 1`. -/
def modulus : Nat := 0x1fffffffffffffff

/-- Puts the sign on a residue; minus one becomes minus two. -/
def signed (negative : Bool) (residue : Nat) : Int :=
  if negative then (if residue = 1 then -2 else -residue) else residue

/-- The key of an integer. -/
def ofInt (n : Int) : HashKey := .number (signed (n < 0) (n.natAbs % modulus))

/-- The key of a double.  Dividing by `2 ^ 1074` is multiplying by `2 ^ 24`, since
`1074 + 24 = 18 * 61`. -/
def ofDouble : Binary64 → HashKey
  | .nan => .unique
  | .infinity negative => .number (if negative then -314159 else 314159)
  | .finite x => .number (signed x.negative ((x.magnitude <<< 24) % modulus))

/-- The key of a text; the empty text goes with zero. -/
def ofText (s : String) : HashKey := if s.isEmpty then .number 0 else .text s

/-- The key of an entry of an array. -/
def ofEntry : Entry → HashKey
  | .truth b => ofInt b.toInt
  | .integer n => ofInt n
  | .real _ x => ofDouble x

/-- The key of a fraction. -/
def ofFraction (f : Fraction) : HashKey :=
  let (num, denom) := f.lowestTerms
  if denom = 1 then ofInt num else ofKeys [ofInt num, ofInt denom]

mutual

/-- The key of a value; a list or an array, alone or inside a tuple, has none. -/
def ofValue : Value → Except Fault HashKey
  | .nothing => .ok .nothing
  | .boolean b => .ok (ofInt b.toInt)
  | .integer n => .ok (ofInt n)
  | .double x => .ok (ofDouble x)
  | .undefined _ mark => .ok (.marked mark)
  | .text s => .ok (ofText s)
  | .tuple items => return ofKeys (← ofValues items)
  | .list _ => .error .wrongType
  | .fraction f => .ok (ofFraction f)
  | .policy p => .ok (ofText p.name)
  | .entry e => .ok (ofEntry e)
  | .array _ => .error .wrongType

/-- The keys of the items of a sequence. -/
def ofValues : List Value → Except Fault (List HashKey)
  | [] => return []
  | x :: rest => return (← ofValue x) :: (← ofValues rest)

end
end HashKey

namespace Value

/-- Values kept so far, each with its key, the first one first. -/
abbrev Kept := List (HashKey × Value)

/-- Whether a value counts as one of those kept so far: the keys agree, and the values are equal or
one and the same not-a-number.  Equality is tested only if the keys agree. -/
def isAmong (key : HashKey) (v : Value) : Kept → Except Fault Bool
  | [] => return false
  | (k, w) :: rest => do
    if !k.agrees key then isAmong key v rest
    else if w.sameMark v then return true
    else if ← w.equals v then return true
    else isAmong key v rest

/-- Keeps a value unless it counts as one of those kept so far. -/
def keepNew (kept : Kept) (v : Value) : Except Fault Kept := do
  let key ← HashKey.ofValue v
  if ← isAmong key v kept then return kept else return kept ++ [(key, v)]

end Value
end Mediant
