import Mediant.Settings

/-!
# The state of a session

A session keeps its settings and its registers, which are named values.  It also counts the marks
that it has given to not-a-numbers: a not-a-number that enters the session, or that arises in it
and is kept, gets a mark of its own, so that it can be recognized when a register brings it back.

A `Turn` is what happens in one exchange of a session.  It can fail, and what it has changed
before it fails stays changed.
-/

namespace Mediant

/-- Named values, the latest first. -/
abbrev Registers := List (String × Value)

namespace Registers

/-- The value under a name. -/
def get (r : Registers) (name : String) : Except Fault Value :=
  match r.lookup name with
  | some v => .ok v
  | none => .error (.unknownRegister name)

/-- Keeps a value under a name, in place of an older one. -/
def put (r : Registers) (name : String) (v : Value) : Registers := (name, v) :: r

@[simp] theorem get_put_self (r : Registers) (name : String) (v : Value) :
    (r.put name v).get name = .ok v := by
  simp [get, put]

theorem get_put_of_ne (r : Registers) {name other : String} (v : Value) (h : other ≠ name) :
    (r.put name v).get other = r.get other := by
  simp [get, put, List.lookup_cons, beq_eq_false_iff_ne.mpr h]

end Registers

/-- The state of a session. -/
structure Session where
  settings : Settings := {}
  registers : Registers := []
  /-- How many marks have been given out. -/
  marks : Nat := 0

/-- What happens in one exchange of a session. -/
abbrev Turn := ExceptT Fault (StateM Session)

namespace Session

/-- The value with a new mark if it is a not-a-number without one. -/
def mark (v : Value) : Turn Value := do
  match v with
  | .double .nan => next .double
  | .entry (.real f .nan) => next f
  | v => return v
where
  /-- A not-a-number with a new mark. -/
  next (format : Binary64.Format) : Turn Value := do
    let s ← get
    set { s with marks := s.marks + 1 }
    return .undefined format s.marks

/-- Keeps a value under a name. -/
def keep (name : String) (v : Value) : Turn Unit :=
  modify fun s => { s with registers := s.registers.put name v }

/-- Changes a setting. -/
def change (setting : Setting) (v : Value) : Turn Unit :=
  modify fun s => { s with settings := s.settings.set v setting }

end Session
end Mediant
