import Mediant.Tensor.Columns

/-!
# The text of an array

An array is written as the rows along its last axis, each in brackets, with one more pair of
brackets for every other axis.  The entries of a row stand in columns with a blank between them.
Rows begin on lines of their own, and one blank line for each further axis separates the blocks.
Every line is indented so that it begins right of the brackets that are open, and a row that is too
long for a line goes on in the next one.

An array without axes is written as its entry, and one without entries as a pair of brackets.
-/

namespace Mediant
namespace Tensor

open Columns (blanks trimRight words)

/-- The greatest length of a line, brackets included. -/
def lineLength : Nat := 75

/-- A text that is being put together: the lines that are complete, and the last one. -/
structure Draft where
  complete : List Char
  line : List Char

/-- Puts a word at the end of the last line, or on a line of its own if it does not fit there and
the line is not empty. -/
def Draft.put (indent : Nat) (d : Draft) (word : List Char) : Draft :=
  if indent < d.line.length ∧ lineLength - indent < d.line.length + word.length then
    ⟨d.complete ++ trimRight ' ' d.line ++ ['\n'], blanks indent ++ word⟩
  else ⟨d.complete, d.line ++ word⟩

/-- Puts a row of words on lines, with blanks between them. -/
def Draft.putAll (indent : Nat) (d : Draft) : List (List Char) → Draft
  | [] => d
  | [word] => d.put indent word
  | word :: rest =>
    let d := d.put indent word
    putAll indent { d with line := d.line ++ [' '] } rest

/-- A row of words in brackets. -/
def row (indent : Nat) (entries : List (List Char)) : List Char :=
  let d := Draft.putAll indent ⟨[], blanks indent⟩ entries
  '[' :: (d.complete ++ d.line).drop indent ++ [']']

/-- The words of an array of the given shape in brackets. -/
def block (indent : Nat) : List Nat → List (List Char) → List Char
  | [], entries => entries.flatten
  | [_], entries => row indent entries
  | n :: m :: shape, entries =>
    let size := entryCount (m :: shape)
    let parts := (List.range n).map fun i =>
      block (indent + 1) (m :: shape) ((entries.drop (i * size)).take size)
    let separator := List.replicate (shape.length + 1) '\n' ++ blanks indent
    '[' :: (parts.intersperse separator).flatten ++ [']']

/-- How an array is written. -/
def text (t : Tensor) : String :=
  match t.scalar?, t.viewed with
  | some e, _ => e.text
  | none, [] => "[]"
  | none, entries => String.ofList (block 1 t.viewedShape (words entries))

end Tensor
end Mediant
