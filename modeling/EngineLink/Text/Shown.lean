import EngineLink.Number.Numeral
import EngineLink.Text.Quoted

/-!
# Values as they are shown

Something that was not expected is shown with all its parts, each behind its name if it has one.

## Main definitions

* `TextForm` — the types whose values can be shown
* `TextForm.sequence`, `TextForm.tuple`, `TextForm.record` — parts in a row, behind a name, and with
  names of their own
-/

namespace EngineLink

/-- A type whose values can be shown. -/
class TextForm (α : Type) where
  /-- A value as it is shown. -/
  shown : α → String

namespace TextForm

/-- Parts with commas between them. -/
def row (parts : List String) : String := ", ".intercalate parts

/-- The parts of a sequence. -/
def sequence (parts : List String) : String := "[" ++ row parts ++ "]"

/-- Parts behind the name of what they make. -/
def tuple (name : String) (parts : List String) : String := name ++ "(" ++ row parts ++ ")"

/-- Named parts behind the name of what they make. -/
def record (name : String) (fields : List (String × String)) : String :=
  name ++ " \x7b " ++ row (fields.map fun (field, part) => field ++ ": " ++ part) ++ " \x7d"

instance : TextForm Bool := ⟨fun b => if b then "true" else "false"⟩

instance : TextForm Nat := ⟨fun n => toString n⟩

instance : TextForm UInt8 := ⟨fun n => toString n.toNat⟩

instance : TextForm UInt32 := ⟨fun n => toString n.toNat⟩

instance : TextForm UInt64 := ⟨fun n => toString n.toNat⟩

instance : TextForm Int32 := ⟨fun n => toString n.toInt⟩

instance : TextForm Int64 := ⟨fun n => toString n.toInt⟩

instance : TextForm String := ⟨Text.quoted⟩

instance : TextForm Real := ⟨fun r => tuple "Real" [r.numeral]⟩

instance : TextForm Complex where
  shown z := record "Complex" [("re", shown z.re), ("im", shown z.im)]

variable {α β : Type} [TextForm α] [TextForm β]

/-- An optional part is shown with a word that tells whether it is there. -/
instance : TextForm (Option α) where
  shown
    | some x => tuple "Some" [shown x]
    | none => "None"

instance : TextForm (List α) := ⟨fun xs => sequence (xs.map shown)⟩

instance : TextForm (α × β) := ⟨fun (x, y) => tuple "" [shown x, shown y]⟩

end TextForm

end EngineLink
