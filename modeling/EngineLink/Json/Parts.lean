import EngineLink.Json.Basic

/-!
# Parts of documents

Documents that nest are read by recursion on their parts, which are smaller than the whole.

## Main definitions

* `Json.Part` — a document that is smaller than another
* `Json.part?`, `Json.parts?`, `Json.namedParts?` — parts in a field of an object
-/

namespace EngineLink.Json

/-- A document that is smaller than another. -/
abbrev Part (whole : Json) : Type := { part : Json // sizeOf part < sizeOf whole }

/-- The document in a field. -/
def part? (whole : Json) (name : String) : Option whole.Part :=
  match whole with
  | obj fields =>
    match h : fields.find? (·.1 == name) with
    | some (n, x) =>
      have hx : sizeOf (n, x) < sizeOf fields := List.sizeOf_lt_of_mem (List.mem_of_find?_eq_some h)
      some ⟨x, by simp at hx ⊢; omega⟩
    | none => none
  | _ => none

/-- The elements of an array. -/
def elementParts? (whole : Json) : Option (List whole.Part) :=
  match whole with
  | arr xs =>
    some (xs.attach.map fun ⟨x, h⟩ =>
      have hx := List.sizeOf_lt_of_mem h
      ⟨x, by simp; omega⟩)
  | _ => none

/-- A part of a part. -/
def Part.within {whole : Json} (outer : whole.Part) (inner : outer.val.Part) : whole.Part :=
  ⟨inner.val, Nat.lt_trans inner.property outer.property⟩

/-- The elements of the array in a field. -/
def parts? (whole : Json) (name : String) : Option (List whole.Part) := do
  let outer ← whole.part? name
  return (← outer.val.elementParts?).map outer.within

/-- The name and the document in an array of two. -/
def namedPart? {whole : Json} (pair : whole.Part) : Option (String × whole.Part) := do
  match ← pair.val.elementParts? with
  | [name, x] => return (← ofJson? name.val, pair.within x)
  | _ => none

/-- The named documents in a field, written as pairs. -/
def namedParts? (whole : Json) (name : String) : Option (List (String × whole.Part)) := do
  (← whole.parts? name).mapM namedPart?

/-- Whether a field is missing or null. -/
def lacks (whole : Json) (name : String) : Bool :=
  match whole.part? name with
  | none => true
  | some ⟨null, _⟩ => true
  | some _ => false

end EngineLink.Json
