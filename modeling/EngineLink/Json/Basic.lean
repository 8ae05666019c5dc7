/-!
# JSON documents and the types that have a JSON form

The debug types, statuses and settings have a textual form in JSON. A document keeps the fields of
an object in the order in which they were written, and repeated fields as well, so that a record
can refuse a field that is given twice.

The data of a choice may come before its name. It is then set aside until the name is known, and a
document that was set aside is read more freely: it may write a name as the number of the case. But
all of it has to be readable, whereas the fields that a record ignores need not be.

## Main definitions

* `Json` — a document
* `Json.Input` — a document and how it is read
* `JsonForm` — the types with a JSON form
* `ofJson?` — the value of a document
* `Json.Input.record?`, `Json.Record.get?` — the fields of a record, written as an object or as an
  array
* `Json.get?` — one field of an object
* `Json.Input.word?` — a choice without data
* `Json.Input.tagged?`, `Json.Input.labelled?` — the two ways to write a choice with data
-/

namespace EngineLink

/-- A JSON document. -/
inductive Json where
  | null
  | bool (b : Bool)
  /-- A number that is a signed or an unsigned integer of 64 bits. -/
  | int (i : Int)
  /-- Any other number, as it was written. -/
  | decimal (text : String)
  | str (s : String)
  | arr (elements : List Json)
  | obj (fields : List (String × Json))
  /-- A well-formed part of a text that stands for nothing and can only be passed over. -/
  | unreadable
  deriving Repr, Inhabited

namespace Json

mutual

/-- Whether all parts of a document are readable. -/
def isReadable : Json → Bool
  | arr elements => areReadable elements
  | obj fields => fieldsReadable fields
  | unreadable => false
  | _ => true

/-- Whether all documents of a list are readable. -/
def areReadable : List Json → Bool
  | [] => true
  | j :: rest => j.isReadable && areReadable rest

/-- Whether the documents in all fields are readable. -/
def fieldsReadable : List (String × Json) → Bool
  | [] => true
  | (_, j) :: rest => j.isReadable && fieldsReadable rest

end

/-- A document and how it is read. -/
structure Input where
  json : Json
  /-- Whether the document was set aside until a name was known. -/
  kept : Bool

/-- The fields of a record. -/
abbrev Record : Type := List (String × Input)

end Json

/-- A type with a JSON form. -/
class JsonForm (α : Type) where
  /-- The document of a value. -/
  toJson : α → Json
  /-- The value of a document, if it is the document of one. -/
  ofInput? : Json.Input → Option α
  /-- What a field of this type holds when it is left out of an object. -/
  absent? : Option α := none

export JsonForm (toJson ofInput?)

/-- The value of a whole document, if it is the document of one. -/
def ofJson? {α : Type} [JsonForm α] (j : Json) : Option α := ofInput? ⟨j, false⟩

namespace Json

/-- The value of one field of an object. -/
def get? {α : Type} [JsonForm α] (j : Json) (name : String) : Option α :=
  match j with
  | obj fields =>
    match fields.lookup name with
    | some x => ofJson? x
    | none => JsonForm.absent?
  | _ => none

/-- The value of one field of an object, or a default if there is none. -/
def getOr {α : Type} [JsonForm α] (j : Json) (name : String) (default : α) : α :=
  (j.get? name).getD default

/-- The value of one field of a record. -/
def Record.get? {α : Type} [JsonForm α] (fields : Record) (name : String) : Option α :=
  match fields.lookup name with
  | some x => ofInput? x
  | none => JsonForm.absent?

namespace Input

/-- A part of a document, which is read in the same way as the whole. -/
def part (whole : Input) (j : Json) : Input := { whole with json := j }

/-- A document that is set aside. -/
def keep? (j : Json) : Option Input := if j.isReadable then some ⟨j, true⟩ else none

/-! ### Records -/

/-- Whether a name occurs more than once among the fields. -/
def repeats (fields : List (String × Json)) (name : String) : Bool :=
  1 < (fields.filter (·.1 == name)).length

/-- The fields of a record with the given field names. A record is an object in which none of the
names is repeated and other names are ignored, or an array of all fields in their order. -/
def record? (names : List String) (x : Input) : Option Record :=
  match x.json with
  | obj fields =>
    if names.any (repeats fields) then none
    else some (fields.map fun (name, j) => (name, x.part j))
  | arr elements =>
    if elements.length = names.length then some (names.zip (elements.map x.part)) else none
  | _ => none

/-! ### Choices -/

/-- The name of a choice without data: a text, or an object whose only field is null. In a document
that was set aside the field may also be an empty object. -/
def word? (x : Input) : Option String :=
  match x.json with
  | str s => some s
  | obj [(s, null)] => some s
  | obj [(s, obj [])] => if x.kept then some s else none
  | _ => none

/-- The name of a case, of which all names are given. In a document that was set aside it may be the
place among them. -/
def caseName? (names : List String) (x : Input) : Option String :=
  match x.json with
  | str s => some s
  | int (.ofNat n) => if x.kept then names[n]? else none
  | _ => none

/-- A choice whose name is one field of the object that holds its data. The result is the name and
the record of the other fields, which is set aside until the name is found. -/
def tagged? (tag : String) (names : List String) (x : Input) : Option (String × Input) :=
  match x.json with
  | obj fields =>
    match fields.filter (·.1 == tag) with
    | [(_, name)] =>
      return (← (x.part name).caseName? names, ← keep? (obj (fields.filter (·.1 != tag))))
    | _ => none
  | arr (name :: rest) => return (← (x.part name).caseName? names, ← keep? (arr rest))
  | _ => none

/-- Whether a record of a tagged choice may stand for a choice without data. -/
def isBare (x : Input) : Bool :=
  match x.json with
  | obj _ | arr [] => true
  | _ => false

/-- A choice whose name is one field and whose data, if any, is another. In an object the name is
itself a choice without data, and data in front of it are set aside. -/
def labelled? (tag content : String) (names : List String) (x : Input) :
    Option (String × Option Input) :=
  match x.json with
  | obj fields =>
    match fields.filter fun (name, _) => name == tag || name == content with
    | [(first, j)] => if first == tag then (·, none) <$> (x.part j).word? else none
    | [(first, j), (second, k)] =>
      if first == second then none
      else if first == tag then (·, some (x.part k)) <$> (x.part j).word?
      else do return (← (x.part k).word?, some (← keep? j))
    | _ => none
  | arr [name, j] => (·, some (x.part j)) <$> (x.part name).caseName? names
  | _ => none

/-- Whether the data of a labelled choice may stand for no data. -/
def isNothing : Option Input → Bool
  | none | some ⟨null, _⟩ => true
  | _ => false

end Input

end Json

/-! ### Forms of the basic types -/

instance : JsonForm Bool where
  toJson := .bool
  ofInput?
    | ⟨.bool b, _⟩ => some b
    | _ => none

instance : JsonForm String where
  toJson := .str
  ofInput?
    | ⟨.str s, _⟩ => some s
    | _ => none

/-- An integer between two bounds. -/
def Json.Input.intBetween? (lo hi : Int) : Json.Input → Option Int
  | ⟨.int i, _⟩ => if lo ≤ i ∧ i ≤ hi then some i else none
  | _ => none

instance : JsonForm Int32 where
  toJson i := .int i.toInt
  ofInput? x := Int32.ofInt <$> x.intBetween? Int32.minValue.toInt Int32.maxValue.toInt

instance : JsonForm Int64 where
  toJson i := .int i.toInt
  ofInput? x := Int64.ofInt <$> x.intBetween? Int64.minValue.toInt Int64.maxValue.toInt

instance : JsonForm UInt32 where
  toJson n := .int n.toNat
  ofInput? x := (fun i => UInt32.ofNat i.toNat) <$> x.intBetween? 0 0xFFFFFFFF

instance : JsonForm UInt64 where
  toJson n := .int n.toNat
  ofInput? x := (fun i => UInt64.ofNat i.toNat) <$> x.intBetween? 0 0xFFFFFFFFFFFFFFFF

/-- Natural numbers in documents are sizes of 64 bits. -/
instance : JsonForm Nat where
  toJson n := .int n
  ofInput? x := Int.toNat <$> x.intBetween? 0 0xFFFFFFFFFFFFFFFF

/-- An optional value may be null, and its field may be left out. -/
instance {α : Type} [JsonForm α] : JsonForm (Option α) where
  toJson
    | none => .null
    | some x => toJson x
  ofInput?
    | ⟨.null, _⟩ => some none
    | x => some <$> ofInput? x
  absent? := some none

instance {α : Type} [JsonForm α] : JsonForm (List α) where
  toJson xs := .arr (xs.map toJson)
  ofInput? x :=
    match x.json with
    | .arr elements => elements.mapM fun j => ofInput? (x.part j)
    | _ => none

/-- A pair is an array of two elements. -/
instance {α β : Type} [JsonForm α] [JsonForm β] : JsonForm (α × β) where
  toJson p := .arr [toJson p.1, toJson p.2]
  ofInput? x :=
    match x.json with
    | .arr [a, b] => do some (← ofInput? (x.part a), ← ofInput? (x.part b))
    | _ => none

/-- The form of a finite choice without data, given the name of each case. -/
abbrev JsonForm.ofWords {α : Type} (word : α → String) (cases : List α) : JsonForm α where
  toJson x := .str (word x)
  ofInput? x := do
    let s ← x.word?
    cases.find? (word · == s)

end EngineLink
