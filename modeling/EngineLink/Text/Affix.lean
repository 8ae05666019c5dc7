/-!
# Beginnings and ends of texts

## Main definitions

* `Text.after?` — what follows a given beginning of a text
* `Text.before?` — what comes before a given end of a text
* `Text.between?` — what stands between a given beginning and a given end
-/

namespace EngineLink.Text

/-- What follows a beginning, if the characters begin with it. -/
def afterChars? : List Char → List Char → Option (List Char)
  | [], cs => some cs
  | _ :: _, [] => none
  | b :: bs, c :: cs => if b = c then afterChars? bs cs else none

/-- What follows a beginning, if the text begins with it. -/
def after? (beginning s : String) : Option String :=
  (afterChars? beginning.toList s.toList).map String.ofList

/-- What comes before an end, if the text ends with it. -/
def before? (ending s : String) : Option String :=
  (afterChars? ending.toList.reverse s.toList.reverse).map fun cs => String.ofList cs.reverse

/-- What stands between a beginning and an end that do not overlap. -/
def between? (beginning ending s : String) : Option String :=
  (after? beginning s).bind (before? ending)

end EngineLink.Text
