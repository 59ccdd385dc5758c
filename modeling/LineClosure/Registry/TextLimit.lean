import LineClosure.Event

/-! The length limit on the texts of a stop area. -/

namespace LineClosure

def maxTextLength : Nat := 255

/-- Cuts a text down to the limit and tells of it. A list is cut like a text; a value that
has no length, or is too long and cannot be cut, gives nothing. -/
def fitText (field : String) (owner : Reference) (v : Value) : List Event × Option Value :=
  let cut := [Event.textCut field owner v]
  match v with
  | .null => ([], some v)
  | .scalar (.text t) =>
    if t.length ≤ maxTextLength then ([], some v)
    else (cut, some (.scalar (.text (t.take maxTextLength))))
  | .list items =>
    if items.length ≤ maxTextLength then ([], some v)
    else (cut, some (.list (items.take maxTextLength)))
  | .object fields => if fields.length ≤ maxTextLength then ([], some v) else (cut, none)
  | _ => ([], none)

/-- The comment and the registration number of a stop area, cut down to the limit. What the
texts belong to need not be fit to be an identifier. -/
def fitTexts (owner : Reference) (comment registrationNumber : Value) :
    List Event × Option (Value × Value) :=
  match fitText "comment" owner comment with
  | (told, none) => (told, none)
  | (told, some comment) =>
    let (more, number) := fitText "registration_number" owner registrationNumber
    (told ++ more, number.map fun number => (comment, number))

end LineClosure
