import LineClosure.Document.Value

/-! When two values count as the same. Numbers are the same if they are equal, however they
are written, so `1`, `1.0` and `true` make one identifier, and the order of the fields of an
object does not matter. Every value has a canonical form, and sameness is equality of the
canonical forms. On texts it is plain equality, which is what `same_text` says. -/

namespace LineClosure

class Canonical (α : Type) where
  canonical : α → α

export Canonical (canonical)

/-- Truth values count as the numbers 0 and 1, and a double without a fraction as an integer. -/
def Scalar.canonical : Scalar → Scalar
  | .bool b => .int (if b then 1 else 0)
  | .double d =>
    match d.integer? with
    | some n => .int n
    | none => .double d
  | s => s

instance : Canonical Scalar := ⟨Scalar.canonical⟩

namespace Value

mutual

def canonical : Value → Value
  | .scalar s => .scalar s.canonical
  | .list items => .list (canonicalItems items)
  | .object fields => .object ((canonicalFields fields).mergeSort fun a b => a.1.isAtMost b.1)

def canonicalItems : List Value → List Value
  | [] => []
  | v :: rest => v.canonical :: canonicalItems rest

def canonicalFields : List (Text × Value) → List (Text × Value)
  | [] => []
  | (name, v) :: rest => (name, v.canonical) :: canonicalFields rest

end

end Value

instance : Canonical Value := ⟨Value.canonical⟩

def same [Canonical α] [DecidableEq α] (a b : α) : Bool := canonical a = canonical b

/-- Equality of identifiers as values. A NaN equals nothing, not even itself, though it is
the same identifier each time. -/
def Scalar.equals (a b : Scalar) : Bool :=
  match a with
  | .double d => !d.isNaN && same a b
  | _ => same a b

@[simp] theorem canonical_text (t : Text) : canonical (Scalar.text t) = .text t := rfl

theorem canonical_eq_text_iff {s : Scalar} {t : Text} :
    canonical s = .text t ↔ s = .text t := by
  constructor
  · intro h
    cases s with
    | text u => exact h
    | null => cases h
    | bool b => cases h
    | int n => cases h
    | double d =>
      simp only [canonical, Scalar.canonical] at h
      split at h <;> cases h
  · rintro rfl
    rfl

theorem canonical_canonical (s : Scalar) : canonical (canonical s) = canonical s := by
  cases s with
  | double d =>
    simp only [canonical, Scalar.canonical]
    cases h : d.integer? <;> simp [h]
  | _ => rfl

theorem same_text {s : Scalar} {t : Text} : same s (.text t) = true ↔ s = .text t := by
  unfold same
  rw [decide_eq_true_iff]
  exact canonical_eq_text_iff

theorem equals_text {s : Scalar} {t : Text} : s.equals (.text t) = true ↔ s = .text t := by
  cases s with
  | double d => simp [Scalar.equals, same_text]
  | _ => exact same_text

end LineClosure
