import LineClosure.Validation.Checks

/-! The outcome of a validation. -/

namespace LineClosure

structure Verdict where
  defects : List Defect
  doubts : List Doubt
  counts : List (String × Nat)

namespace Finding

def defect? : Finding → Option Defect
  | defect d => some d
  | _ => none

def doubt? : Finding → Option Doubt
  | doubt d => some d
  | _ => none

def isUnusable : Finding → Bool
  | unusable _ => true
  | _ => false

end Finding

namespace Verdict

def isValid (v : Verdict) : Bool := v.defects.isEmpty

def events (v : Verdict) : List Event :=
  if !v.isValid then [.validationFailed v.defects.length]
  else if !v.doubts.isEmpty then [.validationWarned v.doubts.length]
  else []

end Verdict

/-- Judges a network, unless some value in it cannot be judged. -/
def Registry.validate (r : Registry) (rejected : List Text) : Option Verdict :=
  let found := r.findings rejected
  if found.any Finding.isUnusable then none
  else some
    { defects := found.filterMap Finding.defect?
      doubts := found.filterMap Finding.doubt?
      counts := r.counts }

end LineClosure
