import LineClosure.Proofs.Registry.RosterContents
import LineClosure.Registry.Attachments

/-! The rows of a relation after each of its changes, one equation a change. Identifiers that
are texts have one form only, so that for them a row is a plain list. -/

namespace LineClosure

open Keyed

namespace Attachments

section
variable {ι : Type}

theorem row_amend (r : Attachments ι) (holder : Id) (edit : List ι → List ι)
    (keeps : ∀ a : Attachment ι, key { a with items := edit a.items } = key a)
    (nothing : r.find? holder = none → edit [] = []) (other : Id) :
    row (r.amend holder (fun a => { a with items := edit a.items }) keeps) other =
      if canonical other = canonical holder then edit (r.row holder) else r.row other := by
  simp only [row]
  rw [Roster.find?_amend]
  split
  · next same =>
    have found : r.find? other = r.find? holder := by simp only [Roster.find?, same]
    rw [found]
    cases there : r.find? holder with
    | none => exact (nothing there).symm
    | some a => simp [Roster.identity_of_find? there]
  · next differ =>
    cases there : r.find? other with
    | none => rfl
    | some a =>
      have other : identity a ≠ canonical holder := fun same =>
        differ ((Roster.identity_of_find? there).symm.trans same)
      simp [other]

theorem row_editRow (r : Attachments ι) (holder : Id) (edit : List ι → List ι) (other : Id) :
    (r.editRow holder edit).row other =
      if canonical other = canonical holder then edit (r.row holder) else r.row other := by
  have there : ∀ id, row (r.insert ⟨holder, []⟩) id = r.row id := by
    intro id
    simp only [row, Roster.find?_insert]
    cases r.find? id with
    | some a => rfl
    | none =>
      rw [Option.none_or]
      split <;> rfl
  have present : (r.insert ⟨holder, []⟩).find? holder ≠ none := by
    rw [Roster.find?_insert]
    cases r.find? holder with
    | some a => simp
    | none => simp [identity, key]
  unfold editRow
  rw [row_amend _ _ _ _ fun none => absurd none present, there, there]

theorem row_append (r : Attachments ι) (holder : Id) (item : ι) (other : Id) :
    (r.append holder item).row other =
      if canonical other = canonical holder then r.row holder ++ [item] else r.row other :=
  row_editRow r holder _ other

end

section
variable {ι : Type} [DecidableEq ι] [Canonical ι]

theorem row_attach (r : Attachments ι) (holder : Id) (item : ι) (other : Id) :
    (r.attach holder item).row other =
      if canonical other = canonical holder then
        if lists (r.row holder) item then r.row holder else r.row holder ++ [item]
      else r.row other :=
  row_editRow r holder _ other

theorem row_detach (r : Attachments ι) (holder : Id) (item : ι) (other : Id) :
    (r.detach holder item).row other =
      if canonical other = canonical holder then (r.row holder).eraseP (same item)
      else r.row other :=
  row_amend r holder _ _ (fun _ => rfl) other

end

/-! ## Texts -/

theorem same_text_left {t : Text} {s : Scalar} : same (.text t) s = decide (s = .text t) := by
  rw [Bool.eq_iff_iff, decide_eq_true_iff, ← same_text]
  simp only [same, eq_comm]

theorem lists_text {items : List Id} {t : Text} :
    lists items (.text t) = true ↔ .text t ∈ items := by
  simp [lists, same_text_left]

theorem eraseP_text (items : List Id) (t : Text) :
    items.eraseP (same (.text t)) = items.erase (.text t) := by
  rw [List.erase_eq_eraseP]
  congr 1
  funext s
  rw [same_text_left, beq_eq_decide]
  exact decide_eq_decide.mpr eq_comm

theorem canonical_text_iff {s : Scalar} {t : Text} :
    canonical s = canonical (.text t) ↔ s = .text t := canonical_eq_text_iff

/-- What a text lists after an attachment it listed before, but for the item attached. -/
theorem mem_row_attach {ι : Type} [DecidableEq ι] [Canonical ι] {r : Attachments ι} {holder : Text}
    {item x : ι} {other : Id} (listed : x ∈ (r.attach (.text holder) item).row other) :
    x ∈ r.row other ∨ (other = .text holder ∧ x = item) := by
  rw [row_attach] at listed
  split at listed
  · next same =>
    obtain rfl := canonical_text_iff.mp same
    split at listed
    · exact Or.inl listed
    · rcases List.mem_append.mp listed with old | new
      · exact Or.inl old
      · exact Or.inr ⟨rfl, List.mem_singleton.mp new⟩
  · exact Or.inl listed

theorem mem_row_detach {ι : Type} [DecidableEq ι] [Canonical ι] {r : Attachments ι} {holder : Text}
    {item x : ι} {other : Id} (listed : x ∈ (r.detach (.text holder) item).row other) :
    x ∈ r.row other := by
  rw [row_detach] at listed
  split at listed
  · next same =>
    obtain rfl := canonical_text_iff.mp same
    exact List.mem_of_mem_eraseP listed
  · exact listed

theorem row_append_text {ι : Type} (r : Attachments ι) (holder : Text) (item : ι) (other : Id) :
    (r.append (.text holder) item).row other =
      if other = .text holder then r.row other ++ [item] else r.row other := by
  rw [row_append]
  simp only [canonical_text_iff]
  split
  · next same => rw [same]
  · rfl

theorem row_detach_text (r : Attachments Id) (holder item : Text) (other : Id) :
    (r.detach (.text holder) (.text item)).row other =
      if other = .text holder then (r.row other).erase (.text item) else r.row other := by
  rw [row_detach, eraseP_text]
  simp only [canonical_text_iff]
  split
  · next same => rw [same]
  · rfl

end Attachments
end LineClosure
