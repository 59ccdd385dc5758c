import LineClosure.Proofs.Registry.AttachmentRows
import LineClosure.Proofs.Sequence

/-! Where items are and whom holders hold, kept as inverses of each other. Moving an item and
taking it out keep them so, and never meet an item that is in a list without having a
place. Identifiers are texts throughout. -/

namespace LineClosure

namespace Placement

open Keyed Attachments

def noted (p : Placement) (item : Id) : Option Id := (p.places.find? item).map (·.holder)

/-! ## The branches of a change -/

section
variable {p : Placement} {holder item former : Id}

theorem withdraw_of_listed (listed : lists (p.row holder) item = true) :
    withdraw holder item p = .ok () { p with held := p.held.detach holder item } := by
  unfold withdraw
  rw [get_bind, if_pos listed]
  rfl

theorem put_of_same (here : p.holder? item = some former) (same : former.equals holder = true) :
    put holder item p = .ok () p := by
  unfold put
  rw [get_bind]
  simp only [here, Option.getD_some, same, ↓reduceIte]
  rfl

theorem put_of_nowhere (nowhere : p.holder? item = none)
    (named : Scalar.null.equals holder = false) :
    put holder item p =
      .ok () { places := note p.places item holder, held := p.held.append holder item } := by
  unfold put
  rw [get_bind]
  simp only [nowhere, Option.getD_none, named, Bool.false_eq_true, ↓reduceIte]
  rfl

theorem put_of_former (here : p.holder? item = some former)
    (differ : former.equals holder = false) (listed : lists (p.row former) item = true) :
    put holder item p =
      .ok ()
        { places := note p.places item holder
          held := (p.held.detach former item).append holder item } := by
  unfold put
  rw [get_bind]
  simp only [here, Option.getD_some, differ, Bool.false_eq_true, ↓reduceIte]
  rw [bind_ok (withdraw_of_listed listed)]
  rfl

theorem take_of_unlisted (unlisted : lists (p.row holder) item = false) :
    take holder item p = .ok () p := by
  unfold take
  rw [get_bind]
  simp only [unlisted, Bool.false_eq_true, ↓reduceIte]
  rfl

theorem take_of_listed (listed : lists (p.row holder) item = true)
    (placed : p.places.contains item = true) :
    take holder item p =
      .ok () { places := p.places.erase item, held := p.held.detach holder item } := by
  unfold take
  rw [get_bind, if_pos listed]
  refine (bind_ok rfl).trans ?_
  rw [get_bind, if_pos placed]
  rfl

end

/-! ## What is noted -/

theorem noted_note (places : Roster Place) (held : Attachments Id) (item : Text)
    (holder other : Id) :
    noted ⟨note places (.text item) holder, held⟩ other =
      if other = .text item then some holder else (places.find? other).map (·.holder) := by
  unfold noted note
  rw [Roster.find?_amend, Roster.find?_insert]
  by_cases same : other = .text item
  · rw [if_pos same, same]
    cases there : places.find? (.text item) with
    | none => simp [identity, key]
    | some place =>
      rw [Option.some_or, Option.map_some, if_pos (Roster.identity_of_find? there)]
      rfl
  · have apart : canonical (Scalar.text item) ≠ canonical other := fun alike =>
      same (canonical_eq_text_iff.mp alike.symm)
    have unlike : identity (⟨.text item, holder⟩ : Place) ≠ canonical other := apart
    rw [if_neg same, if_neg unlike, Option.or_none]
    cases there : places.find? other with
    | none => rfl
    | some place =>
      have elsewhere : identity place ≠ canonical (Scalar.text item) := fun alike =>
        apart (alike.symm.trans (Roster.identity_of_find? there))
      rw [Option.map_some, if_neg elsewhere]

theorem noted_erase (places : Roster Place) (held : Attachments Id) (item : Text) (other : Id) :
    noted ⟨places.erase (.text item), held⟩ other =
      if other = .text item then none else (places.find? other).map (·.holder) := by
  simp only [noted, Roster.find?_erase, canonical_text_iff]
  split <;> rfl

/-! ## The law -/

/-- The places and the lists tell the same: an item is in the list of its holder, once, and
in no other list. All identifiers are texts. -/
structure Mutual (p : Placement) : Prop where
  textual : ∀ holder, ∀ item ∈ p.row holder, ∃ h i, holder = .text h ∧ item = .text i
  inverse : ∀ holder item, p.noted item = some holder ↔ item ∈ p.row holder
  once : ∀ holder, (p.row holder).Nodup

theorem mutual_empty : Mutual {} where
  textual holder item listed := by cases listed
  inverse holder item := iff_of_false (by intro found; cases found) (by intro listed; cases listed)
  once holder := List.nodup_nil

inductive Puts (p : Placement) (holder item : Text) : Placement → Prop where
  | stays (here : p.noted (.text item) = some (.text holder)) : Puts p holder item p
  | moves {q : Placement} (elsewhere : .text item ∉ p.row (.text holder))
    (noted : ∀ other, q.noted other =
      if other = .text item then some (.text holder) else p.noted other)
    (rows : ∀ other, q.row other =
      if other = .text holder then p.row other ++ [.text item]
      else (p.row other).erase (.text item)) : Puts p holder item q

/-- The item is not in the list of the holder. If it was before, it has no place any more. -/
inductive Takes (p : Placement) (holder item : Text) : Placement → Prop where
  | stays (elsewhere : .text item ∉ p.row (.text holder)) : Takes p holder item p
  | leaves {q : Placement} (here : .text item ∈ p.row (.text holder))
    (noted : ∀ other, q.noted other = if other = .text item then none else p.noted other)
    (rows : ∀ other, q.row other = (p.row other).erase (.text item)) : Takes p holder item q

namespace Mutual

variable {p q : Placement} {holder item : Text}

theorem holder_unique (m : p.Mutual) {item first second : Id} (one : item ∈ p.row first)
    (other : item ∈ p.row second) : first = second :=
  Option.some.inj (((m.inverse first item).mpr one).symm.trans ((m.inverse second item).mpr other))

theorem row_detach (m : p.Mutual) (listed : .text item ∈ p.row (.text holder)) (other : Id) :
    (p.held.detach (.text holder) (.text item)).row other = (p.row other).erase (.text item) := by
  rw [row_detach_text]
  split
  · rfl
  · next away =>
    rw [List.erase_of_not_mem fun here => away (m.holder_unique here listed)]
    rfl

theorem holder_cases (m : p.Mutual) (item : Text) :
    (p.noted (.text item) = none ∧ p.holder? (.text item) = none) ∨
      ∃ former, p.noted (.text item) = some (.text former) ∧
        p.holder? (.text item) = some (.text former) := by
  unfold noted holder?
  cases there : p.places.find? (.text item) with
  | none => exact Or.inl ⟨rfl, rfl⟩
  | some place =>
    have found : p.noted (.text item) = some place.holder := by rw [noted, there]; rfl
    obtain ⟨former, _, same, _⟩ := m.textual _ _ ((m.inverse _ _).mp found)
    obtain ⟨name, holder⟩ := place
    cases same
    exact Or.inr ⟨former, rfl, rfl⟩

theorem holder?_eq_noted (m : p.Mutual) (id : Id) : p.holder? id = p.noted id := by
  cases found : p.noted id with
  | some holder =>
    obtain ⟨_, item, _, rfl⟩ := m.textual _ _ ((m.inverse _ _).mp found)
    rcases m.holder_cases item with ⟨nowhere, _⟩ | ⟨former, there, here⟩
    · rw [nowhere] at found
      cases found
    · rw [here, ← there, found]
  | none =>
    unfold noted at found
    unfold holder?
    rw [Option.map_eq_none_iff.mp found]

theorem put_ok (m : p.Mutual) (holder item : Text) :
    ∃ q, put (.text holder) (.text item) p = .ok () q ∧ Puts p holder item q := by
  rcases m.holder_cases item with ⟨there, nowhere⟩ | ⟨former, there, here⟩
  · have absent : ∀ other, .text item ∉ p.row other := by
      intro other listed
      rw [← m.inverse, there] at listed
      cases listed
    refine ⟨_, put_of_nowhere nowhere rfl, .moves (absent _) (fun other => ?_) fun other => ?_⟩
    · exact noted_note p.places _ item (.text holder) other
    · rw [List.erase_of_not_mem (absent other)]
      exact row_append_text p.held holder (.text item) other
  · by_cases same : former = holder
    · subst same
      exact ⟨p, put_of_same here (equals_text.mpr rfl), .stays there⟩
    · have differ : Scalar.equals (.text former) (.text holder) = false := by
        rw [Bool.eq_false_iff]
        exact fun equal => same (Scalar.text.inj (equals_text.mp equal))
      have listed : .text item ∈ p.row (.text former) := (m.inverse _ _).mp there
      have absent : .text item ∉ p.row (.text holder) := fun here =>
        same (Scalar.text.inj (m.holder_unique listed here))
      refine ⟨_, put_of_former here differ (lists_text.mpr listed),
        .moves absent (fun other => ?_) fun other => ?_⟩
      · exact noted_note p.places _ item (.text holder) other
      · rw [row, row_append_text, m.row_detach listed]
        split
        · next here => rw [here, List.erase_of_not_mem absent]
        · rfl

theorem take_ok (m : p.Mutual) (holder item : Text) :
    ∃ q, take (.text holder) (.text item) p = .ok () q ∧ Takes p holder item q := by
  by_cases listed : .text item ∈ p.row (.text holder)
  · have there : p.noted (.text item) = some (.text holder) := (m.inverse _ _).mpr listed
    have placed : p.places.contains (.text item) = true := by
      rw [Roster.contains_eq_isSome, ← Option.isSome_map]
      exact Option.isSome_of_eq_some there
    refine ⟨_, take_of_listed (lists_text.mpr listed) placed, .leaves listed (fun other => ?_)
      fun other => ?_⟩
    · exact noted_erase p.places _ item other
    · exact m.row_detach listed other
  · refine ⟨p, take_of_unlisted ?_, .stays listed⟩
    rw [Bool.eq_false_iff]
    exact fun found => listed (lists_text.mp found)

theorem of_puts (m : p.Mutual) (puts : Puts p holder item q) : q.Mutual := by
  cases puts with
  | stays => exact m
  | moves elsewhere noted rows =>
    refine ⟨fun other x listed => ?_, fun other x => ?_, fun other => ?_⟩
    · rw [rows] at listed
      split at listed
      · next same =>
        rcases List.mem_append.mp listed with old | new
        · exact m.textual other x old
        · exact ⟨holder, item, same, List.mem_singleton.mp new⟩
      · exact m.textual other x (List.mem_of_mem_erase listed)
    · rw [noted, rows]
      -- the item is in the holder's row and in no other, all else is where it was
      by_cases same : x = .text item
      · subst same
        rw [if_pos rfl]
        split
        · next here => simp [here]
        · next away =>
          rw [(m.once other).mem_erase_iff]
          simp [Ne.symm away]
      · rw [if_neg same, m.inverse]
        split
        · simp [same]
        · rw [List.mem_erase_of_ne same]
    · rw [rows]
      split
      · next same =>
        rw [same]
        refine List.nodup_append.mpr ⟨m.once _, List.nodup_singleton _, ?_⟩
        intro x listed y single found
        subst found
        rw [List.mem_singleton.mp single] at listed
        exact elsewhere listed
      · exact (m.once other).erase _

theorem of_takes (m : p.Mutual) (takes : Takes p holder item q) : q.Mutual := by
  cases takes with
  | stays => exact m
  | leaves here noted rows =>
    refine ⟨fun other x listed => ?_, fun other x => ?_, fun other => ?_⟩
    · rw [rows] at listed
      exact m.textual other x (List.mem_of_mem_erase listed)
    · rw [noted, rows, (m.once other).mem_erase_iff, ← m.inverse]
      split
      · next same => simp [same]
      · next differ => simp [differ]
    · rw [rows]
      exact (m.once other).erase _

end Mutual
end Placement
end LineClosure
