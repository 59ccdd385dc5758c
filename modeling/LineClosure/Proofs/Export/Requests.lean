import LineClosure.Export.Job
import LineClosure.Proofs.Registry.RosterContents
import LineClosure.Proofs.Snapshot.Sections

/-! The lines that an export is asked for: every line of the network, or those that are named, in
the order in which they are named and as often. -/

namespace LineClosure

open Keyed

theorem Value.elements?_of_isNull {v : Value} (null : v.isNull = true) : v.elements? = none := by
  cases v with
  | scalar s =>
    cases s with
    | null => rfl
    | _ => cases null
  | _ => cases null

namespace ExportRequest

variable {r : Registry} {request : ExportRequest} {lines : List Line}

theorem lines_of_null (all : request.lineIds.isNull = true) :
    request.lines r = .ok r.lines.members := by
  unfold ExportRequest.lines
  rw [if_pos all]
  rfl

theorem mapM_identifier_eq_ok {requested : List Value} {ids : List Id}
    (read : requested.mapM Row.identifier = .ok ids) : requested = ids.map .scalar := by
  induction requested generalizing ids with
  | nil =>
    cases read
    rfl
  | cons v rest ih =>
    rw [List.mapM_cons] at read
    obtain ⟨id, first, later⟩ := except_bind_eq_ok_iff.mp read
    obtain ⟨others, reads, last⟩ := except_bind_eq_ok_iff.mp later
    cases last
    rw [Row.identifier_eq_ok_iff.mp first, ih reads]
    rfl

/-- Each of some lines is the one that its identifier names. -/
def Names (r : Registry) (ids : List Id) (lines : List Line) : Prop :=
  List.Forall₂ (fun id line => r.lines.find? id = some line) ids lines

theorem names_of_contained {ids : List Id} (known : ∀ id ∈ ids, r.lines.contains id = true) :
    Names r ids (ids.filterMap r.lines.find?) := by
  induction ids with
  | nil => exact .nil
  | cons id rest ih =>
    have first := known id List.mem_cons_self
    rw [Roster.contains_eq_isSome] at first
    obtain ⟨line, found⟩ := Option.isSome_iff_exists.mp first
    rw [List.filterMap_cons, found]
    exact .cons found (ih fun other given => known other (List.mem_cons_of_mem id given))

/-- The lines of a request are all lines, or those that are asked for, in order. -/
theorem lines_cases (requested : request.lines r = .ok lines) :
    (request.lineIds.isNull = true ∧ lines = r.lines.members) ∨
      ∃ ids, request.lineIds.elements? = some (ids.map .scalar) ∧ Names r ids lines := by
  unfold ExportRequest.lines at requested
  by_cases all : request.lineIds.isNull = true
  · rw [if_pos all] at requested
    cases requested
    exact Or.inl ⟨all, rfl⟩
  · rw [if_neg all] at requested
    refine Or.inr ?_
    cases listed : request.lineIds.elements? with
    | none =>
      rw [listed] at requested
      cases requested
    | some values =>
      rw [listed] at requested
      obtain ⟨ids, read, rest⟩ := except_bind_eq_ok_iff.mp requested
      dsimp only at rest
      by_cases unknown : (ids.filter fun id => !r.lines.contains id).isEmpty
      · rw [if_neg (by simp [unknown])] at rest
        cases rest
        refine ⟨ids, by rw [mapM_identifier_eq_ok read], names_of_contained fun id given => ?_⟩
        have none := List.isEmpty_iff.mp unknown
        simpa using List.filter_eq_nil_iff.mp none id given
      · rw [if_pos (by simp [unknown])] at rest
        obtain ⟨_, _, thrown⟩ := except_bind_eq_ok_iff.mp rest
        cases thrown

theorem Names.registered {ids : List Id} (names : Names r ids lines) :
    ∀ line ∈ lines, line ∈ r.lines.members := by
  induction names with
  | nil => exact fun _ given => absurd given List.not_mem_nil
  | cons found _ ih => exact List.forall_mem_cons.mpr ⟨Roster.mem_of_find? found, ih⟩

theorem Names.identities {ids : List Id} (names : Names r ids lines) :
    lines.map identity = ids.map canonical := by
  induction names with
  | nil => rfl
  | cons found _ ih => rw [List.map_cons, List.map_cons, Roster.identity_of_find? found, ih]

theorem Names.filterMap {ids : List Id} (names : Names r ids lines) :
    ids.filterMap r.lines.find? = lines := by
  induction names with
  | nil => rfl
  | cons found _ ih => rw [List.filterMap_cons_some found, ih]

theorem Names.contained {ids : List Id} (names : Names r ids lines) :
    ∀ id ∈ ids, r.lines.contains id = true := by
  induction names with
  | nil => exact fun _ given => absurd given List.not_mem_nil
  | cons found _ ih =>
    refine List.forall_mem_cons.mpr ⟨?_, ih⟩
    rw [Roster.contains_eq_isSome, found]
    rfl

theorem lines_of_names {ids : List Id}
    (listed : request.lineIds.elements? = some (ids.map .scalar)) (names : Names r ids lines) :
    request.lines r = .ok lines := by
  have given : ¬request.lineIds.isNull = true := by
    intro null
    rw [Value.elements?_of_isNull null] at listed
    cases listed
  have none : (ids.filter fun id => !r.lines.contains id) = [] := by
    apply List.filter_eq_nil_iff.mpr
    intro id named
    rw [names.contained id named]
    exact Bool.false_ne_true
  unfold ExportRequest.lines
  rw [if_neg given, listed]
  dsimp only
  have reads : ∀ id : Id, Row.identifier (.scalar id) = .ok id := fun _ => rfl
  rw [mapM_of_reads reads]
  change (if !(ids.filter fun id => !r.lines.contains id).isEmpty then _ else _) = _
  rw [none, names.filterMap]
  rfl

theorem nodup_of_requested (requested : request.lines r = .ok lines)
    (once : request.lineIds.isNull = true ∨
      ∃ ids : List Id, request.lineIds.elements? = some (ids.map .scalar) ∧
        (ids.map canonical).Nodup) :
    lines.Nodup := by
  rcases once with null | ⟨ids, listed, once⟩
  · obtain rfl := Except.ok.inj ((lines_of_null null).symm.trans requested)
    exact List.Nodup.of_map _ r.lines.distinct
  · rcases lines_cases requested with ⟨_, rfl⟩ | ⟨others, also, names⟩
    · exact List.Nodup.of_map _ r.lines.distinct
    · have same : ids.map Value.scalar = others.map Value.scalar :=
        Option.some.inj (listed.symm.trans also)
      obtain rfl := List.map_injective_iff.mpr (fun _ _ => Value.scalar.inj) same
      apply List.Nodup.of_map identity
      rw [names.identities]
      exact once

theorem mem_of_requested (requested : request.lines r = .ok lines) :
    ∀ line ∈ lines, line ∈ r.lines.members := by
  rcases lines_cases requested with ⟨_, rfl⟩ | ⟨ids, _, names⟩
  · exact fun _ given => given
  · exact names.registered

end ExportRequest
end LineClosure
