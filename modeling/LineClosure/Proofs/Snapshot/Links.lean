import LineClosure.Proofs.Snapshot.Steps

/-! The rows of links and access points. Each of them enters its record, and for each area that it
names either there is such an area or it is told that there is none. -/

namespace LineClosure

open Keyed

namespace Row

theorem connectionLink_spec {row : Row} {link : ConnectionLink}
    (read : row.connectionLink = .ok link) :
    row.optional "start" = link.startAreaId ∧ row.optional "end" = link.endAreaId := by
  unfold connectionLink at read
  obtain ⟨_, _, rest⟩ := except_bind_eq_ok_iff.mp read
  obtain ⟨_, start, rest⟩ := except_bind_eq_ok_iff.mp rest
  obtain ⟨_, finish, rest⟩ := except_bind_eq_ok_iff.mp rest
  obtain ⟨_, _, rest⟩ := except_bind_eq_ok_iff.mp rest
  cases rest
  exact ⟨optional_of_required start, optional_of_required finish⟩

theorem accessLink_spec {row : Row} {link : AccessLink} (read : row.accessLink = .ok link) :
    row.optional "stop_area" = link.stopAreaId := by
  unfold accessLink at read
  obtain ⟨_, _, rest⟩ := except_bind_eq_ok_iff.mp read
  obtain ⟨_, _, rest⟩ := except_bind_eq_ok_iff.mp rest
  obtain ⟨_, area, rest⟩ := except_bind_eq_ok_iff.mp rest
  obtain ⟨_, _, rest⟩ := except_bind_eq_ok_iff.mp rest
  obtain ⟨_, _, rest⟩ := except_bind_eq_ok_iff.mp rest
  cases rest
  exact optional_of_required area

end Row

namespace Loading

variable {s t : Loading}

/-- The area is named by an identifier, and either there is such an area or it was told that
there is none. -/
def Answers (s : Loading) (kind : Kind) (id : Id) (area : Reference) : Prop :=
  ∃ areaId, area = .scalar areaId ∧
    (s.registry.stopAreas.contains areaId = true ∨ .linkToUnknownArea kind id area ∈ s.events)

theorem Answers.retained {kind : Kind} {id : Id} {area : Reference} (retains : s.Retains t) :
    s.Answers kind id area → t.Answers kind id area := by
  rintro ⟨areaId, named, answer⟩
  exact ⟨areaId, named, answer.imp (retains.areas areaId) fun told => retains.events.subset told⟩

def HasConnection (s : Loading) (row : Row) : Prop :=
  ∃ link ∈ s.registry.connectionLinks.members,
    row.optional "start" = link.startAreaId ∧ row.optional "end" = link.endAreaId ∧
      ∀ area ∈ [link.startAreaId, link.endAreaId], s.Answers .connectionLink link.id area

def HasAccessPoint (s : Loading) (row : Row) : Prop :=
  ∃ point ∈ s.registry.accessPoints.members,
    (row.optional "stop_area").isTruthy = true →
      s.Answers .accessPoint point.id (row.optional "stop_area")

def HasAccessLink (s : Loading) (row : Row) : Prop :=
  ∃ link ∈ s.registry.accessLinks.members,
    row.optional "stop_area" = link.stopAreaId ∧ s.Answers .accessLink link.id link.stopAreaId

theorem HasConnection.retained {row : Row} (retains : s.Retains t) :
    s.HasConnection row → t.HasConnection row := by
  rintro ⟨link, there, start, finish, answers⟩
  have still : link ∈ t.registry.connectionLinks.members :=
    retains.members .connectionLink (fun amended => amended) there
  exact ⟨link, still, start, finish, fun area named => (answers area named).retained retains⟩

theorem HasAccessPoint.retained {row : Row} (retains : s.Retains t) :
    s.HasAccessPoint row → t.HasAccessPoint row := by
  rintro ⟨point, there, answers⟩
  have still : point ∈ t.registry.accessPoints.members :=
    retains.members .accessPoint (fun amended => amended) there
  exact ⟨point, still, fun named => (answers named).retained retains⟩

theorem HasAccessLink.retained {row : Row} (retains : s.Retains t) :
    s.HasAccessLink row → t.HasAccessLink row := by
  rintro ⟨link, there, area, answers⟩
  have still : link ∈ t.registry.accessLinks.members :=
    retains.members .accessLink (fun amended => amended) there
  exact ⟨link, still, area, answers.retained retains⟩

/-- Whatever the rows of links and access points name was answered. -/
structure HasLinks (s : Loading) (document : Row) : Prop where
  connections : ∀ row ∈ document.listed "connection_links", s.HasConnection row
  accessPoints : ∀ row ∈ document.listed "access_points", s.HasAccessPoint row
  accessLinks : ∀ row ∈ document.listed "access_links", s.HasAccessLink row

theorem HasLinks.retained {document : Row} (retains : s.Retains t) (links : s.HasLinks document) :
    t.HasLinks document where
  connections row given := (links.connections row given).retained retains
  accessPoints row given := (links.accessPoints row given).retained retains
  accessLinks row given := (links.accessLinks row given).retained retains

end Loading

namespace Load

open Loading

theorem moves_attach (kind : Kind) (id : Id) (area : Reference) {edit : Edit Unit}
    (joins : Walks (apply edit)) :
    Moves Steps (fun _ t => t.Answers kind id area) (attach kind id area edit) := by
  refine Moves.after_check fun areaId read => ?_
  obtain rfl := Row.identifier_eq_ok_iff.mp read
  intro s a t done
  rw [get_bind] at done
  split at done
  · next there =>
    obtain ⟨steps, _⟩ := joins s a t done
    exact ⟨steps, areaId, rfl, Or.inl (steps.retains.areas areaId there)⟩
  · cases done
    exact ⟨.single (.tells _), areaId, rfl,
      Or.inr (List.mem_append_right _ List.mem_cons_self)⟩

theorem moves_enterConnectionLink (row : Row) :
    Moves Steps (fun _ t => t.HasConnection row) (enterConnectionLink row) := by
  refine Moves.after_check fun link read => ?_
  obtain ⟨start, finish⟩ := Row.connectionLink_spec read
  have first := moves_attach .connectionLink link.id link.startAreaId
    (walks_joinConnection link.startAreaId link .start)
  have second := moves_attach .connectionLink link.id link.endAreaId
    (walks_joinConnection link.endAreaId link .finish)
  have ends := moves_both (fun _ _ => Answers.retained) first fun _ => second
  refine (moves_after_enter .connectionLink (fun amended => amended) link fun _ => ends).mono ?_
  rintro _ t ⟨there, first, second⟩
  refine ⟨link, there, start, finish, fun area named => ?_⟩
  rcases List.mem_pair.mp named with rfl | rfl
  · exact first
  · exact second

/-- An area that counts as empty is passed over, unless there is one of that name. -/
theorem moves_enterAccessPoint (row : Row) :
    Moves Steps (fun _ t => t.HasAccessPoint row) (enterAccessPoint row) := by
  refine Moves.after_check fun point _ => ?_
  refine (moves_after_enter .accessPoint (fun amended => amended) point
    (S := fun t => (row.optional "stop_area").isTruthy = true →
      t.Answers .accessPoint point.id (row.optional "stop_area")) fun _ => ?_).mono
    fun _ t both => ⟨point, both.1, both.2⟩
  refine Moves.after_check fun areaId _ => ?_
  intro s a t done
  rw [get_bind] at done
  split at done
  · obtain ⟨steps, answers⟩ := moves_attach .accessPoint point.id _
      (walks_joinAccessPoint _ point) s a t done
    exact ⟨steps, fun _ => answers⟩
  · next nowhere =>
    cases done
    refine ⟨steps_refl s, fun named => absurd ?_ nowhere⟩
    rw [named, Bool.true_or]

theorem moves_enterAccessLink (row : Row) :
    Moves Steps (fun _ t => t.HasAccessLink row) (enterAccessLink row) := by
  refine Moves.after_check fun link read => ?_
  have place := moves_attach .accessLink link.id link.stopAreaId
    (walks_joinAccessLink link.stopAreaId link)
  exact (moves_after_enter .accessLink (fun amended => amended) link fun _ => place).mono
    fun _ t both => ⟨link, both.1, Row.accessLink_spec read, both.2⟩

theorem moves_services (document : Row) :
    Moves Steps (fun _ t => t.HasLinks document) (services document) := by
  have connections : Moves Steps
      (fun _ t => ∀ row ∈ document.listed "connection_links", t.HasConnection row)
      (table document "connection_links" enterConnectionLink) :=
    moves_table (fun _ _ _ => HasConnection.retained) moves_enterConnectionLink
  have accessPoints : Moves Steps
      (fun _ t => ∀ row ∈ document.listed "access_points", t.HasAccessPoint row)
      (table document "access_points" enterAccessPoint) :=
    moves_table (fun _ _ _ => HasAccessPoint.retained) moves_enterAccessPoint
  have accessLinks : Moves Steps
      (fun _ t => ∀ row ∈ document.listed "access_links", t.HasAccessLink row)
      (table document "access_links" enterAccessLink) :=
    moves_table (fun _ _ _ => HasAccessLink.retained) moves_enterAccessLink
  have timetables : ∀ row : Row,
      Walks (check row.timetable >>= fun t => apply (Edit.enter t)) :=
    fun row => Moves.after_check fun t _ => walks_enter .timetable t
  have rest : Walks (do
      table document "timetables" fun row => check row.timetable >>= fun t => apply (Edit.enter t)
      table document "lines" enterLine) :=
    (walks_table timetables).seq Steps.trans fun _ => walks_table walks_enterLine
  have third := moves_both (fun _ _ retains all row given => (all row given).retained retains)
    accessLinks fun _ => rest
  have second := moves_both (fun _ _ retains all row given => (all row given).retained retains)
    accessPoints fun _ => third
  refine (moves_both (fun _ _ retains all row given => (all row given).retained retains)
    connections fun _ => second).mono ?_
  rintro _ t ⟨connections, accessPoints, accessLinks, _⟩
  exact ⟨connections, accessPoints, accessLinks⟩

theorem moves_sections (document : Row) :
    Moves Steps (fun _ t => t.HasLinks document) (sections document) := by
  rw [sections_eq]
  refine (walks_preamble document).seq Steps.trans fun _ => ?_
  refine (walks_table walks_enterStopArea).seq Steps.trans fun _ => ?_
  refine (walks_table walks_enterParent).seq Steps.trans fun _ => ?_
  refine (walks_table walks_enterStopPoint).seq Steps.trans fun _ => ?_
  refine (moves_both (fun s t => HasLinks.retained) (moves_services document) fun _ =>
    (walks_table walks_enterConstraints).seq Steps.trans fun _ => walks_tellRejected).mono ?_
  exact fun _ t both => both.1

end Load
end LineClosure
