import LineClosure.Proofs.Snapshot.Declared
import LineClosure.Proofs.Snapshot.Ownership
import LineClosure.Proofs.Snapshot.Settling

/-! Which documents are accepted. A document that is in order is loaded to its end, unless two
rows of a kind have one identifier, wherever they are nested; then it is refused as a
duplicate of that kind. -/

namespace LineClosure

/-- A document in which every row can be read and every look-up can be made. Whether what is
looked up is there, and whether identifiers are used twice, is not asked. -/
structure Row.WellFormed (document : Row) : Prop where
  sections : ∀ kind : Kind, ¬kind.IsNested →
    document.items kind.tableName = .ok (document.listed kind.tableName)
  accepts : ∀ kind : Kind, ∀ row ∈ document.owned kind, kind.Accepts row
  parents : ∀ row ∈ document.ofKind .stopArea, (row.optional "parent").isTruthy = true →
    ∃ id, row.optional "parent" = .scalar id
  lists : ∀ row ∈ document.ofKind .stopArea, Load.ListsConstraints row
  constrained : ∀ row ∈ document.ofKind .stopArea,
    ∀ entry ∈ row.listed "routing_constraint_areas", ∃ id, entry = .scalar id

namespace Load

variable {s : Loading}

/-! ## Places -/

theorem settles_table {document : Row} {name : String} {enter : Row → Load Unit}
    {part : Row → Rows} (has : document.items name = .ok (document.listed name))
    (each : ∀ row ∈ document.listed name, ∀ s, Settles (enter row) s (part row)) (s : Loading) :
    Settles (table document name enter) s (.gather (document.listed name) part) :=
  Settles.after_check (settles_each each s) has

section
variable {areas stops : List Row}

theorem settles_parents (applied : Applied [] s)
    (fitted : ∀ row ∈ areas, ∃ area, row.fittedArea? = some area) (distinct : Distinct areas)
    (parents : ∀ row ∈ areas, (row.optional "parent").isTruthy = true →
      ∃ id, row.optional "parent" = .scalar id) : Settles (areas.forM enterParent) s .none := by
  have decides : ∀ d ∈ areas.flatMap Row.parents, Decides s d := by
    intro d given
    obtain ⟨row, member, listed⟩ := List.mem_flatMap.mp given
    obtain ⟨truthy, rfl⟩ := mem_parents_iff.mp listed
    obtain ⟨area, fits⟩ := fitted row member
    have named := Row.optional_of_required (Row.fittedArea?_spec fits).1
    exact decides_of_scalar (parents row member truthy) (fun _ => ⟨area.id, named⟩) s
  have ready := parents_ready areas applied
  obtain ⟨t, done, _⟩ := forM_declare_runs applied.ready (fun d given => (ready d given).1)
    (fun d given => (ready d given).2) (apart_parents distinct) decides
  exact settles_of_runs (brings_forM_none areas brings_enterParent)
    ⟨_, t, parents_eq fitted ▸ done⟩

def placesPart (areas stops : List Row) : Rows :=
  (Rows.gather areas fun row => .one .stopArea (.null, row)).append
    (.gather stops fun row => .one .stopPoint (.null, row))

theorem settles_enterPlaces (bare : Bare s) (areasText : Textual areas) (stopsText : Textual stops)
    (readable : (placesPart areas stops).Readable)
    (parents : ∀ row ∈ areas, (row.optional "parent").isTruthy = true →
      ∃ id, row.optional "parent" = .scalar id) :
    Settles (enterPlaces areas stops) s (placesPart areas stops) := by
  have entered := settles_each
    (fun row given => settles_enterStopArea (readable.left.each given).single) s
  refine entered.bind fun _ u first => ?_
  obtain ⟨fitted, _, members, _⟩ := forM_enterStopArea_spec first
  rw [bare.areas, List.nil_append] at members
  have atFirst := applied_of_areas bare areasText first
  have distinct := distinct_of_areas fitted (members ▸ u.registry.stopAreas.distinct)
  refine (settles_parents atFirst fitted distinct parents).bind fun _ v second => ?_
  rw [parents_eq fitted] at second
  have ready := parents_ready areas atFirst
  obtain ⟨_, applies, _⟩ := forM_declare_spec atFirst.ready (fun d given => (ready d given).1)
    (fun d given => (ready d given).2) (apart_parents distinct) second
  have atSecond : Applied (areas.flatMap Row.parents) v := atFirst.more applies
  refine settles_forM (fun s => s.registry.Ready ∧ Sited s) ?_ ?_
    ⟨atSecond.ready, sited_of_parents atSecond⟩
  · intro row given t holds
    exact settles_enterStopPoint holds.1 holds.2 (stopsText row given)
      (readable.right.each given).single
  · intro row given t w holds done
    obtain ⟨_, _, enters⟩ := enterStopPoint_spec holds.1 holds.2 (stopsText row given) done
    exact ⟨enters.applies.ready, enters.sited⟩

end

/-! ## Sections beside the places -/

theorem settles_plain {document : Row} (kind : Kind) {read : Row → Except Failure kind.Entry}
    (reads : ∀ row, kind.record? (.null, row) = (read row).toOption)
    (has : document.items kind.tableName = .ok (document.listed kind.tableName))
    (readable : (tablePart document kind).Readable) (s : Loading) :
    Settles (table document kind.tableName fun row => do apply (Edit.enter (← check (read row))))
      s (tablePart document kind) := by
  refine settles_table has (fun row given s => ?_) s
  obtain ⟨a, found⟩ := (readable.each given).single.reads
  refine Settles.after_check ?_ (toOption_eq_some_iff.mp ((reads row).symm.trans found))
  exact settles_enter kind (Row.ownId_of_required (kind.required_of_record? found)) s

/-! ## All sections -/

section
variable (document : Row)

def preamblePart : Rows :=
  (tablePart document .network).append <| (tablePart document .company).append <|
    tablePart document .groupOfLines

def servicesPart : Rows :=
  (tablePart document .connectionLink).append <| (tablePart document .accessPoint).append <|
    (tablePart document .accessLink).append <| (tablePart document .timetable).append <|
    linesPart document

theorem documentPart_split :
    documentPart document = (preamblePart document).append
      ((placesPart (document.listed "stop_areas") (document.listed "stop_points")).append
        (servicesPart document)) := by
  funext kind
  simp only [documentPart, preamblePart, placesPart, servicesPart, tablePart, Rows.append,
    List.append_assoc, Kind.tableName]

end

section
variable {document : Row}
  (has : ∀ kind : Kind, ¬kind.IsNested →
    document.items kind.tableName = .ok (document.listed kind.tableName))

include has

theorem settles_preamble (readable : (preamblePart document).Readable) (s : Loading) :
    Settles (preamble document) s (preamblePart document) := by
  refine (settles_plain .network (fun _ => rfl) (has .network id) readable.left s).bind
    fun _ t _ => ?_
  refine (settles_plain .company (fun _ => rfl) (has .company id) readable.right.left t).bind
    fun _ u _ => ?_
  exact settles_plain .groupOfLines (fun _ => rfl) (has .groupOfLines id) readable.right.right u

theorem settles_services (readable : (servicesPart document).Readable) (s : Loading) :
    Settles (services document) s (servicesPart document) := by
  have connections := settles_table (has .connectionLink id) (fun row given =>
    settles_enterConnectionLink (readable.left.each given).single) s
  refine connections.bind fun _ t _ => ?_
  have points := settles_table (has .accessPoint id) (fun row given =>
    settles_enterAccessPoint (readable.right.left.each given).single) t
  refine points.bind fun _ u _ => ?_
  have links := settles_table (has .accessLink id) (fun row given =>
    settles_enterAccessLink (readable.right.right.left.each given).single) u
  refine links.bind fun _ v _ => ?_
  have timetables := settles_plain .timetable (fun _ => rfl) (has .timetable id)
    readable.right.right.right.left v
  refine timetables.bind fun _ w _ => ?_
  exact settles_table (has .line id) (fun row given =>
    settles_enterLine (readable.right.right.right.right.each given)) w

end

theorem settles_constraints {rows : List Row} (ready : s.registry.Ready)
    (lists : ∀ row ∈ rows, ListsConstraints row)
    (textual : Textual rows)
    (listed : ∀ row ∈ rows, ∀ entry ∈ row.listed "routing_constraint_areas",
      ∃ id, entry = .scalar id) : Settles (rows.forM enterConstraints) s .none := by
  have decides : ∀ d ∈ rows.flatMap Row.constraints, Decides s d := by
    intro d given
    obtain ⟨row, member, declared⟩ := List.mem_flatMap.mp given
    obtain ⟨x, text⟩ := textual row member
    rcases List.mem_append.mp declared with area | line
    · obtain ⟨entry, there, rfl⟩ := List.mem_map.mp area
      exact decides_of_scalar ⟨_, text⟩ (fun _ => listed row member entry there) s
    · obtain ⟨entry, _, rfl⟩ := List.mem_map.mp line
      refine decides_of_scalar ⟨_, text⟩ (fun area => ?_) s
      rcases area with same | same <;> cases same
  obtain ⟨free, apart⟩ := constraints_ready s rows
  obtain ⟨t, done, _⟩ := forM_declare_runs ready (fun d given => (free d given).1)
    (fun d given => (free d given).2) apart decides
  exact settles_of_runs (brings_forM_none rows brings_enterConstraints)
    ⟨_, t, constraints_eq lists ▸ done⟩

/-- A document that is in order is loaded to its end, or it is refused because of an identifier
that two of its rows have. -/
theorem settles_sections {document : Row} (wellFormed : document.WellFormed)
    (areasText : Textual (document.ofKind .stopArea))
    (stopsText : Textual (document.ofKind .stopPoint)) :
    Settles (sections document) {} document.owned := by
  have has := wellFormed.sections
  have readable : Rows.Readable document.owned := wellFormed.accepts
  have areas := document.ofKind_of_plain .stopArea id
  rw [← documentPart_eq, documentPart_split] at readable ⊢
  rw [sections_of_items (has .stopArea id) (has .stopPoint id)]
  rw [areas] at areasText
  rw [document.ofKind_of_plain .stopPoint id] at stopsText
  refine (settles_preamble has readable.left {}).bind fun _ start first => ?_
  have bare := bare_of_preamble first
  refine (settles_enterPlaces bare areasText stopsText readable.right.left
    (areas ▸ wellFormed.parents)).bind fun _ placed second => ?_
  have ready := (enterPlaces_spec bare areasText stopsText second).applied.ready
  refine (settles_services has readable.right.right placed).then_none fun _ served third => ?_
  obtain ⟨aside, rejected, _⟩ := follows_services document placed () served third
  have serving := applies_of_aside ready aside rejected
  refine (settles_constraints serving.ready (areas ▸ wellFormed.lists) areasText
    (areas ▸ wellFormed.constrained)).then_none fun _ ended _ => ?_
  obtain ⟨events, told⟩ := tellRejected_run ended
  exact settles_of_runs brings_tellRejected ⟨(), _, told⟩

/-! ## What a loaded document says of its rows -/

theorem scalar_of_decides {d : Declaration} (decides : Decides s d) :
    ∃ id, d.holder = .scalar id := by
  refine (scalar_or_unusable d.holder).resolve_right fun unusable => ?_
  have failed := lookUp_of_unusable (α := StopArea) s.registry unusable
  have refused : s.registry.landing d = .error (.unusable d.holder) := by
    obtain ⟨relation, holder, item⟩ := d
    cases relation <;> exact except_bind_eq_error_iff.mpr (Or.inl failed)
  exact (decides _ refused).elim

theorem scalar_of_listed {holder item : Reference} {area : StopArea}
    (found : s.registry.stopAreas.resolve? holder = some area)
    (decides : Decides s ⟨.constrainedAreas, holder, item⟩) : ∃ id, item = .scalar id := by
  refine (scalar_or_unusable item).resolve_right fun unusable => ?_
  have failed := lookUp_of_unusable (α := StopArea) s.registry unusable
  have refused : s.registry.landing ⟨.constrainedAreas, holder, item⟩ =
      .error (.unusable item) := by
    refine except_bind_eq_error_iff.mpr (Or.inr ⟨area, ?_, ?_⟩)
    · exact Registry.lookUp_eq_ok_iff_resolve?.mpr found
    · exact except_bind_eq_error_iff.mpr (Or.inl failed)
  exact (decides _ refused).elim

section
variable {document : Row} {loading : Loading} (loaded : sections document {} = .ok () loading)

include loaded

theorem wellFormed_of_sections (areasText : Textual (document.ofKind .stopArea))
    (stopsText : Textual (document.ofKind .stopPoint)) : document.WellFormed := by
  have has : ∀ kind : Kind, ¬kind.IsNested →
      document.items kind.tableName = .ok (document.listed kind.tableName) :=
    fun _ => items_of_sections loaded
  have areas := document.ofKind_of_plain .stopArea id
  rw [areas] at areasText
  rw [document.ofKind_of_plain .stopPoint id] at stopsText
  obtain ⟨start, placed, served, course⟩ :=
    course_of_sections (has .stopArea id) (has .stopPoint id) areasText stopsText loaded
  refine ⟨has, fun _ _ => accepts_of_sections loaded _, ?_, areas ▸ course.lists, ?_⟩
  · intro row given truthy
    rw [areas] at given
    refine scalar_of_decides (course.places.decides ⟨.containedAreas, _, row.optional "id"⟩ ?_)
    refine List.mem_append_left _ (List.mem_flatMap.mpr ⟨row, given, ?_⟩)
    exact mem_parents_iff.mpr ⟨truthy, rfl⟩
  · intro row given entry listed
    rw [areas] at given
    obtain ⟨area, member, named, _⟩ := area_of_row course given
    obtain ⟨aside, _⟩ := follows_services document placed () served course.services
    rw [course.stopAreas, ← aside.areas] at member
    have found : served.registry.stopAreas.resolve? (row.optional "id") = some area := by
      rw [named]
      exact Roster.find?_eq_some_iff.mpr ⟨member, rfl⟩
    refine scalar_of_listed found (course.decides _ (List.mem_flatMap.mpr ⟨row, given, ?_⟩))
    exact List.mem_append_left _ (List.mem_map_of_mem listed)

end

/-! ## Rows and records -/

end Load

/-- A loaded network holds one record for each row of its document, in the order of the rows, and
who lists whom is a tree. -/
structure Loading.Conserves (loading : Loading) (document : Row) : Prop where
  ids : ∀ kind : Kind, (Entity.table (α := kind.Entry) loading.registry).ids.map Value.scalar =
    (document.ofKind kind).map fun row => row.optional "id"
  records : ∀ kind : Kind, kind ≠ .stopPoint →
    (Entity.table (α := kind.Entry) loading.registry).members.map some =
      (document.owned kind).map kind.record?
  distinct : ∀ kind : Kind, Load.Distinct (document.ofKind kind)
  routes : loading.registry.lines.OwnsAll Line.routeIds loading.registry.routes Route.lineId
  patterns : loading.registry.routes.OwnsAll Route.journeyPatternIds
    loading.registry.journeyPatterns JourneyPattern.routeId
  journeys : loading.registry.journeyPatterns.OwnsAll JourneyPattern.vehicleJourneyIds
    loading.registry.vehicleJourneys VehicleJourney.journeyPatternId

def Row.Repeats (document : Row) (kind : Kind) (id : Id) : Prop :=
  List.Duplicate (canonical (Value.scalar id))
    ((document.ofKind kind).map fun row => canonical (row.optional "id"))

namespace Load

section
variable {document : Row} (textual : ∀ kind, Textual (document.ofKind kind))

include textual

theorem ids_of_textual (kind : Kind) :
    ((document.ofKind kind).map Row.ownId).map Value.scalar =
      (document.ofKind kind).map fun row => row.optional "id" := by
  rw [List.map_map]
  refine List.map_congr_left fun row given => ?_
  obtain ⟨x, text⟩ := textual kind row given
  simp only [Function.comp_apply, Row.ownId, text]
  rfl

theorem identities_of_textual (kind : Kind) :
    ((document.ofKind kind).map fun row => canonical (row.optional "id")) =
      (((document.ofKind kind).map Row.ownId).map canonical).map Value.scalar := by
  have same : ((document.ofKind kind).map fun row => canonical (row.optional "id")) =
      ((document.ofKind kind).map fun row => row.optional "id").map canonical :=
    List.map_map.symm
  rw [same, ← ids_of_textual textual kind]
  simp only [List.map_map]
  rfl

theorem conserves_of_sections {loading : Loading} (loaded : sections document {} = .ok () loading) :
    loading.Conserves document where
  ids kind := by rw [ids_of_sections loaded kind, ids_of_textual textual kind]
  records kind apart := by
    have each : ∀ row ∈ document.owned kind, (kind.record? row).map some =
        some (kind.record? row) := by
      intro row given
      obtain ⟨a, read⟩ := (accepts_of_sections loaded kind given).reads
      rw [read]
      rfl
    rw [members_of_sections loaded kind apart, List.map_filterMap, List.filterMap_congr each,
      List.filterMap_eq_map']
  distinct kind := by
    have distinct := (Entity.table (α := kind.Entry) loading.registry).identities_nodup
    rw [Roster.identities_eq_map, ids_of_sections loaded kind] at distinct
    rw [Distinct, identities_of_textual textual kind]
    exact distinct.map fun _ _ => Value.scalar.inj
  routes := ownsAll_lines loaded
  patterns := ownsAll_routes loaded
  journeys := ownsAll_patterns loaded

theorem repeats_of_clashes {kind : Kind} {id : Id}
    (clash : Loading.Clashes {} document.owned kind id) : document.Repeats kind id := by
  have rows : ((document.owned kind).map fun row => row.2.ownId) =
      (document.ofKind kind).map Row.ownId := by
    rw [Row.ofKind, List.map_map]
    rfl
  have twice := clash.of_start
  rw [rows, List.duplicate_iff_sublist] at twice
  rw [Row.Repeats, identities_of_textual textual kind, List.duplicate_iff_sublist]
  exact twice.map Value.scalar

end

/-- A document that is loaded is in order, and each of its rows has become one record, in its
place. A document in order is loaded unless two rows of a kind have one identifier, wherever they
are nested. Then it is refused, because of such an identifier. -/
theorem sections_conserve {document : Row} (textual : ∀ kind, Textual (document.ofKind kind)) :
    (∀ loading, sections document {} = .ok () loading →
      document.WellFormed ∧ loading.Conserves document) ∧
    (document.WellFormed →
      ((∀ kind, Distinct (document.ofKind kind)) →
        ∃ loading, sections document {} = .ok () loading) ∧
      ∀ kind, ¬Distinct (document.ofKind kind) →
        ∃ kind id t, sections document {} = .error (.refused (.duplicate kind id)) t ∧
          document.Repeats kind id) := by
  refine ⟨fun loading loaded => ⟨?_, conserves_of_sections textual loaded⟩, fun wellFormed => ?_⟩
  · exact wellFormed_of_sections loaded (textual .stopArea) (textual .stopPoint)
  · cases settles_sections wellFormed (textual .stopArea) (textual .stopPoint) with
    | runs loaded _ =>
      refine ⟨fun _ => ⟨_, loaded⟩, fun kind twice => ?_⟩
      exact absurd ((conserves_of_sections textual loaded).distinct kind) twice
    | refused failed clash =>
      have repeats := repeats_of_clashes textual clash
      refine ⟨fun distinct => ?_, fun _ _ => ⟨_, _, _, failed, repeats⟩⟩
      exact absurd (distinct _) repeats.not_nodup

/-! Two tram lines with a journey each, far apart in the document. -/

def tramRow (line route pattern journey : String) : Row :=
  let journeys := [.object [("id", .text journey)]]
  let patterns := [.object [("id", .text pattern), ("vehicle_journeys", .list journeys)]]
  let routes := [.object [("id", .text route), ("journey_patterns", .list patterns)]]
  .object [("id", .text line), ("routes", .list routes)]

def tramway (first second : String) : Row :=
  .object [("lines", .list [tramRow "L1" "R1" "P1" first, tramRow "L2" "R2" "P2" second])]

theorem textual_tramway (first second : String) (kind : Kind) :
    Textual ((tramway first second).ofKind kind) := by
  intro row given
  cases kind with
  | line | route | journeyPattern | vehicleJourney =>
    rcases List.mem_pair.mp given with rfl | rfl <;> exact ⟨_, rfl⟩
  | _ => cases given

theorem wellFormed_tramway (first second : String) : (tramway first second).WellFormed where
  sections kind plain := by
    cases kind <;> rfl
  accepts kind row given := by
    cases kind with
    | line | route | journeyPattern | vehicleJourney =>
      rcases List.mem_pair.mp given with rfl | rfl
      all_goals exact ⟨⟨_, rfl⟩, fun _ listed => absurd listed List.not_mem_nil⟩
    | _ => cases given
  parents _ given := absurd given List.not_mem_nil
  lists _ given := absurd given List.not_mem_nil
  constrained _ given := absurd given List.not_mem_nil

def tramLoading : Loading := (ended (tramway "J1" "J2")).1

theorem sections_conserve_tramway :
    (sections (tramway "J1" "J2") {} = .ok () tramLoading ∧
      tramLoading.Conserves (tramway "J1" "J2")) ∧
    ∃ kind id t, sections (tramway "J" "J") {} = .error (.refused (.duplicate kind id)) t ∧
      (tramway "J" "J").Repeats kind id := by
  have loaded : sections (tramway "J1" "J2") {} = .ok () tramLoading :=
    sections_of_ended (by decide +kernel)
  refine ⟨⟨loaded, ((sections_conserve (textual_tramway "J1" "J2")).1 _ loaded).2⟩, ?_⟩
  refine ((sections_conserve (textual_tramway "J" "J")).2 (wellFormed_tramway "J" "J")).2
    .vehicleJourney ?_
  unfold Distinct
  decide +kernel

end Load
end LineClosure
