import LineClosure.Proofs.Snapshot.Asides
import LineClosure.Proofs.Snapshot.Sections

/-! A whole load. Every containment that a snapshot declares is applied or rejected, and nothing
else is in anything; so the order of the rows of stop areas and stop points does not matter. -/

namespace LineClosure

open Keyed

namespace Load

variable {s t : Loading}

theorem applies_of_aside (ready : s.registry.Ready) (aside : s.registry.Aside t.registry)
    (rejected : t.rejected = s.rejected) : Applies s [] t where
  areas := aside.areas
  ready := by
    refine ⟨⟨?_, ?_⟩, ?_, fun stop member => ?_⟩
    · exact aside.nesting ▸ ready.coherent.nesting
    · exact aside.siting ▸ ready.coherent.siting
    · exact aside.areas ▸ ready.areas
    · have listed : stop.id ∈ t.registry.stopPoints.ids :=
        Roster.mem_ids_iff.mpr ⟨stop, member, rfl⟩
      rw [aside.stops] at listed
      obtain ⟨before, old, same⟩ := Roster.mem_ids_iff.mp listed
      obtain ⟨x, text⟩ := ready.stops before old
      exact ⟨x, same.symm.trans text⟩
  holds c := by
    simp only [Registry.Holds, aside.nesting, aside.siting, aside.constrainedAreas,
      aside.constrainedLines, List.not_mem_nil, false_and, exists_false, or_false]
  rejected := by simp [rejected]

structure Bare (s : Loading) : Prop where
  areas : s.registry.stopAreas.members = []
  stops : s.registry.stopPoints.members = []
  nesting : s.registry.nesting = {}
  siting : s.registry.siting = {}
  constrainedAreas : s.registry.constrainedAreas = ∅
  constrainedLines : s.registry.constrainedLines = ∅
  rejected : s.rejected = []

theorem bare_of_aside (aside : Registry.Aside {} s.registry) (rejected : s.rejected = []) :
    Bare s where
  areas := by rw [aside.areas]; rfl
  stops := List.map_eq_nil_iff.mp aside.stops
  nesting := aside.nesting
  siting := aside.siting
  constrainedAreas := aside.constrainedAreas
  constrainedLines := aside.constrainedLines
  rejected := rejected

def Textual (rows : List Row) : Prop :=
  ∀ row ∈ rows, ∃ x, row.optional "id" = .scalar (.text x)

theorem Textual.of_perm {rows moved : List Row} (textual : Textual rows)
    (perm : rows.Perm moved) : Textual moved :=
  fun row given => textual row (perm.mem_iff.mpr given)

theorem ready_of_areas (bare : Bare s) {rows : List Row} (textual : Textual rows)
    (enters : EntersAreas s rows t) : t.registry.Ready ∧ (∀ c, ¬t.registry.Holds c) := by
  obtain ⟨_, registry, members, _⟩ := enters
  rw [bare.areas, List.nil_append] at members
  refine ⟨⟨⟨?_, ?_⟩, fun area member => ?_, fun stop member => ?_⟩, fun c held => ?_⟩
  · rw [registry]
    exact bare.nesting ▸ Placement.mutual_empty
  · rw [registry]
    exact bare.siting ▸ Placement.mutual_empty
  · rw [members] at member
    obtain ⟨row, given, fitted⟩ := List.mem_filterMap.mp member
    obtain ⟨x, named⟩ := textual row given
    rw [Row.optional_of_required (Row.fittedArea?_spec fitted).1] at named
    exact ⟨x, Value.scalar.inj named⟩
  · rw [registry] at member
    dsimp only at member
    rw [bare.stops] at member
    cases member
  · rw [registry] at held
    obtain ⟨relation, holder, item⟩ := c
    cases relation with
    | containedAreas =>
      obtain ⟨id, _, noted⟩ := held
      dsimp only at noted
      rw [bare.nesting] at noted
      cases noted
    | containedStopPoints =>
      obtain ⟨id, _, noted⟩ := held
      dsimp only at noted
      rw [bare.siting] at noted
      cases noted
    | constrainedAreas =>
      obtain ⟨id, listed, _⟩ := held
      dsimp only at listed
      rw [bare.constrainedAreas] at listed
      cases listed
    | constrainedLines =>
      obtain ⟨line, listed, _⟩ := held
      dsimp only at listed
      rw [bare.constrainedLines] at listed
      cases listed

/-- The containments of a state are those that the declarations make, and what was rejected are
the declarations that were refused. -/
structure Applied (ds : List Declaration) (t : Loading) : Prop where
  ready : t.registry.Ready
  holds : ∀ c, t.registry.Holds c ↔ ∃ d ∈ ds, t.registry.Lands d c
  rejected : t.rejected = ds.filterMap t.registry.rejection?

theorem Applied.more {ds es : List Declaration} (applied : Applied ds s)
    (applies : Applies s es t) : Applied (ds ++ es) t where
  ready := applies.ready
  holds c := by
    rw [applies.holds, applied.holds]
    simp only [Registry.lands_congr applies.areas, List.mem_append, or_and_right, exists_or]
  rejected := by
    have same : t.registry.rejection? = s.registry.rejection? :=
      Registry.rejection?_congr fun id => by rw [applies.areas]
    rw [applies.rejected, applied.rejected, same, List.filterMap_append]

/-! ## Stop areas and stop points -/

theorem distinct_of_read {α : Type} [Keyed α] {rows : List Row} {read? : Row → Option α}
    (reads : ∀ row ∈ rows, ∃ a, read? row = some a)
    (named : ∀ {row a}, read? row = some a → row.required "id" = .ok (.scalar (key a)))
    (distinct : ((rows.filterMap read?).map identity).Nodup) : Distinct rows := by
  have same : rows.map (fun row => canonical (row.optional "id")) =
      ((rows.filterMap read?).map identity).map Value.scalar := by
    -- not to be carried into the induction, which is on all rows
    clear distinct
    induction rows with
    | nil => rfl
    | cons row rest ih =>
      obtain ⟨a, read⟩ := reads row List.mem_cons_self
      have later := ih fun other given => reads other (List.mem_cons_of_mem row given)
      rw [List.map_cons, later, List.filterMap_cons, read, Row.optional_of_required (named read)]
      rfl
  unfold Distinct
  rw [same]
  exact distinct.map fun _ _ => Value.scalar.inj

theorem distinct_of_areas {rows : List Row}
    (fitted : ∀ row ∈ rows, ∃ area, row.fittedArea? = some area)
    (distinct : ((rows.filterMap Row.fittedArea?).map identity).Nodup) : Distinct rows :=
  distinct_of_read fitted (fun fits => (Row.fittedArea?_spec fits).1) distinct

theorem distinct_of_stops {rows : List Row}
    (read : ∀ row ∈ rows, ∃ stop, row.stopPoint = .ok stop)
    (distinct : ((rows.filterMap fun row => row.stopPoint.toOption).map identity).Nodup) :
    Distinct rows := by
  apply distinct_of_read (fun row given => ?_) (fun {row stop} reads => ?_) distinct
  · obtain ⟨stop, reads⟩ := read row given
    exact ⟨stop, by rw [reads]; rfl⟩
  · cases has : row.stopPoint with
    | error failure =>
      rw [has] at reads
      cases reads
    | ok other =>
      rw [has] at reads
      cases reads
      exact Row.stopPoint_spec has

def enterPlaces (areas stops : List Row) : Load Unit := do
  areas.forM enterStopArea
  areas.forM enterParent
  stops.forM enterStopPoint

def placings (areas stops : List Row) : List Declaration :=
  areas.flatMap Row.parents ++ stops.flatMap Row.sites

structure EntersPlaces (s : Loading) (areas stops : List Row) (t : Loading) : Prop where
  fitted : ∀ row ∈ areas, ∃ area, row.fittedArea? = some area
  read : ∀ row ∈ stops, ∃ stop, row.stopPoint = .ok stop
  stopAreas : t.registry.stopAreas.members = areas.filterMap Row.fittedArea?
  stopPoints : t.registry.stopPoints.members = stops.filterMap fun row => row.stopPoint.toOption
  decides : ∀ d ∈ placings areas stops, Decides t d
  applied : Applied (placings areas stops) t
  elsewhere : t.registry.elsewhere = s.registry.elsewhere

section
variable {areas stops : List Row}

theorem applied_of_areas (bare : Bare s) (areasText : Textual areas)
    (done : areas.forM enterStopArea s = .ok () t) : Applied [] t := by
  have enters := forM_enterStopArea_spec done
  obtain ⟨ready, none⟩ := ready_of_areas bare areasText enters
  refine ⟨ready, fun c => ?_, enters.rejected.trans bare.rejected⟩
  exact iff_of_false (none c) (by simp)

theorem parents_eq {rows : List Row} (fitted : ∀ row ∈ rows, ∃ area, row.fittedArea? = some area) :
    rows.forM enterParent = (rows.flatMap Row.parents).forM declare := by
  apply forM_flatMap
  intro row given
  obtain ⟨area, fits⟩ := fitted row given
  exact enterParent_eq (Row.fittedArea?_spec fits).1

/-- The parents can be applied one after the other, for no area is declared to be in two. -/
theorem parents_ready (rows : List Row) (applied : Applied [] s) :
    ∀ d ∈ rows.flatMap Row.parents, Placeable s d ∧ s.registry.Fresh d := by
  intro d given
  obtain ⟨row, _, listed⟩ := List.mem_flatMap.mp given
  obtain ⟨_, rfl⟩ := mem_parents_iff.mp listed
  constructor
  · intro other
    cases other
  · intro _ holder held
    obtain ⟨e, none, _⟩ := (applied.holds _).mp held
    cases none

theorem sited_of_parents {rows : List Row} (applied : Applied (rows.flatMap Row.parents) s) :
    Sited s := by
  intro holder item held
  obtain ⟨d, given, lands⟩ := (applied.holds _).mp held
  obtain ⟨row, _, listed⟩ := List.mem_flatMap.mp given
  obtain ⟨_, rfl⟩ := mem_parents_iff.mp listed
  cases (lands.placed (Or.inr rfl)).1

theorem elsewhere_of_areas
    (registry : t.registry = { s.registry with stopAreas := t.registry.stopAreas }) :
    t.registry.elsewhere = s.registry.elsewhere := by
  rw [registry]
  rfl

theorem enterPlaces_spec (bare : Bare s) (areasText : Textual areas) (stopsText : Textual stops)
    (done : enterPlaces areas stops s = .ok () t) : EntersPlaces s areas stops t := by
  obtain ⟨_, u, first, rest⟩ := bind_eq_ok_iff.mp done
  obtain ⟨_, v, second, third⟩ := bind_eq_ok_iff.mp rest
  obtain ⟨fitted, registry, members, _⟩ := forM_enterStopArea_spec first
  rw [bare.areas, List.nil_append] at members
  have atFirst := applied_of_areas bare areasText first
  have ready := parents_ready areas atFirst
  have distinct := distinct_of_areas fitted (members ▸ u.registry.stopAreas.distinct)
  rw [parents_eq fitted] at second
  obtain ⟨parents, applies, others⟩ := forM_declare_spec atFirst.ready
    (fun d given => (ready d given).1) (fun d given => (ready d given).2) (apart_parents distinct)
    second
  have atSecond : Applied (areas.flatMap Row.parents) v := atFirst.more applies
  have sited := sited_of_parents atSecond
  have entered := forM_enterStopPoint_spec atSecond.ready sited stopsText third
  refine ⟨fitted, entered.read, ?_, ?_, fun d given => ?_, atSecond.more entered.applies, ?_⟩
  · rw [entered.applies.areas, applies.areas]
    exact members
  · rw [entered.stops, Registry.stopPoints_of_others others, registry]
    dsimp only
    rw [bare.stops, List.nil_append]
  · rw [entered.applies.decides_iff]
    rcases List.mem_append.mp given with parent | site
    · exact applies.decides_iff.mpr (parents d parent)
    · exact entered.decides d site
  · rw [entered.elsewhere, Registry.elsewhere_of_others others, elsewhere_of_areas registry]

theorem enterPlaces_runs (bare : Bare s) (areasText : Textual areas) (stopsText : Textual stops)
    (fitted : ∀ row ∈ areas, ∃ area, row.fittedArea? = some area)
    (read : ∀ row ∈ stops, ∃ stop, row.stopPoint = .ok stop)
    (areasDiffer : ((areas.filterMap Row.fittedArea?).map identity).Nodup)
    (stopsDiffer : ((stops.filterMap fun row => row.stopPoint.toOption).map identity).Nodup)
    (decides : ∀ u : Loading, u.registry.stopAreas.members = areas.filterMap Row.fittedArea? →
      ∀ d ∈ placings areas stops, Decides u d) : ∃ t, enterPlaces areas stops s = .ok () t := by
  obtain ⟨u, first⟩ := forM_enterStopArea_runs fitted (by rwa [bare.areas, List.nil_append])
  obtain ⟨_, registry, members, _⟩ := forM_enterStopArea_spec first
  rw [bare.areas, List.nil_append] at members
  have atFirst := applied_of_areas bare areasText first
  have ready := parents_ready areas atFirst
  have decided := decides u members
  obtain ⟨v, second, applies, others⟩ := forM_declare_runs atFirst.ready
    (fun d given => (ready d given).1) (fun d given => (ready d given).2)
    (apart_parents (distinct_of_areas fitted areasDiffer))
    fun d given => decided d (List.mem_append_left _ given)
  have atSecond : Applied (areas.flatMap Row.parents) v := atFirst.more applies
  obtain ⟨t, third⟩ := forM_enterStopPoint_runs atSecond.ready (sited_of_parents atSecond) stopsText
    read
    (by
      rw [Registry.stopPoints_of_others others, registry]
      dsimp only
      rwa [bare.stops, List.nil_append])
    fun d given => applies.decides_iff.mpr (decided d (List.mem_append_right _ given))
  refine ⟨t, (bind_ok first).trans ?_⟩
  rw [parents_eq fitted]
  exact (bind_ok second).trans third

end

/-! ## All sections -/

theorem constraints_ready (s : Loading) (rows : List Row) :
    (∀ d ∈ rows.flatMap Row.constraints, Placeable s d ∧ s.registry.Fresh d) ∧
      Apart (rows.flatMap Row.constraints) := by
  constructor
  · intro d given
    have free := constraints_free given
    exact ⟨fun stop => absurd (Or.inr stop) free, fun places => absurd places free⟩
  · have any : (rows.flatMap Row.constraints).Pairwise fun _ _ => True :=
      List.pairwise_of_forall fun _ _ => trivial
    exact any.imp_of_mem fun given _ _ _ places => absurd places (constraints_free given)

theorem table_of_items {document : Row} {name : String} {rows : List Row}
    {enter : Row → Load Unit} (has : document.items name = .ok rows) :
    table document name enter = rows.forM enter := by
  funext s
  exact check_bind has

theorem items_of_table {document : Row} {name : String} {enter : Row → Load Unit}
    (done : table document name enter s = .ok () t) :
    document.items name = .ok (document.listed name) := by
  obtain ⟨rows, has, _⟩ := check_bind_eq_ok_iff.mp done
  rw [has, Row.listed_of_items has]

section
variable {document : Row} {areas stops : List Row}

theorem sections_of_items (hasAreas : document.items "stop_areas" = .ok areas)
    (hasStops : document.items "stop_points" = .ok stops) :
    sections document = (do
      preamble document
      enterPlaces areas stops
      services document
      areas.forM enterConstraints
      tellRejected) := by
  simp only [sections_eq, table_of_items hasAreas, table_of_items hasStops, enterPlaces, bind_assoc]

theorem constraints_eq {rows : List Row} (lists : ∀ row ∈ rows, ListsConstraints row) :
    rows.forM enterConstraints = (rows.flatMap Row.constraints).forM declare :=
  forM_flatMap fun row given => enterConstraints_eq (lists row given)

/-- A load from its beginning to its end: what stood before the stop areas, behind the stop
points, and before the routing constraints. -/
structure Course (document : Row) (areas stops : List Row) (start placed served loading : Loading) :
    Prop where
  hasAreas : document.items "stop_areas" = .ok areas
  hasStops : document.items "stop_points" = .ok stops
  preamble : preamble document {} = .ok () start
  places : EntersPlaces start areas stops placed
  services : services document placed = .ok () served
  lists : ∀ row ∈ areas, ListsConstraints row
  decides : ∀ d ∈ areas.flatMap Row.constraints, Decides served d
  applied : Applied (placings areas stops ++ areas.flatMap Row.constraints) loading
  stopAreas : loading.registry.stopAreas = placed.registry.stopAreas
  stopPoints : loading.registry.stopPoints = served.registry.stopPoints
  elsewhere : loading.registry.elsewhere = served.registry.elsewhere

theorem bare_of_preamble (done : preamble document {} = .ok () s) : Bare s := by
  obtain ⟨aside, rejected, _⟩ := follows_preamble document {} () s done
  exact bare_of_aside aside rejected

theorem course_of_sections {loading : Loading} (hasAreas : document.items "stop_areas" = .ok areas)
    (hasStops : document.items "stop_points" = .ok stops) (areasText : Textual areas)
    (stopsText : Textual stops) (loaded : sections document {} = .ok () loading) :
    ∃ start placed served, Course document areas stops start placed served loading := by
  rw [sections_of_items hasAreas hasStops] at loaded
  obtain ⟨_, start, first, rest⟩ := bind_eq_ok_iff.mp loaded
  obtain ⟨_, placed, second, rest⟩ := bind_eq_ok_iff.mp rest
  obtain ⟨_, served, third, rest⟩ := bind_eq_ok_iff.mp rest
  obtain ⟨_, applied, fourth, last⟩ := bind_eq_ok_iff.mp rest
  have places := enterPlaces_spec (bare_of_preamble first) areasText stopsText second
  obtain ⟨aside, rejected, _⟩ := follows_services document placed () served third
  have serving := applies_of_aside places.applied.ready aside rejected
  have atServed : Applied (placings areas stops) served := by
    simpa using places.applied.more serving
  -- the rows' constraints are lists, or the run would have ended there
  have lists : ∀ row ∈ areas, ListsConstraints row := by
    intro row given
    obtain ⟨area, fits⟩ := places.fitted row given
    obtain ⟨u, v, done⟩ := done_of_forM fourth row given
    exact listsConstraints_of_done (Row.fittedArea?_spec fits).1 done
  rw [constraints_eq lists] at fourth
  obtain ⟨ready, apart⟩ := constraints_ready served areas
  obtain ⟨decides, applies, others⟩ := forM_declare_spec atServed.ready
    (fun d given => (ready d given).1) (fun d given => (ready d given).2) apart fourth
  have whole := atServed.more applies
  obtain ⟨events, told⟩ := tellRejected_run applied
  rw [told] at last
  cases last
  exact ⟨start, placed, served,
    { hasAreas, hasStops, preamble := first, places, services := third, lists, decides
      applied := ⟨whole.ready, whole.holds, whole.rejected⟩
      stopAreas := applies.areas.trans aside.areas
      stopPoints := Registry.stopPoints_of_others others
      elsewhere := Registry.elsewhere_of_others others }⟩

theorem decides_of_perm {u v : Loading}
    (perm : u.registry.stopAreas.members.Perm v.registry.stopAreas.members) {d : Declaration}
    (decides : Decides u d) : Decides v d := by
  have landings : v.registry.landing = u.registry.landing :=
    Registry.landing_congr (Roster.find?_of_perm perm)
  unfold Decides
  rw [landings]
  exact decides

def SameElsewhere (document other : Row) : Prop :=
  ∀ name, name ≠ "stop_areas" → name ≠ "stop_points" → other.items name = document.items name

theorem table_congr {other : Row} {name : String} {enter : Row → Load Unit}
    (same : other.items name = document.items name) :
    table other name enter = table document name enter := by
  unfold table
  rw [same]

section
variable {other : Row} {movedAreas movedStops : List Row}

theorem preamble_congr (same : SameElsewhere document other) :
    preamble other = preamble document := by
  simp only [preamble, table_congr (same "networks" (by decide) (by decide)),
    table_congr (same "companies" (by decide) (by decide)),
    table_congr (same "group_of_lines" (by decide) (by decide))]

theorem services_congr (same : SameElsewhere document other) :
    services other = services document := by
  simp only [services, table_congr (same "connection_links" (by decide) (by decide)),
    table_congr (same "access_points" (by decide) (by decide)),
    table_congr (same "access_links" (by decide) (by decide)),
    table_congr (same "timetables" (by decide) (by decide)),
    table_congr (same "lines" (by decide) (by decide))]

section
variable (areasMoved : areas.Perm movedAreas) (stopsMoved : stops.Perm movedStops)

include areasMoved stopsMoved

theorem EntersPlaces.alike {u : Loading} (first : EntersPlaces s areas stops t)
    (second : EntersPlaces s movedAreas movedStops u) : t.registry.Alike u.registry where
  areas := by
    rw [first.stopAreas, second.stopAreas]
    exact areasMoved.filterMap _
  stops := by
    rw [first.stopPoints, second.stopPoints]
    exact stopsMoved.filterMap _
  elsewhere := second.elsewhere.trans first.elsewhere.symm

theorem EntersPlaces.rearranged (bare : Bare s) (places : EntersPlaces s areas stops t)
    (areasText : Textual areas) (stopsText : Textual stops) :
    ∃ u, enterPlaces movedAreas movedStops s = .ok () u ∧
      EntersPlaces s movedAreas movedStops u := by
  have movedAreasText := areasText.of_perm areasMoved
  have movedStopsText := stopsText.of_perm stopsMoved
  have areasPerm := areasMoved.filterMap Row.fittedArea?
  have stopsPerm := stopsMoved.filterMap fun row => row.stopPoint.toOption
  have decides : ∀ u : Loading,
      u.registry.stopAreas.members = movedAreas.filterMap Row.fittedArea? →
      ∀ d ∈ placings movedAreas movedStops, Decides u d := by
    intro u members d given
    have declared : d ∈ placings areas stops :=
      ((areasMoved.flatMap_right _).append (stopsMoved.flatMap_right _)).mem_iff.mpr given
    apply decides_of_perm _ (places.decides d declared)
    rw [places.stopAreas, members]
    exact areasPerm
  obtain ⟨u, done⟩ := enterPlaces_runs bare movedAreasText movedStopsText
    (fun row given => places.fitted row (areasMoved.mem_iff.mpr given))
    (fun row given => places.read row (stopsMoved.mem_iff.mpr given))
    ((areasPerm.map identity).nodup (places.stopAreas ▸ t.registry.stopAreas.distinct))
    ((stopsPerm.map identity).nodup (places.stopPoints ▸ t.registry.stopPoints.distinct)) decides
  exact ⟨u, done, enterPlaces_spec bare movedAreasText movedStopsText done⟩

end

/-- If the rows of stop areas and stop points stand in another order, the load gets to its end
again, and what it ends with differs in nothing but containments and the order of rows. -/
theorem rearranged_of_course {start placed served loading : Loading}
    (course : Course document areas stops start placed served loading)
    (same : SameElsewhere document other)
    (hasAreas : other.items "stop_areas" = .ok movedAreas) (areasMoved : areas.Perm movedAreas)
    (hasStops : other.items "stop_points" = .ok movedStops) (stopsMoved : stops.Perm movedStops)
    (areasText : Textual areas) (stopsText : Textual stops) :
    ∃ again, sections other {} = .ok () again ∧ loading.registry.Alike again.registry := by
  obtain ⟨placed', second, places⟩ := course.places.rearranged areasMoved stopsMoved
    (bare_of_preamble course.preamble) areasText stopsText
  have alike := course.places.alike areasMoved stopsMoved places
  -- up to the constraints the second load follows the first, step by step
  obtain ⟨_, _, follows⟩ := follows_services document placed () served course.services
  obtain ⟨served', third, still⟩ := follows placed' alike
  obtain ⟨aside, rejected, _⟩ := follows_services document placed' () served' third
  have serving := applies_of_aside places.applied.ready aside rejected
  obtain ⟨ready, apart⟩ := constraints_ready served' movedAreas
  obtain ⟨ended, fourth, applies, others⟩ := forM_declare_runs serving.ready
    (fun d given => (ready d given).1) (fun d given => (ready d given).2) apart
    fun d given => decides_of_perm still.areas
      (course.decides d ((areasMoved.flatMap_right _).mem_iff.mpr given))
  obtain ⟨events, told⟩ := tellRejected_run ended
  refine ⟨{ ended with events }, ?_, ⟨?_, ?_, ?_⟩⟩
  · rw [sections_of_items hasAreas hasStops, preamble_congr same, services_congr same,
      constraints_eq fun row given => course.lists row (areasMoved.mem_iff.mpr given)]
    refine (bind_ok course.preamble).trans ((bind_ok second).trans ((bind_ok third).trans ?_))
    exact (bind_ok fourth).trans told
  · rw [course.stopAreas]
    dsimp only
    rw [applies.areas, aside.areas]
    exact alike.areas
  · rw [course.stopPoints]
    dsimp only
    rw [Registry.stopPoints_of_others others]
    exact still.stops
  · dsimp only
    rw [Registry.elsewhere_of_others others, still.elsewhere, course.elsewhere]

end
end
end Load
end LineClosure
