import LineClosure.Proofs.Closure.Strict
import LineClosure.Proofs.Closure.Widening

/-! What is attached to a closure. An area brings its links and access points when an ascent
collects it, a journey its company, and the line what it refers to itself. An area that is met
again is passed over, and has brought all it could before. -/

namespace LineClosure

open Keyed Registry

/-- To leave out repetitions before something is brought, or only afterwards, is the same. -/
theorem firsts_flatMap_firsts {α β : Type} [Keyed α] [Keyed β] {brought : β → List α}
    {items : List β} (same : ∀ b ∈ items, ∀ c ∈ items, identity b = identity c → b = c)
    (more : List α) :
    firsts ((firsts items).flatMap brought ++ more) = firsts (items.flatMap brought ++ more) := by
  calc
    firsts ((firsts items).flatMap brought ++ more) =
        ((Roster.insertAll ∅ ((firsts items).flatMap brought)).insertAll more).members := by
      rw [← Roster.insertAll_append, Roster.members_insertAll_empty]
    _ = ((Roster.insertAll ∅ (items.flatMap brought)).insertAll more).members := by
      rw [Roster.insertAll_flatMap_firsts same]
    _ = firsts (items.flatMap brought ++ more) := by
      rw [← Roster.insertAll_append, Roster.members_insertAll_empty]

namespace Registry

variable (r : Registry) (line : Line) (window : Window)

/-- The areas that the ascents from the stop points of a line collect, in the order in which they
are met. What belongs to the line as a whole is not among them yet. -/
def ascended : List StopArea :=
  (Walk.visitAll r line.id (Walk.visitRoute r window) line.routeIds {}).1.closure.stopAreas.members

theorem ascended_eq : r.ascended line window = firsts (r.calledAreas window line) := by
  have walked := (Walk.visitRoutes_adds r window line).1.closure
  calc
    r.ascended line window =
        (Closure.absorb r {} (r.lineHaul window line)).stopAreas.members := by
      rw [ascended, walked]
    _ = firsts (r.lineHaul window line).stopAreas := Roster.members_insertAll_empty _
    _ = firsts (r.calledAreas window line) := by rw [stopAreas_lineHaul]

variable {r line window}

theorem mem_ascended {a : StopArea} :
    a ∈ r.ascended line window ↔
      ∃ route ∈ r.liveRoutes window line, ∃ stop ∈ r.named StopPoint route.stopPointIds,
        ∃ area, r.areaOf? stop.id = some area ∧ Relation.ReflTransGen r.LiesIn area a := by
  have registered : ∀ a ∈ r.calledAreas window line, a ∈ r.stopAreas.members :=
    fun a called => calledAreas_subset called
  rw [ascended_eq, mem_firsts_iff, mem_calledAreas]
  intro a first b second same
  exact Roster.eq_of_identity (registered a first) (registered b second) same

theorem firsts_ascended {α : Type} [Keyed α] (brought : StopArea → List α) (more : List α) :
    firsts ((r.ascended line window).flatMap brought ++ more) =
      firsts ((r.calledAreas window line).flatMap brought ++ more) := by
  rw [ascended_eq]
  apply firsts_flatMap_firsts
  intro a first b second same
  exact Roster.eq_of_identity (calledAreas_subset first) (calledAreas_subset second) same

theorem stopAreas_of_ascended (valid : (r.collect line window).valid = true) :
    (r.collect line window).closure.stopAreas.members =
      firsts (r.ascended line window ++ r.constraintsOn (.scalar line.id)) := by
  rw [stopAreas_collect r line window valid, ← List.flatMap_singleton' (r.calledAreas window line),
    ← List.flatMap_singleton' (r.ascended line window), firsts_ascended]

theorem firsts_attached {α : Type} [Keyed α] (brought : StopArea → List α) :
    firsts ((r.calledAreas window line).flatMap brought) =
      firsts ((r.ascended line window).flatMap brought) := by
  have told : firsts ((r.ascended line window).flatMap brought ++ []) =
      firsts ((r.calledAreas window line).flatMap brought ++ []) := firsts_ascended brought []
  rw [List.append_nil, List.append_nil] at told
  exact told.symm

theorem companies_of_journeys (valid : (r.collect line window).valid = true) :
    (r.collect line window).closure.companies.members =
      firsts (((r.collect line window).closure.vehicleJourneys.members.flatMap fun journey =>
          r.named Company (Walk.present journey.companyId)) ++
        r.named Company (Walk.present line.companyId)) := by
  have same : ∀ j ∈ r.validJourneys window line, ∀ k ∈ r.validJourneys window line,
      identity j = identity k → j = k := fun j first k second =>
    Roster.eq_of_identity (validJourneys_subset first) (validJourneys_subset second)
  rw [companies_collect r line window valid, vehicleJourneys_collect, firsts_flatMap_firsts same]

theorem line_collect (valid : (r.collect line window).valid = true) :
    (r.collect line window).closure.line = some line := by
  rw [closure_collect, if_pos valid]
  rfl

theorem network_collect (valid : (r.collect line window).valid = true) :
    (r.collect line window).closure.network =
      if line.networkId.isNull then none else r.networks.resolve? line.networkId := by
  have first : (r.collect line window).closure.network =
      (r.named Network (Walk.present line.networkId)).head? := by
    rw [closure_collect, if_pos valid]
    rfl
  rw [first, Walk.present]
  split
  · rfl
  · rw [named, List.filterMap_cons, List.filterMap_nil]
    change _ = (Entity.table (α := Network) r).resolve? line.networkId
    cases (Entity.table (α := Network) r).resolve? line.networkId <;> rfl

end Registry

/-- What is attached comes out, and nothing else, in every registry that changes lead to, for every
line and window with something to collect. The links and access points are those of the areas that
the ascents collect, which are the areas above the stop points of live routes; the routing
constraints come behind these areas and bring nothing, and the far end of a link is no area of the
closure by being one. The companies are those of the journeys that come out, then that of the line;
groups and network are those that the line names. No query on the way meets an identifier that is
not registered. -/
theorem reachable_attached {permitted : Action → Prop} {r : Registry}
    (reached : Reachable permitted r) {line : Line} {window : Window}
    (valid : (r.collect line window).valid = true) :
    ((∀ a, a ∈ r.ascended line window ↔
        ∃ route ∈ r.liveRoutes window line, ∃ stop ∈ r.named StopPoint route.stopPointIds,
          ∃ area, r.areaOf? stop.id = some area ∧ Relation.ReflTransGen r.LiesIn area a) ∧
      (r.collect line window).closure.stopAreas.members =
        firsts (r.ascended line window ++ r.constraintsOn (.scalar line.id))) ∧
    ((r.collect line window).closure.connectionLinks.members =
        firsts ((r.ascended line window).flatMap fun a => r.connectionsAt a.id) ∧
      (r.collect line window).closure.accessPoints.members =
        firsts ((r.ascended line window).flatMap fun a => r.accessPointsAt a.id) ∧
      (r.collect line window).closure.accessLinks.members =
        firsts ((r.ascended line window).flatMap fun a => r.accessLinksAt a.id)) ∧
    (∀ id, Strict.lookUpAll r (r.connectionIdsAt id) = .ok (r.connectionsAt id) ∧
      Strict.lookUpAll r (r.entrances.row id) = .ok (r.accessPointsAt id) ∧
      Strict.lookUpAll r (r.linkedPaths.row id) = .ok (r.accessLinksAt id)) ∧
    (r.collect line window).closure.companies.members =
      firsts (((r.collect line window).closure.vehicleJourneys.members.flatMap fun journey =>
          r.named Company (Walk.present journey.companyId)) ++
        r.named Company (Walk.present line.companyId)) ∧
    (r.collect line window).closure.groupsOfLines.members =
      firsts (r.named GroupOfLines line.groupIds) ∧
    (r.collect line window).closure.line = some line ∧
    (r.collect line window).closure.network =
      if line.networkId.isNull then none else r.networks.resolve? line.networkId := by
  have answers := reached.answers
  have links : (r.collect line window).closure.connectionLinks.members =
      firsts ((r.ascended line window).flatMap fun a => r.connectionsAt a.id) := by
    rw [connectionLinks_collect, firsts_attached]
  have points : (r.collect line window).closure.accessPoints.members =
      firsts ((r.ascended line window).flatMap fun a => r.accessPointsAt a.id) := by
    rw [accessPoints_collect, firsts_attached]
  have paths : (r.collect line window).closure.accessLinks.members =
      firsts ((r.ascended line window).flatMap fun a => r.accessLinksAt a.id) := by
    rw [accessLinks_collect, firsts_attached]
  have queries := fun id => And.intro (answers.connections id)
    (And.intro (answers.points id) (answers.paths id))
  exact ⟨⟨fun _ => mem_ascended, stopAreas_of_ascended valid⟩, ⟨links, points, paths⟩, queries,
    companies_of_journeys valid, groupsOfLines_collect r line window valid, line_collect valid,
    network_collect valid⟩

/-! A line that calls at a platform and at the hall around it. A footbridge leads from the station
to a plaza, a lift from the hall to the platform, and a gate is attached to the hall and to a
barrier that lists the line. -/

def loopLine : Line :=
  { id := .text (.whole "L"), routeIds := [.text "R", .text "Q"], networkId := .text "N",
    companyId := .text "C", groupIds := [.text "G", .text "F", .text "G"] }

def loopRoute : Route :=
  { shuttleRoute with stopPointIds := [.text "S", .text "U", .text "S"] }

def footbridge : ConnectionLink :=
  { id := .text (.whole "K"), startAreaId := .text "S", endAreaId := .text "Z" }

def lift : ConnectionLink :=
  { id := .text (.whole "M"), startAreaId := .text "H", endAreaId := .text "P" }

def gate : AccessPoint := { id := .text (.whole "A") }

def loop : List Action :=
  [.register (.network { id := .text (.whole "N") }),
    .register (.company { id := .text (.whole "C") }),
    .register (.company { id := .text (.whole "D") }),
    .register (.groupOfLines { id := .text (.whole "G") }), .register (.line loopLine),
    .register (.route loopRoute), .register (.journeyPattern shuttlePattern),
    .register (.vehicleJourney { shuttleJourney with companyId := .text "D" }),
    .register (.timetable shuttleTimetable), .register (.stopPoint { id := .text (.whole "S") }),
    .register (.stopPoint { id := .text (.whole "U") }), .register (.stopArea platform),
    .register (.stopArea hall), .register (.stopArea station), .register (.stopArea plaza),
    .register (.stopArea barrier), .nest (.whole "S") (.whole "H"),
    .nest (.whole "H") (.whole "P"), .site (.whole "P") (.whole "S"),
    .site (.whole "H") (.whole "U"), .constrainLine (.whole "B") (.whole "L"),
    .joinConnection (.whole "S") footbridge .start, .joinConnection (.whole "Z") footbridge .finish,
    .joinConnection (.whole "H") lift .start, .joinConnection (.whole "P") lift .finish,
    .joinConnection (.whole "B") { footbridge with id := .text (.whole "O") } .start,
    .joinAccessPoint (.whole "H") gate, .joinAccessPoint (.whole "B") gate]

theorem reachable_attached_loop :
    ((perform loop {}).collect loopLine shuttleWindow).valid = true ∧
    ((perform loop {}).collect loopLine shuttleWindow).closure.stopAreas.ids =
      [platform.id, hall.id, station.id, barrier.id] ∧
    ((perform loop {}).collect loopLine shuttleWindow).closure.connectionLinks.ids =
      [lift.id, footbridge.id] ∧
    ((perform loop {}).collect loopLine shuttleWindow).closure.accessPoints.ids = [gate.id] ∧
    ((perform loop {}).collect loopLine shuttleWindow).closure.companies.ids =
      [.text (.whole "D"), .text (.whole "C")] ∧
    ((perform loop {}).collect loopLine shuttleWindow).closure.groupsOfLines.ids =
      [.text (.whole "G")] ∧
    ((perform loop {}).collect loopLine shuttleWindow).closure.line = some loopLine := by
  have valid : ((perform loop {}).collect loopLine shuttleWindow).valid = true := by decide +kernel
  have reached : Reachable (fun _ => True) (perform loop {}) :=
    Reachable.empty.perform fun _ _ => trivial
  obtain ⟨⟨_, areas⟩, ⟨links, points, _⟩, _, companies, groups, line, _⟩ :=
    reachable_attached reached valid
  refine ⟨valid, ?_, ?_, ?_, ?_, ?_, line⟩
  · rw [Roster.ids, areas]
    decide +kernel
  · rw [Roster.ids, links]
    decide +kernel
  · rw [Roster.ids, points]
    decide +kernel
  · rw [Roster.ids, companies]
    decide +kernel
  · rw [Roster.ids, groups]
    decide +kernel

end LineClosure
