import LineClosure.Proofs.Closure.Strict
import LineClosure.Proofs.Registry.Centroids
import LineClosure.Proofs.Validation.Ranges
import LineClosure.Validation.Verdict

/-! What a validation demands of a network, one demand for each time that something has to hold.
Where every value can be judged, the defects that are reported are those of the demands that do not
hold, each once and in their order, and the network is valid just if all of them hold. -/

namespace LineClosure

open Keyed

def Roster.Names {α : Type} [Keyed α] (table : Roster α) (reference : Reference) : Prop :=
  ∃ id ∈ reference.id?, ∃ a ∈ table.members, identity a = canonical id

instance {α : Type} [Keyed α] (table : Roster α) (reference : Reference) :
    Decidable (table.Names reference) :=
  inferInstanceAs (Decidable (∃ id ∈ reference.id?, ∃ a ∈ table.members, identity a = canonical id))

/-- Something that has to hold, and the defect that is reported if it does not. -/
structure Demand where
  holds : Prop
  defect : Defect
  [decides : Decidable holds]

attribute [instance] Demand.decides

namespace Demand

def unmet (demands : List Demand) : List Defect :=
  (demands.filter fun demand => ¬demand.holds).map Demand.defect

theorem unmet_append (demands more : List Demand) :
    unmet (demands ++ more) = unmet demands ++ unmet more := by
  rw [unmet, List.filter_append, List.map_append]
  rfl

theorem unmet_eq_nil_iff {demands : List Demand} :
    unmet demands = [] ↔ ∀ demand ∈ demands, demand.holds := by
  rw [unmet, List.map_eq_nil_iff, List.filter_eq_nil_iff]
  simp only [decide_eq_true_eq, not_not]

end Demand

/-! ## The checks -/

/-- Findings answer to demands if none of them is about a value that cannot be judged, and the
defects among them are those of the demands that do not hold. -/
structure Settles (demands : List Demand) (found : List Finding) : Prop where
  usable : ∀ finding ∈ found, finding.isUnusable = false
  defects : found.filterMap Finding.defect? = Demand.unmet demands

theorem Settles.append {demands more : List Demand} {found later : List Finding}
    (first : Settles demands found) (second : Settles more later) :
    Settles (demands ++ more) (found ++ later) where
  usable := List.forall_mem_append.mpr ⟨first.usable, second.usable⟩
  defects := by rw [List.filterMap_append, first.defects, second.defects, Demand.unmet_append]

theorem settles_flatMap {α : Type} {demand : α → List Demand} {check : α → List Finding}
    {items : List α} (each : ∀ a ∈ items, Settles (demand a) (check a)) :
    Settles (items.flatMap demand) (items.flatMap check) := by
  induction items with
  | nil => exact ⟨fun _ none => absurd none List.not_mem_nil, rfl⟩
  | cons a rest ih =>
    rw [List.flatMap_cons, List.flatMap_cons]
    apply (each a List.mem_cons_self).append
    exact ih fun b later => each b (List.mem_cons_of_mem a later)

theorem settles_map {α : Type} {demand : α → Demand} {check : α → List Finding}
    {items : List α} (each : ∀ a ∈ items, Settles [demand a] (check a)) :
    Settles (items.map demand) (items.flatMap check) := by
  rw [List.map_eq_flatMap]
  exact settles_flatMap each

theorem Settles.append_doubts {demands : List Demand} {found later : List Finding}
    (first : Settles demands found) (second : Settles [] later) :
    Settles demands (found ++ later) := by
  have both := first.append second
  rwa [List.append_nil] at both

theorem settles_doubtIf (condition : Bool) (doubt : Doubt) :
    Settles [] (doubtIf condition doubt) := by
  unfold doubtIf
  split
  · exact ⟨fun _ given => List.mem_singleton.mp given ▸ rfl, rfl⟩
  · exact ⟨fun _ none => absurd none List.not_mem_nil, rfl⟩

theorem settles_if (holds : Prop) [Decidable holds] (defect : Defect) :
    Settles [⟨holds, defect⟩] (if holds then [] else [.defect defect]) := by
  by_cases given : holds
  · rw [if_pos given]
    refine ⟨fun _ none => absurd none List.not_mem_nil, ?_⟩
    simp [Demand.unmet, given]
  · rw [if_neg given]
    refine ⟨fun _ only => List.mem_singleton.mp only ▸ rfl, ?_⟩
    simp [Demand.unmet, given, Finding.defect?]

theorem Settles.congr {holds other : Prop} [Decidable holds] [Decidable other] {defect : Defect}
    {found : List Finding} (settles : Settles [⟨holds, defect⟩] found) (same : holds ↔ other) :
    Settles [⟨other, defect⟩] found := by
  refine ⟨settles.usable, settles.defects.trans ?_⟩
  simp only [Demand.unmet, List.filter_cons, same]

section
variable {α : Type} [Keyed α] (table : Roster α) {reference : Reference}

theorem Roster.contains_iff_names {id : Id} (is : reference.id? = some id) :
    table.contains id = true ↔ table.Names reference := by
  rw [Names, is, contains_iff]
  simp only [Option.mem_some_iff, exists_eq_left']

theorem settles_checkReference (usable : reference.id? ≠ none) (defect : Defect) :
    Settles [⟨table.Names reference, defect⟩] (checkReference table reference defect) := by
  unfold checkReference
  cases is : reference.id? with
  | none => exact absurd is usable
  | some id => exact (settles_if _ defect).congr (table.contains_iff_names is)

theorem settles_checkOptional (usable : reference.id? ≠ none) (defect : Defect) :
    Settles [⟨reference.isNull = true ∨ table.Names reference, defect⟩]
      (checkOptional table reference defect) := by
  unfold checkOptional
  split
  · next missing => exact (settles_if True defect).congr (by simp [missing])
  · next given => exact (settles_checkReference table usable defect).congr (by simp [given])

end

def Value.IsNumeric (v : Value) : Prop := v.isNull = true ∨ v.double?.isSome = true

instance (v : Value) : Decidable v.IsNumeric :=
  inferInstanceAs (Decidable (v.isNull = true ∨ v.double?.isSome = true))

instance (area : StopArea) : Decidable area.HasNumbers :=
  inferInstanceAs (Decidable (∀ v ∈ [area.longitude, area.latitude], v.IsNumeric))

theorem settles_checkCoordinate {v : Value} (numeric : v.IsNumeric) (bound : Int)
    (defect : Defect) :
    Settles [⟨v.isNull = true ∨ v.LiesBetween (-bound) bound, defect⟩]
      (checkCoordinate v bound defect) := by
  unfold checkCoordinate
  split
  · next missing => exact (settles_if True defect).congr (by simp [missing])
  · next given =>
    rw [Value.isBetween?_eq (numeric.resolve_left given)]
    exact (settles_if _ defect).congr (by simp [given])

theorem settles_checkDuration {link : ConnectionLink} (numeric : link.duration.IsNumeric) :
    Settles [] (Registry.checkDuration link) := by
  unfold Registry.checkDuration
  split
  · exact ⟨fun _ none => absurd none List.not_mem_nil, rfl⟩
  · next given =>
    obtain ⟨order, compares⟩ := Value.compareInt?_of_isSome (numeric.resolve_left given) 0
    rw [compares]
    exact settles_doubtIf _ _

/-! ## The demands on a network -/

namespace Registry

section
variable (r : Registry)

def demandsOfLine (line : Line) : List Demand :=
  [⟨line.networkId.isNull = true ∨ r.networks.Names line.networkId,
      .unknownNetwork line.id line.networkId⟩,
    ⟨line.companyId.isNull = true ∨ r.companies.Names line.companyId,
      .unknownCompany line.id line.companyId⟩] ++
  line.groupIds.map fun group => ⟨r.groupsOfLines.Names group, .unknownGroup line.id group⟩

def demandsOfRoute (route : Route) : List Demand :=
  route.stopPointIds.map fun stop => ⟨r.stopPoints.Names stop, .unknownStopPoint route.id stop⟩

def demandsOfJourney (journey : VehicleJourney) : List Demand :=
  (journey.timetableIds.map fun timetable =>
    ⟨r.timetables.Names timetable, .unknownTimetable journey.id timetable⟩) ++
  [⟨journey.companyId.isNull = true ∨ r.companies.Names journey.companyId,
    .unknownOperator journey.id journey.companyId⟩]

def demandsOfTimetable (t : Timetable) : List Demand :=
  t.periods.map fun p => ⟨p.start ≤ p.finish, .reversedPeriod t.id p⟩

def demandsOfStopArea (area : StopArea) : List Demand :=
  [⟨area.latitude.isNull = true ∨ area.latitude.LiesBetween (-90) 90,
      .badLatitude area.id area.latitude⟩,
    ⟨area.longitude.isNull = true ∨ area.longitude.LiesBetween (-180) 180,
      .badLongitude area.id area.longitude⟩]

def demandsOfConnection (link : ConnectionLink) : List Demand :=
  [link.startAreaId, link.endAreaId].map fun area =>
    ⟨r.stopAreas.Names area, .unknownConnectionEnd link.id area⟩

def demandsOfAccessLink (link : AccessLink) : List Demand :=
  [⟨r.accessPoints.Names link.accessPointId, .unknownAccessPoint link.id link.accessPointId⟩,
    ⟨r.stopAreas.Names link.stopAreaId, .unknownLinkedArea link.id link.stopAreaId⟩]

/-- All that has to hold, in the order in which it is looked at. A containment that was refused is
held against the network in any case. -/
def demands (rejected : List Text) : List Demand :=
  [⟨r.lines.members ≠ [], .noLines⟩] ++ r.lines.members.flatMap r.demandsOfLine ++
  r.routes.members.flatMap r.demandsOfRoute ++
  r.vehicleJourneys.members.flatMap r.demandsOfJourney ++
  r.timetables.members.flatMap demandsOfTimetable ++
  r.stopAreas.members.flatMap demandsOfStopArea ++
  r.connectionLinks.members.flatMap r.demandsOfConnection ++
  r.accessLinks.members.flatMap r.demandsOfAccessLink ++
  rejected.map fun message => ⟨False, .rejectedContainment message⟩

/-- A network all values of which can be judged: what is looked up is a scalar, missing or not, and
coordinates and durations are numbers or missing. -/
@[mk_iff]
structure Judgeable : Prop where
  lines : ∀ line ∈ r.lines.members,
    ∀ reference ∈ [line.networkId, line.companyId] ++ line.groupIds, reference.id? ≠ none
  routes : ∀ route ∈ r.routes.members, ∀ reference ∈ route.stopPointIds, reference.id? ≠ none
  journeys : ∀ journey ∈ r.vehicleJourneys.members,
    ∀ reference ∈ journey.timetableIds ++ [journey.companyId], reference.id? ≠ none
  connections : ∀ link ∈ r.connectionLinks.members,
    ∀ reference ∈ [link.startAreaId, link.endAreaId], reference.id? ≠ none
  accessLinks : ∀ link ∈ r.accessLinks.members,
    ∀ reference ∈ [link.accessPointId, link.stopAreaId], reference.id? ≠ none
  coordinates : ∀ area ∈ r.stopAreas.members, area.HasNumbers
  durations : ∀ link ∈ r.connectionLinks.members, link.duration.IsNumeric

/-- A network that nothing is wrong with. -/
structure Sound : Prop where
  someLine : r.lines.members ≠ []
  networks : ∀ line ∈ r.lines.members,
    line.networkId.isNull = true ∨ r.networks.Names line.networkId
  companies : ∀ line ∈ r.lines.members,
    line.companyId.isNull = true ∨ r.companies.Names line.companyId
  groups : ∀ line ∈ r.lines.members, ∀ group ∈ line.groupIds, r.groupsOfLines.Names group
  stopPoints : ∀ route ∈ r.routes.members, ∀ stop ∈ route.stopPointIds, r.stopPoints.Names stop
  timetables : ∀ journey ∈ r.vehicleJourneys.members,
    ∀ timetable ∈ journey.timetableIds, r.timetables.Names timetable
  operators : ∀ journey ∈ r.vehicleJourneys.members,
    journey.companyId.isNull = true ∨ r.companies.Names journey.companyId
  periods : ∀ t ∈ r.timetables.members, ∀ p ∈ t.periods, p.start ≤ p.finish
  latitudes : ∀ area ∈ r.stopAreas.members,
    area.latitude.isNull = true ∨ area.latitude.LiesBetween (-90) 90
  longitudes : ∀ area ∈ r.stopAreas.members,
    area.longitude.isNull = true ∨ area.longitude.LiesBetween (-180) 180
  connectionEnds : ∀ link ∈ r.connectionLinks.members,
    r.stopAreas.Names link.startAreaId ∧ r.stopAreas.Names link.endAreaId
  accessEnds : ∀ link ∈ r.accessLinks.members,
    r.accessPoints.Names link.accessPointId ∧ r.stopAreas.Names link.stopAreaId

end

instance (r : Registry) : Decidable r.Judgeable :=
  decidable_of_iff' _ r.judgeable_iff

variable {r : Registry}

theorem forall_demands_iff {rejected : List Text} :
    (∀ demand ∈ r.demands rejected, demand.holds) ↔ r.Sound ∧ rejected = [] := by
  simp only [demands, demandsOfLine, demandsOfRoute, demandsOfJourney, demandsOfTimetable,
    demandsOfStopArea, demandsOfConnection, demandsOfAccessLink, List.forall_mem_append,
    List.forall_mem_flatMap, List.forall_mem_map, List.forall_mem_cons, List.not_mem_nil,
    IsEmpty.forall_iff, implies_true, and_true, and_assoc]
  constructor
  · intro all
    obtain ⟨someLine, lines, stops, journeys, periods, areas, links, paths, none⟩ := all
    refine ⟨?_, List.eq_nil_iff_forall_not_mem.mpr none⟩
    exact
      { someLine
        networks := fun line there => (lines line there).1
        companies := fun line there => (lines line there).2.1
        groups := fun line there => (lines line there).2.2
        stopPoints := stops
        timetables := fun journey there => (journeys journey there).1
        operators := fun journey there => (journeys journey there).2
        periods
        latitudes := fun area there => (areas area there).1
        longitudes := fun area there => (areas area there).2
        connectionEnds := links
        accessEnds := paths }
  · intro both
    obtain ⟨sound, rfl⟩ := both
    have lines := fun line there =>
      And.intro (sound.networks line there)
        (And.intro (sound.companies line there) (sound.groups line there))
    have journeys := fun journey there =>
      And.intro (sound.timetables journey there) (sound.operators journey there)
    have areas := fun area there =>
      And.intro (sound.latitudes area there) (sound.longitudes area there)
    exact ⟨sound.someLine, lines, sound.stopPoints, journeys, sound.periods, areas,
      sound.connectionEnds, sound.accessEnds, fun _ none => List.not_mem_nil none⟩

instance (r : Registry) : Decidable r.Sound :=
  decidable_of_iff (∀ demand ∈ r.demands [], demand.holds)
    (forall_demands_iff.trans (and_iff_left rfl))

/-! ## The passes -/

theorem settles_checkLine (judgeable : r.Judgeable) {line : Line}
    (registered : line ∈ r.lines.members) :
    Settles (r.demandsOfLine line) (r.checkLine line) := by
  have usable := judgeable.lines line registered
  have network := settles_checkOptional r.networks (usable line.networkId (by simp))
    (.unknownNetwork line.id line.networkId)
  have company := settles_checkOptional r.companies (usable line.companyId (by simp))
    (.unknownCompany line.id line.companyId)
  apply (network.append company).append
  apply settles_map
  intro group given
  exact settles_checkReference _ (usable group (List.mem_append_right _ given)) _

theorem settles_checkLines (judgeable : r.Judgeable) :
    Settles ([⟨r.lines.members ≠ [], .noLines⟩] ++ r.lines.members.flatMap r.demandsOfLine)
      r.checkLines := by
  have some_line := settles_if (r.lines.members.isEmpty = false) .noLines
  have each := settles_flatMap fun line there => settles_checkLine judgeable there
  have swapped : (if r.lines.members.isEmpty = false then [] else [Finding.defect .noLines]) =
      if r.lines.members.isEmpty then [.defect .noLines] else [] := by
    cases r.lines.members.isEmpty <;> rfl
  rw [swapped] at some_line
  exact (some_line.congr List.isEmpty_eq_false_iff).append each

theorem settles_checkRoute (judgeable : r.Judgeable) {route : Route}
    (registered : route ∈ r.routes.members) :
    Settles (r.demandsOfRoute route) (r.checkRoute route) := by
  apply (settles_doubtIf _ _).append
  apply settles_map
  intro stop given
  exact settles_checkReference _ (judgeable.routes route registered stop given) _

theorem settles_checkJourney (judgeable : r.Judgeable) {journey : VehicleJourney}
    (registered : journey ∈ r.vehicleJourneys.members) :
    Settles (r.demandsOfJourney journey) (r.checkJourney journey) := by
  have usable := judgeable.journeys journey registered
  apply ((settles_doubtIf _ _).append _).append
  · exact settles_checkOptional _ (usable journey.companyId (by simp)) _
  · apply settles_map
    intro timetable given
    exact settles_checkReference _ (usable timetable (List.mem_append_left _ given)) _

theorem settles_checkTimetable (t : Timetable) :
    Settles (demandsOfTimetable t) (checkTimetable t) := by
  apply (settles_doubtIf _ _).append
  apply settles_map
  intro p _
  unfold checkPeriod
  rw [← ite_not]
  exact (settles_if _ _).congr Nat.not_lt

theorem settles_checkStopArea (judgeable : r.Judgeable) {area : StopArea}
    (registered : area ∈ r.stopAreas.members) :
    Settles (demandsOfStopArea area) (checkStopArea area) := by
  have numbers := judgeable.coordinates area registered
  have longitude : area.longitude.IsNumeric := numbers _ List.mem_cons_self
  have latitude : area.latitude.IsNumeric :=
    numbers _ (List.mem_cons_of_mem _ (List.mem_singleton_self _))
  apply Settles.append_doubts _ (settles_doubtIf _ _)
  exact (settles_checkCoordinate latitude 90 _).append (settles_checkCoordinate longitude 180 _)

theorem settles_checkStopPoints (r : Registry) :
    Settles [] (r.stopPoints.members.flatMap r.checkStopPoint) := by
  have each : Settles (r.stopPoints.members.flatMap fun _ => [])
      (r.stopPoints.members.flatMap r.checkStopPoint) :=
    settles_flatMap fun stop _ => settles_doubtIf _ _
  rwa [flatMap_nothing] at each

theorem settles_checkConnection (judgeable : r.Judgeable) {link : ConnectionLink}
    (registered : link ∈ r.connectionLinks.members) :
    Settles (r.demandsOfConnection link) (r.checkConnection link) := by
  apply Settles.append_doubts _ (settles_checkDuration (judgeable.durations link registered))
  apply settles_map
  intro area given
  exact settles_checkReference _ (judgeable.connections link registered area given) _

theorem settles_checkAccessLink (judgeable : r.Judgeable) {link : AccessLink}
    (registered : link ∈ r.accessLinks.members) :
    Settles (r.demandsOfAccessLink link) (r.checkAccessLink link) := by
  have usable := judgeable.accessLinks link registered
  exact (settles_checkReference _ (usable _ (by simp)) _).append
    (settles_checkReference _ (usable _ (by simp)) _)

theorem settles_rejected (rejected : List Text) :
    Settles (rejected.map fun message => ⟨False, .rejectedContainment message⟩)
      (rejected.map fun message => .defect (.rejectedContainment message)) := by
  rw [List.map_eq_flatMap (f := fun message => Finding.defect (.rejectedContainment message))]
  exact settles_map fun message _ => settles_if False (.rejectedContainment message)

theorem settles_findings (judgeable : r.Judgeable) (rejected : List Text) :
    Settles (r.demands rejected) (r.findings rejected) := by
  have routes := settles_flatMap fun route there => settles_checkRoute judgeable there
  have journeys := settles_flatMap fun journey there => settles_checkJourney judgeable there
  have timetables : Settles (r.timetables.members.flatMap demandsOfTimetable)
      (r.timetables.members.flatMap checkTimetable) :=
    settles_flatMap fun t _ => settles_checkTimetable t
  have areas := settles_flatMap fun area there => settles_checkStopArea judgeable there
  have connections := settles_flatMap fun link there => settles_checkConnection judgeable there
  have paths := settles_flatMap fun link there => settles_checkAccessLink judgeable there
  have runs := (((settles_checkLines judgeable).append routes).append journeys).append timetables
  have places := (runs.append areas).append_doubts r.settles_checkStopPoints
  have links := (places.append connections).append paths
  exact links.append (settles_rejected rejected)

end Registry

/-- A validation is exact. Of every registry that changes lead to, if its values can be judged, and
for all containments that were refused: the validation comes to a verdict, which is that the network
is valid just if nothing is wrong with it and nothing was refused. A defect is reported for each
demand that does not hold, once and in order, so one for each time that an identifier is repeated;
what else is told decides nothing. To ask for the area of a stop point never fails on the way. -/
theorem reachable_validate {permitted : Action → Prop} {r : Registry}
    (reached : Reachable permitted r) (judgeable : r.Judgeable) (rejected : List Text) :
    ∃ verdict, r.validate rejected = some verdict ∧
      (verdict.isValid = true ↔ r.Sound ∧ rejected = []) ∧
      verdict.defects.map Defect.message =
        ((r.demands rejected).filter fun demand => ¬demand.holds).map (·.defect.message) ∧
      ∀ stop ∈ r.stopPoints.members,
        Strict.lookUpHolder r (r.siting.holder? stop.id) = .ok (r.areaOf? stop.id) := by
  have settles := Registry.settles_findings judgeable rejected
  have usable : ¬(r.findings rejected).any Finding.isUnusable = true := by
    rw [List.any_eq_true]
    intro met
    obtain ⟨finding, found, unusable⟩ := met
    rw [settles.usable finding found] at unusable
    cases unusable
  refine ⟨_, if_neg usable, ?_, ?_, fun stop _ => reached.answers.areas stop.id⟩
  · rw [Verdict.isValid, List.isEmpty_iff]
    dsimp only
    rw [settles.defects, Demand.unmet_eq_nil_iff, Registry.forall_demands_iff]
  · dsimp only
    rw [settles.defects, Demand.unmet, List.map_map]
    rfl

/-! A pier with one line, and the same pier once records with defects have been added: a group is
named twice and a period given twice, a latitude is no number and another one too large. -/

def pierArea : StopArea :=
  { id := .text (.whole "A"), areaType := .quay, latitude := .int (-90)
    longitude := .double ⟨0x4066800000000000⟩ }

def pierLink : ConnectionLink :=
  { id := .text (.whole "K"), startAreaId := .text "A", endAreaId := .text "A",
    duration := .int (-5) }

def pier : List Action :=
  [.register (.line { id := .text (.whole "L"), routeIds := [.text "R"] }),
    .register (.route { id := .text (.whole "R") }),
    .register (.stopPoint { id := .text (.whole "S") }), .register (.stopArea pierArea),
    .register (.connectionLink pierLink)]

def wreckLine : Line :=
  { id := .text (.whole "M"), networkId := .text "N", groupIds := [.text "X", .text "X"] }

def wreckTimetable : Timetable :=
  { id := .text (.whole "T"), periods := [⟨Date.last, default⟩, ⟨Date.last, default⟩] }

def wreckPath : AccessLink :=
  { id := .text (.whole "E"), accessPointId := .text "F", stopAreaId := .text "B" }

def wreck : List Action :=
  pier ++
  [.register (.line wreckLine), .register (.timetable wreckTimetable),
    .register (.stopArea { pierArea with id := .text (.whole "B"), latitude := .double .nan }),
    .register (.stopArea { pierArea with id := .text (.whole "C"), latitude := .int 91 }),
    .register (.connectionLink { pierLink with id := .text (.whole "Q"), endAreaId := .null }),
    .register (.accessLink wreckPath)]

/-- The pier is valid, for all that is doubtful about it. The wreck has nine defects, and a tenth
one if a containment was refused. -/
theorem reachable_validate_wreck :
    (∃ verdict, (perform pier {}).validate [] = some verdict ∧ verdict.isValid = true) ∧
    ∃ verdict, (perform wreck {}).validate ["A"] = some verdict ∧ verdict.isValid = false ∧
      verdict.defects.map Defect.message =
        ["Line M references non-existent network N",
          "Line M references non-existent group of lines X",
          "Line M references non-existent group of lines X",
          "Timetable T has period starting after its end: 9999-12-31 > 0001-01-01",
          "Timetable T has period starting after its end: 9999-12-31 > 0001-01-01",
          "Stop area B has invalid latitude: nan", "Stop area C has invalid latitude: 91",
          "Connection link Q references non-existent stop area None",
          "Access link E references non-existent access point F", "Invalid containment A"] := by
  have anything : ∀ actions : List Action,
      Reachable (fun _ => True) (perform actions {}) := fun actions =>
    Reachable.empty.perform fun _ _ => trivial
  obtain ⟨first, judged, valid, _⟩ :=
    reachable_validate (anything pier) (by decide +kernel) []
  obtain ⟨second, found, invalid, told, _⟩ :=
    reachable_validate (anything wreck) (by decide +kernel) ["A"]
  refine ⟨⟨first, judged, valid.mpr ⟨by decide +kernel, rfl⟩⟩, second, found, ?_, ?_⟩
  · rw [Bool.eq_false_iff]
    intro sound
    cases (invalid.mp sound).2
  · rw [told]
    decide +kernel

end LineClosure
