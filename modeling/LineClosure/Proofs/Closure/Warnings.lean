import LineClosure.Proofs.Closure.Strict

/-! What a collection tells of references that name nothing. The references that a walk resolves
are read off the registry by plain traversal, in order and with every repetition; each one that
names no registered entity is told of once, at its turn. -/

namespace LineClosure

open Keyed

/-- A reference that is resolved: what it should name, and whose it is. -/
structure Ask where
  kind : Kind
  reference : Reference
  owner : Id
deriving DecidableEq

namespace Ask

def isAnswered (r : Registry) (ask : Ask) : Bool :=
  ((Entity.table (α := ask.kind.Entry) r).resolve? ask.reference).isSome

theorem isAnswered_iff {r : Registry} {ask : Ask} :
    ask.isAnswered r = true ↔ ∃ id, ask.reference.id? = some id ∧
      ∃ a ∈ (Entity.table (α := ask.kind.Entry) r).members, identity a = canonical id := by
  simp only [isAnswered, Roster.resolve?, Option.isSome_iff_exists, Option.bind_eq_some_iff,
    Roster.find?_eq_some_iff]
  constructor
  · rintro ⟨a, id, usable, registered, same⟩
    exact ⟨id, usable, a, registered, same⟩
  · rintro ⟨id, usable, a, registered, same⟩
    exact ⟨a, id, usable, registered, same⟩

def warning (ask : Ask) : Event := .notFound ask.kind ask.reference ask.owner

def warnings (r : Registry) (asks : List Ask) : List Event :=
  (asks.filter fun ask => !ask.isAnswered r).map warning

theorem warnings_append (r : Registry) (asks more : List Ask) :
    warnings r (asks ++ more) = warnings r asks ++ warnings r more := by
  rw [warnings, List.filter_append, List.map_append]
  rfl

end Ask

def Event.isNotFound : Event → Bool
  | notFound .. => true
  | _ => false

namespace Registry

/-! ## The references of a traversal -/

/-- References are resolved one after the other, and nothing beneath them is. -/
def askEach (kind : Kind) (owner : Id) (references : List Reference) : List Ask :=
  references.map fun reference => ⟨kind, reference, owner⟩

/-- References are resolved one after the other, each before what lies beneath its entity. -/
def askDown (α : Type) [Entity α] (r : Registry) (owner : Id) (beneath : α → List Ask)
    (references : List Reference) : List Ask :=
  references.flatMap fun reference =>
    ⟨Entity.kind α, reference, owner⟩ ::
      ((Entity.table r).resolve? reference).toList.flatMap beneath

section
variable (r : Registry) (window : Window)

/-- The company of a journey is resolved only if something is left of its timetables. -/
def journeyAsks (journey : VehicleJourney) : List Ask :=
  askEach .timetable journey.id journey.timetableIds ++
    if r.isValidJourney window journey then
      askEach .company journey.id (Walk.present journey.companyId)
    else []

def patternAsks (pattern : JourneyPattern) : List Ask :=
  askDown VehicleJourney r pattern.id (r.journeyAsks window) pattern.vehicleJourneyIds

/-- The patterns of a route are resolved only if one of its stop points is registered. -/
def routeAsks (route : Route) : List Ask :=
  askEach .stopPoint route.id route.stopPointIds ++
    if (r.named StopPoint route.stopPointIds).isEmpty then []
    else askDown JourneyPattern r route.id (r.patternAsks window) route.journeyPatternIds

/-- The network, the company and the groups of a line are resolved only if it is valid. -/
def lineAsks (line : Line) : List Ask :=
  askDown Route r line.id (r.routeAsks window) line.routeIds ++
    if (r.named Route line.routeIds).any (r.isLive window) then
      askEach .network line.id (Walk.present line.networkId) ++
        askEach .company line.id (Walk.present line.companyId) ++
        askEach .groupOfLines line.id line.groupIds
    else []

end

/-! ## What is told of them -/

def AsksOwnTable (α : Type) [Entity α] (r : Registry) : Prop :=
  ∀ reference owner, Ask.isAnswered r ⟨Entity.kind α, reference, owner⟩ =
    ((Entity.table (α := α) r).resolve? reference).isSome

/-- Events tell of asks if the warnings among them are those about the asks. -/
def TellsOf (r : Registry) (events : List Event) (asks : List Ask) : Prop :=
  events.filter Event.isNotFound = Ask.warnings r asks

section
variable {r : Registry} {window : Window}

theorem tellsOf_nil (r : Registry) : r.TellsOf [] [] := rfl

theorem TellsOf.append {events told : List Event} {asks more : List Ask}
    (first : r.TellsOf events asks) (second : r.TellsOf told more) :
    r.TellsOf (events ++ told) (asks ++ more) := by
  rw [TellsOf, List.filter_append, first, second, Ask.warnings_append]

theorem TellsOf.append_other {events told : List Event} {asks : List Ask}
    (first : r.TellsOf events asks) (second : r.TellsOf told []) :
    r.TellsOf (events ++ told) asks := by
  have both := first.append second
  rwa [List.append_nil] at both

theorem tellsOf_missing {α : Type} [Entity α] (own : AsksOwnTable α r) (owner : Id)
    (references : List Reference) :
    r.TellsOf (r.missing α owner references) (askEach (Entity.kind α) owner references) := by
  induction references with
  | nil => rfl
  | cons reference rest ih =>
    have answered := own reference owner
    rw [TellsOf, missing] at ih ⊢
    rw [askEach, List.map_cons, Ask.warnings, List.filter_cons, answered]
    cases named : (Entity.table (α := α) r).resolve? reference with
    | some a =>
      rw [List.filterMap_cons_none (by rw [named])]
      exact ih
    | none =>
      rw [List.filterMap_cons_some (by rw [named])]
      exact congrArg _ ih

theorem tellsOf_stray (stops : List StopPoint) : r.TellsOf (r.stray stops) [] := by
  refine List.filter_eq_nil_iff.mpr fun event told => ?_
  obtain ⟨stop, _, rfl⟩ := List.mem_map.mp told
  exact Bool.false_ne_true

theorem tellsOf_haulAll {α : Type} [Entity α] (own : AsksOwnTable α r) {haul : α → Haul}
    {beneath : α → List Ask} (each : ∀ a, r.TellsOf (haul a).events (beneath a)) (owner : Id)
    (references : List Reference) :
    r.TellsOf (r.haulAll owner haul references).events
      (askDown α r owner beneath references) := by
  induction references with
  | nil => rfl
  | cons reference rest ih =>
    have answered := own reference owner
    rw [haulAll, askDown, List.flatMap_cons]
    refine TellsOf.append ?_ ih
    rw [TellsOf, Ask.warnings, List.filter_cons, answered]
    cases (Entity.table (α := α) r).resolve? reference with
    | some a =>
      rw [Option.toList_some, List.flatMap_singleton]
      exact each a
    | none => rfl

theorem tellsOf_journeyHaul (journey : VehicleJourney) :
    r.TellsOf (r.journeyHaul window journey).events (r.journeyAsks window journey) := by
  have timetables : r.TellsOf (r.missing Timetable journey.id journey.timetableIds) _ :=
    tellsOf_missing (fun _ _ => rfl) _ _
  have company : r.TellsOf (r.missing Company journey.id (Walk.present journey.companyId)) _ :=
    tellsOf_missing (fun _ _ => rfl) _ _
  unfold journeyHaul journeyAsks
  split
  · have valid := timetables.append_other r.tellsOf_nil
    exact (valid.append company).append_other r.tellsOf_nil
  · rw [List.append_nil]
    exact timetables

theorem tellsOf_patternHaul (pattern : JourneyPattern) :
    r.TellsOf (r.patternHaul window pattern).events (r.patternAsks window pattern) := by
  unfold patternHaul patternAsks
  refine (tellsOf_haulAll (fun _ _ => rfl) tellsOf_journeyHaul _ _).append_other ?_
  split <;> rfl

theorem tellsOf_routeHaul (route : Route) :
    r.TellsOf (r.routeHaul window route).events (r.routeAsks window route) := by
  have stops : r.TellsOf (r.missing StopPoint route.id route.stopPointIds) _ :=
    tellsOf_missing (fun _ _ => rfl) _ _
  have patterns : r.TellsOf
      (r.haulAll route.id (r.patternHaul window) route.journeyPatternIds).events _ :=
    tellsOf_haulAll (fun _ _ => rfl) tellsOf_patternHaul _ _
  have passedOver : r.TellsOf [.noStopPoints route.id] [] := rfl
  cases none : (r.named StopPoint route.stopPointIds).isEmpty with
  | true =>
    simp only [routeHaul, routeAsks, none, ↓reduceIte]
    exact stops.append passedOver
  | false =>
    simp only [routeHaul, routeAsks, none, Bool.false_eq_true, ↓reduceIte]
    split
    · have live := (stops.append patterns).append_other r.tellsOf_nil
      exact live.append_other (tellsOf_stray _)
    · exact stops.append patterns

theorem tellsOf_lineHaul (line : Line) :
    r.TellsOf (r.lineHaul window line).events
      (askDown Route r line.id (r.routeAsks window) line.routeIds) :=
  tellsOf_haulAll (fun _ _ => rfl) tellsOf_routeHaul _ _

theorem tellsOf_missingExtras (line : Line) :
    r.TellsOf (r.missingExtras line)
      (askEach .network line.id (Walk.present line.networkId) ++
        askEach .company line.id (Walk.present line.companyId) ++
        askEach .groupOfLines line.id line.groupIds) :=
  ((tellsOf_missing (α := Network) (fun _ _ => rfl) _ _).append
    (tellsOf_missing (α := Company) (fun _ _ => rfl) _ _)).append
    (tellsOf_missing (α := GroupOfLines) (fun _ _ => rfl) _ _)

theorem tellsOf_collect (line : Line) :
    r.TellsOf (r.collect line window).events (r.lineAsks window line) := by
  rw [collect_eq, lineAsks]
  split
  · exact (tellsOf_lineHaul line).append (tellsOf_missingExtras line)
  · rw [List.append_nil]
    exact tellsOf_lineHaul line

end

end Registry

open Registry

/-! ## Every collection -/

/-- In every registry that changes lead to, for every line, registered or not, and for every
window: if the references that are followed are scalars, the strict collection gets to its end
with what the collection is. Each reference that is resolved and names no registered entity is
told of once, in the order of the traversal, and no other is told of. -/
theorem reachable_collections {permitted : Action → Prop} {r : Registry}
    (reached : Reachable permitted r) (line : Line) (window : Window)
    (usable : ∀ reference ∈ r.followed line, reference.id? ≠ none) :
    Strict.collect r line window = .ok (r.collect line window) ∧
    (r.collect line window).obstructed? = none ∧
    (r.collect line window).events.filter Event.isNotFound =
      ((r.lineAsks window line).filter fun ask => !ask.isAnswered r).map Ask.warning ∧
    ∀ ask : Ask, ask.isAnswered r = true ↔ ∃ id, ask.reference.id? = some id ∧
      ∃ a ∈ (Entity.table (α := ask.kind.Entry) r).members, identity a = canonical id := by
  refine ⟨Strict.collect_eq_ok reached.answers usable, ?_, tellsOf_collect line,
    fun _ => Ask.isAnswered_iff⟩
  refine (r.obstructed?_collect line window).resolve_right ?_
  rintro ⟨reference, followed, unusable⟩
  exact usable reference followed unusable

/-- Two stop places inside each other and a platform beneath them that is made a routing
constraint after a stop point came into it. The route, its journey and the line refer to
much that is not registered, the line to its route twice. -/
def ring : List Action :=
  [.register (.stopArea platform), .register (.stopArea hall), .register (.stopArea station),
    .register (.stopArea plaza), .nest (.whole "S") (.whole "Z"), .nest (.whole "Z") (.whole "S"),
    .nest (.whole "S") (.whole "H"), .nest (.whole "H") (.whole "P"),
    .register (.stopPoint { id := .text (.whole "C1") }), .site (.whole "P") (.whole "C1"),
    .retype (.whole "P") .routingConstraint,
    .register (.timetable
      { id := .text (.whole "T"), periods := [⟨⟨30, by decide⟩, ⟨40, by decide⟩⟩] }),
    .register (.vehicleJourney
      { id := .text (.whole "V"), companyId := .text "X",
        timetableIds := [.text "T", .text "T9"] }),
    .register (.journeyPattern
      { id := .text (.whole "J"), vehicleJourneyIds := [.text "V", .text "V9"] }),
    .register (.route
      { id := .text (.whole "R"), stopPointIds := [.text "C1", .text "C9"]
        journeyPatternIds := [.text "J"] })]

def ringLine : Line :=
  { id := .text (.whole "L"), networkId := .text "N", groupIds := [.text "G", .text "G"]
    routeIds := [.text "R", .text "R9", .text "R"] }

def ringWindow : Window := ⟨some ⟨40, by decide⟩, some ⟨30, by decide⟩⟩

theorem reachable_collections_ring :
    Strict.collect (perform ring {}) ringLine ringWindow =
      .ok ((perform ring {}).collect ringLine ringWindow) ∧
    ((perform ring {}).collect ringLine ringWindow).events.filter Event.isNotFound =
      [.notFound .stopPoint (.text "C9") (.text (.whole "R")),
        .notFound .timetable (.text "T9") (.text (.whole "V")),
        .notFound .vehicleJourney (.text "V9") (.text (.whole "J")),
        .notFound .route (.text "R9") (.text (.whole "L")),
        .notFound .stopPoint (.text "C9") (.text (.whole "R")),
        .notFound .timetable (.text "T9") (.text (.whole "V")),
        .notFound .vehicleJourney (.text "V9") (.text (.whole "J"))] ∧
    Strict.collect (perform ring {}) ringLine {} = .ok ((perform ring {}).collect ringLine {}) ∧
    ((perform ring {}).collect ringLine {}).valid = true ∧
    (perform ring {}).parent? station.id = some plaza ∧
    (perform ring {}).parent? plaza.id = some station := by
  have reached : Reachable (fun _ => True) (perform ring {}) :=
    Reachable.empty.perform fun _ _ => trivial
  have usable : ∀ reference ∈ (perform ring {}).followed ringLine, reference.id? ≠ none := by
    decide +kernel
  obtain ⟨done, _, told, _⟩ := reachable_collections reached ringLine ringWindow usable
  have missed : ((perform ring {}).lineAsks ringWindow ringLine).filter
      (fun ask => !ask.isAnswered (perform ring {})) =
        [⟨.stopPoint, .text "C9", .text (.whole "R")⟩,
          ⟨.timetable, .text "T9", .text (.whole "V")⟩,
          ⟨.vehicleJourney, .text "V9", .text (.whole "J")⟩,
          ⟨.route, .text "R9", .text (.whole "L")⟩,
          ⟨.stopPoint, .text "C9", .text (.whole "R")⟩,
          ⟨.timetable, .text "T9", .text (.whole "V")⟩,
          ⟨.vehicleJourney, .text "V9", .text (.whole "J")⟩] := by decide +kernel
  refine ⟨done, ?_, (reachable_collections reached ringLine {} usable).1, ?_, rfl, rfl⟩
  · rw [told, missed]
    rfl
  · rw [valid_collect]
    decide +kernel

end LineClosure
