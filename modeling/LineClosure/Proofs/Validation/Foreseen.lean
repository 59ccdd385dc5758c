import LineClosure.Proofs.Closure.Outcome
import LineClosure.Proofs.Snapshot.Loaded
import LineClosure.Validation.Verdict

/-! What a validation foresees. In a loaded network that was found valid every reference on the
way through a line names something, and all that a collection can still tell, of routes without
stop points and of stop points without an area, was told by the validation before. -/

namespace LineClosure

namespace Registry

/-- Every reference that a walk through a line may follow names something. -/
structure Resolves (r : Registry) : Prop where
  routes : ∀ line ∈ r.lines.members, ∀ reference ∈ line.routeIds,
    (r.routes.resolve? reference).isSome = true
  networks : ∀ line ∈ r.lines.members, ∀ reference ∈ Walk.present line.networkId,
    (r.networks.resolve? reference).isSome = true
  companies : ∀ line ∈ r.lines.members, ∀ reference ∈ Walk.present line.companyId,
    (r.companies.resolve? reference).isSome = true
  groups : ∀ line ∈ r.lines.members, ∀ reference ∈ line.groupIds,
    (r.groupsOfLines.resolve? reference).isSome = true
  stopPoints : ∀ route ∈ r.routes.members, ∀ reference ∈ route.stopPointIds,
    (r.stopPoints.resolve? reference).isSome = true
  patterns : ∀ route ∈ r.routes.members, ∀ reference ∈ route.journeyPatternIds,
    (r.journeyPatterns.resolve? reference).isSome = true
  journeys : ∀ pattern ∈ r.journeyPatterns.members, ∀ reference ∈ pattern.vehicleJourneyIds,
    (r.vehicleJourneys.resolve? reference).isSome = true
  timetables : ∀ journey ∈ r.vehicleJourneys.members, ∀ reference ∈ journey.timetableIds,
    (r.timetables.resolve? reference).isSome = true
  operators : ∀ journey ∈ r.vehicleJourneys.members,
    ∀ reference ∈ Walk.present journey.companyId, (r.companies.resolve? reference).isSome = true

/-! ## What is left to tell -/

/-- Of the routes, only those that list no stop points are told of. -/
inductive Remains (r : Registry) : Event → Prop where
  | noStopPoints {route : Route} (registered : route ∈ r.routes.members)
    (nowhere : route.stopPointIds = []) : Remains r (.noStopPoints route.id)
  | noStopArea {stop : StopPoint} (registered : stop ∈ r.stopPoints.members)
    (outside : r.areaOf? stop.id = none) : Remains r (.noStopArea stop.id)

section
variable {r : Registry} {line : Line} (window : Window)

theorem missing_eq_nil {α : Type} [Entity α] {owner : Id} {references : List Reference}
    (named : ∀ reference ∈ references,
      ((Entity.table (α := α) r).resolve? reference).isSome = true) :
    r.missing α owner references = [] := by
  apply List.filterMap_eq_nil_iff.mpr
  intro reference given
  obtain ⟨a, found⟩ := Option.isSome_iff_exists.mp (named reference given)
  rw [found]

theorem remains_haulAll {α : Type} [Entity α] {owner : Id} {haul : α → Haul}
    {references : List Reference}
    (named : ∀ reference ∈ references,
      ((Entity.table (α := α) r).resolve? reference).isSome = true)
    (each : ∀ a ∈ (Entity.table r).members, ∀ event ∈ (haul a).events, r.Remains event) :
    ∀ event ∈ (r.haulAll owner haul references).events, r.Remains event := by
  apply forall_events_haulAll _ each
  intro reference given unnamed
  have found := named reference given
  rw [unnamed] at found
  cases found

theorem events_journeyHaul (resolves : r.Resolves) {journey : VehicleJourney}
    (registered : journey ∈ r.vehicleJourneys.members) :
    (r.journeyHaul window journey).events = [] := by
  have timetables : r.missing Timetable journey.id journey.timetableIds = [] :=
    missing_eq_nil (resolves.timetables journey registered)
  have company : r.missing Company journey.id (Walk.present journey.companyId) = [] :=
    missing_eq_nil (resolves.operators journey registered)
  unfold journeyHaul
  split
  · simp only [Haul.append_def, Haul.append, timetables, company, List.append_nil]
  · exact timetables

theorem remains_patternHaul (resolves : r.Resolves) {pattern : JourneyPattern}
    (registered : pattern ∈ r.journeyPatterns.members) :
    ∀ event ∈ (r.patternHaul window pattern).events, r.Remains event := by
  have journeys : ∀ event ∈
      (r.haulAll pattern.id (r.journeyHaul window) pattern.vehicleJourneyIds).events,
      r.Remains event := by
    apply remains_haulAll (resolves.journeys pattern registered)
    intro journey there event told
    rw [events_journeyHaul window resolves there] at told
    cases told
  intro event told
  unfold patternHaul at told
  split at told
  · simp only [Haul.append_def, Haul.append, List.append_nil] at told
    exact journeys event told
  · rw [Haul.append_empty] at told
    exact journeys event told

theorem stopPointIds_of_named (resolves : r.Resolves) {route : Route}
    (registered : route ∈ r.routes.members)
    (nowhere : (r.named StopPoint route.stopPointIds).isEmpty = true) :
    route.stopPointIds = [] := by
  apply List.eq_nil_iff_forall_not_mem.mpr
  intro reference given
  have unnamed := List.filterMap_eq_nil_iff.mp (List.isEmpty_iff.mp nowhere) reference given
  have named := resolves.stopPoints route registered reference given
  rw [show r.stopPoints.resolve? reference = none from unnamed] at named
  cases named

theorem remains_stray {references : List Reference} :
    ∀ event ∈ r.stray (r.named StopPoint references), r.Remains event := by
  intro event told
  obtain ⟨stop, there, rfl⟩ := List.mem_map.mp told
  obtain ⟨met, outside⟩ := List.mem_filter.mp there
  exact .noStopArea (mem_named_iff.mp met).1 (Option.isNone_iff_eq_none.mp outside)

theorem remains_routeHaul (resolves : r.Resolves) {route : Route}
    (registered : route ∈ r.routes.members) :
    ∀ event ∈ (r.routeHaul window route).events, r.Remains event := by
  have stops : r.missing StopPoint route.id route.stopPointIds = [] :=
    missing_eq_nil (resolves.stopPoints route registered)
  have patterns : ∀ event ∈
      (r.haulAll route.id (r.patternHaul window) route.journeyPatternIds).events,
      r.Remains event :=
    remains_haulAll (resolves.patterns route registered)
      fun _ there => remains_patternHaul window resolves there
  intro event told
  simp only [routeHaul] at told
  split at told
  · next nowhere =>
    simp only [Haul.append_def, Haul.append, stops, List.nil_append, List.mem_singleton] at told
    subst told
    exact .noStopPoints registered (stopPointIds_of_named resolves registered nowhere)
  · split at told
    · simp only [Haul.append_def, Haul.append, stops, List.nil_append, List.append_nil,
        List.mem_append] at told
      rcases told with first | second
      · exact patterns event first
      · exact remains_stray event second
    · simp only [Haul.append_def, Haul.append, stops, List.nil_append] at told
      exact patterns event told

theorem remains_collect (resolves : r.Resolves) (registered : line ∈ r.lines.members) :
    ∀ event ∈ (r.collect line window).events, r.Remains event := by
  have routes : ∀ event ∈ (r.lineHaul window line).events, r.Remains event :=
    remains_haulAll (resolves.routes line registered)
      fun _ there => remains_routeHaul window resolves there
  have extras : r.missingExtras line = [] := by
    have network : r.missing Network line.id (Walk.present line.networkId) = [] :=
      missing_eq_nil (resolves.networks line registered)
    have company : r.missing Company line.id (Walk.present line.companyId) = [] :=
      missing_eq_nil (resolves.companies line registered)
    have groups : r.missing GroupOfLines line.id line.groupIds = [] :=
      missing_eq_nil (resolves.groups line registered)
    simp only [missingExtras, network, company, groups, List.append_nil]
  intro event told
  rw [collect_eq] at told
  split at told
  · rw [extras, List.append_nil] at told
    exact routes event told
  · exact routes event told

end

/-! ## What a valid network has -/

section
variable {r : Registry} {rejected : List Text} {verdict : Verdict}

theorem doubt_of_valid (judged : r.validate rejected = some verdict)
    (valid : verdict.isValid = true) {finding : Finding} (found : finding ∈ r.findings rejected) :
    ∃ doubt ∈ verdict.doubts, finding = .doubt doubt := by
  unfold validate at judged
  dsimp only at judged
  split at judged
  · cases judged
  · next usable =>
    cases judged
    cases finding with
    | defect d =>
      have none : (r.findings rejected).filterMap Finding.defect? = [] := List.isEmpty_iff.mp valid
      have listed : d ∈ (r.findings rejected).filterMap Finding.defect? :=
        List.mem_filterMap.mpr ⟨_, found, rfl⟩
      rw [none] at listed
      cases listed
    | doubt d => exact ⟨d, List.mem_filterMap.mpr ⟨_, found, rfl⟩, rfl⟩
    | unusable v => exact absurd (List.any_eq_true.mpr ⟨_, found, rfl⟩) usable

theorem isSome_of_checkReference {α : Type} [Keyed α] {table : Roster α} {reference : Reference}
    {defect : Defect}
    (doubtful : ∀ finding ∈ checkReference table reference defect, ∃ d, finding = .doubt d) :
    (table.resolve? reference).isSome = true := by
  unfold checkReference at doubtful
  unfold Roster.resolve?
  cases usable : reference.id? with
  | none =>
    rw [usable] at doubtful
    obtain ⟨_, same⟩ := doubtful _ List.mem_cons_self
    cases same
  | some id =>
    rw [usable] at doubtful
    dsimp only at doubtful
    split at doubtful
    · next there => rwa [Option.bind_some, ← Roster.contains_eq_isSome]
    · obtain ⟨_, same⟩ := doubtful _ List.mem_cons_self
      cases same

theorem isSome_of_checkOptional {α : Type} [Keyed α] {table : Roster α} {reference : Reference}
    {defect : Defect}
    (doubtful : ∀ finding ∈ checkOptional table reference defect, ∃ d, finding = .doubt d) :
    ∀ given ∈ Walk.present reference, (table.resolve? given).isSome = true := by
  unfold checkOptional at doubtful
  unfold Walk.present
  split at doubtful
  · next missing =>
    rw [if_pos missing]
    intro given none
    cases none
  · next there =>
    rw [if_neg there]
    intro given same
    rw [List.mem_singleton.mp same]
    exact isSome_of_checkReference doubtful

/-! Every record is looked at. -/

theorem mem_findings_of_line {line : Line} (registered : line ∈ r.lines.members)
    {finding : Finding} (found : finding ∈ r.checkLine line) : finding ∈ r.findings rejected := by
  have there : finding ∈ r.checkLines :=
    List.mem_append_right _ (List.mem_flatMap.mpr ⟨line, registered, found⟩)
  simp only [findings, List.mem_append, there, true_or]

theorem mem_findings_of_route {route : Route} (registered : route ∈ r.routes.members)
    {finding : Finding} (found : finding ∈ r.checkRoute route) :
    finding ∈ r.findings rejected := by
  have there : finding ∈ r.routes.members.flatMap r.checkRoute :=
    List.mem_flatMap.mpr ⟨route, registered, found⟩
  simp only [findings, List.mem_append, there, true_or, or_true]

theorem mem_findings_of_journey {journey : VehicleJourney}
    (registered : journey ∈ r.vehicleJourneys.members) {finding : Finding}
    (found : finding ∈ r.checkJourney journey) : finding ∈ r.findings rejected := by
  have there : finding ∈ r.vehicleJourneys.members.flatMap r.checkJourney :=
    List.mem_flatMap.mpr ⟨journey, registered, found⟩
  simp only [findings, List.mem_append, there, true_or, or_true]

theorem mem_findings_of_stopPoint {stop : StopPoint} (registered : stop ∈ r.stopPoints.members)
    {finding : Finding} (found : finding ∈ r.checkStopPoint stop) :
    finding ∈ r.findings rejected := by
  have there : finding ∈ r.stopPoints.members.flatMap r.checkStopPoint :=
    List.mem_flatMap.mpr ⟨stop, registered, found⟩
  simp only [findings, List.mem_append, there, true_or, or_true]

theorem mem_findings_of_timetable {t : Timetable} (registered : t ∈ r.timetables.members)
    {finding : Finding} (found : finding ∈ checkTimetable t) : finding ∈ r.findings rejected := by
  have there : finding ∈ r.timetables.members.flatMap checkTimetable :=
    List.mem_flatMap.mpr ⟨t, registered, found⟩
  simp only [findings, List.mem_append, there, true_or, or_true]

theorem mem_findings_of_connectionLink {link : ConnectionLink}
    (registered : link ∈ r.connectionLinks.members) {finding : Finding}
    (found : finding ∈ r.checkConnection link) : finding ∈ r.findings rejected := by
  have there : finding ∈ r.connectionLinks.members.flatMap r.checkConnection :=
    List.mem_flatMap.mpr ⟨link, registered, found⟩
  simp only [findings, List.mem_append, there, true_or, or_true]

theorem mem_findings_of_accessLink {link : AccessLink} (registered : link ∈ r.accessLinks.members)
    {finding : Finding} (found : finding ∈ r.checkAccessLink link) :
    finding ∈ r.findings rejected := by
  have there : finding ∈ r.accessLinks.members.flatMap r.checkAccessLink :=
    List.mem_flatMap.mpr ⟨link, registered, found⟩
  simp only [findings, List.mem_append, there, true_or, or_true]

theorem mem_findings_of_rejected {message : Text} (refused : message ∈ rejected) :
    Finding.defect (.rejectedContainment message) ∈ r.findings rejected :=
  List.mem_append_right _ (List.mem_map_of_mem refused)

/-- What the validation does not look at, the lists of nested records, a closed registry has
by itself. -/
theorem resolves_of_valid (closed : r.Closed) (judged : r.validate rejected = some verdict)
    (valid : verdict.isValid = true) : r.Resolves := by
  have doubtful : ∀ finding ∈ r.findings rejected, ∃ d, finding = .doubt d := by
    intro finding found
    obtain ⟨d, _, same⟩ := doubt_of_valid judged valid found
    exact ⟨d, same⟩
  -- nothing but doubts was found about any record, whatever its table
  have ofLine := fun line there finding (found : finding ∈ r.checkLine line) =>
    doubtful finding (mem_findings_of_line there found)
  have ofRoute := fun route there finding (found : finding ∈ r.checkRoute route) =>
    doubtful finding (mem_findings_of_route there found)
  have ofJourney := fun journey there finding (found : finding ∈ r.checkJourney journey) =>
    doubtful finding (mem_findings_of_journey there found)
  exact
    { routes := closed.routes
      patterns := closed.patterns
      journeys := closed.journeys
      networks := fun line there => isSome_of_checkOptional fun finding found =>
        ofLine line there finding (List.mem_append_left _ (List.mem_append_left _ found))
      companies := fun line there => isSome_of_checkOptional fun finding found =>
        ofLine line there finding (List.mem_append_left _ (List.mem_append_right _ found))
      groups := fun line there group given => isSome_of_checkReference fun finding found =>
        ofLine line there finding
          (List.mem_append_right _ (List.mem_flatMap.mpr ⟨group, given, found⟩))
      stopPoints := fun route there stop given => isSome_of_checkReference fun finding found =>
        ofRoute route there finding
          (List.mem_append_right _ (List.mem_flatMap.mpr ⟨stop, given, found⟩))
      timetables := fun journey there timetable given =>
        isSome_of_checkReference fun finding found =>
          ofJourney journey there finding (List.mem_append_left _
            (List.mem_append_right _ (List.mem_flatMap.mpr ⟨timetable, given, found⟩)))
      operators := fun journey there => isSome_of_checkOptional fun finding found =>
        ofJourney journey there finding (List.mem_append_right _ found) }

theorem doubt_of_remains (judged : r.validate rejected = some verdict)
    (valid : verdict.isValid = true) {event : Event} (remains : r.Remains event) :
    ∃ doubt ∈ verdict.doubts, event.message = doubt.message := by
  cases remains with
  | noStopPoints registered nowhere =>
    obtain ⟨doubt, told, same⟩ := doubt_of_valid judged valid
      (mem_findings_of_route registered (List.mem_append_left _
        (show Finding.doubt (.noStopPoints _) ∈ _ by
          rw [nowhere]
          exact List.mem_cons_self)))
    cases same
    exact ⟨_, told, rfl⟩
  | noStopArea registered outside =>
    obtain ⟨doubt, told, same⟩ := doubt_of_valid judged valid
      (mem_findings_of_stopPoint registered
        (show Finding.doubt (.noStopArea _) ∈ _ by
          rw [checkStopPoint, outside]
          exact List.mem_cons_self))
    cases same
    exact ⟨_, told, rfl⟩

theorem obstructed?_of_resolves {line : Line} (window : Window) (resolves : r.Resolves)
    (registered : line ∈ r.lines.members) : (r.collect line window).obstructed? = none := by
  apply if_neg
  intro obstructed
  obtain ⟨event, told, unusable⟩ := List.any_eq_true.mp obstructed
  cases remains_collect window resolves registered event told with
  | noStopPoints => cases unusable
  | noStopArea => cases unusable

end
end Registry

namespace Load

/-- If the document of a network loads and the network is found valid, then to collect any of
its lines over any window does not fail and finds whatever is referred to. It can tell of
routes without stop points and of stop points without an area, and tells what the validation
told. -/
theorem collect_foreseen {document : Row} {loading : Loading} {verdict : Verdict}
    (loaded : sections document {} = .ok () loading)
    (judged : loading.registry.validate (loading.rejected.map Rejection.message) = some verdict)
    (valid : verdict.isValid = true) {line : Line}
    (registered : line ∈ loading.registry.lines.members) (window : Window) :
    (loading.registry.collect line window).obstructed? = none ∧
    ∀ event ∈ (loading.registry.collect line window).events,
      (∀ kind reference owner, event ≠ .notFound kind reference owner) ∧
      ((∃ route ∈ loading.registry.routes.members, event = .noStopPoints route.id) ∨
        ∃ stop ∈ loading.registry.stopPoints.members, event = .noStopArea stop.id) ∧
      event.message ∈ verdict.doubts.map Doubt.message := by
  have resolves := Registry.resolves_of_valid (closed_of_sections loaded) judged valid
  refine ⟨Registry.obstructed?_of_resolves window resolves registered, fun event told => ?_⟩
  have remains := Registry.remains_collect window resolves registered event told
  obtain ⟨doubt, doubted, same⟩ := Registry.doubt_of_remains judged valid remains
  have foretold : event.message ∈ verdict.doubts.map Doubt.message :=
    List.mem_map.mpr ⟨doubt, doubted, same.symm⟩
  cases remains with
  | noStopPoints there =>
    exact ⟨fun _ _ _ other => Event.noConfusion other, Or.inl ⟨_, there, rfl⟩, foretold⟩
  | noStopArea there =>
    exact ⟨fun _ _ _ other => Event.noConfusion other, Or.inr ⟨_, there, rfl⟩, foretold⟩

/-! A line with one route that calls at a stop point outside all areas, and another one that
calls nowhere. -/

def ferry : Row :=
  .object [
    ("stop_points", .list [.object [("id", .text "S")]]),
    ("timetables", .list [.object [("id", .text "T"),
      ("calendar_days", .list [.object [("date", .text "2024-01-05")]])]]),
    ("lines", .list [.object [("id", .text "L"), ("routes", .list [
      .object [("id", .text "R"), ("stop_points", .list [.text "S"]),
        ("journey_patterns", .list [.object [("id", .text "P"),
          ("vehicle_journeys", .list [.object [("id", .text "V"),
            ("timetables", .list [.text "T"])]])]])],
      .object [("id", .text "Q")]])]])]

def ferryLoading : Loading := (ended ferry).1

def ferryLine : Line := { id := .text (.whole "L"), routeIds := [.text "R", .text "Q"] }

theorem ferry_loads : sections ferry {} = .ok () ferryLoading :=
  sections_of_ended (by decide +kernel)

theorem ferry_lines : ferryLoading.registry.lines.members = [ferryLine] := by decide +kernel

theorem ferry_accepted :
    ∃ verdict,
      ferryLoading.registry.validate (ferryLoading.rejected.map Rejection.message) =
        some verdict ∧ verdict.isValid = true := by
  apply (Option.any_eq_true _ _).mp
  decide +kernel

theorem collect_foreseen_ferry :
    (ferryLoading.registry.collect ferryLine {}).events.length = 2 ∧
    ∃ verdict,
      ferryLoading.registry.validate (ferryLoading.rejected.map Rejection.message) =
        some verdict ∧
      ∀ event ∈ (ferryLoading.registry.collect ferryLine {}).events,
        (∀ kind reference owner, event ≠ .notFound kind reference owner) ∧
        ((∃ route ∈ ferryLoading.registry.routes.members, event = .noStopPoints route.id) ∨
          ∃ stop ∈ ferryLoading.registry.stopPoints.members, event = .noStopArea stop.id) ∧
        event.message ∈ verdict.doubts.map Doubt.message := by
  obtain ⟨verdict, judged, valid⟩ := ferry_accepted
  have registered := ferry_lines ▸ List.mem_singleton_self ferryLine
  refine ⟨by decide +kernel, verdict, judged, ?_⟩
  exact (collect_foreseen ferry_loads judged valid registered {}).2

end Load
end LineClosure
