import LineClosure.Proofs.Closure.Collected

/-! What comes out of a collection, whatever the registry holds: a verdict, the traversal of
the line without repetitions, the areas above its stop points, and no failure unless a
reference is no scalar. -/

namespace LineClosure.Registry

variable (r : Registry) (line : Line) (window : Window)

/-! ## References that are followed -/

/-- The references that a walk may follow: those of the line and of every registered record
on the way. -/
def followed : List Reference :=
  line.routeIds ++ Walk.present line.networkId ++ Walk.present line.companyId ++ line.groupIds ++
    (r.routes.members.flatMap fun route => route.stopPointIds ++ route.journeyPatternIds) ++
    r.journeyPatterns.members.flatMap (·.vehicleJourneyIds) ++
    r.vehicleJourneys.members.flatMap fun journey =>
      journey.timetableIds ++ Walk.present journey.companyId

def Concerns (event : Event) : Prop :=
  ∀ kind reference owner, event = .notFound kind reference owner → reference ∈ r.followed line

variable {r line}

theorem followed_of_route {route : Route} (registered : route ∈ r.routes.members)
    {reference : Reference} (given : reference ∈ route.stopPointIds ++ route.journeyPatternIds) :
    reference ∈ r.followed line :=
  List.mem_append_left _ (List.mem_append_left _ (List.mem_append_right _
    (List.mem_flatMap.mpr ⟨route, registered, given⟩)))

theorem followed_of_pattern {pattern : JourneyPattern}
    (registered : pattern ∈ r.journeyPatterns.members) {reference : Reference}
    (given : reference ∈ pattern.vehicleJourneyIds) : reference ∈ r.followed line :=
  List.mem_append_left _ (List.mem_append_right _
    (List.mem_flatMap.mpr ⟨pattern, registered, given⟩))

theorem followed_of_journey {journey : VehicleJourney}
    (registered : journey ∈ r.vehicleJourneys.members) {reference : Reference}
    (given : reference ∈ journey.timetableIds ++ Walk.present journey.companyId) :
    reference ∈ r.followed line :=
  List.mem_append_right _ (List.mem_flatMap.mpr ⟨journey, registered, given⟩)

theorem concerns_missing {α : Type} [Entity α] {owner : Id} {references : List Reference}
    (known : ∀ reference ∈ references, reference ∈ r.followed line) :
    ∀ event ∈ r.missing α owner references, r.Concerns line event := by
  intro event told
  obtain ⟨reference, given, missed⟩ := List.mem_filterMap.mp told
  split at missed
  · cases missed
  · cases missed
    intro kind other holder same
    cases same
    exact known _ given

theorem forall_events_haulAll {P : Event → Prop} {α : Type} [Entity α] {owner : Id}
    {haul : α → Haul} {references : List Reference}
    (missed : ∀ reference ∈ references, (Entity.table (α := α) r).resolve? reference = none →
      P (.notFound (Entity.kind α) reference owner))
    (each : ∀ a ∈ (Entity.table r).members, ∀ event ∈ (haul a).events, P event) :
    ∀ event ∈ (r.haulAll owner haul references).events, P event := by
  induction references with
  | nil => intro event told; cases told
  | cons reference rest ih =>
    intro event told
    have later := ih fun other given => missed other (List.mem_cons_of_mem _ given)
    rcases List.mem_append.mp (show event ∈ _ ++ _ from told) with first | after
    · cases resolved : (Entity.table (α := α) r).resolve? reference with
      | some a =>
        rw [resolved] at first
        obtain ⟨id, _, there⟩ := Option.bind_eq_some_iff.mp resolved
        exact each a (Roster.mem_of_find? there) event first
      | none =>
        rw [resolved] at first
        rw [List.mem_singleton.mp first]
        exact missed reference List.mem_cons_self resolved
    · exact later event after

theorem concerns_haulAll {α : Type} [Entity α] {owner : Id} {haul : α → Haul}
    {references : List Reference} (known : ∀ reference ∈ references, reference ∈ r.followed line)
    (each : ∀ a ∈ (Entity.table r).members, ∀ event ∈ (haul a).events, r.Concerns line event) :
    ∀ event ∈ (r.haulAll owner haul references).events, r.Concerns line event := by
  apply forall_events_haulAll _ each
  intro reference given _ kind other holder same
  cases same
  exact known reference given

theorem concerns_journeyHaul {journey : VehicleJourney}
    (registered : journey ∈ r.vehicleJourneys.members) :
    ∀ event ∈ (r.journeyHaul window journey).events, r.Concerns line event := by
  have timetables : ∀ event ∈ r.missing Timetable journey.id journey.timetableIds,
      r.Concerns line event :=
    concerns_missing fun _ given => followed_of_journey registered (List.mem_append_left _ given)
  have company : ∀ event ∈ r.missing Company journey.id (Walk.present journey.companyId),
      r.Concerns line event :=
    concerns_missing fun _ given => followed_of_journey registered (List.mem_append_right _ given)
  intro event told
  unfold journeyHaul at told
  split at told
  · simp only [Haul.append_def, Haul.append, List.append_nil, List.mem_append] at told
    rcases told with first | second
    · exact timetables event first
    · exact company event second
  · exact timetables event told

theorem concerns_patternHaul {pattern : JourneyPattern}
    (registered : pattern ∈ r.journeyPatterns.members) :
    ∀ event ∈ (r.patternHaul window pattern).events, r.Concerns line event := by
  have journeys : ∀ event ∈
      (r.haulAll pattern.id (r.journeyHaul window) pattern.vehicleJourneyIds).events,
      r.Concerns line event :=
    concerns_haulAll (fun _ given => followed_of_pattern registered given)
      fun _ there => concerns_journeyHaul window there
  intro event told
  unfold patternHaul at told
  split at told
  · simp only [Haul.append_def, Haul.append, List.append_nil] at told
    exact journeys event told
  · rw [Haul.append_empty] at told
    exact journeys event told

theorem concerns_stray (stops : List StopPoint) :
    ∀ event ∈ r.stray stops, r.Concerns line event := by
  intro event told
  obtain ⟨stop, _, rfl⟩ := List.mem_map.mp told
  intro kind reference owner same
  cases same

theorem concerns_routeHaul {route : Route} (registered : route ∈ r.routes.members) :
    ∀ event ∈ (r.routeHaul window route).events, r.Concerns line event := by
  have stops : ∀ event ∈ r.missing StopPoint route.id route.stopPointIds,
      r.Concerns line event :=
    concerns_missing fun _ given => followed_of_route registered (List.mem_append_left _ given)
  have patterns : ∀ event ∈
      (r.haulAll route.id (r.patternHaul window) route.journeyPatternIds).events,
      r.Concerns line event :=
    concerns_haulAll
      (fun _ given => followed_of_route registered (List.mem_append_right _ given))
      fun _ there => concerns_patternHaul window there
  intro event told
  simp only [routeHaul] at told
  split at told
  · simp only [Haul.append_def, Haul.append, List.mem_append, List.mem_singleton] at told
    rcases told with first | rfl
    · exact stops event first
    · intro kind reference owner same
      cases same
  · split at told
    · simp only [Haul.append_def, Haul.append, List.append_nil, List.mem_append] at told
      rcases told with (first | second) | third
      · exact stops event first
      · exact patterns event second
      · exact concerns_stray _ event third
    · simp only [Haul.append_def, Haul.append, List.mem_append] at told
      rcases told with first | second
      · exact stops event first
      · exact patterns event second

theorem concerns_collect : ∀ event ∈ (r.collect line window).events, r.Concerns line event := by
  have known : ∀ reference ∈ line.routeIds ++ Walk.present line.networkId ++
      Walk.present line.companyId ++ line.groupIds, reference ∈ r.followed line := by
    intro reference given
    exact List.mem_append_left _ (List.mem_append_left _ (List.mem_append_left _ given))
  have routes : ∀ event ∈ (r.lineHaul window line).events, r.Concerns line event :=
    concerns_haulAll (fun reference given => known reference (by simp [given]))
      fun _ there => concerns_routeHaul window there
  have extras : ∀ event ∈ r.missingExtras line, r.Concerns line event := by
    intro event told
    simp only [missingExtras, List.mem_append] at told
    rcases told with (first | second) | third
    · exact concerns_missing (fun reference given => known reference (by simp [given])) event first
    · exact concerns_missing (fun reference given => known reference (by simp [given])) event second
    · exact concerns_missing (fun reference given => known reference (by simp [given])) event third
  intro event told
  rw [collect_eq] at told
  split at told
  · exact (List.mem_append.mp told).elim (routes event) (extras event)
  · exact routes event told

variable (r line)

theorem obstructed?_collect :
    (r.collect line window).obstructed? = none ∨
      ∃ reference ∈ r.followed line, reference.id? = none := by
  unfold Collection.obstructed?
  split
  · next obstructed =>
    obtain ⟨event, told, unusable⟩ := List.any_eq_true.mp obstructed
    refine Or.inr ?_
    cases event with
    | notFound kind reference owner =>
      refine ⟨reference, concerns_collect window _ told kind reference owner rfl, ?_⟩
      simpa [Event.isUnusable] using unusable
    | _ => cases unusable
  · exact Or.inl rfl

/-! ## What is collected -/

variable {r line window} in
/-- An area is called at if it is above an area that a stop point of a live route is in. -/
theorem mem_calledAreas {a : StopArea} :
    a ∈ r.calledAreas window line ↔
      ∃ route ∈ r.liveRoutes window line, ∃ stop ∈ r.named StopPoint route.stopPointIds,
        ∃ area, r.areaOf? stop.id = some area ∧ Relation.ReflTransGen r.LiesIn area a := by
  simp only [calledAreas, areasOf, List.mem_flatMap, Option.mem_toList]
  constructor
  · intro both
    obtain ⟨route, live, stop, there, area, found, above⟩ := both
    exact ⟨route, live, stop, there, area, found,
      (mem_lineage_iff (registered_of_areaOf? found)).mp above⟩
  · intro both
    obtain ⟨route, live, stop, there, area, found, path⟩ := both
    exact ⟨route, live, stop, there, area, found,
      (mem_lineage_iff (registered_of_areaOf? found)).mpr path⟩

theorem valid_collect :
    (r.collect line window).valid = (r.named Route line.routeIds).any (r.isLive window) := by
  rw [collect_eq]
  split
  · next live => exact live.symm
  · next dead => exact (Bool.eq_false_iff.mpr dead).symm

theorem closure_of_invalid (invalid : (r.collect line window).valid = false) :
    (r.collect line window).closure = {} := by
  rw [valid_collect] at invalid
  rw [collect_eq, if_neg (by simp [invalid])]

theorem closure_collect :
    (r.collect line window).closure =
      if (r.collect line window).valid then
        r.withExtras line (Closure.absorb r {} (r.lineHaul window line))
      else Closure.absorb r {} (r.lineHaul window line) := by
  split
  · next valid =>
    rw [valid_collect] at valid
    rw [collect_eq, if_pos valid]
  · next invalid =>
    have dead := Bool.eq_false_iff.mpr invalid
    rw [closure_of_invalid r line window dead]
    rw [valid_collect] at dead
    exact (absorb_lineHaul_of_dead r window line dead {}).symm

theorem routes_collect :
    (r.collect line window).closure.routes.members = firsts (r.liveRoutes window line) := by
  rw [closure_collect, ← routes_lineHaul]
  split <;> exact Roster.members_insertAll_empty _

theorem journeyPatterns_collect :
    (r.collect line window).closure.journeyPatterns.members =
      firsts (r.validPatterns window line) := by
  rw [closure_collect, ← journeyPatterns_lineHaul]
  split <;> exact Roster.members_insertAll_empty _

theorem vehicleJourneys_collect :
    (r.collect line window).closure.vehicleJourneys.members =
      firsts (r.validJourneys window line) := by
  rw [closure_collect, ← vehicleJourneys_lineHaul]
  split <;> exact Roster.members_insertAll_empty _

theorem timetables_collect :
    (r.collect line window).closure.timetables.members =
      firsts (r.runningTimetables window line) := by
  rw [closure_collect, ← timetables_lineHaul]
  split <;> exact Roster.members_insertAll_empty _

theorem stopPoints_collect :
    (r.collect line window).closure.stopPoints.members =
      firsts (r.calledStopPoints window line) := by
  rw [closure_collect, ← stopPoints_lineHaul]
  split <;> exact Roster.members_insertAll_empty _

theorem stopAreas_collect (valid : (r.collect line window).valid = true) :
    (r.collect line window).closure.stopAreas.members =
      firsts (r.calledAreas window line ++ r.constraintsOn (.scalar line.id)) := by
  rw [closure_collect, if_pos valid, ← stopAreas_lineHaul, ← Roster.members_insertAll_empty,
    Roster.insertAll_append]
  rfl

theorem sorted_collect {type : AreaType} (hasSet : type ≠ .routingConstraint) :
    ((r.collect line window).closure.sorted type).members =
      firsts (Closure.ofType type (r.calledAreas window line)) := by
  rw [closure_collect, ← stopAreas_lineHaul]
  cases type with
  | routingConstraint => exact absurd rfl hasSet
  | _ => split <;> exact Roster.members_insertAll_empty _

theorem connectionLinks_collect :
    (r.collect line window).closure.connectionLinks.members =
      firsts ((r.calledAreas window line).flatMap fun a => r.connectionsAt a.id) := by
  rw [closure_collect, ← stopAreas_lineHaul]
  split <;> exact Roster.members_insertAll_empty _

theorem accessPoints_collect :
    (r.collect line window).closure.accessPoints.members =
      firsts ((r.calledAreas window line).flatMap fun a => r.accessPointsAt a.id) := by
  rw [closure_collect, ← stopAreas_lineHaul]
  split <;> exact Roster.members_insertAll_empty _

theorem accessLinks_collect :
    (r.collect line window).closure.accessLinks.members =
      firsts ((r.calledAreas window line).flatMap fun a => r.accessLinksAt a.id) := by
  rw [closure_collect, ← stopAreas_lineHaul]
  split <;> exact Roster.members_insertAll_empty _

theorem companies_collect (valid : (r.collect line window).valid = true) :
    (r.collect line window).closure.companies.members =
      firsts (((r.validJourneys window line).flatMap fun journey =>
          r.named Company (Walk.present journey.companyId)) ++
        r.named Company (Walk.present line.companyId)) := by
  rw [closure_collect, if_pos valid, ← companies_lineHaul, ← Roster.members_insertAll_empty,
    Roster.insertAll_append]
  rfl

theorem groupsOfLines_collect (valid : (r.collect line window).valid = true) :
    (r.collect line window).closure.groupsOfLines.members =
      firsts (r.named GroupOfLines line.groupIds) := by
  rw [closure_collect, if_pos valid, ← Roster.members_insertAll_empty]
  rfl

/-- What is valid beneath the line comes out, each record once, in the order of the plain
traversal. Of an invalid line nothing comes out. -/
theorem collect_traversal :
    (r.collect line window).valid = (r.named Route line.routeIds).any (r.isLive window) ∧
    (r.collect line window).closure.routes.members = firsts (r.liveRoutes window line) ∧
    (r.collect line window).closure.journeyPatterns.members =
      firsts (r.validPatterns window line) ∧
    (r.collect line window).closure.vehicleJourneys.members =
      firsts (r.validJourneys window line) ∧
    (r.collect line window).closure.timetables.members =
      firsts (r.runningTimetables window line) ∧
    (r.collect line window).closure.stopPoints.members =
      firsts (r.calledStopPoints window line) ∧
    ((r.collect line window).valid = true ∨ (r.collect line window).closure = {}) ∧
    ((r.collect line window).obstructed? = none ∨
      ∃ reference ∈ r.followed line, reference.id? = none) := by
  refine ⟨r.valid_collect line window, r.routes_collect line window,
    r.journeyPatterns_collect line window, r.vehicleJourneys_collect line window,
    r.timetables_collect line window, r.stopPoints_collect line window, ?_,
    r.obstructed?_collect line window⟩
  cases valid : (r.collect line window).valid with
  | true => exact Or.inl rfl
  | false => exact Or.inr (closure_of_invalid r line window valid)

/-- The areas of a valid line are the lineages of the areas in which its live routes call,
each area once, and behind them the routing constraints on the line. The areas called at
are closed upwards and are no more than what lies above a stop point. The ascent from an
area ends, whatever has been collected and however the areas lie in each other. -/
theorem collect_lineages :
    (∀ (c final : Closure) (area : StopArea), Closure.Climb r c (some area) final ↔
      Closure.ascend r (r.stopAreas.size + 1) c (some area) = final) ∧
    (r.collect line window).closure.stopAreas.members =
      (if (r.collect line window).valid then
        firsts (r.calledAreas window line ++ r.constraintsOn (.scalar line.id))
      else []) ∧
    (∀ a ∈ r.calledAreas window line, ∀ parent, r.parent? a.id = some parent →
      parent ∈ r.calledAreas window line) ∧
    ∀ a, a ∈ r.calledAreas window line ↔
      ∃ route ∈ r.liveRoutes window line, ∃ stop ∈ r.named StopPoint route.stopPointIds,
        ∃ area, r.areaOf? stop.id = some area ∧ Relation.ReflTransGen r.LiesIn area a := by
  refine ⟨fun c final area => ?_, ?_, ?_, ?_⟩
  · have ends := Closure.climb_from_area r c area
    constructor
    · exact fun other => ends.unique other
    · intro same
      subst same
      exact ends
  · split
    · next valid => exact stopAreas_collect r line window valid
    · next invalid =>
      rw [closure_of_invalid r line window (Bool.eq_false_iff.mpr invalid)]
      rfl
  · intro a member parent link
    rw [mem_calledAreas] at member ⊢
    obtain ⟨route, called, stop, there, area, found, path⟩ := member
    exact ⟨route, called, stop, there, area, found, path.tail link⟩
  · exact fun a => mem_calledAreas

end LineClosure.Registry
