import LineClosure.Proofs.Calendar.Clipping
import LineClosure.Proofs.Closure.Service

/-! Collections over a window and over a wider one. What is valid in the narrow window is
valid in the wide one, so every set of the closure grows with the window. The timetables of
the narrow window are those of the wide one, clipped once more. -/

namespace LineClosure

namespace Window

theorem bounds_of_inside {narrow wide : Window} (inside : ∀ d, narrow.Covers d → wide.Covers d)
    (ordered : narrow.first ≤ narrow.final) :
    wide.first ≤ narrow.first ∧ narrow.final ≤ wide.final := by
  simp only [covers_iff] at inside
  exact ⟨(inside narrow.first ⟨le_refl _, ordered⟩).1,
    (inside narrow.final ⟨ordered, le_refl _⟩).2⟩

end Window

namespace Timetable

theorem isEmpty_between_all (t : Timetable) :
    (t.between Date.first Date.last).isEmpty = t.isEmpty := by
  have days : (t.between Date.first Date.last).calendarDays = t.calendarDays := by
    refine List.filter_eq_self.mpr fun day _ => decide_eq_true ?_
    exact ⟨Date.first_le day.day, Date.le_last day.day⟩
  have periods : (t.between Date.first Date.last).periods = t.periods := by
    have each : Period.between Date.first Date.last = some := by
      funext p
      have whole : Date.first ≤ p.finish ∧ p.start ≤ Date.last ∧ Date.first ≤ Date.last :=
        ⟨Date.first_le p.finish, Date.le_last p.start, Date.first_le Date.last⟩
      rw [Period.between, if_pos whole, Date.max_first, Date.min_last]
    exact (congrArg t.periods.filterMap each).trans List.filterMap_some
  rw [isEmpty, days, periods, isEmpty]

theorem clip_of_isEmpty {t : Timetable} (empty : t.isEmpty = true) {w : Window}
    (bounded : w.isBounded = true) : t.clip w = none := by
  rw [clip_of_bounded t bounded, between?, if_pos (isEmpty_between empty w.first w.final)]

theorem within?_eq_some_iff {t left : Timetable} {w : Window} :
    t.within? w = some left ↔ t.isEmpty = false ∧ t.clip w = some left := by
  cases empty : t.isEmpty with
  | true =>
    cases bounded : w.isBounded with
    | true => simp [within?, bounded, clip_of_isEmpty empty bounded]
    | false => simp [within?, bounded, empty]
  | false =>
    cases bounded : w.isBounded with
    | true => simp [within?, bounded]
    | false => simp [within?, bounded, empty, clip_of_unbounded t bounded]

theorem within?_of_inside {t left : Timetable} {narrow wide : Window}
    (inside : ∀ d, narrow.Covers d → wide.Covers d) (within : t.within? narrow = some left) :
    ∃ kept, t.within? wide = some kept ∧
      (narrow.isBounded = true → kept.clip narrow = some left) := by
  simp only [within?_eq_some_iff] at within ⊢
  obtain ⟨filled, clipped⟩ := within
  cases bounded : narrow.isBounded with
  | true =>
    have ordered : narrow.first ≤ narrow.final := by
      refine not_lt.mp fun reversed => ?_
      rw [t.clip_of_bounded bounded, t.between?_of_lt reversed] at clipped
      cases clipped
    obtain ⟨before, after⟩ := Window.bounds_of_inside inside ordered
    have shared : t.clip (wide.inter narrow) = t.clip narrow := by
      have both : (wide.inter narrow).isBounded = true := by simp [Window.isBounded_inter, bounded]
      rw [t.clip_of_bounded both, t.clip_of_bounded bounded, Window.first_inter,
        Window.final_inter, max_eq_right before, min_eq_right after]
    obtain ⟨kept, first, second⟩ :=
      Option.bind_eq_some_iff.mp ((t.clip_bind wide narrow).trans (shared.trans clipped))
    exact ⟨kept, ⟨filled, first⟩, fun _ => second⟩
  | false =>
    -- The wide window covers the whole calendar, so it drops neither days nor periods.
    have wideBounds : wide.first = Date.first ∧ wide.final = Date.last := by
      rw [Window.eq_open_of_unbounded bounded] at inside
      have bounds := Window.bounds_of_inside inside (Date.first_le Date.last)
      exact ⟨le_antisymm bounds.1 (Date.first_le _),
        le_antisymm (Date.le_last _) bounds.2⟩
    cases wider : wide.isBounded with
    | true =>
      refine ⟨t.between Date.first Date.last, ⟨filled, ?_⟩, fun some => by cases some⟩
      rw [t.clip_of_bounded wider, wideBounds.1, wideBounds.2, between?, isEmpty_between_all,
        filled]
      rfl
    | false => exact ⟨t, ⟨filled, t.clip_of_unbounded wider⟩, fun some => by cases some⟩

end Timetable

/-! ## Growing lists -/

theorem flatMap_subset {α β : Type} {few many : List α} {f g : α → List β} (fewer : few ⊆ many)
    (each : ∀ a ∈ few, f a ⊆ g a) : few.flatMap f ⊆ many.flatMap g := by
  intro b found
  obtain ⟨a, given, there⟩ := List.mem_flatMap.mp found
  exact List.mem_flatMap.mpr ⟨a, fewer given, each a given there⟩

theorem filter_subset {α : Type} {few many : List α} {p q : α → Bool} (fewer : few ⊆ many)
    (each : ∀ a ∈ few, p a = true → q a = true) : few.filter p ⊆ many.filter q := by
  intro a found
  obtain ⟨given, right⟩ := List.mem_filter.mp found
  exact List.mem_filter.mpr ⟨fewer given, each a given right⟩

theorem Roster.ids_subset {α : Type} [Keyed α] {c d table : Roster α} {few many : List α}
    (narrow : c.members = firsts few) (wide : d.members = firsts many) (fewer : few ⊆ many)
    (registered : many ⊆ table.members) : c.ids ⊆ d.ids := by
  intro id found
  obtain ⟨a, member, named⟩ := mem_ids_iff.mp found
  rw [narrow] at member
  have given := fewer (mem_of_mem_firsts member)
  refine mem_ids_iff.mpr ⟨a, ?_, named⟩
  rw [wide]
  refine (mem_firsts_iff fun first one second other same => ?_).mpr given
  exact eq_of_identity (registered one) (registered other) same

/-- Each of the sets of one closure has its identifiers in the other. -/
structure Closure.Within (c d : Closure) : Prop where
  routes : c.routes.ids ⊆ d.routes.ids
  journeyPatterns : c.journeyPatterns.ids ⊆ d.journeyPatterns.ids
  vehicleJourneys : c.vehicleJourneys.ids ⊆ d.vehicleJourneys.ids
  timetables : c.timetables.ids ⊆ d.timetables.ids
  stopPoints : c.stopPoints.ids ⊆ d.stopPoints.ids
  stopAreas : c.stopAreas.ids ⊆ d.stopAreas.ids
  stopPlaces : c.stopPlaces.ids ⊆ d.stopPlaces.ids
  commercialStopPoints : c.commercialStopPoints.ids ⊆ d.commercialStopPoints.ids
  boardingPositions : c.boardingPositions.ids ⊆ d.boardingPositions.ids
  quays : c.quays.ids ⊆ d.quays.ids
  connectionLinks : c.connectionLinks.ids ⊆ d.connectionLinks.ids
  accessPoints : c.accessPoints.ids ⊆ d.accessPoints.ids
  accessLinks : c.accessLinks.ids ⊆ d.accessLinks.ids
  companies : c.companies.ids ⊆ d.companies.ids
  groupsOfLines : c.groupsOfLines.ids ⊆ d.groupsOfLines.ids

theorem Closure.empty_within (d : Closure) : Closure.Within {} d := by
  constructor <;> exact List.nil_subset _

namespace Registry

/-! ## Registered items -/

section
variable {r : Registry} {line : Line} {window : Window}

theorem named_subset {α : Type} [Entity α] (references : List Reference) :
    r.named α references ⊆ (Entity.table (α := α) r).members :=
  fun _ found => (mem_named_iff.mp found).1

theorem entities_subset {α : Type} [Entity α] (ids : List Id) :
    (r.entities ids : List α) ⊆ (Entity.table (α := α) r).members := by
  intro a found
  obtain ⟨id, _, there⟩ := List.mem_filterMap.mp found
  exact Roster.mem_of_find? there

theorem liveRoutes_subset : r.liveRoutes window line ⊆ r.routes.members :=
  fun _ found => named_subset line.routeIds (List.mem_filter.mp found).1

theorem validPatterns_subset : r.validPatterns window line ⊆ r.journeyPatterns.members := by
  intro pattern found
  obtain ⟨route, _, there⟩ := List.mem_flatMap.mp found
  exact named_subset _ (List.mem_filter.mp there).1

theorem validJourneys_subset : r.validJourneys window line ⊆ r.vehicleJourneys.members := by
  intro journey found
  obtain ⟨pattern, _, there⟩ := List.mem_flatMap.mp found
  exact named_subset _ (List.mem_filter.mp there).1

theorem calledStopPoints_subset : r.calledStopPoints window line ⊆ r.stopPoints.members := by
  intro stop found
  obtain ⟨route, _, there⟩ := List.mem_flatMap.mp found
  exact named_subset _ there

theorem calledAreas_subset : r.calledAreas window line ⊆ r.stopAreas.members := by
  intro a found
  obtain ⟨route, _, stop, _, area, sited, path⟩ := mem_calledAreas.mp found
  cases path with
  | refl => exact registered_of_areaOf? sited
  | tail _ link => exact registered_of_parent? link

end

/-! ## Two windows -/

section
variable (r : Registry) (line : Line) {narrow wide : Window}
  (inside : ∀ d, narrow.Covers d → wide.Covers d)

include inside

theorem isValidJourney_mono (journey : VehicleJourney)
    (valid : r.isValidJourney narrow journey = true) : r.isValidJourney wide journey = true := by
  obtain ⟨t, given, some⟩ := List.any_eq_true.mp valid
  obtain ⟨left, within⟩ := Option.isSome_iff_exists.mp some
  obtain ⟨kept, wider, _⟩ := Timetable.within?_of_inside inside within
  exact List.any_eq_true.mpr ⟨t, given, Option.isSome_iff_exists.mpr ⟨kept, wider⟩⟩

theorem isValidPattern_mono (pattern : JourneyPattern)
    (valid : r.isValidPattern narrow pattern = true) : r.isValidPattern wide pattern = true := by
  obtain ⟨journey, given, some⟩ := List.any_eq_true.mp valid
  exact List.any_eq_true.mpr ⟨journey, given, r.isValidJourney_mono inside journey some⟩

theorem isLive_mono (route : Route) (live : r.isLive narrow route = true) :
    r.isLive wide route = true := by
  rw [isLive, Bool.and_eq_true] at live ⊢
  obtain ⟨pattern, given, some⟩ := List.any_eq_true.mp live.2
  exact ⟨live.1, List.any_eq_true.mpr ⟨pattern, given, r.isValidPattern_mono inside pattern some⟩⟩

theorem liveRoutes_mono : r.liveRoutes narrow line ⊆ r.liveRoutes wide line :=
  filter_subset (List.Subset.refl _) fun route _ => r.isLive_mono inside route

theorem validPatterns_mono : r.validPatterns narrow line ⊆ r.validPatterns wide line :=
  flatMap_subset (r.liveRoutes_mono line inside) fun _ _ =>
    filter_subset (List.Subset.refl _) fun pattern _ => r.isValidPattern_mono inside pattern

theorem validJourneys_mono : r.validJourneys narrow line ⊆ r.validJourneys wide line :=
  flatMap_subset (r.validPatterns_mono line inside) fun _ _ =>
    filter_subset (List.Subset.refl _) fun journey _ => r.isValidJourney_mono inside journey

theorem calledStopPoints_mono :
    r.calledStopPoints narrow line ⊆ r.calledStopPoints wide line :=
  flatMap_subset (r.liveRoutes_mono line inside) fun _ _ => List.Subset.refl _

theorem calledAreas_mono : r.calledAreas narrow line ⊆ r.calledAreas wide line :=
  flatMap_subset (r.liveRoutes_mono line inside) fun _ _ => List.Subset.refl _

theorem valid_mono (valid : (r.collect line narrow).valid = true) :
    (r.collect line wide).valid = true := by
  rw [valid_collect] at valid ⊢
  obtain ⟨route, given, live⟩ := List.any_eq_true.mp valid
  exact List.any_eq_true.mpr ⟨route, given, r.isLive_mono inside route live⟩

theorem timetables_mono {left : Timetable}
    (collected : left ∈ (r.collect line narrow).closure.timetables.members) :
    ∃ kept ∈ (r.collect line wide).closure.timetables.members, kept.id = left.id ∧
      (narrow.isBounded = true → kept.clip narrow = some left) := by
  obtain ⟨journey, valid, there⟩ := List.mem_flatMap.mp (mem_timetables_collect.mp collected)
  obtain ⟨t, given, within⟩ := mem_timetablesOf.mp there
  obtain ⟨kept, wider, clips⟩ := Timetable.within?_of_inside inside within
  have running : kept ∈ r.runningTimetables wide line :=
    List.mem_flatMap.mpr
      ⟨journey, r.validJourneys_mono line inside valid, mem_timetablesOf.mpr ⟨t, given, wider⟩⟩
  have sameId : kept.id = left.id :=
    (Timetable.leaves_of_within? wider).sameId.trans (Timetable.leaves_of_within? within).sameId.symm
  exact ⟨kept, mem_timetables_collect.mpr running, sameId, clips⟩

theorem sorted_mono (type : AreaType) (hasSet : type ≠ .routingConstraint) :
    ((r.collect line narrow).closure.sorted type).ids ⊆
      ((r.collect line wide).closure.sorted type).ids := by
  have registered : Closure.ofType type (r.calledAreas wide line) ⊆ r.stopAreas.members :=
    fun _ found => calledAreas_subset (List.mem_filter.mp found).1
  exact Roster.ids_subset (r.sorted_collect line narrow hasSet) (r.sorted_collect line wide hasSet)
    (filter_subset (r.calledAreas_mono line inside) fun _ _ same => same) registered

theorem attached_mono {β : Type} [Entity β] (listed : Id → List Id) {c d : Roster β}
    (few : c.members =
      firsts ((r.calledAreas narrow line).flatMap fun a => r.entities (listed a.id)))
    (many : d.members =
      firsts ((r.calledAreas wide line).flatMap fun a => r.entities (listed a.id))) :
    c.ids ⊆ d.ids := by
  have registered : ((r.calledAreas wide line).flatMap fun a => r.entities (listed a.id)) ⊆
      (Entity.table (α := β) r).members := by
    intro b found
    obtain ⟨a, _, there⟩ := List.mem_flatMap.mp found
    exact entities_subset _ there
  exact Roster.ids_subset few many
    (flatMap_subset (r.calledAreas_mono line inside) fun _ _ => List.Subset.refl _) registered

theorem stopAreas_mono (valid : (r.collect line narrow).valid = true) :
    (r.collect line narrow).closure.stopAreas.ids ⊆
      (r.collect line wide).closure.stopAreas.ids := by
  refine Roster.ids_subset (r.stopAreas_collect line narrow valid)
    (r.stopAreas_collect line wide (r.valid_mono line inside valid))
    (List.append_subset.mpr ⟨?_, List.subset_append_right _ _⟩)
    (List.append_subset.mpr ⟨calledAreas_subset, entities_subset _⟩)
  exact List.subset_append_of_subset_left _ (r.calledAreas_mono line inside)

theorem companies_mono (valid : (r.collect line narrow).valid = true) :
    (r.collect line narrow).closure.companies.ids ⊆
      (r.collect line wide).closure.companies.ids := by
  refine Roster.ids_subset (r.companies_collect line narrow valid)
    (r.companies_collect line wide (r.valid_mono line inside valid))
    (List.append_subset.mpr ⟨?_, List.subset_append_right _ _⟩)
    (List.append_subset.mpr ⟨?_, named_subset _⟩)
  · exact List.subset_append_of_subset_left _
      (flatMap_subset (r.validJourneys_mono line inside) fun _ _ => List.Subset.refl _)
  · intro company found
    obtain ⟨journey, _, there⟩ := List.mem_flatMap.mp found
    exact named_subset _ there

theorem closure_mono : (r.collect line narrow).closure.Within (r.collect line wide).closure := by
  cases valid : (r.collect line narrow).valid with
  | false =>
    -- a line without data has an empty closure
    rw [closure_of_invalid r line narrow valid]
    exact Closure.empty_within _
  | true =>
    constructor
    case routes =>
      exact Roster.ids_subset (r.routes_collect line narrow) (r.routes_collect line wide)
        (r.liveRoutes_mono line inside) liveRoutes_subset
    case journeyPatterns =>
      exact Roster.ids_subset (r.journeyPatterns_collect line narrow)
        (r.journeyPatterns_collect line wide) (r.validPatterns_mono line inside)
        validPatterns_subset
    case vehicleJourneys =>
      exact Roster.ids_subset (r.vehicleJourneys_collect line narrow)
        (r.vehicleJourneys_collect line wide) (r.validJourneys_mono line inside)
        validJourneys_subset
    case timetables =>
      intro id found
      obtain ⟨left, collected, named⟩ := Roster.mem_ids_iff.mp found
      obtain ⟨kept, there, sameId, _⟩ := r.timetables_mono line inside collected
      exact Roster.mem_ids_iff.mpr ⟨kept, there, sameId.trans named⟩
    case stopPoints =>
      exact Roster.ids_subset (r.stopPoints_collect line narrow) (r.stopPoints_collect line wide)
        (r.calledStopPoints_mono line inside) calledStopPoints_subset
    case stopAreas => exact r.stopAreas_mono line inside valid
    case stopPlaces => exact r.sorted_mono line inside .stopPlace (by decide)
    case commercialStopPoints => exact r.sorted_mono line inside .commercialStopPoint (by decide)
    case boardingPositions => exact r.sorted_mono line inside .boardingPosition (by decide)
    case quays => exact r.sorted_mono line inside .quay (by decide)
    case connectionLinks =>
      exact r.attached_mono line inside r.connectionIdsAt (r.connectionLinks_collect line narrow)
        (r.connectionLinks_collect line wide)
    case accessPoints =>
      exact r.attached_mono line inside r.entrances.row (r.accessPoints_collect line narrow)
        (r.accessPoints_collect line wide)
    case accessLinks =>
      exact r.attached_mono line inside r.linkedPaths.row (r.accessLinks_collect line narrow)
        (r.accessLinks_collect line wide)
    case companies => exact r.companies_mono line inside valid
    case groupsOfLines =>
      exact Roster.ids_subset (r.groupsOfLines_collect line narrow valid)
        (r.groupsOfLines_collect line wide (r.valid_mono line inside valid))
        (List.Subset.refl _) (named_subset _)

/-- Collections grow with the window. A line that is valid in a window is valid in every
window around it, where each set of its closure is at least as large. The timetables that
come out of a window with bounds are those of the wider window, clipped to it. Neither
collection fails if every reference on the way is a scalar. -/
theorem collect_mono :
    ((∀ reference ∈ r.followed line, reference.id? ≠ none) →
      (r.collect line narrow).obstructed? = none ∧ (r.collect line wide).obstructed? = none) ∧
    ((r.collect line narrow).valid = true → (r.collect line wide).valid = true) ∧
    (r.collect line narrow).closure.Within (r.collect line wide).closure ∧
    (narrow.isBounded = true → ∀ left ∈ (r.collect line narrow).closure.timetables.members,
      ∃ kept ∈ (r.collect line wide).closure.timetables.members,
        kept.id = left.id ∧ kept.clip narrow = some left) := by
  refine ⟨fun scalars => ?_, r.valid_mono line inside, r.closure_mono line inside,
    fun bounded left collected => ?_⟩
  · have runs : ∀ window, (r.collect line window).obstructed? = none := by
      intro window
      refine (r.obstructed?_collect line window).resolve_right fun found => ?_
      obtain ⟨reference, given, unusable⟩ := found
      exact scalars reference given unusable
    exact ⟨runs narrow, runs wide⟩
  · obtain ⟨kept, there, sameId, clips⟩ := r.timetables_mono line inside collected
    exact ⟨kept, there, sameId, clips bounded⟩

end

def shuttleWeek : Window := ⟨some ⟨13, by decide⟩, some ⟨19, by decide⟩⟩

theorem collect_mono_shuttle :
    (∀ d, shuttleWeek.Covers d → shuttleWindow.Covers d) ∧
    (shuttle.collect shuttleLine shuttleWeek).closure.timetables.ids = [shuttleTimetable.id] ∧
    (shuttle.collect shuttleLine shuttleWindow).valid = true ∧
    (shuttle.collect shuttleLine shuttleWeek).closure.Within
      (shuttle.collect shuttleLine shuttleWindow).closure ∧
    ∀ left ∈ (shuttle.collect shuttleLine shuttleWeek).closure.timetables.members,
      ∃ kept ∈ (shuttle.collect shuttleLine shuttleWindow).closure.timetables.members,
        kept.id = left.id ∧ kept.clip shuttleWeek = some left := by
  have inside : ∀ d, shuttleWeek.Covers d → shuttleWindow.Covers d := by
    intro d covers
    rw [Window.covers_iff] at covers ⊢
    exact ⟨le_trans (by decide) covers.1, Date.le_last d⟩
  have valid : (shuttle.collect shuttleLine shuttleWeek).valid = true := by decide
  obtain ⟨_, validity, sets, clips⟩ := collect_mono shuttle shuttleLine inside
  exact ⟨inside, by decide, validity valid, sets, clips rfl⟩

end Registry
end LineClosure
