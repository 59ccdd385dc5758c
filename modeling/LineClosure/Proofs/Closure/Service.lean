import LineClosure.Proofs.Calendar.Reduction
import LineClosure.Proofs.Closure.Outcome

/-! The service of a journey. A collection neither loses nor invents a day: the timetables
that come out run for a journey on the days of the window on which its registered ones do,
and a journey that does not come out has no such day. -/

namespace LineClosure

theorem Window.covers_of_unbounded {window : Window} (unbounded : window.isBounded = false)
    (d : Date) : window.Covers d := by
  simp only [isBounded, Bool.or_eq_false_iff, Option.isSome_eq_false_iff,
    Option.isNone_iff_eq_none] at unbounded
  simp [Covers, unbounded.1, unbounded.2]

namespace Timetable

theorem keeps_within? (t : Timetable) (window : Window) :
    t.Keeps window.Covers (t.within? window) := by
  unfold within?
  split
  · exact t.keeps_clip window
  · next unbounded =>
    split
    · next empty =>
      intro d _
      exact not_runsOn_of_isEmpty empty
    · exact keeps_self (Window.covers_of_unbounded (Bool.eq_false_iff.mpr unbounded))

theorem leaves_of_within? {t left : Timetable} {window : Window}
    (within : t.within? window = some left) : t.Leaves window.Covers left := by
  have kept := t.keeps_within? window
  rw [within] at kept
  exact kept

theorem Leaves.identity {t left : Timetable} {inside : Date → Prop}
    (leaves : t.Leaves inside left) : identity left = identity t :=
  congrArg canonical leaves.sameId

def IsActiveOn (t : Timetable) (d : Date) : Prop := ∃ days, t.activeDates = .ok days ∧ d ∈ days

theorem isActiveOn_iff {t : Timetable} (ends : ¬t.Overruns) {d : Date} :
    t.IsActiveOn d ↔ t.RunsOn d := by
  obtain ⟨days, ok, members⟩ := activeDates_ok ends
  constructor
  · intro found
    obtain ⟨other, same, given⟩ := found
    rw [Except.ok.inj (same.symm.trans ok)] at given
    exact (members d).mp given
  · exact fun runs => ⟨days, ok, (members d).mpr runs⟩

end Timetable

def VehicleJourney.RefersTo (journey : VehicleJourney) (t : Timetable) : Prop :=
  ∃ reference ∈ journey.timetableIds, ∃ id, reference.id? = some id ∧ identity t = canonical id

namespace Registry

variable {r : Registry} {line : Line} {window : Window}

theorem mem_timetablesOf {journey : VehicleJourney} {left : Timetable} :
    left ∈ r.timetablesOf window journey ↔
      ∃ t ∈ r.named Timetable journey.timetableIds, t.within? window = some left :=
  List.mem_filterMap

theorem mem_validJourneys {journey : VehicleJourney} :
    journey ∈ r.validJourneys window line ↔
      (∃ route ∈ r.named Route line.routeIds, r.isLive window route = true ∧
        ∃ pattern ∈ r.named JourneyPattern route.journeyPatternIds,
          r.isValidPattern window pattern = true ∧
            journey ∈ r.named VehicleJourney pattern.vehicleJourneyIds) ∧
      r.isValidJourney window journey = true := by
  simp only [validJourneys, validPatterns, liveRoutes, patternsOf, journeysOf, List.mem_flatMap,
    List.mem_filter]
  constructor
  · intro found
    obtain ⟨pattern, ⟨route, ⟨named, live⟩, there, some⟩, given, valid⟩ := found
    exact ⟨⟨route, named, live, pattern, there, some, given⟩, valid⟩
  · intro found
    obtain ⟨⟨route, named, live, pattern, there, some, given⟩, valid⟩ := found
    exact ⟨pattern, ⟨route, ⟨named, live⟩, there, some⟩, given, valid⟩

/-- Validity goes up: a valid journey makes its patterns valid and their routes live. -/
theorem mem_validJourneys_of_reached {route : Route} {pattern : JourneyPattern}
    {journey : VehicleJourney} (named : route ∈ r.named Route line.routeIds)
    (calls : r.named StopPoint route.stopPointIds ≠ [])
    (listed : pattern ∈ r.named JourneyPattern route.journeyPatternIds)
    (given : journey ∈ r.named VehicleJourney pattern.vehicleJourneyIds)
    (valid : r.isValidJourney window journey = true) :
    journey ∈ r.validJourneys window line := by
  have some : r.isValidPattern window pattern = true :=
    List.any_eq_true.mpr ⟨journey, given, valid⟩
  have live : r.isLive window route = true := by
    rw [isLive, Bool.and_eq_true, Bool.not_eq_true', List.isEmpty_eq_false_iff]
    exact ⟨calls, List.any_eq_true.mpr ⟨pattern, listed, some⟩⟩
  exact mem_validJourneys.mpr ⟨⟨route, named, live, pattern, listed, some, given⟩, valid⟩

theorem of_mem_runningTimetables {left : Timetable}
    (running : left ∈ r.runningTimetables window line) :
    ∃ t ∈ r.timetables.members, t.within? window = some left := by
  obtain ⟨journey, _, there⟩ := List.mem_flatMap.mp running
  obtain ⟨t, given, within⟩ := mem_timetablesOf.mp there
  exact ⟨t, (mem_named_iff.mp given).1, within⟩

theorem mem_timetables_collect {left : Timetable} :
    left ∈ (r.collect line window).closure.timetables.members ↔
      left ∈ r.runningTimetables window line := by
  rw [timetables_collect]
  refine mem_firsts_iff fun first one second other same => ?_
  obtain ⟨t, registered, within⟩ := of_mem_runningTimetables one
  obtain ⟨u, there, inside⟩ := of_mem_runningTimetables other
  have equal : t = u := by
    refine Roster.eq_of_identity registered there ?_
    calc identity t = identity first := (Timetable.leaves_of_within? within).identity.symm
      _ = identity second := same
      _ = identity u := (Timetable.leaves_of_within? inside).identity
  rw [equal, inside] at within
  exact (Option.some.inj within).symm

theorem contains_vehicleJourneys_collect {journey : VehicleJourney}
    (registered : journey ∈ r.vehicleJourneys.members) :
    (r.collect line window).closure.vehicleJourneys.contains journey.id = true ↔
      journey ∈ r.validJourneys window line := by
  have known : ∀ a ∈ r.validJourneys window line, a ∈ r.vehicleJourneys.members := by
    intro a member
    obtain ⟨⟨_, _, _, _, _, _, given⟩, _⟩ := mem_validJourneys.mp member
    exact (mem_named_iff.mp given).1
  rw [Roster.contains_iff, vehicleJourneys_collect]
  constructor
  · intro found
    obtain ⟨a, member, same⟩ := found
    have given := mem_of_mem_firsts member
    exact Roster.eq_of_identity (known a given) registered same ▸ given
  · exact fun given => identity_mem_firsts given

variable {journey : VehicleJourney}

theorem runs_of_valid (valid : journey ∈ r.validJourneys window line) (d : Date) :
    (∃ t ∈ (r.collect line window).closure.timetables.members,
        journey.RefersTo t ∧ t.RunsOn d) ↔
      window.Covers d ∧ ∃ t ∈ r.named Timetable journey.timetableIds, t.RunsOn d := by
  constructor
  · intro found
    obtain ⟨left, member, ⟨reference, given, id, usable, same⟩, runs⟩ := found
    obtain ⟨t, registered, within⟩ :=
      of_mem_runningTimetables (mem_timetables_collect.mp member)
    have leaves := Timetable.leaves_of_within? within
    obtain ⟨inside, ran⟩ := (leaves.runs d).mp runs
    rw [leaves.identity] at same
    exact ⟨inside, t, mem_named_iff.mpr ⟨registered, reference, given, id, usable, same⟩, ran⟩
  · intro found
    obtain ⟨inside, t, given, runs⟩ := found
    have kept := t.keeps_within? window
    cases within : t.within? window with
    | none =>
      rw [within] at kept
      exact absurd runs (kept d inside)
    | some left =>
      have leaves := Timetable.leaves_of_within? within
      have running : left ∈ r.runningTimetables window line :=
        List.mem_flatMap.mpr ⟨journey, valid, mem_timetablesOf.mpr ⟨t, given, within⟩⟩
      obtain ⟨_, reference, listed, id, usable, same⟩ := mem_named_iff.mp given
      refine ⟨left, mem_timetables_collect.mpr running, ⟨reference, listed, id, usable, ?_⟩,
        (leaves.runs d).mpr ⟨inside, runs⟩⟩
      rw [leaves.identity, same]

theorem runs_of_invalid (invalid : r.isValidJourney window journey = false) {d : Date}
    (inside : window.Covers d) : ¬∃ t ∈ r.named Timetable journey.timetableIds, t.RunsOn d := by
  intro found
  obtain ⟨t, given, runs⟩ := found
  have kept := t.keeps_within? window
  have none : t.within? window = none := by
    simpa using (List.any_eq_false.mp invalid) t given
  rw [none] at kept
  exact kept d inside runs

/-- For a journey that a route with stop points leads to, and whose timetables end before the
calendar does: if the journey comes out, the timetables that come out for it have the active
dates of its registered ones inside the window, and if it does not, there are none. -/
theorem collect_service {route : Route} {pattern : JourneyPattern}
    (named : route ∈ r.named Route line.routeIds)
    (calls : r.named StopPoint route.stopPointIds ≠ [])
    (listed : pattern ∈ r.named JourneyPattern route.journeyPatternIds)
    (given : journey ∈ r.named VehicleJourney pattern.vehicleJourneyIds)
    (ends : ∀ t ∈ r.named Timetable journey.timetableIds, ¬t.Overruns) :
    (∀ t ∈ r.named Timetable journey.timetableIds, ∃ days, t.activeDates = .ok days) ∧
    (∀ t ∈ (r.collect line window).closure.timetables.members, journey.RefersTo t →
      ∃ days, t.activeDates = .ok days) ∧
    ((r.collect line window).closure.vehicleJourneys.contains journey.id = true → ∀ d,
      (∃ t ∈ (r.collect line window).closure.timetables.members,
          journey.RefersTo t ∧ t.IsActiveOn d) ↔
        window.Covers d ∧ ∃ t ∈ r.named Timetable journey.timetableIds, t.IsActiveOn d) ∧
    ((r.collect line window).closure.vehicleJourneys.contains journey.id = false → ∀ d,
      window.Covers d → ¬∃ t ∈ r.named Timetable journey.timetableIds, t.IsActiveOn d) := by
  have registered : journey ∈ r.vehicleJourneys.members := (mem_named_iff.mp given).1
  have collected : (r.collect line window).closure.vehicleJourneys.contains journey.id = true ↔
      journey ∈ r.validJourneys window line := contains_vehicleJourneys_collect registered
  -- what the window leaves of a timetable ends no later than the timetable
  have remaining : ∀ t ∈ (r.collect line window).closure.timetables.members,
      journey.RefersTo t → ¬t.Overruns := by
    intro left member both beyond
    obtain ⟨reference, listed, id, usable, same⟩ := both
    obtain ⟨t, there, within⟩ := of_mem_runningTimetables (mem_timetables_collect.mp member)
    have leaves := Timetable.leaves_of_within? within
    rw [leaves.identity] at same
    exact ends t (mem_named_iff.mpr ⟨there, reference, listed, id, usable, same⟩)
      (leaves.overruns beyond)
  have active : ∀ d, (∃ t ∈ r.named Timetable journey.timetableIds, t.IsActiveOn d) ↔
      ∃ t ∈ r.named Timetable journey.timetableIds, t.RunsOn d := by
    intro d
    refine exists_congr fun t => and_congr_right fun there => ?_
    exact Timetable.isActiveOn_iff (ends t there)
  refine ⟨fun t there => ?_, fun t member refers => ?_, fun found d => ?_, fun lost d inside => ?_⟩
  · obtain ⟨days, ok, _⟩ := Timetable.activeDates_ok (ends t there)
    exact ⟨days, ok⟩
  · obtain ⟨days, ok, _⟩ := Timetable.activeDates_ok (remaining t member refers)
    exact ⟨days, ok⟩
  · rw [active, ← runs_of_valid (collected.mp found)]
    refine exists_congr fun t => and_congr_right fun member => and_congr_right fun refers => ?_
    exact Timetable.isActiveOn_iff (remaining t member refers)
  · rw [active]
    refine runs_of_invalid (Bool.eq_false_iff.mpr fun valid => ?_) inside
    have out := collected.mpr (mem_validJourneys_of_reached named calls listed given valid)
    rw [lost] at out
    cases out

/-! A line with one journey: the timetable has a period of eleven days, one of them taken
out, and the window begins in its midst. -/

def shuttleRoute : Route :=
  { id := .text (.whole "R"), stopPointIds := [.text "S"], journeyPatternIds := [.text "P"] }

def shuttlePattern : JourneyPattern :=
  { id := .text (.whole "P"), vehicleJourneyIds := [.text "V"] }

def shuttleJourney : VehicleJourney :=
  { id := .text (.whole "V"), timetableIds := [.text "T"] }

def shuttleTimetable : Timetable :=
  { id := .text (.whole "T")
    periods := [⟨⟨10, by decide⟩, ⟨20, by decide⟩⟩]
    calendarDays := [{ day := ⟨14, by decide⟩, included := .bool false }] }

def shuttleLine : Line := { id := .text (.whole "L"), routeIds := [.text "R"] }

def shuttle : Registry where
  lines := .ofList [shuttleLine]
  routes := .ofList [shuttleRoute]
  stopPoints := .ofList [{ id := .text (.whole "S") }]
  journeyPatterns := .ofList [shuttlePattern]
  vehicleJourneys := .ofList [shuttleJourney]
  timetables := .ofList [shuttleTimetable]

def shuttleWindow : Window := ⟨some ⟨12, by decide⟩, none⟩

theorem collect_service_shuttle :
    (shuttle.collect shuttleLine shuttleWindow).closure.vehicleJourneys.contains
        shuttleJourney.id = true ∧
    ∀ d, (∃ t ∈ (shuttle.collect shuttleLine shuttleWindow).closure.timetables.members,
        shuttleJourney.RefersTo t ∧ t.IsActiveOn d) ↔
      shuttleWindow.Covers d ∧
        ∃ t ∈ shuttle.named Timetable shuttleJourney.timetableIds, t.IsActiveOn d := by
  have found : (shuttle.collect shuttleLine shuttleWindow).closure.vehicleJourneys.contains
      shuttleJourney.id = true := by decide
  have route : shuttle.named Route shuttleLine.routeIds = [shuttleRoute] := by rfl
  have pattern : shuttle.named JourneyPattern shuttleRoute.journeyPatternIds = [shuttlePattern] :=
    by rfl
  have journey : shuttle.named VehicleJourney shuttlePattern.vehicleJourneyIds =
      [shuttleJourney] := by rfl
  have timetable : shuttle.named Timetable shuttleJourney.timetableIds = [shuttleTimetable] := by
    rfl
  refine ⟨found, (collect_service (route ▸ List.mem_singleton_self _) ?_
    (pattern ▸ List.mem_singleton_self _) (journey ▸ List.mem_singleton_self _) ?_).2.2.1 found⟩
  · exact List.cons_ne_nil _ _
  · intro t there
    rw [timetable, List.mem_singleton] at there
    rw [there]
    decide

end Registry
end LineClosure
