import LineClosure.Proofs.Closure.Service
import LineClosure.Proofs.Closure.Widening

/-! Timetables that are there but never run: all their days are taken out, or their periods have no
day of a kind that they name. A collection looks at what the window leaves of a timetable and not at
whether that runs, so a line with nothing but idle timetables counts as valid. Where no timetable is
idle, a line is valid just if it runs in the window. -/

namespace LineClosure

namespace Timetable

def IsIdle (t : Timetable) : Prop := ∀ d, ¬t.RunsOn d

/-- Nothing in the calendar can take away a day that is put in: no day is taken out, no weekdays are
named, and no period starts after its end. -/
structure IsPlain (t : Timetable) : Prop where
  nothingOut : t.excludedDays = []
  everyWeekday : t.dayTypes.flatMap DayType.weekdays = []
  forward : ∀ p ∈ t.periods, p.start ≤ p.finish

theorem IsPlain.coversWeekday {t : Timetable} (plain : t.IsPlain) (d : Date) :
    t.coversWeekday d = true := by
  unfold Timetable.coversWeekday
  rw [plain.everyWeekday]
  rfl

theorem IsPlain.runs {t : Timetable} (plain : t.IsPlain) (some : t.isEmpty = false) :
    ∃ d, t.RunsOn d := by
  have within : ∀ d, d ∉ t.excludedDays := by simp [plain.nothingOut]
  unfold isEmpty at some
  rw [Bool.and_eq_false_iff, List.isEmpty_eq_false_iff, List.isEmpty_eq_false_iff] at some
  rcases some with days | periods
  · obtain ⟨day, given⟩ := List.exists_mem_of_ne_nil _ days
    have included : day.isIncluded = true := by
      have kept : day ∉ t.calendarDays.filter fun day => !day.isIncluded := by
        rw [List.map_eq_nil_iff.mp plain.nothingOut]
        exact List.not_mem_nil
      simpa [given] using kept
    exact ⟨day.day, within _,
      Or.inl (List.mem_map.mpr ⟨day, List.mem_filter.mpr ⟨given, included⟩, rfl⟩)⟩
  · obtain ⟨p, given⟩ := List.exists_mem_of_ne_nil _ periods
    exact ⟨p.start, within _,
      Or.inr ⟨p, given, le_refl _, plain.forward p given, plain.coversWeekday _⟩⟩

theorem IsPlain.between {t : Timetable} (plain : t.IsPlain) (first final : Date) :
    (t.between first final).IsPlain where
  nothingOut := by
    refine List.eq_nil_iff_forall_not_mem.mpr fun d out => ?_
    obtain ⟨day, there, rfl⟩ := List.mem_map.mp out
    obtain ⟨kept, excluded⟩ := List.mem_filter.mp there
    have given : day.day ∈ t.excludedDays :=
      List.mem_map.mpr ⟨day, List.mem_filter.mpr ⟨(List.mem_filter.mp kept).1, excluded⟩, rfl⟩
    rw [plain.nothingOut] at given
    cases given
  everyWeekday := plain.everyWeekday
  forward p there := by
    obtain ⟨whole, given, cut⟩ := List.mem_filterMap.mp there
    have ordered := plain.forward whole given
    unfold Period.between at cut
    split at cut
    · next inside =>
      cases cut
      simp only [Date.le_def, Date.number_max, Date.number_min] at inside ordered ⊢
      omega
    · cases cut

theorem of_within? {t left : Timetable} {window : Window}
    (within : t.within? window = some left) :
    left.isEmpty = false ∧ (left = t ∨ ∃ first final, left = t.between first final) := by
  unfold within? at within
  split at within
  · next bounded =>
    rw [t.clip_of_bounded bounded, between?] at within
    split at within
    · cases within
    · next filled =>
      cases within
      exact ⟨Bool.eq_false_iff.mpr filled, Or.inr ⟨_, _, rfl⟩⟩
  · split at within
    · cases within
    · next filled =>
      cases within
      exact ⟨Bool.eq_false_iff.mpr filled, Or.inl rfl⟩

theorem IsPlain.runs_within {t left : Timetable} {window : Window} (plain : t.IsPlain)
    (within : t.within? window = some left) : ¬left.IsIdle := by
  obtain ⟨filled, rfl | ⟨first, final, rfl⟩⟩ := of_within? within
  · obtain ⟨d, runs⟩ := plain.runs filled
    exact fun idle => idle d runs
  · obtain ⟨d, runs⟩ := (plain.between first final).runs filled
    exact fun idle => idle d runs

end Timetable

/-- The closure runs on a day: a timetable in it that a journey in it refers to does. -/
def Closure.RunsOn (c : Closure) (d : Date) : Prop :=
  ∃ journey ∈ c.vehicleJourneys.members, ∃ t ∈ c.timetables.members,
    journey.RefersTo t ∧ t.RunsOn d

namespace Registry

def Serves (r : Registry) (line : Line) (journey : VehicleJourney) : Prop :=
  ∃ route ∈ r.named Route line.routeIds, r.named StopPoint route.stopPointIds ≠ [] ∧
    ∃ pattern ∈ r.named JourneyPattern route.journeyPatternIds,
      journey ∈ r.named VehicleJourney pattern.vehicleJourneyIds

def RunsOn (r : Registry) (line : Line) (d : Date) : Prop :=
  ∃ journey, r.Serves line journey ∧
    ∃ t ∈ r.named Timetable journey.timetableIds, t.RunsOn d

variable {r : Registry} {line : Line} {window : Window}

theorem exists_registered_of_runsOn {d : Date} (runs : r.RunsOn line d) :
    ∃ t ∈ r.timetables.members, t.RunsOn d := by
  obtain ⟨journey, _, t, named, running⟩ := runs
  exact ⟨t, named_subset _ named, running⟩

theorem mem_validJourneys_iff {journey : VehicleJourney} :
    journey ∈ r.validJourneys window line ↔
      r.Serves line journey ∧ r.isValidJourney window journey = true := by
  constructor
  · intro found
    obtain ⟨⟨route, named, live, pattern, listed, _, given⟩, valid⟩ := mem_validJourneys.mp found
    rw [isLive, Bool.and_eq_true, Bool.not_eq_true', List.isEmpty_eq_false_iff] at live
    exact ⟨⟨route, named, live.1, pattern, listed, given⟩, valid⟩
  · rintro ⟨⟨route, named, calls, pattern, listed, given⟩, valid⟩
    exact mem_validJourneys_of_reached named calls listed given valid

theorem mem_vehicleJourneys_collect {journey : VehicleJourney} :
    journey ∈ (r.collect line window).closure.vehicleJourneys.members ↔
      journey ∈ r.validJourneys window line := by
  rw [vehicleJourneys_collect]
  exact mem_firsts_iff fun first one second other =>
    Roster.eq_of_identity (r.validJourneys_subset one) (r.validJourneys_subset other)

theorem valid_collect_iff : (r.collect line window).valid = true ↔
    ∃ journey, journey ∈ (r.collect line window).closure.vehicleJourneys.members := by
  simp only [mem_vehicleJourneys_collect]
  rw [valid_collect, List.any_eq_true]
  constructor
  · rintro ⟨route, named, live⟩
    have both := live
    rw [isLive, Bool.and_eq_true, List.any_eq_true] at both
    obtain ⟨_, pattern, listed, valid⟩ := both
    obtain ⟨journey, given, some⟩ := List.any_eq_true.mp valid
    exact ⟨journey, mem_validJourneys.mpr
      ⟨⟨route, named, live, pattern, listed, valid, given⟩, some⟩⟩
  · rintro ⟨journey, found⟩
    obtain ⟨⟨route, named, live, _⟩, _⟩ := mem_validJourneys.mp found
    exact ⟨route, named, live⟩

theorem runsOn_collect {d : Date} :
    (r.collect line window).closure.RunsOn d ↔ window.Covers d ∧ r.RunsOn line d := by
  constructor
  · rintro ⟨journey, found, runs⟩
    have valid := mem_vehicleJourneys_collect.mp found
    obtain ⟨inside, still⟩ := (runs_of_valid valid d).mp runs
    exact ⟨inside, journey, (mem_validJourneys_iff.mp valid).1, still⟩
  · rintro ⟨inside, journey, serves, runs⟩
    have valid : r.isValidJourney window journey = true := by
      by_contra invalid
      exact runs_of_invalid (Bool.eq_false_iff.mpr invalid) inside runs
    have found := mem_validJourneys_iff.mpr ⟨serves, valid⟩
    exact ⟨journey, mem_vehicleJourneys_collect.mpr found, (runs_of_valid found d).mpr ⟨inside, runs⟩⟩

theorem valid_of_runsOn {d : Date} (inside : window.Covers d) (runs : r.RunsOn line d) :
    (r.collect line window).valid = true := by
  obtain ⟨journey, found, _⟩ := runsOn_collect.mpr ⟨inside, runs⟩
  exact valid_collect_iff.mpr ⟨journey, found⟩

theorem exists_timetable_of_valid (valid : (r.collect line window).valid = true) :
    ∃ journey ∈ (r.collect line window).closure.vehicleJourneys.members,
      ∃ t ∈ (r.collect line window).closure.timetables.members,
        journey.RefersTo t ∧ t.isEmpty = false := by
  obtain ⟨journey, found⟩ := valid_collect_iff.mp valid
  have member := mem_vehicleJourneys_collect.mp found
  obtain ⟨t, given, some⟩ := List.any_eq_true.mp (mem_validJourneys_iff.mp member).2
  obtain ⟨left, within⟩ := Option.isSome_iff_exists.mp some
  obtain ⟨_, reference, listed, id, usable, same⟩ := mem_named_iff.mp given
  have running : left ∈ r.runningTimetables window line :=
    List.mem_flatMap.mpr ⟨journey, member, mem_timetablesOf.mpr ⟨t, given, within⟩⟩
  refine ⟨journey, found, left, mem_timetables_collect.mpr running,
    ⟨reference, listed, id, usable, ?_⟩, (Timetable.of_within? within).1⟩
  rw [(Timetable.leaves_of_within? within).identity, same]

theorem exists_runsOn_of_valid (valid : (r.collect line window).valid = true)
    (busy : ∀ t ∈ (r.collect line window).closure.timetables.members, ¬t.IsIdle) :
    ∃ d, (r.collect line window).closure.RunsOn d := by
  obtain ⟨journey, found, t, there, refers, _⟩ := exists_timetable_of_valid valid
  obtain ⟨d, runs⟩ : ∃ d, t.RunsOn d := by
    by_contra never
    exact busy t there fun d runs => never ⟨d, runs⟩
  exact ⟨d, journey, found, t, there, refers, runs⟩

theorem not_isIdle_collect (plain : ∀ t ∈ r.timetables.members, t.IsPlain) :
    ∀ t ∈ (r.collect line window).closure.timetables.members, ¬t.IsIdle := by
  intro left there
  obtain ⟨t, registered, within⟩ := of_mem_runningTimetables (mem_timetables_collect.mp there)
  exact (plain t registered).runs_within within

end Registry
end LineClosure
