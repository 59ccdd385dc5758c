import LineClosure.Proofs.Closure.Widening

/-! Windows that enclose all the dates of a network. Such a window takes nothing away, so a
collection over it is the collection without bounds: the copies that clipping makes are the
timetables themselves, provided that these carry the limits that their days and periods give. -/

namespace LineClosure

namespace Timetable

def HasLimits (t : Timetable) : Prop := t.withLimits = t

theorem hasLimits_withLimits (t : Timetable) : t.withLimits.HasLimits := rfl

end Timetable

/-- Every date that the timetable names lies in the window. -/
structure Window.Encloses (window : Window) (t : Timetable) : Prop where
  days : ∀ day ∈ t.calendarDays, window.Covers day.day
  starts : ∀ p ∈ t.periods, window.Covers p.start
  finishes : ∀ p ∈ t.periods, window.Covers p.finish

namespace Window

instance (window : Window) (d : Date) : Decidable (window.Covers d) :=
  decidable_of_iff _ covers_iff.symm

theorem encloses_iff {window : Window} {t : Timetable} :
    window.Encloses t ↔ (∀ day ∈ t.calendarDays, window.Covers day.day) ∧
      ∀ p ∈ t.periods, window.Covers p.start ∧ window.Covers p.finish := by
  constructor
  · intro within
    exact ⟨within.days, fun p given => ⟨within.starts p given, within.finishes p given⟩⟩
  · intro both
    exact ⟨both.1, fun p given => (both.2 p given).1, fun p given => (both.2 p given).2⟩

instance (window : Window) (t : Timetable) : Decidable (window.Encloses t) :=
  decidable_of_iff _ encloses_iff.symm

end Window

/-- A period with both dates in the window stays as it is, also one that starts after its end. -/
theorem Period.between_of_covers {window : Window} {p : Period} (start : window.Covers p.start)
    (finish : window.Covers p.finish) : p.between window.first window.final = some p := by
  rw [Window.covers_iff] at start finish
  have ordered : window.first ≤ window.final := le_trans start.1 start.2
  rw [between, if_pos ⟨finish.1, start.2, ordered⟩, max_eq_left start.1,
    min_eq_left finish.2]

namespace Timetable

variable {t : Timetable} {window : Window}

theorem between_of_encloses (limits : t.HasLimits) (encloses : window.Encloses t) :
    t.between window.first window.final = t := by
  have days : t.calendarDays.filter
      (fun day => window.first ≤ day.day ∧ day.day ≤ window.final) = t.calendarDays := by
    refine List.filter_eq_self.mpr fun day given => decide_eq_true ?_
    exact Window.covers_iff.mp (encloses.days day given)
  have periods : t.periods.filterMap (Period.between window.first window.final) = t.periods := by
    have each : ∀ p ∈ t.periods, p.between window.first window.final = some p := fun p given =>
      Period.between_of_covers (encloses.starts p given) (encloses.finishes p given)
    rw [List.filterMap_congr each, List.filterMap_some]
  rw [between, days, periods]
  exact limits

theorem within?_of_encloses (limits : t.HasLimits) (encloses : window.Encloses t) :
    t.within? window = t.within? {} := by
  cases bounded : window.isBounded with
  | false => rw [Window.eq_open_of_unbounded bounded]
  | true =>
    have whole : t.within? {} = if t.isEmpty then none else some t := rfl
    rw [within?, if_pos bounded, t.clip_of_bounded bounded, between?,
      between_of_encloses limits encloses, whole]

end Timetable

namespace Registry

section
variable (r : Registry) {v w : Window}
  (agree : ∀ t ∈ r.timetables.members, t.within? v = t.within? w)

include agree

theorem timetablesOf_congr (journey : VehicleJourney) :
    r.timetablesOf v journey = r.timetablesOf w journey :=
  List.filterMap_congr fun t given => agree t (named_subset journey.timetableIds given)

theorem isValidJourney_congr : r.isValidJourney v = r.isValidJourney w := by
  funext journey
  rw [isValidJourney_eq, isValidJourney_eq, r.timetablesOf_congr agree]

theorem isValidPattern_congr : r.isValidPattern v = r.isValidPattern w := by
  funext pattern
  rw [isValidPattern, isValidPattern, r.isValidJourney_congr agree]

theorem isLive_congr : r.isLive v = r.isLive w := by
  funext route
  rw [isLive, isLive, r.isValidPattern_congr agree]

theorem lineHaul_congr : r.lineHaul v = r.lineHaul w := by
  have journeys : r.journeyHaul v = r.journeyHaul w := by
    funext journey
    simp only [journeyHaul, r.isValidJourney_congr agree, r.timetablesOf_congr agree]
  have patterns : r.patternHaul v = r.patternHaul w := by
    funext pattern
    simp only [patternHaul, journeys, r.isValidPattern_congr agree]
  have routes : r.routeHaul v = r.routeHaul w := by
    funext route
    simp only [routeHaul, patterns, r.isLive_congr agree]
  funext line
  rw [lineHaul, lineHaul, routes]

theorem collect_congr (line : Line) : r.collect line v = r.collect line w := by
  simp only [collect_eq, r.isLive_congr agree, r.lineHaul_congr agree]

end

/-- If the registered timetables carry the limits that their dates give, and the window
encloses each of them, the collection is that without bounds: the same validity, the same
sets in the same order with the same records in them, and the same events. Neither fails if
every reference on the way is a scalar. -/
theorem collect_eq_unbounded (r : Registry) (line : Line) {window : Window}
    (limits : ∀ t ∈ r.timetables.members, t.HasLimits)
    (encloses : ∀ t ∈ r.timetables.members, window.Encloses t) :
    r.collect line window = r.collect line {} ∧
    ((∀ reference ∈ r.followed line, reference.id? ≠ none) →
      (r.collect line window).obstructed? = none ∧ (r.collect line {}).obstructed? = none) := by
  have agree : ∀ t ∈ r.timetables.members, t.within? window = t.within? {} := fun t given =>
    Timetable.within?_of_encloses (limits t given) (encloses t given)
  have same : r.collect line window = r.collect line {} := r.collect_congr agree line
  refine ⟨same, fun scalars => ?_⟩
  have runs : (r.collect line {}).obstructed? = none := by
    refine (r.obstructed?_collect line {}).resolve_right fun found => ?_
    obtain ⟨reference, given, unusable⟩ := found
    exact scalars reference given unusable
  exact ⟨same ▸ runs, runs⟩

/-! The shuttle again, its limits computed, with two timetables more: one has a period that
starts after its end, the other neither days nor periods. -/

def reversedTimetable : Timetable :=
  { id := .text (.whole "U"), periods := [⟨⟨17, by decide⟩, ⟨16, by decide⟩⟩] }

def nightShuttle : Registry :=
  { shuttle with
    vehicleJourneys := .ofList
      [{ shuttleJourney with timetableIds := [.text "T", .text "U", .text "E", .text "T"] }]
    timetables := .ofList
      [shuttleTimetable.withLimits, reversedTimetable.withLimits, { id := .text (.whole "E") }] }

def nightWindow : Window := ⟨some ⟨9, by decide⟩, some ⟨21, by decide⟩⟩

theorem collect_eq_unbounded_shuttle :
    nightShuttle.collect shuttleLine nightWindow = nightShuttle.collect shuttleLine {} ∧
    (nightShuttle.collect shuttleLine nightWindow).obstructed? = none ∧
    (nightShuttle.collect shuttleLine nightWindow).valid = true ∧
    (nightShuttle.collect shuttleLine nightWindow).closure.timetables.ids =
      [.text (.whole "T"), .text (.whole "U")] := by
  have members : nightShuttle.timetables.members =
      [shuttleTimetable.withLimits, reversedTimetable.withLimits, { id := .text (.whole "E") }] :=
    by rfl
  have limits : ∀ t ∈ nightShuttle.timetables.members, t.HasLimits := by
    rw [members]
    simp only [List.forall_mem_cons]
    exact ⟨Timetable.hasLimits_withLimits _, Timetable.hasLimits_withLimits _, rfl,
      fun _ given => absurd given List.not_mem_nil⟩
  have encloses : ∀ t ∈ nightShuttle.timetables.members, nightWindow.Encloses t := by
    rw [members]
    simp only [List.forall_mem_cons]
    exact ⟨by decide, by decide, by decide, fun _ given => absurd given List.not_mem_nil⟩
  obtain ⟨same, scalars⟩ := collect_eq_unbounded nightShuttle shuttleLine limits encloses
  exact ⟨same, (scalars (by decide)).1, by decide, by decide⟩

end Registry
end LineClosure
