import LineClosure.Proofs.Calendar.ActiveDates
import LineClosure.Proofs.Calendar.DateTexts

/-! What a calendar expands to. The walk through a period looks for the day after each day that it
takes, so it fails just if it takes the last day of all. In every other calendar the active dates
are told by membership alone: no order of the periods, the single days or the day types shows. -/

namespace LineClosure

theorem Date.text_eq_last_iff {d : Date} : d.text = "9999-12-31" ↔ d = Date.last := by
  have shown : Date.last.text = "9999-12-31" := by decide
  constructor
  · intro same
    have read := congrArg Date.ofText? (same.trans shown.symm)
    rw [Date.ofText?_text, Date.ofText?_text] at read
    exact Option.some.inj read
  · intro last
    rw [last, shown]

/-- No walk up to the last day of all ends: there is no day after it. -/
theorem daysUpTo_last (passes : Date → Bool) (day : Date) (found : List Date) :
    daysUpTo Date.last passes day found = .error .pastLastDay := by
  induction day, found using daysUpTo.induct Date.last passes with
  | case1 day found going last =>
    rw [daysUpTo, if_pos going]
    dsimp only
    split
    · rfl
    · next later step => exact absurd (last.symm.trans step) (by simp)
  | case2 day found going grown later step ih =>
    rw [daysUpTo_of_next going step]
    exact ih
  | case3 day found beyond => exact absurd day.in_range beyond

namespace Timetable

variable {t u : Timetable}

theorem periodDays_of_overruns {periods : List Period}
    (overruns : ∃ p ∈ periods, p.start ≤ p.finish ∧ p.finish = Date.last) (found : List Date) :
    t.periodDays periods found = .error .pastLastDay := by
  induction periods generalizing found with
  | nil =>
    obtain ⟨p, given, _⟩ := overruns
    cases given
  | cons p rest ih =>
    rw [periodDays]
    by_cases first : p.start ≤ p.finish ∧ p.finish = Date.last
    · rw [first.2, daysUpTo_last]
      rfl
    · have later : ∃ q ∈ rest, q.start ≤ q.finish ∧ q.finish = Date.last := by
        obtain ⟨q, given, runs⟩ := overruns
        have other : q ≠ p := fun same => first (same ▸ runs)
        exact ⟨q, (List.mem_cons.mp given).resolve_left other, runs⟩
      cases daysUpTo p.finish t.coversWeekday p.start found with
      | error e => cases e; rfl
      | ok days => exact ih later days

theorem activeDates_eq_error_iff : t.activeDates = .error .pastLastDay ↔ t.Overruns := by
  constructor
  · intro failed
    by_cases overruns : t.Overruns
    · exact overruns
    · obtain ⟨days, ran, _⟩ := activeDates_ok overruns
      rw [ran] at failed
      cases failed
  · intro overruns
    rw [activeDates, periodDays_of_overruns overruns]
    rfl

theorem activeDates_congr (overrun : t.Overruns ↔ u.Overruns)
    (run : ∀ d, t.RunsOn d ↔ u.RunsOn d) : t.activeDates = u.activeDates := by
  by_cases overruns : t.Overruns
  · rw [activeDates_eq_error_iff.mpr overruns, activeDates_eq_error_iff.mpr (overrun.mp overruns)]
  · obtain ⟨days, ran, members⟩ := activeDates_ok overruns
    obtain ⟨others, ranToo, membersToo⟩ := activeDates_ok (mt overrun.mpr overruns)
    have same : ∀ d, d ∈ days ↔ d ∈ others := by
      intro d
      rw [members, membersToo, run]
    have equal : days = others :=
      (ascending_activeDates ran).eq_of_mem_iff (ascending_activeDates ranToo) same
    rw [ran, ranToo, equal]

/-! ## The days in terms of the calendar -/

theorem mem_includedDays {d : Date} :
    d ∈ t.includedDays ↔ ∃ day ∈ t.calendarDays, day.day = d ∧ day.isIncluded = true := by
  simp only [includedDays, List.mem_map, List.mem_filter]
  constructor
  · rintro ⟨day, ⟨given, included⟩, rfl⟩
    exact ⟨day, given, rfl, included⟩
  · rintro ⟨day, given, rfl, included⟩
    exact ⟨day, ⟨given, included⟩, rfl⟩

theorem mem_excludedDays {d : Date} :
    d ∈ t.excludedDays ↔ ∃ day ∈ t.calendarDays, day.day = d ∧ day.isIncluded = false := by
  simp only [excludedDays, List.mem_map, List.mem_filter, Bool.not_eq_true']
  constructor
  · rintro ⟨day, ⟨given, excluded⟩, rfl⟩
    exact ⟨day, given, rfl, excluded⟩
  · rintro ⟨day, given, rfl, excluded⟩
    exact ⟨day, ⟨given, excluded⟩, rfl⟩

theorem coversWeekday_iff {d : Date} :
    t.coversWeekday d = true ↔
      (∃ type ∈ t.dayTypes, d.weekday ∈ type.weekdays) ∨
        ∀ type ∈ t.dayTypes, type.weekdays = [] := by
  simp only [coversWeekday, Bool.or_eq_true, List.isEmpty_iff, List.flatMap_eq_nil_iff,
    List.contains_iff_mem, List.mem_flatMap]
  exact or_comm

theorem runsOn_iff {d : Date} :
    t.RunsOn d ↔
      (¬∃ day ∈ t.calendarDays, day.day = d ∧ day.isIncluded = false) ∧
        ((∃ day ∈ t.calendarDays, day.day = d ∧ day.isIncluded = true) ∨
          ∃ p ∈ t.periods, p.start ≤ d ∧ d ≤ p.finish ∧
            ((∃ type ∈ t.dayTypes, d.weekday ∈ type.weekdays) ∨
              ∀ type ∈ t.dayTypes, type.weekdays = [])) := by
  rw [RunsOn, mem_excludedDays, mem_includedDays, coversWeekday_iff]

/-- What a calendar expands to. The expansion fails just if a period with days in it ends on
9999-12-31. Else it finds, ascending and each once, the days that are not taken out and that are
put in or lie in a period on a weekday that is covered. Of the periods, the single days and the day
types it sees which there are, in no order and however often. -/
theorem activeDates_iff (t : Timetable) :
    (t.activeDates = .error .pastLastDay ↔
      ∃ p ∈ t.periods, p.start ≤ p.finish ∧ p.finish.text = "9999-12-31") ∧
    ((¬∃ p ∈ t.periods, p.start ≤ p.finish ∧ p.finish.text = "9999-12-31") →
      ∃ days, t.activeDates = .ok days ∧ days.Pairwise (· < ·) ∧
        ∀ d, d ∈ days ↔
          (¬∃ day ∈ t.calendarDays, day.day = d ∧ day.isIncluded = false) ∧
            ((∃ day ∈ t.calendarDays, day.day = d ∧ day.isIncluded = true) ∨
              ∃ p ∈ t.periods, p.start ≤ d ∧ d ≤ p.finish ∧
                ((∃ type ∈ t.dayTypes, d.weekday ∈ type.weekdays) ∨
                  ∀ type ∈ t.dayTypes, type.weekdays = []))) ∧
    ∀ u : Timetable, (∀ p, p ∈ u.periods ↔ p ∈ t.periods) →
      (∀ day, day ∈ u.calendarDays ↔ day ∈ t.calendarDays) →
      (∀ type, type ∈ u.dayTypes ↔ type ∈ t.dayTypes) → u.activeDates = t.activeDates := by
  have overruns_iff : t.Overruns ↔
      ∃ p ∈ t.periods, p.start ≤ p.finish ∧ p.finish.text = "9999-12-31" := by
    simp only [Overruns, Date.text_eq_last_iff]
  rw [← overruns_iff]
  refine ⟨activeDates_eq_error_iff, ?_, ?_⟩
  · intro ends
    obtain ⟨days, ran, members⟩ := activeDates_ok ends
    refine ⟨days, ran, ascending_activeDates ran, ?_⟩
    intro d
    rw [members, runsOn_iff]
  · intro u periods days types
    apply activeDates_congr
    · simp only [Overruns, periods]
    · intro d
      simp only [runsOn_iff, periods, days, types]

def fairDay (n : Fin 14) : Date := ⟨738892 + n, by omega⟩

/-- The weekends of two periods that overlap, and a Wednesday besides; one Sunday of them is put in
and taken out. A third period runs backwards. -/
def fairDays : Timetable :=
  { id := .text "fair"
    dayTypes := [.weekend, .marketDay]
    calendarDays := [⟨fairDay 2, .bool true⟩, ⟨fairDay 6, .int 1⟩, ⟨fairDay 6, .null⟩]
    periods := [⟨fairDay 4, fairDay 9⟩, ⟨fairDay 0, fairDay 6⟩, ⟨Date.last, fairDay 1⟩] }

def fairDaysReversed : Timetable :=
  { fairDays with
    dayTypes := fairDays.dayTypes.reverse
    calendarDays := fairDays.calendarDays.reverse
    periods := fairDays.periods.reverse ++ fairDays.periods }

/-- The fair runs on the Wednesday and on Saturday, not on the Sunday taken out nor on Friday; a
fair on the last day of all cannot be told. -/
theorem fairDays_activeDates :
    (∃ days, fairDays.activeDates = .ok days ∧ fairDaysReversed.activeDates = .ok days ∧
      fairDay 2 ∈ days ∧ fairDay 5 ∈ days ∧ fairDay 6 ∉ days ∧ fairDay 4 ∉ days) ∧
    { fairDays with periods := [⟨Date.last, Date.last⟩] }.activeDates = .error .pastLastDay := by
  obtain ⟨_, expands, order⟩ := activeDates_iff fairDays
  constructor
  · have ends : ¬∃ p ∈ fairDays.periods,
        p.start ≤ p.finish ∧ p.finish.text = "9999-12-31" := by
      simp only [Date.text_eq_last_iff]
      decide
    obtain ⟨days, ran, _, members⟩ := expands ends
    have reversed : fairDaysReversed.activeDates = fairDays.activeDates := by
      apply order
      · intro p
        simp only [fairDaysReversed, List.mem_append, List.mem_reverse, or_self]
      · intro day
        exact List.mem_reverse
      · intro type
        exact List.mem_reverse
    refine ⟨days, ran, reversed.trans ran, ?_⟩
    simp only [members, ← runsOn_iff]
    decide
  · apply (activeDates_iff _).1.mpr
    exact ⟨⟨Date.last, Date.last⟩, List.mem_singleton_self _, le_refl _,
      Date.text_eq_last_iff.mpr rfl⟩

end Timetable
end LineClosure
