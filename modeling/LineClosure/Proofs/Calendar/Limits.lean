import LineClosure.Proofs.Calendar.Clipping
import LineClosure.Proofs.Calendar.Expansion

/-! The limits of a timetable against its service. Limits look at the days and periods alone,
the service also at the weekdays and at the days taken out, so there may be no service at a
limit; but there is none beyond. What a window leaves of a timetable has its limits inside the
window, also where a period runs backwards. -/

namespace LineClosure

namespace Period

variable {first final : Date} {p part : Period}

theorem ends_of_between (lies : p.between first final = some part) :
    (first ≤ part.start ∧ part.start ≤ final) ∧ first ≤ part.finish ∧ part.finish ≤ final := by
  unfold between at lies
  split at lies
  · next inside =>
    cases lies
    simp only [Date.le_def, Date.number_max, Date.number_min] at inside ⊢
    omega
  · cases lies

theorem forward_of_between (lies : p.between first final = some part)
    (forward : p.start ≤ p.finish) : part.start ≤ part.finish := by
  unfold between at lies
  split at lies
  · next inside =>
    cases lies
    simp only [Date.le_def, Date.number_max, Date.number_min] at inside forward ⊢
    omega
  · cases lies

end Period

namespace Timetable

def starts (t : Timetable) : List Date := t.periods.map (·.start) ++ t.includedDays

def finishes (t : Timetable) : List Date := t.periods.map (·.finish) ++ t.includedDays

/-- The limits of a timetable say where its service is. All of it lies between them, and they
are missing only where there can be none. -/
structure Brackets (t : Timetable) : Prop where
  covers : ∀ days, t.activeDates = .ok days → ∀ d ∈ days, ∃ first last,
    t.startOfPeriod = some first ∧ t.endOfPeriod = some last ∧ first ≤ d ∧ d ≤ last
  start_eq_none_iff : t.startOfPeriod = none ↔ t.periods = [] ∧ t.includedDays = []
  end_eq_none_iff : t.endOfPeriod = none ↔ t.periods = [] ∧ t.includedDays = []
  idle : t.periods = [] ∧ t.includedDays = [] → t.activeDates = .ok []
  ordered : (∀ p ∈ t.periods, p.start ≤ p.finish) → ∀ first last,
    t.startOfPeriod = some first → t.endOfPeriod = some last → first ≤ last

section
variable {t : Timetable} {d start finish : Date}

theorem mem_starts_iff : d ∈ t.starts ↔ (∃ p ∈ t.periods, p.start = d) ∨ d ∈ t.includedDays := by
  rw [starts, List.mem_append, List.mem_map]

theorem mem_finishes_iff :
    d ∈ t.finishes ↔ (∃ p ∈ t.periods, p.finish = d) ∨ d ∈ t.includedDays := by
  rw [finishes, List.mem_append, List.mem_map]

theorem startOfPeriod_eq_some_iff :
    t.withLimits.startOfPeriod = some d ↔ d ∈ t.starts ∧ ∀ other ∈ t.starts, d ≤ other :=
  List.min?_eq_some_iff

theorem endOfPeriod_eq_some_iff :
    t.withLimits.endOfPeriod = some d ↔ d ∈ t.finishes ∧ ∀ other ∈ t.finishes, other ≤ d :=
  List.max?_eq_some_iff

theorem startOfPeriod_eq_none_iff :
    t.withLimits.startOfPeriod = none ↔ t.periods = [] ∧ t.includedDays = [] := by
  have same : t.withLimits.startOfPeriod = t.starts.min? := rfl
  rw [same, List.min?_eq_none_iff, starts, List.append_eq_nil_iff, List.map_eq_nil_iff]

theorem endOfPeriod_eq_none_iff :
    t.withLimits.endOfPeriod = none ↔ t.periods = [] ∧ t.includedDays = [] := by
  have same : t.withLimits.endOfPeriod = t.finishes.max? := rfl
  rw [same, List.max?_eq_none_iff, finishes, List.append_eq_nil_iff, List.map_eq_nil_iff]

theorem exists_limits (starts : start ∈ t.starts) (finishes : finish ∈ t.finishes) :
    ∃ first last, t.withLimits.startOfPeriod = some first ∧ t.withLimits.endOfPeriod = some last ∧
      first ≤ start ∧ finish ≤ last := by
  have early : t.withLimits.startOfPeriod ≠ none := fun missing =>
    List.ne_nil_of_mem starts (List.min?_eq_none_iff.mp missing)
  have late : t.withLimits.endOfPeriod ≠ none := fun missing =>
    List.ne_nil_of_mem finishes (List.max?_eq_none_iff.mp missing)
  obtain ⟨first, begins⟩ := Option.ne_none_iff_exists'.mp early
  obtain ⟨last, ends⟩ := Option.ne_none_iff_exists'.mp late
  exact ⟨first, last, begins, ends, (startOfPeriod_eq_some_iff.mp begins).2 start starts,
    (endOfPeriod_eq_some_iff.mp ends).2 finish finishes⟩

theorem exists_limits_of_runsOn (runs : t.RunsOn d) :
    ∃ first last, t.withLimits.startOfPeriod = some first ∧ t.withLimits.endOfPeriod = some last ∧
      first ≤ d ∧ d ≤ last := by
  rcases runs.2 with included | ⟨p, given, above, below, _⟩
  · exact exists_limits (mem_starts_iff.mpr (Or.inr included))
      (mem_finishes_iff.mpr (Or.inr included))
  · obtain ⟨first, last, begins, ends, early, late⟩ := exists_limits
      (mem_starts_iff.mpr (Or.inl ⟨p, given, rfl⟩)) (mem_finishes_iff.mpr (Or.inl ⟨p, given, rfl⟩))
    exact ⟨first, last, begins, ends, le_trans early above, le_trans below late⟩

theorem mem_activeDates_iff {days : List Date} (ran : t.activeDates = .ok days) :
    d ∈ days ↔ t.RunsOn d := by
  have ends : ¬t.Overruns := by
    intro overruns
    rw [activeDates_eq_error_iff.mpr overruns] at ran
    cases ran
  obtain ⟨others, ranToo, members⟩ := activeDates_ok ends
  obtain rfl := Except.ok.inj (ran.symm.trans ranToo)
  exact members d

end

theorem activeDates_of_idle {t : Timetable} (periods : t.periods = [])
    (included : t.includedDays = []) : t.activeDates = .ok [] := by
  have idle : ∀ d, ¬t.RunsOn d := by
    intro d runs
    simpa [periods, included] using runs.2
  have ends : ¬t.Overruns := by simp [Overruns, periods]
  obtain ⟨days, ran, members⟩ := activeDates_ok ends
  have none : days = [] :=
    List.eq_nil_iff_forall_not_mem.mpr fun d active => idle d ((members d).mp active)
  rw [ran, none]

theorem brackets_withLimits (t : Timetable) : t.withLimits.Brackets where
  covers _ ran _ active := exists_limits_of_runsOn (t := t) ((mem_activeDates_iff ran).mp active)
  start_eq_none_iff := startOfPeriod_eq_none_iff
  end_eq_none_iff := endOfPeriod_eq_none_iff
  idle nothing := activeDates_of_idle nothing.1 nothing.2
  ordered forward first last begins ends := by
    have named := (startOfPeriod_eq_some_iff.mp begins).1
    have bound := (endOfPeriod_eq_some_iff.mp ends).2
    rcases mem_starts_iff.mp named with ⟨p, given, rfl⟩ | included
    · have finish := bound p.finish (mem_finishes_iff.mpr (Or.inl ⟨p, given, rfl⟩))
      exact le_trans (forward p given) finish
    · exact bound first (mem_finishes_iff.mpr (Or.inr included))

section
variable {t : Timetable} {first final d : Date}

theorem mem_includedDays_between :
    d ∈ (t.between first final).includedDays ↔ (first ≤ d ∧ d ≤ final) ∧ d ∈ t.includedDays := by
  simp only [mem_includedDays, between, withLimits, List.mem_filter, decide_eq_true_eq]
  constructor
  · rintro ⟨day, ⟨given, inside⟩, rfl, included⟩
    exact ⟨inside, day, given, rfl, included⟩
  · rintro ⟨inside, day, given, rfl, included⟩
    exact ⟨day, ⟨given, inside⟩, rfl, included⟩

theorem mem_periods_between {p : Period} :
    p ∈ (t.between first final).periods ↔ ∃ whole ∈ t.periods, whole.between first final = some p :=
  List.mem_filterMap

theorem limits_between
    (limit : (t.between first final).startOfPeriod = some d ∨
      (t.between first final).endOfPeriod = some d) : first ≤ d ∧ d ≤ final := by
  have limits : (t.between first final).withLimits = t.between first final := rfl
  rw [← limits] at limit
  rcases limit with begins | ends
  · rcases mem_starts_iff.mp (startOfPeriod_eq_some_iff.mp begins).1 with ⟨p, there, rfl⟩ | included
    · obtain ⟨whole, _, lies⟩ := mem_periods_between.mp there
      exact (Period.ends_of_between lies).1
    · exact (mem_includedDays_between.mp included).1
  · rcases mem_finishes_iff.mp (endOfPeriod_eq_some_iff.mp ends).1 with ⟨p, there, rfl⟩ | included
    · obtain ⟨whole, _, lies⟩ := mem_periods_between.mp there
      exact (Period.ends_of_between lies).2
    · exact (mem_includedDays_between.mp included).1

end

/-- Limits that were computed bracket the service, and so do those of what a window leaves; these
lie inside the window as well. If no period runs backwards none does after clipping, and the first
limit is not behind the last. -/
theorem limits_bracket (t : Timetable) :
    t.withLimits.Brackets ∧
    ∀ window left, window.isBounded = true → t.clip window = some left →
      left.Brackets ∧
      (∀ d, left.startOfPeriod = some d ∨ left.endOfPeriod = some d → window.Covers d) ∧
      ((∀ p ∈ t.periods, p.start ≤ p.finish) →
        (∀ p ∈ left.periods, p.start ≤ p.finish) ∧
        ∀ first last, left.startOfPeriod = some first → left.endOfPeriod = some last →
          first ≤ last) := by
  refine ⟨t.brackets_withLimits, fun window left bounded clipped => ?_⟩
  rw [t.clip_of_bounded bounded, between?] at clipped
  split at clipped
  · cases clipped
  · obtain rfl := Option.some.inj clipped
    have brackets : (t.between window.first window.final).Brackets := brackets_withLimits _
    refine ⟨brackets, fun d limit => Window.covers_iff.mpr (limits_between limit), fun forward => ?_⟩
    have still : ∀ p ∈ (t.between window.first window.final).periods, p.start ≤ p.finish := by
      intro p there
      obtain ⟨whole, given, lies⟩ := mem_periods_between.mp there
      exact Period.forward_of_between lies (forward whole given)
    exact ⟨still, brackets.ordered still⟩

def fairWeekends : Timetable := { fairDays with periods := fairDays.periods.take 2 }

/-- From the Thursday to the Tuesday of the next week there is a Saturday to go to. It lies
between the limits, which are those of the window and have no service themselves. -/
theorem limits_bracket_fairWeekends :
    ∃ window left, window.isBounded = true ∧ fairWeekends.clip window = some left ∧
      (∀ p ∈ fairWeekends.periods, p.start ≤ p.finish) ∧
      left.startOfPeriod = some (fairDay 3) ∧ left.endOfPeriod = some (fairDay 8) ∧
      window.Covers (fairDay 3) ∧ window.Covers (fairDay 8) ∧
      ∃ days, left.activeDates = .ok days ∧ fairDay 5 ∈ days ∧ fairDay 3 ∉ days ∧
        fairDay 8 ∉ days ∧ fairDay 3 ≤ fairDay 5 ∧ fairDay 5 ≤ fairDay 8 := by
  let window : Window := ⟨some (fairDay 3), some (fairDay 8)⟩
  have bounded : window.isBounded = true := rfl
  obtain ⟨left, clipped, ends, active, begins, finishes⟩ :
      ∃ left, fairWeekends.clip window = some left ∧ ¬left.Overruns ∧
        (left.RunsOn (fairDay 5) ∧ ¬left.RunsOn (fairDay 3) ∧ ¬left.RunsOn (fairDay 8)) ∧
        left.startOfPeriod = some (fairDay 3) ∧ left.endOfPeriod = some (fairDay 8) :=
    ⟨_, rfl, by decide, by decide, rfl, rfl⟩
  obtain ⟨days, ran, members⟩ := activeDates_ok ends
  simp only [← members] at active
  obtain ⟨brackets, inside, _⟩ := (limits_bracket fairWeekends).2 window left bounded clipped
  obtain ⟨first, last, starts, lasts, early, late⟩ := brackets.covers days ran _ active.1
  obtain rfl := Option.some.inj (begins.symm.trans starts)
  obtain rfl := Option.some.inj (finishes.symm.trans lasts)
  exact ⟨window, left, bounded, clipped, by decide, begins, finishes, inside _ (Or.inl begins),
    inside _ (Or.inr finishes), days, ran, active.1, active.2.1, active.2.2, early, late⟩

end Timetable
end LineClosure
