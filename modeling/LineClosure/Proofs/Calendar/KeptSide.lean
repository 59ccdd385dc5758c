import LineClosure.Proofs.Calendar.Clipping
import Mathlib

/-! What a reduction keeps of a timetable. It runs on the dates of the kept side on which it
ran before, and on no others; the days and periods that say so are those of before, in their
order, the days as they were and the periods as far as they lie on the kept side. -/

namespace LineClosure

/-- What a reduction makes of a period that it keeps. The whole period reaches the kept side,
and its dates there are all that is left of it. One that starts after its end has none, and
stays as it is. -/
structure Period.ClampsTo (side : Side) (boundary : Date) (whole p : Period) : Prop where
  reaches : side.cuts boundary whole.start = false ∨ side.cuts boundary whole.finish = false
  forward : whole.start ≤ whole.finish → p.start ≤ p.finish ∧
    side.cuts boundary p.start = false ∧ side.cuts boundary p.finish = false
  dates : ∀ d, p.start ≤ d ∧ d ≤ p.finish ↔
    side.cuts boundary d = false ∧ whole.start ≤ d ∧ d ≤ whole.finish
  reversed : whole.finish < whole.start → p = whole

namespace Period

variable {side : Side} {boundary : Date} {p : Period}

theorem isCut_of_reaches (forward : p.start ≤ p.finish)
    (reaches : side.cuts boundary p.start = false ∨ side.cuts boundary p.finish = false) :
    p.isCut side boundary = false := by
  cases side with
  | before =>
    simp only [isCut, Side.cuts, decide_eq_false_iff_not, not_lt] at reaches ⊢
    exact reaches.elim (fun start => le_trans start forward) id
  | after =>
    simp only [isCut, Side.cuts, decide_eq_false_iff_not, not_lt] at reaches ⊢
    exact reaches.elim id fun finish => le_trans forward finish

theorem shorten_of_forward (uncut : p.isCut side boundary = false) (forward : p.start ≤ p.finish) :
    (p.shorten side boundary).start ≤ (p.shorten side boundary).finish := by
  cases side with
  | before =>
    simp only [isCut, shorten, Side.cuts, decide_eq_false_iff_not, decide_eq_true_eq,
      not_lt] at uncut ⊢
    split
    · exact uncut
    · exact forward
  | after =>
    simp only [isCut, shorten, Side.cuts, decide_eq_false_iff_not, decide_eq_true_eq,
      not_lt] at uncut ⊢
    split
    · exact uncut
    · exact forward

theorem shorten_of_reversed (uncut : p.isCut side boundary = false)
    (reversed : p.finish < p.start) : p.shorten side boundary = p := by
  cases side with
  | before =>
    have late : boundary < p.start := by
      simp only [isCut, Side.cuts, decide_eq_false_iff_not, not_lt] at uncut
      exact lt_of_le_of_lt uncut reversed
    have inside : ¬p.start < boundary := lt_asymm late
    simp [shorten, Side.cuts, inside]
  | after =>
    have early : p.finish < boundary := by
      simp only [isCut, Side.cuts, decide_eq_false_iff_not, not_lt] at uncut
      exact lt_of_lt_of_le reversed uncut
    have inside : ¬boundary < p.finish := lt_asymm early
    simp [shorten, Side.cuts, inside]

theorem clampsTo_shorten (uncut : p.isCut side boundary = false) :
    p.ClampsTo side boundary (p.shorten side boundary) := by
  have dates : ∀ d, (p.shorten side boundary).start ≤ d ∧ d ≤ (p.shorten side boundary).finish ↔
      side.cuts boundary d = false ∧ p.start ≤ d ∧ d ≤ p.finish := by
    intro d
    rw [← p.shorten_holds side boundary d]
    exact (and_iff_right uncut).symm
  constructor
  case reaches =>
    cases side with
    | before => exact Or.inr uncut
    | after => exact Or.inl uncut
  case forward =>
    intro forward
    have ordered := shorten_of_forward uncut forward
    exact ⟨ordered, ((dates _).mp ⟨le_refl _, ordered⟩).1,
      ((dates _).mp ⟨ordered, le_refl _⟩).1⟩
  case dates => exact dates
  case reversed => exact shorten_of_reversed uncut

end Period

namespace Timetable

variable {t left : Timetable} {side : Side} {boundary : Date}

theorem eq_remains_of_reduce (reduced : t.reduce side boundary = some left) :
    left = t.remains side boundary := by
  rw [reduce_eq] at reduced
  split at reduced
  · cases reduced
  · exact (Option.some.inj reduced).symm

theorem periods_remains (t : Timetable) (side : Side) (boundary : Date) :
    ∃ kept, kept.Sublist t.periods ∧
      (∀ p ∈ t.periods, p.start ≤ p.finish →
        side.cuts boundary p.start = false ∨ side.cuts boundary p.finish = false → p ∈ kept) ∧
      List.Forall₂ (Period.ClampsTo side boundary) kept (t.remains side boundary).periods := by
  refine ⟨t.periods.filter fun p => !p.isCut side boundary, List.filter_sublist, ?_, ?_⟩
  · intro p given forward reaches
    rw [List.mem_filter, Period.isCut_of_reaches forward reaches]
    exact ⟨given, rfl⟩
  · show List.Forall₂ _ _ (List.map _ _)
    rw [List.forall₂_map_right_iff, List.forall₂_same]
    intro p kept
    apply Period.clampsTo_shorten
    simpa using (List.mem_filter.mp kept).2

/-- A reduction keeps exactly the active dates of the kept side, and leaves nothing only if
there are none. Single days stay or fall as they lie, whichever way they are marked. Periods
keep their order; those that stay reach the kept side and are clamped to it. -/
theorem reduce_keptSide (ends : ¬t.Overruns) (side : Side) (boundary : Date) :
    ∃ days, t.activeDates = .ok days ∧
      (t.reduce side boundary = none → ∀ d ∈ days, side.cuts boundary d = true) ∧
      ∀ left, t.reduce side boundary = some left →
        left.activeDates = .ok (days.filter fun d => !side.cuts boundary d) ∧
        left.calendarDays = t.calendarDays.filter (fun day => !side.cuts boundary day.day) ∧
        ∃ kept, kept.Sublist t.periods ∧
          (∀ p ∈ t.periods, p.start ≤ p.finish →
            side.cuts boundary p.start = false ∨ side.cuts boundary p.finish = false →
              p ∈ kept) ∧
          List.Forall₂ (Period.ClampsTo side boundary) kept left.periods := by
  obtain ⟨days, ran, members⟩ := activeDates_ok ends
  have kept := t.keeps_reduce side boundary
  refine ⟨days, ran, fun nothing d running => ?_, fun left reduced => ?_⟩
  · rw [nothing] at kept
    have dropped : ¬side.cuts boundary d = false := fun stays =>
      kept d stays ((members d).mp running)
    simpa using dropped
  · rw [reduced] at kept
    have inside : left.activeDates = .ok (days.filter fun d => !side.cuts boundary d) := by
      obtain ⟨rest, runs, remain⟩ := activeDates_ok fun beyond => ends (kept.overruns beyond)
      have same : rest = days.filter fun d => !side.cuts boundary d := by
        have ascending := (ascending_activeDates ran).filter fun d => !side.cuts boundary d
        apply (ascending_activeDates runs).eq_of_mem_iff ascending
        intro d
        rw [remain, kept.runs, List.mem_filter, members, Bool.not_eq_true', and_comm]
      rw [runs, same]
    obtain rfl := eq_remains_of_reduce reduced
    exact ⟨inside, rfl, t.periods_remains side boundary⟩

/-- A fortnight on weekdays with a day off and an extra one, and a period put in backwards. -/
def shifts : Timetable where
  id := .text (.whole "T")
  dayTypes := [.weekday]
  calendarDays := [⟨⟨79, by decide⟩, .bool false⟩, ⟨⟨73, by decide⟩, .bool false⟩,
    ⟨⟨82, by decide⟩, .bool true⟩]
  periods := [⟨⟨72, by decide⟩, ⟨84, by decide⟩⟩, ⟨⟨81, by decide⟩, ⟨78, by decide⟩⟩]

theorem reduce_keptSide_shifts :
    ¬shifts.Overruns ∧
    shifts.activeDates = .ok ([72, 74, 77, 78, 80, 81, 82, 84].filterMap Date.ofNumber?) ∧
    ∃ left, shifts.reduce .before ⟨77, by decide⟩ = some left ∧
      left.activeDates = .ok ([77, 78, 80, 81, 82, 84].filterMap Date.ofNumber?) ∧
      left.periods = [⟨⟨77, by decide⟩, ⟨84, by decide⟩⟩, ⟨⟨81, by decide⟩, ⟨78, by decide⟩⟩] := by
  have ends : ¬shifts.Overruns := by decide
  have before : shifts.activeDates =
      .ok ([72, 74, 77, 78, 80, 81, 82, 84].filterMap Date.ofNumber?) := by cbv
  obtain ⟨days, ran, _, keeps⟩ := reduce_keptSide ends .before ⟨77, by decide⟩
  obtain rfl := Except.ok.inj (before.symm.trans ran)
  obtain ⟨inside, _⟩ := keeps _ rfl
  exact ⟨ends, before, _, rfl, inside.trans rfl, rfl⟩

end Timetable
end LineClosure
