import LineClosure.Calendar.Window
import LineClosure.Proofs.Calendar.ActiveDates
import Mathlib.Tactic.Tauto

/-! What a reduction does to the days on which a timetable runs: it takes away those beyond
the boundary and no others. A window takes away what lies outside, and leaves nothing of a
timetable only if nothing of it lies inside. -/

namespace LineClosure

namespace Period

theorem shorten_holds (side : Side) (boundary : Date) (p : Period) (d : Date) :
    (p.isCut side boundary = false ∧
        (p.shorten side boundary).start ≤ d ∧ d ≤ (p.shorten side boundary).finish) ↔
      side.cuts boundary d = false ∧ p.start ≤ d ∧ d ≤ p.finish := by
  cases side with
  | before =>
    simp only [isCut, shorten, Side.cuts, decide_eq_false_iff_not, decide_eq_true_eq, Date.le_def,
      Date.lt_def]
    split
    · dsimp only
      omega
    · omega
  | after =>
    simp only [isCut, shorten, Side.cuts, decide_eq_false_iff_not, decide_eq_true_eq, Date.le_def,
      Date.lt_def]
    split
    · dsimp only
      omega
    · omega

theorem shorten_finish (side : Side) (boundary : Date) (p : Period) :
    (p.shorten side boundary).finish = p.finish ∨
      (p.shorten side boundary).finish ≠ Date.last := by
  cases side with
  | before =>
    refine Or.inl ?_
    unfold shorten
    dsimp only
    split <;> rfl
  | after =>
    unfold shorten
    dsimp only
    split
    · next beyond =>
      refine Or.inr fun last => ?_
      have late : boundary < p.finish := by simpa [Side.cuts] using beyond
      rw [show boundary = Date.last from last] at late
      exact absurd (Nat.lt_of_lt_of_le late p.finish.in_range) (Nat.lt_irrefl _)
    · exact Or.inl rfl

end Period

namespace Timetable

def remains (t : Timetable) (side : Side) (boundary : Date) : Timetable :=
  withLimits
    { id := t.id, version := t.version, comment := t.comment, dayTypes := t.dayTypes
      calendarDays := t.calendarDays.filter fun day => !side.cuts boundary day.day
      periods := (t.periods.filter fun p => !p.isCut side boundary).map
        (Period.shorten side boundary) }

theorem reduce_eq (t : Timetable) (side : Side) (boundary : Date) :
    t.reduce side boundary =
      if (t.remains side boundary).isEmpty then none else some (t.remains side boundary) :=
  rfl

section
variable {t : Timetable} {side : Side} {boundary d : Date}

theorem mem_periods_remains {p : Period} :
    p ∈ (t.remains side boundary).periods ↔
      ∃ whole ∈ t.periods, whole.isCut side boundary = false ∧
        p = whole.shorten side boundary := by
  simp only [remains, withLimits, List.mem_map, List.mem_filter, Bool.not_eq_true', and_assoc,
    eq_comm (a := p)]

theorem mem_days_remains (marked : CalendarDay → Bool) :
    d ∈ ((t.remains side boundary).calendarDays.filter marked).map (·.day) ↔
      side.cuts boundary d = false ∧ d ∈ (t.calendarDays.filter marked).map (·.day) := by
  simp only [remains, withLimits, List.mem_map, List.mem_filter, Bool.not_eq_true']
  constructor
  · intro found
    obtain ⟨day, ⟨⟨given, kept⟩, right⟩, rfl⟩ := found
    exact ⟨kept, day, ⟨given, right⟩, rfl⟩
  · intro found
    obtain ⟨kept, day, ⟨given, right⟩, rfl⟩ := found
    exact ⟨day, ⟨⟨given, kept⟩, right⟩, rfl⟩

theorem mem_includedDays_remains :
    d ∈ (t.remains side boundary).includedDays ↔
      side.cuts boundary d = false ∧ d ∈ t.includedDays :=
  mem_days_remains _

theorem mem_excludedDays_remains :
    d ∈ (t.remains side boundary).excludedDays ↔
      side.cuts boundary d = false ∧ d ∈ t.excludedDays :=
  mem_days_remains _

theorem coversWeekday_remains :
    (t.remains side boundary).coversWeekday d = t.coversWeekday d :=
  rfl

theorem runsOn_remains :
    (t.remains side boundary).RunsOn d ↔ side.cuts boundary d = false ∧ t.RunsOn d := by
  have periods : (∃ p ∈ (t.remains side boundary).periods,
        p.start ≤ d ∧ d ≤ p.finish ∧ t.coversWeekday d = true) ↔
      side.cuts boundary d = false ∧
        ∃ p ∈ t.periods, p.start ≤ d ∧ d ≤ p.finish ∧ t.coversWeekday d = true := by
    constructor
    · intro found
      obtain ⟨_, there, above, below, covered⟩ := found
      obtain ⟨whole, given, uncut, rfl⟩ := mem_periods_remains.mp there
      obtain ⟨kept, first, final⟩ :=
        (whole.shorten_holds side boundary d).mp ⟨uncut, above, below⟩
      exact ⟨kept, whole, given, first, final, covered⟩
    · intro found
      obtain ⟨kept, whole, given, first, final, covered⟩ := found
      obtain ⟨uncut, above, below⟩ :=
        (whole.shorten_holds side boundary d).mpr ⟨kept, first, final⟩
      exact ⟨_, mem_periods_remains.mpr ⟨whole, given, uncut, rfl⟩, above, below, covered⟩
  unfold RunsOn
  simp only [mem_excludedDays_remains, mem_includedDays_remains, coversWeekday_remains, periods]
  tauto

theorem overruns_remains (beyond : (t.remains side boundary).Overruns) : t.Overruns := by
  obtain ⟨_, there, going, last⟩ := beyond
  obtain ⟨whole, given, uncut, rfl⟩ := mem_periods_remains.mp there
  have finish := (whole.shorten_finish side boundary).resolve_right (fun differ => differ last)
  have holds := (whole.shorten_holds side boundary _).mp ⟨uncut, going, le_refl _⟩
  exact ⟨whole, given, le_trans holds.2.1 holds.2.2, finish ▸ last⟩

theorem not_runsOn_of_isEmpty (empty : t.isEmpty = true) : ¬t.RunsOn d := by
  simp only [isEmpty, Bool.and_eq_true, List.isEmpty_iff] at empty
  simp [RunsOn, includedDays, empty.1, empty.2]

end

/-- What is left of a timetable: the part of its service that passes a test. -/
structure Leaves (t : Timetable) (inside : Date → Prop) (left : Timetable) : Prop where
  sameId : left.id = t.id
  runs : ∀ d, left.RunsOn d ↔ inside d ∧ t.RunsOn d
  overruns : left.Overruns → t.Overruns

/-- Either part of the service is left, or nothing is because there was nothing to leave. -/
def Keeps (t : Timetable) (inside : Date → Prop) : Option Timetable → Prop
  | some left => t.Leaves inside left
  | none => ∀ d, inside d → ¬t.RunsOn d

theorem keeps_self {t : Timetable} {inside : Date → Prop} (all : ∀ d, inside d) :
    t.Keeps inside (some t) :=
  ⟨rfl, fun d => (and_iff_right (all d)).symm, fun beyond => beyond⟩

theorem keeps_reduce (t : Timetable) (side : Side) (boundary : Date) :
    t.Keeps (fun d => side.cuts boundary d = false) (t.reduce side boundary) := by
  rw [reduce_eq]
  split
  · next empty =>
    intro d kept runs
    exact not_runsOn_of_isEmpty empty (runsOn_remains.mpr ⟨kept, runs⟩)
  · exact ⟨rfl, fun d => runsOn_remains, overruns_remains⟩

theorem Keeps.trans {t : Timetable} {first second : Date → Prop} {middle : Option Timetable}
    {reduced : Timetable → Option Timetable} (kept : t.Keeps first middle)
    (next : ∀ left : Timetable, left.Keeps second (reduced left)) :
    t.Keeps (fun d => first d ∧ second d) (middle.bind reduced) := by
  cases middle with
  | none =>
    intro d inside
    exact kept d inside.1
  | some left =>
    have later := next left
    rw [Option.bind_some]
    cases final : reduced left with
    | none =>
      rw [final] at later
      intro d inside runs
      exact later d inside.2 ((kept.runs d).mpr ⟨inside.1, runs⟩)
    | some last =>
      rw [final] at later
      refine ⟨later.sameId.trans kept.sameId, fun d => ?_, fun beyond =>
        kept.overruns (later.overruns beyond)⟩
      calc last.RunsOn d ↔ second d ∧ left.RunsOn d := later.runs d
        _ ↔ second d ∧ first d ∧ t.RunsOn d := by rw [kept.runs]
        _ ↔ (first d ∧ second d) ∧ t.RunsOn d := by rw [← and_assoc, and_comm (a := second d)]

/-! ## Windows -/

theorem clip_eq_bind (t : Timetable) (window : Window) :
    t.clip window =
      (match window.start with
        | some start => t.reduce .before start
        | none => some t).bind fun left =>
          match window.finish with
          | some finish => left.reduce .after finish
          | none => some left := by
  unfold clip
  cases window.start with
  | none => cases window.finish <;> rfl
  | some start =>
    dsimp only
    cases t.reduce .before start with
    | none => rfl
    | some left => cases window.finish <;> rfl

end Timetable

def Window.Covers (window : Window) (d : Date) : Prop :=
  (∀ start, window.start = some start → start ≤ d) ∧
    ∀ finish, window.finish = some finish → d ≤ finish

namespace Timetable

theorem keeps_clip (t : Timetable) (window : Window) : t.Keeps window.Covers (t.clip window) := by
  rw [clip_eq_bind]
  refine Keeps.trans ?_ fun left => ?_
  · cases window.start with
    | none => exact keeps_self fun d start none => absurd none (by simp)
    | some boundary =>
      have kept := t.keeps_reduce .before boundary
      have side : (fun d => Side.cuts .before boundary d = false) =
          fun d => ∀ start, some boundary = some start → start ≤ d := by
        funext d
        simp [Side.cuts, Date.le_def, Date.lt_def]
      rw [side] at kept
      exact kept
  · cases window.finish with
    | none => exact keeps_self fun d finish none => absurd none (by simp)
    | some boundary =>
      have kept := left.keeps_reduce .after boundary
      have side : (fun d => Side.cuts .after boundary d = false) =
          fun d => ∀ finish, some boundary = some finish → d ≤ finish := by
        funext d
        simp [Side.cuts, Date.le_def, Date.lt_def]
      rw [side] at kept
      exact kept

end Timetable
end LineClosure
