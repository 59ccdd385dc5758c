import LineClosure.Calendar.Timetable
import Mathlib.Data.List.Sort
import Mathlib.Order.MinMax

/-! On which days a timetable runs. The walk through the days of a period is compared with
the plain range of the period, and the list of active dates with what puts a day in or
takes it out. The list ascends, so its days determine it. -/

namespace LineClosure

/-- Dates are ordered as their numbers. -/
instance : LinearOrder Date :=
  letI : Ord Date := ⟨fun a b => compare a.number b.number⟩
  Function.Injective.linearOrder Date.number (fun _ _ => Date.ext_number) Iff.rfl Iff.rfl
    Date.number_min Date.number_max fun _ _ => rfl

/-! ## Repetitions -/

theorem mem_eraseRepsBy_loop {α : Type} [BEq α] [LawfulBEq α] {a current : α}
    {rest kept : List α} :
    a ∈ List.eraseRepsBy.loop (· == ·) current rest kept ↔
      a = current ∨ a ∈ rest ∨ a ∈ kept := by
  induction rest generalizing current kept with
  | nil => simp [List.eraseRepsBy.loop, or_comm]
  | cons next rest ih =>
    rw [List.eraseRepsBy.loop]
    cases same : current == next with
    | true =>
      simp only [ih, List.mem_cons, eq_of_beq same]
      grind
    | false =>
      simp only [ih, List.mem_cons]
      grind

theorem mem_eraseReps {α : Type} [BEq α] [LawfulBEq α] {a : α} {items : List α} :
    a ∈ items.eraseReps ↔ a ∈ items := by
  cases items with
  | nil => rfl
  | cons first rest =>
    rw [List.eraseReps, List.eraseRepsBy, mem_eraseRepsBy_loop, List.mem_cons]
    simp

theorem ascending_eraseRepsBy_loop {current : Date} {rest kept : List Date}
    (sorted : (current :: rest).Pairwise (· ≤ ·))
    (falling : (current :: kept).Pairwise fun later earlier => earlier < later) :
    (List.eraseRepsBy.loop (· == ·) current rest kept).Pairwise (· < ·) := by
  induction rest generalizing current kept with
  | nil =>
    rw [List.eraseRepsBy.loop]
    exact List.pairwise_reverse.mpr falling
  | cons next rest ih =>
    obtain ⟨first, later⟩ := List.pairwise_cons.mp sorted
    rw [List.eraseRepsBy.loop]
    cases same : current == next with
    | true =>
      have equal : current = next := eq_of_beq same
      exact ih (equal ▸ later) falling
    | false =>
      have bound : current ≤ next := first next List.mem_cons_self
      have differ : current ≠ next := ne_of_beq_false same
      have below : current < next := lt_of_le_of_ne bound differ
      apply ih later
      apply List.Pairwise.cons _ falling
      intro earlier there
      rcases List.mem_cons.mp there with rfl | old
      · exact below
      · have before : earlier < current := List.rel_of_pairwise_cons falling old
        exact before.trans below

theorem ascending_eraseReps {days : List Date} (sorted : days.Pairwise (· ≤ ·)) :
    days.eraseReps.Pairwise (· < ·) := by
  cases days with
  | nil => exact List.Pairwise.nil
  | cons first rest => exact ascending_eraseRepsBy_loop sorted (List.pairwise_singleton _ first)

/-! ## Periods -/

theorem Date.le_iff_of_next {day later : Date} (step : day.next? = some later) {d : Date} :
    day ≤ d ↔ d = day ∨ later ≤ d := by
  have moved := Date.number_of_next? step
  rw [Date.le_def, Date.le_def, moved]
  constructor
  · intro below
    rcases Nat.eq_or_lt_of_le below with same | above
    · exact Or.inl (Date.ext_number same.symm)
    · exact Or.inr above
  · intro either
    rcases either with rfl | above
    · exact Nat.le_refl _
    · exact Nat.le_of_succ_le above

theorem daysUpTo_of_not_le {finish day : Date} (beyond : ¬day ≤ finish) (passes : Date → Bool)
    (found : List Date) : daysUpTo finish passes day found = .ok found := by
  rw [daysUpTo, if_neg beyond]

theorem daysUpTo_of_next {finish day later : Date} (going : day ≤ finish)
    (step : day.next? = some later) (passes : Date → Bool) (found : List Date) :
    daysUpTo finish passes day found =
      daysUpTo finish passes later (if passes day then day :: found else found) := by
  rw [daysUpTo, if_pos going]
  dsimp only
  split
  · next last => exact absurd (last.symm.trans step) (by simp)
  · next other same => rw [Option.some.inj (same.symm.trans step)]

theorem daysUpTo_ok {finish : Date} (early : finish ≠ Date.last) (passes : Date → Bool)
    (day : Date) (found : List Date) :
    ∃ days, daysUpTo finish passes day found = .ok days ∧
      ∀ d, d ∈ days ↔ d ∈ found ∨ (day ≤ d ∧ d ≤ finish ∧ passes d = true) := by
  induction day, found using daysUpTo.induct finish passes with
  | case1 day found going last =>
    -- only the last day of the calendar has none after it, and the walk ends before that one
    rw [Date.next?_eq_none_iff.mp last] at going
    have bound : finish ≤ Date.last := finish.in_range
    exact absurd (le_antisymm bound going) early
  | case2 day found going grown later step ih =>
    obtain ⟨days, walked, members⟩ := ih
    refine ⟨days, (daysUpTo_of_next going step passes found).trans walked, fun d => ?_⟩
    have entered : d ∈ grown ↔ d ∈ found ∨ (d = day ∧ passes d = true) := by
      by_cases passed : passes day = true
      · simp only [grown, passed, ↓reduceDIte, List.mem_cons]
        constructor
        · intro either
          rcases either with rfl | old
          · exact Or.inr ⟨rfl, passed⟩
          · exact Or.inl old
        · exact Or.symm ∘ Or.imp_right And.left
      · simp only [grown, passed, Bool.false_eq_true, ↓reduceDIte]
        refine ⟨Or.inl, fun given => given.resolve_right ?_⟩
        intro both
        obtain ⟨rfl, other⟩ := both
        exact passed other
    rw [members, entered, Date.le_iff_of_next step]
    constructor
    · intro either
      rcases either with (old | ⟨rfl, passed⟩) | ⟨above, rest⟩
      · exact Or.inl old
      · exact Or.inr ⟨Or.inl rfl, going, passed⟩
      · exact Or.inr ⟨Or.inr above, rest⟩
    · intro either
      rcases either with old | ⟨rfl | above, rest⟩
      · exact Or.inl (Or.inl old)
      · exact Or.inl (Or.inr ⟨rfl, rest.2⟩)
      · exact Or.inr ⟨above, rest⟩
  | case3 day found beyond =>
    refine ⟨found, daysUpTo_of_not_le beyond passes found, fun d => ?_⟩
    constructor
    · exact Or.inl
    · intro either
      rcases either with old | ⟨first, final, _⟩
      · exact old
      · exact absurd (le_trans first final) beyond

namespace Timetable

/-- A period with days in it goes up to the last day of the calendar. The walk through it
would have to step beyond. -/
def Overruns (t : Timetable) : Prop :=
  ∃ p ∈ t.periods, p.start ≤ p.finish ∧ p.finish = Date.last

instance (t : Timetable) : Decidable t.Overruns :=
  inferInstanceAs (Decidable (∃ p ∈ t.periods, p.start ≤ p.finish ∧ p.finish = Date.last))

/-- A day on which a timetable runs: it is not taken out, and it is put in or is a day of
the right kind in a period. -/
def RunsOn (t : Timetable) (d : Date) : Prop :=
  d ∉ t.excludedDays ∧
    (d ∈ t.includedDays ∨ ∃ p ∈ t.periods, p.start ≤ d ∧ d ≤ p.finish ∧ t.coversWeekday d = true)

instance (t : Timetable) (d : Date) : Decidable (t.RunsOn d) :=
  inferInstanceAs (Decidable (_ ∉ t.excludedDays ∧ (_ ∨ ∃ p ∈ t.periods, _ ∧ _ ∧ _)))

theorem periodDays_ok (t : Timetable) (periods : List Period) (found : List Date)
    (ends : ∀ p ∈ periods, p.start ≤ p.finish → p.finish ≠ Date.last) :
    ∃ days, t.periodDays periods found = .ok days ∧
      ∀ d, d ∈ days ↔ d ∈ found ∨
        ∃ p ∈ periods, p.start ≤ d ∧ d ≤ p.finish ∧ t.coversWeekday d = true := by
  induction periods generalizing found with
  | nil => exact ⟨found, rfl, by simp⟩
  | cons p rest ih =>
    have first : ∃ days, daysUpTo p.finish t.coversWeekday p.start found = .ok days ∧
        ∀ d, d ∈ days ↔
          d ∈ found ∨ (p.start ≤ d ∧ d ≤ p.finish ∧ t.coversWeekday d = true) := by
      by_cases days : p.start ≤ p.finish
      · exact daysUpTo_ok (ends p List.mem_cons_self days) t.coversWeekday p.start found
      · refine ⟨found, daysUpTo_of_not_le days t.coversWeekday found, fun d => ?_⟩
        refine ⟨Or.inl, fun given => given.resolve_right ?_⟩
        intro both
        obtain ⟨above, below, _⟩ := both
        exact days (le_trans above below)
    obtain ⟨some, walked, members⟩ := first
    obtain ⟨days, all, total⟩ := ih some fun q later => ends q (List.mem_cons_of_mem p later)
    refine ⟨days, ?_, fun d => ?_⟩
    · rw [periodDays, walked]
      exact all
    · rw [total, members, or_assoc]
      simp only [List.mem_cons, exists_eq_or_imp]

theorem activeDates_ok {t : Timetable} (ends : ¬t.Overruns) :
    ∃ days, t.activeDates = .ok days ∧ ∀ d, d ∈ days ↔ t.RunsOn d := by
  obtain ⟨days, walked, members⟩ := t.periodDays_ok t.periods [] fun p given going last =>
    ends ⟨p, given, going, last⟩
  refine ⟨_, by rw [activeDates, walked]; rfl, fun d => ?_⟩
  rw [mem_eraseReps, List.mem_mergeSort, List.mem_filter, List.mem_append, List.mem_reverse,
    members]
  simp only [List.not_mem_nil, false_or, RunsOn]
  simp [or_comm, and_comm]

theorem ascending_activeDates {t : Timetable} {days : List Date} (ran : t.activeDates = .ok days) :
    days.Pairwise (· < ·) := by
  cases walked : t.periodDays t.periods [] with
  | error e =>
    rw [activeDates, walked] at ran
    cases ran
  | ok found =>
    rw [activeDates, walked] at ran
    cases ran
    apply ascending_eraseReps
    have transitive : ∀ a b c : Date, decide (a ≤ b) = true → decide (b ≤ c) = true →
        decide (a ≤ c) = true := by
      intro a b c first second
      simp only [decide_eq_true_eq] at first second ⊢
      exact le_trans first second
    have total : ∀ a b : Date, (decide (a ≤ b) || decide (b ≤ a)) = true := by
      intro a b
      simp only [Bool.or_eq_true, decide_eq_true_eq]
      exact le_total a b
    have sorted := List.pairwise_mergeSort transitive total
    exact (sorted _).imp of_decide_eq_true

end Timetable
end LineClosure
