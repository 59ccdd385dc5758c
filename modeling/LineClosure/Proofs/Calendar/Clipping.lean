import LineClosure.Proofs.Calendar.Reduction

/-! Clipping as an action of windows. What a window leaves of a timetable is what lies between
its first and its last date, an open bound being the first or the last date of all. So
reductions on one side, on both sides and by whole windows compose as the bounds do: the
later start and the earlier end decide, whichever came first. -/

namespace LineClosure

namespace Date

def first : Date := ⟨0, Nat.zero_le last.number⟩

theorem first_le (d : Date) : first ≤ d := Nat.zero_le _

theorem le_last (d : Date) : d ≤ last := d.in_range

@[simp] theorem max_first (d : Date) : max d first = d := max_eq_left (first_le d)

@[simp] theorem first_max (d : Date) : max first d = d := max_eq_right (first_le d)

@[simp] theorem min_last (d : Date) : min d last = d := min_eq_left (le_last d)

@[simp] theorem last_min (d : Date) : min last d = d := min_eq_right (le_last d)

end Date

/-! ## Between two dates -/

namespace Side

def first (side : Side) (boundary : Date) : Date :=
  match side with
  | .before => boundary
  | .after => Date.first

def final (side : Side) (boundary : Date) : Date :=
  match side with
  | .before => Date.last
  | .after => boundary

theorem cuts_iff (side : Side) (boundary d : Date) :
    side.cuts boundary d = false ↔ side.first boundary ≤ d ∧ d ≤ side.final boundary := by
  have above := Date.first_le d
  have below := Date.le_last d
  cases side with
  | before => simp [cuts, first, final, below, Date.le_def, Date.lt_def]
  | after => simp [cuts, first, final, above, Date.le_def, Date.lt_def]

end Side

namespace Period

/-- What lies of a period between two dates. One that starts after its end lies there with
both of its dates or not at all. -/
def between (first final : Date) (p : Period) : Option Period :=
  if first ≤ p.finish ∧ p.start ≤ final ∧ first ≤ final then
    some ⟨max p.start first, min p.finish final⟩
  else none

theorem between_between (a b c d : Date) (p : Period) :
    (p.between a b).bind (between c d) = p.between (max a c) (min b d) := by
  by_cases inside : a ≤ p.finish ∧ p.start ≤ b ∧ a ≤ b
  · rw [between, if_pos inside, Option.bind_some]
    have same : (c ≤ min p.finish b ∧ max p.start a ≤ d ∧ c ≤ d) ↔
        (max a c ≤ p.finish ∧ p.start ≤ min b d ∧ max a c ≤ min b d) := by
      simp only [Date.le_def, Date.number_max, Date.number_min] at inside ⊢
      omega
    simp only [between, same, max_assoc, min_assoc]
  · have outside : ¬(max a c ≤ p.finish ∧ p.start ≤ min b d ∧ max a c ≤ min b d) := by
      simp only [Date.le_def, Date.number_max, Date.number_min] at inside ⊢
      omega
    rw [between, if_neg inside, between, if_neg outside, Option.bind_none]

theorem between_side (side : Side) (boundary : Date) (p : Period) :
    (if !p.isCut side boundary then some (p.shorten side boundary) else none) =
      p.between (side.first boundary) (side.final boundary) := by
  cases side with
  | before =>
    have late := Date.le_last p.start
    have right := Date.le_last boundary
    simp only [isCut, shorten, Side.cuts, between, Side.first, Side.final, Date.min_last, late,
      right, and_true, Bool.not_eq_true', decide_eq_false_iff_not, decide_eq_true_eq,
      not_lt]
    split
    · split
      · next early => rw [max_eq_right early.le]
      · next within => rw [max_eq_left (not_lt.mp within)]
    · rfl
  | after =>
    have early := Date.first_le p.finish
    have right := Date.first_le boundary
    simp only [isCut, shorten, Side.cuts, between, Side.first, Side.final, Date.max_first, early,
      right, true_and, and_true, Bool.not_eq_true', decide_eq_false_iff_not, decide_eq_true_eq,
      not_lt]
    split
    · split
      · next late => rw [min_eq_right late.le]
      · next within => rw [min_eq_left (not_lt.mp within)]
    · rfl

end Period

namespace Timetable

def between (t : Timetable) (first final : Date) : Timetable :=
  withLimits
    { id := t.id, version := t.version, comment := t.comment, dayTypes := t.dayTypes
      calendarDays := t.calendarDays.filter fun day => first ≤ day.day ∧ day.day ≤ final
      periods := t.periods.filterMap (Period.between first final) }

def between? (t : Timetable) (first final : Date) : Option Timetable :=
  if (t.between first final).isEmpty then none else some (t.between first final)

theorem between_between (t : Timetable) (a b c d : Date) :
    (t.between a b).between c d = t.between (max a c) (min b d) := by
  have days : (t.between a b).calendarDays.filter (fun day => c ≤ day.day ∧ day.day ≤ d) =
      t.calendarDays.filter fun day => max a c ≤ day.day ∧ day.day ≤ min b d := by
    refine (List.filter_filter).trans (List.filter_congr fun day _ => ?_)
    rw [← Bool.decide_and, decide_eq_decide]
    simp only [Date.le_def, Date.number_max, Date.number_min]
    omega
  have periods : (t.between a b).periods.filterMap (Period.between c d) =
      t.periods.filterMap (Period.between (max a c) (min b d)) := by
    refine List.filterMap_filterMap.trans ?_
    simp only [Period.between_between]
  rw [between, days, periods]
  rfl

theorem isEmpty_between {t : Timetable} (empty : t.isEmpty = true) (first final : Date) :
    (t.between first final).isEmpty = true := by
  simp only [isEmpty, Bool.and_eq_true, List.isEmpty_iff] at empty
  simp [isEmpty, between, withLimits, empty.1, empty.2]

/-- What lies between two dates and then between two others lies between the later of the
first and the earlier of the last ones. Nothing left at first is nothing left at all. -/
theorem between?_bind (t : Timetable) (a b c d : Date) :
    (t.between? a b).bind (fun left => left.between? c d) = t.between? (max a c) (min b d) := by
  by_cases empty : (t.between a b).isEmpty = true
  · have nothing := isEmpty_between empty c d
    rw [between_between] at nothing
    rw [between?, if_pos empty, between?, if_pos nothing, Option.bind_none]
  · rw [between?, if_neg empty, Option.bind_some, between?, between_between]
    rfl

theorem reduce_eq_between? (t : Timetable) (side : Side) (boundary : Date) :
    t.reduce side boundary = t.between? (side.first boundary) (side.final boundary) := by
  have days : t.calendarDays.filter (fun day => !side.cuts boundary day.day) =
      t.calendarDays.filter fun day =>
        side.first boundary ≤ day.day ∧ day.day ≤ side.final boundary := by
    refine List.filter_congr fun day _ => ?_
    rw [Bool.eq_iff_iff, Bool.not_eq_true', decide_eq_true_iff]
    exact side.cuts_iff boundary day.day
  have periods : (t.periods.filter fun p => !p.isCut side boundary).map
      (Period.shorten side boundary) =
      t.periods.filterMap (Period.between (side.first boundary) (side.final boundary)) := by
    rw [← List.filterMap_eq_map, List.filterMap_filter]
    congr 1
    funext p
    exact p.between_side side boundary
  have remains : t.remains side boundary =
      t.between (side.first boundary) (side.final boundary) := by
    rw [Timetable.remains, days, periods]
    rfl
  rw [reduce_eq, remains]
  rfl

theorem between?_of_lt (t : Timetable) {first final : Date} (reversed : final < first) :
    t.between? first final = none := by
  rw [Date.lt_def] at reversed
  have days : (t.between first final).calendarDays = [] := by
    refine List.filter_eq_nil_iff.mpr fun day _ => ?_
    rw [decide_eq_true_iff, Date.le_def, Date.le_def]
    omega
  have periods : (t.between first final).periods = [] := by
    refine List.filterMap_eq_nil_iff.mpr fun p _ => if_neg ?_
    simp only [Date.le_def]
    omega
  have empty : (t.between first final).isEmpty = true := by simp [isEmpty, days, periods]
  exact if_pos empty

end Timetable

/-! ## Windows -/

namespace Window

def first (w : Window) : Date := w.start.getD Date.first

def final (w : Window) : Date := w.finish.getD Date.last

theorem covers_iff {w : Window} {d : Date} : w.Covers d ↔ w.first ≤ d ∧ d ≤ w.final := by
  have early := Date.first_le d
  have late := Date.le_last d
  obtain ⟨start, finish⟩ := w
  cases start <;> cases finish <;> simp [Covers, first, final, early, late]

def inter (v w : Window) : Window where
  start := v.start.merge max w.start
  finish := v.finish.merge min w.finish

theorem first_inter (v w : Window) : (v.inter w).first = max v.first w.first := by
  unfold first inter
  cases v.start <;> cases w.start <;> simp

theorem final_inter (v w : Window) : (v.inter w).final = min v.final w.final := by
  unfold final inter
  cases v.finish <;> cases w.finish <;> simp

theorem isBounded_inter (v w : Window) :
    (v.inter w).isBounded = (v.isBounded || w.isBounded) := by
  unfold isBounded inter
  cases v.start <;> cases w.start <;> cases v.finish <;> cases w.finish <;> rfl

theorem eq_open_of_unbounded {w : Window} (unbounded : w.isBounded = false) : w = {} := by
  have both : w.start = none ∧ w.finish = none := by simpa [isBounded] using unbounded
  obtain ⟨start, finish⟩ := w
  obtain ⟨rfl, rfl⟩ := both
  rfl

theorem open_inter (w : Window) : inter {} w = w := by
  obtain ⟨start, finish⟩ := w
  cases start <;> cases finish <;> rfl

theorem inter_open (v : Window) : v.inter {} = v := by
  obtain ⟨start, finish⟩ := v
  cases start <;> cases finish <;> rfl

end Window

namespace Timetable

theorem clip_of_bounded (t : Timetable) {w : Window} (bounded : w.isBounded = true) :
    t.clip w = t.between? w.first w.final := by
  obtain ⟨start, finish⟩ := w
  rw [clip_eq_bind]
  cases start with
  | none =>
    cases finish with
    | none => cases bounded
    | some finish => exact t.reduce_eq_between? .after finish
  | some start =>
    have early : t.reduce .before start = t.between? start Date.last :=
      t.reduce_eq_between? .before start
    cases finish with
    | none => simpa [Window.first, Window.final] using early
    | some finish =>
      have late : ∀ left : Timetable, left.reduce .after finish =
          left.between? Date.first finish := fun left => left.reduce_eq_between? .after finish
      have both := t.between?_bind start Date.last Date.first finish
      rw [Date.max_first, Date.last_min] at both
      simp only [early, late, both]
      rfl

theorem clip_of_unbounded (t : Timetable) {w : Window} (unbounded : w.isBounded = false) :
    t.clip w = some t := by
  rw [Window.eq_open_of_unbounded unbounded]
  rfl

theorem clip_bind (t : Timetable) (v w : Window) :
    (t.clip v).bind (fun left => left.clip w) = t.clip (v.inter w) := by
  cases first : v.isBounded with
  | false =>
    rw [t.clip_of_unbounded first, Window.eq_open_of_unbounded first, Window.open_inter]
    rfl
  | true =>
    cases second : w.isBounded with
    | false =>
      have step : ∀ left : Timetable, left.clip w = some left :=
        fun left => left.clip_of_unbounded second
      simp only [step]
      rw [Window.eq_open_of_unbounded second, Window.inter_open, Option.bind_fun_some]
    | true =>
      have step : ∀ left : Timetable, left.clip w = left.between? w.first w.final :=
        fun left => left.clip_of_bounded second
      have both : (v.inter w).isBounded = true := by simp [Window.isBounded_inter, first]
      simp only [step]
      rw [t.clip_of_bounded first, between?_bind, t.clip_of_bounded both, Window.first_inter,
        Window.final_inter]

/-- Clipping is an action of windows. To clip to one window and to another is to clip to what
they share, which leaves nothing if it ends before it starts. In particular a reduction done
twice is done, of two on one side the tighter one counts, and reductions on the two sides
may be done in either order. -/
theorem clip_action (t : Timetable) :
    (∀ v w : Window, (t.clip v).bind (fun left => left.clip w) = t.clip (v.inter w)) ∧
    (∀ v w : Window, ∀ start finish, (v.inter w).start = some start →
      (v.inter w).finish = some finish → finish < start → t.clip (v.inter w) = none) ∧
    (∀ side boundary, (t.reduce side boundary).bind (fun left => left.reduce side boundary) =
      t.reduce side boundary) ∧
    (∀ a b, (t.reduce .before a).bind (fun left => left.reduce .before b) =
      t.reduce .before (max a b)) ∧
    (∀ a b, (t.reduce .after a).bind (fun left => left.reduce .after b) =
      t.reduce .after (min a b)) ∧
    (∀ a b, (t.reduce .before a).bind (fun left => left.reduce .after b) =
      (t.reduce .after b).bind fun left => left.reduce .before a) := by
  refine ⟨t.clip_bind, fun v w start finish starts ends reversed => ?_, fun side boundary => ?_,
    fun a b => ?_, fun a b => ?_, fun a b => ?_⟩
  · have bounded : (v.inter w).isBounded = true := by simp [Window.isBounded, starts]
    rw [t.clip_of_bounded bounded]
    refine t.between?_of_lt ?_
    rwa [Window.first, Window.final, starts, ends]
  all_goals simp only [reduce_eq_between?, between?_bind, Side.first, Side.final, max_self,
    min_self, Date.max_first, Date.first_max, Date.min_last, Date.last_min]

end Timetable
end LineClosure
