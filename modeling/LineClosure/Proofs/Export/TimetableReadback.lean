import LineClosure.Export.Job
import LineClosure.Proofs.Calendar.DateTexts
import LineClosure.Proofs.Closure.Enclosing
import LineClosure.Proofs.Snapshot.Acceptance

/-! Reading exported timetables back. The limits are written as they are stored and computed anew
when they are read. That makes no difference, since whatever leaves a collection of a loaded
network carries the limits that its dates give. -/

namespace LineClosure

namespace Row

theorem date_text (d : Date) : date (.text d.text) = .ok d := by
  rw [date, d.ofText?_text]

theorem calendarDay_document (day : CalendarDay) : calendarDay day.document = .ok day := by
  have dated : required day.document "date" = .ok (.text day.day.text) := rfl
  rw [calendarDay, dated]
  refine except_bind_eq_ok_iff.mpr ⟨_, rfl, ?_⟩
  exact except_bind_eq_ok_iff.mpr ⟨_, date_text day.day, rfl⟩

theorem period_document (p : Period) : period p.document = .ok p := by
  have start : required p.document "start" = .ok (.text p.start.text) := rfl
  have finish : required p.document "end" = .ok (.text p.finish.text) := rfl
  rw [period, start, finish]
  refine except_bind_eq_ok_iff.mpr ⟨_, rfl, ?_⟩
  refine except_bind_eq_ok_iff.mpr ⟨_, date_text p.start, ?_⟩
  refine except_bind_eq_ok_iff.mpr ⟨_, rfl, ?_⟩
  exact except_bind_eq_ok_iff.mpr ⟨_, date_text p.finish, rfl⟩

theorem dayType_text (type : DayType) :
    choice "DayType" DayType.all DayType.text (.text type.text) = .ok type := by
  cases type <;> rfl

theorem hasLimits_of_timetable {row : Row} {t : Timetable} (read : row.timetable = .ok t) :
    t.HasLimits := by
  obtain ⟨_, _, rest⟩ := except_bind_eq_ok_iff.mp read
  repeat obtain ⟨_, _, rest⟩ := except_bind_eq_ok_iff.mp rest
  cases rest
  exact Timetable.hasLimits_withLimits _

end Row

namespace Timetable

/-- What an exported timetable is when it is read back: version and comment are not exported. -/
def readBack (t : Timetable) : Timetable := { t with version := .int 1, comment := .text "" }

theorem timetable_document {t : Timetable} (limits : t.HasLimits) :
    Row.timetable t.document = .ok t.readBack := by
  have id : Row.required t.document "id" = .ok (.scalar t.id) := rfl
  have types : Row.items t.document "day_types" =
      .ok (t.dayTypes.map fun type => .text type.text) := rfl
  have days : Row.items t.document "calendar_days" =
      .ok (t.calendarDays.map CalendarDay.document) := rfl
  have periods : Row.items t.document "periods" = .ok (t.periods.map Period.document) := rfl
  rw [Row.timetable, id, types, days, periods]
  refine except_bind_eq_ok_iff.mpr ⟨_, rfl, except_bind_eq_ok_iff.mpr ⟨_, rfl, ?_⟩⟩
  refine except_bind_eq_ok_iff.mpr ⟨_, mapM_of_reads Row.dayType_text _, ?_⟩
  refine except_bind_eq_ok_iff.mpr ⟨_, rfl, ?_⟩
  refine except_bind_eq_ok_iff.mpr ⟨_, mapM_of_reads Row.calendarDay_document _, ?_⟩
  refine except_bind_eq_ok_iff.mpr ⟨_, rfl, ?_⟩
  refine except_bind_eq_ok_iff.mpr ⟨_, mapM_of_reads Row.period_document _, ?_⟩
  refine except_bind_eq_ok_iff.mpr ⟨t.id, rfl, ?_⟩
  -- the limits do not depend on what is not exported
  exact congrArg (fun u : Timetable => Except.ok u.readBack) limits

theorem hasLimits_of_within? {t left : Timetable} {window : Window} (limits : t.HasLimits)
    (within : t.within? window = some left) : left.HasLimits := by
  cases bounded : window.isBounded with
  | false =>
    rw [within?, if_neg (by rw [bounded]; decide)] at within
    split at within
    · cases within
    · cases within
      exact limits
  | true =>
    rw [within?, if_pos bounded, t.clip_of_bounded bounded, between?] at within
    split at within
    · cases within
    · cases within
      exact hasLimits_withLimits _

end Timetable

namespace Load

section
variable {document : Row} {loading : Loading} (loaded : sections document {} = .ok () loading)

include loaded

theorem hasLimits_of_sections : ∀ t ∈ loading.registry.timetables.members, t.HasLimits := by
  intro t member
  have members : loading.registry.timetables.members =
      (document.owned .timetable).filterMap fun row => row.2.timetable.toOption :=
    members_of_sections loaded .timetable (by decide)
  rw [members] at member
  obtain ⟨row, _, read⟩ := List.mem_filterMap.mp member
  exact Row.hasLimits_of_timetable (toOption_eq_some_iff.mp read)

theorem hasLimits_of_collect (line : Line) (window : Window) :
    ∀ t ∈ (loading.registry.collect line window).closure.timetables.members, t.HasLimits := by
  intro left member
  obtain ⟨t, registered, within⟩ :=
    Registry.of_mem_runningTimetables (Registry.mem_timetables_collect.mp member)
  exact Timetable.hasLimits_of_within? (hasLimits_of_sections loaded t registered) within

end

section
variable {again : Row} (empty : ∀ name, name ≠ "timetables" → again.items name = .ok [])

include empty

theorem owned_of_empty (kind : Kind) (other : kind ≠ .timetable) : again.owned kind = [] := by
  have none : ∀ name, name ≠ "timetables" → again.listed name = [] := fun name differs =>
    Row.listed_of_items (empty name differs)
  cases kind with
  | timetable => exact absurd rfl other
  | route | journeyPattern | vehicleJourney =>
    simp only [Row.owned, Row.journeyRows, Row.patternRows, Row.routeRows, none "lines" (by decide),
      List.flatMap_nil]
  | _ => exact congrArg (List.map fun row => (Scalar.null, row)) (none _ (by decide))

theorem not_mem_ofKind_of_empty (kind : Kind) (other : kind ≠ .timetable) :
    ∀ row, row ∉ again.ofKind kind := by
  intro row given
  rw [Row.ofKind, owned_of_empty empty kind other] at given
  cases given

end

section
variable {timetables : Roster Timetable} {again : Row}
  (limits : ∀ t ∈ timetables.members, t.HasLimits)
  (listed : again.items "timetables" = .ok (timetables.members.map Timetable.document))

include listed

theorem owned_timetables : again.owned .timetable =
    timetables.members.map fun t => (.null, t.document) := by
  have rows : again.listed "timetables" = timetables.members.map Timetable.document :=
    Row.listed_of_items listed
  have owned : again.owned .timetable =
      (again.listed "timetables").map fun row => (.null, row) := rfl
  rw [owned, rows, List.map_map]
  rfl

include limits

theorem timetables_of_documents {back : Loading} (loaded : sections again {} = .ok () back) :
    back.registry.timetables.members = timetables.members.map Timetable.readBack := by
  have members : back.registry.timetables.members =
      (again.owned .timetable).filterMap fun row => row.2.timetable.toOption :=
    members_of_sections loaded .timetable (by decide)
  rw [members, owned_timetables listed, List.filterMap_map, ← List.filterMap_eq_map]
  refine List.filterMap_congr fun t given => ?_
  exact toOption_eq_some_iff.mpr (Timetable.timetable_document (limits t given))

variable (empty : ∀ name, name ≠ "timetables" → again.items name = .ok [])

include empty

theorem wellFormed_of_documents : again.WellFormed := by
  have nothing := not_mem_ofKind_of_empty empty .stopArea (by decide)
  refine ⟨fun kind _ => ?_, fun kind row given => ?_, fun _ given => absurd given (nothing _),
    fun _ given => absurd given (nothing _), fun _ given => absurd given (nothing _)⟩
  · by_cases same : kind = .timetable
    · subst same
      exact listed.trans (congrArg Except.ok (Row.listed_of_items listed).symm)
    · have differs : kind.tableName ≠ "timetables" := by
        cases kind <;> first | decide | exact absurd rfl same
      rw [empty _ differs, Row.listed_of_items (empty _ differs)]
  · by_cases same : kind = .timetable
    · subst same
      rw [owned_timetables listed] at given
      obtain ⟨t, member, rfl⟩ := List.mem_map.mp given
      have read := Timetable.timetable_document (limits t member)
      exact ⟨⟨_, toOption_eq_some_iff.mpr read⟩, fun _ looked => absurd looked List.not_mem_nil⟩
    · rw [owned_of_empty empty kind same] at given
      cases given

/-- A document of nothing but exported timetables is accepted. Their identifiers differ, since
they come from one set. -/
theorem loads_documents : ∃ back, sections again {} = .ok () back := by
  have wellFormed := wellFormed_of_documents limits listed empty
  have nothing := not_mem_ofKind_of_empty empty
  cases settles_sections wellFormed
    (fun row given => absurd given (nothing .stopArea (by decide) row))
    (fun row given => absurd given (nothing .stopPoint (by decide) row)) with
  | runs loaded _ => exact ⟨_, loaded⟩
  | @refused kind id _ _ clash =>
    have twice := clash.of_start
    by_cases same : kind = .timetable
    · subst same
      have ids : ((again.owned .timetable).map fun row => row.2.ownId).map canonical =
          timetables.identities := by
        rw [owned_timetables listed, List.map_map, List.map_map]
        rfl
      rw [ids] at twice
      exact absurd timetables.identities_nodup twice.not_nodup
    · rw [owned_of_empty empty kind same] at twice
      exact absurd List.nodup_nil twice.not_nodup

end

def timetablesAlone (c : Closure) : Row :=
  .object [("timetables", .list (c.timetables.members.map Timetable.document))]

theorem items_timetablesAlone (c : Closure) (line : Line) :
    (timetablesAlone c).items "timetables" = Row.items (c.document line) "timetables" := rfl

theorem items_timetablesAlone_of_ne (c : Closure) {name : String} (differs : name ≠ "timetables") :
    (timetablesAlone c).items name = .ok [] := by
  have other : (Text.whole name == Text.whole "timetables") = false :=
    beq_false_of_ne fun same => differs (Text.whole.inj same)
  simp [Row.items, Row.optional, Value.field?, timetablesAlone, List.lookup_cons, other,
    Value.elements?]

/-- Exported timetables can be read back. For a loaded network, a line and a window in which it
runs, the file is that of the line, a document with the timetables of the file in it and nothing
else is accepted, and whatever document with them is accepted, its timetables are those of the
closure, in their order, with days, marks, periods and limits. Only version and comment, which
are not in the file, are what they are by default. -/
theorem timetables_read_back {document again : Row} {loading : Loading} {line : Line}
    {window : Window} (loaded : sections document {} = .ok () loading)
    (valid : (loading.registry.collect line window).valid = true)
    (same : again.items "timetables" =
      Row.items ((loading.registry.collect line window).closure.document line) "timetables") :
    (loading.registry.collect line window).closure.line = some line ∧
    ((∀ name, name ≠ "timetables" → again.items name = .ok []) →
      ∃ back, sections again {} = .ok () back) ∧
    ∀ back, sections again {} = .ok () back →
      back.registry.timetables.members =
        (loading.registry.collect line window).closure.timetables.members.map
          Timetable.readBack := by
  have limits := hasLimits_of_collect loaded line window
  have listed : again.items "timetables" =
      .ok ((loading.registry.collect line window).closure.timetables.members.map
        Timetable.document) := same
  refine ⟨?_, loads_documents limits listed, fun back => timetables_of_documents limits listed⟩
  rw [Registry.closure_collect, if_pos valid]
  rfl

/-! A cable car that runs in winter, one day taken out by a mark that is no truth value. The window
ends before the winter does. -/

def cablewayTimetable : Row :=
  .object [("id", .text "T"), ("version", .int 7), ("comment", .text "winter"),
    ("day_types", .list [.text "Saturday", .text "Sunday"]),
    ("calendar_days", .list [.object [("date", .text "2024-01-06"), ("included", .int 0)]]),
    ("periods", .list [.object [("start", .text "2023-12-01"), ("end", .text "2024-03-01")]])]

def cableway : Row :=
  .object [
    ("stop_points", .list [.object [("id", .text "S")]]),
    ("timetables", .list [cablewayTimetable]),
    ("lines", .list [.object [("id", .text "L"), ("routes", .list [
      .object [("id", .text "R"), ("stop_points", .list [.text "S"]),
        ("journey_patterns", .list [.object [("id", .text "P"),
          ("vehicle_journeys", .list [.object [("id", .text "V"),
            ("timetables", .list [.text "T"])]])]])]])]])]

def cablewayLoading : Loading := (ended cableway).1

def cablewayLine : Line := { id := .text (.whole "L"), routeIds := [.text "R"] }

def cablewayWindow : Window := ⟨none, Calendar.date? 2024 1 31⟩

theorem timetables_read_back_cableway :
    (cablewayLoading.registry.collect cablewayLine cablewayWindow).closure.line =
      some cablewayLine ∧
    (cablewayLoading.registry.collect cablewayLine cablewayWindow).closure.timetables.members.map
      Timetable.endOfPeriod = [Calendar.date? 2024 1 31] ∧
    ∃ back, sections (timetablesAlone
        (cablewayLoading.registry.collect cablewayLine cablewayWindow).closure) {} = .ok () back ∧
      back.registry.timetables.members =
        (cablewayLoading.registry.collect cablewayLine
          cablewayWindow).closure.timetables.members.map Timetable.readBack := by
  have loaded : sections cableway {} = .ok () cablewayLoading :=
    sections_of_ended (by decide +kernel)
  have valid : (cablewayLoading.registry.collect cablewayLine cablewayWindow).valid = true := by
    decide +kernel
  obtain ⟨line, accepted, members⟩ :=
    timetables_read_back loaded valid (items_timetablesAlone _ cablewayLine)
  obtain ⟨back, again⟩ := accepted fun _ => items_timetablesAlone_of_ne _
  exact ⟨line, by decide +kernel, back, again, members back again⟩

end Load
end LineClosure
