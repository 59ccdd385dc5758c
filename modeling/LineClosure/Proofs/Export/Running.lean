import LineClosure.Proofs.Closure.Idle
import LineClosure.Proofs.Export.Accounting

/-! Which exported lines run. A line that runs on a day of the window is never reported without
data, and what its closure tells is the service of its journeys on the days of the window. The other
way round an idle timetable is enough for a line to be reported with data, so a report says that a
line runs only where no timetable of its closure is idle. -/

namespace LineClosure

open FileTree Keyed

namespace Registry

variable {r : Registry} {rejected : List Text} {verdict : Verdict}

theorem forward_of_valid (judged : r.validate rejected = some verdict)
    (valid : verdict.isValid = true) {t : Timetable} (registered : t ∈ r.timetables.members) :
    ∀ p ∈ t.periods, p.start ≤ p.finish := by
  intro p given
  refine not_lt.mp fun reversed => ?_
  have found : Finding.defect (.reversedPeriod t.id p) ∈ checkTimetable t := by
    refine List.mem_append_right _ (List.mem_flatMap.mpr ⟨p, given, ?_⟩)
    unfold checkPeriod
    rw [if_pos reversed]
    exact List.mem_cons_self
  obtain ⟨doubt, _, same⟩ := doubt_of_valid judged valid (mem_findings_of_timetable registered found)
  cases same

end Registry

namespace Job

section
variable {input output : Text} {request : ExportRequest} {desk after : Desk}
  {report : ExportReport}

/-- Of the lines of an export that gets to its end: one that is reported with data has a journey with
a timetable of which the window leaves something, and one without runs on no day of the window. The
closure runs on the days of the window on which the line does, and on no others. So if none of the
timetables of its closure is idle, a line is reported with data just if it runs in the window; and
none is idle if the calendar takes out no days and names no weekdays. -/
theorem exportLines_running (done : exportLines input output request desk = .ok report after) :
    ∃ loading lines, Prepares desk.files input request loading lines ∧
      report.lines = lines.map (entry loading.registry request.window) ∧
      ∀ line ∈ lines,
        ((entry loading.registry request.window line).state = .ok →
          ∃ journey ∈
            (loading.registry.collect line request.window).closure.vehicleJourneys.members,
          ∃ t ∈ (loading.registry.collect line request.window).closure.timetables.members,
            journey.RefersTo t ∧ t.isEmpty = false) ∧
        ((entry loading.registry request.window line).state = .error →
          (entry loading.registry request.window line).errors =
              [⟨.noDataOnPeriod, .text "no data on period"⟩] ∧
            ∀ d, request.window.Covers d → ¬loading.registry.RunsOn line d) ∧
        (∀ d, (loading.registry.collect line request.window).closure.RunsOn d ↔
          request.window.Covers d ∧ loading.registry.RunsOn line d) ∧
        (∀ t ∈ (loading.registry.collect line request.window).closure.timetables.members,
          (∀ d, t.RunsOn d → request.window.Covers d) ∧
          (¬t.Overruns → ∃ days, t.activeDates = .ok days ∧ ∀ d, d ∈ days ↔ t.RunsOn d)) ∧
        ((∀ t ∈ (loading.registry.collect line request.window).closure.timetables.members,
            ¬t.IsIdle) →
          ((entry loading.registry request.window line).state = .ok ↔
            ∃ d, (loading.registry.collect line request.window).closure.RunsOn d)) ∧
        ((∀ t ∈ loading.registry.timetables.members,
            t.excludedDays = [] ∧ t.dayTypes.flatMap DayType.weekdays = []) →
          ∀ t ∈ (loading.registry.collect line request.window).closure.timetables.members,
            ¬t.IsIdle) := by
  obtain ⟨loading, lines, events, prepares, ran⟩ := prepares_of_done done
  refine ⟨loading, lines, prepares, exportAll_lines ran, fun line _ => ?_⟩
  have tells := tells_entry loading.registry request.window line
  refine ⟨fun ok => Registry.exists_timetable_of_valid (tells.ok_iff.mp ok), fun failed => ?_,
    fun d => Registry.runsOn_collect, fun t there => ⟨fun d running => ?_,
    Timetable.activeDates_ok⟩, fun busy => ⟨fun ok => ?_, fun some => ?_⟩, fun plain => ?_⟩
  · have invalid : ¬(loading.registry.collect line request.window).valid = true := by
      intro valid
      rw [tells.ok_iff.mpr valid] at failed
      cases failed
    refine ⟨tells.errors.trans (if_neg invalid), fun d inside running => ?_⟩
    exact invalid (Registry.valid_of_runsOn inside running)
  · obtain ⟨whole, _, within⟩ :=
      Registry.of_mem_runningTimetables (Registry.mem_timetables_collect.mp there)
    exact (((Timetable.leaves_of_within? within).runs d).mp running).1
  · exact Registry.exists_runsOn_of_valid (tells.ok_iff.mp ok) busy
  · obtain ⟨d, running⟩ := some
    obtain ⟨inside, still⟩ := Registry.runsOn_collect.mp running
    exact tells.ok_iff.mpr (Registry.valid_of_runsOn inside still)
  · obtain ⟨verdict, judged, valid⟩ := prepares.judged
    refine Registry.not_isIdle_collect fun t registered => ?_
    obtain ⟨nothingOut, everyWeekday⟩ := plain t registered
    exact ⟨nothingOut, everyWeekday, Registry.forward_of_valid judged valid registered⟩

end

/-! ## A line that runs on the Mondays of a month -/

def weekly : Row :=
  .object [
    ("stop_points", .list [.object [("id", .text "S")]]),
    ("timetables", .list [.object [("id", .text "T"), ("day_types", .list [.text "Monday"]),
      ("periods", .list [.object [("start", .text "2024-01-01"), ("end", .text "2024-01-31")]])]]),
    ("lines", .list [.object [("id", .text "L"), ("routes", .list [
      .object [("id", .text "R"), ("stop_points", .list [.text "S"]),
        ("journey_patterns", .list [.object [("id", .text "P"),
          ("vehicle_journeys", .list [.object [("id", .text "V"),
            ("timetables", .list [.text "T"])]])]])]])]])]

def weeklyPieces : List String :=
  ["\x7b\"stop_points\":[\x7b\"id\":\"S\"\x7d],",
    "\"timetables\":[\x7b\"id\":\"T\",\"day_types\":[\"Monday\"],",
    "\"periods\":[\x7b\"start\":\"2024-01-01\",\"end\":\"2024-01-31\"\x7d]\x7d],",
    "\"lines\":[\x7b\"id\":\"L\",\"routes\":[\x7b\"id\":\"R\",\"stop_points\":[\"S\"],",
    "\"journey_patterns\":[\x7b\"id\":\"P\",\"vehicle_journeys\":",
    "[\x7b\"id\":\"V\",\"timetables\":[\"T\"]\x7d]\x7d]\x7d]\x7d]\x7d"]

def weeklyDesk : Desk := deskOf weeklyPieces

def weeklyLoading : Loading := (Load.ended weekly).1

def weeklyLine : Line := { id := .text (.whole "L"), routeIds := [.text "R"] }

def monday : Date := ⟨738885, by decide⟩

def tuesday : Date := ⟨738886, by decide⟩

def onlyOn (d : Date) : ExportRequest := { window := ⟨some d, some d⟩ }

theorem weekly_computed :
    isLoadable weeklyPieces weekly = true ∧
      (weeklyLoading.registry.validate
        (weeklyLoading.rejected.map Rejection.message)).any Verdict.isValid = true ∧
      weeklyLoading.registry.lines.members = [weeklyLine] ∧
      (weeklyLoading.registry.collect weeklyLine (onlyOn monday).window).valid = true ∧
      (weeklyLoading.registry.collect weeklyLine (onlyOn tuesday).window).valid = true := by
  decide +kernel

theorem weekly_loads : Load.sections weekly {} = .ok () weeklyLoading :=
  sections_of_isLoadable weekly_computed.1

theorem weekly_prepares (d : Date) :
    Prepares weeklyDesk.files "in.json" (onlyOn d) weeklyLoading [weeklyLine] where
  window := if_neg (lt_irrefl d)
  loaded := load_of_document (read_of_isLoadable rfl weekly_computed.1) weekly_loads
  judged := (Option.any_eq_true _ _).mp weekly_computed.2.1
  requested := by rw [ExportRequest.lines_of_null rfl, weekly_computed.2.2.1]

theorem weekly_accepts : weeklyDesk.files.Accepts "out" (closureName weeklyLine.id) ∧
    weeklyDesk.files.Accepts "out" reportName :=
  ⟨⟨_, _, rfl, rfl, rfl⟩, ⟨_, _, rfl, rfl, rfl⟩⟩

theorem weekly_exports (d : Date) :
    ∃ report after, exportLines "in.json" "out" (onlyOn d) weeklyDesk = .ok report after ∧
      report.lines = [entry weeklyLoading.registry (onlyOn d).window weeklyLine] := by
  obtain ⟨_, report, after, runs, done⟩ := (weekly_prepares d).runs
    (List.forall_mem_singleton.mpr weekly_accepts.1) weekly_accepts.2
  exact ⟨report, after, runs, exportAll_lines done⟩

theorem covers_onlyOn {d day : Date} : (onlyOn d).window.Covers day ↔ day = d := by
  constructor
  · rintro ⟨lower, upper⟩
    exact le_antisymm (upper d rfl) (lower d rfl)
  · rintro rfl
    constructor <;> rintro _ ⟨⟩ <;> exact le_refl _

theorem weekly_runs :
    ∀ t ∈ weeklyLoading.registry.timetables.members, t.RunsOn monday ∧ ¬t.RunsOn tuesday := by
  unfold Timetable.RunsOn
  decide +kernel

theorem exportLines_running_weekly :
    ∃ report after, exportLines "in.json" "out" (onlyOn monday) weeklyDesk = .ok report after ∧
      report.lines = [entry weeklyLoading.registry (onlyOn monday).window weeklyLine] ∧
      (weeklyLoading.registry.collect weeklyLine (onlyOn monday).window).closure.RunsOn monday := by
  obtain ⟨report, after, done, _⟩ := weekly_exports monday
  obtain ⟨loading, lines, prepares, lists, each⟩ := exportLines_running done
  obtain ⟨rfl, rfl⟩ := (weekly_prepares monday).unique prepares
  obtain ⟨_, _, within, _, reported, _⟩ := each weeklyLine (List.mem_singleton_self _)
  have busy : ∀ t ∈ (weeklyLoading.registry.collect weeklyLine
      (onlyOn monday).window).closure.timetables.members, ¬t.IsIdle := by
    intro t there idle
    obtain ⟨whole, registered, within⟩ :=
      Registry.of_mem_runningTimetables (Registry.mem_timetables_collect.mp there)
    refine idle monday (((Timetable.leaves_of_within? within).runs monday).mpr ?_)
    exact ⟨covers_onlyOn.mpr rfl, (weekly_runs whole registered).1⟩
  obtain ⟨d, runs⟩ := (reported busy).mp ((tells_entry _ _ _).ok_iff.mpr weekly_computed.2.2.2.1)
  obtain rfl := covers_onlyOn.mp ((within d).mp runs).1
  exact ⟨report, after, done, lists, runs⟩

/-- Asked for a Tuesday, the export gets to its end and reports that the line has data, but the
closure of the line runs on no day. -/
theorem exportLines_idle :
    ∃ report after, exportLines "in.json" "out" (onlyOn tuesday) weeklyDesk = .ok report after ∧
      report.lines = [entry weeklyLoading.registry (onlyOn tuesday).window weeklyLine] ∧
      (entry weeklyLoading.registry (onlyOn tuesday).window weeklyLine).state = .ok ∧
      ∀ d, ¬(weeklyLoading.registry.collect weeklyLine
        (onlyOn tuesday).window).closure.RunsOn d := by
  obtain ⟨report, after, done, lists⟩ := weekly_exports tuesday
  refine ⟨report, after, done, lists, (tells_entry _ _ _).ok_iff.mpr weekly_computed.2.2.2.2,
    fun d running => ?_⟩
  obtain ⟨inside, still⟩ := Registry.runsOn_collect.mp running
  obtain ⟨t, registered, runs⟩ := Registry.exists_registered_of_runsOn still
  obtain rfl := covers_onlyOn.mp inside
  exact (weekly_runs t registered).2 runs

end Job
end LineClosure
