import LineClosure.Proofs.Snapshot.WholeRecords
import LineClosure.Validation.Verdict

/-! Verdicts that can be printed. The messages of a validation are put together from what the
network was loaded with, so no half of a pair gets into them from a snapshot without any. -/

namespace LineClosure

open Keyed

def Finding.IsWhole : Finding → Prop
  | defect d => d.message.IsWhole
  | doubt d => d.message.IsWhole
  | unusable _ => True

section
variable {α : Type} [Keyed α] {table : Roster α} {id : Id} {reference : Reference}

theorem isWhole_dangling {owner target : String} (own : (Value.scalar id).IsWhole)
    (whole : reference.IsWhole) : (danglingMessage owner id target reference).IsWhole := by
  have subject : (Text.whole owner ++ Text.whole " " ++ id.display).IsWhole :=
    own.display.after_string _
  have sentence := (subject.then_string " references non-existent ").then_string target
  exact (sentence.then_string " ").append whole.display

theorem isWhole_checkReference {defect : Defect} (whole : defect.message.IsWhole) :
    ∀ finding ∈ checkReference table reference defect, finding.IsWhole := by
  unfold checkReference
  split
  · exact List.forall_mem_singleton.mpr trivial
  · split
    · exact fun _ given => absurd given List.not_mem_nil
    · exact List.forall_mem_singleton.mpr whole

theorem isWhole_checkOptional {defect : Defect} (whole : defect.message.IsWhole) :
    ∀ finding ∈ checkOptional table reference defect, finding.IsWhole := by
  unfold checkOptional
  split
  · exact fun _ given => absurd given List.not_mem_nil
  · exact isWhole_checkReference whole

theorem isWhole_checkCoordinate {v : Value} {bound : Int} {defect : Defect}
    (whole : defect.message.IsWhole) :
    ∀ finding ∈ checkCoordinate v bound defect, finding.IsWhole := by
  unfold checkCoordinate
  split
  · exact fun _ given => absurd given List.not_mem_nil
  · split
    · exact List.forall_mem_singleton.mpr trivial
    · split
      · exact fun _ given => absurd given List.not_mem_nil
      · exact List.forall_mem_singleton.mpr whole

theorem isWhole_doubtIf {condition : Bool} {doubt : Doubt} (whole : doubt.message.IsWhole) :
    ∀ finding ∈ doubtIf condition doubt, finding.IsWhole := by
  unfold doubtIf
  split
  · exact List.forall_mem_singleton.mpr whole
  · exact fun _ given => absurd given List.not_mem_nil

end

namespace Registry

variable {loading : Loading}

section
variable (whole : loading.IsWhole)

include whole

theorem isWhole_checkLine {line : Line} (there : line ∈ loading.registry.lines.members) :
    ∀ finding ∈ loading.registry.checkLine line, finding.IsWhole := by
  have own : (Value.scalar line.id).IsWhole := whole.own .line there
  obtain ⟨network, others⟩ := List.forall_mem_cons.mp (whole.details .line line there)
  obtain ⟨company, groups⟩ := List.forall_mem_cons.mp others
  simp only [checkLine, List.forall_mem_append, List.forall_mem_flatMap]
  exact ⟨⟨isWhole_checkOptional (isWhole_dangling own network),
    isWhole_checkOptional (isWhole_dangling own company)⟩,
    fun group given => isWhole_checkReference (isWhole_dangling own (groups group given))⟩

theorem isWhole_checkRoute {route : Route} (there : route ∈ loading.registry.routes.members) :
    ∀ finding ∈ loading.registry.checkRoute route, finding.IsWhole := by
  have own : (Value.scalar route.id).IsWhole := whole.own .route there
  have stops := whole.details .route route there
  simp only [checkRoute, List.forall_mem_append, List.forall_mem_flatMap]
  exact ⟨isWhole_doubtIf ((own.display.after_string _).then_string _),
    fun stop given => isWhole_checkReference (isWhole_dangling own (stops stop given))⟩

theorem isWhole_checkJourney {journey : VehicleJourney}
    (there : journey ∈ loading.registry.vehicleJourneys.members) :
    ∀ finding ∈ loading.registry.checkJourney journey, finding.IsWhole := by
  have own : (Value.scalar journey.id).IsWhole := whole.own .vehicleJourney there
  obtain ⟨company, timetables⟩ :=
    List.forall_mem_cons.mp (whole.details .vehicleJourney journey there)
  simp only [checkJourney, List.forall_mem_append, List.forall_mem_flatMap]
  exact ⟨⟨isWhole_doubtIf ((own.display.after_string _).then_string _),
    fun t given => isWhole_checkReference (isWhole_dangling own (timetables t given))⟩,
    isWhole_checkOptional (isWhole_dangling own company)⟩

theorem isWhole_checkTimetable {t : Timetable}
    (there : t ∈ loading.registry.timetables.members) :
    ∀ finding ∈ checkTimetable t, finding.IsWhole := by
  have own : (Value.scalar t.id).IsWhole := whole.own .timetable there
  have named := own.display.after_string "Timetable "
  simp only [checkTimetable, List.forall_mem_append, List.forall_mem_flatMap]
  refine ⟨isWhole_doubtIf (named.then_string _), fun p _ => ?_⟩
  unfold checkPeriod
  split
  · have told := (named.then_string " has period starting after its end: ").then_string p.start.text
    exact List.forall_mem_singleton.mpr ((told.then_string " > ").then_string p.finish.text)
  · exact fun _ given => absurd given List.not_mem_nil

theorem isWhole_checkStopArea {area : StopArea}
    (there : area ∈ loading.registry.stopAreas.members) :
    ∀ finding ∈ checkStopArea area, finding.IsWhole := by
  have own : (Value.scalar area.id).IsWhole := whole.own .stopArea there
  have named := own.display.after_string "Stop area "
  obtain ⟨latitude, others⟩ := List.forall_mem_cons.mp (whole.details .stopArea area there)
  have longitude := List.forall_mem_singleton.mp others
  simp only [checkStopArea, List.forall_mem_append]
  exact ⟨⟨isWhole_checkCoordinate ((named.then_string _).append latitude.display),
    isWhole_checkCoordinate ((named.then_string _).append longitude.display)⟩,
    isWhole_doubtIf (named.then_string _)⟩

theorem isWhole_checkStopPoint {stop : StopPoint}
    (there : stop ∈ loading.registry.stopPoints.members) :
    ∀ finding ∈ loading.registry.checkStopPoint stop, finding.IsWhole := by
  have own : (Value.scalar stop.id).IsWhole := whole.own .stopPoint there
  exact isWhole_doubtIf ((own.display.after_string _).then_string _)

theorem isWhole_checkConnection {link : ConnectionLink}
    (there : link ∈ loading.registry.connectionLinks.members) :
    ∀ finding ∈ loading.registry.checkConnection link, finding.IsWhole := by
  have own : (Value.scalar link.id).IsWhole := whole.own .connectionLink there
  have details := whole.details .connectionLink link there
  obtain ⟨ends, duration⟩ := List.forall_mem_append.mp
    (show ∀ v ∈ [link.startAreaId, link.endAreaId] ++ [link.duration], v.IsWhole from details)
  simp only [checkConnection, List.forall_mem_append, List.forall_mem_flatMap]
  refine ⟨fun area given => isWhole_checkReference (isWhole_dangling own (ends area given)), ?_⟩
  unfold checkDuration
  split
  · exact fun _ given => absurd given List.not_mem_nil
  · split
    · exact List.forall_mem_singleton.mpr trivial
    · exact isWhole_doubtIf (((own.display.after_string _).then_string _).append
        (List.forall_mem_singleton.mp duration).display)

theorem isWhole_checkAccessLink {link : AccessLink}
    (there : link ∈ loading.registry.accessLinks.members) :
    ∀ finding ∈ loading.registry.checkAccessLink link, finding.IsWhole := by
  have own : (Value.scalar link.id).IsWhole := whole.own .accessLink there
  obtain ⟨point, others⟩ := List.forall_mem_cons.mp (whole.details .accessLink link there)
  have area := List.forall_mem_singleton.mp others
  simp only [checkAccessLink, List.forall_mem_append]
  exact ⟨isWhole_checkReference (isWhole_dangling own point),
    isWhole_checkReference (isWhole_dangling own area)⟩

theorem isWhole_findings :
    ∀ finding ∈ loading.registry.findings (loading.rejected.map Rejection.message),
      finding.IsWhole := by
  have noLines : ∀ finding ∈ if loading.registry.lines.members.isEmpty then
      [Finding.defect .noLines] else [], finding.IsWhole := by
    split
    · exact List.forall_mem_singleton.mpr (Text.isWhole_string _)
    · exact fun _ given => absurd given List.not_mem_nil
  simp only [findings, checkLines, List.forall_mem_append, List.forall_mem_flatMap,
    List.forall_mem_map, and_assoc]
  exact ⟨noLines, fun _ => isWhole_checkLine whole, fun _ => isWhole_checkRoute whole,
    fun _ => isWhole_checkJourney whole, fun _ => isWhole_checkTimetable whole,
    fun _ => isWhole_checkStopArea whole, fun _ => isWhole_checkStopPoint whole,
    fun _ => isWhole_checkConnection whole, fun _ => isWhole_checkAccessLink whole,
    fun rejection given => (whole.rejected rejection given).after_string _⟩

/-- A verdict on such a network tells nothing that cannot be printed. -/
theorem isWhole_of_validate {verdict : Verdict}
    (judged : loading.registry.validate (loading.rejected.map Rejection.message) = some verdict) :
    (∀ defect ∈ verdict.defects, defect.message.IsWhole) ∧
      ∀ doubt ∈ verdict.doubts, doubt.message.IsWhole := by
  have told := isWhole_findings whole
  unfold validate at judged
  dsimp only at judged
  split at judged
  · cases judged
  · cases judged
    constructor
    · intro defect given
      obtain ⟨finding, found, is⟩ := List.mem_filterMap.mp given
      cases finding with
      | defect d => exact Option.some.inj is ▸ told _ found
      | doubt d | unusable v => cases is
    · intro doubt given
      obtain ⟨finding, found, is⟩ := List.mem_filterMap.mp given
      cases finding with
      | doubt d => exact Option.some.inj is ▸ told _ found
      | defect d | unusable v => cases is

end
end Registry
end LineClosure
