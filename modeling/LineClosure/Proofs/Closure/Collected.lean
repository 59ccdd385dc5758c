import LineClosure.Proofs.Closure.Walk

/-! What a collection holds. The sets of a closure are the plain traversal of the line with
every repetition left out, and the areas are those of the lineages with the routing
constraints on the line behind them. -/

namespace LineClosure

open Registry

theorem flatMap_if {α β : Type} (p : α → Bool) (f : α → List β) (items : List α) :
    items.flatMap (fun a => if p a then f a else []) = (items.filter p).flatMap f := by
  induction items with
  | nil => rfl
  | cons a rest ih =>
    rw [List.flatMap_cons, ih, List.filter_cons]
    split
    · rw [List.flatMap_cons]
    · rfl

theorem flatMap_nothing {α β : Type} (items : List α) :
    (items.flatMap fun _ => ([] : List β)) = [] :=
  List.flatMap_eq_nil_iff.mpr fun _ _ => rfl

namespace Registry

/-! ## The lists of a haul -/

section
variable {β : Type} (part : Haul → List β) (joins : ∀ h k, part (h ++ k) = part h ++ part k)
  (silent : ∀ events, part { events } = [])
variable (r : Registry) (window : Window)

include joins silent

theorem part_haulAll {α : Type} [Entity α] (owner : Id) (haul : α → Haul)
    (references : List Reference) :
    part (r.haulAll owner haul references) =
      (r.named α references).flatMap fun a => part (haul a) := by
  induction references with
  | nil => exact silent []
  | cons reference rest ih =>
    rw [haulAll, joins, ih]
    cases resolved : (Entity.table (α := α) r).resolve? reference with
    | some a => simp [named, resolved]
    | none => simp [named, resolved, silent]

theorem part_journeyHaul (journey : VehicleJourney) :
    part (r.journeyHaul window journey) =
      if r.isValidJourney window journey then
        part { vehicleJourneys := [journey], timetables := r.timetablesOf window journey } ++
          part { companies := r.named Company (Walk.present journey.companyId) }
      else [] := by
  unfold journeyHaul
  split
  · rw [joins, joins, joins, silent, silent, List.nil_append, List.append_nil]
  · exact silent _

theorem part_patternHaul (pattern : JourneyPattern) :
    part (r.patternHaul window pattern) =
      if r.isValidPattern window pattern then
        ((r.journeysOf window pattern).flatMap fun journey =>
            part { vehicleJourneys := [journey], timetables := r.timetablesOf window journey } ++
              part { companies := r.named Company (Walk.present journey.companyId) }) ++
          part { journeyPatterns := [pattern] }
      else [] := by
  have each := fun journey => part_journeyHaul part joins silent r window journey
  rw [patternHaul, joins, part_haulAll part joins silent]
  simp only [each, flatMap_if]
  split
  · rfl
  · next invalid =>
    have none : r.journeysOf window pattern = [] := by
      simpa [journeysOf, isValidPattern] using invalid
    rw [journeysOf] at none
    rw [none, silent []]
    rfl

theorem part_lineHaul (line : Line) :
    part (r.lineHaul window line) =
      (r.liveRoutes window line).flatMap fun route =>
        ((r.patternsOf window route).flatMap fun pattern =>
            ((r.journeysOf window pattern).flatMap fun journey =>
                part { vehicleJourneys := [journey],
                       timetables := r.timetablesOf window journey } ++
                  part { companies := r.named Company (Walk.present journey.companyId) }) ++
              part { journeyPatterns := [pattern] }) ++
          (part { routes := [route], stopPoints := r.named StopPoint route.stopPointIds } ++
            part { stopAreas := r.areasOf route,
                   events := r.stray (r.named StopPoint route.stopPointIds) }) := by
  have each := fun pattern => part_patternHaul part joins silent r window pattern
  rw [lineHaul, part_haulAll part joins silent, liveRoutes, ← flatMap_if]
  congr 1
  funext route
  cases stops : (r.named StopPoint route.stopPointIds).isEmpty with
  | true =>
    simp only [routeHaul, isLive, stops, ↓reduceIte, joins, silent, Bool.not_true,
      Bool.false_and, Bool.false_eq_true, List.append_nil]
  | false =>
    cases live : r.isLive window route with
    | true =>
      simp only [routeHaul, stops, live, ↓reduceIte, Bool.false_eq_true, joins, silent,
        part_haulAll part joins silent, each, flatMap_if, List.nil_append, List.append_assoc]
      rfl
    | false =>
      have none : (r.named JourneyPattern route.journeyPatternIds).filter
          (r.isValidPattern window) = [] := by
        simpa [isLive, stops] using live
      simp only [routeHaul, stops, live, ↓reduceIte, Bool.false_eq_true, joins, silent,
        part_haulAll part joins silent, each, flatMap_if, none, List.flatMap_nil, List.append_nil]

end

section
variable (r : Registry) (window : Window) (line : Line)

theorem routes_lineHaul : (r.lineHaul window line).routes = r.liveRoutes window line := by
  rw [part_lineHaul Haul.routes (fun _ _ => rfl) (fun _ => rfl)]
  simp [flatMap_nothing]

theorem journeyPatterns_lineHaul :
    (r.lineHaul window line).journeyPatterns = r.validPatterns window line := by
  rw [part_lineHaul Haul.journeyPatterns (fun _ _ => rfl) (fun _ => rfl)]
  simp [flatMap_nothing, validPatterns]

theorem vehicleJourneys_lineHaul :
    (r.lineHaul window line).vehicleJourneys = r.validJourneys window line := by
  rw [part_lineHaul Haul.vehicleJourneys (fun _ _ => rfl) (fun _ => rfl)]
  simp [validJourneys, validPatterns, List.flatMap_assoc]

theorem timetables_lineHaul :
    (r.lineHaul window line).timetables = r.runningTimetables window line := by
  rw [part_lineHaul Haul.timetables (fun _ _ => rfl) (fun _ => rfl)]
  simp [runningTimetables, validJourneys, validPatterns, List.flatMap_assoc]

theorem stopPoints_lineHaul :
    (r.lineHaul window line).stopPoints = r.calledStopPoints window line := by
  rw [part_lineHaul Haul.stopPoints (fun _ _ => rfl) (fun _ => rfl)]
  simp [flatMap_nothing, calledStopPoints]

theorem stopAreas_lineHaul : (r.lineHaul window line).stopAreas = r.calledAreas window line := by
  rw [part_lineHaul Haul.stopAreas (fun _ _ => rfl) (fun _ => rfl)]
  simp [flatMap_nothing, calledAreas]

theorem companies_lineHaul :
    (r.lineHaul window line).companies =
      (r.validJourneys window line).flatMap fun journey =>
        r.named Company (Walk.present journey.companyId) := by
  rw [part_lineHaul Haul.companies (fun _ _ => rfl) (fun _ => rfl)]
  simp [validJourneys, validPatterns, List.flatMap_assoc]

theorem liveRoutes_of_dead (dead : (r.named Route line.routeIds).any (r.isLive window) = false) :
    r.liveRoutes window line = [] := by
  simpa [liveRoutes, List.filter_eq_nil_iff] using dead

theorem absorb_lineHaul_of_dead (dead : (r.named Route line.routeIds).any (r.isLive window) = false)
    (c : Closure) : c.absorb r (r.lineHaul window line) = c := by
  have none := liveRoutes_of_dead r window line dead
  have empty : ∀ {β : Type} (part : Haul → List β), (∀ h k, part (h ++ k) = part h ++ part k) →
      (∀ events, part { events } = []) → part (r.lineHaul window line) = [] := by
    intro β part joins silent
    rw [part_lineHaul part joins silent, none, List.flatMap_nil]
  simp only [Closure.absorb, empty Haul.routes (fun _ _ => rfl) (fun _ => rfl),
    empty Haul.journeyPatterns (fun _ _ => rfl) (fun _ => rfl),
    empty Haul.vehicleJourneys (fun _ _ => rfl) (fun _ => rfl),
    empty Haul.timetables (fun _ _ => rfl) (fun _ => rfl),
    empty Haul.stopPoints (fun _ _ => rfl) (fun _ => rfl),
    empty Haul.stopAreas (fun _ _ => rfl) (fun _ => rfl),
    empty Haul.companies (fun _ _ => rfl) (fun _ => rfl),
    Roster.insertAll_nil, Closure.withAreas_nil]

end

/-! ## The collection -/

variable (r : Registry) (line : Line) (window : Window)

def withExtras (c : Closure) : Closure :=
  { c with
    line := some line
    network := (r.named Network (Walk.present line.networkId)).head?
    companies := c.companies.insertAll (r.named Company (Walk.present line.companyId))
    groupsOfLines := c.groupsOfLines.insertAll (r.named GroupOfLines line.groupIds)
    stopAreas := c.stopAreas.insertAll (r.constraintsOn (.scalar line.id)) }

def missingExtras : List Event :=
  r.missing Network line.id (Walk.present line.networkId) ++
    r.missing Company line.id (Walk.present line.companyId) ++
    r.missing GroupOfLines line.id line.groupIds

theorem addExtras_eq (w : Walk) :
    Walk.addExtras r line w =
      { w with
        closure := r.withExtras line w.closure
        events := w.events ++ r.missingExtras line } := by
  simp only [Walk.addExtras, Walk.addCompanies, Walk.gather_eq, Walk.change, withExtras,
    missingExtras, List.append_assoc]

/-- A collection is the haul of the line, with the extras if a registered route is live. If
none is, only the events are left of it. -/
theorem collect_eq :
    r.collect line window =
      if (r.named Route line.routeIds).any (r.isLive window) then
        { valid := true
          closure := r.withExtras line (Closure.absorb r {} (r.lineHaul window line))
          events := (r.lineHaul window line).events ++ r.missingExtras line }
      else { valid := false, closure := {}, events := (r.lineHaul window line).events } := by
  obtain ⟨walked, live⟩ := Walk.visitRoutes_adds r window line
  have closure : (Walk.visitAll r line.id (Walk.visitRoute r window) line.routeIds {}).1.closure =
      Closure.absorb r {} (r.lineHaul window line) := walked.closure
  have events : (Walk.visitAll r line.id (Walk.visitRoute r window) line.routeIds {}).1.events =
      (r.lineHaul window line).events := walked.events
  simp only [collect, live]
  split
  · next valid => simp only [valid, addExtras_eq, closure, events]
  · next dead =>
    have dead := Bool.eq_false_iff.mpr dead
    simp only [dead, closure, events, absorb_lineHaul_of_dead r window line dead]

end Registry
end LineClosure
