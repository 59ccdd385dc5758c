import LineClosure.Proofs.Closure.Traversal

/-! A walk adds what the traversal says. Each visit is compared with its haul, from the
journeys up to the line, under two laws that every visit keeps: the timetables reduced so
far are remembered rightly, and the areas collected so far are settled. -/

namespace LineClosure.Walk

open Registry

variable {r : Registry} {window : Window}

/-- What a walk may rely on between two visits. -/
structure Sound (r : Registry) (window : Window) (w : Walk) : Prop where
  memo : ∀ t ∈ r.timetables.members, ∀ left, w.reduced.lookup t.id = some left →
    left = t.clip window
  settled : w.closure.Settled r none

structure Adds (r : Registry) (window : Window) (w v : Walk) (h : Haul) : Prop where
  closure : v.closure = w.closure.absorb r h
  events : v.events = w.events ++ h.events
  sound : v.Sound r window

theorem Adds.trans {w v u : Walk} {h k : Haul} (first : Adds r window w v h)
    (second : Adds r window v u k) : Adds r window w u (h ++ k) where
  closure := by
    calc u.closure = v.closure.absorb r k := second.closure
      _ = (w.closure.absorb r h).absorb r k := by rw [first.closure]
      _ = w.closure.absorb r (h ++ k) := (Closure.absorb_append r w.closure h k).symm
  events := by
    calc u.events = v.events ++ k.events := second.events
      _ = w.events ++ h.events ++ k.events := by rw [first.events]
      _ = w.events ++ (h ++ k).events := List.append_assoc _ _ _
  sound := second.sound

theorem Sound.adds_nothing {w : Walk} (sound : w.Sound r window) : Adds r window w w {} where
  closure := rfl
  events := (List.append_nil w.events).symm
  sound := sound

theorem Sound.adds_events {w : Walk} (sound : w.Sound r window) (events : List Event) :
    Adds r window w { w with events := w.events ++ events } { events } where
  closure := rfl
  events := rfl
  sound := ⟨sound.memo, sound.settled⟩

theorem Sound.adds_change {w : Walk} (sound : w.Sound r window) {h : Haul}
    (noAreas : h.stopAreas = []) (noEvents : h.events = []) :
    Adds r window w (w.change fun c => c.absorb r h) h where
  closure := rfl
  events := by rw [noEvents, List.append_nil]; rfl
  sound := by
    have settled := sound.settled
    refine ⟨sound.memo, ⟨?_, ?_, ?_⟩⟩
    all_goals
      simp only [change, Closure.absorb, noAreas, Closure.withAreas_nil]
    · exact settled.registered
    · intro a member
      have held := settled.held a member
      exact ⟨held.itself, held.stopPlace, held.commercial, held.boarding, held.quay,
        held.connections, held.points, held.paths⟩
    · exact settled.upward

theorem foldl_gather {α : Type} [Entity α] {owner : Id} (references : List Reference)
    {step : Walk × List α → Reference → Walk × List α}
    (met : ∀ w found reference a, (Entity.table r).resolve? reference = some a →
      step (w, found) reference = (w, found ++ [a]))
    (missed : ∀ w found reference, (Entity.table (α := α) r).resolve? reference = none →
      step (w, found) reference = (w.tell (.notFound (Entity.kind α) reference owner), found))
    (w : Walk) (found : List α) :
    references.foldl step (w, found) =
      ({ w with events := w.events ++ r.missing α owner references },
        found ++ r.named α references) := by
  induction references generalizing w found with
  | nil => simp [missing, named]
  | cons reference rest ih =>
    rw [List.foldl_cons]
    cases resolved : (Entity.table (α := α) r).resolve? reference with
    | some a =>
      rw [met w found reference a resolved, ih]
      simp [missing, named, resolved]
    | none =>
      rw [missed w found reference resolved, ih]
      simp [missing, named, resolved, tell]

theorem gather_eq {α : Type} [Entity α] (r : Registry) (owner : Id) (references : List Reference)
    (w : Walk) :
    gather (α := α) r owner references w =
      ({ w with events := w.events ++ r.missing α owner references },
        r.named α references) := by
  refine foldl_gather references (fun w found reference a resolved => ?_)
    (fun w found reference resolved => ?_) w []
  · simp only [resolved]
  · simp only [resolved]

theorem foldl_visit {α : Type} [Entity α] {owner : Id} {visit : Walk → α → Walk × Bool}
    {haul : α → Haul} {valid : α → Bool} (references : List Reference)
    (each : ∀ a ∈ r.named α references, ∀ w, Sound r window w →
      Adds r window w (visit w a).1 (haul a) ∧ (visit w a).2 = valid a)
    {step : Walk × Bool → Reference → Walk × Bool}
    (met : ∀ w live reference a, (Entity.table r).resolve? reference = some a →
      step (w, live) reference = ((visit w a).1, live || (visit w a).2))
    (missed : ∀ w live reference, (Entity.table (α := α) r).resolve? reference = none →
      step (w, live) reference = (w.tell (.notFound (Entity.kind α) reference owner), live))
    {w : Walk} (live : Bool) (sound : w.Sound r window) :
    Adds r window w (references.foldl step (w, live)).1 (r.haulAll owner haul references) ∧
      (references.foldl step (w, live)).2 = (live || (r.named α references).any valid) := by
  induction references generalizing w live with
  | nil => exact ⟨sound.adds_nothing, (Bool.or_false live).symm⟩
  | cons reference rest ih =>
    rw [List.foldl_cons]
    cases resolved : (Entity.table (α := α) r).resolve? reference with
    | some a =>
      have names : r.named α (reference :: rest) = a :: r.named α rest := by
        simp [named, resolved]
      have first := each a (names ▸ List.mem_cons_self) w sound
      have later := ih (fun b member => each b (names ▸ List.mem_cons_of_mem a member))
        (live || (visit w a).2) first.1.sound
      rw [met w live reference a resolved]
      simp only [haulAll, resolved, names, List.any_cons]
      refine ⟨first.1.trans later.1, ?_⟩
      rw [later.2, first.2, Bool.or_assoc]
    | none =>
      have names : r.named α (reference :: rest) = r.named α rest := by
        simp [named, resolved]
      -- nothing is found under this reference: it is told, and the walk goes on
      have first := sound.adds_events [.notFound (Entity.kind α) reference owner]
      have later := ih (fun b member => each b (names ▸ member)) live first.sound
      rw [missed w live reference resolved]
      simp only [haulAll, resolved, names]
      exact ⟨first.trans later.1, later.2⟩

theorem visitAll_adds {α : Type} [Entity α] (owner : Id) {visit : Walk → α → Walk × Bool}
    {haul : α → Haul} {valid : α → Bool} (references : List Reference)
    (each : ∀ a ∈ r.named α references, ∀ w, Sound r window w →
      Adds r window w (visit w a).1 (haul a) ∧ (visit w a).2 = valid a)
    {w : Walk} (sound : w.Sound r window) :
    Adds r window w (visitAll r owner visit references w).1 (r.haulAll owner haul references) ∧
      (visitAll r owner visit references w).2 = (r.named α references).any valid := by
  refine foldl_visit references each (fun w live reference a resolved => ?_)
    (fun w live reference resolved => ?_) false sound
  · simp only [resolved]
  · simp only [resolved]

/-- A timetable is remembered as what the window leaves of it, whether it was there before
or not. -/
theorem clipOnce_spec {w : Walk} (sound : w.Sound r window) {t : Timetable}
    (registered : t ∈ r.timetables.members) :
    (clipOnce window w t).2 = t.clip window ∧
      Adds r window w (clipOnce window w t).1 {} := by
  unfold clipOnce
  cases known : w.reduced.lookup t.id with
  | some left => exact ⟨sound.memo t registered left known, sound.adds_nothing⟩
  | none =>
    refine ⟨rfl, rfl, (List.append_nil _).symm, ?_, sound.settled⟩
    intro other member left found
    rw [List.lookup_cons] at found
    cases same : other.id == t.id with
    | true =>
      have equal : other = t :=
        Roster.eq_of_identity member registered (congrArg canonical (eq_of_beq same))
      rw [same] at found
      rw [equal]
      exact (Option.some.inj found).symm
    | false =>
      rw [same] at found
      exact sound.memo other member left found

theorem foldl_clip {timetables : List Timetable}
    (registered : ∀ t ∈ timetables, t ∈ r.timetables.members)
    {step : Walk × List Timetable → Timetable → Walk × List Timetable}
    (clips : ∀ w kept t, step (w, kept) t =
      ((clipOnce window w t).1, kept ++ (clipOnce window w t).2.toList))
    {w : Walk} (kept : List Timetable) (sound : w.Sound r window) :
    (timetables.foldl step (w, kept)).2 = kept ++ timetables.filterMap (fun t => t.clip window) ∧
      Adds r window w (timetables.foldl step (w, kept)).1 {} := by
  induction timetables generalizing w kept with
  | nil => exact ⟨(List.append_nil kept).symm, sound.adds_nothing⟩
  | cons t rest ih =>
    have first := clipOnce_spec sound (registered t List.mem_cons_self)
    have later := ih (fun u member => registered u (List.mem_cons_of_mem t member))
      (kept ++ (clipOnce window w t).2.toList) first.2.sound
    rw [List.foldl_cons, clips]
    refine ⟨?_, first.2.trans later.2⟩
    rw [later.1, first.1, List.append_assoc, List.filterMap_cons]
    cases t.clip window <;> rfl

theorem survivors_adds {w : Walk} (sound : w.Sound r window) (journey : VehicleJourney) :
    (survivors r window journey w).2 = r.timetablesOf window journey ∧
      Adds r window w (survivors r window journey w).1
        { events := r.missing Timetable journey.id journey.timetableIds } := by
  have told := sound.adds_events (r.missing Timetable journey.id journey.timetableIds)
  simp only [survivors, gather_eq]
  split
  · next bounded =>
    have inside : ∀ t ∈ r.named Timetable journey.timetableIds, t ∈ r.timetables.members :=
      fun t found => (mem_named_iff.mp found).1
    rw [← Haul.append_empty { events := _ }]
    refine ⟨?_, told.trans ?_⟩
    · refine (foldl_clip inside ?_ [] told.sound).1.trans ?_
      · intro w kept t
        rfl
      · simp [timetablesOf, Timetable.within?, bounded]
    · refine (foldl_clip inside ?_ [] told.sound).2
      intro w kept t
      rfl
  · next unbounded =>
    refine ⟨?_, told⟩
    simp only [timetablesOf, Timetable.within?, unbounded, Bool.false_eq_true, ↓reduceIte]
    rw [← List.filterMap_eq_filter]
    congr 1
    funext t
    cases empty : t.isEmpty <;> simp [Option.guard, empty]

theorem visitJourney_adds {w : Walk} (sound : w.Sound r window) (journey : VehicleJourney) :
    Adds r window w (visitJourney r window w journey).1 (r.journeyHaul window journey) ∧
      (visitJourney r window w journey).2 = r.isValidJourney window journey := by
  have found := survivors_adds sound journey
  unfold visitJourney
  simp only [found.1]
  by_cases valid : r.isValidJourney window journey = true
  · have some : (r.timetablesOf window journey).isEmpty = false := by
      simpa [isValidJourney_eq] using valid
    have kept := found.2.sound.adds_change
      (h := { vehicleJourneys := [journey], timetables := r.timetablesOf window journey }) rfl rfl
    have told := kept.sound.adds_events (r.missing Company journey.id (present journey.companyId))
    have companies := told.sound.adds_change
      (h := { companies := r.named Company (present journey.companyId) }) rfl rfl
    have whole := ((found.2.trans kept).trans told).trans companies
    simp only [some, Bool.false_eq_true, ↓reduceIte, journeyHaul, valid, and_true]
    unfold addCompanies
    rw [gather_eq]
    exact whole
  · have none : (r.timetablesOf window journey).isEmpty = true := by
      simpa [isValidJourney_eq] using valid
    simp only [none, ↓reduceIte, Bool.eq_false_iff.mpr valid, and_true]
    simpa only [journeyHaul, valid, Bool.false_eq_true, ↓reduceIte] using found.2

theorem visitPattern_adds {w : Walk} (sound : w.Sound r window) (pattern : JourneyPattern) :
    Adds r window w (visitPattern r window w pattern).1 (r.patternHaul window pattern) ∧
      (visitPattern r window w pattern).2 = r.isValidPattern window pattern := by
  have journeys := visitAll_adds pattern.id pattern.vehicleJourneyIds
    (fun journey _ _ (going : Sound r window _) => visitJourney_adds going journey) sound
  unfold visitPattern patternHaul
  by_cases valid : r.isValidPattern window pattern = true
  · have live := journeys.2.trans valid
    have kept := journeys.1.sound.adds_change (h := { journeyPatterns := [pattern] }) rfl rfl
    simp only [live, valid, ↓reduceIte, and_true]
    exact journeys.1.trans kept
  · have dead := journeys.2.trans (Bool.eq_false_iff.mpr valid)
    simp only [dead, valid, Bool.false_eq_true, ↓reduceIte, Haul.append_empty, and_true]
    exact journeys.1

theorem addAreaOf_adds {w : Walk} (sound : w.Sound r window) (stop : StopPoint) :
    Adds r window w (addAreaOf r w stop)
      { stopAreas := (r.areaOf? stop.id).toList.flatMap r.lineage, events := r.stray [stop] } := by
  unfold addAreaOf
  cases found : r.areaOf? stop.id with
  | none =>
    have told := sound.adds_events [.noStopArea stop.id]
    simpa [stray, found, tell] using told
  | some area =>
    have ascent := Closure.ascend_eq_withAreas sound.settled (registered_of_areaOf? found)
    refine ⟨?_, ?_, sound.memo, ?_⟩
    · simp only [change, ascent.1, Option.toList_some, List.flatMap_singleton]
      rfl
    · simp [stray, found, change]
    · simpa only [change, ascent.1] using ascent.2

theorem foldl_addAreaOf_adds {w : Walk} (sound : w.Sound r window) (stops : List StopPoint) :
    Adds r window w (stops.foldl (addAreaOf r) w)
      { stopAreas := stops.flatMap fun stop => (r.areaOf? stop.id).toList.flatMap r.lineage
        events := r.stray stops } := by
  induction stops generalizing w with
  | nil => exact sound.adds_nothing
  | cons stop rest ih =>
    have first := addAreaOf_adds sound stop
    have whole := first.trans (ih first.sound)
    have told : r.stray (stop :: rest) = r.stray [stop] ++ r.stray rest := by
      simp only [stray, List.filter_cons, List.filter_nil]
      split <;> rfl
    rw [told, List.flatMap_cons]
    exact whole

theorem visitRoute_adds {w : Walk} (sound : w.Sound r window) (route : Route) :
    Adds r window w (visitRoute r window w route).1 (r.routeHaul window route) ∧
      (visitRoute r window w route).2 = r.isLive window route := by
  have told := sound.adds_events (r.missing StopPoint route.id route.stopPointIds)
  unfold visitRoute routeHaul
  simp only [gather_eq]
  cases stops : (r.named StopPoint route.stopPointIds).isEmpty with
  | true =>
    have warned := told.sound.adds_events [.noStopPoints route.id]
    simp only [↓reduceIte, isLive, stops, Bool.not_true, Bool.false_and, and_true]
    exact told.trans warned
  | false =>
    have patterns := visitAll_adds route.id route.journeyPatternIds
      (fun pattern _ _ (going : Sound r window _) => visitPattern_adds going pattern) told.sound
    have live : (visitAll r route.id (visitPattern r window) route.journeyPatternIds
        { w with events := w.events ++ r.missing StopPoint route.id route.stopPointIds }).2 =
        r.isLive window route := by
      rw [patterns.2, isLive, stops, Bool.not_false, Bool.true_and]
    simp only [Bool.false_eq_true, ↓reduceIte, live]
    cases valid : r.isLive window route with
    | true =>
      have kept := patterns.1.sound.adds_change
        (h := { routes := [route], stopPoints := r.named StopPoint route.stopPointIds }) rfl rfl
      have areas := foldl_addAreaOf_adds kept.sound (r.named StopPoint route.stopPointIds)
      have whole := ((told.trans patterns.1).trans kept).trans areas
      exact ⟨whole, rfl⟩
    | false => exact ⟨told.trans patterns.1, rfl⟩

theorem sound_empty : Sound r window {} where
  memo := by simp
  settled := ⟨by simp [EmptyCollection.emptyCollection, Roster.empty],
    by simp [EmptyCollection.emptyCollection, Roster.empty],
    by simp [EmptyCollection.emptyCollection, Roster.empty]⟩

/-- The walk through all routes of a line adds the haul of the line, and finds the line
valid if one of its routes is live. -/
theorem visitRoutes_adds (r : Registry) (window : Window) (line : Line) :
    Adds r window {} (visitAll r line.id (visitRoute r window) line.routeIds {}).1
      (r.lineHaul window line) ∧
    (visitAll r line.id (visitRoute r window) line.routeIds {}).2 =
      (r.named Route line.routeIds).any (r.isLive window) :=
  visitAll_adds line.id line.routeIds (fun route _ _ going => visitRoute_adds going route)
    sound_empty

end LineClosure.Walk
