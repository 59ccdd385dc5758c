import LineClosure.Proofs.Closure.Outcome
import LineClosure.Proofs.Registry.Queries

/-! A collection that fails wherever something is taken for granted: a reference that no table
can be asked for, an entry of a relation that is not registered, an ascent that does not come
to an end. In a registry that answers, and for references that are scalars, nothing of this
happens, and what comes out is the collection. -/

namespace LineClosure

inductive Fault where
  | refused (problem : Problem)
  /-- All steps are made and there is still an area to go on from. -/
  | endless (area : StopArea)

namespace Strict

def resolve? (α : Type) [Entity α] (r : Registry) (reference : Reference) :
    Except Fault (Option α) :=
  match reference.id? with
  | some id => .ok ((Entity.table r).find? id)
  | none => .error (.refused (.unusable reference))

def lookUpAll [Entity α] (r : Registry) (ids : List Id) : Except Fault (List α) :=
  (r.lookUpAll ids).mapError .refused

def lookUpHolder (r : Registry) (holder : Option Id) : Except Fault (Option StopArea) :=
  (holder.mapM fun id => r.lookUp (.scalar id)).mapError .refused

/-! ## Areas -/

def addArea (r : Registry) (c : Closure) (area : StopArea) : Except Fault Closure := do
  let c := { c with stopAreas := c.stopAreas.insert area }.classify area
  let links ← lookUpAll r (r.connectionIdsAt area.id)
  let points ← lookUpAll r (r.entrances.row area.id)
  let paths ← lookUpAll r (r.linkedPaths.row area.id)
  pure
    { c with
      connectionLinks := c.connectionLinks.insertAll links
      accessPoints := c.accessPoints.insertAll points
      accessLinks := c.accessLinks.insertAll paths }

/-- Goes up while there is an area that was not met, in no more steps than allowed. -/
def ascend (r : Registry) : Nat → Closure → Option StopArea → Except Fault Closure
  | _, c, none => .ok c
  | 0, c, some area => if c.stopAreas.contains area.id then .ok c else .error (.endless area)
  | steps + 1, c, some area =>
    if c.stopAreas.contains area.id then .ok c
    else do
      let c ← addArea r c area
      ascend r steps c (← lookUpHolder r (r.nesting.holder? area.id))

/-! ## The walk -/

def gather [Entity α] (r : Registry) (owner : Id) (references : List Reference) (w : Walk) :
    Except Fault (Walk × List α) :=
  references.foldlM
    (fun (w, found) reference => do
      match ← resolve? α r reference with
      | some a => pure (w, found ++ [a])
      | none => pure (w.tell (.notFound (Entity.kind α) reference owner), found))
    (w, [])

def visitAll [Entity α] (r : Registry) (owner : Id)
    (visit : Walk → α → Except Fault (Walk × Bool)) (references : List Reference) (w : Walk) :
    Except Fault (Walk × Bool) :=
  references.foldlM
    (fun (w, live) reference => do
      match ← resolve? α r reference with
      | some a =>
        let (w, valid) ← visit w a
        pure (w, live || valid)
      | none => pure (w.tell (.notFound (Entity.kind α) reference owner), live))
    (w, false)

def survivors (r : Registry) (window : Window) (journey : VehicleJourney) (w : Walk) :
    Except Fault (Walk × List Timetable) := do
  let (w, timetables) ← gather (α := Timetable) r journey.id journey.timetableIds w
  if window.isBounded then
    pure (timetables.foldl
      (fun (w, kept) t =>
        let (w, left) := Walk.clipOnce window w t
        (w, kept ++ left.toList))
      (w, []))
  else pure (w, timetables.filter fun t => !t.isEmpty)

def addCompanies (r : Registry) (owner : Id) (reference : Reference) (w : Walk) :
    Except Fault Walk := do
  let (w, companies) ← gather r owner (Walk.present reference) w
  pure (w.change fun c => { c with companies := c.companies.insertAll companies })

def visitJourney (r : Registry) (window : Window) (w : Walk) (journey : VehicleJourney) :
    Except Fault (Walk × Bool) := do
  let (w, timetables) ← survivors r window journey w
  if timetables.isEmpty then pure (w, false)
  else
    let w := w.change fun c =>
      { c with
        timetables := c.timetables.insertAll timetables
        vehicleJourneys := c.vehicleJourneys.insert journey }
    pure (← addCompanies r journey.id journey.companyId w, true)

def visitPattern (r : Registry) (window : Window) (w : Walk) (pattern : JourneyPattern) :
    Except Fault (Walk × Bool) := do
  let (w, valid) ← visitAll r pattern.id (visitJourney r window) pattern.vehicleJourneyIds w
  if valid then
    pure (w.change fun c => { c with journeyPatterns := c.journeyPatterns.insert pattern }, true)
  else pure (w, false)

def addAreaOf (r : Registry) (w : Walk) (stop : StopPoint) : Except Fault Walk := do
  match ← lookUpHolder r (r.siting.holder? stop.id) with
  | none => pure (w.tell (.noStopArea stop.id))
  | some area =>
    let c ← ascend r (r.stopAreas.size + 1) w.closure (some area)
    pure (w.change fun _ => c)

def visitRoute (r : Registry) (window : Window) (w : Walk) (route : Route) :
    Except Fault (Walk × Bool) := do
  let (w, stops) ← gather (α := StopPoint) r route.id route.stopPointIds w
  if stops.isEmpty then pure (w.tell (.noStopPoints route.id), false)
  else
    let (w, valid) ← visitAll r route.id (visitPattern r window) route.journeyPatternIds w
    if valid then
      let w := w.change fun c =>
        { c with routes := c.routes.insert route, stopPoints := c.stopPoints.insertAll stops }
      pure (← stops.foldlM (addAreaOf r) w, true)
    else pure (w, false)

def addExtras (r : Registry) (line : Line) (w : Walk) : Except Fault Walk := do
  let (w, networks) ← gather (α := Network) r line.id (Walk.present line.networkId) w
  let w := w.change fun c => { c with line := some line, network := networks.head? }
  let w ← addCompanies r line.id line.companyId w
  let (w, groups) ← gather r line.id line.groupIds w
  let constraints ← lookUpAll r (r.constrainedLines.holders (.scalar line.id))
  pure (w.change fun c =>
    { c with
      groupsOfLines := c.groupsOfLines.insertAll groups
      stopAreas := c.stopAreas.insertAll constraints })

def collect (r : Registry) (line : Line) (window : Window) : Except Fault Collection := do
  let (w, valid) ← visitAll r line.id (visitRoute r window) line.routeIds {}
  let w ← if valid then addExtras r line w else pure w
  pure ⟨valid, w.closure, w.events⟩

end Strict

/-! ## A registry that answers -/

/-- Whatever the relations of a registry list is registered, so no query comes to a look-up
that fails. -/
structure Registry.AnswersQueries (r : Registry) : Prop where
  parents : ∀ id, Strict.lookUpHolder r (r.nesting.holder? id) = .ok (r.parent? id)
  areas : ∀ id, Strict.lookUpHolder r (r.siting.holder? id) = .ok (r.areaOf? id)
  connections : ∀ id, Strict.lookUpAll r (r.connectionIdsAt id) = .ok (r.connectionsAt id)
  points : ∀ id, Strict.lookUpAll r (r.entrances.row id) = .ok (r.accessPointsAt id)
  paths : ∀ id, Strict.lookUpAll r (r.linkedPaths.row id) = .ok (r.accessLinksAt id)
  constraints : ∀ line, Strict.lookUpAll r (r.constrainedLines.holders line) =
    .ok (r.constraintsOn line)

namespace Strict

open Registry

variable {r : Registry}

theorem lookUpAll_of_has {α : Type} [Entity α] {ids : List Id} (there : ∀ id ∈ ids, r.Has α id) :
    lookUpAll r ids = .ok (r.entities (α := α) ids) := by
  rw [lookUpAll, lookUpAll_eq_entities there]
  rfl

/-- What is not registered is not passed over. -/
example (id : Id) : lookUpAll (α := AccessPoint) {} [id] =
    .error (.refused (.unknown .accessPoint id)) := rfl

theorem lookUpHolder_of_has {holder : Option Id}
    (there : ∀ id, holder = some id → r.Has StopArea id) :
    lookUpHolder r holder = .ok (holder.bind r.stopAreas.find?) := by
  rw [lookUpHolder, lookUp_holder there]
  rfl

end Strict

theorem Reachable.answers {permitted : Action → Prop} {r : Registry}
    (reached : Reachable permitted r) : r.AnswersQueries := by
  have anchored := reached.anchored
  have coherent := reached.coherent
  refine ⟨fun id => ?_, fun id => ?_, fun id => ?_, fun id => ?_, fun id => ?_, fun line => ?_⟩
  · refine Strict.lookUpHolder_of_has fun parent held => ?_
    have noted := Placement.noted_of_holder? held
    exact (anchored.nesting.right parent id ((coherent.nesting.inverse _ _).mp noted)).1
  · refine Strict.lookUpHolder_of_has fun area held => ?_
    have noted := Placement.noted_of_holder? held
    exact (anchored.siting.right area id ((coherent.siting.inverse _ _).mp noted)).1
  · exact Strict.lookUpAll_of_has fun link => anchored.has_of_mem_connectionIdsAt
  · exact Strict.lookUpAll_of_has fun point listed => (anchored.entrances.right id point listed).2
  · exact Strict.lookUpAll_of_has fun link listed => (anchored.linkedPaths.right id link listed).2
  · exact Strict.lookUpAll_of_has fun holder holds => anchored.has_of_mem_holders holds

namespace Strict

open Registry

/-! ## Nothing breaks off -/

theorem foldlM_eq_ok {ε α β : Type} {items : List α} {step : β → α → Except ε β}
    {plain : β → α → β} (each : ∀ a ∈ items, ∀ b, step b a = .ok (plain b a)) (b : β) :
    items.foldlM step b = .ok (items.foldl plain b) := by
  induction items generalizing b with
  | nil => rfl
  | cons a rest ih =>
    rw [List.foldlM_cons, each a List.mem_cons_self b, List.foldl_cons]
    exact ih (fun other member => each other (List.mem_cons_of_mem a member)) (plain b a)

section
variable {r : Registry} {window : Window} {line : Line}

theorem addArea_eq_ok (answers : r.AnswersQueries) (c : Closure) (area : StopArea) :
    addArea r c area = .ok (Closure.addArea r c area) := by
  rw [addArea, answers.connections, answers.points, answers.paths]
  rfl

theorem ascend_eq_ok (answers : r.AnswersQueries) {steps : Nat} {c : Closure}
    {start : Option StopArea}
    (registered : ∀ area, start = some area → area ∈ r.stopAreas.members)
    (enough : r.unmet c.stopAreas.identities ≤ steps) :
    ascend r steps c start = .ok (Closure.ascend r steps c start) := by
  induction steps generalizing c start with
  | zero =>
    cases start with
    | none => rfl
    | some area =>
      have there := Closure.contains_of_unmet_eq_zero (registered area rfl) (Nat.le_zero.mp enough)
      rw [ascend, if_pos there]
      rfl
  | succ steps ih =>
    cases start with
    | none => rfl
    | some area =>
      rw [ascend]
      split
      · next there => rw [Closure.ascend_of_contains there]
      · next absent =>
        have fewer := Closure.unmet_addArea_lt (registered area rfl) absent
        rw [addArea_eq_ok answers, answers.parents, Closure.ascend_of_absent absent]
        exact ih (fun parent found => registered_of_parent? found) (by omega)

theorem resolve?_eq_ok {α : Type} [Entity α] {reference : Reference}
    (usable : reference.id? ≠ none) :
    resolve? α r reference = .ok ((Entity.table r).resolve? reference) := by
  cases given : reference.id? with
  | none => exact absurd given usable
  | some id => simp only [resolve?, Roster.resolve?, given, Option.bind_some]

theorem gather_eq_ok {α : Type} [Entity α] {owner : Id} {references : List Reference}
    (usable : ∀ reference ∈ references, reference.id? ≠ none) (w : Walk) :
    gather (α := α) r owner references w = .ok (Walk.gather r owner references w) := by
  refine foldlM_eq_ok (fun reference given state => ?_) _
  rw [resolve?_eq_ok (usable reference given)]
  cases (Entity.table (α := α) r).resolve? reference <;> rfl

theorem visitAll_eq_ok {α : Type} [Entity α] {owner : Id}
    {visit : Walk → α → Except Fault (Walk × Bool)} {plain : Walk → α → Walk × Bool}
    {references : List Reference} (usable : ∀ reference ∈ references, reference.id? ≠ none)
    (each : ∀ a ∈ (Entity.table r).members, ∀ w, visit w a = .ok (plain w a)) (w : Walk) :
    visitAll r owner visit references w = .ok (Walk.visitAll r owner plain references w) := by
  refine foldlM_eq_ok (fun reference given state => ?_) _
  rw [resolve?_eq_ok (usable reference given)]
  cases named : (Entity.table (α := α) r).resolve? reference with
  | none => rfl
  | some a =>
    obtain ⟨id, _, there⟩ := Option.bind_eq_some_iff.mp named
    dsimp only [bind, Except.bind]
    rw [each a (Roster.mem_of_find? there)]
    rfl

def Usable (r : Registry) (line : Line) : Prop :=
  ∀ reference ∈ r.followed line, reference.id? ≠ none

theorem addCompanies_eq_ok {owner : Id} {reference : Reference}
    (usable : ∀ given ∈ Walk.present reference, given.id? ≠ none) (w : Walk) :
    addCompanies r owner reference w = .ok (Walk.addCompanies r owner reference w) := by
  rw [addCompanies, gather_eq_ok usable]
  rfl

theorem visitJourney_eq_ok (usable : Usable r line) {journey : VehicleJourney}
    (registered : journey ∈ r.vehicleJourneys.members) (w : Walk) :
    visitJourney r window w journey = .ok (Walk.visitJourney r window w journey) := by
  have timetables : ∀ reference ∈ journey.timetableIds, reference.id? ≠ none :=
    fun reference given =>
      usable reference (followed_of_journey registered (List.mem_append_left _ given))
  have company : ∀ reference ∈ Walk.present journey.companyId, reference.id? ≠ none :=
    fun reference given =>
      usable reference (followed_of_journey registered (List.mem_append_right _ given))
  have left : survivors r window journey w = .ok (Walk.survivors r window journey w) := by
    rw [survivors, gather_eq_ok timetables, Walk.survivors]
    dsimp only [bind, Except.bind]
    split <;> rfl
  rw [visitJourney, left, Walk.visitJourney]
  dsimp only [bind, Except.bind]
  split
  · rfl
  · rw [addCompanies_eq_ok company]
    rfl

theorem visitPattern_eq_ok (usable : Usable r line) {pattern : JourneyPattern}
    (registered : pattern ∈ r.journeyPatterns.members) (w : Walk) :
    visitPattern r window w pattern = .ok (Walk.visitPattern r window w pattern) := by
  have journeys : ∀ reference ∈ pattern.vehicleJourneyIds, reference.id? ≠ none :=
    fun reference given => usable reference (followed_of_pattern registered given)
  rw [visitPattern, visitAll_eq_ok journeys fun journey there w =>
    visitJourney_eq_ok usable there w, Walk.visitPattern]
  dsimp only [bind, Except.bind]
  split <;> rfl

theorem addAreaOf_eq_ok (answers : r.AnswersQueries) (w : Walk) (stop : StopPoint) :
    addAreaOf r w stop = .ok (Walk.addAreaOf r w stop) := by
  rw [addAreaOf, answers.areas, Walk.addAreaOf]
  cases found : r.areaOf? stop.id with
  | none => rfl
  | some area =>
    have few : r.unmet w.closure.stopAreas.identities ≤ r.stopAreas.size + 1 :=
      Nat.le_succ_of_le (r.unmet_le_size _)
    have start : ∀ other, some area = some other → other ∈ r.stopAreas.members := by
      rintro _ ⟨⟩
      exact registered_of_areaOf? found
    dsimp only [bind, Except.bind]
    rw [ascend_eq_ok answers start few]
    rfl

theorem visitRoute_eq_ok (answers : r.AnswersQueries) (usable : Usable r line) {route : Route}
    (registered : route ∈ r.routes.members) (w : Walk) :
    visitRoute r window w route = .ok (Walk.visitRoute r window w route) := by
  have stops : ∀ reference ∈ route.stopPointIds, reference.id? ≠ none := fun reference given =>
    usable reference (followed_of_route registered (List.mem_append_left _ given))
  have patterns : ∀ reference ∈ route.journeyPatternIds, reference.id? ≠ none :=
    fun reference given =>
      usable reference (followed_of_route registered (List.mem_append_right _ given))
  rw [visitRoute, gather_eq_ok stops, Walk.visitRoute]
  dsimp only [bind, Except.bind]
  split
  · rfl
  · rw [visitAll_eq_ok patterns fun pattern there w => visitPattern_eq_ok usable there w]
    dsimp only
    split
    · rw [foldlM_eq_ok fun stop _ w => addAreaOf_eq_ok answers w stop]
      rfl
    · rfl

theorem addExtras_eq_ok (answers : r.AnswersQueries) (usable : Usable r line) (w : Walk) :
    addExtras r line w = .ok (Walk.addExtras r line w) := by
  have own : ∀ reference, reference ∈ Walk.present line.networkId ∨
      reference ∈ Walk.present line.companyId ∨ reference ∈ line.groupIds →
      reference.id? ≠ none := by
    intro reference given
    refine usable reference ?_
    simp only [followed, List.mem_append]
    tauto
  have network := fun reference given => own reference (Or.inl given)
  have company := fun reference given => own reference (Or.inr (Or.inl given))
  have groups := fun reference given => own reference (Or.inr (Or.inr given))
  rw [addExtras, gather_eq_ok network]
  dsimp only [bind, Except.bind]
  rw [addCompanies_eq_ok company]
  dsimp only
  rw [gather_eq_ok groups, answers.constraints]
  rfl

theorem collect_eq_ok (answers : r.AnswersQueries) (usable : Usable r line) :
    collect r line window = .ok (r.collect line window) := by
  have routes : ∀ reference ∈ line.routeIds, reference.id? ≠ none := by
    intro reference given
    refine usable reference ?_
    simp only [followed, List.mem_append]
    tauto
  rw [collect, visitAll_eq_ok routes fun route there w => visitRoute_eq_ok answers usable there w,
    Registry.collect]
  dsimp only [bind, Except.bind]
  split
  · rw [addExtras_eq_ok answers usable]
    rfl
  · rfl

end

end Strict
end LineClosure
