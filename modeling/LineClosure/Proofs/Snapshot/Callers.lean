import LineClosure.Proofs.Snapshot.Contents
import LineClosure.Proofs.Snapshot.RowOrder

/-! The routes of stop points. A stop point keeps the route that its row names. If it names none,
then the first route of the document that calls at the stop point claims it, while the lines are
read; later routes find it taken. -/

namespace LineClosure

open Keyed

structure Claim where
  routeId : Id
  stop : Reference

theorem Value.isNull_iff {v : Value} : v.isNull = true ↔ v = .null := by
  constructor
  · intro null
    unfold isNull at null
    split at null
    · rfl
    · cases null
  · rintro rfl
    rfl

namespace StopPoint

def isNamed (stop : StopPoint) (reference : Reference) : Bool :=
  reference.id?.any fun id => identity stop = canonical id

theorem isNamed_iff_of_text {stop : StopPoint} {x : Text} (text : stop.id = .text x)
    (reference : Reference) : stop.isNamed reference = true ↔ .scalar stop.id = reference := by
  cases reference with
  | list items | object fields => exact iff_of_false Bool.false_ne_true (by rintro ⟨⟩)
  | scalar id =>
    have same : stop.isNamed (.scalar id) = decide (identity stop = canonical id) := rfl
    have named : identity stop = canonical (.text x) := congrArg canonical text
    rw [same, decide_eq_true_eq, named, canonical_text, eq_comm, canonical_eq_text_iff, text,
      Value.scalar.injEq, eq_comm]

def claimed (stop : StopPoint) (claim : Claim) : StopPoint :=
  if stop.isNamed claim.stop then
    { stop with routeId := if stop.routeId.isNull then .scalar claim.routeId else stop.routeId }
  else stop

def afterClaims (claims : List Claim) (stop : StopPoint) : StopPoint := claims.foldl claimed stop

theorem afterClaims_append (claims more : List Claim) (stop : StopPoint) :
    stop.afterClaims (claims ++ more) = (stop.afterClaims claims).afterClaims more :=
  List.foldl_append

theorem claimed_of_taken {stop : StopPoint} (taken : stop.routeId.isNull = false) (claim : Claim) :
    stop.claimed claim = stop := by
  rw [claimed, taken]
  exact ite_self stop

theorem afterClaims_of_taken {stop : StopPoint} (taken : stop.routeId.isNull = false)
    (claims : List Claim) : stop.afterClaims claims = stop := by
  induction claims with
  | nil => rfl
  | cons claim rest ih =>
    have still : stop.claimed claim = stop := claimed_of_taken taken claim
    exact (congrArg (afterClaims rest) still).trans ih

/-- The first claim decides. -/
theorem afterClaims_of_free {stop : StopPoint} (free : stop.routeId.isNull = true)
    {claims : List Claim} (named : ∀ claim ∈ claims, claim.routeId ≠ .null) :
    stop.afterClaims claims =
      { stop with
        routeId := ((claims.find? fun claim => stop.isNamed claim.stop).map
          fun claim => .scalar claim.routeId).getD .null } := by
  induction claims with
  | nil =>
    have null : .null = stop.routeId := (Value.isNull_iff.mp free).symm
    rw [List.find?_nil, Option.map_none, Option.getD_none, null]
    rfl
  | cons claim rest ih =>
    have step : stop.afterClaims (claim :: rest) = (stop.claimed claim).afterClaims rest := rfl
    rw [step, List.find?_cons]
    cases calls : stop.isNamed claim.stop with
    | true =>
      have taken : stop.claimed claim = { stop with routeId := .scalar claim.routeId } := by
        rw [claimed, calls, free]
        rfl
      have settled : (Value.scalar claim.routeId).isNull = false :=
        Bool.eq_false_iff.mpr fun null =>
          named claim List.mem_cons_self (Value.scalar.inj (Value.isNull_iff.mp null))
      rw [taken]
      exact afterClaims_of_taken settled rest
    | false =>
      have passed : stop.claimed claim = stop := by
        rw [claimed, calls]
        rfl
      rw [passed]
      exact ih fun other later => named other (List.mem_cons_of_mem claim later)

end StopPoint

namespace Row

def claims (route : Row) : List Claim :=
  (route.listed "stop_points").map fun stop => ⟨route.ownId, stop⟩

def firstCaller (document : Row) (id : Id) : Reference :=
  (((document.ofKind .route).find? fun route : Row => .scalar id ∈ route.listed "stop_points").map
    fun route => .scalar route.ownId).getD .null

/-- The route of the stop point in a row: the one that the row names, or else the first one that
calls there. -/
def stopRoute (document row : Row) : Reference :=
  let declared := row.optional "route"
  if declared.isNull then document.firstCaller row.ownId else declared

theorem find?_claims (routes : List Row) (stop : StopPoint) :
    (((routes.flatMap claims).find? fun claim => stop.isNamed claim.stop).map
        fun claim => Value.scalar claim.routeId) =
      (routes.find? fun route : Row => (route.listed "stop_points").any stop.isNamed).map
        fun route => Value.scalar route.ownId := by
  induction routes with
  | nil => rfl
  | cons route rest ih =>
    have own : (route.claims.find? fun claim => stop.isNamed claim.stop) =
        ((route.listed "stop_points").find? stop.isNamed).map fun stop => ⟨route.ownId, stop⟩ :=
      List.find?_map
    have calls : (route.listed "stop_points").any stop.isNamed =
        ((route.listed "stop_points").find? stop.isNamed).isSome := List.isSome_find?.symm
    rw [List.flatMap_cons, List.find?_append, own, List.find?_cons, calls]
    cases (route.listed "stop_points").find? stop.isNamed with
    | some reference => rfl
    | none => exact ih

theorem ownId_of_route {row : Row} {lineId : Id} {route : Route}
    (read : row.route lineId = .ok route) : row.ownId = route.id := by
  obtain ⟨_, has, rest⟩ := except_bind_eq_ok_iff.mp read
  obtain ⟨_, _, rest⟩ := except_bind_eq_ok_iff.mp rest
  obtain ⟨_, named, rest⟩ := except_bind_eq_ok_iff.mp rest
  cases rest
  exact ownId_of_required (identifier_eq_ok_iff.mp named ▸ has)

end Row

namespace Load

variable {α β γ : Type} {s t : Loading}

def SameStops (s t : Loading) : Prop := t.registry.stopPoints = s.registry.stopPoints

theorem sameStops_refl (s : Loading) : SameStops s s := rfl

theorem SameStops.trans {u : Loading} (first : SameStops s t) (second : SameStops t u) :
    SameStops s u :=
  Eq.trans second first

abbrev Spares (x : Load α) : Prop := Moves SameStops (fun _ _ => True) x

/-- A load that does nothing to the stop points but lay some claims, in this order. -/
def Lays (x : Load α) (claims : List Claim) : Prop :=
  ∀ s a t, x s = .ok a t →
    t.registry.stopPoints.members = s.registry.stopPoints.members.map (StopPoint.afterClaims claims)

theorem spares_pure (a : α) : Spares (pure a) :=
  (moves_pure sameStops_refl).mono fun _ _ _ => trivial

theorem spares_mapM {rows : List γ} {enter : γ → Load α} (each : ∀ row, Spares (enter row)) :
    Spares (rows.mapM enter) :=
  (Moves.mapM sameStops_refl SameStops.trans (fun _ _ _ _ _ => trivial) fun row _ => each row).mono
    fun _ _ _ => trivial

theorem spares_table {document : Row} {name : String} {enter : Row → Load Unit}
    (each : ∀ row, Spares (enter row)) : Spares (table document name enter) :=
  Moves.table sameStops_refl SameStops.trans each

theorem Spares.lays {x : Load α} (spares : Spares x) : Lays x [] := by
  intro s a t done
  obtain ⟨same, _⟩ := spares s a t done
  rw [SameStops] at same
  rw [same]
  exact (List.map_id _).symm

theorem Lays.bind {x : Load α} {rest : α → Load β} {claims more : List Claim}
    (first : Lays x claims) (second : ∀ a, Lays (rest a) more) :
    Lays (x >>= rest) (claims ++ more) := by
  intro s b u done
  obtain ⟨a, t, before, after⟩ := bind_eq_ok_iff.mp done
  rw [second a t b u after, first s a t before, List.map_map]
  refine List.map_congr_left fun stop _ => ?_
  exact (stop.afterClaims_append claims more).symm

theorem Lays.then_spares {x : Load α} {rest : α → Load β} {claims : List Claim}
    (lays : Lays x claims) (after : ∀ a, Spares (rest a)) : Lays (x >>= rest) claims :=
  List.append_nil claims ▸ lays.bind fun a => (after a).lays

theorem Lays.after_spares {x : Load α} {rest : α → Load β} {claims : List Claim}
    (before : Spares x) (lays : ∀ a, Lays (rest a) claims) : Lays (x >>= rest) claims :=
  before.lays.bind lays

theorem Lays.after_check {x : Except Failure α} {rest : α → Load β} {claims : List Claim}
    (each : ∀ a, x = .ok a → Lays (rest a) claims) : Lays (check x >>= rest) claims := by
  intro s b u done
  obtain ⟨a, found, after⟩ := check_bind_eq_ok_iff.mp done
  exact each a found s b u after

theorem lays_forM {items : List γ} {enter : γ → Load PUnit} {claims : γ → List Claim}
    (each : ∀ item, Lays (enter item) (claims item)) :
    Lays (items.forM enter) (items.flatMap claims) := by
  induction items with
  | nil => exact (spares_pure PUnit.unit).lays
  | cons item rest ih => exact (each item).bind fun _ => ih

theorem lays_mapM {items : List γ} {enter : γ → Load α} {claims : γ → List Claim}
    (each : ∀ item, Lays (enter item) (claims item)) :
    Lays (items.mapM enter) (items.flatMap claims) := by
  induction items with
  | nil =>
    rw [List.mapM_nil]
    exact (spares_pure []).lays
  | cons item rest ih =>
    rw [List.mapM_cons]
    exact (each item).bind fun a => ih.then_spares fun others => spares_pure (a :: others)

/-! ## What lays no claims -/

theorem spares_apply {edit : Edit α}
    (spares : ∀ r a u, edit r = .ok a u → u.stopPoints = r.stopPoints) : Spares (apply edit) := by
  intro s a t done
  obtain ⟨r, edited, rfl⟩ := apply_eq_ok_iff.mp done
  exact ⟨spares _ _ _ edited, trivial⟩

theorem spares_enter (kind : Kind) (apart : kind ≠ .stopPoint) (a : kind.Entry) :
    Spares (apply (Edit.enter a)) := by
  refine spares_apply fun r _ u done => ?_
  obtain ⟨_, rfl⟩ := Edit.enter_eq_ok_iff.mp done
  exact @Kind.table_withTable_of_ne kind .stopPoint apart.symm _ _

theorem spares_amend (kind : Kind) (apart : kind ≠ .stopPoint) (id : Id)
    (change : kind.Entry → kind.Entry) (keeps : ∀ a, key (change a) = key a) :
    Spares (modify fun s => { s with
      registry :=
        Entity.withTable s.registry ((Entity.table s.registry).amend id change keeps) }) := by
  intro s _ t done
  cases done
  exact ⟨@Kind.table_withTable_of_ne kind .stopPoint apart.symm _ _, trivial⟩

theorem spares_join (kind : Kind) (apart : kind ≠ .stopPoint) {area : Reference}
    {stamp : kind.Entry → Nat} {a : kind.Entry} {attach : StopArea → Registry → Registry}
    (beside : ∀ holder r, (attach holder r).stopPoints = r.stopPoints) :
    Spares (apply (do
      let area ← Edit.require StopArea area
      Edit.adopt stamp a
      modify (attach area))) := by
  refine spares_apply fun r _ u done => ?_
  rw [Edit.join_run] at done
  split at done
  · cases done
  · split at done
    · cases done
    · next v adopted =>
      cases done
      rw [beside]
      rw [Edit.adopt_run] at adopted
      split at adopted
      · cases adopted
        exact @Kind.table_withTable_of_ne kind .stopPoint apart.symm _ _
      · split at adopted
        · cases adopted
        · cases adopted
          rfl

theorem spares_joinConnection (area : Reference) (link : ConnectionLink) (side : Edit.LinkEnd) :
    Spares (apply (Edit.joinConnection area link side)) := by
  rw [Edit.joinConnection_eq]
  refine spares_join .connectionLink (by decide) fun holder r => ?_
  cases side <;> rfl

theorem spares_joinAccessLink (area : Reference) (link : AccessLink) :
    Spares (apply (Edit.joinAccessLink area link)) :=
  spares_join .accessLink (by decide) fun _ _ => rfl

theorem spares_joinAccessPoint (area : Reference) (point : AccessPoint) :
    Spares (apply (Edit.joinAccessPoint area point)) :=
  spares_join .accessPoint (by decide) fun _ _ => rfl

theorem spares_attach {kind : Kind} {id : Id} {area : Reference} {edit : Edit Unit}
    (spares : Spares (apply edit)) : Spares (attach kind id area edit) := by
  refine Moves.after_check fun areaId _ => ?_
  intro s _ t done
  rw [get_bind] at done
  split at done
  · exact spares s _ t done
  · cases done
    exact ⟨rfl, trivial⟩

/-! ## Rows -/

theorem spares_enterConnectionLink (row : Row) : Spares (enterConnectionLink row) := by
  refine Moves.after_check fun link _ => ?_
  refine (spares_enter .connectionLink (by decide) link).seq SameStops.trans fun _ => ?_
  refine (spares_attach (spares_joinConnection _ _ _)).seq SameStops.trans fun _ => ?_
  exact spares_attach (spares_joinConnection _ _ _)

theorem spares_enterAccessPoint (row : Row) : Spares (enterAccessPoint row) := by
  refine Moves.after_check fun point _ => ?_
  refine (spares_enter .accessPoint (by decide) point).seq SameStops.trans fun _ => ?_
  refine Moves.after_check fun areaId _ => ?_
  intro s _ t done
  rw [get_bind] at done
  split at done
  · exact spares_attach (spares_joinAccessPoint _ point) s _ t done
  · exact spares_pure () s _ t done

theorem spares_enterAccessLink (row : Row) : Spares (enterAccessLink row) := by
  refine Moves.after_check fun link _ => ?_
  refine (spares_enter .accessLink (by decide) link).seq SameStops.trans fun _ => ?_
  exact spares_attach (spares_joinAccessLink _ link)

theorem spares_enterTimetable (row : Row) :
    Spares (check row.timetable >>= fun timetable => apply (Edit.enter timetable)) :=
  Moves.after_check fun timetable _ => spares_enter .timetable (by decide) timetable

theorem spares_enterVehicleJourney (patternId : Id) (row : Row) :
    Spares (enterVehicleJourney patternId row) := by
  refine Moves.after_check fun journey _ => ?_
  exact (spares_enter .vehicleJourney (by decide) journey).seq SameStops.trans fun _ =>
    spares_pure _

theorem spares_enterJourneyPattern (routeId : Id) (row : Row) :
    Spares (enterJourneyPattern routeId row) := by
  refine Moves.after_check fun pattern _ => ?_
  refine (spares_enter .journeyPattern (by decide) pattern).seq SameStops.trans fun _ => ?_
  refine Moves.after_check fun rows _ => ?_
  refine (spares_mapM (spares_enterVehicleJourney pattern.id)).seq SameStops.trans fun ids => ?_
  exact (spares_amend .journeyPattern (by decide) pattern.id _ _).seq SameStops.trans fun _ =>
    spares_pure _

theorem lays_claimStop (routeId : Id) (reference : Reference) :
    Lays (claimStop routeId reference) [⟨routeId, reference⟩] := by
  refine Lays.after_check fun stopId named => ?_
  obtain rfl := Row.identifier_eq_ok_iff.mp named
  intro s _ t done
  cases done
  refine List.map_congr_left fun stop _ => ?_
  have once : stop.afterClaims [⟨routeId, .scalar stopId⟩] =
      stop.claimed ⟨routeId, .scalar stopId⟩ := rfl
  have called : stop.isNamed (.scalar stopId) = decide (identity stop = canonical stopId) := rfl
  rw [once, StopPoint.claimed, called]
  simp only [decide_eq_true_eq]

theorem lays_enterRoute (lineId : Id) (row : Row) : Lays (enterRoute lineId row) row.claims := by
  refine Lays.after_check fun route read => ?_
  have claims : row.claims = route.stopPointIds.flatMap fun stop => [⟨route.id, stop⟩] := by
    rw [Row.claims, Row.stopPointIds_of_route read, Row.ownId_of_route read]
    exact List.map_eq_flatMap
  rw [claims]
  refine Lays.after_spares (spares_enter .route (by decide) route) fun _ => ?_
  refine (lays_forM (lays_claimStop route.id)).then_spares fun _ => ?_
  refine Moves.after_check fun rows _ => ?_
  refine (spares_mapM (spares_enterJourneyPattern route.id)).seq SameStops.trans fun ids => ?_
  exact (spares_amend .route (by decide) route.id _ _).seq SameStops.trans fun _ => spares_pure _

theorem lays_enterLine (row : Row) :
    Lays (enterLine row) ((row.listed "routes").flatMap Row.claims) := by
  refine Lays.after_check fun line read => ?_
  refine Lays.after_spares (spares_enter .line (by decide) line) fun _ => ?_
  refine Lays.after_check fun rows has => ?_
  rw [Row.listed_of_items has]
  exact (lays_mapM (lays_enterRoute line.id)).then_spares fun ids =>
    spares_amend .line (by decide) line.id _ _

theorem lays_lines (document : Row) :
    Lays (table document "lines" enterLine) ((document.ofKind .route).flatMap Row.claims) := by
  refine Lays.after_check fun rows has => ?_
  have routes : (document.ofKind .route).flatMap Row.claims =
      rows.flatMap fun row : Row => (row.listed "routes").flatMap Row.claims := by
    rw [Row.ofKind, Row.owned, Row.routeRows, Row.listed_of_items has]
    simp only [List.flatMap_map, List.flatMap_assoc, Row.nested]
  rw [routes]
  exact lays_forM lays_enterLine

theorem lays_services (document : Row) :
    Lays (services document) ((document.ofKind .route).flatMap Row.claims) := by
  refine Lays.after_spares (spares_table spares_enterConnectionLink) fun _ => ?_
  refine Lays.after_spares (spares_table spares_enterAccessPoint) fun _ => ?_
  refine Lays.after_spares (spares_table spares_enterAccessLink) fun _ => ?_
  refine Lays.after_spares (spares_table spares_enterTimetable) fun _ => ?_
  exact lays_lines document

theorem afterClaims_routes {document : Row} (routesText : Textual (document.ofKind .route))
    {stop : StopPoint} {x : Text} (text : stop.id = .text x) :
    stop.afterClaims ((document.ofKind .route).flatMap Row.claims) =
      { stop with
        routeId := if stop.routeId.isNull then document.firstCaller stop.id else stop.routeId } := by
  cases free : stop.routeId.isNull with
  | false => exact StopPoint.afterClaims_of_taken free _
  | true =>
    have named : ∀ claim ∈ (document.ofKind .route).flatMap Row.claims, claim.routeId ≠ .null := by
      intro claim laid
      obtain ⟨route, given, listed⟩ := List.mem_flatMap.mp laid
      obtain ⟨reference, _, rfl⟩ := List.mem_map.mp listed
      obtain ⟨y, own⟩ := routesText route given
      rw [Row.ownId, own]
      rintro ⟨⟩
    have first := Row.find?_claims (document.ofKind .route) stop
    have calls : (fun route : Row => (route.listed "stop_points").any stop.isNamed) =
        fun route => decide (.scalar stop.id ∈ route.listed "stop_points") := by
      funext route
      rw [Bool.eq_iff_iff, List.any_eq_true, decide_eq_true_eq]
      simp only [StopPoint.isNamed_iff_of_text text, exists_eq_right']
    rw [StopPoint.afterClaims_of_free free named, if_pos rfl, first, calls]
    rfl

theorem afterClaims_of_row {document row : Row} {stop : StopPoint} {x : Text}
    (routesText : Textual (document.ofKind .route)) (read : row.stopPoint = .ok stop)
    (text : row.optional "id" = .scalar (.text x)) :
    stop.afterClaims ((document.ofKind .route).flatMap Row.claims) =
      { stop with routeId := document.stopRoute row } := by
  have has := Row.stopPoint_spec read
  rw [Row.optional_of_required has] at text
  have declared : stop.routeId = row.optional "route" := by
    obtain ⟨_, _, rest⟩ := except_bind_eq_ok_iff.mp read
    obtain ⟨_, _, rest⟩ := except_bind_eq_ok_iff.mp rest
    cases rest
    rfl
  rw [afterClaims_routes routesText (Value.scalar.inj text), Row.stopRoute,
    Row.ownId_of_required has, declared]

theorem stopPoints_of_course {document : Row} {areas stops : List Row}
    {start placed served loading : Loading}
    (course : Course document areas stops start placed served loading) (stopsText : Textual stops)
    (routesText : Textual (document.ofKind .route)) :
    loading.registry.stopPoints.members.map some = stops.map fun row => row.stopPoint.toOption.map
      fun stop => { stop with routeId := document.stopRoute row } := by
  let claims := (document.ofKind .route).flatMap Row.claims
  have each : ∀ row ∈ stops, ((row.stopPoint.toOption.map (StopPoint.afterClaims claims)).map some) =
      some (row.stopPoint.toOption.map fun stop =>
        { stop with routeId := document.stopRoute row }) := by
    intro row given
    obtain ⟨stop, read⟩ := course.places.read row given
    obtain ⟨x, text⟩ := stopsText row given
    have settled := afterClaims_of_row routesText read text
    rw [read]
    exact congrArg (fun stop => some (some stop)) settled
  rw [course.stopPoints, lays_services document placed () served course.services,
    course.places.stopPoints, List.map_filterMap, List.map_filterMap, List.filterMap_congr each,
    List.filterMap_eq_map']

theorem claimStop_of_missing {s : Loading} {stopId : Id}
    (missing : s.registry.stopPoints.contains stopId = false) (routeId : Id) :
    claimStop routeId (.scalar stopId) s = .ok () s := by
  have same := Roster.amend_of_missing missing
    (fun p => { p with routeId := if p.routeId.isNull then .scalar routeId else p.routeId })
    fun _ => rfl
  have run : claimStop routeId (.scalar stopId) s = .ok () { s with
      registry.stopPoints := s.registry.stopPoints.amend stopId
        (fun p => { p with routeId := if p.routeId.isNull then .scalar routeId else p.routeId })
        fun _ => rfl } := rfl
  rw [run, same]

/-- After a load every stop point has the route that its row names; if the row names none, it has
the first route that calls there, in the order of the lines and of their routes, or none if none
calls. Reading the lines does nothing else to the stop points, and a route that calls at what is
no stop point does nothing to them at all. -/
theorem sections_routes {document : Row} (textual : ∀ kind, Textual (document.ofKind kind)) :
    (∀ loading, sections document {} = .ok () loading →
      loading.registry.stopPoints.members.map some =
        (document.listed "stop_points").map fun row : Row => row.stopPoint.toOption.map fun stop =>
          { stop with routeId := document.stopRoute row }) ∧
    (∀ s t, (∀ stop ∈ s.registry.stopPoints.members, ∃ x, stop.id = .text x) →
      table document "lines" enterLine s = .ok () t →
      t.registry.stopPoints.members = s.registry.stopPoints.members.map fun stop =>
        { stop with
          routeId :=
            if stop.routeId.isNull then document.firstCaller stop.id else stop.routeId }) ∧
    ∀ routeId stopId s, s.registry.stopPoints.contains stopId = false →
      claimStop routeId (.scalar stopId) s = .ok () s := by
  refine ⟨fun loading loaded => ?_, fun s t stopsText done => ?_, fun _ _ _ missing => ?_⟩
  · have areasText := textual .stopArea
    have stopsText := textual .stopPoint
    rw [Row.ofKind_of_plain document _ id] at areasText stopsText
    obtain ⟨start, placed, served, course⟩ := course_of_sections
      (@items_of_sections _ _ loaded .stopArea id)
      (@items_of_sections _ _ loaded .stopPoint id) areasText stopsText loaded
    exact stopPoints_of_course course stopsText (textual .route)
  · rw [lays_lines document s () t done]
    refine List.map_congr_left fun stop member => ?_
    obtain ⟨x, text⟩ := stopsText stop member
    exact afterClaims_routes (textual .route) text
  · exact claimStop_of_missing missing _

/-- Three stop points, of which the second one names a route. The first line calls there and
somewhere else, the second line calls at the first stop point with both of its routes. -/
def landings : Row :=
  let route (id : String) (stops : List String) : Row :=
    .object [("id", .text id), ("stop_points", .list (stops.map .text))]
  .object [
    ("stop_points", .list [
      .object [("id", .text "S1")],
      .object [("id", .text "S2"), ("route", .text "R9")],
      .object [("id", .text "S3"), ("route", .null)]]),
    ("lines", .list [
      .object [("id", .text "L1"), ("routes", .list [route "R1" ["S0", "S2"]])],
      .object [("id", .text "L2"),
        ("routes", .list [route "R2" ["S2", "S1"], route "R3" ["S1"]])]])]

theorem sections_routes_landings :
    (∀ kind, Textual (landings.ofKind kind)) ∧
    ∃ loading, sections landings {} = .ok () loading ∧
      loading.registry.stopPoints.members.map some =
        [some { id := .text "S1", routeId := .text "R2" },
          some { id := .text "S2", routeId := .text "R9" }, some { id := .text "S3" }] := by
  have textual : ∀ kind, Textual (landings.ofKind kind) := by
    intro kind row given
    cases kind with
    | line =>
      rcases List.mem_pair.mp given with rfl | rfl <;> exact ⟨_, rfl⟩
    | route | stopPoint =>
      rcases List.mem_cons.mp given with rfl | later
      · exact ⟨_, rfl⟩
      · rcases List.mem_pair.mp later with rfl | rfl <;> exact ⟨_, rfl⟩
    | _ => cases given
  have loaded : sections landings {} = .ok () (ended landings).1 :=
    sections_of_ended (by decide +kernel)
  exact ⟨textual, _, loaded, (sections_routes textual).1 _ loaded⟩

end Load
end LineClosure
