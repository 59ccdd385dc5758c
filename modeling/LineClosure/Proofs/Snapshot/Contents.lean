import LineClosure.Proofs.Snapshot.Rows

/-! What a load makes of its document. Every row, nested rows included, becomes one record, and
the tables hold these records in the order of the rows. -/

namespace LineClosure

open Keyed

namespace Row

variable {row : Row}

theorem idsIn?_of_items {name : String} {rows : List Row} (has : row.items name = .ok rows) :
    row.idsIn? name = some (rows.map fun inner => .scalar inner.ownId) := by
  unfold idsIn?
  rw [has]
  rfl

theorem items_of_idsIn? {name : String} {ids : List Reference} (read : row.idsIn? name = some ids) :
    row.items name = .ok (row.listed name) := by
  obtain ⟨rows, has, _⟩ := Option.map_eq_some_iff.mp read
  have items := toOption_eq_some_iff.mp has
  rw [items, listed_of_items items]

/-- The record of a row with others nested in it is the one read of the row alone, with their
list. -/
theorem whole_of_bare {α : Type} {field : String} {x : Except Failure α} {bare : α}
    {rows : List Row} (change : List Reference → α → α) (read : x = .ok bare)
    (has : row.items field = .ok rows) :
    (do
      let bare ← x.toOption
      return change (← row.idsIn? field) bare : Option α) =
      some (change (rows.map fun inner : Row => .scalar inner.ownId) bare) := by
  rw [read, idsIn?_of_items has]
  rfl

theorem bare_of_whole {α : Type} {field : String} {x : Except Failure α} {whole : α}
    (change : List Reference → α → α)
    (read : (do
      let bare ← x.toOption
      return change (← row.idsIn? field) bare : Option α) = some whole) :
    ∃ bare ids, x = .ok bare ∧ row.idsIn? field = some ids ∧ whole = change ids bare := by
  obtain ⟨bare, found, rest⟩ := Option.bind_eq_some_iff.mp read
  obtain ⟨ids, listed, same⟩ := Option.bind_eq_some_iff.mp rest
  exact ⟨bare, ids, toOption_eq_some_iff.mp found, listed, (Option.some.inj same).symm⟩

theorem stopPointIds_of_route {lineId : Id} {route : Route} (read : row.route lineId = .ok route) :
    row.listed "stop_points" = route.stopPointIds := by
  unfold Row.route at read
  obtain ⟨_, _, rest⟩ := except_bind_eq_ok_iff.mp read
  obtain ⟨ids, has, rest⟩ := except_bind_eq_ok_iff.mp rest
  obtain ⟨_, _, rest⟩ := except_bind_eq_ok_iff.mp rest
  cases rest
  exact listed_of_items has

end Row

namespace Load

variable {α β : Type} {s t : Loading}

/-- If a load ends, it has entered the records of the rows, and `Q` is true of its result. -/
def Brings (x : Load α) (rows : Rows) (Q : α → Prop) : Prop :=
  ∀ s a t, x s = .ok a t → s.Gains t rows ∧ Q a

section
variable {rows more : Rows} {Q : α → Prop} {Q' : β → Prop}

theorem brings_pure (a : α) : Brings (pure a : Load α) .none (· = a) := by
  intro s b t done
  cases done
  exact ⟨s.gains_refl, rfl⟩

theorem Brings.mono {x : Load α} {P : α → Prop} (brings : Brings x rows P)
    (weaker : ∀ a, P a → Q a) : Brings x rows Q := fun s a t done =>
  (brings s a t done).imp_right (weaker a)

theorem brings_skip : Brings (pure () : Load Unit) .none fun _ => True :=
  (brings_pure ()).mono fun _ _ => trivial

theorem Brings.bind {x : Load α} {rest : α → Load β} (first : Brings x rows Q)
    (second : ∀ a, Q a → Brings (rest a) more Q') : Brings (x >>= rest) (rows.append more) Q' := by
  intro s b u done
  obtain ⟨a, t, before, after⟩ := bind_eq_ok_iff.mp done
  obtain ⟨gains, fair⟩ := first s a t before
  obtain ⟨further, result⟩ := second a fair t b u after
  exact ⟨gains.trans further, result⟩

theorem Brings.then_none {x : Load α} {rest : α → Load β} (first : Brings x rows Q)
    (second : ∀ a, Q a → Brings (rest a) .none Q') : Brings (x >>= rest) rows Q' :=
  Rows.append_none rows ▸ first.bind second

theorem Brings.after_check {x : Except Failure α} {rest : α → Load β}
    (each : ∀ a, x = .ok a → Brings (rest a) rows Q') : Brings (check x >>= rest) rows Q' := by
  intro s b u done
  obtain ⟨a, found, after⟩ := check_bind_eq_ok_iff.mp done
  exact each a found s b u after

theorem brings_forM {γ : Type} (items : List γ) {enter : γ → Load PUnit} {part : γ → Rows}
    {P : γ → Prop} (each : ∀ item, Brings (enter item) (part item) fun _ => P item) :
    Brings (items.forM enter) (.gather items part) fun _ => ∀ item ∈ items, P item := by
  induction items with
  | nil => exact (brings_pure PUnit.unit).mono fun _ _ _ given => absurd given List.not_mem_nil
  | cons item rest ih =>
    have whole : Brings (enter item >>= fun _ => rest.forM enter)
        ((part item).append (.gather rest part)) fun _ => P item ∧ ∀ other ∈ rest, P other :=
      (each item).bind fun _ here => ih.mono fun _ later => ⟨here, later⟩
    exact whole.mono fun _ both => List.forall_mem_cons.mpr both

theorem brings_forM_none {γ : Type} (items : List γ) {enter : γ → Load PUnit} {P : γ → Prop}
    (each : ∀ item, Brings (enter item) .none fun _ => P item) :
    Brings (items.forM enter) .none fun _ => ∀ item ∈ items, P item :=
  Rows.gather_none items ▸ brings_forM items each

theorem brings_mapM {γ : Type} {items : List γ} {enter : γ → Load α} {part : γ → Rows} {f : γ → α}
    (each : ∀ item, Brings (enter item) (part item) (· = f item)) :
    Brings (items.mapM enter) (.gather items part) (· = items.map f) := by
  induction items with
  | nil =>
    rw [List.mapM_nil]
    exact brings_pure []
  | cons item rest ih =>
    rw [List.mapM_cons]
    intro s found u done
    obtain ⟨a, t, before, after⟩ := bind_eq_ok_iff.mp done
    obtain ⟨others, v, later, last⟩ := bind_eq_ok_iff.mp after
    obtain ⟨gains, rfl⟩ := each item s a t before
    obtain ⟨further, rfl⟩ := ih t others v later
    cases last
    exact ⟨gains.trans further, rfl⟩

end

/-! ## What enters nothing -/

theorem brings_tell (e : Event) : Brings (tell e) .none fun _ => True := by
  intro s a t done
  cases done
  exact ⟨Loading.gains_of_sameTables fun _ => rfl, trivial⟩

theorem brings_contain {edit : Edit Unit} {holder item : Reference}
    (relates : ∀ r s, edit r = .ok () s → r.SameTables s) (refuses : edit.Refuses holder item) :
    Brings (contain edit holder item) .none fun _ => True := by
  intro s a t done
  refine ⟨?_, trivial⟩
  rcases contain_cases refuses done with ⟨r, edited, rfl⟩ | ⟨_, _, rfl⟩
  · exact Loading.gains_of_sameTables (relates _ _ edited)
  · exact Loading.gains_of_sameTables fun _ => rfl

theorem brings_claimStop (routeId : Id) (reference : Reference) :
    Brings (claimStop routeId reference) .none fun _ => ∃ id, reference = .scalar id := by
  refine Brings.after_check fun stopId named => ?_
  intro s _ t done
  cases done
  refine ⟨Loading.gains_none (fun kind apart => ?_) ?_, stopId, Row.identifier_eq_ok_iff.mp named⟩
  · exact @Kind.table_withTable_of_ne .stopPoint kind apart _ _
  · apply Roster.ids_amend
    exact fun _ => rfl

theorem sameTables_join (kind : Kind) {area : Reference} {stamp : kind.Entry → Nat}
    {a : kind.Entry} {attach : StopArea → Registry → Registry} {r u : Registry}
    (relates : ∀ holder (r : Registry), r.SameTables (attach holder r))
    (there : (Entity.table (α := kind.Entry) r).contains (key a) = true)
    (done : (do
      let area ← Edit.require StopArea area
      Edit.adopt stamp a
      modify (attach area) : Edit Unit) r = .ok () u) : r.SameTables u := by
  rw [Edit.join_run] at done
  split at done
  · cases done
  · next holder _ =>
    split at done
    · cases done
    · next v adopted =>
      cases done
      rw [Edit.adopt_run] at adopted
      split at adopted
      · next absent =>
        rw [Roster.contains_eq_isSome, absent] at there
        cases there
      · split at adopted
        · cases adopted
        · cases adopted
          exact relates holder r

theorem sameTables_joinConnection {area : Reference} {link : ConnectionLink} {side : Edit.LinkEnd}
    {r u : Registry} (there : r.connectionLinks.contains link.id = true)
    (done : Edit.joinConnection area link side r = .ok () u) : r.SameTables u := by
  rw [Edit.joinConnection_eq] at done
  refine sameTables_join .connectionLink (fun holder r kind => ?_) there done
  cases side <;> cases kind <;> rfl

theorem sameTables_joinAccessLink {area : Reference} {link : AccessLink} {r u : Registry}
    (there : r.accessLinks.contains link.id = true)
    (done : Edit.joinAccessLink area link r = .ok () u) : r.SameTables u :=
  sameTables_join .accessLink (fun holder r kind => by cases kind <;> rfl) there done

theorem sameTables_joinAccessPoint {area : Reference} {point : AccessPoint} {r u : Registry}
    (there : r.accessPoints.contains point.id = true)
    (done : Edit.joinAccessPoint area point r = .ok () u) : r.SameTables u :=
  sameTables_join .accessPoint (fun holder r kind => by cases kind <;> rfl) there done

theorem sameTables_attach {kind : Kind} {id : Id} {area : Reference} {edit : Edit Unit}
    (joins : ∀ u, edit s.registry = .ok () u → s.registry.SameTables u)
    (done : attach kind id area edit s = .ok () t) :
    (∃ id, area = .scalar id) ∧ s.registry.SameTables t.registry := by
  obtain ⟨areaId, named, rest⟩ := check_bind_eq_ok_iff.mp done
  refine ⟨⟨areaId, Row.identifier_eq_ok_iff.mp named⟩, ?_⟩
  rw [get_bind] at rest
  split at rest
  · obtain ⟨r, edited, rfl⟩ := apply_eq_ok_iff.mp rest
    exact joins r edited
  · cases rest
    exact fun _ => rfl

/-! ## Rows -/

theorem gains_of_apply {kind : Kind} {row : Id × Row} {a : kind.Entry}
    (read : kind.record? row = some a) (done : apply (Edit.enter a) s = .ok () t)
    (accepts : kind.Accepts row) : s.Gains t (.one kind row) := by
  obtain ⟨r, edited, rfl⟩ := apply_eq_ok_iff.mp done
  exact Loading.gains_of_enter accepts read edited

theorem contains_of_apply (kind : Kind) {a : kind.Entry}
    (done : apply (Edit.enter a) s = .ok () t) :
    (Entity.table (α := kind.Entry) t.registry).contains (key a) = true := by
  obtain ⟨r, edited, rfl⟩ := apply_eq_ok_iff.mp done
  obtain ⟨_, rfl⟩ := Edit.enter_eq_ok_iff.mp edited
  dsimp only
  rw [Kind.table_withTable]
  exact Roster.contains_insert_self _ _

theorem brings_enter (kind : Kind) {row : Id × Row} {a : kind.Entry}
    (read : kind.record? row = some a) (nothing : kind.lookedUp row.2 = []) :
    Brings (apply (Edit.enter a)) (.one kind row) fun _ => True := by
  intro s _ t done
  refine ⟨gains_of_apply read done ⟨⟨a, read⟩, fun _ given => ?_⟩, trivial⟩
  rw [nothing] at given
  cases given

theorem brings_enterStopArea (row : Row) :
    Brings (enterStopArea row) (.one .stopArea (.null, row)) fun _ => True := by
  intro s _ t done
  obtain ⟨area, fitted, enters⟩ := enterStopArea_spec done
  have accepts : Kind.Accepts .stopArea (.null, row) :=
    ⟨⟨area, fitted⟩, fun _ given => absurd given List.not_mem_nil⟩
  have entered : Edit.enter area s.registry = .ok () t.registry :=
    Edit.enter_eq_ok_iff.mpr ⟨enters.fresh, enters.registry⟩
  exact ⟨Loading.gains_of_enter accepts fitted entered, trivial⟩

theorem lookUp_of_unusable {α : Type} [Entity α] (r : Registry) {reference : Reference}
    (unusable : reference.id? = none) :
    r.lookUp (α := α) reference = .error (.unusable reference) := by
  unfold Registry.lookUp
  rw [unusable]

theorem scalar_or_unusable (reference : Reference) :
    (∃ id, reference = .scalar id) ∨ reference.id? = none := by
  cases reference with
  | scalar id => exact Or.inl ⟨id, rfl⟩
  | list items | object fields => exact Or.inr rfl

/-- A containment whose look-up cannot be made ends the load. -/
theorem scalar_of_contain {edit : Edit Unit} {holder item : Reference} (reference : Reference)
    (looks : ∀ r, reference.id? = none → edit r = .error (.unusable reference) r)
    (done : contain edit holder item s = .ok () t) : ∃ id, reference = .scalar id := by
  refine (scalar_or_unusable reference).resolve_right fun unusable => ?_
  unfold contain at done
  rw [looks s.registry unusable] at done
  cases done

theorem brings_enterStopPoint (row : Row) :
    Brings (enterStopPoint row) (.one .stopPoint (.null, row)) fun _ => True := by
  intro s _ t done
  obtain ⟨stop, read, rest⟩ := check_bind_eq_ok_iff.mp done
  obtain ⟨_, u, entered, placed⟩ := bind_eq_ok_iff.mp rest
  have found : Kind.record? .stopPoint (.null, row) = some stop := toOption_eq_some_iff.mpr read
  split at placed
  · next given =>
    obtain ⟨id, named⟩ := scalar_of_contain (row.optional "stop_area")
      (fun r unusable => by rw [Edit.site_run, lookUp_of_unusable r unusable]) placed
    have accepts : Kind.Accepts .stopPoint (.null, row) := by
      refine ⟨⟨stop, found⟩, fun reference looked => ⟨id, ?_⟩⟩
      rw [Kind.lookedUp, if_pos given] at looked
      exact (List.mem_singleton.mp looked).trans named
    obtain ⟨none, _⟩ := brings_contain (fun _ _ => Edit.sameTables_site)
      (Edit.site_refuses _ _) _ _ _ placed
    exact ⟨(gains_of_apply found entered accepts).then_none none, trivial⟩
  · next given =>
    cases placed
    have accepts : Kind.Accepts .stopPoint (.null, row) := by
      refine ⟨⟨stop, found⟩, fun reference looked => ?_⟩
      rw [Kind.lookedUp, if_neg given] at looked
      cases looked
    exact ⟨gains_of_apply found entered accepts, trivial⟩

theorem brings_enterConnectionLink (row : Row) :
    Brings (enterConnectionLink row) (.one .connectionLink (.null, row)) fun _ => True := by
  intro s _ t done
  obtain ⟨link, read, rest⟩ := check_bind_eq_ok_iff.mp done
  obtain ⟨_, r, entered, rest⟩ := bind_eq_ok_iff.mp rest
  obtain ⟨_, u, second, third⟩ := bind_eq_ok_iff.mp rest
  have there : r.registry.connectionLinks.contains link.id = true :=
    contains_of_apply .connectionLink entered
  obtain ⟨start, starts⟩ := sameTables_attach (fun _ => sameTables_joinConnection there) second
  have still : u.registry.connectionLinks.contains link.id = true := by
    rw [show u.registry.connectionLinks = r.registry.connectionLinks from starts .connectionLink]
    exact there
  obtain ⟨finish, ends⟩ := sameTables_attach (fun _ => sameTables_joinConnection still) third
  have found : Kind.record? .connectionLink (.null, row) = some link :=
    toOption_eq_some_iff.mpr read
  obtain ⟨hasStart, hasEnd⟩ := Row.connectionLink_spec read
  have accepts : Kind.Accepts .connectionLink (.null, row) := by
    refine ⟨⟨link, found⟩, fun reference looked => ?_⟩
    rcases List.mem_pair.mp looked with rfl | rfl
    · exact hasStart ▸ start
    · exact hasEnd ▸ finish
  have gains := (gains_of_apply found entered accepts).then_none
    (Loading.gains_of_sameTables starts)
  exact ⟨gains.then_none (Loading.gains_of_sameTables ends), trivial⟩

/-- An area that counts as empty is looked up all the same. -/
theorem brings_enterAccessPoint (row : Row) :
    Brings (enterAccessPoint row) (.one .accessPoint (.null, row)) fun _ => True := by
  intro s _ t done
  obtain ⟨point, read, rest⟩ := check_bind_eq_ok_iff.mp done
  obtain ⟨_, r, entered, rest⟩ := bind_eq_ok_iff.mp rest
  obtain ⟨areaId, named, attached⟩ := check_bind_eq_ok_iff.mp rest
  have found : Kind.record? .accessPoint (.null, row) = some point :=
    toOption_eq_some_iff.mpr read
  have accepts : Kind.Accepts .accessPoint (.null, row) := by
    refine ⟨⟨point, found⟩, fun reference looked => ⟨areaId, ?_⟩⟩
    rw [List.mem_singleton.mp looked]
    exact Row.identifier_eq_ok_iff.mp named
  have enters := gains_of_apply found entered accepts
  refine ⟨?_, trivial⟩
  rw [get_bind] at attached
  split at attached
  · have there := contains_of_apply .accessPoint entered
    obtain ⟨_, same⟩ := sameTables_attach (fun _ => sameTables_joinAccessPoint there) attached
    exact enters.then_none (Loading.gains_of_sameTables same)
  · cases attached
    exact enters

theorem brings_enterAccessLink (row : Row) :
    Brings (enterAccessLink row) (.one .accessLink (.null, row)) fun _ => True := by
  intro s _ t done
  obtain ⟨link, read, rest⟩ := check_bind_eq_ok_iff.mp done
  obtain ⟨_, r, entered, rest⟩ := bind_eq_ok_iff.mp rest
  have there := contains_of_apply .accessLink entered
  obtain ⟨area, same⟩ := sameTables_attach (fun _ => sameTables_joinAccessLink there) rest
  have found : Kind.record? .accessLink (.null, row) = some link := toOption_eq_some_iff.mpr read
  have accepts : Kind.Accepts .accessLink (.null, row) := by
    refine ⟨⟨link, found⟩, fun reference looked => ?_⟩
    rw [List.mem_singleton.mp looked, Row.accessLink_spec read]
    exact area
  have gains := gains_of_apply found entered accepts
  exact ⟨gains.then_none (Loading.gains_of_sameTables same), trivial⟩

/-! ## Lines with what is nested in them -/

def patternPart (row : Id × Row) : Rows :=
  (Rows.one .journeyPattern row).append
    (.gather (row.2.nested "vehicle_journeys") (Rows.one .vehicleJourney))

def routePart (row : Id × Row) : Rows :=
  (Rows.one .route row).append (.gather (row.2.nested "journey_patterns") patternPart)

def linePart (row : Row) : Rows :=
  (Rows.one .line (.null, row)).append (.gather (row.nested "routes") routePart)

theorem gather_eq_nil {γ : Type} {items : List γ} {part : γ → Rows} {kind : Kind}
    (none : ∀ item, part item kind = []) : Rows.gather items part kind = [] :=
  List.flatMap_eq_nil_iff.mpr fun item _ => none item

/-- A record enters, then the records nested in its row, and last it is given their list. In
between there may be changes that enter nothing. -/
theorem brings_around (kind : Kind) (apart : kind ≠ .stopPoint) (row : Id × Row) {field : String}
    {bare : kind.Entry} {between : Load PUnit} {P : Prop} {enterInner : Row → Load Id}
    {part : Id × Row → Rows} (change : List Reference → kind.Entry → kind.Entry) {answer : β}
    {Q : β → Prop} (keeps : ∀ ids a, key (change ids a) = key a)
    (whole : ∀ rows, row.2.items field = .ok rows → kind.record? row = some
      (change (rows.map fun inner : Row => .scalar inner.ownId) bare))
    (first : Brings between .none fun _ => P)
    (accepts : P → ∀ reference ∈ kind.lookedUp row.2, ∃ id, reference = .scalar id)
    (inner : ∀ nested, Brings (enterInner nested) (part (key bare, nested)) (· = nested.ownId))
    (none : ∀ nested, part nested kind = []) (fair : row.2.ownId = key bare → Q answer) :
    Brings (do
      apply (Edit.enter bare)
      between
      let ids ← (← check (row.2.items field)).mapM enterInner
      modify fun s => { s with
        registry := Entity.withTable s.registry
          ((Entity.table s.registry).amend (key bare) (change (ids.map .scalar)) (keeps _)) }
      return answer)
      ((Rows.one kind row).append (.gather (row.2.nested field) part)) Q := by
  intro s _ t done
  obtain ⟨_, u, entered, rest⟩ := bind_eq_ok_iff.mp done
  obtain ⟨_, v, changed, rest⟩ := bind_eq_ok_iff.mp rest
  obtain ⟨rows, has, rest⟩ := check_bind_eq_ok_iff.mp rest
  obtain ⟨ids, w, nested, last⟩ := bind_eq_ok_iff.mp rest
  obtain ⟨r, edited, rfl⟩ := apply_eq_ok_iff.mp entered
  obtain ⟨nothing, holds⟩ := first _ _ _ changed
  obtain ⟨gains, rfl⟩ := brings_mapM inner _ _ _ nested
  have read := whole rows has
  have named : row.2.ownId = key bare := by
    rw [Row.ownId_of_required (Kind.required_of_record? kind read), keeps]
  -- the nested rows belong to the record that has just entered
  have parts : Rows.gather (row.2.nested field) part =
      .gather rows fun nested => part (key bare, nested) := by
    funext other
    rw [Row.nested, Row.listed_of_items has, named]
    exact List.flatMap_map _ _ _
  rw [parts]
  rw [List.map_map] at last
  cases last
  refine ⟨?_, fair named⟩
  exact Loading.Gains.around apart ⟨⟨_, read⟩, accepts holds⟩ read edited
    (Rows.none_append _ ▸ nothing.trans gains) (gather_eq_nil fun _ => none _) rfl

theorem brings_enterVehicleJourney (patternId : Id) (row : Row) :
    Brings (enterVehicleJourney patternId row) (.one .vehicleJourney (patternId, row))
      (· = row.ownId) := by
  refine Brings.after_check fun journey read => ?_
  have found : Kind.record? .vehicleJourney (patternId, row) = some journey :=
    toOption_eq_some_iff.mpr read
  have named : row.ownId = journey.id :=
    Row.ownId_of_required (Kind.required_of_record? .vehicleJourney found)
  refine (brings_enter .vehicleJourney found rfl).then_none fun _ _ => ?_
  exact (brings_pure journey.id).mono fun id same => same.trans named.symm

theorem brings_enterJourneyPattern (routeId : Id) (row : Row) :
    Brings (enterJourneyPattern routeId row) (patternPart (routeId, row)) (· = row.ownId) := by
  refine Brings.after_check fun pattern read => ?_
  exact brings_around .journeyPattern (by decide) (routeId, row) JourneyPattern.withJourneys
    (fun _ _ => rfl) (fun _ => Row.whole_of_bare JourneyPattern.withJourneys read) brings_skip
    (fun _ _ given => absurd given List.not_mem_nil)
    (brings_enterVehicleJourney pattern.id) (fun _ => Rows.one_of_ne (by decide) _) Eq.symm

theorem patternPart_of_ne {kind : Kind} (pattern : kind ≠ .journeyPattern)
    (journey : kind ≠ .vehicleJourney) (row : Id × Row) : patternPart row kind = [] := by
  rw [patternPart, Rows.append, Rows.one_of_ne pattern]
  exact gather_eq_nil fun _ => Rows.one_of_ne journey _

/-- The stop points that a route calls at are claimed before its journey patterns enter. -/
theorem brings_enterRoute (lineId : Id) (row : Row) :
    Brings (enterRoute lineId row) (routePart (lineId, row)) (· = row.ownId) := by
  refine Brings.after_check fun route read => ?_
  have claims := brings_forM_none route.stopPointIds (brings_claimStop route.id)
  have calls : Kind.lookedUp .route row = route.stopPointIds := Row.stopPointIds_of_route read
  exact brings_around .route (by decide) (lineId, row) Route.withPatterns (fun _ _ => rfl)
    (fun _ => Row.whole_of_bare Route.withPatterns read) claims (fun scalars => calls ▸ scalars)
    (brings_enterJourneyPattern route.id)
    (patternPart_of_ne (by decide) (by decide)) Eq.symm

theorem routePart_of_ne {kind : Kind} (route : kind ≠ .route) (pattern : kind ≠ .journeyPattern)
    (journey : kind ≠ .vehicleJourney) (row : Id × Row) : routePart row kind = [] := by
  rw [routePart, Rows.append, Rows.one_of_ne route]
  exact gather_eq_nil fun _ => patternPart_of_ne pattern journey _

theorem brings_enterLine (row : Row) : Brings (enterLine row) (linePart row) fun _ => True := by
  refine Brings.after_check fun line read => ?_
  exact brings_around .line (by decide) (.null, row) Line.withRoutes (fun _ _ => rfl)
    (fun _ => Row.whole_of_bare Line.withRoutes read) brings_skip
    (fun _ _ given => absurd given List.not_mem_nil) (brings_enterRoute line.id)
    (routePart_of_ne (by decide) (by decide) (by decide)) fun _ => trivial

/-! ## The rows of each kind -/

theorem gather_one (kind : Kind) (rows : List (Id × Row)) :
    Rows.gather rows (Rows.one kind) kind = rows := by
  have each : (fun row => Rows.one kind row kind) = fun row => [row] :=
    funext (Rows.one_self kind)
  rw [Rows.gather, each]
  exact List.flatMap_singleton' rows

theorem patternPart_journeys (row : Id × Row) :
    patternPart row .vehicleJourney = row.2.nested "vehicle_journeys" := by
  rw [patternPart, Rows.append, Rows.one_of_ne (by decide), gather_one]
  rfl

theorem patternPart_self (row : Id × Row) : patternPart row .journeyPattern = [row] := by
  rw [patternPart, Rows.append, Rows.one_self, gather_eq_nil fun _ => Rows.one_of_ne (by decide) _]
  rfl

theorem routePart_self (row : Id × Row) : routePart row .route = [row] := by
  rw [routePart, Rows.append, Rows.one_self,
    gather_eq_nil (patternPart_of_ne (by decide) (by decide))]
  rfl

theorem routePart_of_nested {kind : Kind} (apart : kind ≠ .route) (row : Id × Row) :
    routePart row kind = (row.2.nested "journey_patterns").flatMap (patternPart · kind) := by
  rw [routePart, Rows.append, Rows.one_of_ne apart]
  rfl

theorem linePart_of_nested {kind : Kind} (apart : kind ≠ .line) (row : Row) :
    linePart row kind = (row.nested "routes").flatMap (routePart · kind) := by
  rw [linePart, Rows.append, Rows.one_of_ne apart]
  rfl

theorem linePart_self (row : Row) : linePart row .line = [(.null, row)] := by
  rw [linePart, Rows.append, Rows.one_self,
    gather_eq_nil (routePart_of_ne (by decide) (by decide) (by decide))]
  rfl

section
variable (document : Row)

def tablePart (kind : Kind) : Rows :=
  .gather (document.listed kind.tableName) fun row => .one kind (.null, row)

def linesPart : Rows := .gather (document.listed "lines") linePart

theorem tablePart_self (kind : Kind) :
    tablePart document kind kind =
      (document.listed kind.tableName).map fun row => (.null, row) := by
  rw [tablePart, Rows.gather, List.map_eq_flatMap]
  congr 1
  funext row
  exact Rows.one_self kind _

theorem tablePart_of_ne {kind other : Kind} (differ : other ≠ kind) :
    tablePart document kind other = [] :=
  gather_eq_nil fun _ => Rows.one_of_ne differ _

theorem linesPart_routes : linesPart document .route = document.routeRows := by
  rw [linesPart, Rows.gather, Row.routeRows]
  congr 1
  funext line
  rw [linePart_of_nested (by decide)]
  simp only [routePart_self, List.flatMap_singleton']

theorem linesPart_of_nested {kind : Kind} (line : kind ≠ .line) (route : kind ≠ .route) :
    linesPart document kind = document.routeRows.flatMap fun route =>
      (route.2.nested "journey_patterns").flatMap (patternPart · kind) := by
  simp only [linesPart, Rows.gather, Row.routeRows, linePart_of_nested line,
    routePart_of_nested route, List.flatMap_assoc]

theorem linesPart_patterns : linesPart document .journeyPattern = document.patternRows := by
  rw [linesPart_of_nested document (by decide) (by decide), Row.patternRows]
  simp only [patternPart_self, List.flatMap_singleton']

theorem linesPart_journeys : linesPart document .vehicleJourney = document.journeyRows := by
  rw [linesPart_of_nested document (by decide) (by decide), Row.journeyRows, Row.patternRows,
    List.flatMap_assoc]
  simp only [patternPart_journeys]

theorem linesPart_self :
    linesPart document .line = (document.listed "lines").map fun row => (.null, row) := by
  rw [linesPart, Rows.gather, List.map_eq_flatMap]
  simp only [linePart_self]

theorem linesPart_of_ne {kind : Kind} (line : kind ≠ .line) (route : kind ≠ .route)
    (pattern : kind ≠ .journeyPattern) (journey : kind ≠ .vehicleJourney) :
    linesPart document kind = [] := by
  refine gather_eq_nil fun row => ?_
  rw [linePart_of_nested line]
  exact List.flatMap_eq_nil_iff.mpr fun _ _ => routePart_of_ne route pattern journey _

def documentPart : Rows :=
  (tablePart document .network).append <| (tablePart document .company).append <|
    (tablePart document .groupOfLines).append <| (tablePart document .stopArea).append <|
    (tablePart document .stopPoint).append <| (tablePart document .connectionLink).append <|
    (tablePart document .accessPoint).append <| (tablePart document .accessLink).append <|
    (tablePart document .timetable).append <| linesPart document

theorem documentPart_eq : documentPart document = document.owned := by
  funext kind
  cases kind with
  | line => simp (disch := decide) only [documentPart, Rows.append, tablePart_of_ne,
      linesPart_self, List.nil_append, Row.owned, Kind.tableName]
  | route => simp (disch := decide) only [documentPart, Rows.append, tablePart_of_ne,
      linesPart_routes, List.nil_append, Row.owned]
  | journeyPattern => simp (disch := decide) only [documentPart, Rows.append, tablePart_of_ne,
      linesPart_patterns, List.nil_append, Row.owned]
  | vehicleJourney => simp (disch := decide) only [documentPart, Rows.append, tablePart_of_ne,
      linesPart_journeys, List.nil_append, Row.owned]
  | _ => simp (disch := decide) only [documentPart, Rows.append, tablePart_self, tablePart_of_ne,
      linesPart_of_ne, List.nil_append, List.append_nil, Row.owned]

end

/-! ## Sections -/

section
variable {document : Row} {name : String} {enter : Row → Load Unit}

theorem brings_table {part : Row → Rows}
    (each : ∀ row, Brings (enter row) (part row) fun _ => True) :
    Brings (table document name enter) (.gather (document.listed name) part)
      fun _ => document.items name = .ok (document.listed name) := by
  refine Brings.after_check fun rows has => ?_
  rw [has, Row.listed_of_items has]
  exact (brings_forM rows each).mono fun _ _ => rfl

theorem brings_nothing (each : ∀ row, Brings (enter row) .none fun _ => True) :
    Brings (table document name enter) .none fun _ => True := by
  rw [← Rows.gather_none (document.listed name)]
  exact (brings_table each).mono fun _ _ => trivial

theorem brings_plain (kind : Kind) {read : Row → Except Failure kind.Entry}
    (reads : ∀ row, kind.record? (.null, row) = (read row).toOption)
    (nothing : ∀ row, kind.lookedUp row = []) :
    Brings (table document kind.tableName fun row => do apply (Edit.enter (← check (read row))))
      (tablePart document kind)
      fun _ => document.items kind.tableName = .ok (document.listed kind.tableName) := by
  refine brings_table fun row => Brings.after_check fun a found => ?_
  exact brings_enter kind ((reads row).trans (toOption_eq_some_iff.mpr found)) (nothing row)

theorem brings_enterParent (row : Row) : Brings (enterParent row) .none fun _ => True := by
  unfold enterParent
  dsimp only
  split
  · refine Brings.after_check fun child _ => ?_
    exact brings_contain (fun _ _ => Edit.sameTables_nest) (Edit.nest_refuses _ _)
  · exact brings_skip

theorem brings_enterConstraints (row : Row) :
    Brings (enterConstraints row) .none fun _ => True := by
  have areas : ∀ entry, Brings (enterConstrainedArea row entry) .none fun _ => True :=
    fun entry => Brings.after_check fun holder _ =>
      brings_contain (fun _ _ => Edit.sameTables_constrainArea) (Edit.constrainArea_refuses _ _)
  have lines : ∀ entry, Brings (enterConstrainedLine row entry) .none fun _ => True :=
    fun entry => Brings.after_check fun holder _ =>
      brings_contain (fun _ _ => Edit.sameTables_constrainLine) (Edit.constrainLine_refuses _ _)
  refine Brings.after_check fun listedAreas _ => ?_
  refine (brings_forM_none listedAreas areas).then_none fun _ _ => ?_
  refine Brings.after_check fun listedLines _ => ?_
  exact (brings_forM_none listedLines lines).mono fun _ _ => trivial

theorem brings_tellRejected : Brings tellRejected .none fun _ => True := by
  intro s _ t done
  obtain ⟨events, told⟩ := tellRejected_run s
  rw [told] at done
  cases done
  exact ⟨Loading.gains_of_sameTables fun _ => rfl, trivial⟩

end

end Load

def Kind.IsNested : Kind → Prop
  | route | journeyPattern | vehicleJourney => True
  | _ => False

theorem Row.ofKind_of_plain (document : Row) (kind : Kind) (plain : ¬kind.IsNested) :
    document.ofKind kind = document.listed kind.tableName := by
  have same : document.owned kind =
      (document.listed kind.tableName).map fun row => (.null, row) := by
    cases kind with
    | route | journeyPattern | vehicleJourney => exact absurd trivial plain
    | _ => rfl
  rw [ofKind, same, List.map_map]
  exact List.map_id _

namespace Load

theorem brings_stopAreas (document : Row) :
    Brings (stopAreas document) (tablePart document .stopArea)
      fun _ => document.items "stop_areas" = .ok (document.listed "stop_areas") := by
  refine (brings_table brings_enterStopArea).then_none fun _ has => ?_
  exact (brings_nothing brings_enterParent).mono fun _ _ => has

theorem brings_sections (document : Row) :
    Brings (sections document) document.owned fun _ =>
      ∀ kind : Kind, ¬kind.IsNested →
        document.items kind.tableName = .ok (document.listed kind.tableName) := by
  rw [← documentPart_eq, documentPart]
  unfold sections
  refine (brings_plain .network (fun _ => rfl) fun _ => rfl).bind fun _ networks => ?_
  refine (brings_plain .company (fun _ => rfl) fun _ => rfl).bind fun _ companies => ?_
  refine (brings_plain .groupOfLines (fun _ => rfl) fun _ => rfl).bind fun _ groups => ?_
  refine (brings_stopAreas document).bind fun _ areas => ?_
  refine (brings_table brings_enterStopPoint).bind fun _ stops => ?_
  refine (brings_table brings_enterConnectionLink).bind fun _ connections => ?_
  refine (brings_table brings_enterAccessPoint).bind fun _ points => ?_
  refine (brings_table brings_enterAccessLink).bind fun _ links => ?_
  refine (brings_plain .timetable (fun _ => rfl) fun _ => rfl).bind fun _ timetables => ?_
  refine (brings_table brings_enterLine).then_none fun _ lines => ?_
  refine (brings_nothing brings_enterConstraints).then_none fun _ _ => ?_
  refine brings_tellRejected.mono fun _ _ kind plain => ?_
  cases kind with
  | route | journeyPattern | vehicleJourney => exact absurd trivial plain
  | network => exact networks
  | company => exact companies
  | groupOfLines => exact groups
  | stopArea => exact areas
  | stopPoint => exact stops
  | connectionLink => exact connections
  | accessPoint => exact points
  | accessLink => exact links
  | timetable => exact timetables
  | line => exact lines

section
variable {document : Row} {loading : Loading} (loaded : sections document {} = .ok () loading)

include loaded

theorem accepts_of_sections (kind : Kind) {row : Id × Row} (given : row ∈ document.owned kind) :
    kind.Accepts row :=
  (brings_sections document {} () loading loaded).1.accepts kind row given

theorem items_of_sections {kind : Kind} (plain : ¬kind.IsNested) :
    document.items kind.tableName = .ok (document.listed kind.tableName) :=
  (brings_sections document {} () loading loaded).2 kind plain

/-- The records of a loaded network are those of the rows, in the order of the document. -/
theorem members_of_sections (kind : Kind) (apart : kind ≠ .stopPoint) :
    (Entity.table (α := kind.Entry) loading.registry).members =
      (document.owned kind).filterMap kind.record? := by
  rw [(brings_sections document {} () loading loaded).1.members kind apart]
  cases kind <;> rfl

theorem ids_of_sections (kind : Kind) :
    (Entity.table (α := kind.Entry) loading.registry).ids =
      (document.ofKind kind).map Row.ownId := by
  have rows := (brings_sections document {} () loading loaded).1.lists kind
  rw [rows, Row.ofKind, List.map_map]
  cases kind <;> rfl

end
end Load
end LineClosure
