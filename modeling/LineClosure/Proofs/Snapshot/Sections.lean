import LineClosure.Proofs.Snapshot.Containments

/-! The sections of a snapshot that containments come from: the stop areas, their parents, the
stop points with their areas, and the lists of routing constraints. For each section there is
what a load that gets to its end has done, and when it gets there. -/

namespace LineClosure

open Keyed

namespace Roster

variable {α : Type} [Keyed α] {r : Roster α}

theorem members_insert_of_fresh {a : α} (fresh : r.contains (key a) = false) :
    (r.insert a).members = r.members ++ [a] := by
  rw [members_insert, if_neg]
  intro taken
  rw [contains_key_iff.mpr taken] at fresh
  cases fresh

theorem contains_of_distinct {a : α} {rest : List α}
    (distinct : ((r.members ++ a :: rest).map identity).Nodup) : r.contains (key a) = false := by
  rw [Bool.eq_false_iff]
  intro taken
  obtain ⟨b, member, same⟩ := contains_iff.mp taken
  rw [List.map_append] at distinct
  exact (List.nodup_append.mp distinct).2.2 _ (List.mem_map_of_mem member) _ List.mem_cons_self same

end Roster

namespace Row

theorem optional_of_required {row : Row} {name : String} {v : Value}
    (there : row.required name = .ok v) : row.optional name = v := by
  unfold required at there
  unfold optional Value.field?
  cases row with
  | scalar other => cases there
  | list items => cases there
  | object fields =>
    dsimp only at there ⊢
    cases found : fields.lookup (.whole name) with
    | none =>
      rw [found] at there
      cases there
    | some w =>
      rw [found] at there
      cases there
      rfl

theorem identifier_eq_ok_iff {v : Value} {id : Id} : identifier v = .ok id ↔ v = .scalar id := by
  unfold identifier Value.id?
  cases v with
  | scalar other =>
    constructor
    · intro same
      cases same
      rfl
    · intro same
      cases same
      rfl
  | list items => exact iff_of_false (by intro same; cases same) (by intro same; cases same)
  | object fields => exact iff_of_false (by intro same; cases same) (by intro same; cases same)

theorem listed_of_items {row : Row} {name : String} {items : List Value}
    (there : row.items name = .ok items) : row.listed name = items := by
  unfold listed
  rw [there]
  rfl

theorem stopArea_spec {row : Row} {area : StopArea} (read : row.stopArea = .ok area) :
    row.required "id" = .ok (.scalar area.id) ∧ row.areaType = .ok area.areaType := by
  unfold stopArea at read
  obtain ⟨v, hasId, rest⟩ := except_bind_eq_ok_iff.mp read
  obtain ⟨type, hasType, rest⟩ := except_bind_eq_ok_iff.mp rest
  obtain ⟨id, named, rest⟩ := except_bind_eq_ok_iff.mp rest
  cases rest
  exact ⟨identifier_eq_ok_iff.mp named ▸ hasId, hasType⟩

theorem stopPoint_spec {row : Row} {stop : StopPoint} (read : row.stopPoint = .ok stop) :
    row.required "id" = .ok (.scalar stop.id) := by
  unfold stopPoint at read
  obtain ⟨v, hasId, rest⟩ := except_bind_eq_ok_iff.mp read
  obtain ⟨id, named, rest⟩ := except_bind_eq_ok_iff.mp rest
  cases rest
  exact identifier_eq_ok_iff.mp named ▸ hasId

def fittedArea? (row : Row) : Option StopArea :=
  match row.stopArea, (fitTexts (row.optional "id") (row.optional "comment")
      (row.optional "registration_number")).2 with
  | .ok area, some (comment, registrationNumber) => some { area with comment, registrationNumber }
  | _, _ => none

theorem fittedArea?_spec {row : Row} {area : StopArea} (fitted : row.fittedArea? = some area) :
    row.required "id" = .ok (.scalar area.id) ∧ row.areaType = .ok area.areaType := by
  unfold fittedArea? at fitted
  split at fitted
  · next read _ =>
    obtain ⟨hasId, hasType⟩ := stopArea_spec read
    cases fitted
    exact ⟨hasId, hasType⟩
  · cases fitted

end Row

namespace Load

variable {s t : Loading}

theorem forM_tell (told : List Event) (s : Loading) :
    told.forM tell s = .ok () { s with events := s.events ++ told } := by
  induction told generalizing s with
  | nil => simp [List.forM, pure, EStateM.pure]
  | cons e rest ih =>
    refine (bind_ok rfl).trans ((ih _).trans ?_)
    simp only [List.append_assoc, List.cons_append, List.nil_append]

/-! ## Stop areas -/

structure EntersArea (s : Loading) (area : StopArea) (t : Loading) : Prop where
  fresh : s.registry.stopAreas.contains area.id = false
  registry : t.registry = { s.registry with stopAreas := s.registry.stopAreas.insert area }
  rejected : t.rejected = s.rejected

/-- The texts are told of before the area is entered. -/
theorem enterStopArea_run {row : Row} {owner : Value} {type : AreaType}
    (hasId : row.required "id" = .ok owner) (hasType : row.areaType = .ok type) (s : Loading) :
    enterStopArea row s =
      match fitTexts owner (row.optional "comment") (row.optional "registration_number") with
      | (told, none) => .error .unusableValue { s with events := s.events ++ told }
      | (told, some (comment, registrationNumber)) =>
        (check row.stopArea >>= fun area =>
          apply (Edit.enter { area with comment, registrationNumber }))
          { s with events := s.events ++ told } := by
  unfold enterStopArea
  rw [check_bind hasId, check_bind hasType]
  obtain ⟨told, fitted⟩ :=
    fitTexts owner (row.optional "comment") (row.optional "registration_number")
  dsimp only
  rw [bind_ok (forM_tell told s)]
  cases fitted with
  | none => rfl
  | some texts => rfl

theorem enterStopArea_spec {row : Row} (done : enterStopArea row s = .ok () t) :
    ∃ area, row.fittedArea? = some area ∧ EntersArea s area t := by
  obtain ⟨owner, hasId, rest⟩ := check_bind_eq_ok_iff.mp done
  obtain ⟨type, hasType, _⟩ := check_bind_eq_ok_iff.mp rest
  rw [enterStopArea_run hasId hasType] at done
  split at done
  · cases done
  · next told comment number fits =>
    obtain ⟨area, read, entered⟩ := check_bind_eq_ok_iff.mp done
    obtain ⟨r, edited, rfl⟩ := apply_eq_ok_iff.mp entered
    obtain ⟨fresh, rfl⟩ := Edit.enter_eq_ok_iff.mp edited
    refine ⟨{ area with comment, registrationNumber := number }, ?_, fresh, rfl, rfl⟩
    unfold Row.fittedArea?
    rw [read, Row.optional_of_required hasId, fits]

theorem enterStopArea_runs {row : Row} {area : StopArea} (fitted : row.fittedArea? = some area)
    (fresh : s.registry.stopAreas.contains area.id = false) :
    ∃ t, enterStopArea row s = .ok () t := by
  obtain ⟨hasId, hasType⟩ := Row.fittedArea?_spec fitted
  rw [enterStopArea_run hasId hasType]
  unfold Row.fittedArea? at fitted
  rw [Row.optional_of_required hasId] at fitted
  split at fitted
  · next plain comment number read fits =>
    cases fitted
    split
    · next other =>
      rw [other] at fits
      cases fits
    · next told c n other =>
      rw [other] at fits
      cases fits
      rw [check_bind read]
      exact ⟨_, apply_eq_ok_iff.mpr ⟨_, Edit.enter_eq_ok_iff.mpr ⟨fresh, rfl⟩, rfl⟩⟩
  · cases fitted

structure EntersAreas (s : Loading) (rows : List Row) (t : Loading) : Prop where
  fitted : ∀ row ∈ rows, ∃ area, row.fittedArea? = some area
  registry : t.registry = { s.registry with stopAreas := t.registry.stopAreas }
  areas : t.registry.stopAreas.members =
    s.registry.stopAreas.members ++ rows.filterMap Row.fittedArea?
  rejected : t.rejected = s.rejected

theorem forM_enterStopArea_spec {rows : List Row} (done : rows.forM enterStopArea s = .ok () t) :
    EntersAreas s rows t := by
  induction rows generalizing s with
  | nil =>
    cases done
    exact ⟨fun _ given => absurd given List.not_mem_nil, rfl, (List.append_nil _).symm, rfl⟩
  | cons row rest ih =>
    obtain ⟨_, u, first, later⟩ := bind_eq_ok_iff.mp done
    obtain ⟨area, fitted, enters⟩ := enterStopArea_spec first
    obtain ⟨others, registry, members, rejected⟩ := ih later
    refine ⟨fun other given => ?_, ?_, ?_, rejected.trans enters.rejected⟩
    · rcases List.mem_cons.mp given with rfl | behind
      · exact ⟨area, fitted⟩
      · exact others other behind
    · rw [registry, enters.registry]
    · rw [members, enters.registry, List.filterMap_cons, fitted]
      dsimp only
      rw [Roster.members_insert_of_fresh enters.fresh, List.append_assoc, List.singleton_append]

theorem forM_enterStopArea_runs {rows : List Row}
    (fitted : ∀ row ∈ rows, ∃ area, row.fittedArea? = some area)
    (distinct : ((s.registry.stopAreas.members ++ rows.filterMap Row.fittedArea?).map
      identity).Nodup) : ∃ t, rows.forM enterStopArea s = .ok () t := by
  induction rows generalizing s with
  | nil => exact ⟨s, rfl⟩
  | cons row rest ih =>
    obtain ⟨area, fits⟩ := fitted row List.mem_cons_self
    rw [List.filterMap_cons, fits] at distinct
    have fresh : s.registry.stopAreas.contains area.id = false :=
      Roster.contains_of_distinct distinct
    obtain ⟨u, first⟩ := enterStopArea_runs fits fresh
    obtain ⟨other, same, enters⟩ := enterStopArea_spec first
    rw [fits] at same
    cases same
    have later : ((u.registry.stopAreas.members ++ rest.filterMap Row.fittedArea?).map
        identity).Nodup := by
      rw [enters.registry]
      dsimp only
      rwa [Roster.members_insert_of_fresh enters.fresh, List.append_assoc, List.singleton_append]
    obtain ⟨t, done⟩ := ih (fun row given => fitted row (List.mem_cons_of_mem _ given)) later
    exact ⟨t, (bind_ok first).trans done⟩

/-! ## Parents -/

theorem mem_parents_iff {row : Row} {d : Declaration} :
    d ∈ row.parents ↔ (row.optional "parent").isTruthy = true ∧
      d = ⟨.containedAreas, row.optional "parent", row.optional "id"⟩ := by
  unfold Row.parents
  split
  · next given => simp [given]
  · next none => simp [none]

theorem forM_singleton (d : Declaration) : [d].forM declare = declare d :=
  bind_pure_unit

/-- A section whose rows only declare is the list of its declarations. -/
theorem forM_flatMap {rows : List Row} {enter : Row → Load Unit} {part : Row → List Declaration}
    (each : ∀ row ∈ rows, enter row = (part row).forM declare) :
    rows.forM enter = (rows.flatMap part).forM declare := by
  induction rows with
  | nil => rfl
  | cons row rest ih =>
    have first := each row List.mem_cons_self
    have later := ih fun other given => each other (List.mem_cons_of_mem row given)
    have apart : (row :: rest).forM enter = enter row >>= fun _ => rest.forM enter := rfl
    rw [apart, first, later, List.flatMap_cons]
    exact List.forM_append.symm

theorem enterParent_eq {row : Row} {id : Value} (hasId : row.required "id" = .ok id) :
    enterParent row = row.parents.forM declare := by
  unfold enterParent Row.parents
  dsimp only
  split
  · rw [forM_singleton, Row.optional_of_required hasId]
    funext s
    exact check_bind hasId
  · rfl

def Distinct (rows : List Row) : Prop := (rows.map fun row => canonical (row.optional "id")).Nodup

/-- A row declares one place at most. -/
theorem apart_ite (given : Bool) (d : Declaration) : Apart (if given then [d] else []) := by
  split
  · exact List.pairwise_singleton _ _
  · exact List.Pairwise.nil

theorem apart_parents {rows : List Row} (distinct : Distinct rows) :
    Apart (rows.flatMap Row.parents) := by
  apply List.pairwise_flatMap.mpr
  constructor
  · exact fun row _ => apart_ite _ _
  · refine (List.pairwise_map.mp distinct).imp fun differ => ?_
    intro d first e second _ _
    rw [(mem_parents_iff.mp first).2, (mem_parents_iff.mp second).2]
    exact differ

/-! ## Stop points -/

theorem mem_sites_iff {row : Row} {d : Declaration} :
    d ∈ row.sites ↔ (row.optional "stop_area").isTruthy = true ∧
      d = ⟨.containedStopPoints, row.optional "stop_area", row.optional "id"⟩ := by
  unfold Row.sites
  split
  · next given => simp [given]
  · next none => simp [none]

theorem enterStopPoint_eq {row : Row} {stop : StopPoint} (read : row.stopPoint = .ok stop) :
    enterStopPoint row = apply (Edit.enter stop) >>= fun _ => row.sites.forM declare := by
  have named := Row.optional_of_required (Row.stopPoint_spec read)
  have sites : (do
      let area := row.optional "stop_area"
      if area.isTruthy then contain (Edit.site area (.scalar stop.id)) area (.scalar stop.id) :
        Load Unit) = row.sites.forM declare := by
    unfold Row.sites
    dsimp only
    split
    · rw [forM_singleton, named]
      rfl
    · rfl
  rw [← sites]
  funext s
  exact check_bind read

def Sited (s : Loading) : Prop :=
  ∀ holder item, s.registry.Holds ⟨.containedStopPoints, holder, item⟩ →
    ∃ stop ∈ s.registry.stopPoints.members, item = canonical (Value.scalar stop.id)

structure EntersStop (s : Loading) (row : Row) (stop : StopPoint) (t : Loading) : Prop where
  fresh : s.registry.stopPoints.contains stop.id = false
  decides : ∀ d ∈ row.sites, Decides s d
  applies : Applies s row.sites t
  stops : t.registry.stopPoints = s.registry.stopPoints.insert stop
  elsewhere : t.registry.elsewhere = s.registry.elsewhere
  sited : Sited t

def withStop (s : Loading) (stop : StopPoint) : Loading :=
  { s with registry := { s.registry with stopPoints := s.registry.stopPoints.insert stop } }

section
variable {row : Row} {stop : StopPoint} (ready : s.registry.Ready) (sited : Sited s)
  (read : row.stopPoint = .ok stop) (text : ∃ x, stop.id = .text x)
  (fresh : s.registry.stopPoints.contains stop.id = false)

include ready text in
theorem applies_withStop : Applies s [] (withStop s stop) where
  areas := rfl
  ready := by
    refine ⟨⟨ready.coherent.nesting, ready.coherent.siting⟩, ready.areas, fun other member => ?_⟩
    rcases Roster.mem_insert member with old | rfl
    · exact ready.stops other old
    · exact text
  holds c := by simp [withStop, Registry.Holds]
  rejected := (List.append_nil _).symm

include sited read fresh in
theorem sites_withStop (d : Declaration) (given : d ∈ row.sites) :
    Placeable (withStop s stop) d ∧ (withStop s stop).registry.Fresh d := by
  obtain ⟨_, rfl⟩ := mem_sites_iff.mp given
  have named := Row.optional_of_required (Row.stopPoint_spec read)
  constructor
  · intro _
    dsimp only
    rw [named, Roster.isSome_resolve?_scalar]
    exact Roster.contains_insert_self _ _
  · intro _ holder held
    -- what is in an area was registered, and this one is new
    obtain ⟨other, member, same⟩ := sited holder _ held
    dsimp only at same
    rw [named] at same
    have taken : s.registry.stopPoints.contains stop.id = true :=
      Roster.contains_iff.mpr ⟨other, member, (Value.scalar.inj same).symm⟩
    rw [fresh] at taken
    cases taken

include ready sited read text fresh in
theorem entersStop_of_sites (done : row.sites.forM declare (withStop s stop) = .ok () t) :
    EntersStop s row stop t := by
  have before := applies_withStop ready text
  have site := sites_withStop sited read fresh
  obtain ⟨decides, after, others⟩ := forM_declare_spec before.ready
    (fun d given => (site d given).1) (fun d given => (site d given).2) (apart_ite _ _) done
  have whole : Applies s row.sites t := before.trans after
  have stops : t.registry.stopPoints = s.registry.stopPoints.insert stop :=
    Registry.stopPoints_of_others others
  have elsewhere := Registry.elsewhere_of_others others
  refine ⟨fresh, fun d given => before.decides_iff.mp (decides d given), whole, stops,
    elsewhere, ?_⟩
  intro holder item held
  rw [stops, Roster.members_insert_of_fresh fresh]
  rcases (whole.holds _).mp held with old | ⟨d, given, lands⟩
  · obtain ⟨other, member, same⟩ := sited holder item old
    exact ⟨other, List.mem_append_left _ member, same⟩
  · obtain ⟨_, rfl⟩ := mem_sites_iff.mp given
    have placed := (lands.placed (Or.inr rfl)).2
    dsimp only at placed
    rw [Row.optional_of_required (Row.stopPoint_spec read)] at placed
    exact ⟨stop, List.mem_append_right _ (List.mem_singleton_self stop), placed.symm⟩

include ready sited read text fresh in
theorem enterStopPoint_runs (decides : ∀ d ∈ row.sites, Decides s d) :
    ∃ t, enterStopPoint row s = .ok () t := by
  have before := applies_withStop ready text
  have site := sites_withStop sited read fresh
  obtain ⟨t, done, _⟩ := forM_declare_runs before.ready (fun d given => (site d given).1)
    (fun d given => (site d given).2) (apart_ite _ _)
    fun d given => before.decides_iff.mpr (decides d given)
  have entered : apply (Edit.enter stop) s = .ok () (withStop s stop) :=
    apply_eq_ok_iff.mpr ⟨_, Edit.enter_eq_ok_iff.mpr ⟨fresh, rfl⟩, rfl⟩
  refine ⟨t, ?_⟩
  rw [enterStopPoint_eq read]
  exact (bind_ok entered).trans done

end

theorem enterStopPoint_spec {row : Row} (ready : s.registry.Ready) (sited : Sited s)
    (textual : ∃ x, row.optional "id" = .scalar (.text x))
    (done : enterStopPoint row s = .ok () t) :
    ∃ stop, row.stopPoint = .ok stop ∧ EntersStop s row stop t := by
  obtain ⟨stop, read, _⟩ := check_bind_eq_ok_iff.mp done
  rw [enterStopPoint_eq read] at done
  obtain ⟨_, u, entered, placed⟩ := bind_eq_ok_iff.mp done
  obtain ⟨r, edited, rfl⟩ := apply_eq_ok_iff.mp entered
  obtain ⟨fresh, rfl⟩ := Edit.enter_eq_ok_iff.mp edited
  obtain ⟨x, named⟩ := textual
  rw [Row.optional_of_required (Row.stopPoint_spec read)] at named
  have text : stop.id = .text x := Value.scalar.inj named
  exact ⟨stop, read, entersStop_of_sites ready sited read ⟨x, text⟩ fresh placed⟩

structure EntersStops (s : Loading) (rows : List Row) (t : Loading) : Prop where
  read : ∀ row ∈ rows, ∃ stop, row.stopPoint = .ok stop
  decides : ∀ d ∈ rows.flatMap Row.sites, Decides s d
  applies : Applies s (rows.flatMap Row.sites) t
  stops : t.registry.stopPoints.members =
    s.registry.stopPoints.members ++ rows.filterMap fun row => row.stopPoint.toOption
  elsewhere : t.registry.elsewhere = s.registry.elsewhere

theorem forM_enterStopPoint_spec {rows : List Row} (ready : s.registry.Ready) (sited : Sited s)
    (textual : ∀ row ∈ rows, ∃ x, row.optional "id" = .scalar (.text x))
    (done : rows.forM enterStopPoint s = .ok () t) : EntersStops s rows t := by
  induction rows generalizing s with
  | nil =>
    cases done
    exact ⟨fun _ given => absurd given List.not_mem_nil,
      fun _ given => absurd given List.not_mem_nil, applies_nothing ready,
      (List.append_nil _).symm, rfl⟩
  | cons row rest ih =>
    obtain ⟨_, u, first, later⟩ := bind_eq_ok_iff.mp done
    obtain ⟨stop, read, enters⟩ :=
      enterStopPoint_spec ready sited (textual row List.mem_cons_self) first
    have others := ih enters.applies.ready enters.sited
      (fun other given => textual other (List.mem_cons_of_mem row given)) later
    refine ⟨fun other given => ?_, fun d given => ?_, ?_, ?_,
      others.elsewhere.trans enters.elsewhere⟩
    · rcases List.mem_cons.mp given with rfl | behind
      · exact ⟨stop, read⟩
      · exact others.read other behind
    · rcases List.mem_append.mp (List.flatMap_cons ▸ given) with here | behind
      · exact enters.decides d here
      · exact enters.applies.decides_iff.mp (others.decides d behind)
    · rw [List.flatMap_cons]
      exact enters.applies.trans others.applies
    · rw [others.stops, enters.stops, Roster.members_insert_of_fresh enters.fresh,
        List.filterMap_cons, read, List.append_assoc]
      rfl

theorem forM_enterStopPoint_runs {rows : List Row} (ready : s.registry.Ready) (sited : Sited s)
    (textual : ∀ row ∈ rows, ∃ x, row.optional "id" = .scalar (.text x))
    (read : ∀ row ∈ rows, ∃ stop, row.stopPoint = .ok stop)
    (distinct : ((s.registry.stopPoints.members ++
      rows.filterMap fun row => row.stopPoint.toOption).map identity).Nodup)
    (decides : ∀ d ∈ rows.flatMap Row.sites, Decides s d) :
    ∃ t, rows.forM enterStopPoint s = .ok () t := by
  induction rows generalizing s with
  | nil => exact ⟨s, rfl⟩
  | cons row rest ih =>
    obtain ⟨stop, has⟩ := read row List.mem_cons_self
    obtain ⟨x, named⟩ := textual row List.mem_cons_self
    rw [Row.optional_of_required (Row.stopPoint_spec has)] at named
    rw [List.filterMap_cons, has] at distinct
    rw [List.flatMap_cons] at decides
    have fresh : s.registry.stopPoints.contains stop.id = false :=
      Roster.contains_of_distinct distinct
    obtain ⟨u, first⟩ := enterStopPoint_runs ready sited has ⟨x, Value.scalar.inj named⟩ fresh
      fun d given => decides d (List.mem_append_left _ given)
    obtain ⟨other, same, enters⟩ :=
      enterStopPoint_spec ready sited (textual row List.mem_cons_self) first
    rw [has] at same
    cases same
    have distinct : ((u.registry.stopPoints.members ++
        rest.filterMap fun row => row.stopPoint.toOption).map identity).Nodup := by
      rw [enters.stops, Roster.members_insert_of_fresh enters.fresh, List.append_assoc]
      exact distinct
    obtain ⟨t, later⟩ := ih enters.applies.ready enters.sited
      (fun row given => textual row (List.mem_cons_of_mem _ given))
      (fun row given => read row (List.mem_cons_of_mem _ given)) distinct
      fun d given => enters.applies.decides_iff.mpr (decides d (List.mem_append_right _ given))
    exact ⟨t, (bind_ok first).trans later⟩

/-! ## Routing constraints -/

/-- A row whose lists can be read. -/
structure ListsConstraints (row : Row) : Prop where
  named : row.required "id" = .ok (row.optional "id")
  areas : row.items "routing_constraint_areas" = .ok (row.listed "routing_constraint_areas")
  lines : row.items "routing_constraint_lines" = .ok (row.listed "routing_constraint_lines")

theorem enterConstraints_eq {row : Row} (lists : ListsConstraints row) :
    enterConstraints row = row.constraints.forM declare := by
  have areas : enterConstrainedArea row =
      fun entry => declare ⟨.constrainedAreas, row.optional "id", entry⟩ := by
    funext entry s
    exact check_bind lists.named
  have lines : enterConstrainedLine row =
      fun entry => declare ⟨.constrainedLines, row.optional "id", entry⟩ := by
    funext entry s
    exact check_bind lists.named
  have joined : row.constraints.forM declare =
      ((row.listed "routing_constraint_areas").forM (enterConstrainedArea row) >>= fun _ =>
        (row.listed "routing_constraint_lines").forM (enterConstrainedLine row)) := by
    rw [areas, lines]
    refine List.forM_append.trans ?_
    congr 1
    · exact List.forM_map
    · funext _
      exact List.forM_map
  rw [joined]
  funext s
  unfold enterConstraints
  rw [check_bind lists.areas]
  refine congrFun (congrArg (_ >>= ·) ?_) s
  funext _ t
  exact check_bind lists.lines

theorem listsConstraints_of_done {row : Row} {id : Value} (named : row.required "id" = .ok id)
    (done : enterConstraints row s = .ok () t) : ListsConstraints row := by
  obtain ⟨areas, hasAreas, rest⟩ := check_bind_eq_ok_iff.mp done
  obtain ⟨_, u, _, rest⟩ := bind_eq_ok_iff.mp rest
  obtain ⟨lines, hasLines, _⟩ := check_bind_eq_ok_iff.mp rest
  refine ⟨?_, ?_, ?_⟩
  · rw [named, Row.optional_of_required named]
  · rw [hasAreas, Row.listed_of_items hasAreas]
  · rw [hasLines, Row.listed_of_items hasLines]

theorem done_of_forM {γ : Type} {rows : List γ} {enter : γ → Load PUnit}
    (done : rows.forM enter s = .ok () t) : ∀ row ∈ rows, ∃ s t, enter row s = .ok () t := by
  induction rows generalizing s with
  | nil => intro row given; cases given
  | cons row rest ih =>
    obtain ⟨_, u, first, later⟩ := bind_eq_ok_iff.mp done
    intro other given
    rcases List.mem_cons.mp given with rfl | behind
    · exact ⟨s, u, first⟩
    · exact ih later other behind

theorem constraints_free {rows : List Row} {d : Declaration}
    (given : d ∈ rows.flatMap Row.constraints) : ¬d.relation.Places := by
  obtain ⟨row, _, listed⟩ := List.mem_flatMap.mp given
  rcases List.mem_append.mp listed with area | line
  · obtain ⟨entry, _, rfl⟩ := List.mem_map.mp area
    rintro (same | same) <;> cases same
  · obtain ⟨entry, _, rfl⟩ := List.mem_map.mp line
    rintro (same | same) <;> cases same

end Load
end LineClosure
