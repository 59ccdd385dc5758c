import LineClosure.Proofs.Registry.Queries
import LineClosure.Proofs.Snapshot.Contents
import Mathlib.Data.List.Duplicate

/-! Rows that can be read, and what a load makes of them. The records of such rows are entered one
behind the other, until one comes whose identifier is taken; for that one the load is refused,
and for nothing else. -/

namespace LineClosure

open Keyed

def Rows.Readable (rows : Rows) : Prop := ∀ kind : Kind, ∀ row ∈ rows kind, kind.Accepts row

namespace Rows.Readable

variable {rows more : Rows}

theorem left (readable : (rows.append more).Readable) : rows.Readable :=
  fun kind row given => readable kind row (List.mem_append_left _ given)

theorem right (readable : (rows.append more).Readable) : more.Readable :=
  fun kind row given => readable kind row (List.mem_append_right _ given)

theorem each {γ : Type} {items : List γ} {part : γ → Rows}
    (readable : (Rows.gather items part).Readable) {item : γ} (given : item ∈ items) :
    (part item).Readable :=
  fun kind row there => readable kind row (List.mem_flatMap.mpr ⟨item, given, there⟩)

theorem single {kind : Kind} {row : Id × Row} (readable : (Rows.one kind row).Readable) :
    kind.Accepts row :=
  readable kind row (by rw [one_self]; exact List.mem_singleton_self row)

end Rows.Readable

namespace Loading

variable {s t : Loading} {rows more : Rows} {kind : Kind} {id : Id}

/-- Among the identifiers that are there and those of the rows to come, one is used twice. -/
def Clashes (s : Loading) (rows : Rows) (kind : Kind) (id : Id) : Prop :=
  List.Duplicate (canonical id)
    (((Entity.table (α := kind.Entry) s.registry).ids ++
      (rows kind).map fun row => row.2.ownId).map canonical)

theorem Lists.clashes (lists : s.Lists t rows) (clash : t.Clashes more kind id) :
    s.Clashes (rows.append more) kind id := by
  rw [Clashes, lists kind, List.append_assoc, ← List.map_append] at clash
  exact clash

theorem Clashes.before (clash : s.Clashes rows kind id) : s.Clashes (rows.append more) kind id := by
  refine List.Duplicate.mono_sublist clash (List.Sublist.map _ ?_)
  exact (List.Sublist.refl _).append ((List.sublist_append_left _ _).map _)

theorem Clashes.of_start (clash : Clashes {} rows kind id) :
    List.Duplicate (canonical id) (((rows kind).map fun row => row.2.ownId).map canonical) := by
  have none : (Entity.table (α := kind.Entry) ({} : Loading).registry).ids = [] := by
    cases kind <;> rfl
  rwa [Clashes, none, List.nil_append] at clash

end Loading

namespace Load

variable {α β γ : Type} {s t : Loading} {rows more : Rows}

/-- A load gets to its end, with the records of the rows entered, or it is refused because of
an identifier that is used twice. -/
inductive Settles (x : Load α) (s : Loading) (rows : Rows) : Prop where
  | runs {a : α} {t : Loading} (done : x s = .ok a t) (lists : s.Lists t rows)
  | refused {kind : Kind} {id : Id} {t : Loading}
    (failed : x s = .error (.refused (.duplicate kind id)) t) (clash : s.Clashes rows kind id)

theorem Settles.congr {x y : Load α} (settles : Settles y s rows) (same : x s = y s) :
    Settles x s rows := by
  cases settles with
  | runs done lists => exact .runs (same.trans done) lists
  | refused failed clash => exact .refused (same.trans failed) clash

theorem Settles.bind {x : Load α} {rest : α → Load β} (first : Settles x s rows)
    (second : ∀ a t, x s = .ok a t → Settles (rest a) t more) :
    Settles (x >>= rest) s (rows.append more) := by
  cases first with
  | refused failed clash => exact .refused (bind_error failed) clash.before
  | runs done lists =>
    cases second _ _ done with
    | refused failed clash => exact .refused ((bind_ok done).trans failed) (lists.clashes clash)
    | runs ended further =>
      refine .runs ((bind_ok done).trans ended) fun kind => ?_
      rw [further kind, lists kind, List.append_assoc, ← List.map_append]
      rfl

theorem Settles.then_none {x : Load α} {rest : α → Load β} (first : Settles x s rows)
    (second : ∀ a t, x s = .ok a t → Settles (rest a) t .none) : Settles (x >>= rest) s rows :=
  Rows.append_none rows ▸ first.bind second

theorem Settles.after_check {x : Except Failure α} {rest : α → Load β} {a : α}
    (settles : Settles (rest a) s rows) (found : x = .ok a) : Settles (check x >>= rest) s rows :=
  settles.congr (check_bind found)

theorem settles_of_runs {x : Load α} {Q : α → Prop} (brings : Brings x rows Q)
    (runs : ∃ a t, x s = .ok a t) : Settles x s rows := by
  obtain ⟨a, t, done⟩ := runs
  exact .runs done (brings s a t done).1.lists

theorem settles_pure (a : α) (s : Loading) : Settles (pure a) s .none :=
  settles_of_runs (brings_pure a) ⟨a, s, rfl⟩

theorem settles_forM {items : List γ} {enter : γ → Load PUnit} {part : γ → Rows}
    (I : Loading → Prop) (each : ∀ item ∈ items, ∀ s, I s → Settles (enter item) s (part item))
    (keeps : ∀ item ∈ items, ∀ s t, I s → enter item s = .ok ⟨⟩ t → I t) (holds : I s) :
    Settles (items.forM enter) s (.gather items part) := by
  induction items generalizing s with
  | nil => exact settles_pure PUnit.unit s
  | cons item rest ih =>
    refine (each item List.mem_cons_self s holds).bind fun _ t done => ?_
    exact ih (fun other given => each other (List.mem_cons_of_mem item given))
      (fun other given => keeps other (List.mem_cons_of_mem item given))
      (keeps item List.mem_cons_self s t holds done)

theorem settles_each {items : List γ} {enter : γ → Load PUnit} {part : γ → Rows}
    (each : ∀ item ∈ items, ∀ s, Settles (enter item) s (part item)) (s : Loading) :
    Settles (items.forM enter) s (.gather items part) :=
  settles_forM (fun _ => True) (fun item given s _ => each item given s)
    (fun _ _ _ _ _ _ => trivial) trivial

theorem settles_mapM {items : List γ} {enter : γ → Load α} {part : γ → Rows}
    (each : ∀ item ∈ items, ∀ s, Settles (enter item) s (part item)) (s : Loading) :
    Settles (items.mapM enter) s (.gather items part) := by
  induction items generalizing s with
  | nil =>
    rw [List.mapM_nil]
    exact settles_pure [] s
  | cons item rest ih =>
    rw [List.mapM_cons]
    refine (each item List.mem_cons_self s).bind fun _ t _ => ?_
    refine (ih (fun other given => each other (List.mem_cons_of_mem item given)) t).then_none ?_
    exact fun _ u _ => settles_pure _ u

/-! ## Entering -/

theorem kind_entry (kind : Kind) : Entity.kind kind.Entry = kind := by
  cases kind <;> rfl

theorem enter_of_taken {α : Type} [Entity α] {a : α} {r : Registry}
    (taken : (Entity.table (α := α) r).contains (key a) = true) :
    Edit.enter a r = .error (.duplicate (Entity.kind α) (key a)) r := by
  unfold Edit.enter
  rw [get_bind]
  dsimp only
  rw [taken]
  rfl

theorem apply_of_taken {kind : Kind} {a : kind.Entry}
    (taken : (Entity.table (α := kind.Entry) s.registry).contains (key a) = true) :
    apply (Edit.enter a) s = .error (.refused (.duplicate kind (key a))) s := by
  unfold apply
  rw [enter_of_taken taken, kind_entry]

theorem clashes_of_taken {kind : Kind} {a : kind.Entry} {row : Id × Row}
    (named : row.2.ownId = key a)
    (taken : (Entity.table (α := kind.Entry) s.registry).contains (key a) = true) :
    s.Clashes (.one kind row) kind (key a) := by
  have there : canonical (key a) ∈
      (Entity.table (α := kind.Entry) s.registry).ids.map canonical := by
    rw [← Roster.identities_eq_map]
    exact Roster.contains_key_iff.mp taken
  unfold Loading.Clashes
  rw [Rows.one_self, List.map_append, List.duplicate_iff_sublist]
  refine (List.singleton_sublist.mpr there).append ?_
  rw [← named]
  exact List.Sublist.refl _

theorem settles_enter (kind : Kind) {a : kind.Entry} {row : Id × Row}
    (named : row.2.ownId = key a) (s : Loading) :
    Settles (apply (Edit.enter a)) s (.one kind row) := by
  cases taken : (Entity.table (α := kind.Entry) s.registry).contains (key a) with
  | true => exact .refused (apply_of_taken taken) (clashes_of_taken named taken)
  | false =>
    refine .runs (apply_eq_ok_iff.mpr ⟨_, Edit.enter_eq_ok_iff.mpr ⟨taken, rfl⟩, rfl⟩) ?_
    intro other
    dsimp only
    by_cases same : other = kind
    · subst same
      rw [Kind.table_withTable, Roster.ids_insert_of_fresh taken, Rows.one_self,
        List.map_singleton, named]
    · rw [Kind.table_withTable_of_ne same, Rows.one_of_ne same]
      exact (List.append_nil _).symm

theorem settles_of_same {x : Load α} {a : α} (done : x s = .ok a t)
    (same : s.registry.SameTables t.registry) : Settles x s .none :=
  .runs done (Loading.gains_of_sameTables same).lists

/-! ## Places -/

theorem enterStopArea_eq {row : Row} {area : StopArea} (fits : row.fittedArea? = some area)
    (s : Loading) : ∃ events, enterStopArea row s = apply (Edit.enter area) { s with events } := by
  obtain ⟨hasId, hasType⟩ := Row.fittedArea?_spec fits
  rw [enterStopArea_run hasId hasType]
  unfold Row.fittedArea? at fits
  rw [Row.optional_of_required hasId] at fits
  split at fits
  · next plain comment number read cut =>
    cases fits
    split
    · next other =>
      rw [other] at cut
      cases cut
    · next told c n other =>
      rw [other] at cut
      cases cut
      exact ⟨_, check_bind read⟩
  · cases fits

theorem settles_enterStopArea {row : Row} (accepts : Kind.Accepts .stopArea (.null, row))
    (s : Loading) : Settles (enterStopArea row) s (.one .stopArea (.null, row)) := by
  obtain ⟨area, fitted⟩ := accepts.reads
  have named : row.ownId = area.id :=
    Row.ownId_of_required (Kind.required_of_record? .stopArea fitted)
  obtain ⟨events, same⟩ := enterStopArea_eq fitted s
  have entered : Settles (apply (Edit.enter area)) { s with events }
      (.one .stopArea (.null, row)) := settles_enter .stopArea named _
  cases entered with
  | runs done lists => exact .runs (same.trans done) lists
  | refused failed clash => exact .refused (same.trans failed) clash

theorem noted_of_lookUp {α : Type} [Entity α] {r : Registry} {id : Id} {problem : Problem}
    (failed : r.lookUp (α := α) (.scalar id) = .error problem) : problem.IsNoted := by
  unfold Registry.lookUp at failed
  dsimp only [Value.id?] at failed
  split at failed
  · cases failed
  · cases failed
    trivial

theorem noted_of_nestLanding {r : Registry} {holder item : Id} {problem : Problem}
    (refused : r.nestLanding (.scalar holder) (.scalar item) = .error problem) :
    problem.IsNoted := by
  rcases except_bind_eq_error_iff.mp refused with failed | ⟨parent, _, rest⟩
  · exact noted_of_lookUp failed
  · rcases except_bind_eq_error_iff.mp rest with failed | ⟨child, _, rest⟩
    · exact noted_of_lookUp failed
    · split at rest
      · cases rest
        trivial
      · cases rest

/-- What is declared by scalars is decided. A line that is listed may be anything. -/
theorem decides_of_scalar {d : Declaration} (holder : ∃ id, d.holder = .scalar id)
    (item : d.relation = .containedAreas ∨ d.relation = .constrainedAreas →
      ∃ id, d.item = .scalar id) (s : Loading) : Decides s d := by
  obtain ⟨relation, _, reference⟩ := d
  obtain ⟨holder, rfl⟩ := holder
  intro problem refused
  cases relation with
  | containedAreas =>
    obtain ⟨item, rfl⟩ := item (Or.inl rfl)
    exact noted_of_nestLanding refused
  | constrainedAreas =>
    obtain ⟨item, rfl⟩ := item (Or.inr rfl)
    rcases except_bind_eq_error_iff.mp refused with failed | ⟨area, _, rest⟩
    · exact noted_of_lookUp failed
    · rcases except_bind_eq_error_iff.mp rest with failed | ⟨listed, _, rest⟩
      · exact noted_of_lookUp failed
      · split at rest
        · cases rest
          trivial
        · exact noted_of_nestLanding rest
  | containedStopPoints | constrainedLines =>
    rcases except_bind_eq_error_iff.mp refused with failed | ⟨area, _, rest⟩
    · exact noted_of_lookUp failed
    · split at rest
      · cases rest
        trivial
      · cases rest

theorem decides_of_sites {row : Row} (accepts : Kind.Accepts .stopPoint (.null, row))
    (s : Loading) : ∀ d ∈ row.sites, Decides s d := by
  intro d given
  obtain ⟨truthy, rfl⟩ := mem_sites_iff.mp given
  have looked : Kind.lookedUp .stopPoint row = [row.optional "stop_area"] := if_pos truthy
  refine decides_of_scalar (accepts.scalars _ ?_) (fun area => ?_) s
  · rw [looked]
    exact List.mem_singleton_self _
  · rcases area with same | same <;> cases same

theorem settles_enterStopPoint {row : Row} (ready : s.registry.Ready) (sited : Sited s)
    (text : ∃ x, row.optional "id" = .scalar (.text x))
    (accepts : Kind.Accepts .stopPoint (.null, row)) :
    Settles (enterStopPoint row) s (.one .stopPoint (.null, row)) := by
  obtain ⟨stop, found⟩ := accepts.reads
  have read : row.stopPoint = .ok stop := toOption_eq_some_iff.mp found
  have has := Kind.required_of_record? .stopPoint found
  have named : row.ownId = stop.id := Row.ownId_of_required has
  cases taken : s.registry.stopPoints.contains stop.id with
  | true =>
    have refused : enterStopPoint row s = .error (.refused (.duplicate .stopPoint stop.id)) s := by
      rw [enterStopPoint_eq read]
      exact bind_error (apply_of_taken taken)
    exact .refused refused (clashes_of_taken named taken)
  | false =>
    obtain ⟨x, same⟩ := text
    rw [Row.optional_of_required has] at same
    have runs := enterStopPoint_runs ready sited read ⟨x, Value.scalar.inj same⟩ taken
      (decides_of_sites accepts s)
    exact settles_of_runs (brings_enterStopPoint row) ⟨(), runs⟩

/-! ## Links -/

theorem find?_of_apply (kind : Kind) {a : kind.Entry} (done : apply (Edit.enter a) s = .ok () t) :
    (Entity.table (α := kind.Entry) t.registry).find? (key a) = some a := by
  obtain ⟨r, edited, rfl⟩ := apply_eq_ok_iff.mp done
  obtain ⟨fresh, rfl⟩ := Edit.enter_eq_ok_iff.mp edited
  rw [Roster.contains_eq_isSome, Option.isSome_eq_false_iff, Option.isNone_iff_eq_none] at fresh
  dsimp only
  rw [Kind.table_withTable, Roster.find?_insert, fresh, Option.none_or]
  exact if_pos rfl

/-- A record that is there is not a duplicate of itself. -/
theorem join_runs {α : Type} [Entity α] {r : Registry} {areaId : Id} {stamp : α → Nat} {a : α}
    {attach : StopArea → Registry → Registry} (there : r.stopAreas.contains areaId = true)
    (found : (Entity.table (α := α) r).find? (key a) = some a) :
    ∃ u, (do
      let area ← Edit.require StopArea (.scalar areaId)
      Edit.adopt stamp a
      modify (attach area) : Edit Unit) r = .ok () u := by
  obtain ⟨area, _, known⟩ := Registry.lookUp_of_has (α := StopArea) there
  have adopted : Edit.adopt stamp a r = .ok () r := by
    rw [Edit.adopt_run, found]
    exact if_neg (not_not.mpr rfl)
  refine ⟨attach area r, ?_⟩
  rw [Edit.join_run, known]
  dsimp only
  rw [adopted]

theorem settles_attach {kind : Kind} {id : Id} {area : Reference} {edit : Edit Unit}
    (named : ∃ id, area = .scalar id)
    (joins : ∀ areaId, area = .scalar areaId → s.registry.stopAreas.contains areaId = true →
      ∃ u, edit s.registry = .ok () u)
    (same : ∀ u, edit s.registry = .ok () u → s.registry.SameTables u) :
    Settles (attach kind id area edit) s .none := by
  obtain ⟨areaId, rfl⟩ := named
  refine Settles.after_check ?_ (Row.identifier_eq_ok_iff.mpr rfl)
  cases there : s.registry.stopAreas.contains areaId with
  | true =>
    obtain ⟨u, edited⟩ := joins areaId rfl there
    refine settles_of_same (a := ()) (t := { s with registry := u }) ?_ (same u edited)
    rw [get_bind, if_pos there]
    exact apply_eq_ok_iff.mpr ⟨u, edited, rfl⟩
  | false =>
    have told : Settles (tell (.linkToUnknownArea kind id (.scalar areaId))) s .none :=
      settles_of_runs (brings_tell _) ⟨(), _, rfl⟩
    refine told.congr ?_
    rw [get_bind, if_neg (by rw [there]; decide)]

section
variable {row : Row}

theorem settles_enterConnectionLink (accepts : Kind.Accepts .connectionLink (.null, row))
    (s : Loading) : Settles (enterConnectionLink row) s (.one .connectionLink (.null, row)) := by
  obtain ⟨(link : ConnectionLink), found⟩ := accepts.reads
  have read : row.connectionLink = .ok link := toOption_eq_some_iff.mp found
  obtain ⟨hasStart, hasEnd⟩ := Row.connectionLink_spec read
  have start := accepts.scalars _ (List.mem_cons_self : row.optional "start" ∈ _)
  have finish := accepts.scalars _
    (List.mem_cons_of_mem _ (List.mem_singleton_self (row.optional "end")))
  rw [hasStart] at start
  rw [hasEnd] at finish
  refine Settles.after_check ?_ read
  have named := Row.ownId_of_required (Kind.required_of_record? .connectionLink found)
  refine (settles_enter .connectionLink named s).then_none fun _ t entered => ?_
  have there : t.registry.connectionLinks.find? link.id = some link :=
    find?_of_apply .connectionLink entered
  have member := contains_of_apply .connectionLink entered
  have first : Settles (attach .connectionLink link.id link.startAreaId
      (Edit.joinConnection link.startAreaId link .start)) t .none := by
    refine settles_attach start (fun areaId area known => ?_) fun _ =>
      sameTables_joinConnection member
    rw [area, Edit.joinConnection_eq]
    exact join_runs known there
  refine first.then_none fun _ u attached => ?_
  have tables := (sameTables_attach (fun _ => sameTables_joinConnection member) attached).2
  have still : u.registry.connectionLinks = t.registry.connectionLinks := tables .connectionLink
  refine settles_attach finish (fun areaId area known => ?_) fun _ =>
    sameTables_joinConnection (still ▸ member)
  rw [area, Edit.joinConnection_eq]
  exact join_runs known ((congrArg (Roster.find? · link.id) still).trans there)

theorem settles_enterAccessPoint (accepts : Kind.Accepts .accessPoint (.null, row))
    (s : Loading) : Settles (enterAccessPoint row) s (.one .accessPoint (.null, row)) := by
  obtain ⟨point, found⟩ := accepts.reads
  have read : row.accessPoint = .ok point := toOption_eq_some_iff.mp found
  obtain ⟨areaId, area⟩ := accepts.scalars _ (List.mem_singleton_self (row.optional "stop_area"))
  refine Settles.after_check ?_ read
  have named := Row.ownId_of_required (Kind.required_of_record? .accessPoint found)
  refine (settles_enter .accessPoint named s).then_none fun _ t entered => ?_
  refine Settles.after_check ?_ (Row.identifier_eq_ok_iff.mpr area)
  have joins : Settles (attach .accessPoint point.id (row.optional "stop_area")
      (Edit.joinAccessPoint (row.optional "stop_area") point)) t .none := by
    refine settles_attach ⟨areaId, area⟩ (fun areaId same known => ?_) fun _ =>
      sameTables_joinAccessPoint (contains_of_apply .accessPoint entered)
    rw [same]
    exact join_runs known (find?_of_apply .accessPoint entered)
  cases asked : (row.optional "stop_area").isTruthy || t.registry.stopAreas.contains areaId with
  | true => exact joins.congr (by rw [get_bind, if_pos asked])
  | false => exact (settles_pure () t).congr (by rw [get_bind, if_neg (by rw [asked]; decide)])

theorem settles_enterAccessLink (accepts : Kind.Accepts .accessLink (.null, row))
    (s : Loading) : Settles (enterAccessLink row) s (.one .accessLink (.null, row)) := by
  obtain ⟨link, found⟩ := accepts.reads
  have read : row.accessLink = .ok link := toOption_eq_some_iff.mp found
  have named := Row.ownId_of_required (Kind.required_of_record? .accessLink found)
  have area := accepts.scalars _ (List.mem_singleton_self (row.optional "stop_area"))
  rw [Row.accessLink_spec read] at area
  refine Settles.after_check ?_ read
  refine (settles_enter .accessLink named s).then_none fun _ t entered => ?_
  refine settles_attach area (fun areaId same known => ?_) fun _ =>
    sameTables_joinAccessLink (contains_of_apply .accessLink entered)
  rw [same]
  exact join_runs known (find?_of_apply .accessLink entered)

end

/-! ## Lines with what is nested in them -/

theorem settles_around (kind : Kind) (row : Id × Row) {field : String} {bare : kind.Entry}
    {between : Load PUnit} {enterInner : Row → Load Id} {part : Id × Row → Rows}
    (change : List Reference → kind.Entry → kind.Entry) {answer : β}
    (keeps : ∀ ids a, key (change ids a) = key a) (named : row.2.ownId = key bare)
    (has : row.2.items field = .ok (row.2.listed field)) (first : ∀ t, Settles between t .none)
    (inner : ∀ nested ∈ row.2.listed field, ∀ t,
      Settles (enterInner nested) t (part (row.2.ownId, nested))) (s : Loading) :
    Settles (do
      apply (Edit.enter bare)
      between
      let ids ← (← check (row.2.items field)).mapM enterInner
      modify fun s => { s with
        registry := Entity.withTable s.registry
          ((Entity.table s.registry).amend (key bare) (change (ids.map .scalar)) (keeps _)) }
      return answer) s
      ((Rows.one kind row).append (.gather (row.2.nested field) part)) := by
  have parts : Rows.gather (row.2.nested field) part =
      .gather (row.2.listed field) fun nested => part (row.2.ownId, nested) := by
    funext other
    exact List.flatMap_map _ _ _
  rw [parts, ← Rows.none_append (.gather (row.2.listed field) _)]
  refine (settles_enter kind named s).bind fun _ t _ => (first t).bind fun _ u _ => ?_
  refine Settles.after_check ((settles_mapM inner u).then_none fun ids v _ => ?_) has
  refine .runs rfl fun other => ?_
  dsimp only
  by_cases same : other = kind
  · subst same
    rw [Kind.table_withTable, Roster.ids_amend]
    exact (List.append_nil _).symm
  · rw [Kind.table_withTable_of_ne same]
    exact (List.append_nil _).symm

theorem settles_enterVehicleJourney {patternId : Id} {row : Row}
    (accepts : Kind.Accepts .vehicleJourney (patternId, row)) (s : Loading) :
    Settles (enterVehicleJourney patternId row) s (.one .vehicleJourney (patternId, row)) := by
  obtain ⟨journey, found⟩ := accepts.reads
  have named := Row.ownId_of_required (Kind.required_of_record? .vehicleJourney found)
  refine Settles.after_check ?_ (toOption_eq_some_iff.mp found)
  exact (settles_enter .vehicleJourney named s).then_none fun _ t _ => settles_pure _ t

theorem settles_enterJourneyPattern {routeId : Id} {row : Row}
    (readable : (patternPart (routeId, row)).Readable) (s : Loading) :
    Settles (enterJourneyPattern routeId row) s (patternPart (routeId, row)) := by
  obtain ⟨whole, found⟩ := readable.left.single.reads
  have id := Row.ownId_of_required (Kind.required_of_record? .journeyPattern found)
  obtain ⟨pattern, ids, read, listed, rfl⟩ := Row.bare_of_whole JourneyPattern.withJourneys found
  have named : row.ownId = pattern.id := id
  refine Settles.after_check ?_ read
  refine settles_around .journeyPattern (routeId, row) JourneyPattern.withJourneys
    (fun _ _ => rfl) named (Row.items_of_idsIn? listed) (fun t => settles_pure PUnit.unit t)
    (fun nested given t => ?_) s
  rw [← named]
  exact settles_enterVehicleJourney
    (readable.right.each (List.mem_map_of_mem given)).single t

theorem settles_claims {routeId : Id} {ids : List Reference}
    (scalars : ∀ reference ∈ ids, ∃ id, reference = .scalar id) (s : Loading) :
    Settles (ids.forM (claimStop routeId)) s .none := by
  have each : ∀ reference ∈ ids, ∀ t, Settles (claimStop routeId reference) t .none := by
    intro reference given t
    obtain ⟨id, rfl⟩ := scalars reference given
    exact settles_of_runs (brings_claimStop routeId _) ⟨(), _, rfl⟩
  rw [← Rows.gather_none ids]
  exact settles_each each s

theorem settles_enterRoute {lineId : Id} {row : Row}
    (readable : (routePart (lineId, row)).Readable) (s : Loading) :
    Settles (enterRoute lineId row) s (routePart (lineId, row)) := by
  have accepts := readable.left.single
  obtain ⟨whole, found⟩ := accepts.reads
  have id := Row.ownId_of_required (Kind.required_of_record? .route found)
  obtain ⟨route, ids, read, listed, rfl⟩ := Row.bare_of_whole Route.withPatterns found
  have named : row.ownId = route.id := id
  have calls : Kind.lookedUp .route row = route.stopPointIds := Row.stopPointIds_of_route read
  refine Settles.after_check ?_ read
  refine settles_around .route (lineId, row) Route.withPatterns (fun _ _ => rfl) named
    (Row.items_of_idsIn? listed) (settles_claims (calls ▸ accepts.scalars))
    (fun nested given t => ?_) s
  rw [← named]
  exact settles_enterJourneyPattern (readable.right.each (List.mem_map_of_mem given)) t

theorem settles_enterLine {row : Row} (readable : (linePart row).Readable) (s : Loading) :
    Settles (enterLine row) s (linePart row) := by
  obtain ⟨whole, found⟩ := readable.left.single.reads
  have id := Row.ownId_of_required (Kind.required_of_record? .line found)
  obtain ⟨line, ids, read, listed, rfl⟩ := Row.bare_of_whole Line.withRoutes found
  have named : row.ownId = line.id := id
  refine Settles.after_check ?_ read
  refine settles_around .line (.null, row) Line.withRoutes (fun _ _ => rfl) named
    (Row.items_of_idsIn? listed) (fun t => settles_pure PUnit.unit t) (fun nested given t => ?_) s
  rw [← named]
  exact settles_enterRoute (readable.right.each (List.mem_map_of_mem given)) t

end Load
end LineClosure
