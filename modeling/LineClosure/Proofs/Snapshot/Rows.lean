import LineClosure.Proofs.Snapshot.Links

/-! The rows of a document by kind, wherever they are nested, and the record that each stands
for. A part of a load gains some rows if it enters just their records, in their order. Stop
points are changed later on, by the routes that call at them, so of these only the
identifiers are told. -/

namespace LineClosure

open Keyed

/-! A record of a row with others nested in it is given their identifiers last. -/

def Line.withRoutes (ids : List Reference) (line : Line) : Line := { line with routeIds := ids }

def Route.withPatterns (ids : List Reference) (route : Route) : Route :=
  { route with journeyPatternIds := ids }

def JourneyPattern.withJourneys (ids : List Reference) (pattern : JourneyPattern) :
    JourneyPattern :=
  { pattern with vehicleJourneyIds := ids }

namespace Row

def ownId (row : Row) : Id := (row.optional "id").id?.getD .null

def nested (row : Row) (name : String) : List (Id × Row) :=
  (row.listed name).map fun inner => (row.ownId, inner)

def idsIn? (row : Row) (name : String) : Option (List Reference) :=
  (row.items name).toOption.map fun rows => rows.map fun inner : Row => .scalar inner.ownId

def wholeLine? (row : Row) : Option Line := do
  let line ← row.line.toOption
  return { line with routeIds := ← row.idsIn? "routes" }

def wholeRoute? (row : Row) (lineId : Id) : Option Route := do
  let route ← (row.route lineId).toOption
  return { route with journeyPatternIds := ← row.idsIn? "journey_patterns" }

def wholePattern? (row : Row) (routeId : Id) : Option JourneyPattern := do
  let pattern ← (row.journeyPattern routeId).toOption
  return { pattern with vehicleJourneyIds := ← row.idsIn? "vehicle_journeys" }

theorem ownId_of_required {row : Row} {id : Id} (has : row.required "id" = .ok (.scalar id)) :
    row.ownId = id := by
  unfold ownId
  rw [optional_of_required has]
  rfl

section
variable (document : Row)

def routeRows : List (Id × Row) :=
  (document.listed "lines").flatMap fun line : Row => line.nested "routes"

def patternRows : List (Id × Row) :=
  document.routeRows.flatMap fun route => route.2.nested "journey_patterns"

def journeyRows : List (Id × Row) :=
  document.patternRows.flatMap fun pattern => pattern.2.nested "vehicle_journeys"

/-- The rows of a kind in the order of the document, each with the identifier of the row that
it is nested in, if it is in one. -/
def owned : Kind → List (Id × Row)
  | .route => document.routeRows
  | .journeyPattern => document.patternRows
  | .vehicleJourney => document.journeyRows
  | kind => (document.listed kind.tableName).map fun row => (.null, row)

def ofKind (kind : Kind) : List Row := (document.owned kind).map (·.2)

end
end Row

def Kind.record? : (kind : Kind) → Id × Row → Option kind.Entry
  | network => fun row => row.2.network.toOption
  | company => fun row => row.2.company.toOption
  | groupOfLines => fun row => row.2.groupOfLines.toOption
  | line => fun row => row.2.wholeLine?
  | route => fun row => row.2.wholeRoute? row.1
  | journeyPattern => fun row => row.2.wholePattern? row.1
  | vehicleJourney => fun row => (row.2.vehicleJourney row.1).toOption
  | timetable => fun row => row.2.timetable.toOption
  | stopArea => fun row => row.2.fittedArea?
  | stopPoint => fun row => row.2.stopPoint.toOption
  | connectionLink => fun row => row.2.connectionLink.toOption
  | accessPoint => fun row => row.2.accessPoint.toOption
  | accessLink => fun row => row.2.accessLink.toOption

theorem Kind.required_of_record? (kind : Kind) {row : Id × Row} {a : kind.Entry}
    (read : kind.record? row = some a) : row.2.required "id" = .ok (.scalar (key a)) := by
  -- every reader takes the identifier first and looks whether it can be one last
  have plain : ∀ {α : Type} {x : Except Failure α} {b : α}, x.toOption = some b → x = .ok b :=
    toOption_eq_some_iff.mp
  cases kind with
  | stopArea => exact (Row.fittedArea?_spec read).1
  | network =>
    obtain ⟨v, has, rest⟩ := except_bind_eq_ok_iff.mp (plain read)
    dsimp only at rest
    split at rest
    all_goals
      repeat obtain ⟨_, _, rest⟩ := except_bind_eq_ok_iff.mp rest
      cases rest
      exact Row.identifier_eq_ok_iff.mp ‹Row.identifier v = _› ▸ has
  | line | route | journeyPattern =>
    obtain ⟨bare, found, whole⟩ := Option.bind_eq_some_iff.mp read
    obtain ⟨ids, _, same⟩ := Option.bind_eq_some_iff.mp whole
    cases same
    obtain ⟨v, has, rest⟩ := except_bind_eq_ok_iff.mp (plain found)
    repeat obtain ⟨_, _, rest⟩ := except_bind_eq_ok_iff.mp rest
    cases rest
    exact Row.identifier_eq_ok_iff.mp ‹Row.identifier v = _› ▸ has
  | _ =>
    obtain ⟨v, has, rest⟩ := except_bind_eq_ok_iff.mp (plain read)
    repeat obtain ⟨_, _, rest⟩ := except_bind_eq_ok_iff.mp rest
    cases rest
    exact Row.identifier_eq_ok_iff.mp ‹Row.identifier v = _› ▸ has

/-- What a row has looked up while its record enters. -/
def Kind.lookedUp (kind : Kind) (row : Row) : List Reference :=
  match kind with
  | connectionLink => [row.optional "start", row.optional "end"]
  | accessPoint | accessLink => [row.optional "stop_area"]
  | stopPoint =>
    if (row.optional "stop_area").isTruthy then [row.optional "stop_area"] else []
  | route => row.listed "stop_points"
  | _ => []

/-- A row that can be read, and that looks up nothing but scalars. -/
structure Kind.Accepts (kind : Kind) (row : Id × Row) : Prop where
  reads : ∃ a, kind.record? row = some a
  scalars : ∀ reference ∈ kind.lookedUp row.2, ∃ id, reference = .scalar id

abbrev Rows : Type := Kind → List (Id × Row)

namespace Rows

def none : Rows := fun _ => []

def one (kind : Kind) (row : Id × Row) : Rows := fun other => if other = kind then [row] else []

def append (first second : Rows) : Rows := fun kind => first kind ++ second kind

def gather {γ : Type} (items : List γ) (part : γ → Rows) : Rows :=
  fun kind => items.flatMap fun item => part item kind

@[simp] theorem one_self (kind : Kind) (row : Id × Row) : one kind row kind = [row] := if_pos rfl

theorem one_of_ne {kind other : Kind} (differ : other ≠ kind) (row : Id × Row) :
    one kind row other = [] := if_neg differ

theorem forall_mem_one {kind : Kind} {row : Id × Row} {P : Kind → Id × Row → Prop}
    (holds : P kind row) : ∀ other, ∀ p ∈ one kind row other, P other p := by
  intro other p given
  by_cases same : other = kind
  · subst same
    rw [one_self] at given
    exact List.mem_singleton.mp given ▸ holds
  · rw [one_of_ne same] at given
    cases given

theorem append_none (rows : Rows) : append rows none = rows := by
  funext kind
  exact List.append_nil _

theorem none_append (rows : Rows) : append none rows = rows := rfl

theorem gather_none {γ : Type} (items : List γ) : gather items (fun _ => none) = none := by
  funext kind
  exact List.flatMap_eq_nil_iff.mpr fun _ _ => rfl

end Rows

namespace Roster

variable {α : Type} [Keyed α]

theorem ids_insert_of_fresh {r : Roster α} {a : α} (fresh : r.contains (key a) = false) :
    (r.insert a).ids = r.ids ++ [key a] := by
  rw [ids, members_insert_of_fresh fresh, List.map_append]
  rfl

theorem members_amend_last {r : Roster α} {old : List α} {a : α} (last : r.members = old ++ [a])
    (change : α → α) (keeps : ∀ a, key (change a) = key a) :
    (r.amend (key a) change keeps).members = old ++ [change a] := by
  have distinct := r.distinct
  rw [last, List.map_append] at distinct
  have others : ∀ b ∈ old, (if identity b = canonical (key a) then change b else b) = b := by
    intro b there
    exact if_neg ((List.nodup_append.mp distinct).2.2 _ (List.mem_map_of_mem there) _
      List.mem_cons_self)
  have same : (r.amend (key a) change keeps).members =
      r.members.map fun b => if identity b = canonical (key a) then change b else b := rfl
  rw [same, last, List.map_append, List.map_congr_left others, List.map_id']
  exact congrArg (old ++ [·]) (if_pos rfl)

end Roster

/-- Records entered behind what was there: one for each of the rows, in their order. -/
structure Loading.Gains (s t : Loading) (rows : Rows) : Prop where
  accepts : ∀ kind : Kind, ∀ row ∈ rows kind, kind.Accepts row
  members : ∀ kind : Kind, kind ≠ .stopPoint →
    (Entity.table (α := kind.Entry) t.registry).members =
      (Entity.table (α := kind.Entry) s.registry).members ++ (rows kind).filterMap kind.record?
  stops : t.registry.stopPoints.ids =
    s.registry.stopPoints.ids ++ (rows .stopPoint).map fun row => row.2.ownId

def Loading.Lists (s t : Loading) (rows : Rows) : Prop :=
  ∀ kind : Kind, (Entity.table (α := kind.Entry) t.registry).ids =
    (Entity.table (α := kind.Entry) s.registry).ids ++ (rows kind).map fun row => row.2.ownId

namespace Loading

variable {s t u : Loading}

theorem Gains.lists {rows : Rows} (gains : s.Gains t rows) : s.Lists t rows := by
  intro kind
  by_cases apart : kind = .stopPoint
  · subst apart
    exact gains.stops
  · have each : ∀ row ∈ rows kind, (kind.record? row).map key = some row.2.ownId := by
      intro row given
      obtain ⟨a, read⟩ := (gains.accepts kind row given).reads
      rw [read, Row.ownId_of_required (kind.required_of_record? read)]
      rfl
    rw [Roster.ids, gains.members kind apart, List.map_append, List.map_filterMap,
      List.filterMap_congr each, List.filterMap_eq_map']
    rfl

theorem gains_none (others : ∀ kind : Kind, kind ≠ .stopPoint →
      Entity.table (α := kind.Entry) t.registry = Entity.table s.registry)
    (stops : t.registry.stopPoints.ids = s.registry.stopPoints.ids) : s.Gains t .none where
  accepts _ _ given := absurd given List.not_mem_nil
  members kind apart := by
    rw [others kind apart]
    exact (List.append_nil _).symm
  stops := stops.trans (List.append_nil _).symm

theorem gains_of_sameTables (same : s.registry.SameTables t.registry) : s.Gains t .none :=
  gains_none (fun kind _ => same kind) (congrArg Roster.ids (same .stopPoint))

theorem gains_refl (s : Loading) : s.Gains s .none :=
  gains_of_sameTables fun _ => rfl

theorem Gains.trans {rows more : Rows} (first : s.Gains t rows) (second : t.Gains u more) :
    s.Gains u (rows.append more) where
  accepts kind row given :=
    (List.mem_append.mp given).elim (first.accepts kind row) (second.accepts kind row)
  members kind apart := by
    rw [second.members kind apart, first.members kind apart, List.append_assoc]
    exact congrArg _ List.filterMap_append.symm
  stops := by
    rw [second.stops, first.stops, List.append_assoc]
    exact congrArg _ List.map_append.symm

theorem Gains.then_none {rows : Rows} (first : s.Gains t rows) (second : t.Gains u .none) :
    s.Gains u rows :=
  Rows.append_none rows ▸ first.trans second

theorem gains_of_enter {kind : Kind} {row : Id × Row} {a : kind.Entry}
    (accepts : kind.Accepts row) (read : kind.record? row = some a)
    (entered : Edit.enter a s.registry = .ok () t.registry) : s.Gains t (.one kind row) := by
  obtain ⟨fresh, after⟩ := Edit.enter_eq_ok_iff.mp entered
  refine ⟨Rows.forall_mem_one accepts, fun other apart => ?_, ?_⟩
  · rw [after]
    by_cases same : other = kind
    · subst same
      rw [Kind.table_withTable, Roster.members_insert_of_fresh fresh, Rows.one_self,
        List.filterMap_cons, read]
      rfl
    · rw [Kind.table_withTable_of_ne same, Rows.one_of_ne same]
      exact (List.append_nil _).symm
  · by_cases same : kind = .stopPoint
    · subst same
      rw [after, Rows.one_self, List.map_singleton,
        Row.ownId_of_required (Kind.required_of_record? _ read)]
      exact Roster.ids_insert_of_fresh fresh
    · have stops : t.registry.stopPoints = s.registry.stopPoints := by
        rw [after]
        exact Kind.table_withTable_of_ne (Ne.symm same) _ _
      rw [stops, Rows.one_of_ne (Ne.symm same)]
      exact (List.append_nil _).symm

/-- The record of a row was entered, then those of the rows nested in it, and then it was given
their list. -/
theorem Gains.around {kind : Kind} (apart : kind ≠ .stopPoint) {row : Id × Row} {bare : kind.Entry}
    {change : kind.Entry → kind.Entry} {keeps : ∀ a, key (change a) = key a} {inner : Rows}
    (accepts : kind.Accepts row) (whole : kind.record? row = some (change bare))
    (entered : Edit.enter bare s.registry = .ok () t.registry) (nested : t.Gains u inner)
    (none : inner kind = []) {v : Loading}
    (amended : v.registry = Entity.withTable u.registry
      ((Entity.table u.registry).amend (key bare) change keeps)) :
    s.Gains v ((Rows.one kind row).append inner) := by
  obtain ⟨fresh, same⟩ := Edit.enter_eq_ok_iff.mp entered
  refine ⟨fun other p given => ?_, fun other apart' => ?_, ?_⟩
  · rcases List.mem_append.mp given with own | behind
    · exact Rows.forall_mem_one accepts other p own
    · exact nested.accepts other p behind
  -- the rows nested in this one are of other kinds, so its record is still the last in its table
  · by_cases equal : other = kind
    · subst equal
      have last : (Entity.table (α := other.Entry) u.registry).members =
          (Entity.table (α := other.Entry) s.registry).members ++ [bare] := by
        rw [nested.members other apart, none, same, Kind.table_withTable,
          Roster.members_insert_of_fresh fresh]
        exact List.append_nil _
      rw [amended, Kind.table_withTable, Roster.members_amend_last last, Rows.append,
        Rows.one_self, none, List.append_nil, List.filterMap_cons, whole]
      rfl
    · rw [amended, Kind.table_withTable_of_ne equal, nested.members other apart', same,
        Kind.table_withTable_of_ne equal, Rows.append, Rows.one_of_ne equal]
      rfl
  · have after : v.registry.stopPoints = u.registry.stopPoints := by
      rw [amended]
      exact Kind.table_withTable_of_ne (Ne.symm apart) _ _
    have before : t.registry.stopPoints = s.registry.stopPoints := by
      rw [same]
      exact Kind.table_withTable_of_ne (Ne.symm apart) _ _
    rw [after, nested.stops, before, Rows.append, Rows.one_of_ne (Ne.symm apart)]
    rfl

end Loading

end LineClosure
