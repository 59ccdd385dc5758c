import LineClosure.Proofs.Snapshot.Contents

/-! Who owns what in a loaded network. Lines list their routes, routes their journey patterns and
patterns their vehicle journeys; one behind the other these lists are the tables of what is
listed, and whatever is listed names the one that lists it. -/

namespace LineClosure

open Keyed

namespace Row

variable {row : Row}

theorem lineId_of_route {lineId : Id} {route : Route} (read : row.wholeRoute? lineId = some route) :
    route.lineId = .scalar lineId := by
  obtain ⟨_, _, found, _, rfl⟩ := bare_of_whole Route.withPatterns read
  obtain ⟨_, _, rest⟩ := except_bind_eq_ok_iff.mp found
  obtain ⟨_, _, rest⟩ := except_bind_eq_ok_iff.mp rest
  obtain ⟨_, _, rest⟩ := except_bind_eq_ok_iff.mp rest
  cases rest
  rfl

theorem routeId_of_pattern {routeId : Id} {pattern : JourneyPattern}
    (read : row.wholePattern? routeId = some pattern) : pattern.routeId = .scalar routeId := by
  obtain ⟨_, _, found, _, rfl⟩ := bare_of_whole JourneyPattern.withJourneys read
  obtain ⟨_, _, rest⟩ := except_bind_eq_ok_iff.mp found
  obtain ⟨_, _, rest⟩ := except_bind_eq_ok_iff.mp rest
  cases rest
  rfl

theorem patternId_of_journey {patternId : Id} {journey : VehicleJourney}
    (read : row.vehicleJourney patternId = .ok journey) :
    journey.journeyPatternId = .scalar patternId := by
  obtain ⟨_, _, rest⟩ := except_bind_eq_ok_iff.mp read
  obtain ⟨_, _, rest⟩ := except_bind_eq_ok_iff.mp rest
  obtain ⟨_, _, rest⟩ := except_bind_eq_ok_iff.mp rest
  cases rest
  rfl

theorem idsIn?_of_line {line : Line} (read : row.wholeLine? = some line) :
    row.idsIn? "routes" = some line.routeIds := by
  obtain ⟨_, _, _, listed, rfl⟩ := bare_of_whole Line.withRoutes read
  exact listed

theorem idsIn?_of_route {lineId : Id} {route : Route} (read : row.wholeRoute? lineId = some route) :
    row.idsIn? "journey_patterns" = some route.journeyPatternIds := by
  obtain ⟨_, _, _, listed, rfl⟩ := bare_of_whole Route.withPatterns read
  exact listed

theorem idsIn?_of_pattern {routeId : Id} {pattern : JourneyPattern}
    (read : row.wholePattern? routeId = some pattern) :
    row.idsIn? "vehicle_journeys" = some pattern.vehicleJourneyIds := by
  obtain ⟨_, _, _, listed, rfl⟩ := bare_of_whole JourneyPattern.withJourneys read
  exact listed

theorem eq_of_idsIn? {name : String} {ids : List Reference} (read : row.idsIn? name = some ids) :
    ids = (row.nested name).map fun inner => .scalar inner.2.ownId := by
  obtain ⟨rows, has, rfl⟩ := Option.map_eq_some_iff.mp read
  rw [nested, listed_of_items (toOption_eq_some_iff.mp has), List.map_map]
  rfl

end Row

/-- What the owners list, one behind the other, is all items there are, and each item names the
one owner that lists it. -/
structure Roster.OwnsAll {α β : Type} [Keyed α] [Keyed β] (owners : Roster α)
    (lists : α → List Reference) (items : Roster β) (names : β → Reference) : Prop where
  together : owners.members.flatMap lists = items.ids.map Value.scalar
  owner : ∀ item ∈ items.members, ∃ a ∈ owners.members, names item = .scalar (key a) ∧
    ∀ other ∈ owners.members, .scalar (key item) ∈ lists other ↔ other = a

section
variable {α β : Type} [Keyed α] [Keyed β] {lists : α → List Reference} {names : β → Reference}

def listings (lists : α → List Reference) (owners : List α) : List (Reference × Reference) :=
  owners.flatMap fun a => (lists a).map fun id => (id, .scalar (key a))

theorem mem_listings_iff {owners : List α} {id owner : Reference} :
    (id, owner) ∈ listings lists owners ↔
      ∃ a ∈ owners, id ∈ lists a ∧ owner = .scalar (key a) := by
  constructor
  · intro found
    obtain ⟨a, member, there⟩ := List.mem_flatMap.mp found
    obtain ⟨_, listed, same⟩ := List.mem_map.mp there
    cases same
    exact ⟨a, member, listed, rfl⟩
  · rintro ⟨a, member, listed, rfl⟩
    exact List.mem_flatMap.mpr ⟨a, member, List.mem_map_of_mem listed⟩

/-- If what is listed, owner by owner, is what the items say of themselves, the owners own all
items. Identifiers are not used twice, so there is no second owner. -/
theorem Roster.ownsAll_of_listings {owners : Roster α} {items : Roster β}
    (same : listings lists owners.members =
      items.members.map fun b => (.scalar (key b), names b)) :
    owners.OwnsAll lists items names where
  together := by
    have firsts := congrArg (List.map Prod.fst) same
    rw [listings, List.map_flatMap] at firsts
    simp only [List.map_map, Function.comp_def, List.map_id_fun', id_eq] at firsts
    rw [firsts, ids, List.map_map]
    rfl
  owner item member := by
    have said : (.scalar (key item), names item) ∈ listings lists owners.members :=
      same ▸ List.mem_map_of_mem member
    obtain ⟨a, there, listed, named⟩ := mem_listings_iff.mp said
    refine ⟨a, there, named, fun other present => ⟨fun found => ?_, fun equal => equal ▸ listed⟩⟩
    have claim : (.scalar (key item), .scalar (key other)) ∈
        items.members.map fun b => (Value.scalar (key b), names b) :=
      same ▸ mem_listings_iff.mpr ⟨other, present, found, rfl⟩
    obtain ⟨twin, stands, equal⟩ := List.mem_map.mp claim
    have ids : key twin = key item := Value.scalar.inj (congrArg Prod.fst equal)
    have twins : twin = item := eq_of_identity stands member (congrArg canonical ids)
    have owners : Value.scalar (key other) = .scalar (key a) := by
      rw [← named, ← twins]
      exact (congrArg Prod.snd equal).symm
    exact eq_of_identity present there (congrArg canonical (Value.scalar.inj owners))

theorem listings_of_nested {rows : List (Id × Row)} {field : String}
    {outer : Id × Row → Option α} {inner : Id × Row → Option β}
    (outerReads : ∀ row ∈ rows, ∃ a, outer row = some a ∧ key a = row.2.ownId ∧
      lists a = (row.2.nested field).map fun inner => .scalar inner.2.ownId)
    (innerReads : ∀ row ∈ rows.flatMap fun row => row.2.nested field,
      ∃ b, inner row = some b ∧ key b = row.2.ownId ∧ names b = .scalar row.1) :
    listings lists (rows.filterMap outer) =
      ((rows.flatMap fun row => row.2.nested field).filterMap inner).map
        fun b => (.scalar (key b), names b) := by
  induction rows with
  | nil => rfl
  | cons row rest ih =>
    have here : ∀ nested ∈ row.2.nested field, (inner nested).map
        (fun b => (Value.scalar (key b), names b)) =
          some (.scalar nested.2.ownId, .scalar row.2.ownId) := by
      intro nested given
      have listed : nested ∈ (row :: rest).flatMap fun row => row.2.nested field :=
        List.mem_flatMap.mpr ⟨row, List.mem_cons_self, given⟩
      obtain ⟨b, read, named, owner⟩ := innerReads nested listed
      obtain ⟨_, _, rfl⟩ := List.mem_map.mp given
      rw [read, Option.map_some, named, owner]
    obtain ⟨a, read, named, ids⟩ := outerReads row List.mem_cons_self
    have later := ih (fun other given => outerReads other (List.mem_cons_of_mem row given))
      fun other given => innerReads other (List.flatMap_cons ▸ List.mem_append_right _ given)
    -- the record lists the nested rows in the order in which these name it
    have first : listings lists [a] = ((row.2.nested field).filterMap inner).map
        fun b => (.scalar (key b), names b) := by
      rw [List.map_filterMap, List.filterMap_congr here, List.filterMap_eq_map', listings,
        List.flatMap_singleton, ids, named, List.map_map]
      rfl
    have split : listings lists (a :: rest.filterMap outer) =
        listings lists [a] ++ listings lists (rest.filterMap outer) := by
      rw [← List.singleton_append]
      exact List.flatMap_append
    rw [List.filterMap_cons, read, split, first, later, List.flatMap_cons, List.filterMap_append,
      List.map_append]

end

namespace Load

section
variable {document : Row} {loading : Loading} (loaded : sections document {} = .ok () loading)

include loaded

theorem read_of_sections (kind : Kind) {row : Id × Row} (given : row ∈ document.owned kind) :
    ∃ a, kind.record? row = some a ∧ key a = row.2.ownId := by
  obtain ⟨a, read⟩ := (accepts_of_sections loaded kind given).reads
  exact ⟨a, read, (Row.ownId_of_required (kind.required_of_record? read)).symm⟩

theorem ownsAll_of_nested (outer inner : Kind) (field : String)
    {lists : outer.Entry → List Reference} {names : inner.Entry → Reference}
    (outerApart : outer ≠ .stopPoint) (innerApart : inner ≠ .stopPoint)
    (nested : document.owned inner = (document.owned outer).flatMap fun row => row.2.nested field)
    (listed : ∀ row a, outer.record? row = some a → row.2.idsIn? field = some (lists a))
    (named : ∀ row b, inner.record? row = some b → names b = .scalar row.1) :
    Roster.OwnsAll (Entity.table (α := outer.Entry) loading.registry) lists
      (Entity.table (α := inner.Entry) loading.registry) names := by
  apply Roster.ownsAll_of_listings
  rw [members_of_sections loaded outer outerApart, members_of_sections loaded inner innerApart,
    nested]
  refine listings_of_nested (fun row given => ?_) fun row given => ?_
  · obtain ⟨a, read, same⟩ := read_of_sections loaded outer given
    exact ⟨a, read, same, Row.eq_of_idsIn? (listed row a read)⟩
  · obtain ⟨b, read, same⟩ := read_of_sections loaded inner (nested ▸ given)
    exact ⟨b, read, same, named row b read⟩

theorem ownsAll_lines :
    loading.registry.lines.OwnsAll Line.routeIds loading.registry.routes Route.lineId := by
  have nested : document.owned .route =
      (document.owned .line).flatMap fun row => row.2.nested "routes" := by
    simp only [Row.owned, Row.routeRows, Kind.tableName, List.flatMap_map]
  exact ownsAll_of_nested loaded .line .route "routes" (by decide) (by decide) nested
    (fun _ _ read => Row.idsIn?_of_line read) fun _ _ read => Row.lineId_of_route read

theorem ownsAll_routes :
    loading.registry.routes.OwnsAll Route.journeyPatternIds loading.registry.journeyPatterns
      JourneyPattern.routeId :=
  ownsAll_of_nested loaded .route .journeyPattern "journey_patterns" (by decide) (by decide) rfl
    (fun _ _ read => Row.idsIn?_of_route read) fun _ _ read => Row.routeId_of_pattern read

theorem ownsAll_patterns :
    loading.registry.journeyPatterns.OwnsAll JourneyPattern.vehicleJourneyIds
      loading.registry.vehicleJourneys VehicleJourney.journeyPatternId :=
  ownsAll_of_nested loaded .journeyPattern .vehicleJourney "vehicle_journeys" (by decide)
    (by decide) rfl (fun _ _ read => Row.idsIn?_of_pattern read)
    fun _ _ read => Row.patternId_of_journey (toOption_eq_some_iff.mp read)

end
end Load
end LineClosure
