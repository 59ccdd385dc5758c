import LineClosure.Proofs.Snapshot.RowOrder
import LineClosure.Registry.Query

/-! The rows of a loaded snapshot. Every row of a stop area or a stop point and every entry of a
routing constraint is applied or rejected as the rules have it. -/

namespace LineClosure

open Keyed

/-- A stop area can be put under another one. -/
structure StopArea.Admits (parent child : StopArea) : Prop where
  apart : parent.id ≠ child.id
  allowed : child.areaType ∈ parent.areaType.children

namespace Registry

variable (r : Registry)

def Refuses (d : Declaration) : Prop :=
  ∃ problem : Problem, problem.IsNoted ∧ r.rejection? d = some ⟨d.holder, d.item, problem⟩

inductive NestsRow (row : Row) (area : StopArea) : Prop where
  | root (declared : row.parents = []) (free : r.parent? area.id = none)
  | inside {d : Declaration} {parent : StopArea} (declared : row.parents = [d])
    (found : r.stopAreas.resolve? d.holder = some parent) (admits : parent.Admits area)
    (holds : parent.areaType ≠ .routingConstraint) (kept : r.rejection? d = none)
    (there : r.parent? area.id = some parent)
  | listed {d : Declaration} {parent : StopArea} (declared : row.parents = [d])
    (found : r.stopAreas.resolve? d.holder = some parent) (admits : parent.Admits area)
    (constraint : parent.areaType = .routingConstraint) (kept : r.rejection? d = none)
    (there : area ∈ r.areasConstrainedBy parent.id) (free : r.parent? area.id = none)
  | refused {d : Declaration} (declared : row.parents = [d])
    (never : ∀ parent, r.stopAreas.resolve? d.holder = some parent → ¬parent.Admits area)
    (noted : r.Refuses d) (free : r.parent? area.id = none)

inductive SitesRow (row : Row) (stop : StopPoint) : Prop where
  | nowhere (declared : row.sites = []) (free : r.areaOf? stop.id = none)
  | inside {d : Declaration} {area : StopArea} (declared : row.sites = [d])
    (found : r.stopAreas.resolve? d.holder = some area)
    (boards : area.areaType.holdsStopPoints = true) (kept : r.rejection? d = none)
    (there : r.areaOf? stop.id = some area)
  | refused {d : Declaration} (declared : row.sites = [d])
    (never : ∀ area, r.stopAreas.resolve? d.holder = some area →
      area.areaType.holdsStopPoints = false)
    (noted : r.Refuses d) (free : r.areaOf? stop.id = none)

inductive ListsArea (area : StopArea) (entry : Reference) (d : Declaration) : Prop where
  | listed {other : StopArea} (constraint : area.areaType = .routingConstraint)
    (found : r.stopAreas.resolve? entry = some other) (admits : area.Admits other)
    (kept : r.rejection? d = none) (there : other ∈ r.areasConstrainedBy area.id)
  | refused
    (never : area.areaType = .routingConstraint →
      ∀ other, r.stopAreas.resolve? entry = some other → ¬area.Admits other)
    (noted : r.Refuses d)

inductive ListsLine (area : StopArea) (entry : Reference) (d : Declaration) : Prop where
  | listed (constraint : area.areaType = .routingConstraint) (kept : r.rejection? d = none)
    (there : Attachments.lists (r.linesConstrainedBy area.id) entry = true)
  | refused (never : area.areaType ≠ .routingConstraint) (noted : r.Refuses d)

/-- A row of a stop area is applied throughout. -/
structure AppliesArea (row : Row) (area : StopArea) : Prop where
  member : area ∈ r.stopAreas.members
  named : row.optional "id" = .scalar area.id
  ofType : row.areaType = .ok area.areaType
  nests : r.NestsRow row area
  listsAreas : ∀ entry ∈ row.listed "routing_constraint_areas",
    r.ListsArea area entry ⟨.constrainedAreas, row.optional "id", entry⟩
  listsLines : ∀ entry ∈ row.listed "routing_constraint_lines",
    r.ListsLine area entry ⟨.constrainedLines, row.optional "id", entry⟩

structure AppliesStop (row : Row) (stop : StopPoint) : Prop where
  member : stop ∈ r.stopPoints.members
  named : row.optional "id" = .scalar stop.id
  sites : r.SitesRow row stop

end Registry

/-! ## Where an item is -/

namespace Registry

variable {r s : Registry}

theorem noted_nesting_iff {id holder : Id} :
    r.nesting.noted id = some holder ↔ r.Holds ⟨.containedAreas, holder, .scalar id⟩ := by
  constructor
  · intro noted
    exact ⟨id, rfl, noted⟩
  · rintro ⟨other, same, noted⟩
    rw [Value.scalar.inj same]
    exact noted

theorem noted_siting_iff {id holder : Id} :
    r.siting.noted id = some holder ↔ r.Holds ⟨.containedStopPoints, holder, .scalar id⟩ := by
  constructor
  · intro noted
    exact ⟨id, rfl, noted⟩
  · rintro ⟨other, same, noted⟩
    rw [Value.scalar.inj same]
    exact noted

theorem rejection?_of_lands {d : Declaration} {c : Containment} (lands : r.Lands d c) :
    r.rejection? d = none := by
  unfold rejection?
  rw [landing_eq_ok_iff.mpr lands]

theorem find?_member {α : Type} [Keyed α] {table : Roster α} {a : α} (member : a ∈ table.members) :
    table.find? (key a) = some a :=
  Roster.find?_eq_some_iff.mpr ⟨member, rfl⟩

theorem mem_of_resolve? {α : Type} [Keyed α] {table : Roster α} {reference : Reference} {a : α}
    (found : table.resolve? reference = some a) : a ∈ table.members := by
  obtain ⟨_, _, there⟩ := Option.bind_eq_some_iff.mp found
  exact Roster.mem_of_find? there

theorem mem_areasConstrainedBy (ready : r.Ready) {holder : Id} {entry : Reference}
    {area : StopArea} (found : r.stopAreas.resolve? entry = some area)
    (held : r.Holds ⟨.constrainedAreas, holder, canonical entry⟩) :
    area ∈ r.areasConstrainedBy holder := by
  obtain ⟨x, text, rfl⟩ := text_of_resolve? ready.areas found
  obtain ⟨id, listed, same⟩ := held
  have alike : identity area = canonical id := by
    rw [identity, text]
    exact (Value.scalar.inj same).symm
  have there := Roster.find?_eq_some_iff.mpr ⟨mem_of_resolve? found, alike⟩
  exact List.mem_filterMap.mpr ⟨id, listed, there⟩

theorem lists_linesConstrainedBy {holder : Id} {entry : Reference}
    (held : r.Holds ⟨.constrainedLines, holder, canonical entry⟩) :
    Attachments.lists (r.linesConstrainedBy holder) entry = true := by
  obtain ⟨line, listed, same⟩ := held
  exact List.any_eq_true.mpr ⟨line, listed, decide_eq_true same.symm⟩

/-- Of texts, to be different is to be told apart. -/
theorem Ready.equals_iff (ready : r.Ready) {a b : StopArea} (first : a ∈ r.stopAreas.members) :
    a.id.equals b.id = false ↔ a.id ≠ b.id := by
  obtain ⟨x, text⟩ := ready.areas a first
  rw [text]
  show same (Scalar.text x) b.id = false ↔ _
  rw [Attachments.same_text_left, decide_eq_false_iff_not, ne_comm]

end Registry

namespace Load

variable {s t : Loading}

theorem refuses_of_decides {d : Declaration} (decides : Decides t d)
    (never : ∀ c, ¬t.registry.Lands d c) : t.registry.Refuses d := by
  cases lands : t.registry.landing d with
  | ok c => exact absurd (Registry.landing_eq_ok_iff.mp lands) (never c)
  | error problem =>
    refine ⟨problem, decides problem lands, ?_⟩
    unfold Registry.rejection?
    rw [lands]

/-! ## Rows -/

section
variable {rows : List Row} {part : Row → List Declaration} {relation : Relation}
  {ds : List Declaration} {row : Row} {id : Id}

/-- Where an item is that can be in one place only is what its own row declares. -/
theorem Applied.holds_iff_of_row (applied : Applied ds t) (places : relation.Places)
    (declares : ∀ d, d ∈ ds ∧ d.relation = relation ↔ d ∈ rows.flatMap part)
    (items : ∀ row, ∀ d ∈ part row, d.item = row.optional "id") (distinct : Distinct rows)
    (given : row ∈ rows) (named : row.optional "id" = .scalar id) (text : ∃ x, id = .text x)
    (holder : Id) :
    t.registry.Holds ⟨relation, holder, .scalar id⟩ ↔
      ∃ d ∈ part row, t.registry.Lands d ⟨relation, holder, canonical (.scalar id)⟩ := by
  have spelled : canonical (Value.scalar id) = .scalar id := by
    obtain ⟨x, rfl⟩ := text
    rfl
  rw [spelled, applied.holds]
  constructor
  · rintro ⟨d, declared, lands⟩
    obtain ⟨sort, item⟩ := lands.placed places
    obtain ⟨other, present, here⟩ := List.mem_flatMap.mp ((declares d).mp ⟨declared, sort⟩)
    have alike : canonical (other.optional "id") = canonical (row.optional "id") := by
      rw [← items other d here, item, named, spelled]
    obtain rfl := List.inj_on_of_nodup_map distinct present given alike
    exact ⟨d, here, lands⟩
  · rintro ⟨d, here, lands⟩
    exact ⟨d, ((declares d).mpr (List.mem_flatMap.mpr ⟨row, given, here⟩)).1, lands⟩

theorem relation_of_parents {d : Declaration} (here : d ∈ row.parents) :
    d.relation = .containedAreas := by
  rw [(mem_parents_iff.mp here).2]

theorem relation_of_sites {d : Declaration} (here : d ∈ row.sites) :
    d.relation = .containedStopPoints := by
  rw [(mem_sites_iff.mp here).2]

end

section
variable {areas stops : List Row} {d : Declaration}

def declared (areas stops : List Row) : List Declaration :=
  placings areas stops ++ areas.flatMap Row.constraints

theorem declared_of_parents {row : Row} (given : row ∈ areas) (here : d ∈ row.parents) :
    d ∈ declared areas stops :=
  List.mem_append_left _ (List.mem_append_left _ (List.mem_flatMap.mpr ⟨row, given, here⟩))

theorem declared_of_sites {row : Row} (given : row ∈ stops) (here : d ∈ row.sites) :
    d ∈ declared areas stops :=
  List.mem_append_left _ (List.mem_append_right _ (List.mem_flatMap.mpr ⟨row, given, here⟩))

theorem declared_of_constraints (stops : List Row) {row : Row} (given : row ∈ areas)
    (here : d ∈ row.constraints) : d ∈ declared areas stops :=
  List.mem_append_right _ (List.mem_flatMap.mpr ⟨row, given, here⟩)

theorem declared_parents_iff :
    d ∈ declared areas stops ∧ d.relation = .containedAreas ↔ d ∈ areas.flatMap Row.parents := by
  constructor
  · rintro ⟨given, sort⟩
    rcases List.mem_append.mp given with placed | listed
    · rcases List.mem_append.mp placed with parent | site
      · exact parent
      · obtain ⟨row, _, here⟩ := List.mem_flatMap.mp site
        cases sort.symm.trans (relation_of_sites here)
    · exact absurd (Or.inl sort) (constraints_free listed)
  · intro given
    obtain ⟨row, present, here⟩ := List.mem_flatMap.mp given
    exact ⟨declared_of_parents present here, relation_of_parents here⟩

theorem declared_sites_iff :
    d ∈ declared areas stops ∧ d.relation = .containedStopPoints ↔
      d ∈ stops.flatMap Row.sites := by
  constructor
  · rintro ⟨given, sort⟩
    rcases List.mem_append.mp given with placed | listed
    · rcases List.mem_append.mp placed with parent | site
      · obtain ⟨row, _, here⟩ := List.mem_flatMap.mp parent
        cases sort.symm.trans (relation_of_parents here)
      · exact site
    · exact absurd (Or.inr sort) (constraints_free listed)
  · intro given
    obtain ⟨row, present, here⟩ := List.mem_flatMap.mp given
    exact ⟨declared_of_sites present here, relation_of_sites here⟩

end

/-! ## What a load has made of each row -/

section
variable {document : Row} {areas stops : List Row} {start placed served loading : Loading}
  (course : Course document areas stops start placed served loading)

include course

theorem stopAreas_of_course :
    loading.registry.stopAreas.members = areas.filterMap Row.fittedArea? :=
  course.stopAreas ▸ course.places.stopAreas

theorem ids_of_course :
    loading.registry.stopPoints.ids =
      (stops.filterMap fun row => row.stopPoint.toOption).map key := by
  obtain ⟨aside, _, _⟩ := follows_services document placed () served course.services
  rw [course.stopPoints, aside.stops, Roster.ids, course.places.stopPoints]

theorem decides_of_course (d : Declaration) (given : d ∈ declared areas stops) :
    Decides loading d := by
  obtain ⟨aside, _, _⟩ := follows_services document placed () served course.services
  rcases List.mem_append.mp given with placing | listed
  · refine decides_of_perm (.of_eq (congrArg _ ?_)) (course.places.decides d placing)
    exact course.stopAreas.symm
  · refine decides_of_perm (.of_eq (congrArg _ ?_)) (course.decides d listed)
    rw [course.stopAreas, aside.areas]

theorem distinct_areas_of_course : Distinct areas := by
  apply distinct_of_areas course.places.fitted
  exact course.places.stopAreas ▸ placed.registry.stopAreas.distinct

theorem distinct_stops_of_course : Distinct stops := by
  apply distinct_of_stops course.places.read
  exact course.places.stopPoints ▸ placed.registry.stopPoints.distinct

theorem area_of_row {row : Row} (given : row ∈ areas) :
    ∃ area ∈ loading.registry.stopAreas.members,
      row.optional "id" = .scalar area.id ∧ row.areaType = .ok area.areaType := by
  obtain ⟨area, fits⟩ := course.places.fitted row given
  obtain ⟨hasId, hasType⟩ := Row.fittedArea?_spec fits
  refine ⟨area, ?_, Row.optional_of_required hasId, hasType⟩
  rw [stopAreas_of_course course]
  exact List.mem_filterMap.mpr ⟨row, given, fits⟩

theorem stop_of_row {row : Row} (given : row ∈ stops) :
    ∃ stop ∈ loading.registry.stopPoints.members, row.optional "id" = .scalar stop.id := by
  obtain ⟨read, reads⟩ := course.places.read row given
  have entered : key read ∈ loading.registry.stopPoints.ids := by
    rw [ids_of_course course]
    refine List.mem_map_of_mem (List.mem_filterMap.mpr ⟨row, given, ?_⟩)
    rw [reads]
    rfl
  obtain ⟨stop, member, same⟩ := Roster.mem_ids_iff.mp entered
  refine ⟨stop, member, ?_⟩
  rw [Row.optional_of_required (Row.stopPoint_spec reads)]
  exact congrArg Value.scalar same.symm

end

/-! ## Rows of stop areas -/

section
variable {r : Registry} (ready : r.Ready) {holder : Reference} {area : StopArea}
  (member : area ∈ r.stopAreas.members)

include ready member

theorem lands_of_admits {parent : StopArea} (found : r.stopAreas.resolve? holder = some parent)
    (admits : parent.Admits area) :
    r.Lands ⟨.containedAreas, holder, .scalar area.id⟩
      ⟨parent.areaType.childRelation, parent.id, canonical (.scalar area.id)⟩ := by
  have apart := (ready.equals_iff (Registry.mem_of_resolve? found)).mpr admits.apart
  exact .nested found (Registry.find?_member member) apart admits.allowed

theorem admits_of_lands {c : Containment}
    (lands : r.Lands ⟨.containedAreas, holder, .scalar area.id⟩ c) :
    ∃ parent, r.stopAreas.resolve? holder = some parent ∧ parent.Admits area ∧
      c = ⟨parent.areaType.childRelation, parent.id, canonical (.scalar area.id)⟩ := by
  cases lands with
  | nested hasParent hasChild apart allowed =>
    next parent child =>
    obtain rfl : child = area :=
      Option.some.inj (hasChild.symm.trans (Registry.find?_member member))
    have differ := (ready.equals_iff (Registry.mem_of_resolve? hasParent)).mp apart
    exact ⟨parent, hasParent, ⟨differ, allowed⟩, rfl⟩

end

theorem parents_cases (row : Row) :
    row.parents = [] ∨
      row.parents = [⟨.containedAreas, row.optional "parent", row.optional "id"⟩] := by
  unfold Row.parents
  split
  · exact Or.inr rfl
  · exact Or.inl rfl

theorem sites_cases (row : Row) :
    row.sites = [] ∨
      row.sites = [⟨.containedStopPoints, row.optional "stop_area", row.optional "id"⟩] := by
  unfold Row.sites
  split
  · exact Or.inr rfl
  · exact Or.inl rfl

section
variable {document : Row} {areas stops : List Row} {start placed served loading : Loading}
  (course : Course document areas stops start placed served loading) {row : Row} {area : StopArea}
  (given : row ∈ areas) (member : area ∈ loading.registry.stopAreas.members)
  (named : row.optional "id" = .scalar area.id)

include course given member named

theorem noted_of_row {holder : Id} :
    loading.registry.nesting.noted area.id = some holder ↔
      ∃ d ∈ row.parents,
        loading.registry.Lands d ⟨.containedAreas, holder, canonical (.scalar area.id)⟩ := by
  rw [Registry.noted_nesting_iff]
  exact course.applied.holds_iff_of_row (Or.inl rfl) (fun _ => declared_parents_iff)
    (fun row d here => by rw [(mem_parents_iff.mp here).2]) (distinct_areas_of_course course) given
    named (course.applied.ready.areas area member) holder

theorem free_of_row
    (never : ∀ d ∈ row.parents, ∀ holder,
      ¬loading.registry.Lands d ⟨.containedAreas, holder, canonical (.scalar area.id)⟩) :
    loading.registry.parent? area.id = none := by
  rw [course.applied.ready.coherent.parent?_eq]
  cases noted : loading.registry.nesting.noted area.id with
  | none => rfl
  | some holder =>
    obtain ⟨d, here, lands⟩ := (noted_of_row course given member named).mp noted
    exact absurd lands (never d here holder)

section
variable {reference : Reference}
  (one : row.parents = [⟨.containedAreas, reference, .scalar area.id⟩])

include one

theorem nestsRow_of_admits {parent : StopArea}
    (found : loading.registry.stopAreas.resolve? reference = some parent)
    (admits : parent.Admits area) : loading.registry.NestsRow row area := by
  have ready := course.applied.ready
  have listed : (⟨.containedAreas, reference, .scalar area.id⟩ : Declaration) ∈ row.parents :=
    one ▸ List.mem_singleton_self _
  have lands := lands_of_admits ready member found admits
  have kept := Registry.rejection?_of_lands lands
  by_cases constraint : parent.areaType = .routingConstraint
  · have free : loading.registry.parent? area.id = none := by
      apply free_of_row course given member named
      intro d here holder other
      rw [one] at here
      rw [List.mem_singleton.mp here] at other
      -- it can only land in the constraint, which notes no holder
      obtain ⟨p, hasParent, _, same⟩ := admits_of_lands ready member other
      obtain rfl : p = parent := Option.some.inj (hasParent.symm.trans found)
      have relation := congrArg Containment.relation same
      rw [constraint] at relation
      cases relation
    rw [AreaType.childRelation_of_eq constraint] at lands
    have itself : loading.registry.stopAreas.resolve? (.scalar area.id) = some area :=
      Registry.find?_member member
    have held := (course.applied.holds _).mpr ⟨_, declared_of_parents given listed, lands⟩
    have there := Registry.mem_areasConstrainedBy ready itself held
    exact .listed one found admits constraint kept there free
  · rw [AreaType.childRelation_of_ne constraint] at lands
    have noted := (noted_of_row course given member named).mpr ⟨_, listed, lands⟩
    refine .inside one found admits constraint kept ?_
    rw [ready.coherent.parent?_eq, noted]
    exact Registry.find?_member (Registry.mem_of_resolve? found)

theorem nestsRow_of_refused
    (refused : ∀ parent, loading.registry.stopAreas.resolve? reference = some parent →
      ¬parent.Admits area) : loading.registry.NestsRow row area := by
  have listed : (⟨.containedAreas, reference, .scalar area.id⟩ : Declaration) ∈ row.parents :=
    one ▸ List.mem_singleton_self _
  have never : ∀ c, ¬loading.registry.Lands ⟨.containedAreas, reference, .scalar area.id⟩ c := by
    intro c lands
    obtain ⟨parent, found, admits, _⟩ := admits_of_lands course.applied.ready member lands
    exact refused parent found admits
  have noted : loading.registry.Refuses ⟨.containedAreas, reference, .scalar area.id⟩ :=
    refuses_of_decides (decides_of_course course _ (declared_of_parents given listed)) never
  have free : loading.registry.parent? area.id = none := by
    apply free_of_row course given member named
    intro d here holder
    rw [one] at here
    rw [List.mem_singleton.mp here]
    exact never _
  exact .refused one refused noted free

end

theorem nestsRow_of_course : loading.registry.NestsRow row area := by
  rcases parents_cases row with none | one
  · apply Registry.NestsRow.root none
    apply free_of_row course given member named
    intro d here
    rw [none] at here
    cases here
  · rw [named] at one
    by_cases admitted : ∃ parent,
        loading.registry.stopAreas.resolve? (row.optional "parent") = some parent ∧
          parent.Admits area
    · obtain ⟨parent, found, admits⟩ := admitted
      exact nestsRow_of_admits course given member named one found admits
    · apply nestsRow_of_refused course given member named one
      exact fun parent found admits => admitted ⟨parent, found, admits⟩

theorem listsArea_of_course {entry : Reference}
    (listed : entry ∈ row.listed "routing_constraint_areas") :
    loading.registry.ListsArea area entry ⟨.constrainedAreas, row.optional "id", entry⟩ := by
  have ready := course.applied.ready
  have equals := fun other => ready.equals_iff (b := other) member
  have here : ⟨.constrainedAreas, row.optional "id", entry⟩ ∈ row.constraints :=
    List.mem_append_left _ (List.mem_map_of_mem listed)
  have declares := declared_of_constraints stops given here
  rw [named] at declares ⊢
  by_cases admitted : area.areaType = .routingConstraint ∧
      ∃ other, loading.registry.stopAreas.resolve? entry = some other ∧ area.Admits other
  · obtain ⟨constraint, other, found, admits⟩ := admitted
    have lands : loading.registry.Lands ⟨.constrainedAreas, .scalar area.id, entry⟩
        ⟨.constrainedAreas, area.id, canonical entry⟩ :=
      .areaListed (Registry.find?_member member) constraint found
        ((equals other).mpr admits.apart) admits.allowed
    refine .listed constraint found admits (Registry.rejection?_of_lands lands) ?_
    exact Registry.mem_areasConstrainedBy ready found
      ((course.applied.holds _).mpr ⟨_, declares, lands⟩)
  · refine .refused (fun constraint other found admits => ?_) ?_
    · exact admitted ⟨constraint, other, found, admits⟩
    · apply refuses_of_decides (decides_of_course course _ declares)
      intro c lands
      cases lands with
      | areaListed hasArea constraint hasListed apart allowed =>
        next holder other =>
        obtain rfl : holder = area :=
          Option.some.inj (hasArea.symm.trans (Registry.find?_member member))
        exact admitted ⟨constraint, other, hasListed, (equals other).mp apart, allowed⟩

theorem listsLine_of_course {entry : Reference}
    (listed : entry ∈ row.listed "routing_constraint_lines") :
    loading.registry.ListsLine area entry ⟨.constrainedLines, row.optional "id", entry⟩ := by
  have here : ⟨.constrainedLines, row.optional "id", entry⟩ ∈ row.constraints :=
    List.mem_append_right _ (List.mem_map_of_mem listed)
  have declares := declared_of_constraints stops given here
  rw [named] at declares ⊢
  by_cases constraint : area.areaType = .routingConstraint
  · have lands : loading.registry.Lands ⟨.constrainedLines, .scalar area.id, entry⟩
        ⟨.constrainedLines, area.id, canonical entry⟩ :=
      .lineListed (Registry.find?_member member) constraint
    refine .listed constraint (Registry.rejection?_of_lands lands) ?_
    exact Registry.lists_linesConstrainedBy ((course.applied.holds _).mpr ⟨_, declares, lands⟩)
  · refine .refused constraint (refuses_of_decides (decides_of_course course _ declares) ?_)
    intro c lands
    cases lands with
    | lineListed hasArea is =>
      next holder =>
      obtain rfl : holder = area :=
        Option.some.inj (hasArea.symm.trans (Registry.find?_member member))
      exact constraint is

end

/-! ## Rows of stop points -/

section
variable {document : Row} {areas stops : List Row} {start placed served loading : Loading}
  (course : Course document areas stops start placed served loading) {row : Row} {stop : StopPoint}
  (given : row ∈ stops) (member : stop ∈ loading.registry.stopPoints.members)
  (named : row.optional "id" = .scalar stop.id)

include course given member named

theorem sited_of_row {holder : Id} :
    loading.registry.siting.noted stop.id = some holder ↔
      ∃ d ∈ row.sites,
        loading.registry.Lands d ⟨.containedStopPoints, holder, canonical (.scalar stop.id)⟩ := by
  rw [Registry.noted_siting_iff]
  exact course.applied.holds_iff_of_row (Or.inr rfl) (fun _ => declared_sites_iff)
    (fun row d here => by rw [(mem_sites_iff.mp here).2]) (distinct_stops_of_course course) given
    named (course.applied.ready.stops stop member) holder

theorem nowhere_of_row (never : ∀ d ∈ row.sites, ∀ c, ¬loading.registry.Lands d c) :
    loading.registry.areaOf? stop.id = none := by
  rw [course.applied.ready.coherent.areaOf?_eq]
  cases noted : loading.registry.siting.noted stop.id with
  | none => rfl
  | some holder =>
    obtain ⟨d, here, lands⟩ := (sited_of_row course given member named).mp noted
    exact absurd lands (never d here _)

section
variable {reference : Reference}
  (one : row.sites = [⟨.containedStopPoints, reference, .scalar stop.id⟩])

include one

theorem sitesRow_of_boards {area : StopArea}
    (found : loading.registry.stopAreas.resolve? reference = some area)
    (boards : area.areaType.holdsStopPoints = true) : loading.registry.SitesRow row stop := by
  have listed : (⟨.containedStopPoints, reference, .scalar stop.id⟩ : Declaration) ∈ row.sites :=
    one ▸ List.mem_singleton_self _
  have lands : loading.registry.Lands ⟨.containedStopPoints, reference, .scalar stop.id⟩
      ⟨.containedStopPoints, area.id, canonical (.scalar stop.id)⟩ := .sited found boards
  have noted := (sited_of_row course given member named).mpr ⟨_, listed, lands⟩
  refine .inside one found boards (Registry.rejection?_of_lands lands) ?_
  rw [course.applied.ready.coherent.areaOf?_eq, noted]
  exact Registry.find?_member (Registry.mem_of_resolve? found)

theorem sitesRow_of_refused
    (refused : ∀ area, loading.registry.stopAreas.resolve? reference = some area →
      area.areaType.holdsStopPoints = false) : loading.registry.SitesRow row stop := by
  have listed : (⟨.containedStopPoints, reference, .scalar stop.id⟩ : Declaration) ∈ row.sites :=
    one ▸ List.mem_singleton_self _
  have never : ∀ c,
      ¬loading.registry.Lands ⟨.containedStopPoints, reference, .scalar stop.id⟩ c := by
    intro c lands
    cases lands with
    | sited found boards => exact Bool.eq_false_iff.mp (refused _ found) boards
  have noted : loading.registry.Refuses ⟨.containedStopPoints, reference, .scalar stop.id⟩ :=
    refuses_of_decides (decides_of_course course _ (declared_of_sites given listed)) never
  have free : loading.registry.areaOf? stop.id = none := by
    apply nowhere_of_row course given member named
    intro d here
    rw [one] at here
    rw [List.mem_singleton.mp here]
    exact never
  exact .refused one refused noted free

end

theorem sitesRow_of_course : loading.registry.SitesRow row stop := by
  rcases sites_cases row with none | one
  · apply Registry.SitesRow.nowhere none
    apply nowhere_of_row course given member named
    intro d here
    rw [none] at here
    cases here
  · rw [named] at one
    by_cases taken : ∃ area,
        loading.registry.stopAreas.resolve? (row.optional "stop_area") = some area ∧
          area.areaType.holdsStopPoints = true
    · obtain ⟨area, found, boards⟩ := taken
      exact sitesRow_of_boards course given member named one found boards
    · apply sitesRow_of_refused course given member named one
      exact fun area found => Bool.eq_false_iff.mpr fun boards => taken ⟨area, found, boards⟩

end

end Load
end LineClosure
