import LineClosure.Proofs.Snapshot.Declared

/-! A loaded network against what its snapshot declares: each row is applied or rejected, nothing
else is in anything, and the order of the rows makes no difference. -/

namespace LineClosure

open Keyed

namespace Registry

variable (r : Registry)

/-- Two networks differ in nothing but the order in which things were registered or listed. -/
structure SameContainments (s : Registry) : Prop where
  alike : r.Alike s
  parents : ∀ id, s.parent? id = r.parent? id
  sites : ∀ id, s.areaOf? id = r.areaOf? id
  holds : ∀ c, s.Holds c ↔ r.Holds c

end Registry

/-- The rows of stop areas and stop points stand in another order. -/
structure Row.Rearranges (document other : Row) : Prop where
  hasAreas : other.items "stop_areas" = .ok (other.listed "stop_areas")
  areas : (document.listed "stop_areas").Perm (other.listed "stop_areas")
  hasStops : other.items "stop_points" = .ok (other.listed "stop_points")
  stops : (document.listed "stop_points").Perm (other.listed "stop_points")
  elsewhere : Load.SameElsewhere document other

/-- What a load ends with is what the document declares, as far as the rules allow. -/
structure Loading.Reflects (loading : Loading) (document : Row) : Prop where
  coherent : loading.registry.Coherent
  areas : ∀ row ∈ document.listed "stop_areas", ∃ area, loading.registry.AppliesArea row area
  stops : ∀ row ∈ document.listed "stop_points", ∃ stop, loading.registry.AppliesStop row stop
  only : ∀ c, loading.registry.Holds c ↔
    ∃ d ∈ document.declarations, loading.registry.Lands d c
  rejected : loading.rejected = document.declarations.filterMap loading.registry.rejection?

namespace Registry

variable {r s : Registry}

theorem sameContainments (alike : r.Alike s) (coherent : r.Coherent) (other : s.Coherent)
    (holds : ∀ c, s.Holds c ↔ r.Holds c) : r.SameContainments s where
  alike := alike
  parents id := by
    have noted : s.nesting.noted id = r.nesting.noted id := by
      apply Option.ext
      intro holder
      rw [noted_nesting_iff, noted_nesting_iff, holds]
    rw [coherent.parent?_eq, other.parent?_eq, noted, funext (Roster.find?_of_perm alike.areas)]
  sites id := by
    have noted : s.siting.noted id = r.siting.noted id := by
      apply Option.ext
      intro holder
      rw [noted_siting_iff, noted_siting_iff, holds]
    rw [coherent.areaOf?_eq, other.areaOf?_eq, noted, funext (Roster.find?_of_perm alike.areas)]
  holds := holds

end Registry

namespace Load

theorem declared_eq (document : Row) :
    declared (document.listed "stop_areas") (document.listed "stop_points") =
      document.declarations :=
  List.append_assoc _ _ _

theorem reflects_of_course {document : Row} {start placed served loading : Loading}
    (course : Course document (document.listed "stop_areas") (document.listed "stop_points")
      start placed served loading) : loading.Reflects document where
  coherent := course.applied.ready.coherent
  areas row given := by
    obtain ⟨area, member, named, ofType⟩ := area_of_row course given
    exact ⟨area, member, named, ofType, nestsRow_of_course course given member named,
      fun _ => listsArea_of_course course given member named,
      fun _ => listsLine_of_course course given member named⟩
  stops row given := by
    obtain ⟨stop, member, named⟩ := stop_of_row course given
    exact ⟨stop, member, named, sitesRow_of_course course given member named⟩
  only c := by
    rw [← declared_eq]
    exact course.applied.holds c
  rejected := by
    rw [← declared_eq]
    exact course.applied.rejected

theorem has_sections {document : Row} {loading : Loading}
    (loaded : sections document {} = .ok () loading) :
    document.items "stop_areas" = .ok (document.listed "stop_areas") ∧
      document.items "stop_points" = .ok (document.listed "stop_points") := by
  rw [sections_eq] at loaded
  obtain ⟨_, _, _, rest⟩ := bind_eq_ok_iff.mp loaded
  obtain ⟨_, _, areas, rest⟩ := bind_eq_ok_iff.mp rest
  obtain ⟨_, _, _, rest⟩ := bind_eq_ok_iff.mp rest
  obtain ⟨_, _, stops, _⟩ := bind_eq_ok_iff.mp rest
  exact ⟨items_of_table areas, items_of_table stops⟩

section
variable {document other : Row} {loading again : Loading} (rearranges : document.Rearranges other)
  (alike : loading.registry.Alike again.registry)

include rearranges in
theorem declarations_perm : document.declarations.Perm other.declarations :=
  (rearranges.areas.flatMap_right _).append
    ((rearranges.stops.flatMap_right _).append (rearranges.areas.flatMap_right _))

include rearranges alike

theorem sameContainments_of_reflects (reflects : loading.Reflects document)
    (same : again.Reflects other) : loading.registry.SameContainments again.registry := by
  refine Registry.sameContainments alike reflects.coherent same.coherent fun c => ?_
  have landings : again.registry.landing = loading.registry.landing :=
    Registry.landing_congr (Roster.find?_of_perm alike.areas)
  rw [reflects.only, same.only]
  simp only [← Registry.landing_eq_ok_iff, landings, (declarations_perm rearranges).mem_iff]

theorem rejected_of_reflects (reflects : loading.Reflects document)
    (same : again.Reflects other) : loading.rejected.Perm again.rejected := by
  have rejections : again.registry.rejection? = loading.registry.rejection? :=
    Registry.rejection?_congr (Roster.find?_of_perm alike.areas)
  rw [reflects.rejected, same.rejected, rejections]
  exact (declarations_perm rearranges).filterMap _

end

/-- Whatever the rows of a document say, a load that gets to its end has applied each declared
containment that the rules allow, has rejected each other one once, and has put nothing else into
anything. If the rows of stop areas and stop points stand in another order, the load ends with the
same containments and the same rejections. -/
theorem containments_of_sections {document : Row} {loading : Loading}
    (areasText : Textual (document.listed "stop_areas"))
    (stopsText : Textual (document.listed "stop_points"))
    (loaded : sections document {} = .ok () loading) :
    loading.Reflects document ∧ ∀ other, document.Rearranges other →
      ∃ again, sections other {} = .ok () again ∧ again.Reflects other ∧
        loading.registry.SameContainments again.registry ∧
        loading.rejected.Perm again.rejected := by
  obtain ⟨hasAreas, hasStops⟩ := has_sections loaded
  obtain ⟨start, placed, served, course⟩ :=
    course_of_sections hasAreas hasStops areasText stopsText loaded
  have reflects := reflects_of_course course
  refine ⟨reflects, fun other rearranges => ?_⟩
  obtain ⟨again, reloaded, alike⟩ := rearranged_of_course course rearranges.elsewhere
    rearranges.hasAreas rearranges.areas rearranges.hasStops rearranges.stops areasText stopsText
  obtain ⟨_, _, _, course'⟩ := course_of_sections rearranges.hasAreas rearranges.hasStops
    (areasText.of_perm rearranges.areas) (stopsText.of_perm rearranges.stops) reloaded
  have same := reflects_of_course course'
  exact ⟨again, reloaded, same, sameContainments_of_reflects rearranges alike reflects same,
    rejected_of_reflects rearranges alike reflects same⟩

/-! A quay that comes before the place it is in, a constraint that lists the quay twice and
itself once, and a stop point whose area takes none. -/

def quayRow : Row :=
  .object [("id", .text "Q"), ("area_type", .text "Quay"), ("parent", .text "C")]

def placeRow : Row := .object [("id", .text "C"), ("area_type", .text "CommercialStopPoint")]

def constraintRow : Row :=
  .object [("id", .text "X"), ("area_type", .text "RoutingConstraint"),
    ("routing_constraint_areas", .list [.text "Q", .text "Q", .text "X"]),
    ("routing_constraint_lines", .list [.text "L"])]

def pier (areas : List Row) : Row :=
  .object [("stop_areas", .list areas),
    ("stop_points", .list [.object [("id", .text "S"), ("stop_area", .text "C")]])]

def pierLoading : Loading := (ended (pier [quayRow, placeRow, constraintRow])).1

theorem containments_of_pier :
    sections (pier [quayRow, placeRow, constraintRow]) {} = .ok () pierLoading ∧
      pierLoading.rejected.length = 2 ∧
      pierLoading.Reflects (pier [quayRow, placeRow, constraintRow]) ∧
      ∃ again, sections (pier [placeRow, quayRow, constraintRow]) {} = .ok () again ∧
        pierLoading.registry.SameContainments again.registry ∧
        pierLoading.rejected.Perm again.rejected := by
  have areasText : Textual ((pier [quayRow, placeRow, constraintRow]).listed "stop_areas") := by
    intro row given
    change row ∈ [quayRow, placeRow, constraintRow] at given
    simp only [List.mem_cons, List.not_mem_nil, or_false] at given
    rcases given with rfl | rfl | rfl
    · exact ⟨"Q", rfl⟩
    · exact ⟨"C", rfl⟩
    · exact ⟨"X", rfl⟩
  have stopsText : Textual ((pier [quayRow, placeRow, constraintRow]).listed "stop_points") := by
    intro row given
    rw [List.mem_singleton.mp given]
    exact ⟨"S", rfl⟩
  have loaded : sections (pier [quayRow, placeRow, constraintRow]) {} = .ok () pierLoading :=
    sections_of_ended (by decide +kernel)
  obtain ⟨reflects, moved⟩ := containments_of_sections areasText stopsText loaded
  refine ⟨loaded, by decide +kernel, reflects, ?_⟩
  obtain ⟨again, reloaded, _, same, rejected⟩ := moved (pier [placeRow, quayRow, constraintRow])
    { hasAreas := rfl
      areas := .swap _ _ _
      hasStops := rfl
      stops := .refl _
      elsewhere := by
        intro name notAreas notStops
        have apart : ∀ key : String, name ≠ key → (Text.whole name == Text.whole key) = false := by
          intro key differ
          exact beq_false_of_ne fun same => differ (Text.whole.inj same)
        simp [Row.items, Row.optional, Value.field?, pier, List.lookup_cons, apart _ notAreas,
          apart _ notStops] }
  exact ⟨again, reloaded, same, rejected⟩

end Load
end LineClosure
