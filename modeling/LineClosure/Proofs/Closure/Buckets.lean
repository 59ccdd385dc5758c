import LineClosure.Proofs.Closure.Service
import LineClosure.Proofs.Closure.Widening
import LineClosure.Proofs.Registry.Queries

/-! The areas of a closure by their types. As long as no area is given another type, the ascent
from a stop point never meets a routing constraint, and only routing constraints list a line.
So each area that is called at is in the set of its type, and those without a set are the
constraints on the line. -/

namespace LineClosure

open Keyed Registry

namespace Registry

variable {r : Registry} {line : Line} {window : Window}

/-- What is called at is no routing constraint: a stop point is where passengers board, and
nothing lies in a constraint. -/
theorem areaType_of_called (typed : r.Typed) {a : StopArea}
    (called : a ∈ r.calledAreas window line) : a.areaType ≠ .routingConstraint := by
  obtain ⟨_, _, stop, _, area, sited, path⟩ := mem_calledAreas.mp called
  intro constraint
  rcases Relation.ReflTransGen.cases_tail path with rfl | ⟨inner, _, link⟩
  · obtain ⟨holder, held, found⟩ := Option.bind_eq_some_iff.mp sited
    obtain ⟨other, same, boards⟩ := typed.siting stop.id holder (Placement.noted_of_holder? held)
    obtain rfl := Option.some.inj (same.symm.trans found)
    rw [constraint] at boards
    cases boards
  · obtain ⟨holder, held, found⟩ := Option.bind_eq_some_iff.mp link
    obtain ⟨_, outer, _, there, fits⟩ :=
      typed.nesting inner.id holder (Placement.noted_of_holder? held)
    obtain rfl := Option.some.inj (there.symm.trans found)
    exact (AreaType.not_fitsIn_constraint _).2 (constraint ▸ fits)

theorem areaType_of_mem_constraintsOn (typed : r.Typed) {line : Reference} {a : StopArea}
    (lists : a ∈ r.constraintsOn line) : a.areaType = .routingConstraint := by
  obtain ⟨holder, holds, found⟩ := List.mem_filterMap.mp lists
  obtain ⟨list, kept, rfl⟩ := List.mem_map.mp holds
  obtain ⟨member, some_listed⟩ := List.mem_filter.mp kept
  obtain ⟨item, listed, _⟩ := List.any_eq_true.mp some_listed
  rw [← Attachments.row_of_mem member rfl] at listed
  obtain ⟨area, there, constraint⟩ := typed.constrainedLines list.holder item listed
  exact Option.some.inj (there.symm.trans found) ▸ constraint

theorem stopAreas_of_typed (typed : r.Typed) (valid : (r.collect line window).valid = true) :
    (r.collect line window).closure.stopAreas.members =
      firsts (r.calledAreas window line) ++ r.constraintsOn (.scalar line.id) := by
  have registered : r.constraintsOn (.scalar line.id) ⊆ r.stopAreas.members := entities_subset _
  have once : ((r.constraintsOn (.scalar line.id)).map identity).Nodup :=
    List.Nodup.map_on
      (fun a first b second => Roster.eq_of_identity (registered first) (registered second))
      (List.Nodup.of_map _ (r.nodup_constraintsOn _))
  rw [stopAreas_collect r line window valid]
  refine firsts_append once fun a called b lists same => ?_
  have equal := Roster.eq_of_identity (registered lists) (calledAreas_subset called) same
  exact areaType_of_called typed called (equal ▸ areaType_of_mem_constraintsOn typed lists)

theorem sorted_of_typed (typed : r.Typed) (valid : (r.collect line window).valid = true)
    {type : AreaType} (hasSet : type ≠ .routingConstraint) :
    ((r.collect line window).closure.sorted type).members =
      (r.collect line window).closure.stopAreas.members.filter fun a => a.areaType = type := by
  have nothing : (r.constraintsOn (.scalar line.id)).filter (fun a => a.areaType = type) = [] := by
    refine List.filter_eq_nil_iff.mpr fun a lists same => hasSet ?_
    rw [← of_decide_eq_true same]
    exact areaType_of_mem_constraintsOn typed lists
  rw [stopAreas_of_typed typed valid, List.filter_append, nothing, List.append_nil,
    sorted_collect r line window hasSet]
  refine firsts_filter fun a first b second same => ?_
  rw [Roster.eq_of_identity (calledAreas_subset first) (calledAreas_subset second) same]

theorem constraints_of_typed (typed : r.Typed) (valid : (r.collect line window).valid = true) :
    ((r.collect line window).closure.stopAreas.members.filter fun a =>
      a.areaType = .routingConstraint) = r.constraintsOn (.scalar line.id) := by
  have nothing : (firsts (r.calledAreas window line)).filter
      (fun a => a.areaType = .routingConstraint) = [] := by
    refine List.filter_eq_nil_iff.mpr fun a found same => ?_
    exact areaType_of_called typed (mem_of_mem_firsts found) (of_decide_eq_true same)
  rw [stopAreas_of_typed typed valid, List.filter_append, nothing, List.nil_append,
    List.filter_eq_self]
  exact fun a lists => decide_eq_true (areaType_of_mem_constraintsOn typed lists)

end Registry

/-- Of every registry that is reached without giving an area another type, and every line and
window with something to collect: each area of the closure that is no routing constraint is
in one of the four sets, that of its type. A set has the order of the closure, and no area
from outside. The areas in none of the sets are the constraints on the line, in their order,
and these are routing constraints. -/
theorem reachable_buckets {r : Registry} (reached : Reachable Action.KeepsTypes r) {line : Line}
    {window : Window} (valid : (r.collect line window).valid = true) :
    (∀ a ∈ (r.collect line window).closure.stopAreas.members,
      a.areaType ≠ .routingConstraint →
        ∀ type, a ∈ ((r.collect line window).closure.sorted type).members ↔ type = a.areaType) ∧
    (∀ type ≠ AreaType.routingConstraint,
      ((r.collect line window).closure.sorted type).members =
        (r.collect line window).closure.stopAreas.members.filter fun a => a.areaType = type) ∧
    (∀ a, a ∈ r.constraintsOn (.scalar line.id) ↔
      a ∈ (r.collect line window).closure.stopAreas.members ∧
        ∀ type, a ∉ ((r.collect line window).closure.sorted type).members) ∧
    ((r.collect line window).closure.stopAreas.members.filter fun a =>
      a.areaType = .routingConstraint) = r.constraintsOn (.scalar line.id) ∧
    ∀ a ∈ r.constraintsOn (.scalar line.id), a.areaType = .routingConstraint := by
  have typed := reached.typed
  have constraint : ∀ a ∈ r.constraintsOn (.scalar line.id), a.areaType = .routingConstraint :=
    fun a => areaType_of_mem_constraintsOn typed
  have bucket : ∀ a type, a ∈ ((r.collect line window).closure.sorted type).members ↔
      a ∈ (r.collect line window).closure.stopAreas.members ∧ a.areaType = type ∧
        type ≠ .routingConstraint := by
    intro a type
    by_cases hasSet : type = .routingConstraint
    · subst hasSet
      exact iff_of_false List.not_mem_nil fun both => both.2.2 rfl
    · rw [sorted_of_typed typed valid hasSet, List.mem_filter, decide_eq_true_eq]
      simp only [ne_eq, hasSet, not_false_eq_true, and_true]
  refine ⟨fun a there other type => ?_, fun type hasSet => sorted_of_typed typed valid hasSet,
    fun a => ⟨fun lists => ?_, fun alone => ?_⟩, constraints_of_typed typed valid, constraint⟩
  · rw [bucket]
    constructor
    · exact fun sorted => sorted.2.1.symm
    · rintro rfl
      exact ⟨there, rfl, other⟩
  · have listed := lists
    rw [← constraints_of_typed typed valid] at listed
    refine ⟨(List.mem_filter.mp listed).1, fun type sorted => ?_⟩
    obtain ⟨_, same, hasSet⟩ := (bucket a type).mp sorted
    exact hasSet (same.symm.trans (constraint a lists))
  · rw [← constraints_of_typed typed valid, List.mem_filter]
    refine ⟨alone.1, decide_eq_true ?_⟩
    by_contra other
    exact alone.2 a.areaType ((bucket a _).mpr ⟨alone.1, rfl, other⟩)

/-- The shuttle calls at the platform of a hall in a station, and a barrier lists its line. -/
def transfer : List Action :=
  [.register (.line shuttleLine), .register (.route shuttleRoute),
    .register (.journeyPattern shuttlePattern), .register (.vehicleJourney shuttleJourney),
    .register (.timetable shuttleTimetable), .register (.stopPoint { id := .text (.whole "S") }),
    .register (.stopArea platform), .register (.stopArea hall), .register (.stopArea station),
    .register (.stopArea barrier), .nest (.whole "S") (.whole "H"),
    .nest (.whole "H") (.whole "P"), .site (.whole "P") (.whole "S"),
    .constrainLine (.whole "B") (.whole "L")]

theorem reachable_buckets_transfer :
    ((perform transfer {}).collect shuttleLine shuttleWindow).valid = true ∧
    (∀ type, hall ∈
      (((perform transfer {}).collect shuttleLine shuttleWindow).closure.sorted type).members ↔
        type = .commercialStopPoint) ∧
    ∀ type, barrier ∉
      (((perform transfer {}).collect shuttleLine shuttleWindow).closure.sorted type).members := by
  have keeps : ∀ action ∈ transfer, action.KeepsTypes := by
    simp [transfer, Action.KeepsTypes]
  have valid : ((perform transfer {}).collect shuttleLine shuttleWindow).valid = true := by decide
  have areas : ((perform transfer {}).collect shuttleLine shuttleWindow).closure.stopAreas.members =
      [platform, hall, station, barrier] := by rfl
  have constraints : (perform transfer {}).constraintsOn (.scalar shuttleLine.id) = [barrier] := by
    rfl
  obtain ⟨one, _, none, _⟩ := reachable_buckets (Reachable.empty.perform keeps) valid
  refine ⟨valid, one hall ?_ (by decide), ((none barrier).mp ?_).2⟩
  · rw [areas]
    exact List.mem_cons_of_mem _ List.mem_cons_self
  · rw [constraints]
    exact List.mem_singleton_self _

end LineClosure
