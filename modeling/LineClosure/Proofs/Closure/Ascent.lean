import LineClosure.Closure.Basic
import LineClosure.Proofs.Closure.Lineage

/-! The ascent from a stop area adds its whole lineage. It stops at the first area that is
there already, which is right because whatever is there has its ancestors there too; that
law fails in the middle of every ascent and holds again at its end. -/

namespace LineClosure.Closure

def ofType (type : AreaType) (areas : List StopArea) : List StopArea :=
  areas.filter fun a => a.areaType = type

/-- The set that the areas of a type are sorted into. Routing constraints have none. -/
def sorted (c : Closure) : AreaType → Roster StopArea
  | .stopPlace => c.stopPlaces
  | .commercialStopPoint => c.commercialStopPoints
  | .boardingPosition => c.boardingPositions
  | .quay => c.quays
  | .routingConstraint => ∅

def withAreas (r : Registry) (c : Closure) (areas : List StopArea) : Closure :=
  { c with
    stopAreas := c.stopAreas.insertAll areas
    stopPlaces := c.stopPlaces.insertAll (ofType .stopPlace areas)
    commercialStopPoints := c.commercialStopPoints.insertAll (ofType .commercialStopPoint areas)
    boardingPositions := c.boardingPositions.insertAll (ofType .boardingPosition areas)
    quays := c.quays.insertAll (ofType .quay areas)
    connectionLinks := c.connectionLinks.insertAll (areas.flatMap fun a => r.connectionsAt a.id)
    accessPoints := c.accessPoints.insertAll (areas.flatMap fun a => r.accessPointsAt a.id)
    accessLinks := c.accessLinks.insertAll (areas.flatMap fun a => r.accessLinksAt a.id) }

@[simp] theorem withAreas_nil (r : Registry) (c : Closure) : c.withAreas r [] = c := rfl

theorem withAreas_append (r : Registry) (c : Closure) (areas more : List StopArea) :
    c.withAreas r (areas ++ more) = (c.withAreas r areas).withAreas r more := by
  simp only [withAreas, ofType, Roster.insertAll_append, List.filter_append,
    List.flatMap_append]

theorem addArea_eq (r : Registry) (c : Closure) (area : StopArea) :
    addArea r c area = c.withAreas r [area] := by
  unfold addArea classify withAreas ofType
  cases type : area.areaType <;> simp [type]

theorem addArea_withAreas (r : Registry) (c : Closure) (area : StopArea) (areas : List StopArea) :
    (addArea r c area).withAreas r areas = c.withAreas r (area :: areas) := by
  rw [addArea_eq, ← withAreas_append]
  rfl

/-- An area is in the closure, and so is everything that comes with it. -/
structure Holds (r : Registry) (c : Closure) (area : StopArea) : Prop where
  itself : identity area ∈ c.stopAreas.identities
  stopPlace : area.areaType = .stopPlace → identity area ∈ c.stopPlaces.identities
  commercial : area.areaType = .commercialStopPoint →
    identity area ∈ c.commercialStopPoints.identities
  boarding : area.areaType = .boardingPosition → identity area ∈ c.boardingPositions.identities
  quay : area.areaType = .quay → identity area ∈ c.quays.identities
  connections : ∀ link ∈ r.connectionsAt area.id, identity link ∈ c.connectionLinks.identities
  points : ∀ point ∈ r.accessPointsAt area.id, identity point ∈ c.accessPoints.identities
  paths : ∀ link ∈ r.accessLinksAt area.id, identity link ∈ c.accessLinks.identities

theorem withAreas_of_holds {r : Registry} {c : Closure} {areas : List StopArea}
    (held : ∀ a ∈ areas, Holds r c a) : c.withAreas r areas = c := by
  have sorted : ∀ (type : AreaType) (set : Roster StopArea),
      (∀ a ∈ areas, a.areaType = type → identity a ∈ set.identities) →
      set.insertAll (ofType type areas) = set := by
    intro type set inside
    refine Roster.insertAll_of_forall_mem fun a member => ?_
    obtain ⟨given, right⟩ := List.mem_filter.mp member
    exact inside a given (of_decide_eq_true right)
  have attached : ∀ {β : Type} [Keyed β] (listed : Id → List β) (set : Roster β),
      (∀ a ∈ areas, ∀ b ∈ listed a.id, identity b ∈ set.identities) →
      set.insertAll (areas.flatMap fun a => listed a.id) = set := by
    intro β _ listed set inside
    refine Roster.insertAll_of_forall_mem fun b member => ?_
    obtain ⟨a, given, there⟩ := List.mem_flatMap.mp member
    exact inside a given b there
  simp only [withAreas]
  rw [Roster.insertAll_of_forall_mem fun a given => (held a given).itself,
    sorted _ _ fun a given => (held a given).stopPlace,
    sorted _ _ fun a given => (held a given).commercial,
    sorted _ _ fun a given => (held a given).boarding,
    sorted _ _ fun a given => (held a given).quay,
    attached _ _ fun a given => (held a given).connections,
    attached _ _ fun a given => (held a given).points,
    attached _ _ fun a given => (held a given).paths]

theorem Holds.withAreas {r : Registry} {c : Closure} {a : StopArea} (held : Holds r c a)
    (areas : List StopArea) : Holds r (c.withAreas r areas) a where
  itself := Roster.identities_insertAll_of_mem held.itself _
  stopPlace type := Roster.identities_insertAll_of_mem (held.stopPlace type) _
  commercial type := Roster.identities_insertAll_of_mem (held.commercial type) _
  boarding type := Roster.identities_insertAll_of_mem (held.boarding type) _
  quay type := Roster.identities_insertAll_of_mem (held.quay type) _
  connections link given := Roster.identities_insertAll_of_mem (held.connections link given) _
  points point given := Roster.identities_insertAll_of_mem (held.points point given) _
  paths link given := Roster.identities_insertAll_of_mem (held.paths link given) _

theorem holds_addArea (r : Registry) (c : Closure) (a : StopArea) : Holds r (addArea r c a) a := by
  have sorted : ∀ (type : AreaType) (set : Roster StopArea), a.areaType = type →
      identity a ∈ (set.insertAll (ofType type [a])).identities := by
    intro type set right
    have sorted : a ∈ ofType type [a] := by simp [ofType, right]
    exact Roster.identities_insertAll_of_given sorted set
  have attached : ∀ {β : Type} [Keyed β] (listed : Id → List β) (set : Roster β),
      ∀ b ∈ listed a.id,
        identity b ∈ (set.insertAll ([a].flatMap fun x => listed x.id)).identities := by
    intro β _ listed set b given
    have brought : b ∈ [a].flatMap fun x => listed x.id := by simpa using given
    exact Roster.identities_insertAll_of_given brought set
  rw [addArea_eq]
  exact {
    itself := Roster.identities_insertAll_of_given (List.mem_singleton_self a) _
    stopPlace := sorted _ _
    commercial := sorted _ _
    boarding := sorted _ _
    quay := sorted _ _
    connections := attached _ _
    points := attached _ _
    paths := attached _ _ }

theorem identities_addArea {r : Registry} {c : Closure} {area : StopArea} {id : Id}
    (given : id ∈ identity area :: c.stopAreas.identities) :
    id ∈ (addArea r c area).stopAreas.identities := by
  rcases List.mem_cons.mp given with rfl | old
  · exact (holds_addArea r c area).itself
  · rw [addArea_eq]
    exact Roster.identities_insertAll_of_mem old [area]

theorem unmet_addArea_lt {r : Registry} {c : Closure} {area : StopArea}
    (registered : area ∈ r.stopAreas.members) (absent : ¬c.stopAreas.contains area.id = true) :
    r.unmet (addArea r c area).stopAreas.identities < r.unmet c.stopAreas.identities :=
  Registry.unmet_lt registered (fun present => absent (Roster.contains_key_iff.mpr present))
    (identities_addArea List.mem_cons_self)
    fun _ old => identities_addArea (List.mem_cons_of_mem _ old)

theorem ascend_of_contains {r : Registry} {c : Closure} {area : StopArea}
    (there : c.stopAreas.contains area.id = true) (steps : Nat) :
    ascend r steps c (some area) = c := by
  cases steps with
  | zero => rfl
  | succ steps => exact if_pos there

theorem ascend_of_absent {r : Registry} {c : Closure} {area : StopArea}
    (absent : ¬c.stopAreas.contains area.id = true) (steps : Nat) :
    ascend r (steps + 1) c (some area) =
      ascend r steps (addArea r c area) (r.parent? area.id) :=
  if_neg absent

theorem mem_addArea {r : Registry} {c : Closure} {area a : StopArea} :
    a ∈ (addArea r c area).stopAreas.members →
      a ∈ c.stopAreas.members ∨ a = area := by
  rw [addArea_eq]
  intro member
  change a ∈ (c.stopAreas.insertAll [area]).members at member
  rw [Roster.insertAll_cons, Roster.insertAll_nil, Roster.members_insert] at member
  split at member
  · exact Or.inl member
  · exact (List.mem_append.mp member).imp_right List.mem_singleton.mp

/-- The law of the areas collected so far: they are registered, they come with what is
attached to them, and what they lie in is there, but for one area that may be pending. -/
structure Settled (r : Registry) (pending : Option StopArea) (c : Closure) : Prop where
  registered : ∀ a ∈ c.stopAreas.members, a ∈ r.stopAreas.members
  held : ∀ a ∈ c.stopAreas.members, Holds r c a
  upward : ∀ a ∈ c.stopAreas.members, ∀ parent, r.LiesIn a parent →
    parent ∈ c.stopAreas.members ∨ pending = some parent

theorem Settled.mem_of_contains {r : Registry} {pending : Option StopArea} {c : Closure}
    (settled : Settled r pending c) {area : StopArea} (registered : area ∈ r.stopAreas.members)
    (there : c.stopAreas.contains area.id = true) : area ∈ c.stopAreas.members := by
  obtain ⟨a, member, same⟩ := Roster.contains_iff.mp there
  exact Roster.eq_of_identity (settled.registered a member) registered same ▸ member

theorem Settled.of_mem {r : Registry} {area : StopArea} {c : Closure}
    (settled : Settled r (some area) c) (there : area ∈ c.stopAreas.members) :
    Settled r none c where
  registered := settled.registered
  held := settled.held
  upward a member parent link := by
    rcases settled.upward a member parent link with inside | last
    · exact Or.inl inside
    · exact Or.inl (Option.some.inj last ▸ there)

theorem Settled.mem_of_reaches {r : Registry} {c : Closure} (settled : Settled r none c)
    {area a : StopArea} (there : area ∈ c.stopAreas.members)
    (path : Relation.ReflTransGen r.LiesIn area a) : a ∈ c.stopAreas.members := by
  induction path with
  | refl => exact there
  | tail _ link ih => exact (settled.upward _ ih _ link).resolve_right (by simp)

theorem Settled.withAreas_of_reaches {r : Registry} {c : Closure} (settled : Settled r none c)
    {area : StopArea} (there : area ∈ c.stopAreas.members) {areas : List StopArea}
    (above : ∀ a ∈ areas, Relation.ReflTransGen r.LiesIn area a) : c.withAreas r areas = c :=
  withAreas_of_holds fun a given => settled.held a (settled.mem_of_reaches there (above a given))

theorem Settled.addArea {r : Registry} {area : StopArea} {c : Closure}
    (settled : Settled r (some area) c) (registered : area ∈ r.stopAreas.members) :
    Settled r (r.parent? area.id) (addArea r c area) where
  registered a member := by
    rcases mem_addArea member with old | rfl
    · exact settled.registered a old
    · exact registered
  held a member := by
    rcases mem_addArea member with old | rfl
    · rw [addArea_eq]
      exact (settled.held a old).withAreas _
    · exact holds_addArea r c a
  upward a member parent link := by
    have present : area ∈ (Closure.addArea r c area).stopAreas.members := by
      obtain ⟨b, there, same⟩ := List.mem_map.mp (holds_addArea r c area).itself
      have equal : b = area := by
        rcases mem_addArea there with old | new
        · exact Roster.eq_of_identity (settled.registered b old) registered same
        · exact new
      exact equal ▸ there
    have kept : ∀ b ∈ c.stopAreas.members, b ∈ (Closure.addArea r c area).stopAreas.members := by
      intro b old
      rw [addArea_eq]
      change b ∈ (c.stopAreas.insertAll [area]).members
      rw [Roster.members_insertAll]
      exact List.mem_append_left _ old
    rcases mem_addArea member with old | rfl
    · rcases settled.upward a old parent link with inside | last
      · exact Or.inl (kept parent inside)
      · exact Or.inl (Option.some.inj last ▸ present)
    · exact Or.inr link

/-- Going on upwards from an area adds its ancestors, up to the first one met before. What
was met before is there, so nothing is lost by stopping earlier, at the first area that is
there. -/
theorem ascend_ancestors {r : Registry} (met : List Id) (areaId : Id) :
    ∀ (steps : Nat) (c : Closure), (∀ id ∈ met, id ∈ c.stopAreas.identities) →
      Settled r (r.parent? areaId) c → r.unmet c.stopAreas.identities ≤ steps →
      ascend r steps c (r.parent? areaId) = c.withAreas r (r.ancestorsFrom met areaId) ∧
      Settled r none (c.withAreas r (r.ancestorsFrom met areaId)) := by
  induction met, areaId using Registry.ancestorsFrom.induct r with
  | case1 met areaId top =>
    intro steps c _ settled _
    rw [Registry.ancestorsFrom_of_none top, withAreas_nil]
    rw [top] at settled ⊢
    exact ⟨by cases steps <;> rfl, settled⟩
  | case2 met areaId parent found known =>
    intro steps c inside settled _
    rw [Registry.ancestorsFrom_of_met found known, withAreas_nil]
    rw [found] at settled ⊢
    have there : c.stopAreas.contains parent.id = true :=
      Roster.contains_key_iff.mpr (inside _ known)
    have member := settled.mem_of_contains (Registry.registered_of_parent? found) there
    exact ⟨ascend_of_contains there steps, settled.of_mem member⟩
  | case3 met areaId parent found unknown ih =>
    intro steps c inside settled enough
    have registered := Registry.registered_of_parent? found
    rw [Registry.ancestorsFrom_of_unmet found unknown]
    rw [found] at settled ⊢
    -- the parent may be there from another area, and then all that lies above it is there as well
    by_cases there : c.stopAreas.contains parent.id = true
    · have member := settled.mem_of_contains registered there
      have complete := settled.of_mem member
      have above : ∀ a ∈ parent :: r.ancestorsFrom (identity parent :: met) parent.id,
          Relation.ReflTransGen r.LiesIn parent a := by
        intro a given
        rcases List.mem_cons.mp given with rfl | higher
        · exact .refl
        · obtain ⟨next, link, path⟩ := Registry.reaches_of_mem_ancestorsFrom _ _ a higher
          exact path.head link
      rw [complete.withAreas_of_reaches member above]
      exact ⟨ascend_of_contains there steps, complete⟩
    · have fewer := unmet_addArea_lt registered there
      have still : ∀ id ∈ identity parent :: met,
          id ∈ (addArea r c parent).stopAreas.identities := by
        intro id given
        refine identities_addArea (List.mem_cons.mpr ?_)
        exact (List.mem_cons.mp given).imp_right (inside id)
      cases steps with
      | zero => omega
      | succ steps =>
        have onward := ih steps (addArea r c parent) still (settled.addArea registered) (by omega)
        rw [addArea_withAreas] at onward
        rw [ascend_of_absent there]
        exact onward

theorem ascend_eq_withAreas {r : Registry} {c : Closure} (settled : Settled r none c)
    {area : StopArea} (registered : area ∈ r.stopAreas.members) :
    ascend r (r.stopAreas.size + 1) c (some area) = c.withAreas r (r.lineage area) ∧
    Settled r none (c.withAreas r (r.lineage area)) := by
  have pending : Settled r (some area) c :=
    ⟨settled.registered, settled.held, fun a member parent link =>
      Or.inl ((settled.upward a member parent link).resolve_right (by simp))⟩
  by_cases there : c.stopAreas.contains area.id = true
  · have member := pending.mem_of_contains registered there
    rw [settled.withAreas_of_reaches member fun a => (Registry.mem_lineage_iff registered).mp]
    exact ⟨ascend_of_contains there _, settled⟩
  · have onward := ascend_ancestors [identity area] area.id r.stopAreas.size (addArea r c area)
      (fun id only => List.mem_singleton.mp only ▸ (holds_addArea r c area).itself)
      (pending.addArea registered) (r.unmet_le_size _)
    rw [addArea_withAreas] at onward
    rw [ascend_of_absent there]
    exact onward

/-! ## The loop without a bound -/

/-- The ascent as a loop that ends at the top or at an area that is there. -/
inductive Climb (r : Registry) : Closure → Option StopArea → Closure → Prop where
  | top (c : Closure) : Climb r c none c
  | known {c : Closure} {area : StopArea} (there : c.stopAreas.contains area.id = true) :
    Climb r c (some area) c
  | up {c final : Closure} {area : StopArea} (absent : c.stopAreas.contains area.id = false)
    (rest : Climb r (addArea r c area) (r.parent? area.id) final) : Climb r c (some area) final

theorem Climb.unique {r : Registry} {c first second : Closure} {start : Option StopArea}
    (one : Climb r c start first) (other : Climb r c start second) : first = second := by
  induction one with
  | top => cases other; rfl
  | known there =>
    cases other with
    | known => rfl
    | up absent => exact absurd there (by simp [absent])
  | up absent _ ih =>
    cases other with
    | known there => exact absurd there (by simp [absent])
    | up _ rest => exact ih rest

theorem contains_of_unmet_eq_zero {r : Registry} {c : Closure} {area : StopArea}
    (registered : area ∈ r.stopAreas.members) (none : r.unmet c.stopAreas.identities = 0) :
    c.stopAreas.contains area.id = true := by
  refine Roster.contains_key_iff.mpr ?_
  have met := List.countP_eq_zero.mp none area registered
  simpa using met

theorem climb_ascend {r : Registry} (steps : Nat) (c : Closure) (start : Option StopArea)
    (registered : ∀ area, start = some area → area ∈ r.stopAreas.members)
    (enough : r.unmet c.stopAreas.identities ≤ steps) :
    Climb r c start (ascend r steps c start) := by
  induction steps generalizing c start with
  | zero =>
    cases start with
    | none => exact .top c
    | some area =>
      exact .known (contains_of_unmet_eq_zero (registered area rfl) (Nat.le_zero.mp enough))
  | succ steps ih =>
    cases start with
    | none => exact .top c
    | some area =>
      by_cases there : c.stopAreas.contains area.id = true
      · rw [ascend_of_contains there]
        exact .known there
      · rw [ascend_of_absent there]
        have fewer := unmet_addArea_lt (registered area rfl) there
        exact .up (Bool.eq_false_iff.mpr there)
          (ih _ _ (fun _ found => Registry.registered_of_parent? found) (by omega))

theorem climb_from_area (r : Registry) (c : Closure) (area : StopArea) :
    Climb r c (some area) (ascend r (r.stopAreas.size + 1) c (some area)) := by
  by_cases there : c.stopAreas.contains area.id = true
  · rw [ascend_of_contains there]
    exact .known there
  · rw [ascend_of_absent there]
    exact .up (Bool.eq_false_iff.mpr there)
      (climb_ascend _ _ _ (fun _ found => Registry.registered_of_parent? found)
        (r.unmet_le_size _))

end LineClosure.Closure
