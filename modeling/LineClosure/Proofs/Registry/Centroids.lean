import LineClosure.Proofs.Registry.Descent

/-! What the place of a stop area comes to. It is there if anything below the area has one. An
area that does not lie in itself is placed by its own coordinates or the places of its
children, and one that does by what is found without the way back to it. -/

namespace LineClosure

theorem mean?_eq_none_iff {points : List Position} :
    Position.mean? points = none ↔ points = [] := by
  rw [Position.mean?]
  split
  · next empty => exact iff_of_true rfl (List.isEmpty_iff.mp empty)
  · next some_there =>
    refine iff_of_false ?_ fun empty => some_there (List.isEmpty_iff.mpr empty)
    exact Option.some_ne_none _

theorem position?_eq_none_iff {area : StopArea} :
    area.position? = .ok none ↔ area.longitude.isNull = true ∨ area.latitude.isNull = true := by
  rw [← Bool.or_eq_true, StopArea.position?]
  split
  · next lacks => exact iff_of_true rfl lacks
  · next both =>
    refine iff_of_false ?_ both
    cases Position.ofValues area.longitude area.latitude with
    | error fault => intro same; cases same
    | ok place =>
      intro same
      cases same

namespace StopArea

def HasNumbers (area : StopArea) : Prop :=
  ∀ v ∈ [area.longitude, area.latitude], v.isNull = true ∨ v.double?.isSome = true

end StopArea

theorem Position.coordinate_of_number {v : Value} (number : v.double?.isSome = true) :
    coordinate false v = .error .tooLarge ∨
      ∃ d, v.double? = some d ∧ coordinate false v = .ok d := by
  cases v with
  | list items => cases number
  | object fields => cases number
  | scalar s =>
    cases s with
    | null => cases number
    | text t => cases number
    | bool b => exact Or.inr ⟨_, rfl, rfl⟩
    | double d => exact Or.inr ⟨d, rfl, rfl⟩
    | int n =>
      rw [coordinate]
      split
      · exact Or.inl rfl
      · exact Or.inr ⟨_, rfl, rfl⟩

theorem Position.ofValues_of_numbers {v w : Value} (first : v.double?.isSome = true)
    (second : w.double?.isSome = true) :
    ofValues v w = (coordinate false v).bind fun x => (coordinate false w).bind fun y =>
      .ok ⟨x, y⟩ := by
  have scalar : ∀ {u : Value}, u.double?.isSome = true →
      ∃ s, u = .scalar s ∧ isText (.scalar s) = false := by
    intro u number
    cases u with
    | list items => cases number
    | object fields => cases number
    | scalar s =>
      cases s with
      | text t => cases number
      | _ => exact ⟨_, rfl, rfl⟩
  obtain ⟨s, rfl, plain⟩ := scalar first
  obtain ⟨t, rfl, other⟩ := scalar second
  show ofScalars (.scalar s) (.scalar t) = _
  simp only [ofScalars, List.any_cons, plain, other, List.any_nil, Bool.or_self, Bool.false_and]
  rfl

/-- Of numbers, only an integer beyond all doubles makes no position. -/
theorem StopArea.HasNumbers.fault {area : StopArea} (numbers : area.HasNumbers)
    {fault : CoordinateFault} (fails : area.position? = .error fault) : fault = .tooLarge := by
  rw [StopArea.position?] at fails
  split at fails
  · cases fails
  · next both =>
    rw [Bool.or_eq_true, not_or] at both
    have first := (numbers _ List.mem_cons_self).resolve_left both.1
    have second := (numbers _ (List.mem_cons_of_mem _ List.mem_cons_self)).resolve_left both.2
    rw [Position.ofValues_of_numbers first second] at fails
    rcases Position.coordinate_of_number first with large | ⟨x, _, there⟩
    · rw [large] at fails
      cases fails
      rfl
    · rcases Position.coordinate_of_number second with large | ⟨y, _, also_there⟩
      · rw [there, large] at fails
        cases fails
        rfl
      · rw [there, also_there] at fails
        cases fails

namespace Registry

variable {r : Registry} {follows : StopArea → Bool}

def Follows (r : Registry) (follows : StopArea → Bool) (area child : StopArea) : Prop :=
  child ∈ (r.childAreas area.id).filter follows

theorem mean_eq_none_iff {children : List StopArea}
    {found : StopArea → Except CoordinateFault (Option Position)} :
    placeOver (.ok none) (children.mapM found) = .ok none ↔
      ∀ child ∈ children, found child = .ok none := by
  have whole : placeOver (.ok none) (children.mapM found) = .ok none ↔
      ∃ places, children.mapM found = .ok places ∧ places.reduceOption = [] := by
    cases children.mapM found with
    | error fault =>
      refine iff_of_false (fun same => ?_) fun ⟨_, same, _⟩ => ?_
      · cases same
      · cases same
    | ok places =>
      show Except.ok (Position.mean? _) = _ ↔ _
      rw [Except.ok.injEq, mean?_eq_none_iff]
      exact ⟨fun empty => ⟨_, rfl, empty⟩, fun ⟨_, same, empty⟩ => Except.ok.inj same ▸ empty⟩
  rw [whole]
  simp only [mapM_eq_ok_iff, List.reduceOption_eq_nil_iff]
  constructor
  · rintro ⟨places, same, count, rfl⟩ child listed
    rw [List.map_replicate] at same
    exact List.eq_of_mem_replicate (same ▸ List.mem_map_of_mem listed)
  · intro nowhere
    refine ⟨List.replicate children.length none, ?_, _, rfl⟩
    rw [List.map_replicate]
    exact List.map_eq_replicate_iff.mpr nowhere

theorem Finds.eq_none_iff {area : StopArea} {found : Except CoordinateFault (Option Position)}
    (finds : r.Finds follows area found) :
    found = .ok none ↔
      ∀ a, Relation.ReflTransGen (r.Follows follows) area a → a.position? = .ok none := by
  induction finds with
  | @ofChildren area found _ ih =>
    by_cases lacks : area.position? = .ok none
    · rw [lacks, mean_eq_none_iff]
      constructor
      · intro nowhere a path
        rcases Relation.ReflTransGen.cases_head path with rfl | ⟨child, link, rest⟩
        · exact lacks
        · exact (ih lacks child link).mp (nowhere child link) a rest
      · intro nowhere child link
        exact (ih lacks child link).mpr fun a rest => nowhere a (rest.head link)
    · refine iff_of_false (fun same => lacks ?_) fun nowhere => lacks (nowhere area .refl)
      generalize area.position? = own at lacks same
      cases own with
      | error fault => exact same
      | ok place =>
        cases place with
        | some place => exact same
        | none => rfl

theorem Finds.exists_fault {area : StopArea} {found : Except CoordinateFault (Option Position)}
    (finds : r.Finds follows area found) {fault : CoordinateFault} (fails : found = .error fault) :
    ∃ a, Relation.ReflTransGen (r.Follows follows) area a ∧ a.position? = .error fault := by
  induction finds with
  | @ofChildren area found _ ih =>
    cases own : area.position? with
    | error other =>
      rw [own] at fails
      cases fails
      exact ⟨area, .refl, own⟩
    | ok place =>
      rw [own] at fails
      cases place with
      | some place => cases fails
      | none =>
        cases ran : ((r.childAreas area.id).filter follows).mapM found with
        | ok places =>
          rw [ran] at fails
          cases fails
        | error other =>
          rw [ran] at fails
          cases fails
          obtain ⟨child, link, failed⟩ := exists_error_of_mapM ran
          obtain ⟨a, path, fails⟩ := ih own child link failed
          exact ⟨a, path.head link, fails⟩

theorem Finds.congr {other : StopArea → Bool} {area : StopArea}
    {found : Except CoordinateFault (Option Position)} (finds : r.Finds follows area found)
    (same : ∀ a child, Relation.ReflTransGen r.Contains area a → r.Contains a child →
      follows child = other child) : r.Finds other area found := by
  induction finds with
  | @ofChildren area found _ ih =>
    have kept : (r.childAreas area.id).filter follows = (r.childAreas area.id).filter other :=
      List.filter_congr fun child link => same area child .refl link
    rw [kept] at ih ⊢
    refine .ofChildren fun lacks child link => ih lacks child link fun a next path => ?_
    exact same a next (path.head (List.mem_filter.mp link).1)

/-! ## Where an area is -/

theorem registered_of_reached {area a : StopArea} (registered : area ∈ r.stopAreas.members)
    (path : Relation.ReflTransGen r.Contains area a) : a ∈ r.stopAreas.members := by
  rcases Relation.ReflTransGen.cases_tail path with rfl | ⟨_, _, link⟩
  · exact registered
  · exact registered_of_contains link

theorem placeOver_mapError {F G : Type} (own : Except F (Option Position))
    (below : Except F (List (Option Position))) (tell : F → G) :
    (placeOver own below).mapError tell = placeOver (own.mapError tell) (below.mapError tell) := by
  cases own with
  | error fault => rfl
  | ok place =>
    cases place with
    | some place => rfl
    | none => cases below <;> rfl

theorem mapError_injective {α : Type} :
    Function.Injective (Except.mapError CentroidFault.coordinates (α := α)) := by
  intro first second same
  cases first <;> cases second <;> cases same <;> rfl

section
variable (coherent : r.Coherent) (anchored : r.Anchored) {area : StopArea}
  (registered : area ∈ r.stopAreas.members)
include coherent anchored registered

theorem exists_finds : ∃ found, r.Finds (isApart area.id) area found ∧
    ∀ depth, r.stopAreas.size ≤ depth → (r.descend depth area.id []).map Prod.fst = found := by
  have ahead : r.Ahead area.id [] area := ⟨registered, .refl, fun _ _ => List.not_mem_nil⟩
  have results : ∀ depth, r.stopAreas.size ≤ depth → ∃ found, r.Finds (isApart area.id) area found ∧
      (r.descend depth area.id []).map Prod.fst = found := by
    intro depth deep
    obtain ⟨found, finds, comes⟩ := descends coherent anchored area.id depth area [] ahead
      (Or.inl ⟨rfl, rfl⟩) (Nat.le_trans (r.unmet_le_size _) deep)
    refine ⟨found, finds, ?_⟩
    generalize r.descend depth area.id [] = ran at comes
    cases comes with
    | fails => rfl
    | finds => rfl
  obtain ⟨found, finds, _⟩ := results _ (Nat.le_refl _)
  refine ⟨found, finds, fun depth deep => ?_⟩
  obtain ⟨again, finds_again, ran⟩ := results depth deep
  exact ran.trans (finds_again.unique finds)

theorem centroid_eq {found : Except CoordinateFault (Option Position)}
    (finds : r.Finds (isApart area.id) area found) :
    r.centroid (.scalar area.id) = found.mapError .coordinates := by
  obtain ⟨same, plain, ran⟩ := exists_finds coherent anchored registered
  obtain rfl := plain.unique finds
  have known : r.lookUp (α := StopArea) (.scalar area.id) = .ok area :=
    lookUp_eq_ok_iff.mpr ⟨area.id, rfl, Roster.find?_eq_some_iff.mpr ⟨registered, rfl⟩⟩
  simp only [centroid, known]
  rw [← ran _ (Nat.le_succ _)]
  cases r.descend (r.stopAreas.size + 1) area.id [] <;> rfl

omit coherent anchored in
/-- The way back to an area leads nowhere that is not reached without it. -/
theorem reaches_apart_iff {a : StopArea} :
    Relation.ReflTransGen (r.Follows (isApart area.id)) area a ↔
      Relation.ReflTransGen r.Contains area a := by
  constructor
  · intro path
    exact Relation.ReflTransGen.mono (fun _ _ link => (List.mem_filter.mp link).1) _ _ path
  · intro path
    induction path with
    | refl => exact .refl
    | @tail b child _ link ih =>
      by_cases back : child.id = area.id
      · rw [Roster.eq_of_identity (registered_of_contains link) registered
          (congrArg canonical back)]
      · exact ih.tail (List.mem_filter.mpr ⟨link, decide_eq_true back⟩)

theorem finds_iff_of_apart (apart : ¬Relation.TransGen r.LiesIn area area)
    {found : Except CoordinateFault (Option Position)} :
    r.Finds (fun _ => true) area found ↔ r.Finds (isApart area.id) area found := by
  have same : ∀ a child, Relation.ReflTransGen r.Contains area a → r.Contains a child →
      true = isApart area.id child := by
    intro a child path link
    by_contra met
    have back : child.id = area.id := by
      by_contra differ
      exact met (decide_eq_true differ).symm
    refine apart ?_
    have equal := Roster.eq_of_identity (registered_of_contains link) registered
      (congrArg canonical back)
    rw [equal] at link
    exact (transGen_contains_iff coherent anchored registered).mp
      (Relation.TransGen.tail' path link)
  constructor
  · exact fun finds => finds.congr same
  · exact fun finds => finds.congr fun a child path link => (same a child path link).symm

omit registered in
theorem apart_of_contains (apart : ¬Relation.TransGen r.LiesIn area area)
    (registered : area ∈ r.stopAreas.members) {child : StopArea} (link : r.Contains area child) :
    ¬Relation.TransGen r.LiesIn child child := by
  intro round
  have inner := registered_of_contains link
  have lies := (contains_iff_liesIn coherent anchored registered inner).mp link
  obtain ⟨parent, first, rest⟩ := Relation.TransGen.head'_iff.mp round
  have same : parent = area := Option.some.inj (first.symm.trans lies)
  rw [same] at rest
  exact apart (Relation.TransGen.tail' rest lies)

theorem finds_iff_centroid {found : Except CoordinateFault (Option Position)} :
    r.Finds (isApart area.id) area found ↔
      r.centroid (.scalar area.id) = found.mapError .coordinates := by
  constructor
  · exact fun finds => centroid_eq coherent anchored registered finds
  · intro same
    obtain ⟨other, finds, _⟩ := exists_finds coherent anchored registered
    have told := centroid_eq coherent anchored registered finds
    exact mapError_injective (told.symm.trans same) ▸ finds

theorem descend_eq_centroid {depth : Nat} (deep : r.stopAreas.size ≤ depth) :
    ((r.descend depth area.id []).map Prod.fst).mapError .coordinates =
      r.centroid (.scalar area.id) := by
  obtain ⟨found, finds, deeper⟩ := exists_finds coherent anchored registered
  rw [deeper depth deep, centroid_eq coherent anchored registered finds]

theorem centroid_of_numbers (numbers : ∀ a ∈ r.stopAreas.members, a.HasNumbers) :
    (∃ place, r.centroid (.scalar area.id) = .ok place) ∨
      r.centroid (.scalar area.id) = .error (.coordinates .tooLarge) ∧
        ∃ a, Relation.ReflTransGen r.Contains area a ∧ a.position? = .error .tooLarge := by
  obtain ⟨found, finds, _⟩ := exists_finds coherent anchored registered
  have here := centroid_eq coherent anchored registered finds
  cases found with
  | ok place => exact Or.inl ⟨place, here⟩
  | error fault =>
    obtain ⟨a, path, fails⟩ := finds.exists_fault rfl
    have reached := (reaches_apart_iff registered).mp path
    obtain rfl := (numbers a (registered_of_reached registered reached)).fault fails
    exact Or.inr ⟨here, a, reached, fails⟩

theorem centroid_eq_none_iff :
    r.centroid (.scalar area.id) = .ok none ↔
      ∀ a, Relation.ReflTransGen r.Contains area a →
        a.longitude.isNull = true ∨ a.latitude.isNull = true := by
  obtain ⟨found, finds, _⟩ := exists_finds coherent anchored registered
  have nowhere : r.centroid (.scalar area.id) = .ok none ↔ found = .ok none := by
    rw [centroid_eq coherent anchored registered finds]
    exact mapError_injective.eq_iff (b := .ok none)
  rw [nowhere, finds.eq_none_iff]
  simp only [reaches_apart_iff registered, position?_eq_none_iff]

theorem centroid_eq_placeOver (apart : ¬Relation.TransGen r.LiesIn area area) :
    r.centroid (.scalar area.id) = placeOver (area.position?.mapError .coordinates)
      ((r.childAreas area.id).mapM fun child => r.centroid (.scalar child.id)) := by
  obtain ⟨found, finds, _⟩ := exists_finds coherent anchored registered
  rw [centroid_eq coherent anchored registered finds]
  cases (finds_iff_of_apart coherent anchored registered apart).mpr finds with
  | @ofChildren _ below down =>
    rw [placeOver_mapError, mapM_mapError, List.filter_true] at *
    refine placeOver_congr fun lacks => mapM_congr fun child link => ?_
    have own : area.position? = .ok none := @mapError_injective _ area.position? (.ok none) lacks
    have alone := apart_of_contains coherent anchored apart registered link
    have inner := registered_of_contains link
    have plain := (finds_iff_of_apart coherent anchored inner alone).mp (down own child link)
    exact (centroid_eq coherent anchored inner plain).symm

/-- An area that lies in itself is in the list of one area, which is below it. -/
theorem exists_last (round : Relation.TransGen r.LiesIn area area) :
    ∃ last, Relation.ReflTransGen r.Contains area last ∧
      ∀ a ∈ r.stopAreas.members, r.Contains a area ↔ a = last := by
  obtain ⟨last, path, link⟩ := Relation.TransGen.tail'_iff.mp
    ((transGen_contains_iff coherent anchored registered).mpr round)
  refine ⟨last, path, fun a known => ⟨fun other => ?_, fun same => same ▸ link⟩⟩
  have same : a.id = last.id := coherent.nesting.holder_unique
    (mem_row_of_contains coherent anchored other) (mem_row_of_contains coherent anchored link)
  exact Roster.eq_of_identity known (registered_of_reached registered path)
    (congrArg canonical same)

end

end Registry

open Registry

/-- Of every registry that changes lead to, and for every area of it, stop places in circles
included: the descent ends, and finds the same at any greater depth. Where all coordinates are
numbers or not there it fails only for an integer beyond all doubles. It finds nothing if no
area that is reached has both coordinates, and only then. For an area that does not lie in
itself it is the plain recursion, and so the equation of it holds between the areas
themselves; for one that does it is the recursion without the way back, which is one. -/
theorem reachable_centroids {permitted : Action → Prop} {r : Registry}
    (reached : Reachable permitted r) {area : StopArea}
    (registered : area ∈ r.stopAreas.members) :
    (∀ depth, r.stopAreas.size ≤ depth →
      ((r.descend depth area.id []).map Prod.fst).mapError .coordinates =
        r.centroid (.scalar area.id)) ∧
    ((∀ a ∈ r.stopAreas.members, a.HasNumbers) →
      (∃ place, r.centroid (.scalar area.id) = .ok place) ∨
        r.centroid (.scalar area.id) = .error (.coordinates .tooLarge) ∧
          ∃ a, Relation.ReflTransGen r.Contains area a ∧ a.position? = .error .tooLarge) ∧
    (r.centroid (.scalar area.id) = .ok none ↔
      ∀ a, Relation.ReflTransGen r.Contains area a →
        a.longitude.isNull = true ∨ a.latitude.isNull = true) ∧
    (¬Relation.TransGen r.LiesIn area area →
      (∀ found, r.Finds (fun _ => true) area found ↔
        r.centroid (.scalar area.id) = found.mapError .coordinates) ∧
      r.centroid (.scalar area.id) = placeOver (area.position?.mapError .coordinates)
        ((r.childAreas area.id).mapM fun child => r.centroid (.scalar child.id))) ∧
    (Relation.TransGen r.LiesIn area area →
      (∀ found, r.Finds (isApart area.id) area found ↔
        r.centroid (.scalar area.id) = found.mapError .coordinates) ∧
      ∃ last, Relation.ReflTransGen r.Contains area last ∧
        ∀ a ∈ r.stopAreas.members, r.Contains a area ↔ a = last) := by
  have coherent := reached.coherent
  have anchored := reached.anchored
  refine ⟨fun depth deep => descend_eq_centroid coherent anchored registered deep,
    centroid_of_numbers coherent anchored registered,
    centroid_eq_none_iff coherent anchored registered,
    fun apart => ⟨fun found => ?_, centroid_eq_placeOver coherent anchored registered apart⟩,
    fun round => ⟨fun found => finds_iff_centroid coherent anchored registered,
      exists_last coherent anchored registered round⟩⟩
  rw [finds_iff_of_apart coherent anchored registered apart]
  exact finds_iff_centroid coherent anchored registered

/-- A bay with coordinates in the hall of a station, which lies in a plaza that lies in the
station; and a barrier that is nowhere. -/
def bay : StopArea :=
  { id := .text (.whole "Y"), areaType := .boardingPosition,
    longitude := .int 4, latitude := .int 45 }

def stopover : List Action :=
  [.register (.stopArea bay), .register (.stopArea hall), .register (.stopArea station),
    .register (.stopArea plaza), .register (.stopArea barrier),
    .nest (.whole "S") (.whole "Z"), .nest (.whole "Z") (.whole "S"),
    .nest (.whole "S") (.whole "H"), .nest (.whole "H") (.whole "Y")]

theorem reachable_centroids_stopover :
    (perform stopover {}).centroid (.scalar hall.id) =
      .ok (Position.mean? [⟨Double.ofInt 4, Double.ofInt 45⟩]) ∧
    (perform stopover {}).centroid (.scalar barrier.id) = .ok none ∧
    (perform stopover {}).centroid (.scalar station.id) ≠ .ok none ∧
    ∃ last, Relation.ReflTransGen (perform stopover {}).Contains station last ∧
      ∀ a ∈ (perform stopover {}).stopAreas.members,
        (perform stopover {}).Contains a station ↔ a = last := by
  have reached : Reachable (fun _ => True) (perform stopover {}) :=
    Reachable.empty.perform fun _ _ => trivial
  have members : (perform stopover {}).stopAreas.members =
      [bay, hall, station, plaza, barrier] := rfl
  have inStation : (perform stopover {}).childAreas station.id = [plaza, hall] := rfl
  have inHall : (perform stopover {}).childAreas hall.id = [bay] := rfl
  have inBarrier : (perform stopover {}).childAreas barrier.id = [] := rfl
  have round : Relation.TransGen (perform stopover {}).LiesIn station station :=
    .head (b := plaza) rfl (.single rfl)
  have above : ∀ a, Relation.TransGen (perform stopover {}).LiesIn hall a →
      a = station ∨ a = plaza := by
    intro a path
    induction path with
    | single link => exact Or.inl (Option.some.inj (link.symm.trans rfl))
    | tail _ link ih =>
      rcases ih with rfl | rfl
      · exact Or.inr (Option.some.inj (link.symm.trans rfl))
      · exact Or.inl (Option.some.inj (link.symm.trans rfl))
  have apart : ¬Relation.TransGen (perform stopover {}).LiesIn hall hall := by
    intro path
    rcases above hall path with same | same
    · exact absurd (congrArg StopArea.id same) (by decide)
    · exact absurd (congrArg StopArea.id same) (by decide)
  have known : ∀ a ∈ [bay, hall, station, plaza, barrier],
      a ∈ (perform stopover {}).stopAreas.members := fun a listed => members ▸ listed
  obtain ⟨_, _, _, hall_plain, _⟩ := reachable_centroids reached (known hall (by simp))
  obtain ⟨_, _, barrier_none, _, _⟩ := reachable_centroids reached (known barrier (by simp))
  obtain ⟨_, _, station_none, _, station_round⟩ :=
    reachable_centroids reached (known station (by simp))
  refine ⟨?_, barrier_none.mpr fun a path => ?_, fun nowhere => ?_, (station_round round).2⟩
  · rw [(hall_plain apart).2, inHall]
    rfl
  · rcases Relation.ReflTransGen.cases_head path with rfl | ⟨child, link, _⟩
    · exact Or.inl rfl
    · rw [Contains, inBarrier] at link
      cases link
  · have first : (perform stopover {}).Contains station hall := by
      rw [Contains, inStation]
      exact List.mem_cons_of_mem _ List.mem_cons_self
    have second : (perform stopover {}).Contains hall bay := by
      rw [Contains, inHall]
      exact List.mem_cons_self
    have lacks := station_none.mp nowhere bay ((Relation.ReflTransGen.single first).tail second)
    exact absurd lacks (by decide)

end LineClosure
