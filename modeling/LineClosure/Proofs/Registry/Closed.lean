import LineClosure.Proofs.Registry.Actions
import LineClosure.Proofs.Registry.Changes

/-! What a registry refers to by itself is in it. An area is noted as a holder only after it
was looked up, and what is attached to an area is adopted first; so every look-up that follows
such a reference finds what it is for, whatever the identifiers are. -/

namespace LineClosure

open Keyed

namespace Roster

variable {α : Type} [Keyed α] {r s : Roster α}

def Grows (r s : Roster α) : Prop := ∀ id, r.contains id = true → s.contains id = true

theorem grows_refl (r : Roster α) : r.Grows r := fun _ there => there

theorem Grows.trans {t : Roster α} (first : r.Grows s) (second : s.Grows t) : r.Grows t :=
  fun id there => second id (first id there)

theorem grows_insert (r : Roster α) (a : α) : r.Grows (r.insert a) := by
  intro id there
  rw [contains_eq_isSome, Option.isSome_iff_exists] at there ⊢
  obtain ⟨b, found⟩ := there
  exact ⟨b, by rw [find?_insert, found, Option.some_or]⟩

theorem contains_insert_self (r : Roster α) (a : α) : (r.insert a).contains (key a) = true :=
  contains_key_iff.mpr (mem_identities_insert.mpr (Or.inr rfl))

theorem contains_amend (r : Roster α) (id : Id) (change : α → α)
    (keeps : ∀ a, key (change a) = key a) (other : Id) :
    (r.amend id change keeps).contains other = r.contains other := by
  rw [contains_eq_isSome, contains_eq_isSome, find?_amend, Option.isSome_map]

theorem grows_amend (r : Roster α) (id : Id) (change : α → α)
    (keeps : ∀ a, key (change a) = key a) : r.Grows (r.amend id change keeps) :=
  fun other there => (contains_amend r id change keeps other).trans there

theorem contains_of_find? {id : Id} {a : α} (found : r.find? id = some a) :
    r.contains (key a) = true :=
  contains_iff.mpr ⟨a, mem_of_find? found, rfl⟩

theorem isSome_resolve?_scalar (r : Roster α) (id : Id) :
    (r.resolve? (.scalar id)).isSome = r.contains id := (contains_eq_isSome r id).symm

theorem Grows.resolve? (grows : r.Grows s) {reference : Value}
    (named : (r.resolve? reference).isSome = true) : (s.resolve? reference).isSome = true := by
  cases reference with
  | scalar id =>
    rw [isSome_resolve?_scalar] at named ⊢
    exact grows id named
  | list items => cases named
  | object fields => cases named

theorem mem_insert {a b : α} (there : b ∈ (r.insert a).members) : b ∈ r.members ∨ b = a := by
  rw [members_insert] at there
  split at there
  · exact Or.inl there
  · exact (List.mem_append.mp there).imp_right List.mem_singleton.mp

theorem mem_amend {id : Id} {change : α → α} {b : α}
    (there : b ∈ r.members.map fun a => if identity a = canonical id then change a else a) :
    ∃ a ∈ r.members, b = change a ∨ b = a := by
  obtain ⟨a, member, same⟩ := List.mem_map.mp there
  refine ⟨a, member, ?_⟩
  split at same
  · exact Or.inl same.symm
  · exact Or.inr same.symm

end Roster

namespace Attachments

variable {ι : Type} [DecidableEq ι] [Canonical ι]

theorem mem_attach {r : Attachments ι} {holder : Id} {item : ι} {list : Attachment ι}
    (there : list ∈ (r.attach holder item).members) :
    (list.holder = holder ∨ ∃ before ∈ r.members, list.holder = before.holder) ∧
      ∀ x ∈ list.items, x = item ∨ ∃ before ∈ r.members, x ∈ before.items := by
  obtain ⟨old, member, same⟩ := Roster.mem_amend there
  have origin : old ∈ r.members ∨ old = ⟨holder, []⟩ := Roster.mem_insert member
  have extended : list.holder = old.holder ∧ ∀ x ∈ list.items, x ∈ old.items ∨ x = item := by
    rcases same with rfl | rfl
    · refine ⟨rfl, fun x listed => ?_⟩
      dsimp only at listed
      split at listed
      · exact Or.inl listed
      · exact (List.mem_append.mp listed).imp_right List.mem_singleton.mp
    · exact ⟨rfl, fun x listed => Or.inl listed⟩
  rcases origin with before | rfl
  · refine ⟨Or.inr ⟨old, before, extended.1⟩, fun x listed => ?_⟩
    rcases extended.2 x listed with earlier | new
    · exact Or.inr ⟨old, before, earlier⟩
    · exact Or.inl new
  · refine ⟨Or.inl extended.1, fun x listed => ?_⟩
    rcases extended.2 x listed with earlier | new
    · cases earlier
    · exact Or.inl new

section
variable {r : Attachments ι} {holder : Id} {item : ι}

theorem contains_holder_attach {α : Type} [Keyed α] {table : Roster α}
    (there : table.contains holder = true)
    (before : ∀ list ∈ r.members, table.contains list.holder = true) :
    ∀ list ∈ (r.attach holder item).members, table.contains list.holder = true := by
  intro list member
  rcases (mem_attach member).1 with same | ⟨old, listed, same⟩
  · exact same ▸ there
  · exact same ▸ before old listed

theorem forall_items_attach {P : ι → Prop} (there : P item)
    (before : ∀ list ∈ r.members, ∀ x ∈ list.items, P x) :
    ∀ list ∈ (r.attach holder item).members, ∀ x ∈ list.items, P x := by
  intro list member x given
  rcases (mem_attach member).2 x given with rfl | ⟨old, listed, earlier⟩
  · exact there
  · exact before old listed x earlier

end

end Attachments

namespace Placement

theorem mem_note {places : Roster Place} {item holder : Id} {place : Place}
    (there : place ∈ (note places item holder).members) :
    place.holder = holder ∨ ∃ before ∈ places.members, place.holder = before.holder := by
  obtain ⟨old, member, rfl | rfl⟩ := Roster.mem_amend there
  · exact Or.inl rfl
  · rcases Roster.mem_insert member with before | rfl
    · exact Or.inr ⟨_, before, rfl⟩
    · exact Or.inl rfl

theorem contains_holder_note {α : Type} [Keyed α] {table : Roster α} {places : Roster Place}
    {item holder : Id} (there : table.contains holder = true)
    (before : ∀ place ∈ places.members, table.contains place.holder = true) :
    ∀ place ∈ (note places item holder).members, table.contains place.holder = true := by
  intro place member
  rcases mem_note member with same | ⟨old, listed, same⟩
  · exact same ▸ there
  · exact same ▸ before old listed

/-- To put an item somewhere leaves it where it is, notes its holder, or fails for the one
reason there is. -/
theorem put_cases (holder item : Id) (p : Placement) :
    put holder item p = .ok () p ∨
      (∃ held, put holder item p = .ok () ⟨note p.places item holder, held⟩) ∨
        ∃ q, put holder item p = .error (.brokenBackReference item) q := by
  cases current : p.holder? item with
  | none =>
    -- an item without a holder counts as held by null
    cases named : Scalar.null.equals holder with
    | true =>
      refine Or.inl ?_
      unfold put
      rw [get_bind]
      simp only [current, Option.getD_none, named, ↓reduceIte]
      rfl
    | false => exact Or.inr (Or.inl ⟨_, put_of_nowhere current named⟩)
  | some former =>
    cases same : former.equals holder with
    | true => exact Or.inl (put_of_same current same)
    | false =>
      cases listed : Attachments.lists (p.row former) item with
      | true => exact Or.inr (Or.inl ⟨_, put_of_former current same listed⟩)
      | false =>
        have thrown : withdraw former item p = .error (.brokenBackReference item) p := by
          unfold withdraw
          rw [get_bind, listed]
          rfl
        refine Or.inr (Or.inr ⟨p, ?_⟩)
        unfold put
        rw [get_bind]
        simp only [current, Option.getD_some, same, Bool.false_eq_true, ↓reduceIte]
        exact bind_error thrown

theorem put_eq_error {holder item : Id} {p q : Placement} {problem : Problem}
    (failed : put holder item p = .error problem q) : problem = .brokenBackReference item := by
  rcases put_cases holder item p with stays | ⟨held, moves⟩ | ⟨other, fails⟩
  · rw [stays] at failed
    cases failed
  · rw [moves] at failed
    cases failed
  · rw [fails] at failed
    cases failed
    rfl

end Placement

namespace Registry

/-- Whatever a registry refers to by itself is registered: what is nested in its records, the
holders of its areas, stop points and constrained lines, and what is attached to areas. -/
structure Closed (r : Registry) : Prop where
  routes : ∀ line ∈ r.lines.members, ∀ reference ∈ line.routeIds,
    (r.routes.resolve? reference).isSome = true
  patterns : ∀ route ∈ r.routes.members, ∀ reference ∈ route.journeyPatternIds,
    (r.journeyPatterns.resolve? reference).isSome = true
  journeys : ∀ pattern ∈ r.journeyPatterns.members, ∀ reference ∈ pattern.vehicleJourneyIds,
    (r.vehicleJourneys.resolve? reference).isSome = true
  nesting : ∀ place ∈ r.nesting.places.members, r.stopAreas.contains place.holder = true
  siting : ∀ place ∈ r.siting.places.members, r.stopAreas.contains place.holder = true
  constraints : ∀ list ∈ r.constrainedLines.members, r.stopAreas.contains list.holder = true
  starts : ∀ list ∈ r.connectionStarts.members, ∀ id ∈ list.items,
    r.connectionLinks.contains id = true
  ends : ∀ list ∈ r.connectionEnds.members, ∀ id ∈ list.items,
    r.connectionLinks.contains id = true
  paths : ∀ list ∈ r.linkedPaths.members, ∀ id ∈ list.items, r.accessLinks.contains id = true
  entrances : ∀ list ∈ r.entrances.members, ∀ id ∈ list.items,
    r.accessPoints.contains id = true

theorem closed_empty : Closed {} := by
  constructor <;> intro a member <;> cases member

end Registry

def Record.IsBare : Record → Prop
  | .line l => l.routeIds = []
  | .route r => r.journeyPatternIds = []
  | .journeyPattern p => p.vehicleJourneyIds = []
  | _ => True

namespace Registry

variable {r s : Registry}

theorem Closed.enter {α : Type} {kind : Entity α} (record : Record) {a : α}
    (is : record.entity? = some ⟨α, kind, a⟩) (bare : record.IsBare) (closed : r.Closed) :
    (Entity.withTable r ((Entity.table r).insert a)).Closed := by
  have more : ∀ {β : Type} [Keyed β] (table : Roster β) (b : β) (id : Id),
      table.contains id = true → (table.insert b).contains id = true :=
    fun table b => Roster.grows_insert table b
  -- Tables only grow, so what was named is still there, and the new record names nothing yet.
  cases record with
  | calendarDay | period | tally => cases is
  | line l =>
    cases is
    refine { closed with routes := fun line member reference given => ?_ }
    rcases Roster.mem_insert member with old | rfl
    · exact closed.routes line old reference given
    · rw [show line.routeIds = [] from bare] at given
      cases given
  | route =>
    cases is
    refine { closed with
      routes := fun line member reference given =>
        (Roster.grows_insert _ _).resolve? (closed.routes line member reference given)
      patterns := fun route member reference given => ?_ }
    rcases Roster.mem_insert member with old | rfl
    · exact closed.patterns route old reference given
    · rw [show route.journeyPatternIds = [] from bare] at given
      cases given
  | journeyPattern =>
    cases is
    refine { closed with
      patterns := fun route member reference given =>
        (Roster.grows_insert _ _).resolve? (closed.patterns route member reference given)
      journeys := fun pattern member reference given => ?_ }
    rcases Roster.mem_insert member with old | rfl
    · exact closed.journeys pattern old reference given
    · rw [show pattern.vehicleJourneyIds = [] from bare] at given
      cases given
  | vehicleJourney =>
    cases is
    exact { closed with
      journeys := fun pattern member reference given =>
        (Roster.grows_insert _ _).resolve? (closed.journeys pattern member reference given) }
  | stopArea =>
    cases is
    exact { closed with
      nesting := fun place member => more _ _ _ (closed.nesting place member)
      siting := fun place member => more _ _ _ (closed.siting place member)
      constraints := fun list member => more _ _ _ (closed.constraints list member) }
  | connectionLink =>
    cases is
    exact { closed with
      starts := fun list member id given => more _ _ _ (closed.starts list member id given)
      ends := fun list member id given => more _ _ _ (closed.ends list member id given) }
  | accessPoint =>
    cases is
    exact { closed with
      entrances := fun list member id given => more _ _ _ (closed.entrances list member id given) }
  | accessLink =>
    cases is
    exact { closed with
      paths := fun list member id given => more _ _ _ (closed.paths list member id given) }
  | _ =>
    cases is
    exact { closed with }

/-- A registry went on from `r` to `s`: what was closed is closed, and the records that can be
nested in others are all still there. -/
structure Onward (r s : Registry) : Prop where
  closed : r.Closed → s.Closed
  routes : r.routes.Grows s.routes
  journeyPatterns : r.journeyPatterns.Grows s.journeyPatterns
  vehicleJourneys : r.vehicleJourneys.Grows s.vehicleJourneys

theorem onward_refl (r : Registry) : r.Onward r :=
  ⟨id, Roster.grows_refl _, Roster.grows_refl _, Roster.grows_refl _⟩

theorem onward_beside (closes : r.Closed → s.Closed) (routes : s.routes = r.routes)
    (patterns : s.journeyPatterns = r.journeyPatterns)
    (journeys : s.vehicleJourneys = r.vehicleJourneys) : r.Onward s where
  closed := closes
  routes := routes ▸ Roster.grows_refl _
  journeyPatterns := patterns ▸ Roster.grows_refl _
  vehicleJourneys := journeys ▸ Roster.grows_refl _

theorem Onward.trans {t : Registry} (first : r.Onward s) (second : s.Onward t) : r.Onward t where
  closed closed := second.closed (first.closed closed)
  routes := first.routes.trans second.routes
  journeyPatterns := first.journeyPatterns.trans second.journeyPatterns
  vehicleJourneys := first.vehicleJourneys.trans second.vehicleJourneys

theorem isSome_resolve?_of_mem {α : Type} [Keyed α] {table : Roster α} {ids : List Id}
    (there : ∀ id ∈ ids, table.contains id = true) {reference : Reference}
    (given : reference ∈ ids.map Value.scalar) : (table.resolve? reference).isSome = true := by
  obtain ⟨id, listed, rfl⟩ := List.mem_map.mp given
  rw [Roster.isSome_resolve?_scalar]
  exact there id listed

theorem amendPattern_onward {ids : List Id} (id : Id)
    (there : ∀ journey ∈ ids, r.vehicleJourneys.contains journey = true) :
    r.Onward { r with
      journeyPatterns := r.journeyPatterns.amend id
        (fun p => { p with vehicleJourneyIds := ids.map .scalar }) fun _ => rfl } := by
  have grows : r.journeyPatterns.Grows (r.journeyPatterns.amend id
      (fun p => { p with vehicleJourneyIds := ids.map .scalar }) fun _ => rfl) :=
    Roster.grows_amend _ _ _ _
  refine ⟨fun closed => { closed with
    patterns := fun route member reference given =>
      grows.resolve? (closed.patterns route member reference given)
    journeys := fun pattern member reference given => ?_ }, Roster.grows_refl _, grows,
    Roster.grows_refl _⟩
  obtain ⟨old, before, rfl | rfl⟩ := Roster.mem_amend member
  · exact isSome_resolve?_of_mem there given
  · exact closed.journeys _ before reference given

theorem amendRoute_onward {ids : List Id} (id : Id)
    (there : ∀ pattern ∈ ids, r.journeyPatterns.contains pattern = true) :
    r.Onward { r with
      routes := r.routes.amend id (fun a => { a with journeyPatternIds := ids.map .scalar })
        fun _ => rfl } := by
  have grows : r.routes.Grows (r.routes.amend id
      (fun a => { a with journeyPatternIds := ids.map .scalar }) fun _ => rfl) :=
    Roster.grows_amend _ _ _ _
  refine ⟨fun closed => { closed with
    routes := fun line member reference given =>
      grows.resolve? (closed.routes line member reference given)
    patterns := fun route member reference given => ?_ }, grows, Roster.grows_refl _,
    Roster.grows_refl _⟩
  obtain ⟨old, before, rfl | rfl⟩ := Roster.mem_amend member
  · exact isSome_resolve?_of_mem there given
  · exact closed.patterns _ before reference given

theorem amendLine_onward {ids : List Id} (id : Id)
    (there : ∀ route ∈ ids, r.routes.contains route = true) :
    r.Onward { r with
      lines := r.lines.amend id (fun l => { l with routeIds := ids.map .scalar })
        fun _ => rfl } := by
  refine onward_beside
    (fun closed => { closed with routes := fun line member reference given => ?_ }) rfl rfl rfl
  obtain ⟨old, before, rfl | rfl⟩ := Roster.mem_amend member
  · exact isSome_resolve?_of_mem there given
  · exact closed.routes _ before reference given

theorem lookUp_eq_ok_iff {α : Type} [Entity α] {reference : Reference} {a : α} :
    r.lookUp reference = .ok a ↔
      ∃ id, reference.id? = some id ∧ (Entity.table r).find? id = some a := by
  constructor
  · intro done
    unfold lookUp at done
    split at done
    · cases done
    · next id named =>
      split at done
      · next b found =>
        cases done
        exact ⟨id, named, found⟩
      · cases done
  · rintro ⟨id, named, found⟩
    simp only [lookUp, named, found]

end Registry

namespace Edit

open Registry

variable {r s : Registry}

theorem enter_onward {α : Type} {kind : Entity α} (record : Record) {a : α}
    (is : record.entity? = some ⟨α, kind, a⟩) (bare : record.IsBare)
    (done : enter a r = .ok () s) : r.Onward s := by
  obtain ⟨_, rfl⟩ := enter_eq_ok_iff.mp done
  have closed := Closed.enter (r := r) record is bare
  cases record with
  | calendarDay | period | tally => cases is
  | route =>
    cases is
    exact ⟨closed, Roster.grows_insert _ _, Roster.grows_refl _, Roster.grows_refl _⟩
  | journeyPattern =>
    cases is
    exact ⟨closed, Roster.grows_refl _, Roster.grows_insert _ _, Roster.grows_refl _⟩
  | vehicleJourney =>
    cases is
    exact ⟨closed, Roster.grows_refl _, Roster.grows_refl _, Roster.grows_insert _ _⟩
  | _ =>
    cases is
    exact onward_beside closed rfl rfl rfl

theorem onNesting_put_onward {holder item : Id} (there : r.stopAreas.contains holder = true)
    (done : onNesting (Placement.put holder item) r = .ok () s) : r.Onward s := by
  unfold onNesting at done
  rcases Placement.put_cases holder item r.nesting with stays | ⟨held, moves⟩ | ⟨q, fails⟩
  · rw [stays] at done
    cases done
    exact onward_refl r
  · rw [moves] at done
    cases done
    exact onward_beside (fun closed =>
      { closed with nesting := Placement.contains_holder_note there closed.nesting }) rfl rfl rfl
  · rw [fails] at done
    cases done

theorem onSiting_put_onward {holder item : Id} (there : r.stopAreas.contains holder = true)
    (done : onSiting (Placement.put holder item) r = .ok () s) : r.Onward s := by
  unfold onSiting at done
  rcases Placement.put_cases holder item r.siting with stays | ⟨held, moves⟩ | ⟨q, fails⟩
  · rw [stays] at done
    cases done
    exact onward_refl r
  · rw [moves] at done
    cases done
    exact onward_beside (fun closed =>
      { closed with siting := Placement.contains_holder_note there closed.siting }) rfl rfl rfl
  · rw [fails] at done
    cases done

theorem nest_onward {parent child : Reference} (done : nest parent child r = .ok () s) :
    r.Onward s := by
  rw [nest_run] at done
  split at done
  · cases done
  · cases done
  · next holder item found _ =>
    obtain ⟨_, _, hasHolder⟩ := lookUp_eq_ok_iff.mp found
    split at done
    · cases done
    · split at done
      · cases done
        exact onward_beside (fun closed => { closed with }) rfl rfl rfl
      · exact onNesting_put_onward (Roster.contains_of_find? hasHolder) done

theorem constrainArea_onward {constraint child : Reference}
    (done : constrainArea constraint child r = .ok () s) : r.Onward s := by
  rw [constrainArea_run] at done
  split at done
  · cases done
  · cases done
  · split at done
    · cases done
    · exact nest_onward done

theorem site_onward {area stopPoint : Reference} (done : site area stopPoint r = .ok () s) :
    r.Onward s := by
  rw [site_run] at done
  split at done
  · cases done
  · cases done
  · next holder item found _ =>
    obtain ⟨_, _, hasHolder⟩ := lookUp_eq_ok_iff.mp found
    split at done
    · exact onSiting_put_onward (Roster.contains_of_find? hasHolder) done
    · cases done

theorem constrainLine_onward {constraint line : Reference}
    (done : constrainLine constraint line r = .ok () s) : r.Onward s := by
  rw [constrainLine_run] at done
  split at done
  · cases done
  · next holder found =>
    obtain ⟨_, _, hasHolder⟩ := lookUp_eq_ok_iff.mp found
    split at done
    · cases done
    · cases done
      have there := Roster.contains_of_find? hasHolder
      exact onward_beside (fun closed =>
        { closed with
          constraints := Attachments.contains_holder_attach there closed.constraints }) rfl rfl rfl

theorem adopt_onward {α : Type} {kind : Entity α} (record : Record) {stamp : α → Nat} {a : α}
    (is : record.entity? = some ⟨α, kind, a⟩) (bare : record.IsBare)
    (same : ∀ table : Roster α, Entity.table (Entity.withTable r table) = table)
    (done : adopt stamp a r = .ok () s) :
    r.Onward s ∧ (Entity.table (α := α) s).contains (key a) = true := by
  rw [adopt_run] at done
  split at done
  · next fresh =>
    cases done
    have absent : (Entity.table (α := α) r).contains (key a) = false := by
      rw [Roster.contains_eq_isSome, fresh]
      rfl
    refine ⟨enter_onward record is bare (enter_eq_ok_iff.mpr ⟨absent, rfl⟩), ?_⟩
    rw [same]
    exact Roster.contains_insert_self _ _
  · next present found =>
    split at done
    · cases done
    · cases done
      refine ⟨onward_refl r, ?_⟩
      rw [Roster.contains_eq_isSome, found]
      rfl

theorem join_onward {α : Type} {kind : Entity α} (record : Record) {area : Reference}
    {stamp : α → Nat} {a : α} {attach : StopArea → Registry → Registry}
    (is : record.entity? = some ⟨α, kind, a⟩) (bare : record.IsBare)
    (same : ∀ r (table : Roster α), Entity.table (Entity.withTable r table) = table)
    (onward : ∀ holder r, (Entity.table (α := α) r).contains (key a) = true →
      r.Onward (attach holder r))
    (done : (do
      let area ← require StopArea area
      adopt stamp a
      modify (attach area) : Edit Unit) r = .ok () s) : r.Onward s := by
  rw [join_run] at done
  split at done
  · cases done
  · next holder _ =>
    split at done
    · cases done
    · next t adopted =>
      cases done
      obtain ⟨first, there⟩ := adopt_onward record is bare (same r) adopted
      exact first.trans (onward holder t there)

theorem joinConnection_onward {area : Reference} {link : ConnectionLink} {side : LinkEnd}
    (done : joinConnection area link side r = .ok () s) : r.Onward s := by
  rw [joinConnection_eq] at done
  refine join_onward (.connectionLink link) rfl trivial (fun _ _ => rfl) ?_ done
  intro holder t there
  cases side with
  | start =>
    exact onward_beside (fun closed =>
      { closed with starts := Attachments.forall_items_attach there closed.starts }) rfl rfl rfl
  | finish =>
    exact onward_beside (fun closed =>
      { closed with ends := Attachments.forall_items_attach there closed.ends }) rfl rfl rfl

theorem joinAccessLink_onward {area : Reference} {link : AccessLink}
    (done : joinAccessLink area link r = .ok () s) : r.Onward s := by
  refine join_onward (.accessLink link) rfl trivial (fun _ _ => rfl) ?_ done
  intro holder t there
  exact onward_beside (fun closed =>
    { closed with paths := Attachments.forall_items_attach there closed.paths }) rfl rfl rfl

theorem joinAccessPoint_onward {area : Reference} {point : AccessPoint}
    (done : joinAccessPoint area point r = .ok () s) : r.Onward s := by
  refine join_onward (.accessPoint point) rfl trivial (fun _ _ => rfl) ?_ done
  intro holder t there
  exact onward_beside (fun closed =>
    { closed with entrances := Attachments.forall_items_attach there closed.entrances }) rfl rfl rfl

end Edit
end LineClosure
