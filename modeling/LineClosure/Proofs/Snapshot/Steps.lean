import LineClosure.Proofs.Registry.Persistence
import LineClosure.Proofs.Snapshot.Loaded
import LineClosure.Proofs.Snapshot.Asides
import LineClosure.Proofs.Snapshot.Sections
import Mathlib.Logic.Relation

/-! A load as a walk of small steps. In each of them something is told or noted, a record enters
its table or is amended there, or the relations change beside the tables. What every step keeps,
a load keeps. -/

namespace LineClosure

open Keyed

namespace Kind

/-- Records that a load comes back to after they were entered: lines, routes and patterns get
the lists of what is nested in them, and stop points get a route. -/
def IsAmended : Kind → Prop
  | line | route | journeyPattern | stopPoint => True
  | _ => False

@[simp] theorem table_withTable (kind : Kind) (r : Registry) (table : Roster kind.Entry) :
    Entity.table (Entity.withTable r table) = table := by
  cases kind <;> rfl

theorem table_withTable_of_ne {kind other : Kind} (differ : other ≠ kind) (r : Registry)
    (table : Roster kind.Entry) :
    Entity.table (α := other.Entry) (Entity.withTable r table) = Entity.table r := by
  cases kind <;> cases other <;> first | rfl | exact absurd rfl differ

end Kind

namespace Registry

def SameTables (r s : Registry) : Prop :=
  ∀ kind : Kind, Entity.table (α := kind.Entry) s = Entity.table r

end Registry

namespace Edit

variable {r s : Registry}

theorem sameTables_onNesting {change : Placement.Change Unit}
    (done : onNesting change r = .ok () s) : r.SameTables s := by
  unfold onNesting at done
  split at done
  · cases done
    exact fun kind => by cases kind <;> rfl
  · cases done

theorem sameTables_onSiting {change : Placement.Change Unit}
    (done : onSiting change r = .ok () s) : r.SameTables s := by
  unfold onSiting at done
  split at done
  · cases done
    exact fun kind => by cases kind <;> rfl
  · cases done

theorem sameTables_nest {parent child : Reference} (done : nest parent child r = .ok () s) :
    r.SameTables s := by
  rw [nest_run] at done
  split at done
  · cases done
  · cases done
  · split at done
    · cases done
    · split at done
      · cases done
        exact fun kind => by cases kind <;> rfl
      · exact sameTables_onNesting done

theorem sameTables_constrainArea {constraint child : Reference}
    (done : constrainArea constraint child r = .ok () s) : r.SameTables s := by
  rw [constrainArea_run] at done
  split at done
  · cases done
  · cases done
  · split at done
    · cases done
    · exact sameTables_nest done

theorem sameTables_site {area stopPoint : Reference} (done : site area stopPoint r = .ok () s) :
    r.SameTables s := by
  rw [site_run] at done
  split at done
  · cases done
  · cases done
  · split at done
    · exact sameTables_onSiting done
    · cases done

theorem sameTables_constrainLine {constraint line : Reference}
    (done : constrainLine constraint line r = .ok () s) : r.SameTables s := by
  rw [constrainLine_run] at done
  split at done
  · cases done
  · split at done
    · cases done
    · cases done
      exact fun kind => by cases kind <;> rfl

end Edit

namespace Load

open Edit

/-- One change of a load. -/
inductive Step (s : Loading) : Loading → Prop where
  | tells (e : Event) : Step s { s with events := s.events ++ [e] }
  | notes (rejection : Rejection) : Step s { s with rejected := s.rejected ++ [rejection] }
  | enters (kind : Kind) (a : kind.Entry)
    (fresh : (Entity.table (α := kind.Entry) s.registry).contains (key a) = false) :
    Step s { s with
      registry := Entity.withTable s.registry ((Entity.table s.registry).insert a) }
  | amends (kind : Kind) (amended : kind.IsAmended) (id : Id) (change : kind.Entry → kind.Entry)
    (keeps : ∀ a, key (change a) = key a) :
    Step s { s with
      registry :=
        Entity.withTable s.registry ((Entity.table s.registry).amend id change keeps) }
  | relates {r : Registry} (same : s.registry.SameTables r) : Step s { s with registry := r }

abbrev Steps : Loading → Loading → Prop := Relation.ReflTransGen Step

theorem steps_refl (s : Loading) : Steps s s := .refl

theorem Steps.trans {s t u : Loading} (first : Steps s t) (second : Steps t u) : Steps s u :=
  Relation.ReflTransGen.trans first second

abbrev Walks {α : Type} (x : Load α) : Prop := Moves Steps (fun _ _ => True) x

section
variable {α γ : Type}

theorem walks_pure (a : α) : Walks (pure a) :=
  (moves_pure steps_refl).mono fun _ _ _ => trivial

theorem walks_throw (failure : Failure) : Walks (throw failure : Load α) := by
  intro s a t done
  cases done

theorem walks_tell (e : Event) : Walks (tell e) := by
  intro s a t done
  cases done
  exact ⟨.single (.tells e), trivial⟩

theorem walks_forM {rows : List γ} {enter : γ → Load PUnit} (each : ∀ row, Walks (enter row)) :
    Walks (rows.forM enter) :=
  Moves.forM steps_refl Steps.trans fun row _ => each row

theorem walks_mapM {rows : List γ} {enter : γ → Load α} (each : ∀ row, Walks (enter row)) :
    Walks (rows.mapM enter) :=
  (Moves.mapM steps_refl Steps.trans (fun _ _ _ _ _ => trivial) fun row _ => each row).mono
    fun _ _ _ => trivial

theorem walks_table {document : Row} {name : String} {enter : Row → Load Unit}
    (each : ∀ row, Walks (enter row)) : Walks (table document name enter) :=
  Moves.table steps_refl Steps.trans each

end

/-! ## Single changes -/

theorem moves_enter_entry (kind : Kind) (a : kind.Entry) :
    Moves Steps (fun _ t => a ∈ (Entity.table (α := kind.Entry) t.registry).members)
      (apply (enter a)) := by
  intro s _ t done
  obtain ⟨r, edited, rfl⟩ := apply_eq_ok_iff.mp done
  obtain ⟨fresh, rfl⟩ := enter_eq_ok_iff.mp edited
  refine ⟨.single (.enters kind a fresh), ?_⟩
  dsimp only
  rw [Kind.table_withTable, Roster.members_insert_of_fresh fresh]
  exact List.mem_append_right _ List.mem_cons_self

theorem walks_enter (kind : Kind) (a : kind.Entry) : Walks (apply (enter a)) :=
  (moves_enter_entry kind a).mono fun _ _ _ => trivial

theorem walks_amend (kind : Kind) (amended : kind.IsAmended) (id : Id)
    (change : kind.Entry → kind.Entry) (keeps : ∀ a, key (change a) = key a) :
    Walks (modify fun s => { s with
      registry :=
        Entity.withTable s.registry ((Entity.table s.registry).amend id change keeps) }) := by
  intro s _ t done
  cases done
  exact ⟨.single (.amends kind amended id change keeps), trivial⟩

theorem walks_contain {edit : Edit Unit} {holder item : Reference}
    (relates : ∀ r s, edit r = .ok () s → r.SameTables s) (refuses : edit.Refuses holder item) :
    Walks (contain edit holder item) := by
  intro s a t done
  refine ⟨?_, trivial⟩
  rcases contain_cases refuses done with ⟨r, edited, rfl⟩ | ⟨problem, _, rfl⟩
  · exact .single (.relates (relates _ _ edited))
  · exact .tail (.single (.tells (.containmentRejected ⟨holder, item, problem⟩))) (.notes _)

theorem walks_join (kind : Kind) {area : Reference} {stamp : kind.Entry → Nat} {a : kind.Entry}
    {attach : StopArea → Registry → Registry}
    (relates : ∀ holder (r : Registry), r.SameTables (attach holder r)) :
    Walks (apply (do
      let area ← require StopArea area
      adopt stamp a
      modify (attach area) : Edit Unit)) := by
  intro s _ t done
  obtain ⟨r, edited, rfl⟩ := apply_eq_ok_iff.mp done
  refine ⟨?_, trivial⟩
  rw [join_run] at edited
  split at edited
  · cases edited
  · next holder _ =>
    split at edited
    · cases edited
    · next u adopted =>
      cases edited
      rw [adopt_run] at adopted
      split at adopted
      · next fresh =>
        cases adopted
        have absent : (Entity.table (α := kind.Entry) s.registry).contains (key a) = false := by
          rw [Roster.contains_eq_isSome, fresh]
          rfl
        exact .tail (.single (.enters kind a absent)) (.relates (relates holder _))
      · split at adopted
        · cases adopted
        · cases adopted
          exact .single (.relates (relates holder _))

theorem walks_joinConnection (area : Reference) (link : ConnectionLink) (side : LinkEnd) :
    Walks (apply (joinConnection area link side)) := by
  rw [joinConnection_eq]
  refine walks_join .connectionLink fun holder r kind => ?_
  cases side <;> cases kind <;> rfl

theorem walks_joinAccessLink (area : Reference) (link : AccessLink) :
    Walks (apply (joinAccessLink area link)) :=
  walks_join .accessLink fun holder r kind => by cases kind <;> rfl

theorem walks_joinAccessPoint (area : Reference) (point : AccessPoint) :
    Walks (apply (joinAccessPoint area point)) :=
  walks_join .accessPoint fun holder r kind => by cases kind <;> rfl

/-! ## Rows -/

theorem walks_enterStopArea (row : Row) : Walks (enterStopArea row) := by
  refine Moves.after_check fun owner _ => ?_
  refine Moves.after_check fun _ _ => ?_
  dsimp only
  refine (walks_forM walks_tell).seq Steps.trans fun _ => ?_
  split
  · exact walks_throw _
  · exact Moves.after_check fun area _ => walks_enter .stopArea _

theorem walks_enterParent (row : Row) : Walks (enterParent row) := by
  unfold enterParent
  dsimp only
  split
  · refine Moves.after_check fun child _ => ?_
    exact walks_contain (fun _ _ => sameTables_nest) (nest_refuses _ _)
  · exact walks_pure ()

theorem walks_enterStopPoint (row : Row) : Walks (enterStopPoint row) := by
  refine Moves.after_check fun stop _ => ?_
  refine (walks_enter .stopPoint stop).seq Steps.trans fun _ => ?_
  dsimp only
  split
  · exact walks_contain (fun _ _ => sameTables_site) (site_refuses _ _)
  · exact walks_pure ()

theorem walks_enterVehicleJourney (patternId : Id) (row : Row) :
    Walks (enterVehicleJourney patternId row) := by
  refine Moves.after_check fun journey _ => ?_
  exact (walks_enter .vehicleJourney journey).seq Steps.trans fun _ => walks_pure _

theorem walks_enterJourneyPattern (routeId : Id) (row : Row) :
    Walks (enterJourneyPattern routeId row) := by
  refine Moves.after_check fun pattern _ => ?_
  refine (walks_enter .journeyPattern pattern).seq Steps.trans fun _ => ?_
  refine Moves.after_check fun rows _ => ?_
  refine (walks_mapM (walks_enterVehicleJourney pattern.id)).seq Steps.trans fun ids => ?_
  exact (walks_amend .journeyPattern trivial pattern.id _ _).seq Steps.trans fun _ => walks_pure _

theorem walks_claimStop (routeId : Id) (reference : Reference) :
    Walks (claimStop routeId reference) :=
  Moves.after_check fun stopId _ => walks_amend .stopPoint trivial stopId _ _

theorem walks_enterRoute (lineId : Id) (row : Row) : Walks (enterRoute lineId row) := by
  refine Moves.after_check fun route _ => ?_
  refine (walks_enter .route route).seq Steps.trans fun _ => ?_
  refine (walks_forM (walks_claimStop route.id)).seq Steps.trans fun _ => ?_
  refine Moves.after_check fun rows _ => ?_
  refine (walks_mapM (walks_enterJourneyPattern route.id)).seq Steps.trans fun ids => ?_
  exact (walks_amend .route trivial route.id _ _).seq Steps.trans fun _ => walks_pure _

theorem walks_enterLine (row : Row) : Walks (enterLine row) := by
  refine Moves.after_check fun line _ => ?_
  refine (walks_enter .line line).seq Steps.trans fun _ => ?_
  refine Moves.after_check fun rows _ => ?_
  refine (walks_mapM (walks_enterRoute line.id)).seq Steps.trans fun ids => ?_
  exact walks_amend .line trivial line.id _ _

theorem walks_enterConstraints (row : Row) : Walks (enterConstraints row) := by
  refine Moves.after_check fun areas _ => ?_
  refine (walks_forM fun entry => ?_).seq Steps.trans fun _ => ?_
  · refine Moves.after_check fun holder _ => ?_
    exact walks_contain (fun _ _ => sameTables_constrainArea) (constrainArea_refuses _ _)
  · refine Moves.after_check fun lines _ => ?_
    refine walks_forM fun entry => ?_
    refine Moves.after_check fun holder _ => ?_
    exact walks_contain (fun _ _ => sameTables_constrainLine) (constrainLine_refuses _ _)

theorem walks_preamble (document : Row) : Walks (preamble document) := by
  have bare : ∀ (kind : Kind) (read : Row → Except Failure kind.Entry) (row : Row),
      Walks (check (read row) >>= fun a => apply (enter a)) :=
    fun kind read row => Moves.after_check fun a _ => walks_enter kind a
  refine (walks_table (bare .network Row.network)).seq Steps.trans fun _ => ?_
  refine (walks_table (bare .company Row.company)).seq Steps.trans fun _ => ?_
  exact walks_table (bare .groupOfLines Row.groupOfLines)

theorem walks_tellRejected : Walks tellRejected := by
  intro s _ t done
  unfold tellRejected at done
  rw [get_bind] at done
  split at done
  · exact walks_tell _ s _ t done
  · exact walks_pure () s _ t done

end Load

/-! ## What no step takes back -/

/-- Records that are not amended stay as they are, and what was told stays told. -/
structure Loading.Retains (s t : Loading) : Prop where
  members : ∀ kind : Kind, ¬kind.IsAmended →
    (Entity.table (α := kind.Entry) s.registry).members ⊆
      (Entity.table (α := kind.Entry) t.registry).members
  events : s.events <+: t.events

namespace Loading

variable {s t : Loading}

theorem retains_refl (s : Loading) : s.Retains s :=
  ⟨fun _ _ => List.Subset.refl _, List.prefix_refl _⟩

theorem Retains.trans {u : Loading} (first : s.Retains t) (second : t.Retains u) : s.Retains u where
  members kind fixed := List.Subset.trans (first.members kind fixed) (second.members kind fixed)
  events := first.events.trans second.events

theorem Retains.areas (retains : s.Retains t) :
    s.registry.stopAreas.Grows t.registry.stopAreas := by
  intro id there
  obtain ⟨area, member, same⟩ := Roster.contains_iff.mp there
  have kept : area ∈ t.registry.stopAreas.members :=
    retains.members .stopArea (fun amended => amended) member
  exact Roster.contains_iff.mpr ⟨area, kept, same⟩

end Loading

namespace Load

variable {s t : Loading}

theorem Step.retains (step : Step s t) : s.Retains t := by
  cases step with
  | tells e => exact ⟨fun _ _ => List.Subset.refl _, List.prefix_append _ _⟩
  | notes rejection => exact ⟨fun _ _ => List.Subset.refl _, List.prefix_refl _⟩
  | enters kind a fresh =>
    refine ⟨fun other _ => ?_, List.prefix_refl _⟩
    dsimp only
    by_cases same : other = kind
    · subst same
      rw [Kind.table_withTable, Roster.members_insert_of_fresh fresh]
      exact List.subset_append_left _ _
    · rw [Kind.table_withTable_of_ne same]
      exact List.Subset.refl _
  | amends kind amended id change keeps =>
    refine ⟨fun other fixed => ?_, List.prefix_refl _⟩
    have differ : other ≠ kind := fun same => fixed (same ▸ amended)
    dsimp only
    rw [Kind.table_withTable_of_ne differ]
    exact List.Subset.refl _
  | relates same =>
    refine ⟨fun other _ => ?_, List.prefix_refl _⟩
    dsimp only
    rw [same other]
    exact List.Subset.refl _

theorem Steps.retains (steps : Steps s t) : s.Retains t := by
  induction steps with
  | refl => exact s.retains_refl
  | tail _ last ih => exact ih.trans last.retains

section
variable {α β : Type}

theorem moves_both {x : Load α} {rest : α → Load β} {P S : Loading → Prop}
    (lasts : ∀ s t : Loading, s.Retains t → P s → P t) (first : Moves Steps (fun _ => P) x)
    (second : ∀ a, Moves Steps (fun _ => S) (rest a)) :
    Moves Steps (fun _ t => P t ∧ S t) (x >>= rest) :=
  first.both Steps.trans (fun {s t} (steps : Steps s t) => lasts s t steps.retains) second

theorem moves_after_enter (kind : Kind) (fixed : ¬kind.IsAmended) (a : kind.Entry)
    {rest : Unit → Load β} {S : Loading → Prop} (second : ∀ u, Moves Steps (fun _ => S) (rest u)) :
    Moves Steps
      (fun _ t => a ∈ (Entity.table (α := kind.Entry) t.registry).members ∧ S t)
      (apply (Edit.enter a) >>= rest) :=
  moves_both (fun _ _ retains there => retains.members kind fixed there) (moves_enter_entry kind a)
    second

theorem moves_table {document : Row} {name : String} {enter : Row → Load Unit}
    {P : Row → Loading → Prop} (lasts : ∀ row, ∀ s t : Loading, s.Retains t → P row s → P row t)
    (each : ∀ row, Moves Steps (fun _ => P row) (enter row)) :
    Moves Steps (fun _ t => ∀ row ∈ document.listed name, P row t)
      (table document name enter) := by
  refine Moves.after_check fun rows found => ?_
  rw [Row.listed_of_items found]
  exact Moves.forM_each steps_refl Steps.trans
    (fun row {s t} (steps : Steps s t) => lasts row s t steps.retains) each

end
end Load
end LineClosure
