import LineClosure.Proofs.Registry.Closed
import LineClosure.Proofs.Snapshot.Runs

/-! A loaded registry is closed. Each row only adds to what was there, and the nested records
of a line are registered before the list that names them is set. -/

namespace LineClosure

namespace Edit

open Registry

variable {r s : Registry}

/-- Why a change about two references may be refused: one of them leads nowhere, or a rule is
against it. -/
inductive Refusal (r : Registry) (holder item : Reference) : Problem → Prop where
  | holder {α : Type} [Entity α] {problem : Problem}
    (failed : r.lookUp (α := α) holder = .error problem) : Refusal r holder item problem
  | item {α : Type} [Entity α] {problem : Problem}
    (failed : r.lookUp (α := α) item = .error problem) : Refusal r holder item problem
  | rule (area : AreaType) (held : Held) (relation : Relation) :
    Refusal r holder item (.forbidden area held relation)

/-- A change that is refused has not touched the registry. Only a placement out of order could
fail half-way. -/
def Refuses (edit : Edit Unit) (holder item : Reference) : Prop :=
  ∀ r problem s, edit r = .error problem s →
    s = r ∧ Refusal r holder item problem ∨ ∃ item, problem = .brokenBackReference item

theorem onNesting_put_eq_error {holder item : Id} {problem : Problem}
    (failed : onNesting (Placement.put holder item) r = .error problem s) :
    problem = .brokenBackReference item := by
  unfold onNesting at failed
  split at failed
  · cases failed
  · next fails =>
    cases failed
    exact Placement.put_eq_error fails

theorem onSiting_put_eq_error {holder item : Id} {problem : Problem}
    (failed : onSiting (Placement.put holder item) r = .error problem s) :
    problem = .brokenBackReference item := by
  unfold onSiting at failed
  split at failed
  · cases failed
  · next fails =>
    cases failed
    exact Placement.put_eq_error fails

theorem nest_refuses (parent child : Reference) : Refuses (nest parent child) parent child := by
  intro r problem s failed
  rw [nest_run] at failed
  split at failed
  · next first =>
    cases failed
    exact Or.inl ⟨rfl, .holder first⟩
  · next second =>
    cases failed
    exact Or.inl ⟨rfl, .item second⟩
  · split at failed
    · cases failed
      exact Or.inl ⟨rfl, .rule _ _ _⟩
    · split at failed
      · cases failed
      · exact Or.inr ⟨_, onNesting_put_eq_error failed⟩

theorem constrainArea_refuses (constraint child : Reference) :
    Refuses (constrainArea constraint child) constraint child := by
  intro r problem s failed
  rw [constrainArea_run] at failed
  split at failed
  · next first =>
    cases failed
    exact Or.inl ⟨rfl, .holder first⟩
  · next second =>
    cases failed
    exact Or.inl ⟨rfl, .item second⟩
  · split at failed
    · cases failed
      exact Or.inl ⟨rfl, .rule _ _ _⟩
    · exact nest_refuses constraint child r problem s failed

theorem site_refuses (area stopPoint : Reference) :
    Refuses (site area stopPoint) area stopPoint := by
  intro r problem s failed
  rw [site_run] at failed
  split at failed
  · next first =>
    cases failed
    exact Or.inl ⟨rfl, .holder first⟩
  · next second =>
    cases failed
    exact Or.inl ⟨rfl, .item second⟩
  · split at failed
    · exact Or.inr ⟨_, onSiting_put_eq_error failed⟩
    · cases failed
      exact Or.inl ⟨rfl, .rule _ _ _⟩

theorem constrainLine_refuses (constraint line : Reference) :
    Refuses (constrainLine constraint line) constraint line := by
  intro r problem s failed
  rw [constrainLine_run] at failed
  split at failed
  · next first =>
    cases failed
    exact Or.inl ⟨rfl, .holder first⟩
  · split at failed
    · cases failed
      exact Or.inl ⟨rfl, .rule _ _ _⟩
    · cases failed

end Edit

namespace Load

open Registry Edit

variable {α : Type}

def Forward (s t : Loading) : Prop := s.registry.Onward t.registry

theorem forward_refl (s : Loading) : Forward s s := onward_refl s.registry

theorem Forward.trans {s t u : Loading} (first : Forward s t) (second : Forward t u) :
    Forward s u :=
  Onward.trans first second

abbrev Advances (x : Load α) : Prop := Moves Forward (fun _ _ => True) x

theorem advances_pure (a : α) : Advances (pure a) :=
  (moves_pure forward_refl).mono fun _ _ _ => trivial

theorem advances_tell (e : Event) : Advances (tell e) := by
  intro s a t done
  cases done
  exact ⟨forward_refl s, trivial⟩

theorem advances_throw (failure : Failure) : Advances (throw failure : Load α) := by
  intro s a t done
  cases done

theorem advances_forM {γ : Type} {rows : List γ} {enter : γ → Load PUnit}
    (each : ∀ row, Advances (enter row)) : Advances (rows.forM enter) :=
  Moves.forM forward_refl Forward.trans fun row _ => each row

theorem advances_apply {edit : Edit α} (onward : ∀ r a s, edit r = .ok a s → r.Onward s) :
    Advances (apply edit) := by
  intro s a t done
  obtain ⟨r, edited, rfl⟩ := apply_eq_ok_iff.mp done
  exact ⟨onward _ _ _ edited, trivial⟩

/-- A containment is applied, or it is refused, told of and noted. -/
theorem contain_cases {edit : Edit Unit} {holder item : Reference} {s t : Loading}
    (refuses : edit.Refuses holder item) (done : contain edit holder item s = .ok () t) :
    (∃ r, edit s.registry = .ok () r ∧ t = { s with registry := r }) ∨
    ∃ problem, Refusal s.registry holder item problem ∧ t = { s with
      rejected := s.rejected ++ [⟨holder, item, problem⟩]
      events := s.events ++ [.containmentRejected ⟨holder, item, problem⟩] } := by
  unfold contain at done
  split at done
  · next r edited =>
    cases done
    exact Or.inl ⟨r, edited, rfl⟩
  · next problem r edited =>
    rcases refuses _ _ _ edited with ⟨rfl, refusal⟩ | ⟨other, rfl⟩
    · split at done
      · cases done
        exact Or.inr ⟨_, refusal, rfl⟩
      · cases done
        exact Or.inr ⟨_, refusal, rfl⟩
      · cases done
    · cases done

theorem advances_contain {edit : Edit Unit} {holder item : Reference}
    (onward : ∀ r s, edit r = .ok () s → r.Onward s) (refuses : edit.Refuses holder item) :
    Advances (contain edit holder item) := by
  intro s a t done
  refine ⟨?_, trivial⟩
  rcases contain_cases refuses done with ⟨r, edited, rfl⟩ | ⟨_, _, rfl⟩
  · exact onward _ _ edited
  · exact onward_refl _

theorem advances_attach {kind : Kind} {id : Id} {area : Reference} {edit : Edit Unit}
    (onward : ∀ r s, edit r = .ok () s → r.Onward s) : Advances (attach kind id area edit) := by
  refine Moves.after_check fun areaId _ => ?_
  intro s a t done
  rw [get_bind] at done
  split at done
  · exact advances_apply (fun r _ => onward r) s a t done
  · exact advances_tell _ s a t done

/-! ## Rows -/

theorem advances_enterStopArea (row : Row) : Advances (enterStopArea row) := by
  refine Moves.after_check fun owner _ => ?_
  refine Moves.after_check fun _ _ => ?_
  dsimp only
  refine (advances_forM advances_tell).seq Forward.trans fun _ => ?_
  split
  · exact advances_throw _
  · refine Moves.after_check fun area _ => ?_
    exact advances_apply fun _ _ _ => enter_onward (.stopArea _) rfl trivial

theorem advances_enterParent (row : Row) : Advances (enterParent row) := by
  unfold enterParent
  dsimp only
  split
  · refine Moves.after_check fun child _ => ?_
    exact advances_contain (fun _ _ => nest_onward) (nest_refuses _ _)
  · exact advances_pure ()

theorem advances_enterStopPoint (row : Row) : Advances (enterStopPoint row) := by
  refine Moves.after_check fun stop _ => ?_
  refine (advances_apply fun _ _ _ => enter_onward (.stopPoint _) rfl trivial).seq
    Forward.trans fun _ => ?_
  dsimp only
  split
  · exact advances_contain (fun _ _ => site_onward) (site_refuses _ _)
  · exact advances_pure ()

theorem advances_enterConnectionLink (row : Row) : Advances (enterConnectionLink row) := by
  refine Moves.after_check fun link _ => ?_
  refine (advances_apply fun _ _ _ => enter_onward (.connectionLink _) rfl trivial).seq
    Forward.trans fun _ => ?_
  refine (advances_attach fun _ _ => joinConnection_onward).seq Forward.trans fun _ => ?_
  exact advances_attach fun _ _ => joinConnection_onward

theorem advances_enterAccessPoint (row : Row) : Advances (enterAccessPoint row) := by
  refine Moves.after_check fun point _ => ?_
  refine (advances_apply fun _ _ _ => enter_onward (.accessPoint _) rfl trivial).seq
    Forward.trans fun _ => ?_
  refine Moves.after_check fun areaId _ => ?_
  intro s a t done
  rw [get_bind] at done
  split at done
  · exact advances_attach (fun _ _ => joinAccessPoint_onward) s a t done
  · exact advances_pure () s a t done

theorem advances_enterAccessLink (row : Row) : Advances (enterAccessLink row) := by
  refine Moves.after_check fun link _ => ?_
  refine (advances_apply fun _ _ _ => enter_onward (.accessLink _) rfl trivial).seq
    Forward.trans fun _ => ?_
  exact advances_attach fun _ _ => joinAccessLink_onward

/-! ## Lines with what is nested in them -/

theorem bare_of_journeyPattern {row : Row} {routeId : Id} {pattern : JourneyPattern}
    (read : row.journeyPattern routeId = .ok pattern) : pattern.vehicleJourneyIds = [] := by
  unfold Row.journeyPattern at read
  obtain ⟨_, _, rest⟩ := except_bind_eq_ok_iff.mp read
  obtain ⟨_, _, rest⟩ := except_bind_eq_ok_iff.mp rest
  cases rest
  rfl

theorem bare_of_route {row : Row} {lineId : Id} {route : Route}
    (read : row.route lineId = .ok route) : route.journeyPatternIds = [] := by
  unfold Row.route at read
  obtain ⟨_, _, rest⟩ := except_bind_eq_ok_iff.mp read
  obtain ⟨_, _, rest⟩ := except_bind_eq_ok_iff.mp rest
  obtain ⟨_, _, rest⟩ := except_bind_eq_ok_iff.mp rest
  cases rest
  rfl

theorem bare_of_line {row : Row} {line : Line} (read : row.line = .ok line) :
    line.routeIds = [] := by
  unfold Row.line at read
  obtain ⟨_, _, rest⟩ := except_bind_eq_ok_iff.mp read
  obtain ⟨_, _, rest⟩ := except_bind_eq_ok_iff.mp rest
  obtain ⟨_, _, rest⟩ := except_bind_eq_ok_iff.mp rest
  cases rest
  rfl

theorem moves_enter {kind : Entity α} (record : Record) {a : α}
    (is : record.entity? = some ⟨α, kind, a⟩) (bare : record.IsBare)
    (same : ∀ r (table : Roster α), Entity.table (Entity.withTable r table) = table) :
    Moves Forward (fun _ t => (Entity.table (α := α) t.registry).contains (Keyed.key a) = true)
      (apply (enter a)) := by
  intro s _ t done
  obtain ⟨r, edited, rfl⟩ := apply_eq_ok_iff.mp done
  refine ⟨enter_onward record is bare edited, ?_⟩
  obtain ⟨_, rfl⟩ := enter_eq_ok_iff.mp edited
  dsimp only
  rw [same]
  exact Roster.contains_insert_self _ _

theorem moves_enterVehicleJourney (patternId : Id) (row : Row) :
    Moves Forward (fun id t => t.registry.vehicleJourneys.contains id = true)
      (enterVehicleJourney patternId row) := by
  refine Moves.after_check fun journey _ => ?_
  refine (moves_enter (.vehicleJourney journey) rfl trivial fun _ _ => rfl).bind Forward.trans ?_
  intro s _ there id t done
  cases done
  exact ⟨forward_refl s, there⟩

theorem moves_enterJourneyPattern (routeId : Id) (row : Row) :
    Moves Forward (fun id t => t.registry.journeyPatterns.contains id = true)
      (enterJourneyPattern routeId row) := by
  refine Moves.after_check fun pattern read => ?_
  refine (moves_enter (.journeyPattern pattern) rfl (bare_of_journeyPattern read)
    fun _ _ => rfl).bind Forward.trans ?_
  intro s _ there id t done
  obtain ⟨rows, _, rest⟩ := check_bind_eq_ok_iff.mp done
  obtain ⟨ids, u, nested, last⟩ := bind_eq_ok_iff.mp rest
  obtain ⟨forward, entered⟩ := Moves.mapM forward_refl Forward.trans
    (fun id _ _ moved => moved.vehicleJourneys id)
    (fun row _ => moves_enterVehicleJourney pattern.id row) _ _ _ nested
  -- only now that the journeys are there does the pattern name them
  have amended := amendPattern_onward pattern.id entered
  cases last
  exact ⟨forward.trans amended, amended.journeyPatterns _ (forward.journeyPatterns _ there)⟩

theorem advances_claimStop (routeId : Id) (reference : Reference) :
    Advances (claimStop routeId reference) := by
  refine Moves.after_check fun stopId _ => ?_
  intro s _ t done
  cases done
  exact ⟨onward_beside (fun closed => { closed with }) rfl rfl rfl, trivial⟩

theorem moves_enterRoute (lineId : Id) (row : Row) :
    Moves Forward (fun id t => t.registry.routes.contains id = true) (enterRoute lineId row) := by
  refine Moves.after_check fun route read => ?_
  refine (moves_enter (.route route) rfl (bare_of_route read) fun _ _ => rfl).bind
    Forward.trans ?_
  intro s _ there id t done
  obtain ⟨_, v, claimed, rest⟩ := bind_eq_ok_iff.mp done
  have claims := (advances_forM fun stop => advances_claimStop route.id stop) _ _ _ claimed
  obtain ⟨rows, _, nesting⟩ := check_bind_eq_ok_iff.mp rest
  obtain ⟨ids, u, nested, last⟩ := bind_eq_ok_iff.mp nesting
  obtain ⟨forward, entered⟩ := Moves.mapM forward_refl Forward.trans
    (fun id _ _ moved => moved.journeyPatterns id)
    (fun row _ => moves_enterJourneyPattern route.id row) _ _ _ nested
  have before := claims.1.trans forward
  have amended := amendRoute_onward route.id entered
  cases last
  exact ⟨before.trans amended, amended.routes _ (before.routes _ there)⟩

theorem advances_enterLine (row : Row) : Advances (enterLine row) := by
  refine Moves.after_check fun line read => ?_
  refine (advances_apply fun _ _ _ => enter_onward (.line line) rfl (bare_of_line read)).seq
    Forward.trans fun _ => ?_
  refine Moves.after_check fun rows _ => ?_
  intro s _ t done
  obtain ⟨ids, u, nested, last⟩ := bind_eq_ok_iff.mp done
  obtain ⟨forward, entered⟩ := Moves.mapM forward_refl Forward.trans
    (fun id _ _ moved => moved.routes id) (fun row _ => moves_enterRoute line.id row) _ _ _ nested
  cases last
  exact ⟨forward.trans (amendLine_onward line.id entered), trivial⟩

/-! ## Sections -/

theorem advances_enterConstraints (row : Row) : Advances (enterConstraints row) := by
  refine Moves.after_check fun areas _ => ?_
  refine (advances_forM fun entry => ?_).seq Forward.trans fun _ => ?_
  · refine Moves.after_check fun holder _ => ?_
    exact advances_contain (fun _ _ => constrainArea_onward) (constrainArea_refuses _ _)
  · refine Moves.after_check fun lines _ => ?_
    refine advances_forM fun entry => ?_
    refine Moves.after_check fun holder _ => ?_
    exact advances_contain (fun _ _ => constrainLine_onward) (constrainLine_refuses _ _)

theorem advances_table {document : Row} {name : String} {enter : Row → Load Unit}
    (each : ∀ row, Advances (enter row)) : Advances (table document name enter) :=
  Moves.table forward_refl Forward.trans each

theorem advances_stopAreas (document : Row) : Advances (stopAreas document) :=
  (advances_table advances_enterStopArea).seq Forward.trans
    fun _ => advances_table advances_enterParent

theorem advances_sections (document : Row) : Advances (sections document) := by
  have bare : ∀ {β : Type} [Entity β] {read : Row → Except Failure β} (record : β → Record),
      (∀ b, (record b).entity? = some ⟨β, inferInstance, b⟩) → (∀ b, (record b).IsBare) →
        ∀ row, Advances (check (read row) >>= fun b => apply (enter b)) :=
    fun record is bare row => Moves.after_check fun b _ =>
      advances_apply fun _ _ _ => enter_onward (record b) (is b) (bare b)
  unfold sections
  refine (advances_table (bare .network (fun _ => rfl) fun _ => trivial)).seq Forward.trans
    fun _ => ?_
  refine (advances_table (bare .company (fun _ => rfl) fun _ => trivial)).seq Forward.trans
    fun _ => ?_
  refine (advances_table (bare .groupOfLines (fun _ => rfl) fun _ => trivial)).seq Forward.trans
    fun _ => ?_
  refine (advances_stopAreas document).seq Forward.trans fun _ => ?_
  refine (advances_table advances_enterStopPoint).seq Forward.trans fun _ => ?_
  refine (advances_table advances_enterConnectionLink).seq Forward.trans fun _ => ?_
  refine (advances_table advances_enterAccessPoint).seq Forward.trans fun _ => ?_
  refine (advances_table advances_enterAccessLink).seq Forward.trans fun _ => ?_
  refine (advances_table (bare .timetable (fun _ => rfl) fun _ => trivial)).seq Forward.trans
    fun _ => ?_
  refine (advances_table advances_enterLine).seq Forward.trans fun _ => ?_
  refine (advances_table advances_enterConstraints).seq Forward.trans fun _ => ?_
  intro s _ t done
  rw [get_bind] at done
  split at done
  · exact advances_tell _ s _ t done
  · exact advances_pure () s _ t done

theorem closed_of_sections {document : Row} {loading : Loading}
    (loaded : sections document {} = .ok () loading) : loading.registry.Closed :=
  (advances_sections document {} () loading loaded).1.closed closed_empty

end Load
end LineClosure
