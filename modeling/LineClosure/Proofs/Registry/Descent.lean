import LineClosure.Proofs.Registry.Below
import LineClosure.Proofs.Sequence
import Mathlib.Data.List.ReduceOption

/-! Where the descent puts a stop area. It remembers where it has been, which a recursion that
only goes down does not; the two find the same, for what lies below one child of an area does
not lie below another. Only the way back to the area that is asked for is not taken. -/

namespace LineClosure

/-- A place that is there is the answer, and otherwise the mean of those below. -/
def placeOver {F : Type} (own : Except F (Option Position))
    (below : Except F (List (Option Position))) : Except F (Option Position) :=
  own.bind fun
    | some place => .ok (some place)
    | none => below.map fun places => Position.mean? places.reduceOption

theorem placeOver_congr {F : Type} {own : Except F (Option Position)}
    {below other : Except F (List (Option Position))} (same : own = .ok none → below = other) :
    placeOver own below = placeOver own other := by
  cases own with
  | error fault => rfl
  | ok place =>
    cases place with
    | some place => rfl
    | none => rw [same rfl]

namespace Registry

variable {r : Registry} {follows : StopArea → Bool}

/-- What the plain recursion finds. It goes down to all the children that it follows, and
keeps no account of where it has been; where it would not end it finds nothing. -/
inductive Finds (r : Registry) (follows : StopArea → Bool) :
    StopArea → Except CoordinateFault (Option Position) → Prop where
  | ofChildren {area : StopArea} {found : StopArea → Except CoordinateFault (Option Position)}
    (down : area.position? = .ok none →
      ∀ child ∈ (r.childAreas area.id).filter follows, Finds r follows child (found child)) :
    Finds r follows area
      (placeOver area.position? (((r.childAreas area.id).filter follows).mapM found))

theorem Finds.unique {area : StopArea} {first second : Except CoordinateFault (Option Position)}
    (one : r.Finds follows area first) (other : r.Finds follows area second) : first = second := by
  induction one generalizing second with
  | ofChildren _ ih =>
    cases other with
    | ofChildren down =>
      refine placeOver_congr fun lacks => mapM_congr fun child listed => ?_
      exact ih lacks child listed (down lacks child listed)

/-! ## The descent -/

def descendInto (r : Registry) (depth : Nat) (found : List Position × List Id) (childId : Id) :
    Except CoordinateFault (List Position × List Id) :=
  if found.2.contains childId then .ok found
  else (r.descend depth childId found.2).map fun later => (found.1 ++ later.1.toList, later.2)

def descendAll (r : Registry) (depth : Nat) (children : List StopArea)
    (found : List Position × List Id) : Except CoordinateFault (List Position × List Id) :=
  children.foldlM (fun found child => r.descendInto depth found child.id) found

theorem descend_registered (coherent : r.Coherent) (anchored : r.Anchored) {area : StopArea}
    (registered : area ∈ r.stopAreas.members) (depth : Nat) (visited : List Id) :
    r.descend (depth + 1) area.id visited =
      match area.position? with
      | .error fault => .error fault
      | .ok (some place) => .ok (some place, visited)
      | .ok none =>
        (r.descendAll depth (r.childAreas area.id) ([], area.id :: visited)).map fun found =>
          (Position.mean? found.1, found.2) := by
  have known : r.stopAreas.find? area.id = some area :=
    Roster.find?_eq_some_iff.mpr ⟨registered, rfl⟩
  rw [descend, known, ← ids_childAreas coherent anchored, List.foldlM_map]
  rw [foldlM_congr (g := fun found child => r.descendInto depth found child.id)]
  swap
  · intro found child _
    rw [descendInto]
    split
    · rfl
    · cases r.descend depth child.id found.2 <;> rfl
  show area.position?.bind _ = _
  cases area.position? with
  | error fault => rfl
  | ok own =>
    cases own with
    | some place => rfl
    | none =>
      show (r.descendAll depth (r.childAreas area.id) ([], area.id :: visited)).bind _ = _
      cases r.descendAll depth (r.childAreas area.id) ([], area.id :: visited) <;> rfl

/-- How a part of the descent ends that is below an area. It fails, or it has found something
and visited nothing but what is below. -/
inductive Comes {α : Type} (r : Registry) (root above : Id) (visited : List Id) :
    Except CoordinateFault α → Except CoordinateFault (α × List Id) → Prop where
  | fails {fault : CoordinateFault} : Comes r root above visited (.error fault) (.error fault)
  | finds {a : α} {later : List Id} (kept : visited ⊆ later)
    (anew : ∀ id ∈ later, id ∈ visited ∨ r.Below root above id) :
    Comes r root above visited (.ok a) (.ok (a, later))

theorem Comes.after {α : Type} {root above : Id} {visited later : List Id}
    {result : Except CoordinateFault α} {ran : Except CoordinateFault (α × List Id)}
    (kept : visited ⊆ later) (anew : ∀ id ∈ later, id ∈ visited ∨ r.Below root above id)
    (comes : r.Comes root above later result ran) : r.Comes root above visited result ran := by
  cases comes with
  | fails => exact .fails
  | finds more further =>
    refine .finds (List.Subset.trans kept more) fun id there => ?_
    exact (further id there).elim (anew id) Or.inr

theorem Comes.map {α β : Type} {root above : Id} {visited : List Id}
    {result : Except CoordinateFault α} {ran : Except CoordinateFault (α × List Id)}
    (comes : r.Comes root above visited result ran) (f : α → β) :
    r.Comes root above visited (result.map f) (ran.map fun found => (f found.1, found.2)) := by
  cases comes with
  | fails => exact .fails
  | finds kept anew => exact .finds kept anew

theorem unmet_le (r : Registry) {met later : List Id} (kept : met ⊆ later) :
    r.unmet (later.map canonical) ≤ r.unmet (met.map canonical) := by
  refine List.countP_mono_left fun area _ unmet => ?_
  simp only [decide_eq_true_eq] at unmet ⊢
  exact fun present => unmet (List.map_subset canonical kept present)

section
variable {root : Id}

def isApart (root : Id) (area : StopArea) : Bool := area.id ≠ root

/-- An area that the descent has still to visit, with all that is below it. -/
structure Ahead (r : Registry) (root : Id) (visited : List Id) (area : StopArea) : Prop where
  registered : area ∈ r.stopAreas.members
  within : r.Below root root area.id
  fresh : ∀ id, r.Below root area.id id → id ∉ visited

/-- The descent is at its root, or has been there. All that is listed is named by a text. -/
def Under (root : Id) (visited : List Id) (area : StopArea) : Prop :=
  (area.id = root ∧ visited = []) ∨ (root ∈ visited ∧ ∃ t, area.id = .text t)

/-- The descent from an area below the root finds what the plain recursion does, as long as
the depth that is left is enough for the areas that are left. -/
def Descends (r : Registry) (root : Id) (depth : Nat) : Prop :=
  ∀ (area : StopArea) (visited : List Id), r.Ahead root visited area →
    Under root visited area → r.unmet (visited.map canonical) ≤ depth →
    ∃ found, r.Finds (isApart root) area found ∧
      r.Comes root area.id visited found (r.descend depth area.id visited)

/-- Children of an area that the descent has still to look at. None comes twice, and those that it
follows are ahead. -/
structure Waiting (r : Registry) (root above : Id) (visited : List Id)
    (children : List StopArea) : Prop where
  once : (children.map (·.id)).Nodup
  leads : ∀ child ∈ children.filter (isApart root), r.Leads root above child.id
  ahead : ∀ child ∈ children.filter (isApart root), r.Ahead root visited child

section
variable {above : Id} {visited next : List Id} {child : StopArea} {rest : List StopArea}

theorem filter_isApart_of_eq (back : child.id = root) :
    (child :: rest).filter (isApart root) = rest.filter (isApart root) :=
  List.filter_cons_of_neg (by simp [isApart, back])

theorem filter_isApart_of_ne (apart : child.id ≠ root) :
    (child :: rest).filter (isApart root) = child :: rest.filter (isApart root) :=
  List.filter_cons_of_pos (by simp [isApart, apart])

theorem Waiting.tail (waiting : r.Waiting root above visited (child :: rest)) :
    r.Waiting root above visited rest := by
  have further : rest.filter (isApart root) ⊆ (child :: rest).filter (isApart root) :=
    List.filter_subset _ (List.subset_cons_self child rest)
  exact ⟨(List.nodup_cons.mp waiting.once).2, fun other there => waiting.leads other (further there),
    fun other there => waiting.ahead other (further there)⟩

/-- What a child has added is below it, and so below none of its later siblings. -/
theorem Waiting.later (m : r.nesting.Mutual) (within : r.Below root root above)
    (waiting : r.Waiting root above visited (child :: rest)) (leads : r.Leads root above child.id)
    (anew : ∀ id ∈ next, id ∈ visited ∨ r.Below root child.id id) :
    r.Waiting root above next rest := by
  obtain ⟨once, leads_others, ahead⟩ := waiting.tail
  refine ⟨once, leads_others, fun other there => ?_⟩
  obtain ⟨registered, inside, fresh⟩ := ahead other there
  refine ⟨registered, inside, fun id below met => ?_⟩
  rcases anew id met with before | added
  · exact fresh id below before
  · have differ : child.id ≠ other.id := fun same =>
      (List.nodup_cons.mp waiting.once).1
        (List.mem_map.mpr ⟨other, List.mem_of_mem_filter there, same.symm⟩)
    exact below_apart m within leads (leads_others other there) differ added below

end

theorem map_gathered {F : Type} (points : List Position) (place : Option Position)
    (below : Except F (List (Option Position))) :
    (below.bind fun places => .ok (place :: places)).map (fun places =>
        points ++ places.reduceOption) =
      below.map fun places => points ++ place.toList ++ places.reduceOption := by
  cases below with
  | error fault => rfl
  | ok places =>
    show Except.ok (points ++ (place :: places).reduceOption) =
      .ok (points ++ place.toList ++ places.reduceOption)
    rw [List.append_assoc]
    cases place <;> rfl

/-- One child after the other: what is below the later ones is still unvisited then. -/
theorem comes_children (coherent : r.Coherent) {depth : Nat} (descends : r.Descends root depth)
    {above : Id} (within : r.Below root root above)
    {found : StopArea → Except CoordinateFault (Option Position)} {children : List StopArea}
    (finds : ∀ child ∈ children.filter (isApart root), r.Finds (isApart root) child (found child))
    {visited : List Id} (waiting : r.Waiting root above visited children) (passed : root ∈ visited)
    (enough : r.unmet (visited.map canonical) ≤ depth) (points : List Position) :
    r.Comes root above visited
      (((children.filter (isApart root)).mapM found).map fun places =>
        points ++ places.reduceOption)
      (r.descendAll depth children (points, visited)) := by
  induction children generalizing visited points with
  | nil =>
    show r.Comes root above visited (.ok (points ++ [])) (.ok (points, visited))
    rw [List.append_nil]
    exact .finds (List.Subset.refl _) fun id => Or.inl
  | cons child rest ih =>
    rw [descendAll, List.foldlM_cons, descendInto]
    by_cases back : child.id = root
    · rw [filter_isApart_of_eq back] at finds ⊢
      rw [if_pos (by rw [back]; exact List.contains_iff_mem.mpr passed)]
      exact ih finds waiting.tail passed enough points
    · have follows : child ∈ (child :: rest).filter (isApart root) := by
        rw [filter_isApart_of_ne back]
        exact List.mem_cons_self
      have leads := waiting.leads child follows
      have ahead := waiting.ahead child follows
      rw [filter_isApart_of_ne back] at finds ⊢
      have unvisited : ¬visited.contains child.id = true :=
        fun there => ahead.fresh _ .refl (List.contains_iff_mem.mp there)
      obtain ⟨_, t, _, named⟩ := coherent.nesting.textual above child.id leads.1
      obtain ⟨result, plain, comes⟩ :=
        descends child visited ahead (Or.inr ⟨passed, t, named⟩) enough
      rw [plain.unique (finds child List.mem_cons_self)] at comes
      rw [if_neg unvisited, List.mapM_cons]
      generalize found child = result, r.descend depth child.id visited = ran at comes
      cases comes with
      | fails => exact .fails
      | @finds place next kept anew =>
        have rest_comes := ih (fun other there => finds other (List.mem_cons_of_mem child there))
          (waiting.later coherent.nesting within leads anew) (kept passed)
          (Nat.le_trans (r.unmet_le kept) enough) (points ++ place.toList)
        have joined := rest_comes.after kept fun id there =>
          (anew id there).imp_right (Relation.ReflTransGen.head leads)
        rw [← map_gathered] at joined
        exact joined

theorem Ahead.unmet {visited : List Id} {area : StopArea} (ahead : r.Ahead root visited area)
    (under : Under root visited area) : identity area ∉ visited.map canonical := by
  intro met
  obtain ⟨other, passed, same⟩ := List.mem_map.mp met
  rcases under with ⟨_, nothing⟩ | ⟨_, t, named⟩
  · rw [nothing] at passed
    cases passed
  · have written : other = area.id := by
      rw [identity, show Keyed.key area = .text t from named] at same
      rw [canonical_eq_text_iff.mp same, named]
    exact ahead.fresh _ .refl (written ▸ passed)

theorem Ahead.child (coherent : r.Coherent) (anchored : r.Anchored) {visited : List Id}
    {area child : StopArea} (ahead : r.Ahead root visited area)
    (there : child ∈ (r.childAreas area.id).filter (isApart root)) :
    r.Leads root area.id child.id ∧ r.Ahead root (area.id :: visited) child := by
  obtain ⟨link, apart⟩ := List.mem_filter.mp there
  have leads : r.Leads root area.id child.id :=
    ⟨mem_row_of_contains coherent anchored link, of_decide_eq_true apart⟩
  refine ⟨leads, registered_of_contains link, ahead.within.tail leads, fun id below met => ?_⟩
  rcases List.mem_cons.mp met with rfl | before
  · exact not_transGen_leads coherent.nesting ahead.within (Relation.TransGen.head' leads below)
  · exact ahead.fresh id (below.head leads) before

theorem Descends.finds_children (coherent : r.Coherent) (anchored : r.Anchored) {depth : Nat}
    (descends : r.Descends root depth) {visited : List Id} {area : StopArea}
    (ahead : r.Ahead root visited area) (passed : root ∈ area.id :: visited)
    (enough : r.unmet ((area.id :: visited).map canonical) ≤ depth) :
    ∃ found : StopArea → Except CoordinateFault (Option Position),
      ∀ child ∈ (r.childAreas area.id).filter (isApart root),
        r.Finds (isApart root) child (found child) := by
  have each : ∀ child, ∃ found, child ∈ (r.childAreas area.id).filter (isApart root) →
      r.Finds (isApart root) child found := by
    intro child
    by_cases there : child ∈ (r.childAreas area.id).filter (isApart root)
    · obtain ⟨leads, next⟩ := ahead.child coherent anchored there
      obtain ⟨_, t, _, named⟩ := coherent.nesting.textual area.id child.id leads.1
      obtain ⟨found, finds, _⟩ := descends child _ next (Or.inr ⟨passed, t, named⟩) enough
      exact ⟨found, fun _ => finds⟩
    · exact ⟨.ok none, fun claimed => absurd claimed there⟩
  choose found finds using each
  exact ⟨found, finds⟩

theorem descends (coherent : r.Coherent) (anchored : r.Anchored) (root : Id) (depth : Nat) :
    r.Descends root depth := by
  -- The depth bounds the areas that are unmet. Each area that is entered is met from then on.
  induction depth with
  | zero =>
    intro area visited ahead under enough
    have some_left := List.countP_eq_zero.mp (Nat.le_zero.mp enough) area ahead.registered
    exact absurd (decide_eq_true (ahead.unmet under)) some_left
  | succ depth ih =>
    intro area visited ahead under enough
    have kept : visited ⊆ area.id :: visited := List.subset_cons_self _ _
    have fewer : r.unmet ((area.id :: visited).map canonical) < r.unmet (visited.map canonical) :=
      unmet_lt ahead.registered (ahead.unmet under) List.mem_cons_self
        fun _ => List.mem_cons_of_mem _
    have passed : root ∈ area.id :: visited := by
      rcases under with ⟨start, _⟩ | ⟨before, _⟩
      · exact start ▸ List.mem_cons_self
      · exact kept before
    obtain ⟨found, finds⟩ := Descends.finds_children coherent anchored ih ahead passed (by omega)
    refine ⟨_, @Finds.ofChildren _ _ area found fun _ => finds, ?_⟩
    rw [descend_registered coherent anchored ahead.registered]
    cases area.position? with
    | error fault => exact .fails
    | ok own =>
      cases own with
      | some place => exact .finds (List.Subset.refl _) fun _ => Or.inl
      | none =>
        have once : ((r.childAreas area.id).map (·.id)).Nodup := by
          rw [ids_childAreas coherent anchored]
          exact coherent.nesting.once area.id
        have waiting : r.Waiting root area.id (area.id :: visited) (r.childAreas area.id) :=
          ⟨once, fun child there => (ahead.child coherent anchored there).1,
            fun child there => (ahead.child coherent anchored there).2⟩
        have comes := comes_children coherent ih ahead.within finds waiting passed (by omega) []
        have all := comes.after kept fun id there =>
          (List.mem_cons.mp there).elim (fun same => Or.inr (same ▸ .refl)) Or.inl
        have means := all.map Position.mean?
        cases ran : ((r.childAreas area.id).filter (isApart root)).mapM found with
        | error fault =>
          rw [ran] at means
          exact means
        | ok places =>
          rw [ran] at means
          exact means

end

end Registry
end LineClosure
