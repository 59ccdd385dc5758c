import LineClosure.Proofs.Sequence
import LineClosure.Snapshot.Load

/-! Loads that come to an end. A load goes on only after a part that succeeded, so how the
state after each part lies to the state before it is passed on to the whole, row by row and
section by section. -/

namespace LineClosure

namespace Load

variable {α β : Type}

theorem check_eq_ok_iff {x : Except Failure α} {s t : Loading} {a : α} :
    check x s = .ok a t ↔ x = .ok a ∧ t = s := by
  unfold check
  cases x with
  | ok b =>
    constructor
    · intro done
      cases done
      exact ⟨rfl, rfl⟩
    · rintro ⟨same, rfl⟩
      cases same
      rfl
  | error failure =>
    constructor
    · intro done
      cases done
    · rintro ⟨same, _⟩
      cases same

theorem check_bind {x : Except Failure α} {rest : α → Load β} {a : α} {s : Loading}
    (found : x = .ok a) : (check x >>= rest) s = rest a s :=
  bind_ok (check_eq_ok_iff.mpr ⟨found, rfl⟩)

theorem check_bind_eq_ok_iff {x : Except Failure α} {rest : α → Load β} {s u : Loading} {b : β} :
    (check x >>= rest) s = .ok b u ↔ ∃ a, x = .ok a ∧ rest a s = .ok b u := by
  constructor
  · intro done
    obtain ⟨a, _, read, after⟩ := bind_eq_ok_iff.mp done
    obtain ⟨found, rfl⟩ := check_eq_ok_iff.mp read
    exact ⟨a, found, after⟩
  · rintro ⟨a, found, after⟩
    rwa [check_bind found]

theorem apply_eq_ok_iff {edit : Edit α} {s t : Loading} {a : α} :
    apply edit s = .ok a t ↔ ∃ r, edit s.registry = .ok a r ∧ t = { s with registry := r } := by
  unfold apply
  cases edited : edit s.registry with
  | ok b r =>
    constructor
    · intro done
      cases done
      exact ⟨r, rfl, rfl⟩
    · rintro ⟨_, same, rfl⟩
      cases same
      rfl
  | error problem r =>
    constructor
    · intro done
      cases done
    · rintro ⟨_, same, _⟩
      cases same

/-- The state that a load ends with, and whether it got to its end. -/
def ended (document : Row) : Loading × Bool :=
  match sections document {} with
  | .ok _ loading => (loading, true)
  | .error _ loading => (loading, false)

theorem sections_of_ended {document : Row} (done : (ended document).2 = true) :
    sections document {} = .ok () (ended document).1 := by
  unfold ended at done ⊢
  cases run : sections document {} with
  | ok a loading => rfl
  | error failure loading =>
    rw [run] at done
    cases done

/-- If a load ends, the state it leaves lies to the one it found as `R` says, and `Q` is true
of its result. -/
def Moves (R : Loading → Loading → Prop) (Q : α → Loading → Prop) (x : Load α) : Prop :=
  ∀ s a t, x s = .ok a t → R s t ∧ Q a t

section
variable {R : Loading → Loading → Prop} {Q : α → Loading → Prop} {Q' : β → Loading → Prop}

theorem moves_pure {a : α} (refl : ∀ s, R s s) : Moves R (fun b _ => b = a) (pure a : Load α) := by
  intro s b t done
  cases done
  exact ⟨refl s, rfl⟩

theorem Moves.mono {x : Load α} {P : α → Loading → Prop} (moves : Moves R P x)
    (weaker : ∀ a t, P a t → Q a t) : Moves R Q x := fun s a t done =>
  (moves s a t done).imp_right (weaker a t)

theorem Moves.bind {x : Load α} {rest : α → Load β}
    (trans : ∀ {s t u}, R s t → R t u → R s u) (first : Moves R Q x)
    (second : ∀ s a, Q a s → ∀ b u, rest a s = .ok b u → R s u ∧ Q' b u) :
    Moves R Q' (x >>= rest) := by
  intro s b u done
  obtain ⟨a, t, before, after⟩ := bind_eq_ok_iff.mp done
  obtain ⟨moved, fair⟩ := first s a t before
  obtain ⟨further, result⟩ := second t a fair b u after
  exact ⟨trans moved further, result⟩

theorem Moves.after_check {x : Except Failure α} {rest : α → Load β}
    (each : ∀ a, x = .ok a → Moves R Q' (rest a)) : Moves R Q' (check x >>= rest) := by
  intro s b u done
  obtain ⟨a, found, after⟩ := check_bind_eq_ok_iff.mp done
  exact each a found s b u after

theorem Moves.seq {x : Load α} {rest : α → Load β} (trans : ∀ {s t u}, R s t → R t u → R s u)
    (first : Moves R Q x) (second : ∀ a, Moves R Q' (rest a)) : Moves R Q' (x >>= rest) :=
  first.bind trans fun s a _ => second a s

/-- What the first part brings about, the second one leaves. -/
theorem Moves.both {x : Load α} {rest : α → Load β} {P S : Loading → Prop}
    (trans : ∀ {s t u}, R s t → R t u → R s u) (lasts : ∀ {s t}, R s t → P s → P t)
    (first : Moves R (fun _ => P) x) (second : ∀ a, Moves R (fun _ => S) (rest a)) :
    Moves R (fun _ t => P t ∧ S t) (x >>= rest) := by
  refine first.bind trans fun s a fair b u done => ?_
  obtain ⟨moved, result⟩ := second a s b u done
  exact ⟨moved, lasts moved fair, result⟩

theorem Moves.forM {γ : Type} {rows : List γ} {enter : γ → Load PUnit} (refl : ∀ s, R s s)
    (trans : ∀ {s t u}, R s t → R t u → R s u)
    (each : ∀ row ∈ rows, Moves R (fun _ _ => True) (enter row)) :
    Moves R (fun _ _ => True) (rows.forM enter) := by
  induction rows with
  | nil => exact (moves_pure refl).mono fun _ _ _ => trivial
  | cons row rest ih =>
    refine (each row List.mem_cons_self).seq trans fun _ => ?_
    exact ih fun other later => each other (List.mem_cons_of_mem row later)

theorem Moves.mapM {γ : Type} {rows : List γ} {enter : γ → Load α} (refl : ∀ s, R s s)
    (trans : ∀ {s t u}, R s t → R t u → R s u) (lasts : ∀ a {s t}, R s t → Q a s → Q a t)
    (each : ∀ row ∈ rows, Moves R Q (enter row)) :
    Moves R (fun found t => ∀ a ∈ found, Q a t) (rows.mapM enter) := by
  induction rows with
  | nil =>
    rw [List.mapM_nil]
    refine (moves_pure refl).mono fun found t same a given => ?_
    rw [same] at given
    cases given
  | cons row rest ih =>
    rw [List.mapM_cons]
    refine (each row List.mem_cons_self).bind trans fun s a fair => ?_
    intro found u done
    obtain ⟨others, t, before, after⟩ := bind_eq_ok_iff.mp done
    obtain ⟨moved, rest⟩ :=
      ih (fun other later => each other (List.mem_cons_of_mem row later)) s others t before
    cases after
    refine ⟨moved, fun b given => ?_⟩
    rcases List.mem_cons.mp given with rfl | later
    · exact lasts b moved fair
    · exact rest b later

theorem Moves.forM_each {γ : Type} {rows : List γ} {enter : γ → Load PUnit}
    {P : γ → Loading → Prop} (refl : ∀ s, R s s) (trans : ∀ {s t u}, R s t → R t u → R s u)
    (lasts : ∀ row {s t}, R s t → P row s → P row t)
    (each : ∀ row, Moves R (fun _ => P row) (enter row)) :
    Moves R (fun _ t => ∀ row ∈ rows, P row t) (rows.forM enter) := by
  induction rows with
  | nil => exact (moves_pure refl).mono fun _ _ _ _ given => absurd given List.not_mem_nil
  | cons row rest ih =>
    have whole : Moves R (fun _ t => P row t ∧ ∀ other ∈ rest, P other t)
        (enter row >>= fun _ => rest.forM enter) :=
      (each row).both trans (lasts row) fun _ => ih
    exact whole.mono fun _ _ both => List.forall_mem_cons.mpr both

theorem Moves.table {document : Row} {name : String} {enter : Row → Load Unit}
    (refl : ∀ s, R s s) (trans : ∀ {s t u}, R s t → R t u → R s u)
    (each : ∀ row, Moves R (fun _ _ => True) (enter row)) :
    Moves R (fun _ _ => True) (table document name enter) := by
  refine Moves.after_check fun rows _ => ?_
  exact Moves.forM refl trans fun row _ => each row

end
end Load
end LineClosure
