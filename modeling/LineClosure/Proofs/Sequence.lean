/-! One step after the other. A sequence of steps gets to its end just when each of its parts
does, and stops at the first part that fails. -/

namespace LineClosure

variable {ε ε' σ α β : Type}

theorem get_bind (rest : σ → EStateM ε σ α) (s : σ) : (get >>= rest) s = rest s s := rfl

theorem bind_ok {x : EStateM ε σ α} {rest : α → EStateM ε σ β} {s t : σ} {a : α}
    (done : x s = .ok a t) : (x >>= rest) s = rest a t := by
  simp only [bind, EStateM.bind, done]

theorem bind_error {x : EStateM ε σ α} {rest : α → EStateM ε σ β} {s t : σ} {e : ε}
    (failed : x s = .error e t) : (x >>= rest) s = .error e t := by
  simp only [bind, EStateM.bind, failed]

theorem bind_eq_ok_iff {x : EStateM ε σ α} {rest : α → EStateM ε σ β} {s u : σ} {b : β} :
    (x >>= rest) s = .ok b u ↔ ∃ a t, x s = .ok a t ∧ rest a t = .ok b u := by
  cases ran : x s with
  | ok a t =>
    rw [bind_ok ran]
    constructor
    · exact fun done => ⟨a, t, rfl, done⟩
    · rintro ⟨_, _, same, done⟩
      cases same
      exact done
  | error e t =>
    rw [bind_error ran]
    constructor
    · intro done
      cases done
    · rintro ⟨_, _, same, _⟩
      cases same

theorem toOption_eq_some_iff {x : Except ε α} {a : α} :
    x.toOption = some a ↔ x = .ok a := by
  cases x with
  | ok b => simp [Except.toOption]
  | error e => simp [Except.toOption]

theorem except_bind_eq_ok_iff {x : Except ε α} {rest : α → Except ε β} {b : β} :
    (x >>= rest) = .ok b ↔ ∃ a, x = .ok a ∧ rest a = .ok b := by
  cases x with
  | ok a =>
    constructor
    · exact fun done => ⟨a, rfl, done⟩
    · rintro ⟨_, same, done⟩
      cases same
      exact done
  | error e =>
    constructor
    · intro done
      cases done
    · rintro ⟨_, same, _⟩
      cases same

theorem except_bind_eq_error_iff {x : Except ε α} {rest : α → Except ε β} {e : ε} :
    (x >>= rest) = .error e ↔ x = .error e ∨ ∃ a, x = .ok a ∧ rest a = .error e := by
  cases x with
  | ok a =>
    constructor
    · exact fun failed => Or.inr ⟨a, rfl, failed⟩
    · rintro (same | ⟨_, same, failed⟩)
      · cases same
      · cases same
        exact failed
  | error other =>
    constructor
    · intro failed
      cases failed
      exact Or.inl rfl
    · rintro (same | ⟨_, same, _⟩)
      · cases same
        rfl
      · cases same

/-! ## Lists of answers -/

/-- The items that are read one by one, if each of them can be. -/
theorem mapM_of_reads {m : Type → Type} [Monad m] [LawfulMonad m] {lay : α → β} {read : β → m α}
    (reads : ∀ a, read (lay a) = pure a) (items : List α) :
    (items.map lay).mapM read = pure items := by
  have same : read ∘ lay = pure := funext reads
  rw [List.mapM_map, same]
  exact List.mapM_pure.trans (congrArg pure (List.map_id' items))

theorem mapM_congr {items : List α} {f g : α → Except ε β} (same : ∀ a ∈ items, f a = g a) :
    items.mapM f = items.mapM g := by
  induction items with
  | nil => rfl
  | cons a rest ih =>
    rw [List.mapM_cons, List.mapM_cons, same a List.mem_cons_self,
      ih fun b later => same b (List.mem_cons_of_mem a later)]

theorem foldlM_congr {items : List α} {f g : β → α → Except ε β}
    (same : ∀ b, ∀ a ∈ items, f b a = g b a) (b : β) : items.foldlM f b = items.foldlM g b := by
  induction items generalizing b with
  | nil => rfl
  | cons a rest ih =>
    rw [List.foldlM_cons, List.foldlM_cons, same b a List.mem_cons_self]
    exact bind_congr (ih fun b other later => same b other (List.mem_cons_of_mem a later))

theorem mapM_mapError (items : List α) (f : α → Except ε β) (g : ε → ε') :
    (items.mapM f).mapError g = items.mapM fun a => (f a).mapError g := by
  induction items with
  | nil => rfl
  | cons a rest ih =>
    rw [List.mapM_cons, List.mapM_cons, ← ih]
    cases f a with
    | error e => rfl
    | ok b => cases rest.mapM f <;> rfl

theorem mapM_eq_ok_iff {items : List α} {f : α → Except ε β} {answers : List β} :
    items.mapM f = .ok answers ↔ items.map f = answers.map .ok := by
  induction items generalizing answers with
  | nil =>
    show Except.ok [] = Except.ok answers ↔ [] = answers.map _
    rw [Except.ok.injEq, eq_comm, eq_comm (a := []), List.map_eq_nil_iff]
  | cons a rest ih =>
    rw [List.mapM_cons, List.map_cons, except_bind_eq_ok_iff]
    constructor
    · rintro ⟨b, here, done⟩
      obtain ⟨later, there, same⟩ := except_bind_eq_ok_iff.mp done
      cases same
      rw [here, ih.mp there, List.map_cons]
    · intro same
      cases answers with
      | nil => cases same
      | cons b later =>
        obtain ⟨here, there⟩ := List.cons.inj same
        exact ⟨b, here, except_bind_eq_ok_iff.mpr ⟨later, ih.mpr there, rfl⟩⟩

theorem exists_error_of_mapM {items : List α} {f : α → Except ε β} {e : ε}
    (failed : items.mapM f = .error e) : ∃ a ∈ items, f a = .error e := by
  induction items with
  | nil => cases failed
  | cons a rest ih =>
    rw [List.mapM_cons] at failed
    rcases except_bind_eq_error_iff.mp failed with here | ⟨_, _, later⟩
    · exact ⟨a, List.mem_cons_self, here⟩
    · rcases except_bind_eq_error_iff.mp later with there | ⟨_, _, done⟩
      · obtain ⟨b, listed, fails⟩ := ih there
        exact ⟨b, List.mem_cons_of_mem a listed, fails⟩
      · cases done

end LineClosure
