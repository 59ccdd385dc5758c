import LineClosure.Document.Display

/-! Texts that can be printed: those without halves of pairs. Whatever is put together from such
texts can be printed, and so can a value of a document if all texts in it can. -/

namespace LineClosure

namespace Text

/-- A text without halves of pairs, which can be printed. -/
def IsWhole (t : Text) : Prop := ∃ s : String, t = .whole s

theorem isWhole_string (s : String) : IsWhole (.whole s) := ⟨s, rfl⟩

theorem IsWhole.append {t u : Text} (first : t.IsWhole) (second : u.IsWhole) :
    (t ++ u).IsWhole := by
  obtain ⟨s, rfl⟩ := first
  obtain ⟨s', rfl⟩ := second
  exact isWhole_string (s ++ s')

theorem IsWhole.then_string {t : Text} (whole : t.IsWhole) (s : String) :
    (t ++ Text.whole s).IsWhole :=
  whole.append (isWhole_string s)

theorem IsWhole.after_string {t : Text} (whole : t.IsWhole) (s : String) :
    (Text.whole s ++ t).IsWhole :=
  (isWhole_string s).append whole

instance (t : Text) : Decidable t.IsWhole :=
  match t with
  | whole s => isTrue (isWhole_string s)
  | torn _ _ => isFalse (by rintro ⟨_, ⟨⟩⟩)

theorem isHalf_toNat (c : Char) : isHalf c.toNat = false := by
  have valid : c.toNat.isValidChar := c.valid
  unfold isHalf
  rw [Bool.and_eq_false_iff, decide_eq_false_iff_not, decide_eq_false_iff_not]
  unfold Nat.isValidChar at valid
  omega

theorem IsWhole.characters {t : Text} (whole : t.IsWhole) : ∀ c ∈ t.characters, c.IsWhole := by
  obtain ⟨s, rfl⟩ := whole
  intro c given
  obtain ⟨point, listed, rfl⟩ := List.mem_map.mp given
  obtain ⟨char, _, rfl⟩ := List.mem_map.mp listed
  have sound : ¬[char.toNat].any isHalf = true := by simp [isHalf_toNat]
  rw [ofPoints, dif_neg sound]
  exact isWhole_string _

end Text

namespace Value

mutual

def texts : Value → List Text
  | .scalar (.text t) => [t]
  | .scalar _ => []
  | .list items => textsOfItems items
  | .object fields => textsOfFields fields

def textsOfItems : List Value → List Text
  | [] => []
  | v :: rest => v.texts ++ textsOfItems rest

def textsOfFields : List (Text × Value) → List Text
  | [] => []
  | (name, v) :: rest => name :: v.texts ++ textsOfFields rest

end

def IsWhole (v : Value) : Prop := ∀ t ∈ v.texts, t.IsWhole

instance (v : Value) : Decidable v.IsWhole := inferInstanceAs (Decidable (∀ t ∈ v.texts, t.IsWhole))

theorem isWhole_list_iff {items : List Value} :
    (Value.list items).IsWhole ↔ ∀ v ∈ items, v.IsWhole := by
  induction items with
  | nil => exact iff_of_true (fun _ given => absurd given List.not_mem_nil) (by simp)
  | cons v rest ih =>
    have texts : (Value.list (v :: rest)).texts = v.texts ++ (Value.list rest).texts := rfl
    rw [List.forall_mem_cons, ← ih, IsWhole, texts, List.forall_mem_append]
    exact Iff.rfl

theorem isWhole_object_iff {fields : List (Text × Value)} :
    (Value.object fields).IsWhole ↔ ∀ field ∈ fields, field.1.IsWhole ∧ field.2.IsWhole := by
  induction fields with
  | nil => exact iff_of_true (fun _ given => absurd given List.not_mem_nil) (by simp)
  | cons field rest ih =>
    have texts : (Value.object (field :: rest)).texts =
        field.1 :: (field.2.texts ++ (Value.object rest).texts) := rfl
    rw [List.forall_mem_cons, ← ih, IsWhole, texts, List.forall_mem_cons, List.forall_mem_append,
      and_assoc]
    exact Iff.rfl

theorem isWhole_null : null.IsWhole := by decide

variable {v w : Value}

/-- Only a text by itself is told as it stands; all else is told in characters. -/
theorem IsWhole.display (whole : v.IsWhole) : v.display.IsWhole := by
  cases v with
  | list items | object fields => exact Text.isWhole_string _
  | scalar s =>
    cases s with
    | text t => exact whole t List.mem_cons_self
    | null | bool b | int n | double d => exact Text.isWhole_string _

theorem IsWhole.field? {name : String} (whole : v.IsWhole) (found : v.field? name = some w) :
    w.IsWhole := by
  cases v with
  | scalar s | list items => cases found
  | object fields =>
    obtain ⟨before, after, rfl, _⟩ := List.lookup_eq_some_iff.mp found
    exact (isWhole_object_iff.mp whole _ (List.mem_append_right before List.mem_cons_self)).2

theorem IsWhole.elements? {items : List Value} (whole : v.IsWhole)
    (found : v.elements? = some items) : ∀ item ∈ items, item.IsWhole := by
  have plain : ∀ {t : Text}, t.IsWhole → (Value.scalar (.text t)).IsWhole :=
    fun whole _ given => List.mem_singleton.mp given ▸ whole
  cases v with
  | list own =>
    cases found
    exact isWhole_list_iff.mp whole
  | object fields =>
    cases found
    intro item given
    obtain ⟨field, listed, rfl⟩ := List.mem_map.mp given
    exact plain (isWhole_object_iff.mp whole field listed).1
  | scalar s =>
    cases s with
    | null | bool b | int n | double d => cases found
    | text t =>
      cases found
      intro item given
      obtain ⟨c, listed, rfl⟩ := List.mem_map.mp given
      exact plain ((whole t List.mem_cons_self).characters c listed)

end Value
end LineClosure
