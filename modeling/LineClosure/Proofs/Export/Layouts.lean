import LineClosure.Export.Layout

/-! What the documents of closures and reports say. A closure is told field by field, and however
two of them are filled in, the text of a closure and that of a report differ: the first field of
the one is never the first field of the other. -/

namespace LineClosure

structure Closure.Tells (c : Closure) (line : Line) (document : Value) : Prop where
  line : document.field? "line" = some (.scalar line.id)
  timetables : document.field? "timetables" =
    some (.list (c.timetables.members.map Timetable.document))
  stats : document.field? "stats" = some c.tally.document
  idSets : ∀ set ∈ c.idSets, document.field? set.1 = some (.list (set.2.map .scalar))

theorem Closure.tells_document (c : Closure) (line : Line) : c.Tells line (c.document line) where
  line := rfl
  timetables := rfl
  stats := rfl
  idSets set given := by
    unfold Closure.idSets at given
    simp only [List.mem_cons, List.not_mem_nil, or_false] at given
    rcases given with rfl | rfl | rfl | rfl | rfl | rfl | rfl | rfl | rfl | rfl | rfl | rfl | rfl | rfl
      <;> rfl

/-! ## The first field -/

namespace Text

theorem isAtMost_iff {t u : Text} : t.isAtMost u = true ↔ t.points.le u.points := by
  unfold isAtMost
  rw [Bool.not_eq_true', List.lex_eq_decide_lex, decide_eq_false_iff_not]
  have below : (fun a b => Nat.blt a b = true) = fun a b : Nat => a < b := by
    funext a b
    exact Nat.blt_eq
  rw [below]
  exact Iff.rfl

theorem isAtMost_trans {t u v : Text} (first : t.isAtMost u = true) (second : u.isAtMost v = true) :
    t.isAtMost v = true := by
  rw [isAtMost_iff] at first second ⊢
  exact List.le_trans first second

theorem isAtMost_total (t u : Text) : (t.isAtMost u || u.isAtMost t) = true := by
  rw [Bool.or_eq_true, isAtMost_iff, isAtMost_iff]
  exact List.le_total t.points u.points

end Text

namespace Value

theorem map_fst_writeFields (depth : Nat) (fields : List (Text × Value)) :
    (writeFields depth fields).map (·.1) = fields.map (·.1) := by
  induction fields with
  | nil => rfl
  | cons field rest ih =>
    rw [writeFields, List.map_cons, List.map_cons, ih]

theorem intercalate_cons (separator first : String) (others : List String) :
    ∃ rest, String.intercalate separator (first :: others) = first ++ rest := by
  cases others with
  | nil => exact ⟨"", by rw [String.intercalate_singleton, String.append_empty]⟩
  | cons second others =>
    exact ⟨_, by rw [String.intercalate_cons_cons, String.append_assoc]⟩

/-- An object is written from its least field on. -/
theorem write_object {fields : List (Text × Value)} (names : List Text) {least : Text}
    (named : fields.map (·.1) = names) (given : least ∈ names)
    (most : ∀ name ∈ names, name.isAtMost least = true → name = least) :
    ∃ rest, (Value.object fields).write 0 =
      "\x7b" ++ Document.newline 1 ++ (Document.escapeText least ++ rest) := by
  have perm := List.mergeSort_perm (writeFields 1 fields) fun a b => a.1.isAtMost b.1
  have sorted : ((writeFields 1 fields).mergeSort fun a b => a.1.isAtMost b.1).Pairwise
      fun a b => a.1.isAtMost b.1 = true := by
    apply List.pairwise_mergeSort
    · exact fun _ _ _ => Text.isAtMost_trans
    · exact fun a b => Text.isAtMost_total a.1 b.1
  have written : ∀ name, name ∈ names ↔
      name ∈ ((writeFields 1 fields).mergeSort fun a b => a.1.isAtMost b.1).map (·.1) := by
    intro name
    rw [← named, ← map_fst_writeFields 1]
    exact (perm.map (·.1)).mem_iff.symm
  rw [write]
  simp only [Nat.zero_add]
  cases ordered : (writeFields 1 fields).mergeSort fun a b => a.1.isAtMost b.1 with
  | nil =>
    rw [ordered] at written
    exact absurd ((written least).mp given) List.not_mem_nil
  | cons field others =>
    rw [ordered] at written sorted
    -- the least name is one of those written, and none of them comes before it
    have first : field.1 = least := by
      rcases List.mem_cons.mp ((written least).mp given) with same | later
      · exact same.symm
      · obtain ⟨other, there, same⟩ := List.mem_map.mp later
        refine most field.1 ((written _).mpr List.mem_cons_self) ?_
        rw [← same]
        exact List.rel_of_pairwise_cons sorted there
    unfold Document.enclose
    rw [List.map_cons, if_neg (by simp), ← first]
    obtain ⟨rest, told⟩ := intercalate_cons ("," ++ Document.newline 1)
      (Document.escapeText field.1 ++ ": " ++ field.2)
      (others.map fun field => Document.escapeText field.1 ++ ": " ++ field.2)
    exact ⟨": " ++ field.2 ++ rest ++ Document.newline 0 ++ "\x7d", by
      rw [told]
      simp only [String.append_assoc]⟩

end Value

def Closure.fieldNames : List Text :=
  ["line", "network", "timetables", "stats", "routes", "journey_patterns", "vehicle_journeys",
    "stop_points", "stop_areas", "stop_places", "commercial_stop_points", "boarding_positions",
    "quays", "connection_links", "access_points", "access_links", "companies", "group_of_lines"]

theorem Closure.render_document (c : Closure) (line : Line) :
    ∃ rest, Document.render (c.document line) =
      "\x7b" ++ Document.newline 1 ++ (Document.escapeText "access_links" ++ rest) :=
  Value.write_object fieldNames rfl (by decide) (by decide)

theorem ExportReport.render_document (report : ExportReport) :
    ∃ rest, Document.render report.document =
      "\x7b" ++ Document.newline 1 ++ (Document.escapeText "lines" ++ rest) :=
  Value.write_object ["lines", "stats"] rfl (by decide) (by decide)

theorem Document.escapeText_eq {t : Text} {point : Nat} {points : List Nat}
    (spelled : t.points = point :: points) :
    ∃ rest, Document.escapeText t = "\"" ++ (Document.escapePoint point ++ rest) := by
  unfold Document.escapeText
  rw [spelled, List.map_cons, String.join_cons]
  exact ⟨String.join (points.map escapePoint) ++ "\"", by simp only [String.append_assoc]⟩

/-- Whatever is in them, a closure and a report are never written alike. -/
theorem Closure.render_ne (c : Closure) (line : Line) (report : ExportReport) :
    Document.render (c.document line) ≠ Document.render report.document := by
  intro same
  obtain ⟨_, written⟩ := c.render_document line
  obtain ⟨_, reported⟩ := report.render_document
  obtain ⟨_, first⟩ : ∃ rest, Document.escapeText "access_links" =
      "\"" ++ (Document.escapePoint 97 ++ rest) := Document.escapeText_eq rfl
  obtain ⟨_, second⟩ : ∃ rest, Document.escapeText "lines" =
      "\"" ++ (Document.escapePoint 108 ++ rest) := Document.escapeText_eq rfl
  have a : Document.escapePoint 97 = "a" := by decide
  have l : Document.escapePoint 108 = "l" := by decide
  rw [written, reported, first, second, a, l] at same
  simp only [String.append_assoc, String.append_right_inj] at same
  have letters := congrArg String.toList same
  simp only [String.toList_append] at letters
  exact absurd (List.append_inj_left letters rfl) (by decide)

end LineClosure
