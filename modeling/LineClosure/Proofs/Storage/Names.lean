import LineClosure.Proofs.Document.WholeTexts
import LineClosure.Proofs.Storage.Writes

/-! Which names are one file. A name of one part leads to the place that its bytes spell, so two
such names share a file just if they have one normal form; what is written under one of them is
then found under the other, and every other file stays as it is. -/

namespace LineClosure

namespace Text

theorem ofPoints_points (t : Text) : ofPoints t.points = t := by
  cases t with
  | whole s =>
    unfold ofPoints points
    have sound : ¬(s.toList.map Char.toNat).any isHalf = true := by simp [isHalf_toNat]
    have same : (Char.ofNat ∘ Char.toNat) = id := by
      funext c
      exact Char.ofNat_toNat c
    rw [dif_neg sound, List.map_map, same, List.map_id, String.ofList_toList]
  | torn points halved => exact dif_pos halved

theorem splitPoints_of_not_mem {mark : Nat} {points : List Nat} (free : mark ∉ points) :
    splitPoints mark points = [points] := by
  induction points with
  | nil => rfl
  | cons point rest ih =>
    have apart := List.ne_of_not_mem_cons free
    have later := ih (List.not_mem_of_not_mem_cons free)
    unfold splitPoints at later ⊢
    rw [List.foldr_cons, later, if_neg (Ne.symm apart)]

theorem split_of_free {t : Text} {mark : Char} (free : mark.toNat ∉ t.points) :
    t.split mark = [t] := by
  unfold split
  rw [splitPoints_of_not_mem free, List.map_singleton, ofPoints_points]

end Text

namespace FileTree

variable {tree after : FileTree} {folder name other : Text} {place : Location}
  {content old : ByteArray}

/-- A name of one part that leads somewhere. It may still be one that leads out of a folder. -/
structure IsPart (name : Text) : Prop where
  single : '/'.toNat ∉ name.points
  named : name ≠ "" ∧ name ≠ "."

theorem IsPart.parts (part : IsPart name) : parts name = [FileName.normal name] := by
  have kept : (name ≠ "" && name ≠ ".") = true := by
    simp only [ne_eq, decide_not, Bool.and_eq_true, Bool.not_eq_true', decide_eq_false_iff_not]
    exact part.named
  unfold FileTree.parts spelledParts
  rw [Text.split_of_free part.single, List.filter_cons, if_pos kept]
  rfl

theorem IsPart.relative (part : IsPart name) : isAbsolute name = false := by
  rw [Bool.eq_false_iff]
  intro starts
  obtain ⟨more, same⟩ := List.isPrefixOf_iff_prefix.mp starts
  apply part.single
  rw [← same]
  exact List.mem_cons_self

theorem IsPart.locateIn_eq_ok_iff (part : IsPart name) :
    tree.locateIn folder name = .ok place ↔
      checkPath (join folder name) = .ok () ∧ ∃ home,
        tree.walk (origin folder) (FileTree.parts folder) = .ok home ∧
        tree.isFolder home = true ∧
        FileName.byteSize (FileName.normal name) ≤ maxNameBytes ∧
        step home (FileName.normal name) = place := by
  unfold locateIn
  rw [part.relative, part.parts]
  cases checkPath (join folder name) with
  | error fault => exact iff_of_false (by intro same; cases same) (by rintro ⟨same, _⟩; cases same)
  | ok _ =>
    show tree.walk (origin folder) (FileTree.parts folder ++ [FileName.normal name]) = .ok place ↔ _
    rw [walk_append_eq_ok_iff]
    simp only [walk_cons_eq_ok_iff, walk_nil, enter_eq_ok_iff, Except.ok.injEq, true_and]
    constructor
    · rintro ⟨home, leads, last, ⟨folder, short, rfl⟩, rfl⟩
      exact ⟨home, leads, folder, short, rfl⟩
    · rintro ⟨home, leads, folder, short, rfl⟩
      exact ⟨home, leads, _, ⟨folder, short, rfl⟩, rfl⟩

theorem step_upward_ne (here : Location) {part : Text} (down : part ≠ upward) :
    step here upward ≠ here ++ [part] := by
  have longer : ∀ there : Location, there.length ≤ here.length → there ≠ here ++ [part] := by
    intro there short same
    rw [same, List.length_append, List.length_singleton] at short
    omega
  unfold step
  rw [if_neg fun differs => differs rfl]
  split
  · exact longer here (Nat.le_refl _)
  · split
    · intro same
      exact down (List.singleton_inj.mp (List.append_cancel_left same)).symm
    · exact longer _ (by simp)

theorem step_injective (here : Location) : Function.Injective (step here) := by
  have down : ∀ {part : Text}, part ≠ upward → step here part = here ++ [part] :=
    fun differs => if_pos differs
  intro first second same
  by_cases one : first = upward
  · by_cases two : second = upward
    · rw [one, two]
    · rw [one, down two] at same
      exact absurd same (step_upward_ne here two)
  · by_cases two : second = upward
    · rw [two, down one] at same
      exact absurd same.symm (step_upward_ne here one)
    · rw [down one, down two] at same
      exact List.singleton_inj.mp (List.append_cancel_left same)

/-- Two names of one part lead to one place just if their bytes are the same. -/
theorem IsPart.locateIn_eq_iff (part : IsPart name) (otherPart : IsPart other)
    {there : Location} (leads : tree.locateIn folder name = .ok place)
    (otherLeads : tree.locateIn folder other = .ok there) :
    there = place ↔ FileName.normal other = FileName.normal name := by
  obtain ⟨_, home, walked, _, _, here⟩ := part.locateIn_eq_ok_iff.mp leads
  obtain ⟨_, house, walkedToo, _, _, elsewhere⟩ := otherPart.locateIn_eq_ok_iff.mp otherLeads
  cases walked.symm.trans walkedToo
  rw [← here, ← elsewhere]
  exact (step_injective home).eq_iff

theorem HasFile.content_unique {more : ByteArray} (has : tree.HasFile folder name content)
    (also : tree.HasFile folder name more) : content = more := by
  obtain ⟨place, leads, found⟩ := has
  obtain ⟨there, leadsToo, foundToo⟩ := also
  cases leads.symm.trans leadsToo
  exact Option.some.inj (found.symm.trans foundToo)

/-- To write a file changes the files of the names that share its bytes, and no others. -/
theorem Stores.hasFile_of_part (part : IsPart name) (otherPart : IsPart other)
    (stores : tree.Stores folder name content after) (has : tree.HasFile folder other old) :
    after.HasFile folder other
      (if FileName.normal other = FileName.normal name then content else old) := by
  obtain ⟨there, leads, found⟩ := has
  cases stores with
  | @store made place makes here _ =>
    obtain ⟨adds, _⟩ := makeFolder_spec makes
    have still := locateIn_mono adds.folders leads
    refine ⟨there, locateIn_mono (fun other folder => ?_) still, ?_⟩
    · rwa [isFolder_setFile]
    · have same := part.locateIn_eq_iff otherPart here still
      rw [content?_setFile]
      split
      · next moved => rw [if_pos (same.mp moved)]
      · next apart =>
        rw [if_neg (mt same.mpr apart)]
        unfold content? at found ⊢
        rwa [adds.files]

theorem Stores.keeps_other (part : IsPart name) (otherPart : IsPart other)
    (apart : FileName.normal other ≠ FileName.normal name)
    (stores : tree.Stores folder name content after) (has : tree.HasFile folder other old) :
    after.HasFile folder other old := by
  have kept := stores.hasFile_of_part part otherPart has
  rwa [if_neg apart] at kept

theorem Stores.replaces (part : IsPart name) (otherPart : IsPart other)
    (same : FileName.normal other = FileName.normal name)
    (stores : tree.Stores folder name content after) (has : tree.HasFile folder other old) :
    after.HasFile folder other content := by
  have replaced := stores.hasFile_of_part part otherPart has
  rwa [if_pos same] at replaced

end FileTree
end LineClosure
