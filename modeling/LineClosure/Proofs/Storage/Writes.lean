import LineClosure.Proofs.Sequence
import LineClosure.Storage.FileTree

/-! Writing files into a folder. Whether a write is accepted, and where the file is then, depends
on the folders alone; so a write that went through changes nothing about the next one. -/

namespace LineClosure

namespace FileTree

variable {tree made after : FileTree} {start place : Location}

/-! ## Walking -/

theorem enter_eq_ok_iff {here : Location} {part : Text} :
    tree.enter here part = .ok place ↔
      tree.isFolder here = true ∧ FileName.byteSize part ≤ maxNameBytes ∧
        step here part = place := by
  unfold enter
  by_cases folder : tree.isFolder here = true
  · rw [if_pos folder]
    by_cases long : FileName.byteSize part > maxNameBytes
    · rw [if_pos long]
      exact iff_of_false (by intro same; cases same) fun both => Nat.not_le.mpr long both.2.1
    · rw [if_neg long, Except.ok.injEq]
      exact ⟨fun same => ⟨folder, Nat.not_lt.mp long, same⟩, fun both => both.2.2⟩
  · rw [if_neg folder]
    refine iff_of_false ?_ fun both => folder both.1
    intro same
    split at same <;> cases same

theorem walk_nil : tree.walk start [] = .ok start := rfl

theorem walk_cons_eq_ok_iff {part : Text} {rest : List Text} :
    tree.walk start (part :: rest) = .ok place ↔
      ∃ here, tree.enter start part = .ok here ∧ tree.walk here rest = .ok place := by
  unfold walk
  rw [List.foldlM_cons]
  exact except_bind_eq_ok_iff

theorem walk_append_eq_ok_iff {parts more : List Text} :
    tree.walk start (parts ++ more) = .ok place ↔
      ∃ here, tree.walk start parts = .ok here ∧ tree.walk here more = .ok place := by
  induction parts generalizing start with
  | nil => simp [walk_nil]
  | cons part rest ih =>
    simp only [List.cons_append, walk_cons_eq_ok_iff, ih]
    constructor
    · rintro ⟨here, first, there, second, third⟩
      exact ⟨there, ⟨here, first, second⟩, third⟩
    · rintro ⟨there, ⟨here, first, second⟩, third⟩
      exact ⟨here, first, there, second, third⟩

theorem walk_mono {more : FileTree}
    (folders : ∀ place, tree.isFolder place = true → more.isFolder place = true)
    {parts : List Text} (leads : tree.walk start parts = .ok place) :
    more.walk start parts = .ok place := by
  induction parts generalizing start with
  | nil => exact leads
  | cons part rest ih =>
    obtain ⟨here, first, later⟩ := walk_cons_eq_ok_iff.mp leads
    obtain ⟨folder, short, same⟩ := enter_eq_ok_iff.mp first
    exact walk_cons_eq_ok_iff.mpr
      ⟨here, enter_eq_ok_iff.mpr ⟨folders start folder, short, same⟩, ih later⟩

/-! ## Folders -/

structure HasFolder (tree : FileTree) (folder : Text) : Prop where
  spelled : checkPath folder = .ok ()
  there : ∃ place, tree.walk (origin folder) (parts folder) = .ok place ∧
    tree.isFolder place = true

theorem isFolder_origin (folder : Text) : tree.isFolder (origin folder) = true := by
  unfold isFolder origin
  split
  · simp
  · simp

structure AddsFolders (tree made : FileTree) : Prop where
  folders : ∀ place, tree.isFolder place = true → made.isFolder place = true
  files : made.files = tree.files

theorem addsFolders_refl (tree : FileTree) : tree.AddsFolders tree := ⟨fun _ same => same, rfl⟩

theorem AddsFolders.trans (first : tree.AddsFolders made) (second : made.AddsFolders after) :
    tree.AddsFolders after where
  folders place there := second.folders place (first.folders place there)
  files := second.files.trans first.files

theorem addsFolders_append (tree : FileTree) (place : Location) :
    tree.AddsFolders { tree with folders := tree.folders ++ [place] } where
  folders other there := by
    unfold isFolder at there ⊢
    simp only [Bool.or_eq_true, List.contains_eq_mem, List.mem_append, decide_eq_true_eq] at there ⊢
    rcases there with above | listed
    · exact Or.inl above
    · exact Or.inr (Or.inl listed)
  files := rfl

theorem makeLast_spec {names : List Text} (done : tree.makeLast start names = .ok made) :
    tree.AddsFolders made ∧
      ∃ place, made.walk start names = .ok place ∧ made.isFolder place = true := by
  obtain ⟨place, leads, rest⟩ := except_bind_eq_ok_iff.mp done
  split at rest
  · next folder =>
    cases rest
    exact ⟨addsFolders_refl tree, place, leads, folder⟩
  · split at rest
    · cases rest
    · cases rest
      have adds := addsFolders_append tree place
      refine ⟨adds, place, walk_mono adds.folders leads, ?_⟩
      unfold isFolder
      simp

theorem makeLast_of_there {names : List Text} (leads : tree.walk start names = .ok place)
    (folder : tree.isFolder place = true) : tree.makeLast start names = .ok tree := by
  unfold makeLast
  rw [leads]
  exact if_pos folder

/-- What was made is there. The parts are given last first. -/
theorem makeFolders_spec {parts : List Text} (base : ∀ tree : FileTree, tree.isFolder start = true)
    (done : tree.makeFolders start parts = .ok made) :
    tree.AddsFolders made ∧
      ∃ place, made.walk start (parts.reverse.map FileName.normal) = .ok place ∧
        made.isFolder place = true := by
  induction parts generalizing made with
  | nil =>
    cases done
    exact ⟨addsFolders_refl tree, start, rfl, base tree⟩
  | cons part before ih =>
    unfold makeFolders at done
    dsimp only at done
    split at done
    · next other last =>
      cases done
      exact makeLast_spec last
    -- a missing folder around this one is made first
    · obtain ⟨between, around, rest⟩ := except_bind_eq_ok_iff.mp done
      obtain ⟨adds, _⟩ := ih around
      cases last : between.makeLast start ((part :: before).reverse.map FileName.normal) with
      | error fault =>
        rw [last] at rest
        cases rest
      | ok other =>
        rw [last] at rest
        cases rest
        obtain ⟨more, there⟩ := makeLast_spec last
        exact ⟨adds.trans more, there⟩
    · cases done

theorem makeFolder_spec {folder : Text} (done : tree.makeFolder folder = .ok made) :
    tree.AddsFolders made ∧ made.HasFolder folder := by
  unfold makeFolder at done
  split at done
  · cases done
  · next spelled =>
    cases folders : tree.makeFolders (origin folder) (spelledParts folder).reverse with
    | error fault =>
      rw [folders] at done
      cases done
    | ok other =>
      rw [folders] at done
      cases done
      obtain ⟨adds, there⟩ := makeFolders_spec (fun tree => isFolder_origin folder) folders
      rw [List.reverse_reverse] at there
      exact ⟨adds, spelled, there⟩

theorem makeFolder_of_hasFolder {folder : Text} (has : tree.HasFolder folder) :
    tree.makeFolder folder = .ok tree := by
  obtain ⟨spelled, place, leads, there⟩ := has
  unfold makeFolder
  rw [spelled]
  dsimp only
  have whole : ((spelledParts folder).reverse.reverse).map FileName.normal = parts folder := by
    rw [List.reverse_reverse]
    rfl
  cases last : (spelledParts folder).reverse with
  | nil => rfl
  | cons part before =>
    rw [last] at whole
    unfold makeFolders
    dsimp only
    rw [whole, makeLast_of_there leads there]
    rfl

/-! ## Files -/

theorem isFolder_setFile (tree : FileTree) (place : Location) (content : ByteArray) :
    (tree.setFile place content).isFolder = tree.isFolder := by
  funext other
  unfold setFile isFolder
  split <;> rfl

theorem lookup_replaced (files : List (Location × ByteArray)) (place other : Location)
    (content : ByteArray) :
    (files.map fun file => if file.1 = place then (place, content) else file).lookup other =
      if other = place then (files.lookup place).map fun _ => content else files.lookup other := by
  induction files with
  | nil => simp
  | cons file rest ih =>
    obtain ⟨there, old⟩ := file
    rw [List.map_cons]
    by_cases replaced : there = place
    · subst replaced
      by_cases same : other = there
      · simp [same]
      · simp only [if_pos, List.lookup_cons, beq_false_of_ne same, ih, if_neg same]
    · by_cases here : other = there
      · subst here
        simp [replaced]
      · simp only [if_neg replaced, List.lookup_cons, beq_false_of_ne here, ih,
          beq_false_of_ne (Ne.symm replaced)]

theorem isSome_lookup_iff (files : List (Location × ByteArray)) (place : Location) :
    (files.lookup place).isSome = files.any (·.1 = place) := by
  induction files with
  | nil => rfl
  | cons file rest ih =>
    obtain ⟨there, old⟩ := file
    by_cases here : place = there
    · subst here
      simp
    · simp [List.lookup_cons, beq_false_of_ne here, ih, Ne.symm here]

theorem content?_setFile (tree : FileTree) (place other : Location) (content : ByteArray) :
    (tree.setFile place content).content? other =
      if other = place then some content else tree.content? other := by
  unfold setFile content?
  have known := isSome_lookup_iff tree.files place
  split
  · next present =>
    rw [present] at known
    obtain ⟨old, found⟩ := Option.isSome_iff_exists.mp known
    dsimp only
    rw [lookup_replaced, found]
    rfl
  · next absent =>
    rw [Bool.not_eq_true] at absent
    rw [absent, Option.isSome_eq_false_iff, Option.isNone_iff_eq_none] at known
    dsimp only
    rw [List.lookup_append]
    by_cases here : other = place
    · subst here
      simp [known]
    · simp [here, List.lookup_cons, beq_false_of_ne here]

theorem locateIn_mono {more : FileTree} {folder name : Text}
    (folders : ∀ place, tree.isFolder place = true → more.isFolder place = true)
    (leads : tree.locateIn folder name = .ok place) : more.locateIn folder name = .ok place := by
  obtain ⟨_, spelled, rest⟩ := except_bind_eq_ok_iff.mp leads
  refine except_bind_eq_ok_iff.mpr ⟨(), spelled, ?_⟩
  split at rest
  · next away =>
    rw [if_pos away]
    exact walk_mono folders rest
  · next inside =>
    rw [if_neg inside]
    exact walk_mono folders rest

/-- The folder can be made, if it is not there, and a file of this name can be written into it. -/
def Accepts (tree : FileTree) (folder name : Text) : Prop :=
  ∃ made place, tree.makeFolder folder = .ok made ∧ made.locateIn folder name = .ok place ∧
    made.isFolder place = false

/-- A file was written into a folder, which was made if it was missing. -/
inductive Stores (tree : FileTree) (folder name : Text) (content : ByteArray) :
    FileTree → Prop where
  | store {made : FileTree} {place : Location} (makes : tree.makeFolder folder = .ok made)
    (leads : made.locateIn folder name = .ok place) (free : made.isFolder place = false) :
    Stores tree folder name content (made.setFile place content)

theorem write_eq_ok_iff {folder name : Text} {content : ByteArray} :
    tree.write folder name content = .ok after ↔
      ∃ place, tree.locateIn folder name = .ok place ∧ tree.isFolder place = false ∧
        tree.setFile place content = after := by
  unfold write
  dsimp only
  cases leads : tree.locateIn folder name with
  | error fault =>
    exact iff_of_false (by intro same; cases same) (by rintro ⟨_, same, _⟩; cases same)
  | ok place =>
    dsimp only
    by_cases folder : tree.isFolder place = true
    · rw [if_pos folder]
      refine iff_of_false (by intro same; cases same) ?_
      rintro ⟨other, same, free, _⟩
      cases same
      rw [folder] at free
      cases free
    · rw [if_neg folder, Except.ok.injEq]
      constructor
      · intro done
        exact ⟨place, rfl, Bool.eq_false_iff.mpr folder, done⟩
      · rintro ⟨other, same, _, done⟩
        cases same
        exact done

theorem stores_iff_write {made : FileTree} {folder name : Text} {content : ByteArray}
    (makes : tree.makeFolder folder = .ok made) :
    tree.Stores folder name content after ↔ made.write folder name content = .ok after := by
  rw [write_eq_ok_iff]
  constructor
  · intro stores
    cases stores with
    | store other leads free =>
      cases other.symm.trans makes
      exact ⟨_, leads, free, rfl⟩
  · rintro ⟨place, leads, free, rfl⟩
    exact .store makes leads free

/-- A file of a folder has this content. -/
def HasFile (tree : FileTree) (folder name : Text) (content : ByteArray) : Prop :=
  ∃ place, tree.locateIn folder name = .ok place ∧ tree.content? place = some content

section
variable {folder name other : Text} {content : ByteArray}

theorem stores_of_accepts (accepts : tree.Accepts folder name) (content : ByteArray) :
    ∃ after, tree.Stores folder name content after := by
  obtain ⟨made, place, makes, leads, free⟩ := accepts
  exact ⟨_, .store makes leads free⟩

theorem Stores.accepted (stores : tree.Stores folder name content after) :
    tree.Accepts folder name := by
  cases stores with
  | store makes leads free => exact ⟨_, _, makes, leads, free⟩

theorem Stores.hasFile (stores : tree.Stores folder name content after) :
    after.HasFile folder name content := by
  cases stores with
  | @store made place _ leads _ =>
    refine ⟨place, ?_, ?_⟩
    · apply locateIn_mono (fun other there => ?_) leads
      rwa [isFolder_setFile]
    · rw [content?_setFile, if_pos rfl]

theorem Stores.accepts_iff (stores : tree.Stores folder name content after) :
    after.Accepts folder other ↔ tree.Accepts folder other := by
  cases stores with
  | @store made place makes _ _ =>
    have folders := isFolder_setFile made place content
    have has : (made.setFile place content).HasFolder folder := by
      obtain ⟨_, spelled, home, leads, there⟩ := makeFolder_spec makes
      refine ⟨spelled, home, walk_mono (fun other folder => ?_) leads, ?_⟩
      · rwa [folders]
      · rwa [folders]
    have again := makeFolder_of_hasFolder has
    constructor
    · rintro ⟨same, there, remakes, leads, free⟩
      obtain rfl : made.setFile place content = same := Except.ok.inj (again.symm.trans remakes)
      rw [folders] at free
      exact ⟨made, there, makes, locateIn_mono (fun other here => folders ▸ here) leads, free⟩
    · rintro ⟨same, there, remakes, leads, free⟩
      obtain rfl : made = same := Except.ok.inj (makes.symm.trans remakes)
      refine ⟨_, there, again, locateIn_mono (fun other here => ?_) leads, ?_⟩
      · rwa [folders]
      · rwa [folders]

end

end FileTree
end LineClosure
