import LineClosure.Proofs.Registry.Anchored

/-! The relations of a registry as plain tables: what is listed for each holder, and where an
item is. A tie is one entry of one of the tables. To add a tie and to drop it are all that
changes of a registry do to its relations; each tie has one table, and the others stay. -/

namespace LineClosure

open Keyed

/-! ## Tables -/

abbrev Listing (ι : Type) := Id → List ι

namespace Listing

variable {ι : Type} [DecidableEq ι] [Canonical ι]

def join (listing : Listing ι) (holder : Text) (item : ι) : Listing ι := fun other =>
  if other = .text holder then
    if Attachments.lists (listing other) item then listing other else listing other ++ [item]
  else listing other

def leave (listing : Listing ι) (holder : Text) (item : ι) : Listing ι := fun other =>
  if other = .text holder then (listing other).erase item else listing other

omit [Canonical ι] in
theorem leave_of_not_mem {listing : Listing ι} {holder : Text} {item : ι}
    (absent : item ∉ listing (.text holder)) : leave listing holder item = listing := by
  funext other
  rw [leave]
  split
  · next same => rw [same, List.erase_of_not_mem absent]
  · rfl

theorem lists_of_mem {items : List ι} {item : ι} (there : item ∈ items) :
    Attachments.lists items item = true :=
  Attachments.lists_iff.mpr (List.mem_map_of_mem there)

theorem leave_join {listing : Listing ι} {holder : Text} {item : ι}
    (fresh : Attachments.lists (listing (.text holder)) item = false) :
    leave (join listing holder item) holder item = listing := by
  have absent : item ∉ listing (.text holder) := fun there =>
    Bool.false_ne_true (fresh.symm.trans (lists_of_mem there))
  funext other
  rw [leave, join]
  split
  · next same =>
    rw [same, fresh, if_neg Bool.false_ne_true, List.erase_append_right _ absent,
      List.erase_cons_head, List.append_nil]
  · rfl

end Listing

structure Whereabouts where
  holder : Id → Option Id
  items : Listing Id

namespace Whereabouts

/-- Moves an item to the end of a holder's list, out of the list it was in. -/
def move (w : Whereabouts) (holder item : Text) : Whereabouts :=
  if w.holder (.text item) = some (.text holder) then w
  else
    { holder := fun other =>
        if other = .text item then some (.text holder) else w.holder other
      items := fun other =>
        if other = .text holder then w.items other ++ [.text item]
        else if w.holder (.text item) = some other then (w.items other).erase (.text item)
        else w.items other }

def remove (w : Whereabouts) (holder item : Text) : Whereabouts :=
  if .text item ∈ w.items (.text holder) then
    { holder := fun other => if other = .text item then none else w.holder other
      items := fun other =>
        if other = .text holder then (w.items other).erase (.text item) else w.items other }
  else w

theorem remove_move {w : Whereabouts} {holder item : Text} (nowhere : w.holder (.text item) = none)
    (absent : .text item ∉ w.items (.text holder)) :
    (w.move holder item).remove holder item = w := by
  have moved : w.move holder item =
      { holder := fun other =>
          if other = .text item then some (.text holder) else w.holder other
        items := fun other =>
          if other = .text holder then w.items other ++ [.text item] else w.items other } := by
    rw [move, if_neg (by rw [nowhere]; simp)]
    simp only [nowhere, reduceCtorEq, if_false]
  have there : Scalar.text item ∈ (w.move holder item).items (.text holder) := by
    rw [moved]
    simp only [if_true]
    exact List.mem_append_right _ List.mem_cons_self
  rw [remove, if_pos there, moved]
  obtain ⟨where_now, items⟩ := w
  congr 1
  · funext other
    dsimp only
    split
    · next same => rw [same]; exact nowhere.symm
    · rfl
  · funext other
    dsimp only
    split
    · next same =>
      rw [same, List.erase_append_right _ absent, List.erase_cons_head, List.append_nil]
    · rfl

end Whereabouts

namespace Placement

def whereabouts (p : Placement) : Whereabouts := ⟨p.noted, p.row⟩

variable {p q : Placement} {holder item : Text}

theorem Puts.whereabouts (m : p.Mutual) (puts : p.Puts holder item q) :
    q.whereabouts = p.whereabouts.move holder item := by
  cases puts with
  | stays here => exact (if_pos here).symm
  | moves elsewhere noted rows =>
    have differ : p.whereabouts.holder (.text item) ≠ some (.text holder) := fun here =>
      elsewhere ((m.inverse _ _).mp here)
    rw [Whereabouts.move, if_neg differ, Placement.whereabouts, Whereabouts.mk.injEq]
    refine ⟨funext noted, funext fun other => ?_⟩
    rw [rows]
    split
    · rfl
    · split
      · rfl
      · next away =>
        exact List.erase_of_not_mem fun listed => away ((m.inverse _ _).mpr listed)

theorem Takes.whereabouts (m : p.Mutual) (takes : p.Takes holder item q) :
    q.whereabouts = p.whereabouts.remove holder item := by
  cases takes with
  | stays elsewhere => exact (if_neg elsewhere).symm
  | leaves here noted rows =>
    rw [Whereabouts.remove, if_pos (by exact here), Placement.whereabouts, Whereabouts.mk.injEq]
    refine ⟨funext noted, funext fun other => ?_⟩
    rw [rows]
    split
    · rfl
    · next away =>
      exact List.erase_of_not_mem fun listed => away (m.holder_unique listed here)

end Placement

namespace Attachments

variable {ι : Type} [DecidableEq ι] [Canonical ι]

theorem row_attach_join (r : Attachments ι) (holder : Text) (item : ι) :
    (r.attach (.text holder) item).row = Listing.join r.row holder item := by
  funext other
  rw [row_attach, Listing.join]
  simp only [canonical_text_iff]
  split
  · next same => rw [same]
  · rfl

theorem row_detach_leave (r : Attachments ι) (holder : Text) {item : ι}
    (written : ∀ other, same item other = decide (other = item)) :
    (r.detach (.text holder) item).row = Listing.leave r.row holder item := by
  funext other
  rw [row_detach, Listing.leave]
  have plain : same item = fun other => other == item := by
    funext other
    rw [written, beq_eq_decide]
  simp only [canonical_text_iff, plain]
  split
  · next same => rw [same, List.erase_eq_eraseP']
  · rfl

theorem same_reference (line : Text) (other : Reference) :
    same line.reference other = decide (other = line.reference) := by
  rw [same, decide_eq_decide, eq_comm]
  constructor
  · intro alike
    cases other with
    | scalar s =>
      have scalars : Value.scalar (canonical s) = .scalar (canonical (.text line)) := alike
      exact congrArg Value.scalar (canonical_text_iff.mp (Value.scalar.inj scalars))
    | list items => cases alike
    | object fields => cases alike
  · exact congrArg canonical

end Attachments

/-! ## Relations -/

inductive Tie where
  | child (area item : Text)
  | stop (area item : Text)
  | constrainedArea (area item : Text)
  | constrainedLine (area line : Text)
  | linkStart (area : Text) (link : Id)
  | linkEnd (area : Text) (link : Id)
  | path (area : Text) (link : Id)
  | entrance (area : Text) (point : Id)

structure Relations where
  areas : Whereabouts
  stopPoints : Whereabouts
  constrainedAreas : Listing Id
  constrainedLines : Listing Reference
  linkStarts : Listing Id
  linkEnds : Listing Id
  paths : Listing Id
  entrances : Listing Id

namespace Relations

/-- Appends an entry unless it is there. An area or a stop point leaves where it was. -/
def add (t : Relations) : Tie → Relations
  | .child area item => { t with areas := t.areas.move area item }
  | .stop area item => { t with stopPoints := t.stopPoints.move area item }
  | .constrainedArea area item =>
    { t with constrainedAreas := t.constrainedAreas.join area (.text item) }
  | .constrainedLine area line =>
    { t with constrainedLines := t.constrainedLines.join area line.reference }
  | .linkStart area link => { t with linkStarts := t.linkStarts.join area link }
  | .linkEnd area link => { t with linkEnds := t.linkEnds.join area link }
  | .path area link => { t with paths := t.paths.join area link }
  | .entrance area point => { t with entrances := t.entrances.join area point }

def drop (t : Relations) : Tie → Relations
  | .child area item => { t with areas := t.areas.remove area item }
  | .stop area item => { t with stopPoints := t.stopPoints.remove area item }
  | .constrainedArea area item =>
    { t with constrainedAreas := t.constrainedAreas.leave area (.text item) }
  | .constrainedLine area line =>
    { t with constrainedLines := t.constrainedLines.leave area line.reference }
  | .linkStart area link => { t with linkStarts := t.linkStarts.leave area link }
  | .linkEnd area link => { t with linkEnds := t.linkEnds.leave area link }
  | .path area link => { t with paths := t.paths.leave area link }
  | .entrance area point => { t with entrances := t.entrances.leave area point }

def Has (t : Relations) : Tie → Prop
  | .child area item => .text item ∈ t.areas.items (.text area)
  | .stop area item => .text item ∈ t.stopPoints.items (.text area)
  | .constrainedArea area item =>
    Attachments.lists (t.constrainedAreas (.text area)) (.text item) = true
  | .constrainedLine area line =>
    Attachments.lists (t.constrainedLines (.text area)) line.reference = true
  | .linkStart area link => Attachments.lists (t.linkStarts (.text area)) link = true
  | .linkEnd area link => Attachments.lists (t.linkEnds (.text area)) link = true
  | .path area link => Attachments.lists (t.paths (.text area)) link = true
  | .entrance area point => Attachments.lists (t.entrances (.text area)) point = true

/-- The item is nowhere, or the entry is not there. A link is at neither end of the area. -/
def Free (t : Relations) : Tie → Prop
  | .child _ item => t.areas.holder (.text item) = none
  | .stop _ item => t.stopPoints.holder (.text item) = none
  | .linkStart area link | .linkEnd area link =>
    ¬t.Has (.linkStart area link) ∧ ¬t.Has (.linkEnd area link)
  | tie => ¬t.Has tie

end Relations

/-- The entries that are deleted to undo one. A link is taken from both ends of an area. -/
def Tie.undone : Tie → List Tie
  | .linkStart area link | .linkEnd area link => [.linkStart area link, .linkEnd area link]
  | tie => [tie]

namespace Registry

variable {r : Registry}

def relations (r : Registry) : Relations where
  areas := r.nesting.whereabouts
  stopPoints := r.siting.whereabouts
  constrainedAreas := r.constrainedAreas.row
  constrainedLines := r.constrainedLines.row
  linkStarts := r.connectionStarts.row
  linkEnds := r.connectionEnds.row
  paths := r.linkedPaths.row
  entrances := r.entrances.row

theorem drop_add (coherent : r.Coherent) {tie : Tie} (free : r.relations.Free tie) :
    tie.undone.foldl Relations.drop (r.relations.add tie) = r.relations := by
  have missing : ∀ {ι : Type} [DecidableEq ι] [Canonical ι] {items : List ι} {item : ι},
      ¬Attachments.lists items item = true → item ∉ items :=
    fun absent there => absent (Listing.lists_of_mem there)
  have nowhere : ∀ {p : Placement}, p.Mutual → ∀ {holder item : Text},
      p.noted (.text item) = none →
        (p.whereabouts.move holder item).remove holder item = p.whereabouts := by
    intro p m holder item nothing
    refine Whereabouts.remove_move nothing fun listed => ?_
    rw [(m.inverse _ _).mpr listed] at nothing
    cases nothing
  cases tie with
  | child area item =>
    exact congrArg (fun areas => { r.relations with areas }) (nowhere coherent.nesting free)
  | stop area item =>
    exact congrArg (fun stopPoints => { r.relations with stopPoints })
      (nowhere coherent.siting free)
  | constrainedArea area item =>
    exact congrArg (fun constrainedAreas => { r.relations with constrainedAreas })
      (Listing.leave_join (Bool.eq_false_iff.mpr free))
  | constrainedLine area line =>
    exact congrArg (fun constrainedLines => { r.relations with constrainedLines })
      (Listing.leave_join (Bool.eq_false_iff.mpr free))
  -- a connection link is taken out at both ends, and at the other one it never was
  | linkStart area link =>
    exact congrArg₂ (fun linkStarts linkEnds => { r.relations with linkStarts, linkEnds })
      (Listing.leave_join (Bool.eq_false_iff.mpr free.1))
      (Listing.leave_of_not_mem (missing free.2))
  | linkEnd area link =>
    exact congrArg₂ (fun linkStarts linkEnds => { r.relations with linkStarts, linkEnds })
      (Listing.leave_of_not_mem (missing free.1))
      (Listing.leave_join (Bool.eq_false_iff.mpr free.2))
  | path area link =>
    exact congrArg (fun paths => { r.relations with paths })
      (Listing.leave_join (Bool.eq_false_iff.mpr free))
  | entrance area point =>
    exact congrArg (fun entrances => { r.relations with entrances })
      (Listing.leave_join (Bool.eq_false_iff.mpr free))

end Registry

end LineClosure
