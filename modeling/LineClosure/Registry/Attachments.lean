import LineClosure.Registry.Problem

/-! Relations that list, for each holder, what is attached to it. `Attachments` keeps the
lists alone; a `Placement` lets each item have one place and keeps the way back to it. -/

namespace LineClosure

structure Attachment (ι : Type) where
  holder : Id
  items : List ι
deriving DecidableEq

instance {ι : Type} : Keyed (Attachment ι) := ⟨Attachment.holder⟩

/-- One list a holder. A holder keeps its rank among the holders when its list runs empty. -/
abbrev Attachments (ι : Type) := Roster (Attachment ι)

namespace Attachments

variable {ι : Type} [DecidableEq ι] [Canonical ι]

def lists (items : List ι) (item : ι) : Bool := items.any (same item)

def row (r : Attachments ι) (holder : Id) : List ι :=
  ((r.find? holder).map (·.items)).getD []

/-- The holders of an item, in the order in which they first held anything. -/
def holders (r : Attachments ι) (item : ι) : List Id :=
  (r.members.filter fun a => lists a.items item).map (·.holder)

def editRow (r : Attachments ι) (holder : Id) (edit : List ι → List ι) : Attachments ι :=
  (r.insert ⟨holder, []⟩).amend holder (fun a => { a with items := edit a.items }) fun _ => rfl

def append (r : Attachments ι) (holder : Id) (item : ι) : Attachments ι :=
  r.editRow holder fun items => items ++ [item]

def attach (r : Attachments ι) (holder : Id) (item : ι) : Attachments ι :=
  r.editRow holder fun items => if lists items item then items else items ++ [item]

/-- Takes an item out of a holder's list. A holder without a list gets none. -/
def detach (r : Attachments ι) (holder : Id) (item : ι) : Attachments ι :=
  r.amend holder (fun a => { a with items := a.items.eraseP (same item) }) fun _ => rfl

end Attachments

structure Place where
  item : Id
  holder : Id
deriving DecidableEq

instance : Keyed Place := ⟨Place.item⟩

/-- Items with at most one place each: the way back from an item to its holder, and the
lists of the holders. -/
structure Placement where
  places : Roster Place := ∅
  held : Attachments Id := ∅

namespace Placement

/-- The holder of an item. To be held by `null` is to have no place. -/
def holder? (p : Placement) (item : Id) : Option Id :=
  match p.places.find? item with
  | some ⟨_, .null⟩ | none => none
  | some ⟨_, holder⟩ => some holder

def row (p : Placement) (holder : Id) : List Id := p.held.row holder

def note (places : Roster Place) (item holder : Id) : Roster Place :=
  (places.insert ⟨item, holder⟩).amend item (fun place => { place with holder }) fun _ => rfl

/-- A change of a placement. A change that fails leaves what it had done by then. -/
abbrev Change := EStateM Problem Placement

def withdraw (holder item : Id) : Change Unit := do
  if Attachments.lists ((← get).row holder) item then
    modify fun p => { p with held := p.held.detach holder item }
  else throw (.brokenBackReference item)

/-- Puts an item at the end of a holder's list, out of any other list. An item without a
place is where `null` would put it. -/
def put (holder item : Id) : Change Unit := do
  let current := (← get).holder? item
  if (current.getD .null).equals holder then return
  if let some former := current then withdraw former item
  modify fun p => { p with held := p.held.append holder item }
  modify fun p => { p with places := note p.places item holder }

def take (holder item : Id) : Change Unit := do
  if Attachments.lists ((← get).row holder) item then
    modify fun p => { p with held := p.held.detach holder item }
    if (← get).places.contains item then
      modify fun p => { p with places := p.places.erase item }
    else throw (.brokenBackReference item)

end Placement
end LineClosure
