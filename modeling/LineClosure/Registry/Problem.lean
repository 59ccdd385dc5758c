import LineClosure.Registry.Entity

/-! Why the registry refuses a change. -/

namespace LineClosure

inductive Problem where
  | forbidden (holder : AreaType) (held : Held) (relation : Relation)
  | unknown (kind : Kind) (id : Id)
  | duplicate (kind : Kind) (id : Id)
  | notAnEntity (record : String)
  | unusable (reference : Reference)
  /-- An item is in a list but has no place to forget. -/
  | brokenBackReference (item : Id)
deriving DecidableEq

def Problem.message : Problem → Text
  | forbidden holder held relation =>
    holder.text ++ " cannot hold " ++ held.text ++ " in " ++ relation.text
  | unknown kind id => "Unknown " ++ kind.text ++ ": " ++ id.display
  | duplicate kind id => "Duplicate " ++ kind.text ++ ": " ++ id.display
  | notAnEntity record => "Not a network entity: " ++ record
  | unusable reference => "Not an identifier: " ++ reference.display
  | brokenBackReference item => item.nested

end LineClosure
