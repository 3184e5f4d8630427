import DecisionTree.Settings.Basic

namespace DecisionTree.Settings

/-- The values given for declared names, in the order of the declaration. -/
def slotsOf? {β : Type} (declared : List String) (given : List (String × β)) :
    Option (List (Option β)) :=
  let names := given.map (·.1)
  if names.all declared.contains && names.Nodup then
    some (declared.map fun name => given.lookup name)
  else none

/-- The value in a slot, or the default if it is empty. -/
def orDefault {α β : Type} (default : α) (read? : β → Option α) : Option β → Option α
  | none => some default
  | some given => read? given

end DecisionTree.Settings
