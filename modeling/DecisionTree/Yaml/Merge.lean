import DecisionTree.Yaml.Basic

namespace DecisionTree.Yaml

/-- The key whose value is taken over. -/
def isMergeKey : Yaml → Bool
  | .scalar .plain tag "<<" => tag.isNone || tag == some (coreTag ++ "merge")
  | _ => false

mutual

/-- The entries that the value of a merge key stands for. -/
def taken? : Yaml → Option (List (Yaml × Yaml))
  | .mapping entries => (merged? entries).map fun (own, taken) => own ++ taken
  | .sequence items => takenOfAll? items
  | .scalar style tag content => if isNull (.scalar style tag content) then some [] else none

def takenOfAll? : List Yaml → Option (List (Yaml × Yaml))
  | [] => some []
  | item :: rest => do
    let later ← takenOfAll? rest
    let entries ← taken? item
    return later ++ entries

/-- The entries that a mapping has itself, and those that it takes over. -/
def merged? : List (Yaml × Yaml) → Option (List (Yaml × Yaml) × List (Yaml × Yaml))
  | [] => some ([], [])
  | (key, value) :: rest => do
    let (own, taken) ← merged? rest
    if isMergeKey key then
      let entries ← taken? value
      return (own, taken ++ entries)
    else return ((key, value) :: own, taken)

end

/-- Named values without those whose name comes before; `names` come before all of them. -/
def firstOfEach {α : Type} (names : List String) : List (String × α) → List (String × α)
  | [] => []
  | (name, value) :: rest =>
    if names.contains name then firstOfEach names rest
    else (name, value) :: firstOfEach (name :: names) rest

/-- The values of a mapping by name. Every name is a text, and what is taken over gives way to what
comes before it. -/
def namedValues? (entries : List (Yaml × Yaml)) : Option (List (String × Yaml)) := do
  let (own, taken) ← merged? entries
  let named := fun (key, value) => key.text?.map (·, value)
  let own ← own.mapM named
  let taken ← taken.mapM named
  return own ++ firstOfEach (own.map (·.1)) taken

end DecisionTree.Yaml
