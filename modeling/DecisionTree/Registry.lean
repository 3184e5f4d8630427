import DecisionTree.Model

/-!
Registries: the tree models of one or more documents under their names, with the version and the
description of the documents. Registries are merged model by model in the order of the names, up
to the first name that is taken.
-/

namespace DecisionTree

structure Registry where
  version : Option String := none
  description : Option String := none
  models : Table Model := Table.empty

namespace Registry

/-- The only model, if there is exactly one. -/
def single? (registry : Registry) : Option Model :=
  match registry.models.entries with
  | [(_, model)] => some model
  | _ => none

/-- The model of a name, or the only model if no name is given. -/
def select? (registry : Registry) : Option String → Option Model
  | some name => registry.models.get? name
  | none => registry.single?

/-- Adds models under new names in order. What comes before the first name that is taken stays
added, and that name is given back. -/
def addNew (models : Table Model) : List (String × Model) → Table Model × Option String
  | [] => (models, none)
  | (name, model) :: rest =>
    if models.contains name then (models, some name) else addNew (models.insert name model) rest

/-- The models of both registries, and the first name that both have. Up to that name the models
of the second one are added; its version and description fill gaps only if there is no such
name. -/
def merge (registry other : Registry) : Registry × Option String :=
  match addNew registry.models other.models.entries with
  | (models, some name) => ({ registry with models }, some name)
  | (models, none) =>
    (⟨registry.version.or other.version, registry.description.or other.description, models⟩,
      none)

end Registry
end DecisionTree
