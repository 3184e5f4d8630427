import DecisionTree.Predicate.Basic

namespace DecisionTree

namespace Predicate

/-- What holds of all tests, and of a compound whenever it does of the operands, holds of all
predicates. -/
@[elab_as_elim]
theorem induction {motive : Predicate → Prop} (always : motive .always) (never : motive .never)
    (compare : ∀ field operator literal, motive (.compare field operator literal))
    (member : ∀ field operator literals, motive (.member field operator literals))
    (compound : ∀ operator operands, (∀ operand ∈ operands, motive operand) →
      motive (.compound operator operands)) (predicate : Predicate) : motive predicate :=
  @Predicate.rec motive (fun operands => ∀ operand ∈ operands, motive operand)
    always never compare member compound (fun _ absent => nomatch absent)
    (fun _ _ head tail => List.forall_mem_cons.mpr ⟨head, tail⟩) predicate

mutual

/-- The predicate itself and the operands in it at any depth, from left to right. -/
def parts : Predicate → List Predicate
  | .always => [.always]
  | .never => [.never]
  | .compare field operator literal => [.compare field operator literal]
  | .member field operator literals => [.member field operator literals]
  | .compound operator operands => .compound operator operands :: partsOfAll operands

def partsOfAll : List Predicate → List Predicate
  | [] => []
  | operand :: rest => parts operand ++ partsOfAll rest

end

theorem mem_partsOfAll {part : Predicate} {operands : List Predicate} :
    part ∈ partsOfAll operands ↔ ∃ operand ∈ operands, part ∈ operand.parts := by
  induction operands with
  | nil => simp [partsOfAll]
  | cons operand rest ih => simp [partsOfAll, ih]

theorem self_mem_parts (predicate : Predicate) : predicate ∈ predicate.parts := by
  cases predicate <;> simp [parts]

/-- The parts of a compound are itself and the parts of its operands. -/
theorem forall_parts_compound {holds : Predicate → Prop} {operator : Connective}
    {operands : List Predicate} :
    (∀ part ∈ (compound operator operands).parts, holds part) ↔
      holds (.compound operator operands) ∧
        ∀ operand ∈ operands, ∀ part ∈ operand.parts, holds part := by
  simp only [parts, List.forall_mem_cons, mem_partsOfAll]
  constructor
  · rintro ⟨whole, inner⟩
    exact ⟨whole, fun operand member part found => inner part ⟨operand, member, found⟩⟩
  · rintro ⟨whole, inner⟩
    refine ⟨whole, ?_⟩
    rintro part ⟨operand, member, found⟩
    exact inner operand member part found

end Predicate
end DecisionTree
