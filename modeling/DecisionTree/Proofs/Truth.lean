import DecisionTree.Truth
import Mathlib.Data.List.Forall2

namespace DecisionTree.Truth

variable {outcomes vague exact : List Truth}

@[simp] theorem negate_negate (truth : Truth) : truth.negate.negate = truth := by
  cases truth <;> rfl

theorem negate_injective : Function.Injective negate :=
  Function.Involutive.injective negate_negate

@[simp] theorem negate_ofBool (holds : Bool) : (ofBool holds).negate = ofBool (!holds) := by
  cases holds <;> rfl

theorem contains_map_negate (truth : Truth) (outcomes : List Truth) :
    (outcomes.map negate).contains truth.negate = outcomes.contains truth := by
  induction outcomes with
  | nil => rfl
  | cons head rest ih =>
    rw [List.map_cons, List.contains_cons, List.contains_cons, ih]
    cases truth <;> cases head <;> rfl

theorem any_map_negate (outcomes : List Truth) :
    any (outcomes.map negate) = (all outcomes).negate := by
  have failing := contains_map_negate .no outcomes
  have unknown := contains_map_negate .unknown outcomes
  simp only [negate] at failing unknown
  unfold any all
  rw [failing, unknown]
  split
  · rfl
  · split <;> rfl

theorem all_map_negate (outcomes : List Truth) :
    all (outcomes.map negate) = (any outcomes).negate := by
  have twice : (outcomes.map negate).map negate = outcomes := by simp [Function.comp_def]
  rw [← negate_negate (all (outcomes.map negate)), ← any_map_negate, twice]

variable {first second : List Truth}

theorem all_append (first second : List Truth) :
    all (first ++ second) = all [all first, all second] := by
  by_cases failing : .no ∈ first
  · simp [all, failing]
  · by_cases failing' : .no ∈ second
    · simp [all, failing']
    · by_cases vacant : .unknown ∈ first <;> by_cases vacant' : .unknown ∈ second <;>
        simp [all, failing, failing', vacant, vacant']

theorem any_append (first second : List Truth) :
    any (first ++ second) = any [any first, any second] := by
  have whole := all_append (first.map negate) (second.map negate)
  have parts := all_map_negate [any first, any second]
  rw [← List.map_append, all_map_negate, all_map_negate, all_map_negate] at whole
  rw [List.map_cons, List.map_singleton, ← whole] at parts
  rw [← negate_negate (any (first ++ second)), parts, negate_negate]

theorem all_perm (order : first.Perm second) : all first = all second := by
  simp only [all, order.contains_eq]

theorem any_perm (order : first.Perm second) : any first = any second := by
  simp only [any, order.contains_eq]

theorem exactlyOne_perm (order : first.Perm second) : exactlyOne first = exactlyOne second := by
  simp only [exactlyOne, order.contains_eq, order.count_eq]

theorem ofBool_ne_unknown (holds : Bool) : ofBool holds ≠ .unknown := by
  cases holds <;> decide

theorem any_map_ofBool {α : Type} (test : α → Bool) (xs : List α) :
    any (xs.map fun x => ofBool (test x)) = ofBool (xs.any test) := by
  have decided : (xs.map fun x => ofBool (test x)).contains .unknown = false := by
    simp [ofBool_ne_unknown]
  have holding : (xs.map fun x => ofBool (test x)).contains .yes = xs.any test := by
    induction xs with
    | nil => rfl
    | cons x xs ih => cases held : test x <;> simp_all [ofBool]
  rw [any, decided, holding]
  rfl

theorem all_ne_unknown (decided : .unknown ∉ outcomes) : all outcomes ≠ .unknown := by
  unfold all
  split
  · decide
  · simp [decided]

theorem any_ne_unknown (decided : .unknown ∉ outcomes) : any outcomes ≠ .unknown := by
  unfold any
  split
  · decide
  · simp [decided]

theorem exactlyOne_ne_unknown (decided : .unknown ∉ outcomes) : exactlyOne outcomes ≠ .unknown := by
  unfold exactlyOne
  simpa [decided] using ofBool_ne_unknown _

/-- An outcome refines to another if it is that one or was unknown. -/
def Refines (vague exact : Truth) : Prop :=
  vague = .unknown ∨ vague = exact

theorem Refines.eq_of_decided {vague exact : Truth} (refined : vague.Refines exact)
    (decided : vague ≠ .unknown) : vague = exact :=
  refined.resolve_left decided

theorem mem_of_refined (refined : List.Forall₂ Refines vague exact) {truth : Truth}
    (member : truth ∈ vague) (decided : truth ≠ .unknown) : truth ∈ exact := by
  induction refined with
  | nil => exact member
  | cons head _ ih =>
    rcases List.mem_cons.mp member with rfl | later
    · exact head.eq_of_decided decided ▸ List.mem_cons_self
    · exact List.mem_cons_of_mem _ (ih later)

theorem eq_of_refined (refined : List.Forall₂ Refines vague exact) (decided : .unknown ∉ vague) :
    vague = exact := by
  induction refined with
  | nil => rfl
  | @cons first second _ _ head _ ih =>
    have known : first ≠ .unknown := fun same => decided (same ▸ List.mem_cons_self)
    rw [head.eq_of_decided known, ih fun later => decided (List.mem_cons_of_mem _ later)]

theorem all_refines (refined : List.Forall₂ Refines vague exact) :
    (all vague).Refines (all exact) := by
  by_cases failing : .no ∈ vague
  · have kept : .no ∈ exact := mem_of_refined refined failing (by decide)
    exact .inr (by simp [all, failing, kept])
  · by_cases vacant : .unknown ∈ vague
    · exact .inl (by simp [all, failing, vacant])
    · exact .inr (congrArg all (eq_of_refined refined vacant))

theorem any_refines (refined : List.Forall₂ Refines vague exact) :
    (any vague).Refines (any exact) := by
  by_cases holding : .yes ∈ vague
  · have kept : .yes ∈ exact := mem_of_refined refined holding (by decide)
    exact .inr (by simp [any, holding, kept])
  · by_cases vacant : .unknown ∈ vague
    · exact .inl (by simp [any, holding, vacant])
    · exact .inr (congrArg any (eq_of_refined refined vacant))

theorem exactlyOne_refines (refined : List.Forall₂ Refines vague exact) :
    (exactlyOne vague).Refines (exactlyOne exact) := by
  by_cases vacant : .unknown ∈ vague
  · exact .inl (by simp [exactlyOne, vacant])
  · exact .inr (congrArg exactlyOne (eq_of_refined refined vacant))

end DecisionTree.Truth
