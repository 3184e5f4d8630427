import DecisionTree.Proofs.Json.Reading

/-!
What a text spells apart from its numbers does not depend on the rule for them. Two rules may refuse
different numbers and may make different ones of the same digits; but where both read a text, the
values have the same outline, and behind a value they leave the same characters.
-/

namespace DecisionTree.Json

mutual

/-- The value with null for every number. -/
def outline : Json → Json
  | .null => .null
  | .bool holds => .bool holds
  | .number _ => .null
  | .string content => .string content
  | .array items => .array (outlineItems items)
  | .object members => .object (outlineMembers members)

def outlineItems : List Json → List Json
  | [] => []
  | item :: rest => outline item :: outlineItems rest

def outlineMembers : List (String × Json) → List (String × Json)
  | [] => []
  | (name, value) :: rest => (name, outline value) :: outlineMembers rest

end

def outlineMember (member : String × Json) : String × Json :=
  (member.1, outline member.2)

@[simp] theorem outline_array (items : List Json) :
    outline (.array items) = .array (items.map outline) := by
  have each : outlineItems items = items.map outline := by
    induction items with
    | nil => rfl
    | cons item rest ih => rw [outlineItems, ih, List.map_cons]
  rw [outline, each]

@[simp] theorem outline_object (members : List (String × Json)) :
    outline (.object members) = .object (members.map outlineMember) := by
  have each : outlineMembers members = members.map outlineMember := by
    induction members with
    | nil => rfl
    | cons member rest ih => rw [outlineMembers, ih, List.map_cons, outlineMember]
  rw [outline, each]

/-- If both readings succeed, then they agree in what is seen of the values and in what follows. -/
def Concur {α γ : Type} (view : α → γ) (first second : Option (α × List Char)) : Prop :=
  ∀ x ∈ first, ∀ y ∈ second, view x.1 = view y.1 ∧ x.2 = y.2

namespace Concur

variable {α β γ δ : Type} {view : α → γ} {goal : β → δ} {first second : Option (α × List Char)}

theorem refl (reading : Option (α × List Char)) : Concur view reading reading := by
  intro x one y two
  cases Option.some.inj (one.symm.trans two)
  exact ⟨rfl, rfl⟩

theorem bind {f g : α × List Char → Option (β × List Char)} (concur : Concur view first second)
    (next : ∀ x y rest, view x = view y → Concur goal (f (x, rest)) (g (y, rest))) :
    Concur goal (first.bind f) (second.bind g) := by
  intro x found y read
  obtain ⟨⟨a, rest⟩, one, found⟩ := Option.bind_eq_some_iff.mp found
  obtain ⟨⟨b, others⟩, two, read⟩ := Option.bind_eq_some_iff.mp read
  obtain ⟨same, rfl⟩ : view a = view b ∧ rest = others := concur _ one _ two
  exact next a b rest same x found y read

/-- Behind one and the same reading. -/
theorem bind_right (reading : Option (α × List Char))
    {f g : α × List Char → Option (β × List Char)}
    (next : ∀ x rest, Concur goal (f (x, rest)) (g (x, rest))) :
    Concur goal (reading.bind f) (reading.bind g) := by
  have same : Concur id reading reading := refl reading
  refine same.bind fun x y rest equal => ?_
  cases equal
  exact next x rest

theorem both {x y : β} (same : goal x = goal y) (rest : List Char) :
    Concur goal (some (x, rest)) (some (y, rest)) := by
  rintro _ ⟨⟩ _ ⟨⟩
  exact ⟨same, rfl⟩

theorem map {f : α → β} (concur : Concur view first second)
    (keeps : ∀ x y, view x = view y → goal (f x) = goal (f y)) :
    Concur goal (first.map fun (x, rest) => (f x, rest))
      (second.map fun (x, rest) => (f x, rest)) := by
  rw [Option.map_eq_bind, Option.map_eq_bind]
  exact concur.bind fun x y rest same => .both (keeps x y same) rest

end Concur

variable {rule other : NumberRule}

theorem readMagnitude?_concur (negative : Bool) (cs : List Char) :
    Concur outline (readMagnitude? rule negative cs) (readMagnitude? other negative cs) := by
  unfold readMagnitude?
  refine Concur.bind_right _ fun whole afterWhole => ?_
  refine Concur.bind_right _ fun fraction afterFraction => ?_
  refine Concur.bind_right _ fun power rest => ?_
  intro x found y read
  obtain ⟨value, -, one⟩ := Option.bind_eq_some_iff.mp found
  obtain ⟨another, -, two⟩ := Option.bind_eq_some_iff.mp read
  cases one
  cases two
  exact ⟨rfl, rfl⟩

theorem readNumber?_concur (cs : List Char) :
    Concur outline (readNumber? rule cs) (readNumber? other cs) := by
  rw [readNumber?.eq_def, readNumber?.eq_def]
  split
  · exact readMagnitude?_concur true _
  · exact readMagnitude?_concur false _

mutual

theorem readValue?_concur (fuel room : ℕ) (cs : List Char) :
    Concur outline (readValue? rule fuel room cs) (readValue? other fuel room cs) := by
  cases fuel with
  | zero => exact Concur.refl none
  | succ fuel =>
    rw [readValue?, readValue?]
    split
    case h_5 rest _ =>
      split
      · exact Concur.refl none
      · split
        · exact Concur.refl _
        · exact (readItems?_concur fuel (room - 1) rest).map fun items others same => by
            rw [outline_array, outline_array, same]
    case h_6 rest _ =>
      split
      · exact Concur.refl none
      · split
        · exact Concur.refl _
        · exact (readMembers?_concur fuel (room - 1) rest).map fun members others same => by
            rw [outline_object, outline_object, same]
    case h_7 => exact readNumber?_concur _
    all_goals exact Concur.refl _

theorem readItems?_concur (fuel room : ℕ) (cs : List Char) :
    Concur (List.map outline) (readItems? rule fuel room cs) (readItems? other fuel room cs) := by
  cases fuel with
  | zero => exact Concur.refl none
  | succ fuel =>
    rw [readItems?, readItems?]
    refine (readValue?_concur fuel room cs).bind fun item another afterItem same => ?_
    dsimp only
    split
    · refine (readItems?_concur fuel room _).bind fun items others after alike => ?_
      exact .both (by rw [List.map_cons, List.map_cons, same, alike]) after
    · exact .both (by rw [List.map_singleton, List.map_singleton, same]) _
    · exact Concur.refl none

theorem readMembers?_concur (fuel room : ℕ) (cs : List Char) :
    Concur (List.map outlineMember) (readMembers? rule fuel room cs)
      (readMembers? other fuel room cs) := by
  cases fuel with
  | zero => exact Concur.refl none
  | succ fuel =>
    rw [readMembers?, readMembers?]
    split
    · refine Concur.bind_right _ fun name afterName => ?_
      dsimp only
      split
      · refine (readValue?_concur fuel room _).bind fun value another afterValue same => ?_
        have first : outlineMember (name, value) = outlineMember (name, another) :=
          congrArg (name, ·) same
        dsimp only
        split
        · refine (readMembers?_concur fuel room _).bind fun members others after alike => ?_
          exact .both (by rw [List.map_cons, List.map_cons, first, alike]) after
        · exact .both (by rw [List.map_singleton, List.map_singleton, first]) _
        · exact Concur.refl none
      · exact Concur.refl none
    · exact Concur.refl none

end

/-- Two rules under which a text is read give it values of one outline. -/
theorem outline_eq_of_readUnder? {text : String} {value another : Json}
    (first : readUnder? rule text = some value) (second : readUnder? other text = some another) :
    outline value = outline another := by
  obtain ⟨⟨x, rest⟩, one, found⟩ := Option.bind_eq_some_iff.mp first
  obtain ⟨⟨y, others⟩, two, read⟩ := Option.bind_eq_some_iff.mp second
  have same : outline x = outline y := (readValue?_concur _ _ _ _ one _ two).1
  dsimp only at found read
  split at found
  case isFalse => cases found
  split at read
  case isFalse => cases read
  cases found
  cases read
  exact same

end DecisionTree.Json
