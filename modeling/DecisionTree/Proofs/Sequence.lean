import Mathlib.Data.List.Forall2

namespace DecisionTree.Sequence

variable {α β γ ε : Type} {f : α → Except ε β} {x : α} {xs : List α} {ys : List β}

/-- Nothing in a list has a property, or one is the first to have it. -/
theorem none_or_first (property : α → Prop) (xs : List α) :
    (∀ x ∈ xs, ¬property x) ∨
      ∃ before x after, xs = before ++ x :: after ∧ (∀ x ∈ before, ¬property x) ∧ property x := by
  induction xs with
  | nil => exact .inl fun _ absent => nomatch absent
  | cons first rest ih =>
    by_cases here : property first
    · exact .inr ⟨[], first, rest, rfl, fun _ absent => (nomatch absent), here⟩
    · rcases ih with none | ⟨before, x, after, rfl, earlier, later⟩
      · exact .inl (List.forall_mem_cons.mpr ⟨here, none⟩)
      · exact .inr ⟨first :: before, x, after, rfl, List.forall_mem_cons.mpr ⟨here, earlier⟩, later⟩

theorem map_eq_ok_iff {result : Except ε α} {change : α → β} {y : β} :
    result.map change = .ok y ↔ ∃ x, result = .ok x ∧ change x = y := by
  cases result <;> simp [Except.map]

theorem map_eq_error_iff {result : Except ε α} {change : α → β} {error : ε} :
    result.map change = .error error ↔ result = .error error := by
  cases result <;> simp [Except.map]

theorem map_inj {change : α → β} (injective : Function.Injective change)
    {first second : Except ε α} : first.map change = second.map change ↔ first = second := by
  cases first <;> cases second <;> simp [Except.map, injective.eq_iff]

theorem mem_toOption_iff {result : Except ε α} {x : α} :
    x ∈ result.toOption ↔ result = .ok x := by
  cases result <;> simp [Except.toOption]

theorem bind_eq_ok_iff {result : Except ε α} {next : α → Except ε β} {y : β} :
    (result >>= next) = .ok y ↔ ∃ x, result = .ok x ∧ next x = .ok y := by
  cases result <;> simp [bind, Except.bind]

theorem bind_eq_error_iff {result : Except ε α} {next : α → Except ε β} {error : ε} :
    (result >>= next) = .error error ↔
      result = .error error ∨ ∃ x, result = .ok x ∧ next x = .error error := by
  cases result <;> simp [bind, Except.bind]

theorem mapError_eq_ok_iff {δ : Type} {result : Except ε α} {change : ε → δ} {x : α} :
    result.mapError change = .ok x ↔ result = .ok x := by
  cases result <;> simp [Except.mapError]

theorem mapError_eq_error_iff {δ : Type} {result : Except ε α} {change : ε → δ} {error : δ} :
    result.mapError change = .error error ↔
      ∃ cause, result = .error cause ∧ change cause = error := by
  cases result <;> simp [Except.mapError]

/-- Results that are the same after a change stay so through further steps if each step keeps
this. -/
theorem map_bind_congr {δ : Type} {first second : Except ε α} {next other : α → Except ε β}
    {change : α → γ} {changed : β → δ} (same : first.map change = second.map change)
    (later : ∀ x y, change x = change y → (next x).map changed = (other y).map changed) :
    (first >>= next).map changed = (second >>= other).map changed := by
  cases first with
  | error =>
    cases second with
    | error =>
      cases same
      rfl
    | ok => cases same
  | ok x =>
    cases second with
    | error => cases same
    | ok y => exact later x y (Except.ok.inj same)

theorem map_bind_congr_right {result : Except ε α} {next other : α → Except ε β}
    {changed : β → γ} (later : ∀ x, (next x).map changed = (other x).map changed) :
    (result >>= next).map changed = (result >>= other).map changed := by
  cases result with
  | error => rfl
  | ok x => exact later x

/-- Results that are the same up to their errors stay so through steps that keep this. -/
theorem mapError_bind_congr {δ : Type} {first second : Except ε α} {next other : α → Except ε β}
    {change : ε → δ} (same : first.mapError change = second.mapError change)
    (later : ∀ x, (next x).mapError change = (other x).mapError change) :
    (first >>= next).mapError change = (second >>= other).mapError change := by
  cases first with
  | error =>
    cases second with
    | error => exact congrArg Except.error (Except.error.inj same)
    | ok => cases same
  | ok x =>
    cases second with
    | error => cases same
    | ok y =>
      cases same
      exact later x

theorem mapError_map_congr {δ : Type} {first second : Except ε α} {change : ε → δ}
    (same : first.mapError change = second.mapError change) (f : α → β) :
    (first.map f).mapError change = (second.map f).mapError change :=
  mapError_bind_congr same fun _ => rfl

theorem none_or_some_of_map_eq {change : α → γ} {other : β → γ} {first : Option α}
    {second : Option β} (same : first.map change = second.map other) :
    (first = none ∧ second = none) ∨
      ∃ x y, first = some x ∧ second = some y ∧ change x = other y := by
  cases first <;> cases second <;> simp_all

theorem mapM_cons_of_error {error : ε} (failure : f x = .error error) :
    (x :: xs).mapM f = .error error := by
  rw [List.mapM_cons, failure]
  rfl

theorem mapM_cons_of_ok {y : β} (success : f x = .ok y) :
    (x :: xs).mapM f = (xs.mapM f).map (y :: ·) := by
  rw [List.mapM_cons, success]
  cases xs.mapM f <;> rfl

theorem mapM_cons_eq_ok_iff :
    (x :: xs).mapM f = .ok ys ↔ ∃ y rest, f x = .ok y ∧ xs.mapM f = .ok rest ∧ y :: rest = ys := by
  cases outcome : f x with
  | error error => simp [mapM_cons_of_error outcome]
  | ok y => simp [mapM_cons_of_ok outcome, map_eq_ok_iff]

/-- A traversal succeeds with the results of the elements. -/
theorem mapM_eq_ok_iff : xs.mapM f = .ok ys ↔ xs.map f = ys.map .ok := by
  induction xs generalizing ys with
  | nil => cases ys <;> simp [pure, Except.pure]
  | cons x xs ih =>
    cases outcome : f x with
    | error error =>
      rw [mapM_cons_of_error outcome]
      cases ys <;> simp [outcome]
    | ok y =>
      rw [mapM_cons_of_ok outcome]
      cases rest : xs.mapM f with
      | error error =>
        have differs (ys : List β) : xs.map f ≠ ys.map .ok := fun same => by
          rw [ih.mpr same] at rest
          cases rest
        cases ys with
        | nil => simp [Except.map]
        | cons head tail => simp [Except.map, differs tail]
      | ok results =>
        have same : xs.map f = results.map .ok := ih.mp rest
        have injective : Function.Injective (Except.ok : β → Except ε β) := fun _ _ => Except.ok.inj
        cases ys with
        | nil => simp [Except.map]
        | cons head tail =>
          have tails := (List.map_injective_iff.mpr injective).eq_iff (a := results) (b := tail)
          simp [Except.map, outcome, same, tails]

theorem length_of_mapM_eq_ok (success : xs.mapM f = .ok ys) : ys.length = xs.length := by
  simpa using (congrArg List.length (mapM_eq_ok_iff.mp success)).symm

theorem mapM_error_complete {error : ε} {before after : List α}
    (fine : ∀ earlier ∈ before, ∃ y, f earlier = .ok y) (failure : f x = .error error) :
    (before ++ x :: after).mapM f = .error error := by
  induction before with
  | nil => exact mapM_cons_of_error failure
  | cons head before ih =>
    obtain ⟨y, success⟩ := fine head (by simp)
    have later := ih fun earlier member => fine earlier (by simp [member])
    rw [List.cons_append, mapM_cons_of_ok success, later]
    rfl

theorem mapM_error_sound {error : ε} (failed : xs.mapM f = .error error) :
    ∃ before x after, xs = before ++ x :: after ∧
      (∀ earlier ∈ before, ∃ y, f earlier = .ok y) ∧ f x = .error error := by
  induction xs with
  | nil => cases failed
  | cons head tail ih =>
    cases outcome : f head with
    | error first =>
      rw [mapM_cons_of_error outcome] at failed
      cases failed
      exact ⟨[], head, tail, rfl, by simp, outcome⟩
    | ok y =>
      rw [mapM_cons_of_ok outcome] at failed
      cases rest : tail.mapM f with
      | ok results => simp [rest, Except.map] at failed
      | error later =>
        rw [rest] at failed
        cases failed
        obtain ⟨before, x, after, rfl, fine, failure⟩ := ih rest
        refine ⟨head :: before, x, after, rfl, ?_, failure⟩
        exact List.forall_mem_cons.mpr ⟨⟨y, outcome⟩, fine⟩

/-- A traversal fails with the error of the first element that fails. -/
theorem mapM_eq_error_iff {error : ε} :
    xs.mapM f = .error error ↔ ∃ before x after, xs = before ++ x :: after ∧
      (∀ earlier ∈ before, ∃ y, f earlier = .ok y) ∧ f x = .error error := by
  constructor
  · exact mapM_error_sound
  · rintro ⟨before, x, after, rfl, fine, failure⟩
    exact mapM_error_complete fine failure

theorem mapM_isOk_iff : (∃ ys, xs.mapM f = .ok ys) ↔ ∀ x ∈ xs, ∃ y, f x = .ok y := by
  constructor
  · rintro ⟨ys, success⟩ x member
    have image : f x ∈ ys.map .ok := mapM_eq_ok_iff.mp success ▸ List.mem_map_of_mem member
    obtain ⟨y, _, same⟩ := List.mem_map.mp image
    exact ⟨y, same.symm⟩
  · intro fine
    cases outcome : xs.mapM f with
    | ok ys => exact ⟨ys, rfl⟩
    | error error =>
      obtain ⟨before, x, after, rfl, _, failure⟩ := mapM_eq_error_iff.mp outcome
      obtain ⟨y, success⟩ := fine x (by simp)
      rw [success] at failure
      cases failure

/-- A traversal in another order gives the same results in another order, if it succeeds. -/
theorem mapM_perm {others : List α} (order : xs.Perm others) (success : xs.mapM f = .ok ys) :
    ∃ zs, others.mapM f = .ok zs ∧ ys.Perm zs := by
  induction order generalizing ys with
  | nil => exact ⟨ys, success, .refl ys⟩
  | cons x _ ih =>
    obtain ⟨y, rest, head, tail, rfl⟩ := mapM_cons_eq_ok_iff.mp success
    obtain ⟨zs, later, same⟩ := ih tail
    exact ⟨y :: zs, mapM_cons_eq_ok_iff.mpr ⟨y, zs, head, later, rfl⟩, same.cons y⟩
  | swap x' x =>
    obtain ⟨y, _, head, both, rfl⟩ := mapM_cons_eq_ok_iff.mp success
    obtain ⟨y', rest, next, tail, rfl⟩ := mapM_cons_eq_ok_iff.mp both
    refine ⟨y' :: y :: rest, ?_, .swap y' y rest⟩
    exact mapM_cons_eq_ok_iff.mpr
      ⟨y', y :: rest, next, mapM_cons_eq_ok_iff.mpr ⟨y, rest, head, tail, rfl⟩, rfl⟩
  | trans _ _ first second =>
    obtain ⟨zs, middle, same⟩ := first success
    obtain ⟨ws, last, same'⟩ := second middle
    exact ⟨ws, last, same.trans same'⟩

theorem fails_iff {result : Except ε α} :
    (∃ error, result = .error error) ↔ ¬∃ x, result = .ok x := by
  cases result <;> simp

theorem mapM_fails_iff :
    (∃ error, xs.mapM f = .error error) ↔ ∃ x ∈ xs, ∃ error, f x = .error error := by
  simp only [fails_iff, mapM_isOk_iff, not_forall, exists_prop]

/-- Two traversals of one list give related results if their functions do on every element. -/
theorem mapM_related {g : α → Except ε γ} {related : β → γ → Prop} {zs : List γ}
    (each : ∀ x ∈ xs, ∀ y z, f x = .ok y → g x = .ok z → related y z)
    (first : xs.mapM f = .ok ys) (second : xs.mapM g = .ok zs) :
    List.Forall₂ related ys zs := by
  rw [mapM_eq_ok_iff] at first second
  induction xs generalizing ys zs with
  | nil =>
    cases ys <;> cases zs <;> simp_all
  | cons x xs ih =>
    cases ys with
    | nil => simp at first
    | cons y ys =>
      cases zs with
      | nil => simp at second
      | cons z zs =>
        simp only [List.map_cons, List.cons.injEq] at first second
        refine .cons (each x (by simp) y z first.1 second.1) ?_
        exact ih (fun x member => each x (by simp [member])) first.2 second.2

/-- A function that changes every result the same way changes the results of the traversal so. -/
theorem mapM_of_map {g : α → Except ε γ} {change : β → γ}
    (each : ∀ x ∈ xs, g x = (f x).map change) :
    xs.mapM g = (xs.mapM f).map (List.map change) := by
  induction xs with
  | nil => rfl
  | cons x xs ih =>
    have head := each x (by simp)
    have tail := ih fun x member => each x (by simp [member])
    cases outcome : f x with
    | error error =>
      rw [outcome] at head
      rw [mapM_cons_of_error outcome, mapM_cons_of_error (f := g) head]
      rfl
    | ok y =>
      rw [outcome] at head
      rw [mapM_cons_of_ok outcome, mapM_cons_of_ok (f := g) head, tail]
      cases xs.mapM f <;> rfl

/-- Each element of a list has its counterpart in a list that is related to it. -/
theorem exists_of_forall₂ {related : α → β → Prop} (each : List.Forall₂ related xs ys)
    (member : x ∈ xs) : ∃ y ∈ ys, related x y := by
  induction each with
  | nil => cases member
  | @cons first second _ _ pair _ ih =>
    rcases List.mem_cons.mp member with rfl | later
    · exact ⟨second, List.mem_cons_self, pair⟩
    · obtain ⟨y, found, pair⟩ := ih later
      exact ⟨y, List.mem_cons_of_mem second found, pair⟩

theorem mapM_append_eq_ok_iff {more : List α} :
    (xs ++ more).mapM f = .ok ys ↔
      ∃ front back, xs.mapM f = .ok front ∧ more.mapM f = .ok back ∧ front ++ back = ys := by
  simp only [mapM_eq_ok_iff, List.map_append]
  constructor
  · intro same
    obtain ⟨front, back, rfl, first, second⟩ := List.append_eq_map_iff.mp same
    exact ⟨front, back, first.symm, second.symm, rfl⟩
  · rintro ⟨front, back, first, second, rfl⟩
    rw [first, second, List.map_append]

theorem mapM_append_eq_error_iff {error : ε} {more : List α} :
    (xs ++ more).mapM f = .error error ↔
      xs.mapM f = .error error ∨ (∃ ys, xs.mapM f = .ok ys) ∧ more.mapM f = .error error := by
  induction xs with
  | nil => simp [pure, Except.pure]
  | cons x xs ih =>
    rw [List.cons_append]
    cases outcome : f x with
    | error first => simp [mapM_cons_of_error outcome]
    | ok y =>
      rw [mapM_cons_of_ok outcome, mapM_cons_of_ok outcome, map_eq_error_iff, map_eq_error_iff, ih]
      simp [map_eq_ok_iff]

theorem isOk_iff_of_error_iff {first : Except ε α} {second : Except ε β}
    (same : ∀ error, first = .error error ↔ second = .error error) :
    (∃ x, first = .ok x) ↔ ∃ y, second = .ok y := by
  cases first <;> cases second <;> simp_all

/-- Where every element stands for several that fail together as it does, the traversal of all those
fails as that of the elements. -/
theorem mapM_flatMap_eq_error_iff {δ : Type} {expand : α → List γ} {g : γ → Except ε δ} {error : ε}
    (each : ∀ x ∈ xs, ∀ error, f x = .error error ↔ (expand x).mapM g = .error error) :
    xs.mapM f = .error error ↔ (xs.flatMap expand).mapM g = .error error := by
  induction xs with
  | nil => simp [pure, Except.pure]
  | cons x xs ih =>
    obtain ⟨head, tail⟩ := List.forall_mem_cons.mp each
    rw [List.flatMap_cons, mapM_append_eq_error_iff, ← isOk_iff_of_error_iff head, ← head, ← ih tail]
    cases outcome : f x with
    | error first => simp [mapM_cons_of_error outcome]
    | ok y => simp [mapM_cons_of_ok outcome, map_eq_error_iff]

/-- Behind what was there before come the results of the elements of a kind, in order. -/
def Gathers (kind : α → Bool) (f : α → Except ε β) (before after : List β) (xs : List α) : Prop :=
  ∃ ys, (xs.filter kind).mapM f = .ok ys ∧ before ++ ys = after

namespace Gathers

variable {kind : α → Bool} {before after : List β}

theorem nil_iff : Gathers kind f before after [] ↔ before = after := by
  constructor
  · rintro ⟨ys, none, same⟩
    cases none
    simpa using same
  · rintro rfl
    exact ⟨[], rfl, by simp⟩

theorem from_nil_iff : Gathers kind f [] ys xs ↔ (xs.filter kind).mapM f = .ok ys := by
  simp [Gathers]

theorem cons_of_neg (other : kind x = false) :
    Gathers kind f before after (x :: xs) ↔ Gathers kind f before after xs := by
  unfold Gathers
  rw [List.filter_cons_of_neg (by simp [other])]

theorem cons_of_pos (chosen : kind x = true) :
    Gathers kind f before after (x :: xs) ↔
      ∃ y, f x = .ok y ∧ Gathers kind f (before ++ [y]) after xs := by
  unfold Gathers
  rw [List.filter_cons_of_pos chosen]
  simp only [mapM_cons_eq_ok_iff]
  constructor
  · rintro ⟨_, ⟨y, rest, head, tail, rfl⟩, same⟩
    exact ⟨y, head, rest, tail, by simpa using same⟩
  · rintro ⟨y, head, rest, tail, same⟩
    exact ⟨y :: rest, ⟨y, rest, head, tail, rfl⟩, by simpa using same⟩

variable {held final : Option β}

theorem nil_option_iff : Gathers kind f held.toList final.toList [] ↔ held = final := by
  rw [nil_iff]
  cases held <;> cases final <;> simp

theorem cons_option_of_pos (chosen : kind x = true) :
    Gathers kind f held.toList final.toList (x :: xs) ↔
      held = none ∧ ∃ y, f x = .ok y ∧ Gathers kind f (some y).toList final.toList xs := by
  rw [cons_of_pos chosen]
  cases held with
  | none => simp
  | some earlier =>
    -- two results do not fit into an option
    have tooMany (y : β) : ¬Gathers kind f ((some earlier).toList ++ [y]) final.toList xs := by
      rintro ⟨ys, -, same⟩
      cases final <;> simp at same
    simp only [tooMany, and_false, exists_false, reduceCtorEq, false_and]

end Gathers

end DecisionTree.Sequence
