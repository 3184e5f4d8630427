import DecisionTree.Proofs.Tree.Relevance

/-!
Branches that are not taken have no say. Nodes are told by their places, since equal nodes can stand
at several places of a tree. The walk looks at a node it visits and at the predicates of its
children; so whatever stands at places that are not visited may be replaced, with everything below,
as long as the predicates stay, and the answer is the same.
-/

namespace DecisionTree

namespace Node

/-- The node at a place, which is given by the numbers of the children on the way down. -/
def at? (node : Node) : List Nat → Option Node
  | [] => some node
  | index :: place => node.children[index]?.bind fun child => child.at? place

/-- The tree with another node, and everything below it, at a place. -/
def replaceAt (node : Node) (place : List Nat) (other : Node) : Node :=
  match place with
  | [] => other
  | index :: place =>
    { node with children := node.children.modify index fun child => child.replaceAt place other }

/-- The places that the walk from a node visits. -/
inductive Visits (split : Split) (record : Record) : Node → List Nat → Prop
  | here (node : Node) : Visits split record node []
  | enter {node child : Node} {place : List Nat}
      (enters : node.Steps split record (.ok (.enter child)))
      (rest : Visits split record child place) :
      Visits split record node (node.children.findIdx (holds record) :: place)

/-- Trees that differ only off the places visited. There a node may be replaced by another one with the
same predicate, and with anything below it. -/
inductive ReplacedOff : (List Nat → Prop) → Node → Node → Prop
  | replaced {visited : List Nat → Prop} {node other : Node} (free : ¬visited [])
      (predicate : other.predicate = node.predicate) : ReplacedOff visited node other
  | kept {visited : List Nat → Prop} (node : Node) {children : List Node}
      (length : children.length = node.children.length)
      (each : ∀ index child other, node.children[index]? = some child →
        children[index]? = some other →
        ReplacedOff (fun place => visited (index :: place)) child other) :
      ReplacedOff visited node { node with children }

variable {split : Split} {record : Record} {root node child other last : Node} {above : List Node}
  {place : List Nat} {index : Nat} {visited fewer : List Nat → Prop}

namespace ReplacedOff

private theorem predicate_eq (replaced : node.ReplacedOff visited other) :
    other.predicate = node.predicate := by
  cases replaced with
  | replaced _ predicate => exact predicate
  | kept => rfl

theorem mono (replaced : node.ReplacedOff visited other)
    (included : ∀ place, fewer place → visited place) : node.ReplacedOff fewer other := by
  induction replaced generalizing fewer with
  | replaced free predicate => exact .replaced (fun here => free (included [] here)) predicate
  | kept node length _ ih =>
    refine .kept node length fun index child other first second => ?_
    exact ih index child other first second fun place => included (index :: place)

theorem refl (visited : List Nat → Prop) (node : Node) : node.ReplacedOff visited node := by
  induction node using Node.induction generalizing visited with
  | parent node ih =>
    obtain ⟨id, predicate, score, recordCount, distributions, children⟩ := node
    refine .kept ⟨id, predicate, score, recordCount, distributions, children⟩ rfl ?_
    intro index child other first second
    obtain rfl : child = other := Option.some.inj (first.symm.trans second)
    exact ih child (List.mem_of_getElem? first) _

/-- A visited node keeps all but its children, and these keep their predicates. -/
theorem exists_children (replaced : node.ReplacedOff visited other) (here : visited []) :
    ∃ children : List Node, other = { node with children } ∧
      children.map Node.predicate = node.children.map Node.predicate ∧
      ∀ index child twin, node.children[index]? = some child → children[index]? = some twin →
        ReplacedOff (fun place => visited (index :: place)) child twin := by
  cases replaced with
  | replaced free => exact absurd here free
  | @kept _ _ children length each =>
    refine ⟨children, rfl, ?_, each⟩
    refine List.ext_getElem (by simpa using length) fun index first second => ?_
    rw [List.length_map] at first second
    simp only [List.getElem_map]
    exact (each index _ _ (List.getElem?_eq_getElem second)
      (List.getElem?_eq_getElem first)).predicate_eq

/-- One node at a place that is not visited may be replaced. -/
theorem of_replaceAt (free : ¬visited place) (found : root.at? place = some node)
    (predicate : other.predicate = node.predicate) :
    root.ReplacedOff visited (root.replaceAt place other) := by
  induction place generalizing root visited with
  | nil =>
    obtain rfl : root = node := Option.some.inj found
    exact .replaced free predicate
  | cons index place ih =>
    obtain ⟨top, first', below⟩ := Option.bind_eq_some_iff.mp found
    refine .kept root (List.length_modify ..) fun number child twin first second => ?_
    rw [List.getElem?_modify, first] at second
    split at second
    next same =>
      subst same
      obtain rfl : top = child := Option.some.inj (first'.symm.trans first)
      cases second
      exact ih free below
    next =>
      cases second
      exact .refl _ child

end ReplacedOff

theorem walk_of_replacedOff (replaced : root.ReplacedOff (Visits split record root) other) :
    SameWalk (root.walk split record) (other.walk split record) := by
  induction root using Node.induction generalizing other with
  | parent root ih =>
    obtain ⟨children, rfl, predicates, each⟩ := replaced.exists_children (.here root)
    have resembles : root.Resembles { root with children } := ⟨rfl, rfl, rfl⟩
    have tests : children.map (·.predicate.evaluate record) =
        root.children.map (·.predicate.evaluate record) := by
      have same := congrArg (List.map (Predicate.evaluate record)) predicates
      rwa [List.map_map, List.map_map] at same
    have same : SameStep record root { root with children } (root.step split record)
        (step split record { root with children }) := sameStep_of_tests resembles.label tests
    rw [walk_eq_step, walk_eq_step]
    generalize outcome : root.step split record = first at same ⊢
    generalize step split record { root with children } = second at same ⊢
    cases same with
    | error error => exact .error error
    | stop stop => exact .ok (resembles.here stop)
    | @enter child twin first second =>
      have enters := step_eq_iff.mp outcome
      -- what the walk visits from the child on, it visits from the root
      have below := (each _ child twin first second).mono fun place visits =>
        Visits.enter enters visits
      exact (ih child enters.child_mem below).below resembles.label

private theorem Steps.getElem?_eq (enters : node.Steps split record (.ok (.enter child))) :
    node.children[node.children.findIdx (holds record)]? = some child := by
  rw [← List.find?_eq_getElem?_findIdx, enters.find?_eq]

theorem visits_cons_iff (enters : node.Steps split record (.ok (.enter child))) :
    Visits split record node (index :: place) ↔
      index = node.children.findIdx (holds record) ∧ Visits split record child place := by
  constructor
  · intro visits
    cases visits with
    | enter again rest =>
      cases enters.unique again
      exact ⟨rfl, rest⟩
  · rintro ⟨rfl, rest⟩
    exact .enter enters rest

private theorem Visits.eq_nil_of_stop {stop : Stop} (visits : Visits split record node place)
    (stops : node.Steps split record (.ok (.stop stop))) : place = [] := by
  cases visits with
  | here => rfl
  | enter enters => cases enters.unique stops

/-- The node at an index of a path is the one at the visited place of that length. -/
theorem Leads.getElem?_path {stop : Stop} (leads : Leads split record root above last)
    (stops : last.Steps split record (.ok (.stop stop))) :
    (above ++ [last])[index]? = some node ↔
      ∃ place, place.length = index ∧ Visits split record root place ∧
        root.at? place = some node := by
  induction leads generalizing index with
  | here root =>
    constructor
    · intro found
      cases index with
      | zero => exact ⟨[], rfl, .here root, found⟩
      | succ => cases found
    · rintro ⟨place, rfl, visits, found⟩
      rw [visits.eq_nil_of_stop stops] at found ⊢
      exact found
  | @enter root child last above enters _ ih =>
    have children := enters.getElem?_eq
    cases index with
    | zero =>
      constructor
      · exact fun found => ⟨[], rfl, .here root, found⟩
      · rintro ⟨place, empty, _, found⟩
        rw [List.length_eq_zero_iff.mp empty] at found
        exact found
    | succ index =>
      refine (ih stops).trans ?_
      constructor
      · rintro ⟨place, rfl, visits, found⟩
        exact ⟨_, rfl, .enter enters visits, by rw [at?, children]; exact found⟩
      · rintro ⟨_ | ⟨first, place⟩, long, visits, found⟩
        · cases long
        · obtain ⟨rfl, rest⟩ := (visits_cons_iff enters).mp visits
          rw [at?, children] at found
          exact ⟨place, Nat.succ.inj long, rest, found⟩

/-- Whatever is replaced at places that are not visited, one node or many at once, the value, the
confidence and the labels are the same, or the error is. The visited places are those of the nodes on
the path of a prediction, one for each level. -/
theorem predict_unvisited (root : Node) (split : Split) (strategies : Strategies)
    (record : Record) :
    (∀ place node other, ¬Visits split record root place → root.at? place = some node →
      other.predicate = node.predicate →
      SameAnswer (root.predict split strategies record)
        ((root.replaceAt place other).predict split strategies record)) ∧
    (∀ other, root.ReplacedOff (Visits split record root) other →
      SameAnswer (root.predict split strategies record)
        (other.predict split strategies record)) ∧
    ∀ prediction, root.predict split strategies record = .ok prediction → ∀ index node,
      prediction.path[index]? = some node ↔
        ∃ place, place.length = index ∧ Visits split record root place ∧
          root.at? place = some node := by
  have answers (other : Node) (replaced : root.ReplacedOff (Visits split record root) other) :
      SameAnswer (root.predict split strategies record)
        (other.predict split strategies record) :=
    (walk_of_replacedOff replaced).predict strategies
  refine ⟨?_, answers, ?_⟩
  · intro place node other free found predicate
    exact answers _ (.of_replaceAt free found predicate)
  · intro prediction predicted index node
    obtain ⟨walk, walked, concluded⟩ := predict_eq_ok_iff.mp predicted
    obtain ⟨leads, stops⟩ := walk_eq_ok_iff.mp walked
    have path : prediction.path = walk.above ++ [walk.last] := Walk.path_of_conclude concluded
    rw [path]
    exact leads.getElem?_path stops

/-- A branch for other days on which there is a test that a strong wind fails. -/
def dryBranch : Node where
  id := some "dry"
  predicate := .compare "outlook" .notEqual (some "rain")
  children := [{ predicate := .compare "wind" .lessThan (some "8"), score := some "go" }]

theorem predict_unvisited_outing :
    ¬Visits .binary rainy outing [1] ∧
    outing.at? [1] =
      some { predicate := .compare "outlook" .notEqual (some "rain"), score := some "go" } ∧
    SameAnswer (outing.predict .binary {} rainy)
      ((outing.replaceAt [1] dryBranch).predict .binary {} rainy) := by
  have enters : outing.Steps .binary rainy (.ok (.enter _)) := step_eq_iff.mp rfl
  have free : ¬Visits .binary rainy outing [1] := by
    intro visits
    cases ((visits_cons_iff enters).mp visits).1
  have found : outing.at? [1] =
      some { predicate := .compare "outlook" .notEqual (some "rain"), score := some "go" } := rfl
  exact ⟨free, found, (predict_unvisited outing .binary {} rainy).1 [1] _ _ free found rfl⟩

end Node
end DecisionTree
