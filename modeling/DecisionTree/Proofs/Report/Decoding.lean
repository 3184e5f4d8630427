import DecisionTree.Proofs.Json.Reading
import DecisionTree.Report.Prediction

/-!
A prediction in JSON says all of it: in one line, and whoever decodes the line has the value, the
confidence and the nodes of the path as they were predicted. Numbers come back as the same doubles,
since they are written with the fewest digits that read back.
-/

namespace DecisionTree

namespace Json

/-- What a double is decoded from: the same number, or nothing if it is not finite. -/
def DecodesTo (decoded : Json) (x : Float) : Prop :=
  if finite : x.isFinite = true then decoded = .number ⟨x, finite⟩ else decoded = .null

/-- Without a double there is nothing to decode. -/
def DecodesTo? (decoded : Json) : Option Float → Prop
  | some x => decoded.DecodesTo x
  | none => decoded = .null

theorem decodesTo_ofFloat (x : Float) : (ofFloat x).DecodesTo x := by
  by_cases finite : x.isFinite = true
  · rw [DecodesTo, dif_pos finite, ofFloat, FiniteFloat.of?, dif_pos finite]
  · rw [DecodesTo, dif_neg finite, ofFloat, FiniteFloat.of?, dif_neg finite]

private theorem decodesTo?_ofFloat? (x : Option Float) : (ofFloat? x).DecodesTo? x := by
  cases x with
  | none => rfl
  | some x => exact decodesTo_ofFloat x

theorem levels_ofText? (content : Option String) : levels (ofText? content) = 0 := by
  cases content <;> rfl

private theorem levels_ofFloat? (x : Option Float) : levels (ofFloat? x) = 0 := by
  cases x with
  | none => rfl
  | some x => exact levels_ofFloat x

end Json

namespace Report

open Json (levels)

/-- What a node on the path is decoded from. -/
def EntryOf (node : Node) (entry : Json) : Prop :=
  ∃ count, entry = .object [("id", Json.ofText? node.id), ("score", Json.ofText? node.score),
    ("record_count", count)] ∧ count.DecodesTo? node.recordCount

private theorem entryOf_stepJson (node : Node) : EntryOf node (stepJson node) :=
  ⟨_, rfl, Json.decodesTo?_ofFloat? node.recordCount⟩

theorem levels_stepJson (node : Node) : levels (stepJson node) = 1 := by
  simp only [stepJson, levels, Json.levelsOfMembers, Json.levels_ofText?, Json.levels_ofFloat?]
  rfl

theorem levels_json (prediction : Prediction) : levels (json prediction) ≤ 3 := by
  have steps : Json.levelsOfItems (prediction.path.map stepJson) ≤ 1 := by
    refine Json.levelsOfItems_le ?_
    rintro _ member
    obtain ⟨node, -, rfl⟩ := List.mem_map.mp member
    exact (levels_stepJson node).le
  simp only [json, levels, Json.levelsOfMembers, Json.levels_ofText?, Json.levels_ofFloat]
  omega

/-- The JSON text of a prediction is one line and decodes to the prediction: the value, the
confidence and an entry for every node of the path, in its order. -/
theorem decode?_json (prediction : Prediction) :
    ('\n' ∉ (json prediction).text.toList ∧ '\r' ∉ (json prediction).text.toList) ∧
    ∃ confidence entries,
      Json.decode? (json prediction).text =
        some (.object [("value", Json.ofText? prediction.value), ("confidence", confidence),
          ("path", .array entries)]) ∧
      confidence.DecodesTo prediction.confidence ∧
      List.Forall₂ EntryOf prediction.path entries := by
  constructor
  · have printable := Json.printable_write (json prediction)
    rw [Json.text, String.toList_ofList]
    exact ⟨fun member => absurd (printable '\n' member) (by decide),
      fun member => absurd (printable '\r' member) (by decide)⟩
  · have shallow : levels (json prediction) ≤ Json.deepest :=
      (levels_json prediction).trans (by decide)
    refine ⟨Json.ofFloat prediction.confidence, prediction.path.map stepJson,
      Json.decode?_text shallow, Json.decodesTo_ofFloat _, ?_⟩
    rw [List.forall₂_map_right_iff, List.forall₂_same]
    exact fun node _ => entryOf_stepJson node

end Report
end DecisionTree
