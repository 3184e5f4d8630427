import DecisionTree.Proofs.Number.Notation
import DecisionTree.Report.Prediction

namespace DecisionTree

/-- A number with a set number of places is written with digits, a minus sign and a point, or is
one of the words for what is not finite. -/
theorem Number.mem_fixed {places : ℕ} {x : Float} {c : Char}
    (member : c ∈ (fixed places x).toList) :
    c.isDigit = true ∨ c ∈ "-.NaNinf".toList := by
  have words : "NaN".toList ⊆ "-.NaNinf".toList ∧ "inf".toList ⊆ "-.NaNinf".toList ∧
      "-inf".toList ⊆ "-.NaNinf".toList := by decide
  unfold fixed at member
  split at member
  next => exact .inr (words.1 member)
  next =>
    split at member
    next =>
      split at member
      next => exact .inr (words.2.2 member)
      next => exact .inr (words.2.1 member)
    next =>
      dsimp only at member
      rw [String.toList_ofList] at member
      generalize roundHalfEven _ _ = units at member
      have digits : Decimal.AllDigits (List.replicate (places + 1 - (Nat.toDigits 10 units).length)
          '0' ++ Nat.toDigits 10 units) :=
        (Decimal.allDigits_replicate _).append (Decimal.allDigits_toDigits units)
      generalize List.replicate _ '0' ++ Nat.toDigits 10 units = padded at member digits
      have inside (member : c ∈ if places = 0 then padded else
          padded.take (padded.length - places) ++ '.' :: padded.drop (padded.length - places)) :
          c.isDigit = true ∨ c = '.' := by
        split at member
        next => exact .inl (digits c member)
        next =>
          rcases List.mem_append.mp member with front | back
          · exact .inl (digits c (List.mem_of_mem_take front))
          · rcases List.mem_cons.mp back with point | back
            · exact .inr point
            · exact .inl (digits c (List.mem_of_mem_drop back))
      unfold Decimal.signed at member
      split at member
      next =>
        rcases List.mem_cons.mp member with rfl | member
        · exact .inr (by decide)
        · exact (inside member).imp_right (by rintro rfl; decide)
      next => exact (inside member).imp_right (by rintro rfl; decide)

namespace Report

variable {cs shown alsoShown : List Char} {written other : String}

/-- The escape character. -/
def escape : Char := '\x1b'

/-- The characters of a text behind its escape sequences or, at first, within one. A sequence starts
with the escape character and ends with the next letter m. -/
def visibleFrom : Bool → List Char → List Char
  | _, [] => []
  | true, c :: cs => visibleFrom (c != 'm') cs
  | false, c :: cs => if c = escape then visibleFrom true cs else c :: visibleFrom false cs

/-- A text without its escape sequences. -/
def visible (text : String) : List Char :=
  visibleFrom false text.toList

/-- In front of any other text, too, a text shows these characters. -/
def Shows (text : String) (shown : List Char) : Prop :=
  ∀ rest, visibleFrom false (text.toList ++ rest) = shown ++ visibleFrom false rest

private theorem Shows.visible_eq (sight : Shows written shown) : visible written = shown := by
  have alone := sight []
  rwa [List.append_nil, visibleFrom, List.append_nil] at alone

theorem Shows.append (front : Shows written shown) (back : Shows other alsoShown) :
    Shows (written ++ other) (shown ++ alsoShown) := by
  intro rest
  rw [String.toList_append, List.append_assoc, front, back, List.append_assoc]

private theorem visibleFrom_append (clear : escape ∉ cs) (rest : List Char) :
    visibleFrom false (cs ++ rest) = cs ++ visibleFrom false rest := by
  induction cs with
  | nil => rfl
  | cons c cs ih =>
    obtain ⟨other, clear⟩ := List.ne_and_not_mem_of_not_mem_cons clear
    rw [List.cons_append, visibleFrom, if_neg (Ne.symm other), ih clear, List.cons_append]

theorem shows_of_clear (clear : escape ∉ written.toList) : Shows written written.toList :=
  visibleFrom_append clear

private theorem visibleFrom_within (unended : 'm' ∉ cs) (rest : List Char) :
    visibleFrom true (cs ++ 'm' :: rest) = visibleFrom false rest := by
  induction cs with
  | nil => rfl
  | cons c cs ih =>
    obtain ⟨other, unended⟩ := List.ne_and_not_mem_of_not_mem_cons unended
    rw [List.cons_append, visibleFrom, bne_iff_ne.mpr (Ne.symm other), ih unended]

theorem shows_escapeSequence {number : String} (unended : 'm' ∉ number.toList) :
    Shows (escapeSequence number) [] := by
  intro rest
  have chars : (escapeSequence number).toList ++ rest =
      escape :: (('[' :: number.toList) ++ 'm' :: rest) := by
    simp [escapeSequence, escape]
  rw [chars, visibleFrom, if_pos rfl, visibleFrom_within (by simp [unended]), List.nil_append]

theorem shows_on (style : Style) : Shows style.on [] := by
  cases style <;> exact shows_escapeSequence (by decide)

theorem shows_off (style : Style) : Shows style.off [] := by
  cases style <;> exact shows_escapeSequence (by decide)

/-- A style adds nothing to see. -/
theorem Shows.paint (plain : Shows written shown) (colours : Bool) (style : Style) :
    Shows (paint colours style written) shown := by
  cases colours with
  | false => exact plain
  | true =>
    have painted := ((shows_on style).append plain).append (shows_off style)
    rwa [List.nil_append, List.append_nil] at painted

/-- The texts of a node that a report may show. -/
def textsOf (node : Node) : List String :=
  node.id.toList ++ node.score.toList

def whole (path : List Node) : List Char :=
  List.intercalate " -> ".toList (path.map fun node => (step node).toList)

private theorem toList_joinWith (connector : String) (texts : List String) :
    (Text.joinWith connector texts).toList =
      List.intercalate connector.toList (texts.map String.toList) := by
  induction texts with
  | nil => rfl
  | cons text texts ih =>
    cases texts with
    | nil => simp [Text.joinWith]
    | cons next texts =>
      rw [Text.joinWith, String.toList_append, String.toList_append, ih]
      · simp [List.intercalate_cons_cons]
      · nofun

theorem toList_steps (path : List Node) : (steps path).toList = whole path := by
  rw [steps, toList_joinWith, List.map_map]
  rfl

/-- A step shows texts of its node and, around them, nothing else than brackets or the words for a
node without a name. -/
theorem mem_step {node : Node} {c : Char} (member : c ∈ (step node).toList) :
    (∃ text ∈ textsOf node, c ∈ text.toList) ∨ c ∈ " ()<anonymous>".toList := by
  revert member
  unfold step Node.label textsOf
  cases node.id with
  | none =>
    cases node.score with
    | none => exact fun member => .inr (List.mem_append_right " ()".toList member)
    | some score => exact fun member => .inl ⟨score, List.mem_singleton_self score, member⟩
  | some id =>
    cases node.score with
    | none => exact fun member => .inl ⟨id, List.mem_singleton_self id, member⟩
    | some score =>
      intro member
      have chars : c ∈ (id ++ " (" ++ score ++ ")").toList := member
      have around : " (".toList ⊆ " ()<anonymous>".toList ∧
          ")".toList ⊆ " ()<anonymous>".toList := by decide
      simp only [String.toList_append, List.mem_append] at chars
      rcases chars with ((inId | opening) | inScore) | closing
      · exact .inl ⟨id, List.mem_cons_self, inId⟩
      · exact .inr (around.1 opening)
      · exact .inl ⟨score, List.mem_cons_of_mem id List.mem_cons_self, inScore⟩
      · exact .inr (around.2 closing)

private theorem mem_intercalate {α : Type} {connector : List α} {pieces : List (List α)} {x : α}
    (member : x ∈ List.intercalate connector pieces) :
    x ∈ connector ∨ ∃ piece ∈ pieces, x ∈ piece := by
  induction pieces with
  | nil => cases member
  | cons piece pieces ih =>
    cases pieces with
    | nil => exact .inr ⟨piece, List.mem_singleton_self piece, by simpa using member⟩
    | cons next pieces =>
      rw [List.intercalate_cons_cons] at member
      rcases List.mem_append.mp member with front | back
      · rcases List.mem_append.mp front with inPiece | between
        · exact .inr ⟨piece, List.mem_cons_self, inPiece⟩
        · exact .inl between
      · exact (ih back).imp_right fun ⟨other, listed, inside⟩ =>
          ⟨other, List.mem_cons_of_mem _ listed, inside⟩

private theorem mem_whole {path : List Node} {c : Char} (member : c ∈ whole path) :
    (∃ text ∈ path.flatMap textsOf, c ∈ text.toList) ∨ c ∈ " ->()<anonymous>".toList := by
  have around : " -> ".toList ⊆ " ->()<anonymous>".toList ∧
      " ()<anonymous>".toList ⊆ " ->()<anonymous>".toList := by decide
  rcases mem_intercalate member with arrow | ⟨piece, listed, inside⟩
  · exact .inr (around.1 arrow)
  · obtain ⟨node, onPath, rfl⟩ := List.mem_map.mp listed
    rcases mem_step inside with ⟨text, shown, inText⟩ | between
    · exact .inl ⟨text, List.mem_flatMap.mpr ⟨node, onPath, shown⟩, inText⟩
    · exact .inr (around.2 between)

/-- How a text is shown in so much room: the whole of it if it fits, or else its first characters,
with dots for the last three if there is room for more than those. -/
inductive Fits (room : ℕ) (text : List Char) : List Char → Prop
  | whole (short : text.length ≤ room) : Fits room text text
  | dots (long : room < text.length) (wide : 3 < room) :
      Fits room text (text.take (room - 3) ++ "...".toList)
  | cut (long : room < text.length) (narrow : room ≤ 3) : Fits room text (text.take room)

private theorem Fits.length_le {room : ℕ} {text line : List Char} (fits : Fits room text line) :
    line.length ≤ room := by
  cases fits with
  | whole short => exact short
  | dots long wide =>
    have dots : "...".toList.length = 3 := rfl
    rw [List.length_append, List.length_take, dots]
    omega
  | cut => exact List.length_take_le room text

private theorem Fits.mem {room : ℕ} {text line : List Char} {c : Char} (fits : Fits room text line)
    (member : c ∈ line) : c ∈ text ∨ c = '.' := by
  cases fits with
  | whole => exact .inl member
  | dots =>
    rcases List.mem_append.mp member with front | dots
    · exact .inl (List.mem_of_mem_take front)
    · exact .inr (List.eq_of_mem_replicate (n := 3) dots)
  | cut => exact .inl (List.mem_of_mem_take member)

private theorem fits_truncate (room : ℕ) (text : String) :
    Fits room text.toList (truncate room text).toList := by
  unfold truncate
  dsimp only
  split
  next short => exact .whole short
  next long =>
    split
    next wide =>
      rw [String.toList_append, String.toList_ofList]
      exact .dots (not_le.mp long) wide
    next narrow =>
      rw [String.toList_ofList]
      exact .cut (not_le.mp long) (not_lt.mp narrow)

theorem fits_fittedPath (colours : Bool) (width : ℕ) (path : List Node) :
    Fits (width - 6) (whole path) (fittedPath ⟨colours, some width⟩ path).toList := by
  rw [← toList_steps]
  exact fits_truncate (width - 6) (steps path)

private theorem mem_fittedPath {terminal : Terminal} {path : List Node} {c : Char}
    (member : c ∈ (fittedPath terminal path).toList) : c ∈ whole path ∨ c = '.' := by
  obtain ⟨colours, _ | width⟩ := terminal
  · rw [← toList_steps]
    exact .inl member
  · exact (fits_fittedPath colours width path).mem member

/-- A character that is in none of the texts shown is not on the path line, unless it is one of
those around them. -/
theorem not_mem_fittedPath {terminal : Terminal} {path : List Node} {c : Char}
    (absent : ∀ text ∈ path.flatMap textsOf, c ∉ text.toList)
    (other : c ∉ " ->()<anonymous>.".toList) : c ∉ (fittedPath terminal path).toList := by
  intro member
  rcases mem_fittedPath member with inWhole | rfl
  · rcases mem_whole inWhole with ⟨text, shown, inText⟩ | around
    · exact absent text shown inText
    · exact other (List.mem_append_left ".".toList around)
  · exact other (by decide)

def valueLine (terminal : Terminal) : Option String → String
  | some value =>
    "value: " ++ paint terminal.colours .green (paint terminal.colours .bold value)
  | none => "value: " ++ paint terminal.colours .yellow "<none>"

def confidenceLine (terminal : Terminal) (confidence : Float) : String :=
  "confidence: " ++ paint terminal.colours .cyan (Number.fixed 4 confidence)

def pathLine (terminal : Terminal) (path : List Node) : String :=
  "path: " ++ paint terminal.colours .dim (fittedPath terminal path)

private theorem lines_joined (value confidence path : String) :
    value ++ "\nconfidence: " ++ confidence ++ "\npath: " ++ path =
      value ++ "\n" ++ ("confidence: " ++ confidence) ++ "\n" ++ ("path: " ++ path) := by
  have second : "\nconfidence: " = "\n" ++ "confidence: " := by
    rw [← String.toList_inj, String.toList_append]
    decide
  have third : "\npath: " = "\n" ++ "path: " := by
    rw [← String.toList_inj, String.toList_append]
    decide
  rw [second, third]
  simp only [String.append_assoc]

/-- With and without a value, and with and without colours, a report has the same three lines. -/
theorem text_eq (terminal : Terminal) (prediction : Prediction) :
    text terminal prediction = valueLine terminal prediction.value ++ "\n" ++
      confidenceLine terminal prediction.confidence ++ "\n" ++
        pathLine terminal prediction.path := by
  obtain ⟨value, confidence, path⟩ := prediction
  obtain ⟨colours, width⟩ := terminal
  cases value with
  | none =>
    cases colours with
    | true => exact lines_joined ("value: " ++ Style.yellow.wrap "<none>") _ _
    | false =>
      have words : "value: <none>\nconfidence: " = "value: " ++ "<none>" ++ "\nconfidence: " := by
        rw [← String.toList_inj, String.toList_append, String.toList_append]
        decide
      change "value: <none>\nconfidence: " ++ _ ++ _ ++ _ = _
      rw [words]
      exact lines_joined ("value: " ++ "<none>") _ _
  | some value =>
    cases colours with
    | true => exact lines_joined ("value: " ++ Style.green.wrap (Style.bold.wrap value)) _ _
    | false => exact lines_joined ("value: " ++ value) _ _

/-- The texts of a prediction that a report may show. -/
def textsIn (prediction : Prediction) : List String :=
  prediction.value.toList ++ prediction.path.flatMap textsOf

theorem shows_valueLine {value : Option String} (clear : ∀ text ∈ value, escape ∉ text.toList)
    (terminal : Terminal) :
    Shows (valueLine terminal value) ("value: " ++ value.getD "<none>").toList := by
  rw [String.toList_append]
  have heading : Shows "value: " "value: ".toList := shows_of_clear (by decide)
  cases value with
  | none => exact heading.append ((shows_of_clear (by decide)).paint _ _)
  | some value => exact heading.append (((shows_of_clear (clear value rfl)).paint _ _).paint _ _)

theorem shows_confidenceLine (terminal : Terminal) (confidence : Float) :
    Shows (confidenceLine terminal confidence)
      ("confidence: " ++ Number.fixed 4 confidence).toList := by
  have clear : escape ∉ (Number.fixed 4 confidence).toList := by
    intro member
    rcases Number.mem_fixed member with digit | sign
    · exact absurd digit (by decide)
    · exact absurd sign (by decide)
  rw [String.toList_append]
  exact (shows_of_clear (by decide)).append ((shows_of_clear clear).paint _ _)

theorem shows_pathLine {path : List Node}
    (clear : ∀ text ∈ path.flatMap textsOf, escape ∉ text.toList) (terminal : Terminal) :
    Shows (pathLine terminal path) ("path: ".toList ++ (fittedPath terminal path).toList) := by
  have heading : Shows "path: " "path: ".toList := shows_of_clear (by decide)
  exact heading.append ((shows_of_clear (not_mem_fittedPath clear (by decide))).paint _ _)

private theorem text_plain (width : Option ℕ) (prediction : Prediction) :
    text ⟨false, width⟩ prediction =
      "value: " ++ prediction.value.getD "<none>" ++ "\n" ++
        ("confidence: " ++ Number.fixed 4 prediction.confidence) ++ "\n" ++
          ("path: " ++ fittedPath ⟨false, width⟩ prediction.path) := by
  rw [text_eq]
  cases prediction.value <;> rfl

/-- In every colour a report shows what it is without colours. -/
theorem shows_text {prediction : Prediction}
    (clear : ∀ text ∈ textsIn prediction, escape ∉ text.toList) (terminal : Terminal) :
    Shows (text terminal prediction) (text ⟨false, terminal.width⟩ prediction).toList := by
  obtain ⟨value, path⟩ := List.forall_mem_append.mp clear
  have newline : Shows "\n" "\n".toList := shows_of_clear (by decide)
  have front := (shows_valueLine (by simpa using value) terminal).append newline
  have middle := (shows_confidenceLine terminal prediction.confidence).append newline
  have lines := (front.append middle).append (shows_pathLine path terminal)
  rw [text_eq, text_plain]
  simp only [String.toList_append, String.append_assoc, List.append_assoc] at lines ⊢
  exact lines

/-- Without its escape sequences a report in colours is the plain one. The width of the terminal
changes only the line of the path, which holds as much of the path as fits behind its heading. -/
theorem text_shows {prediction : Prediction}
    (clear : ∀ text ∈ textsIn prediction, escape ∉ text.toList) :
    (∀ width, visible (text ⟨true, width⟩ prediction) =
      (text ⟨false, width⟩ prediction).toList) ∧
    (∀ colours, ∃ value confidence : String,
      visible value = ("value: " ++ prediction.value.getD "<none>").toList ∧
      visible confidence = ("confidence: " ++ Number.fixed 4 prediction.confidence).toList ∧
      ∀ width, text ⟨colours, width⟩ prediction =
        value ++ "\n" ++ confidence ++ "\n" ++ pathLine ⟨colours, width⟩ prediction.path) ∧
    (∀ colours, visible (pathLine ⟨colours, none⟩ prediction.path) =
      "path: ".toList ++ whole prediction.path) ∧
    ∀ colours width, ∃ line,
      visible (pathLine ⟨colours, some width⟩ prediction.path) = "path: ".toList ++ line ∧
      Fits (width - 6) (whole prediction.path) line ∧
      ("path: ".toList ++ line).length ≤ max width 6 ∧
      ((∀ text ∈ prediction.path.flatMap textsOf, '\n' ∉ text.toList) → '\n' ∉ line) := by
  obtain ⟨value, path⟩ := List.forall_mem_append.mp clear
  refine ⟨fun width => ?_, fun colours => ?_, fun colours => ?_, fun colours width => ?_⟩
  · exact (shows_text clear ⟨true, width⟩).visible_eq
  · exact ⟨valueLine ⟨colours, none⟩ prediction.value,
      confidenceLine ⟨colours, none⟩ prediction.confidence,
      (shows_valueLine (by simpa using value) _).visible_eq, (shows_confidenceLine _ _).visible_eq,
      fun width => text_eq ⟨colours, width⟩ prediction⟩
  · rw [(shows_pathLine path ⟨colours, none⟩).visible_eq]
    exact congrArg _ (toList_steps prediction.path)
  · have fits := fits_fittedPath colours width prediction.path
    refine ⟨_, (shows_pathLine path ⟨colours, some width⟩).visible_eq, fits, ?_, fun absent =>
      not_mem_fittedPath absent (by decide)⟩
    have heading : "path: ".toList.length = 6 := rfl
    have short := fits.length_le
    rw [List.length_append, heading]
    omega

/-- A prediction with letters of more than one byte. -/
def accented : Prediction where
  value := some "schön"
  confidence := 0.75
  path := [{ predicate := .always, id := some "größe", score := some "ça" },
    { predicate := .always, score := some "schön" }]

theorem text_shows_accented :
    (∀ text ∈ textsIn accented, escape ∉ text.toList) ∧
      visible (text ⟨true, some 12⟩ accented) = (text ⟨false, some 12⟩ accented).toList ∧
      ∃ line, visible (pathLine ⟨true, some 12⟩ accented.path) = "path: ".toList ++ line ∧
        Fits 6 (whole accented.path) line := by
  have clear : ∀ text ∈ textsIn accented, escape ∉ text.toList := by decide
  obtain ⟨plain, -, -, fits⟩ := text_shows clear
  obtain ⟨line, sight, room, -⟩ := fits true 12
  exact ⟨clear, plain (some 12), line, sight, room⟩

end Report
end DecisionTree
