import TopicRouter.Topic.Scan

/-!
# Pieces of a topic

The grammar of topics, given without reading them level by level.  A text is
cut at every separator into pieces; a piece is legal when it is plain text,
or a `+`, or a `#` that is the last piece.  A topic is written from levels by
joining their texts with separators.

## Main results

* `length_pieces` — a text has one piece more than it has separators.
* `intercalate_pieces` — joining the pieces gives the text back.
-/

namespace TopicRouter

/-- Cuts a text at every separator. -/
def pieces (chars : List Char) : List (List Char) := chars.splitOn separator

/-- May the piece stand in a topic, given whether it is the last one? -/
def IsLegal (isLast : Bool) (piece : List Char) : Prop :=
  ('+' ∉ piece ∧ '#' ∉ piece) ∨ piece = ['+'] ∨ (piece = ['#'] ∧ isLast = true)

instance (isLast : Bool) (piece : List Char) : Decidable (IsLegal isLast piece) :=
  inferInstanceAs (Decidable (_ ∨ _))

/-- The level that a legal piece is read as; an empty piece is read as `+`. -/
def Level.ofPiece (piece : List Char) : Level :=
  if piece = [] then .single else .ofText (String.ofList piece)

/-- The topic that is written with the given levels. -/
def joinLevels (levels : List Level) : String :=
  "/".intercalate (levels.map Level.text)

@[simp] theorem pieces_nil : pieces [] = [[]] := rfl

theorem pieces_separator (rest : List Char) :
    pieces (separator :: rest) = [] :: pieces rest := by
  simp [pieces, List.splitOn_cons_eq_if_modifyHead]

theorem pieces_cons {c : Char} (hc : c ≠ separator) (rest : List Char) :
    pieces (c :: rest) = (pieces rest).modifyHead (c :: ·) := by
  simp [pieces, List.splitOn_cons_eq_if_modifyHead, hc]

theorem length_pieces (chars : List Char) :
    (pieces chars).length = chars.count separator + 1 := by
  induction chars with
  | nil => rfl
  | cons c rest ih =>
      by_cases hc : c = separator
      · rw [hc, pieces_separator, List.length_cons, ih, List.count_cons_self]
      · rw [pieces_cons hc, List.length_modifyHead, ih, List.count_cons_of_ne hc]

theorem intercalate_pieces (chars : List Char) :
    [separator].intercalate (pieces chars) = chars :=
  List.intercalate_splitOn separator

end TopicRouter
