import TopicRouter.Topic.Read

/-!
# Scanning a topic

`scan` reads a whole topic: the levels up to the first fault, and that fault
if there is one.  The trees are walked along a scan, so that they report a
fault only when the walk gets as far as the faulty level.

## Main results

* `Scan.ofChars_nil`, `Scan.ofChars_of_ok`, `Scan.ofChars_of_error` — a scan
  is unfolded one level at a time.
* `LevelReader.nth_eq_items` — the cursor yields the items of the scan in
  order, and nothing ever after.
-/

namespace TopicRouter

/-- The levels of a topic up to its first fault. -/
structure Scan where
  levels : List Level
  fault? : Option TopicError
deriving DecidableEq

namespace Scan

/-- Puts a level in front. -/
def cons (level : Level) (rest : Scan) : Scan :=
  ⟨level :: rest.levels, rest.fault?⟩

/-- Scans a text.  The text of a fault is what was unread when it was met. -/
def ofChars (chars : List Char) : Scan :=
  if _ : chars = [] then ⟨[], none⟩
  else
    match _ : Level.read chars with
    | .ok (level, rest) => cons level (ofChars rest)
    | .error fault => ⟨[], some (.malformed (String.ofList chars) fault)⟩
termination_by chars.length
decreasing_by exact Level.read_length_lt ‹_› ‹_›

/-- Did the scan reach the end of the topic? -/
def outcome (scan : Scan) : Except TopicError Unit :=
  match scan.fault? with
  | none => .ok ()
  | some fault => .error fault

/-- The levels and then the fault, as a single sequence. -/
def items (scan : Scan) : List (Except TopicError Level) :=
  scan.levels.map .ok ++ scan.fault?.toList.map .error

@[simp] theorem ofChars_nil : ofChars [] = ⟨[], none⟩ := by
  simp [ofChars]

theorem ofChars_of_ok {chars rest : List Char} {level : Level}
    (hne : chars ≠ []) (hread : Level.read chars = .ok (level, rest)) :
    ofChars chars = cons level (ofChars rest) := by
  rw [ofChars, dif_neg hne]
  split <;> simp_all

theorem ofChars_of_error {chars : List Char} {fault : Fault}
    (hne : chars ≠ []) (hread : Level.read chars = .error fault) :
    ofChars chars = ⟨[], some (.malformed (String.ofList chars) fault)⟩ := by
  rw [ofChars, dif_neg hne]
  split <;> simp_all

@[simp] theorem items_cons (level : Level) (rest : Scan) :
    (cons level rest).items = .ok level :: rest.items := rfl

/-- Every level of a scan is well formed. -/
theorem wellFormed_of_mem_ofChars {chars : List Char} {level : Level}
    (h : level ∈ (ofChars chars).levels) : level.WellFormed := by
  fun_induction ofChars chars with
  | case1 => simp at h
  | case2 chars hne first rest hread ih =>
      rcases List.mem_cons.1 h with rfl | h
      · exact Level.read_wellFormed hne hread
      · exact ih h
  | case3 => simp at h

/-- Only the last level of a scan can be the wildcard for all remaining
levels. -/
theorem multi_notMem_dropLast_ofChars (chars : List Char) :
    Level.multi ∉ (ofChars chars).levels.dropLast := by
  fun_induction ofChars chars with
  | case1 => simp
  | case2 chars hne first rest hread ih =>
      intro hmem
      by_cases hlevels : (ofChars rest).levels = []
      · simp [cons, hlevels] at hmem
      · rw [cons, List.dropLast_cons_of_ne_nil hlevels] at hmem
        rcases List.mem_cons.1 hmem with rfl | hmem
        · have hrest := Level.read_multi hne hread
          rw [hrest, ofChars_nil] at hlevels
          exact hlevels rfl
        · exact ih hmem
  | case3 => simp

end Scan

/-- The levels of a topic and its first fault. -/
def scan (topic : String) : Scan := Scan.ofChars topic.toList

namespace LevelReader

/-- What the cursor yields at its `n`-th call from now. -/
def nth (reader : LevelReader) : Nat → Option (Except TopicError Level)
  | 0 => reader.next.1
  | n + 1 => reader.next.2.nth n

theorem nth_nil (n : Nat) : nth ⟨[]⟩ n = none := by
  induction n with
  | zero => rfl
  | succ n ih => exact ih

/-- A cursor yields the items of the scan of what it has not read. -/
theorem nth_eq_items (reader : LevelReader) (n : Nat) :
    reader.nth n = (Scan.ofChars reader.unread).items[n]? := by
  induction n generalizing reader with
  | zero =>
      simp only [nth, next]
      split
      · simp_all [Scan.items]
      rename_i hne
      split
      · rename_i hread
        simp [Scan.ofChars_of_ok hne hread]
      · rename_i hread
        simp [Scan.ofChars_of_error hne hread, Scan.items]
  | succ n ih =>
      simp only [nth, next]
      split
      · rename_i hnil
        rw [show reader = ⟨[]⟩ by cases reader; simp_all, nth_nil]
        simp [Scan.items]
      rename_i hne
      split
      · rename_i hread
        simp [ih, Scan.ofChars_of_ok hne hread]
      · rename_i hread
        simp [nth_nil, Scan.ofChars_of_error hne hread, Scan.items]

end LevelReader

end TopicRouter
