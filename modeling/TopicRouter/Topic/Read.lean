import TopicRouter.Topic.Error
import TopicRouter.Topic.Level

/-!
# Reading one level

`Level.read` takes the first level off a text and leaves what stands behind
the separator.  A topic is read from the left, level by level, so a fault is
reported with the text that was unread when it was met.  A separator at the
end closes the last level and opens no further one.

`LevelReader` is a cursor that reads one level per call.

## Main results

* `Level.read_length_lt` — a level that is read makes the text shorter.
* `Level.read_wellFormed` — what is read off a non-empty text is a
  well-formed level.
* `Level.read_multi` — a `#` is the last level of its topic.
* `hasWildcards_iff` — the characters that count as wildcards.
-/

namespace TopicRouter

namespace Level

/-- Ends `level` at the end of the text or at a separator, which is consumed.
Any other character would belong to the level, and may not. -/
def close (level : Level) : List Char → Except Fault (Level × List Char)
  | [] => .ok (level, [])
  | c :: rest =>
      if c = separator then .ok (level, rest) else .error (Fault.ofChar c)

/-- The first level of a text and the text behind it.  A text that begins
with a separator begins with an empty level, which is read as `+`. -/
def read (chars : List Char) : Except Fault (Level × List Char) :=
  match chars with
  | '/' :: rest => .ok (single, rest)
  | '+' :: rest => close single rest
  | '#' :: rest =>
      if rest.head? = some separator then .error .multiNotLast
      else close multi rest
  | _ =>
      close (literal (String.ofList (chars.takeWhile isOrdinary)))
        (chars.dropWhile isOrdinary)

theorem close_eq_ok {level level' : Level} {chars rest : List Char}
    (h : close level chars = .ok (level', rest)) :
    level' = level ∧ (chars = [] ∧ rest = [] ∨ chars = separator :: rest) := by
  unfold close at h
  split at h
  · simp_all
  split at h
  · simp_all
  · cases h

/-- A text that starts with an ordinary character starts with a literal. -/
theorem read_ordinary {c : Char} (hc : isOrdinary c = true) (chars : List Char) :
    read (c :: chars) =
      close (literal (String.ofList (c :: chars.takeWhile isOrdinary)))
        (chars.dropWhile isOrdinary) := by
  unfold read
  split <;> simp_all [isOrdinary]

/-- What a level that is read can be, by the character it starts with. -/
theorem read_cases {c : Char} {chars rest : List Char} {level : Level}
    (h : read (c :: chars) = .ok (level, rest)) :
    (c = '/' ∧ level = single ∧ rest = chars) ∨
      (c = '+' ∧ close single chars = .ok (level, rest)) ∨
      (c = '#' ∧ level = multi ∧ chars = [] ∧ rest = []) ∨
      (isOrdinary c = true ∧
        close (literal (String.ofList (c :: chars.takeWhile isOrdinary)))
          (chars.dropWhile isOrdinary) = .ok (level, rest)) := by
  by_cases hc : isOrdinary c = true
  · rw [read_ordinary hc] at h
    exact .inr (.inr (.inr ⟨hc, h⟩))
  · have hspecial : c = '/' ∨ c = '+' ∨ c = '#' := by
      simp only [isOrdinary] at hc
      grind
    rcases hspecial with rfl | rfl | rfl
    · simp only [read] at h
      grind
    · exact .inr (.inl ⟨rfl, h⟩)
    · simp only [read] at h
      split at h
      · cases h
      · rename_i hhead
        obtain ⟨hlevel, hrest⟩ := close_eq_ok h
        grind

/-- Reading consumes at least one character. -/
theorem read_length_lt {chars rest : List Char} {level : Level}
    (hne : chars ≠ []) (h : read chars = .ok (level, rest)) :
    rest.length < chars.length := by
  cases chars with
  | nil => exact absurd rfl hne
  | cons c chars =>
      have hdrop := (List.dropWhile_suffix isOrdinary (l := chars)).length_le
      rcases read_cases h with ⟨_, _, rfl⟩ | ⟨_, h⟩ | ⟨_, _, _, rfl⟩ | ⟨_, h⟩
      · simp
      · obtain ⟨_, hrest⟩ := close_eq_ok h
        grind
      · simp
      · obtain ⟨_, hrest⟩ := close_eq_ok h
        grind

/-- A level that is read is well formed. -/
theorem read_wellFormed {chars rest : List Char} {level : Level}
    (hne : chars ≠ []) (h : read chars = .ok (level, rest)) :
    level.WellFormed := by
  cases chars with
  | nil => exact absurd rfl hne
  | cons c chars =>
      rcases read_cases h with ⟨_, rfl, _⟩ | ⟨_, h⟩ | ⟨_, rfl, _⟩ | ⟨hc, h⟩
      · trivial
      · obtain ⟨rfl, _⟩ := close_eq_ok h
        trivial
      · trivial
      · obtain ⟨rfl, _⟩ := close_eq_ok h
        refine ⟨by simp [← String.toList_inj], fun d hd => ?_⟩
        rw [String.toList_ofList] at hd
        rcases List.mem_cons.1 hd with rfl | hd
        · exact hc
        · exact List.all_eq_true.1 List.all_takeWhile d hd

/-- Nothing is left to read behind the wildcard for all remaining levels. -/
theorem read_multi {chars rest : List Char} (hne : chars ≠ [])
    (h : read chars = .ok (multi, rest)) : rest = [] := by
  cases chars with
  | nil => exact absurd rfl hne
  | cons c chars =>
      rcases read_cases h with ⟨_, hlevel, _⟩ | ⟨_, h⟩ | ⟨_, _, _, hrest⟩ | ⟨_, h⟩
      · cases hlevel
      · cases (close_eq_ok h).1
      · exact hrest
      · cases (close_eq_ok h).1

end Level

/-- The first level of a topic and the rest of the topic. -/
def nextLevel (topic : String) : Except TopicError (Level × String) :=
  match Level.read topic.toList with
  | .ok (level, rest) => .ok (level, String.ofList rest)
  | .error fault => .error (.malformed topic fault)

/-- Does the topic hold a wildcard character, wherever it stands? -/
def hasWildcards (topic : String) : Bool :=
  topic.toList.any fun c => c == '+' || c == '#'

theorem hasWildcards_iff {topic : String} :
    hasWildcards topic = true ↔ '+' ∈ topic.toList ∨ '#' ∈ topic.toList := by
  simp only [hasWildcards, List.any_eq_true, Bool.or_eq_true, beq_iff_eq]
  constructor
  · rintro ⟨c, hc, rfl | rfl⟩
    · exact .inl hc
    · exact .inr hc
  · rintro (hc | hc)
    · exact ⟨_, hc, .inl rfl⟩
    · exact ⟨_, hc, .inr rfl⟩

/-- A cursor in a topic.  When a fault has been reported, nothing is left to
read. -/
structure LevelReader where
  unread : List Char

namespace LevelReader

/-- A cursor at the start of a topic. -/
def ofTopic (topic : String) : LevelReader := ⟨topic.toList⟩

/-- Reads a level or reports a fault; `none` once nothing is left. -/
def next (reader : LevelReader) :
    Option (Except TopicError Level) × LevelReader :=
  if reader.unread = [] then (none, reader)
  else
    match Level.read reader.unread with
    | .ok (level, rest) => (some (.ok level), ⟨rest⟩)
    | .error fault =>
        (some (.error (.malformed (String.ofList reader.unread) fault)), ⟨[]⟩)

end LevelReader

end TopicRouter
