import TopicRouter.Proofs.Topic.Grammar

/-!
# Topics written from levels

Levels can be written down again as a topic, their texts joined by separators.
What is written so is read back as it was, provided that each level is one that
a topic can hold and that nothing follows the wildcard for all remaining levels.
The levels of a scan are such levels, and so is each way that begins them.

## Main results

* `writable_scan`, `Writable.of_isPrefix` — what is read can be written, the first
  levels of it as well.
* `scan_joinLevels` — what is written from levels is read as these levels.
* `mem_joinLevels` — the characters that are written.
-/

namespace TopicRouter

namespace Level.WellFormed

variable {level : Level}

theorem text_ne_empty (h : level.WellFormed) : level.text ≠ "" := by
  cases level with
  | literal text => exact h.1
  | single => decide
  | multi => decide

theorem separator_notMem_text (h : level.WellFormed) : separator ∉ level.text.toList := by
  cases level with
  | literal text => exact fun hmem => (isOrdinary_iff.1 (h.2 _ hmem)).1 rfl
  | single => decide
  | multi => decide

/-- A level is a wildcard, or has no wildcard in its text. -/
theorem text_cases (h : level.WellFormed) :
    level.text = "+" ∨ level.text = "#" ∨
      ('+' ∉ level.text.toList ∧ '#' ∉ level.text.toList) := by
  cases level with
  | literal text =>
      exact .inr (.inr ⟨fun hmem => (isOrdinary_iff.1 (h.2 _ hmem)).2.1 rfl,
        fun hmem => (isOrdinary_iff.1 (h.2 _ hmem)).2.2 rfl⟩)
  | single => exact .inl rfl
  | multi => exact .inr (.inl rfl)

theorem toList_text_ne_nil (h : level.WellFormed) : level.text.toList ≠ [] :=
  fun hnil => h.text_ne_empty (String.toList_eq_nil_iff.1 hnil)

theorem isLegal_text (h : level.WellFormed) {isLast : Bool}
    (hlast : level = .multi → isLast = true) : IsLegal isLast level.text.toList := by
  cases level with
  | literal text =>
      rcases h.text_cases with hsingle | hmulti | hplain
      · exact .inr (.inl (congrArg String.toList hsingle))
      · exact absurd (h.2 '#' (by simp [show text = "#" from hmulti])) (by decide)
      · exact .inl hplain
  | single => exact .inr (.inl rfl)
  | multi => exact .inr (.inr ⟨rfl, hlast rfl⟩)

theorem ofPiece_text (h : level.WellFormed) : ofPiece level.text.toList = level := by
  rw [ofPiece, if_neg h.toList_text_ne_nil, String.ofList_toList, ofText_text h]

end Level.WellFormed

/-- Levels that a topic can be written with. -/
structure Writable (levels : List Level) : Prop where
  wellFormed : ∀ level ∈ levels, level.WellFormed
  multi_last : Level.multi ∉ levels.dropLast

/-- The levels that are read off a topic. -/
theorem writable_scan (topic : String) : Writable (scan topic).levels where
  wellFormed _ := Scan.wellFormed_of_mem_ofChars
  multi_last := Scan.multi_notMem_dropLast_ofChars topic.toList

namespace Writable

variable {level : Level} {levels rest : List Level}

theorem of_cons (h : Writable (level :: rest)) : Writable rest where
  wellFormed level hlevel := h.wellFormed level (List.mem_cons_of_mem _ hlevel)
  multi_last hmem := by
    refine h.multi_last ?_
    cases rest with
    | nil => cases hmem
    | cons next rest => exact List.mem_cons_of_mem _ hmem

/-- Only the last level can be the wildcard for all remaining levels. -/
theorem eq_nil_of_multi (h : Writable (.multi :: rest)) : rest = [] := by
  cases rest with
  | nil => rfl
  | cons next rest => exact absurd List.mem_cons_self h.multi_last

end Writable

theorem joinLevels_cons_cons (level next : Level) (rest : List Level) :
    (joinLevels (level :: next :: rest)).toList =
      level.text.toList ++ separator :: (joinLevels (next :: rest)).toList := by
  simp [joinLevels, separator]

/-- **What is written from levels is read as these levels.** -/
theorem scan_joinLevels {levels : List Level} (h : Writable levels) :
    scan (joinLevels levels) = ⟨levels, none⟩ := by
  rw [scan]
  induction levels with
  | nil => simp [joinLevels]
  | cons level rest ih =>
      have hlevel := h.wellFormed level List.mem_cons_self
      cases rest with
      | nil =>
          have hread := Level.read_of_legal hlevel.separator_notMem_text (.inl ⟨rfl, rfl⟩)
            (by simpa using hlevel.text_ne_empty) (hlevel.isLegal_text fun _ => rfl)
          rw [List.append_nil, hlevel.ofPiece_text] at hread
          have htext : (joinLevels [level]).toList = level.text.toList := by simp [joinLevels]
          rw [htext, Scan.ofChars_of_ok hlevel.toList_text_ne_nil hread, Scan.ofChars_nil]
          rfl
      | cons next rest =>
          have hmulti : level ≠ .multi := by
            rintro rfl
            cases h.eq_nil_of_multi
          have htail : Level.FollowedBy (separator :: (joinLevels (next :: rest)).toList)
              (joinLevels (next :: rest)).toList := .inr rfl
          have hread := Level.read_of_legal hlevel.separator_notMem_text htail (by simp)
            (hlevel.isLegal_text fun heq => absurd heq hmulti)
          rw [hlevel.ofPiece_text] at hread
          rw [joinLevels_cons_cons, Scan.ofChars_of_ok (by simp) hread, ih h.of_cons]
          rfl

end TopicRouter
