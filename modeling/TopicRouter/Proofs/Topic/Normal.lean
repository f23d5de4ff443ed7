import TopicRouter.Proofs.Topic.Joining

/-!
# Normal forms of topics

Different topics can be read as the same levels: a separator at the end opens no
further level, and an empty piece is a level that can as well be written as `+`.
These are the only ways to write the same levels differently.  Undoing both
gives the normal form of a topic, which is what its levels are written as.

Only by an empty piece can a topic without wildcards be read as one with them.
Two such topics are read alike only if they are the same up to a separator at
the end, so that no two of them share a node by accident.

## Main results

* `Scan.levels_eq_map_ofPiece` — the levels of a topic, piece by piece.
* `joinLevels_levels` — the levels of a topic are written as its normal form.
* `levels_eq_iff_normalForm_eq`, `levels_eq_iff_dropTrailing_eq` — which topics
  are read as the same levels.
* `scanning_inverts_joining` — reading and writing are inverse up to the normal
  form.
-/

namespace TopicRouter

/-! ## Normal forms -/

/-- The text without the separator at its end, if there is one. -/
def dropTrailing (chars : List Char) : List Char :=
  if chars.getLast? = some separator then chars.dropLast else chars

/-- How the level of a piece is written. -/
def fillPiece (piece : List Char) : List Char := if piece = [] then ['+'] else piece

/-- The topic without a separator at its end and without empty pieces. -/
def normalForm (topic : String) : String :=
  String.ofList ([separator].intercalate ((pieces (dropTrailing topic.toList)).map fillPiece))

theorem dropTrailing_of_notMem {chars : List Char} (h : separator ∉ chars) :
    dropTrailing chars = chars :=
  if_neg fun hlast => h (List.mem_of_getLast? hlast)

theorem dropTrailing_concat (chars : List Char) : dropTrailing (chars ++ [separator]) = chars := by
  simp [dropTrailing]

theorem dropTrailing_append {rest : List Char} (hne : rest ≠ []) (chars : List Char) :
    dropTrailing (chars ++ rest) = chars ++ dropTrailing rest := by
  have hlast : (chars ++ rest).getLast? = rest.getLast? := by
    rw [List.getLast?_append, Option.or_of_isSome (by simpa using hne)]
  rw [dropTrailing, dropTrailing, hlast, List.dropLast_append_of_ne_nil hne]
  split <;> rfl

theorem dropTrailing_subset (chars : List Char) : dropTrailing chars ⊆ chars := by
  unfold dropTrailing
  split
  · exact List.dropLast_subset chars
  · exact List.Subset.refl chars

theorem pieces_append_separator {piece : List Char} (hpiece : separator ∉ piece)
    (rest : List Char) : pieces (piece ++ separator :: rest) = piece :: pieces rest := by
  rw [pieces, List.splitOn_append_cons_self, List.splitOn_eq_singleton hpiece]
  rfl

/-- A text without empty pieces does not end with a separator. -/
theorem dropTrailing_of_nil_notMem_pieces {chars : List Char} (h : [] ∉ pieces chars) :
    dropTrailing chars = chars := by
  refine if_neg fun hlast => h ?_
  rw [← List.dropLast_append_getLast? separator hlast, pieces, List.splitOn_append_cons_self]
  exact List.mem_append_right _ (List.mem_singleton_self [])

/-! ## The levels of a topic -/

/-- What is read off a text is its first piece, and what is behind it. -/
theorem Level.read_eq_ok_cases {chars rest : List Char} {level : Level} (hne : chars ≠ [])
    (hread : read chars = .ok (level, rest)) :
    (separator ∉ chars ∧ level = ofPiece chars ∧ rest = []) ∨
      ∃ piece, separator ∉ piece ∧ chars = piece ++ separator :: rest ∧
        level = ofPiece piece := by
  rcases pieces_cases chars with ⟨hsep, _⟩ | ⟨piece, behind, hsep, rfl, _⟩
  · have htail : FollowedBy [] [] := .inl ⟨rfl, rfl⟩
    by_cases hlegal : IsLegal true chars
    · have hlegalRead := read_of_legal hsep htail (by simpa using hne) hlegal
      rw [List.append_nil, hread, Except.ok.injEq, Prod.mk.injEq] at hlegalRead
      exact .inl ⟨hsep, hlegalRead⟩
    · obtain ⟨fault, _, hfault⟩ := read_of_illegal hsep htail hlegal
      rw [List.append_nil, hread] at hfault
      cases hfault
  · have htail : FollowedBy (separator :: behind) behind := .inr rfl
    by_cases hlegal : IsLegal false piece
    · have hlegalRead := read_of_legal hsep htail hne hlegal
      rw [hread, Except.ok.injEq, Prod.mk.injEq] at hlegalRead
      obtain ⟨rfl, rfl⟩ := hlegalRead
      exact .inr ⟨piece, hsep, rfl, rfl⟩
    · obtain ⟨fault, _, hfault⟩ := read_of_illegal hsep htail hlegal
      rw [hread] at hfault
      cases hfault

/-- **The levels of a topic**, piece by piece.  A separator at the end is left
out, since it opens no further level. -/
theorem Scan.levels_eq_map_ofPiece {chars : List Char} (hne : chars ≠ [])
    (hfault : (ofChars chars).fault? = none) :
    (ofChars chars).levels = (pieces (dropTrailing chars)).map Level.ofPiece := by
  fun_induction ofChars chars with
  | case1 => exact absurd rfl hne
  | case2 chars _ level rest hread ih =>
      rcases Level.read_eq_ok_cases hne hread with ⟨hsep, rfl, rfl⟩ | ⟨piece, hsep, rfl, rfl⟩
      · rw [dropTrailing_of_notMem hsep, pieces, List.splitOn_eq_singleton hsep, ofChars_nil]
        rfl
      · by_cases hrest : rest = []
        · rw [hrest, dropTrailing_concat, pieces, List.splitOn_eq_singleton hsep, ofChars_nil]
          rfl
        · have hdrop : dropTrailing (piece ++ separator :: rest) =
              piece ++ separator :: dropTrailing rest := by
            rw [List.append_cons, dropTrailing_append hrest, ← List.append_cons]
          rw [hdrop, pieces_append_separator hsep, List.map_cons, ← ih hrest hfault]
          rfl
  | case3 => cases hfault

theorem toList_joinLevels (levels : List Level) :
    (joinLevels levels).toList = [separator].intercalate (levels.map (·.text.toList)) := by
  rw [joinLevels, String.toList_intercalate, List.map_map]
  rfl

theorem toList_text_ofPiece (piece : List Char) :
    (Level.ofPiece piece).text.toList = fillPiece piece := by
  rw [Level.text_ofPiece, fillPiece]
  split
  · rfl
  · exact String.toList_ofList

section Topics

variable {topic topic' : String} {levels levels' : List Level}

/-- The levels of a topic, read off its pieces. -/
theorem levels_eq_map_ofPiece (hne : topic ≠ "") (hscan : scan topic = ⟨levels, none⟩) :
    levels = (pieces (dropTrailing topic.toList)).map Level.ofPiece := by
  have hchars : topic.toList ≠ [] := mt String.toList_eq_nil_iff.1 hne
  have hlevels := Scan.levels_eq_map_ofPiece hchars (by rw [← scan, hscan])
  rwa [← scan, hscan] at hlevels

/-- **The levels of a topic are written as its normal form.** -/
theorem joinLevels_levels (hne : topic ≠ "") (hscan : scan topic = ⟨levels, none⟩) :
    joinLevels levels = normalForm topic := by
  rw [← String.toList_inj, toList_joinLevels, levels_eq_map_ofPiece hne hscan, normalForm,
    String.toList_ofList, List.map_map]
  congr 2
  funext piece
  exact toList_text_ofPiece piece

theorem writable_of_scan (hscan : scan topic = ⟨levels, none⟩) : Writable levels := by
  have hwritable := writable_scan topic
  rwa [hscan] at hwritable

/-- What is written from levels has their texts as its pieces. -/
theorem pieces_joinLevels (h : Writable levels) (hne : levels ≠ []) :
    pieces (joinLevels levels).toList = levels.map (·.text.toList) := by
  rw [toList_joinLevels, pieces]
  refine List.splitOn_intercalate separator (fun piece hpiece => ?_) (by simpa using hne)
  obtain ⟨level, hlevel, rfl⟩ := List.mem_map.1 hpiece
  exact (h.wellFormed level hlevel).separator_notMem_text

/-- A topic is in normal form if it has no empty pieces. -/
theorem joinLevels_levels_eq_self_iff (hne : topic ≠ "") (hscan : scan topic = ⟨levels, none⟩) :
    joinLevels levels = topic ↔ [] ∉ pieces topic.toList := by
  have hwritable := writable_of_scan hscan
  constructor
  · intro hself hempty
    have hlevels : levels ≠ [] := by
      have hchars : topic.toList ≠ [] := mt String.toList_eq_nil_iff.1 hne
      have hlevels := Scan.levels_ne_nil hchars (by rw [← scan, hscan])
      rwa [← scan, hscan] at hlevels
    rw [← hself, pieces_joinLevels hwritable hlevels] at hempty
    obtain ⟨level, hlevel, htext⟩ := List.mem_map.1 hempty
    exact (hwritable.wellFormed level hlevel).toList_text_ne_nil htext
  · intro hempty
    have hfill : ∀ piece ∈ pieces topic.toList, fillPiece piece = piece := by
      rintro piece hpiece
      exact if_neg (ne_of_mem_of_not_mem hpiece hempty)
    rw [joinLevels_levels hne hscan, normalForm, dropTrailing_of_nil_notMem_pieces hempty,
      List.map_congr_left hfill, List.map_id', intercalate_pieces, String.ofList_toList]

/-- Topics are read as the same levels if they have the same normal form. -/
theorem levels_eq_iff_normalForm_eq (hne : topic ≠ "") (hne' : topic' ≠ "")
    (hscan : scan topic = ⟨levels, none⟩) (hscan' : scan topic' = ⟨levels', none⟩) :
    levels = levels' ↔ normalForm topic = normalForm topic' := by
  rw [← joinLevels_levels hne hscan, ← joinLevels_levels hne' hscan']
  constructor
  · rintro rfl
    rfl
  · intro hjoin
    have hlevels := scan_joinLevels (writable_of_scan hscan)
    rw [hjoin, scan_joinLevels (writable_of_scan hscan')] at hlevels
    exact (Scan.mk.inj hlevels).1.symm

end Topics

/-! ## Topics without wildcards -/

/-- The piece that a level was read off, if that has no wildcard in it. -/
def Level.plainPiece : Level → List Char
  | literal text => text.toList
  | single => []
  | multi => ['#']

theorem Level.plainPiece_ofPiece {piece : List Char} (hplain : '+' ∉ piece) :
    (ofPiece piece).plainPiece = piece := by
  have hsingle : String.ofList piece ≠ "+" := by
    intro heq
    refine hplain ?_
    rw [← String.toList_ofList (l := piece), heq]
    exact List.mem_singleton_self '+'
  unfold ofPiece
  split
  · rename_i hnil
    exact hnil.symm
  · rw [ofText, if_neg hsingle]
    split
    · rename_i hmulti
      rw [← String.toList_ofList (l := piece), hmulti]
      rfl
    · exact String.toList_ofList

theorem mem_of_mem_pieces {chars piece : List Char} {c : Char} (hpiece : piece ∈ pieces chars)
    (hc : c ∈ piece) : c ∈ chars := by
  obtain ⟨n, hn⟩ := List.mem_iff_getElem?.1 hpiece
  obtain ⟨after, hafter⟩ := exists_unreadAt_eq hn
  have hchars := readBefore_append_unreadAt (List.getElem?_eq_some_iff.1 hn).1
  rw [intercalate_pieces, hafter] at hchars
  rw [← hchars]
  exact List.mem_append_right _ (List.mem_append_left _ hc)

section PlainTopics

variable {topic topic' : String} {levels levels' : List Level}

/-- A topic without wildcards has no fault. -/
theorem scan_of_plain (hplain : hasWildcards topic = false) :
    ∃ levels, scan topic = ⟨levels, none⟩ := by
  rw [Bool.eq_false_iff, Ne, hasWildcards_iff, not_or] at hplain
  have hfault : (scan topic).fault? = none := Scan.fault?_of_plain hplain.1 hplain.2
  exact ⟨(scan topic).levels, by rw [← hfault]⟩

/-- The pieces of a topic without wildcards are known from its levels. -/
theorem map_plainPiece_levels (hne : topic ≠ "") (hscan : scan topic = ⟨levels, none⟩)
    (hsingle : '+' ∉ topic.toList) :
    levels.map Level.plainPiece = pieces (dropTrailing topic.toList) := by
  have hpiece : ∀ piece ∈ pieces (dropTrailing topic.toList),
      (Level.ofPiece piece).plainPiece = piece := by
    intro piece hpiece
    exact Level.plainPiece_ofPiece fun hmem =>
      hsingle (dropTrailing_subset _ (mem_of_mem_pieces hpiece hmem))
  rw [levels_eq_map_ofPiece hne hscan, List.map_map]
  exact (List.map_congr_left hpiece).trans (List.map_id' _)

/-- Topics without wildcards are read as the same levels if they are the same up
to a separator at the end. -/
theorem levels_eq_iff_dropTrailing_eq (hne : topic ≠ "") (hne' : topic' ≠ "")
    (hscan : scan topic = ⟨levels, none⟩) (hscan' : scan topic' = ⟨levels', none⟩)
    (hsingle : '+' ∉ topic.toList) (hsingle' : '+' ∉ topic'.toList) :
    levels = levels' ↔ dropTrailing topic.toList = dropTrailing topic'.toList := by
  constructor
  · rintro rfl
    have hpieces := map_plainPiece_levels hne hscan hsingle
    rw [map_plainPiece_levels hne' hscan' hsingle'] at hpieces
    rw [← intercalate_pieces (dropTrailing topic.toList), ← hpieces, intercalate_pieces]
  · intro hdrop
    rw [levels_eq_map_ofPiece hne hscan, levels_eq_map_ofPiece hne' hscan', hdrop]

end PlainTopics

/-! ## Texts of levels -/

/-- Texts that a topic can hold as levels. -/
structure IsLevelText (text : String) : Prop where
  ne_empty : text ≠ ""
  separator_notMem : separator ∉ text.toList
  wildcard_alone : text = "+" ∨ text = "#" ∨ ('+' ∉ text.toList ∧ '#' ∉ text.toList)

instance (text : String) : Decidable (IsLevelText text) :=
  decidable_of_iff
    (text ≠ "" ∧ separator ∉ text.toList ∧
      (text = "+" ∨ text = "#" ∨ ('+' ∉ text.toList ∧ '#' ∉ text.toList)))
    ⟨fun ⟨hne, hseparator, hwildcard⟩ => ⟨hne, hseparator, hwildcard⟩,
      fun ⟨hne, hseparator, hwildcard⟩ => ⟨hne, hseparator, hwildcard⟩⟩

theorem IsLevelText.wellFormed {text : String} (h : IsLevelText text) :
    (Level.ofText text).WellFormed := by
  unfold Level.ofText
  split
  · trivial
  split
  · trivial
  · rename_i hsingle hmulti
    obtain ⟨hplain, hplain'⟩ := (h.wildcard_alone.resolve_left hsingle).resolve_left hmulti
    refine ⟨h.ne_empty, fun c hc => Level.isOrdinary_iff.2 ⟨?_, ?_, ?_⟩⟩
    · exact ne_of_mem_of_not_mem hc h.separator_notMem
    · exact ne_of_mem_of_not_mem hc hplain
    · exact ne_of_mem_of_not_mem hc hplain'

theorem writable_of_texts {texts : List String} (h : ∀ text ∈ texts, IsLevelText text)
    (hlast : "#" ∉ texts.dropLast) : Writable (texts.map Level.ofText) where
  wellFormed level hlevel := by
    obtain ⟨text, htext, rfl⟩ := List.mem_map.1 hlevel
    exact (h text htext).wellFormed
  multi_last hmem := by
    rw [← List.map_dropLast] at hmem
    obtain ⟨text, htext, heq⟩ := List.mem_map.1 hmem
    refine hlast ?_
    rwa [← Level.text_ofText text, heq] at htext

/-- **Reading and writing are inverse up to the normal form.**  Texts of levels
that are joined by separators are read as these levels.  The levels of a topic
are written as its normal form, which is the topic itself exactly if it has no
empty pieces.  So two topics lead to the same node exactly if they have the same
normal form, and two topics without wildcards if they differ at most in a
separator at the end. -/
theorem scanning_inverts_joining :
    (∀ texts : List String, (∀ text ∈ texts, IsLevelText text) → "#" ∉ texts.dropLast →
      ∃ levels, scan ("/".intercalate texts) = ⟨levels, none⟩ ∧
        levels.map Level.text = texts) ∧
    (∀ topic levels, topic ≠ "" → scan topic = ⟨levels, none⟩ →
      joinLevels levels = normalForm topic ∧
        (joinLevels levels = topic ↔ [] ∉ pieces topic.toList)) ∧
    (∀ filter filter' levels levels', filter ≠ "" → filter' ≠ "" →
      scan filter = ⟨levels, none⟩ → scan filter' = ⟨levels', none⟩ →
      (levels = levels' ↔ normalForm filter = normalForm filter')) ∧
    (∀ topic topic', topic ≠ "" → topic' ≠ "" →
      hasWildcards topic = false → hasWildcards topic' = false →
      ∃ levels levels', scan topic = ⟨levels, none⟩ ∧ scan topic' = ⟨levels', none⟩ ∧
        (levels = levels' ↔ dropTrailing topic.toList = dropTrailing topic'.toList)) := by
  refine ⟨fun texts htexts hlast => ?_, fun topic levels hne hscan => ?_,
    fun filter filter' levels levels' hne hne' => levels_eq_iff_normalForm_eq hne hne',
    fun topic topic' hne hne' hplain hplain' => ?_⟩
  · have htext : (texts.map Level.ofText).map Level.text = texts := by
      rw [List.map_map]
      exact (List.map_congr_left fun text _ => Level.text_ofText text).trans (List.map_id' texts)
    have hscan := scan_joinLevels (writable_of_texts htexts hlast)
    rw [joinLevels, htext] at hscan
    exact ⟨_, hscan, htext⟩
  · exact ⟨joinLevels_levels hne hscan, joinLevels_levels_eq_self_iff hne hscan⟩
  · obtain ⟨levels, hscan⟩ := scan_of_plain hplain
    obtain ⟨levels', hscan'⟩ := scan_of_plain hplain'
    rw [Bool.eq_false_iff, Ne, hasWildcards_iff, not_or] at hplain hplain'
    exact ⟨levels, levels', hscan, hscan',
      levels_eq_iff_dropTrailing_eq hne hne' hscan hscan' hplain.1 hplain'.1⟩

/-- Topics with separators at both ends and in a row. -/
theorem scanning_inverts_joining_separators :
    let texts := ["$a", "+", "#"]
    let levels : List Level := [.single, .literal "a", .single]
    (∀ text ∈ texts, IsLevelText text) ∧ "#" ∉ texts.dropLast ∧
      (∃ levels, scan ("/".intercalate texts) = ⟨levels, none⟩ ∧
        levels.map Level.text = texts) ∧
      scan "/a//" = ⟨levels, none⟩ ∧ joinLevels levels = normalForm "/a//" ∧
      (joinLevels levels = "/a//" ↔ [] ∉ pieces "/a//".toList) ∧
      scan "+/a/+/" = ⟨levels, none⟩ ∧
      (levels = levels ↔ normalForm "/a//" = normalForm "+/a/+/") ∧
      hasWildcards "/a//" = false ∧ hasWildcards "/a/" = false ∧
      ∃ levels levels', scan "/a//" = ⟨levels, none⟩ ∧ scan "/a/" = ⟨levels', none⟩ ∧
        (levels = levels' ↔ dropTrailing "/a//".toList = dropTrailing "/a/".toList) := by
  intro texts levels
  have htexts : ∀ text ∈ texts, IsLevelText text := by decide +kernel
  have hlast : "#" ∉ texts.dropLast := by decide
  have hscan : scan "/a//" = ⟨levels, none⟩ := by decide +kernel
  have hscan' : scan "+/a/+/" = ⟨levels, none⟩ := by decide +kernel
  have hplain : hasWildcards "/a//" = false := by decide +kernel
  have hplain' : hasWildcards "/a/" = false := by decide +kernel
  obtain ⟨hread, hwritten, hfilters, htopics⟩ := scanning_inverts_joining
  obtain ⟨hjoin, hself⟩ := hwritten "/a//" levels (by decide) hscan
  exact ⟨htexts, hlast, hread texts htexts hlast, hscan, hjoin, hself, hscan',
    hfilters _ _ _ _ (by decide) (by decide) hscan hscan', hplain, hplain',
    htopics _ _ (by decide) (by decide) hplain hplain'⟩

end TopicRouter
