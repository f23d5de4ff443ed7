import Mathlib.Data.Nat.Find
import Mathlib.Data.String.Basic
import TopicRouter.Topic.Piece

/-!
# The grammar that topics are read by

A topic is read character by character, and yet what is read can be said from
its pieces alone: the cursor yields one level for each piece, up to the first
illegal one, and then the fault of the first character which may not stand
where it stands.  An empty piece is a level as well, unless it is the last.

Pieces begin and end at boundaries between characters, however many bytes a
character takes, and so does what is left to read.

## Main results

* `Level.read_of_legal`, `Level.read_of_illegal` — what is read off a text is
  decided by its first piece.
* `Scan.items_of_legal`, `Scan.items_of_illegal_at` — the items of a scan,
  piece by piece.
* `Scan.fault?_of_plain` — a topic without wildcards has no fault.
* `ShowsFault.unique` — an illegal piece has one fault.
* `LevelReader.nth_ofTopic` — what the cursor yields at each call.
-/

namespace TopicRouter

/-! ## The fault of a piece -/

/-- The character may not stand behind the earlier characters of its piece: a
wildcard never may, and other text not behind a wildcard. -/
inductive Misplaced : List Char → Char → Fault → Prop where
  | multi {before : List Char} : before ≠ [] → Misplaced before '#' .multiNotWhole
  | single {before : List Char} : before ≠ [] → Misplaced before '+' .singleNotWhole
  | text {first c : Char} {before : List Char} :
      first = '+' ∨ first = '#' → c ≠ '+' → c ≠ '#' →
      Misplaced (first :: before) c .wildcardNotWhole

/-- The fault of an illegal piece is that of its first misplaced character.  A
lone `#` has none, and is at fault for the separator behind it. -/
inductive ShowsFault : List Char → Fault → Prop where
  | character {before after : List Char} {c : Char} {fault : Fault} :
      (∀ earlier d later, before = earlier ++ d :: later →
        ∀ fault, ¬ Misplaced earlier d fault) →
      Misplaced before c fault →
      ShowsFault (before ++ c :: after) fault
  | separator : ShowsFault ['#'] .multiNotLast

theorem not_misplaced_nil (c : Char) (fault : Fault) : ¬ Misplaced [] c fault := by
  intro h
  cases h with
  | multi h => exact h rfl
  | single h => exact h rfl

/-- A character shows the fault that it is reported with. -/
theorem Misplaced.eq_ofChar {before : List Char} {c : Char} {fault : Fault}
    (h : Misplaced before c fault) : fault = Fault.ofChar c := by
  cases h with
  | multi => rfl
  | single => rfl
  | text _ hsingle hmulti => simp [Fault.ofChar, hsingle, hmulti]

/-- Of two first misplaced characters, neither stands before the other. -/
private theorem length_le_of_misplaced {before after before' after' : List Char}
    {c c' : Char} {fault : Fault} (hmisplaced : Misplaced before c fault)
    (hfirst : ∀ earlier d later, before' = earlier ++ d :: later →
      ∀ fault, ¬ Misplaced earlier d fault)
    (heq : before ++ c :: after = before' ++ c' :: after') :
    before'.length ≤ before.length := by
  rcases List.append_eq_append_iff.1 heq with ⟨middle, hbefore, hafter⟩ | ⟨middle, hbefore, _⟩
  · cases middle with
    | nil => simp [hbefore]
    | cons d later =>
        rw [List.cons_append, List.cons.injEq] at hafter
        exact absurd (hafter.1 ▸ hmisplaced) (hfirst before d later hbefore fault)
  · simp [hbefore]

/-- A character that stands alone is not misplaced. -/
private theorem not_misplaced_of_singleton {before after : List Char} {c d : Char}
    {fault : Fault} (heq : before ++ c :: after = [d]) : ¬ Misplaced before c fault := by
  have hbefore : before = [] := by
    cases before with
    | nil => rfl
    | cons => simp at heq
  rw [hbefore]
  exact not_misplaced_nil c fault

/-- An illegal piece has one fault. -/
theorem ShowsFault.unique {piece : List Char} {fault fault' : Fault}
    (h : ShowsFault piece fault) (h' : ShowsFault piece fault') : fault = fault' := by
  generalize hpiece : piece = other at h'
  cases h with
  | character hfirst hmisplaced =>
      cases h' with
      | character hfirst' hmisplaced' =>
          have hlength := Nat.le_antisymm
            (length_le_of_misplaced hmisplaced' hfirst hpiece.symm)
            (length_le_of_misplaced hmisplaced hfirst' hpiece)
          obtain ⟨_, hrest⟩ := List.append_inj hpiece hlength
          rw [hmisplaced.eq_ofChar, hmisplaced'.eq_ofChar, (List.cons.inj hrest).1]
      | separator => exact absurd hmisplaced (not_misplaced_of_singleton hpiece)
  | separator =>
      cases h' with
      | character _ hmisplaced' =>
          exact absurd hmisplaced' (not_misplaced_of_singleton hpiece.symm)
      | separator => rfl

/-! ## Reading one piece -/

namespace Level

/-- Behind a piece, either the text ends or a separator follows, which is
dropped with it. -/
def FollowedBy (tail rest : List Char) : Prop :=
  (tail = [] ∧ rest = []) ∨ tail = separator :: rest

theorem close_of_followedBy (level : Level) {tail rest : List Char}
    (h : FollowedBy tail rest) : close level tail = .ok (level, rest) := by
  rcases h with ⟨rfl, rfl⟩ | rfl
  · rfl
  · simp [close]

theorem close_of_ne (level : Level) {c : Char} (hc : c ≠ separator) (tail : List Char) :
    close level (c :: tail) = .error (Fault.ofChar c) := by
  simp [close, hc]

theorem isOrdinary_iff {c : Char} : isOrdinary c = true ↔ c ≠ separator ∧ c ≠ '+' ∧ c ≠ '#' := by
  simp [isOrdinary, separator, and_assoc]

/-- Behind a piece, no ordinary text follows. -/
theorem takeWhile_followedBy {word tail rest : List Char}
    (hword : ∀ c ∈ word, isOrdinary c = true) (h : FollowedBy tail rest) :
    (word ++ tail).takeWhile isOrdinary = word ∧ (word ++ tail).dropWhile isOrdinary = tail := by
  have hsep : isOrdinary separator = false := rfl
  rw [List.takeWhile_append_of_pos hword, List.dropWhile_append_of_pos hword]
  rcases h with ⟨rfl, _⟩ | rfl <;> simp [hsep]

/-- What is read off a text whose first piece is legal. -/
theorem read_of_legal {piece tail rest : List Char} (hpiece : separator ∉ piece)
    (htail : FollowedBy tail rest) (hne : piece ++ tail ≠ [])
    (hlegal : IsLegal tail.isEmpty piece) :
    read (piece ++ tail) = .ok (ofPiece piece, rest) := by
  rcases hlegal with ⟨hsingle, hmulti⟩ | rfl | ⟨rfl, hlast⟩
  · have hordinary : ∀ c ∈ piece, isOrdinary c = true := fun c hc =>
      isOrdinary_iff.2 ⟨ne_of_mem_of_not_mem hc hpiece, ne_of_mem_of_not_mem hc hsingle,
        ne_of_mem_of_not_mem hc hmulti⟩
    cases piece with
    | nil =>
        -- An empty piece is read only where a separator ends it.
        rcases htail with ⟨rfl, _⟩ | rfl
        · exact absurd rfl hne
        · rfl
    | cons c word =>
        obtain ⟨hc, hword⟩ := List.forall_mem_cons.1 hordinary
        obtain ⟨htake, hdrop⟩ := takeWhile_followedBy hword htail
        have hlevel : WellFormed (literal (String.ofList (c :: word))) := by
          refine ⟨by simp [← String.toList_inj], ?_⟩
          rwa [String.toList_ofList]
        rw [List.cons_append, read_ordinary hc, htake, hdrop, close_of_followedBy _ htail,
          ofPiece, if_neg (List.cons_ne_nil c word), ← ofText_text hlevel]
        rfl
  · exact close_of_followedBy single htail
  · rcases htail with ⟨rfl, rfl⟩ | rfl
    · rfl
    · cases hlast

/-- Text behind a leading wildcard is at fault. -/
private theorem showsFault_of_wildcard {first : Char} (hfirst : first = '+' ∨ first = '#')
    (c : Char) (after : List Char) : ShowsFault (first :: c :: after) (Fault.ofChar c) := by
  refine @ShowsFault.character [first] after c _ ?_ ?_
  · intro earlier d later hearlier
    exact fun fault => not_misplaced_of_singleton hearlier.symm
  · by_cases hmulti : c = '#'
    · rw [hmulti]
      exact .multi (List.cons_ne_nil _ _)
    by_cases hsingle : c = '+'
    · rw [hsingle]
      exact .single (List.cons_ne_nil _ _)
    · rw [Fault.ofChar, if_neg hmulti, if_neg hsingle]
      exact .text hfirst hsingle hmulti

/-- A wildcard behind plain text is at fault. -/
private theorem showsFault_of_ordinary {word : List Char} (hne : word ≠ [])
    (hword : ∀ c ∈ word, isOrdinary c = true) {c : Char} (hc : c = '+' ∨ c = '#')
    (after : List Char) : ShowsFault (word ++ c :: after) (Fault.ofChar c) := by
  refine .character ?_ ?_
  · rintro earlier d later rfl fault hmisplaced
    obtain ⟨_, hd, hd'⟩ := isOrdinary_iff.1 (hword d (by simp))
    cases hmisplaced with
    | multi => exact hd' rfl
    | single => exact hd rfl
    | text hfirst =>
        obtain ⟨_, hplain, hplain'⟩ := isOrdinary_iff.1 (hword _ List.mem_cons_self)
        exact hfirst.elim hplain hplain'
  · rcases hc with rfl | rfl
    · exact .single hne
    · exact .multi hne

/-- A piece that is not plain text has a first wildcard. -/
private theorem exists_first_wildcard {piece : List Char} (hpiece : separator ∉ piece)
    (hplain : ¬ ('+' ∉ piece ∧ '#' ∉ piece)) :
    ∃ word c after, piece = word ++ c :: after ∧ (∀ d ∈ word, isOrdinary d = true) ∧
      (c = '+' ∨ c = '#') := by
  induction piece with
  | nil => simp at hplain
  | cons first more ih =>
      have hfirst := List.ne_of_not_mem_cons hpiece
      have hmore := List.not_mem_of_not_mem_cons hpiece
      by_cases hwildcard : first = '+' ∨ first = '#'
      · exact ⟨[], first, more, rfl, fun d hd => (List.not_mem_nil hd).elim, hwildcard⟩
      · have hordinary : isOrdinary first = true :=
          isOrdinary_iff.2 ⟨hfirst.symm, not_or.1 hwildcard⟩
        obtain ⟨word, c, after, rfl, hword, hc⟩ := ih hmore (by
          simp only [List.mem_cons, not_or] at hplain hwildcard
          grind)
        exact ⟨first :: word, c, after, rfl, List.forall_mem_cons.2 ⟨hordinary, hword⟩, hc⟩

/-- What is read off a text whose first piece is illegal. -/
theorem read_of_illegal {piece tail rest : List Char} (hpiece : separator ∉ piece)
    (htail : FollowedBy tail rest) (hillegal : ¬ IsLegal tail.isEmpty piece) :
    ∃ fault, ShowsFault piece fault ∧ read (piece ++ tail) = .error fault := by
  obtain ⟨word, c, after, rfl, hword, hc⟩ :=
    exists_first_wildcard hpiece fun hplain => hillegal (.inl hplain)
  have hsep : isOrdinary c = false := by
    rcases hc with rfl | rfl <;> rfl
  cases word with
  | cons first word =>
      -- Plain text comes first, and the wildcard behind it is at fault.
      obtain ⟨hfirst, hrest⟩ := List.forall_mem_cons.1 hword
      have hdrop : (word ++ c :: after ++ tail).dropWhile isOrdinary = c :: (after ++ tail) := by
        rw [List.append_assoc, List.dropWhile_append_of_pos hrest, List.cons_append,
          List.dropWhile_cons_of_neg (by simp [hsep])]
      have hne : c ≠ separator := by
        rcases hc with rfl | rfl <;> decide
      refine ⟨_, showsFault_of_ordinary (List.cons_ne_nil first word) hword hc after, ?_⟩
      rw [List.cons_append, List.cons_append, read_ordinary hfirst, hdrop, close_of_ne _ hne]
  | nil =>
      rw [List.nil_append] at hpiece hillegal ⊢
      cases after with
      | nil =>
          -- A lone `#` that is not the last piece.
          rcases hc with rfl | rfl
          · exact absurd (.inr (.inl rfl)) hillegal
          · rcases htail with ⟨rfl, _⟩ | rfl
            · exact absurd (.inr (.inr ⟨rfl, rfl⟩)) hillegal
            · exact ⟨_, .separator, rfl⟩
      | cons d after =>
          have hd : d ≠ separator := fun h => hpiece (by simp [h])
          refine ⟨_, showsFault_of_wildcard hc d after, ?_⟩
          rcases hc with rfl | rfl
          · exact close_of_ne single hd _
          · simp only [List.cons_append, read, List.head?_cons, Option.some.injEq, hd]
            exact close_of_ne multi hd _

/-- A level is written as its piece is, save for an empty one. -/
theorem text_ofPiece (piece : List Char) :
    (ofPiece piece).text = if piece = [] then "+" else String.ofList piece := by
  unfold ofPiece
  split
  · rfl
  · exact text_ofText _

end Level

/-! ## Reading piece by piece -/

/-- A text is its last piece, or a piece and a separator before a text. -/
theorem pieces_cases (chars : List Char) :
    (separator ∉ chars ∧ pieces chars = [chars]) ∨
      ∃ piece rest, separator ∉ piece ∧ chars = piece ++ separator :: rest ∧
        pieces chars = piece :: pieces rest := by
  by_cases hmem : separator ∈ chars
  · obtain ⟨piece, rest, hchars, hpiece⟩ := List.eq_append_cons_of_mem hmem
    refine .inr ⟨piece, rest, hpiece, hchars, ?_⟩
    rw [hchars, pieces, List.splitOn_append_cons_self, List.splitOn_eq_singleton hpiece]
    rfl
  · exact .inl ⟨hmem, List.splitOn_eq_singleton hmem⟩

theorem pieces_ne_nil (chars : List Char) : pieces chars ≠ [] :=
  List.splitOn_ne_nil separator chars

/-- The piece at a place is legal, as far as there is one. -/
def LegalAt (all : List (List Char)) (n : Nat) : Prop :=
  ∀ piece ∈ all[n]?, IsLegal (n + 1 = all.length) piece

instance (all : List (List Char)) : DecidablePred (LegalAt all) := fun n =>
  inferInstanceAs (Decidable (∀ piece ∈ all[n]?, _))

/-- The text that begins with the piece at a place. -/
def unreadAt (all : List (List Char)) (n : Nat) : List Char :=
  [separator].intercalate (all.drop n)

theorem legalAt_cons_succ {piece : List Char} {more : List (List Char)} {n : Nat} :
    LegalAt (piece :: more) (n + 1) ↔ LegalAt more n := by
  simp [LegalAt]

theorem legalAt_cons_zero {piece : List Char} {more : List (List Char)} :
    LegalAt (piece :: more) 0 ↔ IsLegal more.isEmpty piece := by
  cases more <;> simp [LegalAt]

theorem legalAt_of_cons {piece : List Char} {more : List (List Char)} {n : Nat}
    (h : ∀ m < n + 1, LegalAt (piece :: more) m) : ∀ m < n, LegalAt more m :=
  fun m hm => legalAt_cons_succ.1 (h (m + 1) (Nat.succ_lt_succ hm))

theorem unreadAt_pieces_zero (chars : List Char) : unreadAt (pieces chars) 0 = chars :=
  intercalate_pieces chars

namespace Scan

/-- A legal piece and its separator yield a level. -/
theorem items_of_legal_cons {piece rest : List Char} (hpiece : separator ∉ piece)
    (hlegal : IsLegal false piece) :
    (ofChars (piece ++ separator :: rest)).items =
      .ok (Level.ofPiece piece) :: (ofChars rest).items := by
  have hne : piece ++ separator :: rest ≠ [] := by simp
  rw [ofChars_of_ok hne (Level.read_of_legal hpiece (.inr rfl) hne hlegal), items_cons]

/-- A legal last piece yields a level unless it is empty. -/
theorem items_of_legal_last {piece : List Char} (hpiece : separator ∉ piece)
    (hlegal : IsLegal true piece) :
    (ofChars piece).items = if piece = [] then [] else [.ok (Level.ofPiece piece)] := by
  split
  · rename_i hempty
    rw [hempty, ofChars_nil]
    rfl
  · rename_i hne
    have hread := Level.read_of_legal hpiece (.inl ⟨rfl, rfl⟩) (by simpa using hne) hlegal
    rw [List.append_nil] at hread
    rw [ofChars_of_ok hne hread, items_cons, ofChars_nil]
    rfl

/-- An illegal piece yields its fault, and nothing is read behind it. -/
theorem items_of_illegal {piece tail rest : List Char} (hpiece : separator ∉ piece)
    (htail : Level.FollowedBy tail rest) (hillegal : ¬ IsLegal tail.isEmpty piece) :
    ∃ fault, ShowsFault piece fault ∧
      (ofChars (piece ++ tail)).items =
        [.error (.malformed (String.ofList (piece ++ tail)) fault)] := by
  obtain ⟨fault, hfault, hread⟩ := Level.read_of_illegal hpiece htail hillegal
  have hne : piece ++ tail ≠ [] := by
    intro hnil
    rw [(List.append_eq_nil_iff.1 hnil).1] at hillegal
    exact hillegal (.inl ⟨List.not_mem_nil, List.not_mem_nil⟩)
  refine ⟨fault, hfault, ?_⟩
  rw [ofChars_of_error hne hread]
  rfl

/-- What the first piece of a text says about the items of the text. -/
theorem items_cases (chars : List Char) :
    (pieces chars = [chars] ∧ IsLegal true chars ∧
        (ofChars chars).items = if chars = [] then [] else [.ok (Level.ofPiece chars)]) ∨
      (∃ piece rest, pieces chars = piece :: pieces rest ∧ IsLegal false piece ∧
        (ofChars chars).items = .ok (Level.ofPiece piece) :: (ofChars rest).items) ∨
      ∃ piece more fault, pieces chars = piece :: more ∧ ¬ IsLegal more.isEmpty piece ∧
        ShowsFault piece fault ∧
        (ofChars chars).items = [.error (.malformed (String.ofList chars) fault)] := by
  rcases pieces_cases chars with ⟨hsep, heq⟩ | ⟨piece, rest, hsep, rfl, heq⟩
  · by_cases hlegal : IsLegal true chars
    · exact .inl ⟨heq, hlegal, items_of_legal_last hsep hlegal⟩
    · obtain ⟨fault, hfault, hitems⟩ := items_of_illegal hsep (.inl ⟨rfl, rfl⟩) hlegal
      rw [List.append_nil] at hitems
      exact .inr (.inr ⟨chars, [], fault, heq, hlegal, hfault, hitems⟩)
  · have hmore := List.isEmpty_eq_false_iff.2 (pieces_ne_nil rest)
    by_cases hlegal : IsLegal false piece
    · exact .inr (.inl ⟨piece, rest, heq, hlegal, items_of_legal_cons hsep hlegal⟩)
    · obtain ⟨fault, hfault, hitems⟩ := items_of_illegal hsep (.inr rfl) hlegal
      exact .inr (.inr ⟨piece, pieces rest, fault, heq, by rwa [hmore], hfault, hitems⟩)

/-- **The levels of the legal pieces.**  A piece yields its level if it is
legal and all before it are, save that an empty last piece yields nothing. -/
theorem items_of_legal {chars : List Char} {n : Nat}
    (hlegal : ∀ m < n + 1, LegalAt (pieces chars) m) :
    (ofChars chars).items[n]? = (pieces chars)[n]?.bind fun piece =>
      if piece = [] ∧ n + 1 = (pieces chars).length then none
      else some (.ok (Level.ofPiece piece)) := by
  induction n generalizing chars with
  | zero =>
      rcases items_cases chars with
        ⟨heq, _, hitems⟩ | ⟨first, rest, heq, _, hitems⟩ | ⟨first, more, fault, heq, hfirst, _⟩
      · rw [heq, hitems]
        by_cases hempty : chars = [] <;> simp [hempty]
      · rw [heq, hitems]
        simp [pieces_ne_nil rest]
      · have hlegal := hlegal 0 Nat.one_pos
        rw [heq, legalAt_cons_zero] at hlegal
        exact absurd hlegal hfirst
  | succ n ih =>
      rcases items_cases chars with
        ⟨heq, _, hitems⟩ | ⟨first, rest, heq, _, hitems⟩ | ⟨first, more, fault, heq, hfirst, _⟩
      · rw [heq, hitems]
        by_cases hempty : chars = [] <;> simp [hempty]
      · rw [heq] at hlegal
        rw [heq, hitems, List.getElem?_cons_succ, List.getElem?_cons_succ,
          ih (legalAt_of_cons hlegal), List.length_cons]
        simp only [Nat.add_right_cancel_iff]
      · have hlegal := hlegal 0 (Nat.succ_pos _)
        rw [heq, legalAt_cons_zero] at hlegal
        exact absurd hlegal hfirst

/-- **The fault of the first illegal piece** is the last item, and names the
text from that piece on. -/
theorem items_of_illegal_at {chars : List Char} {n : Nat}
    (hlegal : ∀ m < n, LegalAt (pieces chars) m) (hillegal : ¬ LegalAt (pieces chars) n) :
    ∃ piece fault, (pieces chars)[n]? = some piece ∧ ShowsFault piece fault ∧
      (ofChars chars).items.length = n + 1 ∧
      (ofChars chars).items[n]? =
        some (.error (.malformed (String.ofList (unreadAt (pieces chars) n)) fault)) := by
  induction n generalizing chars with
  | zero =>
      rcases items_cases chars with
        ⟨heq, hfirst, _⟩ | ⟨first, rest, heq, hfirst, _⟩ |
          ⟨first, more, fault, heq, _, hfault, hitems⟩
      · rw [heq, legalAt_cons_zero] at hillegal
        exact absurd hfirst hillegal
      · rw [heq, legalAt_cons_zero, List.isEmpty_eq_false_iff.2 (pieces_ne_nil rest)] at hillegal
        exact absurd hfirst hillegal
      · refine ⟨first, fault, by rw [heq]; rfl, hfault, by rw [hitems]; rfl, ?_⟩
        rw [hitems, unreadAt_pieces_zero]
        rfl
  | succ n ih =>
      rcases items_cases chars with
        ⟨heq, _, _⟩ | ⟨first, rest, heq, _, hitems⟩ | ⟨first, more, fault, heq, hfirst, _⟩
      · rw [heq, legalAt_cons_succ] at hillegal
        exact absurd (fun piece hpiece => by simp at hpiece) hillegal
      · rw [heq] at hlegal
        rw [heq, legalAt_cons_succ] at hillegal
        obtain ⟨piece, fault, hpiece, hfault, hlength, hitem⟩ :=
          ih (legalAt_of_cons hlegal) hillegal
        rw [heq, hitems]
        exact ⟨piece, fault, hpiece, hfault, congrArg Nat.succ hlength, hitem⟩
      · have hlegal := hlegal 0 (Nat.succ_pos n)
        rw [heq, legalAt_cons_zero] at hlegal
        exact absurd hlegal hfirst

/-- There is no item behind the last piece. -/
theorem items_of_length_le {chars : List Char} {n : Nat} (h : (pieces chars).length ≤ n) :
    (ofChars chars).items[n]? = none := by
  by_cases hlegal : ∀ m < n + 1, LegalAt (pieces chars) m
  · rw [items_of_legal hlegal, List.getElem?_eq_none h]
    rfl
  · -- Some piece is illegal, and no item comes behind the first such piece.
    classical
    have hillegal : ∃ m, ¬ LegalAt (pieces chars) m := by
      push Not at hlegal
      exact hlegal.imp fun m hm => hm.2
    have hbefore : ∀ m < Nat.find hillegal, LegalAt (pieces chars) m :=
      fun m hm => not_not.1 (Nat.find_min hillegal hm)
    obtain ⟨piece, fault, hpiece, _, hlength, _⟩ :=
      items_of_illegal_at hbefore (Nat.find_spec hillegal)
    have hplace := (List.getElem?_eq_some_iff.1 hpiece).1
    exact List.getElem?_eq_none (by omega)

end Scan

/-! ## Topics without wildcards -/

/-- Plain text yields a level, and leaves plain text to read. -/
theorem Level.read_of_plain {chars : List Char} (hne : chars ≠ []) (hsingle : '+' ∉ chars)
    (hmulti : '#' ∉ chars) :
    ∃ level rest, read chars = .ok (level, rest) ∧ rest ⊆ chars := by
  rcases pieces_cases chars with ⟨hsep, _⟩ | ⟨piece, rest, hsep, hchars, _⟩
  · have hread := read_of_legal hsep (.inl ⟨rfl, rfl⟩) (by simpa using hne)
      (.inl ⟨hsingle, hmulti⟩)
    rw [List.append_nil] at hread
    exact ⟨_, _, hread, List.nil_subset chars⟩
  · subst hchars
    have hlegal : IsLegal false piece :=
      .inl ⟨fun h => hsingle (List.mem_append_left _ h), fun h => hmulti (List.mem_append_left _ h)⟩
    refine ⟨_, rest, read_of_legal hsep (.inr rfl) hne hlegal, fun c hc => ?_⟩
    exact List.mem_append_right _ (List.mem_cons_of_mem _ hc)

namespace Scan

/-- Only wildcards can be at fault. -/
theorem fault?_of_plain {chars : List Char} (hsingle : '+' ∉ chars) (hmulti : '#' ∉ chars) :
    (ofChars chars).fault? = none := by
  fun_induction ofChars chars with
  | case1 => rfl
  | case2 chars hne level rest hread ih =>
      obtain ⟨_, rest', hread', hrest⟩ := Level.read_of_plain hne hsingle hmulti
      rw [hread, Except.ok.injEq, Prod.mk.injEq] at hread'
      rw [← hread'.2] at hrest
      exact ih (fun h => hsingle (hrest h)) fun h => hmulti (hrest h)
  | case3 chars hne fault hread =>
      obtain ⟨_, _, hread', _⟩ := Level.read_of_plain hne hsingle hmulti
      rw [hread] at hread'
      cases hread'

/-- A text has a level or a fault. -/
theorem levels_ne_nil {chars : List Char} (hne : chars ≠ [])
    (hfault : (ofChars chars).fault? = none) : (ofChars chars).levels ≠ [] := by
  cases hread : Level.read chars with
  | ok read =>
      rw [ofChars_of_ok hne hread]
      exact List.cons_ne_nil _ _
  | error fault =>
      rw [ofChars_of_error hne hread] at hfault
      cases hfault

end Scan

/-! ## Where the pieces stand -/

/-- Between two byte offsets of the topic, both of them boundaries between
characters, stands the text. -/
structure IsSlice (topic : String) (start stop : Nat) (text : String) : Prop where
  start_isValid : String.Pos.Raw.IsValid topic ⟨start⟩
  stop_isValid : String.Pos.Raw.IsValid topic ⟨stop⟩
  extract_eq : String.Pos.Raw.extract topic ⟨start⟩ ⟨stop⟩ = text

/-- The text before the piece at a place, with the separator behind each
earlier piece. -/
def readBefore (all : List (List Char)) (n : Nat) : List Char :=
  (all.take n).flatMap (· ++ [separator])

theorem readBefore_append_unreadAt {all : List (List Char)} {n : Nat} (h : n < all.length) :
    readBefore all n ++ unreadAt all n = [separator].intercalate all := by
  induction n generalizing all with
  | zero => rfl
  | succ n ih =>
      cases all with
      | nil => cases h
      | cons piece more =>
          have hmore := Nat.lt_of_succ_lt_succ h
          rw [List.intercalate_cons_of_ne_nil (List.ne_nil_of_length_pos (by omega)), ← ih hmore]
          simp [readBefore, unreadAt]

theorem exists_unreadAt_eq {all : List (List Char)} {n : Nat} {piece : List Char}
    (hpiece : all[n]? = some piece) : ∃ after, unreadAt all n = piece ++ after := by
  obtain ⟨hn, hget⟩ := List.getElem?_eq_some_iff.1 hpiece
  rw [unreadAt, List.drop_eq_getElem_cons hn, hget]
  by_cases hmore : all.drop (n + 1) = []
  · exact ⟨[], by simp [hmore]⟩
  · rw [List.intercalate_cons_of_ne_nil hmore, List.append_assoc]
    exact ⟨_, rfl⟩

theorem isSlice_of_toList {topic : String} {before text after : List Char}
    (h : topic.toList = before ++ text ++ after) :
    IsSlice topic (String.ofList before).utf8ByteSize
      ((String.ofList before).utf8ByteSize + (String.ofList text).utf8ByteSize)
      (String.ofList text) := by
  have htopic : topic = String.ofList before ++ String.ofList text ++ String.ofList after := by
    rw [← String.ofList_append, ← String.ofList_append, ← h, String.ofList_toList]
  refine ⟨?_, ?_, ?_⟩
  · exact String.Pos.Raw.isValid_iff_exists_append.2
      ⟨_, _, htopic.trans String.append_assoc, rfl⟩
  · exact String.Pos.Raw.isValid_iff_exists_append.2
      ⟨_, _, htopic, by rw [String.rawEndPos, String.utf8ByteSize_append]⟩
  · rw [htopic, ← String.ofList_append, ← String.ofList_append, String.utf8ByteSize_ofList,
      String.utf8ByteSize_ofList]
    exact String.extract_of_valid before text after

/-- A piece stands behind what comes before it, and so does all that follows. -/
theorem isSlice_of_piece {topic : String} {n : Nat} {piece : List Char}
    (hpiece : (pieces topic.toList)[n]? = some piece) :
    let all := pieces topic.toList
    let start := (String.ofList (readBefore all n)).utf8ByteSize
    IsSlice topic start (start + (String.ofList piece).utf8ByteSize) (String.ofList piece) ∧
      IsSlice topic start topic.utf8ByteSize (String.ofList (unreadAt all n)) := by
  intro all start
  obtain ⟨after, hafter⟩ := exists_unreadAt_eq hpiece
  have htopic : topic.toList = readBefore all n ++ unreadAt all n := by
    rw [readBefore_append_unreadAt (List.getElem?_eq_some_iff.1 hpiece).1]
    exact (intercalate_pieces topic.toList).symm
  constructor
  · have hsplit : topic.toList = readBefore all n ++ piece ++ after := by
      rw [htopic, hafter, List.append_assoc]
    exact isSlice_of_toList hsplit
  · have hsize : topic.utf8ByteSize =
        start + (String.ofList (unreadAt all n)).utf8ByteSize := by
      rw [← String.utf8ByteSize_append, ← String.ofList_append, ← htopic, String.ofList_toList]
    have hsplit : topic.toList = readBefore all n ++ unreadAt all n ++ [] := by
      rw [htopic, List.append_nil]
    rw [hsize]
    exact isSlice_of_toList hsplit

namespace LevelReader

/-- The cursor after some calls. -/
def advance (reader : LevelReader) : Nat → LevelReader
  | 0 => reader
  | n + 1 => reader.next.2.advance n

/-- A legal piece is read together with its separator. -/
theorem next_of_legal {piece rest : List Char} (hpiece : separator ∉ piece)
    (hlegal : IsLegal false piece) : (next ⟨piece ++ separator :: rest⟩).2 = ⟨rest⟩ := by
  have hne : piece ++ separator :: rest ≠ [] := by simp
  simp only [next, if_neg hne, Level.read_of_legal hpiece (.inr rfl) hne hlegal]

/-- Behind legal pieces, the cursor stands where the next piece begins. -/
theorem unread_advance {chars : List Char} {n : Nat} (hn : n < (pieces chars).length)
    (hlegal : ∀ m < n, LegalAt (pieces chars) m) :
    (advance ⟨chars⟩ n).unread = unreadAt (pieces chars) n := by
  induction n generalizing chars with
  | zero => exact (unreadAt_pieces_zero chars).symm
  | succ n ih =>
      rcases pieces_cases chars with ⟨_, heq⟩ | ⟨piece, rest, hsep, rfl, heq⟩
      · simp [heq] at hn
      · rw [heq] at hn hlegal ⊢
        have hfirst := hlegal 0 (Nat.succ_pos n)
        rw [legalAt_cons_zero, List.isEmpty_eq_false_iff.2 (pieces_ne_nil rest)] at hfirst
        rw [advance, next_of_legal hsep hfirst,
          ih (Nat.lt_of_succ_lt_succ hn) (legalAt_of_cons hlegal)]
        rfl

/-- **The cursor reads the grammar of topics.**  At its `n`-th call it yields
the level of the `n`-th piece, as long as no piece up to there is illegal; an
empty last piece yields nothing.  For the first illegal piece it yields the
fault of that piece with the text from there on, and then nothing.  It yields
nothing once it has been called for each piece.  A piece that it reaches, which
is the text of its level unless it is empty, and all that is left to read from
there, are slices of the topic. -/
theorem nth_ofTopic (topic : String) (n : Nat) :
    ((∀ m < n + 1, LegalAt (pieces topic.toList) m) →
      (ofTopic topic).nth n = (pieces topic.toList)[n]?.bind fun piece =>
        if piece = [] ∧ n + 1 = (pieces topic.toList).length then none
        else some (.ok (Level.ofPiece piece))) ∧
    ((∀ m < n, LegalAt (pieces topic.toList) m) → ¬ LegalAt (pieces topic.toList) n →
      ∃ piece fault, (pieces topic.toList)[n]? = some piece ∧
        (∀ other, ShowsFault piece other ↔ other = fault) ∧
        (ofTopic topic).nth n =
          some (.error (.malformed (String.ofList (unreadAt (pieces topic.toList) n)) fault)) ∧
        ∀ m > n, (ofTopic topic).nth m = none) ∧
    ((pieces topic.toList).length ≤ n → (ofTopic topic).nth n = none) ∧
    ((∀ m < n, LegalAt (pieces topic.toList) m) →
      ∀ piece, (pieces topic.toList)[n]? = some piece →
        let start := (String.ofList (readBefore (pieces topic.toList) n)).utf8ByteSize
        (Level.ofPiece piece).text = (if piece = [] then "+" else String.ofList piece) ∧
          IsSlice topic start (start + (String.ofList piece).utf8ByteSize)
            (String.ofList piece) ∧
          IsSlice topic start topic.utf8ByteSize
            (String.ofList ((ofTopic topic).advance n).unread)) := by
  have hnth : ∀ n, (ofTopic topic).nth n = (Scan.ofChars topic.toList).items[n]? :=
    nth_eq_items (ofTopic topic)
  refine ⟨fun hlegal => ?_, fun hlegal hillegal => ?_, fun hn => ?_, fun hlegal piece hpiece => ?_⟩
  · rw [hnth, Scan.items_of_legal hlegal]
  · obtain ⟨piece, fault, hpiece, hfault, hlength, hitem⟩ :=
      Scan.items_of_illegal_at hlegal hillegal
    refine ⟨piece, fault, hpiece, fun other => ?_, by rw [hnth, hitem], fun m hm => ?_⟩
    · exact ⟨fun hother => hother.unique hfault, fun hother => hother ▸ hfault⟩
    · rw [hnth, List.getElem?_eq_none (by omega)]
  · rw [hnth, Scan.items_of_length_le hn]
  · have hunread : ((ofTopic topic).advance n).unread = unreadAt (pieces topic.toList) n :=
      unread_advance (List.getElem?_eq_some_iff.1 hpiece).1 hlegal
    rw [hunread]
    exact ⟨Level.text_ofPiece piece, isSlice_of_piece hpiece⟩

/-- A topic with a character of two bytes and an empty level, in which levels
follow the wildcard for all remaining ones. -/
theorem nth_ofTopic_multi_not_last :
    let topic := "é//#/b"
    let all := pieces topic.toList
    (∀ m < 2, LegalAt all m) ∧ ¬ LegalAt all 2 ∧
      ∃ piece fault, all[2]? = some piece ∧ (∀ other, ShowsFault piece other ↔ other = fault) ∧
        (ofTopic topic).nth 2 =
          some (.error (.malformed (String.ofList (unreadAt all 2)) fault)) ∧
        ∀ m > 2, (ofTopic topic).nth m = none := by
  intro topic all
  have hlegal : ∀ m < 2, LegalAt all m := by decide +kernel
  have hillegal : ¬ LegalAt all 2 := by decide +kernel
  exact ⟨hlegal, hillegal, (nth_ofTopic topic 2).2.1 hlegal hillegal⟩

end LevelReader

end TopicRouter
