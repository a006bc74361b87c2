import LedgerLens.Insights

namespace LedgerLens

/-- Two strings that spell the same word, without regard to case. -/
abbrev Spells (word : String) (spelled : List Char) : Prop :=
  List.Forall₂ (fun letter c => matchesIgnoringCase letter c) word.toList spelled

theorem matchWord_eq_some {letters : List Char} {last next : Option Char} {text after : List Char} :
    matchWord letters last text = some (next, after) ↔
      ∃ spelled, text = spelled ++ after ∧
        List.Forall₂ (fun letter c => matchesIgnoringCase letter c) letters spelled ∧
        next = spelled.getLast?.or last := by
  induction letters generalizing last text with
  | nil =>
    simp only [matchWord, Option.some.injEq, Prod.mk.injEq, List.forall₂_nil_left_iff]
    constructor
    · rintro ⟨rfl, rfl⟩
      exact ⟨[], rfl, rfl, rfl⟩
    · rintro ⟨_, rfl, rfl, rfl⟩
      exact ⟨rfl, rfl⟩
  | cons letter letters ih =>
    cases text with
    | nil =>
      simp only [matchWord, reduceCtorEq, false_iff, not_exists, not_and]
      intro spelled empty spells
      rw [(List.append_eq_nil_iff.mp empty.symm).1] at spells
      cases spells
    | cons c rest =>
      rw [matchWord]
      constructor
      · intro matched
        split at matched
        · next same =>
          obtain ⟨spelled, rfl, spells, rfl⟩ := ih.mp matched
          refine ⟨c :: spelled, rfl, .cons same spells, ?_⟩
          rw [List.getLast?_cons]
          cases spelled.getLast? <;> rfl
        · cases matched
      · rintro ⟨spelled, split, spells, rfl⟩
        cases spells with
        | @cons _ d _ spelled same spells =>
          obtain ⟨rfl, rfl⟩ := List.cons.inj split
          rw [if_pos same]
          refine ih.mpr ⟨spelled, rfl, spells, ?_⟩
          rw [List.getLast?_cons]
          cases spelled.getLast? <;> rfl

variable [UnicodeDatabase]

/-- A forbidden word stands in the text as a whole word: its letters in any case, with a word
boundary in front and behind. The first argument is the character before the text. -/
def StandsForbidden (before : Option Char) (text : List Char) : Prop :=
  ∃ front spelled after, text = front ++ spelled ++ after ∧ (∃ word ∈ forbiddenWords, Spells word spelled) ∧
    wordBoundary (front.getLast?.or before) spelled.head? ∧ wordBoundary spelled.getLast? after.head?

omit [UnicodeDatabase] in
theorem Spells.ne_nil {word : String} {spelled : List Char} (forbidden : word ∈ forbiddenWords)
    (spells : Spells word spelled) : spelled ≠ [] := by
  rintro rfl
  have empty : word.toList = [] := List.forall₂_nil_right_iff.mp spells
  have nonempty : ∀ word ∈ forbiddenWords, word.toList ≠ [] := by decide
  exact nonempty word forbidden empty

/-- The search finds exactly the forbidden words that stand in the text. -/
theorem searchForbidden_iff {before : Option Char} {text : List Char} :
    searchForbidden before text ↔ StandsForbidden before text := by
  induction text generalizing before with
  | nil =>
    simp only [searchForbidden, Bool.false_eq_true, false_iff]
    rintro ⟨front, spelled, after, empty, ⟨word, forbidden, spells⟩, _⟩
    exact spells.ne_nil forbidden (List.append_eq_nil_iff.mp (List.append_eq_nil_iff.mp empty.symm).1).2
  | cons c rest ih =>
    rw [searchForbidden, Bool.or_eq_true, Bool.and_eq_true, List.any_eq_true, ih]
    constructor
    · rintro (⟨boundary, word, forbidden, found⟩ | ⟨front, spelled, after, rfl, spells, opens, closes⟩)
      · split at found
        · next last after matched =>
          obtain ⟨spelled, split, spells, rfl⟩ := matchWord_eq_some.mp matched
          have nonempty := Spells.ne_nil forbidden spells
          refine ⟨[], spelled, after, split, ⟨word, forbidden, spells⟩, ?_, ?_⟩
          · obtain ⟨first, others, rfl⟩ := List.exists_cons_of_ne_nil nonempty
            rw [(List.cons.inj split).1] at boundary
            exact boundary
          · rwa [List.getLast?_eq_some_getLast nonempty] at found ⊢
        · cases found
      · refine ⟨c :: front, spelled, after, rfl, spells, ?_, closes⟩
        rw [List.getLast?_cons]
        cases last : front.getLast? <;> rw [last] at opens <;> exact opens
    · rintro ⟨front, spelled, after, split, ⟨word, forbidden, spells⟩, opens, closes⟩
      have nonempty := spells.ne_nil forbidden
      cases front with
      | nil =>
        left
        have matched : matchWord word.toList before (c :: rest) = some (spelled.getLast?.or before, after) :=
          matchWord_eq_some.mpr ⟨spelled, split, spells, rfl⟩
        obtain ⟨first, others, rfl⟩ := List.exists_cons_of_ne_nil nonempty
        refine ⟨?_, word, forbidden, ?_⟩
        · rw [(List.cons.inj split).1]
          exact opens
        · rw [matched]
          rwa [List.getLast?_eq_some_getLast nonempty] at closes ⊢
      | cons d front =>
        right
        obtain ⟨rfl, tail⟩ := List.cons.inj split
        refine ⟨front, spelled, after, tail, ⟨word, forbidden, spells⟩, ?_, closes⟩
        rw [List.getLast?_cons] at opens
        cases last : front.getLast? <;> rw [last] at opens <;> exact opens

theorem isWordChar_space : isWordChar ' ' = false := by
  rw [isWordChar, UnicodeDatabase.isAlnum_ascii ' ' (by decide)]
  decide

/-- Next to a character that is no letter, a boundary is where it would be without one. -/
theorem head?_any_quiet {c : Char} (quiet : isWordChar c = false) (rest right : List Char) :
    (rest ++ c :: right).head?.any isWordChar = rest.head?.any isWordChar := by
  cases rest with
  | nil => exact quiet
  | cons => rfl

theorem getLast?_any_quiet {c : Char} (quiet : isWordChar c = false) (left rest : List Char) :
    (left ++ c :: rest).getLast?.any isWordChar = rest.getLast?.any isWordChar := by
  rw [List.getLast?_append, List.getLast?_cons]
  cases rest.getLast? with
  | none => exact quiet
  | some d => rfl

/-- Nothing forbidden reaches across a character that is in no word. -/
theorem standsForbidden_split {c : Char} (quiet : isWordChar c = false)
    (foreign : ∀ word ∈ forbiddenWords, ∀ letter ∈ word.toList, ¬ matchesIgnoringCase letter c)
    {left right : List Char} :
    StandsForbidden none (left ++ c :: right) ↔ StandsForbidden none left ∨ StandsForbidden none right := by
  simp only [StandsForbidden, List.append_assoc, Option.or_none, wordBoundary]
  constructor
  · rintro ⟨front, spelled, after, split, ⟨word, forbidden, spells⟩, opens, closes⟩
    have absent : c ∉ spelled := by
      intro member
      obtain ⟨i, bound, rfl⟩ := List.getElem_of_mem member
      have related := spells.get (spells.length_eq ▸ bound) bound
      exact foreign word forbidden _ (List.get_mem _ _) related
    rcases Text.split_around absent split with ⟨rest, rfl, rfl⟩ | ⟨rest, rfl, rfl⟩
    · rw [head?_any_quiet quiet] at closes
      exact .inl ⟨front, spelled, rest, rfl, ⟨word, forbidden, spells⟩, opens, closes⟩
    · rw [getLast?_any_quiet quiet] at opens
      exact .inr ⟨rest, spelled, after, rfl, ⟨word, forbidden, spells⟩, opens, closes⟩
  · rintro (⟨front, spelled, after, rfl, spells, opens, closes⟩ | ⟨front, spelled, after, rfl, spells, opens, closes⟩)
    · refine ⟨front, spelled, after ++ c :: right, by simp, spells, opens, ?_⟩
      rwa [head?_any_quiet quiet]
    · refine ⟨left ++ c :: front, spelled, after, by simp, spells, ?_, closes⟩
      rwa [getLast?_any_quiet quiet]

omit [UnicodeDatabase] in
theorem lowercase_of_forbidden {word : String} (forbidden : word ∈ forbiddenWords) {letter : Char}
    (member : letter ∈ word.toList) : 97 ≤ letter.toNat ∧ letter.toNat ≤ 122 := by
  have letters : (forbiddenWords.all fun word => word.toList.all fun letter =>
      decide (97 ≤ letter.toNat ∧ letter.toNat ≤ 122)) = true := by decide
  exact of_decide_eq_true (List.all_eq_true.mp (List.all_eq_true.mp letters word forbidden) letter member)

omit [UnicodeDatabase] in
theorem not_isSpace_of_matches {letter c : Char} (lowercase : 97 ≤ letter.toNat ∧ letter.toNat ≤ 122)
    (same : matchesIgnoringCase letter c) : Text.isSpace c = false := by
  have range : 65 ≤ c.toNat ∧ c.toNat ≤ 122 ∨ c.toNat = 0x17f ∨ c.toNat = 0x130 ∨ c.toNat = 0x131 := by
    simp only [matchesIgnoringCase, Bool.or_eq_true, Bool.and_eq_true, decide_eq_true_eq] at same
    rcases same with (lower | ⟨_, long⟩) | ⟨_, turkish⟩
    · left
      rw [Char.toLower.eq_def] at lower
      split at lower
      · next upper =>
        have first : 65 ≤ c.toNat := UInt32.le_iff_toNat_le.mp upper.1
        have last : c.toNat ≤ 90 := UInt32.le_iff_toNat_le.mp upper.2
        omega
      · subst lower
        omega
    · exact .inr (.inl long)
    · exact .inr (.inr turkish)
  simp only [Text.isSpace, Bool.or_eq_false_iff, Bool.and_eq_false_iff, decide_eq_false_iff_not]
  omega

/-- No character that `strip` removes counts as a letter or number. -/
def SpacesApart : Prop := ∀ c, Text.isSpace c → UnicodeDatabase.isAlnum c = false

theorem SpacesApart.isWordChar (apart : SpacesApart) {c : Char} (space : Text.isSpace c) : isWordChar c = false := by
  have other : c ≠ '_' := by
    rintro rfl
    exact absurd space (by decide)
  rw [LedgerLens.isWordChar, apart c space, Bool.false_or, decide_eq_false other]

theorem SpacesApart.split (apart : SpacesApart) {c : Char} (space : Text.isSpace c) {left right : List Char} :
    StandsForbidden none (left ++ c :: right) ↔ StandsForbidden none left ∨ StandsForbidden none right :=
  standsForbidden_split (apart.isWordChar space) fun word forbidden letter member same =>
    absurd space (by simp [not_isSpace_of_matches (lowercase_of_forbidden forbidden member) same])

theorem not_standsForbidden_nil : ¬ StandsForbidden none [] := by
  rw [← searchForbidden_iff]
  exact Bool.false_ne_true

theorem SpacesApart.dropWhile (apart : SpacesApart) (text : List Char) :
    StandsForbidden none (text.dropWhile Text.isSpace) ↔ StandsForbidden none text := by
  induction text with
  | nil => rfl
  | cons c rest ih =>
    rw [List.dropWhile_cons]
    split
    · next space => rw [ih, ← List.nil_append (c :: rest), apart.split space, or_iff_right not_standsForbidden_nil]
    · rfl

theorem SpacesApart.reverse_dropWhile (apart : SpacesApart) (text : List Char) :
    StandsForbidden none (text.dropWhile Text.isSpace).reverse ↔ StandsForbidden none text.reverse := by
  induction text with
  | nil => rfl
  | cons c rest ih =>
    rw [List.dropWhile_cons]
    split
    · next space => rw [ih, List.reverse_cons, apart.split space, or_iff_left not_standsForbidden_nil]
    · rfl

/-- Stripping a text changes nothing in the words it holds. -/
theorem SpacesApart.strip (apart : SpacesApart) (text : String) :
    StandsForbidden none (Text.strip text).toList ↔ StandsForbidden none text.toList := by
  rw [Text.strip, String.toList_ofList, apart.reverse_dropWhile, List.reverse_reverse, apart.dropWhile]

/-- Among parts joined by spaces, a forbidden word stands in one of them. -/
theorem standsForbidden_intercalate {parts : List String} :
    StandsForbidden none (" ".intercalate parts).toList ↔ ∃ part ∈ parts, StandsForbidden none part.toList := by
  have foreign : ∀ word ∈ forbiddenWords, ∀ letter ∈ word.toList, ¬ matchesIgnoringCase letter ' ' :=
    fun word forbidden letter member same =>
      absurd (not_isSpace_of_matches (lowercase_of_forbidden forbidden member) same) (by decide)
  rw [String.toList_intercalate]
  change StandsForbidden none ([' '].intercalate _) ↔ _
  induction parts with
  | nil => simpa using not_standsForbidden_nil
  | cons first rest ih =>
    cases rest with
    | nil => simp
    | cons second rest =>
      rw [List.map_cons, List.map_cons, List.intercalate_cons_cons, List.append_assoc, List.singleton_append,
        standsForbidden_split isWordChar_space foreign, ← List.map_cons, ih]
      simp only [List.exists_mem_cons_iff]

/-- What the validation accepts has no forbidden word in its summary or in a limitation. -/
theorem validateGeneratedInsight_clean {generated : GeneratedInsight}
    (accepted : validateGeneratedInsight generated = .ok ()) :
    ∀ text ∈ generated.summary :: generated.additionalLimitations, ¬ StandsForbidden none text.toList := by
  intro text member stands
  rw [validateGeneratedInsight] at accepted
  split at accepted
  · cases accepted
  · split at accepted
    · cases accepted
    · split at accepted
      · cases accepted
      · next clean =>
        exact clean (searchForbidden_iff.mpr (standsForbidden_intercalate.mpr ⟨text, member, stands⟩))

theorem validateGeneratedInsight_limitations {generated : GeneratedInsight}
    (accepted : validateGeneratedInsight generated = .ok ()) : generated.additionalLimitations.length ≤ 3 := by
  rw [validateGeneratedInsight] at accepted
  split at accepted
  · cases accepted
  · split at accepted
    · cases accepted
    · next short =>
      rw [not_or] at short
      exact not_lt.mp short.1

end LedgerLens
