import CaretLayout.Proofs.Cursor.Markers
import CaretLayout.Proofs.Text.Occurrence
import Mathlib.Data.List.Find

/-!
# Along a line

As the cursor goes along a line, one character after the other comes before it.  A character changes
the finding only if a marker of the rule ends with it: the searches for the others come to the same
results (`classify_concat`), and an occurrence that has been counted stays counted as it is.  So the
finding changes only where a marker ends, and without block pairs a comment goes on to the end of the
line (`classifyLines_columns`).
-/

namespace CaretLayout

open Text

/-- A marker that the classifier searches for under a rule: a line marker that is not empty, or a
delimiter of a usable pair. -/
def MarkerRule.Uses (rule : MarkerRule) (m : List Char) : Prop :=
  (m ∈ rule.lineMarkers ∧ m ≠ []) ∨
    ∃ p ∈ rule.blockPairs, p.usable = true ∧ (m = p.opener ∨ m = p.closer)

/-! ### One character more before the cursor -/

namespace BlockPair

variable {before : List Char} {char : Char}

theorem oddIn_concat {delimiter : List Char} (h : ¬ delimiter <:+ before ++ [char])
    (rest : List (List Char)) :
    oddIn delimiter ((before ++ [char]) :: rest) = oddIn delimiter (before :: rest) := by
  rw [oddIn, oddIn, List.foldr_cons, List.foldr_cons, occurrences_concat h]

theorem openAtNearest_concat {p : BlockPair} (ho : ¬ p.opener <:+ before ++ [char])
    (hc : ¬ p.closer <:+ before ++ [char]) (rest : List (List Char)) :
    p.openAtNearest ((before ++ [char]) :: rest) = p.openAtNearest (before :: rest) := by
  rw [openAtNearest, openAtNearest, lastIndex?_concat ho, lastIndex?_concat hc]

/-- A pair stays open or closed while none of its delimiters ends. -/
theorem isOpen_concat {p : BlockPair} {above : List (List Char)}
    (h : p.usable = true → ¬ p.opener <:+ before ++ [char] ∧ ¬ p.closer <:+ before ++ [char]) :
    p.isOpen ⟨before ++ [char], above⟩ = p.isOpen ⟨before, above⟩ := by
  unfold isOpen
  rcases hu : p.usable with _ | _
  · rfl
  · obtain ⟨ho, hc⟩ := h hu
    simp only [CursorContext.upwards, oddIn_concat ho, openAtNearest_concat ho hc]

end BlockPair

namespace CursorContext

variable {rule : MarkerRule} {before : List Char} {char : Char} {above : List (List Char)}

theorem hasMarker_concat {m : List Char} (h : m ≠ [] → ¬ m <:+ before ++ [char]) :
    hasMarker ⟨before ++ [char], above⟩ m = hasMarker ⟨before, above⟩ m := by
  by_cases hm : m = []
  · rw [hm]
    rfl
  · simp only [hasMarker, contains_concat (h hm)]

/-- **One character** changes the finding only if a marker of the rule ends with it. -/
theorem classify_concat (h : ∀ m, rule.Uses m → ¬ m <:+ before ++ [char]) :
    classify rule ⟨before ++ [char], above⟩ = classify rule ⟨before, above⟩ := by
  have hpairs : rule.blockPairs.find? (·.isOpen ⟨before ++ [char], above⟩) =
      rule.blockPairs.find? (·.isOpen ⟨before, above⟩) :=
    List.find?_congr fun p hp => BlockPair.isOpen_concat fun hu =>
      ⟨h _ (Or.inr ⟨p, hp, hu, Or.inl rfl⟩), h _ (Or.inr ⟨p, hp, hu, Or.inr rfl⟩)⟩
  have hmarkers : rule.lineMarkers.find? (hasMarker ⟨before ++ [char], above⟩ ·) =
      rule.lineMarkers.find? (hasMarker ⟨before, above⟩ ·) :=
    List.find?_congr fun m hm => hasMarker_concat fun hne => h m (Or.inl ⟨hm, hne⟩)
  unfold classify
  rw [hpairs, hmarkers]

/-- A line marker before the cursor stays before it as the cursor goes on. -/
theorem hasMarker_mono {m before' : List Char} (hstart : before <+: before')
    (h : hasMarker ⟨before, above⟩ m = true) : hasMarker ⟨before', above⟩ m = true := by
  unfold hasMarker at h ⊢
  rw [Bool.and_eq_true, contains_iff_infix] at h ⊢
  exact ⟨h.1, h.2.trans hstart.isInfix⟩

/-- Without usable pairs a comment is due to a line marker, so it goes on with the line. -/
theorem scope_classify_of_prefix (hrule : ∀ p ∈ rule.blockPairs, p.usable = false)
    {before' : List Char} (hstart : before <+: before')
    (h : (classify rule ⟨before, above⟩).scope = .comment) :
    (classify rule ⟨before', above⟩).scope = .comment := by
  rw [scope_classify_iff] at h ⊢
  rcases h with ⟨p, hp, hopen⟩ | ⟨m, hm, hmarker⟩
  · have hu := usable_of_isOpen hopen
    rw [hrule p hp] at hu
    cases hu
  · exact Or.inr ⟨m, hm, hasMarker_mono hstart hmarker⟩

end CursorContext

open CursorContext

/-- **The finding changes only where a marker ends**: if it differs, in its scope or in its log, between
two columns next to each other, then a usable marker of the rule stands on the cursor line and ends at
the second of them.  Without usable pairs a comment goes on to the end of the line. -/
theorem classifyLines_columns (rule : MarkerRule) (document : List (List Char))
    (line window : Nat) :
    (∀ k, classifyLines rule document line k window ≠
        classifyLines rule document line (k + 1) window →
      ∃ m, rule.Uses m ∧ EndsAt m ((document[line]?).getD []) (k + 1)) ∧
    ((∀ p ∈ rule.blockPairs, p.usable = false) →
      ∀ k k', k ≤ k' → (classifyLines rule document line k window).scope = .comment →
        (classifyLines rule document line k' window).scope = .comment) := by
  unfold classifyLines ofLines upTo
  generalize (document[line]?).getD [] = text
  generalize (document.take line).drop (line - window) = above
  refine ⟨fun k hne => ?_, fun hrule k k' hle h => ?_⟩
  · by_contra hno
    rw [not_exists] at hno
    refine hne ?_
    rcases Nat.lt_or_ge k text.length with hlt | hge
    · rw [List.take_succ_eq_append_getElem hlt]
      refine (classify_concat fun m hm hsuffix => hno m ⟨hm, ?_⟩).symm
      rw [← List.take_succ_eq_append_getElem hlt] at hsuffix
      exact endsAt_of_suffix_take hlt hsuffix
    · -- the cursor stands at the end of the line in both columns
      rw [List.take_of_length_le hge, List.take_of_length_le (Nat.le_succ_of_le hge)]
  · exact scope_classify_of_prefix hrule (List.take_prefix_take_left hle) h

/-- A line in which a symmetric delimiter overlaps itself. -/
def overlappingQuotes : List (List Char) :=
  ["a'''' # b".toList]

/-- The block that is open at the third quote is closed at the fourth, where the second occurrence ends,
and the comment that is found at the line marker goes on. -/
theorem classifyLines_columns_overlappingQuotes :
    (classifyLines ⟨[], [.ofStrings "''" "''"]⟩ overlappingQuotes 0 4 0).scope = .comment ∧
      (classifyLines ⟨[], [.ofStrings "''" "''"]⟩ overlappingQuotes 0 5 0).scope = .code ∧
      (∃ m, MarkerRule.Uses ⟨[], [.ofStrings "''" "''"]⟩ m ∧ EndsAt m "a'''' # b".toList 5) ∧
      (classifyLines ⟨["#".toList], []⟩ overlappingQuotes 0 9 0).scope = .comment :=
  ⟨by decide, by decide,
    (classifyLines_columns ⟨[], [.ofStrings "''" "''"]⟩ overlappingQuotes 0 0).1 4 (by decide),
    (classifyLines_columns ⟨["#".toList], []⟩ overlappingQuotes 0 0).2 (by decide) 7 9 (by decide)
      (by decide)⟩

end CaretLayout
