import CaretLayout.Cursor.Scope
import CaretLayout.Proofs.Text.Occurrence

/-!
# The text before a cursor

The classifier sees the text before the cursor line by line, from the cursor upwards.  Here the
lines are joined again in the order of the document.  The nearest line that holds a delimiter leaves
a pair open exactly when an opener comes after all closers of the joined text (`openAtNearest_iff`),
since a delimiter without line feed never reaches from one line into the next.
-/

namespace CaretLayout

open Text

/-- The lines before the cursor in the order of the document, joined by line feeds. -/
def CursorContext.text (c : CursorContext) : List Char :=
  ['\n'].intercalate (c.above ++ [c.before])

theorem intercalate_append_pair {α : Type} {sep : List α} : ∀ (front : List (List α))
    (line last : List α),
    sep.intercalate (front ++ [line, last]) = sep.intercalate (front ++ [line]) ++ sep ++ last
  | [], line, last => by
    simp only [List.nil_append, List.intercalate_cons_cons, List.intercalate_singleton]
  | first :: front, line, last => by
    rw [List.cons_append, List.cons_append, List.intercalate_cons_of_ne_nil (by simp),
      List.intercalate_cons_of_ne_nil (by simp), intercalate_append_pair front line last]
    simp only [List.append_assoc]

namespace CursorContext

theorem text_nil (before : List Char) : text ⟨before, []⟩ = before :=
  List.intercalate_singleton

/-- The lowest line above the cursor line ends in a line feed. -/
theorem text_concat (before line : List Char) (above : List (List Char)) :
    text ⟨before, above ++ [line]⟩ = text ⟨line, above⟩ ++ '\n' :: before := by
  unfold text
  rw [List.append_assoc, List.singleton_append, intercalate_append_pair, List.append_assoc,
    List.singleton_append]

end CursorContext

/-- Only the last line counts once it holds one of two markers. -/
theorem Text.comesLast_append_cons {a b front last : List Char} {sep : Char} (ha : a ≠ [])
    (hb : b ≠ []) (has : sep ∉ a) (hbs : sep ∉ b)
    (hheld : (∃ i, StandsAt a last i) ∨ ∃ j, StandsAt b last j) :
    ComesLast a b (front ++ sep :: last) ↔ ComesLast a b last := by
  constructor
  · rintro ⟨i, hi, hall⟩
    have hall' : ∀ j, StandsAt b last j → front.length + 1 + j < i := fun j hj =>
      hall _ ((standsAt_append_cons hb hbs).mpr (Or.inr ⟨j, rfl, hj⟩))
    rcases (standsAt_append_cons ha has).mp hi with hf | ⟨k, rfl, hk⟩
    · -- an opener of the front leaves no closer to the last line
      have hle := hf.le_length ha
      have hnone : ∀ j, ¬ StandsAt b last j := fun j hj => by
        have := hall' j hj
        omega
      rcases hheld with ⟨k, hk⟩ | ⟨j, hj⟩
      · exact ⟨k, hk, fun j hj => absurd hj (hnone j)⟩
      · exact absurd hj (hnone j)
    · refine ⟨k, hk, fun j hj => ?_⟩
      have := hall' j hj
      omega
  · rintro ⟨k, hk, hall⟩
    refine ⟨front.length + 1 + k, (standsAt_append_cons ha has).mpr (Or.inr ⟨k, rfl, hk⟩),
      fun j hj => ?_⟩
    rcases (standsAt_append_cons hb hbs).mp hj with hf | ⟨l, rfl, hl⟩
    · have := hf.le_length hb
      omega
    · have := hall l hl
      omega

/-- A last line that holds none of two markers does not count. -/
theorem Text.comesLast_append_cons_of_forall {a b front last : List Char} {sep : Char}
    (ha : a ≠ []) (hb : b ≠ []) (has : sep ∉ a) (hbs : sep ∉ b)
    (hna : ∀ i, ¬ StandsAt a last i) (hnb : ∀ j, ¬ StandsAt b last j) :
    ComesLast a b (front ++ sep :: last) ↔ ComesLast a b front := by
  have hiff : ∀ {m : List Char}, m ≠ [] → sep ∉ m → (∀ i, ¬ StandsAt m last i) → ∀ i,
      StandsAt m (front ++ sep :: last) i ↔ StandsAt m front i := by
    intro m hm hms hno i
    rw [standsAt_append_cons hm hms]
    exact ⟨fun h => h.resolve_right fun ⟨k, _, hk⟩ => hno k hk, Or.inl⟩
  unfold ComesLast
  simp only [hiff ha has hna, hiff hb hbs hnb]

namespace BlockPair

variable {p : BlockPair}

theorem openAtNearest_cons_of_none {before : List Char} (rev : List (List Char))
    (ho : lastIndex? p.opener before = none) (hc : lastIndex? p.closer before = none) :
    p.openAtNearest (before :: rev) = p.openAtNearest rev := by
  rw [openAtNearest, ho, hc]

theorem openAtNearest_cons_of_some {before : List Char} (rev : List (List Char))
    (h : lastIndex? p.opener before ≠ none ∨ lastIndex? p.closer before ≠ none) :
    p.openAtNearest (before :: rev) =
      isAfter (lastIndex? p.opener before) (lastIndex? p.closer before) := by
  rw [openAtNearest]
  split
  · next ho hc =>
    rcases h with h | h
    · exact absurd ho h
    · exact absurd hc h
  · rfl

/-- **The nearest line decides**: walking upwards to the first line that holds a delimiter finds the
pair open exactly when an opener comes after all closers of the whole text. -/
theorem openAtNearest_iff (ho : p.opener ≠ []) (hc : p.closer ≠ []) (hol : '\n' ∉ p.opener)
    (hcl : '\n' ∉ p.closer) : ∀ (rev : List (List Char)) (before : List Char),
    p.openAtNearest (before :: rev) = true ↔
      ComesLast p.opener p.closer (CursorContext.text ⟨before, rev.reverse⟩) := by
  intro rev
  induction rev with
  | nil =>
    intro before
    rw [List.reverse_nil, CursorContext.text_nil, ← isAfter_lastIndex? ho hc]
    rcases hlo : lastIndex? p.opener before with _ | i
    · rcases hlc : lastIndex? p.closer before with _ | j
      · rw [openAtNearest_cons_of_none [] hlo hlc]
        rfl
      · rw [openAtNearest_cons_of_some [] (Or.inr (by simp [hlc])), hlo, hlc]
    · rw [openAtNearest_cons_of_some [] (Or.inl (by simp [hlo])), hlo]
  | cons line rev ih =>
    intro before
    rw [List.reverse_cons, CursorContext.text_concat]
    by_cases hheld : (∃ i, StandsAt p.opener before i) ∨ ∃ j, StandsAt p.closer before j
    · have hsome : lastIndex? p.opener before ≠ none ∨ lastIndex? p.closer before ≠ none :=
        hheld.imp (fun ⟨_, hi⟩ => lastIndex?_ne_none_of_standsAt ho hi)
          fun ⟨_, hj⟩ => lastIndex?_ne_none_of_standsAt hc hj
      rw [openAtNearest_cons_of_some _ hsome, isAfter_lastIndex? ho hc,
        comesLast_append_cons ho hc hol hcl hheld]
    · rw [not_or, not_exists, not_exists] at hheld
      obtain ⟨hno, hnc⟩ := hheld
      rw [openAtNearest_cons_of_none _ ((lastIndex?_eq_none_iff ho).mpr hno)
          ((lastIndex?_eq_none_iff hc).mpr hnc), ih line,
        comesLast_append_cons_of_forall ho hc hol hcl hno hnc]

end BlockPair

end CaretLayout
