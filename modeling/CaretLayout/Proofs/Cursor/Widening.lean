import CaretLayout.Proofs.Cursor.Joined
import CaretLayout.Proofs.Cursor.Markers

/-!
# Wider windows

A wider window adds lines above the others, and the walk upwards stops at the nearest line that holds
a delimiter.  So a pair that is not symmetric is decided anew only if no line of the narrow window
holds one of its delimiters, in which case it was not open.  A wider window therefore keeps a comment
a comment, and finds one only in what it adds (`classifyLines_widen`).  A window that reaches the first
line sees everything.
-/

namespace CaretLayout

open Text

/-! ### Lines near and far -/

namespace BlockPair

variable {p : BlockPair}

/-- A delimiter of the pair occurs in the line. -/
def HeldBy (p : BlockPair) (line : List Char) : Prop :=
  p.opener <:+: line ∨ p.closer <:+: line

theorem openAtNearest_cons_of_held (hu : p.usable = true) {line : List Char} (h : p.HeldBy line)
    (rest : List (List Char)) :
    p.openAtNearest (line :: rest) =
      isAfter (lastIndex? p.opener line) (lastIndex? p.closer line) := by
  obtain ⟨ho, hc⟩ := usable_iff.mp hu
  refine openAtNearest_cons_of_some rest (h.imp (fun h hnone => ?_) fun h hnone => ?_)
  · exact (lastIndex?_eq_none_iff_not_occurs ho).mp hnone h
  · exact (lastIndex?_eq_none_iff_not_occurs hc).mp hnone h

theorem openAtNearest_cons_of_not_held (hu : p.usable = true) {line : List Char}
    (h : ¬ p.HeldBy line) (rest : List (List Char)) :
    p.openAtNearest (line :: rest) = p.openAtNearest rest := by
  obtain ⟨ho, hc⟩ := usable_iff.mp hu
  obtain ⟨hno, hnc⟩ := not_or.mp h
  exact openAtNearest_cons_of_none rest ((lastIndex?_eq_none_iff_not_occurs ho).mpr hno)
    ((lastIndex?_eq_none_iff_not_occurs hc).mpr hnc)

/-- Lines behind one that holds a delimiter do not count. -/
theorem openAtNearest_append_of_held (hu : p.usable = true) (far : List (List Char)) :
    ∀ {near : List (List Char)}, (∃ line ∈ near, p.HeldBy line) →
      p.openAtNearest (near ++ far) = p.openAtNearest near
  | [], h => by simp at h
  | line :: near, h => by
    by_cases hline : p.HeldBy line
    · rw [List.cons_append, openAtNearest_cons_of_held hu hline,
        openAtNearest_cons_of_held hu hline]
    · have hnear : ∃ line ∈ near, p.HeldBy line := by
        obtain ⟨held, hmem, hheld⟩ := h
        rcases List.mem_cons.mp hmem with rfl | hmem
        · exact absurd hheld hline
        · exact ⟨held, hmem, hheld⟩
      rw [List.cons_append, openAtNearest_cons_of_not_held hu hline,
        openAtNearest_cons_of_not_held hu hline, openAtNearest_append_of_held hu far hnear]

/-- Lines that hold no delimiter do not count. -/
theorem openAtNearest_append_of_not_held (hu : p.usable = true) (far : List (List Char)) :
    ∀ {near : List (List Char)}, (∀ line ∈ near, ¬ p.HeldBy line) →
      p.openAtNearest (near ++ far) = p.openAtNearest far
  | [], _ => rfl
  | line :: near, h => by
    obtain ⟨hline, hnear⟩ := List.forall_mem_cons.mp h
    rw [List.cons_append, openAtNearest_cons_of_not_held hu hline,
      openAtNearest_append_of_not_held hu far hnear]

theorem openAtNearest_of_not_held (hu : p.usable = true) {lines : List (List Char)}
    (h : ∀ line ∈ lines, ¬ p.HeldBy line) : p.openAtNearest lines = false := by
  have happend := openAtNearest_append_of_not_held hu [] h
  rwa [List.append_nil] at happend

/-- A pair that is open in more lines but not in the nearest ones has its delimiters only in the
others. -/
theorem held_of_openAtNearest_append (hu : p.usable = true) {near far : List (List Char)}
    (hnear : p.openAtNearest near = false) (hall : p.openAtNearest (near ++ far) = true) :
    (∀ line ∈ near, ¬ p.HeldBy line) ∧ ∃ line ∈ far, p.HeldBy line := by
  have hno : ∀ line ∈ near, ¬ p.HeldBy line := by
    intro line hline hheld
    rw [openAtNearest_append_of_held hu far ⟨line, hline, hheld⟩, hnear] at hall
    cases hall
  refine ⟨hno, ?_⟩
  by_contra hnone
  rw [not_exists] at hnone
  rw [openAtNearest_append_of_not_held hu far hno,
    openAtNearest_of_not_held hu fun line hline hheld => hnone line ⟨hline, hheld⟩] at hall
  cases hall

/-- A pair that is open in the nearest lines is open in more lines. -/
theorem openAtNearest_append_of_open (hu : p.usable = true) {near : List (List Char)}
    (h : p.openAtNearest near = true) (far : List (List Char)) :
    p.openAtNearest (near ++ far) = true := by
  have hheld : ∃ line ∈ near, p.HeldBy line := by
    by_contra hnone
    rw [not_exists] at hnone
    rw [openAtNearest_of_not_held hu fun line hline hheld => hnone line ⟨hline, hheld⟩] at h
    cases h
  rw [openAtNearest_append_of_held hu far hheld, h]

/-- A pair of two different delimiters is open when it is usable and the nearest line says so. -/
theorem isOpen_iff (hsym : p.usable = true → p.symmetric = false) {c : CursorContext} :
    p.isOpen c = true ↔ p.usable = true ∧ p.openAtNearest c.upwards = true := by
  unfold isOpen
  rcases hu : p.usable with _ | _
  · simp
  · simp [hsym hu]

end BlockPair

/-! ### Narrow and wide contexts -/

namespace CursorContext

variable {c : CursorContext} {rule : MarkerRule}

/-- The context with more lines above. -/
def widen (c : CursorContext) (extra : List (List Char)) : CursorContext where
  before := c.before
  above := extra ++ c.above

/-- Upwards, the lines that are added come last. -/
theorem upwards_widen (c : CursorContext) (extra : List (List Char)) :
    (c.widen extra).upwards = c.upwards ++ extra.reverse :=
  congrArg (c.before :: ·) List.reverse_append

theorem scope_classify_widen
    (hrule : ∀ p ∈ rule.blockPairs, p.usable = true → p.symmetric = false)
    (extra : List (List Char)) (h : (c.classify rule).scope = .comment) :
    ((c.widen extra).classify rule).scope = .comment := by
  rw [scope_classify_iff] at h ⊢
  rcases h with ⟨p, hp, hopen⟩ | hmarker
  · obtain ⟨hu, hnear⟩ := (BlockPair.isOpen_iff (hrule p hp)).mp hopen
    refine Or.inl ⟨p, hp, (BlockPair.isOpen_iff (hrule p hp)).mpr ⟨hu, ?_⟩⟩
    rw [upwards_widen]
    exact BlockPair.openAtNearest_append_of_open hu hnear _
  · exact Or.inr hmarker

/-- A comment that is found only with more lines is due to a pair whose delimiters are only there. -/
theorem exists_held_of_scope_ne
    (hrule : ∀ p ∈ rule.blockPairs, p.usable = true → p.symmetric = false)
    {extra : List (List Char)}
    (hne : (c.classify rule).scope ≠ ((c.widen extra).classify rule).scope) :
    ∃ p ∈ rule.blockPairs, p.usable = true ∧ (∀ line ∈ c.upwards, ¬ p.HeldBy line) ∧
      ∃ line ∈ extra, p.HeldBy line := by
  have hnarrow : (c.classify rule).scope ≠ .comment := fun h =>
    hne (h.trans (scope_classify_widen hrule extra h).symm)
  have hwide : ((c.widen extra).classify rule).scope = .comment := by
    by_contra hwide
    exact hne (Scope.eq_of_comment_iff (iff_of_false hnarrow hwide))
  rw [Ne, scope_classify_iff, not_or] at hnarrow
  obtain ⟨hclosed, hnomarker⟩ := hnarrow
  obtain ⟨p, hp, hopen⟩ : ∃ p ∈ rule.blockPairs, p.isOpen (c.widen extra) = true :=
    (scope_classify_iff.mp hwide).resolve_right hnomarker
  obtain ⟨hu, hall⟩ := (BlockPair.isOpen_iff (hrule p hp)).mp hopen
  have hnear : p.openAtNearest c.upwards = false := by
    rw [← Bool.not_eq_true]
    exact fun hnear =>
      hclosed ⟨p, hp, (BlockPair.isOpen_iff (hrule p hp)).mpr ⟨hu, hnear⟩⟩
  rw [upwards_widen] at hall
  obtain ⟨hno, line, hline, hheld⟩ := BlockPair.held_of_openAtNearest_append hu hnear hall
  exact ⟨p, hp, hu, hno, line, List.mem_reverse.mp hline, hheld⟩

/-! ### Narrow and wide windows -/

variable {document : List (List Char)} {line column w w' : Nat}

/-- A wider window adds lines above the others. -/
theorem exists_ofLines_eq_widen (hle : w ≤ w') :
    ∃ extra, ofLines document line column w' = (ofLines document line column w).widen extra := by
  refine ⟨((document.take line).drop (line - w')).take (line - w - (line - w')), ?_⟩
  have hdrop : (document.take line).drop (line - w) =
      ((document.take line).drop (line - w')).drop (line - w - (line - w')) := by
    rw [List.drop_drop, show line - w' + (line - w - (line - w')) = line - w by omega]
  unfold widen ofLines
  rw [hdrop, List.take_append_drop]

/-- A window that reaches the first line sees everything. -/
theorem ofLines_of_le (hle : line ≤ w) :
    ofLines document line column w = ofLines document line column line := by
  unfold ofLines
  rw [Nat.sub_eq_zero_of_le hle, Nat.sub_self]

end CursorContext

open CursorContext

/-- **A wider window keeps a comment a comment**, if no usable pair of the rule is symmetric.  It finds
another one only with a pair whose delimiters are in the lines that it adds and nowhere in the narrow
window.  A window that reaches the first line is as good as any wider one. -/
theorem classifyLines_widen (rule : MarkerRule)
    (hrule : ∀ p ∈ rule.blockPairs, p.usable = true → p.symmetric = false)
    (document : List (List Char)) (line column : Nat) :
    (∀ {w w'}, w ≤ w' → (classifyLines rule document line column w).scope = .comment →
      (classifyLines rule document line column w').scope = .comment) ∧
    (∀ {w w'}, w ≤ w' → (classifyLines rule document line column w).scope ≠
        (classifyLines rule document line column w').scope →
      ∃ p ∈ rule.blockPairs, p.usable = true ∧
        (∀ l ∈ (ofLines document line column w).upwards, ¬ p.HeldBy l) ∧
        ∃ extra, (ofLines document line column w').above =
            extra ++ (ofLines document line column w).above ∧
          ∃ l ∈ extra, p.HeldBy l) ∧
    ∀ {w w'}, line ≤ w → line ≤ w' →
      classifyLines rule document line column w = classifyLines rule document line column w' := by
  unfold classifyLines
  refine ⟨fun hle hcomment => ?_, fun hle hne => ?_, fun hw hw' => ?_⟩
  · obtain ⟨extra, hextra⟩ := exists_ofLines_eq_widen hle
    rw [hextra]
    exact scope_classify_widen hrule extra hcomment
  · obtain ⟨extra, hextra⟩ := exists_ofLines_eq_widen hle
    rw [hextra] at hne ⊢
    obtain ⟨p, hp, hu, hno, hheld⟩ := exists_held_of_scope_ne hrule hne
    exact ⟨p, hp, hu, hno, extra, rfl, hheld⟩
  · rw [ofLines_of_le hw, ofLines_of_le hw']

/-- A document whose first line opens a block. -/
def openedAbove : List (List Char) :=
  ["*/ a /* b".toList, "c".toList, "d".toList]

/-- The block is found once the window reaches its opener, which is the only line that holds a
delimiter. -/
theorem classifyLines_widen_openedAbove :
    (classifyLines .slashes openedAbove 2 1 1).scope = .code ∧
      (classifyLines .slashes openedAbove 2 1 2).scope = .comment ∧
      ∃ p ∈ MarkerRule.slashes.blockPairs, p.usable = true ∧
        (∀ l ∈ (ofLines openedAbove 2 1 1).upwards, ¬ p.HeldBy l) ∧
        ∃ extra, (ofLines openedAbove 2 1 2).above = extra ++ (ofLines openedAbove 2 1 1).above ∧
          ∃ l ∈ extra, p.HeldBy l :=
  ⟨by decide, by decide,
    (classifyLines_widen .slashes (by decide) openedAbove 2 1).2.1 (by decide)
      (by decide)⟩

end CaretLayout
