import CaretLayout.Proofs.Cursor.Joined
import CaretLayout.Proofs.Cursor.Markers

/-!
# Blocks as a lexer reads them

The classifier walks from the cursor upwards and looks at the nearest line that holds a delimiter.
The ordinary lexer of blocks that do not nest reads the same text from its start and keeps one bit
of state.  Both decide alike whenever openers and closers keep apart
(`classify_eq_comment_iff_lex`): either way the cursor is in a comment exactly when an opener comes
after all closers.  For the lexer this is `lex_eq_not_iff`: it leaves the state that it starts in
exactly when the delimiter that it looks for comes last.
-/

namespace CaretLayout

open Text

/-! ### The lexer -/

/-- What follows the leftmost occurrence of a marker, if there is one. -/
def Text.afterFirst? (marker : List Char) : List Char → Option (List Char)
  | [] => none
  | c :: rest =>
    if marker.isPrefixOf (c :: rest) then some (rest.drop (marker.length - 1))
    else afterFirst? marker rest

theorem Text.length_lt_of_afterFirst? {marker : List Char} : ∀ {text rest : List Char},
    afterFirst? marker text = some rest → rest.length < text.length
  | [], rest, h => by simp [afterFirst?] at h
  | c :: text, rest, h => by
    unfold afterFirst? at h
    split at h
    · rw [← Option.some.inj h, List.length_drop, List.length_cons]
      omega
    · exact Nat.lt_succ_of_lt (length_lt_of_afterFirst? h)

namespace BlockPair

/-- The delimiter that the lexer looks for outside or inside a block. -/
def awaited (p : BlockPair) (inside : Bool) : List Char :=
  if inside then p.closer else p.opener

/-- Reads a text from outside or inside a block: jumps to the leftmost next occurrence of the
delimiter that is looked for, and goes on just after it in the other state.  The result is whether
the text ends inside a block. -/
def lex (p : BlockPair) (inside : Bool) (text : List Char) : Bool :=
  match _h : afterFirst? (p.awaited inside) text with
  | none => inside
  | some rest => p.lex (!inside) rest
termination_by text.length
decreasing_by exact length_lt_of_afterFirst? _h

end BlockPair

/-! ### The lexer ends where the awaited delimiter comes last -/

theorem Text.not_standsAt_of_afterFirst? {marker : List Char} (hm : marker ≠ []) :
    ∀ {text : List Char}, afterFirst? marker text = none → ∀ i, ¬ StandsAt marker text i
  | [], _, i => not_standsAt_nil hm i
  | c :: text, h, i => by
    unfold afterFirst? at h
    split at h
    · cases h
    · next hp =>
      rcases i with _ | i
      · exact fun hi => hp (standsAt_zero_iff_isPrefixOf.mp hi)
      · exact not_standsAt_of_afterFirst? hm h i

/-- What follows the leftmost occurrence starts where that occurrence ends. -/
theorem Text.exists_standsAt_of_afterFirst? {marker : List Char} (hm : marker ≠ []) :
    ∀ {text rest : List Char}, afterFirst? marker text = some rest →
      ∃ i, StandsAt marker text i ∧ (∀ j, StandsAt marker text j → i ≤ j) ∧
        rest = text.drop (i + marker.length)
  | [], rest, h => by simp [afterFirst?] at h
  | c :: text, rest, h => by
    have hpos := List.length_pos_iff.mpr hm
    unfold afterFirst? at h
    split at h
    · next hp =>
      refine ⟨0, standsAt_zero_iff_isPrefixOf.mpr hp, fun j _ => Nat.zero_le j, ?_⟩
      rw [← Option.some.inj h, show 0 + marker.length = marker.length - 1 + 1 by omega,
        List.drop_succ_cons]
    · next hp =>
      obtain ⟨i, hi, hleast, hrest⟩ := exists_standsAt_of_afterFirst? hm h
      refine ⟨i + 1, standsAt_cons_succ.mpr hi, fun j hj => ?_, ?_⟩
      · rcases j with _ | j
        · exact absurd (standsAt_zero_iff_isPrefixOf.mp hj) hp
        · exact Nat.succ_le_succ (hleast j (standsAt_cons_succ.mp hj))
      · rw [hrest, show i + 1 + marker.length = i + marker.length + 1 by omega,
          List.drop_succ_cons]

/-- After an occurrence of `a`, whether `a` comes last is whether `b` does not in what follows. -/
theorem Text.comesLast_iff_drop {a b text : List Char} (ha : a ≠ []) (hb : b ≠ [])
    (hap : Apart a b text) {i : Nat} (hi : StandsAt a text i) :
    ComesLast a b text ↔ ¬ ComesLast b a (text.drop (i + a.length)) := by
  constructor
  · rintro ⟨k, hk, hall⟩ ⟨l, hl, hlast⟩
    rw [standsAt_drop] at hl
    have hlk := hall _ hl
    -- the last `a` lies after a `b` of the rest, so it lies in the rest itself
    have hk' : StandsAt a (text.drop (i + a.length)) (k - (i + a.length)) := by
      rw [standsAt_drop, show i + a.length + (k - (i + a.length)) = k by omega]
      exact hk
    have := hlast _ hk'
    omega
  · intro hno
    obtain ⟨k, hk, hmax⟩ : ∃ k, StandsAt a text k ∧ ∀ j, StandsAt a text j → j ≤ k := by
      rcases hl : lastIndex? a text with _ | k
      · exact absurd hi ((lastIndex?_eq_none_iff ha).mp hl i)
      · exact ⟨k, (lastIndex?_spec ha text).2 k hl⟩
    refine ⟨k, hk, fun j hj => ?_⟩
    refine Nat.lt_of_not_le fun hkj => ?_
    have hpa := List.length_pos_iff.mpr ha
    have hpb := List.length_pos_iff.mpr hb
    have hik := hmax i hi
    have hafter : k + a.length ≤ j := by
      rcases hap.before_or_after ha hb hk hj with h | h
      · exact h
      · omega
    refine hno ⟨j - (i + a.length), ?_, fun l hl => ?_⟩
    · rw [standsAt_drop, show i + a.length + (j - (i + a.length)) = j by omega]
      exact hj
    · rw [standsAt_drop] at hl
      have := hmax _ hl
      omega

namespace BlockPair

variable {p : BlockPair}

theorem awaited_ne_nil (ho : p.opener ≠ []) (hc : p.closer ≠ []) (inside : Bool) :
    p.awaited inside ≠ [] := by
  cases inside
  · exact ho
  · exact hc

theorem apart_awaited {text : List Char} (h : Apart p.opener p.closer text) (inside : Bool) :
    Apart (p.awaited inside) (p.awaited (!inside)) text := by
  cases inside
  · exact h
  · exact h.symm

/-- **The lexer**: it ends in the other state than it started in exactly when the delimiter that it
looks for first comes last in the text. -/
theorem lex_eq_not_iff (ho : p.opener ≠ []) (hc : p.closer ≠ []) (inside : Bool)
    (text : List Char) (hap : Apart p.opener p.closer text) :
    p.lex inside text = !inside ↔ ComesLast (p.awaited inside) (p.awaited (!inside)) text := by
  fun_induction p.lex inside text with
  | case1 inside text h =>
    have hno := not_standsAt_of_afterFirst? (awaited_ne_nil ho hc inside) h
    constructor
    · intro h'
      cases inside <;> cases h'
    · rintro ⟨i, hi, -⟩
      exact absurd hi (hno i)
  | case2 inside text rest h ih =>
    obtain ⟨i, hi, -, rfl⟩ := exists_standsAt_of_afterFirst? (awaited_ne_nil ho hc inside) h
    have ih := ih (hap.drop _)
    rw [Bool.not_not] at ih
    rw [comesLast_iff_drop (awaited_ne_nil ho hc inside) (awaited_ne_nil ho hc (!inside))
      (apart_awaited hap inside) hi, ← ih]
    cases inside <;> simp

end BlockPair

/-! ### The classifier and the lexer -/

namespace CursorContext

theorem classify_singleton_eq_comment (p : BlockPair) (c : CursorContext) :
    (c.classify ⟨[], [p]⟩).scope = .comment ↔ p.isOpen c = true := by
  rw [scope_classify_iff]
  simp

/-- **Block detection is lexing.**  For a pair of two different non-empty delimiters without line
feed that keep apart in the text before the cursor, the cursor is in a comment exactly when the
lexer that reads this text from outside a block ends inside one. -/
theorem classify_eq_comment_iff_lex (p : BlockPair) (c : CursorContext) (ho : p.opener ≠ [])
    (hc : p.closer ≠ []) (hne : p.opener ≠ p.closer) (hol : '\n' ∉ p.opener)
    (hcl : '\n' ∉ p.closer) (hap : Apart p.opener p.closer c.text) :
    (c.classify ⟨[], [p]⟩).scope = .comment ↔ p.lex false c.text = true := by
  have hopen : p.isOpen c = p.openAtNearest c.upwards := by
    simp [BlockPair.isOpen, BlockPair.usable, BlockPair.symmetric, ho, hc, hne]
  have hlex : p.lex false c.text = true ↔ ComesLast p.opener p.closer c.text :=
    BlockPair.lex_eq_not_iff ho hc false c.text hap
  have hnear := BlockPair.openAtNearest_iff ho hc hol hcl c.above.reverse c.before
  rw [List.reverse_reverse] at hnear
  rw [classify_singleton_eq_comment, hopen, hlex]
  exact hnear

/-- A block that is closed and opened again below the line of its opener, which overlaps itself. -/
theorem classify_reopened_iff_lex :
    ((CursorContext.mk "]] c --- d".toList ["a -- x".toList, "y".toList]).classify
        ⟨[], [.ofStrings "--" "]]"]⟩).scope = .comment ↔
      (BlockPair.ofStrings "--" "]]").lex false "a -- x\ny\n]] c --- d".toList = true :=
  classify_eq_comment_iff_lex (.ofStrings "--" "]]")
    ⟨"]] c --- d".toList, ["a -- x".toList, "y".toList]⟩
    (by decide) (by decide) (by decide) (by decide) (by decide) (by decide)

end CursorContext

end CaretLayout
