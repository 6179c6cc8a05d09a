import CaretLayout.Cursor.Scope
import CaretLayout.Proofs.Text.Bytes
import Mathlib.Data.List.Find

/-!
# Stored text

Documents and markers are stored as bytes, and the classifier can work on the bytes as they are.  It
then searches the bytes of a line for the bytes of a marker, compares offsets in bytes, and cuts the
cursor line at the offset of a column (`StoredContext.ofLines?`), which fails unless characters are
kept whole.  The cut never fails, and the bytes have the finding of the characters in every context
(`classify_stored`) and at every place of a document (`map_classify_ofLines?`).
-/

namespace CaretLayout

open Text Text.Utf8

/-- The text before a cursor, line by line, as bytes. -/
structure StoredContext where
  /-- The cursor line up to the cursor. -/
  before : List UInt8
  /-- Lines above the cursor line, in document order. -/
  above : List (List UInt8)
deriving DecidableEq, Repr

namespace StoredContext

/-- The stored text before the cursor in a stored document, with at most `window` lines above it;
nothing if the cut at the column breaks a character. -/
def ofLines? (document : List (List UInt8)) (line column window : Nat) : Option StoredContext :=
  (upTo? ((document[line]?).getD []) column).map fun before =>
    ⟨before, (document.take line).drop (line - window)⟩

/-- The lines of the context from the cursor upwards. -/
def upwards (c : StoredContext) : List (List UInt8) :=
  c.before :: c.above.reverse

/-- Whether the delimiter occurs an odd number of times in the lines. -/
def oddIn (delimiter : List UInt8) (lines : List (List UInt8)) : Bool :=
  lines.foldr (fun line n => occurrences delimiter line + n) 0 % 2 == 1

/-- Whether the nearest line that holds a delimiter leaves the block open, the lines being given
from the cursor upwards. -/
def openAtNearest (opener closer : List UInt8) : List (List UInt8) → Bool
  | [] => false
  | line :: above =>
    match lastIndex? opener line, lastIndex? closer line with
    | none, none => openAtNearest opener closer above
    | opened, closed => isAfter opened closed

/-- Whether a block between two delimiters is open at the cursor. -/
def isOpen (c : StoredContext) (opener closer : List UInt8) : Bool :=
  (!opener.isEmpty && !closer.isEmpty) &&
    (if opener == closer then oddIn opener c.upwards else openAtNearest opener closer c.upwards)

/-- Whether a line marker stands before the cursor on its line. -/
def hasMarker (c : StoredContext) (marker : List UInt8) : Bool :=
  !marker.isEmpty && contains marker c.before

/-- Where the cursor stands under a marker rule, all markers being searched for as bytes. -/
def classify (rule : MarkerRule) (c : StoredContext) : Finding :=
  match rule.blockPairs.find? fun p => c.isOpen (encode p.opener) (encode p.closer) with
  | some pair => .openBlock pair
  | none =>
    match rule.lineMarkers.find? fun m => c.hasMarker (encode m) with
    | some marker => .lineMarker marker
    | none => .plain

end StoredContext

/-- The bytes of a context. -/
def CursorContext.stored (c : CursorContext) : StoredContext where
  before := encode c.before
  above := c.above.map encode

namespace StoredContext

variable {opener closer : List Char}

theorem upwards_stored (c : CursorContext) : c.stored.upwards = c.upwards.map encode := by
  rw [upwards, CursorContext.upwards, List.map_cons, List.map_reverse]
  rfl

/-! ### Blocks -/

theorem oddIn_map_encode (ho : opener ≠ []) (lines : List (List Char)) :
    oddIn (encode opener) (lines.map encode) = BlockPair.oddIn opener lines := by
  unfold oddIn BlockPair.oddIn
  rw [List.foldr_map]
  simp only [occurrences_encode ho]

/-- The nearest line that holds a delimiter is the same line, and the delimiters on it come in the
same order. -/
theorem openAtNearest_map_encode (ho : opener ≠ []) (hc : closer ≠ []) :
    ∀ lines : List (List Char), openAtNearest (encode opener) (encode closer) (lines.map encode) =
      BlockPair.openAtNearest ⟨opener, closer⟩ lines
  | [] => rfl
  | line :: above => by
    have ih := openAtNearest_map_encode ho hc above
    have hafter := isAfter_lastIndex?_encode ho hc line
    rw [lastIndex?_encode ho, lastIndex?_encode hc] at hafter
    rw [List.map_cons, openAtNearest, BlockPair.openAtNearest, lastIndex?_encode ho,
      lastIndex?_encode hc]
    dsimp only
    rcases hlo : lastIndex? opener line with _ | i
    · rcases hlc : lastIndex? closer line with _ | j
      · exact ih
      · rw [hlo, hlc] at hafter
        exact hafter
    · rcases hlc : lastIndex? closer line with _ | j
      · rfl
      · rw [hlo, hlc] at hafter
        exact hafter

theorem isOpen_stored (p : BlockPair) (c : CursorContext) :
    c.stored.isOpen (encode p.opener) (encode p.closer) = p.isOpen c := by
  have hsame : (encode p.opener == encode p.closer) = p.symmetric := by
    rw [BlockPair.symmetric, Bool.eq_iff_iff, beq_iff_eq, beq_iff_eq, encode_inj]
  rw [isOpen, BlockPair.isOpen, isEmpty_encode, isEmpty_encode, ← BlockPair.usable, hsame,
    upwards_stored]
  rcases hu : p.usable with _ | _
  · rfl
  · obtain ⟨ho, hc⟩ := BlockPair.usable_iff.mp hu
    rw [oddIn_map_encode ho, openAtNearest_map_encode ho hc]

/-! ### Findings -/

theorem hasMarker_stored (m : List Char) (c : CursorContext) :
    c.stored.hasMarker (encode m) = c.hasMarker m := by
  rw [hasMarker, CursorContext.hasMarker, isEmpty_encode]
  rcases m with _ | ⟨d, m⟩
  · rfl
  · rw [CursorContext.stored, contains_encode (List.cons_ne_nil d m)]

/-- **The finding in the bytes** of a context is that in its characters. -/
theorem classify_stored (rule : MarkerRule) (c : CursorContext) :
    c.stored.classify rule = c.classify rule := by
  rw [classify]
  simp only [isOpen_stored, hasMarker_stored]
  rfl

/-- The context of a place in a stored document is found, and it is the stored context. -/
theorem ofLines?_map_encode (document : List (List Char)) (line column window : Nat) :
    ofLines? (document.map encode) line column window =
      some (CursorContext.ofLines document line column window).stored := by
  have hline : ((document.map encode)[line]?).getD [] = encode ((document[line]?).getD []) := by
    rw [List.getElem?_map]
    rcases document[line]? with _ | text
    · rfl
    · rfl
  rw [ofLines?, hline, upTo?_encode, CursorContext.ofLines, CursorContext.stored,
    CursorContext.upTo, List.map_drop, List.map_take]
  rfl

theorem map_classify_ofLines? (rule : MarkerRule) (document : List (List Char))
    (line column window : Nat) :
    (ofLines? (document.map encode) line column window).map (classify rule) =
      some (classifyLines rule document line column window) := by
  rw [ofLines?_map_encode, Option.map_some, classify_stored]
  rfl

/-- **Bytes and characters agree.**  Whether a marker occurs in a text, how often, where last, and
which of two markers comes last is found alike in the bytes and in the characters, the offsets in bytes
being those of the characters.  Bytes have their boundaries at these offsets; cutting them at a column
succeeds, is done at a boundary and leaves the characters before the column.  So every rule has the
same finding in the bytes of a context, and at every place of a stored document. -/
theorem stored_agrees :
    (∀ text a b : List Char, a ≠ [] → b ≠ [] →
      (SearchLaw a text ∧ SearchLaw (encode a) (encode text)) ∧
      contains (encode a) (encode text) = contains a text ∧
      occurrences (encode a) (encode text) = occurrences a text ∧
      lastIndex? (encode a) (encode text) =
        (lastIndex? a text).map (fun k => byteLength (text.take k)) ∧
      isAfter (lastIndex? (encode a) (encode text)) (lastIndex? (encode b) (encode text)) =
        isAfter (lastIndex? a text) (lastIndex? b text)) ∧
    (∀ (text : List Char) (column : Nat),
      CursorContext.upTo text column = text.take (min column text.length) ∧
      upTo? (encode text) column = some (encode (CursorContext.upTo text column)) ∧
      (∀ i, (starts (encode text))[column]? = some i → isBoundary (encode text) i = true) ∧
      ∀ i, isBoundary (encode text) i = true ↔ ∃ k ≤ text.length, i = byteLength (text.take k)) ∧
    (∀ (rule : MarkerRule) (c : CursorContext), c.stored.classify rule = c.classify rule) ∧
    ∀ (rule : MarkerRule) (document : List (List Char)) (line column window : Nat),
      (ofLines? (document.map encode) line column window).map (classify rule) =
        some (classifyLines rule document line column window) := by
  refine ⟨fun text a b ha hb => ?_, fun text column => ?_, classify_stored, map_classify_ofLines?⟩
  · exact ⟨⟨searchLaw ha text, searchLaw (encode_ne_nil ha) (encode text)⟩,
      contains_encode ha text, occurrences_encode ha text, lastIndex?_encode ha text,
      isAfter_lastIndex?_encode ha hb text⟩
  · exact ⟨List.take_eq_take_min, upTo?_encode text column,
      fun _ => isBoundary_of_getElem?_starts, fun _ => isBoundary_encode_iff⟩

/-- A text of characters of one to four bytes, in which a marker overlaps itself and shares a byte with
another character. -/
def accents : List Char :=
  "«𝄞» ©ééé€ x".toList

/-- The marker is counted once, and its last occurrence lies after the closing quote, in the bytes as
in the characters; the column behind the character of four bytes is found at the offset six. -/
theorem stored_agrees_accents :
    "éé".toList ≠ [] ∧ "»".toList ≠ [] ∧
      occurrences (encode "éé".toList) (encode accents) = 1 ∧
      lastIndex? (encode "éé".toList) (encode accents) = some 13 ∧
      isAfter (lastIndex? (encode "éé".toList) (encode accents))
        (lastIndex? (encode "»".toList) (encode accents)) = true ∧
      upTo? (encode accents) 2 = some (encode "«𝄞".toList) ∧
      (starts (encode accents))[2]? = some 6 ∧ isBoundary (encode accents) 6 = true ∧
      ((CursorContext.mk accents []).stored.classify ⟨["éé".toList], []⟩).scope = .comment := by
  have hsearch := (stored_agrees.1 accents "éé".toList "»".toList (by decide) (by decide)).2
  have hcut := stored_agrees.2.1 accents 2
  have hclassify := stored_agrees.2.2.1 ⟨["éé".toList], []⟩ ⟨accents, []⟩
  refine ⟨by decide, by decide, hsearch.2.1.trans (by decide), hsearch.2.2.1.trans (by decide),
    hsearch.2.2.2.trans (by decide), hcut.2.1, by decide, hcut.2.2.1 6 (by decide), ?_⟩
  rw [hclassify]
  decide

end StoredContext

end CaretLayout
