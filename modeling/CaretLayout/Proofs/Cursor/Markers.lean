import CaretLayout.Cursor.Scope
import Mathlib.Data.List.Nodup

/-!
# Usable markers

A rule may be given as it stands, with empty markers, repetitions and pairs that lack a side.  The
classifier skips them, so that the scope depends on the set of usable markers only, and more of them
never turn a comment into code (`classify_usable`).  `MarkerRule.cleaned` drops what is not usable
beforehand.  This leaves even the finding as it is, since what it drops is either never found or
listed before.
-/

namespace CaretLayout

namespace MarkerRule

/-- The usable markers of a rule are markers of another one. -/
structure UsableIn (r₁ r₂ : MarkerRule) : Prop where
  lineMarkers : ∀ m ∈ r₁.lineMarkers, m ≠ [] → m ∈ r₂.lineMarkers
  blockPairs : ∀ p ∈ r₁.blockPairs, p.opener ≠ [] → p.closer ≠ [] → p ∈ r₂.blockPairs

/-- The rule made of the usable markers of a rule. -/
def cleaned (r : MarkerRule) : MarkerRule :=
  ofLists r.lineMarkers r.blockPairs

/-! ### Line markers -/

theorem addLineMarker_of_skip {seen : List (List Char)} {m : List Char} (h : m = [] ∨ m ∈ seen) :
    addLineMarker seen m = seen := by
  refine if_pos ?_
  rw [Bool.or_eq_true, List.isEmpty_iff, List.contains_iff_mem]
  exact h

theorem addLineMarker_of_new {seen : List (List Char)} {m : List Char} (hm : m ≠ [])
    (hseen : m ∉ seen) : addLineMarker seen m = seen ++ [m] := by
  refine if_neg ?_
  rw [Bool.or_eq_true, List.isEmpty_iff, List.contains_iff_mem]
  exact not_or.mpr ⟨hm, hseen⟩

/-- The first marker with a property that the empty one lacks is not lost. -/
theorem find?_foldl_addLineMarker {f : List Char → Bool} (hnil : f [] = false) :
    ∀ markers seen : List (List Char),
      (markers.foldl addLineMarker seen).find? f = (seen ++ markers).find? f
  | [], seen => by rw [List.append_nil, List.foldl_nil]
  | m :: markers, seen => by
    rw [List.foldl_cons, find?_foldl_addLineMarker hnil markers]
    by_cases hskip : m = [] ∨ m ∈ seen
    · rw [addLineMarker_of_skip hskip, List.find?_append, List.find?_append]
      by_cases hf : f m = true
      · -- a marker that is found and skipped is listed before
        have hseen : m ∈ seen := hskip.resolve_left fun hm => by
          rw [hm, hnil] at hf
          cases hf
        have hsome : (seen.find? f).isSome = true := List.find?_isSome.mpr ⟨m, hseen, hf⟩
        rw [Option.or_of_isSome hsome, Option.or_of_isSome hsome]
      · rw [List.find?_cons_of_neg hf]
    · obtain ⟨hm, hseen⟩ := not_or.mp hskip
      rw [addLineMarker_of_new hm hseen, List.append_assoc, List.singleton_append]

/-- A list of markers none of which is empty or repeated. -/
def Distinct (markers : List (List Char)) : Prop :=
  markers.Nodup ∧ [] ∉ markers

theorem Distinct.addLineMarker {seen : List (List Char)} (h : Distinct seen) (m : List Char) :
    Distinct (addLineMarker seen m) := by
  by_cases hskip : m = [] ∨ m ∈ seen
  · rw [addLineMarker_of_skip hskip]
    exact h
  · obtain ⟨hm, hseen⟩ := not_or.mp hskip
    rw [addLineMarker_of_new hm hseen]
    refine ⟨List.nodup_append.mpr ⟨h.1, List.nodup_singleton m, ?_⟩, ?_⟩
    · intro a ha b hb hab
      rw [List.mem_singleton.mp hb] at hab
      exact hseen (hab ▸ ha)
    · rw [List.mem_append, List.mem_singleton]
      exact not_or.mpr ⟨h.2, Ne.symm hm⟩

theorem Distinct.foldl : ∀ (markers : List (List Char)) {seen : List (List Char)}, Distinct seen →
    Distinct (markers.foldl MarkerRule.addLineMarker seen)
  | [], _, h => h
  | m :: markers, _, h => Distinct.foldl markers (h.addLineMarker m)

/-- Nothing is dropped from such a list. -/
theorem foldl_addLineMarker_of_distinct : ∀ {markers seen : List (List Char)},
    Distinct (seen ++ markers) → markers.foldl addLineMarker seen = seen ++ markers
  | [], seen, _ => (List.append_nil seen).symm
  | m :: markers, seen, h => by
    have hm : m ≠ [] := fun hm => h.2 (hm ▸ List.mem_append_right _ List.mem_cons_self)
    have hseen : m ∉ seen := fun hmem =>
      (List.nodup_append.mp h.1).2.2 m hmem m List.mem_cons_self rfl
    rw [List.append_cons] at h ⊢
    rw [List.foldl_cons, addLineMarker_of_new hm hseen, foldl_addLineMarker_of_distinct h]

/-! ### Rules -/

/-- To drop what is not usable once more changes nothing. -/
theorem cleaned_cleaned (r : MarkerRule) : r.cleaned.cleaned = r.cleaned := by
  have hlines : r.cleaned.lineMarkers.foldl addLineMarker [] = r.cleaned.lineMarkers :=
    foldl_addLineMarker_of_distinct
      (Distinct.foldl r.lineMarkers ⟨List.nodup_nil, List.not_mem_nil⟩)
  have hpairs : r.cleaned.blockPairs.filter BlockPair.usable = r.cleaned.blockPairs :=
    List.filter_eq_self.mpr fun p hp => (List.mem_filter.mp hp).2
  rw [cleaned, ofLists, hlines, hpairs]

end MarkerRule

/-- There are two scopes. -/
theorem Scope.eq_of_comment_iff {a b : Scope} (h : a = .comment ↔ b = .comment) : a = b := by
  cases a with
  | code =>
    cases b with
    | code => rfl
    | comment => exact h.mpr rfl
  | comment => exact (h.mp rfl).symm

namespace CursorContext

variable {c : CursorContext}

theorem usable_of_isOpen {p : BlockPair} (h : p.isOpen c = true) : p.usable = true :=
  (Bool.and_eq_true_iff.mp h).1

theorem ne_nil_of_hasMarker {m : List Char} (h : c.hasMarker m = true) : m ≠ [] := by
  rintro rfl
  cases h

/-- The cursor is in a comment exactly when a pair is open or a line marker stands before it. -/
theorem scope_classify_iff {rule : MarkerRule} : (c.classify rule).scope = .comment ↔
    (∃ p ∈ rule.blockPairs, p.isOpen c = true) ∨ ∃ m ∈ rule.lineMarkers, c.hasMarker m = true := by
  rw [← List.find?_isSome, ← List.find?_isSome, classify]
  rcases hp : rule.blockPairs.find? (·.isOpen c) with _ | p
  · rcases rule.lineMarkers.find? (c.hasMarker ·) with _ | m
    · simp only [hp, Finding.scope, Option.isSome_none, Bool.false_eq_true, or_self, reduceCtorEq]
    · simp only [hp, Finding.scope, Option.isSome_some, or_true]
  · simp only [hp, Finding.scope, Option.isSome_some, true_or]

theorem scope_classify_mono {r₁ r₂ : MarkerRule} (h : r₁.UsableIn r₂)
    (hcomment : (c.classify r₁).scope = .comment) : (c.classify r₂).scope = .comment := by
  rw [scope_classify_iff] at hcomment ⊢
  rcases hcomment with ⟨p, hp, hopen⟩ | ⟨m, hm, hmarker⟩
  · obtain ⟨ho, hc⟩ := BlockPair.usable_iff.mp (usable_of_isOpen hopen)
    exact Or.inl ⟨p, h.blockPairs p hp ho hc, hopen⟩
  · exact Or.inr ⟨m, h.lineMarkers m hm (ne_nil_of_hasMarker hmarker), hmarker⟩

/-- What is not usable is not found. -/
theorem classify_cleaned (c : CursorContext) (r : MarkerRule) :
    c.classify r.cleaned = c.classify r := by
  have hpairs : r.cleaned.blockPairs.find? (·.isOpen c) = r.blockPairs.find? (·.isOpen c) := by
    show (r.blockPairs.filter BlockPair.usable).find? _ = _
    rw [List.find?_filter]
    refine congrArg (r.blockPairs.find? ·) (funext fun p => ?_)
    by_cases hopen : p.isOpen c = true
    · simp [hopen, usable_of_isOpen hopen]
    · simp [hopen]
  have hlines : r.cleaned.lineMarkers.find? (c.hasMarker ·) =
      r.lineMarkers.find? (c.hasMarker ·) :=
    MarkerRule.find?_foldl_addLineMarker rfl r.lineMarkers []
  unfold classify
  rw [hpairs, hlines]

/-- **The scope depends on the usable markers only**: more of them keep a comment a comment, and rules
with the same ones agree.  To drop the others beforehand changes neither the finding nor, if it is
done again, the rule. -/
theorem classify_usable (c : CursorContext) :
    (∀ r₁ r₂ : MarkerRule, r₁.UsableIn r₂ →
      (c.classify r₁).scope = .comment → (c.classify r₂).scope = .comment) ∧
    (∀ r₁ r₂ : MarkerRule, r₁.UsableIn r₂ → r₂.UsableIn r₁ →
      (c.classify r₁).scope = (c.classify r₂).scope) ∧
    ∀ r : MarkerRule, c.classify r.cleaned = c.classify r ∧
      (c.classify r.cleaned).log = (c.classify r).log ∧ r.cleaned.cleaned = r.cleaned := by
  refine ⟨fun r₁ r₂ h => scope_classify_mono h, fun r₁ r₂ h₁₂ h₂₁ => ?_, fun r => ?_⟩
  · exact Scope.eq_of_comment_iff ⟨scope_classify_mono h₁₂, scope_classify_mono h₂₁⟩
  · exact ⟨c.classify_cleaned r, congrArg Finding.log (c.classify_cleaned r), r.cleaned_cleaned⟩

end CursorContext

end CaretLayout
