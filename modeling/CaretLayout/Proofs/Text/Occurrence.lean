import CaretLayout.Text.Search

/-!
# Where a marker stands

The searches of `Text.Search` are structural recursions.  Here they are related to the offsets at
which a marker stands: `lastIndex?` is the greatest of them, and comparing the last offsets of two
markers asks whether one of them comes last (`isAfter_lastIndex?`).  A marker that does not hold a
separator stands in a joined text exactly where it stands in one of the parts
(`standsAt_append_cons`), and occurs there as often as in all of them (`occurrences_append_cons`).
What a search finds is fixed by these offsets alone (`SearchLaw`): the count, for one, takes the first
occurrence and goes on behind it.

A text that grows by one character, in which no occurrence ends at this character, is searched with the
same results (`contains_concat`, `lastIndex?_concat`, `occurrences_concat`).
-/

namespace CaretLayout.Text

variable {α : Type}

/-- The marker stands in the text at an offset. -/
def StandsAt (marker text : List α) (i : Nat) : Prop :=
  marker <+: text.drop i

/-- The marker stands in the text and ends at an offset. -/
def EndsAt (marker text : List α) (j : Nat) : Prop :=
  ∃ i, StandsAt marker text i ∧ i + marker.length = j

/-- An occurrence of `a` starts after all occurrences of `b`. -/
def ComesLast (a b text : List α) : Prop :=
  ∃ i, StandsAt a text i ∧ ∀ j, StandsAt b text j → j < i

/-- No occurrence of `a` shares a position with an occurrence of `b`. -/
def Apart (a b text : List α) : Prop :=
  ∀ i j k, StandsAt a text i → StandsAt b text j →
    ¬ ((i ≤ k ∧ k < i + a.length) ∧ (j ≤ k ∧ k < j + b.length))

instance [DecidableEq α] (marker text : List α) (i : Nat) : Decidable (StandsAt marker text i) :=
  inferInstanceAs (Decidable (marker <+: text.drop i))

/-! ### Offsets -/

theorem standsAt_zero {marker text : List α} : StandsAt marker text 0 ↔ marker <+: text := Iff.rfl

theorem standsAt_cons_succ {marker rest : List α} {c : α} {i : Nat} :
    StandsAt marker (c :: rest) (i + 1) ↔ StandsAt marker rest i := Iff.rfl

theorem standsAt_drop {marker text : List α} {k i : Nat} :
    StandsAt marker (text.drop k) i ↔ StandsAt marker text (k + i) := by
  unfold StandsAt; rw [List.drop_drop]

theorem StandsAt.le_length {marker text : List α} {i : Nat} (h : StandsAt marker text i)
    (hm : marker ≠ []) : i + marker.length ≤ text.length := by
  have hle := h.length_le
  have hpos := List.length_pos_iff.mpr hm
  rw [List.length_drop] at hle
  omega

theorem not_standsAt_nil {marker : List α} (hm : marker ≠ []) (i : Nat) :
    ¬ StandsAt marker [] i := by
  intro h
  have hle := h.le_length hm
  have hpos := List.length_pos_iff.mpr hm
  simp only [List.length_nil] at hle
  omega

/-- A marker occurs where it stands. -/
theorem infix_iff_exists_standsAt {marker text : List α} :
    marker <:+: text ↔ ∃ i, StandsAt marker text i := by
  rw [List.infix_iff_prefix_suffix]
  constructor
  · rintro ⟨rest, hprefix, hsuffix⟩
    rw [List.suffix_iff_eq_drop] at hsuffix
    rw [hsuffix] at hprefix
    exact ⟨_, hprefix⟩
  · rintro ⟨i, hi⟩
    exact ⟨text.drop i, hi, List.drop_suffix i text⟩

/-- A marker that ends the front of a text ends there in the whole text. -/
theorem endsAt_of_suffix_take {marker text : List α} {j : Nat} (hj : j ≤ text.length)
    (h : marker <:+ text.take j) : EndsAt marker text j := by
  obtain ⟨front, hfront⟩ := h
  have hlength : front.length + marker.length = j := by
    rw [← List.length_append, hfront, List.length_take_of_le hj]
  refine ⟨front.length, ?_, hlength⟩
  have htext : front ++ (marker ++ text.drop j) = text := by
    rw [← List.append_assoc, hfront, List.take_append_drop]
  rw [StandsAt, ← htext, List.drop_left]
  exact List.prefix_append marker (text.drop j)

/-- Two markers that keep apart stand one before the other. -/
theorem Apart.before_or_after {a b text : List α} (h : Apart a b text) (ha : a ≠ []) (hb : b ≠ [])
    {i j : Nat} (hi : StandsAt a text i) (hj : StandsAt b text j) :
    i + a.length ≤ j ∨ j + b.length ≤ i := by
  have hpa := List.length_pos_iff.mpr ha
  have hpb := List.length_pos_iff.mpr hb
  rcases Nat.le_total i j with hij | hij
  · have := h i j j hi hj
    omega
  · have := h i j i hi hj
    omega

theorem Apart.symm {a b text : List α} (h : Apart a b text) : Apart b a text :=
  fun i j k hi hj hk => h j i k hj hi hk.symm

theorem Apart.drop {a b text : List α} (h : Apart a b text) (n : Nat) :
    Apart a b (text.drop n) := by
  intro i j k hi hj hk
  rw [standsAt_drop] at hi hj
  exact h (n + i) (n + j) (n + k) hi hj (by omega)

theorem apart_iff_forall_lt {a b text : List α} : Apart a b text ↔
    ∀ i < text.length, ∀ j < text.length, StandsAt a text i → StandsAt b text j →
      min (i + a.length) (j + b.length) ≤ max i j := by
  constructor
  · intro h i _ j _ hi hj
    have := h i j (max i j) hi hj
    omega
  · intro h i j k hi hj hk
    have hli := hi.le_length (List.length_pos_iff.mp (by omega))
    have hlj := hj.le_length (List.length_pos_iff.mp (by omega))
    have := h i (by omega) j (by omega) hi hj
    omega

instance [DecidableEq α] (a b text : List α) : Decidable (Apart a b text) :=
  decidable_of_iff _ apart_iff_forall_lt.symm

/-! ### The last offset -/

section Search

variable [BEq α] [LawfulBEq α]

theorem standsAt_zero_iff_isPrefixOf {marker text : List α} :
    StandsAt marker text 0 ↔ marker.isPrefixOf text = true := by
  rw [standsAt_zero, List.isPrefixOf_iff_prefix]

theorem lastIndex?_spec {marker : List α} (hm : marker ≠ []) : ∀ text : List α,
    (lastIndex? marker text = none → ∀ i, ¬ StandsAt marker text i) ∧
      ∀ i, lastIndex? marker text = some i →
        StandsAt marker text i ∧ ∀ j, StandsAt marker text j → j ≤ i
  | [] => ⟨fun _ => not_standsAt_nil hm, fun i h => by simp [lastIndex?] at h⟩
  | c :: rest => by
    obtain ⟨ihn, ihs⟩ := lastIndex?_spec hm rest
    rcases hr : lastIndex? marker rest with _ | k
    · have hno := ihn hr
      by_cases hp : marker.isPrefixOf (c :: rest) = true
      · refine ⟨fun h => by simp [lastIndex?, hr, hp] at h, fun i h => ?_⟩
        simp only [lastIndex?, hr, hp, if_true, Option.some.injEq] at h
        subst h
        refine ⟨standsAt_zero_iff_isPrefixOf.mpr hp, fun j hj => ?_⟩
        rcases j with _ | j
        · exact Nat.le_refl 0
        · exact absurd (standsAt_cons_succ.mp hj) (hno j)
      · refine ⟨fun _ i hi => ?_, fun i h => by simp [lastIndex?, hr, hp] at h⟩
        rcases i with _ | i
        · exact hp (standsAt_zero_iff_isPrefixOf.mp hi)
        · exact hno i (standsAt_cons_succ.mp hi)
    · obtain ⟨hk, hmax⟩ := ihs k hr
      refine ⟨fun h => by simp [lastIndex?, hr] at h, fun i h => ?_⟩
      simp only [lastIndex?, hr, Option.some.injEq] at h
      subst h
      refine ⟨standsAt_cons_succ.mpr hk, fun j hj => ?_⟩
      rcases j with _ | j
      · exact Nat.zero_le _
      · exact Nat.succ_le_succ (hmax j (standsAt_cons_succ.mp hj))

theorem lastIndex?_eq_none_iff {marker text : List α} (hm : marker ≠ []) :
    lastIndex? marker text = none ↔ ∀ i, ¬ StandsAt marker text i := by
  refine ⟨(lastIndex?_spec hm text).1, fun h => ?_⟩
  rcases hl : lastIndex? marker text with _ | i
  · rfl
  · exact absurd ((lastIndex?_spec hm text).2 i hl).1 (h i)

theorem lastIndex?_eq_some_iff {marker text : List α} (hm : marker ≠ []) {i : Nat} :
    lastIndex? marker text = some i ↔
      StandsAt marker text i ∧ ∀ j, StandsAt marker text j → j ≤ i := by
  refine ⟨(lastIndex?_spec hm text).2 i, fun ⟨hi, hmax⟩ => ?_⟩
  rcases hl : lastIndex? marker text with _ | k
  · exact absurd hi ((lastIndex?_eq_none_iff hm).mp hl i)
  · obtain ⟨hk, hkmax⟩ := (lastIndex?_spec hm text).2 k hl
    rw [Nat.le_antisymm (hmax k hk) (hkmax i hi)]

theorem lastIndex?_eq_none_iff_not_occurs {marker text : List α} (hm : marker ≠ []) :
    lastIndex? marker text = none ↔ ¬ marker <:+: text := by
  rw [lastIndex?_eq_none_iff hm, infix_iff_exists_standsAt, not_exists]

theorem lastIndex?_ne_none_of_standsAt {marker text : List α} (hm : marker ≠ []) {i : Nat}
    (hi : StandsAt marker text i) : lastIndex? marker text ≠ none :=
  fun h => (lastIndex?_eq_none_iff hm).mp h i hi

/-- **Comparing last offsets**: the last occurrence of `a` lies after that of `b` exactly when an
occurrence of `a` starts after all occurrences of `b`. -/
theorem isAfter_lastIndex? {a b text : List α} (ha : a ≠ []) (hb : b ≠ []) :
    isAfter (lastIndex? a text) (lastIndex? b text) = true ↔ ComesLast a b text := by
  obtain ⟨han, has⟩ := lastIndex?_spec ha text
  obtain ⟨hbn, hbs⟩ := lastIndex?_spec hb text
  rcases hla : lastIndex? a text with _ | i
  · refine ⟨fun h => by simp at h, fun ⟨i, hi, _⟩ => absurd hi (han hla i)⟩
  · obtain ⟨hi, himax⟩ := has i hla
    rcases hlb : lastIndex? b text with _ | j
    · exact ⟨fun _ => ⟨i, hi, fun j hj => absurd hj (hbn hlb j)⟩, fun _ => rfl⟩
    · obtain ⟨hj, hjmax⟩ := hbs j hlb
      rw [isAfter_some, decide_eq_true_eq]
      constructor
      · intro hlt
        exact ⟨i, hi, fun k hk => Nat.lt_of_le_of_lt (hjmax k hk) hlt⟩
      · rintro ⟨k, hk, hall⟩
        exact Nat.lt_of_lt_of_le (hall j hj) (himax k hk)

end Search

/-! ### One character more -/

/-- What does not end a text does not end what is left of it. -/
theorem not_suffix_of_cons {marker text : List α} {a c : α}
    (h : ¬ marker <:+ a :: text ++ [c]) : ¬ marker <:+ text ++ [c] :=
  fun hs => h (hs.trans (List.suffix_cons a _))

section Concat

variable [BEq α] [LawfulBEq α] {marker : List α} {c : α}

theorem contains_iff_infix : ∀ {text : List α}, contains marker text = true ↔ marker <:+: text
  | [] => by rw [contains, List.isEmpty_iff, List.infix_nil]
  | a :: text => by
    rw [contains, Bool.or_eq_true, List.isPrefixOf_iff_prefix, contains_iff_infix,
      List.infix_cons_iff]

theorem isPrefixOf_concat {text : List α} (h : ¬ marker <:+ text ++ [c]) :
    marker.isPrefixOf (text ++ [c]) = marker.isPrefixOf text := by
  rw [Bool.eq_iff_iff, List.isPrefixOf_iff_prefix, List.isPrefixOf_iff_prefix,
    List.prefix_concat_iff]
  exact ⟨fun hp => hp.resolve_left fun heq => h (heq ▸ List.suffix_refl _), Or.inr⟩

theorem isPrefixOf_singleton (h : ¬ marker <:+ [c]) : marker.isPrefixOf [c] = false := by
  have hnil : marker.isPrefixOf [c] = marker.isPrefixOf [] :=
    @isPrefixOf_concat _ _ _ marker c [] h
  rw [hnil]
  rcases marker with _ | ⟨m, marker⟩
  · exact absurd List.nil_suffix h
  · rfl

theorem contains_concat : ∀ {text : List α}, ¬ marker <:+ text ++ [c] →
    contains marker (text ++ [c]) = contains marker text
  | [], h => by
    show (marker.isPrefixOf [c] || contains marker []) = contains marker []
    rw [isPrefixOf_singleton h, Bool.false_or]
  | a :: text, h => by
    rw [List.cons_append, contains, contains, ← List.cons_append, isPrefixOf_concat h,
      contains_concat (not_suffix_of_cons h)]

theorem lastIndex?_concat : ∀ {text : List α}, ¬ marker <:+ text ++ [c] →
    lastIndex? marker (text ++ [c]) = lastIndex? marker text
  | [], h => by
    simp only [List.nil_append, lastIndex?, isPrefixOf_singleton h, Bool.false_eq_true, if_false]
  | a :: text, h => by
    rw [List.cons_append, lastIndex?, lastIndex?, lastIndex?_concat (not_suffix_of_cons h),
      ← List.cons_append, isPrefixOf_concat h]

/-- The occurrences that are counted from the left stay the same, as none that is added can end. -/
theorem occurrencesFrom_concat : ∀ {text : List α} (covered : Nat), ¬ marker <:+ text ++ [c] →
    occurrencesFrom marker covered (text ++ [c]) = occurrencesFrom marker covered text
  | [], covered + 1, _ => occurrencesFrom_nil marker covered
  | [], 0, h => by
    simp only [List.nil_append, occurrencesFrom, isPrefixOf_singleton h, Bool.false_eq_true,
      if_false]
  | a :: text, covered + 1, h => by
    rw [List.cons_append, occurrencesFrom, occurrencesFrom,
      occurrencesFrom_concat covered (not_suffix_of_cons h)]
  | a :: text, 0, h => by
    have hrest := not_suffix_of_cons h
    rw [List.cons_append, occurrencesFrom, occurrencesFrom, ← List.cons_append,
      isPrefixOf_concat h, occurrencesFrom_concat _ hrest, occurrencesFrom_concat _ hrest]

theorem occurrences_concat {text : List α} (h : ¬ marker <:+ text ++ [c]) :
    occurrences marker (text ++ [c]) = occurrences marker text :=
  occurrencesFrom_concat 0 h

end Concat

/-! ### Counting from the first occurrence -/

section First

variable [BEq α] {marker : List α}

/-- Positions that belong to an occurrence are passed over. -/
theorem occurrencesFrom_eq_drop : ∀ (covered : Nat) (text : List α),
    occurrencesFrom marker covered text = occurrences marker (text.drop covered)
  | 0, text => rfl
  | covered + 1, [] => occurrencesFrom_nil marker (covered + 1)
  | covered + 1, c :: text => by
    rw [occurrencesFrom, occurrencesFrom_eq_drop covered text, List.drop_succ_cons]

variable [LawfulBEq α]

theorem occurrences_of_none : ∀ {text : List α}, (∀ i, ¬ StandsAt marker text i) →
    occurrences marker text = 0
  | [], _ => rfl
  | c :: text, h => by
    have hno : ¬ marker.isPrefixOf (c :: text) = true :=
      fun hp => h 0 (standsAt_zero_iff_isPrefixOf.mpr hp)
    have hrest : occurrences marker text = 0 :=
      occurrences_of_none fun i hi => h (i + 1) (standsAt_cons_succ.mpr hi)
    rw [occurrences, occurrencesFrom, if_neg hno]
    exact hrest

/-- The first occurrence is counted, and the count goes on behind it. -/
theorem occurrences_of_first (hm : marker ≠ []) : ∀ {text : List α} {i : Nat},
    StandsAt marker text i → (∀ j, StandsAt marker text j → i ≤ j) →
      occurrences marker text = 1 + occurrences marker (text.drop (i + marker.length))
  | [], i, hi, _ => absurd hi (not_standsAt_nil hm i)
  | c :: text, 0, hi, _ => by
    have hpos := List.length_pos_iff.mpr hm
    rw [occurrences, occurrencesFrom, if_pos (standsAt_zero_iff_isPrefixOf.mp hi),
      occurrencesFrom_eq_drop, show 0 + marker.length = marker.length - 1 + 1 by omega,
      List.drop_succ_cons]
  | c :: text, i + 1, hi, hfirst => by
    have hno : ¬ marker.isPrefixOf (c :: text) = true :=
      fun hp => Nat.not_succ_le_zero i (hfirst 0 (standsAt_zero_iff_isPrefixOf.mpr hp))
    have hrest := occurrences_of_first hm (standsAt_cons_succ.mp hi)
      fun j hj => Nat.le_of_succ_le_succ (hfirst (j + 1) (standsAt_cons_succ.mpr hj))
    rw [occurrences, occurrencesFrom, if_neg hno, ← occurrences, hrest, Nat.add_right_comm,
      List.drop_succ_cons]

/-- What the searches for a marker find in a text. -/
structure SearchLaw (marker text : List α) : Prop where
  /-- The marker occurs when it is a part of the text. -/
  contains_iff : contains marker text = true ↔ marker <:+: text
  /-- Its last offset is the greatest at which it stands. -/
  lastIndex?_iff : ∀ i, lastIndex? marker text = some i ↔
    StandsAt marker text i ∧ ∀ j, StandsAt marker text j → j ≤ i
  /-- Where it does not stand nothing is counted. -/
  occurrences_none : (∀ i, ¬ StandsAt marker text i) → occurrences marker text = 0
  /-- Its first occurrence is counted, and the count goes on behind it. -/
  occurrences_first : ∀ i, StandsAt marker text i → (∀ j, StandsAt marker text j → i ≤ j) →
    occurrences marker text = 1 + occurrences marker (text.drop (i + marker.length))

theorem searchLaw (hm : marker ≠ []) (text : List α) : SearchLaw marker text where
  contains_iff := contains_iff_infix
  lastIndex?_iff := fun _ => lastIndex?_eq_some_iff hm
  occurrences_none := occurrences_of_none
  occurrences_first := fun _ hi hfirst => occurrences_of_first hm hi hfirst

end First

/-! ### Joined texts -/

theorem prefix_append_cons_iff {marker front rest : List α} {sep : α} (hs : sep ∉ marker) :
    marker <+: front ++ sep :: rest ↔ marker <+: front := by
  refine ⟨fun h => ?_, fun h => h.trans (List.prefix_append _ _)⟩
  have hf : front ++ [sep] <+: front ++ sep :: rest := ⟨rest, by simp⟩
  rcases List.prefix_or_prefix_of_prefix h hf with h1 | h1
  · rcases List.prefix_concat_iff.mp h1 with rfl | h2
    · exact absurd (by simp) hs
    · exact h2
  · exact absurd (h1.subset (by simp)) hs

/-- A marker without the separator stands in a joined text where it stands in one of the parts. -/
theorem standsAt_append_cons {marker front rest : List α} {sep : α} (hm : marker ≠ [])
    (hs : sep ∉ marker) {i : Nat} :
    StandsAt marker (front ++ sep :: rest) i ↔
      StandsAt marker front i ∨ ∃ k, i = front.length + 1 + k ∧ StandsAt marker rest k := by
  rcases Nat.lt_or_ge front.length i with hi | hi
  · obtain ⟨k, rfl⟩ : ∃ k, i = front.length + 1 + k := ⟨i - (front.length + 1), by omega⟩
    have hdrop : (front ++ sep :: rest).drop (front.length + 1 + k) = rest.drop k := by
      rw [List.drop_append, List.drop_eq_nil_of_le (by omega), List.nil_append,
        show front.length + 1 + k - front.length = k + 1 by omega, List.drop_succ_cons]
    unfold StandsAt
    rw [hdrop]
    refine ⟨fun h => Or.inr ⟨k, rfl, h⟩, ?_⟩
    rintro (h | ⟨k', hk, h⟩)
    · exact absurd (StandsAt.le_length h hm) (by omega)
    · rwa [show k = k' by omega]
  · have hdrop : (front ++ sep :: rest).drop i = front.drop i ++ sep :: rest :=
      List.drop_append_of_le_length hi
    unfold StandsAt
    rw [hdrop, prefix_append_cons_iff hs]
    refine ⟨Or.inl, ?_⟩
    rintro (h | ⟨k, hk, _⟩)
    · exact h
    · omega

/-! ### Counting in joined texts -/

section Count

variable [BEq α] [LawfulBEq α] {marker : List α} {sep : α}

theorem isPrefixOf_append_cons (hs : sep ∉ marker) (front rest : List α) :
    marker.isPrefixOf (front ++ sep :: rest) = marker.isPrefixOf front := by
  rw [Bool.eq_iff_iff, List.isPrefixOf_iff_prefix, List.isPrefixOf_iff_prefix,
    prefix_append_cons_iff hs]

/-- The count starts anew behind a separator, as no occurrence reaches over it. -/
theorem occurrencesFrom_append_cons (hm : marker ≠ []) (hs : sep ∉ marker) (rest : List α) :
    ∀ (front : List α) (covered : Nat), covered ≤ front.length →
      occurrencesFrom marker covered (front ++ sep :: rest) =
        occurrencesFrom marker covered front + occurrencesFrom marker 0 rest
  | [], covered, hc => by
    obtain rfl : covered = 0 := Nat.le_zero.mp hc
    have hno : marker.isPrefixOf (sep :: rest) = false := by
      rw [← List.nil_append (sep :: rest), isPrefixOf_append_cons hs]
      rcases marker with _ | ⟨m, marker⟩
      · exact absurd rfl hm
      · rfl
    rw [List.nil_append, occurrencesFrom_nil, Nat.zero_add, occurrencesFrom, hno]
    rfl
  | c :: front, covered + 1, hc => by
    rw [List.cons_append, occurrencesFrom, occurrencesFrom,
      occurrencesFrom_append_cons hm hs rest front covered (Nat.le_of_succ_le_succ hc)]
  | c :: front, 0, _ => by
    rw [List.cons_append, occurrencesFrom, occurrencesFrom, ← List.cons_append,
      isPrefixOf_append_cons hs]
    split
    · next hp =>
      -- an occurrence that starts here ends before the separator
      have hle := (List.isPrefixOf_iff_prefix.mp hp).length_le
      rw [List.length_cons] at hle
      rw [occurrencesFrom_append_cons hm hs rest front (marker.length - 1) (by omega)]
      omega
    · exact occurrencesFrom_append_cons hm hs rest front 0 (Nat.zero_le _)

/-- A marker without the separator occurs in a joined text as often as in both parts. -/
theorem occurrences_append_cons (hm : marker ≠ []) (hs : sep ∉ marker) (front rest : List α) :
    occurrences marker (front ++ sep :: rest) =
      occurrences marker front + occurrences marker rest :=
  occurrencesFrom_append_cons hm hs rest front 0 (Nat.zero_le _)

end Count

end CaretLayout.Text
