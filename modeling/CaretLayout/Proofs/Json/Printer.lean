import CaretLayout.Json.Printer
import CaretLayout.Proofs.Json.Reader
import CaretLayout.Proofs.Text.Utf8

/-!
# What is printed is read back

The printer writes a value that holds no other numbers than integers of 64 bits by the grammar
(`value_print`), so the reader gives the value back (`readTree_print`).  The text has no control
character, hence no line feed (`noControl_print`), whatever the strings in it hold, so that values
that are printed on lines are told apart by the line feeds (`segments_encode_print`).
-/

namespace CaretLayout.Json

open Grammar

/-! ### Strings -/

theorem hexValue_hexDigit : ∀ n < 16, hexValue (hexDigit n) = some n := by
  decide

/-- A character is written as it stands in a string. -/
theorem chars_escapeChar (c : Char) {cs t : List Char} (h : Chars cs t) :
    Chars (c :: cs) (escapeChar c ++ t) := by
  unfold escapeChar
  split_ifs with h1 h2 h3 h4 h5 h6 h7 h8
  · subst h1
    exact .escape (e := ['"']) (.short (by decide)) h
  · subst h2
    exact .escape (e := ['\\']) (.short (by decide)) h
  · subst h3
    exact .escape (e := ['b']) (.short (by decide)) h
  · subst h4
    exact .escape (e := ['f']) (.short (by decide)) h
  · subst h5
    exact .escape (e := ['n']) (.short (by decide)) h
  · subst h6
    exact .escape (e := ['r']) (.short (by decide)) h
  · subst h7
    exact .escape (e := ['t']) (.short (by decide)) h
  · have hdigits : Hex4 (0 * 4096 + 0 * 256 + c.toNat / 16 * 16 + c.toNat % 16)
        ['0', '0', hexDigit (c.toNat / 16), hexDigit (c.toNat % 16)] :=
      .mk rfl rfl (hexValue_hexDigit _ (by omega)) (hexValue_hexDigit _ (by omega))
    have hescape := Escape.unit hdigits (by omega)
    rw [show 0 * 4096 + 0 * 256 + c.toNat / 16 * 16 + c.toNat % 16 = c.toNat by omega,
      Char.ofNat_toNat] at hescape
    exact .escape hescape h
  · exact .plain h1 h2 (by omega) h

theorem chars_flatMap_escapeChar : ∀ cs : List Char, Chars cs (cs.flatMap escapeChar)
  | [] => .nil
  | c :: cs => chars_escapeChar c (chars_flatMap_escapeChar cs)

theorem quoted_quote (s : String) : Quoted s (quote s) :=
  .mk (chars_flatMap_escapeChar s.toList)

/-! ### Values -/

mutual

/-- Whether every number in a value is an integer of 64 bits. -/
def Integral : Json → Prop
  | int i => Fits64 i
  | float _ => False
  | array items => IntegralItems items
  | object members => IntegralMembers members
  | _ => True

/-- Whether every number in a list of values is an integer of 64 bits. -/
def IntegralItems : List Json → Prop
  | [] => True
  | v :: rest => Integral v ∧ IntegralItems rest

/-- Whether every number in a list of members is an integer of 64 bits. -/
def IntegralMembers : List (String × Json) → Prop
  | [] => True
  | (_, v) :: rest => Integral v ∧ IntegralMembers rest

end

mutual

/-- A value is printed by the grammar. -/
theorem value_print : ∀ v : Json, Integral v → Value v (print v)
  | null, _ => .nullWord
  | bool true, _ => .trueWord
  | bool false, _ => .falseWord
  | int i, h => value_int_iff.mpr ⟨h, rfl⟩
  | float _, h => h.elim
  | string s, _ => .string (quoted_quote s)
  | array items, h => array_print items h
  | object members, h => object_print members h

theorem array_print : ∀ items : List Json, IntegralItems items →
    Value (.array items) ('[' :: printItems items)
  | [], _ => .emptyArray blank_nil
  | v :: vs, h => by
    obtain ⟨t, ht, hitems⟩ := items_print (v :: vs) h (by simp)
    rw [ht]
    exact .array blank_nil hitems

/-- Items are printed by the grammar, up to the closing bracket. -/
theorem items_print : ∀ items : List Json, IntegralItems items → items ≠ [] →
    ∃ t, printItems items = t ++ [']'] ∧ Items items t
  | [], _, hne => absurd rfl hne
  | [v], h, _ => by
    have hlast := Items.last (value_print v h.1) blank_nil
    rw [List.append_nil] at hlast
    exact ⟨print v, rfl, hlast⟩
  | v :: w :: vs, h, _ => by
    obtain ⟨t, ht, hitems⟩ := items_print (w :: vs) h.2 (by simp)
    refine ⟨_, ?_, .cons (value_print v h.1) blank_nil blank_nil hitems⟩
    show print v ++ ',' :: printItems (w :: vs) = _
    rw [ht]
    simp only [List.nil_append, List.append_assoc, List.cons_append]

theorem object_print : ∀ members : List (String × Json), IntegralMembers members →
    Value (.object members) ('{' :: printMembers members)
  | [], _ => .emptyObject blank_nil
  | m :: ms, h => by
    obtain ⟨t, ht, hmembers⟩ := members_print (m :: ms) h (by simp)
    rw [ht]
    exact .object blank_nil hmembers

/-- Members are printed by the grammar, up to the closing brace. -/
theorem members_print : ∀ members : List (String × Json), IntegralMembers members → members ≠ [] →
    ∃ t, printMembers members = t ++ ['}'] ∧ Members members t
  | [], _, hne => absurd rfl hne
  | [(k, v)], h, _ => by
    have hmember := Member.mk (quoted_quote k) blank_nil blank_nil (value_print v h.1)
    refine ⟨_, ?_, .last hmember blank_nil⟩
    show quote k ++ ':' :: (print v ++ ['}']) = _
    simp only [List.nil_append, List.append_nil, List.append_assoc, List.cons_append]
  | (k, v) :: m :: ms, h, _ => by
    obtain ⟨t, ht, hmembers⟩ := members_print (m :: ms) h.2 (by simp)
    have hmember := Member.mk (quoted_quote k) blank_nil blank_nil (value_print v h.1)
    refine ⟨_, ?_, .cons hmember blank_nil blank_nil hmembers⟩
    show quote k ++ ':' :: (print v ++ ',' :: printMembers (m :: ms)) = _
    rw [ht]
    simp only [List.nil_append, List.append_assoc, List.cons_append]

end

/-- A printed object is enclosed in its braces. -/
theorem print_object_eq (members : List (String × Json)) :
    ∃ t, print (.object members) = '{' :: (t ++ ['}']) := by
  have hmore : ∀ ms : List (String × Json), ∃ t, printMoreMembers ms = t ++ ['}'] := by
    intro ms
    induction ms with
    | nil => exact ⟨[], rfl⟩
    | cons m ms ih =>
      obtain ⟨t, ht⟩ := ih
      refine ⟨',' :: (quote m.1 ++ ':' :: (print m.2 ++ t)), ?_⟩
      simp only [printMoreMembers, ht, List.append_assoc, List.cons_append]
  rcases members with _ | ⟨⟨k, v⟩, ms⟩
  · exact ⟨[], rfl⟩
  · obtain ⟨t, ht⟩ := hmore ms
    refine ⟨quote k ++ ':' :: (print v ++ t), ?_⟩
    simp only [print, printMembers, ht, List.append_assoc, List.cons_append]

/-- **What is printed is read back**, with the members in the same order. -/
theorem readTree_print {v : Json} (h : Integral v) (hdepth : v.depth ≤ maxDepth) :
    readTree (print v) = .ok v :=
  readTree_eq_ok_iff.mpr
    ⟨⟨[], print v, [], blank_nil, value_print v h, blank_nil, by rw [List.append_nil]; rfl⟩, hdepth⟩

theorem read_print {v : Json} (h : Integral v) (hdepth : v.depth ≤ maxDepth) :
    read (print v) = .ok v.canonical := by
  rw [read, readTree_print h hdepth]
  rfl

/-! ### No control characters -/

/-- That a text holds no control character below the space. -/
def NoControl (text : List Char) : Prop :=
  ∀ c ∈ text, 0x20 ≤ c.toNat

instance (text : List Char) : Decidable (NoControl text) :=
  List.decidableBAll (fun c : Char => 0x20 ≤ c.toNat) text

theorem noControl_nil : NoControl [] := fun _ h => absurd h List.not_mem_nil

theorem noControl_cons {c : Char} {text : List Char} :
    NoControl (c :: text) ↔ 0x20 ≤ c.toNat ∧ NoControl text :=
  List.forall_mem_cons

theorem noControl_append {text text' : List Char} :
    NoControl (text ++ text') ↔ NoControl text ∧ NoControl text' :=
  List.forall_mem_append

theorem noControl_ite {p : Prop} [Decidable p] {text text' : List Char} (h : NoControl text)
    (h' : NoControl text') : NoControl (if p then text else text') := by
  split
  · exact h
  · exact h'

theorem NoControl.lineFeed_notMem {text : List Char} (h : NoControl text) : '\n' ∉ text :=
  fun hmem => absurd (h _ hmem) (by decide)

theorem noControl_digitsOf (n : Nat) : NoControl (Decimal.digitsOf n) := by
  intro c hc
  have hdigit := (wholeDigits_digitsOf n).1.2 c hc
  have hlow := (Char.isDigit_iff_toNat.mp hdigit).1
  have h0 : '0'.toNat = 48 := rfl
  omega

theorem noControl_replicate (n : Nat) : NoControl (List.replicate n '0') := by
  intro c hc
  rw [List.eq_of_mem_replicate hc]
  decide

theorem noControl_printInt (i : Int) : NoControl (printInt i) := by
  exact noControl_ite (noControl_cons.mpr ⟨by decide, noControl_digitsOf _⟩) (noControl_digitsOf _)

theorem noControl_printPlain (s : Decimal.Scaled) : NoControl (printPlain s) := by
  have hpadded : ∀ n, NoControl (List.replicate n '0' ++ Decimal.digitsOf s.digits) := fun n =>
    noControl_append.mpr ⟨noControl_replicate n, noControl_digitsOf _⟩
  unfold printPlain
  dsimp only
  split
  · refine noControl_append.mpr ⟨noControl_append.mpr ⟨noControl_digitsOf _, noControl_replicate _⟩, ?_⟩
    decide
  · refine noControl_append.mpr ⟨fun c hc => hpadded _ c (List.mem_of_mem_take hc),
      noControl_cons.mpr ⟨by decide, fun c hc => hpadded _ c (List.mem_of_mem_drop hc)⟩⟩

theorem noControl_printExponent (s : Decimal.Scaled) : NoControl (printExponent s) := by
  have hdigits := noControl_digitsOf s.digits
  unfold printExponent
  dsimp only
  refine noControl_append.mpr ⟨?_, noControl_cons.mpr ⟨by decide, noControl_cons.mpr ⟨?_,
    noControl_digitsOf _⟩⟩⟩
  · exact noControl_ite hdigits (noControl_append.mpr
      ⟨fun c hc => hdigits c (List.mem_of_mem_take hc),
        noControl_cons.mpr ⟨by decide, fun c hc => hdigits c (List.mem_of_mem_drop hc)⟩⟩)
  · split
    · decide
    · decide

theorem noControl_printFloat (x : Binary64) : NoControl (printFloat x) := by
  have hplain := noControl_printPlain (Decimal.shortest x.magnitude)
  have hexponent := noControl_printExponent (Decimal.shortest x.magnitude)
  exact noControl_ite (noControl_cons.mpr ⟨by decide, noControl_ite hplain hexponent⟩)
    (noControl_ite hplain hexponent)

theorem noControl_escapeChar (c : Char) : NoControl (escapeChar c) := by
  have hhex : ∀ n < 32, 0x20 ≤ (hexDigit n).toNat := by decide
  unfold escapeChar
  split_ifs with h1 h2 h3 h4 h5 h6 h7 h8
  · decide
  · decide
  · decide
  · decide
  · decide
  · decide
  · decide
  · simp only [noControl_cons]
    exact ⟨by decide, by decide, by decide, by decide, hhex _ (by omega), hhex _ (by omega),
      noControl_nil⟩
  · exact noControl_cons.mpr ⟨by omega, noControl_nil⟩

theorem noControl_quote (s : String) : NoControl (quote s) := by
  refine noControl_cons.mpr ⟨by decide, noControl_append.mpr ⟨?_, ?_⟩⟩
  · intro c hc
    obtain ⟨c', -, hc'⟩ := List.mem_flatMap.mp hc
    exact noControl_escapeChar c' c hc'
  · exact noControl_cons.mpr ⟨by decide, noControl_nil⟩

mutual

/-- **A printed value stands on one line**: its text holds no control character. -/
theorem noControl_print : ∀ v : Json, NoControl (print v)
  | null => by decide
  | bool true => by decide
  | bool false => by decide
  | int i => noControl_printInt i
  | float x => noControl_printFloat x
  | string s => noControl_quote s
  | array [] => by decide
  | array (v :: vs) => noControl_cons.mpr ⟨by decide, noControl_append.mpr
      ⟨noControl_print v, noControl_printMoreItems vs⟩⟩
  | object [] => by decide
  | object ((k, v) :: ms) => noControl_cons.mpr ⟨by decide, noControl_append.mpr
      ⟨noControl_quote k, noControl_cons.mpr ⟨by decide, noControl_append.mpr
        ⟨noControl_print v, noControl_printMoreMembers ms⟩⟩⟩⟩

theorem noControl_printMoreItems : ∀ vs : List Json, NoControl (printMoreItems vs)
  | [] => by decide
  | v :: vs => noControl_cons.mpr ⟨by decide, noControl_append.mpr
      ⟨noControl_print v, noControl_printMoreItems vs⟩⟩

theorem noControl_printMoreMembers : ∀ ms : List (String × Json),
    NoControl (printMoreMembers ms)
  | [] => by decide
  | (k, v) :: ms => noControl_cons.mpr ⟨by decide, noControl_append.mpr
      ⟨noControl_quote k, noControl_cons.mpr ⟨by decide, noControl_append.mpr
        ⟨noControl_print v, noControl_printMoreMembers ms⟩⟩⟩⟩

end

/-! ### Values on lines -/

/-- **Printed values on lines are cut into the values**, whatever texts they hold. -/
theorem segments_encode_print (vs : List Json) :
    Text.segments Text.lineFeed (Text.Utf8.encode (vs.flatMap fun v => print v ++ ['\n'])) =
      vs.map fun v => ⟨Text.Utf8.encode (print v), true⟩ := by
  have hnone : ∀ l ∈ vs.map print, '\n' ∉ l := by
    intro l hl
    obtain ⟨v, -, rfl⟩ := List.mem_map.mp hl
    exact (noControl_print v).lineFeed_notMem
  have h := Text.Utf8.segments_encode_lines hnone
  rwa [List.flatMap_map, List.map_map] at h

end CaretLayout.Json
