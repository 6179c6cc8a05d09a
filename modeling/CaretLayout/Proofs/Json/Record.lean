import CaretLayout.Proofs.Json.Decode
import CaretLayout.Proofs.Json.Skip
import CaretLayout.Proofs.Json.Typed
import Mathlib.Data.List.Forall2

/-!
# Typed reading and decoding

There are two ways from a text to data of a type: to decode the text while it is read, or to read it
as a value and to decode the value.  The first follows the second (`Follows`): whatever a typed reader
takes from a text that writes a value, the decoder makes of the value, and the reader stops where the
value ends.  This holds of strings, of what may be null, of sequences, and of records whose fields are
read the way they are decoded (`readRecord_follows`).
-/

namespace CaretLayout.Json

open Grammar

variable {α β σ : Type}

/-- What a reader takes from a text that writes a value is what a decoder makes of the value. -/
def Follows (read : List Char → Except Fault (Reading α)) (decode : Json → Except DataFault α) :
    Prop :=
  ∀ ⦃b t : List Char⦄ ⦃v : Json⦄ ⦃rest : List Char⦄ ⦃r : Reading α⦄, Blank b → Value v t →
    Ends rest → read (b ++ (t ++ rest)) = .ok r → r.2 = rest ∧ decode v = .ok r.1

/-- Reading follows decoding also in what is made of the result. -/
theorem Follows.map {read : List Char → Except Fault (Reading α)} {decode : Json → Except DataFault α}
    (h : Follows read decode) (f : α → β) :
    Follows (fun text => read text >>= fun r => pure (f r.1, r.2))
      (fun v => decode v >>= fun a => pure (f a)) := by
  intro b t v rest r hb hv hrest hread
  obtain ⟨taken, htaken, hpure⟩ := bind_eq_ok_iff.mp hread
  cases hpure
  obtain ⟨hend, hdecode⟩ := h hb hv hrest htaken
  exact ⟨hend, bind_eq_ok_iff.mpr ⟨taken.1, hdecode, rfl⟩⟩

/-! ### Strings and null -/

theorem readTypedString_follows : Follows readTypedString asString := by
  intro b t v rest r hb hv hrest hread
  obtain ⟨c, t', rfl, hc, -⟩ := hv.exists_cons
  by_cases hquote : c = '"'
  · subst hquote
    obtain ⟨s, rfl⟩ := exists_string_of_value hv
    rw [readTypedString, readStringFor_of_quoted _ hb (quoted_of_value hv)] at hread
    cases hread
    exact ⟨rfl, rfl⟩
  · rw [readTypedString, readStringFor, List.cons_append, skipBlank_blank_cons hb hc] at hread
    dsimp only at hread
    rw [if_neg hquote] at hread
    cases hread

/-- What is decoded unless it is null. -/
def orNull (decode : Json → Except DataFault α) : Json → Except DataFault (Option α)
  | .null => .ok none
  | v => decode v >>= fun a => pure (some a)

theorem word_of_null {t : List Char} (h : Value .null t) : t = ['n', 'u', 'l', 'l'] := by
  cases h with
  | nullWord => rfl
  | number _ hv => rcases value_cases hv with ⟨x, hx⟩ | ⟨-, -, k, -, ⟨-, hx⟩ | ⟨-, -, hx⟩⟩ <;> cases hx

theorem Grammar.Number.head {n : Numeral} {c : Char} {t : List Char} (h : Number n (c :: t)) :
    c = '-' ∨ c.isDigit = true := by
  cases h with
  | positive _ ht =>
    obtain ⟨c', t', ht', hc⟩ := ht.exists_cons
    cases ht'
    exact Or.inr hc
  | negative => exact Or.inl rfl

/-- Only null starts with its first letter. -/
theorem null_of_value {v : Json} {t : List Char} (h : Value v ('n' :: t)) :
    v = .null ∧ t = ['u', 'l', 'l'] := by
  cases h with
  | nullWord => exact ⟨rfl, rfl⟩
  | number hn _ => rcases hn.head with hc | hc <;> cases hc
  | string hq => cases hq

theorem readOptional_follows {read : List Char → Except Fault (Reading α)}
    {decode : Json → Except DataFault α} (h : Follows read decode) :
    Follows (readOptional read) (orNull decode) := by
  intro b t v rest r hb hv hrest hread
  obtain ⟨c, t', rfl, hc, -⟩ := hv.exists_cons
  unfold readOptional at hread
  rw [List.cons_append, skipBlank_blank_cons hb hc] at hread
  split at hread
  · next hcons =>
    cases hcons
    obtain ⟨rfl, rfl⟩ := null_of_value hv
    rw [readWord_append] at hread
    cases hread
    exact ⟨rfl, rfl⟩
  · next hnull =>
    have hdecode : orNull decode v = decode v >>= fun a => pure (some a) := by
      cases v with
      | null =>
        cases word_of_null hv
        exact absurd rfl (hnull _)
      | _ => rfl
    rw [hdecode]
    exact h.map some blank_nil hv hrest hread

/-! ### Sequences -/

/-- What an opening bracket starts. -/
theorem array_of_value {v : Json} {t : List Char} (h : Value v ('[' :: t)) :
    (v = .array [] ∧ ∃ b, Blank b ∧ t = b ++ [']']) ∨
      ∃ items b t', v = .array items ∧ Blank b ∧ Items items t' ∧ t = b ++ (t' ++ [']']) := by
  cases h with
  | emptyArray hb => exact Or.inl ⟨rfl, _, hb, rfl⟩
  | array hb hitems => exact Or.inr ⟨_, _, _, rfl, hb, hitems, rfl⟩
  | number hn _ => rcases hn.head with hc | hc <;> cases hc
  | string hq => cases hq

/-- A list of values of one type. -/
def asList (decode : Json → Except DataFault α) : Json → Except DataFault (List α)
  | .array items => items.mapM decode
  | v => .error (.wrongType (.ofJson v) "a sequence")

theorem readMoreTyped_follows {read : List Char → Except Fault (Reading α)}
    {decode : Json → Except DataFault α} (h : Follows read decode) :
    ∀ {fuel : Nat} {items : List Json} {t rest : List Char} {r : Reading (List α)}, Items items t →
    readMoreTyped read fuel (t ++ ']' :: rest) = .ok r → r.2 = rest ∧ items.mapM decode = .ok r.1
  | 0, _, _, _, _, _, hread => by
    rw [readMoreTyped] at hread
    cases hread
  | fuel + 1, items, _, rest, r, hitems, hread => by
    rw [readMoreTyped] at hread
    obtain ⟨⟨a, text⟩, hitem, hread⟩ := bind_eq_ok_iff.mp hread
    dsimp only at hread
    cases hitems with
    | @last v t b hv hb =>
      rw [List.append_assoc] at hitem
      obtain ⟨rfl, hdecode⟩ :=
        h blank_nil hv (ends_blank_append hb (ends_cons (by decide) rest)) hitem
      rw [readSeparator_close hb (by decide)] at hread
      cases hread
      exact ⟨rfl, by rw [List.mapM_cons, hdecode]; rfl⟩
    | @cons v vs t b b' t' hv hb hb' hvs =>
      obtain ⟨c, t'', rfl, hc, hne⟩ := hvs.exists_cons
      simp only [List.append_assoc, List.cons_append] at hitem
      obtain ⟨rfl, hdecode⟩ := h blank_nil hv (ends_blank_append hb (ends_cons (by decide) _)) hitem
      rw [readSeparator_comma (by decide) hb hb' hc] at hread
      have hmore : ∃ more, readMoreTyped read fuel (c :: t'' ++ ']' :: rest) = .ok more ∧
          r = (a :: more.1, more.2) := by
        dsimp only [bind, Except.bind] at hread
        rw [if_pos rfl] at hread
        split at hread
        · next habsurd => cases habsurd
        · next habsurd =>
          cases habsurd
          exact absurd rfl hne
        · next text' heq =>
          obtain ⟨more, hmore, hpure⟩ := bind_eq_ok_iff.mp hread
          cases hpure
          exact ⟨more, hmore, rfl⟩
      obtain ⟨more, hmore, rfl⟩ := hmore
      obtain ⟨hend, hmapM⟩ := readMoreTyped_follows h hvs hmore
      exact ⟨hend, by rw [List.mapM_cons, hdecode, hmapM]; rfl⟩

theorem readSequence_follows {read : List Char → Except Fault (Reading α)}
    {decode : Json → Except DataFault α} (h : Follows read decode) :
    Follows (readSequence read) (asList decode) := by
  intro b t v rest r hb hv hrest hread
  obtain ⟨c, t', rfl, hc, -⟩ := hv.exists_cons
  unfold readSequence at hread
  rw [List.cons_append, skipBlank_blank_cons hb hc] at hread
  dsimp only at hread
  split_ifs at hread with hopen
  subst hopen
  rcases array_of_value hv with ⟨rfl, b', hb', rfl⟩ | ⟨items, b', t, rfl, hb', hitems, rfl⟩
  · rw [List.append_assoc, List.singleton_append, skipBlank_blank_cons hb' (by decide)] at hread
    cases hread
    exact ⟨rfl, rfl⟩
  · obtain ⟨c, t', rfl, hc, hne⟩ := hitems.exists_cons
    simp only [List.append_assoc, List.cons_append, List.nil_append] at hread
    rw [skipBlank_blank_cons hb' hc] at hread
    split at hread
    · next habsurd => cases habsurd
    · next habsurd =>
      cases habsurd
      exact absurd rfl hne
    · exact readMoreTyped_follows h hitems hread

/-! ### Records -/

/-- A record from an object or from an array of its fields in order. -/
def RecordDecoder.ofValue (d : RecordDecoder σ) (initial : σ) : Json → Except DataFault σ
  | .object members => d.ofMembers initial members
  | .array items => d.ofItems initial items
  | v => .error (.wrongType (.ofJson v) d.name)

/-- A field is read the way it is decoded. -/
structure FieldReader.Mirrors (f : FieldReader σ) (g : FieldDecoder σ) : Prop where
  name : f.name = g.name
  required : f.required = g.required
  follows : ∀ record, Follows (f.read record) (g.store record)

namespace RecordShape

/-- The fields of a record are read the way they are decoded, one by one. -/
def Mirrors (shape : RecordShape σ) (d : RecordDecoder σ) : Prop :=
  List.Forall₂ FieldReader.Mirrors shape.fields d.fields

variable {shape : RecordShape σ} {d : RecordDecoder σ}

/-- Two searches by what mirrored fields have in common find mirrored fields, or nothing. -/
theorem find?_mirrors {p : FieldReader σ → Bool} {q : FieldDecoder σ → Bool}
    (hpq : ∀ {f : FieldReader σ} {g : FieldDecoder σ}, f.Mirrors g → p f = q g)
    {fs : List (FieldReader σ)} {gs : List (FieldDecoder σ)}
    (h : List.Forall₂ FieldReader.Mirrors fs gs) :
    (fs.find? p = none ∧ gs.find? q = none) ∨
      ∃ f g, fs.find? p = some f ∧ gs.find? q = some g ∧ f.Mirrors g := by
  induction h with
  | nil => exact Or.inl ⟨rfl, rfl⟩
  | @cons f g _ _ hfg _ ih =>
    rw [List.find?_cons, List.find?_cons, hpq hfg]
    rcases q g with _ | _
    · exact ih
    · exact Or.inr ⟨f, g, rfl, rfl, hfg⟩

theorem missing?_mirrors (h : shape.Mirrors d) (seen : List String) :
    shape.missing? seen = d.missing? seen := by
  unfold missing? RecordDecoder.missing?
  rcases find?_mirrors (p := fun f => f.required && !seen.contains f.name)
      (q := fun g => g.required && !seen.contains g.name)
      (fun hfg => by rw [hfg.required, hfg.name]) h with ⟨hf, hg⟩ | ⟨f, g, hf, hg, hfg⟩
  · rw [hf, hg]
    rfl
  · rw [hf, hg]
    exact congrArg some hfg.name

/-- A member is stored as it is read. -/
theorem readMember_follows (h : shape.Mirrors d) {k : String} {v : Json} {t rest : List Char}
    (hmember : Member k v t) (hrest : Ends rest) {seen : List String} {record : σ}
    {r : Reading (List String × σ)} (hread : shape.readMember seen record (t ++ rest) = .ok r) :
    r.2 = rest ∧ ∀ members, d.storeMembers seen record ((k, v) :: members) =
      d.storeMembers r.1.1 r.1.2 members := by
  obtain @⟨_, _, q, b, b', t, hq, hb, hb', hv⟩ := hmember
  simp only [List.append_assoc, List.cons_append] at hread
  rw [readMember, readMemberName, readName_of_quoted hq] at hread
  dsimp only [bind, Except.bind] at hread
  rw [readColon_of_blank hb] at hread
  rcases find?_mirrors (p := (·.name == k)) (q := (·.name == k)) (fun hfg => by rw [hfg.name]) h with
    ⟨hf, hg⟩ | ⟨f, g, hf, hg, hfg⟩
  · obtain ⟨w, hskip⟩ := exists_readFront_lax hb' hv maxDepth hrest
    rw [hf] at hread
    dsimp only at hread
    rw [hskip] at hread
    cases hread
    exact ⟨rfl, fun members => by rw [RecordDecoder.storeMembers, hg]⟩
  · rw [hf] at hread
    dsimp only at hread
    split_ifs at hread with hseen
    obtain ⟨⟨stored, rest'⟩, hfield, hpure⟩ := bind_eq_ok_iff.mp hread
    cases hpure
    obtain ⟨hend, hstore⟩ := hfg.follows record hb' hv hrest hfield
    refine ⟨hend, fun members => ?_⟩
    rw [RecordDecoder.storeMembers, hg]
    dsimp only
    rw [if_neg hseen, hstore]

theorem readMembers_follows (h : shape.Mirrors d) : ∀ {fuel : Nat} {members : List (String × Json)}
    {t rest : List Char} {seen : List String} {record : σ} {r : Reading (List String × σ)},
    Members members t → shape.readMembers fuel seen record (t ++ '}' :: rest) = .ok r →
    r.2 = rest ∧ d.storeMembers seen record members = .ok r.1
  | 0, _, _, _, _, _, _, _, hread => by
    rw [readMembers] at hread
    cases hread
  | fuel + 1, _, _, rest, seen, record, r, hmembers, hread => by
    rw [readMembers] at hread
    obtain ⟨⟨⟨seen', record'⟩, text⟩, hmember, hread⟩ := bind_eq_ok_iff.mp hread
    dsimp only at hread
    cases hmembers with
    | @last k v t b hm hb =>
      rw [List.append_assoc] at hmember
      obtain ⟨rfl, hstore⟩ :=
        readMember_follows h hm (ends_blank_append hb (ends_cons (by decide) rest)) hmember
      rw [readSeparator_close hb (by decide)] at hread
      cases hread
      exact ⟨rfl, by rw [hstore]; rfl⟩
    | @cons k v ms t b b' t' hm hb hb' hms =>
      obtain ⟨t'', rfl⟩ := hms.exists_cons
      simp only [List.append_assoc, List.cons_append] at hmember
      obtain ⟨rfl, hstore⟩ :=
        readMember_follows h hm (ends_blank_append hb (ends_cons (by decide) _)) hmember
      rw [readSeparator_comma (by decide) hb hb' rfl] at hread
      obtain ⟨hend, hmore⟩ := readMembers_follows h hms hread
      exact ⟨hend, by rw [hstore, hmore]⟩

/-! ### Records as arrays -/

theorem any_required_mirrors {fs : List (FieldReader σ)} {gs : List (FieldDecoder σ)}
    (h : List.Forall₂ FieldReader.Mirrors fs gs) : fs.any (·.required) = gs.any (·.required) := by
  induction h with
  | nil => rfl
  | cons hfg _ ih => rw [List.any_cons, List.any_cons, hfg.required, ih]

theorem storeItems_nil : ∀ {gs : List (FieldDecoder σ)} (index : Nat) (record : σ),
    gs.any (·.required) = false → d.storeItems gs index record [] = .ok record
  | [], _, _, _ => rfl
  | g :: gs, index, record, h => by
    rw [List.any_cons, Bool.or_eq_false_iff] at h
    rw [RecordDecoder.storeItems, h.1, if_neg Bool.false_ne_true]
    exact storeItems_nil (index + 1) record h.2

/-- At the closing bracket only fields that are not required are left. -/
theorem readFields_close {fs : List (FieldReader σ)} {first : Bool} {index : Nat} {record : σ}
    {b rest : List Char} (hb : Blank b) {r : Reading σ}
    (hread : shape.readFields fs first index record (b ++ ']' :: rest) = .ok r) :
    fs.any (·.required) = false ∧ r = (record, rest) := by
  rcases fs with _ | ⟨f, fs⟩
  · rw [readFields, skipBlank_blank_cons hb (by decide)] at hread
    cases hread
    exact ⟨rfl, rfl⟩
  · rw [readFields, skipBlank_blank_cons hb (by decide)] at hread
    split at hread
    · cases hread
    · next heq =>
      cases heq
      split_ifs at hread with hrequired
      cases hread
      exact ⟨Bool.eq_false_iff.mpr hrequired, rfl⟩
    · next hne heq =>
      cases heq
      exact absurd rfl hne

theorem readFields_blank_append {fs : List (FieldReader σ)} {first : Bool} {index : Nat} {record : σ}
    {b : List Char} (hb : Blank b) (text : List Char) :
    shape.readFields fs first index record (b ++ text) =
      shape.readFields fs first index record text := by
  rcases fs with _ | ⟨f, fs⟩
  · rw [readFields, readFields, skipBlank_append hb]
  · rw [readFields, readFields, skipBlank_append hb]

/-- The first field is read where an item starts, and then those that follow it. -/
theorem readFields_first {f : FieldReader σ} {fs : List (FieldReader σ)} {index : Nat} {record : σ}
    {c : Char} (hc : isBlank c = false) (hne : c ≠ ']') (text : List Char) :
    shape.readFields (f :: fs) true index record (c :: text) =
      (f.read record (c :: text) >>= fun r => shape.readFields fs false (index + 1) r.1 r.2) := by
  rw [readFields, skipBlank_cons hc]
  split
  · next habsurd => cases habsurd
  · next habsurd =>
    cases habsurd
    exact absurd rfl hne
  · next heq =>
    cases heq
    rfl

/-- Behind a comma the fields are read as they are behind the opening bracket. -/
theorem readFields_comma {fs : List (FieldReader σ)} {index : Nat} {record : σ} {b b' : List Char}
    (hb : Blank b) (hb' : Blank b') {c : Char} (hc : isBlank c = false) (hne : c ≠ ']')
    {text : List Char} {r : Reading σ}
    (hread : shape.readFields fs false index record (b ++ ',' :: (b' ++ c :: text)) = .ok r) :
    shape.readFields fs true index record (c :: text) = .ok r := by
  rcases fs with _ | ⟨f, fs⟩
  · rw [readFields, skipBlank_blank_cons hb (by decide)] at hread
    cases hread
  · rw [readFields, skipBlank_blank_cons hb (by decide)] at hread
    split at hread
    · cases hread
    · next habsurd => cases habsurd
    · next heq =>
      cases heq
      rw [if_neg Bool.false_ne_true, if_pos rfl, skipBlank_blank_cons hb' hc] at hread
      rw [readFields_first hc hne]
      split at hread
      · cases hread
      · next habsurd =>
        cases habsurd
        exact absurd rfl hne
      · exact hread

theorem readFields_follows {fs : List (FieldReader σ)} {gs : List (FieldDecoder σ)}
    (h : List.Forall₂ FieldReader.Mirrors fs gs) {items : List Json} {index : Nat} {record : σ}
    {t rest : List Char} {r : Reading σ} (hitems : Items items t)
    (hread : shape.readFields fs true index record (t ++ ']' :: rest) = .ok r) (index' : Nat) :
    r.2 = rest ∧ d.storeItems gs index' record items = .ok r.1 := by
  induction h generalizing items index record t index' with
  | nil =>
    obtain ⟨c, t', rfl, hc, hne⟩ := hitems.exists_cons
    rw [readFields, List.cons_append, skipBlank_cons hc] at hread
    split at hread
    · cases hread
    · next heq =>
      cases heq
      exact absurd rfl hne
    · cases hread
  | cons hfg hmore ih =>
    obtain ⟨c, t', ht, hc, hne⟩ := hitems.exists_cons
    rw [ht, List.cons_append, readFields_first hc hne, ← List.cons_append, ← ht] at hread
    obtain ⟨⟨stored, text⟩, hfield, hread⟩ := bind_eq_ok_iff.mp hread
    cases hitems with
    | @last v t b hv hb =>
      rw [List.append_assoc] at hfield
      obtain ⟨rfl, hstore⟩ := hfg.follows record blank_nil hv
        (ends_blank_append hb (ends_cons (by decide) rest)) hfield
      obtain ⟨hrequired, rfl⟩ := readFields_close hb hread
      rw [any_required_mirrors hmore] at hrequired
      refine ⟨rfl, ?_⟩
      rw [RecordDecoder.storeItems, hstore]
      exact storeItems_nil (index' + 1) stored hrequired
    | @cons v vs t b b' t' hv hb hb' hvs =>
      obtain ⟨c', t'', rfl, hc', hne'⟩ := hvs.exists_cons
      simp only [List.append_assoc, List.cons_append] at hfield
      obtain ⟨rfl, hstore⟩ := hfg.follows record blank_nil hv
        (ends_blank_append hb (ends_cons (by decide) _)) hfield
      obtain ⟨hend, hmoreItems⟩ := ih hvs (readFields_comma hb hb' hc' hne' hread) (index' + 1)
      exact ⟨hend, by rw [RecordDecoder.storeItems, hstore]; exact hmoreItems⟩

/-! ### Records as values -/

/-- What an opening brace starts. -/
theorem object_of_value {v : Json} {t : List Char} (h : Value v ('{' :: t)) :
    (v = .object [] ∧ ∃ b, Blank b ∧ t = b ++ ['}']) ∨
      ∃ members b t', v = .object members ∧ Blank b ∧ Members members t' ∧
        t = b ++ (t' ++ ['}']) := by
  cases h with
  | emptyObject hb => exact Or.inl ⟨rfl, _, hb, rfl⟩
  | object hb hmembers => exact Or.inr ⟨_, _, _, rfl, hb, hmembers, rfl⟩
  | number hn _ => rcases hn.head with hc | hc <;> cases hc
  | string hq => cases hq

/-- After all members no required field is missing. -/
theorem ofMembers_of_complete (h : shape.Mirrors d) {initial record : σ} {seen : List String}
    {members : List (String × Json)} {text : List Char} {r : Reading σ}
    (hstore : d.storeMembers [] initial members = .ok (seen, record))
    (hread : (match shape.missing? seen with
      | some name => Except.error (Fault.data (.missingField name))
      | none => pure (record, text)) = .ok r) :
    r.2 = text ∧ d.ofMembers initial members = .ok r.1 := by
  rw [missing?_mirrors h] at hread
  split at hread
  · cases hread
  · next hmissing =>
    cases hread
    exact ⟨rfl, RecordDecoder.ofMembers_eq_ok_store.mpr ⟨seen, hstore, hmissing⟩⟩

/-- **A record is read the way it is decoded**, from an object and from an array alike. -/
theorem readRecord_follows (h : shape.Mirrors d) (initial : σ) :
    Follows (shape.readRecord initial) (d.ofValue initial) := by
  intro b t v rest r hb hv hrest hread
  obtain ⟨c, t', rfl, hc, -⟩ := hv.exists_cons
  unfold readRecord at hread
  rw [List.cons_append, skipBlank_blank_cons hb hc] at hread
  dsimp only at hread
  split_ifs at hread with hbrace hopen
  · subst hbrace
    rcases object_of_value hv with ⟨rfl, b', hb', rfl⟩ | ⟨members, b', t, rfl, hb', ht, rfl⟩
    · rw [List.append_assoc, List.singleton_append, skipBlank_blank_cons hb' (by decide)] at hread
      have hstore : d.storeMembers [] initial [] = .ok ([], initial) := rfl
      exact ofMembers_of_complete h hstore hread
    · obtain ⟨t', rfl⟩ := ht.exists_cons
      simp only [List.append_assoc, List.cons_append, List.nil_append] at hread
      rw [skipBlank_blank_cons hb' (by decide)] at hread
      split at hread
      · next habsurd => cases habsurd
      · next habsurd => cases habsurd
      · obtain ⟨⟨⟨seen, record⟩, text⟩, hmembers, hcomplete⟩ := bind_eq_ok_iff.mp hread
        obtain ⟨rfl, hstore⟩ := readMembers_follows h ht hmembers
        exact ofMembers_of_complete h hstore hcomplete
  · subst hopen
    rcases array_of_value hv with ⟨rfl, b', hb', rfl⟩ | ⟨items, b', t, rfl, hb', hitems, rfl⟩
    · rw [List.append_assoc, List.singleton_append] at hread
      obtain ⟨hrequired, rfl⟩ := readFields_close hb' hread
      rw [any_required_mirrors h] at hrequired
      exact ⟨rfl, storeItems_nil 0 initial hrequired⟩
    · simp only [List.append_assoc, List.cons_append, List.nil_append] at hread
      rw [readFields_blank_append hb'] at hread
      exact readFields_follows h hitems hread 0

/-- What a whole text is read as is what its value is decoded to. -/
theorem ofValue_of_readWhole (h : shape.Mirrors d) {initial record : σ} {v : Json} {text : List Char}
    (hv : Padded v text) (hread : shape.readWhole initial text = .ok record) :
    d.ofValue initial v = .ok record := by
  obtain ⟨b, t, b', hb, ht, hb', rfl⟩ := hv
  obtain ⟨⟨record', rest⟩, hrecord, hread⟩ := bind_eq_ok_iff.mp hread
  obtain ⟨⟨⟩, -, hpure⟩ := bind_eq_ok_iff.mp hread
  cases hpure
  have hends : Ends b' := by
    have hends := ends_blank_append hb' ends_nil
    rwa [List.append_nil] at hends
  exact (readRecord_follows h initial hb ht hends hrecord).2

end RecordShape

end CaretLayout.Json
