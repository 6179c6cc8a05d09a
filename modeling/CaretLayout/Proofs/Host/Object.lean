import CaretLayout.Host.Event
import CaretLayout.Proofs.Json.Decode
import CaretLayout.Proofs.Json.Typed

/-!
# Events as objects

A line that is a JSON object is an event exactly when its members describe one (`Describes`), and the
event is then the one that they describe (`parseLine_iff_describes`).

The reader decodes the type where it stands and keeps the other members for later, so the proof has two
parts.  The text is read as the sequence of its members says, faults included (`read_of_object`).  And
a sequence of members is decoded to an event exactly when it describes it (`ofMembers_eq_ok_iff`),
which does not depend on the order of members with different names.
-/

namespace CaretLayout.HostEvent

open Json (valuesOf maxWord membersDepth bind_eq_ok_iff skipBlank readSeparator)
open Json.Grammar

/-! ### What the text says -/

/-- The kind that a value of the member `type` names. -/
def kindOf : Json → Except Json.Fault Kind
  | .string s => liftData (Kind.ofName s)
  | v => .error (.data (.wrongType (.ofJson v) "variant identifier"))

/-- The kind and the other members of an event, from its members after the kind if that has been
found. -/
def sortMembers : Option Kind → List (String × Json) →
    Except Json.Fault (Option Kind × List (String × Json))
  | kind, [] => .ok (kind, [])
  | kind, (name, v) :: members =>
    if name = "type" then
      if kind.isSome then .error (.data (.duplicateField "type"))
      else kindOf v >>= fun found => sortMembers (some found) members
    else sortMembers kind members >>= fun r => .ok (r.1, (name, v) :: r.2)

/-- The event that members make. -/
def ofMembers (members : List (String × Json)) : Except Json.Fault HostEvent :=
  sortMembers none members >>= fun r =>
    match r.1 with
    | some kind => liftData (decode kind (.members r.2))
    | none => .error (.data (.missingField "type"))

/-- The kind of an event is read as the value of the member says. -/
theorem readKind_of_value {b : List Char} (hb : Blank b) {v : Json} {t : List Char} (h : Value v t)
    {rest : List Char} (hrest : Json.Ends rest) :
    readKind (b ++ (t ++ rest)) = (kindOf v >>= fun kind => .ok (kind, rest)) := by
  obtain ⟨c, t', rfl, hc, -⟩ := h.exists_cons
  have hstring : ∀ s, v = .string s → readKind (b ++ (c :: t' ++ rest)) =
      (kindOf v >>= fun kind => .ok (kind, rest)) := by
    rintro s rfl
    rw [readKind, Json.readStringFor_of_quoted _ hb (Json.quoted_of_value h)]
    rfl
  by_cases hquote : c = '"'
  · subst hquote
    obtain ⟨s, hs⟩ := Json.exists_string_of_value h
    exact hstring s hs
  · cases v with
    | string s => exact hstring s rfl
    | _ =>
      rw [readKind, Json.readStringFor, List.cons_append, Json.skipBlank_blank_cons hb hc]
      dsimp only
      rw [if_neg hquote, Json.wrongTypeFault_of_value h hrest]
      rfl

/-- Members are sorted one after another. -/
theorem sortMembers_cons (kind : Option Kind) (m : String × Json) (members : List (String × Json)) :
    sortMembers kind (m :: members) = (sortMembers kind [m] >>= fun first =>
      sortMembers first.1 members >>= fun more => .ok (more.1, first.2 ++ more.2)) := by
  obtain ⟨name, v⟩ := m
  rw [sortMembers, sortMembers]
  by_cases hname : name = "type"
  · rw [if_pos hname, if_pos hname]
    by_cases hkind : kind.isSome = true
    · rw [if_pos hkind, if_pos hkind]
      rfl
    · rw [if_neg hkind, if_neg hkind]
      rcases kindOf v with fault | found
      · rfl
      · show sortMembers (some found) members = (sortMembers (some found) members >>= _)
        rcases sortMembers (some found) members with fault | more
        · rfl
        · rfl
  · rw [if_neg hname, if_neg hname]
    rfl

/-- One member of an event is sorted where it stands, before what follows it is read. -/
theorem readMembers_of_member {fuel : Nat} {kind : Option Kind} {name : String} {v : Json}
    {t : List Char} (h : Member name v t) (hdepth : v.depth ≤ innerDepth) {rest : List Char}
    (hrest : Json.Ends rest) :
    readMembers (fuel + 1) kind (t ++ rest) = (sortMembers kind [(name, v)] >>= fun first =>
      readSeparator '}' (skipBlank rest) >>= fun s =>
        if s.1 then readMembers fuel first.1 s.2 >>= fun more =>
          .ok ((more.1.1, first.2 ++ more.1.2), more.2)
        else .ok (first, s.2)) := by
  obtain @⟨_, _, q, b, b', t, hq, hb, hb', hv⟩ := h
  simp only [List.append_assoc, List.cons_append]
  rw [readMembers, Json.readMemberName, Json.readName_of_quoted hq, sortMembers]
  show (if name = "type" then _ else _) = _
  by_cases hname : name = "type"
  · rw [if_pos hname, if_pos hname]
    by_cases hkind : kind.isSome = true
    · rw [if_pos hkind, if_pos hkind]
      rfl
    · rw [if_neg hkind, if_neg hkind, Json.readColon_of_blank hb]
      show (readKind _ >>= _) = _
      rw [readKind_of_value hb' hv hrest]
      rcases kindOf v with fault | found
      · rfl
      · show (readSeparator '}' (skipBlank rest) >>= _) = (readSeparator '}' (skipBlank rest) >>= _)
        rcases readSeparator '}' (skipBlank rest) with fault | ⟨_ | _, text⟩
        · rfl
        · rfl
        · show readMembers fuel (some found) text = (readMembers fuel (some found) text >>= _)
          rcases readMembers fuel (some found) text with fault | more
          · rfl
          · rfl
  · rw [if_neg hname, if_neg hname, Json.readColon_of_blank hb]
    show (Json.readFront .strict innerDepth _ >>= _) = _
    rw [Json.readFront_of_value hb' hv hdepth hrest]
    rfl

/-- The members of an event up to the closing brace are read as `sortMembers` says. -/
theorem readMembers_of_members : ∀ {fuel : Nat} {members : List (String × Json)} {t : List Char},
    Members members t → membersDepth members ≤ innerDepth → t.length ≤ fuel →
    ∀ (kind : Option Kind) (rest : List Char),
    readMembers fuel kind (t ++ '}' :: rest) =
      (sortMembers kind members >>= fun r => .ok (r, rest))
  | 0, members, t, h, _, hfuel, kind, rest => by
    obtain ⟨t', rfl⟩ := h.exists_cons
    rw [List.length_cons] at hfuel
    omega
  | fuel + 1, members, t, h, hdepth, hfuel, kind, rest => by
    cases h with
    | @last name v t b hm hb =>
      rw [membersDepth] at hdepth
      rw [List.append_assoc, readMembers_of_member hm (by omega)
        (Json.ends_blank_append hb (Json.ends_cons (by decide) rest)),
        Json.readSeparator_close hb (by decide)]
      rfl
    | @cons name v members t b b' t' hm hb hb' hmembers =>
      rw [membersDepth] at hdepth
      obtain ⟨u, hu⟩ := hm.exists_cons
      have hlength : t'.length ≤ fuel := by
        rw [hu] at hfuel
        simp only [List.length_append, List.length_cons] at hfuel
        omega
      have hmore := fun kind => readMembers_of_members hmembers (by omega) hlength kind rest
      obtain ⟨t'', rfl⟩ := hmembers.exists_cons
      simp only [List.append_assoc, List.cons_append] at hmore ⊢
      rw [readMembers_of_member hm (by omega)
        (Json.ends_blank_append hb (Json.ends_cons (by decide) _)),
        Json.readSeparator_comma (by decide) hb hb' rfl, sortMembers_cons _ _ members]
      -- a fault of this member comes before any fault of the members behind it
      rcases sortMembers kind [(name, v)] with fault | first
      · rfl
      · show (readMembers fuel first.1 _ >>= _) = _
        rw [hmore first.1]
        show _ = ((sortMembers first.1 members >>= _) >>= _)
        rcases sortMembers first.1 members with fault | more
        · rfl
        · rfl

theorem readTagged_of_object {b : List Char} (hb : Blank b) {members : List (String × Json)}
    {t : List Char} (h : Value (.object members) t) (hdepth : membersDepth members ≤ innerDepth)
    (rest : List Char) :
    readTagged (b ++ (t ++ rest)) = (sortMembers none members >>= fun r =>
      match r.1 with
      | some kind => .ok ((kind, .members r.2), rest)
      | none => .error (.data (.missingField "type"))) := by
  cases h with
  | number _ hv => cases Json.depth_of_value hv
  | @emptyObject b' hb' =>
    rw [readTagged, List.cons_append, Json.skipBlank_blank_cons hb (by decide)]
    dsimp only
    rw [if_pos rfl, List.append_assoc, List.singleton_append,
      Json.skipBlank_blank_cons hb' (by decide)]
    rfl
  | @object _ b' t hb' hmembers =>
    have hlength : t.length ≤ (t ++ '}' :: rest).length + 1 := by
      rw [List.length_append]
      omega
    have hread := readMembers_of_members hmembers hdepth hlength none rest
    obtain ⟨t', rfl⟩ := hmembers.exists_cons
    rw [readTagged, List.cons_append, Json.skipBlank_blank_cons hb (by decide)]
    dsimp only
    simp only [List.append_assoc, List.cons_append, List.nil_append] at hread ⊢
    rw [if_pos trivial, Json.skipBlank_blank_cons hb' (by decide)]
    show (readMembers _ none ('"' :: (t' ++ '}' :: rest)) >>= _) = _
    rw [hread]
    rcases sortMembers none members with fault | ⟨_ | kind, others⟩
    · rfl
    · rfl
    · rfl

/-- **The text of an object is read as its members say**, with the same event or the same fault. -/
theorem read_of_object {members : List (String × Json)} {text : List Char}
    (h : Json.readTree text = .ok (.object members)) : read text = ofMembers members := by
  obtain ⟨⟨b, t, b', hb, ht, hb', rfl⟩, hdepth⟩ := Json.readTree_eq_ok_iff.mp h
  have hinner : membersDepth members ≤ innerDepth := Nat.le_sub_one_of_lt hdepth
  rw [read, readTagged_of_object hb ht hinner, ofMembers]
  rcases sortMembers none members with fault | ⟨_ | kind, others⟩
  · rfl
  · rfl
  · show (liftData (decode kind (.members others)) >>= _) = liftData (decode kind (.members others))
    rcases liftData (decode kind (.members others)) with fault | event
    · rfl
    · show (Json.expectEnd b' >>= _) = _
      rw [Json.expectEnd_of_blank hb']
      rfl

/-! ### What the members say -/

theorem ofName_eq_ok_iff {s : String} {kind : Kind} : Kind.ofName s = .ok kind ↔ s = kind.name := by
  constructor
  · intro h
    unfold Kind.ofName at h
    split at h
    · next found hfound =>
      cases h
      have hname := List.find?_some hfound
      rw [beq_iff_eq] at hname
      exact hname.symm
    · cases h
  · rintro rfl
    cases kind <;> rfl

theorem kindOf_eq_ok_iff {v : Json} {kind : Kind} :
    kindOf v = .ok kind ↔ v = .string kind.name := by
  cases v with
  | string s =>
    rw [Json.string.injEq, ← ofName_eq_ok_iff, kindOf]
    rcases Kind.ofName s with fault | found
    · simp [liftData]
    · simp [liftData]
  | _ => simp [kindOf]

/-- The members are sorted if there is one type, whose value names the kind. -/
theorem sortMembers_eq_ok_iff : ∀ {members : List (String × Json)} {kind found : Option Kind}
    {others : List (String × Json)},
    sortMembers kind members = .ok (found, others) ↔
      others = members.filter (fun m => m.1 ≠ "type") ∧
      (found = kind ∧ valuesOf "type" members = [] ∨
        kind = none ∧ ∃ k, found = some k ∧ valuesOf "type" members = [.string k.name])
  | [], kind, found, others => by
    rw [sortMembers]
    simp [valuesOf, eq_comm, and_comm]
  | (name, v) :: members, kind, found, others => by
    rw [sortMembers]
    by_cases hname : name = "type"
    · subst hname
      rw [if_pos rfl, Json.valuesOf_cons_self, List.filter_cons_of_neg (by simp)]
      rcases kind with _ | kind
      · rw [if_neg (by simp), bind_eq_ok_iff]
        constructor
        · rintro ⟨k, hk, h⟩
          obtain ⟨hothers, ⟨rfl, hnone⟩ | ⟨habsurd, -⟩⟩ := sortMembers_eq_ok_iff.mp h
          · rw [hnone, kindOf_eq_ok_iff.mp hk]
            exact ⟨hothers, Or.inr ⟨rfl, k, rfl, rfl⟩⟩
          · cases habsurd
        · rintro ⟨hothers, ⟨-, hnone⟩ | ⟨-, k, rfl, hone⟩⟩
          · cases hnone
          · obtain ⟨rfl, hnone⟩ := List.cons.inj hone
            exact ⟨k, kindOf_eq_ok_iff.mpr rfl,
              sortMembers_eq_ok_iff.mpr ⟨hothers, Or.inl ⟨rfl, hnone⟩⟩⟩
      · simp
    · rw [if_neg hname, Json.valuesOf_cons_of_ne hname, List.filter_cons_of_pos (by simpa using hname),
        bind_eq_ok_iff]
      constructor
      · rintro ⟨⟨found', others'⟩, hsort, hpure⟩
        cases hpure
        obtain ⟨rfl, hkind⟩ := sortMembers_eq_ok_iff.mp hsort
        exact ⟨rfl, hkind⟩
      · rintro ⟨rfl, hkind⟩
        exact ⟨_, sortMembers_eq_ok_iff.mpr ⟨rfl, hkind⟩, rfl⟩

theorem ofMembers_eq_ok_decode {members : List (String × Json)} {e : HostEvent} :
    ofMembers members = .ok e ↔ ∃ kind : Kind, valuesOf "type" members = [.string kind.name] ∧
      decode kind (.members (members.filter fun m => m.1 ≠ "type")) = .ok e := by
  have hlift : ∀ x : Except Json.DataFault HostEvent, liftData x = .ok e ↔ x = .ok e := by
    rintro (fault | e')
    · simp [liftData]
    · simp [liftData]
  unfold ofMembers
  rw [bind_eq_ok_iff]
  constructor
  · rintro ⟨⟨_ | kind, others⟩, hsort, h⟩
    · cases h
    · obtain ⟨rfl, ⟨habsurd, -⟩ | ⟨-, kind', hkind, hone⟩⟩ := sortMembers_eq_ok_iff.mp hsort
      · cases habsurd
      · cases hkind
        exact ⟨kind, hone, (hlift _).mp h⟩
  · rintro ⟨kind, hone, h⟩
    exact ⟨(some kind, _), sortMembers_eq_ok_iff.mpr ⟨rfl, Or.inr ⟨rfl, kind, rfl, hone⟩⟩,
      (hlift _).mpr h⟩

/-- A cursor movement as members. -/
def cursorMembers (c : CursorEvent) : List (String × Json) :=
  [("session", .string c.session), ("language_id", .string c.language), ("line", .int c.line),
    ("column", .int c.column), ("lines", .array (c.lines.map .string)),
    ("first_line", .int c.firstLine), ("content_kind", Json.ofOptionalString c.contentKind)]

theorem words_injective : Function.Injective fun n : Nat => Json.int n := fun _ _ h =>
  Int.ofNat.inj (Json.int.inj h)

theorem strings_injective : Function.Injective fun l : List String => Json.array (l.map .string) :=
  fun _ _ h => (List.map_inj_right fun _ _ => Json.string.inj).mp (Json.array.inj h)

theorem exists_bind_eq_ok {ε α β : Type} {x : Except ε α} {a : α} (h : x = .ok a) (f : α → β) :
    ∃ b, (x >>= fun a => .ok (f a)) = .ok b :=
  ⟨f a, bind_eq_ok_iff.mpr ⟨a, h, rfl⟩⟩

theorem cursorDecoder_writes : cursorDecoder.Writes cursorMembers where
  write_store := by
    intro field hmem c c' v hstore
    simp only [cursorDecoder, List.mem_cons, List.not_mem_nil, or_false] at hmem
    rcases hmem with rfl | rfl | rfl | rfl | rfl | rfl | rfl <;>
      obtain ⟨a, ha, hpure⟩ := bind_eq_ok_iff.mp hstore <;> cases hpure
    · rw [Json.asString_eq_ok_iff.mp ha]
      rfl
    · rw [Json.asString_eq_ok_iff.mp ha]
      rfl
    · rw [Json.asWord_eq_ok_iff.mp ha]
      rfl
    · rw [Json.asWord_eq_ok_iff.mp ha]
      rfl
    · rw [Json.asStrings_eq_ok_iff.mp ha]
      rfl
    · rw [Json.asWord_eq_ok_iff.mp ha]
      rfl
    · rw [Json.asOptionalString_eq_ok_iff.mp ha]
      rfl
  exists_store := by
    intro field hmem c
    simp only [cursorDecoder, List.mem_cons, List.not_mem_nil, or_false] at hmem
    rcases hmem with rfl | rfl | rfl | rfl | rfl | rfl | rfl
    · exact ⟨_, rfl, fun _ => exists_bind_eq_ok (Json.asString_eq_ok_iff.mpr rfl) _⟩
    · exact ⟨_, rfl, fun _ => exists_bind_eq_ok (Json.asString_eq_ok_iff.mpr rfl) _⟩
    · exact ⟨_, rfl, fun _ => exists_bind_eq_ok (Json.asWord_eq_ok_iff.mpr rfl) _⟩
    · exact ⟨_, rfl, fun _ => exists_bind_eq_ok (Json.asWord_eq_ok_iff.mpr rfl) _⟩
    · exact ⟨_, rfl, fun _ => exists_bind_eq_ok (Json.asStrings_eq_ok_iff.mpr rfl) _⟩
    · exact ⟨_, rfl, fun _ => exists_bind_eq_ok (Json.asWord_eq_ok_iff.mpr rfl) _⟩
    · exact ⟨_, rfl, fun _ => exists_bind_eq_ok (Json.asOptionalString_eq_ok_iff.mpr rfl) _⟩
  injective := by
    intro c c' h
    simp only [cursorDecoder, List.forall_mem_cons] at h
    obtain ⟨hsession, hlanguage, hline, hcolumn, hlines, hfirst, hkind, -⟩ := h
    obtain ⟨session, language, line, column, lines, firstLine, contentKind⟩ := c
    obtain rfl := Json.string.inj (List.cons.inj hsession).1
    obtain rfl := Json.string.inj (List.cons.inj hlanguage).1
    obtain rfl := words_injective (List.cons.inj hline).1
    obtain rfl := words_injective (List.cons.inj hcolumn).1
    obtain rfl := strings_injective (List.cons.inj hlines).1
    obtain rfl := words_injective (List.cons.inj hfirst).1
    obtain rfl := Json.ofOptionalString_injective (List.cons.inj hkind).1
    rfl

/-- A close event as members. -/
def closeMembers (session : String) : List (String × Json) :=
  [("session", .string session)]

theorem closeDecoder_writes : closeDecoder.Writes closeMembers where
  write_store := by
    intro field hmem s s' v hstore
    rw [closeDecoder, List.mem_singleton] at hmem
    subst hmem
    rw [Json.asString_eq_ok_iff.mp hstore]
    rfl
  exists_store := by
    intro field hmem s
    rw [closeDecoder, List.mem_singleton] at hmem
    subst hmem
    exact ⟨_, rfl, fun _ => ⟨s, rfl⟩⟩
  injective := by
    intro s s' h
    exact Json.string.inj (List.cons.inj (h _ List.mem_cons_self)).1

/-! ### The objects that are events -/

/-- That a member stands once at most, and a place holds what it writes, or a default. -/
def AtMostOnce {α : Type} (write : α → Json) (default : α) (values : List Json) (a : α) : Prop :=
  values = [write a] ∨ values = [] ∧ a = default

/-- That members describe a cursor movement. -/
structure DescribesCursor (members : List (String × Json)) (c : CursorEvent) : Prop where
  language : valuesOf "language_id" members = [.string c.language]
  line : valuesOf "line" members = [.int c.line] ∧ c.line ≤ maxWord
  column : valuesOf "column" members = [.int c.column] ∧ c.column ≤ maxWord
  session : AtMostOnce .string "" (valuesOf "session" members) c.session
  lines : AtMostOnce (fun l => .array (l.map .string)) [] (valuesOf "lines" members) c.lines
  firstLine : AtMostOnce (fun n : Nat => .int n) 0 (valuesOf "first_line" members) c.firstLine ∧
    c.firstLine ≤ maxWord
  contentKind : AtMostOnce Json.ofOptionalString none (valuesOf "content_kind" members) c.contentKind

/-- That members describe an event: which type they name, what else stands once, and what may be left
out.  Members of other names may stand anywhere and repeat. -/
inductive Describes (members : List (String × Json)) : HostEvent → Prop
  | cursor {c : CursorEvent} : valuesOf "type" members = [.string "cursor"] →
      DescribesCursor members c → Describes members (.cursor c)
  | toggle : valuesOf "type" members = [.string "toggle"] → Describes members .toggle
  | listLayouts : valuesOf "type" members = [.string "list_layouts"] → Describes members .listLayouts
  | close {session : String} : valuesOf "type" members = [.string "close"] →
      valuesOf "session" members = [.string session] → Describes members (.close session)
  | shutdown : valuesOf "type" members = [.string "shutdown"] → Describes members .shutdown

theorem agrees_required {vs vs' vs'' : List Json} :
    (vs = vs' ∨ true = false ∧ vs = [] ∧ vs' = vs'') ↔ vs = vs' := by
  simp

theorem agrees_optional {α : Type} {write : α → Json} (hwrite : Function.Injective write)
    {vs : List Json} {a default : α} :
    (vs = [write a] ∨ false = false ∧ vs = [] ∧ [write a] = [write default]) ↔
      AtMostOnce write default vs a := by
  simp [AtMostOnce, hwrite.eq_iff]

/-- The numbers among the values of a name are words. -/
theorem le_maxWord_of_valuesOf {members : List (String × Json)} {name : String} {n : Nat}
    (hfits : ∀ {k : String} {i : Int}, (k, Json.int i) ∈ members → Json.Fits64 i)
    (h : valuesOf name members = [.int n]) : n ≤ maxWord := by
  have hmem : (name, Json.int n) ∈ members := by
    refine Json.mem_of_mem_valuesOf ?_
    rw [h]
    exact List.mem_singleton_self _
  have hword : (n : Int) ≤ 18446744073709551615 := (hfits hmem).2
  rw [Json.maxWord_eq]
  omega

theorem ofMembers_cursor_iff {members : List (String × Json)} {c : CursorEvent}
    (hfits : ∀ {k : String} {i : Int}, (k, Json.int i) ∈ members → Json.Fits64 i) :
    cursorDecoder.ofMembers noCursor members = .ok c ↔ DescribesCursor members c := by
  rw [cursorDecoder_writes.ofMembers_eq_ok_iff]
  simp only [cursorDecoder, List.forall_mem_cons]
  constructor
  · rintro ⟨hsession, hlanguage, hline, hcolumn, hlines, hfirst, hkind, -⟩
    have hline' := agrees_required.mp hline
    have hcolumn' := agrees_required.mp hcolumn
    have hfirst' := (agrees_optional words_injective).mp hfirst
    exact {
      language := agrees_required.mp hlanguage
      line := ⟨hline', le_maxWord_of_valuesOf hfits hline'⟩
      column := ⟨hcolumn', le_maxWord_of_valuesOf hfits hcolumn'⟩
      session := (agrees_optional fun _ _ => Json.string.inj).mp hsession
      lines := (agrees_optional strings_injective).mp hlines
      firstLine := ⟨hfirst', hfirst'.elim (le_maxWord_of_valuesOf hfits) fun h => by
        rw [h.2]
        exact Nat.zero_le _⟩
      contentKind := (agrees_optional Json.ofOptionalString_injective).mp hkind }
  · intro h
    exact ⟨(agrees_optional fun _ _ => Json.string.inj).mpr h.session,
      agrees_required.mpr h.language, agrees_required.mpr h.line.1, agrees_required.mpr h.column.1,
      (agrees_optional strings_injective).mpr h.lines,
      (agrees_optional words_injective).mpr h.firstLine.1,
      (agrees_optional Json.ofOptionalString_injective).mpr h.contentKind, List.forall_mem_nil _⟩

theorem ofMembers_close_iff {members : List (String × Json)} {session : String} :
    closeDecoder.ofMembers "" members = .ok session ↔
      valuesOf "session" members = [.string session] := by
  rw [closeDecoder_writes.ofMembers_eq_ok_iff]
  simp only [closeDecoder, List.forall_mem_cons]
  exact ⟨fun h => agrees_required.mp h.1, fun h => ⟨agrees_required.mpr h, List.forall_mem_nil _⟩⟩

theorem describesCursor_filter_iff {members : List (String × Json)} {c : CursorEvent} :
    DescribesCursor (members.filter fun m => m.1 ≠ "type") c ↔ DescribesCursor members c := by
  have hvalues : ∀ {name : String}, name ≠ "type" →
      valuesOf name (members.filter fun m => m.1 ≠ "type") = valuesOf name members :=
    fun hname => Json.valuesOf_filter_ne hname members
  constructor
  · rintro ⟨hlanguage, hline, hcolumn, hsession, hlines, hfirst, hkind⟩
    rw [hvalues (by decide)] at hlanguage hline hcolumn hsession hlines hfirst hkind
    exact ⟨hlanguage, hline, hcolumn, hsession, hlines, hfirst, hkind⟩
  · rintro ⟨hlanguage, hline, hcolumn, hsession, hlines, hfirst, hkind⟩
    rw [← hvalues (by decide)] at hlanguage hline hcolumn hsession hlines hfirst hkind
    exact ⟨hlanguage, hline, hcolumn, hsession, hlines, hfirst, hkind⟩

/-- Members make an event exactly when they describe it. -/
theorem ofMembers_eq_ok_iff {members : List (String × Json)} {e : HostEvent}
    (hfits : ∀ {k : String} {i : Int}, (k, Json.int i) ∈ members → Json.Fits64 i) :
    ofMembers members = .ok e ↔ Describes members e := by
  have hfits' : ∀ {k : String} {i : Int},
      (k, Json.int i) ∈ members.filter (fun m => m.1 ≠ "type") → Json.Fits64 i :=
    fun h => hfits (List.mem_filter.mp h).1
  rw [ofMembers_eq_ok_decode]
  constructor
  · rintro ⟨kind, htype, h⟩
    cases kind with
    | cursor =>
      obtain ⟨c, hc, rfl⟩ := Json.map_eq_ok_iff.mp h
      exact .cursor htype (describesCursor_filter_iff.mp ((ofMembers_cursor_iff hfits').mp hc))
    | toggle =>
      cases h
      exact .toggle htype
    | listLayouts =>
      cases h
      exact .listLayouts htype
    | close =>
      obtain ⟨session, hsession, rfl⟩ := Json.map_eq_ok_iff.mp h
      have hvalue := ofMembers_close_iff.mp hsession
      rw [Json.valuesOf_filter_ne (by decide)] at hvalue
      exact .close htype hvalue
    | shutdown =>
      cases h
      exact .shutdown htype
  · rintro (⟨htype, hc⟩ | htype | htype | ⟨htype, hsession⟩ | htype)
    · refine ⟨.cursor, htype, Json.map_eq_ok_iff.mpr ⟨_, ?_, rfl⟩⟩
      exact (ofMembers_cursor_iff hfits').mpr (describesCursor_filter_iff.mpr hc)
    · exact ⟨.toggle, htype, rfl⟩
    · exact ⟨.listLayouts, htype, rfl⟩
    · refine ⟨.close, htype, Json.map_eq_ok_iff.mpr ⟨_, ?_, rfl⟩⟩
      refine ofMembers_close_iff.mpr ?_
      rw [Json.valuesOf_filter_ne (by decide)]
      exact hsession
    · exact ⟨.shutdown, htype, rfl⟩

/-! ### Lines -/

theorem exists_value_of_mem : ∀ {members : List (String × Json)} {t : List Char}, Members members t →
    ∀ {k : String} {v : Json}, (k, v) ∈ members → ∃ t', Value v t'
  | [], t, h, k, v, hmem => absurd hmem List.not_mem_nil
  | (name, w) :: members, t, h, k, v, hmem => by
    have hmember : ∀ {t'}, Member name w t' → (k, v) = (name, w) → ∃ t', Value v t' := by
      rintro t' ⟨_, _, _, hv⟩ heq
      cases heq
      exact ⟨_, hv⟩
    cases h with
    | last hm _ => exact hmember hm (List.mem_singleton.mp hmem)
    | cons hm _ _ hmembers =>
      rcases List.mem_cons.mp hmem with heq | hmem
      · exact hmember hm heq
      · exact exists_value_of_mem hmembers hmem

theorem fits64_of_object {members : List (String × Json)} {t : List Char}
    (h : Value (.object members) t) {k : String} {i : Int} (hmem : (k, Json.int i) ∈ members) :
    Json.Fits64 i := by
  cases h with
  | number _ hv => cases Json.depth_of_value hv
  | emptyObject => cases hmem
  | object _ hmembers =>
    obtain ⟨t', ht'⟩ := exists_value_of_mem hmembers hmem
    exact (Json.value_int_iff.mp ht').1

theorem parseLine_eq_ok_some_iff {line : List Char} {e : HostEvent} :
    parseLine line = .ok (some e) ↔ read (Text.trim line) = .ok e := by
  unfold parseLine
  split
  · next htrim =>
    rw [htrim]
    simp [read, readTagged, bind, Except.bind, skipBlank]
  · rw [Json.map_eq_ok_iff]
    simp

/-- **The host's objects**: a line that is a JSON object is an event exactly when its members describe
one.  The numbers among them are then written in plain decimal. -/
theorem parseLine_iff_describes {line : List Char} {members : List (String × Json)}
    (h : Json.readTree (Text.trim line) = .ok (.object members)) :
    (∀ e, parseLine line = .ok (some e) ↔ Describes members e) ∧
      Padded (.object members) (Text.trim line) ∧
      ∀ (n : Nat) (t : List Char), Value (.int n) t ↔ n ≤ maxWord ∧ t = Decimal.digitsOf n := by
  have hpadded := (Json.readTree_eq_ok_iff.mp h).1
  refine ⟨fun e => ?_, hpadded, fun n t => ?_⟩
  · obtain ⟨b, t, b', -, ht, -, -⟩ := hpadded
    rw [parseLine_eq_ok_some_iff, read_of_object h, ofMembers_eq_ok_iff (fits64_of_object ht)]
  · have hneg : ¬ (n : Int) < 0 := by omega
    rw [Json.value_int_iff, Json.Fits64, Json.maxWord_eq, Json.printInt, if_neg hneg,
      Int.natAbs_natCast]
    refine and_congr_left' ?_
    omega

/-- A cursor movement whose type comes last, with a null, a repeated member of another name and the
greatest column. -/
def typeLast : List Char :=
  " \x7b\"x\":1,\"line\":0,\"content_kind\":null,\"x\":[],\"language_id\":\"c\",".toList ++
    "\"column\":18446744073709551615,\"type\":\"cursor\"\x7d\n".toList

/-- The members of `typeLast`. -/
def typeLastMembers : List (String × Json) :=
  [("x", .int 1), ("line", .int 0), ("content_kind", .null), ("x", .array []),
    ("language_id", .string "c"), ("column", .int 18446744073709551615), ("type", .string "cursor")]

theorem parseLine_typeLast :
    parseLine typeLast = .ok (some (.cursor ⟨"", "c", 0, 18446744073709551615, [], 0, none⟩)) := by
  have h : Json.readTree (Text.trim typeLast) = .ok (.object typeLastMembers) := by decide +kernel
  refine ((parseLine_iff_describes h).1 _).mpr (.cursor rfl ?_)
  exact {
    language := rfl
    line := ⟨rfl, by decide⟩
    column := ⟨rfl, by decide⟩
    session := Or.inr ⟨rfl, rfl⟩
    lines := Or.inr ⟨rfl, rfl⟩
    firstLine := ⟨Or.inr ⟨rfl, rfl⟩, by decide⟩
    contentKind := Or.inl rfl }

end CaretLayout.HostEvent
