import CaretLayout.Agent.Reply
import CaretLayout.Proofs.Json.Canonical
import CaretLayout.Proofs.Json.Record

/-!
# Two readings of a reply

A reply is read in two ways: `Reply.ofValue?` takes what it can from any object, and `Reply.parse` asks
for the exact form.  Where the second succeeds on an object, both give the same (`readers_agree`),
although they differ in what they make of null, of a repeated member and of a member of another type.
The layouts of any object are those of its entries that are layouts, in their order (`Offers`), so an
entry that is none does not matter to the others.

The exact reader follows a decoder of values (`decoder`), which stores each member in its field and
allows one of each name.  The last member of a name is then the only one, so both take the same from
it.
-/

namespace CaretLayout

open Json (valuesOf RecordDecoder)

/-! ### Fields that hold a string -/

/-- A field that holds a string. -/
def stringField {σ : Type} (name : String) (required : Bool) (set : σ → String → σ) :
    Json.FieldDecoder σ where
  name := name
  required := required
  store := fun record v => Json.asString v >>= fun s => pure (set record s)

section StringField

variable {σ : Type} {name : String} {required : Bool} {set : σ → String → σ}

theorem stringField_store_eq_ok_iff {record stored : σ} {v : Json} :
    (stringField name required set).store record v = .ok stored ↔
      ∃ s, v = .string s ∧ stored = set record s := by
  constructor
  · intro h
    obtain ⟨s, hs, hpure⟩ := Json.bind_eq_ok_iff.mp h
    cases hpure
    exact ⟨s, Json.asString_eq_ok_iff.mp hs, rfl⟩
  · rintro ⟨s, rfl, rfl⟩
    rfl

/-- A view that the field does not set stays. -/
theorem view_of_stringField_store {α : Type} {view : σ → α} {record stored : σ} {v : Json}
    (h : (stringField name required set).store record v = .ok stored)
    (hset : ∀ record s, view (set record s) = view record) : view stored = view record := by
  obtain ⟨s, -, rfl⟩ := stringField_store_eq_ok_iff.mp h
  exact hset record s

theorem mirrors_stringField {f : Json.FieldReader σ} (hname : f.name = name)
    (hrequired : f.required = required)
    (hread : f.read = fun record text => Json.readTypedString text >>= fun r =>
      pure (set record r.1, r.2)) : f.Mirrors (stringField name required set) := by
  refine ⟨hname, hrequired, fun record => ?_⟩
  rw [hread]
  exact Json.readTypedString_follows.map (set record)

/-- What a decoded record holds in a field of strings that no other field changes. -/
theorem ofMembers_stringField {d : RecordDecoder σ} (view : σ → String)
    (hfield : d.fields.find? (·.name == name) = some (stringField name required set))
    (hset : ∀ record s, view (set record s) = s)
    (hview : ∀ other ∈ d.fields, other.name ≠ name → ∀ {record record' v},
      other.store record v = .ok record' → view record' = view record)
    {initial record : σ} {members : List (String × Json)}
    (h : d.ofMembers initial members = .ok record) :
    (required = false ∧ valuesOf name members = [] ∧ view record = view initial) ∨
      valuesOf name members = [.string (view record)] := by
  rcases RecordDecoder.ofMembers_view hfield hview h with
    ⟨hnone, hvalues, hsame⟩ | ⟨v, before, after, hvalues, hstore, hsame⟩
  · exact Or.inl ⟨hnone _ (List.mem_of_find?_eq_some hfield) rfl, hvalues, hsame⟩
  · obtain ⟨s, rfl, rfl⟩ := stringField_store_eq_ok_iff.mp hstore
    rw [hset] at hsame
    exact Or.inr (by rw [hvalues, hsame])

end StringField

/-! ### Layouts -/

namespace LayoutInfo

/-- That a value is an entry for a layout: an object with the two strings, or an array of exactly
these. -/
inductive IsEntry : Json → LayoutInfo → Prop
  | object {members : List (String × Json)} {id name : String} :
      Json.lastMember? "id" members = some (.string id) →
      Json.lastMember? "name" members = some (.string name) → IsEntry (.object members) ⟨id, name⟩
  | array (id name : String) : IsEntry (.array [.string id, .string name]) ⟨id, name⟩

theorem ofValue?_eq_some_iff {v : Json} {l : LayoutInfo} : ofValue? v = some l ↔ IsEntry v l := by
  constructor
  · intro h
    unfold ofValue? at h
    split at h
    · split at h
      · next hid hname =>
        cases h
        exact .object hid hname
      · cases h
    · cases h
      exact .array _ _
    · cases h
  · intro h
    cases h with
    | object hid hname => rw [ofValue?, hid, hname]
    | array => rfl

theorem ofValue?_eq_none_iff {v : Json} : ofValue? v = none ↔ ∀ l, ¬ IsEntry v l := by
  simp only [Option.eq_none_iff_forall_ne_some, ne_eq, ofValue?_eq_some_iff]

theorem lastMember?_canonicalMembers_eq_string_iff {name s : String}
    {members : List (String × Json)} :
    Json.lastMember? name (Json.canonicalMembers members) = some (.string s) ↔
      Json.lastMember? name members = some (.string s) := by
  simp only [Json.lastMember?_canonicalMembers, Option.map_eq_some_iff,
    Json.canonical_eq_string_iff, exists_eq_right]

/-- An entry in canonical form is an entry for the same layout. -/
theorem isEntry_canonical_iff {v : Json} {l : LayoutInfo} : IsEntry v.canonical l ↔ IsEntry v l := by
  constructor
  · intro h
    cases v with
    | object members =>
      obtain ⟨hid, hname⟩ := h
      rw [lastMember?_canonicalMembers_eq_string_iff] at hid hname
      exact .object hid hname
    | array items =>
      rw [Json.canonical, Json.canonicalItems_eq_map] at h
      generalize hitems : items.map Json.canonical = strings at h
      cases h with
      | array id name =>
        obtain ⟨v, rest, rfl, hid, hrest⟩ := List.map_eq_cons_iff.mp hitems
        obtain ⟨w, rest, rfl, hname, hnil⟩ := List.map_eq_cons_iff.mp hrest
        rw [Json.canonical_eq_string_iff] at hid hname
        rw [hid, hname, List.map_eq_nil_iff.mp hnil]
        exact .array id name
    | _ => cases h
  · intro h
    cases h with
    | object hid hname =>
      exact .object (lastMember?_canonicalMembers_eq_string_iff.mpr hid)
        (lastMember?_canonicalMembers_eq_string_iff.mpr hname)
    | array id name => exact .array id name

theorem ofValue?_canonical (v : Json) : ofValue? v.canonical = ofValue? v := by
  ext l
  rw [ofValue?_eq_some_iff, ofValue?_eq_some_iff, isEntry_canonical_iff]

/-- How a layout is decoded. -/
def decoder : RecordDecoder LayoutInfo where
  name := "struct LayoutInfo"
  fields := [stringField "id" true fun l s => { l with id := s },
    stringField "name" true fun l s => { l with name := s }]

theorem shape_mirrors : shape.Mirrors decoder :=
  .cons (mirrors_stringField rfl rfl rfl) (.cons (mirrors_stringField rfl rfl rfl) .nil)

/-- What is decoded to a layout is an entry for it. -/
theorem isEntry_of_decoder {initial l : LayoutInfo} {v : Json}
    (h : decoder.ofValue initial v = .ok l) : IsEntry v l := by
  cases v with
  | object members =>
    have hid : valuesOf "id" members = [.string l.id] := by
      refine (ofMembers_stringField LayoutInfo.id rfl (fun _ _ => rfl) ?_ h).resolve_left
        fun hnone => Bool.true_eq_false.mp hnone.1
      intro other hmem hne record record' v hstore
      rcases List.mem_pair.mp hmem with rfl | rfl
      · exact absurd rfl hne
      · exact view_of_stringField_store hstore fun _ _ => rfl
    have hname : valuesOf "name" members = [.string l.name] := by
      refine (ofMembers_stringField LayoutInfo.name rfl (fun _ _ => rfl) ?_ h).resolve_left
        fun hnone => Bool.true_eq_false.mp hnone.1
      intro other hmem hne record record' v hstore
      rcases List.mem_pair.mp hmem with rfl | rfl
      · exact view_of_stringField_store hstore fun _ _ => rfl
      · exact absurd rfl hne
    refine .object ?_ ?_
    · rw [Json.lastMember?_eq_getLast?, hid]
      rfl
    · rw [Json.lastMember?_eq_getLast?, hname]
      rfl
  | array items =>
    rcases items with _ | ⟨v, items⟩
    · cases h
    · obtain ⟨stored, hid, h⟩ := RecordDecoder.storeItems_cons_eq_ok_iff.mp h
      obtain ⟨id, rfl, rfl⟩ := stringField_store_eq_ok_iff.mp hid
      rcases items with _ | ⟨w, items⟩
      · cases h
      · obtain ⟨stored, hname, h⟩ := RecordDecoder.storeItems_cons_eq_ok_iff.mp h
        obtain ⟨name, rfl, rfl⟩ := stringField_store_eq_ok_iff.mp hname
        rcases items with _ | ⟨x, items⟩
        · cases h
          exact .array id name
        · cases h
  | _ => cases h

end LayoutInfo

/-! ### Replies -/

/-- That layouts are those which a list of entries offers: the entries that are layouts, in their
order. -/
inductive Offers : List Json → List LayoutInfo → Prop
  | nil : Offers [] []
  | entry {v : Json} {l : LayoutInfo} {items : List Json} {ls : List LayoutInfo} :
      LayoutInfo.IsEntry v l → Offers items ls → Offers (v :: items) (l :: ls)
  | other {v : Json} {items : List Json} {ls : List LayoutInfo} :
      (∀ l, ¬ LayoutInfo.IsEntry v l) → Offers items ls → Offers (v :: items) ls

theorem offers_filterMap (items : List Json) :
    Offers items (items.filterMap LayoutInfo.ofValue?) := by
  induction items with
  | nil => exact .nil
  | cons v items ih =>
    rcases hv : LayoutInfo.ofValue? v with _ | l
    · rw [List.filterMap_cons_none hv]
      exact .other (LayoutInfo.ofValue?_eq_none_iff.mp hv) ih
    · rw [List.filterMap_cons_some hv]
      exact .entry (LayoutInfo.ofValue?_eq_some_iff.mp hv) ih

/-- Without an entry that is no layout the same layouts are offered. -/
theorem Offers.without {after : List Json} {bad : Json} (hbad : ∀ l, ¬ LayoutInfo.IsEntry bad l) :
    ∀ {before : List Json} {ls : List LayoutInfo}, Offers (before ++ bad :: after) ls →
    Offers (before ++ after) ls
  | [], _, .entry hentry _ => absurd hentry (hbad _)
  | [], _, .other _ h => h
  | _ :: _, _, .entry hentry h => .entry hentry (h.without hbad)
  | _ :: _, _, .other hother h => .other hother (h.without hbad)

/-- Entries that are all decoded offer what they are decoded to. -/
theorem filterMap_of_mapM {initial : LayoutInfo} : ∀ {items : List Json} {ls : List LayoutInfo},
    items.mapM (LayoutInfo.decoder.ofValue initial) = .ok ls →
    items.filterMap LayoutInfo.ofValue? = ls
  | [], ls, h => by
    cases h
    rfl
  | v :: items, ls, h => by
    rw [List.mapM_cons] at h
    obtain ⟨l, hl, h⟩ := Json.bind_eq_ok_iff.mp h
    obtain ⟨more, hmore, hpure⟩ := Json.bind_eq_ok_iff.mp h
    cases hpure
    have hentry := LayoutInfo.ofValue?_eq_some_iff.mpr (LayoutInfo.isEntry_of_decoder hl)
    rw [List.filterMap_cons_some hentry, filterMap_of_mapM hmore]

namespace Reply

theorem textMember_canonical (name : String) (v : Json) :
    textMember name v.canonical = textMember name v := by
  rw [textMember, textMember, Json.member?_canonical, Option.bind_map]
  congr 2
  funext w
  exact Json.string?_canonical w

/-- A value in canonical form is the same reply. -/
theorem ofValue?_canonical (v : Json) : ofValue? v.canonical = ofValue? v := by
  have hobject : v.canonical.isObject = v.isObject := by cases v <;> rfl
  have hitems (items : List Json) : (items.map Json.canonical).filterMap LayoutInfo.ofValue? =
      items.filterMap LayoutInfo.ofValue? := by
    rw [List.filterMap_map]
    congr 1
    funext w
    exact LayoutInfo.ofValue?_canonical w
  have hlayouts : ((v.canonical.member? "data").bind Json.array?).map
        (·.filterMap LayoutInfo.ofValue?) =
      ((v.member? "data").bind Json.array?).map (·.filterMap LayoutInfo.ofValue?) := by
    rw [Json.member?_canonical]
    rcases v.member? "data" with _ | w
    · rfl
    · cases w with
      | array items =>
        show some ((Json.canonicalItems items).filterMap _) = some (items.filterMap _)
        rw [Json.canonicalItems_eq_map, hitems]
      | _ => rfl
  rw [ofValue?, ofValue?, hobject, textMember_canonical, textMember_canonical, hlayouts]

/-- The list of a reply, null for none. -/
def dataField : Json.FieldDecoder Reply where
  name := "data"
  required := false
  store := fun r v =>
    Json.orNull (Json.asList (LayoutInfo.decoder.ofValue ⟨"", ""⟩)) v >>= fun ls =>
      pure { r with layouts := ls }

/-- How a reply is decoded. -/
def decoder : RecordDecoder Reply where
  name := "struct AgentReply"
  fields := [stringField "status" false fun r s => { r with status := s },
    stringField "message" false fun r s => { r with message := s }, dataField]

theorem shape_mirrors : shape.Mirrors decoder := by
  refine .cons (mirrors_stringField rfl rfl rfl) (.cons (mirrors_stringField rfl rfl rfl)
    (.cons ⟨rfl, rfl, fun r => ?_⟩ .nil))
  have hlayouts := Json.readOptional_follows (Json.readSequence_follows
    (Json.RecordShape.readRecord_follows LayoutInfo.shape_mirrors ⟨"", ""⟩))
  exact hlayouts.map fun ls => { r with layouts := ls }

/-- What the list of a reply is decoded to is what the other reading takes from it. -/
theorem dataField_store {r stored : Reply} {v : Json} (h : dataField.store r v = .ok stored) :
    stored.layouts = v.array?.map (·.filterMap LayoutInfo.ofValue?) ∧
      stored.status = r.status ∧ stored.message = r.message := by
  obtain ⟨ls, hls, hpure⟩ := Json.bind_eq_ok_iff.mp h
  cases hpure
  refine ⟨?_, rfl, rfl⟩
  cases v with
  | null =>
    cases hls
    rfl
  | array items =>
    obtain ⟨decoded, hdecoded, hpure⟩ := Json.bind_eq_ok_iff.mp hls
    cases hpure
    exact congrArg some (filterMap_of_mapM hdecoded).symm
  | _ => cases hls

/-- A text that is decoded as a member is its text, an empty one if there is no member. -/
theorem textMember_of_valuesOf {name s : String} {members : List (String × Json)}
    (h : valuesOf name members = [] ∧ s = "" ∨ valuesOf name members = [.string s]) :
    textMember name (.object members) = s := by
  rw [textMember, Json.member?, Json.lastMember?_eq_getLast?]
  rcases h with ⟨hnone, rfl⟩ | hone
  · rw [hnone]
    rfl
  · rw [hone]
    rfl

/-- What is decoded to a reply is that reply. -/
theorem ofValue?_of_decoder {members : List (String × Json)} {r : Reply}
    (h : decoder.ofMembers {} members = .ok r) : ofValue? (.object members) = some r := by
  have hstatus : textMember "status" (.object members) = r.status := by
    refine textMember_of_valuesOf ((ofMembers_stringField Reply.status rfl
      (fun _ _ => rfl) ?_ h).imp_left And.right)
    intro other hmem hne record record' v hstore
    rcases List.mem_cons.mp hmem with rfl | hmem
    · exact absurd rfl hne
    · rcases List.mem_pair.mp hmem with rfl | rfl
      · exact view_of_stringField_store hstore fun _ _ => rfl
      · exact (dataField_store hstore).2.1
  have hmessage : textMember "message" (.object members) = r.message := by
    refine textMember_of_valuesOf ((ofMembers_stringField Reply.message rfl
      (fun _ _ => rfl) ?_ h).imp_left And.right)
    intro other hmem hne record record' v hstore
    rcases List.mem_cons.mp hmem with rfl | hmem
    · exact view_of_stringField_store hstore fun _ _ => rfl
    · rcases List.mem_pair.mp hmem with rfl | rfl
      · exact absurd rfl hne
      · exact (dataField_store hstore).2.2
  have hlayouts : ((Json.member? "data" (.object members)).bind Json.array?).map
      (·.filterMap LayoutInfo.ofValue?) = r.layouts := by
    have hview : ∀ other ∈ decoder.fields, other.name ≠ "data" → ∀ {record record' v},
        other.store record v = .ok record' → record'.layouts = record.layouts := by
      intro other hmem hne record record' v hstore
      rcases List.mem_cons.mp hmem with rfl | hmem
      · exact view_of_stringField_store hstore fun _ _ => rfl
      · rcases List.mem_pair.mp hmem with rfl | rfl
        · exact view_of_stringField_store hstore fun _ _ => rfl
        · exact absurd rfl hne
    rw [Json.member?, Json.lastMember?_eq_getLast?]
    have hfield : decoder.fields.find? (·.name == "data") = some dataField := rfl
    rcases RecordDecoder.ofMembers_view hfield hview h with
      ⟨-, hnone, hsame⟩ | ⟨v, before, after, hone, hstore, hsame⟩
    · rw [hnone, hsame]
      rfl
    · rw [hone, hsame]
      exact (dataField_store hstore).1.symm
  have hobject : (Json.object members).isObject = true := rfl
  rw [ofValue?, if_pos hobject, hstatus, hmessage, hlayouts]

/-! ### The list of any object -/

theorem ofValue?_object (members : List (String × Json)) : ofValue? (.object members) = some {
    status := textMember "status" (.object members)
    message := textMember "message" (.object members)
    layouts := ((Json.lastMember? "data" members).bind Json.array?).map
      (·.filterMap LayoutInfo.ofValue?) } := rfl

theorem layouts_of_array {members : List (String × Json)} {r : Reply} {items : List Json}
    (hr : ofValue? (.object members) = some r)
    (hdata : Json.lastMember? "data" members = some (.array items)) :
    r.layouts = some (items.filterMap LayoutInfo.ofValue?) := by
  rw [ofValue?_object, hdata] at hr
  cases hr
  rfl

theorem layouts_of_no_array {members : List (String × Json)} {r : Reply}
    (hr : ofValue? (.object members) = some r)
    (hdata : ∀ items, Json.lastMember? "data" members ≠ some (.array items)) : r.layouts = none := by
  rw [ofValue?_object] at hr
  cases hr
  rcases hlast : Json.lastMember? "data" members with _ | v
  · rfl
  · cases v with
    | array items => exact absurd hlast (hdata items)
    | _ => rfl

/-- **Both readings agree.**  A text that is an object and is also in exact form is the same reply to
both.  From any object the layouts are those which the entries of its list offer, with or without the
entries that are no layouts, and there are none if there is no list. -/
theorem readers_agree :
    (∀ {text : List Char} {v : Json} {r : Reply}, Json.read text = .ok v → v.isObject = true →
      parse text = .ok r → ofValue? v = some r) ∧
    ∀ members : List (String × Json), ∃ r, ofValue? (.object members) = some r ∧
      (∀ items, Json.lastMember? "data" members = some (.array items) →
        ∃ ls, r.layouts = some ls ∧ Offers items ls ∧
          ∀ before bad after, items = before ++ bad :: after → (∀ l, ¬ LayoutInfo.IsEntry bad l) →
            Offers (before ++ after) ls) ∧
      ((∀ items, Json.lastMember? "data" members ≠ some (.array items)) → r.layouts = none) := by
  constructor
  · intro text v r hread hobject hparse
    obtain ⟨w, ⟨hw, -⟩, rfl⟩ := Json.read_eq_ok_iff.mp hread
    have hdecode := Json.RecordShape.ofValue_of_readWhole shape_mirrors hw hparse
    cases w with
    | object members =>
      rw [ofValue?_canonical]
      exact ofValue?_of_decoder hdecode
    | _ => cases hobject
  · intro members
    refine ⟨_, ofValue?_object members, ?_, layouts_of_no_array (ofValue?_object members)⟩
    intro items hdata
    refine ⟨items.filterMap LayoutInfo.ofValue?, ?_, offers_filterMap items, ?_⟩
    · exact layouts_of_array (ofValue?_object members) hdata
    · rintro before bad after rfl hbad
      exact (offers_filterMap _).without hbad

/-- A reply whose entries are of both forms. -/
def mixedReply : List Char :=
  ("\x7b\"data\":[[\"00000409\",\"US\"],\x7b\"name\":\"ABC\",\"id\":\"00000804\",\"n\":1\x7d]," ++
    "\"status\":\"ok\"\x7d").toList

/-- The value of the reply. -/
def mixedMembers : List (String × Json) :=
  [("data", .array [.array [.string "00000409", .string "US"],
    .object [("id", .string "00000804"), ("n", .int 1), ("name", .string "ABC")]]),
    ("status", .string "ok")]

theorem readers_agree_mixedReply : Json.read mixedReply = .ok (.object mixedMembers) ∧
    parse mixedReply = .ok ⟨"ok", "", some [⟨"00000409", "US"⟩, ⟨"00000804", "ABC"⟩]⟩ ∧
    ofValue? (.object mixedMembers) =
      some ⟨"ok", "", some [⟨"00000409", "US"⟩, ⟨"00000804", "ABC"⟩]⟩ := by
  have hread : Json.read mixedReply = .ok (.object mixedMembers) := by decide +kernel
  have hparse : parse mixedReply =
      .ok ⟨"ok", "", some [⟨"00000409", "US"⟩, ⟨"00000804", "ABC"⟩]⟩ := by decide +kernel
  exact ⟨hread, hparse, readers_agree.1 hread rfl hparse⟩

end Reply

end CaretLayout
