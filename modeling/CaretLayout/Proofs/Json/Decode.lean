import CaretLayout.Json.Decode
import CaretLayout.Proofs.Json.Token

/-!
# Records out of objects

A record is decoded from the members of an object one after another, but the result does not depend on
their order: each place of the record is filled from the members of one name, of which there may be one
at most (`ofMembers_view`), and the decoding succeeds as soon as each field does on its own
(`exists_ofMembers`).
-/

namespace CaretLayout.Json

/-! ### Members of a name -/

/-- The values of the members of a name, in the order of the text. -/
def valuesOf (name : String) (members : List (String × Json)) : List Json :=
  (members.filter fun m => m.1 = name).map (·.2)

theorem valuesOf_cons_self (name : String) (v : Json) (members : List (String × Json)) :
    valuesOf name ((name, v) :: members) = v :: valuesOf name members := by
  simp [valuesOf]

theorem valuesOf_cons_of_ne {name k : String} (h : k ≠ name) (v : Json)
    (members : List (String × Json)) :
    valuesOf name ((k, v) :: members) = valuesOf name members := by
  simp [valuesOf, h]

/-- Leaving out the members of one name leaves those of the others. -/
theorem valuesOf_filter_ne {name left : String} (h : name ≠ left)
    (members : List (String × Json)) :
    valuesOf name (members.filter fun m => m.1 ≠ left) = valuesOf name members := by
  rw [valuesOf, List.filter_filter]
  congr 1
  refine List.filter_congr fun m _ => ?_
  by_cases hm : m.1 = name
  · simp [hm, h]
  · simp [hm]

theorem mem_of_mem_valuesOf {name : String} {v : Json} {members : List (String × Json)}
    (h : v ∈ valuesOf name members) : (name, v) ∈ members := by
  obtain ⟨⟨k, v'⟩, hm, rfl⟩ := List.mem_map.mp h
  obtain ⟨hm, hk⟩ := List.mem_filter.mp hm
  rw [decide_eq_true_eq] at hk
  rwa [← hk]

theorem lastMember?_eq_getLast? (name : String) : ∀ members : List (String × Json),
    lastMember? name members = (valuesOf name members).getLast?
  | [] => rfl
  | (k, v) :: rest => by
    rw [lastMember?, lastMember?_eq_getLast? name rest]
    by_cases hname : k = name
    · subst hname
      rw [valuesOf_cons_self, List.getLast?_cons]
      rcases (valuesOf k rest).getLast? with _ | w
      · simp
      · rfl
    · rw [valuesOf_cons_of_ne hname, if_neg hname]
      rcases (valuesOf name rest).getLast? with _ | w
      · rfl
      · rfl

/-- The members with another value in those of a name. -/
def replaceValue (name : String) (v : Json) (members : List (String × Json)) :
    List (String × Json) :=
  members.map fun m => if m.1 = name then (m.1, v) else m

theorem valuesOf_replaceValue (name other : String) (v : Json) (members : List (String × Json)) :
    valuesOf name (replaceValue other v members) =
      if name = other then (valuesOf name members).map fun _ => v else valuesOf name members := by
  have hname : ((fun m : String × Json => decide (m.1 = name)) ∘
      fun m => if m.1 = other then (m.1, v) else m) = fun m => decide (m.1 = name) := by
    funext m
    by_cases hm : m.1 = other
    · simp [hm]
    · simp [hm]
  rw [valuesOf, replaceValue, List.filter_map, hname, List.map_map, valuesOf, List.map_map]
  split
  · next h =>
    refine List.map_congr_left fun m hm => ?_
    have hm := (List.mem_filter.mp hm).2
    rw [decide_eq_true_eq, h] at hm
    simp [hm]
  · next h =>
    refine List.map_congr_left fun m hm => ?_
    have hm := (List.mem_filter.mp hm).2
    rw [decide_eq_true_eq] at hm
    simp [hm, h]

/-! ### Values of a type -/

theorem asString_eq_ok_iff {v : Json} {s : String} : asString v = .ok s ↔ v = .string s := by
  cases v <;> simp [asString]

theorem asWord_eq_ok_iff {v : Json} {n : Nat} : asWord v = .ok n ↔ v = .int n := by
  cases v with
  | int i =>
    rw [asWord, Json.int.injEq]
    split
    · rw [Except.ok.injEq]
      omega
    · simp only [reduceCtorEq, false_iff]
      omega
  | _ => simp [asWord]

theorem mapM_asString_eq_ok_iff : ∀ {items : List Json} {l : List String},
    items.mapM asString = .ok l ↔ items = l.map .string
  | [], l => by
    rw [List.mapM_nil, eq_comm (a := []), List.map_eq_nil_iff, eq_comm (a := l)]
    exact Except.ok.injEq [] l ▸ Iff.rfl
  | v :: items, l => by
    rw [List.mapM_cons, bind_eq_ok_iff]
    constructor
    · rintro ⟨s, hs, h⟩
      obtain ⟨ss, hss, hpure⟩ := bind_eq_ok_iff.mp h
      cases hpure
      rw [asString_eq_ok_iff.mp hs, mapM_asString_eq_ok_iff.mp hss, List.map_cons]
    · intro h
      rcases l with _ | ⟨s, ss⟩
      · cases h
      · rw [List.map_cons, List.cons.injEq] at h
        refine ⟨s, asString_eq_ok_iff.mpr h.1, ?_⟩
        rw [mapM_asString_eq_ok_iff.mpr h.2]
        rfl

theorem asStrings_eq_ok_iff {v : Json} {l : List String} :
    asStrings v = .ok l ↔ v = .array (l.map .string) := by
  cases v with
  | array items => rw [asStrings, mapM_asString_eq_ok_iff, Json.array.injEq]
  | _ => simp [asStrings]

/-- A string, or null for nothing. -/
def ofOptionalString (o : Option String) : Json :=
  (o.map .string).getD .null

theorem asOptionalString_eq_ok_iff {v : Json} {o : Option String} :
    asOptionalString v = .ok o ↔ v = ofOptionalString o := by
  cases v <;> cases o <;> simp [asOptionalString, ofOptionalString, asString]

theorem ofOptionalString_injective : Function.Injective ofOptionalString := fun _ _ h =>
  Except.ok.inj ((asOptionalString_eq_ok_iff.mpr rfl).symm.trans (asOptionalString_eq_ok_iff.mpr h))

/-! ### Records -/

namespace RecordDecoder

variable {σ α : Type} {d : RecordDecoder σ}

/-- How a record is written as members, so that its fields read them back: to store a value is to
replace what the record writes in the field. -/
structure Writes (d : RecordDecoder σ) (write : σ → List (String × Json)) : Prop where
  write_store : ∀ field ∈ d.fields, ∀ {record record' v}, field.store record v = .ok record' →
    write record' = replaceValue field.name v (write record)
  exists_store : ∀ field ∈ d.fields, ∀ target, ∃ v, valuesOf field.name (write target) = [v] ∧
    ∀ record, ∃ record', field.store record v = .ok record'
  injective : ∀ {record record'}, (∀ field ∈ d.fields,
    valuesOf field.name (write record) = valuesOf field.name (write record')) → record = record'

/-- What a record writes in a field in which a value has been stored, and in the others. -/
theorem Writes.valuesOf_store {write : σ → List (String × Json)} (hwrites : d.Writes write)
    {field : FieldDecoder σ} (hmem : field ∈ d.fields) {record record' : σ} {v : Json}
    (h : field.store record v = .ok record') (name : String) :
    valuesOf name (write record') =
      if name = field.name then [v] else valuesOf name (write record) := by
  rw [hwrites.write_store field hmem h, valuesOf_replaceValue]
  split
  · next hname =>
    obtain ⟨v', hv', -⟩ := hwrites.exists_store field hmem record
    rw [hname, hv']
    rfl
  · rfl

/-- What becomes of the first member: it is stored in its field, or it is of no field. -/
theorem storeMembers_cons_cases {seen seen' : List String} {record record' : σ} {k : String} {v : Json}
    {members : List (String × Json)}
    (h : d.storeMembers seen record ((k, v) :: members) = .ok (seen', record')) :
    (∃ field stored, d.fields.find? (·.name == k) = some field ∧ k ∉ seen ∧
      field.store record v = .ok stored ∧
      d.storeMembers (k :: seen) stored members = .ok (seen', record')) ∨
    d.fields.find? (·.name == k) = none ∧
      d.storeMembers seen record members = .ok (seen', record') := by
  rw [storeMembers] at h
  split at h
  · next field hfield =>
    split at h
    · cases h
    · next hseen =>
      split at h
      · next stored hstored =>
        exact Or.inl ⟨field, stored, hfield, by simpa using hseen, hstored, h⟩
      · cases h
  · next hfield => exact Or.inr ⟨hfield, h⟩

theorem name_of_find? {name : String} {field : FieldDecoder σ}
    (h : d.fields.find? (·.name == name) = some field) : field.name = name := by
  simpa using List.find?_some h

/-- Which fields have been seen after all members. -/
theorem mem_seen_iff {name : String} {field : FieldDecoder σ}
    (hfield : d.fields.find? (·.name == name) = some field) :
    ∀ {members : List (String × Json)} {seen seen' : List String} {record record' : σ},
    d.storeMembers seen record members = .ok (seen', record') →
    (name ∈ seen' ↔ name ∈ seen ∨ valuesOf name members ≠ [])
  | [], seen, seen', record, record', h => by
    cases h
    simp [valuesOf]
  | (k, v) :: members, seen, seen', record, record', h => by
    rcases storeMembers_cons_cases h with ⟨-, stored, -, -, -, hrest⟩ | ⟨hnone, hrest⟩
    · rw [mem_seen_iff hfield hrest, List.mem_cons]
      by_cases hname : k = name
      · subst hname
        simp [valuesOf_cons_self]
      · rw [valuesOf_cons_of_ne hname, or_iff_right (Ne.symm hname)]
    · have hname : k ≠ name := by
        rintro rfl
        rw [hfield] at hnone
        cases hnone
      rw [mem_seen_iff hfield hrest, valuesOf_cons_of_ne hname]

/-- What a view of the record shows after all members, where only the field of one name changes it:
what it showed before if there is none of that name, and otherwise what the field has stored from the
only one. -/
theorem storeMembers_view {view : σ → α} {name : String} {field : FieldDecoder σ}
    (hfield : d.fields.find? (·.name == name) = some field)
    (hview : ∀ other ∈ d.fields, other.name ≠ name → ∀ {record record' v},
      other.store record v = .ok record' → view record' = view record) :
    ∀ {members : List (String × Json)} {seen seen' : List String} {record record' : σ},
    d.storeMembers seen record members = .ok (seen', record') →
    (valuesOf name members = [] ∧ view record' = view record) ∨
      (name ∉ seen ∧ ∃ v before after, valuesOf name members = [v] ∧
        field.store before v = .ok after ∧ view record' = view after)
  | [], seen, seen', record, record', h => by
    cases h
    exact Or.inl ⟨rfl, rfl⟩
  | (k, v) :: members, seen, seen', record, record', h => by
    rcases storeMembers_cons_cases h with ⟨own, stored, hown, hk, hstored, hrest⟩ | ⟨hnone, hrest⟩
    · have hcases := storeMembers_view hfield hview hrest
      by_cases hname : k = name
      · subst hname
        rw [hfield] at hown
        cases hown
        rw [valuesOf_cons_self]
        rcases hcases with ⟨hnone, hsame⟩ | ⟨habsurd, -⟩
        · exact Or.inr ⟨hk, v, record, stored, by rw [hnone], hstored, hsame⟩
        · exact absurd List.mem_cons_self habsurd
      · have hne : own.name ≠ name := by rwa [name_of_find? hown]
        rw [hview own (List.mem_of_find?_eq_some hown) hne hstored] at hcases
        rw [valuesOf_cons_of_ne hname]
        exact hcases.imp_right fun ⟨hseen, hone⟩ =>
          ⟨fun hmem => hseen (List.mem_cons_of_mem _ hmem), hone⟩
    · have hname : k ≠ name := by
        rintro rfl
        rw [hfield] at hnone
        cases hnone
      rw [valuesOf_cons_of_ne hname]
      exact storeMembers_view hfield hview hrest

theorem ofMembers_eq_ok_store {initial record : σ} {members : List (String × Json)} :
    d.ofMembers initial members = .ok record ↔
      ∃ seen, d.storeMembers [] initial members = .ok (seen, record) ∧ d.missing? seen = none := by
  unfold ofMembers
  rcases d.storeMembers [] initial members with fault | ⟨seen, record'⟩
  · simp
  · dsimp only
    rcases hmissing : d.missing? seen with _ | name
    · simp only [Except.ok.injEq, Prod.mk.injEq]
      exact ⟨fun h => ⟨seen, ⟨rfl, h⟩, hmissing⟩, fun ⟨_, ⟨_, h⟩, _⟩ => h⟩
    · simp [hmissing]

theorem missing?_eq_none_iff {seen : List String} :
    d.missing? seen = none ↔ ∀ field ∈ d.fields, field.required = true → field.name ∈ seen := by
  simp [missing?]

/-- The first item is stored in the first field. -/
theorem storeItems_cons_eq_ok_iff {field : FieldDecoder σ} {fields : List (FieldDecoder σ)} {index : Nat}
    {record record' : σ} {item : Json} {items : List Json} :
    d.storeItems (field :: fields) index record (item :: items) = .ok record' ↔
      ∃ stored, field.store record item = .ok stored ∧
        d.storeItems fields (index + 1) stored items = .ok record' := by
  rw [storeItems]
  rcases field.store record item with fault | stored
  · simp
  · simp

/-- What a field can be stored from: nothing unless it is required, or one member that it accepts. -/
def Storable (field : FieldDecoder σ) (values : List Json) : Prop :=
  (values = [] ∧ field.required = false) ∨
    ∃ v, values = [v] ∧ ∀ record, ∃ record', field.store record v = .ok record'

theorem exists_storeMembers : ∀ {members : List (String × Json)} {seen : List String} {record : σ},
    (∀ field ∈ d.fields, valuesOf field.name members ≠ [] →
      field.name ∉ seen ∧ Storable field (valuesOf field.name members)) →
    ∃ result, d.storeMembers seen record members = .ok result
  | [], seen, record, _ => ⟨_, rfl⟩
  | (k, v) :: members, seen, record, h => by
    rw [storeMembers]
    split
    · next field hfield =>
      obtain rfl := name_of_find? hfield
      have hvalues := h field (List.mem_of_find?_eq_some hfield)
      rw [valuesOf_cons_self] at hvalues
      obtain ⟨hseen, ⟨hnil, -⟩ | ⟨v', hv, hstores⟩⟩ := hvalues (List.cons_ne_nil _ _)
      · cases hnil
      · obtain ⟨rfl, hnone⟩ := List.cons.inj hv
        obtain ⟨stored, hstored⟩ := hstores record
        rw [if_neg (by simpa using hseen), hstored]
        refine exists_storeMembers fun other hother hsome => ?_
        have hne : field.name ≠ other.name := fun heq => hsome (heq ▸ hnone)
        obtain ⟨hother', hstorable⟩ := h other hother (by rwa [valuesOf_cons_of_ne hne])
        rw [valuesOf_cons_of_ne hne] at hstorable
        refine ⟨?_, hstorable⟩
        rw [List.mem_cons, not_or]
        exact ⟨Ne.symm hne, hother'⟩
    · next hfield =>
      refine exists_storeMembers fun field hmem hsome => ?_
      have hne : k ≠ field.name := by
        rintro rfl
        exact absurd (List.find?_eq_none.mp hfield field hmem) (by simp)
      have hvalues := h field hmem
      rw [valuesOf_cons_of_ne hne] at hvalues
      exact hvalues hsome

theorem exists_find? {field : FieldDecoder σ} (h : field ∈ d.fields) :
    ∃ first, d.fields.find? (·.name == field.name) = some first := by
  have hfound : (d.fields.find? (·.name == field.name)).isSome = true :=
    List.find?_isSome.mpr ⟨field, h, beq_self_eq_true field.name⟩
  exact Option.isSome_iff_exists.mp hfound

/-- A record is decoded as soon as each of its fields can be stored on its own. -/
theorem exists_ofMembers {members : List (String × Json)} (initial : σ)
    (h : ∀ field ∈ d.fields, Storable field (valuesOf field.name members)) :
    ∃ record, d.ofMembers initial members = .ok record := by
  have hexists : ∃ result, d.storeMembers [] initial members = .ok result :=
    exists_storeMembers fun field hmem _ => ⟨List.not_mem_nil, h field hmem⟩
  obtain ⟨⟨seen, record⟩, hstore⟩ := hexists
  refine ⟨record, ofMembers_eq_ok_store.mpr ⟨seen, hstore, missing?_eq_none_iff.mpr ?_⟩⟩
  intro field hmem hrequired
  obtain ⟨first, hfirst⟩ := exists_find? hmem
  refine (mem_seen_iff hfirst hstore).mpr (Or.inr fun hnone => ?_)
  rcases h field hmem with ⟨-, hfalse⟩ | ⟨v, hone, -⟩
  · rw [hrequired] at hfalse
    cases hfalse
  · rw [hnone] at hone
    cases hone

/-- What a view of a decoded record shows, where only the field of one name changes it: what it showed
at first if there is no member of that name and none is required, and otherwise what the field has
stored from the only one. -/
theorem ofMembers_view {view : σ → α} {name : String} {field : FieldDecoder σ}
    (hfield : d.fields.find? (·.name == name) = some field)
    (hview : ∀ other ∈ d.fields, other.name ≠ name → ∀ {record record' v},
      other.store record v = .ok record' → view record' = view record)
    {initial record : σ} {members : List (String × Json)}
    (h : d.ofMembers initial members = .ok record) :
    ((∀ other ∈ d.fields, other.name = name → other.required = false) ∧
        valuesOf name members = [] ∧ view record = view initial) ∨
      ∃ v before after, valuesOf name members = [v] ∧ field.store before v = .ok after ∧
        view record = view after := by
  obtain ⟨seen, hstore, hmissing⟩ := ofMembers_eq_ok_store.mp h
  rcases storeMembers_view hfield hview hstore with ⟨hnone, hsame⟩ | ⟨-, hone⟩
  · refine Or.inl ⟨fun other hother hname => ?_, hnone, hsame⟩
    rw [← Bool.not_eq_true]
    intro hrequired
    have hseen := missing?_eq_none_iff.mp hmissing other hother hrequired
    rw [hname] at hseen
    rcases (mem_seen_iff hfield hstore).mp hseen with hseen | hsome
    · cases hseen
    · exact hsome hnone
  · exact Or.inr hone

/-- That members hold what a record writes in a field, or nothing if the field is not required and the
record writes in it what it writes at first. -/
def Agrees (write : σ → List (String × Json)) (initial : σ) (members : List (String × Json))
    (record : σ) (field : FieldDecoder σ) : Prop :=
  valuesOf field.name members = valuesOf field.name (write record) ∨
    field.required = false ∧ valuesOf field.name members = [] ∧
      valuesOf field.name (write record) = valuesOf field.name (write initial)

theorem Writes.agrees {write : σ → List (String × Json)} (hwrites : d.Writes write)
    {initial record : σ} {members : List (String × Json)}
    (h : d.ofMembers initial members = .ok record) {field : FieldDecoder σ} (hmem : field ∈ d.fields) :
    Agrees write initial members record field := by
  obtain ⟨first, hfirst⟩ := exists_find? hmem
  have hview : ∀ other ∈ d.fields, other.name ≠ field.name → ∀ {record record' v},
      other.store record v = .ok record' →
        valuesOf field.name (write record') = valuesOf field.name (write record) := by
    intro other hother hne record record' v hstore
    rw [hwrites.valuesOf_store hother hstore, if_neg (Ne.symm hne)]
  rcases ofMembers_view hfirst hview h with
    ⟨hrequired, hnone, hsame⟩ | ⟨v, before, after, hone, hstore, hshown⟩
  · exact Or.inr ⟨hrequired field hmem rfl, hnone, hsame⟩
  · have hvalues := hwrites.valuesOf_store (List.mem_of_find?_eq_some hfirst) hstore field.name
    rw [name_of_find? hfirst, if_pos rfl] at hvalues
    exact Or.inl (hone.trans (hshown.trans hvalues).symm)

/-- **A record is decoded from members** exactly when they agree with what it writes in each field,
whatever their order and whatever members of other names there are. -/
theorem Writes.ofMembers_eq_ok_iff {write : σ → List (String × Json)} (hwrites : d.Writes write)
    {initial record : σ} {members : List (String × Json)} :
    d.ofMembers initial members = .ok record ↔
      ∀ field ∈ d.fields, Agrees write initial members record field := by
  refine ⟨fun h field hmem => hwrites.agrees h hmem, fun h => ?_⟩
  have hstorable : ∀ field ∈ d.fields, Storable field (valuesOf field.name members) := by
    intro field hmem
    obtain ⟨v, hv, hstore⟩ := hwrites.exists_store field hmem record
    rcases h field hmem with hone | ⟨hrequired, hnone, -⟩
    · exact Or.inr ⟨v, hone.trans hv, hstore⟩
    · exact Or.inl ⟨hnone, hrequired⟩
  obtain ⟨record', hrecord'⟩ := exists_ofMembers initial hstorable
  suffices hsame : record' = record by rwa [hsame] at hrecord'
  refine hwrites.injective fun field hmem => ?_
  obtain ⟨v, hv, -⟩ := hwrites.exists_store field hmem record
  obtain ⟨v', hv', -⟩ := hwrites.exists_store field hmem record'
  rcases h field hmem with hone | ⟨-, hnone, hinitial⟩
  · rcases hwrites.agrees hrecord' hmem with hone' | ⟨-, hnone', -⟩
    · exact hone'.symm.trans hone
    · rw [hone, hv] at hnone'
      cases hnone'
  · rcases hwrites.agrees hrecord' hmem with hone' | ⟨-, -, hinitial'⟩
    · rw [hnone, hv'] at hone'
      cases hone'
    · exact hinitial'.trans hinitial.symm

end RecordDecoder

end CaretLayout.Json
