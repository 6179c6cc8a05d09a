import CaretLayout.Proofs.Toml.DistinctKeys
import CaretLayout.Toml.Decode

/-!
# Decoding a table of distinct keys

The entries of a table are stored one after another, but where its keys are distinct their order does
not matter.  A field that is read by itself (`Reads`) shows what its own entry says, or what it showed at
first (`Reads.view_decode`); a table is decoded if each of its entries can be stored (`exists_decode`),
and a single entry that cannot be read makes the whole table unusable (`Reads.decode_eq_none`).
-/

namespace CaretLayout.Toml

/-! ### Paths -/

/-- That a value is a table. -/
def IsTable (v : Toml) : Prop :=
  ∃ entries, v = table entries

theorem isTable_of_read {text : List Char} {document : Toml} (h : read text = some document) :
    document.IsTable := by
  obtain ⟨statements, -, htree⟩ := Option.bind_eq_some_iff.mp h
  obtain ⟨b, -, hdocument⟩ := Option.bind_eq_some_iff.mp htree
  cases hdocument
  exact ⟨_, rfl⟩

/-- The value that a path of keys leads to, from table to table. -/
def at? : List String → Toml → Option Toml
  | [], v => some v
  | key :: path, .table entries => (Keyed.findIn key entries).bind (at? path)
  | _ :: _, _ => none

theorem at?_append : ∀ (front path : List String) (v : Toml),
    v.at? (front ++ path) = (v.at? front).bind (at? path)
  | [], _, _ => rfl
  | key :: front, path, .table entries => by
    rw [List.cons_append, at?, at?, Option.bind_assoc]
    exact congrArg (Keyed.findIn key entries).bind (funext (at?_append front path))
  | _ :: _, _, .string _ | _ :: _, _, .integer _ | _ :: _, _, .float _ | _ :: _, _, .boolean _
  | _ :: _, _, .moment | _ :: _, _, .array _ => rfl

theorem at?_singleton (key : String) (entries : List (String × Toml)) :
    (table entries).at? [key] = Keyed.findIn key entries := by
  rw [at?]
  cases Keyed.findIn key entries <;> rfl

/-- A path that leads somewhere starts in a table. -/
theorem at?_cons_eq_some {key : String} {path : List String} {v w : Toml}
    (h : v.at? (key :: path) = some w) :
    ∃ entries u, v = table entries ∧ Keyed.findIn key entries = some u ∧ u.at? path = some w := by
  cases v with
  | table entries =>
    obtain ⟨u, hu, hw⟩ := Option.bind_eq_some_iff.mp h
    exact ⟨entries, u, rfl, hu, hw⟩
  | _ => cases h

theorem findIn_eq_none_iff {key : String} {entries : List (String × Toml)} :
    Keyed.findIn key entries = none ↔ key ∉ entries.map (·.1) := by
  rw [Keyed.mem_map_fst_iff, Classical.not_not]

/-- What holds of a value and passes from a table to its entries holds where a path leads. -/
theorem at?_of_entries {P : Toml → Prop}
    (hP : ∀ entries, P (table entries) → ∀ e ∈ entries, P e.2) :
    ∀ {path : List String} {v w : Toml}, P v → v.at? path = some w → P w
  | [], v, w, hv, h => by
    cases h
    exact hv
  | key :: path, v, w, hv, h => by
    obtain ⟨entries, u, rfl, hu, hw⟩ := at?_cons_eq_some h
    exact at?_of_entries hP (hP entries hv (key, u) (Keyed.mem_of_findIn hu)) hw

theorem DistinctKeys.at? {path : List String} {v w : Toml} (hv : v.DistinctKeys)
    (h : v.at? path = some w) : w.DistinctKeys :=
  at?_of_entries (fun _ h => (distinctKeys_table_iff.mp h).2) hv h

theorem entriesPassable_iff : ∀ {entries : List (String × Toml)},
    entriesPassable entries = true ↔ ∀ e ∈ entries, e.2.passable = true
  | [] => by simp [entriesPassable]
  | (_, v) :: rest => by
    rw [entriesPassable, Bool.and_eq_true, entriesPassable_iff, List.forall_mem_cons]

theorem passable_at? {path : List String} {v w : Toml} (hv : v.passable = true)
    (h : v.at? path = some w) : w.passable = true := by
  refine at?_of_entries (P := fun v => v.passable = true) (fun entries h => ?_) hv h
  rw [passable] at h
  exact entriesPassable_iff.mp h

/-! ### Fields that are read by themselves -/

namespace RecordDecoder

variable {σ α : Type} {d : RecordDecoder σ}

/-- **That a field is read by itself**: whether its value is stored, and what the view shows then,
depends on the value only, and no other field changes what the view shows. -/
structure Reads (d : RecordDecoder σ) (name : String) (read : Toml → Option α) (view : σ → α) :
    Prop where
  known : ∃ f ∈ d, f.name = name
  own : ∀ f ∈ d, f.name = name → ∀ record v, (f.store record v).map view = read v
  other : ∀ f ∈ d, f.name ≠ name → ∀ record v record', f.store record v = some record' →
    view record' = view record

/-- The first entry belongs to a field that stores it, or it is passed over. -/
theorem ofEntries_cons_eq_some {record record' : σ} {key : String} {v : Toml}
    {rest : List (String × Toml)} (h : ofEntries d record ((key, v) :: rest) = some record') :
    (∃ f ∈ d, f.name = key ∧ ∃ stored, f.store record v = some stored ∧
      ofEntries d stored rest = some record') ∨
    (∀ f ∈ d, f.name ≠ key) ∧ ofEntries d record rest = some record' := by
  rw [ofEntries] at h
  split at h
  · next f hf =>
    obtain ⟨stored, hstored, hrest⟩ := Option.bind_eq_some_iff.mp h
    have hname : f.name = key := by simpa using List.find?_some hf
    exact Or.inl ⟨f, List.mem_of_find?_eq_some hf, hname, stored, hstored, hrest⟩
  · next hnone =>
    obtain ⟨-, hrest⟩ := Option.ite_none_right_eq_some.mp h
    exact Or.inr ⟨fun f hf => by simpa using List.find?_eq_none.mp hnone f hf, hrest⟩

variable {name : String} {read : Toml → Option α} {view : σ → α}

theorem Reads.view_ofEntries (hreads : d.Reads name read view) :
    ∀ {entries : List (String × Toml)} {record record' : σ}, (entries.map (·.1)).Nodup →
    ofEntries d record entries = some record' →
    (Keyed.findIn name entries = none ∧ view record' = view record) ∨
      ∃ v, Keyed.findIn name entries = some v ∧ read v = some (view record')
  | [], record, record', _, h => by
    cases h
    exact Or.inl ⟨rfl, rfl⟩
  | (key, v) :: rest, record, record', hnodup, h => by
    obtain ⟨hkey, hrestNodup⟩ := List.nodup_cons.mp hnodup
    rw [Keyed.findIn]
    by_cases hname : key = name
    · rw [if_pos hname]
      rw [hname] at hkey h
      have hrestNone : Keyed.findIn name rest = none := findIn_eq_none_iff.mpr hkey
      rcases ofEntries_cons_eq_some h with ⟨f, hf, hfname, stored, hstored, hrest⟩ | ⟨hunknown, -⟩
      · have hview : view record' = view stored := by
          rcases Reads.view_ofEntries hreads hrestNodup hrest with ⟨-, hview⟩ | ⟨w, hw, -⟩
          · exact hview
          · rw [hrestNone] at hw
            cases hw
        have hown := hreads.own f hf hfname record v
        rw [hstored] at hown
        exact Or.inr ⟨v, rfl, by rw [hview, ← hown, Option.map_some]⟩
      · obtain ⟨f, hf, hfname⟩ := hreads.known
        exact absurd hfname (hunknown f hf)
    · rw [if_neg hname]
      rcases ofEntries_cons_eq_some h with ⟨f, hf, hfname, stored, hstored, hrest⟩ | ⟨-, hrest⟩
      · have hview := hreads.other f hf (hfname ▸ hname) record v stored hstored
        rw [← hview]
        exact Reads.view_ofEntries hreads hrestNodup hrest
      · exact Reads.view_ofEntries hreads hrestNodup hrest

/-- **What a field shows** of a table: what is read from its entry, or what it showed at first. -/
theorem Reads.view_decode (hreads : d.Reads name read view) {initial record : σ} {v : Toml}
    (hv : v.DistinctKeys) (htable : v.IsTable) (h : d.decode initial v = some record) :
    (v.at? [name] = none ∧ view record = view initial) ∨
      ∃ w, v.at? [name] = some w ∧ read w = some (view record) := by
  obtain ⟨entries, rfl⟩ := htable
  rw [at?_singleton]
  exact hreads.view_ofEntries (distinctKeys_table_iff.mp hv).1 h

theorem Reads.ofEntries_eq_none (hreads : d.Reads name read view) {v : Toml} (hread : read v = none) :
    ∀ {entries : List (String × Toml)} (record : σ), (name, v) ∈ entries →
    ofEntries d record entries = none
  | (key, w) :: rest, record, hmem => by
    rw [← Option.not_isSome_iff_eq_none, Option.isSome_iff_exists]
    rintro ⟨record', h⟩
    rcases ofEntries_cons_eq_some h with ⟨f, hf, hfname, stored, hstored, hrest⟩ | ⟨hunknown, hrest⟩
    · rcases List.mem_cons.mp hmem with heq | hmem
      · cases heq
        have hown := hreads.own f hf hfname record v
        rw [hstored, hread] at hown
        cases hown
      · rw [Reads.ofEntries_eq_none hreads hread stored hmem] at hrest
        cases hrest
    · rcases List.mem_cons.mp hmem with heq | hmem
      · cases heq
        obtain ⟨f, hf, hfname⟩ := hreads.known
        exact hunknown f hf hfname
      · rw [Reads.ofEntries_eq_none hreads hread record hmem] at hrest
        cases hrest

/-- **An entry that cannot be read** makes its table unusable. -/
theorem Reads.decode_eq_none (hreads : d.Reads name read view) {v w : Toml}
    (hat : v.at? [name] = some w) (hread : read w = none) (initial : σ) :
    d.decode initial v = none := by
  obtain ⟨entries, u, rfl, hu, hw⟩ := at?_cons_eq_some hat
  cases hw
  exact hreads.ofEntries_eq_none hread initial (Keyed.mem_of_findIn hu)

theorem exists_ofEntries : ∀ {entries : List (String × Toml)},
    (∀ e ∈ entries, e.2.passable = true) →
    (∀ e ∈ entries, ∀ f ∈ d, f.name = e.1 → ∀ record, ∃ stored, f.store record e.2 = some stored) →
    ∀ record, ∃ record', ofEntries d record entries = some record'
  | [], _, _, record => ⟨record, rfl⟩
  | (key, v) :: rest, hpass, hstore, record => by
    obtain ⟨hv, hpassRest⟩ := List.forall_mem_cons.mp hpass
    obtain ⟨hfirst, hstoreRest⟩ := List.forall_mem_cons.mp hstore
    have ih := exists_ofEntries hpassRest hstoreRest
    rw [ofEntries]
    split
    · next f hf =>
      have hname : f.name = key := by simpa using List.find?_some hf
      obtain ⟨stored, hstored⟩ := hfirst f (List.mem_of_find?_eq_some hf) hname record
      rw [hstored]
      exact ih stored
    · rw [if_pos hv]
      exact ih record

/-- **A table is decoded** if each known entry can be stored and each other one passed over. -/
theorem exists_decode {v : Toml} (htable : v.IsTable) (hkeys : v.DistinctKeys) (hpass : v.passable = true)
    (hstore : ∀ f ∈ d, ∀ w, v.at? [f.name] = some w → ∀ record, ∃ stored, f.store record w = some stored)
    (initial : σ) : ∃ record, d.decode initial v = some record := by
  obtain ⟨entries, rfl⟩ := htable
  rw [passable] at hpass
  refine exists_ofEntries (entriesPassable_iff.mp hpass) (fun e he f hf hname => ?_) initial
  refine hstore f hf e.2 ?_
  rw [at?_singleton, hname]
  exact Keyed.findIn_of_mem (distinctKeys_table_iff.mp hkeys).1 he

end RecordDecoder

end CaretLayout.Toml
