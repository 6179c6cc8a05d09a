import CaretLayout.Config.Source
import CaretLayout.Proofs.Config.Options
import CaretLayout.Proofs.Text.Utf8
import Mathlib

/-!
# A configuration file applies as a whole

A document in which all options are well typed is decoded, and the configuration has every option that is
given, all others being as they are by default (`Says`); this decides it completely (`Says.unique`).  A
single option with a foreign value makes the document no configuration (`ofToml?_eq_none`), and then the
file is passed over.  Whatever is loaded, its languages are sorted (`sorted_load`).
-/

namespace CaretLayout.Config

open Toml (RecordDecoder)

/-! ### Documents and configurations -/

/-- The value of an option is stored. -/
theorem Leaf.exists_store {l : Leaf} {f : Toml.FieldDecoder l.place.Part} (hf : f ∈ l.place.decoder)
    (hname : f.name = l.name) {v : Toml} (hv : l.kind.Takes v) (record : l.place.Part) :
    ∃ stored, f.store record v = some stored := by
  have hown := l.reads.own f hf hname record v
  rw [hv.read_eq, Option.map_some] at hown
  obtain ⟨stored, hstored, -⟩ := Option.map_eq_some_iff.mp hown
  exact ⟨stored, hstored⟩

theorem Leaf.at?_keys (l : Leaf) (document : Toml) :
    document.at? l.keys = (document.at? l.place.keys).bind (Toml.at? [l.name]) :=
  Toml.at?_append l.place.keys [l.name] document

/-- The languages of a table are decoded if each of them can be. -/
theorem exists_languages? {entries : List (String × Toml)}
    (h : ∀ e ∈ entries, ∃ l, languageDecoder.decode {} e.2 = some l) :
    ∃ m, languages? (.table entries) = some m := by
  obtain ⟨l, hl⟩ := Keyed.exists_mapM h
  exact ⟨_, by rw [languages?, hl]; rfl⟩

theorem exists_map {α β : Type} {o : Option α} {f : α → β} (h : ∃ a, o = some a) :
    ∃ b, o.map f = some b := by
  obtain ⟨a, rfl⟩ := h
  exact ⟨f a, rfl⟩

section

variable {document : Toml}

/-- The table of a place is decoded. -/
theorem Place.exists_decode (p : Place) (hkeys : document.DistinctKeys) (hpass : document.passable = true)
    (htyped : WellTyped document) {v : Toml} (hat : document.at? p.keys = some v) :
    ∃ record, p.decoder.decode (p.part {}) v = some record := by
  refine RecordDecoder.exists_decode (htyped.places p v hat) (hkeys.at? hat)
    (Toml.passable_at? hpass hat) (fun f hf w hw record => ?_) (p.part {})
  obtain ⟨l, rfl, hname⟩ := p.exists_leaf f hf
  refine Leaf.exists_store hf hname.symm (htyped.options l w ?_) record
  rw [l.at?_keys, hat, Option.bind_some, hname, hw]

/-- **A well-typed document is a configuration.** -/
theorem exists_ofToml? (htable : document.IsTable) (hkeys : document.DistinctKeys)
    (hpass : document.passable = true) (htyped : WellTyped document) :
    ∃ c, ofToml? document = some c := by
  refine RecordDecoder.exists_decode htable hkeys hpass ?_ ({} : Config)
  simp only [decoder, List.forall_mem_cons]
  refine ⟨fun v hat _ => exists_map (Place.layouts.exists_decode hkeys hpass htyped hat),
    fun v hat _ => exists_map (Place.classifier.exists_decode hkeys hpass htyped hat),
    fun v hat _ => exists_map (Place.dispatch.exists_decode hkeys hpass htyped hat),
    fun v hat _ => exists_map (Place.agent.exists_decode hkeys hpass htyped hat),
    fun v hat _ => exists_map ?_, List.forall_mem_nil _⟩
  obtain ⟨entries, rfl⟩ := htyped.languages v hat
  refine exists_languages? fun e he => (Place.language e.1).exists_decode hkeys hpass htyped ?_
  rw [Place.keys, at?_language, hat, Option.bind_some, Toml.at?_singleton]
  exact Keyed.findIn_of_mem (Toml.distinctKeys_table_iff.mp (hkeys.at? hat)).1 he

/-- **That a configuration says what a document gives**, and nothing else: an option that is not given is
as in the configuration without options. -/
structure Says (document : Toml) (c : Config) : Prop where
  options : ∀ l : Leaf, l.written c = (document.at? l.keys).or (l.written {})
  languages : ∀ id, c.languages.find? id ≠ none ↔ document.at? ["languages", id] ≠ none
  sorted : c.languages.keys.Pairwise (· < ·)

/-- Each option is as the document gives it, or as it is by default. -/
theorem written_eq_or (htable : document.IsTable) (hkeys : document.DistinctKeys)
    (htyped : WellTyped document) {c : Config} (hc : ofToml? document = some c) (l : Leaf) :
    l.written c = (document.at? l.keys).or (l.written {}) := by
  rw [Leaf.written, Leaf.written]
  rcases l.place.isPart.decoded htable hkeys hc with ⟨hnone, hsame⟩ | ⟨v, hplace, hv⟩
  · rw [l.at?_keys, hnone, hsame]
    rfl
  · have hat : document.at? l.keys = v.at? [l.name] := by
      rw [l.at?_keys, hplace, Option.bind_some]
    rcases l.reads.view_decode (hkeys.at? hplace) (htyped.places _ v hplace) hv with
      ⟨hnone, hview⟩ | ⟨w, hw, hread⟩
    · rw [hat, hnone, hview]
      rfl
    · rw [hw] at hat
      rw [(htyped.options l w hat).read_eq] at hread
      rw [hat]
      exact (Option.some.inj hread).symm

/-- The languages are those that the document gives, in their order. -/
theorem keys_languages_of_ofToml? (htable : document.IsTable) (hkeys : document.DistinctKeys)
    {c : Config} (hc : ofToml? document = some c) : c.languages.keys.Pairwise (· < ·) ∧
      ∀ id, id ∈ c.languages.keys ↔ document.at? ["languages", id] ≠ none := by
  simp only [at?_language]
  rcases reads_languages.view_decode hkeys htable hc with ⟨hnone, hview⟩ | ⟨v, hat, hv⟩
  · rw [hview, hnone]
    exact ⟨List.Pairwise.nil, fun id => by simp [Keyed.keys]⟩
  · cases v with
    | table entries =>
      have hnodup := (Toml.distinctKeys_table_iff.mp (hkeys.at? hat)).1
      obtain ⟨hperm, hsorted, -⟩ := languages?_eq_some hnodup hv
      refine ⟨hsorted, fun id => ?_⟩
      rw [hperm.mem_iff, hat, Option.bind_some, Toml.at?_singleton, Keyed.mem_map_fst_iff]
    | _ => cases hv

theorem says_of_ofToml? (htable : document.IsTable) (hkeys : document.DistinctKeys)
    (htyped : WellTyped document) {c : Config} (hc : ofToml? document = some c) : Says document c := by
  obtain ⟨hsorted, hmem⟩ := keys_languages_of_ofToml? htable hkeys hc
  exact ⟨written_eq_or htable hkeys htyped hc,
    fun id => (c.languages.mem_keys_iff id).symm.trans (hmem id), hsorted⟩

attribute [ext] Layouts Classifier Dispatch Agent Language Config

theorem map_string_injective {o o' : Option String} (h : o.map Toml.string = o'.map Toml.string) :
    o = o' :=
  Option.map_injective (fun _ _ => Toml.string.inj) h

theorem Says.find?_congr {c c' : Config} (h : Says document c) (h' : Says document c') (id : String) :
    c.languages.find? id = c'.languages.find? id := by
  have hline := (h.options (.line id)).trans (h'.options (.line id)).symm
  have hblock := (h.options (.block id)).trans (h'.options (.block id)).symm
  simp only [Leaf.written, Leaf.view, Place.part, Option.some.injEq] at hline hblock
  have hsome := (h.languages id).trans (h'.languages id).symm
  cases hc : c.languages.find? id with
  | none =>
    cases hc' : c'.languages.find? id with
    | none => rfl
    | some l' => exact absurd hc (hsome.mpr (by simp [hc']))
  | some l =>
    cases hc' : c'.languages.find? id with
    | none => exact absurd hc' (hsome.mp (by simp [hc]))
    | some l' =>
      rw [hc, hc'] at hline hblock
      exact congrArg some (Language.ext (ofTexts_injective hline) (ofPairs_injective hblock))

/-- **What a document gives decides the configuration.** -/
theorem Says.unique {c c' : Config} (h : Says document c) (h' : Says document c') : c = c' := by
  have hw : ∀ l : Leaf, l.written c = l.written c' := fun l => (h.options l).trans (h'.options l).symm
  have hlayouts : c.layouts = c'.layouts := by
    have henglish := hw .english
    have hchinese := hw .chinese
    simp only [Leaf.written, Leaf.view, Place.part, Option.some.injEq, Toml.string.injEq]
      at henglish hchinese
    exact Layouts.ext henglish hchinese
  have hclassifier : c.classifier = c'.classifier := by
    have hlookback := hw .lookbackLines
    simp only [Leaf.written, Leaf.view, Place.part, Option.some.injEq, Toml.integer.injEq,
      Int.natCast_inj] at hlookback
    exact Classifier.ext hlookback
  have hdispatch : c.dispatch = c'.dispatch := by
    have henabled := hw .enabled
    have hdebounce := hw .debounceMs
    have hexcluded := hw .excludedLanguages
    simp only [Leaf.written, Leaf.view, Place.part, Option.some.injEq, Toml.integer.injEq,
      Int.natCast_inj, Toml.boolean.injEq] at henabled hdebounce hexcluded
    exact Dispatch.ext henabled hdebounce (ofTexts_injective hexcluded)
  have hagent : c.agent = c'.agent := by
    have hmode := hw .agentMode
    have hroot := hw .projectRoot
    have hbundle := hw .bundleDir
    have hpath := hw .agentPath
    have hargs := hw .agentArgs
    simp only [Leaf.written, Leaf.view, Place.part, Option.some.injEq, Toml.string.injEq] at hmode hargs
    exact Agent.ext (AgentMode.name_injective hmode) (map_string_injective hroot)
      (map_string_injective hbundle) (map_string_injective hpath) (ofTexts_injective hargs)
  exact Config.ext hlayouts hclassifier hdispatch hagent
    (Keyed.eq_of_find? h.sorted h'.sorted (h.find?_congr h'))

/-- **A foreign value** makes its document no configuration. -/
theorem ofToml?_eq_none {v : Toml} {l : Leaf} (hat : document.at? l.keys = some v)
    (hforeign : l.kind.Foreign v) : ofToml? document = none := by
  rw [l.at?_keys] at hat
  obtain ⟨w, hplace, hname⟩ := Option.bind_eq_some_iff.mp hat
  refine l.place.isPart.refused hplace (l.reads.decode_eq_none hname ?_ _)
  rw [hforeign.read_eq_none, Option.map_none]

end

/-! ### Files -/

theorem load_of_textOf (path : String) {bytes : List UInt8} {text : List Char}
    (htext : DiskFault.textOf bytes = .ok text) {document : Toml}
    (hread : Toml.read text = some document) :
    load path (.ok bytes) = .ok (loadText path text) ∧
      (∀ c, ofToml? document = some c →
        (loadText path text).source = some path ∧ (loadText path text).config = c) ∧
      (ofToml? document = none →
        (loadText path text).source = none ∧ (loadText path text).config = {}) := by
  have hparse : parse? text = ofToml? document := by
    rw [parse?, hread, Option.bind_some]
  refine ⟨by rw [load, htext]; rfl, fun c hc => ?_, fun hnone => ?_⟩
  · rw [loadText, hparse, hc]
    exact ⟨rfl, rfl⟩
  · rw [loadText, hparse, hnone]
    exact ⟨rfl, rfl⟩

theorem sorted_loadText (path : String) (text : List Char) :
    (loadText path text).config.languages.keys.Pairwise (· < ·) := by
  rw [loadText]
  split
  · next c hparse =>
    obtain ⟨document, hread, hc⟩ := Option.bind_eq_some_iff.mp hparse
    exact (keys_languages_of_ofToml? (Toml.isTable_of_read hread) (Toml.distinctKeys_read hread) hc).1
  · exact List.Pairwise.nil

/-- **Whatever is loaded**, no language comes twice in it, and they stand in their order. -/
theorem sorted_load {path : String} {contents : Except DiskFault (List UInt8)} {loaded : Loaded}
    (h : load path contents = .ok loaded) : loaded.config.languages.keys.Pairwise (· < ·) := by
  cases contents with
  | ok bytes =>
    rw [load] at h
    cases htext : DiskFault.textOf bytes with
    | ok text =>
      rw [htext] at h
      cases h
      exact sorted_loadText path text
    | error fault =>
      rw [htext] at h
      cases h
  | error fault =>
    cases fault with
    | missing =>
      cases h
      exact List.Pairwise.nil
    | _ => cases h

/-- **A configuration file applies completely or not at all.**  From a file with a well-typed document,
whose numbers are within range, a configuration is loaded that says what the document gives and names
the file as its source; a single option with a foreign value, and the file is passed over as a whole. -/
theorem load_allOrNothing (path : String) {bytes : List UInt8} {text : List Char}
    (htext : DiskFault.textOf bytes = .ok text) {document : Toml}
    (hread : Toml.read text = some document) :
    (document.passable = true → WellTyped document → ∃ loaded, load path (.ok bytes) = .ok loaded ∧
      loaded.source = some path ∧ Says document loaded.config) ∧
    ∀ (l : Leaf) v, document.at? l.keys = some v → l.kind.Foreign v → ∃ loaded,
      load path (.ok bytes) = .ok loaded ∧ loaded.source = none ∧ loaded.config = {} := by
  obtain ⟨hload, hsome, hnone⟩ := load_of_textOf path htext hread
  have htable := Toml.isTable_of_read hread
  have hkeys := Toml.distinctKeys_read hread
  refine ⟨fun hpass htyped => ?_, fun l v hat hforeign => ?_⟩
  · obtain ⟨c, hc⟩ := exists_ofToml? htable hkeys hpass htyped
    obtain ⟨hsource, hconfig⟩ := hsome c hc
    rw [← hconfig] at hc
    exact ⟨_, hload, hsource, says_of_ofToml? htable hkeys htyped hc⟩
  · obtain ⟨hsource, hconfig⟩ := hnone (ofToml?_eq_none hat hforeign)
    exact ⟨_, hload, hsource, hconfig⟩

/-- A file with a language between two sections, and with unknown keys. -/
def mixedText : List Char :=
  "agent.mode=\"production\"\n[languages.lua]\nblock=[[\"<\",\">\"]]\nx=1993-07-28\n[dispatch]\ny.z=-7\ndebounce_ms=0".toList

/-- The same file with a negative time of rest. -/
def spoiledText : List Char :=
  mixedText.dropLast ++ ['-', '1']

/-- The document of the file, with a time of rest. -/
def mixedDocument (rest : Int) : Toml :=
  .table [("agent", .table [("mode", .string "production")]),
    ("languages", .table [("lua", .table [("block", ofPairs [("<", ">")]), ("x", .moment)])]),
    ("dispatch", .table [("y", .table [("z", .integer (-7))]), ("debounce_ms", .integer rest)])]

theorem read_mixedText : Toml.read mixedText = some (mixedDocument 0) := by
  cbv

theorem read_spoiledText : Toml.read spoiledText = some (mixedDocument (-1)) := by
  cbv

theorem at?_mixedDocument_of_ne {id : String} (h : "lua" ≠ id) (rest : Int) (keys : List String) :
    (mixedDocument rest).at? ("languages" :: id :: keys) = none := by
  simp [mixedDocument, Toml.at?, Keyed.findIn, h]

theorem wellTyped_mixedDocument : WellTyped (mixedDocument 0) where
  places p v hat := by
    cases p with
    | layouts | classifier => cases hat
    | dispatch | agent =>
      cases hat
      exact ⟨_, rfl⟩
    | language id =>
      by_cases hid : "lua" = id
      · subst hid
        cases hat
        exact ⟨_, rfl⟩
      · cases hat.symm.trans (at?_mixedDocument_of_ne hid 0 [])
  languages v hat := by
    cases hat
    exact ⟨_, rfl⟩
  options l v hat := by
    cases l with
    | agentMode =>
      cases hat
      exact .mode .production
    | debounceMs =>
      cases hat
      exact .count 0 (by decide)
    | line id =>
      by_cases hid : "lua" = id
      · subst hid
        cases hat
      · cases hat.symm.trans (at?_mixedDocument_of_ne hid 0 ["line"])
    | block id =>
      by_cases hid : "lua" = id
      · subst hid
        cases hat
        exact .pairs [("<", ">")]
      · cases hat.symm.trans (at?_mixedDocument_of_ne hid 0 ["block"])
    | _ => cases hat

/-- The file applies, and with a negative time of rest it is passed over. -/
theorem load_mixedText :
    (∃ loaded, load "als.toml" (.ok (Text.Utf8.encode mixedText)) = .ok loaded ∧
      loaded.source = some "als.toml" ∧ Says (mixedDocument 0) loaded.config) ∧
    ∃ loaded, load "als.toml" (.ok (Text.Utf8.encode spoiledText)) = .ok loaded ∧
      loaded.source = none ∧ loaded.config = {} :=
  ⟨(load_allOrNothing "als.toml" (DiskFault.textOf_encode _) read_mixedText).1 rfl wellTyped_mixedDocument,
    (load_allOrNothing "als.toml" (DiskFault.textOf_encode _) read_spoiledText).2 .debounceMs
      (.integer (-1)) rfl (.negative (by decide))⟩

end CaretLayout.Config
