import CaretLayout.Config.Decode
import CaretLayout.Proofs.Toml.Decode

/-!
# Options and where they are read

The options of a configuration are its leaves (`Leaf`).  Each stands in one place of a document, a table
that is decoded into one part of the configuration (`Place.isPart`): a section, or a language of the section
`languages`.  There the option is read by itself (`Leaf.reads`), and whatever is known there is an option
(`Place.exists_leaf`).
-/

namespace CaretLayout.Config

open Toml (RecordDecoder)

/-! ### Options -/

/-- The kinds of options. -/
inductive Kind where
  | text
  | count
  | flag
  | mode
  | texts
  | pairs

/-- Texts as they are written. -/
def ofTexts (l : List String) : Toml :=
  .array (l.map .string)

/-- Pairs of texts as they are written. -/
def ofPairs (l : List (String × String)) : Toml :=
  .array (l.map fun p => .array [.string p.1, .string p.2])

/-- That a value is one of a kind of options. -/
inductive Kind.Takes : Kind → Toml → Prop
  | text (s : String) : Takes .text (.string s)
  | count (n : Nat) : n < 2 ^ 63 → Takes .count (.integer n)
  | flag (b : Bool) : Takes .flag (.boolean b)
  | mode (m : AgentMode) : Takes .mode (.string m.name)
  | texts (l : List String) : Takes .texts (ofTexts l)
  | pairs (l : List (String × String)) : Takes .pairs (ofPairs l)

/-- That a boolean, an integer or a string is not for a kind of options. -/
inductive Kind.Foreign : Kind → Toml → Prop
  | boolean {k : Kind} (b : Bool) : k ≠ .flag → Foreign k (.boolean b)
  | integer {k : Kind} (i : Int) : k ≠ .count → Foreign k (.integer i)
  | string {k : Kind} (s : String) : k ≠ .text → k ≠ .mode → Foreign k (.string s)
  | negative {i : Int} : i < 0 → Foreign .count (.integer i)
  | unknownMode {s : String} : (∀ m : AgentMode, m.name ≠ s) → Foreign .mode (.string s)

/-- What is read for an option, as it is written. -/
def Kind.read : Kind → Toml → Option Toml
  | .text, v => v.string?.map .string
  | .count, v => v.word?.map fun (n : Nat) => .integer n
  | .flag, v => v.boolean?.map .boolean
  | .mode, v => (v.variant?.bind AgentMode.ofName?).map fun m => .string m.name
  | .texts, v => v.strings?.map ofTexts
  | .pairs, v => v.pairs?.map ofPairs

/-! ### Places -/

/-- The tables of a document that have options. -/
inductive Place where
  | layouts
  | classifier
  | dispatch
  | agent
  | language (id : String)

namespace Place

/-- The keys that lead to a table. -/
def keys : Place → List String
  | layouts => ["layouts"]
  | classifier => ["classifier"]
  | dispatch => ["dispatch"]
  | agent => ["agent"]
  | language id => ["languages", id]

/-- What a table is decoded into. -/
abbrev Part : Place → Type
  | layouts => Layouts
  | classifier => Classifier
  | dispatch => Dispatch
  | agent => Agent
  | language _ => Language

def decoder : (p : Place) → RecordDecoder p.Part
  | layouts => layoutsDecoder
  | classifier => classifierDecoder
  | dispatch => dispatchDecoder
  | agent => agentDecoder
  | language _ => languageDecoder

/-- The part of a configuration that comes from a table; a language that is not configured says nothing. -/
def part : (p : Place) → Config → p.Part
  | layouts, c => c.layouts
  | classifier, c => c.classifier
  | dispatch, c => c.dispatch
  | agent, c => c.agent
  | language id, c => (c.languages.find? id).getD {}

end Place

/-- The options of a configuration. -/
inductive Leaf where
  | english
  | chinese
  | lookbackLines
  | enabled
  | debounceMs
  | excludedLanguages
  | agentMode
  | projectRoot
  | bundleDir
  | agentPath
  | agentArgs
  | line (id : String)
  | block (id : String)

namespace Leaf

def kind : Leaf → Kind
  | english | chinese | projectRoot | bundleDir | agentPath => .text
  | lookbackLines | debounceMs => .count
  | enabled => .flag
  | agentMode => .mode
  | excludedLanguages | agentArgs | line _ => .texts
  | block _ => .pairs

abbrev place : Leaf → Place
  | english | chinese => .layouts
  | lookbackLines => .classifier
  | enabled | debounceMs | excludedLanguages => .dispatch
  | agentMode | projectRoot | bundleDir | agentPath | agentArgs => .agent
  | line id | block id => .language id

def name : Leaf → String
  | english => "english"
  | chinese => "chinese"
  | lookbackLines => "lookback_lines"
  | enabled => "enabled"
  | debounceMs => "debounce_ms"
  | excludedLanguages => "excluded_languages"
  | agentMode => "mode"
  | projectRoot => "project_root"
  | bundleDir => "bundle_dir"
  | agentPath => "path"
  | agentArgs => "args"
  | line _ => "line"
  | block _ => "block"

/-- The value of an option in its part of a configuration, as it is written. -/
def view : (l : Leaf) → l.place.Part → Option Toml
  | english, (s : Layouts) => some (.string s.english)
  | chinese, (s : Layouts) => some (.string s.chinese)
  | lookbackLines, (s : Classifier) => some (.integer s.lookbackLines)
  | enabled, (s : Dispatch) => some (.boolean s.enabled)
  | debounceMs, (s : Dispatch) => some (.integer s.debounceMs)
  | excludedLanguages, (s : Dispatch) => some (ofTexts s.excludedLanguages)
  | agentMode, (s : Agent) => some (.string s.mode.name)
  | projectRoot, (s : Agent) => s.projectRoot.map .string
  | bundleDir, (s : Agent) => s.bundleDir.map .string
  | agentPath, (s : Agent) => s.path.map .string
  | agentArgs, (s : Agent) => some (ofTexts s.args)
  | line _, (s : Language) => some (ofTexts s.line)
  | block _, (s : Language) => some (ofPairs s.block)

/-- The keys that lead to an option in a document. -/
def keys (l : Leaf) : List String :=
  l.place.keys ++ [l.name]

/-- The value of an option in a configuration, as it is written. -/
def written (c : Config) (l : Leaf) : Option Toml :=
  l.view (l.place.part c)

end Leaf

/-- Items that are read as they were written are all read. -/
theorem mapM_map_eq_some {α β : Type} (read : α → Option β) (write : β → α)
    (h : ∀ b, read (write b) = some b) : ∀ l : List β, (l.map write).mapM read = some l
  | [] => rfl
  | b :: l => by
    rw [List.map_cons, List.mapM_cons, h, mapM_map_eq_some read write h l]
    rfl

theorem strings?_ofTexts (l : List String) : (ofTexts l).strings? = some l :=
  mapM_map_eq_some Toml.string? .string (fun _ => rfl) l

theorem pairs?_ofPairs (l : List (String × String)) : (ofPairs l).pairs? = some l :=
  mapM_map_eq_some Toml.pair? (fun p => .array [.string p.1, .string p.2]) (fun _ => rfl) l

theorem ofTexts_injective {l l' : List String} (h : ofTexts l = ofTexts l') : l = l' := by
  rw [← Option.some.injEq, ← strings?_ofTexts, h, strings?_ofTexts]

theorem ofPairs_injective {l l' : List (String × String)} (h : ofPairs l = ofPairs l') : l = l' := by
  rw [← Option.some.injEq, ← pairs?_ofPairs, h, pairs?_ofPairs]

theorem AgentMode.ofName?_name (m : AgentMode) : AgentMode.ofName? m.name = some m := by
  cases m <;> decide

theorem AgentMode.name_injective {m m' : AgentMode} (h : m.name = m'.name) : m = m' := by
  rw [← Option.some.injEq, ← ofName?_name, h, ofName?_name]

theorem AgentMode.ofName?_eq_none {s : String} (h : ∀ m : AgentMode, m.name ≠ s) :
    AgentMode.ofName? s = none := by
  simp [AgentMode.ofName?, h]

/-- A value of the kind is read as it is written. -/
theorem Kind.Takes.read_eq {k : Kind} {v : Toml} (h : k.Takes v) : k.read v = some v := by
  cases h with
  | text | flag => rfl
  | count n hn =>
    have hword : (0 : Int) ≤ n ∧ (n : Int).toNat < Nat.pow 2 64 := by
      refine ⟨Int.natCast_nonneg n, ?_⟩
      rw [Int.toNat_natCast]
      exact Nat.lt_trans hn (by decide)
    rw [Kind.read, Toml.word?, if_pos hword, Int.toNat_natCast, Option.map_some]
  | mode m =>
    rw [Kind.read, Toml.variant?, Option.bind_some, AgentMode.ofName?_name, Option.map_some]
  | texts l => rw [Kind.read, strings?_ofTexts, Option.map_some]
  | pairs l => rw [Kind.read, pairs?_ofPairs, Option.map_some]

theorem Kind.Foreign.read_eq_none {k : Kind} {v : Toml} (h : k.Foreign v) : k.read v = none := by
  cases h with
  | boolean b hk => cases k <;> first | rfl | exact absurd rfl hk
  | integer i hk => cases k <;> first | rfl | exact absurd rfl hk
  | string s htext hmode => cases k <;> first | rfl | exact absurd rfl htext | exact absurd rfl hmode
  | negative hi =>
    rw [Kind.read, Toml.word?, if_neg fun h => absurd h.1 (Int.not_le.mpr hi), Option.map_none]
  | unknownMode hs =>
    rw [Kind.read, Toml.variant?, Option.bind_some, AgentMode.ofName?_eq_none hs, Option.map_none]

/-! ### Documents -/

/-- **That a document is well typed**: the sections and languages that it gives are tables, and the options
that it gives have values of their kinds.  Whatever else stands there does not matter. -/
structure WellTyped (document : Toml) : Prop where
  places : ∀ (p : Place) v, document.at? p.keys = some v → v.IsTable
  languages : ∀ v, document.at? ["languages"] = some v → v.IsTable
  options : ∀ (l : Leaf) v, document.at? l.keys = some v → l.kind.Takes v

/-- **That a table of a document is decoded into a part of the configuration.** -/
structure IsPart {σ : Type} (front : List String) (d : RecordDecoder σ) (part : Config → σ) : Prop where
  decoded : ∀ {document : Toml} {c : Config}, document.IsTable → document.DistinctKeys →
    ofToml? document = some c →
    (document.at? front = none ∧ part c = part {}) ∨
      ∃ v, document.at? front = some v ∧ d.decode (part {}) v = some (part c)
  refused : ∀ {document v : Toml}, document.at? front = some v → d.decode (part {}) v = none →
    ofToml? document = none

theorem isPart_section {σ : Type} {name : String} {d : RecordDecoder σ} {part : Config → σ}
    (h : decoder.Reads name (d.decode (part {})) part) : IsPart [name] d part where
  decoded htable hkeys hc := h.view_decode hkeys htable hc
  refused hat hnone := h.decode_eq_none hat hnone {}

theorem reads_languages : decoder.Reads "languages" languages? (·.languages) := by
  constructor <;> simp +contextual [decoder, Function.comp_def]

/-- The languages of a table are its keys in their order, each with what its value is decoded into. -/
theorem languages?_eq_some {entries : List (String × Toml)} (hnodup : (entries.map (·.1)).Nodup)
    {m : Keyed Language} (h : languages? (.table entries) = some m) :
    m.keys.Perm (entries.map (·.1)) ∧ m.keys.Pairwise (· < ·) ∧
      ∀ id, m.find? id = (Keyed.findIn id entries).bind (languageDecoder.decode {}) := by
  obtain ⟨l, hl, heq⟩ := Option.bind_eq_some_iff.mp h
  cases heq
  obtain ⟨hkeys, hfind⟩ := Keyed.findIn_of_mapM hl
  have hperm := List.mergeSort_perm l fun a b => decide (a.1 ≤ b.1)
  rw [← hkeys] at hnodup ⊢
  refine ⟨hperm.map Prod.fst, Keyed.pairwise_lt_mergeSort Prod.fst hnodup, fun id => ?_⟩
  rw [← hfind]
  exact Keyed.findIn_of_perm hperm.symm hnodup id

theorem languages?_eq_none {entries : List (String × Toml)} {id : String} {v : Toml}
    (hentry : Keyed.findIn id entries = some v) (hv : languageDecoder.decode {} v = none) :
    languages? (.table entries) = none := by
  rw [← Option.not_isSome_iff_eq_none, Option.isSome_iff_exists]
  rintro ⟨m, h⟩
  obtain ⟨l, hl, -⟩ := Option.bind_eq_some_iff.mp h
  obtain ⟨hkeys, hfind⟩ := Keyed.findIn_of_mapM hl
  have hmem : id ∈ entries.map (·.1) := (Keyed.mem_map_fst_iff id entries).mpr (by simp [hentry])
  rw [← hkeys, Keyed.mem_map_fst_iff, hfind, hentry] at hmem
  exact hmem hv

theorem at?_language (document : Toml) (id : String) :
    document.at? ["languages", id] = (document.at? ["languages"]).bind (Toml.at? [id]) :=
  Toml.at?_append ["languages"] [id] document

theorem isPart_language (id : String) :
    IsPart ["languages", id] languageDecoder fun c => (c.languages.find? id).getD {} where
  decoded htable hkeys hc := by
    rw [at?_language]
    rcases reads_languages.view_decode hkeys htable hc with ⟨hnone, hview⟩ | ⟨v, hat, hv⟩
    · rw [hnone, hview]
      exact Or.inl ⟨rfl, rfl⟩
    · cases v with
      | table entries =>
        have hnodup := (Toml.distinctKeys_table_iff.mp (hkeys.at? hat)).1
        obtain ⟨-, -, hfind⟩ := languages?_eq_some hnodup hv
        rw [hat, Option.bind_some, Toml.at?_singleton, hfind]
        cases hentry : Keyed.findIn id entries with
        | none => exact Or.inl ⟨rfl, rfl⟩
        | some w =>
          cases hdecode : languageDecoder.decode {} w with
          | some l =>
            rw [Option.bind_some, hdecode]
            exact Or.inr ⟨w, rfl, hdecode⟩
          | none =>
            rw [languages?_eq_none hentry hdecode] at hv
            cases hv
      | _ => cases hv
  refused hat hnone := by
    rw [at?_language] at hat
    obtain ⟨v, hlanguages, hid⟩ := Option.bind_eq_some_iff.mp hat
    obtain ⟨entries, w, rfl, hentry, hw⟩ := Toml.at?_cons_eq_some hid
    cases hw
    exact reads_languages.decode_eq_none hlanguages (languages?_eq_none hentry hnone) {}

/-- **Every place is decoded into its part.** -/
theorem Place.isPart (p : Place) : IsPart p.keys p.decoder p.part := by
  cases p with
  | language id => exact isPart_language id
  | _ =>
    refine isPart_section ?_
    constructor <;> simp +contextual [Config.decoder, part, decoder, Function.comp_def]

/-! ### Where options are read -/

theorem forall_stored_iff {α σ : Type} {o : Option α} {set : α → σ} {P : σ → Prop} :
    (∀ record, o.map set = some record → P record) ↔ ∀ a, o = some a → P (set a) := by
  cases o <;> simp

/-- **Every option is read by itself** in its place. -/
theorem Leaf.reads (l : Leaf) :
    l.place.decoder.Reads l.name (fun v => (l.kind.read v).map some) l.view := by
  cases l <;> constructor <;> simp +contextual [place, Place.decoder, layoutsDecoder, classifierDecoder,
    dispatchDecoder, agentDecoder, languageDecoder, name, view, kind, Kind.read, Function.comp_def,
    forall_stored_iff, -Option.map_bind, -Option.map_eq_some_iff]

/-- **Whatever is known in a place** is an option. -/
theorem Place.exists_leaf (p : Place) : ∀ f ∈ p.decoder, ∃ l : Leaf, l.place = p ∧ l.name = f.name := by
  cases p with
  | layouts =>
    simp only [decoder, layoutsDecoder, List.forall_mem_cons]
    exact ⟨⟨.english, rfl, rfl⟩, ⟨.chinese, rfl, rfl⟩, List.forall_mem_nil _⟩
  | classifier =>
    simp only [decoder, classifierDecoder, List.forall_mem_cons]
    exact ⟨⟨.lookbackLines, rfl, rfl⟩, List.forall_mem_nil _⟩
  | dispatch =>
    simp only [decoder, dispatchDecoder, List.forall_mem_cons]
    exact ⟨⟨.enabled, rfl, rfl⟩, ⟨.debounceMs, rfl, rfl⟩, ⟨.excludedLanguages, rfl, rfl⟩,
      List.forall_mem_nil _⟩
  | agent =>
    simp only [decoder, agentDecoder, List.forall_mem_cons]
    exact ⟨⟨.agentMode, rfl, rfl⟩, ⟨.projectRoot, rfl, rfl⟩, ⟨.bundleDir, rfl, rfl⟩,
      ⟨.agentPath, rfl, rfl⟩, ⟨.agentArgs, rfl, rfl⟩, List.forall_mem_nil _⟩
  | language id =>
    simp only [decoder, languageDecoder, List.forall_mem_cons]
    exact ⟨⟨.line id, rfl, rfl⟩, ⟨.block id, rfl, rfl⟩, List.forall_mem_nil _⟩

end CaretLayout.Config
