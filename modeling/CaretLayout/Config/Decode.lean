import CaretLayout.Config.Options
import CaretLayout.Toml.Decode
import CaretLayout.Toml.Document

/-!
# Configuration files

A configuration file is a TOML document.  It applies as a whole or not at all: one option with a
value of a wrong type makes the whole file unusable.  Options that are not known are passed over.
-/

namespace CaretLayout.Config

/-- The options of the section `layouts`. -/
def layoutsDecoder : Toml.RecordDecoder Layouts := [
  ⟨"english", fun l v => v.string?.map fun s => { l with english := s }⟩,
  ⟨"chinese", fun l v => v.string?.map fun s => { l with chinese := s }⟩]

/-- The options of the section `classifier`. -/
def classifierDecoder : Toml.RecordDecoder Classifier := [
  ⟨"lookback_lines", fun c v => v.word?.map fun n => { c with lookbackLines := n }⟩]

/-- The options of the section `dispatch`. -/
def dispatchDecoder : Toml.RecordDecoder Dispatch := [
  ⟨"enabled", fun d v => v.boolean?.map fun b => { d with enabled := b }⟩,
  ⟨"debounce_ms", fun d v => v.word?.map fun n => { d with debounceMs := n }⟩,
  ⟨"excluded_languages", fun d v => v.strings?.map fun l => { d with excludedLanguages := l }⟩]

/-- The options of the section `agent`. -/
def agentDecoder : Toml.RecordDecoder Agent := [
  ⟨"mode", fun a v => (v.variant?.bind AgentMode.ofName?).map fun m => { a with mode := m }⟩,
  ⟨"project_root", fun a v => v.string?.map fun s => { a with projectRoot := some s }⟩,
  ⟨"bundle_dir", fun a v => v.string?.map fun s => { a with bundleDir := some s }⟩,
  ⟨"path", fun a v => v.string?.map fun s => { a with path := some s }⟩,
  ⟨"args", fun a v => v.strings?.map fun l => { a with args := l }⟩]

/-- The options of a language. -/
def languageDecoder : Toml.RecordDecoder Language := [
  ⟨"line", fun r v => v.strings?.map fun l => { r with line := l }⟩,
  ⟨"block", fun r v => v.pairs?.map fun l => { r with block := l }⟩]

/-- The languages of a table, sorted by their identifiers. -/
def languages? : Toml → Option (Keyed Language)
  | .table entries => do
    let languages ← entries.mapM fun e => (languageDecoder.decode {} e.2).map fun r => (e.1, r)
    return ⟨languages.mergeSort (fun a b => decide (a.1 ≤ b.1))⟩
  | _ => none

/-- The sections of a configuration. -/
def decoder : Toml.RecordDecoder Config := [
  ⟨"layouts", fun c v => (layoutsDecoder.decode {} v).map fun s => { c with layouts := s }⟩,
  ⟨"classifier", fun c v => (classifierDecoder.decode {} v).map fun s => { c with classifier := s }⟩,
  ⟨"dispatch", fun c v => (dispatchDecoder.decode {} v).map fun s => { c with dispatch := s }⟩,
  ⟨"agent", fun c v => (agentDecoder.decode {} v).map fun s => { c with agent := s }⟩,
  ⟨"languages", fun c v => (languages? v).map fun l => { c with languages := l }⟩]

/-- The configuration that a document stands for. -/
def ofToml? (document : Toml) : Option Config :=
  decoder.decode {} document

/-- The configuration that a text stands for. -/
def parse? (text : List Char) : Option Config :=
  (Toml.read text).bind ofToml?

end CaretLayout.Config
