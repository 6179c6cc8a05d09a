import CaretLayout.Marker.Rule

/-!
# Known languages

The languages that are known without configuration, as data: families of language identifiers that
write comments in the same way.  Identifiers are those that editors use for their buffers.
-/

namespace CaretLayout

/-- Languages that write comments in the same way. -/
structure LanguageFamily where
  ids : List String
  lineMarkers : List String
  blockPairs : List (String × String)

namespace LanguageFamily

/-- The marker rule of the family. -/
def rule (f : LanguageFamily) : MarkerRule :=
  .ofStrings f.lineMarkers f.blockPairs

/-- The families known without configuration. -/
def known : List LanguageFamily := [
  ⟨["c", "cpp", "cuda-cpp", "csharp", "java", "javascript", "javascriptreact", "typescript",
     "typescriptreact", "go", "rust", "swift", "kotlin", "scala", "dart", "groovy",
     "objective-c", "objective-cpp", "jsonc", "less", "scss", "proto3", "solidity", "glsl",
     "hlsl", "wgsl", "verilog"], ["//"], [("/*", "*/")]⟩,
  ⟨["zig", "odin"], ["//"], []⟩,
  ⟨["php"], ["//", "#"], [("/*", "*/")]⟩,
  ⟨["css"], [], [("/*", "*/")]⟩,
  ⟨["python", "cython"], ["#"], [("\"\"\"", "\"\"\""), ("'''", "'''")]⟩,
  ⟨["ruby"], ["#"], [("=begin", "=end")]⟩,
  ⟨["perl", "raku"], ["#"], [("=pod", "=cut")]⟩,
  ⟨["shellscript", "yaml", "toml", "dockerfile", "makefile", "r", "properties", "graphql",
     "crystal", "tcl", "gitignore", "ignore"], ["#"], []⟩,
  ⟨["elixir"], ["#"], [("\"\"\"", "\"\"\"")]⟩,
  ⟨["coffeescript"], ["#"], [("###", "###")]⟩,
  ⟨["julia"], ["#"], [("#=", "=#")]⟩,
  ⟨["nim"], ["#"], [("#[", "]#")]⟩,
  ⟨["powershell"], ["#"], [("<#", "#>")]⟩,
  ⟨["cmake"], ["#"], [("#[[", "]]")]⟩,
  ⟨["terraform", "hcl"], ["#", "//"], [("/*", "*/")]⟩,
  ⟨["nix"], ["#"], [("/*", "*/")]⟩,
  ⟨["lua"], ["--"], [("--[[", "]]")]⟩,
  ⟨["sql", "plsql"], ["--"], [("/*", "*/")]⟩,
  ⟨["haskell", "elm", "purescript"], ["--"], [("\x7b-", "-\x7d")]⟩,
  ⟨["ada", "vhdl"], ["--"], []⟩,
  ⟨["html", "xml", "xsl", "svg", "vue", "svelte", "markdown"], [], [("<!--", "-->")]⟩,
  ⟨["clojure", "lisp", "scheme", "asm", "ini"], [";"], []⟩,
  ⟨["racket"], [";"], [("#|", "|#")]⟩,
  ⟨["erlang", "latex", "tex", "bibtex", "prolog"], ["%"], []⟩,
  ⟨["matlab", "octave"], ["%"], [("%\x7b", "%\x7d")]⟩,
  ⟨["fsharp"], ["//"], [("(*", "*)")]⟩,
  ⟨["ocaml"], [], [("(*", "*)")]⟩,
  ⟨["pascal", "delphi"], ["//"], [("\x7b", "\x7d"), ("(*", "*)")]⟩,
  ⟨["vb"], ["'"], []⟩,
  ⟨["bat"], ["REM", "::"], []⟩,
  ⟨["fortran", "fortran-modern"], ["!"], []⟩,
  ⟨["vim"], ["\""], []⟩]

end LanguageFamily

end CaretLayout
