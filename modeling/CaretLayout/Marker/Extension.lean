/-!
# Languages by file extension

The language that a file extension stands for.  Extensions are compared without regard to the case
of ASCII letters.
-/

namespace CaretLayout.Extension

/-- Extensions in lower case, with the language that they stand for. -/
def known : List (List String × String) := [
  (["c", "h"], "c"),
  (["cc", "cpp", "cxx", "hpp", "hh", "hxx"], "cpp"),
  (["cu"], "cuda-cpp"),
  (["cs"], "csharp"),
  (["java"], "java"),
  (["js", "mjs", "cjs"], "javascript"),
  (["jsx"], "javascriptreact"),
  (["ts", "mts", "cts"], "typescript"),
  (["tsx"], "typescriptreact"),
  (["go"], "go"),
  (["rs"], "rust"),
  (["swift"], "swift"),
  (["kt", "kts"], "kotlin"),
  (["scala", "sc"], "scala"),
  (["dart"], "dart"),
  (["groovy", "gradle"], "groovy"),
  (["m"], "objective-c"),
  (["mm"], "objective-cpp"),
  (["jsonc"], "jsonc"),
  (["less"], "less"),
  (["scss"], "scss"),
  (["proto"], "proto3"),
  (["sol"], "solidity"),
  (["zig"], "zig"),
  (["php"], "php"),
  (["css"], "css"),
  (["py", "pyi", "pyw"], "python"),
  (["pyx"], "cython"),
  (["rb"], "ruby"),
  (["pl", "pm"], "perl"),
  (["sh", "bash", "zsh"], "shellscript"),
  (["yml", "yaml"], "yaml"),
  (["toml"], "toml"),
  (["mk"], "makefile"),
  (["r"], "r"),
  (["graphql", "gql"], "graphql"),
  (["ex", "exs"], "elixir"),
  (["coffee"], "coffeescript"),
  (["jl"], "julia"),
  (["nim"], "nim"),
  (["ps1", "psm1"], "powershell"),
  (["cmake"], "cmake"),
  (["tf", "hcl"], "terraform"),
  (["nix"], "nix"),
  (["lua"], "lua"),
  (["sql"], "sql"),
  (["hs"], "haskell"),
  (["elm"], "elm"),
  (["adb", "ads"], "ada"),
  (["html", "htm"], "html"),
  (["xml"], "xml"),
  (["svg"], "svg"),
  (["vue"], "vue"),
  (["svelte"], "svelte"),
  (["md", "markdown"], "markdown"),
  (["clj", "cljs", "edn"], "clojure"),
  (["lisp", "el"], "lisp"),
  (["scm", "ss"], "scheme"),
  (["rkt"], "racket"),
  (["asm", "s"], "asm"),
  (["ini", "cfg"], "ini"),
  (["erl", "hrl"], "erlang"),
  (["tex"], "latex"),
  (["bib"], "bibtex"),
  (["fs", "fsx"], "fsharp"),
  (["ml", "mli"], "ocaml"),
  (["pas", "pp"], "pascal"),
  (["vb"], "vb"),
  (["bat", "cmd"], "bat"),
  (["f90", "f95", "f03"], "fortran-modern"),
  (["vim"], "vim")]

/-- The text with the ASCII capitals in lower case. -/
def lowerAscii (ext : String) : String :=
  String.ofList (ext.toList.map Char.toLower)

/-- The language that an extension, given without its dot, stands for. -/
def language? (ext : String) : Option String :=
  (known.find? (fun row => row.1.contains (lowerAscii ext))).map (·.2)

end CaretLayout.Extension
