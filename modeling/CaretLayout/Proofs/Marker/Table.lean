import CaretLayout.Proofs.Keyed
import CaretLayout.Proofs.Text.Utf8
import CaretLayout.Settings
import Mathlib.Data.String.Basic

/-!
# The table after overrides

The rule table is a history of stored rules, first those of the known languages and then the overrides
in their order (`rules_overridden`).  So everything that the table answers can be read off the history
(`Answers`): the last override of a language decides, and without one the family that it belongs to,
of which there is one at most (`nodup_rules`).  Tables in which every language has the same rule answer
alike (`alike_of_find?`), so overrides of different languages can change places.  A configuration is a
list of overrides (`configured_table`).
-/

namespace CaretLayout

namespace LanguageFamily

/-- The known languages with their rules. -/
def rules : List (String × MarkerRule) :=
  known.flatMap fun f => f.ids.map fun id => (id, f.rule)

theorem mem_rules_iff {id : String} {rule : MarkerRule} :
    (id, rule) ∈ rules ↔ ∃ f ∈ known, id ∈ f.ids ∧ f.rule = rule := by
  simp only [rules, List.mem_flatMap, List.mem_map, Prod.mk.injEq]
  constructor
  · rintro ⟨f, hf, id', hid, rfl, hrule⟩
    exact ⟨f, hf, hid, hrule⟩
  · rintro ⟨f, hf, hid, hrule⟩
    exact ⟨f, hf, id, hid, rfl, hrule⟩

/-- No language belongs to two families. -/
theorem nodup_rules : (rules.map (·.1)).Nodup := by
  decide +kernel

end LanguageFamily

namespace RuleTable

/-! ### The table as a history -/

/-- The table of the known languages after overrides. -/
def overridden (overrides : List (String × MarkerRule)) : RuleTable :=
  (known.overrideAll overrides).1

theorem rules_known : known.rules = Keyed.insertAll {} LanguageFamily.rules := by
  rw [known, Keyed.insertAll, LanguageFamily.rules, List.foldl_flatMap]
  simp only [List.foldl_map]
  rfl

theorem rules_overrideAll : ∀ (overrides : List (String × MarkerRule)) (t : RuleTable),
    (t.overrideAll overrides).1.rules = t.rules.insertAll overrides
  | [], _ => rfl
  | e :: rest, t => rules_overrideAll rest (t.override e.1 e.2)

theorem rules_overridden (overrides : List (String × MarkerRule)) :
    (overridden overrides).rules = Keyed.insertAll {} (LanguageFamily.rules ++ overrides) := by
  rw [overridden, rules_overrideAll, rules_known, Keyed.insertAll_append]

theorem nodup_keys_overridden (overrides : List (String × MarkerRule)) :
    (overridden overrides).rules.keys.Nodup := by
  rw [rules_overridden]
  exact Keyed.nodup_keys_insertAll _ List.nodup_nil

theorem find?_overridden_of_ne {id : String} {overrides : List (String × MarkerRule)}
    (hne : ∀ e ∈ overrides, e.1 ≠ id) :
    (overridden overrides).rules.find? id = known.rules.find? id := by
  rw [overridden, rules_overrideAll, Keyed.find?_insertAll_of_ne hne]

theorem lookup_overridden_of_last {id : String} {rule : MarkerRule}
    {before after : List (String × MarkerRule)} (hlast : ∀ e ∈ after, e.1 ≠ id) :
    (overridden (before ++ (id, rule) :: after)).lookup id = rule := by
  rw [lookup, rules_overridden, ← List.append_assoc, Keyed.find?_insertAll_of_last hlast]
  rfl

/-- A known language has the rule of its family. -/
theorem lookup_known {f : LanguageFamily} (hf : f ∈ LanguageFamily.known) {id : String}
    (hid : id ∈ f.ids) : known.lookup id = f.rule := by
  have hmem : (id, f.rule) ∈ LanguageFamily.rules :=
    LanguageFamily.mem_rules_iff.mpr ⟨f, hf, hid, rfl⟩
  rw [lookup, rules_known, Keyed.find?_insertAll_of_mem LanguageFamily.nodup_rules hmem]
  rfl

theorem contains_iff_find?_ne_none (t : RuleTable) (id : String) :
    t.contains id = true ↔ t.rules.find? id ≠ none := by
  rw [contains, Keyed.contains, Option.isSome_iff_ne_none]

theorem contains_overridden_iff (overrides : List (String × MarkerRule)) (id : String) :
    (overridden overrides).contains id = true ↔
      (∃ f ∈ LanguageFamily.known, id ∈ f.ids) ∨ ∃ e ∈ overrides, e.1 = id := by
  have hknown : (∃ e ∈ LanguageFamily.rules, e.1 = id) ↔
      ∃ f ∈ LanguageFamily.known, id ∈ f.ids := by
    constructor
    · rintro ⟨⟨_, rule⟩, he, rfl⟩
      obtain ⟨f, hf, hid, -⟩ := LanguageFamily.mem_rules_iff.mp he
      exact ⟨f, hf, hid⟩
    · rintro ⟨f, hf, hid⟩
      exact ⟨_, LanguageFamily.mem_rules_iff.mpr ⟨f, hf, hid, rfl⟩, rfl⟩
  have hempty : ¬ ({} : Keyed MarkerRule).find? id ≠ none := fun h => h rfl
  rw [contains_iff_find?_ne_none, rules_overridden, Keyed.find?_insertAll_ne_none_iff,
    or_iff_right hempty, ← hknown]
  simp only [List.mem_append, or_and_right, exists_or]

/-- A language without a rule of its own has the fallback rule. -/
theorem lookup_of_not_contains {t : RuleTable} {id : String} (h : ¬ t.contains id = true) :
    t.lookup id = .slashes := by
  rw [contains_iff_find?_ne_none, not_not] at h
  rw [lookup, h]
  rfl

/-! ### The languages of a table -/

theorem mem_languages_iff (t : RuleTable) (id : String) :
    id ∈ t.languages ↔ t.contains id = true := by
  rw [languages, List.mem_mergeSort, Keyed.mem_keys_iff, contains_iff_find?_ne_none]

theorem pairwise_languages {t : RuleTable} (h : t.rules.keys.Nodup) :
    t.languages.Pairwise (· < ·) := by
  rw [← List.map_id t.rules.keys] at h
  have hsorted := Keyed.pairwise_lt_mergeSort id h
  rwa [List.map_id] at hsorted

theorem length_languages (t : RuleTable) : t.languages.length = t.size := by
  rw [languages, List.length_mergeSort, Keyed.keys, List.length_map]
  rfl

/-! ### Tables that answer alike -/

/-- That two tables give the same answers. -/
structure Alike (t u : RuleTable) : Prop where
  lookup : ∀ id, t.lookup id = u.lookup id
  contains : ∀ id, t.contains id = u.contains id
  languages : t.languages = u.languages
  size : t.size = u.size

/-- Tables answer alike if every language has the same rule in both. -/
theorem alike_of_find? {t u : RuleTable} (ht : t.rules.keys.Nodup) (hu : u.rules.keys.Nodup)
    (h : ∀ id, t.rules.find? id = u.rules.find? id) : Alike t u := by
  have hcontains : ∀ id, t.contains id = u.contains id := fun id =>
    congrArg Option.isSome (h id)
  have hperm : t.languages.Perm u.languages := by
    refine (List.perm_ext_iff_of_nodup ?_ ?_).mpr fun id => ?_
    · exact (pairwise_languages ht).imp ne_of_lt
    · exact (pairwise_languages hu).imp ne_of_lt
    · rw [mem_languages_iff, mem_languages_iff, hcontains]
  refine ⟨fun id => congrArg (Option.getD · fallback) (h id), hcontains, ?_, ?_⟩
  · exact hperm.eq_of_pairwise (fun a b _ _ hab hba => absurd hab (not_lt_of_gt hba))
      (pairwise_languages ht) (pairwise_languages hu)
  · rw [← length_languages, ← length_languages, hperm.length_eq]

/-- Overrides of different languages can change places. -/
theorem alike_overridden_swap {a b : String × MarkerRule} (hne : a.1 ≠ b.1)
    (before after : List (String × MarkerRule)) :
    Alike (overridden (before ++ a :: b :: after)) (overridden (before ++ b :: a :: after)) := by
  refine alike_of_find? (nodup_keys_overridden _) (nodup_keys_overridden _) fun id => ?_
  rw [overridden, overridden, rules_overrideAll, rules_overrideAll, Keyed.insertAll_append,
    Keyed.insertAll_append]
  refine Keyed.find?_insertAll_congr after (fun key => ?_) id
  rw [Keyed.find?_insert, Keyed.find?_insert, Keyed.find?_insert, Keyed.find?_insert]
  by_cases ha : a.1 = key
  · rw [if_pos ha, if_pos ha, if_neg fun hb => hne (ha.trans hb.symm)]
  · rw [if_neg ha, if_neg ha]

/-! ### The answers of a table -/

/-- That a table of the known languages gives the answers of its overrides. -/
structure Answers (overrides : List (String × MarkerRule)) (t : RuleTable) : Prop where
  /-- The last override of a language decides. -/
  lookup_last : ∀ before id rule after, overrides = before ++ (id, rule) :: after →
    (∀ e ∈ after, e.1 ≠ id) → t.lookup id = rule
  /-- A known language without an override has the rule of its family. -/
  lookup_known : ∀ f ∈ LanguageFamily.known, ∀ id ∈ f.ids, (∀ e ∈ overrides, e.1 ≠ id) →
    t.lookup id = f.rule
  /-- Every other language is written with slashes, whatever the overrides are. -/
  lookup_other : ∀ id, (∀ f ∈ LanguageFamily.known, id ∉ f.ids) → (∀ e ∈ overrides, e.1 ≠ id) →
    t.lookup id = .slashes
  contains_iff : ∀ id, t.contains id = true ↔
    (∃ f ∈ LanguageFamily.known, id ∈ f.ids) ∨ ∃ e ∈ overrides, e.1 = id
  /-- The languages stand in the order of their bytes, none twice. -/
  languages_sorted : t.languages.Pairwise fun a b =>
    Text.Utf8.encode a.toList < Text.Utf8.encode b.toList
  mem_languages_iff : ∀ id, id ∈ t.languages ↔ t.contains id = true
  size_eq : t.size = t.languages.length

theorem answers_overridden (overrides : List (String × MarkerRule)) :
    Answers overrides (overridden overrides) where
  lookup_last before id rule after hsplit hlast := by
    rw [hsplit]
    exact lookup_overridden_of_last hlast
  lookup_known f hf id hid hne := by
    rw [lookup, find?_overridden_of_ne hne]
    exact lookup_known hf hid
  lookup_other id hknown hne := by
    refine lookup_of_not_contains fun hcontains => ?_
    rcases (contains_overridden_iff overrides id).mp hcontains with ⟨f, hf, hid⟩ | ⟨e, he, hid⟩
    · exact hknown f hf hid
    · exact hne e he hid
  contains_iff := contains_overridden_iff overrides
  languages_sorted := (pairwise_languages (nodup_keys_overridden overrides)).imp fun h =>
    Text.Utf8.encode_lt_encode (String.lt_iff_toList_lt.mp h)
  mem_languages_iff := RuleTable.mem_languages_iff _
  size_eq := (length_languages _).symm

/-! ### The log of overrides -/

/-- That a log tells of overrides: there is a record for each, which says whether the language had a
rule just before. -/
structure Logged (overrides : List (String × MarkerRule)) (log : List Log.Record) : Prop where
  length_eq : log.length = overrides.length
  record : ∀ before id rule after, overrides = before ++ (id, rule) :: after →
    ∃ replaced, log[before.length]? = some
      { level := .debug, topic := "syntax.table", event := "rule_override"
        fields := [("language", .text id), ("replaced", .flag replaced)] } ∧
      (replaced = true ↔ (overridden before).contains id = true)

theorem overrideAll_append : ∀ (front rest : List (String × MarkerRule)) (t : RuleTable),
    t.overrideAll (front ++ rest) = (((t.overrideAll front).1.overrideAll rest).1,
      (t.overrideAll front).2 ++ ((t.overrideAll front).1.overrideAll rest).2)
  | [], _, _ => rfl
  | e :: front, rest, t => by
    rw [List.cons_append, overrideAll, overrideAll_append front rest]
    rfl

theorem length_log_overrideAll : ∀ (overrides : List (String × MarkerRule)) (t : RuleTable),
    (t.overrideAll overrides).2.length = overrides.length
  | [], _ => rfl
  | e :: rest, t => congrArg (· + 1) (length_log_overrideAll rest (t.override e.1 e.2))

theorem logged_overrideAll (overrides : List (String × MarkerRule)) :
    Logged overrides (known.overrideAll overrides).2 where
  length_eq := length_log_overrideAll overrides known
  record before id rule after hsplit := by
    refine ⟨(overridden before).contains id, ?_, Iff.rfl⟩
    rw [hsplit, overrideAll_append, ← length_log_overrideAll before known,
      List.getElem?_append_right le_rfl, Nat.sub_self]
    rfl

/-! ### Configured languages -/

/-- That a table has the rules of the configured languages, and is otherwise that of the known ones. -/
structure Configured (c : Config) (t : RuleTable) : Prop where
  lookup_configured : ∀ id l, c.languages.find? id = some l →
    t.lookup id = .ofStrings l.line l.block
  lookup_other : ∀ id, c.languages.find? id = none → t.lookup id = known.lookup id
  contains_iff : ∀ id, t.contains id = true ↔
    known.contains id = true ∨ c.languages.find? id ≠ none

/-- The languages of a configuration as overrides. -/
def configuredRules (c : Config) : List (String × MarkerRule) :=
  c.languages.entries.map fun e => (e.1, e.2.rule)

theorem map_fst_configuredRules (c : Config) :
    (configuredRules c).map (·.1) = c.languages.keys := by
  rw [configuredRules, List.map_map]
  rfl

theorem table_eq_overridden (c : Config) : c.table = overridden (configuredRules c) := rfl

theorem exists_mem_configuredRules_iff {c : Config} {id : String} :
    (∃ e ∈ configuredRules c, e.1 = id) ↔ c.languages.find? id ≠ none := by
  rw [← Keyed.mem_keys_iff, ← map_fst_configuredRules, List.mem_map]

theorem configured_table {c : Config} (hnodup : c.languages.keys.Nodup) :
    Configured c c.table where
  lookup_configured id l hfind := by
    have hmem : (id, l.rule) ∈ configuredRules c :=
      List.mem_map.mpr ⟨(id, l), Keyed.mem_of_findIn hfind, rfl⟩
    rw [← map_fst_configuredRules] at hnodup
    rw [table_eq_overridden, lookup, overridden, rules_overrideAll,
      Keyed.find?_insertAll_of_mem hnodup hmem]
    rfl
  lookup_other id hfind := by
    have hne : ∀ e ∈ configuredRules c, e.1 ≠ id := fun e he heq =>
      exists_mem_configuredRules_iff.mp ⟨e, he, heq⟩ hfind
    rw [table_eq_overridden, lookup, lookup, find?_overridden_of_ne hne]
  contains_iff id := by
    rw [table_eq_overridden, contains_overridden_iff, exists_mem_configuredRules_iff]
    exact or_congr_left ((contains_overridden_iff [] id).trans (or_iff_left (by simp))).symm

/-- **The law of overrides.**  A table after overrides answers what their order says, and its log tells
which of them replaced a rule; overrides of different languages can change places; and a configuration
in which no language comes twice sets the rules of its languages and no other. -/
theorem overrideAll_law :
    (∀ overrides, Answers overrides (known.overrideAll overrides).1 ∧
      Logged overrides (known.overrideAll overrides).2) ∧
    (∀ (before after : List (String × MarkerRule)) (a b : String × MarkerRule), a.1 ≠ b.1 →
      Alike (known.overrideAll (before ++ a :: b :: after)).1
        (known.overrideAll (before ++ b :: a :: after)).1) ∧
    ∀ c : Config, c.languages.keys.Nodup → ∀ bundle, Configured c (c.settings bundle).table :=
  ⟨fun overrides => ⟨answers_overridden overrides, logged_overrideAll overrides⟩,
    fun before after _ _ hne => alike_overridden_swap hne before after,
    fun _ hnodup _ => configured_table hnodup⟩

/-- A known language that is overridden twice, with a new language in between. -/
def mixedOverrides : List (String × MarkerRule) :=
  [("python", .ofStrings [";"] []), ("é", .slashes), ("python", .ofStrings ["--", "--"] [])]

/-- A configuration with a known and a new language. -/
def twoLanguages : Config where
  languages := ⟨[("lua", { line := ["", ";"] }), ("é", { block := [("<", ">")] })]⟩

/-- The second override decides, and the first one may come after the new language; the other language
of the overridden family keeps its rule, and a language that nobody knows has the fallback; the
configured language loses its empty marker. -/
theorem overrideAll_law_mixed :
    (known.overrideAll mixedOverrides).1.lookup "python" = .ofStrings ["--", "--"] [] ∧
    (known.overrideAll mixedOverrides).1.contains "cython" = true ∧
    (known.overrideAll mixedOverrides).1.lookup "cython" = ⟨["#".toList],
      [⟨"\"\"\"".toList, "\"\"\"".toList⟩, ⟨"\'\'\'".toList, "\'\'\'".toList⟩]⟩ ∧
    (known.overrideAll mixedOverrides).1.contains "klingon" = false ∧
    (known.overrideAll mixedOverrides).1.lookup "klingon" =
      ⟨["//".toList], [⟨"/*".toList, "*/".toList⟩]⟩ ∧
    Alike (known.overrideAll mixedOverrides).1
      (known.overrideAll [mixedOverrides[1], mixedOverrides[0], mixedOverrides[2]]).1 ∧
    (twoLanguages.settings ".").table.lookup "lua" = .ofStrings ["", ";"] [] := by
  obtain ⟨hanswers, hswap, hconfigured⟩ := overrideAll_law
  refine ⟨?_, by decide +kernel, by decide +kernel, by decide +kernel, by decide +kernel,
    hswap [] [mixedOverrides[2]] _ _ (by decide), ?_⟩
  · exact (hanswers mixedOverrides).1.lookup_last [mixedOverrides[0], mixedOverrides[1]] "python" _ []
      rfl (fun e he => absurd he List.not_mem_nil)
  · exact (hconfigured twoLanguages (by decide) ".").lookup_configured "lua"
      { line := ["", ";"] } (by decide)

end RuleTable

end CaretLayout
