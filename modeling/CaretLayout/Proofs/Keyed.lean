import CaretLayout.Keyed
import Mathlib.Data.String.Basic

/-!
# The keys of a map

`Keyed` is seen through `find?`.  What a visit of all entries meets is decided by `keys`: a key is
among them exactly when it is found, and no operation brings in a key twice.  Of entries that are
stored one after another, the last one of each key is found (`find?_insertAll_of_last`).  A map whose
values are taken one by one has the same keys (`findIn_of_mapM`).
-/

namespace CaretLayout.Keyed

variable {β γ : Type}

theorem keys_mapValues (f : β → γ) (m : Keyed β) : (m.mapValues f).keys = m.keys := by
  simp only [keys, mapValues, List.map_map]
  rfl

theorem mem_map_fst_iff (key : String) : ∀ l : List (String × β),
    key ∈ l.map (·.1) ↔ findIn key l ≠ none
  | [] => by simp [findIn]
  | (k, v) :: rest => by
    unfold findIn
    by_cases hk : k = key
    · simp [hk]
    · rw [if_neg hk, List.map_cons, List.mem_cons, mem_map_fst_iff key rest]
      exact ⟨fun h => h.resolve_left fun h => hk h.symm, Or.inr⟩

/-- A key is present exactly when it is found. -/
theorem mem_keys_iff (m : Keyed β) (key : String) : key ∈ m.keys ↔ m.find? key ≠ none :=
  mem_map_fst_iff key m.entries

theorem map_fst_insertIn (key : String) (value : β) : ∀ l : List (String × β),
    (insertIn key value l).map (·.1) =
      if key ∈ l.map (·.1) then l.map (·.1) else l.map (·.1) ++ [key]
  | [] => by simp [insertIn]
  | (k, v) :: rest => by
    unfold insertIn
    by_cases hk : k = key
    · simp [hk]
    · rw [if_neg hk, List.map_cons, map_fst_insertIn key value rest]
      have hmem : key ∈ ((k, v) :: rest).map (·.1) ↔ key ∈ rest.map (·.1) := by
        rw [List.map_cons, List.mem_cons]
        exact ⟨fun h => h.resolve_left fun h => hk h.symm, Or.inr⟩
      by_cases h : key ∈ rest.map (·.1)
      · rw [if_pos h, if_pos (hmem.mpr h), List.map_cons]
      · rw [if_neg h, if_neg (fun h' => h (hmem.mp h')), List.map_cons, List.cons_append]

/-- A stored key keeps its place, a new one comes last. -/
theorem keys_insert (m : Keyed β) (key : String) (value : β) :
    (m.insert key value).keys = if key ∈ m.keys then m.keys else m.keys ++ [key] :=
  map_fst_insertIn key value m.entries

theorem findIn_of_mem {key : String} {value : β} : ∀ {l : List (String × β)},
    (l.map (·.1)).Nodup → (key, value) ∈ l → findIn key l = some value
  | (k, v) :: rest, h, hm => by
    obtain ⟨hk, hrest⟩ := List.nodup_cons.mp h
    unfold findIn
    rcases List.mem_cons.mp hm with heq | hm
    · cases heq
      rw [if_pos rfl]
    · have hmem : key ∈ rest.map (·.1) := List.mem_map.mpr ⟨_, hm, rfl⟩
      have hne : ¬ k = key := fun h => hk (h ▸ hmem)
      rw [if_neg hne]
      exact findIn_of_mem hrest hm

/-- Where no key comes twice, every entry is the one that is found under its key. -/
theorem find?_of_mem {m : Keyed β} (h : m.keys.Nodup) {key : String} {value : β}
    (hm : (key, value) ∈ m.entries) : m.find? key = some value :=
  findIn_of_mem h hm

theorem mem_of_findIn {key : String} {value : β} : ∀ {l : List (String × β)},
    findIn key l = some value → (key, value) ∈ l
  | (k, v) :: rest, h => by
    unfold findIn at h
    by_cases hk : k = key
    · rw [if_pos hk] at h
      rw [hk, Option.some.inj h]
      exact List.mem_cons_self
    · rw [if_neg hk] at h
      exact List.mem_cons_of_mem _ (mem_of_findIn h)

/-- Where no key comes twice, the values are those that are found. -/
theorem mem_values_iff {m : Keyed β} (h : m.keys.Nodup) {value : β} :
    value ∈ m.values ↔ ∃ key, m.find? key = some value := by
  constructor
  · intro hv
    obtain ⟨⟨key, _⟩, hm, rfl⟩ := List.mem_map.mp hv
    exact ⟨key, find?_of_mem h hm⟩
  · rintro ⟨key, hfind⟩
    exact List.mem_map.mpr ⟨(key, value), mem_of_findIn hfind, rfl⟩

theorem nodup_keys_insert {m : Keyed β} (h : m.keys.Nodup) (key : String) (value : β) :
    (m.insert key value).keys.Nodup := by
  rw [keys_insert]
  by_cases hk : key ∈ m.keys
  · rw [if_pos hk]
    exact h
  · rw [if_neg hk]
    refine List.nodup_append.mpr ⟨h, by simp, ?_⟩
    rintro a ha b hb rfl
    rw [List.mem_singleton] at hb
    exact hk (hb ▸ ha)

theorem nodup_keys_erase {m : Keyed β} (h : m.keys.Nodup) (key : String) :
    (m.erase key).keys.Nodup :=
  h.sublist (List.filter_sublist.map _)

/-! ### Maps in the order of their keys -/

/-- Sorted by names that are distinct, the names increase. -/
theorem pairwise_lt_mergeSort (name : β → String) {l : List β} (h : (l.map name).Nodup) :
    ((l.mergeSort fun a b => decide (name a ≤ name b)).map name).Pairwise (· < ·) := by
  have htrans : ∀ a b c : β, decide (name a ≤ name b) = true → decide (name b ≤ name c) = true →
      decide (name a ≤ name c) = true := fun a b c hab hbc =>
    decide_eq_true ((of_decide_eq_true hab).trans (of_decide_eq_true hbc))
  have hsorted := List.pairwise_mergeSort htrans
    (fun a b => by simpa using le_total (name a) (name b)) l
  have hle := List.pairwise_map.mpr (hsorted.imp of_decide_eq_true)
  have hperm := (List.mergeSort_perm l fun a b => decide (name a ≤ name b)).map name
  exact hle.imp₂ (fun _ _ hle hne => lt_of_le_of_ne hle hne) (hperm.nodup_iff.mpr h)

theorem mem_entries_iff {m : Keyed β} (h : m.keys.Nodup) {e : String × β} :
    e ∈ m.entries ↔ m.find? e.1 = some e.2 :=
  ⟨fun he => find?_of_mem h he, fun hfind => mem_of_findIn hfind⟩

theorem nodup_entries {m : Keyed β} (h : m.keys.Pairwise (· < ·)) : m.entries.Nodup := by
  refine (List.pairwise_map.mp h).imp ?_
  rintro a _ hlt rfl
  exact absurd hlt (lt_irrefl a.1)

/-- Maps whose keys increase are equal if the same is found in both. -/
theorem eq_of_find? {m n : Keyed β} (hm : m.keys.Pairwise (· < ·)) (hn : n.keys.Pairwise (· < ·))
    (h : ∀ key, m.find? key = n.find? key) : m = n := by
  have hperm : m.entries.Perm n.entries := by
    refine (List.perm_ext_iff_of_nodup (nodup_entries hm) (nodup_entries hn)).mpr fun e => ?_
    rw [mem_entries_iff (hm.imp ne_of_lt), mem_entries_iff (hn.imp ne_of_lt), h]
  have hentries : m.entries = n.entries :=
    hperm.eq_of_pairwise (fun a b _ _ hab hba => absurd hab (not_lt_of_gt hba))
      (List.pairwise_map.mp hm) (List.pairwise_map.mp hn)
  cases m
  cases n
  exact congrArg Keyed.mk hentries

/-! ### Storing entries in order -/

/-- Stores entries one after another. -/
def insertAll (m : Keyed β) (entries : List (String × β)) : Keyed β :=
  entries.foldl (fun m e => m.insert e.1 e.2) m

theorem insertAll_append (m : Keyed β) (front rest : List (String × β)) :
    m.insertAll (front ++ rest) = (m.insertAll front).insertAll rest :=
  List.foldl_append

theorem find?_insertAll_of_ne {key : String} : ∀ {entries : List (String × β)},
    (∀ e ∈ entries, e.1 ≠ key) → ∀ m : Keyed β, (m.insertAll entries).find? key = m.find? key
  | [], _, _ => rfl
  | e :: rest, h, m => by
    have hrest := find?_insertAll_of_ne (fun f hf => h f (List.mem_cons_of_mem e hf)) (m.insert e.1 e.2)
    rw [find?_insert, if_neg (h e List.mem_cons_self)] at hrest
    exact hrest

/-- The last value that is stored under a key is found. -/
theorem find?_insertAll_of_last {key : String} {value : β} {before after : List (String × β)}
    (h : ∀ e ∈ after, e.1 ≠ key) (m : Keyed β) :
    (m.insertAll (before ++ (key, value) :: after)).find? key = some value := by
  rw [insertAll_append]
  show ((((m.insertAll before).insert key value).insertAll after).find? key) = some value
  rw [find?_insertAll_of_ne h, find?_insert, if_pos rfl]

/-- Where no key is stored twice, each value that is stored is found. -/
theorem find?_insertAll_of_mem {key : String} {value : β} : ∀ {entries : List (String × β)},
    (entries.map (·.1)).Nodup → (key, value) ∈ entries → ∀ m : Keyed β,
    (m.insertAll entries).find? key = some value
  | e :: rest, h, hm, m => by
    obtain ⟨hfirst, hrest⟩ := List.nodup_cons.mp h
    rcases List.mem_cons.mp hm with rfl | hm
    · have hlast : ∀ f ∈ rest, f.1 ≠ key := fun f hf heq =>
        hfirst (List.mem_map.mpr ⟨f, hf, heq⟩)
      rw [← List.nil_append ((key, value) :: rest)]
      exact find?_insertAll_of_last hlast m
    · exact find?_insertAll_of_mem hrest hm (m.insert e.1 e.2)

/-- A key is found if it was, or if a value is stored under it. -/
theorem find?_insertAll_ne_none_iff {key : String} : ∀ {entries : List (String × β)} {m : Keyed β},
    (m.insertAll entries).find? key ≠ none ↔ m.find? key ≠ none ∨ ∃ e ∈ entries, e.1 = key
  | [], m => by simp [insertAll]
  | e :: rest, m => by
    show ((m.insert e.1 e.2).insertAll rest).find? key ≠ none ↔ _
    rw [find?_insertAll_ne_none_iff, find?_insert]
    by_cases hkey : e.1 = key
    · simp [hkey]
    · simp [hkey]

/-- What is found afterwards depends on what is found before only. -/
theorem find?_insertAll_congr : ∀ (entries : List (String × β)) {m n : Keyed β},
    (∀ key, m.find? key = n.find? key) →
    ∀ key, (m.insertAll entries).find? key = (n.insertAll entries).find? key
  | [], _, _, h => h
  | e :: rest, m, n, h => by
    refine find?_insertAll_congr rest (m := m.insert e.1 e.2) (n := n.insert e.1 e.2) fun key => ?_
    rw [find?_insert, find?_insert, h key]

theorem nodup_keys_insertAll : ∀ (entries : List (String × β)) {m : Keyed β},
    m.keys.Nodup → (m.insertAll entries).keys.Nodup
  | [], _, h => h
  | e :: rest, _, h => nodup_keys_insertAll rest (nodup_keys_insert h e.1 e.2)

/-! ### Values that may be refused -/

/-- Where every value is taken, the keys stay and each value is found as it was taken. -/
theorem findIn_of_mapM {f : β → Option γ} : ∀ {l : List (String × β)} {out : List (String × γ)},
    l.mapM (fun e => (f e.2).map fun r => (e.1, r)) = some out →
    out.map (·.1) = l.map (·.1) ∧ ∀ key, findIn key out = (findIn key l).bind f
  | [], out, h => by
    cases h
    exact ⟨rfl, fun _ => rfl⟩
  | (k, v) :: rest, out, h => by
    rw [List.mapM_cons] at h
    obtain ⟨e, hfirst, h⟩ := Option.bind_eq_some_iff.mp h
    obtain ⟨out', hrest, heq⟩ := Option.bind_eq_some_iff.mp h
    obtain ⟨r, hr, rfl⟩ := Option.map_eq_some_iff.mp hfirst
    cases heq
    obtain ⟨hkeys, hfind⟩ := findIn_of_mapM hrest
    refine ⟨by rw [List.map_cons, hkeys, List.map_cons], fun key => ?_⟩
    rw [findIn, findIn]
    by_cases hk : k = key
    · rw [if_pos hk, if_pos hk, Option.bind_some, hr]
    · rw [if_neg hk, if_neg hk, hfind]

theorem exists_mapM {f : β → Option γ} : ∀ {l : List (String × β)},
    (∀ e ∈ l, ∃ r, f e.2 = some r) →
    ∃ out, l.mapM (fun e => (f e.2).map fun r => (e.1, r)) = some out
  | [], _ => ⟨[], rfl⟩
  | (k, v) :: rest, h => by
    obtain ⟨⟨r, hr⟩, hrest⟩ := List.forall_mem_cons.mp h
    obtain ⟨out, hout⟩ := exists_mapM hrest
    exact ⟨(k, r) :: out, by rw [List.mapM_cons, hr, hout]; rfl⟩

theorem findIn_of_perm {l l' : List (String × β)} (h : l.Perm l') (hnodup : (l.map (·.1)).Nodup)
    (key : String) : findIn key l' = findIn key l := by
  have hkeys : (l.map (·.1)).Perm (l'.map (·.1)) := h.map (·.1)
  cases hfind : findIn key l with
  | some v => exact findIn_of_mem (hkeys.nodup_iff.mp hnodup) (h.mem_iff.mp (mem_of_findIn hfind))
  | none =>
    refine Classical.byContradiction fun hsome => ?_
    exact (mem_map_fst_iff key l).mp (hkeys.mem_iff.mpr ((mem_map_fst_iff key l').mpr hsome)) hfind

end CaretLayout.Keyed
