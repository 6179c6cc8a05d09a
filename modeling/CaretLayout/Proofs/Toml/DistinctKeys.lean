import CaretLayout.Proofs.Keyed
import CaretLayout.Toml.Document

/-!
# No key is assigned twice

Every table of a document that is read has distinct keys, the tables inside its values among them
(`distinctKeys_read`).  Whatever adds to a tree in the making puts a node at a key of a table, in place
of the one that was there, so it is enough that a new node is sound (`Sound.put`); the walks along
dotted keys and headers put back what they have changed (`keeps_assign`, `keeps_descend`).
-/

namespace CaretLayout.Toml

/-- That the keys of each table in a value are distinct. -/
inductive DistinctKeys : Toml → Prop
  | string (s : String) : DistinctKeys (.string s)
  | integer (i : Int) : DistinctKeys (.integer i)
  | float (inRange : Bool) : DistinctKeys (.float inRange)
  | boolean (b : Bool) : DistinctKeys (.boolean b)
  | moment : DistinctKeys .moment
  | array {items : List Toml} : (∀ v ∈ items, DistinctKeys v) → DistinctKeys (.array items)
  | table {entries : List (String × Toml)} : (entries.map (·.1)).Nodup →
      (∀ e ∈ entries, DistinctKeys e.2) → DistinctKeys (.table entries)

theorem distinctKeys_array_iff {items : List Toml} :
    (array items).DistinctKeys ↔ ∀ v ∈ items, v.DistinctKeys :=
  ⟨fun | .array h => h, .array⟩

theorem distinctKeys_table_iff {entries : List (String × Toml)} : (table entries).DistinctKeys ↔
    (entries.map (·.1)).Nodup ∧ ∀ e ∈ entries, e.2.DistinctKeys :=
  ⟨fun | .table hnodup h => ⟨hnodup, h⟩, fun ⟨hnodup, h⟩ => .table hnodup h⟩

/-! ### Entries in the making -/

/-- That a node becomes a value with distinct keys. -/
def Node.Sound (n : Node) : Prop :=
  n.toToml.DistinctKeys

theorem entriesToToml_eq_map : ∀ entries : Entries,
    entriesToToml entries = entries.map fun e => (e.1, e.2.toToml)
  | [] => rfl
  | (k, n) :: rest => by rw [entriesToToml, entriesToToml_eq_map rest, List.map_cons]

theorem tablesToToml_eq_map : ∀ tables : List Entries,
    tablesToToml tables = tables.map fun e => .table (entriesToToml e)
  | [] => rfl
  | e :: rest => by rw [tablesToToml, tablesToToml_eq_map rest, List.map_cons]

namespace Entries

/-- That entries have distinct keys and sound nodes. -/
structure Sound (entries : Entries) : Prop where
  nodup : (entries.map (·.1)).Nodup
  nodes : ∀ e ∈ entries, e.2.Sound

theorem sound_nil : Sound [] :=
  ⟨List.nodup_nil, fun _ h => absurd h List.not_mem_nil⟩

theorem distinctKeys_iff {entries : Entries} :
    (Toml.table (entriesToToml entries)).DistinctKeys ↔ entries.Sound := by
  rw [entriesToToml_eq_map, distinctKeys_table_iff, List.map_map, List.forall_mem_map]
  exact ⟨fun ⟨hnodup, hnodes⟩ => ⟨hnodup, hnodes⟩, fun ⟨hnodup, hnodes⟩ => ⟨hnodup, hnodes⟩⟩

theorem sound_table_iff {origin : Origin} {entries : Entries} :
    (Node.table origin entries).Sound ↔ entries.Sound := by
  rw [Node.Sound, Node.toToml, distinctKeys_iff]

theorem sound_tables_iff {latest : List Entries} :
    (Node.tables latest).Sound ↔ ∀ entries ∈ latest, entries.Sound := by
  rw [Node.Sound, Node.toToml, tablesToToml_eq_map, distinctKeys_array_iff]
  simp only [List.mem_reverse, List.forall_mem_map, distinctKeys_iff]

theorem put_eq_insertIn (key : String) (node : Node) : ∀ entries : Entries,
    put key node entries = Keyed.insertIn key node entries
  | [] => rfl
  | (k, n) :: rest => by rw [put, Keyed.insertIn, put_eq_insertIn key node rest]

theorem find?_eq_findIn (key : String) : ∀ entries : Entries,
    find? key entries = Keyed.findIn key entries
  | [] => rfl
  | (k, n) :: rest => by rw [find?, Keyed.findIn, find?_eq_findIn key rest]

theorem mem_put {key : String} {node : Node} {e : String × Node} : ∀ {entries : Entries},
    e ∈ put key node entries → e.2 = node ∨ e ∈ entries
  | [], h => Or.inl (congrArg Prod.snd (List.mem_singleton.mp h))
  | (k, n) :: rest, h => by
    rw [put] at h
    split at h
    · rcases List.mem_cons.mp h with rfl | h
      · exact Or.inl rfl
      · exact Or.inr (List.mem_cons_of_mem _ h)
    · rcases List.mem_cons.mp h with rfl | h
      · exact Or.inr List.mem_cons_self
      · exact (mem_put h).imp_right (List.mem_cons_of_mem _)

variable {entries after : Entries}

/-- **A sound node can be put** at any key. -/
theorem Sound.put (h : entries.Sound) (key : String) {node : Node} (hnode : node.Sound) :
    (entries.put key node).Sound where
  nodup := by
    rw [put_eq_insertIn]
    exact Keyed.nodup_keys_insert (m := ⟨entries⟩) h.nodup key node
  nodes e he := by
    rcases mem_put he with heq | he
    · rw [heq]
      exact hnode
    · exact h.nodes e he

theorem Sound.of_find? (h : entries.Sound) {key : String} {node : Node}
    (hfind : find? key entries = some node) : node.Sound := by
  rw [find?_eq_findIn] at hfind
  exact h.nodes (key, node) (Keyed.mem_of_findIn hfind)

/-! ### Walks along keys -/

theorem Sound.put_table (h : entries.Sound) {key : String} {origin : Origin} {inner : Entries}
    (hinner : inner.Sound) : (entries.put key (.table origin inner)).Sound :=
  h.put key (sound_table_iff.mpr hinner)

/-- A change of the entries of a table is put back. -/
theorem Sound.of_table (h : entries.Sound) {key : String} {origin : Origin} {changed : Option Entries}
    (hchanged : ∀ inner, changed = some inner → inner.Sound)
    (hafter : (changed.bind fun inner => some (entries.put key (.table origin inner))) = some after) :
    after.Sound := by
  obtain ⟨inner, hinner, heq⟩ := Option.bind_eq_some_iff.mp hafter
  cases heq
  exact h.put_table (hchanged inner hinner)

/-- A change of the latest table of an array is put back. -/
theorem Sound.of_tables (h : entries.Sound) {key : String} {inner : Entries} {older : List Entries}
    (hfind : find? key entries = some (.tables (inner :: older))) {changed : Option Entries}
    (hchanged : ∀ new, inner.Sound → changed = some new → new.Sound)
    (hafter : (changed.bind fun new => some (entries.put key (.tables (new :: older)))) = some after) :
    after.Sound := by
  obtain ⟨new, hnew, heq⟩ := Option.bind_eq_some_iff.mp hafter
  cases heq
  obtain ⟨hinner, holder⟩ := List.forall_mem_cons.mp (sound_tables_iff.mp (h.of_find? hfind))
  exact h.put key (sound_tables_iff.mpr (List.forall_mem_cons.mpr ⟨hchanged new hinner hnew, holder⟩))

/-- That a change keeps entries sound. -/
def Keeps (change : Entries → Option Entries) : Prop :=
  ∀ {entries after : Entries}, entries.Sound → change entries = some after → after.Sound

theorem keeps_assign {value : Toml} (hvalue : value.DistinctKeys) (path : List String) :
    Keeps (assign value path) := by
  intro entries after h hassign
  fun_induction assign value path entries generalizing after with
  | case1 => cases hassign
  | case2 key entries hnone =>
    cases hassign
    exact h.put key hvalue
  | case3 => cases hassign
  | case4 key next path entries hnone ih => exact h.of_table (fun _ => ih sound_nil) hassign
  | case5 key next path entries inner hfind ih =>
    exact h.of_table (fun _ => ih (sound_table_iff.mp (h.of_find? hfind))) hassign
  | case6 => cases hassign
  | case7 key next path entries inner hfind hpath ih =>
    exact h.of_table (fun _ => ih (sound_table_iff.mp (h.of_find? hfind))) hassign
  | case8 => cases hassign
  | case9 key next path entries inner older hfind hpath ih =>
    exact h.of_tables hfind (fun _ => ih) hassign
  | case10 => cases hassign

theorem keeps_descend {atEnd : String → Entries → Option Entries} (hend : ∀ key, Keeps (atEnd key))
    (path : List String) : Keeps (descend atEnd path) := by
  intro entries after h hdescend
  fun_induction descend atEnd path entries generalizing after with
  | case1 => cases hdescend
  | case2 key entries => exact hend key h hdescend
  | case3 key next path entries hnone ih => exact h.of_table (fun _ => ih sound_nil) hdescend
  | case4 key next path entries origin inner hfind ih =>
    exact h.of_table (fun _ => ih (sound_table_iff.mp (h.of_find? hfind))) hdescend
  | case5 key next path entries inner older hfind ih => exact h.of_tables hfind (fun _ => ih) hdescend
  | case6 => cases hdescend

theorem keeps_openTable (key : String) : Keeps (openTable key) := by
  intro entries after h hopen
  unfold openTable at hopen
  split at hopen
  · cases hopen
    exact h.put_table sound_nil
  · next inner hfind =>
    cases hopen
    exact h.put_table (sound_table_iff.mp (h.of_find? hfind))
  · cases hopen

theorem keeps_addTable (key : String) : Keeps (addTable key) := by
  intro entries after h hadd
  unfold addTable at hadd
  split at hadd
  · cases hadd
    have hone : (Node.tables [[]]).Sound :=
      sound_tables_iff.mpr (List.forall_mem_singleton.mpr sound_nil)
    exact h.put key hone
  · next latest hfind =>
    cases hadd
    have hlatest := sound_tables_iff.mp (h.of_find? hfind)
    exact h.put key (sound_tables_iff.mpr (List.forall_mem_cons.mpr ⟨sound_nil, hlatest⟩))
  · cases hadd

theorem keeps_within {change : Entries → Option Entries} (hchange : Keeps change) (key : String) :
    Keeps (within change key) := by
  intro entries after h hwithin
  unfold within at hwithin
  split at hwithin
  · next origin inner hfind =>
    exact h.of_table (fun _ => hchange (sound_table_iff.mp (h.of_find? hfind))) hwithin
  · next inner older hfind => exact h.of_tables hfind (fun _ => hchange) hwithin
  · cases hwithin

theorem keeps_assignAt {value : Toml} (hvalue : value.DistinctKeys) (header key : List String) :
    Keeps (assignAt header key value) := by
  intro entries after h hassign
  unfold assignAt at hassign
  split at hassign
  · exact keeps_assign hvalue key h hassign
  · exact keeps_descend (fun _ => keeps_within (keeps_assign hvalue key) _) _ h hassign

end Entries

/-! ### Documents and inline tables -/

/-- That a value which a statement assigns has distinct keys. -/
def Statement.Sound : Statement → Prop
  | .assign _ value => value.DistinctKeys
  | _ => True

theorem sound_step {b after : Building} {s : Statement} (hs : s.Sound) (h : b.root.Sound)
    (hstep : b.step s = some after) : after.root.Sound := by
  cases s with
  | openTable path =>
    obtain ⟨root, hroot, hafter⟩ := Option.bind_eq_some_iff.mp hstep
    cases hafter
    exact Entries.keeps_descend Entries.keeps_openTable path h hroot
  | addTable path =>
    obtain ⟨root, hroot, hafter⟩ := Option.bind_eq_some_iff.mp hstep
    cases hafter
    exact Entries.keeps_descend Entries.keeps_addTable path h hroot
  | assign key value =>
    obtain ⟨root, hroot, hafter⟩ := Option.bind_eq_some_iff.mp hstep
    cases hafter
    exact Entries.keeps_assignAt hs b.header key h hroot

theorem sound_steps : ∀ {statements : List Statement} {b after : Building},
    (∀ s ∈ statements, s.Sound) → b.root.Sound →
    statements.foldlM Building.step b = some after → after.root.Sound
  | [], b, _, _, h, hsteps => by
    cases hsteps
    exact h
  | s :: rest, b, after, hs, h, hsteps => by
    obtain ⟨mid, hmid, hrest⟩ := Option.bind_eq_some_iff.mp hsteps
    exact sound_steps (fun s' hs' => hs s' (List.mem_cons_of_mem s hs'))
      (sound_step (hs s List.mem_cons_self) h hmid) hrest

/-- **The tree of statements** has distinct keys if the values that are assigned have. -/
theorem distinctKeys_ofStatements {statements : List Statement} (hs : ∀ s ∈ statements, s.Sound)
    {document : Toml} (h : ofStatements statements = some document) : document.DistinctKeys := by
  obtain ⟨b, hb, hdocument⟩ := Option.bind_eq_some_iff.mp h
  cases hdocument
  exact Entries.distinctKeys_iff.mpr (sound_steps hs Entries.sound_nil hb)

theorem sound_assignments : ∀ {assignments : List (List String × Toml)} {entries after : Entries},
    (∀ a ∈ assignments, a.2.DistinctKeys) → entries.Sound →
    assignments.foldlM (fun e a => Entries.assign a.2 a.1 e) entries = some after → after.Sound
  | [], _, _, _, h, hfold => by
    cases hfold
    exact h
  | a :: rest, entries, after, ha, h, hfold => by
    obtain ⟨mid, hmid, hrest⟩ := Option.bind_eq_some_iff.mp hfold
    exact sound_assignments (fun a' ha' => ha a' (List.mem_cons_of_mem a ha'))
      (Entries.keeps_assign (ha a List.mem_cons_self) a.1 h hmid) hrest

theorem distinctKeys_ofAssignments {assignments : List (List String × Toml)}
    (ha : ∀ a ∈ assignments, a.2.DistinctKeys) {value : Toml}
    (h : ofAssignments assignments = some value) : value.DistinctKeys := by
  obtain ⟨entries, hentries, hvalue⟩ := Option.bind_eq_some_iff.mp h
  cases hvalue
  exact Entries.distinctKeys_iff.mpr (sound_assignments ha Entries.sound_nil hentries)

/-! ### Values that are read -/

theorem distinctKeys_of_scalar {text : List Char} {v : Toml} (h : Scalar.value? text = some v) :
    v.DistinctKeys := by
  rw [Scalar.value?] at h
  by_cases htrue : text = ['t', 'r', 'u', 'e']
  · rw [if_pos htrue] at h
    cases h
    exact .boolean true
  rw [if_neg htrue] at h
  by_cases hfalse : text = ['f', 'a', 'l', 's', 'e']
  · rw [if_pos hfalse] at h
    cases h
    exact .boolean false
  rw [if_neg hfalse] at h
  by_cases hspecial : Scalar.isSpecial text = true
  · rw [if_pos hspecial] at h
    cases h
    exact .float true
  rw [if_neg hspecial] at h
  cases hinteger : Scalar.integer? text with
  | some i =>
    rw [hinteger] at h
    cases h
    exact .integer i
  | none =>
    cases hfloat : Scalar.decimalFloat? text with
    | some inRange =>
      rw [hinteger, hfloat] at h
      cases h
      exact .float inRange
    | none =>
      simp only [hinteger, hfloat, Option.ite_none_right_eq_some] at h
      obtain ⟨-, hv⟩ := h
      cases hv
      exact .moment

theorem distinctKeys_of_read_scalar {text rest : List Char} {v : Toml}
    (h : Scalar.read text = some (v, rest)) : v.DistinctKeys := by
  have hmap : ∀ {run left : List Char},
      (Scalar.value? run).map (·, left) = some (v, rest) → v.DistinctKeys := by
    intro run left h
    obtain ⟨w, hw, heq⟩ := Option.map_eq_some_iff.mp h
    cases heq
    exact distinctKeys_of_scalar hw
  rw [Scalar.read] at h
  split at h
  · split at h
    · exact hmap h
    · exact hmap h
  · exact hmap h

theorem distinctKeys_of_read_string {text rest : List Char} {v : Toml}
    (h : (readString true text).map (fun r => (Toml.string r.1, r.2)) = some (v, rest)) :
    v.DistinctKeys := by
  obtain ⟨r, -, heq⟩ := Option.map_eq_some_iff.mp h
  cases heq
  exact .string r.1

mutual

/-- **A value that is read has distinct keys.** -/
theorem distinctKeys_readValue : ∀ {fuel depth : Nat} {text rest : List Char} {v : Toml},
    readValue fuel depth text = some (v, rest) → v.DistinctKeys
  | 0, _, _, _, _, h => by
    rw [readValue] at h
    cases h
  | fuel + 1, depth, text, rest, v, h => by
    unfold readValue at h
    split at h
    · split at h
      · cases h
      · obtain ⟨⟨items, left⟩, hitems, heq⟩ := Option.bind_eq_some_iff.mp h
        cases heq
        exact .array (distinctKeys_readItems hitems)
    · split at h
      · cases h
      · obtain ⟨⟨assignments, left⟩, hassignments, h⟩ := Option.bind_eq_some_iff.mp h
        obtain ⟨table, htable, heq⟩ := Option.bind_eq_some_iff.mp h
        cases heq
        exact distinctKeys_ofAssignments (distinctKeys_readAssignments hassignments) htable
    · exact distinctKeys_of_read_string h
    · exact distinctKeys_of_read_string h
    · exact distinctKeys_of_read_scalar h

theorem distinctKeys_readItems : ∀ {fuel depth : Nat} {text rest : List Char} {items : List Toml},
    readItems fuel depth text = some (items, rest) → ∀ v ∈ items, v.DistinctKeys
  | 0, _, _, _, _, h => by
    rw [readItems] at h
    cases h
  | fuel + 1, depth, text, rest, items, h => by
    unfold readItems at h
    split at h
    · cases h
      exact fun v hv => absurd hv List.not_mem_nil
    · obtain ⟨⟨item, left⟩, hitem, h⟩ := Option.bind_eq_some_iff.mp h
      have hfirst := distinctKeys_readValue hitem
      dsimp only at h
      split at h
      · cases h
        exact fun v hv => List.mem_singleton.mp hv ▸ hfirst
      · obtain ⟨⟨more, left⟩, hmore, heq⟩ := Option.bind_eq_some_iff.mp h
        cases heq
        exact List.forall_mem_cons.mpr ⟨hfirst, distinctKeys_readItems hmore⟩
      · cases h

theorem distinctKeys_readAssignments : ∀ {fuel depth : Nat} {text rest : List Char}
    {assignments : List (List String × Toml)},
    readAssignments fuel depth text = some (assignments, rest) →
    ∀ a ∈ assignments, a.2.DistinctKeys
  | 0, _, _, _, _, h => by
    rw [readAssignments] at h
    cases h
  | fuel + 1, depth, text, rest, assignments, h => by
    unfold readAssignments at h
    split at h
    · cases h
      exact fun a ha => absurd ha List.not_mem_nil
    · obtain ⟨⟨key, left⟩, -, h⟩ := Option.bind_eq_some_iff.mp h
      dsimp only at h
      split at h
      · obtain ⟨⟨value, left⟩, hvalue, h⟩ := Option.bind_eq_some_iff.mp h
        have hfirst := distinctKeys_readValue hvalue
        dsimp only at h
        split at h
        · cases h
          exact fun a ha => List.mem_singleton.mp ha ▸ hfirst
        · obtain ⟨⟨more, left⟩, hmore, heq⟩ := Option.bind_eq_some_iff.mp h
          cases heq
          exact List.forall_mem_cons.mpr ⟨hfirst, distinctKeys_readAssignments hmore⟩
        · cases h
      · cases h

end

theorem sound_readStatement {fuel : Nat} {text rest : List Char} {s : Statement}
    (h : readStatement fuel text = some (s, rest)) : s.Sound := by
  unfold readStatement at h
  split at h
  · obtain ⟨⟨path, left⟩, -, h⟩ := Option.bind_eq_some_iff.mp h
    dsimp only at h
    split at h
    · cases h
      trivial
    · cases h
  · obtain ⟨⟨path, left⟩, -, h⟩ := Option.bind_eq_some_iff.mp h
    dsimp only at h
    split at h
    · cases h
      trivial
    · cases h
  · obtain ⟨⟨key, left⟩, -, h⟩ := Option.bind_eq_some_iff.mp h
    dsimp only at h
    split at h
    · obtain ⟨⟨value, left⟩, hvalue, heq⟩ := Option.bind_eq_some_iff.mp h
      cases heq
      exact distinctKeys_readValue hvalue
    · cases h

theorem sound_readStatements : ∀ {fuel : Nat} {text : List Char} {statements : List Statement},
    readStatements fuel text = some statements → ∀ s ∈ statements, s.Sound
  | 0, _, _, h => by
    rw [readStatements] at h
    cases h
  | fuel + 1, text, statements, h => by
    unfold readStatements at h
    split at h
    · cases h
      exact fun s hs => absurd hs List.not_mem_nil
    · obtain ⟨⟨statement, left⟩, hstatement, h⟩ := Option.bind_eq_some_iff.mp h
      obtain ⟨left, -, h⟩ := Option.bind_eq_some_iff.mp h
      obtain ⟨more, hmore, heq⟩ := Option.bind_eq_some_iff.mp h
      cases heq
      exact List.forall_mem_cons.mpr
        ⟨sound_readStatement hstatement, sound_readStatements hmore⟩

/-- **A document that is read has distinct keys**, in each of its tables. -/
theorem distinctKeys_read {text : List Char} {document : Toml} (h : read text = some document) :
    document.DistinctKeys := by
  obtain ⟨statements, hstatements, htree⟩ := Option.bind_eq_some_iff.mp h
  exact distinctKeys_ofStatements (sound_readStatements hstatements) htree

end CaretLayout.Toml
