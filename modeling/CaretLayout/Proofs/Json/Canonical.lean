import CaretLayout.Proofs.Json.Token
import Mathlib.Data.List.Perm.Basic
import Mathlib.Data.String.Basic

/-!
# Canonical form

The canonical form of a value sorts the members of every object by name and keeps one of each name.  It
is its own canonical form (`canonical_canonical`), so this is what every value is that was read as a
whole (`canonical_of_read`).  Members of different names are only put in another order
(`canonicalMembers_perm`), and in any case the last member of each name is the same
(`lastMember?_canonicalMembers`).
-/

namespace CaretLayout.Json

/-- That members are sorted by name, with no name twice. -/
def Sorted (members : List (String × Json)) : Prop :=
  members.Pairwise fun m m' => m.1 < m'.1

/-! ### Putting a member in its place -/

theorem mem_insertMember {m m' : String × Json} : ∀ {members : List (String × Json)},
    m' ∈ insertMember m members → m' = m ∨ m' ∈ members
  | [], h => Or.inl (List.mem_singleton.mp h)
  | other :: rest, h => by
    rw [insertMember] at h
    split at h
    · exact List.mem_cons.mp h
    · split at h
      · exact Or.inr h
      · rcases List.mem_cons.mp h with rfl | h
        · exact Or.inr List.mem_cons_self
        · exact (mem_insertMember h).imp_right (List.mem_cons_of_mem other)

theorem sorted_insertMember {m : String × Json} : ∀ {members : List (String × Json)},
    Sorted members → Sorted (insertMember m members)
  | [], _ => List.pairwise_singleton _ m
  | other :: rest, h => by
    obtain ⟨hother, hrest⟩ := List.pairwise_cons.mp h
    rw [insertMember]
    split
    · next hlt =>
      refine List.pairwise_cons.mpr ⟨fun m' hm' => ?_, h⟩
      rcases List.mem_cons.mp hm' with rfl | hm'
      · exact hlt
      · exact hlt.trans (hother m' hm')
    · next hnlt =>
      split
      · exact h
      · next hne =>
        refine List.pairwise_cons.mpr ⟨fun m' hm' => ?_, sorted_insertMember hrest⟩
        rcases mem_insertMember hm' with rfl | hm'
        · exact lt_of_le_of_ne (not_lt.mp hnlt) (Ne.symm hne)
        · exact hother m' hm'

/-- A member that comes before all others is put in front. -/
theorem insertMember_of_lt {m : String × Json} {members : List (String × Json)}
    (h : ∀ m' ∈ members, m.1 < m'.1) : insertMember m members = m :: members := by
  rcases members with _ | ⟨other, rest⟩
  · rfl
  · rw [insertMember, if_pos (h other List.mem_cons_self)]

/-- A member of a new name is added to the others. -/
theorem insertMember_perm {m : String × Json} : ∀ {members : List (String × Json)},
    m.1 ∉ members.map (·.1) → (insertMember m members).Perm (m :: members)
  | [], _ => List.Perm.refl _
  | other :: rest, h => by
    rw [List.map_cons, List.mem_cons, not_or] at h
    rw [insertMember]
    split
    · exact List.Perm.refl _
    · rw [if_neg h.1]
      exact ((insertMember_perm h.2).cons other).trans (List.Perm.swap m other rest)

/-! ### Canonical values -/

theorem sorted_canonicalMembers : ∀ members : List (String × Json), Sorted (canonicalMembers members)
  | [] => List.Pairwise.nil
  | (k, v) :: rest => by
    rw [canonicalMembers]
    exact sorted_insertMember (sorted_canonicalMembers rest)

theorem canonicalMembers_eq_self : ∀ {members : List (String × Json)}, Sorted members →
    (∀ m ∈ members, m.2.canonical = m.2) → canonicalMembers members = members
  | [], _, _ => rfl
  | (k, v) :: rest, hsorted, hvalues => by
    obtain ⟨hlt, hrest⟩ := List.pairwise_cons.mp hsorted
    rw [canonicalMembers, hvalues (k, v) List.mem_cons_self,
      canonicalMembers_eq_self hrest fun m hm => hvalues m (List.mem_cons_of_mem _ hm),
      insertMember_of_lt hlt]

/-- Members of different names are only put in another order. -/
theorem canonicalMembers_perm : ∀ {members : List (String × Json)}, (members.map (·.1)).Nodup →
    (∀ m ∈ members, m.2.canonical = m.2) → (canonicalMembers members).Perm members
  | [], _, _ => List.Perm.refl _
  | (k, v) :: rest, hnodup, hvalues => by
    obtain ⟨hk, hrest⟩ := List.nodup_cons.mp hnodup
    have ih := canonicalMembers_perm hrest fun m hm => hvalues m (List.mem_cons_of_mem _ hm)
    rw [canonicalMembers, hvalues (k, v) List.mem_cons_self]
    refine (insertMember_perm fun hmem => hk ?_).trans (ih.cons (k, v))
    exact (ih.map (·.1)).mem_iff.mp hmem

/-! ### The last member of a name -/

theorem lastMember?_insertMember (name : String) (m : String × Json) :
    ∀ members : List (String × Json),
    lastMember? name (insertMember m members) = lastMember? name (m :: members)
  | [] => rfl
  | other :: rest => by
    rw [insertMember]
    split
    · rfl
    · split
      · next hsame =>
        -- the member that is there counts, and it hides the one that is left out
        simp only [lastMember?, hsame]
        rcases lastMember? name rest with _ | w
        · by_cases hname : other.1 = name
          · simp [hname]
          · simp [hname]
        · rfl
      · next hne =>
        have ih := lastMember?_insertMember name m rest
        simp only [lastMember?] at ih ⊢
        rw [ih]
        rcases lastMember? name rest with _ | w
        · by_cases hname : m.1 = name
          · have hother : other.1 ≠ name := fun h => hne (hname.trans h.symm)
            simp [hname, hother]
          · by_cases hother : other.1 = name
            · simp [hname, hother]
            · simp [hname, hother]
        · rfl

/-- The last member of each name is kept. -/
theorem lastMember?_canonicalMembers (name : String) : ∀ members : List (String × Json),
    lastMember? name (canonicalMembers members) = (lastMember? name members).map canonical
  | [] => rfl
  | (k, v) :: rest => by
    rw [canonicalMembers, lastMember?_insertMember, lastMember?, lastMember?,
      lastMember?_canonicalMembers name rest]
    rcases lastMember? name rest with _ | w
    · dsimp only [Option.map_none]
      split_ifs
      · rfl
      · rfl
    · rfl

theorem member?_canonical (name : String) (v : Json) :
    v.canonical.member? name = (v.member? name).map canonical := by
  cases v with
  | object members => exact lastMember?_canonicalMembers name members
  | _ => rfl

theorem canonicalItems_eq_map : ∀ items : List Json, canonicalItems items = items.map canonical
  | [] => rfl
  | v :: rest => by rw [canonicalItems, List.map_cons, canonicalItems_eq_map rest]

theorem string?_canonical (v : Json) : v.canonical.string? = v.string? := by
  cases v <;> rfl

/-- Strings are as they are. -/
theorem canonical_eq_string_iff {v : Json} {s : String} :
    v.canonical = .string s ↔ v = .string s := by
  cases v <;> simp [canonical]

mutual

/-- **A canonical form is its own canonical form.** -/
theorem canonical_canonical : ∀ v : Json, v.canonical.canonical = v.canonical
  | null => rfl
  | bool _ => rfl
  | int _ => rfl
  | float _ => rfl
  | string _ => rfl
  | array items => congrArg array (canonicalItems_canonicalItems items)
  | object members => congrArg object
      (canonicalMembers_eq_self (sorted_canonicalMembers members) (canonical_of_mem members))

theorem canonicalItems_canonicalItems : ∀ items : List Json,
    canonicalItems (canonicalItems items) = canonicalItems items
  | [] => rfl
  | v :: rest => by
    rw [canonicalItems, canonicalItems, canonical_canonical v, canonicalItems_canonicalItems rest]

theorem canonical_of_mem : ∀ members : List (String × Json),
    ∀ m ∈ canonicalMembers members, m.2.canonical = m.2
  | [], m, h => absurd h List.not_mem_nil
  | (k, v) :: rest, m, h => by
    rw [canonicalMembers] at h
    rcases mem_insertMember h with rfl | h
    · exact canonical_canonical v
    · exact canonical_of_mem rest m h

end

/-- What is read as a whole is in canonical form. -/
theorem canonical_of_read {text : List Char} {v : Json} (h : read text = .ok v) :
    v.canonical = v := by
  obtain ⟨w, -, hpure⟩ := bind_eq_ok_iff.mp h
  cases hpure
  exact canonical_canonical w

end CaretLayout.Json
