import CaretLayout.Cursor.Scope
import Mathlib.Data.List.Destutter
import Mathlib.Data.List.ReduceOption

/-!
# Epochs

A history is a list of the scopes that are seen, with `none` where an epoch ends.  What matters of it
is each change of scope within an epoch (`epochScopes`) and the scope that was seen last in the
present epoch (`presentScope`): nothing is known of the scopes before it.
-/

namespace CaretLayout

/-- The scopes of a history, epoch by epoch, without those that are the same as the one before. -/
def epochScopes (h : List (Option Scope)) : List Scope :=
  (h.splitOn none).flatMap fun epoch => epoch.reduceOption.destutter (· ≠ ·)

/-- The scopes of a history that differ from the last one, which is forgotten where an epoch ends.
-/
def changes : Option Scope → List (Option Scope) → List Scope
  | _, [] => []
  | _, none :: h => changes none h
  | last, some k :: h => if last = some k then changes last h else k :: changes (some k) h

theorem splitOn_none_cons (h : List (Option Scope)) :
    (none :: h).splitOn none = [] :: h.splitOn none := by
  rw [List.splitOn, List.splitOnP_cons_eq_if_modifyHead]
  rfl

theorem splitOn_some_cons {h first : List (Option Scope)} {rest : List (List (Option Scope))}
    (hs : h.splitOn none = first :: rest) (k : Scope) :
    (some k :: h).splitOn none = (some k :: first) :: rest := by
  rw [List.splitOn] at hs ⊢
  rw [List.splitOnP_cons_eq_if_modifyHead, hs]
  rfl

theorem epochScopes_none_cons (h : List (Option Scope)) :
    epochScopes (none :: h) = epochScopes h := by
  rw [epochScopes, splitOn_none_cons]
  rfl

theorem epochScopes_some_none_cons (k : Scope) (h : List (Option Scope)) :
    epochScopes (some k :: none :: h) = k :: epochScopes h := by
  rw [epochScopes, splitOn_some_cons (splitOn_none_cons h)]
  rfl

theorem epochScopes_some_some_cons (k k' : Scope) (h : List (Option Scope)) :
    epochScopes (some k :: some k' :: h) =
      if k = k' then epochScopes (some k :: h) else k :: epochScopes (some k' :: h) := by
  obtain ⟨first, rest, hs⟩ := List.exists_cons_of_ne_nil (List.splitOnP_ne_nil (· == none) h)
  have hk' := splitOn_some_cons hs k'
  rw [epochScopes, epochScopes, epochScopes, splitOn_some_cons hk' k, splitOn_some_cons hs k, hk']
  simp only [List.flatMap_cons, List.reduceOption_cons_of_some, List.destutter_cons']
  by_cases hk : k = k'
  · rw [if_pos hk, List.destutter'_cons_neg _ (not_not_intro hk)]
  · rw [if_neg hk, List.destutter'_cons_pos _ hk]
    rfl

/-- **Changes are the scopes of the epochs**, also where a scope has been seen before. -/
theorem changes_eq : ∀ h : List (Option Scope), changes none h = epochScopes h ∧
    ∀ k, k :: changes (some k) h = epochScopes (some k :: h)
  | [] => ⟨rfl, fun _ => rfl⟩
  | none :: h => by
    -- what was seen before the end of an epoch does not count after it
    obtain ⟨ih, -⟩ := changes_eq h
    constructor
    · rw [changes, ih, epochScopes_none_cons]
    · intro k
      rw [changes, ih, epochScopes_some_none_cons]
  | some k' :: h => by
    obtain ⟨-, ih⟩ := changes_eq h
    constructor
    · rw [changes, if_neg (by simp), ih]
    · intro k
      rw [changes, epochScopes_some_some_cons]
      by_cases hk : k = k'
      · rw [if_pos (congrArg some hk), if_pos hk, ih]
      · rw [if_neg fun h => hk (Option.some.inj h), if_neg hk, ih]

example : epochScopes [some .code, some .code, some .comment, none, some .comment] =
    [.code, .comment, .comment] := by decide

/-! ### The present epoch -/

/-- The scopes that were seen since the last epoch ended. -/
def presentEpoch (h : List (Option Scope)) : List Scope :=
  ((h.splitOn none).getLastD []).reduceOption

/-- The scope that was seen last in the present epoch, if one was. -/
def presentScope (h : List (Option Scope)) : Option Scope :=
  (presentEpoch h).getLast?

theorem presentScope_none_cons (h : List (Option Scope)) :
    presentScope (none :: h) = presentScope h := by
  obtain ⟨first, rest, hs⟩ := List.exists_cons_of_ne_nil (List.splitOnP_ne_nil (· == none) h)
  rw [presentScope, presentScope, presentEpoch, presentEpoch, splitOn_none_cons, List.splitOn, hs]
  rfl

theorem presentScope_some_none_cons (k : Scope) (h : List (Option Scope)) :
    presentScope (some k :: none :: h) = presentScope h := by
  obtain ⟨first, rest, hs⟩ := List.exists_cons_of_ne_nil (List.splitOnP_ne_nil (· == none) h)
  rw [presentScope, presentScope, presentEpoch, presentEpoch,
    splitOn_some_cons (splitOn_none_cons h), List.splitOn, hs]
  rfl

theorem presentScope_some_some_cons (k k' : Scope) (h : List (Option Scope)) :
    presentScope (some k :: some k' :: h) = presentScope (some k' :: h) := by
  obtain ⟨first, rest, hs⟩ := List.exists_cons_of_ne_nil (List.splitOnP_ne_nil (· == none) h)
  have hk' := splitOn_some_cons hs k'
  rw [presentScope, presentScope, presentEpoch, presentEpoch, splitOn_some_cons hk' k, hk']
  rcases rest with _ | ⟨second, rest⟩
  · simp only [List.getLastD_cons, List.getLastD_nil, List.reduceOption_cons_of_some]
    rfl
  · rfl

/-- **The present scope is what the history ends with**, also where a scope has been seen before. -/
theorem presentScope_eq : ∀ h : List (Option Scope), presentScope h = h.getLastD none ∧
    ∀ k, presentScope (some k :: h) = h.getLastD (some k)
  | [] => ⟨rfl, fun _ => rfl⟩
  | none :: h => by
    obtain ⟨ih, -⟩ := presentScope_eq h
    rw [List.getLastD_cons]
    refine ⟨by rw [presentScope_none_cons, ih], fun k => ?_⟩
    rw [List.getLastD_cons, presentScope_some_none_cons, ih]
  | some k' :: h => by
    obtain ⟨-, ih⟩ := presentScope_eq h
    rw [List.getLastD_cons]
    refine ⟨ih k', fun k => ?_⟩
    rw [List.getLastD_cons, presentScope_some_some_cons, ih]

example : presentScope [some .code, none, some .comment, some .code] = some .code := by decide

end CaretLayout
