import CaretLayout.Proofs.Dispatch.Debouncer
import Mathlib.Data.List.Induction

/-!
# What becomes of an item

An item that is held back is fired by a poll, returned by a cancellation, or replaced by the next
item; else it still waits.  A debouncer holds back one item at a time, so the items meet their fates
one after another, in the order in which they were scheduled (`scheduled_eq`).  Hence none is lost
and none is fired twice.

When a poll fires follows from what has been done before (`poll_eq_some_iff`): something is held back
exactly when only polls came after the last item, and none of them fired.  Nothing is assumed of the
times, which may also go back.
-/

namespace CaretLayout.Debouncer

variable {α β : Type}

/-! ### Operations and fates -/

/-- An operation on a debouncer. -/
inductive Operation (α : Type) where
  | schedule (now : Nat) (item : α)
  | poll (now : Nat)
  | cancel
deriving DecidableEq, Repr

namespace Operation

/-- The item that an operation schedules. -/
def item? : Operation α → Option α
  | .schedule _ item => some item
  | .poll _ => none
  | .cancel => none

/-- Whether an operation is a poll. -/
def isPoll : Operation α → Bool
  | .poll _ => true
  | _ => false

/-- The operation with another item in place of its own. -/
def map (f : α → β) : Operation α → Operation β
  | .schedule now item => .schedule now (f item)
  | .poll now => .poll now
  | .cancel => .cancel

end Operation

/-- The items that operations schedule. -/
def scheduled (ops : List (Operation α)) : List α :=
  ops.filterMap Operation.item?

/-- What becomes of an item that waits no longer. -/
inductive Fate (α : Type) where
  /-- A poll has given it out. -/
  | fired (item : α)
  /-- A cancellation has returned it. -/
  | cancelled (item : α)
  /-- Another item has been scheduled while it was waiting. -/
  | replaced (item next : α)
deriving DecidableEq, Repr

namespace Fate

/-- The item that meets a fate. -/
def item : Fate α → α
  | .fired item => item
  | .cancelled item => item
  | .replaced item _ => item

/-- The item, if it is fired. -/
def fired? : Fate α → Option α
  | .fired item => some item
  | _ => none

/-- The fate with other items in place of its own. -/
def map (f : α → β) : Fate α → Fate β
  | .fired item => .fired (f item)
  | .cancelled item => .cancelled (f item)
  | .replaced item next => .replaced (f item) (f next)

end Fate

/-- Carries out an operation, with the item that it gives out. -/
def apply (d : Debouncer α) : Operation α → Debouncer α × Option α
  | .schedule now item => (d.schedule now item, none)
  | .poll now => d.poll now
  | .cancel => d.cancel

/-- Carries out operations in order. -/
def after (d : Debouncer α) (ops : List (Operation α)) : Debouncer α :=
  ops.foldl (fun d op => (d.apply op).1) d

/-- The fate that an operation brings upon the item that waits. -/
def fate? (d : Debouncer α) : Operation α → Option (Fate α)
  | .schedule _ next => d.pending.map fun item => .replaced item next
  | .poll now => (d.poll now).2.map .fired
  | .cancel => d.cancel.2.map .cancelled

/-- The fates that operations bring about, in order. -/
def fates : Debouncer α → List (Operation α) → List (Fate α)
  | _, [] => []
  | d, op :: more => (d.fate? op).toList ++ fates (d.apply op).1 more

theorem after_append (d : Debouncer α) (ops more : List (Operation α)) :
    d.after (ops ++ more) = (d.after ops).after more :=
  List.foldl_append

theorem after_concat (d : Debouncer α) (ops : List (Operation α)) (op : Operation α) :
    d.after (ops ++ [op]) = ((d.after ops).apply op).1 :=
  d.after_append ops [op]

theorem fates_append : ∀ (ops : List (Operation α)) (d : Debouncer α) (more : List (Operation α)),
    d.fates (ops ++ more) = d.fates ops ++ (d.after ops).fates more
  | [], _, _ => rfl
  | op :: ops, d, more => by
    rw [List.cons_append, fates, fates, fates_append ops, List.append_assoc]
    rfl

/-! ### Each item meets one fate -/

theorem poll_fate (d : Debouncer α) (now : Nat) :
    (d.fate? (.poll now) = none ∧ (d.apply (.poll now)).1 = d) ∨
      ∃ w, d.waiting = some w ∧ d.fate? (.poll now) = some (.fired w.item) ∧
        (d.apply (.poll now)).1 = { d with waiting := none } := by
  simp only [fate?, apply]
  rcases d.poll_cases now with hp | ⟨w, hw, -, hp⟩
  · rw [hp]
    exact Or.inl ⟨rfl, rfl⟩
  · rw [hp]
    exact Or.inr ⟨w, hw, rfl, rfl⟩

/-- **One operation**: the item that waits meets its fate, or goes on waiting, in which case no other
item is scheduled. -/
theorem pending_apply (d : Debouncer α) (op : Operation α) :
    d.pending.toList ++ op.item?.toList =
      (d.fate? op).toList.map Fate.item ++ (d.apply op).1.pending.toList := by
  cases op with
  | schedule now next => rcases d with ⟨quiet, _ | w⟩ <;> rfl
  | poll now =>
    rcases d.poll_fate now with ⟨hfate, hd⟩ | ⟨w, hw, hfate, hd⟩
    · rw [hfate, hd]
      exact List.append_nil _
    · rw [hfate, hd, pending, hw]
      rfl
  | cancel => rcases d with ⟨quiet, _ | w⟩ <;> rfl

theorem pending_append_scheduled_cons (d : Debouncer α) (op : Operation α)
    (more : List (Operation α)) :
    d.pending.toList ++ scheduled (op :: more) =
      (d.fate? op).toList.map Fate.item ++
        ((d.apply op).1.pending.toList ++ scheduled more) := by
  have hcons : scheduled (op :: more) = op.item?.toList ++ scheduled more := by
    unfold scheduled
    rcases hi : op.item? with _ | item
    · exact List.filterMap_cons_none hi
    · exact List.filterMap_cons_some hi
  rw [hcons, ← List.append_assoc, pending_apply, List.append_assoc]

/-- The items that wait and are scheduled meet the fates, one for one and in this order; an item that
is left over waits at the end. -/
theorem pending_append_scheduled : ∀ (ops : List (Operation α)) (d : Debouncer α),
    d.pending.toList ++ scheduled ops =
      (d.fates ops).map Fate.item ++ (d.after ops).pending.toList
  | [], d => List.append_nil _
  | op :: more, d => by
    rw [pending_append_scheduled_cons, pending_append_scheduled more, fates, List.map_append,
      List.append_assoc]
    rfl

theorem pending_of_replaced {d : Debouncer α} {op : Operation α} {item next : α}
    (h : d.fate? op = some (.replaced item next)) : (d.apply op).1.pending = some next := by
  cases op with
  | schedule now x =>
    obtain ⟨_, -, heq⟩ := Option.map_eq_some_iff.mp h
    cases heq
    rfl
  | poll now =>
    obtain ⟨_, -, heq⟩ := Option.map_eq_some_iff.mp h
    cases heq
  | cancel =>
    obtain ⟨_, -, heq⟩ := Option.map_eq_some_iff.mp h
    cases heq

/-- An item is replaced by the one that is scheduled directly after it. -/
theorem next_of_replaced : ∀ {ops : List (Operation α)} {d : Debouncer α} {k : Nat} {item next : α},
    (d.fates ops)[k]? = some (.replaced item next) →
      (d.pending.toList ++ scheduled ops)[k + 1]? = some next
  | [], d, k, item, next, h => by cases h
  | op :: more, d, k, item, next, h => by
    rw [pending_append_scheduled_cons]
    rw [fates] at h
    rcases hf : d.fate? op with _ | f
    · rw [hf] at h
      exact next_of_replaced (k := k) h
    · rw [hf] at h
      rcases k with _ | k
      · obtain rfl : f = .replaced item next := Option.some.inj h
        rw [pending_of_replaced hf]
        rfl
      · exact next_of_replaced (k := k) h

/-- What is fired is some of the items that meet a fate, in the same order. -/
theorem fired_sublist : ∀ fates : List (Fate α),
    (fates.filterMap Fate.fired?).Sublist (fates.map Fate.item)
  | [] => .slnil
  | .fired item :: more => (fired_sublist more).cons_cons item
  | .cancelled item :: more => (fired_sublist more).cons item
  | .replaced item _ :: more => (fired_sublist more).cons item

/-! ### When an item is fired -/

theorem quiet_after : ∀ (ops : List (Operation α)) (d : Debouncer α), (d.after ops).quiet = d.quiet
  | [], _ => rfl
  | op :: more, d => by
    have hop : (d.apply op).1.quiet = d.quiet := by
      cases op with
      | schedule now item => rfl
      | poll now =>
        rcases d.poll_fate now with ⟨-, hd⟩ | ⟨w, -, -, hd⟩
        · rw [hd]
        · rw [hd]
      | cancel => rfl
    exact (quiet_after more (d.apply op).1).trans hop

/-- Operations have scheduled an item at a time, and it is still the last one: only polls came after
it, and none of them fired. -/
def HeldSince (d : Debouncer α) (ops : List (Operation α)) (time : Nat) (item : α) : Prop :=
  ∃ earlier later, ops = earlier ++ .schedule time item :: later ∧
    (∀ op ∈ later, op.isPoll = true) ∧ (d.after (earlier ++ [.schedule time item])).fates later = []

/-- Polls that do not fire change nothing. -/
theorem after_of_fates_eq_nil : ∀ {ops : List (Operation α)} {d : Debouncer α},
    (∀ op ∈ ops, op.isPoll = true) → d.fates ops = [] → d.after ops = d
  | [], _, _, _ => rfl
  | op :: more, d, hpolls, hfates => by
    obtain ⟨hop, hmore⟩ := List.forall_mem_cons.mp hpolls
    obtain ⟨hfate, hfates⟩ := List.append_eq_nil_iff.mp hfates
    cases op with
    | poll now =>
      rcases d.poll_fate now with ⟨-, hd⟩ | ⟨w, -, hw, -⟩
      · rw [hd] at hfates
        show (d.apply (.poll now)).1.after more = d
        rw [hd]
        exact after_of_fates_eq_nil hmore hfates
      · rw [hw] at hfate
        cases hfate
    | schedule | cancel => cases hop

theorem HeldSince.waiting {d : Debouncer α} {ops : List (Operation α)} {time : Nat} {item : α}
    (h : d.HeldSince ops time item) : (d.after ops).waiting = some ⟨item, time + d.quiet⟩ := by
  obtain ⟨earlier, later, rfl, hpolls, hfates⟩ := h
  rw [List.append_cons, after_append, after_of_fates_eq_nil hpolls hfates, after_concat]
  exact congrArg (fun quiet => some (Waiting.mk item (time + quiet))) (d.quiet_after earlier)

/-- What waits after some operations has been scheduled by them, unless it was there before. -/
theorem heldSince_of_waiting {d : Debouncer α} (hd : d.waiting = none) {ops : List (Operation α)}
    {w : Waiting α} (h : (d.after ops).waiting = some w) :
    ∃ time, d.HeldSince ops time w.item ∧ w.deadline = time + d.quiet := by
  induction ops using List.reverseRecOn with
  | nil =>
    have hnone : (d.after []).waiting = none := hd
    rw [hnone] at h
    cases h
  | append_singleton ops op ih =>
    rw [after_concat] at h
    cases op with
    | schedule now item =>
      have hw : some (Waiting.mk item (now + (d.after ops).quiet)) = some w := h
      rw [quiet_after] at hw
      obtain rfl := Option.some.inj hw
      exact ⟨now, ⟨ops, [], rfl, List.forall_mem_nil _, rfl⟩, rfl⟩
    | poll now =>
      rcases (d.after ops).poll_fate now with ⟨hfate, hsame⟩ | ⟨_, -, -, hgone⟩
      · rw [hsame] at h
        obtain ⟨time, ⟨earlier, later, rfl, hpolls, hfates⟩, hdeadline⟩ := ih h
        refine ⟨time, ⟨earlier, later ++ [.poll now], by simp, ?_, ?_⟩, hdeadline⟩
        · intro op hop
          rcases List.mem_append.mp hop with hop | hop
          · exact hpolls op hop
          · rw [List.mem_singleton.mp hop]
            rfl
        · rw [List.append_cons, after_append] at hfate
          rw [fates_append, hfates, fates, hfate]
          rfl
      · rw [hgone] at h
        cases h
    | cancel =>
      have hnone : none = some w := h
      cases hnone

/-- **When a poll fires**: the item was scheduled last, neither fired nor cancelled since then, and the
quiet interval is over. -/
theorem poll_eq_some_iff {d : Debouncer α} (hd : d.waiting = none) {ops : List (Operation α)}
    {now : Nat} {item : α} :
    ((d.after ops).poll now).2 = some item ↔
      ∃ time, d.HeldSince ops time item ∧ time + d.quiet ≤ now := by
  constructor
  · intro h
    rcases (d.after ops).poll_cases now with hp | ⟨w, hw, hle, hp⟩
    · rw [hp] at h
      cases h
    · rw [hp] at h
      obtain rfl := Option.some.inj h
      obtain ⟨time, hheld, hdeadline⟩ := heldSince_of_waiting hd hw
      exact ⟨time, hheld, hdeadline ▸ hle⟩
  · rintro ⟨time, hheld, hle⟩
    rw [poll_of_le hheld.waiting hle]

/-! ### The item and its deadline in two places -/

namespace Fields

/-- Carries out an operation, with the item that it gives out. -/
def apply (f : Fields α) : Operation α → Fields α × Option α
  | .schedule now item => (f.schedule now item, none)
  | .poll now => f.poll now
  | .cancel => f.cancel

/-- Carries out operations in order. -/
def after (f : Fields α) (ops : List (Operation α)) : Fields α :=
  ops.foldl (fun f op => (f.apply op).1) f

theorem Reached.after : ∀ {f : Fields α} (ops : List (Operation α)), f.Reached → (f.after ops).Reached
  | _, [], h => h
  | f, op :: more, h => by
    have hop : (f.apply op).1.Reached := by
      cases op with
      | schedule now item => exact h.schedule now item
      | poll now => exact h.poll now
      | cancel => exact h.cancel
    exact Reached.after more hop

end Fields

theorem fields_apply (d : Debouncer α) (op : Operation α) :
    ((d.apply op).1.fields, (d.apply op).2) = d.fields.apply op := by
  cases op with
  | schedule now item => exact congrArg (·, none) (d.fields_schedule now item)
  | poll now => exact d.fields_poll now
  | cancel => exact d.fields_cancel

theorem fields_after : ∀ (ops : List (Operation α)) (d : Debouncer α),
    (d.after ops).fields = d.fields.after ops
  | [], _ => rfl
  | op :: more, d => by
    have hop : (d.apply op).1.fields = (d.fields.apply op).1 := congrArg Prod.fst (d.fields_apply op)
    have hmore := fields_after more (d.apply op).1
    rw [hop] at hmore
    exact hmore

/-! ### Items under marks -/

/-- The debouncer with another item in place of its own. -/
def map (f : α → β) (d : Debouncer α) : Debouncer β where
  quiet := d.quiet
  waiting := d.waiting.map fun w => ⟨f w.item, w.deadline⟩

theorem apply_map (f : α → β) (d : Debouncer α) (op : Operation α) :
    ((d.map f).apply (op.map f)).1 = (d.apply op).1.map f ∧
      (d.map f).fate? (op.map f) = (d.fate? op).map (Fate.map f) := by
  obtain ⟨quiet, waiting⟩ := d
  cases op with
  | schedule now item => rcases waiting with _ | w <;> exact ⟨rfl, rfl⟩
  | poll now =>
    rcases waiting with _ | w
    · exact ⟨rfl, rfl⟩
    · simp only [Operation.map, apply, fate?]
      by_cases hle : w.deadline ≤ now
      · rw [poll_of_le (d := ⟨quiet, some w⟩) rfl hle, poll_of_le (d := map f ⟨quiet, some w⟩) rfl hle]
        exact ⟨rfl, rfl⟩
      · have hlt := Nat.lt_of_not_le hle
        rw [poll_of_lt (d := ⟨quiet, some w⟩) rfl hlt, poll_of_lt (d := map f ⟨quiet, some w⟩) rfl hlt]
        exact ⟨rfl, rfl⟩
  | cancel => rcases waiting with _ | w <;> exact ⟨rfl, rfl⟩

/-- What becomes of items does not depend on what they are. -/
theorem fates_map (f : α → β) : ∀ (ops : List (Operation α)) (d : Debouncer α),
    (d.map f).fates (ops.map (Operation.map f)) = (d.fates ops).map (Fate.map f)
  | [], _ => rfl
  | op :: more, d => by
    obtain ⟨hd, hfate⟩ := d.apply_map f op
    rw [List.map_cons, fates, fates, hd, hfate, fates_map f more, List.map_append]
    rcases d.fate? op with _ | fate <;> rfl

/-! ### The theorem -/

/-- What holds of a debouncer after operations at any times. -/
structure Conserves (d : Debouncer α) (ops : List (Operation α)) : Prop where
  /-- Kept in two places, an item is there exactly when a deadline is set. -/
  paired : (d.fields.after ops).pending.isSome = (d.fields.after ops).deadline.isSome
  /-- The two places hold what the debouncer holds, and give out the same in every operation. -/
  fields : ∀ op, (((d.after ops).apply op).1.fields, ((d.after ops).apply op).2) =
    (d.fields.after ops).apply op
  /-- The items that are scheduled meet one fate each, in the order in which they were scheduled, but
  for an item that still waits at the end. -/
  conserved : scheduled ops = (d.fates ops).map Fate.item ++ (d.after ops).pending.toList
  /-- An item is replaced by the next one that is scheduled. -/
  replaced : ∀ {k item next}, (d.fates ops)[k]? = some (.replaced item next) →
    (scheduled ops)[k + 1]? = some next
  /-- Equal items are not mixed up: marks on the items stay with them. -/
  marked : ∀ {β : Type} (f : α → β),
    (d.map f).fates (ops.map (Operation.map f)) = (d.fates ops).map (Fate.map f)
  /-- A poll fires the item that was scheduled last, if it has neither fired nor been cancelled since
  and the quiet interval is over. -/
  poll : ∀ {now item}, ((d.after ops).poll now).2 = some item ↔
    ∃ time, d.HeldSince ops time item ∧ time + d.quiet ≤ now
  /-- What is fired is a part of what is scheduled, in the same order and each item at most once. -/
  fired : ((d.fates ops).filterMap Fate.fired?).Sublist (scheduled ops)

/-- **A debouncer conserves its items and fires the latest**, whatever the quiet interval and the
times. -/
theorem after_conserves (quiet : Nat) (ops : List (Operation α)) :
    Conserves { quiet := quiet } ops := by
  have hconserved : scheduled ops = (fates { quiet := quiet } ops).map Fate.item ++
      (after { quiet := quiet } ops).pending.toList :=
    pending_append_scheduled ops { quiet := quiet }
  exact {
    paired := ((Fields.Reached.new quiet).after ops).paired
    fields := fun op => by
      have hafter := fields_after ops ({ quiet := quiet } : Debouncer α)
      rw [fields_apply, hafter]
    conserved := hconserved
    replaced := fun h => next_of_replaced h
    marked := fun f => fates_map f ops _
    poll := poll_eq_some_iff rfl
    fired := by
      have hitems : ((fates { quiet := quiet } ops).map Fate.item).Sublist (scheduled ops) := by
        rw [hconserved]
        exact List.sublist_append_left _ _
      exact (fired_sublist _).trans hitems }

/-- The second of two equal items is fired.  The time goes back after that, and the last item waits. -/
example : fates { quiet := 10 } [.schedule 0 'a', .schedule 20 'a', .poll 29, .poll 30,
      .schedule 5 'b', .cancel, .cancel, .schedule 6 'c'] =
    [.replaced 'a' 'a', .fired 'a', .cancelled 'b'] := by decide

end CaretLayout.Debouncer
