import CaretLayout.Dispatch.Debouncer

/-!
# The item and its deadline, kept apart

A poll gives out the item that waits once its deadline has come, and else it changes nothing
(`poll_cases`).

A debouncer holds the waiting item together with its deadline, so that neither can be there without
the other.  `Fields` keeps them apart, as two variables that each operation has to change together.
They do stay together (`Fields.Reached.paired`), and a debouncer seen as `Fields` goes through the
same operations with the same results (`fields_schedule`, `fields_poll`, `fields_cancel`).  So
nothing is lost where the two are held as one.
-/

namespace CaretLayout.Debouncer

variable {α : Type}

/-! ### When an item is given out -/

section Poll

variable {d : Debouncer α}

theorem poll_of_none {now : Nat} (h : d.waiting = none) : d.poll now = (d, none) := by
  unfold poll; rw [h]

theorem poll_of_le {now : Nat} {w : Waiting α} (h : d.waiting = some w) (hle : w.deadline ≤ now) :
    d.poll now = ({ d with waiting := none }, some w.item) := by
  unfold poll; rw [h]; exact if_pos hle

theorem poll_of_lt {now : Nat} {w : Waiting α} (h : d.waiting = some w) (hlt : now < w.deadline) :
    d.poll now = (d, none) := by
  unfold poll; rw [h]; exact if_neg (Nat.not_le.mpr hlt)

/-- An item is given out when it has waited up to its deadline, and nothing waits then; otherwise
nothing changes. -/
theorem poll_cases (d : Debouncer α) (now : Nat) :
    d.poll now = (d, none) ∨ ∃ w, d.waiting = some w ∧ w.deadline ≤ now ∧
      d.poll now = ({ d with waiting := none }, some w.item) := by
  rcases hw : d.waiting with _ | w
  · exact Or.inl (poll_of_none hw)
  · rcases Nat.lt_or_ge now w.deadline with hlt | hle
    · exact Or.inl (poll_of_lt hw hlt)
    · exact Or.inr ⟨w, rfl, hle, poll_of_le hw hle⟩

/-- What is due is given out and what is not due goes on waiting. -/
theorem poll_eq (d : Debouncer α) (now : Nat) :
    d.poll now = ({ d with waiting := d.waiting.filter fun w => decide (now < w.deadline) },
      (d.waiting.filter fun w => decide (w.deadline ≤ now)).map (·.item)) := by
  obtain ⟨quiet, waiting⟩ := d
  rcases waiting with _ | w
  · rfl
  · by_cases hle : w.deadline ≤ now
    · rw [poll_of_le rfl hle]
      simp [Option.filter, hle, Nat.not_lt.mpr hle]
    · rw [poll_of_lt rfl (Nat.lt_of_not_le hle)]
      simp [Option.filter, hle, Nat.lt_of_not_le hle]

end Poll

/-! ### Two places -/

/-- A debouncer with the item and the deadline in two places. -/
structure Fields (α : Type) where
  quiet : Nat
  pending : Option α := none
  deadline : Option Nat := none

namespace Fields

/-- Puts an item in place of any other and starts the interval again. -/
def schedule (f : Fields α) (now : Nat) (item : α) : Fields α :=
  { f with pending := some item, deadline := some (now + f.quiet) }

/-- Forgets the deadline and takes the item out. -/
def cancel (f : Fields α) : Fields α × Option α :=
  ({ f with pending := none, deadline := none }, f.pending)

/-- Does so when there is a deadline and it has come. -/
def poll (f : Fields α) (now : Nat) : Fields α × Option α :=
  match f.deadline with
  | none => (f, none)
  | some deadline => if now < deadline then (f, none) else f.cancel

/-- What operations in any order, at any times, can lead to. -/
inductive Reached : Fields α → Prop where
  | new (quiet : Nat) : Reached { quiet := quiet }
  | schedule {f : Fields α} (h : Reached f) (now : Nat) (item : α) : Reached (f.schedule now item)
  | poll {f : Fields α} (h : Reached f) (now : Nat) : Reached (f.poll now).1
  | cancel {f : Fields α} (h : Reached f) : Reached f.cancel.1

theorem poll_cases (f : Fields α) (now : Nat) : f.poll now = (f, none) ∨ f.poll now = f.cancel := by
  unfold poll
  rcases f.deadline with _ | deadline
  · exact Or.inl rfl
  · by_cases hlt : now < deadline
    · exact Or.inl (if_pos hlt)
    · exact Or.inr (if_neg hlt)

/-- There is an item exactly when there is a deadline. -/
theorem Reached.paired {f : Fields α} (h : f.Reached) : f.pending.isSome = f.deadline.isSome := by
  induction h with
  | new quiet => rfl
  | schedule _ now item _ => rfl
  | @poll f _ now ih =>
    rcases f.poll_cases now with hp | hp
    · rw [hp]
      exact ih
    · rw [hp]
      rfl
  | cancel _ _ => rfl

end Fields

/-- A debouncer as two fields. -/
def fields (d : Debouncer α) : Fields α :=
  ⟨d.quiet, d.pending, d.deadline⟩

theorem fields_schedule (d : Debouncer α) (now : Nat) (item : α) :
    (d.schedule now item).fields = d.fields.schedule now item := rfl

theorem fields_cancel (d : Debouncer α) :
    (d.cancel.1.fields, d.cancel.2) = d.fields.cancel := rfl

theorem fields_poll (d : Debouncer α) (now : Nat) :
    ((d.poll now).1.fields, (d.poll now).2) = d.fields.poll now := by
  obtain ⟨quiet, waiting⟩ := d
  rcases waiting with _ | w
  · rfl
  · by_cases hle : w.deadline ≤ now
    · simp [poll, fields, Fields.poll, Fields.cancel, pending, deadline, hle, Nat.not_lt.mpr hle]
    · simp [poll, fields, Fields.poll, pending, deadline, hle, Nat.lt_of_not_le hle]

end CaretLayout.Debouncer
