import CaretLayout.Emulator.Installed
import Mathlib.Data.List.Sort

/-!
# What emulated programs do

An emulated program prints in the order of time, and its exit code is a byte (`lawful_launch`), like a
process of a system.  Among these programs is `cat`, which prints what it reads as it comes and does
not end (`trace_cat`).
-/

namespace CaretLayout

/-- That a process prints in the order of time, and that its exit code is a byte if it has one. -/
structure Trace.Lawful (t : Trace) : Prop where
  inOrder : t.emissions.Pairwise fun a b => a.time ≤ b.time
  code : ∀ time code, t.ending = some (time, some code) → 0 ≤ code ∧ code < 256

namespace Emulator

/-! ### All programs -/

theorem Io.emissions_inOrder (io : Io) :
    io.emissions.Pairwise fun a b => a.time ≤ b.time := by
  refine (List.pairwise_mergeSort (fun a b c hab hbc => ?_) (fun a b => ?_) _).imp fun h => ?_
  · exact decide_eq_true ((of_decide_eq_true hab).trans (of_decide_eq_true hbc))
  · simpa using Nat.le_total a.time b.time
  · exact of_decide_eq_true h

theorem lawful_programOf (run : List (List UInt8) → Io → Exit × Io) (args : List String) (start : Nat)
    (input : List InputByte) : ((programOf run).trace args start input).Lawful where
  inOrder := Io.emissions_inOrder _
  code time code hending := by
    dsimp only [programOf] at hending
    split at hending
    · next n heq =>
      cases hending
      omega
    · cases hending
    · cases hending

theorem exists_programOf_of_ofName? {name : String} {p : Program} (h : ofName? name = some p) :
    ∃ run, p = programOf run := by
  unfold ofName? at h
  split_ifs at h
  · exact ⟨_, (Option.some.inj h).symm⟩
  · exact ⟨_, (Option.some.inj h).symm⟩
  · exact ⟨_, (Option.some.inj h).symm⟩

theorem exists_programOf_of_programAt {names : List String} {p : Program}
    (h : programAt names = .ok p) : ∃ run, p = programOf run := by
  unfold programAt at h
  split at h
  · split at h
    · next q hq =>
      cases h
      obtain ⟨name, -, hname⟩ := Option.bind_eq_some_iff.mp hq
      exact exists_programOf_of_ofName? hname
    · cases h
  · cases h

theorem exists_programOf_of_findProgram {d : Disk} {working : List String} {path : String}
    {p : Program} (h : findProgram d working path = .ok p) : ∃ run, p = programOf run := by
  unfold findProgram at h
  split_ifs at h
  · split at h
    · exact exists_programOf_of_programAt h
    · cases h
    · cases h
  · split at h
    · next q hq =>
      cases h
      exact exists_programOf_of_ofName? hq
    · cases h

/-- **Every program that can be started** prints in the order of time and ends with a byte. -/
theorem lawful_launch {d : Disk} {working : List String} {path : String} {args : List String}
    {p : Program} (h : launch d working path args = .ok p) (given : List String) (start : Nat)
    (input : List InputByte) : (p.trace given start input).Lawful := by
  unfold launch at h
  split_ifs at h
  obtain ⟨run, rfl⟩ := exists_programOf_of_findProgram h
  exact lawful_programOf run given start input

/-! ### Copying -/

theorem Io.print_inputEnds (io : Io) (sink : Sink) (bytes : List UInt8) :
    (io.print sink bytes).inputEnds = io.inputEnds := by
  unfold print
  split_ifs
  · rfl
  · rfl

theorem Io.copyInput_inputEnds (io : Io) (sink : Sink) :
    (io.copyInput sink).inputEnds = io.inputEnds := by
  have h : ∀ (input : List InputByte) (io : Io),
      (input.foldl (fun io b => (io.waitUntil b.time).print sink [b.byte]) io).inputEnds =
        io.inputEnds := by
    intro input
    induction input with
    | nil => exact fun _ => rfl
    | cons b input ih =>
      intro io
      rw [List.foldl_cons, ih, print_inputEnds]
      rfl
  exact h io.input io

/-- Input that comes in the order of time is printed byte by byte. -/
theorem Io.printed_foldl (sink : Sink) : ∀ {input : List InputByte} {io : Io},
    (∀ b ∈ input, io.clock ≤ b.time) → input.Pairwise (fun a b => a.time ≤ b.time) →
      (input.foldl (fun io b => (io.waitUntil b.time).print sink [b.byte]) io).printed =
        (input.map fun b => (⟨b.time, sink, [b.byte]⟩ : Printed)).reverse ++ io.printed
  | [], io, _, _ => rfl
  | b :: input, io, hclock, horder => by
    obtain ⟨hfirst, hrest⟩ := List.pairwise_cons.mp horder
    have hnow : max io.clock b.time = b.time := max_eq_right (hclock b List.mem_cons_self)
    have hprint : (io.waitUntil b.time).print sink [b.byte] =
        { io with clock := b.time, printed := ⟨b.time, sink, [b.byte]⟩ :: io.printed } := by
      rw [waitUntil, hnow]
      rfl
    rw [List.foldl_cons, hprint, printed_foldl sink hfirst hrest, List.map_cons, List.reverse_cons,
      List.append_assoc]
    rfl

/-- A byte that is printed when it comes. -/
def echoed (b : InputByte) : Emission :=
  ⟨b.time, .standard, [b.byte]⟩

theorem Io.emissions_copyInput {io : Io} (hnew : io.printed = [])
    (hclock : ∀ b ∈ io.input, io.clock ≤ b.time)
    (horder : io.input.Pairwise fun a b => a.time ≤ b.time) :
    (io.copyInput (.stream .standard)).emissions = io.input.map echoed := by
  have hsorted : (io.input.map echoed).Pairwise fun a b => decide (a.time ≤ b.time) = true :=
    List.pairwise_map.mpr (horder.imp decide_eq_true)
  rw [emissions, copyInput]
  dsimp only
  rw [printed_foldl (.stream .standard) hclock horder, hnew, List.append_nil, List.reverse_reverse,
    List.filterMap_map]
  exact (congrArg (List.mergeSort · _) (congrFun (List.filterMap_eq_map (f := echoed)) io.input)).trans
    (List.mergeSort_of_pairwise hsorted)

theorem runTool_cat {io : Io} (h : io.inputEnds = false) :
    runTool "cat" {} [] io = some (.waiting, io.copyInput (.stream .standard)) := by
  have hends := (io.copyInput_inputEnds (.stream .standard)).trans h
  simp only [runTool, List.filter_nil, List.isEmpty_nil, if_true, concatenate, hends]
  rfl

theorem launch_cat (d : Disk) (working : List String) :
    launch d working "cat" [] = .ok (tool "cat") := rfl

/-- **`cat` prints what it reads**, each byte when it comes, and does not end. -/
theorem trace_cat {start : Nat} {input : List InputByte} (hstart : ∀ b ∈ input, start ≤ b.time)
    (horder : input.Pairwise fun a b => a.time ≤ b.time) :
    (tool "cat").trace [] start input = ⟨input.map echoed, none⟩ := by
  rw [tool, programOf]
  dsimp only
  rw [List.map_nil, runTool_cat rfl, Option.getD_some]
  dsimp only
  rw [Io.emissions_copyInput rfl hstart horder]

end Emulator

end CaretLayout
