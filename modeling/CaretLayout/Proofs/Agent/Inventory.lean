import CaretLayout.Command.Execute
import CaretLayout.Proofs.Agent.Listing

/-!
# Reading an inventory back

The inventory is printed with a layout on each line, a tab between its identifier and its name, and
nothing in them is escaped.  Who splits the output at its line feeds and each line at its first tab
(`readBack`) finds a line too many for each line feed inside a layout (`length_printedLines`), and the
wrong border for a tab inside an identifier (`ofPrinted_lineOf_iff`).  So the layouts are read back
exactly if they are without these (`readBack_print_iff`), and since the agent may name its layouts as
it likes, the command can print an inventory that cannot be read back (`not_readBack_twoLineName`).
-/

namespace CaretLayout

namespace Inventory

/-! ### Lines of an inventory -/

/-- The line of a layout. -/
def lineOf (l : LayoutInfo) : List Char :=
  l.id.toList ++ '\t' :: l.name.toList

/-- The layout that a line shows: the identifier up to its first tab, and the name after it. -/
def ofPrinted (line : List Char) : LayoutInfo where
  id := String.ofList (line.takeWhile (· != '\t'))
  name := String.ofList (line.dropWhile (· != '\t')).tail

/-- What was printed, split at the line feeds. -/
def printedLines (printed : String) : List (List Char) :=
  (Text.segments '\n' printed.toList).map (·.body)

/-- The layouts that are read from what was printed. -/
def readBack (printed : String) : List LayoutInfo :=
  (printedLines printed).map ofPrinted

theorem toList_print_cons (l : LayoutInfo) (ls : List LayoutInfo) :
    (print (l :: ls)).toList = lineOf l ++ '\n' :: (print ls).toList := by
  simp [print, printLayout, lineOf, String.toList_join]

/-- There is a line for each layout, and one more for each line feed inside a layout. -/
theorem length_printedLines (ls : List LayoutInfo) :
    (printedLines (print ls)).length = ls.length + (ls.flatMap lineOf).count '\n' := by
  induction ls with
  | nil => rfl
  | cons l ls ih =>
    rw [printedLines, List.length_map] at ih ⊢
    rw [toList_print_cons, Text.length_segments_append_cons, ih, List.length_cons, List.flatMap_cons,
      List.count_append]
    omega

theorem length_printedLines_iff (ls : List LayoutInfo) :
    (printedLines (print ls)).length = ls.length ↔ ∀ l ∈ ls, '\n' ∉ lineOf l := by
  rw [length_printedLines, Nat.add_eq_left, List.count_eq_zero, List.mem_flatMap]
  simp only [not_exists, not_and]

/-- Without line feeds inside layouts the lines are those of the layouts. -/
theorem printedLines_print {ls : List LayoutInfo} (h : ∀ l ∈ ls, '\n' ∉ lineOf l) :
    printedLines (print ls) = ls.map lineOf := by
  induction ls with
  | nil => rfl
  | cons l ls ih =>
    rw [printedLines, toList_print_cons, Text.segments_append_cons (h l List.mem_cons_self),
      List.map_cons, List.map_cons]
    exact congrArg (lineOf l :: ·) (ih fun m hm => h m (List.mem_cons_of_mem l hm))

/-- The first tab is the border exactly if there is none in the identifier. -/
theorem ofPrinted_lineOf_iff (l : LayoutInfo) : ofPrinted (lineOf l) = l ↔ '\t' ∉ l.id.toList := by
  constructor
  · intro h htab
    have hid : l.id.toList = (lineOf l).takeWhile (· != '\t') := by
      conv_lhs => rw [← h]
      exact String.toList_ofList
    rw [hid] at htab
    exact absurd (List.mem_takeWhile_imp htab) (by decide)
  · intro h
    have hid : ∀ c ∈ l.id.toList, (c != '\t') = true := fun c hc =>
      bne_iff_ne.mpr fun heq => h (heq ▸ hc)
    have htake : (lineOf l).takeWhile (· != '\t') = l.id.toList := by
      rw [lineOf, List.takeWhile_append_of_pos hid, List.takeWhile_cons_of_neg (by decide),
        List.append_nil]
    have hdrop : (lineOf l).dropWhile (· != '\t') = '\t' :: l.name.toList := by
      rw [lineOf, List.dropWhile_append_of_pos hid, List.dropWhile_cons_of_neg (by decide)]
    rw [ofPrinted, htake, hdrop, List.tail_cons, String.ofList_toList, String.ofList_toList]

/-- **The layouts are read back** exactly if no line feed is inside a layout and no tab inside an
identifier. -/
theorem readBack_print_iff (ls : List LayoutInfo) :
    readBack (print ls) = ls ↔ ∀ l ∈ ls, '\n' ∉ lineOf l ∧ '\t' ∉ l.id.toList := by
  have hmap : (ls.map lineOf).map ofPrinted = ls ↔ ∀ l ∈ ls, '\t' ∉ l.id.toList := by
    conv_lhs => rhs; rw [← List.map_id ls]
    rw [List.map_map, List.map_inj_left]
    exact forall₂_congr fun l _ => ofPrinted_lineOf_iff l
  rw [forall₂_and, ← hmap]
  constructor
  · intro h
    have hlines : ∀ l ∈ ls, '\n' ∉ lineOf l := by
      rw [← length_printedLines_iff, ← List.length_map ofPrinted]
      exact congrArg List.length h
    exact ⟨hlines, by rwa [readBack, printedLines_print hlines] at h⟩
  · rintro ⟨hlines, h⟩
    rwa [readBack, printedLines_print hlines]

/-! ### Where the layouts come from -/

/-- What is listed was on a line of the agent. -/
theorem exists_line_of_await {limit : Nat} {w : Wait} {a : LiveAgent} {ls : List LayoutInfo}
    (h : await limit w a = .ok ls) : ∃ line, ofLine? line = some (.ok ls) := by
  induction limit generalizing a w with
  | zero => cases h
  | succ limit ih =>
    rcases hhear : a.hear with _ | ⟨after, notice⟩
    · rw [await, hhear] at h
      cases h
    · rw [await_of_hear hhear] at h
      split at h
      · cases h
      · rcases hanswer : ofNotice? notice with _ | answer
        · rw [hanswer] at h
          exact ih h
        · rw [hanswer] at h
          obtain rfl : answer = .ok ls := h
          cases notice with
          | line text => exact ⟨text, hanswer⟩
          | _ => cases hanswer

theorem exists_line_of_ask {a : LiveAgent} {milliseconds : Nat} {ls : List LayoutInfo}
    (h : ask a milliseconds = .ok ls) : ∃ line, ofLine? line = some (.ok ls) := by
  rw [ask] at h
  dsimp only at h
  split at h
  · cases h
  · exact exists_line_of_await h

/-- A line with layouts is an object whose list offers them. -/
theorem offers_of_ofLine? {line : List Char} {ls : List LayoutInfo}
    (h : ofLine? line = some (.ok ls)) :
    ∃ members items, Json.read (Text.trim line) = .ok (.object members) ∧
      Json.lastMember? "data" members = some (.array items) ∧ Offers items ls := by
  have hdecisive : Decisive line := by
    refine not_not.mp fun hnot => ?_
    rw [ofLine?_eq_none_iff.mpr hnot] at h
    cases h
  obtain ⟨members, hread, hwhy⟩ := hdecisive
  by_cases hstatus : Json.lastMember? "status" members = some (.string "error")
  · rw [ofLine?_of_error hread hstatus] at h
    cases h
  · obtain ⟨items, hdata⟩ := hwhy.resolve_left hstatus
    rw [ofLine?_of_data hread hstatus hdata] at h
    cases h
    exact ⟨members, items, hread, hdata, offers_filterMap items⟩

theorem perform_layouts_eq_ok_iff {w : World} {s : Settings} {milliseconds : Nat} {out : String} :
    w.perform s (.layouts milliseconds) = .ok out ↔
      ∃ ls, ask (w.agent s) milliseconds = .ok ls ∧ print ls = out := by
  rw [World.perform]
  constructor
  · intro h
    rcases hask : ask (w.agent s) milliseconds with failure | ls
    · rw [hask] at h
      cases h
    · rw [hask] at h
      cases h
      exact ⟨ls, rfl, rfl⟩
  · rintro ⟨ls, hask, rfl⟩
    rw [hask]
    rfl

/-- **What the command prints** is the inventory of a reply that carries a list.  There is a line for
each layout exactly if no line feed is inside a layout, and the layouts can be read back exactly if in
addition no tab is inside an identifier. -/
theorem perform_layouts_readBack {w : World} {s : Settings} {milliseconds : Nat} {out : String}
    (h : w.perform s (.layouts milliseconds) = .ok out) :
    ∃ ls, ask (w.agent s) milliseconds = .ok ls ∧
      (∃ line members items, Json.read (Text.trim line) = .ok (.object members) ∧
        Json.lastMember? "data" members = some (.array items) ∧ Offers items ls) ∧
      ((printedLines out).length = ls.length ↔
        ∀ l ∈ ls, '\n' ∉ l.id.toList ∧ '\n' ∉ l.name.toList) ∧
      (readBack out = ls ↔
        ∀ l ∈ ls, ('\n' ∉ l.id.toList ∧ '\n' ∉ l.name.toList) ∧ '\t' ∉ l.id.toList) := by
  obtain ⟨ls, hask, rfl⟩ := perform_layouts_eq_ok_iff.mp h
  obtain ⟨line, hline⟩ := exists_line_of_ask hask
  have hfeeds (l : LayoutInfo) :
      '\n' ∉ lineOf l ↔ '\n' ∉ l.id.toList ∧ '\n' ∉ l.name.toList := by
    simp [lineOf]
  refine ⟨ls, hask, ⟨line, offers_of_ofLine? hline⟩, ?_, ?_⟩
  · rw [length_printedLines_iff]
    simp only [hfeeds]
  · rw [readBack_print_iff]
    simp only [hfeeds]

/-- A program that prints its arguments, each on a line, and ends. -/
def printer : Program where
  trace := fun args start _ =>
    { emissions := [⟨start, .standard,
        Text.Utf8.encode (args.flatMap fun arg => arg.toList ++ ['\n'])⟩]
      ending := some (start, some 0) }

/-- A world with nothing in it but a program. -/
def printerWorld : World where
  disk := {}
  launch := fun _ _ _ _ => .ok printer
  working := []
  configHome := none
  cacheHome := none
  bundle := "."
  input := []

/-- Settings with an agent that is given one line. -/
def given (line : String) : Settings :=
  ({ agent := { path := some "agent", args := [line] } } : Config).settings "."

/-- A reply with a tab and a carriage return in the names of layouts. -/
def tabbedNames : String :=
  "\x7b\"data\":[[\"1\",\"U\\tS\"],\x7b\"name\":\"\\r\",\"id\":\"é\"\x7d]\x7d"

/-- A reply with a layout whose name goes on to a second line. -/
def twoLineName : String :=
  "\x7b\"data\":[[\"1\",\"US\\nInternational\"]]\x7d"

theorem perform_layouts_readBack_tabbedNames :
    printerWorld.perform (given tabbedNames) (.layouts 3000) = .ok "1\tU\tS\né\t\r\n" ∧
    readBack "1\tU\tS\né\t\r\n" = [⟨"1", "U\tS"⟩, ⟨"é", "\r"⟩] := by
  have hprinted : printerWorld.perform (given tabbedNames) (.layouts 3000) =
      .ok "1\tU\tS\né\t\r\n" := by decide +kernel
  have hlisted : ask (printerWorld.agent (given tabbedNames)) 3000 =
      .ok [⟨"1", "U\tS"⟩, ⟨"é", "\r"⟩] := by decide +kernel
  obtain ⟨ls, hask, -, -, hback⟩ := perform_layouts_readBack hprinted
  rw [hlisted] at hask
  cases hask
  exact ⟨hprinted, hback.mpr (by decide)⟩

/-- Not every inventory that is printed can be read back: a name with a line feed takes two lines. -/
theorem not_readBack_twoLineName :
    ¬ ∀ (w : World) (s : Settings) (milliseconds : Nat) (ls : List LayoutInfo) (out : String),
      ask (w.agent s) milliseconds = .ok ls →
      w.perform s (.layouts milliseconds) = .ok out →
      (printedLines out).length = ls.length ∧ readBack out = ls := by
  intro h
  have hlisted : ask (printerWorld.agent (given twoLineName)) 3000 =
      .ok [⟨"1", "US\nInternational"⟩] := by decide +kernel
  have hprinted : printerWorld.perform (given twoLineName) (.layouts 3000) =
      .ok "1\tUS\nInternational\n" := by decide +kernel
  have hlines := (h _ _ _ _ _ hlisted hprinted).1
  revert hlines
  decide +kernel

end Inventory

end CaretLayout
