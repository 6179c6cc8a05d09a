import CaretLayout.Text.Line

/-!
# Segments of a stream in chunks

A buffer that receives a byte stream in chunks gives out the segments of the stream, however it is
divided.  Feeding is first brought down to single bytes (`feed_lineFeed_cons`, `feed_cons_of_ne`), so
that chunks can be joined (`feedAll_eq_feed`).  What has been given out and what still waits are then
the segments of all bytes so far (`feed_append_rest`), and only what waits lacks its line feed.
-/

namespace CaretLayout.Text

/-! ### Cutting a sequence -/

section Cut

variable {α : Type} [BEq α] [LawfulBEq α] {sep : α}

theorem segments_append_cons : ∀ {front : List α}, sep ∉ front → ∀ rest : List α,
    segments sep (front ++ sep :: rest) = ⟨front, true⟩ :: segments sep rest
  | [], _, rest => by
    rw [List.nil_append, segments, if_pos (beq_self_eq_true sep)]
  | c :: front, h, rest => by
    have hc : ¬ (c == sep) = true := fun hc => h (by rw [eq_of_beq hc]; exact List.mem_cons_self)
    have hfront : sep ∉ front := fun hm => h (List.mem_cons_of_mem c hm)
    rw [List.cons_append, segments, if_neg hc, segments_append_cons hfront rest]
    rfl

theorem segments_of_not_mem : ∀ {l : List α}, sep ∉ l → l ≠ [] →
    segments sep l = [⟨l, false⟩]
  | [], _, hne => absurd rfl hne
  | c :: l, h, _ => by
    have hc : ¬ (c == sep) = true := fun hc => h (by rw [eq_of_beq hc]; exact List.mem_cons_self)
    rw [segments, if_neg hc]
    rcases hl : l with _ | ⟨c', l'⟩
    · rfl
    · rw [← hl, segments_of_not_mem (fun hm => h (List.mem_cons_of_mem c hm)) (by simp [hl])]
      rfl

/-- Each separator ends a segment, so there is one segment more for each that stands before another. -/
theorem length_segments_append_cons : ∀ front rest : List α,
    (segments sep (front ++ sep :: rest)).length =
      front.count sep + 1 + (segments sep rest).length
  | [], rest => by
    rw [List.nil_append, segments, if_pos (beq_self_eq_true sep), List.length_cons, List.count_nil]
    omega
  | c :: front, rest => by
    have ih := length_segments_append_cons front rest
    rw [List.cons_append, segments, List.count_cons]
    split
    · rw [List.length_cons, ih]
      omega
    · rcases hs : segments sep (front ++ sep :: rest) with _ | ⟨s, more⟩
      · rw [hs, List.length_nil] at ih
        omega
      · rw [hs] at ih
        exact ih

end Cut

/-! ### Feeding a buffer -/

namespace Buffer

theorem feed_nil (b : Buffer) : b.feed [] = (b, []) := rfl

/-- A line feed completes the segment that waits. -/
theorem feed_lineFeed_cons (b : Buffer) (rest : List UInt8) :
    b.feed (lineFeed :: rest) =
      ((feed {} rest).1, ⟨b.latest.reverse, true⟩ :: (feed {} rest).2) := by
  rw [feed, segments, if_pos (beq_self_eq_true lineFeed), feedSegments, if_pos rfl]
  simp only [Segment.prepend, List.append_nil]
  rfl

/-- Any other byte waits with the others. -/
theorem feed_cons_of_ne (b : Buffer) {c : UInt8} (hc : c ≠ lineFeed) (rest : List UInt8) :
    b.feed (c :: rest) = feed ⟨c :: b.latest⟩ rest := by
  rw [feed, feed, segments, if_neg fun h => hc (eq_of_beq h)]
  rcases segments lineFeed rest with _ | ⟨⟨body, ended⟩, more⟩
  · rfl
  · rcases ended with _ | _
    · simp [feedSegments, Segment.prepend]
    · simp [feedSegments, Segment.prepend]

theorem feed_append : ∀ (front : List UInt8) (b : Buffer) (rest : List UInt8),
    b.feed (front ++ rest) = (((b.feed front).1.feed rest).1,
      (b.feed front).2 ++ ((b.feed front).1.feed rest).2)
  | [], b, rest => rfl
  | c :: front, b, rest => by
    by_cases hc : c = lineFeed
    · subst hc
      rw [List.cons_append, feed_lineFeed_cons, feed_lineFeed_cons, feed_append front]
      rfl
    · rw [List.cons_append, feed_cons_of_ne b hc, feed_cons_of_ne b hc, feed_append front]

/-- **The division into chunks does not matter.** -/
theorem feedAll_eq_feed : ∀ (chunks : List (List UInt8)) (b : Buffer),
    b.feedAll chunks = b.feed chunks.flatten
  | [], b => rfl
  | chunk :: chunks, b => by
    rw [feedAll, List.flatten_cons, feed_append]
    simp only [feedAll_eq_feed chunks]

/-- What is given out and what still waits are the segments of the stream. -/
theorem feed_append_rest : ∀ (bytes : List UInt8) {b : Buffer}, lineFeed ∉ b.latest →
    (b.feed bytes).2 ++ (b.feed bytes).1.rest.toList =
      segments lineFeed (b.latest.reverse ++ bytes)
  | [], b, h => by
    rw [feed_nil, List.nil_append, List.append_nil, rest]
    rcases hb : b.latest with _ | ⟨c, latest⟩
    · rfl
    · rw [← hb, segments_of_not_mem (fun hm => h (List.mem_reverse.mp hm)) (by simp [hb])]
      simp [hb]
  | c :: bytes, b, h => by
    by_cases hc : c = lineFeed
    · subst hc
      have ih := feed_append_rest bytes (b := {}) List.not_mem_nil
      rw [feed_lineFeed_cons, List.cons_append, ih,
        segments_append_cons fun hm => h (List.mem_reverse.mp hm)]
      rfl
    · have hlatest : lineFeed ∉ c :: b.latest := by
        rw [List.mem_cons, not_or]
        exact ⟨fun h' => hc h'.symm, h⟩
      have ih := feed_append_rest bytes (b := ⟨c :: b.latest⟩) hlatest
      rw [feed_cons_of_ne b hc, ih]
      simp

theorem ended_of_mem_feed : ∀ (bytes : List UInt8) (b : Buffer), ∀ s ∈ (b.feed bytes).2,
    s.ended = true
  | [], b, s, hs => absurd hs List.not_mem_nil
  | c :: bytes, b, s, hs => by
    by_cases hc : c = lineFeed
    · subst hc
      rw [feed_lineFeed_cons] at hs
      rcases List.mem_cons.mp hs with rfl | hs
      · rfl
      · exact ended_of_mem_feed bytes {} s hs
    · rw [feed_cons_of_ne b hc] at hs
      exact ended_of_mem_feed bytes _ s hs

/-- A new buffer gives out the segments that have their line feed. -/
theorem feed_snd_eq_filter (bytes : List UInt8) :
    (feed {} bytes).2 = (segments lineFeed bytes).filter (·.ended) := by
  have hall := feed_append_rest bytes (b := {}) List.not_mem_nil
  have hout : (feed {} bytes).2.filter (·.ended) = (feed {} bytes).2 :=
    List.filter_eq_self.mpr (ended_of_mem_feed bytes {})
  have hrest : (feed {} bytes).1.rest.toList.filter (·.ended) = [] := by
    unfold rest
    split
    · rfl
    · rfl
  rw [List.reverse_nil, List.nil_append] at hall
  rw [← hall, List.filter_append, hout, hrest, List.append_nil]

end Buffer

end CaretLayout.Text
