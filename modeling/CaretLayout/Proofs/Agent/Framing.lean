import CaretLayout.Agent.Output
import CaretLayout.Agent.Request
import CaretLayout.Proofs.Agent.FanOut
import CaretLayout.Proofs.Json.Printer
import CaretLayout.Proofs.Json.Typed
import CaretLayout.Proofs.Text.Segment

/-!
# The framing of requests

Requests are written as lines, whatever characters they hold.  Each line has one line feed, at its end,
and is read back as the request (`parse_print`).  A stream of such lines that is routed as the output of
an agent, however it is divided into reads, delivers the requests as objects, one for each line
(`routeAll_requests`).

The stream is cut into the printed requests (`lines_of_requests`), since no control character stands in
them, and each of these is routed as its value (`route_request`), since neither the ends of the line
nor white space is taken from a text in braces.
-/

namespace CaretLayout

/-! ### Ends of a text -/

namespace Text

theorem dropEndWhile_concat {p : Char → Bool} {c : Char} (h : p c = false) (front : List Char) :
    dropEndWhile p (front ++ [c]) = front ++ [c] := by
  rw [dropEndWhile, List.reverse_concat, List.dropWhile_cons_of_neg (by simp [h]),
    List.reverse_cons, List.reverse_reverse]

theorem dropEndWhile_concat_of_pos {p : Char → Bool} {c : Char} (h : p c = true)
    (front : List Char) : dropEndWhile p (front ++ [c]) = dropEndWhile p front := by
  rw [dropEndWhile, List.reverse_concat, List.dropWhile_cons_of_pos h, ← dropEndWhile]

theorem trim_of_ends {c d : Char} (hc : isSpace c = false) (hd : isSpace d = false)
    (middle : List Char) : trim (c :: (middle ++ [d])) = c :: (middle ++ [d]) := by
  rw [trim, List.dropWhile_cons_of_neg (by simp [hc]), ← List.cons_append, dropEndWhile_concat hd]

end Text

/-! ### One request -/

namespace Request

open Json (quote print quoted_quote)
open Json.Grammar

theorem canonical_toJson (r : Request) : r.toJson.canonical = r.toJson := by
  have h : "action" < "payload" := by decide
  rw [toJson, Json.canonical, Json.canonicalMembers, Json.canonicalMembers, Json.canonicalMembers,
    Json.insertMember, Json.insertMember, if_pos h]
  rfl

/-- A printed request is read as a value. -/
theorem read_print (r : Request) : Json.read r.toJson.print = .ok r.toJson := by
  have hdepth : r.toJson.depth = 1 := rfl
  have h := Json.read_print (v := r.toJson) ⟨trivial, trivial, trivial⟩ (by rw [hdepth]; decide)
  rwa [canonical_toJson] at h

/-- A printed request is read as the request, with white space behind it. -/
theorem parse_print (r : Request) {b : List Char} (hb : Blank b) :
    parse (r.toJson.print ++ b) = .ok r := by
  have hseen : "payload" ∉ ["action"] := by decide
  have hpayload : shape.readMember ["action"] ⟨r.action, ""⟩
      (quote "payload" ++ ':' :: (quote r.payload ++ '}' :: b)) =
        .ok ((["payload", "action"], r), '}' :: b) :=
    Json.RecordShape.readMember_of_string (fun (r : Request) s => { r with payload := s })
      (quoted_quote "payload") blank_nil blank_nil (quoted_quote r.payload) rfl hseen
      (fun _ _ => rfl) _
  have haction : shape.readMember [] ⟨"", ""⟩ (quote "action" ++ ':' :: (quote r.action ++
      ',' :: (quote "payload" ++ ':' :: (quote r.payload ++ '}' :: b)))) =
        .ok ((["action"], ⟨r.action, ""⟩),
          ',' :: (quote "payload" ++ ':' :: (quote r.payload ++ '}' :: b))) :=
    Json.RecordShape.readMember_of_string (fun (r : Request) s => { r with action := s })
      (quoted_quote "action") blank_nil blank_nil (quoted_quote r.action) rfl List.not_mem_nil
      (fun _ _ => rfl) _
  have hmembers : ∀ fuel, shape.readMembers (fuel + 2) [] ⟨"", ""⟩
      (quote "action" ++ ':' :: (quote r.action ++
        ',' :: (quote "payload" ++ ':' :: (quote r.payload ++ '}' :: b)))) =
      .ok ((["payload", "action"], r), b) := by
    intro fuel
    rw [Json.RecordShape.readMembers_of_member haction, Json.skipBlank_cons (by decide)]
    show shape.readMembers (fuel + 1) ["action"] ⟨r.action, ""⟩
      (Json.skipBlank (quote "payload" ++ ':' :: (quote r.payload ++ '}' :: b))) = _
    rw [quote, List.cons_append, Json.skipBlank_cons (by decide), ← List.cons_append, ← quote,
      Json.RecordShape.readMembers_of_member hpayload, Json.skipBlank_cons (by decide)]
    rfl
  have hprint : r.toJson.print ++ b = '{' :: (quote "action" ++ ':' :: (quote r.action ++
      ',' :: (quote "payload" ++ ':' :: (quote r.payload ++ '}' :: b)))) := by
    simp only [toJson, print, Json.printMembers, Json.printMoreMembers, List.append_assoc,
      List.cons_append, List.nil_append]
  have hrecord : shape.readRecord ⟨"", ""⟩ (r.toJson.print ++ b) = .ok (r, b) := by
    rw [hprint]
    exact Json.RecordShape.readRecord_of_members rfl hmembers rfl
  rw [parse, Json.RecordShape.readWhole, hrecord]
  show (Json.expectEnd b >>= _) = _
  rw [Json.expectEnd_of_blank hb]
  rfl

theorem count_lineFeed_line (r : Request) : r.line.count '\n' = 1 := by
  have hnone := (Json.noControl_print r.toJson).lineFeed_notMem
  rw [line, List.count_append, List.count_eq_zero_of_not_mem hnone]
  rfl

/-- A printed request is enclosed in braces. -/
theorem print_toJson_eq (r : Request) : ∃ t, r.toJson.print = '{' :: (t ++ ['}']) :=
  Json.print_object_eq _

theorem trim_line (r : Request) : Text.trim r.line = r.toJson.print := by
  obtain ⟨t, ht⟩ := r.print_toJson_eq
  rw [line, ht, Text.trim, List.cons_append, List.dropWhile_cons_of_neg (by decide),
    ← List.cons_append, Text.dropEndWhile_concat_of_pos (by decide), ← List.cons_append,
    Text.dropEndWhile_concat (by decide)]

end Request

/-! ### Streams of requests -/

namespace AgentOutput

theorem segments_eq (chunks : List (List UInt8)) :
    segments chunks = Text.segments Text.lineFeed chunks.flatten := by
  have h := Text.Buffer.feed_append_rest chunks.flatten (b := {}) List.not_mem_nil
  rw [List.reverse_nil, List.nil_append] at h
  rw [segments, Text.Buffer.feedAll_eq_feed]
  exact h

/-- A printed request is the line of its bytes. -/
theorem lineOf_encode_print (r : Request) :
    lineOf ⟨Text.Utf8.encode r.toJson.print, true⟩ = r.toJson.print := by
  obtain ⟨t, ht⟩ := r.print_toJson_eq
  rw [lineOf, Text.Utf8.decodeLossy_encode, ht, ← List.cons_append]
  exact Text.dropEndWhile_concat (by decide) _

/-- The lines of a stream of requests are the printed requests. -/
theorem lines_of_requests {requests : List Request} {chunks : List (List UInt8)}
    (h : chunks.flatten = Text.Utf8.encode (requests.flatMap Request.line)) :
    lines chunks = requests.map fun r => r.toJson.print := by
  have hlines : requests.flatMap Request.line =
      (requests.map Request.toJson).flatMap fun v => v.print ++ ['\n'] := by
    rw [List.flatMap_map]
    rfl
  rw [lines, segments_eq, h, hlines, Json.segments_encode_print, List.map_map, List.map_map]
  refine List.map_congr_left fun r _ => ?_
  rw [Function.comp_apply, Function.comp_apply, lineOf_encode_print]

end AgentOutput

/-! ### Deliveries -/

namespace Router

variable {σ ν : Type} (react : Reaction σ ν)

/-- Hands values to the subscribers one after another. -/
def deliverAll : σ → Router ν → List Json → σ × Router ν
  | s, r, [] => (s, r)
  | s, r, value :: more => deliverAll (r.deliver react s value).1 (r.deliver react s value).2 more

theorem deliverAll_counts : ∀ (values : List Json) (s : σ) (r : Router ν),
    (deliverAll react s r values).2.delivered = r.delivered + values.length ∧
      (deliverAll react s r values).2.malformed = r.malformed
  | [], s, r => ⟨rfl, rfl⟩
  | value :: more, s, r => by
    obtain ⟨calls, -, hrouter, -⟩ := deliver_recorded react s r value
    obtain ⟨hdelivered, hmalformed⟩ :=
      deliverAll_counts more (r.deliver react s value).1 (r.deliver react s value).2
    rw [hrouter] at hdelivered hmalformed
    rw [deliverAll, hrouter, List.length_cons]
    exact ⟨hdelivered.trans (Nat.succ_add r.delivered more.length), hmalformed⟩

/-- A subscriber that notes what it hears. -/
def note : Reaction (List Json) Unit := fun heard _ value => (heard ++ [value], [])

theorem deliverAll_note : ∀ (values heard : List Json) {r : Router Unit}, r.subscribers = [()] →
    (deliverAll note heard r values).1 = heard ++ values
  | [], heard, r, _ => (List.append_nil heard).symm
  | value :: more, heard, r, h => by
    obtain ⟨subscribers, delivered, malformed⟩ := r
    obtain rfl : subscribers = [()] := h
    show (deliverAll note (heard ++ [value]) ⟨[()], delivered + 1, malformed⟩ more).1 = _
    rw [deliverAll_note more (heard ++ [value]) rfl, List.append_assoc, List.singleton_append]

/-- The line of a printed request is routed as its value. -/
theorem route_request (s : σ) (r : Router ν) (request : Request) :
    r.route react s request.toJson.print =
      { state := (r.deliver react s request.toJson).1
        router := (r.deliver react s request.toJson).2
        accepted := true } := by
  obtain ⟨t, ht⟩ := request.print_toJson_eq
  have htrim : Text.trim request.toJson.print = request.toJson.print := by
    rw [ht]
    exact Text.trim_of_ends (by decide) (by decide) t
  have hread : Json.read (Text.trim request.toJson.print) = .ok request.toJson := by
    rw [htrim]
    exact request.read_print
  exact apply_route_of_value hread react s r

end Router

theorem AgentOutput.routeAll_print {σ ν : Type} (react : Reaction σ ν) :
    ∀ (requests : List Request) (s : σ) (r : Router ν),
    routeAll react s r (requests.map fun q => q.toJson.print) =
      r.deliverAll react s (requests.map Request.toJson)
  | [], s, r => rfl
  | q :: requests, s, r => by
    rw [List.map_cons, routeAll, Router.route_request, List.map_cons, Router.deliverAll]
    exact routeAll_print react requests _ _

/-- **Requests are framed by their lines.**  Each line has one line feed, at its end, and is read back
as the request.  The bytes of the lines, in reads of any size, deliver the requests as objects, in order
and each once, so that this is what a subscriber hears; no line counts as malformed. -/
theorem AgentOutput.routeAll_requests {requests : List Request} {chunks : List (List UInt8)}
    (h : chunks.flatten = Text.Utf8.encode (requests.flatMap Request.line)) :
    (∀ r ∈ requests, r.line.count '\n' = 1 ∧ r.line.getLast? = some '\n' ∧
      Request.parse r.line = .ok r ∧ Request.parse (Text.trim r.line) = .ok r) ∧
    (∀ {σ ν : Type} (react : Reaction σ ν) (s : σ) (router : Router ν),
      routeAll react s router (lines chunks) =
        router.deliverAll react s (requests.map Request.toJson) ∧
      (routeAll react s router (lines chunks)).2.malformed = router.malformed ∧
      (routeAll react s router (lines chunks)).2.delivered = router.delivered + requests.length) ∧
    ∀ (heard : List Json) (router : Router Unit), router.subscribers = [()] →
      (routeAll Router.note heard router (lines chunks)).1 =
        heard ++ requests.map Request.toJson := by
  have hlines := lines_of_requests h
  refine ⟨fun r _ => ⟨r.count_lineFeed_line, List.getLast?_concat, ?_, ?_⟩,
    fun react s router => ?_, fun heard router hone => ?_⟩
  · exact r.parse_print fun c hc => by
      rw [List.mem_singleton.mp hc]
      decide
  · have hparse := r.parse_print Json.Grammar.blank_nil
    rwa [List.append_nil, ← r.trim_line] at hparse
  · obtain ⟨hdelivered, hmalformed⟩ :=
      router.deliverAll_counts react (requests.map Request.toJson) s
    rw [List.length_map] at hdelivered
    rw [hlines, routeAll_print]
    exact ⟨rfl, hmalformed, hdelivered⟩
  · rw [hlines, routeAll_print, Router.deliverAll_note _ _ hone]

/-- Two requests with line ends, quotes and a backslash in their texts. -/
def twoRequests : List Request :=
  [⟨"switch\r\n", "\"\\"⟩, ⟨"\x00", " \n"⟩]

/-- The bytes of the two requests in three reads, of which one is empty. -/
def twoRequestsReads : List (List UInt8) :=
  let bytes := Text.Utf8.encode (twoRequests.flatMap Request.line)
  [bytes.take 17, [], bytes.drop 17]

theorem AgentOutput.routeAll_twoRequests :
    (routeAll Router.note [] { subscribers := [()] } (lines twoRequestsReads)).1 =
      [.object [("action", .string "switch\r\n"), ("payload", .string "\"\\")],
        .object [("action", .string "\x00"), ("payload", .string " \n")]] := by
  have h : twoRequestsReads.flatten = Text.Utf8.encode (twoRequests.flatMap Request.line) := by
    simp only [twoRequestsReads, List.flatten_cons, List.flatten_nil, List.append_nil,
      List.nil_append, List.take_append_drop]
  exact (routeAll_requests h).2.2 [] _ rfl

end CaretLayout
