import CaretLayout.Host.Message
import CaretLayout.Proofs.Json.Canonical
import CaretLayout.Proofs.Json.Printer

/-!
# What the host reads

The output to the host is cut at line feeds into one line for each message, which is read back as an
object with the members of the message (`output_decodable`): its kind under `type` and its fields under
their names (`HasMembers`).  So the bytes determine the messages (`eq_of_output_eq`).

An event of the agent is passed on inside an object of its own, so it may be one container less deep
than a reader accepts.
-/

namespace CaretLayout.HostMessage

open Text (Segment segments lineFeed)

/-- What a message may carry: an exit code of 32 bits; an event in canonical form whose numbers are
integers of 64 bits and whose containers leave room for one around them. -/
def WellFormed : HostMessage → Prop
  | .agent event => event.Integral ∧ event.canonical = event ∧ event.depth ≤ 126
  | .agentExited (some code) => -2147483648 ≤ code ∧ code ≤ 2147483647
  | _ => True

/-- The members that the host finds in a message: its kind, and its fields. -/
inductive HasMembers : HostMessage → List (String × Json) → Prop where
  | mode (session scope layout : String) : HasMembers (.mode session scope layout)
      [("type", .string "mode"), ("session", .string session), ("mode", .string scope),
        ("layout", .string layout)]
  | agent (event : Json) : HasMembers (.agent event) [("type", .string "agent"), ("event", event)]
  | exited : HasMembers (.agentExited none) [("type", .string "agent_exited"), ("code", .null)]
  | exitedWith (code : Int) : HasMembers (.agentExited (some code))
      [("type", .string "agent_exited"), ("code", .int code)]
  | enabled (on : Bool) : HasMembers (.enabled on)
      [("type", .string "enabled"), ("enabled", .bool on)]
  | error (message : String) : HasMembers (.error message)
      [("type", .string "error"), ("message", .string message)]

/-- The bytes of messages that are written one after another. -/
def output (messages : List HostMessage) : List UInt8 :=
  messages.flatMap fun m => Text.Utf8.encode m.line

/-! ### One message -/

theorem integral_toJson : ∀ {m : HostMessage}, m.WellFormed → m.toJson.Integral
  | .mode _ _ _, _ => ⟨trivial, trivial, trivial, trivial, trivial⟩
  | .agent _, h => ⟨trivial, h.1, trivial⟩
  | .agentExited none, _ => ⟨trivial, trivial, trivial⟩
  | .agentExited (some code), h => by
    obtain ⟨hlow, hhigh⟩ : -2147483648 ≤ code ∧ code ≤ 2147483647 := h
    have hfits : Json.Fits64 code := ⟨by omega, by omega⟩
    exact ⟨trivial, hfits, trivial⟩
  | .enabled _, _ => ⟨trivial, trivial, trivial⟩
  | .error _, _ => ⟨trivial, trivial, trivial⟩

theorem depth_toJson_le : ∀ {m : HostMessage}, m.WellFormed → m.toJson.depth ≤ Json.maxDepth
  | .mode _ _ _, _ => Nat.le_add_left 1 126
  | .agent event, h => by
    have hdepth : (agent event).toJson.depth = max 0 (max event.depth 0) + 1 := rfl
    have hmax : Json.maxDepth = 127 := rfl
    have hevent := h.2.2
    omega
  | .agentExited none, _ => Nat.le_add_left 1 126
  | .agentExited (some _), _ => Nat.le_add_left 1 126
  | .enabled _, _ => Nat.le_add_left 1 126
  | .error _, _ => Nat.le_add_left 1 126

theorem exists_hasMembers : ∀ m : HostMessage, ∃ members, m.HasMembers members
  | .mode session scope layout => ⟨_, .mode session scope layout⟩
  | .agent event => ⟨_, .agent event⟩
  | .agentExited none => ⟨_, .exited⟩
  | .agentExited (some code) => ⟨_, .exitedWith code⟩
  | .enabled on => ⟨_, .enabled on⟩
  | .error message => ⟨_, .error message⟩

/-- A message is written with its members, which have different names and values in canonical form. -/
theorem HasMembers.toJson_eq {m : HostMessage} {members : List (String × Json)}
    (h : m.HasMembers members) (hm : m.WellFormed) : m.toJson = .object members ∧
      (members.map (·.1)).Nodup ∧ ∀ f ∈ members, f.2.canonical = f.2 := by
  cases h with
  | mode => exact ⟨rfl, by simp, by simp [Json.canonical]⟩
  | agent => exact ⟨rfl, by simp, by simp [Json.canonical, hm.2.1]⟩
  | exited => exact ⟨rfl, by simp, by simp [Json.canonical]⟩
  | exitedWith => exact ⟨rfl, by simp, by simp [Json.canonical]⟩
  | enabled => exact ⟨rfl, by simp, by simp [Json.canonical]⟩
  | error => exact ⟨rfl, by simp, by simp [Json.canonical]⟩

/-- A message is read back as an object with its members. -/
theorem read_toJson {m : HostMessage} (h : m.WellFormed) : ∃ fields members,
    m.HasMembers fields ∧ Json.read m.toJson.print = .ok (.object members) ∧
      members.Perm fields := by
  obtain ⟨fields, hfields⟩ := exists_hasMembers m
  obtain ⟨htoJson, hnodup, hvalues⟩ := hfields.toJson_eq h
  have hread := Json.read_print (integral_toJson h) (depth_toJson_le h)
  rw [htoJson] at hread ⊢
  exact ⟨fields, _, hfields, hread, Json.canonicalMembers_perm hnodup hvalues⟩

theorem toJson_injective : Function.Injective toJson := by
  intro m m' h
  rcases m with ⟨session, scope, layout⟩ | event | (_ | code) | on | message <;>
    rcases m' with ⟨session', scope', layout'⟩ | event' | (_ | code') | on' | message' <;>
    simp_all [toJson]

/-! ### Streams of messages -/

/-- The output is cut into the printed messages. -/
theorem segments_output (messages : List HostMessage) :
    segments lineFeed (output messages) =
      messages.map fun m => ⟨Text.Utf8.encode m.toJson.print, true⟩ := by
  have hbytes : output messages =
      Text.Utf8.encode ((messages.map toJson).flatMap fun v => v.print ++ ['\n']) := by
    rw [output, Text.Utf8.encode, List.flatMap_map, List.flatMap_assoc]
    rfl
  rw [hbytes, Json.segments_encode_print, List.map_map]
  rfl

/-- That a piece of the output is the line of a message: it is not empty, ends with a line feed, and is
read back as an object with the members of the message. -/
structure IsLineOf (m : HostMessage) (s : Segment UInt8) : Prop where
  ended : s.ended = true
  body_ne_nil : s.body ≠ []
  read : ∃ text fields members, Text.Utf8.decode s.body = .ok text ∧ m.HasMembers fields ∧
    Json.read text = .ok (.object members) ∧ members.Perm fields

theorem isLineOf_print {m : HostMessage} (h : m.WellFormed) :
    IsLineOf m ⟨Text.Utf8.encode m.toJson.print, true⟩ where
  ended := rfl
  body_ne_nil := by
    obtain ⟨fields, hfields⟩ := exists_hasMembers m
    obtain ⟨t, ht⟩ := Json.print_object_eq fields
    rw [(hfields.toJson_eq h).1, ht, Text.Utf8.encode_cons]
    exact List.cons_ne_nil _ _
  read := by
    obtain ⟨fields, members, hfields, hread, hperm⟩ := read_toJson h
    exact ⟨m.toJson.print, fields, members, Text.Utf8.decode_encode _, hfields, hread, hperm⟩

/-- The bytes determine the messages. -/
theorem eq_of_output_eq {messages messages' : List HostMessage}
    (h : ∀ m ∈ messages, m.WellFormed) (h' : ∀ m ∈ messages', m.WellFormed)
    (houtput : output messages' = output messages) : messages' = messages := by
  have hread : ∀ {ms : List HostMessage}, (∀ m ∈ ms, m.WellFormed) →
      (segments lineFeed (output ms)).map
        (fun s => (Text.Utf8.decode s.body).map fun text => Json.readTree text) =
      ms.map fun m => .ok (.ok m.toJson) := by
    intro ms hms
    rw [segments_output, List.map_map]
    refine List.map_congr_left fun m hm => ?_
    have htree := Json.readTree_print (integral_toJson (hms m hm)) (depth_toJson_le (hms m hm))
    simp [Text.Utf8.decode_encode, Except.map, htree]
  have heq := hread h'
  rw [houtput, hread h] at heq
  refine ((List.map_inj_right fun m m' hm => ?_).mp heq).symm
  exact toJson_injective (Except.ok.inj (Except.ok.inj hm))

/-- **The output to the host is uniquely decodable.**  Cut at the line feeds, it has a line for each
message, in order, which is read back as an object with the members of the message.  No other messages
have the same bytes. -/
theorem output_decodable {messages : List HostMessage} (h : ∀ m ∈ messages, m.WellFormed) :
    List.Forall₂ IsLineOf messages (segments lineFeed (output messages)) ∧
      ∀ messages', (∀ m ∈ messages', m.WellFormed) → output messages' = output messages →
        messages' = messages := by
  refine ⟨?_, fun messages' h' houtput => eq_of_output_eq h h' houtput⟩
  rw [segments_output, List.forall₂_map_right_iff]
  exact List.forall₂_same.mpr fun m hm => isLineOf_print (h m hm)

/-- A message of each kind, with line feeds, quotes and a null character in their texts. -/
def oneOfEach : List HostMessage :=
  [.mode "a\nb" "comment" "\"", .enabled false, .error "\x00\r\n", .agentExited none,
    .agentExited (some (-1)),
    .agent (.object [("\n", .array [.int 18446744073709551615, .null]), ("x", .object [])])]

theorem output_oneOfEach_decodable :
    List.Forall₂ IsLineOf oneOfEach (segments lineFeed (output oneOfEach)) ∧
    (segments lineFeed (output oneOfEach)).map (fun s =>
      (Text.Utf8.decode s.body).toOption.bind fun text => (Json.read text).toOption) =
    [some (.object [("layout", .string "\""), ("mode", .string "comment"),
        ("session", .string "a\nb"), ("type", .string "mode")]),
      some (.object [("enabled", .bool false), ("type", .string "enabled")]),
      some (.object [("message", .string "\x00\r\n"), ("type", .string "error")]),
      some (.object [("code", .null), ("type", .string "agent_exited")]),
      some (.object [("code", .int (-1)), ("type", .string "agent_exited")]),
      some (.object [("event", .object [("\n", .array [.int 18446744073709551615, .null]),
        ("x", .object [])]), ("type", .string "agent")])] := by
  refine ⟨(output_decodable ?_).1, by decide +kernel⟩
  have hevent : Json.canonical (.object [("\n", .array [.int 18446744073709551615, .null]),
      ("x", .object [])]) = .object [("\n", .array [.int 18446744073709551615, .null]),
        ("x", .object [])] := by decide +kernel
  have hfits : Json.Fits64 18446744073709551615 := by decide
  intro m hm
  simp only [oneOfEach, List.mem_cons, List.not_mem_nil, or_false] at hm
  rcases hm with rfl | rfl | rfl | rfl | rfl | rfl
  · trivial
  · trivial
  · trivial
  · trivial
  · exact ⟨by decide, by decide⟩
  · exact ⟨⟨⟨hfits, trivial, trivial⟩, trivial, trivial⟩, hevent, by decide⟩

end CaretLayout.HostMessage
