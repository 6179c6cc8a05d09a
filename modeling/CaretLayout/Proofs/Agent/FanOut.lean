import CaretLayout.Agent.Router
import CaretLayout.Proofs.Json.Reader

/-!
# Who hears what

A value goes to those who are registered when its delivery begins, to each once and in the order of
registration, although those who are called register others meanwhile.  The others come after all who
are there, and hear every later value.

Calls are observed in the ambient state: `recorded react` reacts as `react` does and notes each call.
An operation with what it does is a `Deed`.  One deed is described by `Deed.Serves`
(`serves_deed`), and who hears what in a run of operations follows from the deeds before
(`deeds_fanOut`).
-/

namespace CaretLayout.Router

variable {σ ν : Type}

/-! ### Calls -/

/-- A call of a subscriber, with those whom it registers. -/
structure Call (ν : Type) where
  subscriber : ν
  value : Json
  added : List ν

/-- Who hears which value in a call. -/
def Call.heard (c : Call ν) : ν × Json :=
  (c.subscriber, c.value)

/-- The reaction, with a note of each call beside the ambient state. -/
def recorded (react : Reaction σ ν) : Reaction (σ × List (Call ν)) ν := fun s subscriber value =>
  let (state, added) := react s.1 subscriber value
  ((state, s.2 ++ [⟨subscriber, value, added⟩]), added)

theorem foldl_subscribe : ∀ (added : List ν) (r : Router ν),
    added.foldl subscribe r = { r with subscribers := r.subscribers ++ added }
  | [], r => by rw [List.append_nil]; rfl
  | x :: added, r => by
    rw [List.foldl_cons, foldl_subscribe added, subscribe, List.append_assoc]
    rfl

theorem callAll_cons (react : Reaction σ ν) (value : Json) (x : ν) (more : List ν) (s : σ)
    (r : Router ν) :
    callAll react value (x :: more) s r = callAll react value more (react s x value).1
      { r with subscribers := r.subscribers ++ (react s x value).2 } := by
  rw [← foldl_subscribe]
  rfl

/-- **Calling subscribers**: each is called once, in order, and those whom they register come after all
who are there.  To note the calls changes nothing. -/
theorem callAll_recorded (react : Reaction σ ν) (value : Json) : ∀ (subscribers : List ν) (s : σ)
    (r : Router ν) (noted : List (Call ν)), ∃ calls : List (Call ν),
      calls.map Call.heard = subscribers.map (·, value) ∧
      (callAll react value subscribers s r).2 =
        { r with subscribers := r.subscribers ++ calls.flatMap (·.added) } ∧
      callAll (recorded react) value subscribers (s, noted) r =
        (((callAll react value subscribers s r).1, noted ++ calls),
          (callAll react value subscribers s r).2)
  | [], s, r, noted => by
    refine ⟨[], rfl, ?_, ?_⟩
    · rw [List.flatMap_nil, List.append_nil]
      rfl
    · rw [List.append_nil]
      rfl
  | x :: more, s, r, noted => by
    obtain ⟨calls, hheard, hrouter, hnoted⟩ := callAll_recorded react value more (react s x value).1
      { r with subscribers := r.subscribers ++ (react s x value).2 }
      (noted ++ [⟨x, value, (react s x value).2⟩])
    refine ⟨⟨x, value, (react s x value).2⟩ :: calls, ?_, ?_, ?_⟩
    · rw [List.map_cons, hheard]
      rfl
    · rw [callAll_cons, hrouter, List.flatMap_cons, ← List.append_assoc]
    · rw [List.append_assoc, List.singleton_append] at hnoted
      rw [callAll_cons, callAll_cons]
      exact hnoted

theorem deliver_eq (react : Reaction σ ν) (s : σ) (r : Router ν) (value : Json) :
    r.deliver react s value = ((callAll react value r.subscribers s r).1,
      { (callAll react value r.subscribers s r).2 with
        delivered := (callAll react value r.subscribers s r).2.delivered + 1 }) := rfl

/-- A delivery registers whom those who are called bring, and counts once. -/
theorem deliver_recorded (react : Reaction σ ν) (s : σ) (r : Router ν) (value : Json) :
    ∃ calls : List (Call ν),
      calls.map Call.heard = r.subscribers.map (·, value) ∧
      (r.deliver react s value).2 =
        { r with subscribers := r.subscribers ++ calls.flatMap (·.added)
                 delivered := r.delivered + 1 } ∧
      r.deliver (recorded react) (s, []) value =
        (((r.deliver react s value).1, calls), (r.deliver react s value).2) := by
  obtain ⟨calls, hheard, hrouter, hnoted⟩ := callAll_recorded react value r.subscribers s r []
  refine ⟨calls, hheard, ?_, ?_⟩
  · rw [deliver_eq, hrouter]
  · rw [deliver_eq, deliver_eq, hnoted]
    rfl

/-! ### Operations -/

/-- An operation on a router. -/
inductive Operation (ν : Type) where
  | subscribe (subscriber : ν)
  | route (line : List Char)
  | deliver (value : Json)

namespace Operation

/-- The value that an operation delivers. -/
def value? : Operation ν → Option Json
  | .subscribe _ => none
  | .route line => (Json.read (Text.trim line)).toOption
  | .deliver value => some value

/-- Whether an operation brings a line that is neither blank nor a value. -/
def refused : Operation ν → Bool
  | .route line => !(Text.trim line).isEmpty && !(Json.read (Text.trim line)).toOption.isSome
  | _ => false

/-- A line delivers a value exactly when the line, trimmed, is a text of the grammar, with containers at
most as deep as the reader goes. -/
theorem value?_route_eq_some_iff {line : List Char} {v : Json} :
    (route line : Operation ν).value? = some v ↔
      ∃ w, (Json.Grammar.Padded w (Text.trim line) ∧ w.depth ≤ Json.maxDepth) ∧ w.canonical = v := by
  rw [← Json.read_eq_ok_iff, value?]
  rcases Json.read (Text.trim line) with fault | value
  · simp [Except.toOption]
  · simp [Except.toOption]

end Operation

/-- Carries out an operation.  Only a line can be refused. -/
def apply (react : Reaction σ ν) (s : σ) (r : Router ν) : Operation ν → LineOutcome σ ν
  | .subscribe subscriber => { state := s, router := r.subscribe subscriber, accepted := true }
  | .route line => r.route react s line
  | .deliver value =>
    let (s, r) := r.deliver react s value
    { state := s, router := r, accepted := true }

/-- An operation with what it does. -/
structure Deed (σ ν : Type) where
  operation : Operation ν
  /-- The ambient state before it. -/
  state : σ
  /-- The router before it. -/
  router : Router ν
  outcome : LineOutcome σ ν
  calls : List (Call ν)

/-- What an operation does. -/
def deed (react : Reaction σ ν) (s : σ) (r : Router ν) (op : Operation ν) : Deed σ ν where
  operation := op
  state := s
  router := r
  outcome := r.apply react s op
  calls := (r.apply (recorded react) (s, []) op).state.2

/-- Whom an operation registers, itself or through those who are called. -/
def Deed.registered (d : Deed σ ν) : List ν :=
  match d.operation with
  | .subscribe subscriber => [subscriber]
  | _ => d.calls.flatMap (·.added)

/-- What operations do one after another. -/
def deeds (react : Reaction σ ν) : σ → Router ν → List (Operation ν) → List (Deed σ ν)
  | _, _, [] => []
  | s, r, op :: more =>
    deed react s r op ::
      deeds react (r.apply react s op).state (r.apply react s op).router more

/-- The router after operations. -/
def after (react : Reaction σ ν) : σ → Router ν → List (Operation ν) → Router ν
  | _, r, [] => r
  | s, r, op :: more => after react (r.apply react s op).state (r.apply react s op).router more

/-! ### One operation -/

/-- What an operation does to those who are registered. -/
structure Deed.Serves (react : Reaction σ ν) (d : Deed σ ν) : Prop where
  /-- A value goes once to each who was registered before, in this order, and to nobody else. -/
  called : ∀ {v}, d.operation.value? = some v →
    d.calls.map Call.heard = d.router.subscribers.map (·, v)
  /-- Nobody is called where there is no value. -/
  silent : d.operation.value? = none → d.calls = [] ∧ d.outcome.state = d.state
  /-- Those whom it registers come after those who were registered before. -/
  subscribers : d.outcome.router.subscribers = d.router.subscribers ++ d.registered
  /-- A value counts once, whether or not somebody hears it. -/
  delivered : d.outcome.router.delivered =
    d.router.delivered + if d.operation.value?.isSome then 1 else 0
  /-- A line that is neither blank nor a value counts as malformed. -/
  malformed : d.outcome.router.malformed =
    d.router.malformed + if d.operation.refused then 1 else 0
  /-- A line is accepted exactly when it has a value. -/
  accepted : ∀ {line}, d.operation = .route line →
    d.outcome.accepted = d.operation.value?.isSome
  /-- The calls are those of the operation: to note them changes nothing else. -/
  recorded : d.router.apply (recorded react) (d.state, []) d.operation =
    { d.outcome with state := (d.outcome.state, d.calls) }

theorem serves_subscribe (react : Reaction σ ν) (s : σ) (r : Router ν) (subscriber : ν) :
    (deed react s r (.subscribe subscriber)).Serves react where
  called := fun h => by cases h
  silent := fun _ => ⟨rfl, rfl⟩
  subscribers := rfl
  delivered := rfl
  malformed := rfl
  accepted := fun h => by cases h
  recorded := rfl

theorem serves_deliver (react : Reaction σ ν) (s : σ) (r : Router ν) (value : Json) :
    (deed react s r (.deliver value)).Serves react := by
  obtain ⟨calls, hheard, hrouter, hnoted⟩ := r.deliver_recorded react s value
  have happly : r.apply react s (.deliver value) =
      { state := (r.deliver react s value).1
        router := { r with subscribers := r.subscribers ++ calls.flatMap (·.added)
                           delivered := r.delivered + 1 }
        accepted := true } := by
    rw [apply, ← hrouter]
  have hrecorded : r.apply (recorded react) (s, []) (.deliver value) =
      { r.apply react s (.deliver value) with
        state := ((r.apply react s (.deliver value)).state, calls) } := by
    rw [apply, hnoted]
    rfl
  rw [deed, hrecorded, happly]
  exact {
    called := fun {v} h => by
      obtain rfl : value = v := Option.some.inj h
      exact hheard
    silent := fun h => by cases h
    subscribers := rfl
    delivered := rfl
    malformed := rfl
    accepted := fun h => by cases h
    recorded := by
      rw [hrecorded, happly] }

/-- A line that has a value is the delivery of this value. -/
theorem apply_route_of_value {line : List Char} {v : Json}
    (h : Json.read (Text.trim line) = .ok v) (react : Reaction σ ν) (s : σ) (r : Router ν) :
    r.apply react s (.route line) = r.apply react s (.deliver v) := by
  rw [apply, route]
  split
  · next hblank =>
    have hempty : Json.read [] = .error .truncated := by cbv
    rw [hblank, hempty] at h
    cases h
  · rw [h]
    rfl

/-- A line that has no value changes at most the count of malformed lines. -/
theorem apply_route_of_none {line : List Char}
    (h : (Operation.route line : Operation ν).value? = none) :
    ∃ log, ∀ {σ : Type} (react : Reaction σ ν) (s : σ) (r : Router ν),
      r.apply react s (.route line) =
        { state := s
          router := { r with malformed := r.malformed +
            if (Operation.route line : Operation ν).refused then 1 else 0 }
          accepted := false
          log := log } := by
  obtain ⟨fault, hread⟩ : ∃ fault, Json.read (Text.trim line) = .error fault := by
    rw [Operation.value?] at h
    rcases hread : Json.read (Text.trim line) with fault | v
    · exact ⟨fault, rfl⟩
    · rw [hread] at h
      cases h
  by_cases hblank : Text.trim line = []
  · have hrefused : (Operation.route line : Operation ν).refused = false := by
      rw [Operation.refused, hblank]
      rfl
    refine ⟨[], fun react s r => ?_⟩
    rw [apply, route, hblank, hrefused]
    rfl
  · have hrefused : (Operation.route line : Operation ν).refused = true := by
      rw [Operation.refused, hread, List.isEmpty_eq_false_iff.mpr hblank]
      rfl
    refine ⟨[droppedRecord (Text.trim line)], fun react s r => ?_⟩
    rw [apply, route, hrefused]
    split
    · next h => exact absurd h hblank
    · rw [hread]
      rfl

theorem serves_route (react : Reaction σ ν) (s : σ) (r : Router ν) (line : List Char) :
    (deed react s r (.route line)).Serves react := by
  rcases hvalue : (Operation.route line : Operation ν).value? with _ | v
  · obtain ⟨log, happly⟩ := apply_route_of_none hvalue
    rw [deed, happly, happly]
    exact {
      called := fun h => by
        rw [hvalue] at h
        cases h
      silent := fun _ => ⟨rfl, rfl⟩
      subscribers := (List.append_nil _).symm
      delivered := by
        rw [hvalue]
        rfl
      malformed := rfl
      accepted := fun _ => by
        rw [hvalue]
        rfl
      recorded := by rw [happly] }
  · have hread : Json.read (Text.trim line) = .ok v := by
      rw [Json.read_eq_ok_iff]
      exact Operation.value?_route_eq_some_iff.mp hvalue
    have hrefused : (Operation.route line : Operation ν).refused = false := by
      rw [Operation.refused, hread]
      exact Bool.and_false _
    have hserves := serves_deliver react s r v
    have hdeed : deed react s r (.route line) =
        { deed react s r (.deliver v) with operation := .route line } := by
      rw [deed, deed, apply_route_of_value hread, apply_route_of_value hread]
    rw [hdeed]
    exact {
      called := fun {w} h => hserves.called (hvalue.symm.trans h)
      silent := fun h => by
        rw [hvalue] at h
        cases h
      subscribers := hserves.subscribers
      delivered := by
        rw [hvalue]
        exact hserves.delivered
      malformed := by
        rw [hrefused]
        exact hserves.malformed
      accepted := fun _ => by
        rw [hvalue]
        rfl
      recorded := by
        rw [apply_route_of_value hread]
        exact hserves.recorded }

/-- **One operation**, whatever it is and whoever is registered. -/
theorem serves_deed (react : Reaction σ ν) (s : σ) (r : Router ν) (op : Operation ν) :
    (deed react s r op).Serves react := by
  cases op with
  | subscribe subscriber => exact serves_subscribe react s r subscriber
  | route line => exact serves_route react s r line
  | deliver value => exact serves_deliver react s r value

/-! ### All operations -/

theorem serves_of_mem_deeds {react : Reaction σ ν} : ∀ {ops : List (Operation ν)} {s : σ}
    {r : Router ν} {d : Deed σ ν}, d ∈ deeds react s r ops → d.Serves react
  | op :: more, s, r, d, hd => by
    rcases List.mem_cons.mp hd with rfl | hd
    · exact serves_deed react s r op
    · exact serves_of_mem_deeds hd

/-- Before an operation those are registered who were registered at first and by the operations before
it, in this order. -/
theorem subscribers_of_deeds {react : Reaction σ ν} : ∀ {ops : List (Operation ν)} {s : σ}
    {r : Router ν} {earlier : List (Deed σ ν)} {d : Deed σ ν} {later : List (Deed σ ν)},
    deeds react s r ops = earlier ++ d :: later →
      d.router.subscribers = r.subscribers ++ earlier.flatMap Deed.registered
  | [], s, r, earlier, d, later, h => by
    rw [deeds] at h
    exact absurd h.symm (List.append_ne_nil_of_right_ne_nil _ (List.cons_ne_nil _ _))
  | op :: more, s, r, [], d, later, h => by
    obtain ⟨rfl, -⟩ := List.cons.inj h
    exact (List.append_nil _).symm
  | op :: more, s, r, e :: earlier, d, later, h => by
    obtain ⟨rfl, hmore⟩ := List.cons.inj h
    have hfirst := (serves_deed react s r op).subscribers
    rw [subscribers_of_deeds hmore, List.flatMap_cons, ← List.append_assoc]
    exact congrArg (· ++ _) hfirst

/-- The router after operations. -/
theorem after_eq (react : Reaction σ ν) : ∀ (ops : List (Operation ν)) (s : σ) (r : Router ν),
    after react s r ops =
      { subscribers := r.subscribers ++ (deeds react s r ops).flatMap Deed.registered
        delivered := r.delivered + ops.countP (·.value?.isSome)
        malformed := r.malformed + ops.countP (·.refused) }
  | [], s, r => by
    rw [deeds, List.flatMap_nil, List.append_nil]
    rfl
  | op :: more, s, r => by
    have hserves := serves_deed react s r op
    have hsubscribers : (r.apply react s op).router.subscribers =
        r.subscribers ++ (deed react s r op).registered := hserves.subscribers
    have hdelivered : (r.apply react s op).router.delivered =
        r.delivered + if op.value?.isSome then 1 else 0 := hserves.delivered
    have hmalformed : (r.apply react s op).router.malformed =
        r.malformed + if op.refused then 1 else 0 := hserves.malformed
    rw [after, after_eq react more, hsubscribers, hdelivered, hmalformed, deeds, List.flatMap_cons,
      List.countP_cons, List.countP_cons, List.append_assoc, Nat.add_assoc, Nat.add_assoc,
      Nat.add_comm (List.countP _ more), Nat.add_comm (List.countP _ more)]

/-! ### The theorem -/

/-- Who hears what in a run of operations. -/
structure FanOut (react : Reaction σ ν) (s : σ) (r : Router ν) (ops : List (Operation ν)) :
    Prop where
  /-- Each operation serves those who are registered before it. -/
  serves : ∀ d ∈ deeds react s r ops, d.Serves react
  /-- A value is heard once by each who was registered at first, by an operation before, or by those
  who were called in operations before, in this order, and by nobody else. -/
  heard : ∀ {earlier d later v}, deeds react s r ops = earlier ++ d :: later →
    d.operation.value? = some v →
    d.calls.map Call.heard = (r.subscribers ++ earlier.flatMap Deed.registered).map (·, v)
  /-- Those who are registered by an operation, or in the midst of it, hear every later value. -/
  late : ∀ {earlier d between e later v},
    deeds react s r ops = earlier ++ d :: (between ++ e :: later) → e.operation.value? = some v →
    ∀ x ∈ d.registered, (x, v) ∈ e.calls.map Call.heard
  /-- Nobody is ever taken off, and nobody else is put on. -/
  subscribers : (after react s r ops).subscribers =
    r.subscribers ++ (deeds react s r ops).flatMap Deed.registered
  /-- Each delivery counts. -/
  delivered : (after react s r ops).delivered = r.delivered + ops.countP (·.value?.isSome)
  /-- Each line counts as malformed that is neither blank nor a value. -/
  malformed : (after react s r ops).malformed = r.malformed + ops.countP (·.refused)
  /-- A line has a value exactly when it is a text of the grammar. -/
  value : ∀ {line v}, (Operation.route line : Operation ν).value? = some v ↔
    ∃ w, (Json.Grammar.Padded w (Text.trim line) ∧ w.depth ≤ Json.maxDepth) ∧ w.canonical = v

/-- **Values fan out to those who are registered**, whatever these do when they are called. -/
theorem deeds_fanOut (react : Reaction σ ν) (s : σ) (r : Router ν) (ops : List (Operation ν)) :
    FanOut react s r ops := by
  have hheard : ∀ {earlier d later v}, deeds react s r ops = earlier ++ d :: later →
      d.operation.value? = some v →
      d.calls.map Call.heard = (r.subscribers ++ earlier.flatMap Deed.registered).map (·, v) := by
    intro earlier d later v hdeeds hv
    have hd : d ∈ deeds react s r ops := by
      rw [hdeeds]
      exact List.mem_append_right _ List.mem_cons_self
    rw [(serves_of_mem_deeds hd).called hv, subscribers_of_deeds hdeeds]
  exact {
    serves := fun d hd => serves_of_mem_deeds hd
    heard := hheard
    late := fun {earlier d between e later v} hdeeds hv x hx => by
      rw [← List.cons_append, ← List.append_assoc] at hdeeds
      rw [hheard hdeeds hv, List.mem_map]
      refine ⟨x, List.mem_append_right _ ?_, rfl⟩
      exact List.mem_flatMap.mpr ⟨d, List.mem_append_right _ List.mem_cons_self, hx⟩
    subscribers := by rw [after_eq]
    delivered := by rw [after_eq]
    malformed := by rw [after_eq]
    value := Operation.value?_route_eq_some_iff }

/-- Subscriber 2 registers subscriber 3 whenever it is called. -/
example : (deeds (fun s x _ => (s, if x = 2 then [3] else [])) () {}
      [.subscribe 1, .subscribe 2, .deliver .null, .subscribe 4, .deliver (.bool true)]).map
        (fun d => d.calls.map Call.heard) =
    [[], [], [(1, .null), (2, .null)], [],
      [(1, .bool true), (2, .bool true), (3, .bool true), (4, .bool true)]] := by rfl

end CaretLayout.Router
