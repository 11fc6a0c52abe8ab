import Sentrix.Lib.Json
import Sentrix.Inference.Batching

/-!
# Messages the worker cannot decode

The run loop of `InferenceWorker` passes the value of each message to `json.loads` and
skips the message on a `JSONDecodeError`. That is one of the exceptions `json.loads` has:
a value that is `None`, bytes in no encoding and a document beyond the interpreter's
limits raise others, and these leave the loop, with everything that was accumulated.

So the worker survives the messages whose values are texts (`Survivable`), and texts that
are shorter than the limits are among them (`survivable_of_short`).
-/

namespace Sentrix

/-- A message's value: bytes, or `None`. -/
abbrev MessageValue : Type := Option (List UInt8)

/-- What `consumer.poll` answers, with the value of a message as it is. -/
inductive RawPoll
  | none
  | error
  | message (value : MessageValue)

/-- The interpreter a worker runs in. -/
structure JsonDecoder where
  limits : JsonLimits
  /-- What a text that is a JSON document denotes. -/
  document : List ℕ → Value

namespace InferenceWorker

variable (w : InferenceWorker) (json : JsonDecoder)

/-- `json.loads(msg.value())` under `except json.JSONDecodeError`. -/
def decode (value : MessageValue) : Decoded :=
  match Json.loads json.limits value with
  | .ok text => .value (json.document text)
  | .error (.scan .jsonDecodeError) => .invalid
  | .error _ => .raises

/-- A poll as the loop sees it. -/
def receive : RawPoll → Poll
  | .none => .none
  | .error => .error
  | .message value => .message (decode json value)

/-- The loop after the given polls. -/
def loop (polls : List RawPoll) : Accumulator := w.machine.after (polls.map (receive json))

/-- The value is a text in the encoding it is taken for, and the interpreter's limits are
enough to scan it. -/
def Survivable (value : MessageValue) : Prop :=
  ∃ bytes text, value = some bytes ∧ Json.text? bytes = some text ∧
    Json.scan json.limits text ≠ .error .valueError ∧
    Json.scan json.limits text ≠ .error .recursionError

/-- Along the polls, the loop goes on, and a message that is not decoded to a value
leaves `pending` and `pending_meta` as they are. -/
structure Withstands (polls : List RawPoll) : Prop where
  running : (w.loop json polls).raised = false
  unchanged : ∀ before value after, polls = before ++ .message value :: after →
    (∀ v, decode json value ≠ .value v) →
    (w.loop json (before ++ [.message value])).raised = false ∧
      (w.loop json (before ++ [.message value])).batch = (w.loop json before).batch

variable {w json}

/-! ### One message -/

/-- A text is survivable if the limits are enough to scan it. -/
theorem survivable_iff_of_text {bytes : List UInt8} {text : List ℕ}
    (htext : Json.text? bytes = some text) :
    Survivable json (some bytes) ↔
      Json.scan json.limits text ≠ .error .valueError ∧
        Json.scan json.limits text ≠ .error .recursionError := by
  constructor
  · rintro ⟨bytes', text', hvalue, htext', hscan⟩
    obtain rfl := Option.some.inj hvalue
    rw [htext] at htext'
    obtain rfl := Option.some.inj htext'
    exact hscan
  · exact fun hscan => ⟨bytes, text, rfl, htext, hscan⟩

/-- The exceptions that leave the loop are those of values that are not survivable. -/
theorem decode_eq_raises {value : MessageValue} :
    decode json value = .raises ↔ ¬ Survivable json value := by
  unfold decode Json.loads
  cases value with
  | none =>
    refine iff_of_true rfl ?_
    rintro ⟨bytes, text, hvalue, -⟩
    cases hvalue
  | some bytes =>
    dsimp only
    cases htext : Json.text? bytes with
    | none =>
      refine iff_of_true rfl ?_
      rintro ⟨bytes', text, hvalue, htext', -⟩
      obtain rfl := Option.some.inj hvalue
      rw [htext] at htext'
      cases htext'
    | some text =>
      -- only the scan is left to raise, and one of its errors is caught
      rw [survivable_iff_of_text htext]
      dsimp only
      cases hscan : Json.scan json.limits text with
      | ok u => simp
      | error e => cases e <;> simp

/-- The loop is left by a message on which `json.loads` raises, and by nothing else. -/
theorem raised_step (s : Accumulator) (p : Poll) :
    (w.step s p).1.raised = true ↔ s.raised = true ∨ p = .message .raises := by
  unfold step
  cases hraised : s.raised with
  | true => exact iff_of_true hraised (Or.inl rfl)
  | false =>
    have hrunning : ¬ s.raised = true := by
      rw [hraised]
      exact Bool.false_ne_true
    rw [if_neg Bool.false_ne_true, or_iff_right Bool.false_ne_true]
    -- a poll that delivers no message is passed over, and a message by what it decodes to
    cases p with
    | none => exact iff_of_false hrunning fun h => by cases h
    | error => exact iff_of_false hrunning fun h => by cases h
    | message m =>
      cases m with
      | invalid => exact iff_of_false hrunning fun h => by cases h
      | raises => exact iff_of_true rfl rfl
      | value record =>
        refine iff_of_false ?_ fun h => by cases h
        dsimp only
        split <;> exact Bool.false_ne_true

theorem raised_after (polls : List Poll) :
    (w.machine.after polls).raised = true ↔ .message .raises ∈ polls := by
  refine w.machine.invariant (fun h s => s.raised = true ↔ .message .raises ∈ h) ?_ ?_ polls
  · exact iff_of_false Bool.false_ne_true List.not_mem_nil
  · intro h p hi
    rw [List.mem_append, List.mem_singleton, ← hi, eq_comm (a := Poll.message .raises)]
    exact raised_step _ p

/-- The loop is still running exactly if all values so far were survivable. -/
theorem running_iff (polls : List RawPoll) :
    (w.loop json polls).raised = false ↔
      ∀ value, .message value ∈ polls → Survivable json value := by
  -- the loop raises exactly at a value that the except clause does not cover
  have hiff : (w.loop json polls).raised = true ↔
      ∃ value, .message value ∈ polls ∧ decode json value = .raises := by
    unfold loop
    rw [raised_after, List.mem_map]
    constructor
    · rintro ⟨p, hp, heq⟩
      cases p with
      | none => cases heq
      | error => cases heq
      | message value =>
        unfold receive at heq
        exact ⟨value, hp, Poll.message.inj heq⟩
    · rintro ⟨value, hp, heq⟩
      exact ⟨_, hp, congrArg Poll.message heq⟩
  rw [← Bool.not_eq_true, hiff, not_exists]
  refine forall_congr' fun value => ?_
  rw [decode_eq_raises, not_and, not_not]

/-- A message that is no JSON document is skipped. -/
theorem loop_invalid (polls : List RawPoll) {value : MessageValue}
    (hinvalid : decode json value = .invalid) :
    w.loop json (polls ++ [.message value]) = w.loop json polls := by
  unfold loop
  rw [List.map_append, List.map_singleton, Machine.after_concat]
  show (w.step _ (.message (decode json value))).1 = _
  rw [hinvalid]
  unfold step
  split <;> rfl

/-- **What the worker withstands.** For every sequence of polled messages, the run loop
neither raises nor is left, and undecodable messages change nothing, exactly if every
message's value is survivable: it is not null, its bytes are a text in the encoding they
are taken for, and no integer in it has too many digits and no container is too deep. -/
theorem withstands_iff (w : InferenceWorker) (json : JsonDecoder) (polls : List RawPoll) :
    Withstands w json polls ↔ ∀ value, .message value ∈ polls → Survivable json value := by
  constructor
  · intro hw
    exact running_iff polls |>.mp hw.running
  · intro hall
    refine ⟨(running_iff polls).mpr hall, ?_⟩
    intro before value after hsplit hnot
    have hmem : ∀ v, .message v ∈ before ++ [.message value] → .message v ∈ polls := by
      intro v hv
      rw [hsplit, List.append_cons]
      exact List.mem_append_left _ hv
    -- a value that does not decode, and does not raise, is invalid
    have hinvalid : decode json value = .invalid := by
      cases hdecode : decode json value with
      | value v => exact absurd hdecode (hnot v)
      | invalid => rfl
      | raises =>
        have hlast : RawPoll.message value ∈ before ++ [.message value] :=
          List.mem_append_right _ (List.mem_singleton_self _)
        exact absurd (hall value (hmem value hlast)) (decode_eq_raises.mp hdecode)
    refine ⟨(running_iff _).mpr fun v hv => hall v (hmem v hv), ?_⟩
    rw [loop_invalid before hinvalid]

/-- A text that is shorter than the interpreter's limits is survivable, whether it is a
JSON document or not. -/
theorem survivable_of_short {bytes : List UInt8} {text : List ℕ}
    (htext : Json.text? bytes = some text) (hshort : Json.Admits json.limits text.length) :
    Survivable json (some bytes) := by
  refine ⟨bytes, text, rfl, htext, ?_, ?_⟩
  · intro hvalue
    obtain hscan | hscan := Json.scan_of_short hshort <;> rw [hscan] at hvalue <;> cases hvalue
  · intro hdepth
    obtain hscan | hscan := Json.scan_of_short hshort <;> rw [hscan] at hdepth <;> cases hdepth

/-- An interpreter with the usual limits. -/
def usualDecoder : JsonDecoder := ⟨⟨1000, some 4300⟩, fun _ => .none⟩

/-- An opened brace is no document, and is survivable. -/
example : Survivable usualDecoder (some [0x7B]) := by
  have htext : Json.text? [0x7B] = some [123] := rfl
  refine survivable_of_short htext ⟨by decide, ?_⟩
  intro limit hlimit
  cases hlimit
  decide

/-- **One byte stops the worker.** The byte `ff` is in no encoding, and a worker that polls
it leaves the loop with an exception. -/
theorem undecodable_byte_stops :
    ¬ (∀ (w : InferenceWorker) (json : JsonDecoder) (polls : List RawPoll),
      Withstands w json polls) := by
  intro hall
  have hrunning := (hall (ofFiles 64 [] fun _ => ⟨fun _ => none⟩) usualDecoder
    [.message (some [0xFF])]).running
  exact absurd hrunning (by decide)

end InferenceWorker

end Sentrix
