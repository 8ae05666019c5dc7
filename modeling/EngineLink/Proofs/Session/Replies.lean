import EngineLink.Message.Stream
import EngineLink.Proofs.Message.RoundTrip
import EngineLink.Proofs.Value.Decoded
import EngineLink.Script.Interpreter
import EngineLink.Session.Dispatch

/-!
# Replies that can be sent

The reply to a request is the request with its answer. A value is read in either mode wherever it
stands, but it is not always written in the mode in which it came: the value of an answer goes out
as a shape if it has one, that of a request always goes out in full. So no answer keeps a reply from
being sent, and a request does exactly if its value came as a shape.

## Main definitions

* `Task.CanReply` — the replies with which the execution of a request can end
* `Item.isRefused` — whether the value of a request keeps a shape once references are in place

## Main results

* `Message.refusedIf_put` — a message is refused exactly if one of its requests is
* `Message.within_of_decode` — the values of requests that were read are within the limits
* `Message.frame_replies` — which batches of replies to requests that were read can be sent
-/

namespace EngineLink

open Reader Value

variable {L : Limits}

/-! ### What can be written -/

/-- Whether the value of a request keeps a shape once references are in place. -/
def ItemKind.isRefused (L : Limits) (k : ItemKind) : Bool :=
  k.value?.any fun v => (v.degrade L).hasShape

theorem DataRequest.refusedIf_put (r : DataRequest) :
    RefusedIf (r.value?.any fun v => (v.degrade L).hasShape) (r.put L) := by
  cases r with
  | evalVoid | evalData | evalShape | resolveData | resolveShape => exact .ok _
  | assign target value => exact (refusedIf_encode .full value).bind_ok _

theorem ItemKind.refusedIf_put (k : ItemKind) : RefusedIf (k.isRefused L) (k.put L) := by
  cases k with
  | consoleRead | writeOut | writeErr | notice | debug => exact .ok _
  | data request => exact (DataRequest.refusedIf_put request).bind_ok _
  | extUi name arg wait =>
    cases arg with
    | none => exact .ok _
    | some v => exact (refusedIf_encode .full v).bind_ok _

/-- An answer is never refused, since its shapes decide the mode. -/
theorem Answer.exists_put? (answer : Option Answer) :
    ∃ bytes, Answer.put? L answer = .ok bytes := by
  cases answer with
  | none => exact ⟨_, rfl⟩
  | some a =>
    cases a with
    | done | text | debug | status => exact ⟨_, rfl⟩
    | value v =>
      have written : RefusedIf (coding v == .full && (v.degrade L).hasShape) (v.put L (coding v)) :=
        refusedIf_encode (coding v) v
      -- In full goes only a value without shapes, and references bring none.
      have never : (coding v == .full && (v.degrade L).hasShape) = false := by
        rw [coding]
        cases shape : v.hasShape with
        | true => rfl
        | false => rw [hasShape_degrade shape, Bool.and_false]
      rw [never] at written
      exact written.bind_ok _

theorem Item.refusedIf_put (item : Item) : RefusedIf (item.kind.isRefused L) (item.put L) := by
  obtain ⟨bytes, written⟩ := Answer.exists_put? (L := L) item.answer
  rw [put, written]
  exact item.kind.refusedIf_put.bind_ok _

theorem Item.refusedIf_putAll (items : List Item) :
    RefusedIf (items.any fun item => item.kind.isRefused L) (putAll L items) := by
  induction items with
  | nil => exact .ok []
  | cons item items ih =>
    rw [List.any_cons]
    exact item.refusedIf_put.bind fun _ => ih.bind_ok _

/-- A message is refused exactly if one of its requests is. -/
theorem Message.refusedIf_put (m : Message) :
    RefusedIf (m.items.any fun item => item.kind.isRefused L) (m.put L) := by
  cases m with
  | ping | status | file => exact .ok _
  | batch b => exact (Item.refusedIf_putAll b.items).bind_ok _

/-! ### What was read -/

theorem DataRequest.yields_get (L : Limits) :
    (DataRequest.get L).Yields fun r => ∀ v ∈ r.value?, v.Within L := by
  apply Yields.skip
  intro t
  split
  case h_6 =>
    -- An assignment is the only request with a value.
    apply Yields.skip
    intro target
    refine (yields_get_within L).bind fun v within => .of_pure ?_
    simpa [value?] using within
  case h_7 => exact .of_fail _
  all_goals exact .map fun _ _ _ _ _ => by rintro ⟨⟩

theorem ItemKind.yields_get (L : Limits) :
    (ItemKind.get L).Yields fun k => ∀ v ∈ k.value?, v.Within L := by
  apply Yields.skip
  intro t
  split
  case h_1 => exact .skip fun _ => .skip fun _ => .of_pure (by rintro _ ⟨⟩)
  case h_5 => exact .map (DataRequest.yields_get L)
  case h_6 =>
    -- A call of the user interface may have a value as its argument.
    apply Yields.skip
    intro name
    apply Yields.skip
    intro wait
    apply Yields.skip
    intro present
    exact ((yields_get_within L).onlyIf present).bind fun arg within => .of_pure within
  case h_8 => exact .of_fail _
  all_goals exact .map fun _ _ _ _ _ => by rintro ⟨⟩

theorem Item.yields_get (L : Limits) :
    (Item.get L).Yields fun item => ∀ v ∈ item.kind.value?, v.Within L := by
  apply Yields.skip
  intro slot
  apply Yields.skip
  intro id
  exact (ItemKind.yields_get L).bind fun kind within => .skip fun answer => .of_pure within

theorem Message.yields_get (L : Limits) :
    (Message.get L).Yields fun m => ∀ item ∈ m.items, ∀ v ∈ item.kind.value?, v.Within L := by
  apply Yields.skip
  intro t
  split
  case h_3 =>
    apply Yields.skip
    intro busy
    apply Yields.skip
    intro n
    exact ((Item.yields_get L).times n).bind fun items read => .of_pure read.2
  case h_1 => exact .of_pure (by simp [items])
  case h_2 => exact .map fun _ _ _ _ => by simp [items]
  case h_4 => exact .skip fun _ => .skip fun _ => .of_pure (by simp [items])
  case h_5 => exact .of_fail _

/-- The values of requests that were read are within the limits. -/
theorem Message.within_of_decode {payload : Bytes} {m : Message}
    (received : Message.decode L payload = .ok m) :
    ∀ item ∈ m.items, ∀ v ∈ item.kind.value?, v.Within L :=
  (Message.yields_get L).all received

/-! ### Replies -/

namespace Task

variable {ι : Type}

/-- The execution of a request can end with a reply: it does so for some way in which what it asks
of the interpreter, of clients and of the outside is carried out. -/
def CanReply (I : Interpreter ι) (L : Limits) (item reply : Item) : Prop :=
  ∃ (σ : Type) (handler : (r : TaskRequest ι) → StateM σ r.Reply) (s : σ),
    reply = (((dispatch I L item).interpret handler).run s).1

/-- A reply is the request with some answer. -/
theorem CanReply.exists_answered {I : Interpreter ι} {item reply : Item}
    (h : CanReply I L item reply) : ∃ a, reply = item.answered a := by
  obtain ⟨σ, handler, s, rfl⟩ := h
  rw [dispatch, map_eq_pure_bind, Job.bind_eq, Job.interpret_bind]
  exact ⟨_, rfl⟩

end Task

/-! ### Sending replies -/

/-- A message that is refused for a shape has no frame, and any other one has, unless its payload is
too long. -/
theorem Message.frame_of_refusedIf {m : Message} {refused : Bool}
    (h : RefusedIf refused (m.put L)) :
    (m.frame L = .error (.content .shapeOnly) ↔ refused = true) ∧
      (refused = false → ∃ payload, m.put L = .ok payload ∧
        m.frame L =
          if maxPayload < payload.length then .error .longMessage else .ok (framed payload)) := by
  cases refused with
  | true =>
    rw [RefusedIf] at h
    rw [frame, h]
    exact ⟨iff_of_true rfl rfl, by rintro ⟨⟩⟩
  | false =>
    obtain ⟨payload, written⟩ := h
    rw [frame, written]
    refine ⟨iff_of_false ?_ Bool.false_ne_true, fun _ => ⟨payload, rfl, rfl⟩⟩
    dsimp only
    split
    · rintro ⟨⟩
    · rintro ⟨⟩

/-- The batch of replies to requests that were read is refused exactly if the value of one of the
requests has a shape. Otherwise it can be sent, unless its payload is too long for a frame. -/
theorem Message.frame_replies {ι : Type} (I : Interpreter ι) (L : Limits) {payload : Bytes}
    {b : Batch} (received : Message.decode L payload = .ok (.batch b)) {replies : List Item}
    (served : ∀ reply ∈ replies,
      ∃ item ∈ b.items, item.answer = none ∧ Task.CanReply I L item reply) (busy : Bool) :
    ((Message.batch ⟨busy, replies⟩).frame L = .error (.content .shapeOnly) ↔
        ∃ reply ∈ replies, ∃ v ∈ reply.kind.value?, v.hasShape = true) ∧
      ((∀ reply ∈ replies, ∀ v ∈ reply.kind.value?, v.hasShape = false) →
        ∃ content, (Message.batch ⟨busy, replies⟩).put L = .ok content ∧
          (Message.batch ⟨busy, replies⟩).frame L =
            if maxPayload < content.length then .error .longMessage else .ok (framed content)) := by
  -- What was read is within the limits, so no shape gives way to a reference on the way back.
  have kept : ∀ reply ∈ replies, ∀ v ∈ reply.kind.value?, v.degrade L = v := by
    intro reply mem v hv
    obtain ⟨item, itemMem, -, possible⟩ := served reply mem
    obtain ⟨a, rfl⟩ := possible.exists_answered
    exact degrade_of_within (within_of_decode received item itemMem v hv)
  have shaped : (replies.any fun reply => reply.kind.isRefused L) = true ↔
      ∃ reply ∈ replies, ∃ v ∈ reply.kind.value?, v.hasShape = true := by
    simp only [List.any_eq_true, ItemKind.isRefused, Option.any_eq_true]
    apply exists_congr
    intro reply
    apply and_congr_right
    intro mem
    apply exists_congr
    intro v
    apply and_congr_right
    intro hv
    rw [kept reply mem v hv]
  obtain ⟨refused, sent⟩ := frame_of_refusedIf (refusedIf_put (L := L) (.batch ⟨busy, replies⟩))
  refine ⟨refused.trans shaped, fun plain => sent (Bool.eq_false_iff.mpr fun some => ?_)⟩
  obtain ⟨reply, mem, v, hv, shape⟩ := shaped.mp some
  exact Bool.false_ne_true ((plain reply mem v hv).symm.trans shape)

/-! ### A value that came as a shape -/

/-- Carry out what a task asks for without a session. Nobody is told anything, and the outside gives
requests back as they are. -/
def Script.Trial.serveTask : (r : TaskRequest Script) → StateM Script.Trial r.Reply
  | .code r => Script.Trial.serve r
  | .getDebugger => return {}
  | .clearInterrupt => do
    let was := (← get).interrupted
    modify fun t => { t with interrupted := false }
    return was
  | .delegate item => return item
  | .setDebugger _ | .tell _ | .setBusy _ | .reply _ | .console _ | .report _ => return ()

/-- The assignment of three integers of which only the shape came. -/
def shapeAssignment : Item :=
  ⟨0, some 5, .data (.assign "x" (.ofStore (.shape ⟨.integer, 3, none⟩))), none⟩

/-- The bytes of the assignment, with its value in shape mode. -/
def shapeAssignmentBytes : Bytes :=
  [0, 0, 0, 0, 0, 0, 0, 5, 0x10, 0x06, 0, 0, 0, 1, 0x78, 1, 0x10, 0, 0, 0, 0, 2, 0, 0, 0, 3, 0]

/-- A shape cannot be assigned. -/
def shapeReply : Item := shapeAssignment.answered (.status WireFault.shapeOnly.status)

theorem canReply_shapeAssignment : Task.CanReply Script.interpreter {} shapeAssignment shapeReply :=
  ⟨_, Script.Trial.serveTask, ⟨{}, false, []⟩, rfl⟩

/-- The evaluation of a lone parenthesis. -/
def openEvaluation : Item := ⟨0, some 6, .data (.evalVoid "("), none⟩

/-- The bytes of the evaluation. -/
def openEvaluationBytes : Bytes := [0, 0, 0, 0, 0, 0, 0, 6, 0x10, 0x01, 0, 0, 0, 1, 0x28, 0]

/-- A lone parenthesis cannot be parsed. -/
def openReply : Item :=
  openEvaluation.answered (.status (EvalFault.parse "unexpected end of input: (").status)

theorem canReply_openEvaluation : Task.CanReply Script.interpreter {} openEvaluation openReply :=
  ⟨_, Script.Trial.serveTask, ⟨{}, false, []⟩, rfl⟩

/-- Of the replies to two requests in one batch, that to the assignment of a shape cannot be sent,
and keeps the other one from being sent with it. -/
theorem Message.frame_replies_pair :
    Message.decode {} ([0x03, 0, 0, 0, 0, 2] ++ shapeAssignmentBytes ++ openEvaluationBytes) =
        .ok (.batch ⟨false, [shapeAssignment, openEvaluation]⟩) ∧
      (∀ reply ∈ [shapeReply, openReply], ∃ item ∈ [shapeAssignment, openEvaluation],
        item.answer = none ∧ Task.CanReply Script.interpreter {} item reply) ∧
      (Message.batch ⟨true, [shapeReply, openReply]⟩).frame {} = .error (.content .shapeOnly) ∧
      ∃ content, (Message.batch ⟨true, [openReply]⟩).frame {} = .ok (framed content) := by
  have received :
      Message.decode {} ([0x03, 0, 0, 0, 0, 2] ++ shapeAssignmentBytes ++ openEvaluationBytes) =
        .ok (.batch ⟨false, [shapeAssignment, openEvaluation]⟩) := rfl
  have served : ∀ reply ∈ [shapeReply, openReply], ∃ item ∈ [shapeAssignment, openEvaluation],
      item.answer = none ∧ Task.CanReply Script.interpreter {} item reply := by
    simp only [List.forall_mem_cons, List.not_mem_nil, false_implies, implies_true, and_true]
    exact ⟨⟨shapeAssignment, by simp, rfl, canReply_shapeAssignment⟩,
      ⟨openEvaluation, by simp, rfl, canReply_openEvaluation⟩⟩
  have refused := (frame_replies Script.interpreter {} received served true).1
  have sent := (frame_replies Script.interpreter {} received
    (fun reply mem => served reply (List.mem_cons_of_mem _ mem)) true).2
  refine ⟨received, served, refused.mpr ⟨_, List.mem_cons_self, _, rfl, rfl⟩, ?_⟩
  obtain ⟨content, written, framed⟩ := sent (by
    rintro reply (_ | ⟨_, ⟨⟩⟩) v ⟨⟩)
  cases written
  exact ⟨_, framed⟩

/-- A request that the reader accepts and that is answered, whose reply cannot be sent. -/
theorem Message.frame_error_of_shapeAssignment :
    Message.decode {} ([0x03, 0, 0, 0, 0, 1] ++ shapeAssignmentBytes) =
        .ok (.batch ⟨false, [shapeAssignment]⟩) ∧
      Task.CanReply Script.interpreter {} shapeAssignment shapeReply ∧
      (Message.batch ⟨true, [shapeReply]⟩).frame {} = .error (.content .shapeOnly) :=
  ⟨rfl, canReply_shapeAssignment, rfl⟩

end EngineLink
