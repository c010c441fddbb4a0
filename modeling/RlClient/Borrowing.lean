import Mathlib.Logic.Function.Basic
import Mathlib.Tactic.Simps.Basic
import RlClient.Refusal

/-!
# Copied and borrowed inputs

`r_client_check_rate_limit_async` copies the resources, the guards and the label
into the request; the borrowed form keeps the caller's pointers. The model of the
other modules stores values in a request and does not see the difference. Here the
request holds pointers: `submitThrough` is the submission over them, the caller may
overwrite its buffers between two calls, and every step sees the requests through
the pointers they hold at that moment.

The inputs are read once, while the packet is built. So a run over pointers is
observably a run of the machine whose requests carry no inputs at all, and the form
of the submission and later writes to the buffers drop out together.
-/

namespace RlClient

/-! ### Pointers to the inputs -/

/-- The memory a caller passes to a submission. -/
structure Buffers where
  resources : List RResourceRequest
  guards : List RLatencyGuard
  metricsLabel : Bytes

def SubmitArgs.buffers (args : SubmitArgs) : Buffers where
  resources := args.resources.elems
  guards := args.guards.elems
  metricsLabel := args.metricsLabel.getD []

/-- An input pointer of `struct r_client_req` with its `owns_` flag: null, a copy of
    the request's own, or the pointer the caller passed. -/
inductive InputPtr (α : Type) where
  | null
  | owned (copy : α)
  | borrowed

/-- What the pointer reaches when the caller's buffer holds `buffer`. -/
def InputPtr.deref {α : Type} (buffer : α) : InputPtr α → Option α
  | .null => none
  | .owned copy => some copy
  | .borrowed => some buffer

def strlen (memory : Bytes) : Nat := (memory.takeWhile (· != 0)).length

def memcpy (memory : Bytes) (n : Nat) : Bytes := (List.range n).map fun i => memory.getD i 0

/-- `r_strdup_n` of a source that is not null, allocation succeeding. -/
def rStrdupN (src : Bytes) (len : Nat) : Bytes :=
  memcpy src (if len = 0 then strlen src else len) ++ [0]

/-- The input fields of `struct r_client_req`. -/
structure StoredInputs where
  resources : InputPtr (List RResourceRequest)
  resourceCount : Nat
  guards : InputPtr (List RLatencyGuard)
  guardCount : Nat
  metricsLabel : InputPtr Bytes
  metricsLabelLen : Nat

/-- The pointer a submission stores for an array: none for an empty one. -/
def storeArray {α : Type} (borrowed : Bool) (arg : CArray α) : InputPtr (List α) × Nat :=
  if arg.count > 0 then
    if borrowed then (.borrowed, arg.count) else (.owned (arg.elems.take arg.count), arg.count)
  else (.null, 0)

/-- The pointer and the length a submission stores for the label. -/
def storeLabel (borrowed : Bool) (metricsLabel : Option Bytes) (metricsLabelLen : Nat) :
    InputPtr Bytes × Nat :=
  match metricsLabel with
  | none => (.null, 0)
  | some memory =>
      if memory.getD 0 0 = 0 then (.null, 0)
      else
        let labelLen := if metricsLabelLen = 0 then strlen memory else metricsLabelLen
        if borrowed then (.borrowed, labelLen) else (.owned (rStrdupN memory labelLen), labelLen)

/-- The input fields `r_client_check_rate_limit_async_impl` sets. -/
def storeInputs (args : SubmitArgs) : StoredInputs where
  resources := (storeArray args.borrowed args.resources).1
  resourceCount := (storeArray args.borrowed args.resources).2
  guards := (storeArray args.borrowed args.guards).1
  guardCount := (storeArray args.borrowed args.guards).2
  metricsLabel := (storeLabel args.borrowed args.metricsLabel args.metricsLabelLen).1
  metricsLabelLen := (storeLabel args.borrowed args.metricsLabel args.metricsLabelLen).2

def readArray {α : Type} (ptr : InputPtr (List α)) (count : Nat) (buffer : List α) : List α :=
  ((ptr.deref buffer).getD []).take count

/-- The label `r_build_rate_request_body` and `r_append_metrics_label_tlv` find
    behind a pointer: none when it is null or its first byte is NUL; a length of
    zero is replaced by `strlen` once more. -/
def readLabel (ptr : InputPtr Bytes) (labelLen : Nat) (buffer : Bytes) : Option Bytes :=
  match ptr.deref buffer with
  | none => none
  | some memory =>
      if memory.getD 0 0 = 0 then none
      else some (memcpy memory (if labelLen = 0 then strlen memory else labelLen))

/-- The inputs of a request as values. -/
structure Inputs where
  resources : List RResourceRequest
  guards : List RLatencyGuard
  metricsLabel : Option Bytes

/-- What the input pointers of a request reach. -/
def StoredInputs.read (stored : StoredInputs) (buffers : Buffers) : Inputs where
  resources := readArray stored.resources stored.resourceCount buffers.resources
  guards := readArray stored.guards stored.guardCount buffers.guards
  metricsLabel := readLabel stored.metricsLabel stored.metricsLabelLen buffers.metricsLabel

/-! ### Submission over pointers -/

/-- The packet inputs of a request, read through its pointers. -/
def Inputs.request (inputs : Inputs) (requestId : FixedBytes 16) (startMs : UInt64)
    (dedupTtlMs : UInt32) : RateRequest where
  resources := inputs.resources
  guards := inputs.guards
  metricsLabel := inputs.metricsLabel
  dedupTtlMs := dedupTtlMs
  requestId := requestId
  startMs := startMs

/-- `r_client_check_rate_limit_async_impl` over pointers: the packet is built from what
    the stored pointers reach. -/
def submitThrough (gcm : Gcm) (c : RClient) (h : Handle) (args : SubmitArgs) (io : SubmitIo) :
    Reply :=
  let inputs := (storeInputs args).read args.buffers
  (stageSubmission (buildRequestOf inputs.request gcm · h args io) c args io).reply c h io

theorem CArray.length_elems_le {α : Type} (arg : CArray α) : arg.elems.length ≤ arg.count := by
  cases arg with
  | null count => exact Nat.zero_le count
  | array elems => exact le_refl elems.length

theorem readArray_store {α : Type} (borrowed : Bool) (arg : CArray α) :
    readArray (storeArray borrowed arg).1 (storeArray borrowed arg).2 arg.elems = arg.elems := by
  have hlen := arg.length_elems_le
  by_cases hcount : arg.count > 0
  · cases borrowed <;>
      simp [readArray, storeArray, hcount, InputPtr.deref, List.take_of_length_le hlen]
  · have hnil : arg.elems = [] := List.length_eq_zero_iff.mp (by omega)
    simp [readArray, storeArray, hcount, hnil]

theorem memcpy_getD {memory : Bytes} {n i : Nat} (hi : i < n) :
    (memcpy memory n).getD i 0 = memory.getD i 0 := by
  simp [memcpy, List.getD_eq_getElem?_getD, hi]

@[simp] theorem length_memcpy (memory : Bytes) (n : Nat) : (memcpy memory n).length = n := by
  simp [memcpy]

/-- The copy that `r_strdup_n` makes of a label has the label's bytes in front. -/
theorem rStrdupN_getD {src : Bytes} {len i : Nat} (hi : i < len) :
    (rStrdupN src len).getD i 0 = src.getD i 0 := by
  have hlen : len ≠ 0 := by omega
  rw [rStrdupN, if_neg hlen, List.getD_eq_getElem?_getD,
    List.getElem?_append_left (by rw [length_memcpy]; exact hi), ← List.getD_eq_getElem?_getD]
  exact memcpy_getD hi

theorem memcpy_rStrdupN (src : Bytes) (len : Nat) :
    memcpy (rStrdupN src len) len = memcpy src len := by
  apply List.map_congr_left
  intro i hi
  exact rStrdupN_getD (List.mem_range.mp hi)

theorem strlen_pos {memory : Bytes} (hfirst : memory.getD 0 0 ≠ 0) : 0 < strlen memory := by
  cases memory with
  | nil => exact absurd rfl hfirst
  | cons b rest =>
    have hb : b ≠ 0 := hfirst
    simp [strlen, hb]

/-- The label behind the stored pointer is the submitted one. The stored length is
    never zero, so the encoder does not measure the label a second time. -/
theorem readLabel_store (borrowed : Bool) (metricsLabel : Option Bytes) (metricsLabelLen : Nat) :
    readLabel (storeLabel borrowed metricsLabel metricsLabelLen).1
        (storeLabel borrowed metricsLabel metricsLabelLen).2 (metricsLabel.getD []) =
      submittedLabel metricsLabel metricsLabelLen := by
  cases metricsLabel with
  | none => rfl
  | some memory =>
    by_cases hfirst : memory.getD 0 0 = 0
    · simp only [storeLabel, submittedLabel, if_pos hfirst]
      rfl
    · simp only [storeLabel, submittedLabel, if_neg hfirst]
      set labelLen := if metricsLabelLen = 0 then strlen memory else metricsLabelLen with hdef
      have hpos : 0 < labelLen := by
        rw [hdef]
        split
        · exact strlen_pos hfirst
        · omega
      have hcopy : (rStrdupN memory labelLen).getD 0 0 ≠ 0 := by
        rw [rStrdupN_getD hpos]
        exact hfirst
      cases borrowed with
      | false =>
        simp only [readLabel, InputPtr.deref, Bool.false_eq_true, if_false, if_neg hcopy,
          if_neg hpos.ne', memcpy_rStrdupN]
        rfl
      | true =>
        simp only [readLabel, InputPtr.deref, if_true, Option.getD_some, if_neg hfirst,
          if_neg hpos.ne']
        rfl

/-- Through its pointers a request finds the submitted inputs, in either form. -/
theorem read_storeInputs (args : SubmitArgs) :
    (storeInputs args).read args.buffers =
      { resources := args.resources.elems
        guards := args.guards.elems
        metricsLabel := submittedLabel args.metricsLabel args.metricsLabelLen } := by
  simp only [StoredInputs.read, storeInputs, SubmitArgs.buffers, readArray_store, readLabel_store]

/-- The submission over pointers is the submission over values. -/
theorem submitThrough_eq (gcm : Gcm) (c : RClient) (h : Handle) (args : SubmitArgs)
    (io : SubmitIo) :
    submitThrough gcm c h args io = rClientCheckRateLimitAsyncImpl gcm c h args io := by
  simp only [submitThrough, read_storeInputs]
  rfl

/-! ### No step reads the inputs of a request -/

@[simps]
def RClientReq.refill (fill : Handle → Inputs) (req : RClientReq) : RClientReq :=
  { req with
    resources := (fill req.handle).resources
    guards := (fill req.handle).guards
    metricsLabel := (fill req.handle).metricsLabel }

@[simps]
def RClient.refill (fill : Handle → Inputs) (c : RClient) : RClient :=
  { c with inflight := c.inflight.map (·.refill fill) }

def Frame.refill (fill : Handle → Inputs) : Frame → Frame
  | .completing req => .completing (req.refill fill)
  | .emptyRequest => .emptyRequest

def Effect.refill (fill : Handle → Inputs) : Effect → Effect
  | .submitted h req => .submitted h (req.refill fill)
  | e => e

@[simps]
def Reply.refill (fill : Handle → Inputs) (reply : Reply) : Reply where
  status := reply.status
  client := reply.client.refill fill
  effects := reply.effects.map (·.refill fill)
  frame := reply.frame.map (·.refill fill)

@[simps]
def Machine.refill (fill : Handle → Inputs) (m : Machine) : Machine where
  client := m.client.refill fill
  frames := m.frames.map (·.refill fill)
  nextHandle := m.nextHandle

section Refill

variable (fill : Handle → Inputs) (c : RClient) (req : RClientReq)

theorem done_refill (status : RClientError) (effects : List Effect) :
    (Reply.done status c effects).refill fill =
      .done status (c.refill fill) (effects.map (·.refill fill)) := rfl

theorem putRequest_refill :
    (c.refill fill).putRequest (req.refill fill) = (c.putRequest req).refill fill := by
  unfold RClient.putRequest RClient.refill
  simp only [List.map_map]
  congr 1
  apply List.map_congr_left
  intro r _
  simp only [Function.comp_apply, RClientReq.refill_handle]
  split <;> rfl

theorem rRequestRemove_refill (h : Handle) :
    rRequestRemove (c.refill fill) h = (rRequestRemove c h).refill fill := by
  unfold rRequestRemove RClient.refill
  simp only [List.eraseP_map]
  rfl

theorem rRecordSendFailures_refill (failures : UInt64) :
    rRecordSendFailures (c.refill fill) failures =
      (rRecordSendFailures c failures).refill fill := by
  unfold rRecordSendFailures
  simp only [RClient.refill_sendFailureCount]
  split_ifs <;> rfl

theorem sendEffects_refill (missingOnly : Bool) (pass : SendPass) (startedMs : UInt64)
    (udpSend : Nat → Bool) :
    (sendEffects req missingOnly pass startedMs udpSend).map (·.refill fill) =
      sendEffects req missingOnly pass startedMs udpSend := by
  simp only [sendEffects, List.map_map]
  rfl

theorem rSendRateRequest_refill (missingOnly bestEffort : Bool) (pass : SendPass)
    (startedMs : UInt64) (udpSend : Nat → Bool) :
    rSendRateRequest (c.refill fill) (req.refill fill) missingOnly bestEffort pass startedMs
        udpSend =
      (rSendRateRequest c req missingOnly bestEffort pass startedMs udpSend).refill fill := by
  have hsends := sendEffects_refill fill req missingOnly pass startedMs udpSend
  have hsame : sendEffects (req.refill fill) missingOnly pass startedMs udpSend =
    sendEffects req missingOnly pass startedMs udpSend := rfl
  have hattempted : attemptedTargets (req.refill fill) missingOnly =
    attemptedTargets req missingOnly := rfl
  have hdelivered : deliveredCount (req.refill fill) missingOnly udpSend =
    deliveredCount req missingOnly udpSend := rfl
  unfold rSendRateRequest
  simp only [hsame, hattempted, hdelivered, RClientReq.refill_packet, RClient.refill_udpSend,
    rRecordSendFailures_refill, apply_ite (Reply.refill fill), done_refill, hsends, List.map_nil]

theorem rStartRound_refill (round : UInt32) (nowMs : UInt64) (udpSend : Nat → Bool) :
    rStartRound (c.refill fill) (req.refill fill) round nowMs udpSend =
      ((rStartRound c req round nowMs udpSend).1.refill fill,
        (rStartRound c req round nowMs udpSend).2.refill fill) := by
  unfold rStartRound
  simp only [RClient.refill_policy, RClientReq.refill_dedupDeadlineMs]
  split
  · rfl
  · split
    · rfl
    · have hround : ∀ gapUnits, enterRound c.policy (req.refill fill) round gapUnits =
          (enterRound c.policy req round gapUnits).refill fill := fun _ => rfl
      simp only [hround, rSendRateRequest_refill]

theorem rEnterFinal_refill (policy : RRequestPolicy) :
    rEnterFinal policy (req.refill fill) = (rEnterFinal policy req).map (·.refill fill) := by
  unfold rEnterFinal
  split <;> rfl

theorem rCompletionDelivery_refill (io : CompleteIo) :
    rCompletionDelivery (c.refill fill) (req.refill fill) io =
      (rCompletionDelivery c req io).map (·.refill fill) := by
  unfold rCompletionDelivery
  simp only [RClient.refill_policy, RClientReq.refill_dedupDeadlineMs, rSendRateRequest_refill]
  split <;> rfl

theorem complete_refill (status : RClientError) (selected : Option RRateLimitResult)
    (io : CompleteIo) (before : List Effect) :
    Reply.complete (c.refill fill) (req.refill fill) status selected io
        (before.map (·.refill fill)) =
      (Reply.complete c req status selected io before).refill fill := by
  have hprofile : completionProfile (req.refill fill) status selected io.profileMs =
    completionProfile req status selected io.profileMs := rfl
  unfold Reply.complete rRequestComplete Reply.refill
  simp only [rCompletionDelivery_refill, rRequestRemove_refill, hprofile, List.map_append,
    RClient.refill_requestProfileCb, RClientReq.refill_handle, apply_ite (List.map _)]
  rfl

theorem rNotifySteeringWhenDrained_refill :
    rNotifySteeringWhenDrained (c.refill fill) =
      ((rNotifySteeringWhenDrained c).1.refill fill,
        (rNotifySteeringWhenDrained c).2.map (·.refill fill)) := by
  unfold rNotifySteeringWhenDrained
  simp only [RClient.refill_inflight, List.isEmpty_map, RClient.refill_steeringRebindPending,
    RClient.refill_onSteeringFeedback]
  split_ifs <;> rfl

theorem rClientCancelRequest_refill (h : Handle) :
    rClientCancelRequest (c.refill fill) h =
      ((rClientCancelRequest c h).1.refill fill,
        (rClientCancelRequest c h).2.map (·.refill fill)) := by
  unfold rClientCancelRequest
  simp only [RClient.refill_inflight, List.any_map, Function.comp_def, RClientReq.refill_handle,
    rRequestRemove_refill, rNotifySteeringWhenDrained_refill]
  split <;> rfl

theorem rCallbackReturned_refill (frame : Frame) :
    rCallbackReturned (c.refill fill) (frame.refill fill) =
      ((rCallbackReturned c frame).1.refill fill,
        (rCallbackReturned c frame).2.map (·.refill fill)) := by
  cases frame with
  | completing req => exact rNotifySteeringWhenDrained_refill fill c
  | emptyRequest => rfl

/-! Datagrams and timers. -/

theorem onDatagramGate_refill (gcm : Gcm) (buf : Bytes) (io : DatagramIo) :
    onDatagramGate gcm (c.refill fill) buf io =
      (onDatagramGate gcm c buf io).map fun found => (found.1.refill fill, found.2) := by
  unfold onDatagramGate
  split
  · rfl
  · split
    · rfl
    · rename_i tenant pos _
      simp only [RClient.refill_inflight, List.find?_map, Function.comp_def,
        RClientReq.refill_requestId, RClient.refill_credential]
      cases c.inflight.find? (fun req => req.requestId == tenant.uniqueId) with
      | none => rfl
      | some req =>
        have hallowed : rAllowedServerId (req.refill fill) tenant.keyId =
          rAllowedServerId req tenant.keyId := rfl
        simp only [Option.map_some, RClientReq.refill_dedupDeadlineMs, hallowed]
        split
        · rfl
        · split
          · rfl
          · split
            · rfl
            · split <;> rfl

theorem rSeenAddrAdd_refill (addr : RAddr) (allocOk : Bool) :
    rSeenAddrAdd (req.refill fill) addr allocOk = (rSeenAddrAdd req addr allocOk).refill fill := by
  unfold rSeenAddrAdd
  simp only [RClientReq.refill_seenAddrs, RClientReq.refill_seenAddrCap]
  split_ifs <;> rfl

theorem rSeenServerAdd_refill (serverId : UInt64) (allocOk : Bool) :
    rSeenServerAdd (req.refill fill) serverId allocOk =
      (rSeenServerAdd req serverId allocOk).refill fill := by
  unfold rSeenServerAdd
  simp only [RClientReq.refill_seenServerIds, RClientReq.refill_seenServerIdCap]
  split_ifs <;> rfl

theorem recordResponse_refill (response : RResponse) (sender : RAddr) (alloc : SeenAlloc) :
    recordResponse (req.refill fill) response sender alloc =
      (recordResponse req response sender alloc).refill fill := by
  have hflag : (if response.steeringByte = 0 then
        { req.refill fill with steeringRebind := true } else req.refill fill) =
      RClientReq.refill fill
        (if response.steeringByte = 0 then { req with steeringRebind := true } else req) := by
    split <;> rfl
  unfold recordResponse
  simp only [hflag, rSeenAddrAdd_refill, rSeenServerAdd_refill]
  rfl

theorem holdCandidate_refill :
    holdCandidate (req.refill fill) = (holdCandidate req).refill fill := by
  unfold holdCandidate
  simp only [RClientReq.refill_best, RClientReq.refill_haPreferenceDeadlineMs,
    RClientReq.refill_attemptDeadlineMs]
  split <;> rfl

theorem acceptResponse_refill (response : RResponse) (sender : RAddr) (io : DatagramIo) :
    acceptResponse (c.refill fill) (req.refill fill) response sender io =
      (acceptResponse c req response sender io).refill fill := by
  have hbest : ∀ r : RClientReq, selectBest (r.refill fill) io.nowMs = selectBest r io.nowMs :=
    fun _ => rfl
  unfold acceptResponse
  simp only [recordResponse_refill, hbest, holdCandidate_refill, putRequest_refill,
    RClientReq.refill_handle]
  split
  · rw [← complete_refill]
    rfl
  · rfl

theorem rClientOnDatagram_refill (gcm : Gcm) (buf : Bytes) (sender : RAddr) (io : DatagramIo) :
    rClientOnDatagram gcm (c.refill fill) buf sender io =
      (rClientOnDatagram gcm c buf sender io).refill fill := by
  unfold rClientOnDatagram
  rw [onDatagramGate_refill]
  cases onDatagramGate gcm c buf io with
  | error rc => rfl
  | ok found => exact acceptResponse_refill fill c found.1 found.2 sender io

theorem replayRound_refill (io : TimeoutIo) (before : List Effect) :
    replayRound (c.refill fill) (req.refill fill) io (before.map (·.refill fill)) =
      (replayRound c req io before).refill fill := by
  unfold replayRound
  simp only [RClientReq.refill_haRound, rStartRound_refill, Reply.refill_status,
    Reply.refill_client, Reply.refill_effects, putRequest_refill, ← List.map_append,
    complete_refill, apply_ite (Reply.refill fill), done_refill]

theorem rRequestPolicyOnTimeout_refill (nowMs : UInt64) (io : TimeoutIo) (before : List Effect) :
    rRequestPolicyOnTimeout (c.refill fill) (req.refill fill) nowMs io
        (before.map (·.refill fill)) =
      (rRequestPolicyOnTimeout c req nowMs io before).refill fill := by
  have hput : ∀ r : RClientReq,
      Reply.done .ok ((c.refill fill).putRequest (r.refill fill)) (before.map (·.refill fill)) =
        (Reply.done .ok (c.putRequest r) before).refill fill := by
    intro r
    rw [putRequest_refill, done_refill]
  unfold rRequestPolicyOnTimeout
  cases hbest : req.best with
  | some best =>
    simp only [RClientReq.refill_best, hbest, RClientReq.refill_haPreferenceDeadlineMs]
    split
    · exact complete_refill fill c req .ok (some best) io.complete before
    · exact hput { req with attemptDeadlineMs := req.haPreferenceDeadlineMs, best := some best }
  | none =>
    simp only [RClientReq.refill_best, hbest, RClientReq.refill_haRoundDeadlineMs,
      RClientReq.refill_phase, RClientReq.refill_haRound, RClient.refill_policy]
    split
    · exact hput { req with attemptDeadlineMs := req.haRoundDeadlineMs, best := none }
    · split
      · split
        · exact replayRound_refill fill c req io before
        · rw [rEnterFinal_refill]
          cases rEnterFinal c.policy req with
          | error rc => exact complete_refill fill c req rc none io.complete before
          | ok entered => exact hput entered
      · exact complete_refill fill c req .errTimeout none io.complete before

theorem rClientOnTimeout_refill (nowMs : UInt64) (io : TimeoutIo) :
    rClientOnTimeout (c.refill fill) (req.refill fill) nowMs io =
      (rClientOnTimeout c req nowMs io).refill fill := by
  unfold rClientOnTimeout
  simp only [RClientReq.refill_attemptDeadlineMs, RClientReq.refill_handle]
  split
  · rfl
  · rw [← rRequestPolicyOnTimeout_refill]
    rfl

/-! Submissions and reports. -/

theorem launchRequest_refill (io : SubmitIo) :
    launchRequest (c.refill fill) (req.refill fill) io = (launchRequest c req io).refill fill := by
  unfold launchRequest
  simp only [rStartRound_refill, Reply.refill_status, Reply.refill_client, Reply.refill_effects]
  split
  · simp only [done_refill, List.map_append]
    rfl
  · simp only [done_refill, List.map_append]
    rfl

@[simp] theorem RClientReq.refill_refill (fill' : Handle → Inputs) :
    (req.refill fill').refill fill = req.refill fill := rfl

@[simp] theorem RClient.refill_refill (fill' : Handle → Inputs) :
    (c.refill fill').refill fill = c.refill fill := by
  simp only [RClient.refill, List.map_map]
  rfl

@[simp] theorem Machine.refill_refill (fill' : Handle → Inputs) (m : Machine) :
    (m.refill fill').refill fill = m.refill fill := by
  have hframes : ∀ frame : Frame, (frame.refill fill').refill fill = frame.refill fill := by
    intro frame
    cases frame <;> rfl
  simp [Machine.refill, Function.comp_def, hframes]

/-- A new request brings inputs of its own, so the two sides agree only once these
    are refilled as well. -/
theorem rClientCheckRateLimitAsyncImpl_refill (gcm : Gcm) (h : Handle) (args : SubmitArgs)
    (io : SubmitIo) :
    (rClientCheckRateLimitAsyncImpl gcm (c.refill fill) h args io).refill fill =
      (rClientCheckRateLimitAsyncImpl gcm c h args io).refill fill := by
  have hsame : ∀ (c' : RClient) (status : RClientError) (effects : List Effect),
      (Reply.done status (c'.refill fill) effects).refill fill =
        (Reply.done status c' effects).refill fill := by
    intro c' status effects
    rw [done_refill, done_refill, RClient.refill_refill]
  have hlaunch : ∀ (c' : RClient) (req : RClientReq),
      (launchRequest (c'.refill fill) req io).refill fill =
        (launchRequest c' req io).refill fill := by
    intro c' req
    rw [← launchRequest_refill, ← launchRequest_refill, RClient.refill_refill]
  have hempty : (completeEmpty (c.refill fill)).refill fill = (completeEmpty c).refill fill := by
    simp only [completeEmpty, Reply.refill, RClient.refill_refill, RClient.refill_requestProfileCb]
  -- the two stages are the same but for the client that they carry
  have hcheck : checkSubmission (c.refill fill) args = checkSubmission c args := rfl
  have hbuild : buildRequest gcm ((c.refill fill).refreshed false io.refresh) h args io =
    buildRequest gcm (c.refreshed false io.refresh) h args io := rfl
  unfold rClientCheckRateLimitAsyncImpl stageSubmission
  rw [hcheck]
  simp only [hbuild]
  cases checkSubmission c args with
  | refused rc => exact hsame c rc _
  | empty => exact hempty
  | passed =>
    simp only [RClient.refill_membership, RClient.refill_dnsRefresh, RClient.refill_dnsName]
    split
    · exact hsame ((c.refreshed false io.refresh).refreshed true io.forcedRefresh) .errDns _
    · cases buildRequest gcm (c.refreshed false io.refresh) h args io with
      | error rc => exact hsame (c.refreshed false io.refresh) rc _
      | ok req => exact hlaunch (c.refreshed false io.refresh) req

theorem rClientReportLatency_refill (gcm : Gcm) (reports : CArray RServiceLatencyReport)
    (io : ReportIo) :
    rClientReportLatency gcm (c.refill fill) reports io =
      (rClientReportLatency gcm c reports io).refill fill := by
  have hsend : ∀ (c' : RClient) (packet : Bytes),
      sendReport (c'.refill fill) packet io = (sendReport c' packet io).refill fill := by
    intro c' packet
    unfold sendReport
    simp only [RClient.refill_membership, rRecordSendFailures_refill,
      apply_ite (Reply.refill fill), done_refill, List.map_map]
    rfl
  unfold rClientReportLatency
  simp only [RClient.refill_membership, RClient.refill_dnsRefresh, RClient.refill_dnsName,
    RClient.refill_udpSend]
  generalize rDnsMaybeRefresh c.membership c.dnsRefresh c.dnsName false io.refresh = refreshed
  split
  · rfl
  split
  · rfl
  split
  · rfl
  · -- the packet is made from what the refill leaves alone
    split
    · rename_i rc hpacket
      rw [show reportPacket gcm { c with membership := refreshed } reports.elems io = .error rc
        from hpacket]
      rfl
    · rename_i packet hpacket
      rw [show reportPacket gcm { c with membership := refreshed } reports.elems io = .ok packet
        from hpacket]
      exact hsend { c with membership := refreshed } packet

end Refill

/-! ### What the host observes -/

def noInputs : Handle → Inputs := fun _ => { resources := [], guards := [], metricsLabel := none }

/-- The machine with the inputs of its requests erased. -/
def Machine.blind (m : Machine) : Machine := m.refill noInputs

/-- The return code of an entry point; the other calls return nothing. -/
def returnCode (gcm : Gcm) (m : Machine) : Call → RClientError
  | .submit args io =>
      (rClientCheckRateLimitAsyncImpl gcm m.client m.nextHandle args io).status
  | .report reports io => (rClientReportLatency gcm m.client reports io).status
  | .datagram buf sender io => (rClientOnDatagram gcm m.client buf sender io).status
  | .timeout h nowMs io =>
      match m.client.inflight.find? (·.handle == h) with
      | none => .ok
      | some req => (rClientOnTimeout m.client req nowMs io).status
  | .cancel _ | .callbackReturn | .refreshFinish _ _ => .ok

/-- What a call shows: its effects, in order, with every packet, endpoint, callback
    status and result; its return code; and the deadlines of the requests in flight
    behind it. -/
inductive Observed where
  | effect (e : Effect)
  | returned (rc : RClientError)
  | deadlines (inflight : List (Handle × UInt64))
deriving DecidableEq

/-- The marker of a successful submission is kept without the inputs it carries. -/
def observed (rc : RClientError) (effects : List Effect) (m : Machine) : List Observed :=
  effects.map (fun e => .effect (e.refill noInputs)) ++ [.returned rc,
    .deadlines (m.client.inflight.map fun req => (req.handle, rClientRequestDeadlineMs req))]

/-- The abstract machine: a step forgets the inputs of every request. -/
def blindStep (gcm : Gcm) (m : Machine) (call : Call) : Option (Machine × List Observed) :=
  (step gcm m call).map fun next =>
    (next.1.blind, observed (returnCode gcm m call) next.2 next.1)

theorem Effect.refill_refill (fill fill' : Handle → Inputs) (e : Effect) :
    (e.refill fill').refill fill = e.refill fill := by
  cases e <;> rfl

def refillNext (fill : Handle → Inputs) (next : Machine × List Effect) : Machine × List Effect :=
  (next.1.refill fill, next.2.map (·.refill fill))

theorem refillNext_refillNext (fill : Handle → Inputs) (next : Machine × List Effect) :
    refillNext fill (refillNext fill next) = refillNext fill next := by
  simp only [refillNext, Machine.refill_refill, List.map_map, Function.comp_def,
    Effect.refill_refill]

theorem refillNext_reply (fill : Handle → Inputs) (m : Machine) (reply : Reply) :
    ((m.refill fill).afterReply (reply.refill fill), (reply.refill fill).effects) =
      refillNext fill (m.afterReply reply, reply.effects) := by
  unfold refillNext Machine.afterReply Machine.refill
  simp only [Reply.refill, List.map_append]
  cases reply.frame <;> rfl

/-- A step other than a submission commutes with a change of the inputs. -/
theorem step_refill (fill : Handle → Inputs) (gcm : Gcm) (m : Machine) {call : Call}
    (hsubmit : ∀ args io, call ≠ .submit args io) :
    step gcm (m.refill fill) call = (step gcm m call).map (refillNext fill) := by
  cases call with
  | submit args io => exact absurd rfl (hsubmit args io)
  | report reports io =>
    simp only [step, Machine.refill_client, rClientReportLatency_refill, refillNext_reply,
      Option.map_some]
  | datagram buf sender io =>
    simp only [step, Machine.refill_client, Machine.refill_frames, List.isEmpty_map,
      rClientOnDatagram_refill, refillNext_reply]
    split <;> rfl
  | timeout h nowMs io =>
    simp only [step, Machine.refill_client, Machine.refill_frames, List.isEmpty_map,
      RClient.refill_inflight, List.find?_map, Function.comp_def, RClientReq.refill_handle]
    split
    · cases m.client.inflight.find? (·.handle == h) with
      | none => rfl
      | some req =>
        simp only [Option.map_some, rClientOnTimeout_refill, refillNext_reply]
    · rfl
  | cancel h =>
    simp only [step, Machine.refill_client, rClientCancelRequest_refill]
    rfl
  | callbackReturn =>
    simp only [step, Machine.refill_client, Machine.refill_frames]
    cases m.frames with
    | nil => rfl
    | cons frame frames =>
      simp only [List.map_cons, rCallbackReturned_refill]
      rfl
  | refreshFinish discovery nowMs =>
    simp only [step, Machine.refill_client, RClient.refill_membership]
    split <;> rfl

theorem refillNext_submitted (fill : Handle → Inputs) (m : Machine) {reply reply' : Reply}
    (h : reply.refill fill = reply'.refill fill) :
    refillNext fill ({ (m.refill fill).afterReply reply with nextHandle := m.nextHandle + 1 },
        reply.effects) =
      refillNext fill ({ m.afterReply reply' with nextHandle := m.nextHandle + 1 },
        reply'.effects) := by
  have hclient := congrArg Reply.client h
  have heffects := congrArg Reply.effects h
  have hframe := congrArg (fun r => Option.toList (Reply.frame r)) h
  have hframes := congrArg Machine.frames (Machine.refill_refill fill fill m)
  simp only [Reply.refill, Machine.refill, Option.toList_map] at hclient heffects hframe hframes
  simp only [refillNext, Machine.refill, Machine.afterReply, List.map_append, hclient, heffects,
    hframe, hframes]

/-- **No step reads the inputs of a request in flight.** A submission reads those of
    the request it makes, so it is compared once these are gone too. -/
theorem step_refilled (fill : Handle → Inputs) (gcm : Gcm) (m : Machine) (call : Call) :
    (step gcm (m.refill fill) call).map (refillNext fill) =
      (step gcm m call).map (refillNext fill) := by
  by_cases hsubmit : ∃ args io, call = .submit args io
  · obtain ⟨args, io, rfl⟩ := hsubmit
    have hreply := rClientCheckRateLimitAsyncImpl_refill fill m.client gcm m.nextHandle args io
    exact congrArg some (refillNext_submitted fill m hreply)
  · rw [step_refill fill gcm m (fun args io heq => hsubmit ⟨args, io, heq⟩), Option.map_map]
    congr 1
    funext next
    exact refillNext_refillNext fill next

theorem returnCode_refill (fill : Handle → Inputs) (gcm : Gcm) (m : Machine) (call : Call) :
    returnCode gcm (m.refill fill) call = returnCode gcm m call := by
  cases call with
  | submit args io =>
    have hreply := rClientCheckRateLimitAsyncImpl_refill fill m.client gcm m.nextHandle args io
    have hstatus := congrArg Reply.status hreply
    exact hstatus
  | report reports io =>
    simp only [returnCode, Machine.refill_client, rClientReportLatency_refill, Reply.refill_status]
  | datagram buf sender io =>
    simp only [returnCode, Machine.refill_client, rClientOnDatagram_refill, Reply.refill_status]
  | timeout h nowMs io =>
    simp only [returnCode, Machine.refill_client, RClient.refill_inflight, List.find?_map,
      Function.comp_def, RClientReq.refill_handle]
    cases m.client.inflight.find? (·.handle == h) with
    | none => rfl
    | some req =>
      simp only [Option.map_some, rClientOnTimeout_refill, Reply.refill_status]
  | cancel h => rfl
  | callbackReturn => rfl
  | refreshFinish discovery nowMs => rfl

/-- What is observed of a step does not depend on the inputs. -/
theorem observed_refillNext (rc : RClientError) (next : Machine × List Effect) :
    observed rc (refillNext noInputs next).2 (refillNext noInputs next).1 =
      observed rc next.2 next.1 := by
  simp only [observed, refillNext, Machine.refill_client, RClient.refill_inflight, List.map_map,
    Function.comp_def, Effect.refill_refill]
  rfl

/-- Two machines that differ in the inputs of their requests are observed alike. -/
theorem blindStep_blind (gcm : Gcm) (m : Machine) (call : Call) :
    blindStep gcm m.blind call = blindStep gcm m call := by
  have hsplit : ∀ m' : Machine, blindStep gcm m' call =
      ((step gcm m' call).map (refillNext noInputs)).map fun next =>
        (next.1, observed (returnCode gcm m' call) next.2 next.1) := by
    intro m'
    simp only [blindStep, Option.map_map, Function.comp_def, observed_refillNext]
    rfl
  rw [hsplit, hsplit, Machine.blind, step_refilled, returnCode_refill]

/-! ### A host with buffers of its own -/

/-- A machine with the input pointers of every request and the caller's buffers. The
    values of the inputs in `machine` are not looked at. -/
structure Host where
  machine : Machine
  stored : Handle → StoredInputs
  buffers : Handle → Buffers

/-- What the host does: a call, or a write to the buffers it passed to a submission. -/
inductive HostEvent where
  | call (call : Call)
  | overwrite (h : Handle) (buffers : Buffers)

/-- The machine as the client sees it, every request with what its pointers reach. -/
def Host.view (host : Host) : Machine :=
  host.machine.refill fun h => (host.stored h).read (host.buffers h)

def Host.step (gcm : Gcm) (host : Host) : HostEvent → Option (Host × List Observed)
  | .overwrite h buffers =>
      some ({ host with buffers := Function.update host.buffers h buffers }, [])
  | .call (.submit args io) =>
      let m := host.view
      let reply := submitThrough gcm m.client m.nextHandle args io
      let m' := { m.afterReply reply with nextHandle := m.nextHandle + 1 }
      some
        ({ machine := m'
           stored := Function.update host.stored m.nextHandle (storeInputs args)
           buffers := Function.update host.buffers m.nextHandle args.buffers },
          observed reply.status reply.effects m')
  | .call call =>
      (RlClient.step gcm host.view call).map fun next =>
        ({ host with machine := next.1 },
          observed (returnCode gcm host.view call) next.2 next.1)

def HostEvent.call? : HostEvent → Option Call
  | .call entry => some entry
  | .overwrite _ _ => none

def Host.observe (gcm : Gcm) (host : Host) (events : List HostEvent) : Option (List Observed) :=
  (Run.exec (Host.step gcm) host events).map (·.2)

theorem Host.blind_view (host : Host) : host.view.blind = host.machine.blind :=
  Machine.refill_refill _ _ _

theorem Host.step_call (gcm : Gcm) (host : Host) (call : Call) :
    (host.step gcm (.call call)).map (fun next => (next.1.machine.blind, next.2)) =
      blindStep gcm host.machine.blind call := by
  rw [← host.blind_view, blindStep_blind]
  cases call with
  | submit args io =>
    simp only [Host.step, submitThrough_eq, Option.map_some]
    rfl
  | _ =>
    simp only [Host.step, blindStep, Option.map_map]
    rfl

/-- **A run over pointers is a run without inputs.** -/
theorem Host.observe_eq (gcm : Gcm) (host : Host) (events : List HostEvent) :
    host.observe gcm events =
      (Run.exec (blindStep gcm) host.machine.blind (events.filterMap (·.call?))).map (·.2) := by
  rw [← Run.exec_abstract (fun host : Host => host.machine.blind) HostEvent.call? ?_ ?_ host events,
    Option.map_map]
  · rfl
  · intro host event hnone
    cases event with
    | call call => exact absurd hnone (by simp [HostEvent.call?])
    | overwrite h buffers => exact ⟨_, rfl, rfl⟩
  · intro host event call hcall
    cases event with
    | call call' =>
      obtain rfl : call' = call := Option.some.inj hcall
      exact host.step_call gcm call'
    | overwrite h buffers => exact absurd hcall (by simp [HostEvent.call?])

/-- The copies of a submission's inputs can be allocated. -/
def SubmitIo.Allocates (io : SubmitIo) : Prop :=
  io.allocResources = true ∧ io.allocGuards = true ∧ io.allocLabel = true

theorem copyInputs_ok {args : SubmitArgs} {io : SubmitIo} (halloc : io.Allocates) :
    copyInputs args io = .ok := by
  obtain ⟨hresources, hguards, hlabel⟩ := halloc
  simp [copyInputs, hresources, hguards, hlabel]

/-- The form of a submission is of no account once the copies are made. -/
theorem blindStep_form (gcm : Gcm) (m : Machine) (args : SubmitArgs) {io : SubmitIo}
    (halloc : io.Allocates) (borrowed : Bool) :
    blindStep gcm m (.submit { args with borrowed := borrowed } io) =
      blindStep gcm m (.submit args io) := by
  have hbuild : ∀ c h, buildRequest gcm c h { args with borrowed := borrowed } io =
      buildRequest gcm c h args io := by
    intro c h
    simp only [buildRequest, buildRequestOf, copyInputs_ok halloc]
    rfl
  have hreply : ∀ c h,
      rClientCheckRateLimitAsyncImpl gcm c h { args with borrowed := borrowed } io =
        rClientCheckRateLimitAsyncImpl gcm c h args io := by
    intro c h
    simp only [rClientCheckRateLimitAsyncImpl, hbuild]
    rfl
  simp only [blindStep, RlClient.step, returnCode, hreply]

/-- **Copying and borrowing are the same to the host.** From any state, a submission
    in either form is followed by the same return codes, sends, deadlines and
    callbacks in the same order, as long as the calls behind it are the same. Between
    these calls the caller may write anything to the buffers of any submission, in
    either run. -/
theorem borrowed_submission_equivalent (gcm : Gcm) (host : Host) (args : SubmitArgs)
    (io : SubmitIo) (halloc : io.Allocates) (copying borrowing : List HostEvent)
    (hcalls : borrowing.filterMap (·.call?) = copying.filterMap (·.call?)) :
    host.observe gcm (.call (.submit { args with borrowed := true } io) :: borrowing) =
      host.observe gcm (.call (.submit { args with borrowed := false } io) :: copying) := by
  have hobserve : ∀ (borrowed : Bool) (events : List HostEvent),
      host.observe gcm (.call (.submit { args with borrowed := borrowed } io) :: events) =
        ((blindStep gcm host.machine.blind (.submit args io)).bind fun next =>
          (Run.exec (blindStep gcm) next.1 (events.filterMap (·.call?))).map fun last =>
            (last.1, next.2 ++ last.2)).map (·.2) := by
    intro borrowed events
    rw [Host.observe_eq, List.filterMap_cons]
    simp only [HostEvent.call?]
    rw [Run.exec_cons_eq, blindStep_form gcm host.machine.blind args halloc]
  rw [hobserve, hobserve, hcalls]

def labelledArguments : SubmitArgs where
  hasCb := true
  resources := .array
    [{ bucketId := .replicate 16 9, windowSizeMs := 1000, rateLimit := 5, tokensRequested := 1 }]
  guards := .array []
  metricsLabel := some [97, 98, 0, 99]
  metricsLabelLen := 0
  borrowed := false

def sampleBorrower : Host where
  machine := .init sampleClient
  stored _ := storeInputs labelledArguments
  buffers _ := labelledArguments.buffers

/-- The buffers are cleared and then filled with other bytes while the request waits
    for its replay. -/
def overwritingEvents : List HostEvent :=
  [.overwrite 0 { resources := [], guards := [], metricsLabel := [] },
    .call (sampleTimeout 0 140),
    .overwrite 0 { resources := [], guards := [], metricsLabel := List.replicate 8 0xff },
    .call (sampleTimeout 0 180)]

def Observed.sent? : Observed → Option Nat
  | .effect (.udpSend _ _ _ _ _ packet _) => some packet.length
  | _ => none

/-- Two sends of round zero and two of the replay, of one packet that carries the
    label. -/
theorem borrowed_submission_equivalent_overwritten :
    let io := sampleHost fun _ => true
    let replays := [HostEvent.call (sampleTimeout 0 140), .call (sampleTimeout 0 180)]
    let borrowing := sampleBorrower.observe noGcm
      (.call (.submit { labelledArguments with borrowed := true } io) :: overwritingEvents)
    borrowing = sampleBorrower.observe noGcm
        (.call (.submit { labelledArguments with borrowed := false } io) :: replays) ∧
      borrowing.map (fun seen => seen.filterMap (·.sent?)) = some [124, 124, 124, 124] := by
  intro io replays borrowing
  refine ⟨?_, by decide +kernel⟩
  exact borrowed_submission_equivalent noGcm sampleBorrower labelledArguments io ⟨rfl, rfl, rfl⟩
    replays overwritingEvents rfl

end RlClient
