import UvStream.Proof.Basic

/-!
# What the read and accept paths leave alone

The requests of a stream are its two write queues, `write_queue_size`, the
identities handed out so far, the events of the requests (requests started,
writes, wrapped subtractions, callbacks of requests), its descriptor, the flags
of its closing and shutting down, and its pending shutdown and connect
requests: `WritesKept w w'` says these are the same in `w'` as in `w`. Every
function of the read and accept paths keeps them, which is all that the
invariants of the requests need to know about it.
-/

namespace UvStream

/-- Whether the event belongs to the requests of the stream: a request
started, a write, a wrapped subtraction, or the callback of a request. -/
def Event.isReq : Event → Bool
  | .submit _ | .submitShutdown _ | .submitConnect _ | .write .. | .sizeWrap
  | .call (.write ..) | .call (.connect ..) | .call (.shutdown ..) => true
  | _ => false

/-- The events of the requests, in order. -/
def reqLog (t : List Event) : List Event := t.filter Event.isReq

@[simp] theorem reqLog_nil : reqLog [] = [] := rfl

@[simp] theorem reqLog_append (t u : List Event) : reqLog (t ++ u) = reqLog t ++ reqLog u :=
  List.filter_append _ _

@[simp] theorem reqLog_cons (e : Event) (t : List Event) :
    reqLog (e :: t) = if e.isReq then e :: reqLog t else reqLog t := by
  simp only [reqLog, List.filter_cons]

@[simp] theorem reqLog_map_close (fds : List Int) : reqLog (fds.map Event.close) = [] := by
  induction fds <;> simp_all [Event.isReq]

@[simp] theorem reqLog_take_eq_nil {t : List Event} (n : Nat) (h : reqLog t = []) :
    reqLog (t.take n) = [] :=
  List.sublist_nil.1 (h ▸ (List.take_sublist n t).filter _)

/-- The stream's descriptor, the flags of its closing and of its shutting
down, and its pending shutdown and connect requests. -/
structure Pending where
  fd : Int
  closing : Bool
  closed : Bool
  shutting : Bool
  shutdownReq : Option ShutdownReq
  connectReq : Option ConnectReq
deriving DecidableEq

/-- The pending part of `w`. -/
def World.pending (w : World) : Pending :=
  ⟨w.s.fd, w.s.flags.closing, w.s.flags.closed, w.s.flags.shutting, w.s.shutdownReq,
    w.s.connectReq⟩

variable {w w' w'' : World}

@[simp] theorem pending_fd : w.pending.fd = w.s.fd := rfl
@[simp] theorem pending_closing : w.pending.closing = w.s.flags.closing := rfl
@[simp] theorem pending_closed : w.pending.closed = w.s.flags.closed := rfl
@[simp] theorem pending_shutting : w.pending.shutting = w.s.flags.shutting := rfl
@[simp] theorem pending_shutdownReq : w.pending.shutdownReq = w.s.shutdownReq := rfl
@[simp] theorem pending_connectReq : w.pending.connectReq = w.s.connectReq := rfl

theorem pending_eq {p : Pending} : w.pending = p ↔ w.s.fd = p.fd ∧
    w.s.flags.closing = p.closing ∧ w.s.flags.closed = p.closed ∧
    w.s.flags.shutting = p.shutting ∧ w.s.shutdownReq = p.shutdownReq ∧
    w.s.connectReq = p.connectReq := by
  rcases p; simp [World.pending]

/-- `w'` agrees with `w` on the requests of the stream. -/
structure WritesKept (w w' : World) : Prop where
  queue : w'.s.writeQueue = w.s.writeQueue
  completed : w'.s.writeCompletedQueue = w.s.writeCompletedQueue
  size : w'.s.writeQueueSize = w.s.writeQueueSize
  nextId : w'.nextId = w.nextId
  log : reqLog w'.trace = reqLog w.trace
  pending : w'.pending = w.pending

@[simp] theorem writesKept_iff : WritesKept w w' ↔
    w'.s.writeQueue = w.s.writeQueue ∧ w'.s.writeCompletedQueue = w.s.writeCompletedQueue ∧
      w'.s.writeQueueSize = w.s.writeQueueSize ∧ w'.nextId = w.nextId ∧
      reqLog w'.trace = reqLog w.trace ∧ w'.s.fd = w.s.fd ∧
      w'.s.flags.closing = w.s.flags.closing ∧ w'.s.flags.closed = w.s.flags.closed ∧
      w'.s.flags.shutting = w.s.flags.shutting ∧ w'.s.shutdownReq = w.s.shutdownReq ∧
      w'.s.connectReq = w.s.connectReq := by
  exact ⟨fun ⟨a, b, c, d, e, f⟩ => ⟨a, b, c, d, e, pending_eq.1 f⟩,
    fun ⟨a, b, c, d, e, f⟩ => ⟨a, b, c, d, e, pending_eq.2 f⟩⟩

theorem WritesKept.refl (w : World) : WritesKept w w := ⟨rfl, rfl, rfl, rfl, rfl, rfl⟩

theorem WritesKept.trans (h : WritesKept w w') (h' : WritesKept w' w'') : WritesKept w w'' :=
  ⟨h'.queue.trans h.queue, h'.completed.trans h.completed, h'.size.trans h.size,
    h'.nextId.trans h.nextId, h'.log.trans h.log, h'.pending.trans h.pending⟩

/-- The assertions on `write_queue_size`, in `uv__write_req_size`, `uv__write`
and `uv__stream_destroy`. -/
def SizeFault (e : Fault) : Prop :=
  e = .assertion "req->handle->write_queue_size >= size" ∨
    e = .assertion "stream->write_queue_size >= len" ∨
    e = .assertion "stream->write_queue_size == 0"

/-- The assertions on the bookkeeping of the requests: those on
`write_queue_size`, and that of `uv__drain` on `shutdown_req`. -/
def ReqFault (e : Fault) : Prop := SizeFault e ∨ e = .assertion "stream->shutdown_req"

@[simp] theorem reqFault_assertion (s : String) : ReqFault (.assertion s) ↔
    s = "req->handle->write_queue_size >= size" ∨ s = "stream->write_queue_size >= len" ∨
      s = "stream->write_queue_size == 0" ∨ s = "stream->shutdown_req" := by
  simp [ReqFault, SizeFault, or_assoc]

@[simp] theorem not_reqFault_nullCall : ¬ ReqFault .nullCall := by simp [ReqFault, SizeFault]
@[simp] theorem not_reqFault_abort : ¬ ReqFault .abort := by simp [ReqFault, SizeFault]
@[simp] theorem not_reqFault_segv : ¬ ReqFault .segv := by simp [ReqFault, SizeFault]
@[simp] theorem not_reqFault_stuck : ¬ ReqFault .stuck := by simp [ReqFault, SizeFault]

/-- What the functions outside the write path do to it: nothing, and none of
them fails an assertion on the requests. -/
abbrev Kept (w : World) (x : Except Fault α) (world : α → World) : Prop :=
  Spec x (fun a => WritesKept w (world a)) (¬ ReqFault ·)

/-- The frames of `uv__stream_destroy`. -/
def Frame.destroying : Frame → Bool
  | .destroyConnected | .destroyShutdown | .destroyEnd => true
  | _ => false

/-- A piece of a dispatch that returned, or stopped at a callback with none of
the frames of `uv__stream_destroy` to resume. -/
def Seg.plain : World × Option (Callback × List Frame) → Prop
  | (_, none) => True
  | (_, some (_, k)) => ∀ f ∈ k, f.destroying = false

@[simp] theorem Seg.plain_none {w : World} : Seg.plain (w, none) := trivial

@[simp] theorem Seg.plain_some {w : World} {c : Callback} {k : List Frame} :
    Seg.plain (w, some (c, k)) ↔ ∀ f ∈ k, f.destroying = false := Iff.rfl

/-- What a piece of a dispatch outside the write path does: it keeps the write
side, and the callback it stops at is not one of `uv__stream_destroy`. -/
abbrev KeptSeg (w : World) (x : Seg) : Prop :=
  Spec x (fun r => WritesKept w (Seg.world r) ∧ Seg.plain r) (¬ ReqFault ·)

/-! ## The read path -/

theorem writesKept_uvReadStop : WritesKept w (uvReadStop w) := by
  unfold uvReadStop; split <;> simp

theorem kept_uvReadStart {a r : Bool} : Kept w (uvReadStart w a r) Prod.snd := by
  unfold uvReadStart; simp

theorem kept_queuedFdsRoom : Kept w (queuedFdsRoom w) Prod.snd := by
  unfold queuedFdsRoom; split <;> simp +contextual

theorem kept_streamQueueFd {fd : Int} : Kept w (streamQueueFd w fd) Prod.snd := by
  unfold streamQueueFd
  simp only [spec_bind]
  refine kept_queuedFdsRoom.imp (fun ⟨q, w₁⟩ h₁ => ?_) (fun _ => id)
  rcases q with _ | q <;> simp_all

theorem kept_recvFds (fds : List Int) : Kept w (recvFds fds w) Prod.snd := by
  induction fds generalizing w with
  | nil => simp [recvFds]
  | cons fd fds ih =>
    unfold recvFds
    simp only [spec_bind, spec_ite, spec_pure]
    refine ⟨fun _ => kept_streamQueueFd.imp (fun ⟨err, w₁⟩ h₁ => ?_) (fun _ => id),
      fun _ => ih.imp (fun _ h => (by simp : WritesKept w _).trans h) (fun _ => id)⟩
    exact ⟨fun _ => by simpa [Event.isReq] using h₁,
      fun _ => ih.imp (fun _ h => h₁.trans h) (fun _ => id)⟩

theorem kept_streamRecvCmsg (cs : List Cmsg) : Kept w (streamRecvCmsg cs w) Prod.snd := by
  induction cs generalizing w with
  | nil => simp [streamRecvCmsg]
  | cons c cs ih =>
    unfold streamRecvCmsg
    simp only [spec_bind, spec_ite, spec_pure]
    refine ⟨fun _ => ih, fun _ => (kept_recvFds _).imp (fun ⟨err, w₁⟩ h₁ => ?_) (fun _ => id)⟩
    exact ⟨fun _ => h₁, fun _ => ih.imp (fun _ h => h₁.trans h) (fun _ => id)⟩

theorem kept_readLoop {count : Nat} {ipc : Bool} : KeptSeg w (readLoop w count ipc) := by
  unfold readLoop; simp [Event.isReq, Frame.destroying]

theorem kept_readAfterAlloc {count : Nat} {ipc : Bool} {buf : Buffer} :
    KeptSeg w (readAfterAlloc w count ipc buf) := by
  unfold readAfterAlloc streamEof readCallback
  by_cases hr : w.s.flags.reading <;> simp [hr, Event.isReq, Frame.destroying] <;> intros <;>
    exact (kept_streamRecvCmsg _).imp (fun p hp _ => by simp_all [Event.isReq]) (fun _ => id)

theorem kept_streamEof {buf : Buffer} : KeptSeg w (streamEof w buf) := by
  unfold streamEof readCallback; split <;> simp [Frame.destroying, Event.isReq]

theorem writesKept_eofClear : WritesKept w (eofClear w) := by simp [eofClear]

theorem writesKept_readAfterError : WritesKept w (readAfterError w) := by
  unfold readAfterError; split <;> simp

theorem kept_readAfterData {count : Nat} {ipc short : Bool} :
    KeptSeg w (readAfterData w count ipc short) := by
  unfold readAfterData; split
  · simp
  · exact kept_readLoop

theorem kept_read : KeptSeg w (read w) :=
  kept_readLoop.imp (fun _ h => ⟨(by simp : WritesKept w _).trans h.1, h.2⟩) (fun _ => id)

/-! ## Listening and accepting -/

theorem kept_sockopt {made : Bool} : Kept w (sockopt w made) Prod.snd := by
  unfold sockopt; split <;> simp +contextual

/-- `uv__stream_open` changes only the descriptor and the readable, writable
and blocking flags of the stream it opens. -/
theorem kept_streamOpen {c : Stream} {fd : Int} {readable writable blocking : Bool} :
    Spec (streamOpen w c fd readable writable blocking) (fun p =>
      (p.2.1 = c ∨ ∃ f, p.2.1 = { c with
          fd := f, flags.readable := c.flags.readable || readable,
          flags.writable := c.flags.writable || writable,
          flags.blocking := c.flags.blocking || blocking }) ∧ WritesKept w p.2.2) (¬ ReqFault ·) := by
  unfold streamOpen
  simp only [spec_bind, spec_ite, spec_pure, spec_check]
  refine ⟨fun _ => by simp, fun _ => ⟨fun _ => kept_sockopt.imp (fun p₁ h₁ => ?_) (fun _ => id),
    fun _ => by simp⟩⟩
  refine ⟨fun _ => ⟨.inr ⟨_, rfl⟩, h₁⟩, fun _ => kept_sockopt.imp (fun p₂ h₂ => ?_) (fun _ => id)⟩
  exact ⟨fun _ => ⟨.inr ⟨_, rfl⟩, h₁.trans h₂⟩, fun _ => ⟨.inr ⟨_, rfl⟩, h₁.trans h₂⟩⟩

theorem kept_emfileAcceptFuel (fuel : Nat) : Kept w (emfileAcceptFuel fuel w) Prod.snd := by
  induction fuel generalizing w with
  | zero => simp [emfileAcceptFuel]
  | succ fuel ih =>
    unfold emfileAcceptFuel
    simp only [spec_bind, spec_answerRetry, spec_ite, spec_pure]
    refine ⟨fun _ => by simp, fun a as _ => ?_⟩
    have h₁ : WritesKept w (({ w with env := as } : World).emit (.accept w.s.fd a.ret)) := by
      simp [Event.isReq]
    exact ⟨fun _ => ih.imp (fun _ h => (h₁.trans (by simp [Event.isReq])).trans h) (fun _ => id),
      fun _ => ⟨fun _ => ih.imp (fun _ h => h₁.trans h) (fun _ => id), fun _ => h₁⟩⟩

theorem kept_emfileTrick : Kept w (emfileTrick w) Prod.snd := by
  unfold emfileTrick
  simp only [spec_bind, spec_ite, spec_pure, spec_answer]
  refine ⟨fun _ => .refl w, fun _ => (kept_emfileAcceptFuel _).imp (fun p hp => ?_) (fun _ => id)⟩
  have h := (by simp [Event.isReq] :
    WritesKept w { w.emit (.close w.emfileFd) with emfileFd := -1 }).trans hp
  exact ⟨fun _ => by simp, fun a as _ => by split <;> simpa using h⟩

theorem kept_serverLoopFuel (fuel : Nat) : KeptSeg w (serverLoopFuel fuel w) := by
  induction fuel generalizing w with
  | zero => simp [serverLoopFuel]
  | succ fuel ih =>
    unfold serverLoopFuel connectionCallback
    simp [Event.isReq, Frame.destroying]
    intros
    refine ⟨fun _ => ih.imp (fun _ h => ?_) (fun _ => id),
      fun _ _ => kept_emfileTrick.imp (fun _ h => ?_) (fun _ => id)⟩ <;>
      simp_all [Event.isReq, Frame.destroying]

theorem kept_serverLoop : KeptSeg w (serverLoop w) := kept_serverLoopFuel _

theorem kept_serverAfterAccept : KeptSeg w (serverAfterAccept w) := by
  unfold serverAfterAccept; split
  · simp
  · exact kept_serverLoop

theorem kept_serverIo : KeptSeg w (serverIo w) := by
  unfold serverIo
  simp only [spec_bind, spec_check]
  refine ⟨fun _ => ⟨fun _ => kept_serverLoop.imp
    (fun _ h => ⟨(by simp : WritesKept w _).trans h.1, h.2⟩) (fun _ => id), fun _ => by simp⟩,
    fun _ => by simp⟩

theorem kept_acceptOpen {c : Stream} :
    Spec (acceptOpen w c) (fun o => ∀ p, o = some p → WritesKept w p.2.2) (¬ ReqFault ·) := by
  unfold acceptOpen
  split
  · simp only [spec_bind, spec_pure]
    refine kept_streamOpen.imp (fun p h p' hp => ?_) (fun _ => id)
    cases hp; split <;> simpa [Event.isReq] using h.2
  · simp only [spec_bind, spec_pure]
    refine kept_streamOpen.imp (fun p h p' hp => ?_) (fun _ => id)
    cases hp; split <;> simpa [Event.isReq] using h.2
  · simp only [spec_bind, spec_pure, spec_answer]
    refine ⟨fun _ => by simp, ?_⟩
    rintro a as _ p ⟨⟩
    split <;> simp [Event.isReq]
  · simp

theorem kept_uvAccept {c : Stream} : Kept w (uvAccept w c) (·.2.2) := by
  unfold uvAccept
  simp only [spec_bind, spec_ite, spec_pure]
  refine ⟨fun _ => .refl w, fun _ => kept_acceptOpen.imp (fun o h => ?_) (fun _ => id)⟩
  rcases o with _ | ⟨err, c', w'⟩
  · simp
  · have h' : WritesKept w w' := h _ rfl
    dsimp only
    split
    · split <;> simp_all
    · split <;> simp_all

theorem kept_uvListen {cb : Bool} : Kept w (uvListen w cb) Prod.snd := by
  unfold uvListen; simp +contextual

end UvStream
