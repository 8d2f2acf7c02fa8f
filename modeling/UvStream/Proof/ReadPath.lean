import UvStream.Proof.Listening
import UvStream.Proof.TryWrite

/-!
# The read path, and what it leaves of the write side

The write requests of a stream read of the world its trace, the count of active
requests, the identity the next request gets, both write queues and
`write_queue_size`, and the pending shutdown and connect requests
(`World.core`). A property of the world is read-stable (`ReadStable`) when it
depends on those alone and survives the events of the read side: reads,
accepts and closes of descriptors, and calls of `alloc_cb`, `read_cb` and
`connection_cb`.

Every function of the read and accept paths keeps every read-stable property:
`uv__read` and the code after each of its callbacks, `uv__stream_eof`,
`uv__stream_recv_cmsg`, `uv__server_io` with `uv__emfile_trick`, `uv_accept`,
`uv_listen`, `uv_read_start`, `uv_read_stop` and `uv__stream_close`. So an
invariant of the write side is proved of the write path alone, and of these
functions once, here.

* `ReadStable.readAfterAlloc`, `ReadStable.serverLoopFuel`, `ReadStable.uvClose`:
  **the read path keeps every read-stable property**.
-/

namespace UvStream

/-- What the write requests read of a world: the trace, the count of active
requests, the next identity, both write queues and their size, and the pending
shutdown and connect requests. -/
def World.core (w : World) :
    List Event × Int × Nat × List WriteReq × List WriteReq × Int × Option ShutdownReq ×
      Option ConnectReq :=
  (w.trace, w.activeReqs, w.nextId, w.s.writeQueue, w.s.writeCompletedQueue, w.s.writeQueueSize,
    w.s.shutdownReq, w.s.connectReq)

/-- A property of the world that only the write side decides: it depends on
`World.core` alone, and an event of the read side keeps it. -/
structure ReadStable (P : World → Prop) : Prop where
  congr : ∀ {w w' : World}, P w → w'.core = w.core → P w'
  emit : ∀ {w : World} {e : Event}, e.isRead → P w → P (w.emit e)

/-- A piece of a dispatch that keeps `P`. -/
abbrev KeepSeg (P : World → Prop) (x : Seg) : Prop := Spec x (fun r => P (Seg.world r)) (fun _ => True)

variable {P : World → Prop} {w : World}

/-- A piece followed by one more frame of a dispatch, the piece keeping `Q`,
which gives `P` and lets the frame keep `P`. -/
theorem KeepSeg.andThen_of {Q : World → Prop} {x : Seg} {f : Frame} {next : World → Seg}
    (hx : KeepSeg Q x) (hQ : ∀ w', Q w' → P w') (hn : ∀ w', Q w' → KeepSeg P (next w')) :
    KeepSeg P (x.andThen f next) := by
  simp only [spec_andThen]
  refine hx.imp (fun r hr => ?_) (fun _ _ => trivial)
  rcases r with ⟨w', _ | ⟨c, k⟩⟩
  exacts [hn w' hr, hQ _ hr]

/-- A piece followed by one more frame of a dispatch. -/
theorem KeepSeg.andThen {x : Seg} {f : Frame} {next : World → Seg} (hx : KeepSeg P x)
    (hn : ∀ w', P w' → KeepSeg P (next w')) : KeepSeg P (x.andThen f next) :=
  hx.andThen_of (fun _ => id) hn

/-- Events of the read side, appended at once. -/
theorem ReadStable.emits (hP : ReadStable P) {u : List Event} (hu : ∀ e ∈ u, e.isRead) (h : P w) :
    P { w with trace := w.trace ++ u } := by
  induction u generalizing w with
  | nil => exact hP.congr h (by simp [World.core])
  | cons e u ih =>
    refine hP.congr (ih (fun e he => hu e (.tail _ he)) (hP.emit (hu e (.head _)) h)) ?_
    simp [World.core, World.emit]

theorem ReadStable.readCallback (hP : ReadStable P) {nread : Int} {buf : Buffer} {k : List Frame}
    (h : P w) : KeepSeg P (readCallback w nread buf k) := by
  simp only [spec_readCallback, Seg.world_some]
  exact ⟨fun _ => hP.emit rfl h, fun _ => trivial⟩

theorem ReadStable.readLoop (hP : ReadStable P) {count : Nat} {ipc : Bool} (h : P w) :
    KeepSeg P (readLoop w count ipc) := by
  unfold UvStream.readLoop; split
  · simp only [spec_bind, spec_check, spec_pure, Seg.world_some]
    exact ⟨fun _ => hP.emit rfl h, fun _ => trivial⟩
  · exact h

theorem ReadStable.queuedFdsRoom (hP : ReadStable P) (h : P w) :
    Spec (queuedFdsRoom w) (fun p => P p.2) (fun _ => True) := by
  unfold UvStream.queuedFdsRoom; split
  · simp only [spec_bind, spec_answer, spec_pure]
    exact ⟨fun _ => trivial, fun _ _ _ => hP.congr h rfl⟩
  · split
    · simp only [spec_bind, spec_answer, spec_pure]
      exact ⟨fun _ => trivial, fun _ _ _ => hP.congr h rfl⟩
    · exact h

theorem ReadStable.streamQueueFd (hP : ReadStable P) {fd : Int} (h : P w) :
    Spec (streamQueueFd w fd) (fun p => P p.2) (fun _ => True) := by
  unfold UvStream.streamQueueFd
  simp only [spec_bind]
  refine (hP.queuedFdsRoom h).imp (fun ⟨q, w₁⟩ h₁ => ?_) (fun _ _ => trivial)
  cases q with
  | none => exact h₁
  | some q =>
    simp only [spec_ite, spec_pure, spec_throw]
    exact ⟨fun _ => hP.congr h₁ rfl, fun _ => trivial⟩

/-- The descriptors a failed queueing leaves are closed. -/
theorem ReadStable.closes (hP : ReadStable P) (fds : List Int) (h : P w) :
    P (fds.foldl (fun w fd => w.emit (.close fd)) w) := by
  rw [foldl_emit]
  exact hP.emits (fun e he => by obtain ⟨fd, -, rfl⟩ := List.mem_map.1 he; rfl) h

theorem ReadStable.recvFds (hP : ReadStable P) (fds : List Int) (h : P w) :
    Spec (recvFds fds w) (fun p => P p.2) (fun _ => True) := by
  induction fds generalizing w with
  | nil => exact h
  | cons fd fds ih =>
    unfold UvStream.recvFds
    simp only [spec_bind, spec_ite, spec_pure]
    exact ⟨fun _ => (hP.streamQueueFd h).imp (fun _ h₁ => ⟨fun _ => hP.closes _ h₁, fun _ => ih h₁⟩)
      (fun _ _ => trivial), fun _ => ih (hP.congr h rfl)⟩

theorem ReadStable.streamRecvCmsg (hP : ReadStable P) (cs : List Cmsg) (h : P w) :
    Spec (streamRecvCmsg cs w) (fun p => P p.2) (fun _ => True) := by
  induction cs generalizing w with
  | nil => exact h
  | cons c cs ih =>
    unfold UvStream.streamRecvCmsg
    simp only [spec_bind, spec_ite, spec_pure]
    exact ⟨fun _ => ih h, fun _ => (hP.recvFds _ h).imp (fun _ h₁ => ⟨fun _ => h₁, fun _ => ih h₁⟩)
      (fun _ _ => trivial)⟩

theorem ReadStable.streamEof (hP : ReadStable P) {buf : Buffer} (h : P w) :
    KeepSeg P (streamEof w buf) :=
  hP.readCallback (hP.congr h rfl)

/-- **The turn of `uv__read` after `alloc_cb`** keeps every read-stable property. -/
theorem ReadStable.readAfterAlloc (hP : ReadStable P) {count : Nat} {ipc : Bool} {buf : Buffer}
    (h : P w) : KeepSeg P (readAfterAlloc w count ipc buf) := by
  unfold UvStream.readAfterAlloc
  simp only [spec_bind, spec_ite, spec_check, spec_answerRetry, spec_throw, spec_pure, implies_true,
    and_true, true_and]
  refine ⟨fun _ => hP.readCallback h, fun _ _ _ a as _ _ => ?_⟩
  have h₁ : P (({ w with env := as } : World).emit (.read w.s.fd a.ret)) :=
    hP.emit rfl (hP.congr h rfl)
  generalize ({ w with env := as } : World).emit (.read w.s.fd a.ret) = w₁ at h₁ ⊢
  refine ⟨fun _ => ⟨fun _ => hP.readCallback ?_, fun _ => hP.readCallback h₁⟩,
    fun _ => ⟨fun _ => hP.streamEof h₁, fun _ => ⟨fun _ => (hP.streamRecvCmsg _ h₁).imp
      (fun _ h₂ => ⟨fun _ => hP.readCallback h₂, fun _ => hP.readCallback h₂⟩) (fun _ _ => trivial),
      fun _ => ⟨fun _ => hP.readCallback h₁, fun _ => hP.readCallback h₁⟩⟩⟩⟩
  split
  exacts [hP.congr h₁ rfl, h₁]

theorem ReadStable.readAfterError (hP : ReadStable P) (h : P w) : P (readAfterError w) := by
  unfold UvStream.readAfterError; split
  exacts [hP.congr h rfl, h]

theorem ReadStable.readAfterData (hP : ReadStable P) {count : Nat} {ipc short : Bool} (h : P w) :
    KeepSeg P (readAfterData w count ipc short) := by
  unfold UvStream.readAfterData; split
  exacts [hP.congr h rfl, hP.readLoop h]

theorem ReadStable.read (hP : ReadStable P) (h : P w) : KeepSeg P (read w) :=
  hP.readLoop (hP.congr h rfl)

theorem ReadStable.uvReadStop (hP : ReadStable P) (h : P w) : P (uvReadStop w) := by
  unfold UvStream.uvReadStop; split
  exacts [hP.congr h rfl, h]

theorem ReadStable.uvReadStart (hP : ReadStable P) {allocCb readCb : Bool} (h : P w) :
    Spec (uvReadStart w allocCb readCb) (fun p => P p.2) (fun _ => True) := by
  unfold UvStream.uvReadStart
  simp only [spec_bind, spec_check, spec_ite, spec_pure]
  exact ⟨fun _ => ⟨fun _ => h, fun _ => ⟨fun _ => ⟨fun _ => hP.congr h rfl, fun _ => trivial⟩,
    fun _ => trivial⟩⟩, fun _ => trivial⟩

/-! ## Listening and accepting -/

theorem ReadStable.sockopt (hP : ReadStable P) {made : Bool} (h : P w) :
    Spec (sockopt w made) (fun p => P p.2) (fun _ => True) := by
  unfold UvStream.sockopt; split
  · simp only [spec_bind, spec_answer, spec_pure]
    exact ⟨fun _ => trivial, fun _ _ _ => hP.congr h rfl⟩
  · exact h

theorem ReadStable.streamOpen (hP : ReadStable P) {c : Stream} {fd : Int}
    {readable writable blocking : Bool} (h : P w) :
    Spec (streamOpen w c fd readable writable blocking) (fun p => P p.2.2) (fun _ => True) := by
  unfold UvStream.streamOpen
  simp only [spec_bind, spec_ite, spec_pure, spec_check]
  exact ⟨fun _ => h, fun _ => ⟨fun _ => (hP.sockopt h).imp (fun _ h₁ => ⟨fun _ => h₁,
    fun _ => (hP.sockopt h₁).imp (fun _ h₂ => ⟨fun _ => h₂, fun _ => h₂⟩) (fun _ _ => trivial)⟩)
    (fun _ _ => trivial), fun _ => trivial⟩⟩

theorem ReadStable.emfileAcceptFuel (hP : ReadStable P) (fuel : Nat) (h : P w) :
    Spec (emfileAcceptFuel fuel w) (fun p => P p.2) (fun _ => True) := by
  induction fuel generalizing w with
  | zero => trivial
  | succ fuel ih =>
    unfold UvStream.emfileAcceptFuel
    simp only [spec_bind, spec_answerRetry, spec_ite, spec_pure]
    refine ⟨fun _ => trivial, fun a as _ => ?_⟩
    have h₁ : P (({ w with env := as } : World).emit (.accept w.s.fd a.ret)) :=
      hP.emit rfl (hP.congr h rfl)
    exact ⟨fun _ => ih (hP.emit rfl h₁), fun _ => ⟨fun _ => ih h₁, fun _ => h₁⟩⟩

theorem ReadStable.emfileTrick (hP : ReadStable P) (h : P w) :
    Spec (emfileTrick w) (fun p => P p.2) (fun _ => True) := by
  unfold UvStream.emfileTrick
  simp only [spec_bind, spec_ite, spec_pure, spec_answer]
  have h₁ : P { w.emit (.close w.emfileFd) with emfileFd := -1 } := hP.congr (hP.emit (e := .close w.emfileFd) rfl h) rfl
  refine ⟨fun _ => h, fun _ => (hP.emfileAcceptFuel _ h₁).imp (fun _ h₂ => ⟨fun _ => trivial,
    fun _ _ _ => ?_⟩) (fun _ _ => trivial)⟩
  split
  exacts [hP.congr h₂ rfl, hP.congr h₂ rfl]

theorem ReadStable.connectionCallback (hP : ReadStable P) {status : Int} {k : List Frame}
    (h : P w) : KeepSeg P (connectionCallback w status k) := by
  simp only [spec_connectionCallback, Seg.world_some]
  exact ⟨fun _ => hP.emit rfl h, fun _ => trivial⟩

/-- **`uv__server_io`'s loop** keeps every read-stable property. -/
theorem ReadStable.serverLoopFuel (hP : ReadStable P) (fuel : Nat) (h : P w) :
    KeepSeg P (serverLoopFuel fuel w) := by
  induction fuel generalizing w with
  | zero => trivial
  | succ fuel ih =>
    unfold UvStream.serverLoopFuel
    simp only [spec_bind, spec_check, spec_ite, spec_pure, spec_answerRetry, implies_true, and_true,
      true_and]
    refine ⟨fun _ => h, fun _ _ a as _ => ?_⟩
    have h₁ : P (({ w with env := as } : World).emit (.accept w.s.fd a.ret)) :=
      hP.emit rfl (hP.congr h rfl)
    generalize ({ w with env := as } : World).emit (.accept w.s.fd a.ret) = w₁ at h₁ ⊢
    exact ⟨fun _ => hP.connectionCallback (hP.congr h₁ rfl), fun _ => ⟨fun _ => h₁,
      fun _ => ⟨fun _ => ih h₁, fun _ => ⟨fun _ => (hP.emfileTrick h₁).imp (fun _ h₂ =>
        ⟨fun _ => h₂, fun _ => hP.connectionCallback h₂⟩) (fun _ _ => trivial),
        fun _ => hP.connectionCallback h₁⟩⟩⟩⟩

theorem ReadStable.serverLoop (hP : ReadStable P) (h : P w) : KeepSeg P (serverLoop w) :=
  hP.serverLoopFuel _ h

theorem ReadStable.serverAfterAccept (hP : ReadStable P) (h : P w) :
    KeepSeg P (serverAfterAccept w) := by
  unfold UvStream.serverAfterAccept; split
  exacts [hP.congr h rfl, hP.serverLoop h]

theorem ReadStable.serverIo (hP : ReadStable P) (h : P w) : KeepSeg P (serverIo w) := by
  unfold UvStream.serverIo
  simp only [spec_bind, spec_check]
  exact ⟨fun _ => ⟨fun _ => hP.serverLoop (hP.congr h rfl), fun _ => trivial⟩, fun _ => trivial⟩

theorem ReadStable.acceptOpen (hP : ReadStable P) {c : Stream} (h : P w) :
    Spec (acceptOpen w c) (fun o => ∀ p, o = some p → P p.2.2) (fun _ => True) := by
  unfold UvStream.acceptOpen
  split
  · simp only [spec_bind, spec_pure]
    refine (hP.streamOpen h).imp (fun p h₁ p' hp => ?_) (fun _ _ => trivial)
    cases hp; split
    exacts [hP.emit rfl h₁, h₁]
  · simp only [spec_bind, spec_pure]
    refine (hP.streamOpen h).imp (fun p h₁ p' hp => ?_) (fun _ _ => trivial)
    cases hp; split
    exacts [hP.emit rfl h₁, h₁]
  · simp only [spec_bind, spec_pure, spec_answer]
    refine ⟨fun _ => trivial, ?_⟩
    rintro a as _ p ⟨⟩
    split
    exacts [hP.emit rfl (hP.congr h rfl), hP.congr h rfl]
  · simp

theorem ReadStable.uvAccept (hP : ReadStable P) {c : Stream} (h : P w) :
    Spec (uvAccept w c) (fun p => P p.2.2) (fun _ => True) := by
  unfold UvStream.uvAccept
  simp only [spec_bind, spec_ite, spec_pure]
  refine ⟨fun _ => h, fun _ => (hP.acceptOpen h).imp (fun o h₁ => ?_) (fun _ _ => trivial)⟩
  rcases o with _ | ⟨err, c', w'⟩
  · exact h
  · have h' : P w' := h₁ _ rfl
    dsimp only
    split
    · split
      · simp only [spec_bind, spec_check, spec_ite, spec_pure]
        exact ⟨fun _ => ⟨fun _ => hP.congr h' rfl, fun _ => hP.congr h' rfl⟩, fun _ => trivial⟩
      · trivial
    · split
      exacts [hP.congr h' rfl, hP.congr h' rfl]

theorem ReadStable.uvListen (hP : ReadStable P) {cb : Bool} (h : P w) :
    Spec (uvListen w cb) (fun p => P p.2) (fun _ => True) := by
  unfold UvStream.uvListen
  simp only [spec_bind, spec_ite, spec_pure, spec_answer]
  exact ⟨fun _ => h, fun _ => ⟨fun _ => trivial, fun _ _ _ =>
    ⟨fun _ => hP.congr h rfl, fun _ => hP.congr h rfl⟩⟩⟩

/-! ## Closing -/

theorem ReadStable.closeIoFd (hP : ReadStable P) (h : P w) : P w.closeIoFd := by
  unfold World.closeIoFd; split
  · split
    exacts [hP.congr (hP.emit (e := .close w.s.fd) rfl h) rfl, hP.congr h rfl]
  · exact h

theorem ReadStable.closeAcceptedFd (hP : ReadStable P) (h : P w) : P w.closeAcceptedFd := by
  unfold World.closeAcceptedFd; split
  exacts [hP.congr (hP.emit (e := .close w.s.acceptedFd) rfl h) rfl, h]

theorem ReadStable.closeQueuedFds (hP : ReadStable P) (h : P w) : P w.closeQueuedFds := by
  unfold World.closeQueuedFds; split
  exacts [hP.congr (hP.closes _ h) rfl, h]

theorem ReadStable.streamClose (hP : ReadStable P) (h : P w) :
    Spec (streamClose w) P (fun _ => True) := by
  simp only [UvStream.streamClose, spec_bind, spec_check, spec_pure]
  exact ⟨fun _ => hP.closeQueuedFds (hP.closeAcceptedFd (hP.closeIoFd (hP.uvReadStop
    (hP.congr h rfl)))), fun _ => trivial⟩

/-- **`uv_close`** keeps every read-stable property. -/
theorem ReadStable.uvClose (hP : ReadStable P) (h : P w) : Spec (uvClose w) P (fun _ => True) := by
  simp only [UvStream.uvClose, spec_bind, spec_check]
  exact ⟨fun _ => hP.streamClose (hP.congr h rfl), fun _ => trivial⟩

/-! ## The calls of the user -/

/-- **Every call of the user** keeps a read-stable property that the three
calls on the requests, `uv_write2`, `uv_try_write` and `uv_shutdown`, keep. -/
theorem ReadStable.apiCall (hP : ReadStable P)
    (write2 : ∀ {w bufs hd cb}, P w → Spec (uvWrite2 w bufs hd cb) (fun p => P p.2) (fun _ => True))
    (tryWrite : ∀ {w bufs}, P w → Spec (uvTryWrite w bufs) (fun p => P p.2) (fun _ => True))
    (shutdown : ∀ {w cb}, P w → Spec (uvShutdown w cb) (fun p => P p.2) (fun _ => True))
    {a : Api} (h : P w) : Spec (apiCall w a) P (fun _ => True) := by
  cases a with
  | write2 => simpa [UvStream.apiCall] using write2 h
  | tryWrite => simpa [UvStream.apiCall] using tryWrite h
  | readStart => simpa [UvStream.apiCall] using hP.uvReadStart h
  | readStop => exact hP.uvReadStop h
  | shutdown => simpa [UvStream.apiCall] using shutdown h
  | close => exact hP.uvClose h
  | accept => simpa [UvStream.apiCall] using hP.uvAccept h
  | listen =>
    simp only [UvStream.apiCall, spec_bind, spec_ite, spec_throw, spec_pure]
    exact ⟨fun _ => trivial, fun _ => (hP.uvListen h).imp (fun _ h => h) (fun _ _ => trivial)⟩
  | streamOpen =>
    simp only [UvStream.apiCall, spec_bind, spec_ite, spec_throw, spec_pure]
    refine ⟨fun _ => trivial, fun _ => ((hP.streamOpen h).and kept_streamOpen).imp
      (fun ⟨_, s, w₁⟩ ⟨h₁, hs, hk⟩ => hP.congr h₁ ?_) (fun _ _ => trivial)⟩
    dsimp only at hs hk
    obtain ⟨hq, hc, hz, -, -, -, -, -, -, hsr, hcr⟩ := writesKept_iff.1 hk
    rcases hs with rfl | ⟨f, rfl⟩ <;> simp [World.core, hq, hc, hz, hsr, hcr]

end UvStream
