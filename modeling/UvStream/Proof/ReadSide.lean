import UvStream.Proof.Completion

/-!
# The read side, and what the write path leaves of it

The read side of a stream is what its read and accept paths use: the
descriptor, the closing flag, `UV_STREAM_READING`, `POLLIN`, the read
callbacks, the pending descriptors (`accepted_fd` and `queued_fds`), the
watcher's callback, and the read side's events. Those events are the reads,
accepts and closes of descriptors, and the calls of `alloc_cb`, `read_cb` and
`connection_cb`. `ReadsKept w w'` says that `w'` agrees with `w` on all of it.

The functions of the write path keep the read side: `uv__write`,
`uv__write_callbacks`, `uv__drain`, `uv__stream_connect`, `uv__stream_destroy`,
and the calls `uv_write2`, `uv_try_write` and `uv_shutdown`. Where such a
function stops at a callback, it is the callback of a request, and none of the
frames left to resume waits for `alloc_cb` (`RKeptSeg`).

* `rKeptSeg_streamConnect`, `rKeptSeg_streamDestroy`, `rKept_write`: **the
  write path keeps the read side**.
-/

namespace UvStream

/-- Whether the event belongs to the read side: a read, an accept or a close of
a descriptor, or a call of `alloc_cb`, `read_cb` or `connection_cb`. -/
def Event.isRead : Event → Bool
  | .read .. | .accept .. | .close _ | .call .alloc | .call (.read ..) | .call (.connection _) => true
  | _ => false

/-- The events of the read side, in order. -/
def readLog (t : List Event) : List Event := t.filter Event.isRead

@[simp] theorem readLog_append (t u : List Event) : readLog (t ++ u) = readLog t ++ readLog u :=
  List.filter_append _ _

/-- `w'` agrees with `w` on the read side. -/
structure ReadsKept (w w' : World) : Prop where
  fd : w'.s.fd = w.s.fd
  closing : w'.s.flags.closing = w.s.flags.closing
  reading : w'.s.flags.reading = w.s.flags.reading
  pollin : w'.s.pollin = w.s.pollin
  readCb : w'.s.readCb = w.s.readCb
  allocCb : w'.s.allocCb = w.s.allocCb
  acceptedFd : w'.s.acceptedFd = w.s.acceptedFd
  queuedFds : w'.s.queuedFds = w.s.queuedFds
  ioCb : w'.s.ioCb = w.s.ioCb
  log : readLog w'.trace = readLog w.trace

variable {α : Type} {w w' w'' : World}

@[simp] theorem readsKept_iff : ReadsKept w w' ↔
    w'.s.fd = w.s.fd ∧ w'.s.flags.closing = w.s.flags.closing ∧
      w'.s.flags.reading = w.s.flags.reading ∧ w'.s.pollin = w.s.pollin ∧
      w'.s.readCb = w.s.readCb ∧ w'.s.allocCb = w.s.allocCb ∧
      w'.s.acceptedFd = w.s.acceptedFd ∧ w'.s.queuedFds = w.s.queuedFds ∧
      w'.s.ioCb = w.s.ioCb ∧ readLog w'.trace = readLog w.trace :=
  ⟨fun ⟨a, b, c, d, e, f, g, h, i, j⟩ => ⟨a, b, c, d, e, f, g, h, i, j⟩,
    fun ⟨a, b, c, d, e, f, g, h, i, j⟩ => ⟨a, b, c, d, e, f, g, h, i, j⟩⟩

theorem ReadsKept.refl (w : World) : ReadsKept w w := by simp

theorem ReadsKept.trans (h : ReadsKept w w') (h' : ReadsKept w' w'') : ReadsKept w w'' :=
  ⟨h'.fd.trans h.fd, h'.closing.trans h.closing, h'.reading.trans h.reading,
    h'.pollin.trans h.pollin, h'.readCb.trans h.readCb, h'.allocCb.trans h.allocCb,
    h'.acceptedFd.trans h.acceptedFd, h'.queuedFds.trans h.queuedFds, h'.ioCb.trans h.ioCb,
    h'.log.trans h.log⟩

/-- A callback of a request: of a write, a connect or a shutdown. -/
def Callback.isReq : Callback → Bool
  | .write .. | .connect .. | .shutdown .. => true
  | _ => false

/-- The frame of `uv__read` that waits for `alloc_cb`. -/
def Frame.isAlloc : Frame → Bool
  | .readAfterAlloc .. => true
  | _ => false

/-- Where a piece of the write path stops: at the callback of a request, with
no frame waiting for `alloc_cb`. -/
def Seg.reqOnly : World × Option (Callback × List Frame) → Prop
  | (_, none) => True
  | (_, some (c, k)) => c.isReq ∧ ∀ f ∈ k, f.isAlloc = false

@[simp] theorem Seg.reqOnly_none : Seg.reqOnly (w, none) := trivial

@[simp] theorem Seg.reqOnly_some {c : Callback} {k : List Frame} :
    Seg.reqOnly (w, some (c, k)) ↔ c.isReq ∧ ∀ f ∈ k, f.isAlloc = false := Iff.rfl

/-- A computation that keeps the read side. -/
abbrev RKept (w : World) (x : Except Fault α) (world : α → World) : Prop :=
  Spec x (fun a => ReadsKept w (world a)) (fun _ => True)

/-- A piece of a dispatch that keeps the read side and stops only at the
callback of a request. -/
abbrev RKeptSeg (w : World) (x : Seg) : Prop :=
  Spec x (fun r => ReadsKept w (Seg.world r) ∧ Seg.reqOnly r) (fun _ => True)

theorem RKept.trans {β : Type} {x : Except Fault α} {f : α → Except Fault β} {g : α → World}
    {h : β → World} (hx : RKept w x g) (hf : ∀ a, ReadsKept w (g a) → RKept (g a) (f a) h) :
    RKept w (x >>= f) h := by
  simp only [RKept, spec_bind]
  exact hx.imp (fun a ha => (hf a ha).imp (fun _ hb => ha.trans hb) (fun _ _ => trivial))
    (fun _ _ => trivial)

theorem RKeptSeg.of_kept {x : Seg} (h : RKeptSeg w' x) (hw : ReadsKept w w') : RKeptSeg w x :=
  h.imp (fun _ hr => ⟨hw.trans hr.1, hr.2⟩) (fun _ _ => trivial)

theorem isAlloc_append {k : List Frame} {f : Frame} (hk : ∀ g ∈ k, g.isAlloc = false)
    (hf : f.isAlloc = false) : ∀ g ∈ k ++ [f], g.isAlloc = false := by
  simp only [List.mem_append, List.mem_singleton]
  rintro g (hg | rfl)
  exacts [hk g hg, hf]

theorem Spec.of_forall {x : Except Fault α} {Q : α → Prop} {F : Fault → Prop} (hq : ∀ a, Q a)
    (hf : ∀ e, F e) : Spec x Q F := by
  cases x
  exacts [hf _, hq _]

/-- A request's callback is no event of the read side. -/
theorem readsKept_call {c : Callback} (hc : c.isReq) : ReadsKept w (w.emit (.call c)) := by
  cases c <;> simp_all [Callback.isReq, World.emit, Event.isRead, readLog]

/-! ## `uv__write` -/

theorem readsKept_subQueueSize (n : Int) : ReadsKept w (w.subQueueSize n) := by
  unfold World.subQueueSize; split <;> simp [World.emit, readLog, Event.isRead]

theorem rKept_writeLoop (bufs : List Buf) (n : Nat) : RKept w (writeLoop bufs n w) Prod.snd := by
  induction bufs generalizing n w with
  | nil => simp [writeLoop]
  | cons b bs ih =>
    unfold writeLoop
    split
    · exact readsKept_subQueueSize _
    · simp only [spec_bind, spec_check]
      refine ⟨fun _ => ?_, fun _ => trivial⟩
      split
      · simp only [spec_bind, spec_check, spec_pure]
        exact ⟨fun _ => readsKept_subQueueSize _, fun _ => trivial⟩
      · exact (ih _).imp (fun _ h => (readsKept_subQueueSize _).trans h) (fun _ _ => trivial)

theorem rKept_writeSucceeded {req : WriteReq} {rest : List WriteReq} {n : Nat} :
    RKept w (writeSucceeded w req rest n) Prod.fst := by
  unfold writeSucceeded
  simp only [spec_bind]
  refine (rKept_writeLoop _ _).imp (fun ⟨rem, w₁⟩ h => ?_) (fun _ _ => trivial)
  rcases rem with _ | rem <;> simpa [writeReqFinish] using h

theorem rKept_writeResult {req : WriteReq} {rest : List WriteReq} {offered : List UInt8} {n : Int} :
    RKept w (writeResult w req rest offered n) Prod.fst := by
  unfold writeResult
  split
  · simp [writeReqFinish, readLog, Event.isRead]
  · simp only [spec_bind, spec_ite, spec_throw]
    refine ⟨fun _ => trivial, fun _ => rKept_writeSucceeded.imp (fun ⟨w₁, more⟩ h => ?_)
      (fun _ _ => trivial)⟩
    have h' : ReadsKept w w₁ := (by simp [readLog, Event.isRead] :
      ReadsKept w (w.emit (.write w.s.fd req.id req.sendHandle n (offered.take n.toNat)))).trans h
    simp only [spec_pure]
    exact ⟨fun _ => h', fun _ => ⟨fun _ => h', fun _ => by simpa using h'⟩⟩

theorem rKept_writeRound : RKept w (writeRound w) Prod.fst := by
  unfold writeRound
  simp only [spec_bind, spec_check]
  refine ⟨fun _ => ?_, fun _ => trivial⟩
  split
  · exact ReadsKept.refl w
  · split
    · simp only [spec_bind, spec_check, spec_answerRetry]
      exact ⟨fun _ => ⟨fun _ => trivial, fun a as _ =>
        rKept_writeResult.imp (fun _ h => (by simp : ReadsKept w { w with env := as }).trans h)
          (fun _ _ => trivial)⟩, fun _ => trivial⟩
    · simp

theorem rKept_writeFuel (fuel : Nat) : RKept w (writeFuel fuel w) id := by
  induction fuel generalizing w with
  | zero => simp [writeFuel]
  | succ fuel ih =>
    unfold writeFuel
    simp only [RKept, spec_bind]
    refine rKept_writeRound.imp (fun ⟨w₁, again⟩ h => ?_) (fun _ _ => trivial)
    dsimp only at h ⊢
    split
    · exact ih.imp (fun _ h' => h.trans h') (fun _ _ => trivial)
    · exact h

/-- **`uv__write` keeps the read side.** -/
theorem rKept_write : RKept w (write w) id := rKept_writeFuel _

/-! ## `uv__write_callbacks`, `uv__drain` and `uv__stream_connect` -/

theorem readsKept_streamFlushWriteQueue (e : Int) : ReadsKept w (streamFlushWriteQueue w e) := by
  simp [streamFlushWriteQueue]

theorem rKept_writeReqRelease {req : WriteReq} : RKept w (writeReqRelease w req) id := by
  unfold writeReqRelease writeReqSize
  split
  · simp only [RKept, spec_bind, spec_check, spec_pure]
    exact ⟨fun _ => ⟨fun _ => readsKept_subQueueSize _, fun _ => trivial⟩, fun _ => trivial⟩
  · exact ReadsKept.refl w

theorem rKept_writeCallbacksFrom (q : List WriteReq) :
    Spec (writeCallbacksFrom q w) (fun p => ReadsKept w p.1 ∧ ∀ c, p.2 = some c → c.isReq)
      (fun _ => True) := by
  induction q generalizing w with
  | nil => exact ⟨ReadsKept.refl w, by simp⟩
  | cons req rest ih =>
    unfold writeCallbacksFrom
    simp only [spec_bind]
    refine rKept_writeReqRelease.imp (fun w₁ h₁ => ?_) (fun _ _ => trivial)
    have h₀ : ReadsKept w
        { w with s.writeCompletedQueue := rest, activeReqs := w.activeReqs - 1 } := by simp
    have h₁' : ReadsKept w w₁ := h₀.trans h₁
    split
    · exact ih.imp (fun _ h => ⟨h₁'.trans h.1, h.2⟩) (fun _ _ => trivial)
    · exact ⟨h₁', by simp [Callback.isReq]⟩
    · trivial

theorem rKeptSeg_writeCallbacks : RKeptSeg w (writeCallbacks w) := by
  unfold writeCallbacks
  simp only [spec_bind, spec_pure]
  refine (rKept_writeCallbacksFrom _).imp (fun ⟨w₁, c⟩ h => ?_) (fun _ _ => trivial)
  rcases c with _ | c
  · exact ⟨h.1, trivial⟩
  · have hc := h.2 c rfl
    exact ⟨h.1.trans (readsKept_call hc), hc, by simp [Frame.isAlloc]⟩

theorem rKeptSeg_drain : RKeptSeg w (drain w) := by
  unfold drain
  simp only [spec_bind, spec_check]
  refine ⟨fun _ => ?_, fun _ => trivial⟩
  split
  · split
    · simp only [spec_bind, spec_answer]
      refine ⟨fun _ => trivial, fun a as _ => ?_⟩
      split <;> split <;> simp [readLog, Event.isRead, Callback.isReq]
    · trivial
  · simp

theorem rKeptSeg_ioDrain : RKeptSeg w (ioDrain w) := by
  unfold ioDrain; split
  · exact rKeptSeg_drain
  · simp

theorem rKeptSeg_connectAfterCb {error : Int} : RKeptSeg w (connectAfterCb w error) := by
  unfold connectAfterCb
  split
  · simp
  · split
    · exact rKeptSeg_writeCallbacks.of_kept (readsKept_streamFlushWriteQueue _)
    · simp

theorem rKept_connectError : RKept w (connectError w) Prod.snd := by
  unfold connectError
  split
  · simp
  · simp only [RKept, spec_bind, spec_check, spec_answer, spec_pure]
    exact ⟨fun _ => ⟨fun _ => trivial, fun _ _ _ => by simp⟩, fun _ => trivial⟩

theorem rKeptSeg_connectDone {req : ConnectReq} {error : Int} :
    RKeptSeg w (connectDone w req error) := by
  unfold connectDone
  dsimp only
  split
  · split <;> exact ⟨by simp [readLog, Event.isRead], rfl, by simp [Frame.isAlloc]⟩
  · split <;> exact rKeptSeg_connectAfterCb.of_kept (by simp)

/-- **`uv__stream_connect` keeps the read side.** -/
theorem rKeptSeg_streamConnect : RKeptSeg w (streamConnect w) := by
  unfold streamConnect
  simp only [spec_bind, spec_check]
  refine ⟨fun _ => ?_, fun _ => trivial⟩
  split
  · simp only [spec_bind]
    refine rKept_connectError.imp (fun ⟨error, w₁⟩ h => ?_) (fun _ _ => trivial)
    dsimp only
    split
    · exact ⟨h, trivial⟩
    · exact rKeptSeg_connectDone.of_kept h
  · trivial

/-! ## `uv__stream_destroy` -/

theorem rKeptSeg_destroyCheck : RKeptSeg w (destroyCheck w) := by
  unfold destroyCheck; simp

theorem rKeptSeg_destroyEnd : RKeptSeg w (destroyEnd w) :=
  rKeptSeg_destroyCheck.of_kept (by simp)

theorem rKeptSeg_destroyShutdown : RKeptSeg w (destroyShutdown w) := by
  unfold destroyShutdown
  split
  · dsimp only
    split
    · exact ⟨(by simp : ReadsKept w { w with activeReqs := w.activeReqs - 1 }).trans
        (readsKept_call rfl), rfl, by simp [Frame.isAlloc]⟩
    · trivial
  · exact rKeptSeg_destroyCheck

theorem rKeptSeg_destroyWrites : RKeptSeg w (destroyWrites w) := by
  unfold destroyWrites
  simp only [spec_andThen]
  refine (rKeptSeg_writeCallbacks.of_kept (readsKept_streamFlushWriteQueue _)).imp
    (fun r h => ?_) (fun _ _ => trivial)
  rcases r with ⟨w₁, _ | ⟨c, k⟩⟩
  · exact rKeptSeg_destroyShutdown.of_kept h.1
  · exact ⟨h.1, h.2.1, isAlloc_append h.2.2 rfl⟩

theorem rKeptSeg_destroyConnected : RKeptSeg w (destroyConnected w) :=
  rKeptSeg_destroyWrites.of_kept (by simp)

/-- **`uv__stream_destroy` keeps the read side.** -/
theorem rKeptSeg_streamDestroy : RKeptSeg w (streamDestroy w) := by
  unfold streamDestroy
  simp only [spec_bind, spec_check]
  refine ⟨fun _ => ⟨fun _ => ?_, fun _ => trivial⟩, fun _ => trivial⟩
  split
  · split
    · exact ⟨(by simp : ReadsKept w { w with activeReqs := w.activeReqs - 1 }).trans
        (readsKept_call rfl), rfl, by simp [Frame.isAlloc]⟩
    · trivial
  · exact rKeptSeg_destroyWrites

/-! ## The calls of the write path -/

theorem rKept_writeBufsAlloc {n : Nat} : RKept w (writeBufsAlloc w n) Prod.snd := by
  unfold writeBufsAlloc; split <;> simp

theorem readsKept_writeReqQueue {bufs : List Buf} {h : Option Int} {cb : WriteCb} :
    ReadsKept w (writeReqQueue w bufs h cb) := by
  simp [writeReqQueue, readLog, Event.isRead]

theorem rKept_uvWrite2 {bufs : List Buf} {h : Option Int} {cb : WriteCb} :
    RKept w (uvWrite2 w bufs h cb) Prod.snd := by
  unfold uvWrite2
  simp only [RKept, spec_bind, spec_check, spec_ite, spec_pure]
  refine ⟨fun _ => ⟨fun _ => ⟨fun _ => .refl w, fun _ => ⟨fun _ => .refl w, fun _ => ⟨fun _ =>
    .refl w, fun _ => rKept_writeBufsAlloc.imp (fun ⟨good, w₁⟩ h₁ => ?_) (fun _ _ => trivial)⟩⟩⟩,
    fun _ => trivial⟩, fun _ => trivial⟩
  have h₁' : ReadsKept w w₁ := (by simp : ReadsKept w { w with activeReqs := w.activeReqs + 1 }).trans h₁
  have h₂ := h₁'.trans (@readsKept_writeReqQueue w₁ bufs h cb)
  exact ⟨fun _ => h₁', fun _ => ⟨fun _ => h₂, fun _ => ⟨fun _ => rKept_write.imp
    (fun _ h => h₂.trans h) (fun _ _ => trivial), fun _ => ⟨fun _ => h₂.trans (by simp),
    fun _ => trivial⟩⟩⟩⟩

theorem rKept_uvTryWrite {bufs : List Buf} : RKept w (uvTryWrite w bufs) Prod.snd := by
  unfold uvTryWrite uvWrite
  simp only [RKept, spec_bind, spec_ite, spec_pure]
  refine ⟨fun _ => .refl w, fun _ => rKept_uvWrite2.imp (fun ⟨r, w₁⟩ h₁ => ?_) (fun _ _ => trivial)⟩
  refine ⟨fun _ => h₁, fun _ => ?_⟩
  split
  · simp only [spec_bind]
    refine Spec.of_forall (fun size => ?_) (fun _ => trivial)
    have h₂ : ReadsKept w₁ { w₁.subQueueSize size with
        s.writeQueue := w₁.s.writeQueue.filter (·.id ≠ w.nextId),
        s.writeCompletedQueue := w₁.s.writeCompletedQueue.filter (·.id ≠ w.nextId),
        activeReqs := w₁.activeReqs - 1 } := by
      have := readsKept_subQueueSize (w := w₁) size
      simp_all
    split <;> split <;> simp_all
  · trivial

theorem rKept_uvShutdown {cb : Bool} : RKept w (uvShutdown w cb) Prod.snd := by
  unfold uvShutdown
  simp only [RKept, spec_bind, spec_check, spec_ite, spec_pure]
  exact ⟨fun _ => ⟨fun _ => .refl w, fun _ => ⟨fun _ => by simp [readLog, Event.isRead],
    fun _ => trivial⟩⟩, fun _ => trivial⟩

theorem rKept_connect {cb : Bool} {e : Int} : RKept w (connect w cb e) id := by
  unfold connect; split <;> simp [readLog, Event.isRead]

/-! ## Where a dispatch stops -/

/-- The frames `k` that the callback `c` leaves are well shaped: the frame of
`uv__read` that waits for `alloc_cb` comes first exactly when `c` is
`alloc_cb`, and nowhere else. -/
def Shaped (c : Callback) : List Frame → Prop
  | [] => c ≠ .alloc
  | f :: k => (c = .alloc ↔ f.isAlloc) ∧ ∀ g ∈ k, g.isAlloc = false

/-- Where a piece of a dispatch stops, its frames are well shaped. -/
def Seg.shaped : World × Option (Callback × List Frame) → Prop
  | (_, none) => True
  | (_, some (c, k)) => Shaped c k

@[simp] theorem Seg.shaped_none : Seg.shaped (w, none) := trivial

@[simp] theorem Seg.shaped_some {c : Callback} {k : List Frame} :
    Seg.shaped (w, some (c, k)) ↔ Shaped c k := Iff.rfl

/-- A piece of a dispatch that stops, if at all, with well-shaped frames. -/
abbrev ShapedSeg (x : Seg) : Prop := Spec x Seg.shaped (fun _ => True)

section Shape

variable {c : Callback} {k k' : List Frame} {f : Frame}

theorem shaped_of_not_alloc (hc : c ≠ .alloc) (hk : ∀ f ∈ k, f.isAlloc = false) : Shaped c k := by
  cases k with
  | nil => exact hc
  | cons f k => exact ⟨by simp [hc, hk f (.head _)], fun g hg => hk g (.tail _ hg)⟩

/-- Frames that do not wait for `alloc_cb`, put behind well-shaped frames. -/
theorem Shaped.append (h : Shaped c k) (hk' : ∀ f ∈ k', f.isAlloc = false) :
    Shaped c (k ++ k') := by
  cases k with
  | nil => exact shaped_of_not_alloc h hk'
  | cons f k =>
    refine ⟨h.1, fun g hg => ?_⟩
    rcases List.mem_append.1 hg with hg | hg
    exacts [h.2 g hg, hk' g hg]

/-- Behind a callback other than `alloc_cb`, no frame waits for `alloc_cb`. -/
theorem Shaped.not_alloc (h : Shaped c k) (hc : c ≠ .alloc) : ∀ f ∈ k, f.isAlloc = false := by
  cases k with
  | nil => simp
  | cons f k =>
    rintro g (_ | ⟨_, hg⟩)
    · simpa [hc] using h.1
    · exact h.2 g hg

theorem Seg.shaped_of_reqOnly {r : World × Option (Callback × List Frame)} (h : Seg.reqOnly r) :
    Seg.shaped r := by
  rcases r with ⟨_, _ | ⟨c, k⟩⟩
  · trivial
  · exact shaped_of_not_alloc (by rintro rfl; simp [Callback.isReq] at h) h.2

theorem RKeptSeg.shaped {x : Seg} (h : RKeptSeg w x) : ShapedSeg x :=
  h.imp (fun _ hr => Seg.shaped_of_reqOnly hr.2) (fun _ _ => trivial)

theorem ShapedSeg.andThen {x : Seg} {next : World → Seg} (hx : ShapedSeg x)
    (hf : f.isAlloc = false) (hn : ∀ w, ShapedSeg (next w)) : ShapedSeg (x.andThen f next) := by
  simp only [spec_andThen]
  refine hx.imp (fun r hr => ?_) (fun _ _ => trivial)
  rcases r with ⟨w, _ | ⟨c, k⟩⟩
  · exact hn w
  · exact Shaped.append hr (by simpa using hf)

end Shape

theorem shapedSeg_readCallback {n : Int} {buf : Buffer} {k : List Frame}
    (hk : ∀ f ∈ k, f.isAlloc = false) : ShapedSeg (readCallback w n buf k) := by
  unfold readCallback; split
  · exact shaped_of_not_alloc (by simp) hk
  · trivial

theorem shapedSeg_readLoop {count : Nat} {ipc : Bool} : ShapedSeg (readLoop w count ipc) := by
  unfold readLoop; split <;> simp [Shaped, Frame.isAlloc]

theorem shapedSeg_streamEof {buf : Buffer} : ShapedSeg (streamEof w buf) :=
  shapedSeg_readCallback (by simp [Frame.isAlloc])

theorem shapedSeg_readAfterAlloc {count : Nat} {ipc : Bool} {buf : Buffer} :
    ShapedSeg (readAfterAlloc w count ipc buf) := by
  have hr : ∀ (w : World) (n : Int) (k : List Frame), (∀ f ∈ k, f.isAlloc = false) →
      ShapedSeg (readCallback w n buf k) := fun _ _ _ hk => shapedSeg_readCallback hk
  unfold readAfterAlloc
  simp only [spec_bind, spec_ite, spec_check, spec_answerRetry, spec_throw, spec_pure, implies_true,
    and_true, true_and]
  refine ⟨fun _ => hr _ _ _ (by simp), fun _ _ _ a as _ _ => ⟨fun _ => ⟨fun _ => hr _ _ _ (by simp),
    fun _ => hr _ _ _ (by simp [Frame.isAlloc])⟩, fun _ => ⟨fun _ => shapedSeg_streamEof, fun _ => ?_⟩⟩⟩
  have hd : ∀ p : Int × World, (p.1 ≠ 0 → ShapedSeg (readCallback p.2 p.1 buf [])) ∧
      (¬ p.1 ≠ 0 → ShapedSeg (readCallback p.2 a.ret buf
        [.readAfterData count ipc (decide (a.ret < buf.len))])) :=
    fun p => ⟨fun _ => hr _ _ _ (by simp), fun _ => hr _ _ _ (by simp [Frame.isAlloc])⟩
  exact ⟨fun _ => Spec.of_forall hd (fun _ => trivial), fun _ => hd (0, _)⟩

theorem shapedSeg_readAfterData {count : Nat} {ipc short : Bool} :
    ShapedSeg (readAfterData w count ipc short) := by
  unfold readAfterData; split
  · trivial
  · exact shapedSeg_readLoop

theorem shapedSeg_read : ShapedSeg (read w) := shapedSeg_readLoop

theorem shapedSeg_ioAfterEof {ev : Events} : ShapedSeg (ioAfterEof w ev) := by
  unfold ioAfterEof
  simp only [spec_ite, spec_pure, spec_bind]
  refine ⟨fun _ => trivial, fun _ => ⟨fun _ => Spec.of_forall (fun w₁ => ?_) (fun _ => trivial),
    fun _ => trivial⟩⟩
  exact rKeptSeg_writeCallbacks.shaped.andThen rfl (fun _ => rKeptSeg_ioDrain.shaped)

theorem shapedSeg_ioAfterRead {ev : Events} : ShapedSeg (ioAfterRead w ev) := by
  unfold ioAfterRead
  split
  · trivial
  · split
    · exact shapedSeg_streamEof.andThen rfl (fun _ => shapedSeg_ioAfterEof)
    · exact shapedSeg_ioAfterEof

theorem shapedSeg_streamIo {ev : Events} : ShapedSeg (streamIo w ev) := by
  unfold streamIo
  simp only [spec_bind, spec_check, spec_ite, spec_pure, implies_true, and_true]
  exact fun _ _ => ⟨fun _ => rKeptSeg_streamConnect.shaped, fun _ _ =>
    ⟨fun _ => shapedSeg_read.andThen rfl (fun _ => shapedSeg_ioAfterRead),
      fun _ => shapedSeg_ioAfterRead⟩⟩

theorem shapedSeg_connectionCallback {status : Int} {k : List Frame}
    (hk : ∀ f ∈ k, f.isAlloc = false) : ShapedSeg (connectionCallback w status k) := by
  unfold connectionCallback; split
  · exact shaped_of_not_alloc (by simp) hk
  · trivial

theorem shapedSeg_serverLoopFuel (fuel : Nat) : ShapedSeg (serverLoopFuel fuel w) := by
  induction fuel generalizing w with
  | zero => simp [serverLoopFuel]
  | succ fuel ih =>
    unfold serverLoopFuel
    have hc : ∀ (w : World) (st : Int) (k : List Frame), (∀ f ∈ k, f.isAlloc = false) →
        ShapedSeg (connectionCallback w st k) := fun _ _ _ hk => shapedSeg_connectionCallback hk
    simp only [spec_bind, spec_check, spec_ite, spec_pure, spec_answerRetry, implies_true, and_true,
      true_and, Seg.shaped_none]
    refine fun _ _ a as _ => ⟨fun _ => hc _ _ _ (by simp [Frame.isAlloc]), fun _ _ => ⟨fun _ => ih,
      fun _ => ⟨fun _ => Spec.of_forall (fun _ => fun _ => hc _ _ _ (by simp [Frame.isAlloc]))
        (fun _ => trivial), fun _ => hc _ _ _ (by simp [Frame.isAlloc])⟩⟩⟩

theorem shapedSeg_serverLoop : ShapedSeg (serverLoop w) := shapedSeg_serverLoopFuel _

theorem shapedSeg_serverAfterAccept : ShapedSeg (serverAfterAccept w) := by
  unfold serverAfterAccept; split
  · trivial
  · exact shapedSeg_serverLoop

theorem shapedSeg_serverIo : ShapedSeg (serverIo w) := by
  unfold serverIo
  simp only [spec_bind, spec_check, implies_true, and_true]
  exact fun _ _ => shapedSeg_serverLoop

/-- **Every frame, resumed, stops with well-shaped frames.** -/
theorem shapedSeg_resume {buf : Buffer} (f : Frame) : ShapedSeg (resume w buf f) := by
  cases f with
  | readAfterAlloc => exact shapedSeg_readAfterAlloc
  | readAfterData => exact shapedSeg_readAfterData
  | readAfterError | eofClear => trivial
  | ioAfterRead => exact shapedSeg_ioAfterRead
  | ioAfterEof => exact shapedSeg_ioAfterEof
  | writeCallbacks => exact rKeptSeg_writeCallbacks.shaped
  | ioDrain => exact rKeptSeg_ioDrain.shaped
  | connectAfterCb => exact rKeptSeg_connectAfterCb.shaped
  | serverAfterAccept => exact shapedSeg_serverAfterAccept
  | serverAfterError => exact shapedSeg_serverLoop
  | destroyConnected => exact rKeptSeg_destroyConnected.shaped
  | destroyShutdown => exact rKeptSeg_destroyShutdown.shaped
  | destroyEnd => exact rKeptSeg_destroyEnd.shaped

/-! ## Every run -/

/-- The frames left on the loop thread are well shaped. -/
def Machine.shaped (m : Machine) : Prop := ∀ c k, m.ctl = .inCallback c k → Shaped c k

theorem settle_shaped {x : Seg} (h : ShapedSeg x) : Spec (settle x) Machine.shaped (fun _ => True) := by
  unfold settle
  simp only [spec_bind]
  refine h.imp (fun r hr => ?_) (fun _ _ => trivial)
  rcases r with ⟨w', _ | ⟨c, k⟩⟩
  · exact fun _ _ h => (nomatch h)
  · rintro _ _ ⟨⟩
    exact hr

/-- Frames resumed one after another, none of them but the first waiting for
`alloc_cb`, stop with well-shaped frames. -/
theorem resumeAll_shaped {buf : Buffer} {f : Frame} {k : List Frame}
    (hk : ∀ g ∈ k, g.isAlloc = false) :
    Spec (resumeAll buf (f :: k) w) Machine.shaped (fun _ => True) := by
  induction k generalizing f w with
  | nil => rw [resumeAll_single]; exact settle_shaped (shapedSeg_resume f)
  | cons g k ih =>
    rw [spec_resumeAll_cons]
    refine (shapedSeg_resume f).imp (fun r hr => ?_) (fun _ _ => trivial)
    rcases r with ⟨w', _ | ⟨c, fs⟩⟩
    · exact ih fun g' hg' => hk g' (.tail _ hg')
    · rintro _ _ ⟨⟩
      exact Shaped.append hr hk

theorem Machine.shaped.step {m m' : Machine} {act : Action} {env : List Answer}
    (h : m.shaped) (hs : m.step act env = .ok m') : m'.shaped := by
  obtain ⟨w, ctl⟩ := m
  cases act with
  | api a =>
    simp only [Machine.step, Functor.map, Except.map] at hs
    split at hs <;> cases hs
    exact h
  | ret buf =>
    cases ctl with
    | idle => simp [Machine.step] at hs
    | inCallback c k =>
      cases k with
      | nil => cases hs; exact fun _ _ h => (nomatch h)
      | cons f k => exact (resumeAll_shaped (h c (f :: k) rfl).2).of_ok hs
  | dispatch d =>
    cases ctl with
    | idle =>
      cases d with
      | io ev =>
        simp only [Machine.step, dispatch] at hs
        split at hs
        · simp at hs
        · split at hs
          · exact (settle_shaped shapedSeg_streamIo).of_ok hs
          · split at hs
            · exact (settle_shaped shapedSeg_serverIo).of_ok hs
            · simp at hs
      | finishClose =>
        simp only [Machine.step, dispatch] at hs
        split at hs
        · exact (settle_shaped rKeptSeg_streamDestroy.shaped).of_ok hs
        · simp at hs
    | inCallback => simp [Machine.step] at hs
  | connect cb e =>
    simp only [Machine.step, Functor.map, Except.map] at hs
    split at hs <;> cases hs
    exact h

theorem shaped_reachable {ok : User} {m : Machine} (h : Reachable ok m) : m.shaped :=
  h.induction (fun _ ⟨_, _, _, _, _, _, hctl⟩ _ _ hk => by simp [hctl] at hk)
    (fun _ _ ⟨_, _, _, hs⟩ hm => hm.step hs)

end UvStream
