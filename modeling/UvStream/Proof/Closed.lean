import UvStream.Proof.ReadSide

/-!
# Nothing happens on a closed stream

`uv_close` runs `uv__stream_close`, which stops reading, releases the
descriptor and closes a pending connection (`Shut`). From then on the stream
sees no activity (`Event.isActivity`): no call of `alloc_cb`, `read_cb` or
`connection_cb`, and no read, write, accept or shutdown of a descriptor. This
holds in the rest of the dispatch that was running and in every later call and
dispatch, unless the stream was closed inside `alloc_cb`: the frame of
`uv__read` waiting for `alloc_cb` reads from the descriptor when it resumes.

* `Machine.quieted.step`: from a closed stream not in `alloc_cb`, a step adds
  no activity, keeps the stream shut, and fails no assertion
  `uv__stream_fd (stream) >= 0`.
* `closed_stream_quiet`: **in every run, once the stream is closed outside
  `alloc_cb`, every later machine has added no activity to the trace, and no
  later step fails the assertion `uv__stream_fd (stream) >= 0`.**
-/

namespace UvStream

/-- Whether the event is activity on the stream, which closing it ends: a call
of `alloc_cb`, `read_cb` or `connection_cb`, or a read, write, accept or
shutdown of a descriptor. -/
def Event.isActivity : Event → Bool
  | .read .. | .write .. | .accept .. | .shutdown .. | .call .alloc | .call (.read ..)
  | .call (.connection _) => true
  | _ => false

/-- `w'` extends the trace of `w` with no activity on the stream. -/
def Quiet (w w' : World) : Prop := ∃ t, w'.trace = w.trace ++ t ∧ ∀ e ∈ t, e.isActivity = false

/-- What `uv__stream_close` leaves: the stream closing, its descriptor
released, reading stopped, and no pending connection. -/
structure Shut (w : World) : Prop where
  closing : w.s.flags.closing = true
  fd : w.s.fd = -1
  reading : w.s.flags.reading = false
  acceptedFd : w.s.acceptedFd = -1

variable {α : Type} {w w' w'' : World}

theorem Quiet.refl (w : World) : Quiet w w := ⟨[], by simp, by simp⟩

theorem Quiet.trans (h : Quiet w w') (h' : Quiet w' w'') : Quiet w w'' := by
  obtain ⟨t, ht, hq⟩ := h
  obtain ⟨t', ht', hq'⟩ := h'
  refine ⟨t ++ t', by rw [ht', ht, List.append_assoc], fun e he => ?_⟩
  rcases List.mem_append.1 he with he | he
  exacts [hq e he, hq' e he]

theorem Quiet.of_trace (h : w'.trace = w.trace) : Quiet w w' := ⟨[], by simp [h], by simp⟩

theorem quiet_emit {e : Event} (he : e.isActivity = false) : Quiet w (w.emit e) :=
  ⟨[e], rfl, by simpa using he⟩

@[simp] theorem shut_emit {e : Event} : Shut (w.emit e) ↔ Shut w :=
  ⟨fun h => ⟨h.1, h.2, h.3, h.4⟩, fun h => ⟨h.1, h.2, h.3, h.4⟩⟩

theorem Shut.of_readsKept (h : Shut w) (hk : ReadsKept w w') : Shut w' :=
  ⟨hk.closing.trans h.closing, hk.fd.trans h.fd, hk.reading.trans h.reading,
    hk.acceptedFd.trans h.acceptedFd⟩

/-- What a piece of a dispatch does on a shut stream: no activity, the stream
still shut, a stop only at the callback of a request with no frame waiting for
`alloc_cb`, and no failure of the assertion on the descriptor. -/
abbrev QuietSeg (w : World) (x : Seg) : Prop :=
  Spec x (fun r => Quiet w (Seg.world r) ∧ Shut (Seg.world r) ∧ Seg.reqOnly r)
    (· ≠ .assertion "uv__stream_fd(stream) >= 0")

theorem QuietSeg.of_quiet {x : Seg} (h : QuietSeg w' x) (hq : Quiet w w') : QuietSeg w x :=
  h.imp (fun _ hr => ⟨hq.trans hr.1, hr.2⟩) (fun _ => id)

/-- A piece of the write path that adds no activity keeps a shut stream shut. -/
theorem quietSeg_of_rKeptSeg {x : Seg} (hs : Shut w) (h : RKeptSeg w x)
    (hq : Spec x (fun r => Quiet w (Seg.world r)) (· ≠ .assertion "uv__stream_fd(stream) >= 0")) :
    QuietSeg w x :=
  (h.and hq).imp (fun _ hr => ⟨hr.2, hs.of_readsKept hr.1.1, hr.1.2⟩) (fun _ he => he.2)

/-! ## The write path on a shut stream -/

theorem quiet_subQueueSize (n : Int) : Quiet w (w.subQueueSize n) := by
  unfold World.subQueueSize; split
  · exact quiet_emit rfl
  · exact .of_trace rfl

theorem quiet_writeReqRelease {req : WriteReq} :
    Spec (writeReqRelease w req) (Quiet w) (· ≠ .assertion "uv__stream_fd(stream) >= 0") := by
  unfold writeReqRelease writeReqSize
  split
  · simp only [spec_bind, spec_check, spec_pure]
    exact ⟨fun _ => ⟨fun _ => quiet_subQueueSize _, by simp⟩, by simp⟩
  · exact .refl w

theorem quiet_writeCallbacksFrom (q : List WriteReq) :
    Spec (writeCallbacksFrom q w) (fun p => Quiet w p.1 ∧ ∀ c, p.2 = some c → c.isReq)
      (· ≠ .assertion "uv__stream_fd(stream) >= 0") := by
  induction q generalizing w with
  | nil => exact ⟨.refl w, by simp⟩
  | cons req rest ih =>
    unfold writeCallbacksFrom
    simp only [spec_bind]
    refine quiet_writeReqRelease.imp (fun w₁ h₁ => ?_) (fun _ => id)
    have h₁' : Quiet w w₁ := (Quiet.of_trace rfl).trans h₁
    split
    · exact ih.imp (fun _ h => ⟨h₁'.trans h.1, h.2⟩) (fun _ => id)
    · exact ⟨h₁', by simp [Callback.isReq]⟩
    · simp

theorem quietSeg_writeCallbacks (hs : Shut w) : QuietSeg w (writeCallbacks w) := by
  refine quietSeg_of_rKeptSeg hs rKeptSeg_writeCallbacks ?_
  unfold writeCallbacks
  simp only [spec_bind, spec_pure]
  refine (quiet_writeCallbacksFrom _).imp (fun ⟨w₁, c⟩ h => ?_) (fun _ => id)
  rcases c with _ | c
  · exact h.1
  · have hc := h.2 c rfl
    refine h.1.trans (quiet_emit ?_)
    cases c <;> simp_all [Callback.isReq, Event.isActivity]

/-- `uv__drain` on a closing stream carries out no shutdown. -/
theorem quietSeg_drain (hs : Shut w) : QuietSeg w (drain w) := by
  unfold drain
  simp only [spec_bind, spec_check, hs.closing]
  refine ⟨fun _ => ?_, by simp⟩
  simp only [not_true_eq_false, false_and, and_false, if_false, spec_pure]
  exact ⟨.of_trace rfl, hs.of_readsKept (by simp), trivial⟩

theorem quietSeg_ioDrain (hs : Shut w) : QuietSeg w (ioDrain w) := by
  unfold ioDrain; split
  · exact quietSeg_drain hs
  · exact ⟨.refl w, hs, trivial⟩

theorem quietSeg_connectAfterCb {error : Int} (hs : Shut w) :
    QuietSeg w (connectAfterCb w error) := by
  simp only [connectAfterCb, hs.fd, if_true, spec_pure]
  exact ⟨.refl w, hs, trivial⟩

theorem quietSeg_destroyCheck (hs : Shut w) : QuietSeg w (destroyCheck w) := by
  unfold destroyCheck; simp [hs, Quiet.refl]

theorem quietSeg_destroyEnd (hs : Shut w) : QuietSeg w (destroyEnd w) :=
  (quietSeg_destroyCheck (hs.of_readsKept (by simp))).of_quiet (.of_trace rfl)

theorem quietSeg_destroyShutdown (hs : Shut w) : QuietSeg w (destroyShutdown w) := by
  unfold destroyShutdown
  split
  · split
    · refine ⟨quiet_emit rfl, hs.of_readsKept ?_, rfl, by simp [Frame.isAlloc]⟩
      exact (by simp : ReadsKept w { w with activeReqs := w.activeReqs - 1 }).trans
        (readsKept_call rfl)
    · simp
  · exact quietSeg_destroyCheck hs

theorem quietSeg_destroyWrites (hs : Shut w) : QuietSeg w (destroyWrites w) := by
  unfold destroyWrites
  simp only [spec_andThen]
  have hs₁ : Shut (streamFlushWriteQueue w (-ECANCELED)) :=
    hs.of_readsKept (readsKept_streamFlushWriteQueue _)
  refine ((quietSeg_writeCallbacks hs₁).of_quiet (.of_trace rfl)).imp (fun r h => ?_) (fun _ => id)
  rcases r with ⟨w₁, _ | ⟨c, k⟩⟩
  · exact (quietSeg_destroyShutdown h.2.1).of_quiet h.1
  · exact ⟨h.1, h.2.1, h.2.2.1, isAlloc_append h.2.2.2 rfl⟩

theorem quietSeg_destroyConnected (hs : Shut w) : QuietSeg w (destroyConnected w) :=
  (quietSeg_destroyWrites (hs.of_readsKept (by simp))).of_quiet (.of_trace rfl)

/-- `uv__stream_destroy` on a shut stream calls only the callbacks of requests. -/
theorem quietSeg_streamDestroy (hs : Shut w) : QuietSeg w (streamDestroy w) := by
  unfold streamDestroy
  simp only [spec_bind, spec_check]
  refine ⟨fun _ => ⟨fun _ => ?_, by simp⟩, by simp⟩
  split
  · split
    · refine ⟨quiet_emit rfl, hs.of_readsKept ?_, rfl, by simp [Frame.isAlloc]⟩
      exact (by simp : ReadsKept w { w with activeReqs := w.activeReqs - 1 }).trans
        (readsKept_call rfl)
    · simp
  · exact quietSeg_destroyWrites hs

/-! ## The read path on a shut stream -/

/-- **Every frame but the one waiting for `alloc_cb`, resumed on a shut
stream, adds no activity and keeps it shut.** -/
theorem quietSeg_resume {buf : Buffer} {f : Frame} (hs : Shut w) (hf : f.isAlloc = false) :
    QuietSeg w (resume w buf f) := by
  cases f with
  | readAfterAlloc => simp [Frame.isAlloc] at hf
  | readAfterData =>
    simp only [resume, readAfterData, readLoop, hs.reading]
    split
    · exact ⟨.of_trace rfl, ⟨hs.1, hs.2, rfl, hs.4⟩, trivial⟩
    · simp [Quiet.refl, hs]
  | readAfterError => simp [resume, readAfterError, hs.reading, Quiet.refl, hs]
  | eofClear => exact ⟨.of_trace rfl, hs.of_readsKept (by simp [eofClear, hs.reading]), trivial⟩
  | ioAfterRead => simp [resume, ioAfterRead, hs.fd, Quiet.refl, hs]
  | ioAfterEof => simp [resume, ioAfterEof, hs.fd, Quiet.refl, hs]
  | writeCallbacks => exact quietSeg_writeCallbacks hs
  | ioDrain => exact quietSeg_ioDrain hs
  | connectAfterCb => exact quietSeg_connectAfterCb hs
  | serverAfterAccept =>
    simp [resume, serverAfterAccept, serverLoop, serverLoopFuel, hs.acceptedFd, hs.fd, Quiet.refl, hs]
  | serverAfterError => simp [resume, serverLoop, serverLoopFuel, hs.fd, Quiet.refl, hs]
  | destroyConnected => exact quietSeg_destroyConnected hs
  | destroyShutdown => exact quietSeg_destroyShutdown hs
  | destroyEnd => exact quietSeg_destroyEnd hs

/-- The frame waiting for `alloc_cb`, resumed on a shut stream, calls `read_cb`
with `UV_ENOBUFS` or fails an assertion: the stream stays shut. -/
theorem shut_readAfterAlloc {count : Nat} {ipc : Bool} {buf : Buffer} (hs : Shut w) :
    Spec (readAfterAlloc w count ipc buf) (fun r => Shut (Seg.world r)) (fun _ => True) := by
  unfold readAfterAlloc readCallback
  simp [hs.fd, hs]

theorem shut_resume {buf : Buffer} (f : Frame) (hs : Shut w) :
    Spec (resume w buf f) (fun r => Shut (Seg.world r)) (fun _ => True) := by
  cases hf : f.isAlloc
  · exact (quietSeg_resume hs hf).imp (fun _ h => h.2.1) (fun _ _ => trivial)
  · cases f <;> simp [Frame.isAlloc] at hf
    exact shut_readAfterAlloc hs

/-! ## Only `uv_close` closes the stream -/

/-- A piece of a dispatch that leaves the closing flag as it found it. -/
abbrev ClosingSeg (w : World) (x : Seg) : Prop :=
  Spec x (fun r => (Seg.world r).s.flags.closing = w.s.flags.closing) (fun _ => True)

theorem KeptSeg.closing {x : Seg} (h : KeptSeg w x) : ClosingSeg w x :=
  h.imp (fun _ hr => congrArg Pending.closing hr.1.pending) (fun _ _ => trivial)

theorem RKeptSeg.closing {x : Seg} (h : RKeptSeg w x) : ClosingSeg w x :=
  h.imp (fun _ hr => hr.1.closing) (fun _ _ => trivial)

theorem ClosingSeg.andThen {x : Seg} {f : Frame} {next : World → Seg} (hx : ClosingSeg w x)
    (hn : ∀ w', ClosingSeg w' (next w')) : ClosingSeg w (x.andThen f next) := by
  simp only [spec_andThen]
  refine hx.imp (fun r hr => ?_) (fun _ _ => trivial)
  rcases r with ⟨w₁, _ | ⟨c, k⟩⟩
  · exact (hn w₁).imp (fun _ h => h.trans hr) (fun _ _ => trivial)
  · exact hr

theorem closingSeg_ioAfterEof {ev : Events} : ClosingSeg w (ioAfterEof w ev) := by
  unfold ioAfterEof
  simp only [spec_ite, spec_pure, spec_bind]
  refine ⟨fun _ => rfl, fun _ => ⟨fun _ => rKept_write.imp (fun w₁ h₁ => ?_) (fun _ _ => trivial),
    fun _ => rfl⟩⟩
  exact (rKeptSeg_writeCallbacks.closing.andThen fun _ => rKeptSeg_ioDrain.closing).imp
    (fun _ h => h.trans h₁.closing) (fun _ _ => trivial)

theorem closingSeg_ioAfterRead {ev : Events} : ClosingSeg w (ioAfterRead w ev) := by
  unfold ioAfterRead
  split
  · exact rfl
  · split
    · exact kept_streamEof.closing.andThen fun _ => closingSeg_ioAfterEof
    · exact closingSeg_ioAfterEof

theorem closingSeg_streamIo {ev : Events} : ClosingSeg w (streamIo w ev) := by
  unfold streamIo
  simp only [spec_bind, spec_check, spec_ite, implies_true, and_true]
  exact fun _ _ => ⟨fun _ => rKeptSeg_streamConnect.closing, fun _ _ =>
    ⟨fun _ => kept_read.closing.andThen fun _ => closingSeg_ioAfterRead,
      fun _ => closingSeg_ioAfterRead⟩⟩

theorem closingSeg_resume {buf : Buffer} (f : Frame) : ClosingSeg w (resume w buf f) := by
  cases f with
  | readAfterAlloc => exact kept_readAfterAlloc.closing
  | readAfterData => exact kept_readAfterData.closing
  | readAfterError => exact congrArg Pending.closing writesKept_readAfterError.pending
  | eofClear => exact congrArg Pending.closing writesKept_eofClear.pending
  | ioAfterRead => exact closingSeg_ioAfterRead
  | ioAfterEof => exact closingSeg_ioAfterEof
  | writeCallbacks => exact rKeptSeg_writeCallbacks.closing
  | ioDrain => exact rKeptSeg_ioDrain.closing
  | connectAfterCb => exact rKeptSeg_connectAfterCb.closing
  | serverAfterAccept => exact kept_serverAfterAccept.closing
  | serverAfterError => exact kept_serverLoop.closing
  | destroyConnected => exact rKeptSeg_destroyConnected.closing
  | destroyShutdown => exact rKeptSeg_destroyShutdown.closing
  | destroyEnd => exact rKeptSeg_destroyEnd.closing

/-- Every call of the user but `uv_close` leaves the closing flag as it was. -/
theorem apiCall_closing_eq {a : Api} (ha : a ≠ .close) :
    Spec (apiCall w a) (fun w' => w'.s.flags.closing = w.s.flags.closing) (fun _ => True) := by
  have hk : ∀ {β : Type} {x : Except Fault β} {g : β → World}, Kept w x g →
      Spec x (fun b => (g b).s.flags.closing = w.s.flags.closing) (fun _ => True) :=
    fun h => h.imp (fun _ h => congrArg Pending.closing h.pending) (fun _ _ => trivial)
  have hr : ∀ {β : Type} {x : Except Fault β} {g : β → World}, RKept w x g →
      Spec x (fun b => (g b).s.flags.closing = w.s.flags.closing) (fun _ => True) :=
    fun h => h.imp (fun _ h => h.closing) (fun _ _ => trivial)
  cases a with
  | write2 => simpa [apiCall] using hr rKept_uvWrite2
  | tryWrite => simpa [apiCall] using hr rKept_uvTryWrite
  | readStart => simpa [apiCall] using hk kept_uvReadStart
  | readStop => exact congrArg Pending.closing writesKept_uvReadStop.pending
  | shutdown => simpa [apiCall] using hr rKept_uvShutdown
  | close => exact absurd rfl ha
  | accept => simpa [apiCall] using hk kept_uvAccept
  | listen => simpa [apiCall] using fun _ => hk kept_uvListen
  | streamOpen =>
    simp only [apiCall, spec_bind, spec_ite, spec_throw, spec_pure]
    refine ⟨fun _ => trivial, fun _ => kept_streamOpen.imp (fun ⟨_, s, w₁⟩ h => ?_) (fun _ _ => trivial)⟩
    obtain ⟨hs | ⟨f, hs⟩, hk⟩ := h <;> dsimp only at hs hk ⊢ <;> subst hs <;> rfl

@[simp] theorem uvReadStop_closing : (uvReadStop w).s.flags.closing = w.s.flags.closing := by
  unfold uvReadStop; split <;> rfl

@[simp] theorem uvReadStop_reading : (uvReadStop w).s.flags.reading = false := by
  unfold uvReadStop; split <;> simp_all

@[simp] theorem closeIoFd_fd : w.closeIoFd.s.fd = -1 := by
  unfold World.closeIoFd; split <;> simp_all

@[simp] theorem closeIoFd_flags : w.closeIoFd.s.flags = w.s.flags := by
  unfold World.closeIoFd; split <;> (try split) <;> rfl

@[simp] theorem closeIoFd_acceptedFd : w.closeIoFd.s.acceptedFd = w.s.acceptedFd := by
  unfold World.closeIoFd; split <;> (try split) <;> rfl

@[simp] theorem closeAcceptedFd_acceptedFd : w.closeAcceptedFd.s.acceptedFd = -1 := by
  unfold World.closeAcceptedFd; split <;> simp_all

@[simp] theorem closeAcceptedFd_fd : w.closeAcceptedFd.s.fd = w.s.fd := by
  unfold World.closeAcceptedFd; split <;> rfl

@[simp] theorem closeAcceptedFd_flags : w.closeAcceptedFd.s.flags = w.s.flags := by
  unfold World.closeAcceptedFd; split <;> rfl

theorem Shut.closeQueuedFds (h : Shut w) : Shut w.closeQueuedFds := by
  unfold World.closeQueuedFds; split
  · exact ⟨by simp [h.1], by simp [h.2], by simp [h.3], by simp [h.4]⟩
  · exact h

/-- `uv_close` leaves the stream shut. -/
theorem uvClose_shut : Spec (uvClose w) Shut (fun _ => True) := by
  simp only [uvClose, streamClose, spec_bind, spec_check, spec_pure]
  exact ⟨fun _ => ⟨fun _ => Shut.closeQueuedFds ⟨by simp, by simp, by simp, by simp⟩,
    fun _ => trivial⟩, fun _ => trivial⟩

/-! ## What a dispatch keeps -/

section Keep

variable (P : World → Prop) {F : Fault → Prop}

/-- A property of the world that a piece of a dispatch keeps, settling it keeps. -/
theorem settle_keeps {x : Seg} (h : Spec x (fun r => P (Seg.world r)) F) :
    Spec (settle x) (fun m => P m.w) F := by
  unfold settle
  simp only [spec_bind]
  refine h.imp (fun r hr => ?_) (fun _ => id)
  rcases r with ⟨w', _ | ⟨c, k⟩⟩ <;> exact hr

/-- A property of the world that every frame keeps, resuming frames in turn keeps. -/
theorem resumeAll_keeps {buf : Buffer}
    (hf : ∀ w f, P w → Spec (resume w buf f) (fun r => P (Seg.world r)) F) (k : List Frame)
    (hw : P w) : Spec (resumeAll buf k w) (fun m => P m.w) F := by
  induction k generalizing w with
  | nil => exact hw
  | cons f k ih =>
    rw [spec_resumeAll_cons]
    refine (hf w f hw).imp (fun r hr => ?_) (fun _ => id)
    rcases r with ⟨w', _ | ⟨c, fs⟩⟩
    · exact ih hr
    · exact hr

end Keep

/-! ## Every step on a shut stream -/

/-- **No call of the user changes a shut stream**, and none fails the assertion
on its descriptor. -/
theorem apiCall_shut {a : Api} (hs : Shut w) :
    Spec (apiCall w a) (· = w) (· ≠ .assertion "uv__stream_fd(stream) >= 0") := by
  cases a with
  | write2 => simp [apiCall, uvWrite2, hs.fd]
  | tryWrite => simp [apiCall, uvTryWrite, uvWrite, uvWrite2, hs.fd, EBADF]
  | readStart => simp [apiCall, uvReadStart, hs.closing]
  | readStop => simp [apiCall, uvReadStop, hs.reading]
  | shutdown => simp [apiCall, uvShutdown, hs.closing]
  | close => simp [apiCall, uvClose, hs.closing]
  | accept => simp [apiCall, uvAccept, hs.acceptedFd]
  | listen => simp [apiCall, hs.closing]
  | streamOpen => simp [apiCall, hs.closing]

/-- **What a step can do on a shut stream**: a call of the user changes
nothing, a transport cannot connect it, and the loop can only resume the frames
under the running callback or finish the close. -/
theorem Machine.step_of_shut {m : Machine} {act : Action} {env : List Answer}
    {Q : Machine → Prop} {F : Fault → Prop} (hs : Shut m.w)
    (hF : ∀ e, e ≠ .assertion "uv__stream_fd(stream) >= 0" → F e)
    (hapi : ∀ w', Shut w' → w'.trace = m.w.trace → Q ⟨w', m.ctl⟩)
    (hret : ∀ buf c k w', m.ctl = .inCallback c k → Shut w' → w'.trace = m.w.trace →
      Spec (resumeAll buf k w') Q F)
    (hfin : ∀ w', Shut w' → w'.trace = m.w.trace → Spec (settle (streamDestroy w')) Q F) :
    Spec (m.step act env) Q F := by
  obtain ⟨w, ctl⟩ := m
  have hs' : Shut { w with env := env } := ⟨hs.1, hs.2, hs.3, hs.4⟩
  have hcl : w.s.flags.closing = true := hs.closing
  cases act with
  | api a =>
    simp only [Machine.step, spec_map]
    exact (apiCall_shut hs').imp (fun _ h => h ▸ hapi _ hs' rfl) hF
  | ret buf =>
    cases ctl with
    | idle => exact hF _ (by simp)
    | inCallback c k => exact hret buf c k _ rfl hs' rfl
  | dispatch d =>
    cases ctl with
    | idle =>
      cases d with
      | io => simp [Machine.step, dispatch, hcl]; exact hF _ (by simp)
      | finishClose =>
        simp only [Machine.step, dispatch, hcl, true_and]
        split
        · exact hfin _ ⟨rfl, hs.2, hs.3, hs.4⟩ rfl
        · exact hF _ (by simp)
    | inCallback => exact hF _ (by simp)
  | connect => simp [Machine.step, connect, hcl]; exact hF _ (by simp)

/-- Every step keeps a shut stream shut. -/
theorem Shut.step {m : Machine} {act : Action} {env : List Answer} (hs : Shut m.w) :
    Spec (m.step act env) (fun m' => Shut m'.w) (fun _ => True) :=
  Machine.step_of_shut hs (fun _ _ => trivial) (fun _ h _ => h)
    (fun _ _ k _ _ h _ => resumeAll_keeps Shut (fun _ f hw => shut_resume f hw) k h)
    (fun _ h _ => settle_keeps Shut ((quietSeg_streamDestroy h).imp (fun _ h => h.2.1)
      (fun _ _ => trivial)))

/-- Every step but a call of `uv_close` leaves the closing flag as it was;
`uv_close` leaves the stream shut. -/
theorem Machine.step_closing (m : Machine) (act : Action) (env : List Answer) :
    Spec (m.step act env)
      (fun m' => m'.w.s.flags.closing = m.w.s.flags.closing ∨ Shut m'.w) (fun _ => True) := by
  obtain ⟨w, ctl⟩ := m
  have hk : ∀ {x : Seg}, ClosingSeg { w with env := env } x →
      Spec (settle x) (fun m' => m'.w.s.flags.closing = w.s.flags.closing ∨ Shut m'.w)
        (fun _ => True) := fun h =>
    (settle_keeps (fun w' => w'.s.flags.closing = w.s.flags.closing) h).imp (fun _ h => .inl h)
      (fun _ _ => trivial)
  cases act with
  | api a =>
    simp only [Machine.step, spec_map]
    by_cases ha : a = .close
    · subst ha; exact uvClose_shut.imp (fun _ h => .inr h) (fun _ _ => trivial)
    · exact (apiCall_closing_eq ha).imp (fun _ h => .inl h) (fun _ _ => trivial)
  | ret buf =>
    cases ctl with
    | idle => trivial
    | inCallback c k =>
      show Spec (resumeAll buf k { w with env := env }) _ _
      exact Spec.imp (resumeAll_keeps (fun w' => w'.s.flags.closing = w.s.flags.closing)
        (fun _ f hw => (closingSeg_resume f).imp (fun _ h => h.trans hw) (fun _ _ => trivial))
        k rfl) (fun _ h => .inl h) (fun _ _ => trivial)
  | dispatch d =>
    cases ctl with
    | idle =>
      cases d with
      | io ev =>
        simp only [Machine.step, dispatch]
        split
        · trivial
        · split
          · exact hk closingSeg_streamIo
          · split
            · exact hk kept_serverIo.closing
            · trivial
      | finishClose =>
        simp only [Machine.step, dispatch]
        split
        · exact hk rKeptSeg_streamDestroy.closing
        · trivial
    | inCallback => trivial
  | connect cb e =>
    simp only [Machine.step, spec_map]
    exact rKept_connect.imp (fun _ h => .inl h.closing) (fun _ _ => trivial)

/-- **A closing stream is shut in every reachable machine.** -/
theorem shut_reachable {ok : User} {m : Machine} (h : Reachable ok m) :
    m.w.s.flags.closing → Shut m.w :=
  @Reachable.induction ok m (fun m => m.w.s.flags.closing → Shut m.w)
    (fun _ ⟨_, _, _, _, _, hinit, _⟩ hc => by simp [(streamInit_spec.of_ok hinit).1, Stream.init] at hc)
    (fun m _ ⟨act, env, _, hs⟩ ih hc' => by
      by_cases hc : m.w.s.flags.closing
      · exact (Shut.step (ih hc)).of_ok hs
      · exact ((m.step_closing act env).of_ok hs).resolve_left (by simp_all)) h

/-! ## Every later step is quiet -/

/-- A closed stream, the loop thread outside `alloc_cb`. -/
def Machine.quieted (m : Machine) : Prop := Shut m.w ∧ m.ctl.current ≠ some .alloc

theorem Callback.ne_alloc {c : Callback} (h : c.isReq) : c ≠ .alloc := by
  rintro rfl; simp [Callback.isReq] at h

theorem settle_quiet {x : Seg} (h : QuietSeg w x) :
    Spec (settle x) (fun m => Quiet w m.w ∧ m.quieted)
      (· ≠ .assertion "uv__stream_fd(stream) >= 0") := by
  unfold settle
  simp only [spec_bind]
  refine h.imp (fun r hr => ?_) (fun _ => id)
  rcases r with ⟨w', _ | ⟨c, k⟩⟩
  · exact ⟨hr.1, hr.2.1, by simp [Ctl.current]⟩
  · exact ⟨hr.1, hr.2.1, by simpa [Ctl.current, World.enter] using Callback.ne_alloc hr.2.2.1⟩

/-- Frames none of which waits for `alloc_cb`, resumed in turn on a shut stream. -/
theorem resumeAll_quiet {buf : Buffer} {k : List Frame} (hs : Shut w)
    (hk : ∀ f ∈ k, f.isAlloc = false) :
    Spec (resumeAll buf k w) (fun m => Quiet w m.w ∧ m.quieted)
      (· ≠ .assertion "uv__stream_fd(stream) >= 0") := by
  induction k generalizing w with
  | nil => exact ⟨.refl w, hs, by simp [Ctl.current]⟩
  | cons f k ih =>
    rw [spec_resumeAll_cons]
    refine (quietSeg_resume hs (hk f (.head _))).imp (fun r hr => ?_) (fun _ => id)
    rcases r with ⟨w', _ | ⟨c, fs⟩⟩
    · exact (ih hr.2.1 fun g hg => hk g (.tail _ hg)).imp (fun _ h => ⟨hr.1.trans h.1, h.2⟩)
        (fun _ => id)
    · exact ⟨hr.1, hr.2.1, by simpa [Ctl.current, World.enter] using Callback.ne_alloc hr.2.2.1⟩

/-- **One step from a closed stream outside `alloc_cb`** adds no activity to the
trace, leaves the stream closed and the loop thread outside `alloc_cb`, and
fails no assertion on the descriptor. -/
theorem Machine.quieted.step {m : Machine} {act : Action} {env : List Answer} (h : m.quieted)
    (hsh : m.shaped) :
    Spec (m.step act env) (fun m' => Quiet m.w m'.w ∧ m'.quieted)
      (· ≠ .assertion "uv__stream_fd(stream) >= 0") :=
  Machine.step_of_shut h.1 (fun _ => id) (fun _ hs ht => ⟨.of_trace ht, hs, h.2⟩)
    (fun _ c k _ hc hs ht =>
      (resumeAll_quiet hs ((hsh c k hc).not_alloc fun e => h.2 (by rw [hc, e]; rfl))).imp
        (fun _ hm => ⟨(Quiet.of_trace ht).trans hm.1, hm.2⟩) (fun _ => id))
    (fun _ hs ht => (settle_quiet (quietSeg_streamDestroy hs)).imp
      (fun _ hm => ⟨(Quiet.of_trace ht).trans hm.1, hm.2⟩) (fun _ => id))

/-- **Nothing happens on a closed stream.** In every run, once the stream is
closed and the loop thread is outside `alloc_cb`, every later machine has added
to the trace no call of `alloc_cb`, `read_cb` or `connection_cb` and no read,
write, accept or shutdown of a descriptor, and no later step fails the
assertion `uv__stream_fd (stream) >= 0`. -/
theorem closed_stream_quiet {ok : User} {m m' : Machine} (h : Reachable ok m)
    (hcl : m.w.s.flags.closing) (halloc : m.ctl.current ≠ some .alloc)
    (hrun : Relation.ReflTransGen (Step ok) m m') :
    (∃ t, m'.w.trace = m.w.trace ++ t ∧ ∀ e ∈ t, e.isActivity = false) ∧
      ∀ act env, m'.step act env ≠ .error (.assertion "uv__stream_fd(stream) >= 0") := by
  have key : Quiet m.w m'.w ∧ m'.quieted ∧ Reachable ok m' := by
    induction hrun with
    | refl => exact ⟨.refl _, ⟨shut_reachable h hcl, halloc⟩, h⟩
    | tail _ hs ih =>
      obtain ⟨hq, hm, hr⟩ := ih
      obtain ⟨act, env, hok, hst⟩ := hs
      have hm' := (hm.step (shaped_reachable hr)).of_ok hst
      exact ⟨hq.trans hm'.1, hm'.2, hr.tail ⟨act, env, hok, hst⟩⟩
  exact ⟨key.1, fun act env he => (key.2.1.step (shaped_reachable key.2.2)).of_error he rfl⟩

/-- A TCP stream on descriptor 7 reads; `uv__read` hands two bytes to
`read_cb`, which closes the stream. -/
def closeInReadCb : List (Action × List Answer) :=
  [(.api (.streamOpen 7 true true false), []), (.api (.readStart true true), []),
   (.dispatch (.io ⟨true, false, false, false⟩), []), (.ret ⟨1, 4⟩, [⟨2, []⟩]), (.api .close, [])]

/-- `read_cb` returns, the rest of `uv__stream_io` runs, and the loop finishes
the close. -/
def afterCloseInReadCb : List (Action × List Answer) :=
  [(.ret ⟨0, 0⟩, []), (.dispatch .finishClose, [])]

theorem closed_in_read_cb_quiet :
    (Machine.after .tcp false closeInReadCb).w.s.flags.closing ∧
      (Machine.after .tcp false closeInReadCb).ctl.current = some (.read 2 ⟨1, 4⟩) ∧
      ((∃ t, (Machine.after .tcp false (closeInReadCb ++ afterCloseInReadCb)).w.trace =
          (Machine.after .tcp false closeInReadCb).w.trace ++ t ∧ ∀ e ∈ t, e.isActivity = false) ∧
        ∀ act env, (Machine.after .tcp false (closeInReadCb ++ afterCloseInReadCb)).step act env ≠
          .error (.assertion "uv__stream_fd(stream) >= 0")) :=
  ⟨by decide, by decide, closed_stream_quiet (after_reachable _ _ _) (by decide) (by decide)
    (Machine.run_steps afterCloseInReadCb (by decide))⟩

end UvStream
