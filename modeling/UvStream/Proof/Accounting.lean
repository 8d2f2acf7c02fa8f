import UvStream.Proof.WritePath

/-!
# `write_queue_size` along every run

The write path moves the write side (`UvStream.Proof.WritePath`). Here every
step of the machine is shown to move it, from every reachable machine:

* the pieces of a dispatch of the watcher move the write side, and stop only
  at callbacks after which no frame of `uv__stream_destroy` is resumed
  (`streamIo_moved`, `resume_moved`);
* `uv__stream_destroy` runs on a closing stream, whose descriptor is released,
  so that no request joins its queues from one of its callbacks: the frames it
  leaves on the loop thread are `Ready` (`streamDestroy_ready`,
  `resumeAll_accounting`);
* a call of the user moves the write side, and on a closing stream keeps it
  (`apiCall_moves`, `apiCall_closing`).

`Accounting` is what holds of every reachable machine (`accounting_reachable`).
From it, `write_queue_size` counts the bytes both queues have left, no
subtraction on it wraps, and no assertion on it fails
(`write_queue_size_accounting`).

The request machine is `WriteMove` run from the write side `uv__stream_init`
leaves (`WriteSide.Reach`); each write side it reaches is sound
(`WriteSide.Reach.writeOk`), and **the code refines it**: every reachable
machine's write side is one it reaches, and so is sound
(`write_side_refines_moves`).
-/

namespace UvStream

variable {w w' : World}

/-- What a piece of a dispatch does to the write side: it moves it, fails no
assertion on `write_queue_size`, and stops at no frame of `uv__stream_destroy`. -/
abbrev MovedSeg (w : World) (x : Seg) : Prop :=
  Spec x (fun r => WriteMoves w.writes (Seg.world r).writes ∧ Seg.plain r) (¬ ReqFault ·)

theorem KeptSeg.moved {x : Seg} (h : KeptSeg w x) : MovedSeg w x :=
  h.imp (fun _ h => ⟨h.1.moves, h.2⟩) (fun _ => id)

theorem MovedSeg.trans {x : Seg} (h : WriteMoves w.writes w'.writes) (hx : MovedSeg w' x) :
    MovedSeg w x :=
  hx.imp (fun _ h' => ⟨h.trans h'.1, h'.2⟩) (fun _ => id)

/-- A piece followed by one more frame of a dispatch. -/
theorem MovedSeg.andThen {x : Seg} {f : Frame} {next : World → Seg} (hf : f.destroying = false)
    (hx : MovedSeg w x) (hn : ∀ w', WriteMoves w.writes w'.writes → MovedSeg w' (next w')) :
    MovedSeg w (x.andThen f next) := by
  simp only [spec_andThen]
  refine hx.imp (fun r hr => ?_) (fun _ => id)
  rcases r with ⟨w', _ | ⟨c, k⟩⟩
  · exact (hn w' hr.1).imp (fun r h => ⟨hr.1.trans h.1, h.2⟩) (fun _ => id)
  · refine ⟨hr.1, fun g hg => ?_⟩
    rcases List.mem_append.1 hg with hg | hg
    · exact hr.2 g hg
    · rw [List.mem_singleton.1 hg]; exact hf

theorem WriteMove.closing {a b : WriteSide} (h : WriteMove a b) (hc : a.pend.closing) :
    b.pend.closing := by
  cases h <;> simp_all

/-- No move reopens a closing stream. -/
theorem WriteMoves.closing {a b : WriteSide} (h : WriteMoves a b) (hc : a.pend.closing) :
    b.pend.closing := by
  induction h with
  | refl => exact hc
  | tail _ hm ih => exact hm.closing ih

/-! ## The dispatch of the stream watcher -/

/-- `uv__stream_flush_write_queue (stream, UV_ECANCELED)` and then
`uv__write_callbacks`, as a failed connect and `uv__stream_destroy` run them. -/
theorem cancel_moves (ok : WriteOk w.writes) :
    Spec (writeCallbacks (streamFlushWriteQueue w (-ECANCELED)))
      (fun r => WriteMoves w.writes (Seg.world r).writes ∧ KeepsPending w.writes (Seg.world r).writes ∧
        Seg.plain r ∧ (Seg.world r).s.writeQueue = [] ∧
        (r.2 = none → r.1.s.writeCompletedQueue = []) ∧
        ∀ c k, r.2 = some (c, k) → k = [.writeCallbacks]) (¬ ReqFault ·) := by
  have hm : WriteMoves w.writes (streamFlushWriteQueue w (-ECANCELED)).writes :=
    streamFlushWriteQueue_moves
  have hk : KeepsPending w.writes (streamFlushWriteQueue w (-ECANCELED)).writes :=
    ⟨rfl, fun _ _ => id, fun _ _ => id⟩
  exact (writeCallbacks_moves (ok.moves hm)).imp
    (fun _ h => ⟨hm.trans h.1, hk.trans h.2.1, h.2.2⟩) (fun _ => id)

theorem connectAfterCb_moved {error : Int} (ok : WriteOk w.writes) :
    MovedSeg w (connectAfterCb w error) := by
  unfold connectAfterCb
  split
  · simp
  split
  · exact (cancel_moves ok).imp (fun _ h => ⟨h.1, h.2.2.1⟩) (fun _ => id)
  · simp

theorem connectError_writes :
    Spec (connectError w) (fun p => p.2.writes = w.writes) (¬ ReqFault ·) := by
  unfold connectError; split <;> simp [World.writes, World.pending]

/-- The end of `uv__stream_connect` finishes the pending connect `req`. -/
theorem connectDone_moved {req : ConnectReq} {error : Int} (ok : WriteOk w.writes)
    (hr : w.s.connectReq = some req) (hcl : w.s.flags.closing = false) :
    MovedSeg w (connectDone w req error) := by
  have hm := @WriteMove.connectDone w.s.writeQueue w.s.writeCompletedQueue w.s.writeQueueSize
    (reqLog w.trace) w.nextId w.pending req error hr hcl
  unfold connectDone
  dsimp only
  by_cases hc : error < 0 ∨ w.s.writeQueue = [] <;> simp only [hc, if_true, if_false] <;>
    by_cases hcb : req.cb <;> simp only [hcb, if_true, if_false, Bool.false_eq_true]
  all_goals first
    | exact ⟨WriteMove.moves hm (by simp [writes_eq, hcb, Event.isReq]), by simp [Frame.destroying]⟩
    | refine MovedSeg.trans ?_ (connectAfterCb_moved (ok.moves ?_)) <;>
        exact WriteMove.moves hm (by simp [writes_eq, hcb])

theorem streamConnect_moved (ok : WriteOk w.writes) (hcl : w.s.flags.closing = false) :
    MovedSeg w (streamConnect w) := by
  unfold streamConnect
  simp only [spec_bind, spec_check]
  refine ⟨fun _ => ?_, fun _ => by simp⟩
  split
  · rename_i req hreq
    simp only [spec_bind, spec_ite, spec_pure]
    refine connectError_writes.imp (fun ⟨e, w₁⟩ hw => ⟨fun _ => by simp [← hw], fun _ => ?_⟩)
      (fun _ => id)
    dsimp only at hw ⊢
    have hr : w₁.s.connectReq = some req := by
      simpa [hreq] using congrArg (fun ws => ws.pend.connectReq) hw
    have hcl₁ : w₁.s.flags.closing = false := by
      simpa [hcl] using congrArg (fun ws => ws.pend.closing) hw
    rw [← hw]
    exact connectDone_moved (by rwa [hw]) hr hcl₁
  · simp

/-- **`uv__drain`** carries out the pending shutdown, or leaves the requests
alone; its assertion on `shutdown_req` holds, since a stream shutting down and
not closing has its shutdown pending. -/
theorem drain_moved (ok : WriteOk w.writes) : MovedSeg w (drain w) := by
  unfold drain
  simp only [spec_bind, spec_check]
  refine ⟨fun _ => ?_, fun _ => by simp⟩
  split
  · rename_i hc
    split
    · rename_i req hreq
      simp only [spec_bind, spec_answer]
      refine ⟨fun _ => by simp, fun a as _ => ?_⟩
      have hm := @WriteMove.shutdownDone w.s.writeQueue w.s.writeCompletedQueue w.s.writeQueueSize
        (reqLog w.trace) w.nextId w.pending req a.ret hreq (by simpa using hc.2.1)
      by_cases hcb : req.cb <;> by_cases h0 : a.ret = 0 <;>
        simp only [hcb, h0, if_true, if_false, Bool.false_eq_true] <;>
        exact ⟨WriteMove.moves hm (by simp [writes_eq, hcb, h0, Event.isReq]),
          by simp [Frame.destroying]⟩
    · rename_i hreq
      exact absurd (Option.eq_none_iff_forall_not_mem.2 fun r h => hreq r h)
        (ok.pend.shutting hc.1 (by simpa using hc.2.1))
  · simp [World.writes, World.pending]

theorem ioDrain_moved (ok : WriteOk w.writes) : MovedSeg w (ioDrain w) := by
  unfold ioDrain; split
  · exact drain_moved ok
  · simp

theorem ioAfterEof_moved {ev : Events} (ok : WriteOk w.writes) : MovedSeg w (ioAfterEof w ev) := by
  unfold ioAfterEof
  simp only [spec_bind, spec_ite, spec_pure]
  refine ⟨fun _ => by simp, fun _ => ⟨fun _ => (write_moves ok).imp (fun w₁ h₁ => ?_) (fun _ => id),
    fun _ => by simp⟩⟩
  refine MovedSeg.andThen rfl ?_ (fun _ h => ioDrain_moved (ok.moves h))
  exact (writeCallbacks_moves (ok.moves h₁)).imp (fun _ h => ⟨h₁.trans h.1, h.2.2.1⟩) (fun _ => id)

theorem ioAfterRead_moved {ev : Events} (ok : WriteOk w.writes) :
    MovedSeg w (ioAfterRead w ev) := by
  unfold ioAfterRead
  split
  · simp
  split
  · exact MovedSeg.andThen rfl kept_streamEof.moved (fun _ h => ioAfterEof_moved (ok.moves h))
  · exact ioAfterEof_moved ok

/-- **`uv__stream_io`**, up to its first callback, moves the write side. -/
theorem streamIo_moved {ev : Events} (ok : WriteOk w.writes) : MovedSeg w (streamIo w ev) := by
  unfold streamIo
  simp only [spec_bind, spec_check, spec_ite, spec_pure]
  refine ⟨fun _ => ⟨fun hcl => ⟨fun _ => streamConnect_moved ok (by simpa using hcl), fun _ => ⟨fun _ => ⟨fun _ => ?_,
    fun _ => ioAfterRead_moved ok⟩, fun _ => by simp⟩⟩, fun _ => by simp⟩, fun _ => by simp⟩
  exact MovedSeg.andThen rfl kept_read.moved (fun _ h => ioAfterRead_moved (ok.moves h))

/-- The code after every callback of a dispatch moves the write side. -/
theorem resume_moved {buf : Buffer} {f : Frame} (ok : WriteOk w.writes)
    (hf : f.destroying = false) : MovedSeg w (resume w buf f) := by
  cases f with
  | readAfterAlloc => exact kept_readAfterAlloc.moved
  | readAfterData => exact kept_readAfterData.moved
  | readAfterError => exact ⟨writesKept_readAfterError.moves, trivial⟩
  | eofClear => exact ⟨writesKept_eofClear.moves, trivial⟩
  | ioAfterRead => exact ioAfterRead_moved ok
  | ioAfterEof => exact ioAfterEof_moved ok
  | writeCallbacks => exact (writeCallbacks_moves ok).imp (fun _ h => ⟨h.1, h.2.2.1⟩) (fun _ => id)
  | ioDrain => exact ioDrain_moved ok
  | connectAfterCb => exact connectAfterCb_moved ok
  | serverAfterAccept => exact kept_serverAfterAccept.moved
  | serverAfterError => exact kept_serverLoop.moved
  | destroyConnected | destroyShutdown | destroyEnd => cases hf

/-! ## `uv__stream_destroy` -/

/-- The shutdown request pending in `w`, if any, has not been called back. -/
def ShutdownUncalled (w : World) : Prop :=
  ∀ s, w.s.shutdownReq = some s → ∀ st, Event.call (.shutdown s.id st) ∉ reqLog w.trace

theorem ShutdownUncalled.of_keeps (h : KeepsPending w.writes w'.writes) (hu : ShutdownUncalled w) :
    ShutdownUncalled w' :=
  fun s hs st hm => hu s ((congrArg Pending.shutdownReq h.pend).symm.trans hs) st (h.shutdown _ st hm)

/-- The shutdown request pending in `w`, if any, has been called back. -/
def ShutdownCalled (w : World) : Prop :=
  ∀ s, w.s.shutdownReq = some s → ∃ st, Event.call (.shutdown s.id st) ∈ reqLog w.trace

/-- The connect request pending in `w`, if any, has been called back. -/
def ConnectCalled (w : World) : Prop :=
  ∀ r, w.s.connectReq = some r → ∃ st, Event.call (.connect r.id st) ∈ reqLog w.trace

/-- What the frames `k` left on the loop thread need of the world `w` when they
are resumed. Those of a dispatch need a stream that is not closed. Those of
`uv__stream_destroy` need a closed stream: after its connect callback, that
connect called back and a shutdown not yet; after one of its write callbacks,
no connect, the write queue cancelled, and a shutdown not yet called back;
after its shutdown callback, that shutdown called back, no connect and both
queues empty. -/
def Ready (w : World) (k : List Frame) : Prop :=
  (∀ f ∈ k, f.destroying = false) ∧ w.s.flags.closed = false ∨
    w.s.flags.closed ∧ (k = [.destroyConnected] ∧ ShutdownUncalled w ∧ ConnectCalled w ∨
      w.s.connectReq = none ∧
        (k = [.writeCallbacks, .destroyShutdown] ∧ w.s.writeQueue = [] ∧ ShutdownUncalled w ∨
          k = [.destroyEnd] ∧ w.s.writeQueue = [] ∧ w.s.writeCompletedQueue = [] ∧
            ShutdownCalled w))

theorem Ready.of_kept {k : List Frame} (h : WritesKept w w') (hr : Ready w k) : Ready w' k := by
  obtain ⟨hq, hc, -, -, hl, -, -, hcd, -, hs, hcr⟩ := writesKept_iff.1 h
  simp only [Ready, ShutdownUncalled, ShutdownCalled, ConnectCalled, hq, hc, hl, hcd, hs, hcr]
  exact hr

/-- What `uv__stream_destroy` leaves when it returns: both queues empty, and no
request pending. -/
def Destroyed (w : World) : Prop :=
  w.s.writeQueue = [] ∧ w.s.writeCompletedQueue = [] ∧ w.s.shutdownReq = none ∧
    w.s.connectReq = none

/-- Where a piece stopped, the frames it left are ready; where it returned on a
closed stream, `uv__stream_destroy` is done. -/
def Seg.ready : World × Option (Callback × List Frame) → Prop
  | (w, none) => w.s.flags.closed → Destroyed w
  | (w, some (c, k)) => Ready (w.emit (.call c)) k

/-- A piece that moves the write side and leaves ready frames. -/
abbrev ReadySeg (w : World) (x : Seg) : Prop :=
  Spec x (fun r => WriteMoves w.writes (Seg.world r).writes ∧ Seg.ready r) (¬ ReqFault ·)

theorem MovedSeg.ready {x : Seg} (hcd : w.s.flags.closed = false) (h : MovedSeg w x) :
    ReadySeg w x :=
  h.imp (fun r h => ⟨h.1, by
    rcases r with ⟨_, _ | _⟩
    exacts [fun h' => absurd ((WriteMoves.closed_eq h.1).symm.trans h') (by simp [hcd]),
      Or.inl ⟨h.2, (WriteMoves.closed_eq h.1).trans hcd⟩]⟩) (fun _ => id)

/-- The assertion at the end of `uv__stream_destroy` holds once both queues are
empty. -/
theorem destroyCheck_spec (ok : WriteOk w.writes) (hq : w.s.writeQueue = [])
    (hc : w.s.writeCompletedQueue = []) : Spec (destroyCheck w) (· = (w, none)) (¬ ReqFault ·) := by
  have hz : w.s.writeQueueSize = 0 := by simpa [hq, hc] using ok.size
  simp [destroyCheck, hz]

theorem destroyEnd_ready (ok : WriteOk w.writes) (hq : w.s.writeQueue = [])
    (hc : w.s.writeCompletedQueue = []) (hcd : w.s.flags.closed) (hsc : ShutdownCalled w)
    (hcn : w.s.connectReq = none) : ReadySeg w (destroyEnd w) := by
  unfold destroyEnd
  have hm : WriteMoves w.writes (World.writes { w with s.shutdownReq := none }) :=
    WriteMove.moves (.shutdownEnd hcd hsc) (by simp [writes_eq])
  exact (@destroyCheck_spec { w with s.shutdownReq := none } (ok.moves hm) hq hc).imp
    (fun _ h => by subst h; exact ⟨hm, fun _ => ⟨hq, hc, rfl, hcn⟩⟩) (fun _ => id)

theorem destroyShutdown_ready (ok : WriteOk w.writes) (hq : w.s.writeQueue = [])
    (hc : w.s.writeCompletedQueue = []) (hcd : w.s.flags.closed) (hu : ShutdownUncalled w)
    (hcn : w.s.connectReq = none) : ReadySeg w (destroyShutdown w) := by
  unfold destroyShutdown
  split
  · rename_i s hs
    dsimp only
    split
    · rename_i hcb
      have hm := @WriteMove.shutdownCancel w.s.writeQueue w.s.writeCompletedQueue w.s.writeQueueSize
        (reqLog w.trace) w.nextId w.pending s hs hcd hcb (hu s hs)
      exact ⟨WriteMove.moves hm (by simp [writes_eq, Event.isReq]),
        Or.inr ⟨hcd, Or.inr ⟨hcn, Or.inr ⟨rfl, hq, hc, fun s' hs' => ⟨-ECANCELED, by
          simp_all [Event.isReq]⟩⟩⟩⟩⟩
    · simp
  · rename_i hs
    exact (destroyCheck_spec ok hq hc).imp
      (fun _ h => by subst h; exact ⟨.refl, fun _ => ⟨hq, hc, hs, hcn⟩⟩) (fun _ => id)

theorem destroyWrites_ready (ok : WriteOk w.writes) (hcd : w.s.flags.closed)
    (hu : ShutdownUncalled w) (hcn : w.s.connectReq = none) : ReadySeg w (destroyWrites w) := by
  unfold destroyWrites
  simp only [spec_andThen]
  refine (cancel_moves ok).imp (fun r h => ?_) (fun _ => id)
  obtain ⟨hm, hk, -, hq, hnone, hfr⟩ := h
  have hcd' : (Seg.world r).s.flags.closed := (WriteMoves.closed_eq hm).trans hcd
  have hcn' : (Seg.world r).s.connectReq = none := (congrArg Pending.connectReq hk.pend).trans hcn
  have hu' := hu.of_keeps hk
  rcases r with ⟨w', _ | ⟨c, k⟩⟩
  · exact (destroyShutdown_ready (ok.moves hm) hq (hnone rfl) hcd' hu' hcn').imp
      (fun _ h => ⟨hm.trans h.1, h.2⟩) (fun _ => id)
  · obtain rfl := hfr c k rfl
    exact ⟨hm, Or.inr ⟨hcd', Or.inr ⟨hcn', Or.inl ⟨rfl, hq, hu'⟩⟩⟩⟩

theorem destroyConnected_ready (ok : WriteOk w.writes) (hcd : w.s.flags.closed)
    (hu : ShutdownUncalled w) (hcc : ConnectCalled w) : ReadySeg w (destroyConnected w) := by
  unfold destroyConnected
  have hm : WriteMoves w.writes (World.writes { w with s.connectReq := none }) :=
    WriteMove.moves (.connectEnd hcd hcc) (by simp [writes_eq])
  exact (destroyWrites_ready (ok.moves hm) hcd hu rfl).imp (fun _ h => ⟨hm.trans h.1, h.2⟩)
    (fun _ => id)

/-- **`uv__stream_destroy`**, on a closed stream whose pending requests have
not been called back, up to its first callback: the frames it leaves are ready. -/
theorem streamDestroy_ready (ok : WriteOk w.writes) (hcd : w.s.flags.closed)
    (hu : ShutdownUncalled w)
    (hcu : ∀ r, w.s.connectReq = some r → ∀ st, Event.call (.connect r.id st) ∉ reqLog w.trace) :
    ReadySeg w (streamDestroy w) := by
  unfold streamDestroy
  simp only [spec_bind, spec_check]
  refine ⟨fun _ => ⟨fun _ => ?_, fun _ => by simp⟩, fun _ => by simp⟩
  split
  · rename_i r hr
    split
    · rename_i hcb
      have hm := @WriteMove.connectCancel w.s.writeQueue w.s.writeCompletedQueue w.s.writeQueueSize
        (reqLog w.trace) w.nextId w.pending r hr hcd hcb (hcu r hr)
      exact ⟨WriteMove.moves hm (by simp [writes_eq, Event.isReq]), Or.inr ⟨hcd, Or.inl ⟨rfl,
        fun s hs st hm => hu s hs st (by simpa [Event.isReq] using hm),
        fun r' hr' => ⟨-ECANCELED, by simp_all [Event.isReq]⟩⟩⟩⟩
    · simp
  · rename_i hr
    exact destroyWrites_ready ok hcd hu (by simpa using hr)

/-! ## The machine -/

/-- What holds of every reachable machine for the accounting of
`write_queue_size`. -/
structure Accounting (m : Machine) : Prop where
  writes : WriteOk m.w.writes
  ready : ∀ c k, m.ctl = .inCallback c k → Ready m.w k
  done : m.ctl = .idle → m.w.s.flags.closed → Destroyed m.w

theorem Accounting.idle (ok : WriteOk w.writes) (hd : w.s.flags.closed → Destroyed w) :
    Accounting ⟨w, .idle⟩ :=
  ⟨ok, fun _ _ h => (nomatch h), fun _ => hd⟩

theorem Accounting.enter {c : Callback} {k : List Frame} (ok : WriteOk (w.emit (.call c)).writes)
    (hr : Ready (w.emit (.call c)) k) : Accounting (w.enter c k) :=
  ⟨ok, fun _ _ h => by cases h; exact hr, fun h => (nomatch h)⟩

/-- The machines a piece of a step from `w` leads to: accounted for, with the
write side of `w` moved. -/
def Moved (w : World) (m : Machine) : Prop := Accounting m ∧ WriteMoves w.writes m.w.writes

theorem settle_accounting {x : Seg} (ok : WriteOk w.writes) (h : ReadySeg w x) :
    Spec (settle x) (Moved w) (¬ ReqFault ·) := by
  unfold settle
  simp only [spec_bind]
  refine h.imp (fun r hr => ?_) (fun _ => id)
  rcases r with ⟨w', _ | ⟨c, k⟩⟩
  · exact ⟨Accounting.idle (ok.moves hr.1) hr.2, hr.1⟩
  · exact ⟨Accounting.enter (ok.moves hr.1) hr.2, hr.1⟩

variable {buf : Buffer}

@[simp] theorem spec_resumeAll_cons {f : Frame} {k : List Frame} {Q : Machine → Prop}
    {F : Fault → Prop} :
    Spec (resumeAll buf (f :: k) w) Q F ↔ Spec (resume w buf f) (fun r => match r with
      | (w', none) => Spec (resumeAll buf k w') Q F
      | (w', some (c, fs)) => Q (w'.enter c (fs ++ k))) F := by
  simp only [resumeAll, spec_bind]
  constructor <;> intro h <;> refine h.imp (fun r hr => ?_) (fun _ => id) <;>
    rcases r with ⟨w', _ | ⟨c, fs⟩⟩ <;> simpa using hr

theorem resumeAll_single {f : Frame} : resumeAll buf [f] w = settle (resume w buf f) := by
  simp only [resumeAll, settle, List.append_nil]

theorem resumeAll_plain {k : List Frame} (ok : WriteOk w.writes)
    (hk : ∀ f ∈ k, f.destroying = false) (hcd : w.s.flags.closed = false) :
    Spec (resumeAll buf k w) (Moved w) (¬ ReqFault ·) := by
  induction k generalizing w with
  | nil => exact ⟨Accounting.idle ok fun h => absurd h (by simp [hcd]), .refl⟩
  | cons f k ih =>
    rw [spec_resumeAll_cons]
    refine (resume_moved ok (hk f (.head _))).imp (fun r hr => ?_) (fun _ => id)
    have hcd' : (Seg.world r).s.flags.closed = false := (WriteMoves.closed_eq hr.1).trans hcd
    rcases r with ⟨w', _ | ⟨c, fs⟩⟩
    · exact (ih (ok.moves hr.1) (fun g hg => hk g (.tail _ hg)) hcd').imp
        (fun _ h => ⟨h.1, hr.1.trans h.2⟩) (fun _ => id)
    · refine ⟨Accounting.enter (ok.moves hr.1) (Or.inl ⟨fun g hg => ?_, hcd'⟩), hr.1⟩
      rcases List.mem_append.1 hg with hg | hg
      exacts [hr.2 g hg, hk g (.tail _ hg)]

/-- **Resuming ready frames** keeps the accounting. -/
theorem resumeAll_accounting {k : List Frame} (ok : WriteOk w.writes) (hr : Ready w k) :
    Spec (resumeAll buf k w) (Moved w) (¬ ReqFault ·) := by
  rcases hr with ⟨hk, hcd⟩ | ⟨hcd, ⟨rfl, hu, hcc⟩ | ⟨hcn, ⟨rfl, hq, hu⟩ | ⟨rfl, hq, hc, hsc⟩⟩⟩
  · exact resumeAll_plain ok hk hcd
  · rw [resumeAll_single]
    exact settle_accounting ok (destroyConnected_ready ok hcd hu hcc)
  · rw [spec_resumeAll_cons]
    refine (writeCallbacks_moves ok).imp (fun r h => ?_) (fun _ => id)
    obtain ⟨hm, hkp, -, hq', hnone, hfr⟩ := h
    have hcd' : (Seg.world r).s.flags.closed := (WriteMoves.closed_eq hm).trans hcd
    have hcn' : (Seg.world r).s.connectReq = none := (congrArg Pending.connectReq hkp.pend).trans hcn
    have hu' := hu.of_keeps hkp
    rcases r with ⟨w', _ | ⟨c, fs⟩⟩
    · dsimp only
      rw [resumeAll_single]
      exact (settle_accounting (ok.moves hm) (destroyShutdown_ready (ok.moves hm) (hq'.trans hq)
        (hnone rfl) hcd' hu' hcn')).imp (fun _ h => ⟨h.1, hm.trans h.2⟩) (fun _ => id)
    · obtain rfl := hfr c fs rfl
      exact ⟨Accounting.enter (ok.moves hm)
        (Or.inr ⟨hcd', Or.inr ⟨hcn', Or.inl ⟨rfl, hq'.trans hq, hu'⟩⟩⟩), hm⟩
  · rw [resumeAll_single]
    exact settle_accounting ok (destroyEnd_ready ok hq hc hcd hsc hcn)

/-! ## The calls of the user -/

theorem writes_closeIoFd : w.closeIoFd.writes = { w.writes with pend := { w.pending with fd := -1 } } := by
  unfold World.closeIoFd; split
  · split <;> simp [writes_eq, Event.isReq]
  · rename_i h; simp only [ne_eq, not_not] at h; simp [writes_eq, h]

theorem writesKept_closeAcceptedFd : WritesKept w w.closeAcceptedFd := by
  unfold World.closeAcceptedFd; split <;> simp [Event.isReq]

theorem writesKept_closeQueuedFds : WritesKept w w.closeQueuedFds := by
  unfold World.closeQueuedFds; split <;> simp [Event.isReq]

/-- `uv__stream_close` releases the descriptor and leaves the rest of the write
side alone. -/
theorem streamClose_writes :
    Spec (streamClose w) (fun w' => w'.writes = { w.writes with pend := { w.pending with fd := -1 } })
      (¬ ReqFault ·) := by
  have k : WritesKept w (uvReadStop { w with s.pollin := false, s.pollout := false }) :=
    (⟨rfl, rfl, rfl, rfl, rfl, rfl⟩ :
      WritesKept w { w with s.pollin := false, s.pollout := false }).trans writesKept_uvReadStop
  simp only [streamClose, spec_bind, spec_check, spec_pure]
  refine ⟨fun _ => ?_, fun _ => by simp⟩
  rw [(writesKept_closeAcceptedFd.trans writesKept_closeQueuedFds).writes, writes_closeIoFd,
    k.writes, k.pending]

theorem uvClose_moves : Spec (uvClose w) (fun w' => WriteMoves w.writes w'.writes) (¬ ReqFault ·) := by
  unfold uvClose
  simp only [spec_bind, spec_check]
  exact ⟨fun hc => streamClose_writes.imp
    (fun _ h => WriteMove.moves (.close (by simpa using hc)) (by rw [h]; rfl)) (fun _ => id),
    fun _ => by simp⟩

/-- `uv_shutdown` starts a shutdown request, or refuses to. -/
theorem uvShutdown_moves {cb : Bool} :
    Spec (uvShutdown w cb) (fun p => WriteMoves w.writes p.2.writes) (¬ ReqFault ·) := by
  unfold uvShutdown
  simp only [spec_bind, spec_check, spec_ite, spec_pure]
  refine ⟨fun _ => ⟨fun _ => .refl, fun hf => ⟨fun _ => ?_, fun _ => by simp⟩⟩, fun _ => by simp⟩
  simp only [not_or, Bool.not_eq_true] at hf
  exact WriteMove.moves (.shutdown ⟨w.nextId, cb⟩ rfl hf.2.2.1 hf.2.2.2.2)
    (by simp [writes_eq, Event.isReq])

/-- A transport's connect starts a connect request. -/
theorem connect_moves {cb : Bool} {e : Int} :
    Spec (connect w cb e) (fun w' => WriteMoves w.writes w'.writes) (¬ ReqFault ·) := by
  unfold connect
  split
  · rename_i hc
    simp only [Option.isNone_iff_eq_none, Bool.not_eq_true] at hc
    exact WriteMove.moves (.connect ⟨w.nextId, cb⟩ rfl hc.1 hc.2.2.1)
      (by simp [writes_eq, Event.isReq])
  · simp

/-- **Every call of the user moves the write side.** -/
theorem apiCall_moves {a : Api} (ok : WriteOk w.writes) :
    Spec (apiCall w a) (fun w' => WriteMoves w.writes w'.writes) (¬ ReqFault ·) := by
  cases a with
  | write2 => simpa [apiCall] using (uvWrite2_moves ok).imp (fun _ h => h.1) (fun _ => id)
  | tryWrite => simpa [apiCall] using uvTryWrite_moves ok
  | readStart => simpa [apiCall] using kept_uvReadStart.imp (fun _ h => h.moves) (fun _ => id)
  | readStop => exact writesKept_uvReadStop.moves
  | shutdown => simpa [apiCall] using uvShutdown_moves
  | close => exact uvClose_moves
  | accept => simpa [apiCall] using kept_uvAccept.imp (fun _ h => h.moves) (fun _ => id)
  | listen =>
    simp only [apiCall, spec_bind, spec_ite, spec_throw, spec_pure]
    exact ⟨fun _ => by simp, fun _ => kept_uvListen.imp (fun _ h => h.moves) (fun _ => id)⟩
  | streamOpen fd readable writable blocking =>
    simp only [apiCall, spec_bind, spec_ite, spec_throw, spec_pure]
    refine ⟨fun _ => by simp, fun hcl => kept_streamOpen.imp (fun ⟨_, s, w₁⟩ h => ?_) (fun _ => id)⟩
    obtain ⟨hs | ⟨f, hs⟩, hk⟩ := h <;> dsimp only at hs hk ⊢ <;> subst hs
    · have e : ({ w₁ with s := w.s } : World).writes = w.writes :=
        writes_eq.2 ⟨rfl, rfl, rfl, hk.log, hk.nextId, rfl, rfl, rfl, rfl, rfl, rfl⟩
      rw [e]
    · have hcl' : w₁.pending.closing = false := by simpa [hk.pending] using hcl
      refine hk.moves.trans (WriteMove.moves (.streamOpen f hcl') ?_)
      simp [writes_eq, hk.queue, hk.completed, hk.size, hk.log, hk.nextId, hk.pending]

/-- On a closing stream, whose descriptor is released, no call of the user
changes the write side. -/
theorem apiCall_closing {a : Api} (hcl : w.s.flags.closing) (hfd : w.s.fd = -1) :
    Spec (apiCall w a) (WritesKept w) (fun _ => True) := by
  cases a with
  | write2 => simp [apiCall, uvWrite2, hfd]
  | tryWrite => simp [apiCall, uvTryWrite, uvWrite, uvWrite2, hfd, EBADF]
  | readStart => simpa [apiCall] using kept_uvReadStart.imp (fun _ h => h) (fun _ _ => trivial)
  | readStop => exact writesKept_uvReadStop
  | shutdown => simp [apiCall, uvShutdown, hcl]
  | close => simp [apiCall, uvClose, hcl]
  | accept => simpa [apiCall] using kept_uvAccept.imp (fun _ h => h) (fun _ _ => trivial)
  | listen => simp [apiCall, hcl]
  | streamOpen => simp [apiCall, hcl]

/-- Moves of a stream that is not closing keep what the frames on the loop need. -/
theorem Accounting.of_moves {ctl : Ctl} (h : Accounting ⟨w, ctl⟩) (hcl : w.s.flags.closing = false)
    (hw : WriteMoves w.writes w'.writes) : Accounting ⟨w', ctl⟩ := by
  have hcd : w'.s.flags.closed = false := (WriteMoves.closed_eq hw).trans
    (by simpa [hcl] using mt h.writes.pend.destroyed)
  refine ⟨h.writes.moves hw, fun c k hk => ?_, fun _ h' => absurd h' (by simp [hcd])⟩
  rcases h.ready c k hk with ⟨hp, -⟩ | ⟨hcd', _⟩
  · exact .inl ⟨hp, hcd⟩
  · simpa [hcl] using h.writes.pend.destroyed hcd'

/-- Calls that keep the requests keep the accounting. -/
theorem Accounting.of_kept {ctl : Ctl} (h : Accounting ⟨w, ctl⟩) (hw : WritesKept w w') :
    Accounting ⟨w', ctl⟩ := by
  obtain ⟨hq, hc, -, -, -, -, -, hcd, -, hs, hcr⟩ := writesKept_iff.1 hw
  refine ⟨h.writes.moves hw.moves, fun c k hk => (h.ready c k hk).of_kept hw, fun hi hd => ?_⟩
  obtain ⟨h₁, h₂, h₃, h₄⟩ := h.done hi (hcd ▸ hd)
  exact ⟨hq.trans h₁, hc.trans h₂, hs.trans h₃, hcr.trans h₄⟩

theorem apiCall_accounting {a : Api} {ctl : Ctl} (h : Accounting ⟨w, ctl⟩) :
    Spec (apiCall w a) (fun w' => Accounting ⟨w', ctl⟩ ∧ WriteMoves w.writes w'.writes)
      (¬ ReqFault ·) := by
  by_cases hcl : w.s.flags.closing
  · refine ((apiCall_moves h.writes).and (apiCall_closing hcl (h.writes.pend.closed hcl))).imp
      (fun _ hw => ⟨h.of_kept hw.2, hw.1⟩) (fun _ he => he.1)
  · exact (apiCall_moves h.writes).imp (fun _ hw => ⟨h.of_moves (by simpa using hcl) hw, hw⟩)
      (fun _ => id)

theorem connect_accounting {cb : Bool} {e : Int} {ctl : Ctl} (h : Accounting ⟨w, ctl⟩) :
    Spec (connect w cb e) (fun w' => Accounting ⟨w', ctl⟩ ∧ WriteMoves w.writes w'.writes)
      (¬ ReqFault ·) := by
  by_cases hcl : w.s.flags.closing
  · simp [connect, hcl]
  · exact connect_moves.imp (fun _ hw => ⟨h.of_moves (by simpa using hcl) hw, hw⟩) (fun _ => id)

/-! ## Every run -/

/-- How a step changes the write side: by moves, after `uv__finish_close` has
marked the stream closed if the step destroys it. -/
def StepMoves (a b : WriteSide) : Prop := WriteMoves a b ∨ a.pend.closing ∧ WriteMoves a.destroyed b

theorem dispatch_accounting {d : Dispatch} (ok : WriteOk w.writes) :
    Spec (dispatch w d) (fun m => Accounting m ∧ StepMoves w.writes m.w.writes) (¬ ReqFault ·) := by
  cases d with
  | io ev =>
    simp only [dispatch]
    split
    · simp
    rename_i hc
    have hcd : w.s.flags.closed = false := by
      by_contra h; exact hc (.inl (ok.pend.destroyed (by simpa using h)))
    split
    · exact (settle_accounting ok ((streamIo_moved ok).ready hcd)).imp (fun _ h => ⟨h.1, .inl h.2⟩)
        (fun _ => id)
    · split
      · exact (settle_accounting ok (kept_serverIo.moved.ready hcd)).imp
          (fun _ h => ⟨h.1, .inl h.2⟩) (fun _ => id)
      · simp
  | finishClose =>
    simp only [dispatch]
    split
    · rename_i hc
      have hcd : w.s.flags.closed = false := by simpa using hc.2
      have ok' : WriteOk (World.writes { w with s.flags.closed := true }) := ok.destroy hc.1
      have hu : ShutdownUncalled { w with s.flags.closed := true } := fun s hs =>
        ((ok.pend.shutdownReq s hs).2.2.resolve_left (by simp [hcd]))
      have hcu : ∀ r, w.s.connectReq = some r → ∀ st, Event.call (.connect r.id st) ∉ reqLog w.trace :=
        fun r hr => (ok.pend.connectReq r hr).2.resolve_left (by simp [hcd])
      exact (settle_accounting ok' (streamDestroy_ready ok' rfl hu hcu)).imp
        (fun _ h => ⟨h.1, .inr ⟨hc.1, h.2⟩⟩) (fun _ => id)
    · simp

/-- **One step keeps the accounting**, moves the write side, and fails no
assertion on `write_queue_size`. -/
theorem Accounting.step {m : Machine} {act : Action} {env : List Answer} (h : Accounting m) :
    Spec (m.step act env) (fun m' => Accounting m' ∧ StepMoves m.w.writes m'.w.writes)
      (¬ ReqFault ·) := by
  obtain ⟨w, ctl⟩ := m
  have h' : Accounting ⟨{ w with env := env }, ctl⟩ := ⟨h.writes, h.ready, h.done⟩
  cases act with
  | api a =>
    simp only [Machine.step, spec_map]
    exact (apiCall_accounting h').imp (fun _ h => ⟨h.1, .inl h.2⟩) (fun _ => id)
  | ret buf =>
    cases ctl with
    | idle => simp [Machine.step]
    | inCallback c k =>
      show Spec (resumeAll buf k { w with env := env }) _ _
      exact (resumeAll_accounting h'.writes (h'.ready c k rfl)).imp (fun _ h => ⟨h.1, .inl h.2⟩)
        (fun _ => id)
  | dispatch d =>
    cases ctl with
    | idle => exact dispatch_accounting h.writes
    | inCallback => simp [Machine.step]
  | connect cb e =>
    simp only [Machine.step, spec_map]
    exact (connect_accounting h').imp (fun _ h => ⟨h.1, .inl h.2⟩) (fun _ => id)


/-- The machine after `uv__stream_init`. -/
theorem streamInit_spec {type : HandleType} {ipc : Bool} :
    Spec (streamInit type ipc w) (fun w' => w'.s = Stream.init type ipc ∧ w'.trace = w.trace ∧
      w'.nextId = w.nextId) (fun _ => True) := by
  unfold streamInit; dsimp only; split
  · simp only [spec_bind, spec_answer, spec_ite, spec_pure]
    refine ⟨fun _ => trivial, fun _ _ _ => ⟨fun _ => ⟨fun _ => trivial, fun _ _ _ => ?_⟩, fun _ => ?_⟩⟩ <;>
      split <;> simp
  · simp

theorem initial_writes {m : Machine} (h : Initial m) : m.w.writes = WriteSide.initial := by
  obtain ⟨w₀, type, ipc, htr, hid, hinit, -⟩ := h
  obtain ⟨hs, ht, hn⟩ := streamInit_spec.of_ok hinit
  simp [writes_eq, WriteSide.initial, hs, ht, htr, hn, hid, Stream.init]

theorem accounting_initial {m : Machine} (h : Initial m) : Accounting m := by
  obtain ⟨_, _, _, _, _, hinit, hctl⟩ := h
  refine ⟨initial_writes ⟨_, _, _, ‹_›, ‹_›, hinit, hctl⟩ ▸ writeOk_initial, fun _ _ hk => ?_,
    fun _ hcd => ?_⟩
  · simp [hctl] at hk
  · simp [(streamInit_spec.of_ok hinit).1, Stream.init] at hcd

/-- **Every reachable machine keeps the accounting.** -/
theorem accounting_reachable {ok : User} {m : Machine} (h : Reachable ok m) : Accounting m :=
  h.induction (fun _ => accounting_initial) (fun _ _ ⟨_, _, _, hs⟩ hm => (hm.step.of_ok hs).1)

theorem StepMoves.keep {P : WriteSide → Prop} {a b : WriteSide}
    (move : ∀ a b, WriteOk a → WriteMove a b → P a → P b)
    (destroy : ∀ a, WriteOk a → a.pend.closing → P a → P a.destroyed)
    (h : StepMoves a b) (ok : WriteOk a) (ha : P a) : P b := by
  rcases h with h | ⟨hc, h⟩
  · exact h.keep move ok ha
  · exact h.keep move (ok.destroy hc) (destroy a ok hc ha)

/-- **What every run keeps of the write side**: a property of the write side
that `uv__stream_init` leaves, kept by every move of a sound write side and by
marking a closing stream closed, holds in every reachable machine. -/
theorem reachable_writes {P : WriteSide → Prop} (init : P WriteSide.initial)
    (move : ∀ a b, WriteOk a → WriteMove a b → P a → P b)
    (destroy : ∀ a, WriteOk a → a.pend.closing → P a → P a.destroyed)
    {ok : User} {m : Machine} (h : Reachable ok m) : P m.w.writes := by
  have key := @Reachable.induction ok m (fun m => Accounting m ∧ P m.w.writes)
    (fun _ hm => ⟨accounting_initial hm, initial_writes hm ▸ init⟩)
    (fun _ _ ⟨_, _, _, hs⟩ ⟨hm, hp⟩ =>
      let ⟨hm', hmv⟩ := hm.step.of_ok hs
      ⟨hm', hmv.keep move destroy hm.writes hp⟩) h
  exact key.2

/-! ## The counter -/

/-- Completed requests whose buffers are freed count for nothing. -/
theorem queueBytes_filter_bufs (q : List WriteReq) :
    queueBytes (q.filter (·.bufs.isSome)) = queueBytes q := by
  induction q with
  | nil => rfl
  | cons r q ih =>
    rcases hb : r.bufs with _ | bufs <;> simp [hb, ih, WriteReq.pending, WriteReq.rest]

/-- **Write-queue accounting.** In every reachable machine `write_queue_size`
is the number of bytes still to write of the requests on `write_queue`, and of
those on `write_completed_queue` whose buffers are not yet freed; no subtraction
on it has wrapped, and no step fails one of the assertions on it. -/
theorem write_queue_size_accounting {ok : User} {m : Machine} (h : Reachable ok m) :
    m.w.s.writeQueueSize = queueBytes m.w.s.writeQueue +
        queueBytes (m.w.s.writeCompletedQueue.filter (·.bufs.isSome)) ∧
      Event.sizeWrap ∉ m.w.trace ∧
      ∀ act env e, m.step act env = .error e → ¬ SizeFault e := by
  have hm := accounting_reachable h
  refine ⟨by rw [queueBytes_filter_bufs]; exact hm.writes.size, fun hw => hm.writes.noWrap ?_,
    fun _ _ _ he hs => hm.step.of_error he (.inl hs)⟩
  exact List.mem_filter.2 ⟨hw, rfl⟩

/-- A stream opened on descriptor 7, and a write of three bytes of which the
kernel takes one. -/
def shortWrite : List (Action × List Answer) :=
  [(.api (.streamOpen 7 true true false), []), (.api (.write2 [[1, 2, 3]] none true), [⟨1, []⟩])]

theorem write_queue_size_after_short_write :
    (Machine.after .tcp false shortWrite).w.s.writeQueueSize = 2 ∧
      ((Machine.after .tcp false shortWrite).w.s.writeQueueSize =
          queueBytes (Machine.after .tcp false shortWrite).w.s.writeQueue +
            queueBytes ((Machine.after .tcp false shortWrite).w.s.writeCompletedQueue.filter
              (·.bufs.isSome)) ∧
        Event.sizeWrap ∉ (Machine.after .tcp false shortWrite).w.trace ∧
        ∀ act env e, (Machine.after .tcp false shortWrite).step act env = .error e → ¬ SizeFault e) :=
  ⟨by decide, write_queue_size_accounting (after_reachable _ _ _)⟩

/-! ## The request machine -/

/-- The write sides the request machine reaches from the one `uv__stream_init`
leaves: by `WriteMove`s, and by `uv__finish_close` marking a closing stream
closed. -/
inductive WriteSide.Reach : WriteSide → Prop
  | initial : WriteSide.Reach WriteSide.initial
  | move {a b : WriteSide} : WriteSide.Reach a → WriteMove a b → WriteSide.Reach b
  | destroy {a : WriteSide} : WriteSide.Reach a → a.pend.closing → WriteSide.Reach a.destroyed

/-- Every write side the request machine reaches is sound. -/
theorem WriteSide.Reach.writeOk {ws : WriteSide} (h : ws.Reach) : WriteOk ws := by
  induction h with
  | initial => exact writeOk_initial
  | move _ hm ok => exact ok.move hm
  | destroy _ hc ok => exact ok.destroy hc

/-- **The code refines the request machine**: the write side of every
reachable machine, whatever the user called and the kernel answered, is one the
request machine reaches, and so is sound. -/
theorem write_side_refines_moves {ok : User} {m : Machine} (h : Reachable ok m) :
    m.w.writes.Reach ∧ WriteOk m.w.writes :=
  have hr : m.w.writes.Reach :=
    reachable_writes .initial (fun _ _ _ hm ha => .move ha hm) (fun _ _ hc ha => .destroy ha hc) h
  ⟨hr, hr.writeOk⟩

/-- The scripted short write takes place, two bytes left queued, and its write
side is one the request machine reaches. -/
theorem short_write_refines_moves :
    (Machine.after .tcp false shortWrite).w.s.writeQueueSize = 2 ∧
      (Machine.after .tcp false shortWrite).w.writes.Reach ∧
        WriteOk (Machine.after .tcp false shortWrite).w.writes :=
  ⟨by decide, write_side_refines_moves (after_reachable _ _ _)⟩

end UvStream
