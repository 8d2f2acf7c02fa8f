import UvStream.Proof.WriteSide

/-!
# The write path moves the write side

Each function of the write path changes the write side of the world by
`WriteMove`s, and never fails an assertion on `write_queue_size`, from a write
side that is `WriteOk`:

* `writeResult_moves`, `writeRound_moves`, `write_moves`: a round of `uv__write`
  is a write of the head request that took nothing (`again`), failed (`fail`),
  or took some of its bytes (`sendPart`) or all of them (`sendAll`);
* `writeCallbacks_moves`: `uv__write_callbacks` retires the completed requests
  in order (`complete`, `completeNull`) and returns with none left;
* `uvWrite2_moves`, `uvTryWrite_moves`: `uv_write2` queues the request
  (`submit`) and may write at once; `uv_try_write` takes its request back
  (`withdraw`).
-/

namespace UvStream

variable {w w' : World}

@[simp] theorem writes_queue : w.writes.queue = w.s.writeQueue := rfl
@[simp] theorem writes_completed : w.writes.completed = w.s.writeCompletedQueue := rfl
@[simp] theorem writes_size : w.writes.size = w.s.writeQueueSize := rfl
@[simp] theorem writes_log : w.writes.log = reqLog w.trace := rfl
@[simp] theorem writes_nextId : w.writes.nextId = w.nextId := rfl

@[simp] theorem writes_pend : w.writes.pend = w.pending := rfl

theorem writes_eq {ws : WriteSide} : w.writes = ws ↔ w.s.writeQueue = ws.queue ∧
    w.s.writeCompletedQueue = ws.completed ∧ w.s.writeQueueSize = ws.size ∧
    reqLog w.trace = ws.log ∧ w.nextId = ws.nextId ∧ w.s.fd = ws.pend.fd ∧
    w.s.flags.closing = ws.pend.closing ∧ w.s.flags.closed = ws.pend.closed ∧
    w.s.flags.shutting = ws.pend.shutting ∧ w.s.shutdownReq = ws.pend.shutdownReq ∧
    w.s.connectReq = ws.pend.connectReq := by
  rcases ws with ⟨q, c, z, l, n, p⟩
  simp [World.writes, pending_eq]

/-- A world the write side of which is reached by one move. -/
theorem WriteMove.moves {ws : WriteSide} (h : WriteMove w.writes ws) (h' : w'.writes = ws) :
    WriteMoves w.writes w'.writes := h' ▸ .single h

theorem WritesKept.writes (h : WritesKept w w') : w'.writes = w.writes := by
  simp only [World.writes, h.queue, h.completed, h.size, h.log, h.nextId, h.pending]

theorem WritesKept.moves (h : WritesKept w w') : WriteMoves w.writes w'.writes :=
  h.writes ▸ .refl

/-- The write side is the same after `pollout` changes. -/
@[simp] theorem writes_setPollout (b : Bool) : ({ w with s.pollout := b } : World).writes = w.writes :=
  rfl

theorem writeResult_moves {req : WriteReq} {rest : List WriteReq} {offered : List UInt8} {n : Int}
    (ok : WriteOk w.writes) (hq : w.s.writeQueue = req :: rest) (hoff : offered <+: req.rest.flatten) :
    Spec (writeResult w req rest offered n) (fun p => WriteMoves w.writes p.1.writes)
      (¬ ReqFault ·) := by
  obtain ⟨he, bufs, hb, hi⟩ := ok.live req (by simp [hq])
  have hz := ok.size
  simp only [writes_queue, hq, writes_completed, writes_size, queueBytes_cons] at hz
  have hw : w.writes = ⟨req :: rest, w.s.writeCompletedQueue, w.s.writeQueueSize,
      reqLog w.trace, w.nextId, w.pending⟩ := by
    simp [writes_eq, hq]
  unfold writeResult
  dsimp only
  split
  · rename_i hn
    have hfail := @WriteMove.fail req rest w.s.writeCompletedQueue w.s.writeQueueSize
      (reqLog w.trace) w.nextId w.pending w.s.fd n hn
    have hagain := @WriteMove.again req rest w.s.writeCompletedQueue w.s.writeQueueSize
      (reqLog w.trace) w.nextId w.pending w.s.fd n hn
    rw [← hw] at hfail hagain
    split
    · exact WriteMove.moves hfail (by simp [writes_eq, writeReqFinish, show n ≠ 0 by omega, Event.isReq])
    · split <;> exact WriteMove.moves hagain (by simp [writes_eq, hq, Event.isReq])
  · rename_i hn
    simp only [spec_bind, spec_ite, spec_throw]
    refine ⟨fun _ => by simp, fun hle => ?_⟩
    have hlen := hoff.length_le
    rw [← countBufs_eq] at hlen
    have hk : n.toNat ≤ countBufs req.rest := by omega
    have hbytes : offered.take n.toNat = req.rest.flatten.take n.toNat := by
      rw [List.prefix_iff_eq_take.1 hoff, List.take_take, Nat.min_eq_left (by omega)]
    have hn' : ((n.toNat : Nat) : Int) = n := Int.toNat_of_nonneg (by omega)
    have hq' : (countBufs req.rest : Int) ≤ (w.emit (.write w.s.fd req.id req.sendHandle n
        (offered.take n.toNat))).s.writeQueueSize := by
      simp only [emit_s, hz, WriteReq.pending]; omega
    refine (writeSucceeded_spec hb hi hk hq').imp (fun ⟨w₃, more⟩ h => ?_) (fun _ h => h.elim)
    have hm : WriteMoves w.writes w₃.writes := by
      rcases h with ⟨rfl, hdrop, rfl⟩ | ⟨rfl, req', rfl, hid, hcb, he', hh, hbufs, hflat, b, bs, hr, hb'⟩
      · have hkp : n.toNat = req.pending := by
          rw [List.drop_eq_nil_iff] at hdrop
          have := countBufs_eq req.rest
          rw [WriteReq.pending]; omega
        have hall := @WriteMove.sendAll req rest w.s.writeCompletedQueue w.s.writeQueueSize
          (reqLog w.trace) w.nextId w.pending w.s.fd
        rw [← hw] at hall
        refine WriteMove.moves hall ?_
        have hnp : n = req.pending := by rw [← hn', hkp]
        have hflat : req.rest.flatten.take req.pending = req.rest.flatten := by
          rw [pending_eq_length, List.take_length]
        subst hnp
        rw [hkp, hflat] at hbytes
        simp [writes_eq, writeReqFinish, he, Event.isReq, WriteReq.finished, hb, hbytes, hkp]
      · have hpart := @WriteMove.sendPart req rest w.s.writeCompletedQueue w.s.writeQueueSize
          (reqLog w.trace) w.nextId w.pending req' w.s.fd n.toNat hid hcb he' hh
          (hbufs.imp fun _ h => ⟨h.1, h.2.2⟩) hflat
          (by simp [hr, hb'])
        rw [← hw] at hpart
        exact WriteMove.moves hpart (by simp [writes_eq, Event.isReq, hbytes, hn'])
    exact ⟨fun _ => hm, fun _ => ⟨fun _ => hm, fun _ => by simpa using hm⟩⟩

/-- The bytes of the first `k` buffers start the bytes of all of them. -/
theorem flatten_take_prefix (iov : List Buf) (k : Nat) : (iov.take k).flatten <+: iov.flatten :=
  ⟨(iov.drop k).flatten, by rw [← List.flatten_append, List.take_append_drop]⟩

theorem writeRound_moves (ok : WriteOk w.writes) :
    Spec (writeRound w) (fun p => WriteMoves w.writes p.1.writes) (¬ ReqFault ·) := by
  unfold writeRound
  simp only [spec_bind, spec_check]
  refine ⟨fun _ => ?_, fun _ => by simp⟩
  split
  · exact .refl
  · rename_i req rest hq
    rcases hb : req.bufs with _ | bufs
    · simp
    · simp only [spec_bind, spec_check, spec_answerRetry]
      refine ⟨fun _ => ⟨by simp, fun a as _ => ?_⟩, fun _ => by simp⟩
      have hrest : req.rest = bufs.drop req.writeIndex := by simp [WriteReq.rest, hb]
      exact @writeResult_moves { w with env := as } req rest _ a.ret ok hq
        (hrest ▸ flatten_take_prefix _ _)

theorem writeFuel_moves (fuel : Nat) (ok : WriteOk w.writes) :
    Spec (writeFuel fuel w) (fun w' => WriteMoves w.writes w'.writes) (¬ ReqFault ·) := by
  induction fuel generalizing w with
  | zero => simp [writeFuel]
  | succ fuel ih =>
    unfold writeFuel
    simp only [spec_bind]
    refine (writeRound_moves ok).imp (fun ⟨w₁, again⟩ h₁ => ?_) (fun _ => id)
    dsimp only at h₁ ⊢
    split
    · exact (ih (ok.moves h₁)).imp (fun _ h => h₁.trans h) (fun _ => id)
    · exact h₁

theorem write_moves (ok : WriteOk w.writes) :
    Spec (write w) (fun w' => WriteMoves w.writes w'.writes) (¬ ReqFault ·) :=
  writeFuel_moves _ ok

/-- Releasing a request's buffers takes its bytes off `write_queue_size`. -/
theorem writeReqRelease_spec {req : WriteReq} (hle : (req.pending : Int) ≤ w.s.writeQueueSize) :
    Spec (writeReqRelease w req)
      (· = { w with s.writeQueueSize := w.s.writeQueueSize - req.pending }) (¬ ReqFault ·) := by
  unfold writeReqRelease writeReqSize
  split
  · simp only [spec_bind, spec_check, spec_pure]
    exact ⟨fun _ => ⟨fun _ => subQueueSize_of_le hle, fun h => absurd hle h⟩, fun _ => by simp⟩
  · rename_i hb
    simp only [ne_eq, not_not] at hb
    simp [WriteReq.pending, WriteReq.rest, hb]

/-- `b` has the pending part of `a`, and no callback of a shutdown or connect
request that `a` has not. -/
structure KeepsPending (a b : WriteSide) : Prop where
  pend : b.pend = a.pend
  shutdown : ∀ i st, Event.call (.shutdown i st) ∈ b.log → .call (.shutdown i st) ∈ a.log
  connect : ∀ i st, Event.call (.connect i st) ∈ b.log → .call (.connect i st) ∈ a.log

theorem KeepsPending.refl (a : WriteSide) : KeepsPending a a := ⟨rfl, fun _ _ => id, fun _ _ => id⟩

theorem KeepsPending.trans {a b c : WriteSide} (h : KeepsPending a b) (h' : KeepsPending b c) :
    KeepsPending a c :=
  ⟨h'.pend.trans h.pend, fun i st hm => h.shutdown i st (h'.shutdown i st hm),
    fun i st hm => h.connect i st (h'.connect i st hm)⟩

theorem writeCallbacksFrom_moves (q : List WriteReq) (hq : w.s.writeCompletedQueue = q)
    (ok : WriteOk w.writes) :
    Spec (writeCallbacksFrom q w) (fun p => p.1.s.writeQueue = w.s.writeQueue ∧ match p.2 with
      | none => WriteMoves w.writes p.1.writes ∧ KeepsPending w.writes p.1.writes ∧
          p.1.s.writeCompletedQueue = []
      | some c => WriteMoves w.writes (p.1.emit (.call c)).writes ∧
          KeepsPending w.writes (p.1.emit (.call c)).writes) (¬ ReqFault ·) := by
  induction q generalizing w with
  | nil => exact ⟨rfl, .refl, .refl _, hq⟩
  | cons req rest ih =>
    have hz := ok.size
    simp only [writes_queue, writes_completed, hq, writes_size, queueBytes_cons] at hz
    have hw : w.writes = ⟨w.s.writeQueue, req :: rest, w.s.writeQueueSize, reqLog w.trace,
        w.nextId, w.pending⟩ := by
      simp [writes_eq, hq]
    unfold writeCallbacksFrom
    simp only [spec_bind]
    refine (writeReqRelease_spec (by simp; omega)).imp (fun w₂ h₂ => ?_) (fun _ => id)
    subst h₂
    split
    · rename_i hcb
      have hm := @WriteMove.completeNull req w.s.writeQueue rest w.s.writeQueueSize
        (reqLog w.trace) w.nextId w.pending hcb
      rw [← hw] at hm
      have h₁ := WriteMove.moves hm (by simp [writes_eq] : World.writes { w with
        s.writeCompletedQueue := rest, activeReqs := w.activeReqs - 1,
        s.writeQueueSize := w.s.writeQueueSize - req.pending } = _)
      have k₁ : KeepsPending w.writes (World.writes { w with
          s.writeCompletedQueue := rest, activeReqs := w.activeReqs - 1,
          s.writeQueueSize := w.s.writeQueueSize - req.pending }) :=
        ⟨rfl, fun _ _ => id, fun _ _ => id⟩
      exact (ih (by simp) (ok.moves h₁)).imp (fun p hp => by
        rcases p with ⟨_, _ | _⟩
        · exact ⟨hp.1, h₁.trans hp.2.1, k₁.trans hp.2.2.1, hp.2.2.2⟩
        · exact ⟨hp.1, h₁.trans hp.2.1, k₁.trans hp.2.2⟩) (fun _ => id)
    · rename_i hcb
      have hm := @WriteMove.complete req w.s.writeQueue rest w.s.writeQueueSize
        (reqLog w.trace) w.nextId w.pending hcb
      rw [← hw] at hm
      exact ⟨rfl, WriteMove.moves hm (by simp [writes_eq, Event.isReq]),
        ⟨rfl, fun _ _ hm => by simpa [Event.isReq] using hm,
          fun _ _ hm => by simpa [Event.isReq] using hm⟩⟩
    · simp

/-- **`uv__write_callbacks`**, up to its next callback, retires completed
requests, leaves the write queue alone, and returns only when none is left. -/
theorem writeCallbacks_moves (ok : WriteOk w.writes) :
    Spec (writeCallbacks w) (fun r => WriteMoves w.writes (Seg.world r).writes ∧
      KeepsPending w.writes (Seg.world r).writes ∧ Seg.plain r ∧
      (Seg.world r).s.writeQueue = w.s.writeQueue ∧ (r.2 = none → r.1.s.writeCompletedQueue = []) ∧
      ∀ c k, r.2 = some (c, k) → k = [.writeCallbacks])
      (¬ ReqFault ·) := by
  unfold writeCallbacks
  simp only [spec_bind, spec_pure]
  refine (writeCallbacksFrom_moves _ rfl ok).imp (fun ⟨w', c⟩ h => ?_) (fun _ => id)
  rcases c with _ | c
  · exact ⟨h.2.1, h.2.2.1, trivial, h.1, fun _ => h.2.2.2, by simp⟩
  · exact ⟨h.2.1, h.2.2, by simp [Frame.destroying], h.1, by simp, by simp⟩

/-- `uv__stream_flush_write_queue` cancels the queue. -/
theorem streamFlushWriteQueue_moves :
    WriteMoves w.writes (streamFlushWriteQueue w (-ECANCELED)).writes :=
  .single .flush

/-- The allocation in `uv_write2` touches nothing but the answers. -/
theorem writeBufsAlloc_spec {n : Nat} :
    Spec (writeBufsAlloc w n) (fun p => p.2 = { w with env := p.2.env }) (¬ ReqFault ·) := by
  unfold writeBufsAlloc; split <;> simp

theorem writeReqQueue_moves {bufs : List Buf} {h : Option Int} {cb : WriteCb} (hne : bufs ≠ []) :
    WriteMoves w.writes (writeReqQueue w bufs h cb).writes :=
  WriteMove.moves (@WriteMove.submit w.s.writeQueue w.s.writeCompletedQueue w.s.writeQueueSize
    (reqLog w.trace) w.nextId w.pending ⟨w.nextId, cb, 0, h, some bufs, 0⟩ bufs rfl rfl rfl rfl hne)
    (by simp [writes_eq, writeReqQueue, Event.isReq])

/-- The request `uv_write2` queues is the only one of its identity. -/
theorem writeReqQueue_cbIs {bufs : List Buf} {h : Option Int} {cb : WriteCb} (ok : WriteOk w.writes) :
    (writeReqQueue w bufs h cb).writes.cbIs w.nextId cb := by
  intro r hr hrn
  simp only [writeReqQueue, World.writes, World.emit, List.mem_append, List.mem_singleton] at hr
  rcases hr with hr | hr | rfl
  · exact absurd hrn (ok.fresh r (by simp [hr])).ne
  · exact absurd hrn (ok.fresh r (by simp [hr])).ne
  · rfl

/-- **`uv_write2`** moves the write side; when it accepts the request, the
request keeps the callback it was given. -/
theorem uvWrite2_moves {bufs : List Buf} {h : Option Int} {cb : WriteCb} (ok : WriteOk w.writes) :
    Spec (uvWrite2 w bufs h cb)
      (fun p => WriteMoves w.writes p.2.writes ∧ (p.1 = 0 → p.2.writes.cbIs w.nextId cb))
      (¬ ReqFault ·) := by
  unfold uvWrite2
  simp only [spec_bind, spec_check, spec_ite, spec_pure]
  refine ⟨fun hne => ⟨fun _ => ⟨fun _ => ⟨.refl, by simp [EBADF]⟩, fun _ => ⟨fun _ =>
    ⟨.refl, by simp [EINVAL]⟩, fun _ => ⟨fun _ => ⟨.refl, by simp [EBADF]⟩,
    fun _ => writeBufsAlloc_spec.imp (fun ⟨good, w₁⟩ h₁ => ?_) (fun _ => id)⟩⟩⟩, fun _ => by simp⟩,
    fun _ => by simp⟩
  dsimp only at h₁ ⊢
  have hw₁ : w₁.writes = w.writes := by rw [h₁]; rfl
  have hn₁ : w₁.nextId = w.nextId := by rw [h₁]
  have hm : WriteMoves w.writes (writeReqQueue w₁ bufs h cb).writes := hw₁ ▸ writeReqQueue_moves hne
  have hc : (writeReqQueue w₁ bufs h cb).writes.cbIs w.nextId cb := hn₁ ▸ writeReqQueue_cbIs (hw₁ ▸ ok)
  have hn : w.nextId < (writeReqQueue w₁ bufs h cb).writes.nextId := by
    simp [writeReqQueue, World.writes, hn₁]
  have ok₂ := ok.moves hm
  refine ⟨fun _ => ⟨hw₁ ▸ .refl, by simp [ENOMEM]⟩, fun _ => ⟨fun _ => ⟨hm, fun _ => hc⟩,
    fun _ => ⟨fun _ => (write_moves ok₂).imp (fun _ h => ⟨hm.trans h, fun _ => hc.moves h hn⟩)
    (fun _ => id), fun _ => ⟨fun _ => ⟨by simpa using hm, fun _ => by simpa using hc⟩,
    fun _ => by simp⟩⟩⟩⟩

theorem pending_le_queueBytes {r : WriteReq} {q : List WriteReq} (h : r ∈ q) :
    r.pending ≤ queueBytes q := by
  induction q with
  | nil => simp at h
  | cons a q ih =>
    rcases List.mem_cons.1 h with rfl | h
    · simp
    · simp; have := ih h; omega

theorem tryWriteReqSize_spec {req : WriteReq} (hle : (req.pending : Int) ≤ w.s.writeQueueSize) :
    Spec (tryWriteReqSize w req) (· = req.pending) (¬ ReqFault ·) := by
  unfold tryWriteReqSize writeReqSize
  split
  · simp only [spec_bind, spec_check, spec_pure]
    exact ⟨fun _ => ⟨fun _ => rfl, fun h => absurd hle h⟩, fun _ => by simp⟩
  · rename_i hb
    simp only [ne_eq, not_not] at hb
    simp [WriteReq.pending, WriteReq.rest, hb]

theorem uvTryWrite_moves {bufs : List Buf} (ok : WriteOk w.writes) :
    Spec (uvTryWrite w bufs) (fun p => WriteMoves w.writes p.2.writes) (¬ ReqFault ·) := by
  unfold uvTryWrite uvWrite
  simp only [spec_bind, spec_ite, spec_pure]
  refine ⟨fun _ => .refl, fun _ => (uvWrite2_moves ok).imp (fun ⟨r, w₁⟩ ⟨h₁, hcb⟩ => ?_)
    (fun _ => id)⟩
  dsimp only at h₁ hcb ⊢
  refine ⟨fun _ => h₁, fun hr => ?_⟩
  split
  · rename_i req hfind
    have ok₁ := ok.moves h₁
    have hmem : req ∈ w₁.s.writeCompletedQueue ++ w₁.s.writeQueue := by
      have := List.mem_of_find?_eq_some hfind
      simp only [List.mem_append] at this ⊢; tauto
    have hid : req.id = w.nextId := by simpa using List.find?_some hfind
    have hle : (req.pending : Int) ≤ w₁.s.writeQueueSize := by
      have := ok₁.size; have := pending_le_queueBytes hmem
      simp only [writes_queue, writes_completed, writes_size, queueBytes_append] at *; omega
    simp only [spec_bind]
    refine (tryWriteReqSize_spec hle).imp (fun size hs => ?_) (fun _ => id)
    subst hs
    have hm := @WriteMove.withdraw w₁.s.writeQueue w₁.s.writeCompletedQueue w₁.s.writeQueueSize
      (reqLog w₁.trace) w₁.nextId w₁.pending req hmem (hcb (by simpa using hr) req hmem hid)
    rw [hid] at hm
    have hm' := WriteMove.moves hm (by simp [writes_eq, subQueueSize_of_le hle] :
      World.writes { w₁.subQueueSize req.pending with
        s.writeQueue := w₁.s.writeQueue.filter (·.id ≠ w.nextId),
        s.writeCompletedQueue := w₁.s.writeCompletedQueue.filter (·.id ≠ w.nextId),
        activeReqs := w₁.activeReqs - 1 } = _)
    split <;> split <;> exact h₁.trans hm'
  · simp


end UvStream
