import UvStream.Proof.ReadPath

/-!
# What `uv__write` and `uv__write_callbacks` do to the requests

`uv__write` writes for the head request of the write queue, takes the bytes
written off `write_queue_size`, and either moves the head to the completed
queue or leaves it at the head, with its identity, for the next round.
`uv__write_callbacks` takes each request off the completed queue,
unregistering it, and calls its callback. `uv__stream_flush_write_queue`
moves the whole queue to the completed one.

A read-stable property that these moves keep is write-stable (`WriteStable`).
Every such property is kept by `uv__write`, `uv__write_callbacks` and the end
of `uv__stream_connect`, so that an invariant of the requests is proved of the
moves once, and of the code here.

* `WriteStable.write`: **`uv__write` keeps every write-stable property**.
* `WriteStable.writeCallbacks`, `WriteStable.connectAfterCb`: so do
  `uv__write_callbacks` and the cancelling of the queue after a failed connect.
-/

namespace UvStream

/-- A read-stable property that the moves of the write path keep: a write for
the head request, a subtraction from `write_queue_size`, the head moving to the
completed queue or staying at the head with its identity, the head of the
completed queue retired with its registration, a write callback, and the queue
cancelled. -/
structure WriteStable (P : World → Prop) extends ReadStable P : Prop where
  emitWrite : ∀ {w : World} {req : WriteReq} {rest : List WriteReq} {fd ret : Int}
    {hd : Option Int} {b : List UInt8},
    w.s.writeQueue = req :: rest → P w → P (w.emit (.write fd req.id hd ret b))
  subQueueSize : ∀ {w : World} {n : Int}, P w → P (w.subQueueSize n)
  finish : ∀ {w : World} {req req' : WriteReq} {rest : List WriteReq},
    w.s.writeQueue = req :: rest → req'.id = req.id → P w → P (writeReqFinish w req' rest)
  retag : ∀ {w : World} {req req' : WriteReq} {rest : List WriteReq},
    w.s.writeQueue = req :: rest → req'.id = req.id → P w →
      P { w with s.writeQueue := req' :: rest }
  retire : ∀ {w : World} {req : WriteReq} {rest : List WriteReq},
    w.s.writeCompletedQueue = req :: rest → P w →
      P { w with s.writeCompletedQueue := rest, activeReqs := w.activeReqs - 1 }
  called : ∀ {w : World} {i : Nat} {st : Int}, P w → P (w.emit (.call (.write i st)))
  flush : ∀ {w : World} {e : Int}, P w → P (streamFlushWriteQueue w e)

variable {P Q : World → Prop} {w : World}

/-- Two write-stable properties hold together write-stably. -/
theorem WriteStable.and (hP : WriteStable P) (hQ : WriteStable Q) :
    WriteStable (fun w => P w ∧ Q w) where
  congr h hc := ⟨hP.congr h.1 hc, hQ.congr h.2 hc⟩
  emit he h := ⟨hP.emit he h.1, hQ.emit he h.2⟩
  emitWrite hq h := ⟨hP.emitWrite hq h.1, hQ.emitWrite hq h.2⟩
  subQueueSize h := ⟨hP.subQueueSize h.1, hQ.subQueueSize h.2⟩
  finish hq hid h := ⟨hP.finish hq hid h.1, hQ.finish hq hid h.2⟩
  retag hq hid h := ⟨hP.retag hq hid h.1, hQ.retag hq hid h.2⟩
  retire hq h := ⟨hP.retire hq h.1, hQ.retire hq h.2⟩
  called h := ⟨hP.called h.1, hQ.called h.2⟩
  flush h := ⟨hP.flush h.1, hQ.flush h.2⟩

/-! ## `uv__write` -/

theorem WriteStable.writeLoop (hP : WriteStable P) (bufs : List Buf) (k : Nat) (h : P w) :
    Spec (writeLoop bufs k w) (fun p => P p.2 ∧ p.2.s.writeQueue = w.s.writeQueue)
      (fun _ => True) := by
  induction bufs generalizing k w with
  | nil => trivial
  | cons b bs ih =>
    unfold UvStream.writeLoop
    split
    · exact ⟨hP.subQueueSize h, by simp⟩
    · simp only [spec_bind, spec_check]
      refine ⟨fun _ => ?_, fun _ => trivial⟩
      split
      · simp only [spec_bind, spec_check, spec_pure]
        exact ⟨fun _ => ⟨hP.subQueueSize h, by simp⟩, fun _ => trivial⟩
      · exact (ih _ (hP.subQueueSize h)).imp (fun p hp => ⟨hp.1, by simp [hp.2]⟩)
          (fun _ _ => trivial)

theorem WriteStable.writeSucceeded (hP : WriteStable P) {req : WriteReq} {rest : List WriteReq}
    {k : Nat} (h : P w) (hq : w.s.writeQueue = req :: rest) :
    Spec (writeSucceeded w req rest k) (fun p => P p.1) (fun _ => True) := by
  unfold UvStream.writeSucceeded
  simp only [spec_bind]
  refine (hP.writeLoop _ _ h).imp (fun ⟨rem, w₁⟩ ⟨h₁, hq₁⟩ => ?_) (fun _ _ => trivial)
  dsimp only at h₁ hq₁
  rw [hq] at hq₁
  cases rem with
  | none => exact hP.finish hq₁ rfl h₁
  | some rem => exact hP.retag hq₁ rfl h₁

/-- A round of `uv__write` writes for the head of the queue only. -/
theorem WriteStable.writeResult (hP : WriteStable P) {req : WriteReq} {rest : List WriteReq}
    {offered : List UInt8} {ret : Int} (h : P w) (hq : w.s.writeQueue = req :: rest) :
    Spec (writeResult w req rest offered ret) (fun p => P p.1) (fun _ => True) := by
  have hw : ∀ {ret : Int} {b : List UInt8},
      P (w.emit (.write w.s.fd req.id req.sendHandle ret b)) := hP.emitWrite hq h
  have hf : P (writeReqFinish (w.emit (.write w.s.fd req.id req.sendHandle ret []))
      { req with error := ret } rest) := hP.finish hq rfl hw
  unfold UvStream.writeResult
  simp only [spec_bind, spec_ite, spec_throw, spec_pure]
  refine ⟨fun _ => ⟨fun _ => hP.congr hf rfl,
    fun _ => ⟨fun _ => hw, fun _ => hP.congr hw rfl⟩⟩, fun _ => ⟨fun _ => trivial, fun _ =>
      (hP.writeSucceeded hw hq).imp (fun p hp => ⟨fun _ => hp, fun _ => ⟨fun _ => hp,
        fun _ => hP.congr hp rfl⟩⟩) (fun _ _ => trivial)⟩⟩

theorem WriteStable.writeRound (hP : WriteStable P) (h : P w) :
    Spec (writeRound w) (fun p => P p.1) (fun _ => True) := by
  unfold UvStream.writeRound
  simp only [spec_bind, spec_check]
  refine ⟨fun _ => ?_, fun _ => trivial⟩
  split
  · exact h
  · rename_i req rest hq
    rcases req.bufs with _ | bufs
    · trivial
    · simp only [spec_bind, spec_check, spec_answerRetry]
      exact ⟨fun _ => ⟨fun _ => trivial, fun _ as _ =>
        hP.writeResult (w := { w with env := as }) (hP.congr h rfl) hq⟩, fun _ => trivial⟩

theorem WriteStable.writeFuel (hP : WriteStable P) (fuel : Nat) (h : P w) :
    Spec (writeFuel fuel w) P (fun _ => True) := by
  induction fuel generalizing w with
  | zero => trivial
  | succ fuel ih =>
    unfold UvStream.writeFuel
    simp only [spec_bind]
    refine (hP.writeRound h).imp (fun ⟨w₁, again⟩ h₁ => ?_) (fun _ _ => trivial)
    dsimp only at h₁ ⊢
    split
    exacts [ih h₁, h₁]

/-- **`uv__write`** keeps every write-stable property. -/
theorem WriteStable.write (hP : WriteStable P) (h : P w) : Spec (write w) P (fun _ => True) :=
  hP.writeFuel _ h

/-! ## `uv__write_callbacks` -/

theorem WriteStable.writeReqRelease (hP : WriteStable P) {req : WriteReq} (h : P w) :
    Spec (writeReqRelease w req)
      (fun w' => P w' ∧ w'.s.writeCompletedQueue = w.s.writeCompletedQueue) (fun _ => True) := by
  unfold UvStream.writeReqRelease writeReqSize
  split
  · simp only [spec_bind, spec_check, spec_pure]
    exact ⟨fun _ => ⟨fun _ => ⟨hP.subQueueSize h, by simp⟩, fun _ => trivial⟩, fun _ => trivial⟩
  · exact ⟨h, rfl⟩

theorem WriteStable.writeCallbacksFrom (hP : WriteStable P) (cq : List WriteReq)
    (hq : w.s.writeCompletedQueue = cq) (h : P w) :
    Spec (writeCallbacksFrom cq w) (fun p => P p.1 ∧ ∀ c, p.2 = some c → P (p.1.emit (.call c)))
      (fun _ => True) := by
  induction cq generalizing w with
  | nil => exact ⟨h, fun _ hc => nomatch hc⟩
  | cons req cq ih =>
    unfold UvStream.writeCallbacksFrom
    simp only [spec_bind]
    refine (hP.writeReqRelease (hP.retire hq h)).imp (fun w₁ h₁ => ?_) (fun _ _ => trivial)
    split
    · exact ih h₁.2 h₁.1
    · exact ⟨h₁.1, fun _ hc => by cases hc; exact hP.called h₁.1⟩
    · trivial

/-- **`uv__write_callbacks`** keeps every write-stable property. -/
theorem WriteStable.writeCallbacks (hP : WriteStable P) (h : P w) :
    KeepSeg P (writeCallbacks w) := by
  unfold UvStream.writeCallbacks
  simp only [spec_bind, spec_pure]
  refine (hP.writeCallbacksFrom _ rfl h).imp (fun ⟨w₁, c⟩ h₁ => ?_) (fun _ _ => trivial)
  cases c
  exacts [h₁.1, h₁.2 _ rfl]

/-! ## `uv__stream_connect` -/

/-- The error of a finished connect touches no request. -/
theorem connectError_core : Spec (connectError w) (fun p => p.2.core = w.core) (fun _ => True) := by
  unfold connectError; split
  · rfl
  · simp only [spec_bind, spec_check, spec_answer, spec_pure]
    exact ⟨fun _ => ⟨fun _ => trivial, fun _ _ _ => rfl⟩, fun _ => trivial⟩

/-- The end of `uv__stream_connect`: a failed connect cancels the queue. -/
theorem WriteStable.connectAfterCb (hP : WriteStable P) {error : Int} (h : P w) :
    KeepSeg P (connectAfterCb w error) := by
  unfold UvStream.connectAfterCb; split
  · exact h
  · split
    exacts [hP.writeCallbacks (hP.flush h), h]

end UvStream
