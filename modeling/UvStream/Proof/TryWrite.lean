import UvStream.Proof.WriteErrors

/-!
# `uv_try_write` takes its request back

`uv_try_write` queues a request with `uv_write`, which lets `uv__write` try it
at once, and then takes it off whichever queue `uv__write` left it on. The
request carries `uv_try_write_cb`, which aborts.

* `write_tagsKept`: `uv__write` keeps the requests of both queues, by identity
  and callback and in order, the next identity and the loop's request count;
  `uvWrite2_tags`: `uv_write2` adds its own request and nothing else.
* `Machine.step_noTry`: from a stream none of whose requests carries
  `uv_try_write_cb`, no step calls it, and none is queued after the step;
  `noTry_reachable`: **no reachable machine has such a request queued**.
* `try_write_cleans_up`: when `uv_write` accepts the request of `uv_try_write`
  on a stream with no connect pending and nothing queued, **the request is on
  neither queue when `uv_try_write` returns, the request count and
  `write_queue_size` are as before, `POLLOUT` is off if it was, and no later
  step calls `uv_try_write_cb`**.
-/

namespace UvStream

/-- The identity and callback of each request of both queues, completed first. -/
def World.tags (w : World) : List (Nat × WriteCb) :=
  reqTags (w.s.writeCompletedQueue ++ w.s.writeQueue)

/-- No request of either queue carries `uv_try_write_cb`. -/
def NoTry (w : World) : Prop := ∀ t ∈ w.tags, t.2 ≠ .tryWrite

/-- `w'` has the requests of `w`, by identity and callback and in order, the
same next identity, and the same count of active requests. -/
structure TagsKept (w w' : World) : Prop where
  tags : w'.tags = w.tags
  nextId : w'.nextId = w.nextId
  activeReqs : w'.activeReqs = w.activeReqs

variable {α : Type} {w w' w'' : World}

theorem TagsKept.refl (w : World) : TagsKept w w := ⟨rfl, rfl, rfl⟩

theorem TagsKept.trans (h : TagsKept w w') (h' : TagsKept w' w'') : TagsKept w w'' :=
  ⟨h'.tags.trans h.tags, h'.nextId.trans h.nextId, h'.activeReqs.trans h.activeReqs⟩

@[simp] theorem reqTags_append (q q' : List WriteReq) :
    reqTags (q ++ q') = reqTags q ++ reqTags q' := List.map_append _ _ _

@[simp] theorem reqTags_cons (r : WriteReq) (q : List WriteReq) :
    reqTags (r :: q) = (r.id, r.cb) :: reqTags q := rfl

@[simp] theorem reqTags_nil : reqTags [] = [] := rfl

@[simp] theorem subQueueSize_s (n : Int) :
    (w.subQueueSize n).s = { w.s with writeQueueSize := w.s.writeQueueSize - n } := by
  unfold World.subQueueSize; split <;> rfl

@[simp] theorem subQueueSize_nextId (n : Int) : (w.subQueueSize n).nextId = w.nextId := by
  unfold World.subQueueSize; split <;> rfl

@[simp] theorem subQueueSize_activeReqs (n : Int) :
    (w.subQueueSize n).activeReqs = w.activeReqs := by
  unfold World.subQueueSize; split <;> rfl

theorem tagsKept_emit (e : Event) : TagsKept w (w.emit e) := ⟨rfl, rfl, rfl⟩

theorem tagsKept_subQueueSize (n : Int) : TagsKept w (w.subQueueSize n) :=
  ⟨by simp [World.tags], by simp, by simp⟩

/-- Moving the head `req` of the write queue to the completed queue keeps the
requests in order. -/
theorem tagsKept_writeReqFinish {req req' : WriteReq} {rest : List WriteReq}
    (hq : w.s.writeQueue = req :: rest) (hid : req'.id = req.id) (hcb : req'.cb = req.cb) :
    TagsKept w (writeReqFinish w req' rest) := by
  refine ⟨?_, rfl, rfl⟩
  unfold writeReqFinish
  split <;> simp [World.tags, hq, hid, hcb]

/-! ## `uv__write` -/

/-- The loop of the success branch changes nothing but `write_queue_size`. -/
theorem writeLoop_tagsKept (bufs : List Buf) (n : Nat) :
    Spec (writeLoop bufs n w) (fun p => TagsKept w p.2 ∧ p.2.s.writeQueue = w.s.writeQueue)
      (· ≠ .abort) := by
  induction bufs generalizing n w with
  | nil => simp [writeLoop]
  | cons b bs ih =>
    unfold writeLoop
    split
    · exact ⟨tagsKept_subQueueSize _, by simp⟩
    · simp only [spec_bind, spec_check]
      refine ⟨fun _ => ?_, by simp⟩
      have h₁ : TagsKept w (w.subQueueSize b.length) ∧
          (w.subQueueSize b.length).s.writeQueue = w.s.writeQueue :=
        ⟨tagsKept_subQueueSize _, by simp⟩
      split
      · simp only [spec_bind, spec_check, spec_pure]
        exact ⟨fun _ => h₁, by simp⟩
      · exact (ih _).imp (fun _ h => ⟨h₁.1.trans h.1, h.2.trans h₁.2⟩) (fun _ => id)

theorem writeSucceeded_tagsKept {req : WriteReq} {rest : List WriteReq} {n : Nat}
    (hq : w.s.writeQueue = req :: rest) :
    Spec (writeSucceeded w req rest n) (fun p => TagsKept w p.1) (· ≠ .abort) := by
  unfold writeSucceeded
  simp only [spec_bind]
  refine (writeLoop_tagsKept _ _).imp (fun ⟨rem, w₁⟩ ⟨h₁, hq₁⟩ => ?_) (fun _ => id)
  dsimp only at h₁ hq₁ ⊢
  rw [hq] at hq₁
  rcases rem with _ | rem
  · exact h₁.trans (tagsKept_writeReqFinish hq₁ rfl rfl)
  · exact h₁.trans ⟨by simp [World.tags, hq₁], rfl, rfl⟩

theorem writeResult_tagsKept {req : WriteReq} {rest : List WriteReq} {offered : List UInt8}
    {n : Int} (hq : w.s.writeQueue = req :: rest) :
    Spec (writeResult w req rest offered n) (fun p => TagsKept w p.1) (· ≠ .abort) := by
  unfold writeResult
  split
  · have hf : TagsKept w (writeReqFinish (w.emit (.write w.s.fd req.id req.sendHandle n []))
        { req with error := n } rest) :=
      (tagsKept_emit _).trans
        (@tagsKept_writeReqFinish (w.emit _) req { req with error := n } rest hq rfl rfl)
    simp only [spec_ite, spec_pure]
    exact ⟨fun _ => ⟨hf.1, hf.2, hf.3⟩, fun _ => ⟨fun _ => tagsKept_emit _,
      fun _ => ⟨rfl, rfl, rfl⟩⟩⟩
  · simp only [spec_bind, spec_ite, spec_throw]
    refine ⟨fun _ => by simp, fun _ => (writeSucceeded_tagsKept (by simpa using hq)).imp
      (fun ⟨w₁, more⟩ h => ?_) (fun _ => id)⟩
    have h' : TagsKept w w₁ := (tagsKept_emit _).trans h
    simp only [spec_pure]
    exact ⟨fun _ => h', fun _ => ⟨fun _ => h', fun _ => ⟨h'.1, h'.2, h'.3⟩⟩⟩

theorem writeRound_tagsKept : Spec (writeRound w) (fun p => TagsKept w p.1) (· ≠ .abort) := by
  unfold writeRound
  simp only [spec_bind, spec_check]
  refine ⟨fun _ => ?_, by simp⟩
  split
  · exact .refl w
  · rename_i req rest hq
    split
    · simp only [spec_bind, spec_check, spec_answerRetry]
      exact ⟨fun _ => ⟨by simp, fun a as _ => (@writeResult_tagsKept { w with env := as } req rest _
        a.ret hq).imp (fun _ h => (⟨rfl, rfl, rfl⟩ : TagsKept w { w with env := as }).trans h)
        (fun _ => id)⟩, by simp⟩
    · simp

theorem writeFuel_tagsKept (fuel : Nat) :
    Spec (writeFuel fuel w) (TagsKept w) (· ≠ .abort) := by
  induction fuel generalizing w with
  | zero => simp [writeFuel]
  | succ fuel ih =>
    unfold writeFuel
    simp only [spec_bind]
    refine writeRound_tagsKept.imp (fun ⟨w₁, again⟩ h => ?_) (fun _ => id)
    dsimp only
    split
    · exact ih.imp (fun _ h' => h.trans h') (fun _ => id)
    · exact h

/-- **`uv__write` keeps the requests of both queues**, by identity and callback
and in order, gives out no identity and registers no request. -/
theorem write_tagsKept : Spec (write w) (TagsKept w) (· ≠ .abort) := writeFuel_tagsKept _

/-! ## `uv_write2` and `uv_try_write` -/

/-- A computation that does not call `uv_try_write_cb`. -/
abbrev NoAbort (x : Except Fault α) : Prop := Spec x (fun _ => True) (· ≠ .abort)

theorem writeBufsAlloc_env {n : Nat} :
    Spec (writeBufsAlloc w n) (fun p => p.2 = { w with env := p.2.env }) (· ≠ .abort) := by
  unfold writeBufsAlloc; split <;> simp

theorem writeReqQueue_tags {bufs : List Buf} {h : Option Int} {cb : WriteCb} :
    (writeReqQueue w bufs h cb).tags = w.tags ++ [(w.nextId, cb)] ∧
      (writeReqQueue w bufs h cb).nextId = w.nextId + 1 ∧
      (writeReqQueue w bufs h cb).activeReqs = w.activeReqs := by
  simp [writeReqQueue, World.tags]

/-- **`uv_write2` adds its own request**, with the callback it was given,
behind the others, when it accepts it; otherwise it leaves the requests and
the next identity alone. -/
theorem uvWrite2_tags {bufs : List Buf} {h : Option Int} {cb : WriteCb} :
    Spec (uvWrite2 w bufs h cb) (fun p =>
      (p.1 = 0 → p.2.tags = w.tags ++ [(w.nextId, cb)] ∧ p.2.nextId = w.nextId + 1 ∧
        p.2.activeReqs = w.activeReqs + 1) ∧
      (p.1 ≠ 0 → p.2.tags = w.tags ∧ p.2.nextId = w.nextId)) (· ≠ .abort) := by
  unfold uvWrite2
  simp only [spec_bind, spec_check, spec_ite, spec_pure]
  refine ⟨fun _ => ⟨fun _ => ⟨fun _ => by simp [EBADF], fun _ => ⟨fun _ => by simp [EINVAL],
    fun _ => ⟨fun _ => by simp [EBADF], fun _ => writeBufsAlloc_env.imp (fun ⟨good, w₁⟩ h₁ => ?_)
    (fun _ => id)⟩⟩⟩, by simp⟩, by simp⟩
  dsimp only at h₁ ⊢
  have h₂ : (writeReqQueue w₁ bufs h cb).tags = w.tags ++ [(w.nextId, cb)] ∧
      (writeReqQueue w₁ bufs h cb).nextId = w.nextId + 1 ∧
      (writeReqQueue w₁ bufs h cb).activeReqs = w.activeReqs + 1 := by
    rw [h₁]; simp [writeReqQueue, World.tags]
  refine ⟨fun _ => ⟨by simp [ENOMEM], fun _ => by rw [h₁]; simp [World.tags]⟩, fun _ =>
    ⟨fun _ => ⟨fun _ => h₂, fun h => absurd rfl h⟩, fun _ => ⟨fun _ => write_tagsKept.imp (fun w₃ h₃ =>
    ⟨fun _ => ⟨h₃.tags.trans h₂.1, h₃.nextId.trans h₂.2.1, h₃.activeReqs.trans h₂.2.2⟩, fun h => absurd rfl h⟩)
    (fun _ => id), fun _ => ⟨fun _ => ⟨fun _ => ?_, fun h => absurd rfl h⟩, by simp⟩⟩⟩⟩
  simpa [World.tags] using h₂

theorem tryWriteReqSize_noAbort {req : WriteReq} : NoAbort (tryWriteReqSize w req) := by
  unfold tryWriteReqSize writeReqSize; split <;> simp

/-- The tags of the queues with the requests of identity `i` taken off. -/
theorem reqTags_filter_id (l : List WriteReq) (i : Nat) :
    reqTags (l.filter (·.id ≠ i)) = (reqTags l).filter (·.1 ≠ i) := by
  simp [reqTags, List.filter_map, Function.comp_def]

/-- **`uv_try_write` leaves only requests that were queued before it.** -/
theorem uvTryWrite_tags {bufs : List Buf} :
    Spec (uvTryWrite w bufs) (fun p => p.2.tags ⊆ w.tags) (· ≠ .abort) := by
  unfold uvTryWrite uvWrite
  simp only [spec_bind, spec_ite, spec_pure]
  refine ⟨fun _ => List.Subset.refl _, fun _ => uvWrite2_tags.imp
    (fun ⟨r, w₁⟩ ⟨h₀, h₁⟩ => ?_) (fun _ => id)⟩
  dsimp only at h₀ h₁ ⊢
  refine ⟨fun hr => (h₁ hr).1 ▸ List.Subset.refl _, fun hr => ?_⟩
  have ht := (h₀ (by simpa using hr)).1
  split
  · simp only [spec_bind]
    refine tryWriteReqSize_noAbort.imp (fun size _ => ?_) (fun _ => id)
    have hsub : reqTags (w₁.s.writeCompletedQueue.filter (·.id ≠ w.nextId) ++
        w₁.s.writeQueue.filter (·.id ≠ w.nextId)) ⊆ w.tags := by
      intro t htm
      simp only [← List.filter_append, reqTags_filter_id] at htm
      simp only [World.tags] at ht
      rw [ht] at htm
      obtain ⟨hm, hne⟩ := List.mem_filter.1 htm
      rcases List.mem_append.1 hm with hm | hm
      · exact hm
      · rw [List.mem_singleton.1 hm] at hne; simp at hne
    split <;> split <;> simpa [World.tags] using hsub
  · simp

/-! ## The read and accept paths -/

theorem noAbort_readCallback {n : Int} {buf : Buffer} {k : List Frame} :
    NoAbort (readCallback w n buf k) := by
  unfold readCallback; split <;> simp

theorem noAbort_readLoop {count : Nat} {ipc : Bool} : NoAbort (readLoop w count ipc) := by
  unfold readLoop; split <;> simp

theorem noAbort_streamQueueFd {fd : Int} : NoAbort (streamQueueFd w fd) := by
  unfold streamQueueFd queuedFdsRoom
  split
  · simp only [spec_bind, spec_answer, spec_pure]
    refine ⟨by simp, fun a as _ => ?_⟩
    split <;> simp
  · split
    · simp only [spec_bind, spec_answer, spec_pure]
      refine ⟨by simp, fun a as _ => ?_⟩
      split <;> simp
    · simp

theorem noAbort_recvFds (fds : List Int) : NoAbort (recvFds fds w) := by
  induction fds generalizing w with
  | nil => simp [recvFds]
  | cons fd fds ih =>
    unfold recvFds
    simp only [spec_bind, spec_ite, spec_pure]
    exact ⟨fun _ => noAbort_streamQueueFd.imp (fun _ _ => ⟨fun _ => trivial, fun _ => ih⟩)
      (fun _ => id), fun _ => ih⟩

theorem noAbort_streamRecvCmsg (cs : List Cmsg) : NoAbort (streamRecvCmsg cs w) := by
  induction cs generalizing w with
  | nil => simp [streamRecvCmsg]
  | cons c cs ih =>
    unfold streamRecvCmsg
    simp only [spec_bind, spec_ite, spec_pure]
    exact ⟨fun _ => ih, fun _ => (noAbort_recvFds _).imp
      (fun _ _ => ⟨fun _ => trivial, fun _ => ih⟩) (fun _ => id)⟩

theorem noAbort_readAfterAlloc {count : Nat} {ipc : Bool} {buf : Buffer} :
    NoAbort (readAfterAlloc w count ipc buf) := by
  unfold readAfterAlloc streamEof
  simp only [spec_bind, spec_ite, spec_check, spec_answerRetry, spec_throw, spec_pure]
  refine ⟨fun _ => noAbort_readCallback, fun _ => ⟨fun _ => ⟨fun _ => ⟨by simp, fun _ _ _ =>
    ⟨by simp, fun _ => ⟨fun _ => ⟨fun _ => noAbort_readCallback, fun _ => noAbort_readCallback⟩,
    fun _ => ⟨fun _ => noAbort_readCallback, fun _ => ?_⟩⟩⟩⟩, by simp⟩, by simp⟩⟩
  exact ⟨fun _ => (noAbort_streamRecvCmsg _).imp
      (fun _ _ => ⟨fun _ => noAbort_readCallback, fun _ => noAbort_readCallback⟩) (fun _ => id),
    fun _ => ⟨fun _ => noAbort_readCallback, fun _ => noAbort_readCallback⟩⟩

theorem noAbort_readAfterData {count : Nat} {ipc short : Bool} :
    NoAbort (readAfterData w count ipc short) := by
  unfold readAfterData; split
  · trivial
  · exact noAbort_readLoop

theorem noAbort_connectionCallback {status : Int} {k : List Frame} :
    NoAbort (connectionCallback w status k) := by
  unfold connectionCallback; split <;> simp

theorem noAbort_emfileAcceptFuel (fuel : Nat) : NoAbort (emfileAcceptFuel fuel w) := by
  induction fuel generalizing w with
  | zero => simp [emfileAcceptFuel]
  | succ fuel ih =>
    unfold emfileAcceptFuel
    simp only [spec_bind, spec_answerRetry, spec_ite, spec_pure]
    exact ⟨by simp, fun _ _ _ => ⟨fun _ => ih, fun _ => ⟨fun _ => ih, fun _ => trivial⟩⟩⟩

theorem noAbort_emfileTrick : NoAbort (emfileTrick w) := by
  unfold emfileTrick
  simp only [spec_bind, spec_ite, spec_pure, spec_answer]
  exact ⟨fun _ => trivial, fun _ => (noAbort_emfileAcceptFuel _).imp
    (fun _ _ => ⟨by simp, fun _ _ _ => trivial⟩) (fun _ => id)⟩

theorem noAbort_serverLoopFuel (fuel : Nat) : NoAbort (serverLoopFuel fuel w) := by
  induction fuel generalizing w with
  | zero => simp [serverLoopFuel]
  | succ fuel ih =>
    unfold serverLoopFuel
    simp only [spec_bind, spec_check, spec_ite, spec_pure, spec_answerRetry]
    refine ⟨fun _ => trivial, fun _ => ⟨fun _ => ⟨by simp, fun _ _ _ => ⟨fun _ =>
      noAbort_connectionCallback, fun _ => ⟨fun _ => trivial, fun _ => ⟨fun _ => ih, fun _ =>
      ⟨fun _ => noAbort_emfileTrick.imp (fun _ _ => ⟨fun _ => trivial,
        fun _ => noAbort_connectionCallback⟩) (fun _ => id), fun _ => noAbort_connectionCallback⟩⟩⟩⟩⟩,
      by simp⟩⟩

theorem noAbort_serverLoop : NoAbort (serverLoop w) := noAbort_serverLoopFuel _

theorem noAbort_serverIo : NoAbort (serverIo w) := by
  unfold serverIo
  simp only [spec_bind, spec_check]
  exact ⟨fun _ => ⟨fun _ => noAbort_serverLoop, by simp⟩, by simp⟩

/-! ## The pieces of a dispatch -/

/-- Every request of `w'` is one of `w`'s, and `w'` gives out the identities
`w` would. -/
structure TagsSub (w w' : World) : Prop where
  tags : w'.tags ⊆ w.tags
  nextId : w'.nextId = w.nextId

@[simp] theorem tagsSub_iff : TagsSub w w' ↔ w'.tags ⊆ w.tags ∧ w'.nextId = w.nextId :=
  ⟨fun ⟨a, b⟩ => ⟨a, b⟩, fun ⟨a, b⟩ => ⟨a, b⟩⟩

theorem TagsSub.refl (w : World) : TagsSub w w := ⟨List.Subset.refl _, rfl⟩

theorem TagsSub.trans (h : TagsSub w w') (h' : TagsSub w' w'') : TagsSub w w'' :=
  ⟨h'.tags.trans h.tags, h'.nextId.trans h.nextId⟩

theorem TagsKept.sub (h : TagsKept w w') : TagsSub w w' := ⟨h.tags ▸ List.Subset.refl _, h.nextId⟩

theorem WritesKept.sub (h : WritesKept w w') : TagsSub w w' :=
  ⟨by simp [World.tags, h.queue, h.completed], h.nextId⟩

theorem NoTry.of_sub (h : NoTry w) (hs : w'.tags ⊆ w.tags) : NoTry w' := fun t ht => h t (hs ht)

/-- A piece of a dispatch that adds no request, gives out no identity, and does
not call `uv_try_write_cb`. -/
abbrev SafeSeg (w : World) (x : Seg) : Prop :=
  Spec x (fun r => TagsSub w (Seg.world r)) (· ≠ .abort)

theorem SafeSeg.of_sub {x : Seg} (h : SafeSeg w' x) (hw : TagsSub w w') : SafeSeg w x :=
  h.imp (fun _ hr => hw.trans hr) (fun _ => id)

theorem SafeSeg.andThen {x : Seg} {f : Frame} {next : World → Seg} (hx : SafeSeg w x)
    (hn : ∀ w', TagsSub w w' → SafeSeg w' (next w')) : SafeSeg w (x.andThen f next) := by
  simp only [spec_andThen]
  refine hx.imp (fun r hr => ?_) (fun _ => id)
  rcases r with ⟨w', _ | ⟨c, k⟩⟩
  · exact (hn w' hr).of_sub hr
  · exact hr

theorem KeptSeg.safe {x : Seg} (h : KeptSeg w x) (ha : NoAbort x) : SafeSeg w x :=
  (h.and ha).imp (fun _ hr => hr.1.1.sub) (fun _ he => he.2)

theorem writeReqRelease_safe {req : WriteReq} :
    Spec (writeReqRelease w req) (fun w' => w'.s.writeQueue = w.s.writeQueue ∧
      w'.s.writeCompletedQueue = w.s.writeCompletedQueue ∧ w'.nextId = w.nextId) (· ≠ .abort) := by
  unfold writeReqRelease writeReqSize
  split
  · simp only [spec_bind, spec_check, spec_pure]
    exact ⟨fun _ => ⟨fun _ => by simp, by simp⟩, by simp⟩
  · simp

/-- `uv__write_callbacks` retires completed requests, none of which carries
`uv_try_write_cb`. -/
theorem writeCallbacksFrom_safe (q : List WriteReq) (hq : w.s.writeCompletedQueue = q)
    (hn : ∀ r ∈ q, r.cb ≠ .tryWrite) :
    Spec (writeCallbacksFrom q w) (fun p => p.1.s.writeQueue = w.s.writeQueue ∧
      p.1.s.writeCompletedQueue <:+ q ∧ p.1.nextId = w.nextId) (· ≠ .abort) := by
  induction q generalizing w with
  | nil => exact ⟨rfl, hq ▸ List.suffix_refl _, rfl⟩
  | cons req rest ih =>
    unfold writeCallbacksFrom
    simp only [spec_bind]
    refine writeReqRelease_safe.imp (fun w₁ ⟨h₁, h₂, h₃⟩ => ?_) (fun _ => id)
    split
    · exact (ih h₂ fun r hr => hn r (.tail _ hr)).imp (fun _ h =>
        ⟨h.1.trans h₁, h.2.1.trans (List.suffix_cons _ _), h.2.2.trans h₃⟩) (fun _ => id)
    · exact ⟨h₁, h₂ ▸ List.suffix_cons _ _, h₃⟩
    · exact absurd ‹req.cb = .tryWrite› (hn req (.head _))

theorem writeCallbacks_safe (hn : NoTry w) : SafeSeg w (writeCallbacks w) := by
  unfold writeCallbacks
  simp only [spec_bind, spec_pure]
  refine (writeCallbacksFrom_safe _ rfl fun r hr => hn (r.id, r.cb) ?_).imp
    (fun ⟨w₁, c⟩ ⟨h₁, h₂, h₃⟩ => ?_) (fun _ => id)
  · simp only [World.tags, reqTags, List.map_append, List.mem_append, List.mem_map]
    exact .inl ⟨r, hr, rfl⟩
  · dsimp only at h₁ h₂ h₃ ⊢
    have hs : TagsSub w w₁ := ⟨fun t ht => by
      simp only [World.tags, reqTags_append, List.mem_append, h₁] at ht ⊢
      exact ht.imp_left fun h => List.map_subset (fun r => (r.id, r.cb)) h₂.subset h, h₃⟩
    rcases c with _ | c <;> exact ⟨hs.1, hs.2⟩

theorem tagsKept_streamFlushWriteQueue (e : Int) : TagsKept w (streamFlushWriteQueue w e) :=
  ⟨by simp [World.tags, streamFlushWriteQueue, reqTags, Function.comp_def], rfl, rfl⟩

theorem drain_safe : SafeSeg w (drain w) := by
  unfold drain
  simp only [spec_bind, spec_check]
  refine ⟨fun _ => ?_, by simp⟩
  split
  · split
    · simp only [spec_bind, spec_answer]
      refine ⟨by simp, fun a as _ => ?_⟩
      split <;> split <;> simp [World.tags]
    · simp
  · simp [World.tags]

theorem ioDrain_safe : SafeSeg w (ioDrain w) := by
  unfold ioDrain; split
  · exact drain_safe
  · exact .refl w

theorem ioAfterEof_safe {ev : Events} (hn : NoTry w) : SafeSeg w (ioAfterEof w ev) := by
  unfold ioAfterEof
  simp only [spec_ite, spec_pure, spec_bind]
  refine ⟨fun _ => .refl w, fun _ => ⟨fun _ => write_tagsKept.imp (fun w₁ h₁ => ?_) (fun _ => id),
    fun _ => .refl w⟩⟩
  exact ((writeCallbacks_safe (hn.of_sub h₁.sub.tags)).andThen fun _ _ => ioDrain_safe).of_sub h₁.sub

theorem streamEof_safe {buf : Buffer} : SafeSeg w (streamEof w buf) :=
  kept_streamEof.safe noAbort_readCallback

theorem ioAfterRead_safe {ev : Events} (hn : NoTry w) : SafeSeg w (ioAfterRead w ev) := by
  unfold ioAfterRead
  split
  · exact .refl w
  · split
    · exact streamEof_safe.andThen fun _ h => ioAfterEof_safe (hn.of_sub h.tags)
    · exact ioAfterEof_safe hn

theorem connectError_safe :
    Spec (connectError w) (fun p => TagsSub w p.2) (· ≠ .abort) := by
  unfold connectError; split <;> simp [World.tags]

theorem connectAfterCb_safe {error : Int} (hn : NoTry w) : SafeSeg w (connectAfterCb w error) := by
  unfold connectAfterCb
  split
  · exact .refl w
  · split
    · have hk := tagsKept_streamFlushWriteQueue (w := w) (-ECANCELED)
      exact (writeCallbacks_safe (hn.of_sub hk.sub.tags)).of_sub hk.sub
    · exact .refl w

theorem connectDone_safe {req : ConnectReq} {error : Int} (hn : NoTry w) :
    SafeSeg w (connectDone w req error) := by
  unfold connectDone
  dsimp only
  split <;> split
  · simp [World.tags]
  · simp [World.tags]
  all_goals refine SafeSeg.of_sub (connectAfterCb_safe (NoTry.of_sub hn ?_)) ?_ <;> simp [World.tags]

theorem streamConnect_safe (hn : NoTry w) : SafeSeg w (streamConnect w) := by
  unfold streamConnect
  simp only [spec_bind, spec_check]
  refine ⟨fun _ => ?_, by simp⟩
  split
  · simp only [spec_bind]
    refine connectError_safe.imp (fun ⟨error, w₁⟩ h => ?_) (fun _ => id)
    dsimp only at h ⊢
    split
    · exact h
    · exact (connectDone_safe (hn.of_sub h.tags)).of_sub h
  · simp

theorem streamIo_safe {ev : Events} (hn : NoTry w) : SafeSeg w (streamIo w ev) := by
  unfold streamIo
  simp only [spec_bind, spec_check, spec_ite, spec_pure]
  refine ⟨fun _ => ⟨fun _ => ⟨fun _ => streamConnect_safe hn, fun _ => ⟨fun _ => ⟨fun _ => ?_,
    fun _ => ioAfterRead_safe hn⟩, by simp⟩⟩, by simp⟩, by simp⟩
  exact (kept_read.safe noAbort_readLoop).andThen fun _ h => ioAfterRead_safe (hn.of_sub h.tags)

theorem destroyCheck_safe : SafeSeg w (destroyCheck w) := by
  unfold destroyCheck; simp

theorem destroyShutdown_safe : SafeSeg w (destroyShutdown w) := by
  unfold destroyShutdown
  split
  · dsimp only
    split
    · simp [World.tags]
    · simp
  · exact destroyCheck_safe

theorem destroyWrites_safe (hn : NoTry w) : SafeSeg w (destroyWrites w) := by
  have hk := tagsKept_streamFlushWriteQueue (w := w) (-ECANCELED)
  exact ((writeCallbacks_safe (hn.of_sub hk.sub.tags)).andThen
    fun _ _ => destroyShutdown_safe).of_sub hk.sub

theorem destroyConnected_safe (hn : NoTry w) : SafeSeg w (destroyConnected w) :=
  (destroyWrites_safe (hn.of_sub (by simp [World.tags]))).of_sub (by simp [World.tags])

theorem streamDestroy_safe (hn : NoTry w) : SafeSeg w (streamDestroy w) := by
  unfold streamDestroy
  simp only [spec_bind, spec_check]
  refine ⟨fun _ => ⟨fun _ => ?_, by simp⟩, by simp⟩
  split
  · split
    · simp [World.tags]
    · simp
  · exact destroyWrites_safe hn

/-- **Every frame, resumed on a stream with no request carrying
`uv_try_write_cb`, adds no request and does not call it.** -/
theorem resume_safe {buf : Buffer} (f : Frame) (hn : NoTry w) : SafeSeg w (resume w buf f) := by
  cases f with
  | readAfterAlloc => exact kept_readAfterAlloc.safe noAbort_readAfterAlloc
  | readAfterData => exact kept_readAfterData.safe noAbort_readAfterData
  | readAfterError => exact writesKept_readAfterError.sub
  | eofClear => exact writesKept_eofClear.sub
  | ioAfterRead => exact ioAfterRead_safe hn
  | ioAfterEof => exact ioAfterEof_safe hn
  | writeCallbacks => exact writeCallbacks_safe hn
  | ioDrain => exact ioDrain_safe
  | connectAfterCb => exact connectAfterCb_safe hn
  | serverAfterAccept =>
    refine kept_serverAfterAccept.safe ?_
    unfold serverAfterAccept; split
    · trivial
    · exact noAbort_serverLoop
  | serverAfterError => exact kept_serverLoop.safe noAbort_serverLoop
  | destroyConnected => exact destroyConnected_safe hn
  | destroyShutdown => exact destroyShutdown_safe
  | destroyEnd => exact destroyCheck_safe.of_sub (by simp [World.tags])

/-! ## Every step -/

theorem settle_noTry {x : Seg} (hn : NoTry w) (h : SafeSeg w x) :
    Spec (settle x) (fun m => NoTry m.w) (· ≠ .abort) := by
  unfold settle
  simp only [spec_bind]
  refine h.imp (fun r hr => ?_) (fun _ => id)
  rcases r with ⟨w', _ | ⟨c, k⟩⟩
  · exact hn.of_sub hr.tags
  · exact hn.of_sub hr.tags

theorem resumeAll_noTry {buf : Buffer} (k : List Frame) (hn : NoTry w) :
    Spec (resumeAll buf k w) (fun m => NoTry m.w) (· ≠ .abort) := by
  induction k generalizing w with
  | nil => exact hn
  | cons f k ih =>
    rw [spec_resumeAll_cons]
    refine (resume_safe f hn).imp (fun r hr => ?_) (fun _ => id)
    rcases r with ⟨w', _ | ⟨c, fs⟩⟩
    · exact ih (hn.of_sub hr.tags)
    · exact hn.of_sub hr.tags

theorem dispatch_noTry {d : Dispatch} (hn : NoTry w) :
    Spec (dispatch w d) (fun m => NoTry m.w) (· ≠ .abort) := by
  cases d with
  | io ev =>
    simp only [dispatch]
    split
    · simp
    · split
      · exact settle_noTry hn (streamIo_safe hn)
      · split
        · exact settle_noTry hn (kept_serverIo.safe noAbort_serverIo)
        · simp
  | finishClose =>
    simp only [dispatch]
    split
    · exact settle_noTry (hn.of_sub (by simp [World.tags])) (streamDestroy_safe
        (hn.of_sub (by simp [World.tags]))) |>.imp (fun _ => id) (fun _ => id)
    · simp

theorem noAbort_streamOpen {c : Stream} {fd : Int} {readable writable blocking : Bool} :
    NoAbort (streamOpen w c fd readable writable blocking) := by
  unfold streamOpen sockopt; simp +contextual

theorem noAbort_acceptOpen {c : Stream} : NoAbort (acceptOpen w c) := by
  unfold acceptOpen
  split <;> simp only [spec_bind, spec_pure, spec_answer]
  · exact noAbort_streamOpen.imp (fun _ _ => trivial) (fun _ => id)
  · exact noAbort_streamOpen.imp (fun _ _ => trivial) (fun _ => id)
  · simp

theorem noAbort_uvAccept {c : Stream} : NoAbort (uvAccept w c) := by
  unfold uvAccept
  simp only [spec_bind, spec_ite, spec_pure]
  refine ⟨fun _ => trivial, fun _ => noAbort_acceptOpen.imp (fun o _ => ?_) (fun _ => id)⟩
  rcases o with _ | ⟨err, c', w'⟩
  · trivial
  · dsimp only
    split
    · split
      · simp
      · simp
    · trivial

/-- A call of the user adds no request carrying `uv_try_write_cb` to a stream
that has none, and does not call it. -/
theorem apiCall_noTry {a : Api} (hn : NoTry w) : Spec (apiCall w a) NoTry (· ≠ .abort) := by
  have hk : ∀ {β : Type} {x : Except Fault β} {g : β → World}, Kept w x g → NoAbort x →
      Spec x (fun b => NoTry (g b)) (· ≠ .abort) := fun h ha =>
    (h.and ha).imp (fun _ hb => hn.of_sub hb.1.sub.tags) (fun _ he => he.2)
  cases a with
  | write2 bufs h cb =>
    simp only [apiCall, spec_bind, spec_pure]
    refine uvWrite2_tags.imp (fun ⟨r, w'⟩ ⟨h₀, h₁⟩ t ht => ?_) (fun _ => id)
    by_cases hr : r = 0
    · rw [(h₀ hr).1] at ht
      rcases List.mem_append.1 ht with ht | ht
      · exact hn t ht
      · rw [List.mem_singleton.1 ht]; cases cb <;> simp
    · exact hn t ((h₁ hr).1 ▸ ht)
  | tryWrite bufs =>
    simp only [apiCall, spec_bind, spec_pure]
    exact uvTryWrite_tags.imp (fun _ h => hn.of_sub h) (fun _ => id)
  | readStart a r =>
    simp only [apiCall, spec_bind, spec_pure]
    exact hk kept_uvReadStart (by unfold uvReadStart; simp)
  | readStop => exact hn.of_sub writesKept_uvReadStop.sub.tags
  | shutdown cb =>
    simp only [apiCall, spec_bind, spec_pure]
    unfold uvShutdown
    simp only [spec_bind, spec_check, spec_ite, spec_pure]
    exact ⟨fun _ => ⟨fun _ => hn, fun _ => ⟨fun _ => hn.of_sub (by simp [World.tags]), by simp⟩⟩,
      by simp⟩
  | close =>
    simp only [apiCall, uvClose, spec_bind, spec_check]
    refine ⟨fun _ => (streamClose_writes.and (by unfold streamClose; simp : NoAbort _)).imp
      (fun w' h => hn.of_sub ?_) (fun _ h => h.2), by simp⟩
    have hq := congrArg WriteSide.queue h.1
    have hc := congrArg WriteSide.completed h.1
    simp only [writes_queue, writes_completed] at hq hc
    simp [World.tags, hq, hc]
  | accept c =>
    simp only [apiCall, spec_bind, spec_pure]
    exact hk kept_uvAccept noAbort_uvAccept
  | listen cb =>
    simp only [apiCall, spec_bind, spec_pure]
    split
    · simp
    · simp only [spec_bind, spec_pure]
      exact hk kept_uvListen (by unfold uvListen; simp)
  | streamOpen fd readable writable blocking =>
    simp only [apiCall, spec_bind, spec_pure]
    split
    · simp
    · simp only [spec_bind, spec_pure]
      refine (@kept_streamOpen w w.s fd readable writable blocking |>.and noAbort_streamOpen).imp
        (fun ⟨_, s, w'⟩ ⟨⟨hs, hw⟩, _⟩ => ?_) (fun _ h => h.2)
      refine hn.of_sub ?_
      rcases hs with rfl | ⟨f, rfl⟩ <;> simp [World.tags, hw.queue, hw.completed]

theorem connect_noTry {cb : Bool} {e : Int} (hn : NoTry w) :
    Spec (connect w cb e) NoTry (· ≠ .abort) := by
  unfold connect; split
  · exact hn.of_sub (by simp [World.tags])
  · simp

/-- **No step calls `uv_try_write_cb`** on a stream none of whose requests
carries it, and none carries it after the step. -/
theorem Machine.step_noTry {m : Machine} {act : Action} {env : List Answer} (hn : NoTry m.w) :
    Spec (m.step act env) (fun m' => NoTry m'.w) (· ≠ .abort) := by
  obtain ⟨w, ctl⟩ := m
  have hn' : NoTry { w with env := env } := hn
  cases act with
  | api a =>
    simp only [Machine.step, spec_map]
    exact apiCall_noTry hn'
  | ret buf =>
    cases ctl with
    | idle => simp [Machine.step]
    | inCallback c k => exact resumeAll_noTry k hn'
  | dispatch d =>
    cases ctl with
    | idle => exact dispatch_noTry hn'
    | inCallback => simp [Machine.step]
  | connect cb e =>
    simp only [Machine.step, spec_map]
    exact connect_noTry hn'

/-- **No reachable machine has a request carrying `uv_try_write_cb` queued.** -/
theorem noTry_reachable {ok : User} {m : Machine} (h : Reachable ok m) : NoTry m.w :=
  h.induction (fun _ hi t ht => by
      obtain ⟨hq, hc, -⟩ := writes_eq.1 (initial_writes hi)
      simp [World.tags, hq, hc, WriteSide.initial] at ht)
    (fun _ _ ⟨_, _, _, hs⟩ hm => (Machine.step_noTry hm).of_ok hs)

/-- **No step of a reachable machine calls `uv_try_write_cb`.** -/
theorem step_ne_abort {ok : User} {m : Machine} (h : Reachable ok m) (act : Action)
    (env : List Answer) : m.step act env ≠ .error .abort :=
  fun he => (Machine.step_noTry (noTry_reachable h)).of_error he rfl

/-! ## The request of `uv_try_write` -/

section Withdraw

variable {a b : WriteSide}

/-- The requests below identity `k` have nothing left to write. -/
def WriteSide.zeroBelow (ws : WriteSide) (k : Nat) : Prop :=
  ∀ r ∈ ws.completed ++ ws.queue, r.id < k → r.pending = 0

/-- No move gives a request below the next identity bytes to write. -/
theorem WriteSide.zeroBelow.move {k : Nat} (h : WriteMove a b) (hk : k ≤ a.nextId)
    (hz : a.zeroBelow k) : b.zeroBelow k := by
  cases h <;> intro r hr hrk <;> dsimp only at hk hr <;>
    simp only [List.mem_append, List.mem_cons, List.mem_map, List.mem_filter, List.not_mem_nil,
      or_false] at hr
  case submit req bufs hid _ _ _ _ =>
    rcases hr with hr | hr | rfl
    exacts [hz r (by simp [hr]) hrk, hz r (by simp [hr]) hrk, absurd hrk (by omega)]
  case fail req _ _ _ _ _ _ _ _ _ =>
    rcases hr with (hr | rfl) | hr
    exacts [hz r (by simp [hr]) hrk, hz req (by simp) hrk, hz r (by simp [hr]) hrk]
  case sendAll req _ _ _ _ _ _ _ =>
    rcases hr with (hr | rfl) | hr
    exacts [hz r (by simp [hr]) hrk, pending_finished req, hz r (by simp [hr]) hrk]
  case sendPart req _ _ _ _ _ _ req' _ k' hid _ _ _ _ hflat _ =>
    rcases hr with hr | rfl | hr
    · exact hz r (by simp [hr]) hrk
    · have h0 := hz req (by simp) (hid ▸ hrk)
      rw [pending_eq_length] at h0 ⊢
      rw [hflat, List.length_drop]
      omega
    · exact hz r (by simp [hr]) hrk
  case flush =>
    rcases hr with hr | ⟨r', hr', rfl⟩
    exacts [hz r (by simp [hr]) hrk, hz r' (by simp [hr']) hrk]
  case complete req _ _ _ _ _ _ _ | completeNull req _ _ _ _ _ _ _ =>
    exact hz r (by rcases hr with hr | hr <;> simp [hr]) hrk
  case withdraw =>
    exact hz r (by rcases hr with hr | hr <;> simp [hr.1]) hrk
  all_goals exact hz r (by simpa using hr) hrk

theorem WriteSide.zeroBelow.moves {k : Nat} (h : WriteMoves a b) (hk : k ≤ a.nextId)
    (hz : a.zeroBelow k) : b.zeroBelow k := by
  induction h with
  | refl => exact hz
  | tail hab hm ih => exact ih.move hm (hk.trans (WriteMoves.nextId_le hab))

end Withdraw

theorem queueBytes_eq_zero {q : List WriteReq} (h : ∀ r ∈ q, r.pending = 0) : queueBytes q = 0 := by
  induction q with
  | nil => rfl
  | cons r q ih => simp [h r (.head _), ih fun r' hr' => h r' (.tail _ hr')]

theorem tryWriteReqSize_eq {req : WriteReq} (hle : (req.pending : Int) ≤ w.s.writeQueueSize) :
    tryWriteReqSize w req = .ok req.pending := by
  unfold tryWriteReqSize writeReqSize
  split
  · rename_i hb
    simp only [WriteReq.pending] at hle
    simp [hb, check, hle, WriteReq.pending]
  · rename_i hb
    simp only [ne_eq, not_not] at hb
    simp [WriteReq.pending, WriteReq.rest, hb]

/-- The request `uv_write` queued for `uv_try_write` on a stream with nothing
queued has every byte that `write_queue_size` counts after the call. -/
theorem size_eq_pending {w₁ : World} {req : WriteReq} (ok : WriteOk w.writes)
    (hz : w.s.writeQueueSize = 0) (hm : WriteMoves w.writes w₁.writes) (hn : w₁.nextId = w.nextId + 1)
    (hreq : req ∈ w₁.s.writeCompletedQueue ++ w₁.s.writeQueue) (hid : req.id = w.nextId) :
    w₁.s.writeQueueSize = req.pending := by
  have ok₁ := ok.moves hm
  have hz₀ : w.writes.zeroBelow w.nextId := fun r hr _ => by
    have := pending_le_queueBytes hr
    have := ok.size
    simp only [writes_size, writes_completed, writes_queue, queueBytes_append] at *
    omega
  have hz₁ := hz₀.moves hm le_rfl
  have hrest : queueBytes ((w₁.s.writeCompletedQueue ++ w₁.s.writeQueue).filter (·.id ≠ req.id)) = 0 :=
    queueBytes_eq_zero fun r hr => by
      obtain ⟨hr, hne⟩ := List.mem_filter.1 hr
      have hlt := ok₁.fresh r hr
      simp only [writes_nextId, hn, decide_eq_true_eq, hid] at hlt hne
      exact hz₁ r hr (by simp only [writes_nextId]; omega)
  have hord : ((w₁.s.writeCompletedQueue ++ w₁.s.writeQueue).map WriteReq.id).Pairwise (· < ·) :=
    ok₁.order
  have h₁ := queueBytes_filter_id (w₁.s.writeCompletedQueue ++ w₁.s.writeQueue) req.id
  rw [filter_id_eq_singleton hord hreq, hrest] at h₁
  have := ok₁.size
  simp only [writes_size, writes_completed, writes_queue, queueBytes_append] at this h₁
  simp at h₁
  omega

/-- **`uv_try_write` cleans up after itself.** Take a reachable machine whose
stream has no connect pending and nothing counted in `write_queue_size`, any
buffers and any answers with which the `uv_write` inside `uv_try_write`
returns 0. Then `uv_try_write` returns; its request, which has the identity the
stream gave out next, is on neither queue; the loop's request count and
`write_queue_size` are what they were; `POLLOUT` is off if it was off; and no
step of any run from there calls `uv_try_write_cb`. -/
theorem try_write_cleans_up {ok : User} {m : Machine} (h : Reachable ok m) (bufs : List Buf)
    (env : List Answer) (hc : m.w.s.connectReq = none) (hz : m.w.s.writeQueueSize = 0)
    (hw : (uvWrite { m.w with env := env } bufs .tryWrite).map Prod.fst = .ok 0) :
    ∃ r w', uvTryWrite { m.w with env := env } bufs = .ok (r, w') ∧
      (∀ req ∈ w'.s.writeQueue ++ w'.s.writeCompletedQueue, req.id ≠ m.w.nextId) ∧
      w'.activeReqs = m.w.activeReqs ∧ w'.s.writeQueueSize = 0 ∧
      (m.w.s.pollout = false → w'.s.pollout = false) ∧
      ∀ m', Relation.ReflTransGen (Step anyUser) ⟨w', m.ctl⟩ m' →
        ∀ act env', m'.step act env' ≠ .error .abort := by
  set W : World := { m.w with env := env } with hW
  have ok : WriteOk W.writes := (accounting_reachable h).writes
  obtain ⟨⟨r₀, w₁⟩, hu, hr₀⟩ : ∃ p, uvWrite W bufs .tryWrite = .ok p ∧ p.1 = 0 := by
    rcases hx : uvWrite W bufs .tryWrite with e | p
    · rw [hx] at hw; cases hw
    · rw [hx] at hw; exact ⟨p, rfl, by simpa [Except.map] using hw⟩
  dsimp only at hr₀
  subst hr₀
  obtain ⟨ht₁, hn₁, ha₁⟩ := (uvWrite2_tags.of_ok hu).1 rfl
  have hm₁ := ((uvWrite2_moves ok).of_ok hu).1
  dsimp only at ht₁ hn₁ ha₁ hm₁
  have ok₁ := ok.moves hm₁
  -- `uv_try_write` finds its request again
  obtain ⟨req, hfind⟩ : ∃ req,
      (w₁.s.writeQueue ++ w₁.s.writeCompletedQueue).find? (·.id = W.nextId) = some req := by
    have hmem : (W.nextId, WriteCb.tryWrite) ∈ w₁.tags := by rw [ht₁]; simp
    simp only [World.tags, reqTags, List.mem_map] at hmem
    obtain ⟨r, hr, he⟩ := hmem
    refine Option.isSome_iff_exists.1 (List.find?_isSome.2 ⟨r, ?_, by
      simpa using (Prod.mk.inj he).1⟩)
    simp only [List.mem_append] at hr ⊢
    exact hr.symm
  have hreq : req ∈ w₁.s.writeCompletedQueue ++ w₁.s.writeQueue := by
    have := List.mem_of_find?_eq_some hfind
    simp only [List.mem_append] at this ⊢
    exact this.symm
  have hid : req.id = W.nextId := by simpa using List.find?_some hfind
  have hsize := size_eq_pending ok hz hm₁ hn₁ hreq hid
  -- what it leaves
  have key : Spec (uvTryWrite W bufs) (fun p =>
      (∀ r ∈ p.2.s.writeQueue ++ p.2.s.writeCompletedQueue, r.id ≠ m.w.nextId) ∧
      p.2.activeReqs = m.w.activeReqs ∧ p.2.s.writeQueueSize = 0 ∧
      (m.w.s.pollout = false → p.2.s.pollout = false)) (fun _ => False) := by
    unfold uvTryWrite
    simp only [spec_bind, spec_ite, spec_pure]
    refine ⟨fun hcd => by simp [hW, hc, hz] at hcd, fun _ => Spec.of_eq_ok hu ?_⟩
    refine ⟨fun h => absurd rfl h, fun _ => ?_⟩
    rw [hfind]
    simp only [spec_bind]
    refine Spec.of_eq_ok (tryWriteReqSize_eq (by rw [hsize])) ?_
    have hids : ∀ r ∈ (w₁.s.writeQueue.filter (·.id ≠ W.nextId)) ++
        w₁.s.writeCompletedQueue.filter (·.id ≠ W.nextId), r.id ≠ m.w.nextId := by
      intro r hr
      simp only [List.mem_append, List.mem_filter, decide_eq_true_eq] at hr
      rcases hr with hr | hr <;> exact hr.2
    have ha : w₁.activeReqs - 1 = m.w.activeReqs := by rw [ha₁]; simp [hW]
    have hs : (w₁.subQueueSize req.pending).s.writeQueueSize = 0 := by simp [hsize]
    split <;> split <;> exact ⟨hids, ha, hs, by simp_all [hW]⟩
  obtain ⟨⟨r, w'⟩, hres, hids, ha, hs, hp⟩ := key.exists_ok
  refine ⟨r, w', hres, hids, ha, hs, hp, fun m' hrun act env' => ?_⟩
  have hstep : Step anyUser m ⟨w', m.ctl⟩ :=
    ⟨.api (.tryWrite bufs), env, fun _ _ => trivial, by simp [Machine.step, apiCall, ← hW, hres]⟩
  obtain ⟨m₀, h₀, hr⟩ := h
  exact step_ne_abort ⟨m₀, h₀, ((hr.mono fun _ _ ⟨a, e, _, hs⟩ =>
    ⟨a, e, fun _ _ => trivial, hs⟩).tail hstep).trans hrun⟩ act env'

/-- On the open TCP stream, `uv_try_write` of three bytes of which the kernel
takes one. -/
theorem try_write_short_cleans_up :
    (Machine.after .tcp false openTcp).w.s.connectReq = none ∧
      (Machine.after .tcp false openTcp).w.s.writeQueueSize = 0 ∧
      (uvWrite { (Machine.after .tcp false openTcp).w with env := [⟨1, []⟩] } [[1, 2, 3]]
        .tryWrite).map Prod.fst = .ok 0 ∧
      ∃ r w', uvTryWrite { (Machine.after .tcp false openTcp).w with env := [⟨1, []⟩] }
          [[1, 2, 3]] = .ok (r, w') ∧
        (∀ req ∈ w'.s.writeQueue ++ w'.s.writeCompletedQueue,
          req.id ≠ (Machine.after .tcp false openTcp).w.nextId) ∧
        w'.activeReqs = (Machine.after .tcp false openTcp).w.activeReqs ∧
        w'.s.writeQueueSize = 0 ∧
        ((Machine.after .tcp false openTcp).w.s.pollout = false → w'.s.pollout = false) ∧
        ∀ m', Relation.ReflTransGen (Step anyUser) ⟨w', (Machine.after .tcp false openTcp).ctl⟩ m' →
          ∀ act env', m'.step act env' ≠ .error .abort :=
  ⟨by decide, by decide, by decide, try_write_cleans_up (after_reachable _ _ _) [[1, 2, 3]]
    [⟨1, []⟩] (by decide) (by decide) (by decide)⟩

end UvStream
