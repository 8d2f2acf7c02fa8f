import UvStream.Proof.WriteStable

/-!
# The shutdown comes after the data

`uv_shutdown` asks for the write side of the descriptor to be shut once the
requests queued before it are written. `uv__drain`, the only caller of
`shutdown ()`, asserts that the write queue is empty; `uv__write` writes only
the head of the queue; and a request that leaves the queue never comes back. So
no request submitted before a `shutdown ()` has a write after it.

`Drained` says so of a trace, with the next identity and the write queue: at
every `shutdown` of the trace, the requests submitted before it are off the
queue and have no write after it; and every request submitted has an identity
below the next one. `World.Drained` is that of a world.

* `Drained.extend`, `Drained.write`, `Drained.shutdown`, `Drained.submit`: events
  that neither submit, write nor shut down, a write of a queued request, a
  `shutdown` with the queue empty, and a new request keep it.
* `readStable_drained`: it is decided by the write side alone, so the read
  path keeps it.
* The pieces of every dispatch and every call of the user keep it
  (`drained_streamIo`, `drained_streamDestroy`, `drained_resume`,
  `drained_apiCall`).
* `shutdown_after_queued_writes`: **in every reachable machine, a request
  submitted before a `shutdown ()` is off the write queue and has no write
  after it.**
-/

namespace UvStream

/-! ## The order on a trace -/

/-- Whether the event writes for the request `i`. -/
def Event.writeOf (i : Nat) : Event → Bool
  | .write _ j _ _ _ => j == i
  | _ => false

/-- Whether the event neither submits a write request, writes, nor shuts the
descriptor down. -/
@[simp] def Event.plain : Event → Bool
  | .submit _ | .write .. | .shutdown .. => false
  | _ => true

/-- At every `shutdown` of the trace `t`, the requests submitted before it are
off the write queue `q` and have no write after it; every request submitted has
an identity below the next one, `n`. -/
structure Drained (t : List Event) (n : Nat) (q : List WriteReq) : Prop where
  fresh : ∀ r ∈ submits t, r.id < n
  after : ∀ t₁ fd st t₂, t = t₁ ++ .shutdown fd st :: t₂ → ∀ r ∈ submits t₁,
    r.id ∉ q.map WriteReq.id ∧ ∀ e ∈ t₂, e.writeOf r.id = false

variable {t t₁ t₂ u : List Event} {n n' : Nat} {q q' : List WriteReq} {x : Event}

/-- An event of `t ++ u` is one of `t`, or one of `u`. -/
theorem split_at_event (h : t ++ u = t₁ ++ x :: t₂) :
    (∃ t₂', t₂ = t₂' ++ u ∧ t = t₁ ++ x :: t₂') ∨ ∃ u₁, u = u₁ ++ x :: t₂ ∧ t₁ = t ++ u₁ := by
  rcases List.append_eq_append_iff.1 h.symm with ⟨a, rfl, ha⟩ | ⟨c, rfl, hc⟩
  · cases a with
    | nil => exact .inr ⟨[], by simpa using ha.symm, by simp⟩
    | cons y a =>
      obtain ⟨rfl, rfl⟩ := List.cons_eq_cons.1 ha
      exact .inl ⟨a, rfl, rfl⟩
  · exact .inr ⟨c, hc, rfl⟩

theorem submits_of_plain (hu : ∀ e ∈ u, e.plain) : submits u = [] :=
  List.filterMap_eq_nil_iff.2 fun e he => by
    have := hu e he
    cases e <;> simp_all [Event.submitted]

theorem writeOf_of_plain (he : x.plain) (i : Nat) : x.writeOf i = false := by
  cases x <;> simp_all [Event.writeOf]

theorem Drained.nil : Drained [] n q :=
  ⟨by simp, fun _ _ _ _ h => by simp at h⟩

/-- **Events that neither submit, write nor shut down**, with the queue losing
requests and identities handed out, keep the order. -/
theorem Drained.extend (h : Drained t n q) (hu : ∀ e ∈ u, e.plain) (hn : n ≤ n')
    (hq : q'.map WriteReq.id ⊆ q.map WriteReq.id) : Drained (t ++ u) n' q' := by
  refine ⟨fun r hr => ?_, fun t₁ fd st t₂ hs r hr => ?_⟩
  · rw [submits_append, submits_of_plain hu, List.append_nil] at hr
    exact (h.fresh r hr).trans_le hn
  · rcases split_at_event hs with ⟨t₂', rfl, hs'⟩ | ⟨u₁, hu₁, -⟩
    · obtain ⟨hq', hw'⟩ := h.after t₁ fd st t₂' hs' r hr
      refine ⟨fun hi => hq' (hq hi), fun e he => ?_⟩
      rcases List.mem_append.1 he with he | he
      exacts [hw' e he, writeOf_of_plain (hu e he) _]
    · exact absurd (hu (.shutdown fd st) (by rw [hu₁]; simp)) (by simp)

/-- A prefix of an ordered trace is ordered. -/
theorem Drained.of_append (h : Drained (t ++ u) n q) : Drained t n q := by
  refine ⟨fun r hr => h.fresh r (by simp [hr]), fun t₁ fd st t₂ hs r hr => ?_⟩
  obtain ⟨hq, hw⟩ := h.after t₁ fd st (t₂ ++ u) (by simp [hs]) r hr
  exact ⟨hq, fun e he => hw e (List.mem_append_left _ he)⟩

@[simp] theorem drained_append_plain (hu : ∀ e ∈ u, e.plain) :
    Drained (t ++ u) n q ↔ Drained t n q :=
  ⟨Drained.of_append, fun h => h.extend hu le_rfl (List.Subset.refl _)⟩

/-- **A write of a queued request** keeps the order. -/
theorem Drained.write {fd ret : Int} {i : Nat} {hd : Option Int} {b : List UInt8}
    (h : Drained t n q) (hi : i ∈ q.map WriteReq.id) :
    Drained (t ++ [.write fd i hd ret b]) n q := by
  refine ⟨fun r hr => h.fresh r (by simpa [Event.submitted] using hr),
    fun t₁ fd' st t₂ hs r hr => ?_⟩
  rcases split_at_event hs with ⟨t₂', rfl, hs'⟩ | ⟨u₁, hu₁, -⟩
  · obtain ⟨hq, hw⟩ := h.after t₁ fd' st t₂' hs' r hr
    refine ⟨hq, fun e he => ?_⟩
    rcases List.mem_append.1 he with he | he
    · exact hw e he
    · obtain rfl := List.mem_singleton.1 he
      simp only [Event.writeOf, beq_eq_false_iff_ne]
      rintro rfl
      exact hq hi
  · cases u₁ with
    | nil => cases hu₁
    | cons _ _ => simp at hu₁

/-- **A `shutdown` with the write queue empty** keeps the order. -/
theorem Drained.shutdown {fd st : Int} (h : Drained t n []) :
    Drained (t ++ [.shutdown fd st]) n [] := by
  refine ⟨fun r hr => h.fresh r (by simpa [Event.submitted] using hr),
    fun t₁ fd' st' t₂ hs r hr => ?_⟩
  rcases split_at_event hs with ⟨t₂', rfl, hs'⟩ | ⟨u₁, hu₁, -⟩
  · obtain ⟨hq, hw⟩ := h.after t₁ fd' st' t₂' hs' r hr
    refine ⟨hq, fun e he => ?_⟩
    rcases List.mem_append.1 he with he | he
    · exact hw e he
    · obtain rfl := List.mem_singleton.1 he
      rfl
  · cases u₁ with
    | nil =>
      obtain ⟨-, rfl⟩ := List.cons_eq_cons.1 hu₁
      exact ⟨by simp, by simp⟩
    | cons _ _ => simp at hu₁

/-- **A new request**, with the next identity, keeps the order. -/
theorem Drained.submit {r : WriteReq} (h : Drained t n q) (hid : r.id = n) :
    Drained (t ++ [.submit r]) (n + 1) (q ++ [r]) := by
  refine ⟨fun r' hr => ?_, fun t₁ fd st t₂ hs r' hr => ?_⟩
  · simp only [submits_append, submits_singleton, Event.submitted, Option.toList_some,
      List.mem_append, List.mem_singleton] at hr
    rcases hr with hr | rfl
    exacts [(h.fresh r' hr).trans (Nat.lt_succ_self _), hid ▸ Nat.lt_succ_self _]
  · rcases split_at_event hs with ⟨t₂', rfl, hs'⟩ | ⟨u₁, hu₁, -⟩
    · obtain ⟨hq, hw⟩ := h.after t₁ fd st t₂' hs' r' hr
      have hlt := h.fresh r' (by rw [hs', submits_append]; exact List.mem_append_left _ hr)
      refine ⟨?_, fun e he => ?_⟩
      · simp only [List.map_append, List.map_singleton, List.mem_append, List.mem_singleton, not_or]
        exact ⟨hq, by omega⟩
      rcases List.mem_append.1 he with he | he
      · exact hw e he
      · obtain rfl := List.mem_singleton.1 he
        rfl
    · cases u₁ with
      | nil => cases hu₁
      | cons _ _ => simp at hu₁

/-! ## The order of a world -/

/-- The order of the trace of `w`, with its next identity and write queue. -/
def World.Drained (w : World) : Prop := UvStream.Drained w.trace w.nextId w.s.writeQueue

variable {w w' : World}

/-- A world whose trace grew by events that neither submit, write nor shut
down, whose queue lost requests, and whose identities were handed out. -/
theorem World.Drained.of (h : w.Drained) (ht : w'.trace = w.trace ++ u) (hu : ∀ e ∈ u, e.plain)
    (hn : w.nextId ≤ w'.nextId)
    (hq : w'.s.writeQueue.map WriteReq.id ⊆ w.s.writeQueue.map WriteReq.id) : w'.Drained := by
  unfold World.Drained; rw [ht]; exact UvStream.Drained.extend h hu hn hq

theorem World.Drained.emit {e : Event} (h : w.Drained) (he : e.plain) : (w.emit e).Drained :=
  h.of rfl (by simpa using he) le_rfl (List.Subset.refl _)

theorem World.Drained.congr (h : w.Drained) (ht : w'.trace = w.trace) (hn : w'.nextId = w.nextId)
    (hq : w'.s.writeQueue = w.s.writeQueue) : w'.Drained := by
  unfold World.Drained; rw [ht, hn, hq]; exact h

/-- A world whose write queue lost requests, all else of the order kept. -/
theorem World.Drained.shrink (h : w.Drained) (ht : w'.trace = w.trace) (hn : w'.nextId = w.nextId)
    (hq : w'.s.writeQueue.map WriteReq.id ⊆ w.s.writeQueue.map WriteReq.id) : w'.Drained :=
  h.of (u := []) (by simp [ht]) (by simp) hn.ge hq

theorem World.Drained.subQueueSize {k : Int} (h : w.Drained) : (w.subQueueSize k).Drained := by
  unfold World.subQueueSize; split
  exacts [h.emit rfl, h]

/-- The head request leaves the write queue for the completed queue. -/
theorem World.Drained.writeReqFinish {req : WriteReq} (req' : WriteReq) {rest : List WriteReq}
    (h : w.Drained) (hq : w.s.writeQueue = req :: rest) : (UvStream.writeReqFinish w req' rest).Drained :=
  h.shrink rfl rfl (by simp [UvStream.writeReqFinish, hq])

/-- A write of the request `i` on the write queue. -/
theorem World.Drained.emit_write {fd ret : Int} {i : Nat} {hd : Option Int} {b : List UInt8}
    (h : w.Drained) (hi : i ∈ w.s.writeQueue.map WriteReq.id) :
    (w.emit (.write fd i hd ret b)).Drained :=
  UvStream.Drained.write h hi

theorem World.Drained.writeReqQueue {bufs : List Buf} {hd : Option Int} {cb : WriteCb}
    (h : w.Drained) : (UvStream.writeReqQueue w bufs hd cb).Drained :=
  UvStream.Drained.submit h rfl

theorem Event.plain_of_isRead {e : Event} (he : e.isRead) : e.plain := by
  cases e <;> simp_all [Event.isRead]

/-- The order is decided by the write side alone: the read path keeps it. -/
theorem readStable_drained : ReadStable World.Drained where
  congr h hc := by
    simp only [World.core, Prod.mk.injEq] at hc
    exact h.congr hc.1 hc.2.2.1 hc.2.2.2.1
  emit he h := h.emit (Event.plain_of_isRead he)

/-! ## The write path -/

/-- The write path keeps the order: it writes only for the head of the queue. -/
theorem writeStable_drained : WriteStable World.Drained where
  toReadStable := readStable_drained
  emitWrite hq h := h.emit_write (by simp [hq])
  subQueueSize h := h.subQueueSize
  finish hq _ h := h.writeReqFinish _ hq
  retag hq hid h := h.shrink rfl rfl (by simp [hq, hid])
  retire _ h := h
  called h := h.emit rfl
  flush h := h.shrink rfl rfl (by simp [streamFlushWriteQueue])

/-- **`uv__drain`** shuts the descriptor down only with the write queue empty. -/
theorem drained_drain (h : w.Drained) : KeepSeg World.Drained (drain w) := by
  unfold drain
  simp only [spec_bind, spec_check]
  refine ⟨fun hq => ?_, fun _ => trivial⟩
  have hs : ∀ {w₂ : World} {fd st : Int}, w₂.trace = w.trace ++ [.shutdown fd st] →
      w₂.nextId = w.nextId → w₂.s.writeQueue = [] → w₂.Drained := fun ht hn hq₂ => by
    unfold World.Drained; rw [ht, hn, hq₂]; exact Drained.shutdown (hq ▸ h)
  split
  · split
    · simp only [spec_bind, spec_answer, spec_ite, spec_pure, Seg.world_some, Seg.world_none]
      refine ⟨fun _ => trivial, fun a as _ => ⟨fun _ => World.Drained.emit ?_ rfl, fun _ => ?_⟩⟩ <;>
        split <;> exact hs rfl rfl hq
    · trivial
  · exact h

theorem drained_ioDrain (h : w.Drained) : KeepSeg World.Drained (ioDrain w) := by
  unfold ioDrain; split
  exacts [drained_drain h, h]

/-- `uv_shutdown` starts its request with the next identity. -/
theorem drained_uvShutdown {cb : Bool} (h : w.Drained) :
    Spec (uvShutdown w cb) (fun p => p.2.Drained) (fun _ => True) := by
  unfold uvShutdown
  simp only [spec_bind, spec_check, spec_ite, spec_pure]
  exact ⟨fun _ => ⟨fun _ => h, fun _ => ⟨fun _ => h.of (u := [.submitShutdown ⟨w.nextId, cb⟩]) rfl
    (by simp) (Nat.le_succ _) (List.Subset.refl _), fun _ => trivial⟩⟩, fun _ => trivial⟩

theorem drained_writeBufsAlloc {k : Nat} (h : w.Drained) :
    Spec (writeBufsAlloc w k) (fun p => p.2.Drained) (fun _ => True) :=
  writeBufsAlloc_spec.imp (fun _ hp => hp ▸ h) (fun _ _ => trivial)

theorem drained_uvWrite2 {bufs : List Buf} {hd : Option Int} {cb : WriteCb} (h : w.Drained) :
    Spec (uvWrite2 w bufs hd cb) (fun p => p.2.Drained) (fun _ => True) := by
  unfold uvWrite2
  simp only [spec_bind, spec_check, spec_ite, spec_pure]
  refine ⟨fun _ => ⟨fun _ => ⟨fun _ => h, fun _ => ⟨fun _ => h, fun _ => ⟨fun _ => h,
    fun _ => (drained_writeBufsAlloc (w := { w with activeReqs := w.activeReqs + 1 }) h).imp
      (fun ⟨good, w₁⟩ h₁ => ?_) (fun _ _ => trivial)⟩⟩⟩, fun _ => trivial⟩, fun _ => trivial⟩
  have h₂ : (writeReqQueue w₁ bufs hd cb).Drained := h₁.writeReqQueue
  exact ⟨fun _ => h₁, fun _ => ⟨fun _ => h₂, fun _ => ⟨fun _ => (writeStable_drained.write h₂).imp
    (fun _ h => h) (fun _ _ => trivial), fun _ => ⟨fun _ => h₂, fun _ => trivial⟩⟩⟩⟩

/-- `uv_try_write` takes its request off both queues. -/
theorem drained_uvTryWrite {bufs : List Buf} (h : w.Drained) :
    Spec (uvTryWrite w bufs) (fun p => p.2.Drained) (fun _ => True) := by
  unfold uvTryWrite uvWrite
  simp only [spec_bind, spec_ite, spec_pure]
  refine ⟨fun _ => h, fun _ => (drained_uvWrite2 h).imp (fun ⟨r, w₁⟩ h₁ => ?_) (fun _ _ => trivial)⟩
  dsimp only at h₁ ⊢
  refine ⟨fun _ => h₁, fun _ => ?_⟩
  split
  · simp only [spec_bind]
    refine Spec.of_forall (fun size => ?_) (fun _ => trivial)
    have h₂ : ∀ {w₂ : World}, w₂.trace = (w₁.subQueueSize size).trace →
        w₂.nextId = (w₁.subQueueSize size).nextId →
        w₂.s.writeQueue = w₁.s.writeQueue.filter (·.id ≠ w.nextId) → w₂.Drained := fun ht hn hq =>
      h₁.subQueueSize.shrink ht hn
        (by rw [hq]; simpa using List.map_subset _ (List.filter_subset' _))
    simp only [spec_ite, spec_pure]
    refine ⟨fun _ => ?_, fun _ => ?_⟩ <;> split <;> exact h₂ rfl rfl rfl
  · trivial

/-! ## Closing, connecting and the stream watcher -/

theorem drained_destroyCheck (h : w.Drained) : KeepSeg World.Drained (destroyCheck w) := by
  simp only [destroyCheck, spec_bind, spec_check, spec_pure]
  exact ⟨fun _ => h, fun _ => trivial⟩

theorem drained_destroyEnd (h : w.Drained) : KeepSeg World.Drained (destroyEnd w) := drained_destroyCheck h

theorem drained_destroyShutdown (h : w.Drained) : KeepSeg World.Drained (destroyShutdown w) := by
  unfold destroyShutdown; split
  · split
    exacts [h.emit rfl, trivial]
  · exact drained_destroyCheck h

theorem drained_destroyWrites (h : w.Drained) : KeepSeg World.Drained (destroyWrites w) :=
  (writeStable_drained.writeCallbacks (writeStable_drained.flush h)).andThen fun _ => drained_destroyShutdown

theorem drained_destroyConnected (h : w.Drained) : KeepSeg World.Drained (destroyConnected w) :=
  drained_destroyWrites h

/-- `uv__stream_destroy` cancels what is pending. -/
theorem drained_streamDestroy (h : w.Drained) : KeepSeg World.Drained (streamDestroy w) := by
  unfold streamDestroy
  simp only [spec_bind, spec_check]
  refine ⟨fun _ => ⟨fun _ => ?_, fun _ => trivial⟩, fun _ => trivial⟩
  split
  · split
    exacts [h.emit rfl, trivial]
  · exact drained_destroyWrites h

theorem drained_connectError (h : w.Drained) :
    Spec (connectError w) (fun p => p.2.Drained) (fun _ => True) := by
  unfold World.Drained at h; unfold connectError; split <;> simp [World.Drained, h]

theorem drained_connectDone {req : ConnectReq} {error : Int} (h : w.Drained) :
    KeepSeg World.Drained (connectDone w req error) := by
  unfold connectDone
  dsimp only
  split
  · exact World.Drained.emit (by split <;> exact h) rfl
  · exact writeStable_drained.connectAfterCb (by split <;> exact h)

theorem drained_streamConnect (h : w.Drained) : KeepSeg World.Drained (streamConnect w) := by
  unfold streamConnect
  simp only [spec_bind, spec_check]
  refine ⟨fun _ => ?_, fun _ => trivial⟩
  split
  · simp only [spec_bind, spec_ite, spec_pure]
    exact (drained_connectError h).imp (fun _ h₁ => ⟨fun _ => h₁, fun _ => drained_connectDone h₁⟩)
      (fun _ _ => trivial)
  · trivial

theorem drained_ioAfterEof {ev : Events} (h : w.Drained) : KeepSeg World.Drained (ioAfterEof w ev) := by
  unfold ioAfterEof
  simp only [spec_bind, spec_ite, spec_pure]
  exact ⟨fun _ => h, fun _ => ⟨fun _ => (writeStable_drained.write h).imp (fun _ h₁ =>
    (writeStable_drained.writeCallbacks h₁).andThen fun _ => drained_ioDrain) (fun _ _ => trivial), fun _ => h⟩⟩

theorem drained_ioAfterRead {ev : Events} (h : w.Drained) : KeepSeg World.Drained (ioAfterRead w ev) := by
  unfold ioAfterRead; split
  · exact h
  · split
    exacts [(readStable_drained.streamEof h).andThen fun _ => drained_ioAfterEof, drained_ioAfterEof h]

/-- **`uv__stream_io`** keeps the order, whichever of its pieces runs. -/
theorem drained_streamIo {ev : Events} (h : w.Drained) : KeepSeg World.Drained (streamIo w ev) := by
  unfold streamIo
  simp only [spec_bind, spec_check, spec_ite]
  refine ⟨fun _ => ⟨fun _ => ⟨fun _ => drained_streamConnect h, fun _ => ⟨fun _ => ⟨fun _ =>
    (readStable_drained.read h).andThen fun _ => drained_ioAfterRead, fun _ => drained_ioAfterRead h⟩,
    fun _ => trivial⟩⟩, fun _ => trivial⟩, fun _ => trivial⟩

/-- **Every frame** keeps the order. -/
theorem drained_resume {buf : Buffer} (f : Frame) (h : w.Drained) : KeepSeg World.Drained (resume w buf f) := by
  cases f with
  | readAfterAlloc => exact readStable_drained.readAfterAlloc h
  | readAfterData => exact readStable_drained.readAfterData h
  | readAfterError => exact readStable_drained.readAfterError h
  | eofClear => exact h
  | ioAfterRead => exact drained_ioAfterRead h
  | ioAfterEof => exact drained_ioAfterEof h
  | writeCallbacks => exact writeStable_drained.writeCallbacks h
  | ioDrain => exact drained_ioDrain h
  | connectAfterCb => exact writeStable_drained.connectAfterCb h
  | serverAfterAccept => exact readStable_drained.serverAfterAccept h
  | serverAfterError => exact readStable_drained.serverLoop h
  | destroyConnected => exact drained_destroyConnected h
  | destroyShutdown => exact drained_destroyShutdown h
  | destroyEnd => exact drained_destroyEnd h

/-! ## Every run -/

/-- **Every call of the user** keeps the order. -/
theorem drained_apiCall {a : Api} (h : w.Drained) :
    Spec (apiCall w a) World.Drained (fun _ => True) :=
  readStable_drained.apiCall drained_uvWrite2 drained_uvTryWrite drained_uvShutdown h

theorem drained_dispatch {d : Dispatch} (h : w.Drained) :
    Spec (dispatch w d) (fun m => m.w.Drained) (fun _ => True) := by
  cases d with
  | io ev =>
    simp only [dispatch]
    split
    · trivial
    · split
      · exact settle_keeps World.Drained (drained_streamIo h)
      · split
        exacts [settle_keeps World.Drained (readStable_drained.serverIo h), trivial]
  | finishClose =>
    simp only [dispatch]
    split
    exacts [settle_keeps World.Drained (drained_streamDestroy h), trivial]

/-- A transport's connect starts its request with the next identity. -/
theorem drained_connect {cb : Bool} {e : Int} (h : w.Drained) :
    Spec (connect w cb e) World.Drained (fun _ => True) := by
  unfold connect; split
  · exact h.of (u := [.submitConnect ⟨w.nextId, cb⟩]) rfl (by simp) (Nat.le_succ _)
      (List.Subset.refl _)
  · trivial

/-- **Every step keeps the order.** -/
theorem Machine.step_drained {m : Machine} {act : Action} {env : List Answer} (h : m.w.Drained) :
    Spec (m.step act env) (fun m' => m'.w.Drained) (fun _ => True) := by
  obtain ⟨w, ctl⟩ := m
  have h' : World.Drained { w with env := env } := h
  cases act with
  | api a => simpa [Machine.step] using drained_apiCall h'
  | ret buf =>
    cases ctl with
    | idle => trivial
    | inCallback c k => exact resumeAll_keeps World.Drained (fun _ f hw => drained_resume f hw) k h'
  | dispatch d =>
    cases ctl with
    | idle => exact drained_dispatch h'
    | inCallback => trivial
  | connect cb e => simpa [Machine.step] using drained_connect h'

theorem drained_initial {m : Machine} (h : Initial m) : m.w.Drained := by
  obtain ⟨w₀, type, ipc, htr, -, hinit, -⟩ := h
  obtain ⟨-, ht, -⟩ := streamInit_spec.of_ok hinit
  unfold World.Drained; rw [ht, htr]; exact .nil

theorem drained_reachable {ok : User} {m : Machine} (h : Reachable ok m) : m.w.Drained :=
  h.induction (fun _ => drained_initial) fun _ _ ⟨_, _, _, hs⟩ hd => (Machine.step_drained hd).of_ok hs

/-- **The shutdown comes after the data.** In every reachable machine, a write
request submitted before a `shutdown ()` of the trace is off the write queue,
and the trace has no write for it after the `shutdown ()`. -/
theorem shutdown_after_queued_writes {ok : User} {m : Machine} (h : Reachable ok m)
    {t₁ t₂ : List Event} {fd st : Int} (ht : m.w.trace = t₁ ++ .shutdown fd st :: t₂) :
    ∀ r ∈ submits t₁, r.id ∉ m.w.s.writeQueue.map WriteReq.id ∧
      ∀ fd' hd ret b, Event.write fd' r.id hd ret b ∉ t₂ := by
  intro r hr
  obtain ⟨hq, hw⟩ := (drained_reachable h).after t₁ fd st t₂ ht r hr
  exact ⟨hq, fun fd' hd ret b he => by simpa [Event.writeOf] using hw _ he⟩

/-- A TCP stream on descriptor 7 writes two bytes, of which the kernel takes
one; the user shuts the stream down. At the next `POLLOUT` the other byte goes
out, then the `shutdown ()`; a write submitted after it goes out after it. -/
def shutdownAfterShortWrite : List (Action × List Answer) :=
  [(.api (.streamOpen 7 true true false), []), (.api (.write2 [[1, 2]] none false), [⟨1, []⟩]),
   (.api (.shutdown false), []), (.dispatch (.io ⟨false, true, false, false⟩), [⟨1, []⟩, ⟨0, []⟩]),
   (.api (.write2 [[3]] none false), [⟨1, []⟩])]

/-- The trace of that run, up to the `shutdown ()`. -/
def beforeShutdown : List Event :=
  [.submit ⟨0, .null, 0, none, some [[1, 2]], 0⟩, .write 7 0 none 1 [1], .submitShutdown ⟨1, false⟩,
   .write 7 0 none 1 [2]]

theorem shutdown_after_short_write :
    (Machine.after .tcp false shutdownAfterShortWrite).w.trace = beforeShutdown ++ .shutdown 7 0 ::
      [.submit ⟨2, .null, 0, none, some [[3]], 0⟩, .write 7 2 none 1 [3]] ∧
    ∀ r ∈ submits beforeShutdown,
      r.id ∉ (Machine.after .tcp false shutdownAfterShortWrite).w.s.writeQueue.map WriteReq.id ∧
      ∀ fd' hd ret b, Event.write fd' r.id hd ret b ∉
        [.submit ⟨2, .null, 0, none, some [[3]], 0⟩, .write 7 2 none 1 [3]] := by
  have ht : (Machine.after .tcp false shutdownAfterShortWrite).w.trace = beforeShutdown ++
      .shutdown 7 0 :: [.submit ⟨2, .null, 0, none, some [[3]], 0⟩, .write 7 2 none 1 [3]] := by
    decide
  exact ⟨ht, shutdown_after_queued_writes (after_reachable _ _ _) ht⟩

end UvStream
