import UvStream.Proof.WriteStable

/-!
# The loop's count of active requests covers the stream's requests

`uv__req_init` counts a request in the loop's `active_reqs` when `uv_write2`,
`uv_shutdown` or a transport's connect starts it, and `uv__req_unregister`
takes it off again: `uv__write_callbacks` for each completed write request,
`uv__drain` for the shutdown it carries out, `uv__stream_connect` for the
connect that finished, `uv__stream_destroy` for the shutdown and connect it
cancels, and `uv_try_write` for its own request.

`World.owed` is the number of the stream's requests still counted: every
request on the write queue or the completed queue, and the pending shutdown and
connect requests that have not been called back (`uv__stream_destroy`
unregisters those before their callback and clears the slot after it).
`World.Counted b` says that `active_reqs` is at least `b` plus that number, and
`World.Live` that the pending shutdown and connect have not been called back.

* `owed_emit_le`: an event only lowers the number, since it can only call a
  request back.
* `writeStable_counted`, `writeStable_live`: the moves of the write path keep
  both; so does the read path.
* `counted_drain`, `counted_connectDone`, `counted_streamDestroy`,
  `counted_uvTryWrite`: each unregistering takes off the stream a request that
  was counted, since it had not been called back.
* `Machine.step_counted`, and `active_reqs_cover_pending`: **along every run,
  `active_reqs` is at least its value after `uv__stream_init` plus the requests
  the stream holds.** So the loop has an active request while the stream holds
  one, and no unregistering takes the count below its first value.
-/

namespace UvStream

/-! ## The requests a stream holds -/

/-- What a request slot of the stream, `shutdown_req` or `connect_req`, holds of
`active_reqs`: one while it holds a request that `calls` does not call back. -/
def slotOwed {α : Type} (idOf : α → Nat) (calls : List Nat) : Option α → Int
  | some r => if idOf r ∈ calls then 0 else 1
  | none => 0

/-- The requests of the stream still counted in `active_reqs`: those of both
write queues, and the pending shutdown and connect not yet called back. -/
def World.owed (w : World) : Int :=
  w.s.writeQueue.length + w.s.writeCompletedQueue.length +
    slotOwed ShutdownReq.id (shutdownCalls w.trace) w.s.shutdownReq +
    slotOwed ConnectReq.id (connectCalls w.trace) w.s.connectReq

/-- `active_reqs` counts `b` besides the requests the stream holds. -/
def World.Counted (b : Int) (w : World) : Prop := b + w.owed ≤ w.activeReqs

/-- The pending shutdown and connect requests have not been called back. -/
structure World.Live (w : World) : Prop where
  shutdown : ∀ s, w.s.shutdownReq = some s → s.id ∉ shutdownCalls w.trace
  connect : ∀ r, w.s.connectReq = some r → r.id ∉ connectCalls w.trace

section Slot

variable {α : Type} {idOf : α → Nat} {calls : List Nat}

theorem slotOwed_nonneg (o : Option α) : 0 ≤ slotOwed idOf calls o := by
  cases o with
  | none => exact le_rfl
  | some r => unfold slotOwed; split <;> omega

theorem slotOwed_le_one (o : Option α) : slotOwed idOf calls o ≤ 1 := by
  cases o with
  | none => exact zero_le_one
  | some r => unfold slotOwed; split <;> omega

@[simp] theorem slotOwed_none : slotOwed idOf calls (none : Option α) = 0 := rfl

/-- More calls only lower what a slot holds. -/
theorem slotOwed_append (more : List Nat) (o : Option α) :
    slotOwed idOf (calls ++ more) o ≤ slotOwed idOf calls o := by
  cases o with
  | none => exact le_rfl
  | some r =>
    by_cases h : idOf r ∈ calls
    · simp [slotOwed, h]
    · simp only [slotOwed, List.mem_append, h, false_or, if_false]
      split <;> omega

end Slot

variable {b : Int} {w w' : World}

/-- **An event only lowers what the stream holds**: it can call a request back,
never start one. -/
theorem owed_emit_le (e : Event) : (w.emit e).owed ≤ w.owed := by
  have h₁ := @slotOwed_append _ ShutdownReq.id (shutdownCalls w.trace) (shutdownCalls [e])
    w.s.shutdownReq
  have h₂ := @slotOwed_append _ ConnectReq.id (connectCalls w.trace) (connectCalls [e])
    w.s.connectReq
  simp only [World.owed, emit_s, emit_trace, shutdownCalls_append, connectCalls_append]
  omega

/-- A change that lowers what the stream holds by at least what it takes off
`active_reqs` keeps the count. -/
theorem World.Counted.of_le (h : w.Counted b)
    (hle : w'.owed - w.owed ≤ w'.activeReqs - w.activeReqs) : w'.Counted b := by
  unfold World.Counted at *; omega

theorem World.Counted.emit (h : w.Counted b) (e : Event) : (w.emit e).Counted b :=
  h.of_le (by have := owed_emit_le (w := w) e; simp only [emit_activeReqs]; omega)

theorem World.Counted.congr (h : w.Counted b) (hc : w'.core = w.core) : w'.Counted b := by
  simp only [World.core, Prod.mk.injEq] at hc
  obtain ⟨ht, ha, -, hq, hcq, -, hs, hcn⟩ := hc
  unfold World.Counted World.owed
  rw [ht, ha, hq, hcq, hs, hcn]
  exact h

theorem World.Counted.mono {b' : Int} (h : w.Counted b) (hb : b' ≤ b) : w.Counted b' := by
  unfold World.Counted at *; omega

/-- The shutdown or connect pending, called back, leaves what the stream holds. -/
theorem owed_call_shutdown {s : ShutdownReq} (hs : w.s.shutdownReq = some s)
    (hu : s.id ∉ shutdownCalls w.trace) (st : Int) :
    (w.emit (.call (.shutdown s.id st))).owed + 1 = w.owed := by
  have h₁ : shutdownCalls [Event.call (.shutdown s.id st)] = [s.id] := rfl
  have h₂ : connectCalls [Event.call (.shutdown s.id st)] = [] := rfl
  simp only [World.owed, emit_s, emit_trace, shutdownCalls_append, connectCalls_append, h₁, h₂,
    List.append_nil, hs, slotOwed, if_neg hu, List.mem_append, List.mem_singleton, or_true,
    if_true]
  omega

theorem owed_call_connect {r : ConnectReq} (hr : w.s.connectReq = some r)
    (hu : r.id ∉ connectCalls w.trace) (st : Int) :
    (w.emit (.call (.connect r.id st))).owed + 1 = w.owed := by
  have h₁ : connectCalls [Event.call (.connect r.id st)] = [r.id] := rfl
  have h₂ : shutdownCalls [Event.call (.connect r.id st)] = [] := rfl
  simp only [World.owed, emit_s, emit_trace, shutdownCalls_append, connectCalls_append, h₁, h₂,
    List.append_nil, hr, slotOwed, if_neg hu, List.mem_append, List.mem_singleton, or_true,
    if_true]
  omega

/-! ## Requests not called back -/

theorem World.Live.congr (h : w.Live) (hc : w'.core = w.core) : w'.Live := by
  simp only [World.core, Prod.mk.injEq] at hc
  obtain ⟨ht, -, -, -, -, -, hs, hcn⟩ := hc
  exact ⟨fun s h' => ht ▸ h.shutdown s (hs ▸ h'), fun r h' => ht ▸ h.connect r (hcn ▸ h')⟩

/-- An event that calls back no shutdown and no connect. -/
theorem World.Live.emit (h : w.Live) {e : Event} (hs : shutdownCalls [e] = [])
    (hc : connectCalls [e] = []) : (w.emit e).Live :=
  ⟨fun s hs' => by
    simpa only [emit_trace, shutdownCalls_append, hs, List.append_nil] using h.shutdown s hs',
  fun r hr => by
    simpa only [emit_trace, connectCalls_append, hc, List.append_nil] using h.connect r hr⟩

/-- An event of the read side calls back no shutdown and no connect. -/
theorem calls_of_isRead {e : Event} (he : e.isRead) :
    shutdownCalls [e] = [] ∧ connectCalls [e] = [] := by
  cases e <;> try cases ‹Callback›
  all_goals first
    | exact ⟨rfl, rfl⟩
    | simp [Event.isRead] at he

/-- **On a stream not closed, the pending shutdown and connect have not been
called back**, from what every run keeps of the requests. -/
theorem World.Live.of_writeOk (ok : WriteOk w.writes) (hcd : w.s.flags.closed = false) : w.Live where
  shutdown s hs := by
    rw [← shutdownCalls_reqLog, mem_shutdownCalls]
    rintro ⟨st, hm⟩
    exact (ok.pend.shutdownReq s hs).2.2.resolve_left (by simp [World.writes, hcd]) st hm
  connect r hr := by
    rw [← connectCalls_reqLog, mem_connectCalls]
    rintro ⟨st, hm⟩
    exact (ok.pend.connectReq r hr).2.resolve_left (by simp [World.writes, hcd]) st hm

theorem ShutdownUncalled.not_mem (hu : ShutdownUncalled w) {s : ShutdownReq}
    (hs : w.s.shutdownReq = some s) : s.id ∉ shutdownCalls w.trace := by
  rw [← shutdownCalls_reqLog, mem_shutdownCalls]
  exact fun ⟨st, hm⟩ => hu s hs st hm

/-! ## The moves of the write path -/

/-- The write path keeps the count: it moves requests between the queues, and
retires one with its registration. -/
theorem writeStable_counted : WriteStable (World.Counted b) where
  congr h hc := h.congr hc
  emit _ h := h.emit _
  emitWrite _ h := h.emit _
  subQueueSize h := by unfold World.subQueueSize; split; exacts [h.emit _, h]
  finish hq _ h := h.of_le (by
    have := congrArg List.length hq
    simp only [World.owed, writeReqFinish, List.length_append, List.length_singleton,
      List.length_cons, List.length_nil] at this ⊢
    omega)
  retag hq _ h := h.of_le (by
    have := congrArg List.length hq
    simp only [World.owed, List.length_cons] at this ⊢
    omega)
  retire hq h := h.of_le (by
    have := congrArg List.length hq
    simp only [World.owed, List.length_cons] at this ⊢
    omega)
  called h := h.emit _
  flush h := h.of_le (by
    simp only [World.owed, streamFlushWriteQueue, List.length_append, List.length_map,
      List.length_nil]
    omega)

/-- The write path calls back no shutdown and no connect. -/
theorem writeStable_live : WriteStable World.Live where
  congr h hc := h.congr hc
  emit he h := h.emit (calls_of_isRead he).1 (calls_of_isRead he).2
  emitWrite _ h := h.emit (by rfl) (by rfl)
  subQueueSize h := by
    unfold World.subQueueSize; split
    · have h' := h.emit (e := .sizeWrap) rfl rfl
      exact ⟨h'.1, h'.2⟩
    · exact ⟨h.1, h.2⟩
  finish _ _ h := ⟨h.1, h.2⟩
  retag _ _ h := ⟨h.1, h.2⟩
  retire _ h := ⟨h.1, h.2⟩
  called h := h.emit (by rfl) (by rfl)
  flush h := ⟨h.1, h.2⟩

/-- The count, with the pending requests not called back. -/
abbrev CountSeg (b : Int) (x : Seg) : Prop := KeepSeg (fun w => w.Counted b ∧ w.Live) x

theorem writeStable_countedLive : WriteStable (fun w => w.Counted b ∧ w.Live) :=
  writeStable_counted.and writeStable_live

/-! ## Starting and unregistering requests -/

/-- `uv__req_init` in `uv_write2`, and the request queued. -/
theorem World.Counted.writeReqQueue {bufs : List Buf} {hd : Option Int} {cb : WriteCb}
    (h : w.Counted (b + 1)) : (writeReqQueue w bufs hd cb).Counted b := by
  have h₁ : World.Counted b
      { w with nextId := w.nextId + 1,
               s.writeQueueSize := w.s.writeQueueSize + countBufs bufs,
               s.writeQueue := w.s.writeQueue ++ [⟨w.nextId, cb, 0, hd, some bufs, 0⟩] } := by
    unfold World.Counted World.owed at *
    simp only [List.length_append, List.length_singleton, Nat.cast_add, Nat.cast_one]
    omega
  exact h₁.emit _

theorem counted_writeBufsAlloc {k : Nat} (h : w.Counted b) :
    Spec (writeBufsAlloc { w with activeReqs := w.activeReqs + 1 } k)
      (fun p => p.2.Counted (b + 1)) (fun _ => True) :=
  writeBufsAlloc_spec.imp (fun _ hp => by
    rw [hp]; unfold World.Counted World.owed at *; dsimp only; omega) (fun _ _ => trivial)

theorem counted_uvWrite2 {bufs : List Buf} {hd : Option Int} {cb : WriteCb} (h : w.Counted b) :
    Spec (uvWrite2 w bufs hd cb) (fun p => p.2.Counted b) (fun _ => True) := by
  unfold uvWrite2
  simp only [spec_bind, spec_check, spec_ite, spec_pure]
  refine ⟨fun _ => ⟨fun _ => ⟨fun _ => h, fun _ => ⟨fun _ => h, fun _ => ⟨fun _ => h,
    fun _ => (counted_writeBufsAlloc h).imp (fun ⟨good, w₁⟩ h₁ => ?_) (fun _ _ => trivial)⟩⟩⟩,
    fun _ => trivial⟩, fun _ => trivial⟩
  have h₂ : (writeReqQueue w₁ bufs hd cb).Counted b := h₁.writeReqQueue
  exact ⟨fun _ => h₁.mono (by omega), fun _ => ⟨fun _ => h₂, fun _ =>
    ⟨fun _ => (writeStable_counted.write h₂).imp (fun _ h => h) (fun _ _ => trivial),
      fun _ => ⟨fun _ => h₂, fun _ => trivial⟩⟩⟩⟩

/-- `uv_try_write` takes its request, found on one of the queues, off both, and
unregisters it. -/
theorem World.Counted.withdraw (h : w.Counted b) {i : Nat} {r : WriteReq}
    (hr : r ∈ w.s.writeQueue ++ w.s.writeCompletedQueue) (hi : r.id = i) (n : Int) :
    World.Counted b { w.subQueueSize n with
      s.writeQueue := w.s.writeQueue.filter (·.id ≠ i),
      s.writeCompletedQueue := w.s.writeCompletedQueue.filter (·.id ≠ i),
      activeReqs := w.activeReqs - 1 } := by
  have h₁ : (w.subQueueSize n).Counted b := writeStable_counted.subQueueSize h
  refine h₁.of_le ?_
  have hq := List.length_filter_le (fun x : WriteReq => decide (x.id ≠ i)) w.s.writeQueue
  have hc := List.length_filter_le (fun x : WriteReq => decide (x.id ≠ i)) w.s.writeCompletedQueue
  have hlt : (w.s.writeQueue.filter (·.id ≠ i)).length +
      (w.s.writeCompletedQueue.filter (·.id ≠ i)).length <
        w.s.writeQueue.length + w.s.writeCompletedQueue.length := by
    rcases List.mem_append.1 hr with hm | hm
    · have : (w.s.writeQueue.filter (·.id ≠ i)).length < w.s.writeQueue.length :=
        List.length_filter_lt_length_iff_exists.2 ⟨r, hm, by simp [hi]⟩
      omega
    · have : (w.s.writeCompletedQueue.filter (·.id ≠ i)).length <
          w.s.writeCompletedQueue.length :=
        List.length_filter_lt_length_iff_exists.2 ⟨r, hm, by simp [hi]⟩
      omega
  simp only [World.owed, subQueueSize_s, subQueueSize_activeReqs]
  omega

theorem counted_uvTryWrite {bufs : List Buf} (h : w.Counted b) :
    Spec (uvTryWrite w bufs) (fun p => p.2.Counted b) (fun _ => True) := by
  unfold uvTryWrite uvWrite
  simp only [spec_bind, spec_ite, spec_pure]
  refine ⟨fun _ => h, fun _ => (counted_uvWrite2 h).imp (fun ⟨r, w₁⟩ h₁ => ?_) (fun _ _ => trivial)⟩
  dsimp only at h₁ ⊢
  refine ⟨fun _ => h₁, fun _ => ?_⟩
  split
  · rename_i req hfind
    have h₂ := h₁.withdraw (List.mem_of_find?_eq_some hfind) (by simpa using List.find?_some hfind)
    simp only [spec_bind]
    refine Spec.of_forall (fun size => ?_) (fun _ => trivial)
    simp only [spec_ite, spec_pure]
    refine ⟨fun _ => ?_, fun _ => ?_⟩ <;> split <;> exact h₂ size
  · trivial

/-- `uv_shutdown` registers its request and puts it in the slot. -/
theorem counted_uvShutdown {cb : Bool} (h : w.Counted b) :
    Spec (uvShutdown w cb) (fun p => p.2.Counted b) (fun _ => True) := by
  have h₀ := @slotOwed_nonneg _ ShutdownReq.id (shutdownCalls w.trace) w.s.shutdownReq
  have h₁ := @slotOwed_le_one _ ShutdownReq.id (shutdownCalls w.trace) (some ⟨w.nextId, cb⟩)
  unfold uvShutdown
  simp only [spec_bind, spec_check, spec_ite, spec_pure]
  refine ⟨fun _ => ⟨fun _ => h, fun _ => ⟨fun _ => World.Counted.emit (h.of_le ?_) _,
    fun _ => trivial⟩⟩, fun _ => trivial⟩
  simp only [World.owed]
  omega

/-- A transport's connect registers its request and puts it in the slot. -/
theorem counted_connect {cb : Bool} {e : Int} (h : w.Counted b) :
    Spec (connect w cb e) (World.Counted b) (fun _ => True) := by
  have h₀ := @slotOwed_nonneg _ ConnectReq.id (connectCalls w.trace) w.s.connectReq
  have h₁ := @slotOwed_le_one _ ConnectReq.id (connectCalls w.trace) (some ⟨w.nextId, cb⟩)
  unfold connect; split
  · exact World.Counted.emit (h.of_le (by simp only [World.owed]; omega)) _
  · trivial

/-- **Every call of the user** keeps the count. -/
theorem counted_apiCall {a : Api} (h : w.Counted b) :
    Spec (apiCall w a) (World.Counted b) (fun _ => True) :=
  writeStable_counted.toReadStable.apiCall counted_uvWrite2 counted_uvTryWrite counted_uvShutdown h

/-! ## Shutting down and connecting -/

/-- A world where the pending shutdown `s` of `w`, not called back, has left its
slot and been unregistered, after events that call back no connect. -/
theorem countLive_shutdownDone (h : w.Counted b ∧ w.Live) {s : ShutdownReq}
    (hs : w.s.shutdownReq = some s) (ha : w'.activeReqs = w.activeReqs - 1)
    (hq : w'.s.writeQueue = w.s.writeQueue)
    (hc : w'.s.writeCompletedQueue = w.s.writeCompletedQueue) (hs' : w'.s.shutdownReq = none)
    (hcn : w'.s.connectReq = w.s.connectReq) (ht : connectCalls w'.trace = connectCalls w.trace) :
    w'.Counted b ∧ w'.Live := by
  refine ⟨h.1.of_le ?_, ⟨fun _ h' => ?_, fun r hr => ?_⟩⟩
  · have := h.2.shutdown s hs
    simp only [World.owed, ha, hq, hc, hs', hcn, ht, hs, slotOwed_none, slotOwed, if_neg this]
    omega
  · rw [hs'] at h'; exact nomatch h'
  · rw [ht]; exact h.2.connect r (hcn ▸ hr)

/-- A world where the pending connect `r` of `w`, not called back, has left its
slot and been unregistered, after events that call back no shutdown. -/
theorem countLive_connectDone (h : w.Counted b ∧ w.Live) {r : ConnectReq}
    (hr : w.s.connectReq = some r) (ha : w'.activeReqs = w.activeReqs - 1)
    (hq : w'.s.writeQueue = w.s.writeQueue)
    (hc : w'.s.writeCompletedQueue = w.s.writeCompletedQueue)
    (hs : w'.s.shutdownReq = w.s.shutdownReq) (hr' : w'.s.connectReq = none)
    (ht : shutdownCalls w'.trace = shutdownCalls w.trace) : w'.Counted b ∧ w'.Live := by
  refine ⟨h.1.of_le ?_, ⟨fun s hs₁ => ?_, fun _ h' => ?_⟩⟩
  · have := h.2.connect r hr
    simp only [World.owed, ha, hq, hc, hs, hr', ht, hr, slotOwed_none, slotOwed, if_neg this]
    omega
  · rw [ht]; exact h.2.shutdown s (hs ▸ hs₁)
  · rw [hr'] at h'; exact nomatch h'

/-- **`uv__drain`** unregisters the shutdown it carries out, which it counted,
not having called it back. -/
theorem counted_drain (h : w.Counted b ∧ w.Live) : CountSeg b (drain w) := by
  unfold drain
  simp only [spec_bind, spec_check]
  refine ⟨fun _ => ?_, fun _ => trivial⟩
  split
  · split
    · rename_i req hreq
      simp only [spec_bind, spec_answer, spec_ite, spec_pure, Seg.world_some, Seg.world_none]
      refine ⟨fun _ => trivial, fun a as _ => ⟨fun _ => ?_, fun _ => ?_⟩⟩ <;> split <;>
        exact countLive_shutdownDone h hreq rfl rfl rfl rfl rfl
          (by simp [connectCalls, Event.connectCalled])
    · trivial
  · exact ⟨h.1, h.2.1, h.2.2⟩

theorem counted_ioDrain (h : w.Counted b ∧ w.Live) : CountSeg b (ioDrain w) := by
  unfold ioDrain; split
  exacts [counted_drain h, h]

/-- **The end of `uv__stream_connect`** unregisters the connect `req` it
finished, which it counted, not having called it back. -/
theorem counted_connectDone {req : ConnectReq} {error : Int} (h : w.Counted b ∧ w.Live)
    (hr : w.s.connectReq = some req) : CountSeg b (connectDone w req error) := by
  unfold connectDone
  dsimp only
  split
  · split <;> exact countLive_connectDone h hr rfl rfl rfl rfl rfl
      (by simp [shutdownCalls, Event.shutdownCalled])
  · exact writeStable_countedLive.connectAfterCb
      (by split <;> exact countLive_connectDone h hr rfl rfl rfl rfl rfl rfl)

theorem counted_streamConnect (h : w.Counted b ∧ w.Live) : CountSeg b (streamConnect w) := by
  unfold streamConnect
  simp only [spec_bind, spec_check]
  refine ⟨fun _ => ?_, fun _ => trivial⟩
  split
  · rename_i req hreq
    simp only [spec_bind, spec_ite, spec_pure]
    refine connectError_core.imp (fun ⟨e, w₁⟩ hc => ?_) (fun _ _ => trivial)
    dsimp only at hc ⊢
    have h₁ : w₁.Counted b ∧ w₁.Live := ⟨h.1.congr hc, h.2.congr hc⟩
    have hr : w₁.s.connectReq = some req := by
      simp only [World.core, Prod.mk.injEq] at hc
      rw [hc.2.2.2.2.2.2.2, hreq]
    exact ⟨fun _ => h₁, fun _ => counted_connectDone h₁ hr⟩
  · trivial

/-! ## The stream watcher -/

theorem counted_ioAfterEof {ev : Events} (h : w.Counted b ∧ w.Live) :
    CountSeg b (ioAfterEof w ev) := by
  unfold ioAfterEof
  simp only [spec_bind, spec_ite, spec_pure]
  exact ⟨fun _ => h, fun _ => ⟨fun _ => (writeStable_countedLive.write h).imp (fun _ h₁ =>
    (writeStable_countedLive.writeCallbacks h₁).andThen fun _ => counted_ioDrain)
    (fun _ _ => trivial), fun _ => h⟩⟩

theorem counted_ioAfterRead {ev : Events} (h : w.Counted b ∧ w.Live) :
    CountSeg b (ioAfterRead w ev) := by
  unfold ioAfterRead; split
  · exact h
  · split
    exacts [(writeStable_countedLive.toReadStable.streamEof h).andThen fun _ => counted_ioAfterEof,
      counted_ioAfterEof h]

/-- **`uv__stream_io`** keeps the count, whichever of its pieces runs. -/
theorem counted_streamIo {ev : Events} (h : w.Counted b ∧ w.Live) : CountSeg b (streamIo w ev) := by
  unfold streamIo
  simp only [spec_bind, spec_check, spec_ite]
  refine ⟨fun _ => ⟨fun _ => ⟨fun _ => counted_streamConnect h, fun _ => ⟨fun _ => ⟨fun _ =>
    (writeStable_countedLive.toReadStable.read h).andThen fun _ => counted_ioAfterRead,
    fun _ => counted_ioAfterRead h⟩, fun _ => trivial⟩⟩, fun _ => trivial⟩, fun _ => trivial⟩

/-- The code after every callback of a dispatch keeps the count. -/
theorem counted_resume {buf : Buffer} {f : Frame} (hf : f.destroying = false)
    (h : w.Counted b ∧ w.Live) : CountSeg b (resume w buf f) := by
  have hR : WriteStable (fun w => w.Counted b ∧ w.Live) := writeStable_countedLive
  cases f with
  | readAfterAlloc => exact hR.toReadStable.readAfterAlloc h
  | readAfterData => exact hR.toReadStable.readAfterData h
  | readAfterError => exact hR.toReadStable.readAfterError h
  | eofClear => exact hR.congr h rfl
  | ioAfterRead => exact counted_ioAfterRead h
  | ioAfterEof => exact counted_ioAfterEof h
  | writeCallbacks => exact hR.writeCallbacks h
  | ioDrain => exact counted_ioDrain h
  | connectAfterCb => exact hR.connectAfterCb h
  | serverAfterAccept => exact hR.toReadStable.serverAfterAccept h
  | serverAfterError => exact hR.toReadStable.serverLoop h
  | destroyConnected | destroyShutdown | destroyEnd => cases hf

/-! ## `uv__stream_destroy` -/

/-- Unregistering the pending shutdown `s` and calling it back. -/
theorem World.Counted.cancel_shutdown (h : w.Counted b) {s : ShutdownReq}
    (hs : w.s.shutdownReq = some s) (hu : s.id ∉ shutdownCalls w.trace) (st : Int) :
    World.Counted b (({ w with activeReqs := w.activeReqs - 1 } : World).emit
      (.call (.shutdown s.id st))) := by
  have := owed_call_shutdown (w := { w with activeReqs := w.activeReqs - 1 }) hs hu st
  exact h.of_le (by change _ + 1 = w.owed at this; simp only [emit_activeReqs]; omega)

/-- Unregistering the pending connect `r` and calling it back. -/
theorem World.Counted.cancel_connect (h : w.Counted b) {r : ConnectReq}
    (hr : w.s.connectReq = some r) (hu : r.id ∉ connectCalls w.trace) (st : Int) :
    World.Counted b (({ w with activeReqs := w.activeReqs - 1 } : World).emit
      (.call (.connect r.id st))) := by
  have := owed_call_connect (w := { w with activeReqs := w.activeReqs - 1 }) hr hu st
  exact h.of_le (by change _ + 1 = w.owed at this; simp only [emit_activeReqs]; omega)

theorem counted_destroyCheck (h : w.Counted b) : KeepSeg (World.Counted b) (destroyCheck w) := by
  simp only [destroyCheck, spec_bind, spec_check, spec_pure]
  exact ⟨fun _ => h, fun _ => trivial⟩

theorem counted_destroyEnd (h : w.Counted b) : KeepSeg (World.Counted b) (destroyEnd w) :=
  counted_destroyCheck (h.of_le (by
    have := @slotOwed_nonneg _ ShutdownReq.id (shutdownCalls w.trace) w.s.shutdownReq
    simp only [World.owed, slotOwed_none]
    omega))

/-- `uv__stream_destroy` unregisters the pending shutdown before its callback. -/
theorem counted_destroyShutdown (h : w.Counted b ∧ w.Live) :
    KeepSeg (World.Counted b) (destroyShutdown w) := by
  unfold destroyShutdown; split
  · rename_i s hs
    split
    exacts [h.1.cancel_shutdown hs (h.2.shutdown s hs) _, trivial]
  · exact counted_destroyCheck h.1

theorem counted_destroyWrites (h : w.Counted b ∧ w.Live) :
    KeepSeg (World.Counted b) (destroyWrites w) :=
  (writeStable_countedLive.writeCallbacks (writeStable_countedLive.flush h)).andThen_of
    (fun _ h => h.1) fun _ => counted_destroyShutdown

theorem counted_destroyConnected (h : w.Counted b)
    (hu : ∀ s, w.s.shutdownReq = some s → s.id ∉ shutdownCalls w.trace) :
    KeepSeg (World.Counted b) (destroyConnected w) :=
  counted_destroyWrites ⟨h.of_le (by
    have := @slotOwed_nonneg _ ConnectReq.id (connectCalls w.trace) w.s.connectReq
    simp only [World.owed, slotOwed_none]
    omega), hu, fun _ hc => nomatch hc⟩

/-- **`uv__stream_destroy`** unregisters the pending connect before its
callback, and the pending shutdown before its own. -/
theorem counted_streamDestroy (h : w.Counted b ∧ w.Live) :
    KeepSeg (World.Counted b) (streamDestroy w) := by
  unfold streamDestroy
  simp only [spec_bind, spec_check]
  refine ⟨fun _ => ⟨fun _ => ?_, fun _ => trivial⟩, fun _ => trivial⟩
  split
  · rename_i r hr
    split
    exacts [h.1.cancel_connect hr (h.2.connect r hr) _, trivial]
  · exact counted_destroyWrites h

/-! ## Every run -/

theorem counted_dispatch {d : Dispatch} (ok : WriteOk w.writes) (h : w.Counted b) :
    Spec (dispatch w d) (fun m => m.w.Counted b) (fun _ => True) := by
  cases d with
  | io ev =>
    simp only [dispatch]
    split
    · trivial
    · rename_i hc
      have hl : w.Live := World.Live.of_writeOk ok (by
        by_contra h'; exact hc (.inl (ok.pend.destroyed (by simpa using h'))))
      split
      · exact settle_keeps (World.Counted b)
          ((counted_streamIo ⟨h, hl⟩).imp (fun _ h => h.1) (fun _ _ => trivial))
      · split
        exacts [settle_keeps (World.Counted b) (writeStable_counted.toReadStable.serverIo h), trivial]
  | finishClose =>
    simp only [dispatch]
    split
    · rename_i hc
      have hl : w.Live := World.Live.of_writeOk ok (by simpa using hc.2)
      exact settle_keeps (World.Counted b) (counted_streamDestroy ⟨h, hl.1, hl.2⟩)
    · trivial

theorem counted_resumeAll_plain {buf : Buffer} {k : List Frame}
    (hk : ∀ f ∈ k, f.destroying = false) (h : w.Counted b ∧ w.Live) :
    Spec (resumeAll buf k w) (fun m => m.w.Counted b) (fun _ => True) := by
  induction k generalizing w with
  | nil => exact h.1
  | cons f k ih =>
    rw [spec_resumeAll_cons]
    refine (counted_resume (hk f (.head _)) h).imp (fun r hr => ?_) (fun _ _ => trivial)
    rcases r with ⟨w', _ | ⟨c, fs⟩⟩
    · exact ih (fun g hg => hk g (.tail _ hg)) hr
    · exact hr.1

/-- **Resuming the frames a dispatch left** keeps the count: those of
`uv__stream_destroy` find the pending shutdown not yet called back. -/
theorem counted_resumeAll {buf : Buffer} {k : List Frame} (ok : WriteOk w.writes)
    (hr : Ready w k) (h : w.Counted b) :
    Spec (resumeAll buf k w) (fun m => m.w.Counted b) (fun _ => True) := by
  rcases hr with ⟨hk, hcd⟩ | ⟨hcd, ⟨rfl, hu, -⟩ | ⟨hcn, ⟨rfl, -, hu⟩ | ⟨rfl, -, -, -⟩⟩⟩
  · exact counted_resumeAll_plain hk ⟨h, World.Live.of_writeOk ok hcd⟩
  · rw [resumeAll_single]
    exact settle_keeps (World.Counted b) (counted_destroyConnected h fun _ hs => hu.not_mem hs)
  · rw [spec_resumeAll_cons]
    refine (writeStable_countedLive.writeCallbacks ⟨h, fun _ hs => hu.not_mem hs,
      fun _ hc => nomatch hcn.symm.trans hc⟩).imp (fun r hr => ?_) (fun _ _ => trivial)
    rcases r with ⟨w', _ | ⟨c, fs⟩⟩
    · dsimp only
      rw [resumeAll_single]
      exact settle_keeps (World.Counted b) (counted_destroyShutdown hr)
    · exact hr.1
  · rw [resumeAll_single]
    exact settle_keeps (World.Counted b) (counted_destroyEnd h)

/-- **Every step keeps the count.** -/
theorem Machine.step_counted {m : Machine} {act : Action} {env : List Answer} (hm : Accounting m)
    (h : m.w.Counted b) : Spec (m.step act env) (fun m' => m'.w.Counted b) (fun _ => True) := by
  obtain ⟨w, ctl⟩ := m
  have h' : World.Counted b { w with env := env } := h
  cases act with
  | api a => simpa [Machine.step] using counted_apiCall h'
  | ret buf =>
    cases ctl with
    | idle => trivial
    | inCallback c k => exact counted_resumeAll hm.writes (hm.ready c k rfl) h'
  | dispatch d =>
    cases ctl with
    | idle => exact counted_dispatch hm.writes h'
    | inCallback => trivial
  | connect cb e => simpa [Machine.step] using counted_connect h'

theorem owed_initial {m : Machine} (h : Initial m) : m.w.owed = 0 := by
  obtain ⟨hq, hc, -, -, -, -, -, -, -, hs, hcn⟩ := writes_eq.1 (initial_writes h)
  simp [World.owed, hq, hc, hs, hcn, WriteSide.initial, slotOwed]

/-- **The count of active requests along every run.** From a stream as
`uv__stream_init` leaves it, in every machine a run reaches `active_reqs` is at
least its first value plus the requests the stream holds: every request of the
write queue and of the completed queue, and the pending shutdown and connect
requests not yet called back. -/
theorem active_reqs_cover_pending {ok : User} {m₀ m : Machine} (h₀ : Initial m₀)
    (h : Relation.ReflTransGen (Step ok) m₀ m) : m₀.w.activeReqs + m.w.owed ≤ m.w.activeReqs := by
  induction h with
  | refl => rw [owed_initial h₀]; omega
  | tail hrun hs ih =>
    obtain ⟨act, env, -, hst⟩ := hs
    exact (Machine.step_counted (accounting_reachable ⟨m₀, h₀, hrun⟩) ih).of_ok hst

/-- A stream opened on descriptor 7, a write that the kernel refuses for now,
and a shutdown behind it: both requests are pending. -/
def writeThenShutdownPending : List (Action × List Answer) :=
  [(.api (.streamOpen 7 true true false), []), (.api (.write2 [[1, 2]] none true), [⟨-EAGAIN, []⟩]),
   (.api (.shutdown true), [])]

theorem active_reqs_cover_write_and_shutdown :
    (Machine.after .tcp false writeThenShutdownPending).w.owed = 2 ∧
      (Machine.initial .tcp false).w.activeReqs +
          (Machine.after .tcp false writeThenShutdownPending).w.owed ≤
        (Machine.after .tcp false writeThenShutdownPending).w.activeReqs :=
  ⟨by decide, active_reqs_cover_pending ⟨(Machine.initial .tcp false).w, .tcp, false, rfl, rfl, rfl, rfl⟩
    (Machine.run_steps writeThenShutdownPending (by decide))⟩

end UvStream
