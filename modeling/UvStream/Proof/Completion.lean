import UvStream.Proof.Wire

/-!
# Completions

The callbacks of a stream's requests, as its trace records them. A write
request is called back by `uv__write_callbacks` from the head of
`write_completed_queue`. A shutdown is called back by `uv__drain`, or
cancelled by `uv__stream_destroy`. A connect is called back by
`uv__stream_connect`, or cancelled by `uv__stream_destroy`.

`CallsOk` states the following of the write requests:

* the requests called back come in the order of their identities, before
  every request still queued;
* each queued or completed request carries the callback it was submitted with;
* a request with a callback is queued, completed, or called back;
* a request is called back with 0, `UV_ECANCELED`, or the error of a failed
  write.

`SlotOk` states two things of a kind of request that has a single pending slot
(the shutdown and the connect): each request is called back at most once, and
one with a callback stays pending until it is called back.

* `CallsOk.move`, `ReqCallsOk.move`: every move keeps them.
* `completions_once`: **in every reachable machine, the following hold:**
  - **write callbacks come in submission order, and no request is called back
    twice;**
  - **a write callback has status 0 only for a request whose data was written
    in full;**
  - **once `uv__stream_destroy` has returned, every request with a callback
    has been called back;**
  - **a pending shutdown has `UV_STREAM_SHUTTING` set, and the assertion of
    `uv__drain` holds.**
* `shutdown_null_cb_called_on_close`: `uv__stream_destroy` calls the NULL
  callback of a shutdown that is still pending when the stream is closed.
-/

namespace UvStream

/-! ## Callbacks in the trace -/

/-- The write request that `e` calls back. -/
def Event.writeCalled : Event → Option Nat
  | .call (.write i _) => some i
  | _ => none

/-- The shutdown request that `e` calls back. -/
def Event.shutdownCalled : Event → Option Nat
  | .call (.shutdown i _) => some i
  | _ => none

/-- The connect request that `e` calls back. -/
def Event.connectCalled : Event → Option Nat
  | .call (.connect i _) => some i
  | _ => none

/-- The shutdown request that `e` starts. -/
def Event.shutdownSubmitted : Event → Option ShutdownReq
  | .submitShutdown s => some s
  | _ => none

/-- The connect request that `e` starts. -/
def Event.connectSubmitted : Event → Option ConnectReq
  | .submitConnect r => some r
  | _ => none

/-- The write requests called back, in order. -/
def writeCalls (l : List Event) : List Nat := l.filterMap Event.writeCalled

/-- The shutdown requests called back, in order. -/
def shutdownCalls (l : List Event) : List Nat := l.filterMap Event.shutdownCalled

/-- The connect requests called back, in order. -/
def connectCalls (l : List Event) : List Nat := l.filterMap Event.connectCalled

/-- The shutdown requests started, in order. -/
def shutdownSubmits (l : List Event) : List ShutdownReq := l.filterMap Event.shutdownSubmitted

/-- The connect requests started, in order. -/
def connectSubmits (l : List Event) : List ConnectReq := l.filterMap Event.connectSubmitted

@[simp] theorem writeCalls_append (l l' : List Event) :
    writeCalls (l ++ l') = writeCalls l ++ writeCalls l' := List.filterMap_append ..
@[simp] theorem shutdownCalls_append (l l' : List Event) :
    shutdownCalls (l ++ l') = shutdownCalls l ++ shutdownCalls l' := List.filterMap_append ..
@[simp] theorem connectCalls_append (l l' : List Event) :
    connectCalls (l ++ l') = connectCalls l ++ connectCalls l' := List.filterMap_append ..
@[simp] theorem shutdownSubmits_append (l l' : List Event) :
    shutdownSubmits (l ++ l') = shutdownSubmits l ++ shutdownSubmits l' := List.filterMap_append ..
@[simp] theorem connectSubmits_append (l l' : List Event) :
    connectSubmits (l ++ l') = connectSubmits l ++ connectSubmits l' := List.filterMap_append ..

@[simp] theorem mem_writeCalls {l : List Event} {i : Nat} :
    i ∈ writeCalls l ↔ ∃ st, Event.call (.write i st) ∈ l := by
  simp only [writeCalls, List.mem_filterMap]
  refine ⟨fun ⟨e, he, h⟩ => ?_, fun ⟨st, h⟩ => ⟨_, h, rfl⟩⟩
  cases e <;> try cases ‹Callback›
  all_goals simp only [Event.writeCalled, Option.some.injEq, reduceCtorEq] at h
  exact ⟨_, h ▸ he⟩

@[simp] theorem mem_shutdownCalls {l : List Event} {i : Nat} :
    i ∈ shutdownCalls l ↔ ∃ st, Event.call (.shutdown i st) ∈ l := by
  simp only [shutdownCalls, List.mem_filterMap]
  refine ⟨fun ⟨e, he, h⟩ => ?_, fun ⟨st, h⟩ => ⟨_, h, rfl⟩⟩
  cases e <;> try cases ‹Callback›
  all_goals simp only [Event.shutdownCalled, Option.some.injEq, reduceCtorEq] at h
  exact ⟨_, h ▸ he⟩

@[simp] theorem mem_connectCalls {l : List Event} {i : Nat} :
    i ∈ connectCalls l ↔ ∃ st, Event.call (.connect i st) ∈ l := by
  simp only [connectCalls, List.mem_filterMap]
  refine ⟨fun ⟨e, he, h⟩ => ?_, fun ⟨st, h⟩ => ⟨_, h, rfl⟩⟩
  cases e <;> try cases ‹Callback›
  all_goals simp only [Event.connectCalled, Option.some.injEq, reduceCtorEq] at h
  exact ⟨_, h ▸ he⟩

/-- The statuses a write request `i` may be called back with after the events
`l`: 0, `UV_ECANCELED`, or the error of a failed write of it. -/
def WriteStatus (l : List Event) (i : Nat) (st : Int) : Prop :=
  st = 0 ∨ st = -ECANCELED ∨ st < 0 ∧ ∃ fd hd, Event.write fd i hd st [] ∈ l

theorem WriteStatus.append {l : List Event} {i : Nat} {st : Int} (l' : List Event)
    (h : WriteStatus l i st) : WriteStatus (l ++ l') i st :=
  h.imp_right (Or.imp_right fun ⟨hn, fd, hd, hm⟩ => ⟨hn, fd, hd, List.mem_append_left _ hm⟩)

/-- The identity and the callback of each request of a queue. -/
def reqTags (q : List WriteReq) : List (Nat × WriteCb) := q.map fun r => (r.id, r.cb)

/-! ## The write requests -/

/-- What holds of the callbacks of the write requests along every run. -/
structure CallsOk (ws : WriteSide) : Prop where
  order : (writeCalls ws.log).Pairwise (· < ·)
  before : ∀ i ∈ writeCalls ws.log, ∀ x ∈ reqTags (ws.completed ++ ws.queue), i < x.1
  cbs : ∀ x ∈ reqTags (ws.completed ++ ws.queue), ∃ r ∈ submits ws.log, r.id = x.1 ∧ r.cb = x.2
  tracked : ∀ r ∈ submits ws.log, r.cb = .user →
    (∃ x ∈ reqTags (ws.completed ++ ws.queue), x.1 = r.id) ∨ r.id ∈ writeCalls ws.log
  status : ∀ x ∈ ws.completed, WriteStatus ws.log x.id x.error
  called : ∀ i st, .call (.write i st) ∈ ws.log → WriteStatus ws.log i st

theorem callsOk_initial : CallsOk WriteSide.initial :=
  ⟨List.Pairwise.nil, by simp [WriteSide.initial, writeCalls], by simp [WriteSide.initial, reqTags],
    by simp [WriteSide.initial], by simp [WriteSide.initial], by simp [WriteSide.initial]⟩

variable {req : WriteReq} {q c q' c' : List WriteReq} {z z' : Int} {l l' : List Event}
  {n n' : Nat} {p p' : Pending}

/-- Events that neither submit nor call back a write request. -/
theorem CallsOk.log (h : CallsOk ⟨q, c, z, l, n, p⟩) (hw : writeCalls l' = [])
    (hs : submits l' = []) : CallsOk ⟨q, c, z, l ++ l', n, p⟩ := by
  obtain ⟨ho, hb, hcb, htr, hst, hcl⟩ := h
  have hw' : writeCalls (l ++ l') = writeCalls l := by simp [hw]
  have hs' : submits (l ++ l') = submits l := by simp [hs]
  rw [← hw'] at ho hb htr
  rw [← hs'] at hcb htr
  refine ⟨ho, hb, hcb, htr, fun x hx => (hst x hx).append l', fun i st hi => ?_⟩
  rcases List.mem_append.1 hi with hi | hi
  · exact (hcl i st hi).append l'
  · exact absurd (mem_writeCalls.2 ⟨st, hi⟩) (by simp [hw])

/-- The queues keep their requests' identities and callbacks; a request new on
the completed queue has a status it may be called back with. -/
theorem CallsOk.retag (h : CallsOk ⟨q, c, z, l, n, p⟩) (ht : reqTags (c' ++ q') = reqTags (c ++ q))
    (hc : ∀ x ∈ c', x ∈ c ∨ WriteStatus l x.id x.error) : CallsOk ⟨q', c', z', l, n', p'⟩ := by
  obtain ⟨ho, hb, hcb, htr, hst, hcl⟩ := h
  dsimp only at *
  rw [← ht] at hb hcb htr
  exact ⟨ho, hb, hcb, htr, fun x hx => (hc x hx).elim (hst x) id, hcl⟩

/-- `uv_write2` queues `req`, with the next identity. -/
theorem CallsOk.submit (h : CallsOk ⟨q, c, z, l, n, p⟩) (hu : ∀ i st, .call (.write i st) ∈ l → i < n)
    (hid : req.id = n) : CallsOk ⟨q ++ [req], c, z', l ++ [.submit req], n', p'⟩ := by
  obtain ⟨ho, hb, hcb, htr, hst, hcl⟩ := h
  dsimp only at *
  have hw : writeCalls (l ++ [.submit req]) = writeCalls l := by simp [writeCalls, Event.writeCalled]
  have ht : reqTags (c ++ (q ++ [req])) = reqTags (c ++ q) ++ [(req.id, req.cb)] := by
    simp [reqTags]
  refine ⟨hw ▸ ho, ?_, ?_, ?_, fun x hx => (hst x hx).append _, fun i st hi => ?_⟩ <;> dsimp only
  · rw [hw, ht]
    simp only [List.mem_append, List.mem_singleton]
    rintro i hi x (hx | rfl)
    exacts [hb i hi x hx, hid ▸ hu i _ (mem_writeCalls.1 hi).choose_spec]
  · rw [ht]
    simp only [List.mem_append, List.mem_singleton, submits_append, submits_singleton,
      Event.submitted, Option.toList_some]
    rintro x (hx | rfl)
    · obtain ⟨r, hr, h⟩ := hcb x hx
      exact ⟨r, .inl hr, h⟩
    · exact ⟨req, .inr rfl, rfl, rfl⟩
  · rw [hw, ht]
    simp only [submits_append, submits_singleton, Event.submitted, Option.toList_some,
      List.mem_append, List.mem_singleton]
    rintro r (hr | rfl) hu'
    · exact (htr r hr hu').imp_left fun ⟨x, hx, h⟩ => ⟨x, .inl hx, h⟩
    · exact .inl ⟨_, .inr rfl, rfl⟩
  · rcases List.mem_append.1 hi with hi | hi
    · exact (hcl i st hi).append _
    · simp at hi

/-- The head `req` of the completed queue is called back. -/
theorem CallsOk.complete (h : CallsOk ⟨q, req :: c, z, l, n, p⟩)
    (ok : WriteOk ⟨q, req :: c, z, l, n, p⟩) :
    CallsOk ⟨q, c, z', l ++ [.call (.write req.id req.error)], n', p'⟩ := by
  have hlt : ∀ x ∈ reqTags (c ++ q), req.id < x.1 := by
    simp only [reqTags, List.mem_map]
    rintro _ ⟨y, hy, rfl⟩
    exact List.rel_of_pairwise_cons ok.order (List.mem_map_of_mem _ hy)
  obtain ⟨ho, hb, hcb, htr, hst, hcl⟩ := h
  dsimp only at *
  have ht : reqTags (req :: c ++ q) = (req.id, req.cb) :: reqTags (c ++ q) := rfl
  have hs : submits (l ++ [.call (.write req.id req.error)]) = submits l := by
    simp [Event.submitted]
  have hw : writeCalls (l ++ [.call (.write req.id req.error)]) = writeCalls l ++ [req.id] := by
    simp [writeCalls, Event.writeCalled]
  rw [ht] at hb hcb htr
  rw [← hs] at hcb htr
  refine ⟨hw ▸ List.pairwise_append.2 ⟨ho, List.pairwise_singleton _ _, fun i hi _ hj => ?_⟩, ?_,
    fun x hx => hcb x (.tail _ hx), fun r hr hu => ?_, fun x hx => (hst x (.tail _ hx)).append _,
    fun i st hi => ?_⟩
  · exact (List.mem_singleton.1 hj) ▸ hb i hi _ (.head _)
  · dsimp only
    rw [hw]
    simp only [List.mem_append, List.mem_singleton]
    rintro i (hi | rfl) x hx
    exacts [hb i hi x (.tail _ hx), hlt x hx]
  · dsimp only
    rw [hw]
    rcases htr r hr hu with ⟨x, hx | ⟨_, hx⟩, hxr⟩ | hc
    · exact .inr (List.mem_append_right _ (List.mem_singleton.2 hxr.symm))
    · exact .inl ⟨x, hx, hxr⟩
    · exact .inr (List.mem_append_left _ hc)
  · rcases List.mem_append.1 hi with hi | hi
    · exact (hcl i st hi).append _
    · simp only [List.mem_singleton, Event.call.injEq, Callback.write.injEq] at hi
      obtain ⟨rfl, rfl⟩ := hi
      exact (hst req (.head _)).append _

/-- Requests leave the queues without a callback: their callbacks are not the
user's. -/
theorem CallsOk.drop (h : CallsOk ⟨q, c, z, l, n, p⟩)
    (hids : ((submits l).map WriteReq.id).Pairwise (· < ·)) (hc : c' ⊆ c)
    (ht : ∀ x ∈ reqTags (c' ++ q'), x ∈ reqTags (c ++ q))
    (hdrop : ∀ x ∈ reqTags (c ++ q), x ∉ reqTags (c' ++ q') → x.2 ≠ .user) :
    CallsOk ⟨q', c', z', l, n', p'⟩ := by
  obtain ⟨ho, hb, hcb, htr, hst, hcl⟩ := h
  dsimp only at *
  refine ⟨ho, fun i hi x hx => hb i hi x (ht x hx), fun x hx => hcb x (ht x hx),
    fun r hr hu => ?_, fun x hx => hst x (hc hx), hcl⟩
  rcases htr r hr hu with ⟨x, hx, hxr⟩ | hcl
  · by_cases hx' : x ∈ reqTags (c' ++ q')
    · exact .inl ⟨x, hx', hxr⟩
    · obtain ⟨r', hr', hid, hcb'⟩ := hcb x hx
      obtain rfl := eq_of_id_eq hids hr' hr (hid.trans hxr)
      exact absurd (hcb'.symm.trans hu) (hdrop x hx hx')
  · exact .inr hcl

/-- **Every move keeps `CallsOk`.** -/
theorem CallsOk.move {a b : WriteSide} (hm : WriteMove a b) (ok : WriteOk a) (hw : WireOk a)
    (h : CallsOk a) : CallsOk b := by
  cases hm with
  | submit req bufs hid => exact h.submit hw.uncalled hid
  | again => exact h.log (by rfl) (by rfl)
  | fail fd ret hret =>
    refine (h.log (by rfl) (by rfl)).retag (by simp [reqTags]) fun x hx => ?_
    rcases List.mem_append.1 hx with hx | hx
    · exact .inl hx
    · obtain rfl := List.mem_singleton.1 hx
      exact .inr (.inr (.inr ⟨hret, fd, _, List.mem_append_right _ (List.mem_singleton.2 rfl)⟩))
  | sendPart _ _ _ hid hcb => exact (h.log (by rfl) (by rfl)).retag (by simp [reqTags, hid, hcb]) (fun _ => .inl)
  | sendAll =>
    refine (h.log (by rfl) (by rfl)).retag (by simp [reqTags, WriteReq.finished]) fun x hx => ?_
    rcases List.mem_append.1 hx with hx | hx
    · exact .inl hx
    · obtain rfl := List.mem_singleton.1 hx
      exact .inr (.inl (ok.live _ (.head _)).1)
  | flush =>
    refine h.retag (by simp [reqTags, Function.comp_def]) fun x hx => ?_
    rcases List.mem_append.1 hx with hx | hx
    · exact .inl hx
    · obtain ⟨r, -, rfl⟩ := List.mem_map.1 hx
      exact .inr (.inr (.inl rfl))
  | complete => exact h.complete ok
  | completeNull hcb =>
    refine h.drop hw.ids (List.subset_cons_self _ _) (fun x hx => .tail _ hx) fun x hx hx' => ?_
    rcases List.mem_cons.1 hx with rfl | hx
    · simp [hcb]
    · exact absurd hx hx'
  | withdraw r hr hcb =>
    refine h.drop hw.ids (List.filter_subset' _) (fun x hx => ?_) fun x hx hx' => ?_
    · simp only [reqTags, List.map_append, List.mem_append, List.mem_map, List.mem_filter] at hx ⊢
      rcases hx with ⟨y, ⟨hy, -⟩, rfl⟩ | ⟨y, ⟨hy, -⟩, rfl⟩
      exacts [.inl ⟨y, hy, rfl⟩, .inr ⟨y, hy, rfl⟩]
    · obtain ⟨y, hy, rfl⟩ := List.mem_map.1 hx
      by_cases hyr : y.id = r.id
      · obtain rfl := eq_of_id_eq ok.order hy hr hyr
        simp [hcb]
      · refine absurd (List.mem_map_of_mem _ ?_) hx'
        rcases List.mem_append.1 hy with hy | hy
        exacts [List.mem_append_left _ (List.mem_filter.2 ⟨hy, by simpa using hyr⟩),
          List.mem_append_right _ (List.mem_filter.2 ⟨hy, by simpa using hyr⟩)]
  | streamOpen | close | shutdownEnd | connectEnd => exact h.retag rfl fun _ => .inl
  | shutdownCancel | connectCancel => exact h.log (by rfl) (by rfl)
  | shutdown | connect => exact (h.log (by rfl) (by rfl)).retag rfl fun _ => .inl
  | shutdownDone s | connectDone s =>
    exact (h.log (by split <;> rfl) (by split <;> rfl)).retag rfl fun _ => .inl

theorem CallsOk.destroy {a : WriteSide} (h : CallsOk a) : CallsOk a.destroyed :=
  ⟨h.order, h.before, h.cbs, h.tracked, h.status, h.called⟩

/-! ## Shutdown and connect requests -/

/-- What holds of a kind of request with one pending slot (the shutdown and
the connect requests of a stream): `started` the requests started and `calls`
the identities called back, in order, and `pending` the slot. -/
structure SlotOk {α : Type} (idOf : α → Nat) (cbOf : α → Bool) (started : List α) (calls : List Nat)
    (pending : Option α) : Prop where
  once : calls.Nodup
  tracked : ∀ s ∈ started, cbOf s → pending = some s ∨ idOf s ∈ calls
  isStarted : ∀ s, pending = some s → s ∈ started

section Slot

variable {α : Type} {idOf : α → Nat} {cbOf : α → Bool} {started : List α} {calls : List Nat}
  {pending : Option α} {s : α}

theorem SlotOk.nil : SlotOk idOf cbOf [] [] none := ⟨List.nodup_nil, by simp, by simp⟩

/-- A request `s` starts in the empty slot. -/
theorem SlotOk.start (h : SlotOk idOf cbOf started calls none) :
    SlotOk idOf cbOf (started ++ [s]) calls (some s) := by
  refine ⟨h.once, fun s' hs' hcb => ?_, fun s' hs' => ?_⟩
  · rcases List.mem_append.1 hs' with hs' | hs'
    · exact .inr ((h.tracked s' hs' hcb).resolve_left (by simp))
    · exact .inl (List.mem_singleton.1 hs' ▸ rfl)
  · exact List.mem_append_right _ (List.mem_singleton.2 (Option.some.inj hs').symm)

/-- The pending request `s`, not called back before, finishes, and is called
back if it has a callback. -/
theorem SlotOk.finish (h : SlotOk idOf cbOf started calls (some s)) (hu : idOf s ∉ calls) :
    SlotOk idOf cbOf started (calls ++ if cbOf s then [idOf s] else []) none := by
  refine ⟨?_, fun s' hs' hcb => .inr ?_, by simp⟩
  · split
    · exact List.nodup_append.2 ⟨h.once, List.nodup_singleton _, by simpa using hu⟩
    · simpa using h.once
  · rcases h.tracked s' hs' hcb with hs | hc
    · obtain rfl := Option.some.inj hs
      simp [hcb]
    · exact List.mem_append_left _ hc

/-- A request `s` not called back before is called back. -/
theorem SlotOk.cancel (h : SlotOk idOf cbOf started calls pending) (hu : idOf s ∉ calls) :
    SlotOk idOf cbOf started (calls ++ [idOf s]) pending :=
  ⟨List.nodup_append.2 ⟨h.once, List.nodup_singleton _, by simpa using hu⟩,
    fun s' hs' hcb => (h.tracked s' hs' hcb).imp_right (List.mem_append_left _), h.isStarted⟩

/-- The slot is emptied of a request already called back. -/
theorem SlotOk.clear (h : SlotOk idOf cbOf started calls pending)
    (hc : ∀ s, pending = some s → idOf s ∈ calls) : SlotOk idOf cbOf started calls none :=
  ⟨h.once, fun s' hs' hcb => .inr ((h.tracked s' hs' hcb).elim (hc s') fun hc' => hc'), by simp⟩

end Slot

/-- What holds of the shutdown and the connect requests along every run. -/
structure ReqCallsOk (ws : WriteSide) : Prop where
  shutdown : SlotOk ShutdownReq.id ShutdownReq.cb (shutdownSubmits ws.log) (shutdownCalls ws.log)
    ws.pend.shutdownReq
  connect : SlotOk ConnectReq.id ConnectReq.cb (connectSubmits ws.log) (connectCalls ws.log)
    ws.pend.connectReq

theorem reqCallsOk_initial : ReqCallsOk WriteSide.initial := ⟨SlotOk.nil, SlotOk.nil⟩

/-- Events of the write requests. -/
theorem ReqCallsOk.log (h : ReqCallsOk ⟨q, c, z, l, n, p⟩) (h₁ : shutdownSubmits l' = [])
    (h₂ : shutdownCalls l' = []) (h₃ : connectSubmits l' = []) (h₄ : connectCalls l' = []) :
    ReqCallsOk ⟨q', c', z', l ++ l', n', p⟩ := by
  obtain ⟨hs, hc⟩ := h
  constructor <;> simpa [h₁, h₂, h₃, h₄]

/-- **Every move keeps `ReqCallsOk`.** -/
theorem ReqCallsOk.move {a b : WriteSide} (hm : WriteMove a b) (ok : WriteOk a) (h : ReqCallsOk a) :
    ReqCallsOk b := by
  cases hm with
  | submit | again | fail | sendPart | sendAll | complete => exact h.log (by rfl) (by rfl) (by rfl) (by rfl)
  | flush | completeNull | withdraw | streamOpen | close => exact ⟨h.1, h.2⟩
  | @shutdown q c z l n p s _ hsh =>
    have hnone : p.shutdownReq = none := Option.eq_none_iff_forall_not_mem.2 fun s' hs' =>
      absurd (ok.pend.shutdownReq s' hs').2.1 (by simp [hsh])
    exact ⟨by simpa [shutdownSubmits, shutdownCalls, Event.shutdownSubmitted, Event.shutdownCalled]
        using (hnone ▸ h.shutdown).start,
      by simpa [connectSubmits, connectCalls, Event.connectSubmitted, Event.connectCalled] using h.connect⟩
  | @shutdownDone q c z l n p s st hs hcl =>
    have hu : s.id ∉ shutdownCalls l := by
      simpa using (ok.pend.shutdownReq s hs).2.2.resolve_left
        fun hc => by simpa [hcl] using ok.pend.destroyed hc
    have hf := (hs ▸ h.shutdown).finish hu
    dsimp only at hf
    cases hcb : s.cb <;>
      exact ⟨by simpa [hcb, shutdownSubmits, shutdownCalls, Event.shutdownSubmitted,
          Event.shutdownCalled] using hf,
        by simpa [hcb, connectSubmits, connectCalls, Event.connectSubmitted, Event.connectCalled]
          using h.connect⟩
  | @shutdownCancel q c z l n p s _ _ _ hu =>
    exact ⟨by simpa [shutdownSubmits, shutdownCalls, Event.shutdownSubmitted, Event.shutdownCalled]
        using h.shutdown.cancel (s := s) (by simpa using hu),
      by simpa [connectSubmits, connectCalls, Event.connectSubmitted, Event.connectCalled] using h.connect⟩
  | shutdownEnd _ hc => exact ⟨h.shutdown.clear fun s hs => mem_shutdownCalls.2 (hc s hs), h.connect⟩
  | @connect q c z l n p r _ hnone _ =>
    exact ⟨by simpa [shutdownSubmits, shutdownCalls, Event.shutdownSubmitted, Event.shutdownCalled]
        using h.shutdown,
      by simpa [connectSubmits, connectCalls, Event.connectSubmitted, Event.connectCalled]
        using (hnone ▸ h.connect).start⟩
  | @connectDone q c z l n p r st hr hcl =>
    have hu : r.id ∉ connectCalls l := by
      simpa using (ok.pend.connectReq r hr).2.resolve_left
        fun hc => by simpa [hcl] using ok.pend.destroyed hc
    have hf := (hr ▸ h.connect).finish hu
    dsimp only at hf
    cases hcb : r.cb <;>
      exact ⟨by simpa [hcb, shutdownSubmits, shutdownCalls, Event.shutdownSubmitted,
          Event.shutdownCalled] using h.shutdown,
        by simpa [hcb, connectSubmits, connectCalls, Event.connectSubmitted, Event.connectCalled]
          using hf⟩
  | @connectCancel q c z l n p r _ _ _ hu =>
    exact ⟨by simpa [shutdownSubmits, shutdownCalls, Event.shutdownSubmitted, Event.shutdownCalled]
        using h.shutdown,
      by simpa [connectSubmits, connectCalls, Event.connectSubmitted, Event.connectCalled]
        using h.connect.cancel (s := r) (by simpa using hu)⟩
  | connectEnd _ hc => exact ⟨h.shutdown, h.connect.clear fun r hr => mem_connectCalls.2 (hc r hr)⟩

theorem ReqCallsOk.destroy {a : WriteSide} (h : ReqCallsOk a) : ReqCallsOk a.destroyed :=
  ⟨h.shutdown, h.connect⟩

/-! ## Every run -/

/-- The events outside the requests call back no request and start none. -/
theorem Event.quiet_of_not_isReq {e : Event} (h : e.isReq = false) :
    e.writeCalled = none ∧ e.shutdownCalled = none ∧ e.connectCalled = none ∧
      e.shutdownSubmitted = none ∧ e.connectSubmitted = none := by
  cases e <;> (try cases ‹Callback›) <;>
    simp_all [Event.isReq, Event.writeCalled, Event.shutdownCalled, Event.connectCalled,
      Event.shutdownSubmitted, Event.connectSubmitted]

theorem filterMap_reqLog {α : Type} {f : Event → Option α} (hf : ∀ e, e.isReq = false → f e = none)
    (t : List Event) : (reqLog t).filterMap f = t.filterMap f := by
  induction t with
  | nil => rfl
  | cons e t ih => cases he : e.isReq <;> simp [he, hf e, ih, List.filterMap_cons]

theorem writeCalls_reqLog (t : List Event) : writeCalls (reqLog t) = writeCalls t :=
  filterMap_reqLog (fun _ h => (Event.quiet_of_not_isReq h).1) t

theorem shutdownCalls_reqLog (t : List Event) : shutdownCalls (reqLog t) = shutdownCalls t :=
  filterMap_reqLog (fun _ h => (Event.quiet_of_not_isReq h).2.1) t

theorem connectCalls_reqLog (t : List Event) : connectCalls (reqLog t) = connectCalls t :=
  filterMap_reqLog (fun _ h => (Event.quiet_of_not_isReq h).2.2.1) t

theorem shutdownSubmits_reqLog (t : List Event) : shutdownSubmits (reqLog t) = shutdownSubmits t :=
  filterMap_reqLog (fun _ h => (Event.quiet_of_not_isReq h).2.2.2.1) t

theorem connectSubmits_reqLog (t : List Event) : connectSubmits (reqLog t) = connectSubmits t :=
  filterMap_reqLog (fun _ h => (Event.quiet_of_not_isReq h).2.2.2.2) t

theorem callsOk_reachable {ok : User} {m : Machine} (h : Reachable ok m) : CallsOk m.w.writes :=
  (@reachable_writes (fun ws => WireOk ws ∧ CallsOk ws) ⟨wireOk_initial, callsOk_initial⟩
    (fun _ _ ok hm h => ⟨h.1.move hm ok, h.2.move hm ok h.1⟩)
    (fun _ _ _ h => ⟨h.1.destroy, h.2.destroy⟩) ok m h).2

theorem reqCallsOk_reachable {ok : User} {m : Machine} (h : Reachable ok m) :
    ReqCallsOk m.w.writes :=
  reachable_writes reqCallsOk_initial (fun _ _ ok hm h => h.move hm ok) (fun _ _ _ h => h.destroy) h

/-- **No lost or duplicated completions.** In every reachable machine:

* write callbacks come in the order of the requests' identities, so each
  request is called back at most once;
* shutdown and connect callbacks come at most once each;
* a write callback's status is 0 only for a request whose data the descriptor
  took in full, and is otherwise `UV_ECANCELED` or the error of a failed write
  of it;
* a shutdown or connect request with a callback is pending until it is called
  back;
* when the loop is idle on a closed stream, so that `uv__stream_destroy` has
  returned, every request with a callback has been called back;
* a pending shutdown has been started and has `UV_STREAM_SHUTTING` set;
* a stream that is shutting down and not closing has a shutdown pending, so
  no step fails the assertion of `uv__drain`. -/
theorem completions_once {ok : User} {m : Machine} (h : Reachable ok m) :
    (writeCalls m.w.trace).Pairwise (· < ·) ∧ (shutdownCalls m.w.trace).Nodup ∧
      (connectCalls m.w.trace).Nodup ∧
      (∀ i st, Event.call (.write i st) ∈ m.w.trace →
        st = 0 ∧ (∀ r ∈ submits m.w.trace, r.id = i → sentBy m.w.trace i = r.data) ∨
          st = -ECANCELED ∨ st < 0 ∧ ∃ fd hd, Event.write fd i hd st [] ∈ m.w.trace) ∧
      (∀ s ∈ shutdownSubmits m.w.trace, s.cb →
        m.w.s.shutdownReq = some s ∨ s.id ∈ shutdownCalls m.w.trace) ∧
      (∀ r ∈ connectSubmits m.w.trace, r.cb →
        m.w.s.connectReq = some r ∨ r.id ∈ connectCalls m.w.trace) ∧
      (m.ctl = .idle → m.w.s.flags.closed →
        (∀ r ∈ submits m.w.trace, r.cb = .user → r.id ∈ writeCalls m.w.trace) ∧
        (∀ s ∈ shutdownSubmits m.w.trace, s.cb → s.id ∈ shutdownCalls m.w.trace) ∧
        ∀ r ∈ connectSubmits m.w.trace, r.cb → r.id ∈ connectCalls m.w.trace) ∧
      (∀ s, m.w.s.shutdownReq = some s → m.w.s.flags.shutting ∧ s ∈ shutdownSubmits m.w.trace) ∧
      (m.w.s.flags.shutting → m.w.s.flags.closing = false → m.w.s.shutdownReq ≠ none) ∧
      ∀ act env, m.step act env ≠ .error (.assertion "stream->shutdown_req") := by
  have hm := accounting_reachable h
  have hwire := (wireOk_reachable h).called
  obtain ⟨ho, -, -, htr, -, hcl⟩ := callsOk_reachable h
  obtain ⟨hsh, hcn⟩ := reqCallsOk_reachable h
  simp only [writes_log, writes_queue, writes_completed, writes_pend, pending_shutdownReq,
    pending_connectReq, writeCalls_reqLog, shutdownCalls_reqLog, connectCalls_reqLog,
    shutdownSubmits_reqLog, connectSubmits_reqLog, submits_reqLog, sentBy_reqLog,
    call_write_mem_reqLog] at hwire ho htr hcl hsh hcn
  refine ⟨ho, hsh.once, hcn.once, fun i st hi => ?_, hsh.tracked, hcn.tracked, fun hi hc => ?_,
    fun s hs => ⟨(hm.writes.pend.shutdownReq s hs).2.1, hsh.isStarted s hs⟩,
    hm.writes.pend.shutting, fun act env he => hm.step.of_error he (.inr rfl)⟩
  · rcases hcl i st hi with rfl | hst | ⟨hn, fd, hd, hw⟩
    · exact .inl ⟨rfl, fun r hr hri => hri ▸ hwire r hr (hri ▸ hi)⟩
    · exact .inr (.inl hst)
    · exact .inr (.inr ⟨hn, fd, hd, (List.mem_filter.1 hw).1⟩)
  · obtain ⟨hq, hc, hs, hr⟩ := hm.done hi hc
    exact ⟨fun r hr' hu => (htr r hr' hu).resolve_left (by simp [hq, hc, reqTags]),
      fun s hs' hcb => (hsh.tracked s hs' hcb).resolve_left (by simp [hs]),
      fun r hr' hcb => (hcn.tracked r hr' hcb).resolve_left (by simp [hr])⟩

/-- A stream opened on descriptor 7 writes one byte with a callback, which the
kernel takes at once, and is shut down with a callback; at the next `POLLOUT`
the write is called back, then the shutdown. -/
def writeThenShutdown : List (Action × List Answer) :=
  [(.api (.streamOpen 7 true true false), []), (.api (.write2 [[1]] none true), [⟨1, []⟩]),
   (.api (.shutdown true), []), (.dispatch (.io ⟨false, true, false, false⟩), []),
   (.ret ⟨0, 0⟩, [⟨0, []⟩])]

theorem completions_after_write_then_shutdown :
    writeCalls (Machine.after .tcp false writeThenShutdown).w.trace = [0] ∧
      shutdownCalls (Machine.after .tcp false writeThenShutdown).w.trace = [1] ∧
      ((writeCalls (Machine.after .tcp false writeThenShutdown).w.trace).Pairwise (· < ·) ∧
      (shutdownCalls (Machine.after .tcp false writeThenShutdown).w.trace).Nodup ∧
      (connectCalls (Machine.after .tcp false writeThenShutdown).w.trace).Nodup ∧
      (∀ i st, Event.call (.write i st) ∈ (Machine.after .tcp false writeThenShutdown).w.trace →
        st = 0 ∧ (∀ r ∈ submits (Machine.after .tcp false writeThenShutdown).w.trace, r.id = i →
            sentBy (Machine.after .tcp false writeThenShutdown).w.trace i = r.data) ∨
          st = -ECANCELED ∨ st < 0 ∧ ∃ fd hd,
            Event.write fd i hd st [] ∈ (Machine.after .tcp false writeThenShutdown).w.trace) ∧
      (∀ s ∈ shutdownSubmits (Machine.after .tcp false writeThenShutdown).w.trace, s.cb →
        (Machine.after .tcp false writeThenShutdown).w.s.shutdownReq = some s ∨
          s.id ∈ shutdownCalls (Machine.after .tcp false writeThenShutdown).w.trace) ∧
      (∀ r ∈ connectSubmits (Machine.after .tcp false writeThenShutdown).w.trace, r.cb →
        (Machine.after .tcp false writeThenShutdown).w.s.connectReq = some r ∨
          r.id ∈ connectCalls (Machine.after .tcp false writeThenShutdown).w.trace) ∧
      ((Machine.after .tcp false writeThenShutdown).ctl = .idle →
        (Machine.after .tcp false writeThenShutdown).w.s.flags.closed →
        (∀ r ∈ submits (Machine.after .tcp false writeThenShutdown).w.trace, r.cb = .user →
          r.id ∈ writeCalls (Machine.after .tcp false writeThenShutdown).w.trace) ∧
        (∀ s ∈ shutdownSubmits (Machine.after .tcp false writeThenShutdown).w.trace, s.cb →
          s.id ∈ shutdownCalls (Machine.after .tcp false writeThenShutdown).w.trace) ∧
        ∀ r ∈ connectSubmits (Machine.after .tcp false writeThenShutdown).w.trace, r.cb →
          r.id ∈ connectCalls (Machine.after .tcp false writeThenShutdown).w.trace) ∧
      (∀ s, (Machine.after .tcp false writeThenShutdown).w.s.shutdownReq = some s →
        (Machine.after .tcp false writeThenShutdown).w.s.flags.shutting ∧
          s ∈ shutdownSubmits (Machine.after .tcp false writeThenShutdown).w.trace) ∧
      ((Machine.after .tcp false writeThenShutdown).w.s.flags.shutting →
        (Machine.after .tcp false writeThenShutdown).w.s.flags.closing = false →
        (Machine.after .tcp false writeThenShutdown).w.s.shutdownReq ≠ none) ∧
      ∀ act env, (Machine.after .tcp false writeThenShutdown).step act env ≠
        .error (.assertion "stream->shutdown_req")) :=
  ⟨by decide, by decide, completions_once (after_reachable _ _ _)⟩

/-- A stream opened on descriptor 7 is shut down with a NULL callback and
closed before the shutdown is carried out. -/
def nullShutdownClose : List (Action × List Answer) :=
  [(.api (.streamOpen 7 true true false), []), (.api (.shutdown false), []), (.api .close, [])]

/-- `uv__finish_close` then reaches `uv__stream_destroy`, which calls the
shutdown's NULL callback with `UV_ECANCELED`. -/
theorem shutdown_null_cb_called_on_close :
    (Machine.after .tcp false nullShutdownClose).step (.dispatch .finishClose) [] = .error .nullCall :=
  by decide

end UvStream
