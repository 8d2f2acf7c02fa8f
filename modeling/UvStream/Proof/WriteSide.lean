import UvStream.Proof.Frame
import UvStream.Proof.WriteLoop

/-!
# The requests of a stream, and how the code moves them

The write side of a stream (`World.writes`) is its two write queues,
`write_queue_size`, the events of its requests, the identity the next request
gets, and the `Pending` part: its descriptor, the flags of its closing and
shutting down, and its pending shutdown and connect requests. Every function of
`stream.c` changes it by a sequence of `WriteMove`s:

* a write request queued; a write of the head request that took nothing,
  failed, took part of its bytes or all of them; the queue cancelled; the head
  of the completed queue retired with its callback; `uv_try_write` taking its
  request back;
* a shutdown request started, carried out by `uv__drain`, or cancelled by
  `uv__stream_destroy`; a connect request started, finished, or cancelled;
* the stream opened or closed.

`uv__finish_close` marking the stream closed (`WriteSide.destroyed`) is no
move: no function of `stream.c` changes the flag.

`WriteOk` is what holds of the write side along every run:

* `write_queue_size` is the number of bytes the requests of both queues still
  have to write;
* a queued request has not failed and has a buffer left at `write_index`;
* the completed queue, then the write queue, are in the order of the requests'
  identities, all below the next one;
* no subtraction on `write_queue_size` ever went below zero;
* a closing stream has released its descriptor, and only a closing stream is
  closed;
* a pending shutdown or connect request has an identity below the next one,
  and has not been called back unless the stream is closed; a shutdown is
  pending only while the stream is shutting down, and a stream that is shutting
  down and not closing has its shutdown pending.

`WriteOk.move` shows that **every move keeps `WriteOk`**.
-/

namespace UvStream

/-- The write side of a world. -/
structure WriteSide where
  queue : List WriteReq
  completed : List WriteReq
  size : Int
  log : List Event
  nextId : Nat
  pend : Pending

/-- The write side of `w`. -/
def World.writes (w : World) : WriteSide :=
  ⟨w.s.writeQueue, w.s.writeCompletedQueue, w.s.writeQueueSize, reqLog w.trace, w.nextId,
    w.pending⟩

/-- The bytes a request has still to write. -/
def WriteReq.pending (r : WriteReq) : Nat := countBufs r.rest

/-- The bytes the requests of a queue have still to write. -/
def queueBytes (q : List WriteReq) : Nat := (q.map WriteReq.pending).sum

/-- A request that `uv__write` finished without error: its buffers freed. -/
def WriteReq.finished (r : WriteReq) : WriteReq :=
  { r with writeIndex := (r.bufs.getD []).length, bufs := none }

/-- One change of the write side by a function of the stream. -/
inductive WriteMove : WriteSide → WriteSide → Prop
  /-- `uv_write2` queues `req`. -/
  | submit {q c z l n p} (req : WriteReq) (bufs : List Buf) :
      req.id = n → req.error = 0 → req.writeIndex = 0 → req.bufs = some bufs → bufs ≠ [] →
      WriteMove ⟨q, c, z, l, n, p⟩
        ⟨q ++ [req], c, z + countBufs bufs, l ++ [.submit req], n + 1, p⟩
  /-- A write of the head request that took nothing and may be retried. -/
  | again {req q c z l n p} (fd ret : Int) : ret < 0 →
      WriteMove ⟨req :: q, c, z, l, n, p⟩
        ⟨req :: q, c, z, l ++ [.write fd req.id req.sendHandle ret []], n, p⟩
  /-- A write of the head request that failed: the request completes with the error. -/
  | fail {req q c z l n p} (fd ret : Int) : ret < 0 →
      WriteMove ⟨req :: q, c, z, l, n, p⟩
        ⟨q, c ++ [{ req with error := ret }], z, l ++ [.write fd req.id req.sendHandle ret []], n,
          p⟩
  /-- A write that took the first `k` bytes the head request has left, not all. -/
  | sendPart {req q c z l n p} (req' : WriteReq) (fd : Int) (k : Nat) :
      req'.id = req.id → req'.cb = req.cb → req'.error = req.error →
      req'.sendHandle = req.sendHandle →
      (∃ bufs, req'.bufs = some bufs ∧ req'.writeIndex < bufs.length) →
      req'.rest.flatten = req.rest.flatten.drop k → req'.rest.flatten ≠ [] →
      WriteMove ⟨req :: q, c, z, l, n, p⟩
        ⟨req' :: q, c, z - k, l ++ [.write fd req.id req.sendHandle k (req.rest.flatten.take k)], n,
          p⟩
  /-- A write that took every byte the head request had left: it completes. -/
  | sendAll {req q c z l n p} (fd : Int) :
      WriteMove ⟨req :: q, c, z, l, n, p⟩
        ⟨q, c ++ [req.finished], z - req.pending,
          l ++ [.write fd req.id req.sendHandle req.pending req.rest.flatten], n, p⟩
  /-- `uv__stream_flush_write_queue (stream, UV_ECANCELED)`: every queued request
  completes, cancelled. -/
  | flush {q c z l n p} :
      WriteMove ⟨q, c, z, l, n, p⟩
        ⟨[], c ++ q.map (fun r => { r with error := -ECANCELED }), z, l, n, p⟩
  /-- The head of the completed queue retires, and its callback is called. -/
  | complete {req q c z l n p} : req.cb = .user →
      WriteMove ⟨q, req :: c, z, l, n, p⟩
        ⟨q, c, z - req.pending, l ++ [.call (.write req.id req.error)], n, p⟩
  /-- The head of the completed queue retires; it has no callback. -/
  | completeNull {req q c z l n p} : req.cb = .null →
      WriteMove ⟨q, req :: c, z, l, n, p⟩ ⟨q, c, z - req.pending, l, n, p⟩
  /-- `uv_try_write` takes its request `r` back. -/
  | withdraw {q c z l n p} (r : WriteReq) : r ∈ c ++ q → r.cb = .tryWrite →
      WriteMove ⟨q, c, z, l, n, p⟩
        ⟨q.filter (·.id ≠ r.id), c.filter (·.id ≠ r.id), z - r.pending, l, n, p⟩
  /-- `uv__stream_open` on a stream that is not closing. -/
  | streamOpen {q c z l n p} (fd : Int) : p.closing = false →
      WriteMove ⟨q, c, z, l, n, p⟩ ⟨q, c, z, l, n, { p with fd := fd }⟩
  /-- `uv_close`: the stream is closing, and its descriptor released. -/
  | close {q c z l n p} : p.closing = false →
      WriteMove ⟨q, c, z, l, n, p⟩ ⟨q, c, z, l, n, { p with fd := -1, closing := true }⟩
  /-- `uv_shutdown` starts the shutdown request `s`. -/
  | shutdown {q c z l n p} (s : ShutdownReq) : s.id = n → p.shutting = false →
      p.closing = false →
      WriteMove ⟨q, c, z, l, n, p⟩ ⟨q, c, z, l ++ [.submitShutdown s], n + 1,
        { p with shutting := true, shutdownReq := some s }⟩
  /-- `uv__drain` carries out the pending shutdown `s` with status `st`. -/
  | shutdownDone {q c z l n p} (s : ShutdownReq) (st : Int) : p.shutdownReq = some s →
      p.closing = false →
      WriteMove ⟨q, c, z, l, n, p⟩
        ⟨q, c, z, l ++ (if s.cb then [.call (.shutdown s.id st)] else []), n,
          { p with shutting := false, shutdownReq := none }⟩
  /-- `uv__stream_destroy` calls the callback of the pending shutdown `s`
  with `UV_ECANCELED`, ... -/
  | shutdownCancel {q c z l n p} (s : ShutdownReq) : p.shutdownReq = some s → p.closed = true →
      s.cb = true → (∀ st, .call (.shutdown s.id st) ∉ l) →
      WriteMove ⟨q, c, z, l, n, p⟩ ⟨q, c, z, l ++ [.call (.shutdown s.id (-ECANCELED))], n, p⟩
  /-- ... and then sets `shutdown_req` to NULL. -/
  | shutdownEnd {q c z l n p} : p.closed = true →
      (∀ s, p.shutdownReq = some s → ∃ st, .call (.shutdown s.id st) ∈ l) →
      WriteMove ⟨q, c, z, l, n, p⟩ ⟨q, c, z, l, n, { p with shutdownReq := none }⟩
  /-- A transport starts the connect request `r`. -/
  | connect {q c z l n p} (r : ConnectReq) : r.id = n → p.connectReq = none → p.closing = false →
      WriteMove ⟨q, c, z, l, n, p⟩
        ⟨q, c, z, l ++ [.submitConnect r], n + 1, { p with connectReq := some r }⟩
  /-- `uv__stream_connect` finishes the pending connect `r` with status `st`. -/
  | connectDone {q c z l n p} (r : ConnectReq) (st : Int) : p.connectReq = some r →
      p.closing = false →
      WriteMove ⟨q, c, z, l, n, p⟩
        ⟨q, c, z, l ++ (if r.cb then [.call (.connect r.id st)] else []), n,
          { p with connectReq := none }⟩
  /-- `uv__stream_destroy` calls the callback of the pending connect `r`
  with `UV_ECANCELED`, ... -/
  | connectCancel {q c z l n p} (r : ConnectReq) : p.connectReq = some r → p.closed = true →
      r.cb = true → (∀ st, .call (.connect r.id st) ∉ l) →
      WriteMove ⟨q, c, z, l, n, p⟩ ⟨q, c, z, l ++ [.call (.connect r.id (-ECANCELED))], n, p⟩
  /-- ... and then sets `connect_req` to NULL. -/
  | connectEnd {q c z l n p} : p.closed = true →
      (∀ r, p.connectReq = some r → ∃ st, .call (.connect r.id st) ∈ l) →
      WriteMove ⟨q, c, z, l, n, p⟩ ⟨q, c, z, l, n, { p with connectReq := none }⟩

/-- Moves one after another. -/
abbrev WriteMoves := Relation.ReflTransGen WriteMove

@[simp] theorem writeMoves_self (ws : WriteSide) : WriteMoves ws ws := .refl

/-- What holds of the pending part, with the events `l` and the next identity
`n`, along every run. -/
structure PendOk (l : List Event) (n : Nat) (p : Pending) : Prop where
  closed : p.closing → p.fd = -1
  destroyed : p.closed → p.closing
  calls : ∀ i st, .call (.shutdown i st) ∈ l ∨ .call (.connect i st) ∈ l → i < n
  shutdownReq : ∀ s, p.shutdownReq = some s → s.id < n ∧ p.shutting ∧
    (p.closed ∨ ∀ st, .call (.shutdown s.id st) ∉ l)
  connectReq : ∀ r, p.connectReq = some r → r.id < n ∧
    (p.closed ∨ ∀ st, .call (.connect r.id st) ∉ l)
  shutting : p.shutting → p.closing = false → p.shutdownReq ≠ none

/-- What holds of the write side along every run. -/
structure WriteOk (ws : WriteSide) : Prop where
  size : ws.size = queueBytes ws.queue + queueBytes ws.completed
  live : ∀ r ∈ ws.queue, r.error = 0 ∧ ∃ bufs, r.bufs = some bufs ∧ r.writeIndex < bufs.length
  order : ((ws.completed ++ ws.queue).map WriteReq.id).Pairwise (· < ·)
  fresh : ∀ r ∈ ws.completed ++ ws.queue, r.id < ws.nextId
  noWrap : Event.sizeWrap ∉ ws.log
  pend : PendOk ws.log ws.nextId ws.pend

/-! ## Byte counts -/

@[simp] theorem queueBytes_nil : queueBytes [] = 0 := rfl

@[simp] theorem queueBytes_cons (r : WriteReq) (q : List WriteReq) :
    queueBytes (r :: q) = r.pending + queueBytes q := by
  simp [queueBytes]

@[simp] theorem queueBytes_append (q q' : List WriteReq) :
    queueBytes (q ++ q') = queueBytes q + queueBytes q' := by
  induction q <;> simp_all [Nat.add_assoc]

@[simp] theorem pending_setError (r : WriteReq) (e : Int) : { r with error := e }.pending = r.pending :=
  rfl

@[simp] theorem pending_finished (r : WriteReq) : r.finished.pending = 0 := by
  simp [WriteReq.finished, WriteReq.pending, WriteReq.rest]

@[simp] theorem queueBytes_map_setError (q : List WriteReq) (e : Int) :
    queueBytes (q.map fun r => { r with error := e }) = queueBytes q := by
  induction q <;> simp_all

theorem pending_eq_length (r : WriteReq) : r.pending = r.rest.flatten.length := countBufs_eq _

/-- Taking one request out of a queue whose identities are distinct. -/
theorem queueBytes_filter_id (l : List WriteReq) (i : Nat) :
    queueBytes l = queueBytes (l.filter (·.id ≠ i)) + queueBytes (l.filter (·.id = i)) := by
  induction l with
  | nil => rfl
  | cons r l ih => by_cases h : r.id = i <;> simp [h, ih] <;> omega

theorem filter_id_eq_singleton {l : List WriteReq} {r : WriteReq}
    (hnd : (l.map WriteReq.id).Pairwise (· < ·)) (hr : r ∈ l) : l.filter (·.id = r.id) = [r] := by
  induction l with
  | nil => simp at hr
  | cons a l ih =>
    simp only [List.map_cons, List.pairwise_cons, List.mem_map] at hnd
    rcases List.mem_cons.1 hr with rfl | hr
    · have : l.filter (·.id = r.id) = [] :=
        List.filter_eq_nil_iff.2 fun b hb => by simpa using (hnd.1 _ ⟨b, hb, rfl⟩).ne'
      simp [this]
    · have hne : a.id ≠ r.id := (hnd.1 _ ⟨r, hr, rfl⟩).ne
      simp [hne, ih hnd.2 hr]

/-! ## The pending part -/

/-- Events that call back no shutdown or connect request. -/
def NoReqCall (l : List Event) : Prop :=
  ∀ i st, .call (.shutdown i st) ∉ l ∧ .call (.connect i st) ∉ l

section
variable {l l' : List Event} {n n' : Nat} {p : Pending}

/-- The write path adds no callback of a shutdown or connect request. -/
theorem PendOk.append (h : PendOk l n p) (hn : n ≤ n') (hl : NoReqCall l') :
    PendOk (l ++ l') n' p where
  closed := h.closed
  destroyed := h.destroyed
  calls i st hi := by
    simp only [List.mem_append] at hi
    rcases hi with (hi | hi) | (hi | hi)
    · exact (h.calls i st (.inl hi)).trans_le hn
    · exact absurd hi (hl i st).1
    · exact (h.calls i st (.inr hi)).trans_le hn
    · exact absurd hi (hl i st).2
  shutdownReq s hs := by
    obtain ⟨hid, hsh, hc⟩ := h.shutdownReq s hs
    refine ⟨hid.trans_le hn, hsh, hc.imp id fun hc st hm => ?_⟩
    rcases List.mem_append.1 hm with hm | hm
    exacts [hc st hm, (hl _ st).1 hm]
  connectReq r hr := by
    obtain ⟨hid, hc⟩ := h.connectReq r hr
    refine ⟨hid.trans_le hn, hc.imp id fun hc st hm => ?_⟩
    rcases List.mem_append.1 hm with hm | hm
    exacts [hc st hm, (hl _ st).2 hm]
  shutting := h.shutting

theorem PendOk.streamOpen (h : PendOk l n p) (fd : Int) (hc : p.closing = false) :
    PendOk l n { p with fd := fd } :=
  ⟨fun h' => absurd h' (by simp [hc]), h.destroyed, h.calls, h.shutdownReq, h.connectReq,
    h.shutting⟩

theorem PendOk.close (h : PendOk l n p) : PendOk l n { p with fd := -1, closing := true } :=
  ⟨fun _ => rfl, fun _ => rfl, h.calls, h.shutdownReq, h.connectReq, fun _ h' => by simp at h'⟩

theorem PendOk.destroy (h : PendOk l n p) (hc : p.closing = true) :
    PendOk l n { p with closed := true } :=
  ⟨h.closed, fun _ => hc, h.calls, fun s hs => ⟨(h.shutdownReq s hs).1, (h.shutdownReq s hs).2.1,
    .inl rfl⟩, fun r hr => ⟨(h.connectReq r hr).1, .inl rfl⟩, h.shutting⟩

theorem PendOk.shutdown (h : PendOk l n p) {s : ShutdownReq} (hid : s.id = n) :
    PendOk (l ++ [.submitShutdown s]) (n + 1) { p with shutting := true, shutdownReq := some s } where
  closed := h.closed
  destroyed := h.destroyed
  calls i st hi := by simpa using (h.calls i st (by simpa using hi)).trans (Nat.lt_succ_self n)
  shutdownReq s' hs := by
    obtain rfl : s = s' := Option.some.inj hs
    exact ⟨by omega, rfl, .inr fun st hm => by
      simpa [hid] using h.calls s.id st (.inl (by simpa using hm))⟩
  connectReq r hr := by
    obtain ⟨hid, hc⟩ := h.connectReq r hr
    exact ⟨by omega, hc.imp id fun hc st hm => hc st (by simpa using hm)⟩
  shutting _ _ := by simp

theorem PendOk.shutdownDone (h : PendOk l n p) {s : ShutdownReq} (st : Int)
    (hs : p.shutdownReq = some s) :
    PendOk (l ++ if s.cb then [.call (.shutdown s.id st)] else []) n
      { p with shutting := false, shutdownReq := none } where
  closed := h.closed
  destroyed := h.destroyed
  calls i st' hi := by
    rcases hi with hi | hi <;> rcases List.mem_append.1 hi with hi | hi
    · exact h.calls i st' (.inl hi)
    · split at hi <;> simp at hi; exact hi.1 ▸ (h.shutdownReq s hs).1
    · exact h.calls i st' (.inr hi)
    · split at hi <;> simp at hi
  shutdownReq _ h' := by simp at h'
  connectReq r hr := by
    obtain ⟨hid, hc⟩ := h.connectReq r hr
    exact ⟨hid, hc.imp id fun hc st' hm => by
      rcases List.mem_append.1 hm with hm | hm
      · exact hc st' hm
      · split at hm <;> simp at hm⟩
  shutting h' := by simp at h'

theorem PendOk.shutdownCancel (h : PendOk l n p) {s : ShutdownReq} (hs : p.shutdownReq = some s)
    (hcd : p.closed = true) : PendOk (l ++ [.call (.shutdown s.id (-ECANCELED))]) n p where
  closed := h.closed
  destroyed := h.destroyed
  calls i st hi := by
    rcases hi with hi | hi <;> rcases List.mem_append.1 hi with hi | hi
    · exact h.calls i st (.inl hi)
    · simp at hi; exact hi.1 ▸ (h.shutdownReq s hs).1
    · exact h.calls i st (.inr hi)
    · simp at hi
  shutdownReq s' hs' := ⟨(h.shutdownReq s' hs').1, (h.shutdownReq s' hs').2.1, .inl hcd⟩
  connectReq r hr := ⟨(h.connectReq r hr).1, .inl hcd⟩
  shutting := h.shutting

theorem PendOk.shutdownEnd (h : PendOk l n p) (hcd : p.closed = true) :
    PendOk l n { p with shutdownReq := none } :=
  ⟨h.closed, h.destroyed, h.calls, fun _ h' => by simp at h', h.connectReq,
    fun _ h' => absurd (h.destroyed hcd) (by simpa using h')⟩

theorem PendOk.connect (h : PendOk l n p) {r : ConnectReq} (hid : r.id = n) :
    PendOk (l ++ [.submitConnect r]) (n + 1) { p with connectReq := some r } where
  closed := h.closed
  destroyed := h.destroyed
  calls i st hi := by simpa using (h.calls i st (by simpa using hi)).trans (Nat.lt_succ_self n)
  shutdownReq s hs := by
    obtain ⟨hid, hsh, hc⟩ := h.shutdownReq s hs
    exact ⟨by omega, hsh, hc.imp id fun hc st hm => hc st (by simpa using hm)⟩
  connectReq r' hr := by
    obtain rfl : r = r' := Option.some.inj hr
    exact ⟨by omega, .inr fun st hm => by
      simpa [hid] using h.calls r.id st (.inr (by simpa using hm))⟩
  shutting := h.shutting

theorem PendOk.connectDone (h : PendOk l n p) {r : ConnectReq} (st : Int)
    (hr : p.connectReq = some r) :
    PendOk (l ++ if r.cb then [.call (.connect r.id st)] else []) n { p with connectReq := none } where
  closed := h.closed
  destroyed := h.destroyed
  calls i st' hi := by
    rcases hi with hi | hi <;> rcases List.mem_append.1 hi with hi | hi
    · exact h.calls i st' (.inl hi)
    · split at hi <;> simp at hi
    · exact h.calls i st' (.inr hi)
    · split at hi <;> simp at hi; exact hi.1 ▸ (h.connectReq r hr).1
  shutdownReq s hs := by
    obtain ⟨hid, hsh, hc⟩ := h.shutdownReq s hs
    exact ⟨hid, hsh, hc.imp id fun hc st' hm => by
      rcases List.mem_append.1 hm with hm | hm
      · exact hc st' hm
      · split at hm <;> simp at hm⟩
  connectReq _ h' := by simp at h'
  shutting := h.shutting

theorem PendOk.connectCancel (h : PendOk l n p) {r : ConnectReq} (hr : p.connectReq = some r)
    (hcd : p.closed = true) : PendOk (l ++ [.call (.connect r.id (-ECANCELED))]) n p where
  closed := h.closed
  destroyed := h.destroyed
  calls i st hi := by
    rcases hi with hi | hi <;> rcases List.mem_append.1 hi with hi | hi
    · exact h.calls i st (.inl hi)
    · simp at hi
    · exact h.calls i st (.inr hi)
    · simp at hi; exact hi.1 ▸ (h.connectReq r hr).1
  shutdownReq s hs := ⟨(h.shutdownReq s hs).1, (h.shutdownReq s hs).2.1, .inl hcd⟩
  connectReq r' hr' := ⟨(h.connectReq r' hr').1, .inl hcd⟩
  shutting := h.shutting

theorem PendOk.connectEnd (h : PendOk l n p) : PendOk l n { p with connectReq := none } :=
  ⟨h.closed, h.destroyed, h.calls, h.shutdownReq, fun _ h' => by simp at h', h.shutting⟩

end

/-! ## Every move keeps `WriteOk` -/

variable {a b : WriteSide}

theorem WriteOk.move (h : WriteMove a b) (ok : WriteOk a) : WriteOk b := by
  cases h <;> obtain ⟨hsize, hlive, horder, hfresh, hwrap, hp⟩ := ok <;>
    dsimp only at hsize hlive horder hfresh hwrap hp
  case submit req bufs hid he hi hb hne =>
    refine ⟨?_, ?_, ?_, ?_, by simpa using hwrap, hp.append (Nat.le_succ _) (by simp [NoReqCall])⟩
    · simp [hsize, WriteReq.pending, WriteReq.rest, hb, hi]; omega
    · simp only [List.mem_append, List.mem_singleton]
      rintro r (hr | rfl)
      · exact hlive r hr
      · exact ⟨he, bufs, hb, by rw [hi]; exact List.length_pos.2 hne⟩
    · rw [← List.append_assoc, List.map_append, List.pairwise_append]
      refine ⟨horder, by simp, fun i hi j hj => ?_⟩
      obtain ⟨r, hr, rfl⟩ := List.mem_map.1 hi
      simp only [List.map_cons, List.map_nil, List.mem_singleton] at hj
      exact hj ▸ hid ▸ hfresh r hr
    · rw [← List.append_assoc]
      simp only [List.mem_append, List.mem_singleton]
      rintro r (hr | rfl)
      · exact (hfresh r (List.mem_append.2 hr)).trans (Nat.lt_succ_self _)
      · omega
  case again =>
    exact ⟨hsize, hlive, horder, hfresh, by simpa using hwrap,
      hp.append le_rfl (by simp [NoReqCall])⟩
  case fail =>
    refine ⟨by simp at hsize ⊢; omega, fun r hr => hlive r (.tail _ hr), by simpa using horder,
      fun r hr => ?_, by simpa using hwrap, hp.append le_rfl (by simp [NoReqCall])⟩
    simp only [List.append_assoc, List.singleton_append, List.mem_append, List.mem_cons] at hr
    rcases hr with hr | rfl | hr <;> simp_all
  case sendPart req q c z l n p req' fd k hid hcb he hh hl hflat hne =>
    have hk : req'.pending + k = req.pending := by
      rw [pending_eq_length, pending_eq_length, hflat, List.length_drop]
      have : k < req.rest.flatten.length := by
        by_contra hk; exact hne (by rw [hflat]; exact List.drop_eq_nil_of_le (by omega))
      omega
    refine ⟨by simp at hsize ⊢; omega, ?_, by simpa [hid] using horder, ?_, by simpa using hwrap,
      hp.append le_rfl (by simp [NoReqCall])⟩
    · rintro r (_ | ⟨_, hr⟩)
      · exact ⟨he.trans (hlive req (.head _)).1, hl⟩
      · exact hlive r (.tail _ hr)
    · intro r hr
      simp only [List.mem_append, List.mem_cons] at hr
      rcases hr with hr | rfl | hr
      · exact hfresh r (by simp [hr])
      · exact hid ▸ hfresh req (by simp)
      · exact hfresh r (by simp [hr])
  case sendAll =>
    refine ⟨by simp at hsize ⊢; omega, fun r hr => hlive r (.tail _ hr),
      by simpa [WriteReq.finished] using horder, fun r hr => ?_, by simpa using hwrap,
      hp.append le_rfl (by simp [NoReqCall])⟩
    simp only [List.append_assoc, List.singleton_append, List.mem_append, List.mem_cons] at hr
    rcases hr with hr | rfl | hr <;> simp_all [WriteReq.finished]
  case flush =>
    refine ⟨by simp [hsize]; omega, by simp, by simpa [Function.comp_def] using horder, ?_, hwrap,
      hp⟩
    simp only [List.append_nil, List.mem_append, List.mem_map]
    rintro r (hr | ⟨r', hr', rfl⟩) <;> simp_all
  case complete =>
    refine ⟨by simp at hsize ⊢; omega, hlive, (List.pairwise_cons.1 horder).2,
      fun r hr => hfresh r (.tail _ hr), by simpa using hwrap,
      hp.append le_rfl (by simp [NoReqCall])⟩
  case completeNull =>
    exact ⟨by simp at hsize ⊢; omega, hlive, (List.pairwise_cons.1 horder).2,
      fun r hr => hfresh r (.tail _ hr), hwrap, hp⟩
  case withdraw q c z l n p r hr _ =>
    have hone := filter_id_eq_singleton horder hr
    have hq := queueBytes_filter_id q r.id
    have hc := queueBytes_filter_id c r.id
    rw [List.filter_append] at hone
    have hsum := congrArg queueBytes hone
    simp only [queueBytes_append, queueBytes_cons, queueBytes_nil] at hsum
    refine ⟨by dsimp only; omega, fun r' hr' => hlive r' (List.mem_filter.1 hr').1, ?_, ?_, hwrap,
      hp⟩
    · rw [← List.filter_append]
      exact horder.sublist ((List.filter_sublist _).map _)
    · intro r' hr'
      rw [← List.filter_append] at hr'
      exact hfresh r' (List.mem_filter.1 hr').1
  case streamOpen fd hc => exact ⟨hsize, hlive, horder, hfresh, hwrap, hp.streamOpen fd hc⟩
  case close => exact ⟨hsize, hlive, horder, hfresh, hwrap, hp.close⟩
  case shutdown s hid _ _ =>
    exact ⟨hsize, hlive, horder, fun r hr => (hfresh r hr).trans (Nat.lt_succ_self _),
      by simpa using hwrap, hp.shutdown hid⟩
  case shutdownDone s st hs _ =>
    exact ⟨hsize, hlive, horder, hfresh, by split <;> simpa using hwrap, hp.shutdownDone st hs⟩
  case shutdownCancel s hs hcd _ _ =>
    exact ⟨hsize, hlive, horder, hfresh, by simpa using hwrap, hp.shutdownCancel hs hcd⟩
  case shutdownEnd hcd _ => exact ⟨hsize, hlive, horder, hfresh, hwrap, hp.shutdownEnd hcd⟩
  case connect r hid _ _ =>
    exact ⟨hsize, hlive, horder, fun r hr => (hfresh r hr).trans (Nat.lt_succ_self _),
      by simpa using hwrap, hp.connect hid⟩
  case connectDone r st hr _ =>
    exact ⟨hsize, hlive, horder, hfresh, by split <;> simpa using hwrap, hp.connectDone st hr⟩
  case connectCancel r hr hcd _ _ =>
    exact ⟨hsize, hlive, horder, hfresh, by simpa using hwrap, hp.connectCancel hr hcd⟩
  case connectEnd => exact ⟨hsize, hlive, horder, hfresh, hwrap, hp.connectEnd⟩

/-- The write side once `uv__finish_close` has marked the stream closed. -/
def WriteSide.destroyed (ws : WriteSide) : WriteSide := { ws with pend := { ws.pend with closed := true } }

theorem WriteOk.destroy (ok : WriteOk a) (hc : a.pend.closing) : WriteOk a.destroyed :=
  ⟨ok.size, ok.live, ok.order, ok.fresh, ok.noWrap, ok.pend.destroy hc⟩

theorem WriteMove.closed_eq (h : WriteMove a b) : b.pend.closed = a.pend.closed := by
  cases h <;> rfl

theorem WriteMoves.closed_eq (h : WriteMoves a b) : b.pend.closed = a.pend.closed := by
  induction h with
  | refl => rfl
  | tail _ hm ih => exact hm.closed_eq.trans ih

theorem WriteMove.nextId_le (h : WriteMove a b) : a.nextId ≤ b.nextId := by
  cases h <;> simp

theorem WriteMoves.nextId_le (h : WriteMoves a b) : a.nextId ≤ b.nextId := by
  induction h with
  | refl => exact le_rfl
  | tail _ hm ih => exact ih.trans hm.nextId_le

/-- The requests of identity `n` on the queues have the callback `cb`. -/
def WriteSide.cbIs (ws : WriteSide) (n : Nat) (cb : WriteCb) : Prop :=
  ∀ r ∈ ws.completed ++ ws.queue, r.id = n → r.cb = cb

/-- A request keeps its callback on every move, and no later request takes its
identity. -/
theorem WriteSide.cbIs.move {n : Nat} {cb : WriteCb} (h : WriteMove a b) (hn : n < a.nextId)
    (hc : a.cbIs n cb) : b.cbIs n cb := by
  cases h <;> intro r hr hrn <;> dsimp only at hn hr <;>
    simp only [List.mem_append, List.mem_cons, List.mem_map, List.mem_filter, List.not_mem_nil,
      or_false] at hr
  case submit req bufs hid _ _ _ _ =>
    rcases hr with hr | hr | rfl
    exacts [hc r (by simp [hr]) hrn, hc r (by simp [hr]) hrn, absurd (hrn.symm.trans hid) hn.ne]
  case fail req _ _ _ _ _ _ _ _ _ | sendAll req _ _ _ _ _ _ _ =>
    rcases hr with (hr | rfl) | hr
    exacts [hc r (by simp [hr]) hrn, hc req (by simp) hrn, hc r (by simp [hr]) hrn]
  case sendPart req _ _ _ _ _ _ req' _ _ hid hcb _ _ _ _ _ =>
    rcases hr with hr | rfl | hr
    exacts [hc r (by simp [hr]) hrn, hcb.trans (hc req (by simp) (hid ▸ hrn)),
      hc r (by simp [hr]) hrn]
  case flush =>
    rcases hr with hr | ⟨r', hr', rfl⟩
    exacts [hc r (by simp [hr]) hrn, hc r' (by simp [hr']) hrn]
  case complete req _ _ _ _ _ _ _ | completeNull req _ _ _ _ _ _ _ =>
    exact hc r (by rcases hr with hr | hr <;> simp [hr]) hrn
  case withdraw =>
    exact hc r (by rcases hr with hr | hr <;> simp [hr.1]) hrn
  all_goals exact hc r (by simpa using hr) hrn

theorem WriteSide.cbIs.moves {n : Nat} {cb : WriteCb} (h : WriteMoves a b) (hn : n < a.nextId)
    (hc : a.cbIs n cb) : b.cbIs n cb := by
  induction h with
  | refl => exact hc
  | tail hab hm ih => exact ih.move hm (hn.trans_le (WriteMoves.nextId_le hab))

theorem WriteOk.moves (h : WriteMoves a b) (ok : WriteOk a) : WriteOk b := by
  induction h with
  | refl => exact ok
  | tail _ hm ih => exact ih.move hm

/-- A property that every move of a sound write side keeps holds after any
number of moves. -/
theorem WriteMoves.keep {P : WriteSide → Prop} (move : ∀ a b, WriteOk a → WriteMove a b → P a → P b)
    (h : WriteMoves a b) (ok : WriteOk a) (ha : P a) : P b := by
  induction h with
  | refl => exact ha
  | tail hab hm ih => exact move _ _ (ok.moves hab) hm ih

/-- The write side `uv__stream_init` leaves: no request, and no descriptor. -/
def WriteSide.initial : WriteSide := ⟨[], [], 0, [], 0, ⟨-1, false, false, false, none, none⟩⟩

theorem writeOk_initial : WriteOk WriteSide.initial where
  size := rfl
  live := by simp [WriteSide.initial]
  order := by simp [WriteSide.initial]
  fresh := by simp [WriteSide.initial]
  noWrap := by simp [WriteSide.initial]
  pend := by constructor <;> simp [WriteSide.initial]

end UvStream
