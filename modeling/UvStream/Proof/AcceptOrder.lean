import UvStream.Proof.ReadSession

/-!
# The accept queue is a FIFO

Descriptors wait to be accepted in `accepted_fd`, then in the first `offset`
slots of `queued_fds` (`acceptQueue`). `uv__server_io` and, on an IPC pipe,
`uv__stream_recv_cmsg` add to the tail; `uv_accept` takes the head.

* `QueueOk`: `accepted_fd` is -1 or a descriptor, and a `queued_fds` stands
  behind a pending `accepted_fd`, with `1 ≤ offset ≤ size` and `size` slots.
* `streamQueueFd_room`: **`uv__stream_queue_fd` writes its descriptor in a
  free slot**, of an array grown by 8 when full.
* `streamRecvCmsg_queue`, `streamRecvCmsg_alloc`: **received descriptors join
  the tail in the order they arrive**, all of them while the allocations of
  `queued_fds` succeed. When one fails, **the descriptors of the later
  messages are neither queued nor closed** (`received_fd_leaked_on_enomem`).
* `uvAccept_queue`: **`uv_accept` takes exactly the head**, handing it to the
  client or closing it. When a `setsockopt` of the client fails,
  `uv__stream_open` has already ORed `UV_STREAM_READABLE | UV_STREAM_WRITABLE`
  into its flags: **the client looks open on descriptor -1**
  (`failed_accept_marks_client_open`); and **a server that paused accepting
  stays paused** (`failed_accept_stalls_server`).
* `Joined`, `serverLoopFuel_joins`: in a dispatch, the loop of `uv__server_io`
  **puts an accepted connection only into an empty queue**, and every piece
  but the turn of `uv__read` after `alloc_cb` (`readAfterAlloc_queue`) keeps
  the queue.
* `QueueEffect`, `Machine.step_effect`: **each step keeps the queue well
  formed; descriptors join it only from a `recvmsg` or an `accept`, and leave
  it only through `uv_accept`, which takes the head, or `uv_close`**.
* `QueueRun`, `QueueRun.queue`: along a run, **what arrived is what left, in
  the same order, then what still waits**.
* `accept_queue_fifo` gathers these. An `UV_EINVAL` from `uv_accept` leaves the
  queue as it was only for a client of another type: **when opening a TCP
  client fails with `EINVAL`, the head is taken and closed**
  (`accept_einval_drops_head`).
* `close_releases_held_fds`: **`uv_close` closes the stream's descriptor and
  every descriptor waiting to be accepted, head first, once each**, and
  nothing else.
-/

namespace UvStream

variable {w w' : World}

/-! ## The queue -/

/-- The descriptors `queued_fds` holds: those in its first `offset` slots. -/
def QueuedFds.pending (q : QueuedFds) : List Int := q.fds.take q.offset

/-- The accept queue, head first: `accepted_fd`, then the descriptors of
`queued_fds`; empty while `accepted_fd` is -1. -/
def acceptQueue (s : Stream) : List Int :=
  if s.acceptedFd = -1 then [] else s.acceptedFd :: (s.queuedFds.map QueuedFds.pending).getD []

/-- A well-formed `queued_fds`: `1 ≤ offset ≤ size`, `size` slots, and
descriptors in the used ones. -/
structure QueuedFds.Ok (q : QueuedFds) : Prop where
  pos : 1 ≤ q.offset
  le : q.offset ≤ q.size
  slots : q.fds.length = q.size
  fds : ∀ fd ∈ q.pending, 0 ≤ fd

/-- A well-formed accept queue: `accepted_fd` is -1 or a descriptor, and a
`queued_fds` stands behind a pending `accepted_fd`. -/
structure QueueOk (s : Stream) : Prop where
  accepted : -1 ≤ s.acceptedFd
  queued : ∀ q, s.queuedFds = some q → s.acceptedFd ≠ -1 ∧ q.Ok

/-- The descriptors a message passes are descriptors: the kernel passes none
below 0. -/
def Answer.fdsOk (a : Answer) : Prop := ∀ c ∈ a.cmsgs, ∀ fd ∈ c.fds, 0 ≤ fd

theorem QueueOk.of_eq {s s' : Stream} (h : QueueOk s) (ha : s'.acceptedFd = s.acceptedFd)
    (hq : s'.queuedFds = s.queuedFds) : QueueOk s' :=
  ⟨ha ▸ h.accepted, fun q hq' => ha ▸ h.queued q (hq ▸ hq')⟩

theorem acceptQueue_of_eq {s s' : Stream} (ha : s'.acceptedFd = s.acceptedFd)
    (hq : s'.queuedFds = s.queuedFds) : acceptQueue s' = acceptQueue s := by
  simp [acceptQueue, ha, hq]

theorem QueueOk.queued_none {s : Stream} (h : QueueOk s) (ha : s.acceptedFd = -1) :
    s.queuedFds = none :=
  Option.eq_none_iff_forall_not_mem.2 fun q hq => (h.queued q hq).1 ha

@[simp] theorem acceptQueue_eq_nil {s : Stream} : acceptQueue s = [] ↔ s.acceptedFd = -1 := by
  unfold acceptQueue; split <;> simp_all

theorem take_set_succ {l : List Int} {n : Nat} (a : Int) (h : n < l.length) :
    (l.set n a).take (n + 1) = l.take n ++ [a] := by
  induction l generalizing n with
  | nil => simp at h
  | cons x l ih =>
    cases n with
    | zero => simp
    | succ n => simp [ih (by simpa using h)]

/-! ## `uv__stream_queue_fd` -/

/-- What `uv__stream_queue_fd` writes into: a free slot at `offset` in an array
of `size` slots, the descriptors queued before as they were, and `size` 8 for a
new array and grown by 8 from a full one. -/
structure Room (o : Option QueuedFds) (q : QueuedFds) : Prop where
  slots : q.fds.length = q.size
  free : q.offset < q.size
  pending : q.pending = (o.map QueuedFds.pending).getD []
  fresh : o = none → q.size = 8
  grown : ∀ q₀, o = some q₀ → q.size = if q₀.offset = q₀.size then q₀.size + 8 else q₀.size

theorem queuedFdsRoom_room (h : QueueOk w.s) :
    Spec (queuedFdsRoom w) (fun p => p.2.s = w.s ∧ p.2.trace = w.trace ∧
      ∀ q, p.1 = some q → Room w.s.queuedFds q) (· = .stuck) := by
  unfold queuedFdsRoom
  split
  next hn =>
    simp only [spec_bind, spec_answer, spec_pure]
    refine ⟨fun _ => trivial, fun a as _ => ⟨trivial, trivial, ?_⟩⟩
    split
    · simp
    · rintro q ⟨⟩
      exact ⟨rfl, by decide, by simp [hn, QueuedFds.pending], fun _ => rfl, by simp [hn]⟩
  next q₀ hq =>
    have ok := (h.queued q₀ hq).2
    split
    next hfull =>
      simp only [spec_bind, spec_answer, spec_pure]
      refine ⟨fun _ => trivial, fun a as _ => ⟨trivial, trivial, ?_⟩⟩
      split
      · simp
      · rintro q ⟨⟩
        refine ⟨by simp [ok.slots], by simp; omega, ?_, by simp [hq], by simp [hq, hfull]⟩
        simp [hq, QueuedFds.pending, List.take_append_of_le_length (ok.slots ▸ ok.le)]
    next hfree =>
      simp only [spec_pure, true_and]
      rintro q ⟨⟩
      exact ⟨ok.slots, by have := ok.le; omega, by simp [hq], by simp [hq], by
        simp only [hq, Option.some.injEq]; rintro _ rfl; simp [Ne.symm hfree]⟩

/-- **`uv__stream_queue_fd` writes its descriptor in a free slot** of an array
of `size` slots, grown by 8 when full; when the allocation fails it returns
`UV_ENOMEM` and leaves the stream as it was. -/
theorem streamQueueFd_room (fd : Int) (h : QueueOk w.s) :
    Spec (streamQueueFd w fd) (fun p => p.2.trace = w.trace ∧ p.2.s.acceptedFd = w.s.acceptedFd ∧
      (p.1 ≠ 0 → p.2.s.queuedFds = w.s.queuedFds) ∧ (p.1 = 0 → ∃ q, Room w.s.queuedFds q ∧
        p.2.s.queuedFds = some ⟨q.size, q.offset + 1, q.fds.set q.offset fd⟩)) (· = .stuck) := by
  unfold streamQueueFd
  simp only [spec_bind]
  refine (queuedFdsRoom_room h).imp (fun ⟨o, w₁⟩ ⟨hs, ht, hq⟩ => ?_) (fun _ h => h)
  dsimp only at hs ht hq
  rcases o with _ | q
  · exact ⟨ht, by rw [hs], fun _ => by rw [hs], by simp [ENOMEM]⟩
  · have hr := hq q rfl
    simp only [spec_ite, spec_pure, spec_throw]
    exact ⟨fun _ => ⟨ht, by simp [hs], by simp, fun _ => ⟨q, hr, rfl⟩⟩,
      fun hge => absurd (hr.slots ▸ hr.free) hge⟩

/-- Writing a descriptor in the free slot appends it to the queue and keeps the
queue well formed. -/
theorem Room.written {s s' : Stream} {q : QueuedFds} {fd : Int} (hr : Room s.queuedFds q)
    (h : QueueOk s) (ha : s.acceptedFd ≠ -1) (hfd : 0 ≤ fd) (ha' : s'.acceptedFd = s.acceptedFd)
    (hq' : s'.queuedFds = some ⟨q.size, q.offset + 1, q.fds.set q.offset fd⟩) :
    QueueOk s' ∧ acceptQueue s' = acceptQueue s ++ [fd] := by
  have hp : (⟨q.size, q.offset + 1, q.fds.set q.offset fd⟩ : QueuedFds).pending =
      (s.queuedFds.map QueuedFds.pending).getD [] ++ [fd] := by
    rw [← hr.pending]; exact take_set_succ fd (hr.slots ▸ hr.free)
  refine ⟨⟨ha' ▸ h.accepted, fun q' hq => ?_⟩, by simp [acceptQueue, ha', ha, hq', hp]⟩
  rw [hq', Option.some.injEq] at hq
  subst hq
  refine ⟨ha' ▸ ha, by simp, hr.free, by simp [hr.slots], ?_⟩
  rw [hp]
  intro x hx
  rcases List.mem_append.1 hx with hx | hx
  · cases hs : s.queuedFds with
    | none => simp [hs] at hx
    | some q₀ => exact (h.queued q₀ hs).2.fds x (by simpa [hs] using hx)
  · simp only [List.mem_singleton] at hx; omega

/-! ## `uv__stream_recv_cmsg` -/

/-- Room in `queued_fds` is found, while every allocation succeeds. -/
theorem queuedFdsRoom_alloc (henv : ∀ b ∈ w.env, 0 ≤ b.ret) :
    Spec (queuedFdsRoom w) (fun p => p.1.isSome ∧ ∀ b ∈ p.2.env, 0 ≤ b.ret) (fun _ => True) := by
  have hans : ∀ {q : QueuedFds}, Spec (w.answer >>= fun p => pure (if p.1.ret < 0 then none else some q, p.2))
      (fun p : Option QueuedFds × World => p.1.isSome ∧ ∀ b ∈ p.2.env, 0 ≤ b.ret) (fun _ => True) := by
    simp only [spec_bind, spec_answer, spec_pure]
    refine ⟨fun _ => trivial, fun a as ha => ?_⟩
    have hb : ∀ b ∈ a :: as, 0 ≤ b.ret := ha ▸ henv
    simp only [List.mem_cons, forall_eq_or_imp] at hb
    exact ⟨by simp [not_lt.2 hb.1], hb.2⟩
  unfold queuedFdsRoom
  split
  · exact hans
  · split
    · exact hans
    · exact ⟨rfl, henv⟩

/-- `uv__stream_queue_fd` returns 0, while every allocation succeeds. -/
theorem streamQueueFd_alloc {fd : Int} (henv : ∀ b ∈ w.env, 0 ≤ b.ret) :
    Spec (streamQueueFd w fd) (fun p => p.1 = 0 ∧ ∀ b ∈ p.2.env, 0 ≤ b.ret) (fun _ => True) := by
  unfold streamQueueFd
  simp only [spec_bind]
  refine (queuedFdsRoom_alloc henv).imp (fun ⟨o, w₁⟩ ⟨ho, he⟩ => ?_) (fun _ _ => trivial)
  obtain ⟨q, rfl⟩ := Option.isSome_iff_exists.1 ho
  simp only [spec_ite, spec_pure, spec_throw]
  exact ⟨fun _ => ⟨by trivial, he⟩, fun _ => trivial⟩

/-- The loop over one message returns 0, while every allocation succeeds. -/
theorem recvFds_alloc (fds : List Int) (henv : ∀ b ∈ w.env, 0 ≤ b.ret) :
    Spec (recvFds fds w) (fun p => p.1 = 0 ∧ ∀ b ∈ p.2.env, 0 ≤ b.ret) (fun _ => True) := by
  induction fds generalizing w with
  | nil => exact ⟨rfl, henv⟩
  | cons fd fds ih =>
    unfold recvFds
    simp only [spec_bind, spec_ite, spec_pure]
    exact ⟨fun _ => (streamQueueFd_alloc henv).imp (fun _ ⟨h0, he⟩ =>
      ⟨fun h => absurd h0 h, fun _ => ih he⟩) (fun _ _ => trivial), fun _ => ih henv⟩

/-- **`uv__stream_recv_cmsg` returns 0 while every allocation succeeds.** -/
theorem streamRecvCmsg_alloc (cs : List Cmsg) (henv : ∀ b ∈ w.env, 0 ≤ b.ret) :
    Spec (streamRecvCmsg cs w) (fun p => p.1 = 0 ∧ ∀ b ∈ p.2.env, 0 ≤ b.ret) (fun _ => True) := by
  induction cs generalizing w with
  | nil => exact ⟨rfl, henv⟩
  | cons c cs ih =>
    unfold streamRecvCmsg
    simp only [spec_bind, spec_ite, spec_pure]
    exact ⟨fun _ => ih henv, fun _ => (recvFds_alloc c.fds henv).imp (fun _ ⟨h0, he⟩ =>
      ⟨fun h => absurd h0 h, fun _ => ih he⟩) (fun _ _ => trivial)⟩

/-- **The descriptors of one message join the tail of the queue in order**;
when queueing one fails, those before it have joined. -/
theorem recvFds_queue (fds : List Int) (hfds : ∀ fd ∈ fds, 0 ≤ fd) (h : QueueOk w.s) :
    Spec (recvFds fds w) (fun p => QueueOk p.2.s ∧
      (∃ new, new <+: fds ∧ acceptQueue p.2.s = acceptQueue w.s ++ new) ∧
      (p.1 = 0 → acceptQueue p.2.s = acceptQueue w.s ++ fds)) (· = .stuck) := by
  induction fds generalizing w with
  | nil => exact ⟨h, ⟨[], List.nil_prefix, by simp⟩, fun _ => by simp⟩
  | cons fd fds ih =>
    have hfd := hfds fd (.head _)
    have hrest : ∀ x ∈ fds, 0 ≤ x := fun x hx => hfds x (.tail _ hx)
    have hnext : ∀ {w₁ : World}, QueueOk w₁.s → acceptQueue w₁.s = acceptQueue w.s ++ [fd] →
        Spec (recvFds fds w₁) (fun p => QueueOk p.2.s ∧
          (∃ new, new <+: fd :: fds ∧ acceptQueue p.2.s = acceptQueue w.s ++ new) ∧
          (p.1 = 0 → acceptQueue p.2.s = acceptQueue w.s ++ fd :: fds)) (· = .stuck) :=
      fun hok hQ => (ih hrest hok).imp (fun _ ⟨hp, ⟨new, hpre, hn⟩, h0⟩ =>
        ⟨hp, ⟨fd :: new, List.cons_prefix_cons.2 ⟨rfl, hpre⟩, by simp [hn, hQ]⟩,
          fun e => by simp [h0 e, hQ]⟩) (fun _ h => h)
    unfold recvFds
    simp only [spec_bind, spec_ite, spec_pure]
    refine ⟨fun ha => (streamQueueFd_room fd h).imp
      (fun ⟨err, w₁⟩ ⟨_, ha₁, hne, heq⟩ => ⟨fun herr => ?_, fun herr => ?_⟩) (fun _ h => h),
      fun ha => ?_⟩
    · simp only [foldl_emit]
      exact ⟨h.of_eq ha₁ (hne herr), ⟨[], List.nil_prefix, by simp [acceptQueue_of_eq ha₁ (hne herr)]⟩,
        fun h0 => absurd h0 herr⟩
    · obtain ⟨q, hr, hq⟩ := heq (not_not.1 herr)
      obtain ⟨hok, hQ⟩ := hr.written h ha hfd ha₁ hq
      exact hnext hok hQ
    · have hn := h.queued_none (not_not.1 ha)
      exact hnext ⟨by simpa using (by omega : -1 ≤ fd), by simp [hn]⟩
        (by simp [acceptQueue, not_not.1 ha, hn]; omega)

/-- The descriptors `SCM_RIGHTS` messages pass, in the order they arrive. -/
def rightsFds (cs : List Cmsg) : List Int := (cs.filter (·.type = SCM_RIGHTS)).flatMap Cmsg.fds

/-- **The descriptors of `SCM_RIGHTS` messages join the tail of the queue in
the order they arrive**: a first part of them, and all of them when
`uv__stream_recv_cmsg` returns 0. -/
theorem streamRecvCmsg_queue (cs : List Cmsg) (hcs : ∀ c ∈ cs, ∀ fd ∈ c.fds, 0 ≤ fd)
    (h : QueueOk w.s) :
    Spec (streamRecvCmsg cs w) (fun p => QueueOk p.2.s ∧
      (∃ new, new <+: rightsFds cs ∧ acceptQueue p.2.s = acceptQueue w.s ++ new) ∧
      (p.1 = 0 → acceptQueue p.2.s = acceptQueue w.s ++ rightsFds cs)) (· = .stuck) := by
  induction cs generalizing w with
  | nil => exact ⟨h, ⟨[], List.nil_prefix, by simp⟩, fun _ => by simp [rightsFds]⟩
  | cons c cs ih =>
    have hrest : ∀ c ∈ cs, ∀ fd ∈ c.fds, 0 ≤ fd := fun c hc => hcs c (.tail _ hc)
    unfold streamRecvCmsg
    simp only [spec_bind, spec_ite, spec_pure]
    refine ⟨fun ht => (ih hrest h).imp (fun _ ⟨hp, hn, h0⟩ => ⟨hp, by simpa [rightsFds, ht] using hn,
      fun e => by simp [h0 e, rightsFds, ht]⟩) (fun _ h => h), fun ht => ?_⟩
    have hfds : rightsFds (c :: cs) = c.fds ++ rightsFds cs := by simp [rightsFds, not_not.1 ht]
    refine (recvFds_queue c.fds (hcs c (.head _)) h).imp
      (fun ⟨err, w₁⟩ ⟨hok, ⟨new, hpre, hn⟩, h0⟩ => ⟨fun herr => ⟨hok, ⟨new, ?_, hn⟩, fun e => absurd e herr⟩,
        fun herr => (ih hrest hok).imp (fun _ ⟨hp, ⟨new', hpre', hn'⟩, h0'⟩ => ⟨hp, ⟨c.fds ++ new', ?_,
          by simp [hn', h0 (not_not.1 herr)]⟩, fun e => by simp [h0' e, h0 (not_not.1 herr), hfds]⟩)
          (fun _ h => h)⟩) (fun _ h => h)
    · exact hfds ▸ hpre.trans (List.prefix_append _ _)
    · exact hfds ▸ (List.prefix_append_right_inj c.fds).2 hpre'

/-- An IPC pipe on descriptor 7 reads; the `recvmsg` takes five bytes and two
`SCM_RIGHTS` messages, with descriptors 10 and 11, then 12; allocating
`queued_fds` for 11 fails. -/
def cmsgAllocFailure : List (Action × List Answer) :=
  [(.api (.streamOpen 7 true true false), []), (.api (.readStart true true), []),
   (.dispatch (.io ⟨true, false, false, false⟩), []),
   (.ret ⟨1, 64⟩, [⟨5, [⟨SCM_RIGHTS, [10, 11]⟩, ⟨SCM_RIGHTS, [12]⟩]⟩, ⟨-1, []⟩])]

/-- `read_cb` gets `UV_ENOMEM`; 10 is `accepted_fd`, 11 was closed, and 12 is
neither queued nor closed. -/
theorem received_fd_leaked_on_enomem :
    (Machine.after .namedPipe true cmsgAllocFailure).ctl.current =
        some (.read (-ENOMEM) ⟨1, 64⟩) ∧
      (Machine.after .namedPipe true cmsgAllocFailure).w.s.acceptedFd = 10 ∧
      (Machine.after .namedPipe true cmsgAllocFailure).w.s.queuedFds = none ∧
      Event.close 11 ∈ (Machine.after .namedPipe true cmsgAllocFailure).w.trace ∧
      Event.close 12 ∉ (Machine.after .namedPipe true cmsgAllocFailure).w.trace := by
  decide

/-! ## `uv__server_io` -/

@[simp] theorem spec_connectionCallback {status : Int} {k : List Frame}
    {Q : World × Option (Callback × List Frame) → Prop} {F : Fault → Prop} :
    Spec (connectionCallback w status k) Q F ↔
      (w.s.connectionCb → Q (w, some (.connection status, k))) ∧ (¬ w.s.connectionCb → F .nullCall) := by
  unfold connectionCallback; split <;> simp_all

/-- The answer to a call repeated on `EINTR` is no `EINTR`. -/
theorem skipIntr_ret {env as : List Answer} {a : Answer} (h : skipIntr env = a :: as) :
    a.ret ≠ -EINTR := by
  induction env with
  | nil => simp [skipIntr] at h
  | cons b bs ih =>
    unfold skipIntr at h
    split at h
    · exact ih h
    · cases h; assumption

/-- The interrupted attempts are dropped from the front of the answers. -/
theorem skipIntr_suffix (env : List Answer) : skipIntr env <:+ env := by
  induction env with
  | nil => exact List.suffix_refl _
  | cons a as ih =>
    unfold skipIntr
    split
    exacts [ih.trans (List.suffix_cons a as), List.suffix_refl _]

/-- The accepting loop of `uv__emfile_trick` accepts connections and closes
each at once, until `accept` fails with an error other than `EINTR`, which it
returns; it takes its answers from the front, and fails only for want of one. -/
theorem emfileAcceptFuel_spec (fuel : Nat) :
    Spec (emfileAcceptFuel fuel w) (fun p => p.2.s = w.s ∧ p.2.emfileFd = w.emfileFd ∧ p.1 < 0 ∧
      p.1 ≠ -EINTR ∧ p.2.env <:+ w.env ∧ ∃ fds : List Int, (∀ fd ∈ fds, 0 ≤ fd) ∧
        p.2.trace = w.trace ++ (fds.flatMap (fun fd => [.accept w.s.fd fd, .close fd]) ++
          [.accept w.s.fd p.1])) (· = .stuck) := by
  induction fuel generalizing w with
  | zero => simp [emfileAcceptFuel]
  | succ fuel ih =>
    unfold emfileAcceptFuel
    simp only [spec_bind, spec_answerRetry, spec_ite, spec_pure]
    refine ⟨fun _ => trivial, fun a as ha => ?_⟩
    have hsuf : as <:+ w.env := (List.suffix_cons a as).trans (ha ▸ skipIntr_suffix w.env)
    refine ⟨fun hfd => ih.imp (fun p ⟨hs, he, hneg, hi, hp, fds, hfds, ht⟩ =>
      ⟨hs, he, hneg, hi, hp.trans hsuf, a.ret :: fds, ?_, ?_⟩) (fun _ => id), fun hfd =>
        ⟨fun h => absurd h (skipIntr_ret ha), fun hi => ⟨rfl, rfl, by omega, hi, hsuf, [], by simp, by simp⟩⟩⟩
    · simpa [hfd] using hfds
    · simp [ht]

/-- **`uv__emfile_trick`**: with no spare descriptor it returns `UV_EMFILE` and
does nothing. Otherwise it closes the spare, then accepts connections and
closes each at once, until `accept` fails with an error other than `EINTR`,
which it returns; the spare is reserved again if opening it succeeds. It fails
only for want of an answer. -/
theorem emfileTrick_spec : Spec (emfileTrick w) (fun p =>
    (w.emfileFd = -1 ∧ p = (-EMFILE, w)) ∨
      (w.emfileFd ≠ -1 ∧ p.2.s = w.s ∧ p.1 < 0 ∧ p.1 ≠ -EINTR ∧
        (∃ pre a, w.env = pre ++ a :: p.2.env ∧ p.2.emfileFd = if 0 ≤ a.ret then a.ret else -1) ∧
        ∃ fds : List Int, (∀ fd ∈ fds, 0 ≤ fd) ∧ p.2.trace = w.trace ++ .close w.emfileFd ::
          (fds.flatMap (fun fd => [.accept w.s.fd fd, .close fd]) ++ [.accept w.s.fd p.1])))
    (· = .stuck) := by
  unfold emfileTrick
  simp only [spec_bind, spec_ite, spec_pure, spec_answer]
  refine ⟨fun h => .inl ⟨h, trivial⟩, fun h => (emfileAcceptFuel_spec _).imp
    (fun p ⟨hs, he, hneg, hi, ⟨pre, hpre⟩, fds, hfds, ht⟩ =>
      ⟨fun _ => trivial, fun a as ha => .inr ?_⟩) (fun _ => id)⟩
  -- the reopen takes the answer that follows those of the accepting loop
  have henv : w.env = pre ++ a :: as := by rw [← ha]; exact hpre.symm
  have htr := ht.trans (List.append_assoc _ _ _)
  split
  · exact ⟨h, hs, hneg, hi, ⟨pre, a, henv, (if_pos ‹_›).symm⟩, fds, hfds, htr⟩
  · exact ⟨h, hs, hneg, hi, ⟨pre, a, henv, he.trans (if_neg ‹_›).symm⟩, fds, hfds, htr⟩

/-! ## `uv_accept` -/

theorem streamOpen_fd {c : Stream} {fd : Int} {readable writable blocking : Bool} (hfd : 0 ≤ fd) :
    Spec (streamOpen w c fd readable writable blocking) (fun p => p.2.2.s = w.s ∧
      p.2.2.trace = w.trace ∧ (p.1 = 0 → p.2.1.fd = fd)) (· = .stuck) := by
  unfold streamOpen sockopt
  simp +contextual [hfd, EBUSY]

theorem acceptOpen_queue {c : Stream} (hfd : 0 ≤ w.s.acceptedFd) :
    Spec (acceptOpen w c) (fun o => (o = none ↔ c.type ≠ .tcp ∧ c.type ≠ .namedPipe ∧ c.type ≠ .udp) ∧
      ∀ p ∈ o, p.2.2.s = w.s ∧ (p.1 ≠ 0 → Event.close w.s.acceptedFd ∈ p.2.2.trace) ∧
        (p.1 = 0 → c.type ≠ .udp → p.2.1.fd = w.s.acceptedFd)) (· = .stuck) := by
  have hstream : c.type = .namedPipe ∨ c.type = .tcp →
      Spec (do
        let (err, c, w) ← streamOpen w c w.s.acceptedFd true true false
        pure (some (err, c, if err ≠ 0 then w.emit (.close w.s.acceptedFd) else w)))
      (fun o => (o = none ↔ c.type ≠ .tcp ∧ c.type ≠ .namedPipe ∧ c.type ≠ .udp) ∧
        ∀ p ∈ o, p.2.2.s = w.s ∧ (p.1 ≠ 0 → Event.close w.s.acceptedFd ∈ p.2.2.trace) ∧
          (p.1 = 0 → c.type ≠ .udp → p.2.1.fd = w.s.acceptedFd)) (· = .stuck) := fun ht => by
    simp only [spec_bind, spec_pure]
    refine (streamOpen_fd hfd).imp (fun ⟨err, c', w₁⟩ ⟨hs, _, hc⟩ => ⟨by rcases ht with ht | ht <;>
      simp [ht], ?_⟩) (fun _ h => h)
    rintro _ ⟨⟩
    dsimp only at hs hc ⊢
    split
    next herr => exact ⟨by simp [hs], fun _ => by simp [hs], fun h => absurd h herr⟩
    next herr => exact ⟨hs, fun h => absurd h herr, fun h _ => hc h⟩
  unfold acceptOpen
  split
  next ht => exact hstream (.inl ht)
  next ht => exact hstream (.inr ht)
  next ht =>
    simp only [spec_bind, spec_answer, spec_pure]
    refine ⟨fun _ => trivial, fun a as _ => ⟨by simp [ht], ?_⟩⟩
    rintro _ ⟨⟩
    split
    next herr => exact ⟨rfl, fun _ => by simp, fun h => absurd h herr⟩
    next herr => exact ⟨rfl, fun h => absurd h herr, fun _ h => absurd ht h⟩
  next h₁ h₂ h₃ => simp_all

theorem QueuedFds.Ok.pending_cons {q : QueuedFds} (ok : q.Ok) :
    ∃ x xs, q.fds = x :: xs ∧ q.pending = x :: xs.take (q.offset - 1) := by
  obtain ⟨m, hm⟩ : ∃ m, q.offset = m + 1 := ⟨q.offset - 1, by have := ok.pos; omega⟩
  cases hq : q.fds with
  | nil => have := ok.slots; have := ok.le; simp [hq] at *; omega
  | cons x xs => exact ⟨x, xs, rfl, by simp [QueuedFds.pending, hq, hm]⟩

/-- `uv_accept`'s `memmove` of the descriptors after the head one slot down
leaves a well-formed `queued_fds` holding the rest. -/
theorem QueuedFds.Ok.shift {q : QueuedFds} (ok : q.Ok) {x : Int} {xs : List Int}
    (hq : q.fds = x :: xs) (hp : q.pending = x :: xs.take (q.offset - 1)) (h1 : q.offset - 1 ≠ 0) :
    QueuedFds.Ok { q with
      offset := q.offset - 1, fds := (q.fds.drop 1).take (q.offset - 1) ++ q.fds.drop (q.offset - 1) } ∧
    x :: QueuedFds.pending { q with
      offset := q.offset - 1, fds := (q.fds.drop 1).take (q.offset - 1) ++ q.fds.drop (q.offset - 1) } =
      q.pending := by
  have hlen : xs.length + 1 = q.size := by rw [← ok.slots, hq]; rfl
  have hle := ok.le
  have hpend : QueuedFds.pending { q with
      offset := q.offset - 1, fds := (q.fds.drop 1).take (q.offset - 1) ++ q.fds.drop (q.offset - 1) } =
      xs.take (q.offset - 1) := by
    simp only [QueuedFds.pending, hq, List.drop_one, List.tail_cons]
    exact List.take_left' (by simp; omega)
  refine ⟨⟨by simp; omega, by simp; omega, ?_, fun fd hfd => ok.fds fd ?_⟩, by rw [hpend, hp]⟩
  · simp only [hq, List.drop_one, List.tail_cons, List.length_append, List.length_take,
      List.length_drop, List.length_cons]
    omega
  · rw [hp]; exact .tail _ (hpend ▸ hfd)

/-- **`uv_accept` takes exactly the head of the queue**: it hands it to the
client, or closes it when opening the client fails, and keeps the rest in
order; on an empty queue it returns `UV_EAGAIN`, and for a client of another
type `UV_EINVAL`, leaving everything as it was. -/
theorem uvAccept_queue {c : Stream} (h : QueueOk w.s) :
    Spec (uvAccept w c) (fun p => QueueOk p.2.2.s ∧
      (acceptQueue w.s = [] → p = (-EAGAIN, c, w)) ∧
      (c.type ≠ .tcp → c.type ≠ .namedPipe → c.type ≠ .udp → acceptQueue w.s ≠ [] →
        p = (-EINVAL, c, w)) ∧
      (∀ fd rest, acceptQueue w.s = fd :: rest → (c.type = .tcp ∨ c.type = .namedPipe ∨ c.type = .udp) →
        acceptQueue p.2.2.s = rest ∧ (p.1 = 0 → c.type ≠ .udp → p.2.1.fd = fd) ∧
        (p.1 ≠ 0 → Event.close fd ∈ p.2.2.trace))) (· = .stuck) := by
  unfold uvAccept
  simp only [spec_bind, spec_ite, spec_pure]
  refine ⟨fun ha => ⟨h, fun _ => trivial, fun _ _ _ hne => absurd (acceptQueue_eq_nil.2 ha) hne,
    fun _ _ hq => by simp [acceptQueue, ha] at hq⟩, fun ha => ?_⟩
  have hfd : 0 ≤ w.s.acceptedFd := by have := h.accepted; omega
  refine (acceptOpen_queue hfd).imp (fun o ⟨hnone, hsome⟩ => ?_) (fun _ h => h)
  rcases o with _ | ⟨err, c', w₁⟩
  · obtain ⟨h₁, h₂, h₃⟩ := hnone.1 rfl
    exact ⟨h, fun hn => absurd (acceptQueue_eq_nil.1 hn) ha, fun _ _ _ _ => rfl,
      fun _ _ _ hty => by rcases hty with h | h | h <;> simp_all⟩
  obtain ⟨hs, hclose, hcfd⟩ := hsome _ rfl
  dsimp only at hs hclose hcfd
  have ha₁ : ¬ w₁.s.acceptedFd = -1 := hs ▸ ha
  have hty : c.type = .tcp ∨ c.type = .namedPipe ∨ c.type = .udp := by
    by_contra hc
    simp only [not_or] at hc
    exact Option.some_ne_none _ (hnone.2 hc)
  suffices key : Spec (match w₁.s.queuedFds with
      | some q => do
        let some fd := q.fds.head? | throw .segv
        let w := { w₁ with s.acceptedFd := fd }
        check (0 < q.offset) "queued_fds->offset > 0"
        if q.offset - 1 = 0 then pure (err, c', { w with s.queuedFds := none })
        else pure (err, c', { w with s.queuedFds := some { q with
          offset := q.offset - 1, fds := (q.fds.drop 1).take (q.offset - 1) ++ q.fds.drop (q.offset - 1) } })
      | none =>
        let w := { w₁ with s.acceptedFd := -1 }
        pure (err, c', if err = 0 then { w with s.pollin := true } else w))
      (fun p => QueueOk p.2.2.s ∧ acceptQueue p.2.2.s = (acceptQueue w.s).tail ∧ p.2.1 = c' ∧
        p.1 = err ∧ p.2.2.trace = w₁.trace) (· = .stuck) by
    refine key.imp (fun p ⟨hok, hQ, hc, he, ht⟩ => ⟨hok, fun hn => absurd (acceptQueue_eq_nil.1 hn) ha,
      fun h₁ h₂ h₃ => by rcases hty with h | h | h <;> simp_all, fun fd rest hq _ => ?_⟩) (fun _ h => h)
    have hfd' : w.s.acceptedFd = fd := by simp [acceptQueue, ha] at hq; exact hq.1
    refine ⟨by simp [hQ, hq], fun h0 hu => hc ▸ hfd' ▸ hcfd (he ▸ h0) hu, fun h0 => ?_⟩
    rw [ht, ← hfd']; exact hclose (he ▸ h0)
  split
  next q hq =>
    have ok := (h.queued q (hs ▸ hq)).2
    obtain ⟨x, xs, hfds, hp⟩ := ok.pending_cons
    have hx : 0 ≤ x := ok.fds x (by rw [hp]; exact .head _)
    have hhead : q.fds.head? = some x := by simp [hfds]
    have htail : (acceptQueue w.s).tail = q.pending := by rw [← hs]; simp [acceptQueue, ha₁, hq]
    simp only [hhead, spec_bind, spec_check, spec_ite, spec_pure]
    refine ⟨fun _ => ⟨fun h1 => ⟨⟨by simp; omega, by simp⟩, ?_, trivial, trivial, trivial⟩,
      fun h1 => ?_⟩, fun h0 => absurd ok.pos (by omega)⟩
    · rw [htail, hp, h1]; simp [acceptQueue]; omega
    · obtain ⟨hok, hpend⟩ := ok.shift hfds hp h1
      refine ⟨⟨by simp; omega, fun q' hq' => ?_⟩, ?_, trivial, trivial, trivial⟩
      · simp only [Option.some.injEq] at hq'; subst hq'; exact ⟨by simp; omega, hok⟩
      · rw [htail, ← hpend]; simp [acceptQueue]; omega
  next hq =>
    have htail : (acceptQueue w.s).tail = [] := by rw [← hs]; simp [acceptQueue, ha₁, hq]
    simp only [spec_pure]
    split <;> exact ⟨⟨by simp, by simp [hq]⟩, by rw [htail]; simp [acceptQueue], by trivial, by trivial, by trivial⟩

/-- A TCP server on descriptor 7 listens, and `uv__server_io` accepts a
connection on descriptor 9 and calls `connection_cb`. -/
def pendingConnection : List (Action × List Answer) :=
  [(.api (.streamOpen 7 true true false), []), (.api (.listen true), [⟨0, []⟩]),
   (.dispatch (.io ⟨true, false, false, false⟩), [⟨9, []⟩])]

/-- A TCP client with `UV_TCP_NODELAY` set before it has a descriptor. -/
def nodelayClient : Stream := { Stream.init .tcp false with flags.tcpNodelay := true }

/-- In `connection_cb`, `uv_accept` into the client, whose `TCP_NODELAY`
`setsockopt` fails with `EINVAL`: `uv_accept` returns the error and closes
descriptor 9, and the client, still on descriptor -1, is now flagged readable
and writable, so that `uv_shutdown` and `uv_read_start` on it fail their
assertion `uv__stream_fd (stream) >= 0`. -/
theorem failed_accept_marks_client_open :
    (uvAccept { (Machine.after .tcp false pendingConnection).w with env := [⟨-EINVAL, []⟩] }
        nodelayClient).map (fun p => (p.1, p.2.1.fd, p.2.1.flags.readable, p.2.1.flags.writable,
          decide (uvShutdown { p.2.2 with s := p.2.1 } true =
            .error (.assertion "uv__stream_fd(stream) >= 0")),
          decide ((uvReadStart { p.2.2 with s := p.2.1 } true true).map Prod.fst =
            .error (.assertion "uv__stream_fd(stream) >= 0")))) =
      .ok (-EINVAL, -1, true, true, true, true) ∧
      nodelayClient.flags.readable = false ∧ nodelayClient.flags.writable = false := by
  decide

/-- `connection_cb` returns without accepting, which pauses accepting; later
`uv_accept` into `nodelayClient` fails on its `setsockopt`. -/
def lateFailedAccept : List (Action × List Answer) :=
  [(.ret ⟨0, 0⟩, []), (.api (.accept nodelayClient), [⟨-EINVAL, []⟩])]

/-- The pending connection pauses accepting; the failed `uv_accept` closes it
and sets `accepted_fd` to -1, but restarts `POLLIN` only when the client
opened: the listening server is left with no connection pending and no
`POLLIN` interest, and accepts no further connection. -/
theorem failed_accept_stalls_server :
    (Machine.after .tcp false (pendingConnection ++ lateFailedAccept.take 1)).w.s.acceptedFd = 9 ∧
      (Machine.after .tcp false (pendingConnection ++ lateFailedAccept.take 1)).w.s.pollin = false ∧
      (Machine.after .tcp false (pendingConnection ++ lateFailedAccept)).ctl = .idle ∧
      (Machine.after .tcp false (pendingConnection ++ lateFailedAccept)).w.s.ioCb = .serverIo ∧
      (Machine.after .tcp false (pendingConnection ++ lateFailedAccept)).w.s.flags.closing = false ∧
      Event.close 9 ∈ (Machine.after .tcp false (pendingConnection ++ lateFailedAccept)).w.trace ∧
      (Machine.after .tcp false (pendingConnection ++ lateFailedAccept)).w.s.acceptedFd = -1 ∧
      (Machine.after .tcp false (pendingConnection ++ lateFailedAccept)).w.s.pollin = false := by
  decide

/-! ## The pieces of a dispatch

In a dispatch, only `uv__stream_recv_cmsg`, in the turn of `uv__read` after
`alloc_cb`, and the loop of `uv__server_io` add to the queue. Every other piece
keeps `accepted_fd` and `queued_fds`, and the loop of `uv__server_io` puts a
connection only into an empty queue, as it stops at `connection_cb`
(`Joined`). -/

/-- From `w` to `w'`: the queue kept well formed and the descriptor kept, the
events of the read side grown by `t`, and the queue as it was or, if `stops`,
empty before and holding after the connection that an `accept` in `t`
returned. -/
def Joined (stops : Prop) (w w' : World) : Prop :=
  QueueOk w.s → QueueOk w'.s ∧ w'.s.fd = w.s.fd ∧ ∃ t, readLog w'.trace = readLog w.trace ++ t ∧
    (acceptQueue w'.s = acceptQueue w.s ∨ stops ∧ acceptQueue w.s = [] ∧
      ∃ fd, acceptQueue w'.s = [fd] ∧ Event.accept w.s.fd fd ∈ t)

/-- A piece of a dispatch that adds to the queue as `Joined` says, only where
it stops at a callback. -/
abbrev JoinSeg (w : World) (x : Seg) : Prop :=
  Spec x (fun r => Joined r.2.isSome w (Seg.world r)) (fun _ => True)

theorem Joined.keep {p : Prop} (ha : w'.s.acceptedFd = w.s.acceptedFd)
    (hq : w'.s.queuedFds = w.s.queuedFds) (hfd : w'.s.fd = w.s.fd)
    (hl : ∃ t, readLog w'.trace = readLog w.trace ++ t) : Joined p w w' :=
  fun h => let ⟨t, ht⟩ := hl; ⟨h.of_eq ha hq, hfd, t, ht, .inl (acceptQueue_of_eq ha hq)⟩

/-- A piece that keeps the descriptors and the trace. -/
theorem Joined.quiet {p : Prop} (ha : w'.s.acceptedFd = w.s.acceptedFd)
    (hq : w'.s.queuedFds = w.s.queuedFds) (hfd : w'.s.fd = w.s.fd) (ht : w'.trace = w.trace) :
    Joined p w w' :=
  .keep ha hq hfd ⟨[], by rw [ht, List.append_nil]⟩

theorem Joined.refl {p : Prop} : Joined p w w := .quiet rfl rfl rfl rfl

/-- A piece that keeps the stream and adds one event. -/
theorem Joined.emit {p : Prop} {e : Event} : Joined p w (w.emit e) :=
  .keep rfl rfl rfl ⟨_, readLog_append _ _⟩

theorem ReadsKept.joined {p : Prop} (h : ReadsKept w w') : Joined p w w' :=
  .keep h.acceptedFd h.queuedFds h.fd ⟨[], by rw [h.log, List.append_nil]⟩

theorem Joined.weaken {p p' : Prop} (h : Joined p w w') (hp : p → p') : Joined p' w w' := fun hq =>
  let ⟨hq', hfd, t, ht, hQ⟩ := h hq
  ⟨hq', hfd, t, ht, hQ.imp_right fun ⟨h₁, h₂⟩ => ⟨hp h₁, h₂⟩⟩

/-- A stretch that keeps the queue, then one that may add to it. -/
theorem Joined.then {p : Prop} {w'' : World} (h : Joined False w w') (h' : Joined p w' w'') :
    Joined p w w'' := fun hq => by
  obtain ⟨hq₁, hfd₁, t₁, ht₁, hQ₁⟩ := h hq
  have hQ₁ : acceptQueue w'.s = acceptQueue w.s := hQ₁.resolve_right fun h => h.1
  obtain ⟨hq₂, hfd₂, t₂, ht₂, hQ₂⟩ := h' hq₁
  refine ⟨hq₂, hfd₂.trans hfd₁, t₁ ++ t₂, by rw [ht₂, ht₁, List.append_assoc], ?_⟩
  rcases hQ₂ with hQ₂ | ⟨hs, h0, fd, hfd, hmem⟩
  · exact .inl (hQ₂.trans hQ₁)
  · exact .inr ⟨hs, hQ₁.symm.trans h0, fd, hfd, hfd₁ ▸ List.mem_append_right t₁ hmem⟩

theorem JoinSeg.of_joined {x : Seg} (h : JoinSeg w' x) (hw : Joined False w w') : JoinSeg w x :=
  h.imp (fun _ hr => hw.then hr) (fun _ _ => trivial)

theorem JoinSeg.andThen {x : Seg} {f : Frame} {next : World → Seg} (hx : JoinSeg w x)
    (hn : ∀ w', JoinSeg w' (next w')) : JoinSeg w (x.andThen f next) := by
  simp only [spec_andThen]
  refine hx.imp (fun r hr => ?_) (fun _ _ => trivial)
  rcases r with ⟨w₁, _ | ⟨c, k⟩⟩
  · exact (hn w₁).of_joined (hr.weaken Bool.false_ne_true)
  · exact hr

theorem RKeptSeg.joins {x : Seg} (h : RKeptSeg w x) : JoinSeg w x :=
  h.imp (fun _ hr => hr.1.joined) (fun _ _ => trivial)

theorem mem_of_skipIntr {env as : List Answer} {a : Answer} (h : skipIntr env = a :: as) : a ∈ env :=
  (skipIntr_suffix env).subset (h ▸ List.mem_cons_self a as)

/-! ### The read path -/

theorem joinSeg_readLoop {count : Nat} {ipc : Bool} : JoinSeg w (readLoop w count ipc) := by
  unfold readLoop
  split
  · simp only [spec_bind, spec_check, spec_pure]
    exact ⟨fun _ => .emit, fun _ => trivial⟩
  · exact .refl

theorem joinSeg_streamEof {buf : Buffer} : JoinSeg w (streamEof w buf) := by
  simp only [streamEof, spec_readCallback]
  exact ⟨fun _ => .keep rfl rfl rfl ⟨_, readLog_append _ _⟩, fun _ => trivial⟩

theorem joinSeg_readAfterData {count : Nat} {ipc short : Bool} :
    JoinSeg w (readAfterData w count ipc short) := by
  unfold readAfterData; split
  · exact .quiet rfl rfl rfl rfl
  · exact joinSeg_readLoop

theorem joinSeg_ioAfterEof {ev : Events} : JoinSeg w (ioAfterEof w ev) := by
  unfold ioAfterEof
  simp only [spec_ite, spec_pure, spec_bind]
  refine ⟨fun _ => .refl, fun _ => ⟨fun _ => rKept_write.imp (fun w₁ h => ?_) (fun _ _ => trivial),
    fun _ => .refl⟩⟩
  exact (rKeptSeg_writeCallbacks.joins.andThen fun _ => rKeptSeg_ioDrain.joins).of_joined h.joined

theorem joinSeg_ioAfterRead {ev : Events} : JoinSeg w (ioAfterRead w ev) := by
  unfold ioAfterRead
  split
  · exact .refl
  · split
    · exact joinSeg_streamEof.andThen fun _ => joinSeg_ioAfterEof
    · exact joinSeg_ioAfterEof

theorem joinSeg_read : JoinSeg w (read w) :=
  joinSeg_readLoop.of_joined (.quiet rfl rfl rfl rfl)

theorem joinSeg_streamIo {ev : Events} : JoinSeg w (streamIo w ev) := by
  unfold streamIo
  simp only [spec_bind, spec_check, spec_ite, spec_pure, implies_true, and_true]
  exact fun _ _ => ⟨fun _ => rKeptSeg_streamConnect.joins, fun _ _ =>
    ⟨fun _ => joinSeg_read.andThen fun _ => joinSeg_ioAfterRead, fun _ => joinSeg_ioAfterRead⟩⟩

/-- The descriptors a `recvmsg` answer `a` passes to an IPC pipe, in the order
they arrive: those of its `SCM_RIGHTS` messages, when it read some bytes. -/
def passedFds (ipc : Bool) (a : Answer) : List Int :=
  if ipc ∧ 0 < a.ret then rightsFds a.cmsgs else []

/-- `w'` holds the queue of `w`, well formed, as it was, or with descriptors
that the first answer `a` of `w` passed appended: a first part of them, and all
of them when the answers after `a` are no failures. -/
def Received (ipc : Bool) (w w' : World) : Prop :=
  QueueOk w'.s ∧ (acceptQueue w'.s = acceptQueue w.s ∨ ∃ a as, skipIntr w.env = a :: as ∧ ∃ new,
    new <+: passedFds ipc a ∧ ((∀ b ∈ as, 0 ≤ b.ret) → new = passedFds ipc a) ∧
    acceptQueue w'.s = acceptQueue w.s ++ new)

/-- **The turn of `uv__read` after `alloc_cb` appends to the queue the
descriptors its `recvmsg` passed**, in the order they arrive: a first part of
them, and all of them when the allocations of `queued_fds` succeed. -/
theorem readAfterAlloc_queue {count : Nat} {ipc : Bool} {buf : Buffer} (henv : ∀ a ∈ w.env, a.fdsOk)
    (hq : QueueOk w.s) :
    Spec (readAfterAlloc w count ipc buf) (fun r => Received ipc w r.1) (fun _ => True) := by
  have cb : ∀ {w₁ : World} {n : Int} {k : List Frame}, Received ipc w w₁ →
      Spec (readCallback w₁ n buf k) (fun r => Received ipc w r.1) (fun _ => True) :=
    fun h => by simp only [spec_readCallback]; exact ⟨fun _ => h, fun _ => trivial⟩
  have same : ∀ {w₁ : World}, w₁.s.acceptedFd = w.s.acceptedFd → w₁.s.queuedFds = w.s.queuedFds →
      Received ipc w w₁ :=
    fun ha hq' => ⟨hq.of_eq ha hq', .inl (acceptQueue_of_eq ha hq')⟩
  unfold readAfterAlloc
  simp only [spec_bind, spec_ite, spec_check, spec_answerRetry, spec_throw, spec_pure]
  refine ⟨fun _ => cb (same rfl rfl), fun _ => ⟨fun _ => ⟨fun _ => ⟨fun _ => trivial,
    fun a as hsk => ⟨fun _ => trivial, fun _ => ?_⟩⟩, fun _ => trivial⟩, fun _ => trivial⟩⟩
  generalize hw₂ : ({ w with env := as }.emit (.read w.s.fd a.ret)) = w₂
  have hs₂ : w₂.s = w.s := by rw [← hw₂]; rfl
  have he₂ : w₂.env = as := by rw [← hw₂]; rfl
  refine ⟨fun _ => ⟨fun _ => cb (by split <;> exact same (by simp [hs₂]) (by simp [hs₂])),
    fun _ => cb (same (by rw [hs₂]) (by rw [hs₂]))⟩, fun hnn => ⟨fun _ => cb (same (by simp [hs₂])
      (by simp [hs₂])), fun hpos => ⟨fun hipc => ?_, fun hipc => ⟨fun _ => cb (same (by rw [hs₂])
        (by rw [hs₂])), fun _ => cb (same (by rw [hs₂]) (by rw [hs₂]))⟩⟩⟩⟩
  -- `recvmsg` read bytes on an IPC pipe: its descriptors join the queue
  have hpass : passedFds ipc a = rightsFds a.cmsgs := by rw [passedFds, if_pos ⟨hipc, by omega⟩]
  have hQ := streamRecvCmsg_queue (w := w₂) a.cmsgs (henv a (mem_of_skipIntr hsk)) (hs₂ ▸ hq)
  have hrecv : Spec (streamRecvCmsg a.cmsgs w₂) (fun p => QueueOk p.2.s ∧ ∃ new,
      new <+: passedFds ipc a ∧ ((∀ b ∈ as, 0 ≤ b.ret) → new = passedFds ipc a) ∧
      acceptQueue p.2.s = acceptQueue w.s ++ new) (fun _ => True) := by
    rw [hpass, ← hs₂]
    by_cases hall : ∀ b ∈ as, 0 ≤ b.ret
    · exact (hQ.and (streamRecvCmsg_alloc a.cmsgs (he₂ ▸ hall))).imp
        (fun p ⟨⟨hok, _, h0⟩, hp0, _⟩ => ⟨hok, _, List.prefix_refl _, fun _ => rfl, h0 hp0⟩)
        (fun _ _ => trivial)
    · exact hQ.imp (fun p ⟨hok, ⟨new, hpre, hn⟩, _⟩ => ⟨hok, new, hpre, fun h => absurd h hall, hn⟩)
        (fun _ _ => trivial)
  exact hrecv.imp (fun p ⟨hok, hn⟩ => ⟨fun _ => cb ⟨hok, .inr ⟨a, as, hsk, hn⟩⟩,
    fun _ => cb ⟨hok, .inr ⟨a, as, hsk, hn⟩⟩⟩) (fun _ _ => trivial)

/-! ### The server -/

/-- **The loop of `uv__server_io` puts an accepted connection only into an
empty queue**, as it stops at `connection_cb`: the descriptor that an `accept`
of the loop returned. -/
theorem serverLoopFuel_joins (fuel : Nat) : JoinSeg w (serverLoopFuel fuel w) := by
  induction fuel generalizing w with
  | zero => simp [serverLoopFuel]
  | succ fuel ih =>
    unfold serverLoopFuel
    simp only [spec_bind, spec_check, spec_ite, spec_pure, spec_answerRetry, spec_connectionCallback,
      implies_true, and_true, true_and]
    refine ⟨fun _ => .refl, fun _ ha a as _ => ?_⟩
    generalize hw₁ : ({ w with env := as }.emit (.accept w.s.fd a.ret)) = w₁
    have hs₁ : w₁.s = w.s := by rw [← hw₁]; rfl
    have ht₁ : w₁.trace = w.trace ++ [.accept w.s.fd a.ret] := by rw [← hw₁]; rfl
    -- the queue kept, by a world whose trace grew
    have keep : ∀ {p : Prop} {w₂ : World}, w₂.s = w.s → (∃ u, w₂.trace = w.trace ++ u) → Joined p w w₂ :=
      fun hs ⟨u, hu⟩ => .keep (by rw [hs]) (by rw [hs]) (by rw [hs]) ⟨readLog u, by rw [hu, readLog_append]⟩
    refine ⟨fun hfd _ hq => ?_, fun _ => ⟨fun _ => keep hs₁ ⟨_, ht₁⟩, fun _ => ⟨fun _ =>
      ih.imp (fun _ hr => (keep hs₁ ⟨_, ht₁⟩).then hr) (fun _ _ => trivial),
      fun _ => ⟨fun _ => emfileTrick_spec.imp (fun p hp => ?_) (fun _ _ => trivial),
        fun _ _ => keep hs₁ ⟨_, by rw [Seg.world_some, emit_trace, ht₁, List.append_assoc]⟩⟩⟩⟩⟩
    · -- `accept` returned a descriptor: it joins the empty queue
      have hn := hq.queued_none ha
      refine ⟨⟨by simp; omega, by simp [hs₁, hn]⟩, by simp [hs₁], [.accept w.s.fd a.ret, .call (.connection 0)],
        by simp [ht₁, readLog, Event.isRead], .inr ⟨rfl, by simp [ha], a.ret, ?_, by simp⟩⟩
      simp [acceptQueue, hs₁, hn]; omega
    · -- `uv__emfile_trick`
      obtain ⟨hs, u, hu⟩ : p.2.s = w₁.s ∧ ∃ u, p.2.trace = w₁.trace ++ u := by
        rcases hp with ⟨-, rfl⟩ | ⟨-, hs, -, -, -, fds, -, ht⟩
        exacts [⟨rfl, [], by simp⟩, ⟨hs, _, ht⟩]
      exact ⟨fun _ => keep (hs.trans hs₁) ⟨_, by rw [Seg.world_none, hu, ht₁, List.append_assoc]⟩,
        fun _ _ => keep (hs.trans hs₁)
          ⟨_, by rw [Seg.world_some, emit_trace, hu, ht₁, List.append_assoc, List.append_assoc]⟩⟩

theorem joinSeg_serverLoop : JoinSeg w (serverLoop w) := serverLoopFuel_joins _

theorem joinSeg_serverAfterAccept : JoinSeg w (serverAfterAccept w) := by
  unfold serverAfterAccept; split
  · exact .quiet rfl rfl rfl rfl
  · exact joinSeg_serverLoop

theorem joinSeg_serverIo : JoinSeg w (serverIo w) := by
  unfold serverIo
  simp only [spec_bind, spec_check, implies_true, and_true]
  exact fun _ _ => joinSeg_serverLoop.of_joined (.quiet rfl rfl rfl rfl)

/-! ### Frames and dispatches -/

/-- **Every frame but the one that waits for `alloc_cb`, resumed, adds to the
queue only as `Joined` says.** -/
theorem joinSeg_resume {buf : Buffer} (f : Frame) (hf : f.isAlloc = false) :
    JoinSeg w (resume w buf f) := by
  cases f with
  | readAfterAlloc => simp [Frame.isAlloc] at hf
  | readAfterData => exact joinSeg_readAfterData
  | readAfterError =>
    show Joined _ w (readAfterError w)
    unfold readAfterError; split
    · exact .quiet rfl rfl rfl rfl
    · exact .refl
  | eofClear => exact .quiet rfl rfl rfl rfl
  | ioAfterRead => exact joinSeg_ioAfterRead
  | ioAfterEof => exact joinSeg_ioAfterEof
  | writeCallbacks => exact rKeptSeg_writeCallbacks.joins
  | ioDrain => exact rKeptSeg_ioDrain.joins
  | connectAfterCb => exact rKeptSeg_connectAfterCb.joins
  | serverAfterAccept => exact joinSeg_serverAfterAccept
  | serverAfterError => exact joinSeg_serverLoop
  | destroyConnected => exact rKeptSeg_destroyConnected.joins
  | destroyShutdown => exact rKeptSeg_destroyShutdown.joins
  | destroyEnd => exact rKeptSeg_destroyEnd.joins

theorem settle_joins {x : Seg} (h : JoinSeg w x) :
    Spec (settle x) (fun m => Joined True w m.w) (fun _ => True) := by
  unfold settle
  simp only [spec_bind]
  refine h.imp (fun r hr => ?_) (fun _ _ => trivial)
  rcases r with ⟨w', _ | ⟨c, k⟩⟩ <;> exact hr.weaken fun _ => trivial

/-- **Resuming frames none of which waits for `alloc_cb` adds to the queue only
as `Joined` says.** -/
theorem resumeAll_joins {buf : Buffer} {k : List Frame} (hk : ∀ f ∈ k, f.isAlloc = false) :
    Spec (resumeAll buf k w) (fun m => Joined True w m.w) (fun _ => True) := by
  induction k generalizing w with
  | nil => exact .refl
  | cons f k ih =>
    rw [spec_resumeAll_cons]
    refine (joinSeg_resume f (hk f (.head _))).imp (fun r hr => ?_) (fun _ _ => trivial)
    rcases r with ⟨w', _ | ⟨c, fs⟩⟩
    · exact (ih fun g hg => hk g (.tail _ hg)).imp (fun _ h => (hr.weaken Bool.false_ne_true).then h)
        (fun _ _ => trivial)
    · exact hr.weaken fun _ => trivial

theorem dispatch_joins {d : Dispatch} : Spec (dispatch w d) (fun m => Joined True w m.w) (fun _ => True) := by
  cases d with
  | io ev =>
    simp only [dispatch]
    split
    · simp
    · split
      · exact settle_joins joinSeg_streamIo
      · split
        · exact settle_joins joinSeg_serverIo
        · simp
  | finishClose =>
    simp only [dispatch]
    split
    · exact settle_joins (rKeptSeg_streamDestroy.joins.of_joined (.quiet rfl rfl rfl rfl))
    · simp

/-! ## `uv__stream_close` -/

/-- The descriptors a stream holds: its own, unless it is a standard one, then
the accept queue. -/
def heldFds (s : Stream) : List Int :=
  (if STDERR_FILENO < s.fd then [s.fd] else []) ++ acceptQueue s

@[simp] theorem uvReadStop_fd : (uvReadStop w).s.fd = w.s.fd := by unfold uvReadStop; split <;> rfl

@[simp] theorem uvReadStop_acceptedFd : (uvReadStop w).s.acceptedFd = w.s.acceptedFd := by
  unfold uvReadStop; split <;> rfl

@[simp] theorem uvReadStop_queuedFds : (uvReadStop w).s.queuedFds = w.s.queuedFds := by
  unfold uvReadStop; split <;> rfl

@[simp] theorem uvReadStop_pollout : (uvReadStop w).s.pollout = w.s.pollout := by
  unfold uvReadStop; split <;> rfl

@[simp] theorem uvReadStop_pollin : (uvReadStop w).s.pollin = (w.s.pollin && !w.s.flags.reading) := by
  unfold uvReadStop; split <;> simp_all

@[simp] theorem closeQueuedFds_acceptedFd : w.closeQueuedFds.s.acceptedFd = w.s.acceptedFd := by
  unfold World.closeQueuedFds; split <;> simp

theorem closeIoFd_s : w.closeIoFd.s = { w.s with fd := -1 } := by
  unfold World.closeIoFd; split
  · split <;> rfl
  · rename_i h; simp only [ne_eq, not_not] at h; rw [← h]

theorem closeAcceptedFd_s : w.closeAcceptedFd.s = { w.s with acceptedFd := -1 } := by
  unfold World.closeAcceptedFd; split
  · rfl
  · rename_i h; simp only [ne_eq, not_not] at h; rw [← h]

theorem closeQueuedFds_s : w.closeQueuedFds.s = { w.s with queuedFds := none } := by
  unfold World.closeQueuedFds; split
  · simp
  · rename_i h; rw [← h]

theorem closeIoFd_trace :
    w.closeIoFd.trace = w.trace ++ (if STDERR_FILENO < w.s.fd then [.close w.s.fd] else []) := by
  unfold World.closeIoFd; split
  · split <;> simp
  · rename_i h; simp only [ne_eq, not_not] at h; simp [h, STDERR_FILENO]

theorem closeAcceptedFd_trace : w.closeAcceptedFd.trace =
    w.trace ++ (if w.s.acceptedFd = -1 then [] else [.close w.s.acceptedFd]) := by
  unfold World.closeAcceptedFd; split <;> simp_all

theorem closeQueuedFds_trace :
    w.closeQueuedFds.trace = w.trace ++ ((w.s.queuedFds.map QueuedFds.pending).getD []).map .close := by
  unfold World.closeQueuedFds; split <;> simp_all [QueuedFds.pending]

/-- The three blocks of `uv__stream_close` that release descriptors close the
stream's own, unless it is a standard one, then the accept queue, head first. -/
theorem closeFds_trace (h : w.s.acceptedFd = -1 → w.s.queuedFds = none) :
    w.closeIoFd.closeAcceptedFd.closeQueuedFds.trace = w.trace ++ (heldFds w.s).map Event.close := by
  simp only [closeQueuedFds_trace, closeAcceptedFd_trace, closeIoFd_trace, closeAcceptedFd_s, closeIoFd_s]
  by_cases ha : w.s.acceptedFd = -1 <;> by_cases hf : STDERR_FILENO < w.s.fd <;>
    simp [heldFds, acceptQueue, ha, hf, h]

/-- `uv_close` fails only on a closing stream; on a well-formed queue, it
closes the descriptors the stream holds, and nothing else. -/
theorem uvClose_closes (h : QueueOk w.s) :
    Spec (uvClose w) (fun w' => w'.trace = w.trace ++ (heldFds w.s).map Event.close ∧
      w'.s.fd = -1 ∧ acceptQueue w'.s = []) (fun _ => w.s.flags.closing) := by
  simp only [uvClose, streamClose, spec_bind, spec_check, spec_pure]
  refine ⟨fun _ => ⟨fun _ => ⟨?_, by simp [closeQueuedFds_s, closeAcceptedFd_s], by simp⟩,
    fun h => ?_⟩, fun h => by simpa using h⟩
  · rw [closeFds_trace (by simpa using h.queued_none)]
    simp [heldFds, acceptQueue]
  · simp [closeQueuedFds_s, closeAcceptedFd_s, closeIoFd_s] at h

/-! ## Calls of the user and whole steps -/

theorem streamOpen_queue {c : Stream} {fd : Int} {readable writable blocking : Bool} :
    Spec (streamOpen w c fd readable writable blocking) (fun p => p.2.1.acceptedFd = c.acceptedFd ∧
      p.2.1.queuedFds = c.queuedFds) (fun _ => True) := by
  unfold streamOpen sockopt
  simp +contextual

/-- **A call of the user other than `uv_accept` and `uv_close` keeps the
queue**: `accepted_fd` and `queued_fds` as they were. -/
theorem apiCall_keeps {a : Api} (ha : ∀ c, a ≠ .accept c) (hc : a ≠ .close) :
    Spec (apiCall w a) (fun w' => w'.s.acceptedFd = w.s.acceptedFd ∧ w'.s.queuedFds = w.s.queuedFds)
      (fun _ => True) := by
  have kept : ∀ {β : Type} {x : Except Fault β} {g : β → World}, RKept w x g →
      Spec x (fun b => (g b).s.acceptedFd = w.s.acceptedFd ∧ (g b).s.queuedFds = w.s.queuedFds)
        (fun _ => True) :=
    fun h => h.imp (fun _ hb => ⟨hb.acceptedFd, hb.queuedFds⟩) (fun _ _ => trivial)
  cases a with
  | write2 => simp only [apiCall, spec_bind, spec_pure]; exact kept rKept_uvWrite2
  | tryWrite => simp only [apiCall, spec_bind, spec_pure]; exact kept rKept_uvTryWrite
  | readStart => simp only [apiCall, spec_bind, spec_pure]; unfold uvReadStart; simp
  | readStop => exact ⟨uvReadStop_acceptedFd, uvReadStop_queuedFds⟩
  | shutdown => simp only [apiCall, spec_bind, spec_pure]; exact kept rKept_uvShutdown
  | close => exact absurd rfl hc
  | accept c => exact absurd rfl (ha c)
  | listen =>
    simp only [apiCall, spec_bind, spec_ite, spec_pure]
    exact ⟨fun _ => trivial, fun _ => by unfold uvListen; simp⟩
  | streamOpen =>
    simp only [apiCall, spec_bind, spec_ite, spec_pure]
    exact ⟨fun _ => trivial, fun _ => streamOpen_queue.imp (fun _ hp => hp) (fun _ _ => trivial)⟩

/-- **`uv_close` empties the queue**: `uv__stream_close` closes `accepted_fd`
and the descriptors of `queued_fds`. -/
theorem uvClose_queue : Spec (uvClose w) (fun w' => w'.s.flags.closing ∧ acceptQueue w'.s = [] ∧
    QueueOk w'.s) (fun _ => True) := by
  simp only [uvClose, streamClose, spec_bind, spec_check, spec_pure]
  exact ⟨fun _ => ⟨fun _ => ⟨by simp, by simp, by simp, by simp⟩, fun _ => trivial⟩, fun _ => trivial⟩

/-- What a step does to the accept queue: it leaves it; descriptors join its
tail, those a `recvmsg` passed in the step's first answer, in the order they
arrive (all of them when the allocations of `queued_fds` succeed), or the one
connection an `accept` of the step returned, into an empty queue; `uv_accept`
takes its head, handing it to the client or closing it; or `uv_close` closes
every descriptor in it. `new` joined the queue and `gone` left it. -/
inductive QueueEffect (m : Machine) (act : Action) (env : List Answer) (m' : Machine) :
    List Int → List Int → Prop
  | keep : acceptQueue m'.w.s = acceptQueue m.w.s → QueueEffect m act env m' [] []
  | received {buf : Buffer} {count : Nat} {ipc : Bool} {k : List Frame} {a : Answer}
      {as : List Answer} {new : List Int} : act = .ret buf →
      m.ctl = .inCallback .alloc (.readAfterAlloc count ipc :: k) → skipIntr env = a :: as →
      new <+: passedFds ipc a → ((∀ b ∈ as, 0 ≤ b.ret) → new = passedFds ipc a) →
      acceptQueue m'.w.s = acceptQueue m.w.s ++ new → QueueEffect m act env m' new []
  | accepted {fd : Int} {t : List Event} : acceptQueue m.w.s = [] → acceptQueue m'.w.s = [fd] →
      readLog m'.w.trace = readLog m.w.trace ++ t → Event.accept m.w.s.fd fd ∈ t →
      QueueEffect m act env m' [fd] []
  | taken {c : Stream} {fd : Int} {rest : List Int} : act = .api (.accept c) →
      acceptQueue m.w.s = fd :: rest → acceptQueue m'.w.s = rest →
      (∃ err c', uvAccept { m.w with env := env } c = .ok (err, c', m'.w) ∧
        (err = 0 → c.type ≠ .udp → c'.fd = fd) ∧ (err ≠ 0 → Event.close fd ∈ m'.w.trace)) →
      QueueEffect m act env m' [] [fd]
  | released : act = .api .close → acceptQueue m'.w.s = [] →
      m'.w.trace = m.w.trace ++ (heldFds m.w.s).map Event.close →
      QueueEffect m act env m' [] (acceptQueue m.w.s)

/-- **A step takes from the head of the queue what it hands over, and adds at
its tail what arrives.** -/
theorem QueueEffect.queue {m m' : Machine} {act : Action} {env : List Answer} {new gone : List Int}
    (h : QueueEffect m act env m' new gone) : acceptQueue m.w.s ++ new = gone ++ acceptQueue m'.w.s := by
  cases h with
  | keep hQ => simp [hQ]
  | received _ _ _ _ _ hQ => simp [hQ]
  | accepted h0 h1 _ _ => simp [h0, h1]
  | taken _ hQ hQ' _ => simp [hQ, hQ']
  | released _ hQ' _ => simp [hQ']


/-- **What one step does to the queue**, from a well-formed queue and
well-shaped frames, when the kernel passes only descriptors: it keeps the queue
well formed, and acts on it as `QueueEffect` says. -/
theorem Machine.step_effect {m m' : Machine} {act : Action} {env : List Answer} (hq : QueueOk m.w.s)
    (hsh : m.shaped) (henv : ∀ a ∈ env, a.fdsOk) (hs : m.step act env = .ok m') :
    QueueOk m'.w.s ∧ ∃ new gone, QueueEffect m act env m' new gone := by
  -- the loop thread's steps other than the return from `alloc_cb`
  have hjoin : Joined True { m.w with env := env } m'.w →
      QueueOk m'.w.s ∧ ∃ new gone, QueueEffect m act env m' new gone := fun hj => by
    obtain ⟨hq', -, t, ht, hQ | ⟨-, h0, fd, hfd, hmem⟩⟩ := hj hq
    exacts [⟨hq', [], [], .keep hQ⟩, ⟨hq', [fd], [], .accepted h0 hfd ht hmem⟩]
  obtain ⟨w, ctl⟩ := m
  cases act with
  | api a =>
    obtain ⟨w', hw', rfl⟩ := map_eq_ok.1 hs
    by_cases hacc : ∃ c, a = .accept c
    · obtain ⟨c, rfl⟩ := hacc
      obtain ⟨⟨err, c', w''⟩, hp, he⟩ := bind_eq_ok.1 hw'
      cases he
      obtain ⟨hok, hnil, hinval, hcons⟩ := (uvAccept_queue (w := { w with env := env }) hq).of_ok hp
      refine ⟨hok, ?_⟩
      rcases hQ : acceptQueue w.s with _ | ⟨fd, rest⟩
      · cases hnil hQ
        exact ⟨[], [], .keep rfl⟩
      · by_cases hty : c.type = .tcp ∨ c.type = .namedPipe ∨ c.type = .udp
        · obtain ⟨hQ', hfd, hclose⟩ := hcons fd rest hQ hty
          exact ⟨[], [fd], .taken rfl hQ hQ' ⟨err, c', hp, hfd, hclose⟩⟩
        · simp only [not_or] at hty
          cases hinval hty.1 hty.2.1 hty.2.2 (by simp [hQ])
          exact ⟨[], [], .keep rfl⟩
    by_cases hcl : a = .close
    · subst hcl
      obtain ⟨⟨ht, -, hQ'⟩, -, -, hok⟩ :=
        ((uvClose_closes (w := { w with env := env }) hq).and uvClose_queue).of_ok hw'
      exact ⟨hok, [], _, .released rfl hQ' ht⟩
    · obtain ⟨ha, hq'⟩ := (apiCall_keeps (not_exists.1 hacc) hcl).of_ok hw'
      exact ⟨hq.of_eq ha hq', [], [], .keep (acceptQueue_of_eq ha hq')⟩
  | ret buf =>
    cases ctl with
    | idle => cases hs
    | inCallback c k =>
      by_cases hfree : ∀ f ∈ k, f.isAlloc = false
      · exact hjoin ((resumeAll_joins hfree).of_ok hs)
      -- the return from `alloc_cb`: the descriptors of `recvmsg` join the queue
      rcases k with _ | ⟨f, k⟩
      · exact absurd (fun _ h => nomatch h) hfree
      obtain ⟨hc, hk⟩ : (c = .alloc ↔ f.isAlloc) ∧ ∀ g ∈ k, g.isAlloc = false := hsh c _ rfl
      have hf : f.isAlloc := by
        by_contra hf
        exact hfree fun g hg => by rcases List.mem_cons.1 hg with rfl | hg; exacts [by simpa using hf, hk g hg]
      obtain rfl := hc.2 hf
      obtain ⟨count, ipc, rfl⟩ : ∃ count ipc, f = .readAfterAlloc count ipc := by
        cases f <;> first | exact ⟨_, _, rfl⟩ | simp [Frame.isAlloc] at hf
      have key : Spec (resumeAll buf (.readAfterAlloc count ipc :: k) { w with env := env })
          (fun m' => QueueOk m'.w.s ∧ ∃ new gone,
            QueueEffect ⟨w, .inCallback .alloc (.readAfterAlloc count ipc :: k)⟩ (.ret buf) env m' new gone)
          (fun _ => True) := by
        rw [spec_resumeAll_cons]
        refine (readAfterAlloc_spec.and (readAfterAlloc_queue (w := { w with env := env }) henv hq)).imp
          (fun ⟨w₁, o⟩ ⟨⟨_, n, fs, hr, _⟩, hok, hQ⟩ => ?_) (fun _ _ => trivial)
        obtain rfl : o = some (.read n buf, fs) := hr
        rcases hQ with hQ | ⟨a, as, hsk, new, hpre, hall, hQ⟩
        · exact ⟨hok, [], [], .keep hQ⟩
        · exact ⟨hok, new, [], .received rfl rfl hsk hpre hall hQ⟩
      exact key.of_ok hs
  | dispatch d =>
    cases ctl with
    | idle => exact hjoin (dispatch_joins.of_ok hs)
    | inCallback => cases hs
  | connect cb e =>
    obtain ⟨w', hw', rfl⟩ := map_eq_ok.1 hs
    have hk := rKept_connect.of_ok hw'
    exact ⟨hq.of_eq hk.acceptedFd hk.queuedFds, [], [], .keep (acceptQueue_of_eq hk.acceptedFd hk.queuedFds)⟩

/-- A step of any user in which the messages the kernel passes carry only
descriptors. -/
def Machine.FdStep (m m' : Machine) : Prop :=
  ∃ act env, (∀ a ∈ env, a.fdsOk) ∧ m.step act env = .ok m'

/-- A scripted run is a sequence of such steps if its messages carry only
descriptors. -/
theorem Machine.run_fdSteps {m m' : Machine} (acts : List (Action × List Answer))
    (hr : m.run acts = .ok m') (hfds : ∀ p ∈ acts, ∀ a ∈ p.2, a.fdsOk) :
    Relation.ReflTransGen Machine.FdStep m m' := by
  induction acts generalizing m with
  | nil => cases hr; exact .refl
  | cons p acts ih =>
    obtain ⟨m₁, h₁, hr⟩ := bind_eq_ok.1 hr
    exact .head ⟨p.1, p.2, hfds p (.head _), h₁⟩ (ih hr fun q hq => hfds q (.tail _ hq))

theorem initial_s {m : Machine} (h : Initial m) : ∃ type ipc, m.w.s = Stream.init type ipc := by
  obtain ⟨w₀, type, ipc, -, -, hinit, -⟩ := h
  exact ⟨type, ipc, (streamInit_spec.of_ok hinit).1⟩

theorem queueOk_initial {m : Machine} (h : Initial m) : QueueOk m.w.s := by
  obtain ⟨type, ipc, hs⟩ := initial_s h
  exact ⟨by simp [hs, Stream.init], by simp [hs, Stream.init]⟩

/-- **Along every run in which the kernel passes only descriptors, the queue is
well formed.** -/
theorem queueOk_run {m₀ m : Machine} (h₀ : Initial m₀)
    (hrun : Relation.ReflTransGen Machine.FdStep m₀ m) : QueueOk m.w.s ∧ m.shaped := by
  induction hrun with
  | refl => exact ⟨queueOk_initial h₀, shaped_reachable (⟨_, h₀, .refl⟩ : Reachable anyUser m₀)⟩
  | tail _ step ih =>
    obtain ⟨act, env, henv, hs⟩ := step
    exact ⟨(Machine.step_effect ih.1 ih.2 henv hs).1, ih.2.step hs⟩

/-! ## Runs -/

/-- A run of the steps `acts` from `m` to `m'`, with the descriptors that
joined the queue (`arrived`) and that left it (`left`), in order, each step
acting on the queue as `QueueEffect` says. -/
inductive QueueRun : Machine → List (Action × List Answer) → Machine → List Int → List Int → Prop
  | nil (m : Machine) : QueueRun m [] m [] []
  | cons {m m₁ m' : Machine} {act : Action} {env : List Answer} {acts : List (Action × List Answer)}
      {new gone arrived left : List Int} : m.step act env = .ok m₁ →
      QueueEffect m act env m₁ new gone → QueueRun m₁ acts m' arrived left →
      QueueRun m ((act, env) :: acts) m' (new ++ arrived) (gone ++ left)

/-- **Along a run the queue is a FIFO**: the queue at the start, then what
arrived, is what left, then the queue at the end. -/
theorem QueueRun.queue {m m' : Machine} {acts : List (Action × List Answer)} {arrived left : List Int}
    (h : QueueRun m acts m' arrived left) : acceptQueue m.w.s ++ arrived = left ++ acceptQueue m'.w.s := by
  induction h with
  | nil => simp
  | cons _ he _ ih => rw [← List.append_assoc, he.queue, List.append_assoc, ih, List.append_assoc]

/-- An IPC pipe on descriptor 7 reads; the `recvmsg` takes five bytes and two
`SCM_RIGHTS` messages, with descriptors 10 and 11, then 12, and `queued_fds` is
allocated. -/
def cmsgsQueued : List (Action × List Answer) :=
  [(.api (.streamOpen 7 true true false), []), (.api (.readStart true true), []),
   (.dispatch (.io ⟨true, false, false, false⟩), []),
   (.ret ⟨1, 64⟩, [⟨5, [⟨SCM_RIGHTS, [10, 11]⟩, ⟨SCM_RIGHTS, [12]⟩]⟩, ⟨0, []⟩])]

/-- **`uv_close` releases every descriptor the stream holds.** Along every run
in which the kernel passes only descriptors, `uv_close` on a stream that is not
closing succeeds, wherever the loop thread is, and the only events it adds are
closes: of the stream's own descriptor unless it is a standard one, then of
each descriptor waiting to be accepted, head first, once each. -/
theorem close_releases_held_fds {m₀ m : Machine} (h₀ : Initial m₀)
    (hrun : Relation.ReflTransGen Machine.FdStep m₀ m) (hc : m.w.s.flags.closing = false)
    (env : List Answer) :
    Spec (m.step (.api .close) env) (fun m' => m'.ctl = m.ctl ∧
      m'.w.trace = m.w.trace ++ (heldFds m.w.s).map Event.close ∧
      m'.w.s.fd = -1 ∧ acceptQueue m'.w.s = []) (fun _ => False) := by
  simp only [Machine.step, spec_map, apiCall]
  exact (uvClose_closes (w := { m.w with env := env }) (queueOk_run h₀ hrun).1).imp
    (fun _ h => ⟨trivial, h⟩) (fun _ h => absurd h (by simp [hc]))

/-- Closed in `read_cb`, the pipe of `cmsgsQueued` releases descriptor 7, then
10, 11 and 12. -/
theorem close_releases_received_fds :
    heldFds (Machine.after .namedPipe true cmsgsQueued).w.s = [7, 10, 11, 12] ∧
      Spec ((Machine.after .namedPipe true cmsgsQueued).step (.api .close) [])
        (fun m' => m'.ctl = (Machine.after .namedPipe true cmsgsQueued).ctl ∧
          m'.w.trace = (Machine.after .namedPipe true cmsgsQueued).w.trace ++
            (heldFds (Machine.after .namedPipe true cmsgsQueued).w.s).map Event.close ∧
          m'.w.s.fd = -1 ∧ acceptQueue m'.w.s = []) (fun _ => False) := by
  refine ⟨by decide, @close_releases_held_fds (Machine.initial .namedPipe true) _
    ⟨(Machine.initial .namedPipe true).w, .namedPipe, true, rfl, rfl, rfl, rfl⟩
    (Machine.run_fdSteps cmsgsQueued (by decide) ?_) (by decide) []⟩
  unfold Answer.fdsOk
  decide

end UvStream
