import UvStream.Proof.Closed

/-!
# What a dispatch does between two callbacks of the read side

`readCalls t` are the calls of `alloc_cb` and `read_cb` that the trace `t`
records, in order. Between two callbacks, no piece of a dispatch calls either,
no piece sets `UV_STREAM_READING`, and the read side stays well formed
(`ReadOk`: a reading stream has a descriptor, and `queued_fds` has a slot for
each unit of its `size`, the first `offset` of them used). `ReadCalm w w'` says
these three.

Where a piece stops, `Stop` says how:
* at `alloc_cb` only with `read_cb` set and `UV_STREAM_READING`, as the test of
  `uv__read`'s loop found them;
* at `read_cb` with `UV_EOF` only with a frame next that stops reading;
* with the turns of `uv__read`'s loop that its frames may still make, plus one
  for a call of `alloc_cb`, within the turns it was started with
  (`Frame.turns`): 32 for `uv__read`, the loop's `count` for a frame of the
  loop, none for the others.

A piece other than the resumption after `alloc_cb` calls `alloc_cb` or
`read_cb` only on a stream that was reading when it started (`GatedSeg`).

* `readAfterAlloc_spec`: **after `alloc_cb` returned `buf`, `uv__read` reaches
  a `read_cb` with that same buffer**, with `UV_ENOBUFS` for an empty one, and
  on a well-formed read side it fails only for want of an answer.
* `streamRecvCmsg_env`: `uv__stream_recv_cmsg` takes at most one answer per
  descriptor it is passed, so that with the answers the turn takes
  (`ReadAnswered`) it does not fail.
* `readAfterAlloc_answered`: with its answers, the turn completes exactly when
  `read_cb` is set; with `read_cb` cleared it **calls the NULL `read_cb`**
  instead.
* `readSeg_resume`, `gatedSeg_resume`: every frame, resumed, behaves so.
-/

namespace UvStream

/-- Whether the event is a call of `alloc_cb` or `read_cb`. -/
def Event.readCall : Event → Bool
  | .call .alloc | .call (.read ..) => true
  | _ => false

/-- The calls of `alloc_cb` and `read_cb` that a trace records, in order. -/
def readCalls (t : List Event) : List Event := t.filter Event.readCall

@[simp] theorem readCalls_append (t u : List Event) :
    readCalls (t ++ u) = readCalls t ++ readCalls u :=
  List.filter_append _ _

@[simp] theorem readCalls_nil : readCalls [] = [] := rfl

theorem readCalls_readLog (t : List Event) : readCalls (readLog t) = readCalls t := by
  simp only [readCalls, readLog, List.filter_filter]
  congr 1; funext e
  rcases e with ⟨_ | _ | _ | _ | _ | _⟩ | _ | _ | _ | _ | _ | _ | _ | _ | _ <;> rfl

/-- `queued_fds` as `uv__stream_queue_fd` keeps it: a slot for each unit of
`size`, the first `offset` of them used. -/
def QueuedFds.wf (q : QueuedFds) : Prop := q.fds.length = q.size ∧ q.offset ≤ q.size

/-- The read side is well formed: a reading stream has a descriptor, and
`queued_fds`, if allocated, is well formed. -/
structure ReadOk (w : World) : Prop where
  fd : w.s.flags.reading → 0 ≤ w.s.fd
  queued : ∀ q, w.s.queuedFds = some q → q.wf

/-- From `w` to `w'`: no call of `alloc_cb` or `read_cb`, `UV_STREAM_READING`
not set, and the read side kept well formed. -/
structure ReadCalm (w w' : World) : Prop where
  calls : readCalls w'.trace = readCalls w.trace
  reading : w'.s.flags.reading → w.s.flags.reading
  ok : ReadOk w → ReadOk w'

variable {α : Type} {w w' w'' : World}

theorem ReadOk.emit {e : Event} (h : ReadOk w) : ReadOk (w.emit e) := ⟨h.fd, h.queued⟩

theorem ReadCalm.refl (w : World) : ReadCalm w w := ⟨rfl, id, id⟩

theorem ReadCalm.trans (h : ReadCalm w w') (h' : ReadCalm w' w'') : ReadCalm w w'' :=
  ⟨h'.calls.trans h.calls, fun hr => h.reading (h'.reading hr), fun ho => h'.ok (h.ok ho)⟩

/-- A world that agrees with `w` on the trace's calls, the flag, the descriptor
and `queued_fds`. -/
theorem ReadCalm.of_eq (hc : readCalls w'.trace = readCalls w.trace)
    (hr : w'.s.flags.reading = w.s.flags.reading) (hfd : w'.s.fd = w.s.fd)
    (hq : w'.s.queuedFds = w.s.queuedFds) : ReadCalm w w' :=
  ⟨hc, fun h => hr ▸ h, fun ⟨h₁, h₂⟩ => ⟨hfd ▸ hr ▸ h₁, hq ▸ h₂⟩⟩

theorem ReadsKept.calm (h : ReadsKept w w') : ReadCalm w w' :=
  .of_eq (by rw [← readCalls_readLog, h.log, readCalls_readLog]) h.reading h.fd h.queuedFds

theorem readCalm_emit {e : Event} (he : e.readCall = false) : ReadCalm w (w.emit e) :=
  .of_eq (by simp [readCalls, he]) rfl rfl rfl

/-- A world in which reading has stopped. -/
theorem ReadCalm.of_stop (hc : readCalls w'.trace = readCalls w.trace)
    (hr : w'.s.flags.reading = false) (hq : w'.s.queuedFds = w.s.queuedFds ∨ w'.s.queuedFds = none) :
    ReadCalm w w' :=
  ⟨hc, by simp [hr], fun ok => ⟨by simp [hr], by rcases hq with hq | hq <;> rw [hq]; exacts [ok.queued, nofun]⟩⟩

/-! ## Where a piece stops -/

/-- The turns of `uv__read`'s loop that resuming the frame may still make: the
loop's `count` for a frame of the loop, none for the others. -/
def Frame.turns : Frame → Nat
  | .readAfterAlloc count _ | .readAfterData count _ _ => count
  | _ => 0

/-- The turns that resuming the frames `k` may still make. -/
def turnsOf (k : List Frame) : Nat := (k.map Frame.turns).sum

@[simp] theorem turnsOf_nil : turnsOf [] = 0 := rfl

@[simp] theorem turnsOf_cons (f : Frame) (k : List Frame) :
    turnsOf (f :: k) = f.turns + turnsOf k := by
  simp [turnsOf]

@[simp] theorem turnsOf_append (k k' : List Frame) : turnsOf (k ++ k') = turnsOf k + turnsOf k' := by
  simp [turnsOf]

/-- The frames after which reading stops: the end of `uv__stream_eof`, and of
`uv__read` after an error. -/
def Frame.endsReading : Frame → Bool
  | .eofClear | .readAfterError => true
  | _ => false

/-- Whether the callback is `alloc_cb` or `read_cb`. -/
def Callback.reads : Callback → Bool
  | .alloc | .read .. => true
  | _ => false

/-- How a piece of a dispatch, given `n` turns of `uv__read`'s loop, may stop
at the callback `c` with the frames `k`, leaving the world `w`. -/
structure Stop (n : Nat) (w : World) (c : Callback) (k : List Frame) : Prop where
  turns : (if c = .alloc then 1 else 0) + turnsOf k ≤ n
  alloc : c = .alloc → w.s.readCb ∧ w.s.flags.reading
  eof : ∀ buf, c = .read UV_EOF buf → ∃ f k', k = f :: k' ∧ f.endsReading

@[simp] theorem stop_read {n : Nat} {nread : Int} {buf : Buffer} {k : List Frame} :
    Stop n w (.read nread buf) k ↔
      turnsOf k ≤ n ∧ (nread = UV_EOF → ∃ f k', k = f :: k' ∧ f.endsReading) :=
  ⟨fun h => ⟨by simpa using h.turns, fun he => h.eof buf (by rw [he])⟩,
    fun h => ⟨by simpa using h.1, nofun, fun _ he => h.2 (Callback.read.inj he).1⟩⟩

/-- A callback other than `alloc_cb` and `read_cb`, with frames within the
turns. -/
theorem stop_other {n : Nat} {c : Callback} {k : List Frame} (hc : c.reads = false)
    (hk : turnsOf k ≤ n) : Stop n w c k :=
  ⟨by cases c <;> simp_all [Callback.reads], by rintro rfl; simp [Callback.reads] at hc,
    by rintro _ rfl; simp [Callback.reads] at hc⟩

theorem Stop.emit {n : Nat} {c : Callback} {k : List Frame} {e : Event} (h : Stop n w c k) :
    Stop n (w.emit e) c k :=
  ⟨h.turns, h.alloc, h.eof⟩

theorem Stop.mono {n n' : Nat} {c : Callback} {k : List Frame} (h : Stop n w c k) (hn : n ≤ n') :
    Stop n' w c k :=
  ⟨h.turns.trans hn, h.alloc, h.eof⟩

/-- A frame that makes no turn of the loop, put behind the frames `k`. -/
theorem Stop.append {n : Nat} {c : Callback} {k : List Frame} {f : Frame} (h : Stop n w c k)
    (hf : f.turns = 0) : Stop n w c (k ++ [f]) := by
  refine ⟨by simpa [hf] using h.turns, h.alloc, fun buf hc => ?_⟩
  obtain ⟨g, k', rfl, hg⟩ := h.eof buf hc
  exact ⟨g, k' ++ [f], rfl, hg⟩

/-- A piece of a dispatch, started from `w` with `n` turns of `uv__read`'s
loop: it calls neither `alloc_cb` nor `read_cb` before it stops, and stops as
`Stop` says. -/
abbrev ReadSeg (w : World) (n : Nat) (x : Seg) : Prop :=
  Spec x (fun r => ReadCalm w r.1 ∧ ∀ c k, r.2 = some (c, k) → Stop n r.1 c k) (fun _ => True)

theorem ReadSeg.of_calm {n : Nat} {x : Seg} (h : ReadSeg w' n x) (hw : ReadCalm w w') :
    ReadSeg w n x :=
  h.imp (fun _ hr => ⟨hw.trans hr.1, hr.2⟩) (fun _ _ => trivial)

theorem ReadSeg.mono {n n' : Nat} {x : Seg} (h : ReadSeg w n x) (hn : n ≤ n') : ReadSeg w n' x :=
  h.imp (fun _ hr => ⟨hr.1, fun c k hc => (hr.2 c k hc).mono hn⟩) (fun _ _ => trivial)

theorem ReadSeg.andThen {n : Nat} {x : Seg} {f : Frame} {next : World → Seg} (hx : ReadSeg w n x)
    (hf : f.turns = 0) (hn : ∀ w', ReadCalm w w' → ReadSeg w' n (next w')) :
    ReadSeg w n (x.andThen f next) := by
  simp only [spec_andThen]
  refine hx.imp (fun r hr => ?_) (fun _ _ => trivial)
  rcases r with ⟨w₁, _ | ⟨c, k⟩⟩
  · exact (hn w₁ hr.1).of_calm hr.1
  · exact ⟨hr.1, by rintro _ _ ⟨⟩; exact (hr.2 c k rfl).append hf⟩

@[simp] theorem spec_readCallback {nread : Int} {buf : Buffer} {k : List Frame}
    {Q : World × Option (Callback × List Frame) → Prop} {F : Fault → Prop} :
    Spec (readCallback w nread buf k) Q F ↔
      (w.s.readCb → Q (w, some (.read nread buf, k))) ∧ (¬ w.s.readCb → F .nullCall) := by
  unfold readCallback; split <;> simp_all

/-! ## The read path -/

theorem readSeg_readLoop {count : Nat} {ipc : Bool} : ReadSeg w count (readLoop w count ipc) := by
  unfold readLoop
  split
  next h =>
    simp only [spec_bind, spec_check, spec_pure]
    refine ⟨fun _ => ⟨.refl w, ?_⟩, fun _ => trivial⟩
    rintro _ _ ⟨⟩
    exact ⟨by simp [Frame.turns]; omega, fun _ => ⟨h.1, h.2.1⟩, by simp⟩
  · exact ⟨.refl w, by simp⟩

theorem readSeg_streamEof {buf : Buffer} : ReadSeg w 0 (streamEof w buf) := by
  simp only [streamEof, spec_readCallback]
  exact ⟨fun _ => ⟨.of_eq rfl rfl rfl rfl, by
    rintro _ _ ⟨⟩; exact stop_read.2 ⟨by simp [Frame.turns], fun _ => ⟨_, _, rfl, rfl⟩⟩⟩,
    fun _ => trivial⟩

/-- Room in `queued_fds`: on a well-formed read side, a slot past the used
ones, in a `queued_fds` whose slots match its `size`. -/
theorem queuedFdsRoom_spec :
    Spec (queuedFdsRoom w) (fun p => p.2.s = w.s ∧ p.2.trace = w.trace ∧
      ∀ q, p.1 = some q → ReadOk w → q.fds.length = q.size ∧ q.offset < q.size) (· = .stuck) := by
  unfold queuedFdsRoom
  split
  · simp only [spec_bind, spec_answer, spec_pure]
    refine ⟨fun _ => trivial, fun a as _ => ⟨trivial, trivial, ?_⟩⟩
    split <;> simp
  · next q hq =>
    have hwf : ReadOk w → q.wf := fun ok => ok.queued q hq
    split
    · simp only [spec_bind, spec_answer, spec_pure]
      refine ⟨fun _ => trivial, fun a as _ => ⟨trivial, trivial, ?_⟩⟩
      split
      · simp
      · rintro _ ⟨⟩ ok
        have := hwf ok
        simp only [QueuedFds.wf] at this
        simp; omega
    · refine ⟨rfl, rfl, ?_⟩
      rintro _ ⟨⟩ ok
      have := hwf ok
      simp only [QueuedFds.wf] at this
      omega

/-- `uv__stream_queue_fd` keeps the read side well formed, and fails on a
well-formed one only for want of an answer. -/
theorem streamQueueFd_spec {fd : Int} :
    Spec (streamQueueFd w fd)
      (fun p => ReadCalm w p.2 ∧ p.2.s.readCb = w.s.readCb ∧ (p.1 = 0 ∨ p.1 = -ENOMEM))
      (fun e => ReadOk w → e = .stuck) := by
  unfold streamQueueFd
  simp only [spec_bind]
  refine queuedFdsRoom_spec.imp (fun ⟨o, w₁⟩ ⟨hs, ht, hq⟩ => ?_) (fun _ h _ => h)
  dsimp only at hs ht hq
  rcases o with _ | q
  · exact ⟨.of_eq (by rw [ht]) (by rw [hs]) (by rw [hs]) (by rw [hs]), by rw [hs], .inr rfl⟩
  · simp only [spec_ite, spec_pure, spec_throw]
    refine ⟨fun hlt => ⟨⟨by simp [ht], by simp [hs], fun ok => ⟨by simpa [hs] using ok.fd, ?_⟩⟩,
      by simp [hs], .inl trivial⟩, fun hge ok => absurd (by have := hq q rfl ok; omega) hge⟩
    rintro _ ⟨⟩
    have := hq q rfl ok
    exact ⟨by simp [this.1], show q.offset + 1 ≤ q.size by omega⟩

theorem readCalm_closes (fds : List Int) :
    ReadCalm w (fds.foldl (fun w fd => w.emit (.close fd)) w) :=
  .of_eq (by simp [readCalls, Event.readCall]) (by simp) (by simp) (by simp)

/-- The loop of `uv__stream_recv_cmsg` over one message returns 0 or
`UV_ENOMEM`. -/
theorem recvFds_spec (fds : List Int) :
    Spec (recvFds fds w)
      (fun p => ReadCalm w p.2 ∧ p.2.s.readCb = w.s.readCb ∧ (p.1 = 0 ∨ p.1 = -ENOMEM))
      (fun e => ReadOk w → e = .stuck) := by
  induction fds generalizing w with
  | nil => exact ⟨.refl w, rfl, .inl rfl⟩
  | cons fd fds ih =>
    have h₀ : ReadCalm w { w with s.acceptedFd := fd } := .of_eq rfl rfl rfl rfl
    unfold recvFds
    simp only [spec_bind, spec_ite, spec_pure]
    refine ⟨fun _ => streamQueueFd_spec.imp (fun ⟨err, w₁⟩ ⟨hc, hcb, herr⟩ => ?_) (fun _ h => h),
      fun _ => ih.imp (fun p hp => ⟨h₀.trans hp.1, hp.2.1, hp.2.2⟩) (fun _ h ok => h (h₀.ok ok))⟩
    dsimp only at hc hcb herr ⊢
    exact ⟨fun _ => ⟨hc.trans (readCalm_closes _), by simpa using hcb, herr⟩,
      fun _ => ih.imp (fun p hp => ⟨hc.trans hp.1, hp.2.1.trans hcb, hp.2.2⟩)
        (fun _ h ok => h (hc.ok ok))⟩

/-- **`uv__stream_recv_cmsg` returns 0 or `UV_ENOMEM`**, and fails on a
well-formed read side only for want of an answer. -/
theorem streamRecvCmsg_spec (cs : List Cmsg) :
    Spec (streamRecvCmsg cs w)
      (fun p => ReadCalm w p.2 ∧ p.2.s.readCb = w.s.readCb ∧ (p.1 = 0 ∨ p.1 = -ENOMEM))
      (fun e => ReadOk w → e = .stuck) := by
  induction cs generalizing w with
  | nil => exact ⟨.refl w, rfl, .inl rfl⟩
  | cons c cs ih =>
    unfold streamRecvCmsg
    simp only [spec_bind, spec_ite, spec_pure]
    refine ⟨fun _ => ih, fun _ => (recvFds_spec c.fds).imp (fun ⟨err, w₁⟩ ⟨hc, hcb, herr⟩ => ?_)
      (fun _ => id)⟩
    dsimp only at hc hcb herr ⊢
    exact ⟨fun _ => ⟨hc, hcb, herr⟩, fun _ => ih.imp (fun p hp => ⟨hc.trans hp.1, hp.2.1.trans hcb,
      hp.2.2⟩) (fun _ h ok => h (hc.ok ok))⟩

/-! ## The answers a turn takes -/

/-- Room in `queued_fds` takes at most one answer, and fails only with none
left. -/
theorem queuedFdsRoom_env :
    Spec (queuedFdsRoom w) (fun p => w.env.length ≤ p.2.env.length + 1) (fun _ => w.env = []) := by
  unfold queuedFdsRoom
  split
  · simp only [spec_bind, spec_answer, spec_pure]
    exact ⟨id, fun a as h => by simp [h]⟩
  · split
    · simp only [spec_bind, spec_answer, spec_pure]
      exact ⟨id, fun a as h => by simp [h]⟩
    · exact Nat.le_succ _

/-- `uv__stream_queue_fd` takes at most one answer, and fails on a well-formed
read side only with none left. -/
theorem streamQueueFd_env {fd : Int} :
    Spec (streamQueueFd w fd) (fun p => w.env.length ≤ p.2.env.length + 1)
      (fun _ => ReadOk w → w.env = []) := by
  unfold streamQueueFd
  simp only [spec_bind]
  refine (queuedFdsRoom_spec.and queuedFdsRoom_env).imp (fun ⟨o, w₁⟩ ⟨⟨_, _, hq⟩, hl⟩ => ?_)
    (fun _ h _ => h.2)
  rcases o with _ | q
  · exact hl
  · simp only [spec_ite, spec_pure, spec_throw]
    exact ⟨fun _ => hl, fun hge ok => absurd (by have := hq q rfl ok; omega) hge⟩

/-- The loop of `uv__stream_recv_cmsg` over one message takes at most one
answer per descriptor, and fails on a well-formed read side only with fewer
answers left than descriptors. -/
theorem recvFds_env (fds : List Int) :
    Spec (recvFds fds w) (fun p => w.env.length ≤ p.2.env.length + fds.length)
      (fun _ => ReadOk w → w.env.length < fds.length) := by
  induction fds generalizing w with
  | nil => exact Nat.le_refl _
  | cons fd fds ih =>
    unfold recvFds
    simp only [spec_bind, spec_ite, spec_pure, List.length_cons]
    refine ⟨fun _ => (streamQueueFd_spec.and streamQueueFd_env).imp
      (fun ⟨err, w₁⟩ ⟨⟨hc, _, _⟩, hl⟩ => ?_) (fun _ h ok => by simp [h.2 ok]),
      fun _ => ih.imp (fun _ hp => by simp only at hp; omega)
        (fun _ h ok => Nat.lt_succ_of_lt (h ⟨ok.fd, ok.queued⟩))⟩
    dsimp only at hl ⊢
    exact ⟨fun _ => by simp only [foldl_emit]; omega, fun _ => ih.imp (fun _ hp => by omega)
      (fun _ h ok => by have := h (hc.ok ok); omega)⟩

/-- **`uv__stream_recv_cmsg` takes at most one answer per descriptor passed**,
and fails on a well-formed read side only with fewer answers left. -/
theorem streamRecvCmsg_env (cs : List Cmsg) :
    Spec (streamRecvCmsg cs w) (fun p => w.env.length ≤ p.2.env.length + (cs.flatMap Cmsg.fds).length)
      (fun _ => ReadOk w → w.env.length < (cs.flatMap Cmsg.fds).length) := by
  induction cs generalizing w with
  | nil => exact Nat.le_refl _
  | cons c cs ih =>
    unfold streamRecvCmsg
    simp only [spec_bind, spec_ite, spec_pure, List.flatMap_cons, List.length_append]
    refine ⟨fun _ => ih.imp (fun _ hp => by omega) (fun _ h ok => by have := h ok; omega),
      fun _ => ((recvFds_spec c.fds).and (recvFds_env c.fds)).imp
        (fun ⟨err, w₁⟩ ⟨⟨hc, _, _⟩, hl⟩ => ?_) (fun _ h ok => by have := h.2 ok; omega)⟩
    dsimp only at hl ⊢
    exact ⟨fun _ => by omega, fun _ => ih.imp (fun _ hp => by omega)
      (fun _ h ok => by have := h (hc.ok ok); omega)⟩

/-- The kernel's answers `env` cover the turn of `uv__read` after `alloc_cb`
returned `buf`: the read (after any `EINTR`) returns no more bytes than the
buffer holds, and an answer is left for each descriptor its control messages
pass, one for each allocation of `queued_fds` that `uv__stream_recv_cmsg` may
make. -/
def ReadAnswered (buf : Buffer) (env : List Answer) : Prop :=
  match skipIntr env with
  | [] => False
  | a :: as => a.ret ≤ buf.len ∧ (a.cmsgs.flatMap Cmsg.fds).length ≤ as.length

theorem readAnswered_iff {buf : Buffer} {env as : List Answer} {a : Answer}
    (h : skipIntr env = a :: as) :
    ReadAnswered buf env ↔ a.ret ≤ buf.len ∧ (a.cmsgs.flatMap Cmsg.fds).length ≤ as.length := by
  rw [ReadAnswered, h]

theorem ReadAnswered.ne_nil {buf : Buffer} {env : List Answer} (h : ReadAnswered buf env) :
    skipIntr env ≠ [] := fun hn => by rw [ReadAnswered, hn] at h; exact h

instance (buf : Buffer) (env : List Answer) : Decidable (ReadAnswered buf env) :=
  match h : skipIntr env with
  | [] => isFalse fun hr => hr.ne_nil h
  | _ :: _ => decidable_of_iff _ (readAnswered_iff h).symm

/-! ## After `alloc_cb` -/

/-- Where the turn of `uv__read` after `alloc_cb` returned `buf` stops, from
`w`: at `read_cb` with that buffer, and `UV_ENOBUFS` if it is empty. -/
def HandsBack (w : World) (count : Nat) (buf : Buffer)
    (r : World × Option (Callback × List Frame)) : Prop :=
  ReadCalm w r.1 ∧ ∃ n k, r.2 = some (.read n buf, k) ∧ (buf.len = 0 → n = UV_ENOBUFS) ∧
    Stop count r.1 (.read n buf) k

/-- **After `alloc_cb` returned `buf`, `uv__read` reaches a `read_cb` with that
same buffer**, with `UV_ENOBUFS` if it is empty, and with `UV_EOF` only before
a frame that stops reading. It fails, for a buffer that is empty or has a
base, on a well-formed read side with a descriptor and `read_cb` set, only for
want of an answer. -/
theorem readAfterAlloc_spec {count : Nat} {ipc : Bool} {buf : Buffer} :
    Spec (readAfterAlloc w count ipc buf) (HandsBack w count buf)
      (fun e => ReadOk w → 0 ≤ w.s.fd → w.s.readCb → (buf.len = 0 ∨ buf.base ≠ 0) → e = .stuck) := by
  have hcb : ∀ {w₁ : World} {n : Int} {k : List Frame}, ReadCalm w w₁ → w₁.s.readCb = w.s.readCb →
      turnsOf k ≤ count → (n = UV_EOF → ∃ f k', k = f :: k' ∧ f.endsReading) →
      (buf.len = 0 → n = UV_ENOBUFS) → Spec (readCallback w₁ n buf k) (HandsBack w count buf)
        (fun e => ReadOk w → 0 ≤ w.s.fd → w.s.readCb → (buf.len = 0 ∨ buf.base ≠ 0) → e = .stuck) :=
    fun hw hr hk he hn => by
      simp only [spec_readCallback]
      exact ⟨fun _ => ⟨hw, _, _, rfl, hn, stop_read.2 ⟨hk, he⟩⟩, fun h _ _ h' => absurd (hr ▸ h') h⟩
  unfold readAfterAlloc
  simp only [spec_bind, spec_ite, spec_check, spec_answerRetry, spec_throw, spec_pure]
  refine ⟨fun h0 => hcb (.refl w) rfl (by simp) (by simp [UV_ENOBUFS, UV_EOF]) (fun _ => rfl),
    fun h0 => ⟨fun hb => ⟨fun hfd => ⟨fun _ _ _ _ _ => trivial, fun a as _ => ⟨fun _ _ _ _ _ => trivial,
      fun hle => ?_⟩⟩, fun h _ h' => absurd h' h⟩, fun h _ _ _ h' => by simp_all⟩⟩
  generalize hw₂ : ({ w with env := as }.emit (.read w.s.fd a.ret)) = w₂
  have h₁ : ReadCalm w { w with env := as } := .of_eq rfl rfl rfl rfl
  have h₂ : ReadCalm w w₂ := hw₂ ▸ h₁.trans (readCalm_emit rfl)
  have hc₂ : w₂.s.readCb = w.s.readCb := by rw [← hw₂]; rfl
  have hno : buf.len = 0 → a.ret = UV_ENOBUFS := fun h => absurd h h0
  refine ⟨fun hneg => ⟨fun _ => hcb (by split <;> exact h₂.trans (.of_eq rfl rfl rfl rfl))
    (by split <;> exact hc₂) (by simp) (by simp [UV_EOF]) (fun h => absurd h h0),
    fun _ => hcb h₂ hc₂ (by simp [Frame.turns]) (fun _ => ⟨_, _, rfl, rfl⟩) hno⟩,
    fun hnn => ⟨fun _ => hcb (h₂.trans (.of_eq rfl rfl rfl rfl)) hc₂ (by simp [Frame.turns])
      (fun _ => ⟨_, _, rfl, rfl⟩) (fun h => absurd h h0), fun hz => ?_⟩⟩
  have hdata : ∀ {w₃ : World}, ReadCalm w w₃ → w₃.s.readCb = w.s.readCb →
      Spec (readCallback w₃ a.ret buf [.readAfterData count ipc (decide (a.ret < buf.len))])
        (HandsBack w count buf)
        (fun e => ReadOk w → 0 ≤ w.s.fd → w.s.readCb → (buf.len = 0 ∨ buf.base ≠ 0) → e = .stuck) :=
    fun h₃ hc₃ => hcb h₃ hc₃ (by simp [Frame.turns]) (fun h => by simp [UV_EOF] at h; omega) hno
  refine ⟨fun _ => (streamRecvCmsg_spec a.cmsgs).imp (fun p ⟨h₃, hc₃, herr⟩ => ⟨fun hne =>
    hcb (h₂.trans h₃) (hc₃.trans hc₂) (by simp) (fun h => ?_) (fun h => absurd h h0),
    fun _ => hdata (h₂.trans h₃) (hc₃.trans hc₂)⟩) (fun _ h ok _ _ _ => h (h₂.ok ok)),
    fun _ => ⟨fun h => absurd rfl h, fun _ => hdata h₂ hc₂⟩⟩
  rcases herr with h' | h' <;> simp [h', ENOMEM, UV_EOF] at hne h

/-- **The turn after `alloc_cb`, with its answers**: it completes only with
`read_cb` set, and, on a well-formed read side, for a buffer that is empty, or
has a base on an open descriptor with the answers the turn takes, it fails only
at a NULL `read_cb`, as `uv_read_stop` and `uv_close` leave it. -/
theorem readAfterAlloc_answered {count : Nat} {ipc : Bool} {buf : Buffer} (ok : ReadOk w) :
    Spec (readAfterAlloc w count ipc buf) (fun _ => w.s.readCb)
      (fun e => (buf.len = 0 ∨ buf.base ≠ 0 ∧ 0 ≤ w.s.fd ∧ ReadAnswered buf w.env) →
        e = .nullCall ∧ w.s.readCb = false) := by
  have hcb : ∀ {w₁ : World} {n : Int} {k : List Frame}, w₁.s.readCb = w.s.readCb →
      Spec (readCallback w₁ n buf k) (fun _ => w.s.readCb)
        (fun e => (buf.len = 0 ∨ buf.base ≠ 0 ∧ 0 ≤ w.s.fd ∧ ReadAnswered buf w.env) →
          e = .nullCall ∧ w.s.readCb = false) :=
    fun h => by
      simp only [spec_readCallback, h]
      exact ⟨fun _ => ‹_›, fun h' _ => ⟨trivial, by simpa using h'⟩⟩
  unfold readAfterAlloc
  simp only [spec_bind, spec_ite, spec_check, spec_answerRetry, spec_throw, spec_pure]
  refine ⟨fun _ => hcb rfl, fun h0 => ⟨fun hb => ⟨fun hfd => ⟨fun hn hc => ?_, fun a as ha =>
    ⟨fun hlt hc => ?_, fun hle => ?_⟩⟩, fun hfd hc => ?_⟩, fun hb hc => ?_⟩⟩
  · exact absurd hn (hc.resolve_left h0).2.2.ne_nil
  · exact absurd hlt (not_lt.2 ((readAnswered_iff ha).1 (hc.resolve_left h0).2.2).1)
  rotate_left
  · exact absurd (hc.resolve_left h0).2.1 hfd
  · exact absurd (hc.resolve_left h0).1 hb
  generalize hw₂ : ({ w with env := as }.emit (.read w.s.fd a.ret)) = w₂
  have h₁ : ReadCalm w { w with env := as } := .of_eq rfl rfl rfl rfl
  have h₂ : ReadCalm w w₂ := hw₂ ▸ h₁.trans (readCalm_emit rfl)
  have hc₂ : w₂.s.readCb = w.s.readCb := by rw [← hw₂]; rfl
  have he₂ : w₂.env = as := by rw [← hw₂]; rfl
  refine ⟨fun _ => ⟨fun _ => hcb (by split <;> exact hc₂), fun _ => hcb hc₂⟩,
    fun _ => ⟨fun _ => hcb hc₂, fun _ => ⟨fun _ => ?_, fun _ => ⟨fun h => absurd rfl h,
      fun _ => hcb hc₂⟩⟩⟩⟩
  -- `recvmsg`'s descriptors, with an answer left for each, queue without failing
  refine ((streamRecvCmsg_spec a.cmsgs).and (streamRecvCmsg_env a.cmsgs)).imp
    (fun p ⟨⟨_, hc₃, _⟩, _⟩ => ⟨fun _ => hcb (hc₃.trans hc₂), fun _ => hcb (hc₃.trans hc₂)⟩)
    (fun _ ⟨_, h⟩ hc => ?_)
  have := ((readAnswered_iff ha).1 (hc.resolve_left h0).2.2).2
  have := h (h₂.ok ok)
  rw [he₂] at this
  omega

theorem readSeg_readAfterAlloc {count : Nat} {ipc : Bool} {buf : Buffer} :
    ReadSeg w count (readAfterAlloc w count ipc buf) :=
  readAfterAlloc_spec.imp (fun _ ⟨hc, _, _, h, _, hs⟩ => ⟨hc, fun _ _ hck => by
    obtain ⟨rfl, rfl⟩ := Prod.mk.inj (Option.some.inj (hck.symm.trans h)); exact hs⟩)
    (fun _ _ => trivial)

theorem readSeg_readAfterData {count : Nat} {ipc short : Bool} :
    ReadSeg w count (readAfterData w count ipc short) := by
  unfold readAfterData; split
  · exact ⟨.of_eq rfl rfl rfl rfl, by simp⟩
  · exact readSeg_readLoop

theorem readSeg_read : ReadSeg w 32 (read w) := readSeg_readLoop.of_calm (.of_eq rfl rfl rfl rfl)

/-! ## The write path

Its pieces keep the read side (`RKeptSeg`), and their frames are those of the
write path, which make no turn of `uv__read`'s loop. -/

/-- A piece whose frames, where it stops, make no turn of `uv__read`'s loop. -/
abbrev NoTurns (x : Seg) : Prop :=
  Spec x (fun r => ∀ c k, r.2 = some (c, k) → turnsOf k = 0) (fun _ => True)

theorem NoTurns.andThen {x : Seg} {f : Frame} {next : World → Seg} (hx : NoTurns x)
    (hf : f.turns = 0) (hn : ∀ w, NoTurns (next w)) : NoTurns (x.andThen f next) := by
  simp only [spec_andThen]
  refine hx.imp (fun r hr => ?_) (fun _ _ => trivial)
  rcases r with ⟨w₁, _ | ⟨c, k⟩⟩
  · exact hn w₁
  · rintro _ _ ⟨⟩; simp [hr c k rfl, hf]

theorem Callback.reads_of_isReq {c : Callback} (hc : c.isReq) : c.reads = false := by
  cases c <;> simp_all [Callback.isReq, Callback.reads]

theorem RKeptSeg.readSeg {n : Nat} {x : Seg} (h : RKeptSeg w x) (ht : NoTurns x) :
    ReadSeg w n x := by
  refine (h.and ht).imp (fun r ⟨⟨hk, hr⟩, ht⟩ => ?_) (fun _ _ => trivial)
  rcases r with ⟨w₁, _ | ⟨c, k⟩⟩
  · exact ⟨hk.calm, by simp⟩
  · have hc := Callback.reads_of_isReq hr.1
    refine ⟨.of_eq ?_ hk.reading hk.fd hk.queuedFds, by
      rintro _ _ ⟨⟩; exact stop_other hc (by simp [ht c k rfl])⟩
    have := hk.calm.calls
    cases c <;> simp_all [readCalls, Event.readCall, Callback.reads]

theorem noTurns_writeCallbacks : NoTurns (writeCallbacks w) := by
  unfold writeCallbacks
  simp only [spec_bind, spec_pure]
  exact Spec.of_forall (fun ⟨_, c⟩ => by cases c <;> simp [Frame.turns]) (fun _ => trivial)

theorem noTurns_drain : NoTurns (drain w) := by
  unfold drain
  simp only [spec_bind, spec_check]
  refine ⟨fun _ => ?_, fun _ => trivial⟩
  split
  · split
    · simp only [spec_bind, spec_answer]
      refine ⟨fun _ => trivial, fun a as _ => ?_⟩
      split <;> simp
    · trivial
  · simp

theorem noTurns_ioDrain : NoTurns (ioDrain w) := by
  unfold ioDrain; split
  · exact noTurns_drain
  · simp

theorem noTurns_connectAfterCb {error : Int} : NoTurns (connectAfterCb w error) := by
  unfold connectAfterCb
  split
  · simp
  · split
    · exact noTurns_writeCallbacks
    · simp

theorem noTurns_streamConnect : NoTurns (streamConnect w) := by
  unfold streamConnect connectDone
  simp only [spec_bind, spec_check]
  refine ⟨fun _ => ?_, fun _ => trivial⟩
  split
  · simp only [spec_bind]
    refine Spec.of_forall (fun _ => ?_) (fun _ => trivial)
    split
    · simp
    · split
      · simp [Frame.turns]
      · exact noTurns_connectAfterCb
  · trivial

theorem noTurns_destroyCheck : NoTurns (destroyCheck w) := by
  unfold destroyCheck; simp

theorem noTurns_destroyShutdown : NoTurns (destroyShutdown w) := by
  unfold destroyShutdown
  split
  · dsimp only
    split
    · simp [Frame.turns]
    · trivial
  · exact noTurns_destroyCheck

theorem noTurns_destroyWrites : NoTurns (destroyWrites w) :=
  noTurns_writeCallbacks.andThen rfl (fun _ => noTurns_destroyShutdown)

theorem noTurns_streamDestroy : NoTurns (streamDestroy w) := by
  unfold streamDestroy
  simp only [spec_bind, spec_check]
  refine ⟨fun _ => ⟨fun _ => ?_, fun _ => trivial⟩, fun _ => trivial⟩
  split
  · split
    · simp [Frame.turns]
    · trivial
  · exact noTurns_destroyWrites

theorem readSeg_ioAfterEof {n : Nat} {ev : Events} : ReadSeg w n (ioAfterEof w ev) := by
  unfold ioAfterEof
  simp only [spec_ite, spec_pure, spec_bind]
  refine ⟨fun _ => ⟨.refl w, by simp⟩, fun _ => ⟨fun _ => rKept_write.imp (fun w₁ h => ?_)
    (fun _ _ => trivial), fun _ => ⟨.refl w, by simp⟩⟩⟩
  refine ReadSeg.of_calm ?_ h.calm
  exact (rKeptSeg_writeCallbacks.readSeg noTurns_writeCallbacks).andThen rfl
    (fun _ _ => rKeptSeg_ioDrain.readSeg noTurns_ioDrain)

/-! ## The read side's dispatch -/

theorem readSeg_ioAfterRead {ev : Events} : ReadSeg w 0 (ioAfterRead w ev) := by
  unfold ioAfterRead
  split
  · exact ⟨.refl w, by simp⟩
  · split
    · exact readSeg_streamEof.andThen rfl (fun _ _ => readSeg_ioAfterEof)
    · exact readSeg_ioAfterEof

/-- **`uv__stream_io`, up to its first callback, makes at most 32 turns of
`uv__read`'s loop.** -/
theorem readSeg_streamIo {ev : Events} : ReadSeg w 32 (streamIo w ev) := by
  unfold streamIo
  simp only [spec_bind, spec_check, spec_ite, spec_pure, implies_true, and_true]
  exact fun _ _ => ⟨fun _ => rKeptSeg_streamConnect.readSeg noTurns_streamConnect, fun _ _ =>
    ⟨fun _ => readSeg_read.andThen rfl (fun _ _ => readSeg_ioAfterRead.mono (by omega)),
      fun _ => readSeg_ioAfterRead.mono (by omega)⟩⟩

/-! ## The server -/

theorem readCalm_emfileAcceptFuel (fuel : Nat) :
    Spec (emfileAcceptFuel fuel w) (fun p => ReadCalm w p.2) (fun _ => True) := by
  induction fuel generalizing w with
  | zero => simp [emfileAcceptFuel]
  | succ fuel ih =>
    unfold emfileAcceptFuel
    simp only [spec_bind, spec_answerRetry, spec_ite, spec_pure]
    refine ⟨fun _ => trivial, fun a as _ => ?_⟩
    have h₀ : ReadCalm w { w with env := as } := .of_eq rfl rfl rfl rfl
    have h₁ : ReadCalm w ({ w with env := as }.emit (.accept w.s.fd a.ret)) :=
      h₀.trans (readCalm_emit rfl)
    exact ⟨fun _ => ih.imp (fun _ h => (h₁.trans (readCalm_emit (by rfl))).trans h) (fun _ _ => trivial),
      fun _ => ⟨fun _ => ih.imp (fun _ h => h₁.trans h) (fun _ _ => trivial), fun _ => h₁⟩⟩

theorem readCalm_emfileTrick : Spec (emfileTrick w) (fun p => ReadCalm w p.2) (fun _ => True) := by
  unfold emfileTrick
  simp only [spec_bind, spec_ite, spec_pure, spec_answer]
  refine ⟨fun _ => .refl w, fun _ => ?_⟩
  have h₁ : ReadCalm w { w.emit (.close w.emfileFd) with emfileFd := -1 } :=
    (readCalm_emit rfl : ReadCalm w (w.emit (.close w.emfileFd))).trans (.of_eq rfl rfl rfl rfl)
  refine (readCalm_emfileAcceptFuel _).imp (fun ⟨_, w₂⟩ h₂ => ⟨fun _ => trivial, fun _ _ _ => ?_⟩)
    (fun _ _ => trivial)
  have h₃ := h₁.trans h₂
  split
  · exact h₃.trans (.of_eq rfl rfl rfl rfl)
  · exact h₃.trans (.of_eq rfl rfl rfl rfl)

theorem readSeg_connectionCallback {status : Int} {k : List Frame} (hk : turnsOf k = 0) :
    ReadSeg w 0 (connectionCallback w status k) := by
  unfold connectionCallback; split
  · exact ⟨.refl w, by rintro _ _ ⟨⟩; exact stop_other rfl (by simp [hk])⟩
  · trivial

theorem readSeg_serverLoopFuel (fuel : Nat) : ReadSeg w 0 (serverLoopFuel fuel w) := by
  induction fuel generalizing w with
  | zero => simp [serverLoopFuel]
  | succ fuel ih =>
    have hc : ∀ {w₁ : World} (st : Int) (f : Frame), ReadCalm w w₁ → f.turns = 0 →
        ReadSeg w 0 (connectionCallback w₁ st [f]) :=
      fun _ _ hw hf => (readSeg_connectionCallback (by simp [hf])).of_calm hw
    unfold serverLoopFuel
    simp only [spec_bind, spec_check, spec_ite, spec_pure, spec_answerRetry, implies_true, and_true,
      true_and]
    refine ⟨fun _ => ⟨.refl w, by simp⟩, fun _ _ a as _ => ?_⟩
    generalize hw₁ : ({ w with env := as }.emit (.accept w.s.fd a.ret)) = w₁
    have h₀ : ReadCalm w { w with env := as } := .of_eq rfl rfl rfl rfl
    have h₁ : ReadCalm w w₁ := hw₁ ▸ h₀.trans (readCalm_emit rfl)
    refine ⟨fun _ => hc _ _ (h₁.trans (.of_eq rfl rfl rfl rfl)) rfl, fun _ => ⟨fun _ => ⟨h₁, by simp⟩,
      fun _ => ⟨fun _ => ih.of_calm h₁, fun _ => ⟨fun _ => ?_, fun _ => hc _ _ h₁ rfl⟩⟩⟩⟩
    exact readCalm_emfileTrick.imp (fun _ h => ⟨fun _ => ⟨h₁.trans h, by simp⟩,
      fun _ => hc _ _ (h₁.trans h) rfl⟩) (fun _ _ => trivial)

theorem readSeg_serverLoop : ReadSeg w 0 (serverLoop w) := readSeg_serverLoopFuel _

theorem readSeg_serverAfterAccept : ReadSeg w 0 (serverAfterAccept w) := by
  unfold serverAfterAccept; split
  · exact ⟨.of_eq rfl rfl rfl rfl, by simp⟩
  · exact readSeg_serverLoop

theorem readSeg_serverIo : ReadSeg w 0 (serverIo w) := by
  unfold serverIo
  simp only [spec_bind, spec_check, implies_true, and_true]
  exact fun _ _ => readSeg_serverLoop.of_calm (.of_eq rfl rfl rfl rfl)

/-- **Every frame, resumed, calls neither `alloc_cb` nor `read_cb` before it
stops, and stops within its turns of `uv__read`'s loop.** -/
theorem readSeg_resume {buf : Buffer} (f : Frame) : ReadSeg w f.turns (resume w buf f) := by
  cases f with
  | readAfterAlloc => exact readSeg_readAfterAlloc
  | readAfterData => exact readSeg_readAfterData
  | readAfterError =>
    refine ⟨?_, by simp⟩
    unfold readAfterError; split
    · exact .of_stop rfl rfl (.inl rfl)
    · exact .refl w
  | eofClear => exact ⟨.of_stop rfl rfl (.inl rfl), by simp⟩
  | ioAfterRead => exact readSeg_ioAfterRead
  | ioAfterEof => exact readSeg_ioAfterEof
  | writeCallbacks => exact rKeptSeg_writeCallbacks.readSeg noTurns_writeCallbacks
  | ioDrain => exact rKeptSeg_ioDrain.readSeg noTurns_ioDrain
  | connectAfterCb => exact rKeptSeg_connectAfterCb.readSeg noTurns_connectAfterCb
  | serverAfterAccept => exact readSeg_serverAfterAccept
  | serverAfterError => exact readSeg_serverLoop
  | destroyConnected => exact rKeptSeg_destroyConnected.readSeg noTurns_destroyWrites
  | destroyShutdown => exact rKeptSeg_destroyShutdown.readSeg noTurns_destroyShutdown
  | destroyEnd => exact rKeptSeg_destroyEnd.readSeg noTurns_destroyCheck

/-! ## Only a reading stream is read

Reading off, no piece but the resumption after `alloc_cb` calls `alloc_cb` or
`read_cb`: the loop of `uv__read` tests `UV_STREAM_READING`, and so does the
EOF that `uv__stream_io` makes up after a short read. -/

/-- A piece of a dispatch that stops at `alloc_cb` or `read_cb` only on a
stream that was reading when it started. -/
abbrev GatedSeg (w : World) (x : Seg) : Prop :=
  Spec x (fun r => ∀ c k, r.2 = some (c, k) → c.reads → w.s.flags.reading) (fun _ => True)

theorem GatedSeg.of_calm {x : Seg} (h : GatedSeg w' x) (hw : ReadCalm w w') : GatedSeg w x :=
  h.imp (fun _ hr c k hc hr' => hw.reading (hr c k hc hr')) (fun _ _ => trivial)

theorem GatedSeg.andThen {n : Nat} {x : Seg} {f : Frame} {next : World → Seg} (hx : GatedSeg w x)
    (hr : ReadSeg w n x) (hn : ∀ w', ReadCalm w w' → GatedSeg w' (next w')) :
    GatedSeg w (x.andThen f next) := by
  simp only [spec_andThen]
  refine (hx.and hr).imp (fun r ⟨hg, hc, _⟩ => ?_) (fun _ _ => trivial)
  rcases r with ⟨w₁, _ | ⟨c, k⟩⟩
  · exact (hn w₁ hc).of_calm hc
  · rintro _ _ ⟨⟩; exact hg c k rfl

theorem RKeptSeg.gated {x : Seg} (h : RKeptSeg w x) : GatedSeg w x :=
  h.imp (fun r hr c k hc => by
    rcases r with ⟨_, _ | ⟨c', k'⟩⟩
    · cases hc
    · cases hc; simp [Callback.reads_of_isReq hr.2.1]) (fun _ _ => trivial)

theorem gatedSeg_readLoop {count : Nat} {ipc : Bool} : GatedSeg w (readLoop w count ipc) := by
  unfold readLoop
  split
  next h =>
    simp only [spec_bind, spec_check, spec_pure]
    exact ⟨fun _ => by rintro _ _ ⟨⟩ _; exact h.2.1, fun _ => trivial⟩
  · simp

theorem gatedSeg_readAfterData {count : Nat} {ipc short : Bool} :
    GatedSeg w (readAfterData w count ipc short) := by
  unfold readAfterData; split
  · simp
  · exact gatedSeg_readLoop

theorem gatedSeg_ioAfterEof {ev : Events} : GatedSeg w (ioAfterEof w ev) := by
  unfold ioAfterEof
  simp only [spec_ite, spec_pure, spec_bind]
  refine ⟨fun _ => by simp, fun _ => ⟨fun _ => rKept_write.imp (fun w₁ h => ?_) (fun _ _ => trivial),
    fun _ => by simp⟩⟩
  refine GatedSeg.of_calm ?_ h.calm
  exact rKeptSeg_writeCallbacks.gated.andThen
    (rKeptSeg_writeCallbacks.readSeg noTurns_writeCallbacks : ReadSeg _ 0 _)
    (fun _ _ => rKeptSeg_ioDrain.gated)

theorem gatedSeg_ioAfterRead {ev : Events} : GatedSeg w (ioAfterRead w ev) := by
  unfold ioAfterRead
  split
  · simp
  · split
    next h =>
      refine GatedSeg.andThen ?_ readSeg_streamEof (fun _ _ => gatedSeg_ioAfterEof)
      simp only [streamEof, spec_readCallback]
      exact ⟨fun _ => by rintro _ _ ⟨⟩ _; exact h.2.1, fun _ => trivial⟩
    · exact gatedSeg_ioAfterEof

theorem gatedSeg_streamIo {ev : Events} : GatedSeg w (streamIo w ev) := by
  unfold streamIo
  simp only [spec_bind, spec_check, spec_ite, spec_pure, implies_true, and_true]
  exact fun _ _ => ⟨fun _ => rKeptSeg_streamConnect.gated, fun _ _ =>
    ⟨fun _ => GatedSeg.andThen (gatedSeg_readLoop.of_calm (.of_eq rfl rfl rfl rfl)) readSeg_read
      (fun _ _ => gatedSeg_ioAfterRead), fun _ => gatedSeg_ioAfterRead⟩⟩

/-- `connection_cb` is neither `alloc_cb` nor `read_cb`, whatever the stream. -/
theorem gatedSeg_connectionCallback {w₁ : World} {status : Int} {k : List Frame} :
    GatedSeg w (connectionCallback w₁ status k) := by
  unfold connectionCallback; split
  · rintro _ _ ⟨⟩ h; simp [Callback.reads] at h
  · trivial

theorem gatedSeg_serverLoopFuel {w₁ : World} (fuel : Nat) : GatedSeg w (serverLoopFuel fuel w₁) := by
  induction fuel generalizing w₁ with
  | zero => simp [serverLoopFuel]
  | succ fuel ih =>
    unfold serverLoopFuel
    simp only [spec_bind, spec_check, spec_ite, spec_pure, spec_answerRetry]
    refine ⟨fun _ => nofun, fun _ => ⟨fun _ => ⟨fun _ => trivial, fun a as _ => ?_⟩, fun _ => trivial⟩⟩
    exact ⟨fun _ => gatedSeg_connectionCallback, fun _ => ⟨fun _ => nofun, fun _ => ⟨fun _ => ih,
      fun _ => ⟨fun _ => Spec.of_forall (fun _ => ⟨fun _ => nofun, fun _ => gatedSeg_connectionCallback⟩)
        (fun _ => trivial), fun _ => gatedSeg_connectionCallback⟩⟩⟩⟩

theorem gatedSeg_serverAfterAccept : GatedSeg w (serverAfterAccept w) := by
  unfold serverAfterAccept; split
  · simp
  · exact gatedSeg_serverLoopFuel _

theorem gatedSeg_serverIo : GatedSeg w (serverIo w) := by
  unfold serverIo
  simp only [spec_bind, spec_check, implies_true, and_true]
  exact fun _ _ => gatedSeg_serverLoopFuel _

/-- **Every frame but the one waiting for `alloc_cb`, resumed, calls `alloc_cb`
or `read_cb` only on a stream that was reading.** -/
theorem gatedSeg_resume {buf : Buffer} {f : Frame} (hf : f.isAlloc = false) :
    GatedSeg w (resume w buf f) := by
  cases f with
  | readAfterAlloc => simp [Frame.isAlloc] at hf
  | readAfterData => exact gatedSeg_readAfterData
  | readAfterError | eofClear => simp [resume]
  | ioAfterRead => exact gatedSeg_ioAfterRead
  | ioAfterEof => exact gatedSeg_ioAfterEof
  | writeCallbacks => exact rKeptSeg_writeCallbacks.gated
  | ioDrain => exact rKeptSeg_ioDrain.gated
  | connectAfterCb => exact rKeptSeg_connectAfterCb.gated
  | serverAfterAccept => exact gatedSeg_serverAfterAccept
  | serverAfterError => exact gatedSeg_serverLoopFuel _
  | destroyConnected => exact rKeptSeg_destroyConnected.gated
  | destroyShutdown => exact rKeptSeg_destroyShutdown.gated
  | destroyEnd => exact rKeptSeg_destroyEnd.gated

/-! ## The calls of the user -/

theorem readCalm_uvReadStop : ReadCalm w (uvReadStop w) := by
  unfold uvReadStop; split
  · exact .of_stop rfl rfl (.inl rfl)
  · exact .refl w

@[simp] theorem uvReadStop_trace : (uvReadStop w).trace = w.trace := by
  unfold uvReadStop; split <;> rfl

@[simp] theorem readCalls_closeIoFd : readCalls w.closeIoFd.trace = readCalls w.trace := by
  unfold World.closeIoFd; split
  · split <;> simp [readCalls, Event.readCall]
  · rfl

@[simp] theorem readCalls_closeAcceptedFd : readCalls w.closeAcceptedFd.trace = readCalls w.trace := by
  unfold World.closeAcceptedFd; split <;> simp [readCalls, Event.readCall]

@[simp] theorem readCalls_map_close (fds : List Int) : readCalls (fds.map Event.close) = [] := by
  induction fds <;> simp_all [readCalls, Event.readCall]

@[simp] theorem readCalls_closeQueuedFds : readCalls w.closeQueuedFds.trace = readCalls w.trace := by
  unfold World.closeQueuedFds; split
  · simp only [foldl_emit, readCalls_append, readCalls_map_close, List.append_nil]
  · rfl

@[simp] theorem closeQueuedFds_queuedFds : w.closeQueuedFds.s.queuedFds = none := by
  unfold World.closeQueuedFds; split <;> simp_all

@[simp] theorem closeQueuedFds_flags : w.closeQueuedFds.s.flags = w.s.flags := by
  unfold World.closeQueuedFds; split <;> simp

/-- `uv_close` stops reading, releases `queued_fds` and only closes descriptors. -/
theorem readCalm_uvClose : Spec (uvClose w) (ReadCalm w) (fun _ => True) := by
  simp only [uvClose, streamClose, spec_bind, spec_check, spec_pure]
  exact ⟨fun _ => ⟨fun _ => .of_stop (by simp) (by simp) (.inr (by simp)), fun _ => trivial⟩,
    fun _ => trivial⟩

/-- `uv__stream_open` changes the stream's flags and maybe its descriptor, to
one that is not negative, and leaves the world but its answers. -/
theorem streamOpen_read {c : Stream} {fd : Int} {readable writable blocking : Bool} :
    Spec (streamOpen w c fd readable writable blocking) (fun p =>
      p.2.1.flags.reading = c.flags.reading ∧ p.2.1.queuedFds = c.queuedFds ∧
        (p.2.1.fd = c.fd ∨ 0 ≤ p.2.1.fd) ∧ p.2.2.s = w.s ∧ p.2.2.trace = w.trace) (fun _ => True) := by
  unfold streamOpen sockopt
  simp +contextual

theorem acceptOpen_read {c : Stream} :
    Spec (acceptOpen w c) (fun o => ∀ p ∈ o, p.2.2.s = w.s ∧
      readCalls p.2.2.trace = readCalls w.trace) (fun _ => True) := by
  unfold acceptOpen
  split
  · simp only [spec_bind, spec_pure]
    refine streamOpen_read.imp (fun p h p' hp => ?_) (fun _ _ => trivial)
    cases hp; split <;> simp [h.2.2.2.1, h.2.2.2.2, readCalls, Event.readCall]
  · simp only [spec_bind, spec_pure]
    refine streamOpen_read.imp (fun p h p' hp => ?_) (fun _ _ => trivial)
    cases hp; split <;> simp [h.2.2.2.1, h.2.2.2.2, readCalls, Event.readCall]
  · simp only [spec_bind, spec_pure, spec_answer]
    refine ⟨fun _ => trivial, fun a as _ p hp => ?_⟩
    cases hp; split <;> simp [readCalls, Event.readCall]
  · simp

/-- `uv_accept` hands over the head of `queued_fds`, which stays well formed. -/
theorem readCalm_uvAccept {c : Stream} : Spec (uvAccept w c) (fun p => ReadCalm w p.2.2)
    (fun _ => True) := by
  unfold uvAccept
  simp only [spec_bind, spec_ite, spec_pure]
  refine ⟨fun _ => .refl w, fun _ => acceptOpen_read.imp (fun o h => ?_) (fun _ _ => trivial)⟩
  rcases o with _ | ⟨err, c', w'⟩
  · exact .refl w
  obtain ⟨hs, hc⟩ := h _ rfl
  have h' : ReadCalm w w' := .of_eq hc (by rw [hs]) (by rw [hs]) (by rw [hs])
  dsimp only
  split
  next q hq =>
    split
    · simp only [spec_bind, spec_check, spec_ite, spec_pure]
      refine ⟨fun hoff => ⟨fun _ => h'.trans ⟨rfl, id, fun ok => ⟨ok.fd, nofun⟩⟩,
        fun _ => h'.trans ⟨rfl, id, fun ok => ⟨ok.fd, ?_⟩⟩⟩, fun _ => trivial⟩
      rintro _ ⟨⟩
      obtain ⟨hl, ho⟩ := ok.queued q hq
      simp only [QueuedFds.wf, List.length_append, List.length_take, List.length_drop]
      omega
    · trivial
  · split <;> exact h'.trans (.of_eq rfl rfl rfl rfl)

/-- **A call of the user other than `uv_read_start` calls neither `alloc_cb`
nor `read_cb`, does not set `UV_STREAM_READING`, and keeps the read side well
formed.** -/
theorem apiCall_calm {a : Api} (ha : ∀ x y, a ≠ .readStart x y) :
    Spec (apiCall w a) (ReadCalm w) (fun _ => True) := by
  cases a with
  | write2 bufs h cb =>
    simp only [apiCall, spec_bind, spec_pure]
    exact rKept_uvWrite2.imp (fun ⟨_, _⟩ h => h.calm) (fun _ _ => trivial)
  | tryWrite bufs =>
    simp only [apiCall, spec_bind, spec_pure]
    exact rKept_uvTryWrite.imp (fun ⟨_, _⟩ h => h.calm) (fun _ _ => trivial)
  | readStart x y => exact absurd rfl (ha x y)
  | readStop => exact readCalm_uvReadStop
  | shutdown cb =>
    simp only [apiCall, spec_bind, spec_pure]
    exact rKept_uvShutdown.imp (fun ⟨_, _⟩ h => h.calm) (fun _ _ => trivial)
  | close => exact readCalm_uvClose
  | accept c =>
    simp only [apiCall, spec_bind, spec_pure]
    exact readCalm_uvAccept.imp (fun ⟨_, _, _⟩ h => h) (fun _ _ => trivial)
  | listen cb =>
    simp only [apiCall, spec_bind, spec_pure]
    split
    · trivial
    · unfold uvListen
      simp only [spec_bind, spec_ite, spec_pure, spec_answer]
      exact ⟨fun _ => .refl w, fun _ => ⟨fun _ => trivial, fun _ _ _ =>
        ⟨fun _ => .of_eq rfl rfl rfl rfl, fun _ => .of_eq rfl rfl rfl rfl⟩⟩⟩
  | streamOpen fd r wr b =>
    simp only [apiCall, spec_bind, spec_pure]
    split
    · trivial
    · simp only [spec_bind, spec_pure]
      refine streamOpen_read.imp (fun p ⟨hr, hq, hfd, hs, ht⟩ => ?_) (fun _ _ => trivial)
      refine ⟨by simp [ht], fun h => hr ▸ h, fun ok => ⟨fun h => ?_, hq ▸ ok.queued⟩⟩
      rcases hfd with hfd | hfd
      · exact hfd ▸ ok.fd (hr ▸ h)
      · exact hfd

/-- `uv_read_start` calls neither `alloc_cb` nor `read_cb`, and sets
`UV_STREAM_READING` only on a stream with a descriptor. -/
theorem apiCall_readStart {x y : Bool} :
    Spec (apiCall w (.readStart x y)) (fun w' => readCalls w'.trace = readCalls w.trace ∧
      (ReadOk w → ReadOk w')) (fun _ => True) := by
  simp only [apiCall, uvReadStart, spec_bind, spec_check, spec_ite, spec_pure]
  exact ⟨fun _ => ⟨fun _ => ⟨trivial, id⟩, fun _ => ⟨fun hfd => ⟨fun _ => ⟨trivial, fun ok =>
    ⟨fun _ => hfd, ok.queued⟩⟩, fun _ => trivial⟩, fun _ => trivial⟩⟩, fun _ => trivial⟩

/-- A call of the user calls neither `alloc_cb` nor `read_cb`, and keeps the
read side well formed. -/
theorem apiCall_readOk (a : Api) :
    Spec (apiCall w a) (fun w' => readCalls w'.trace = readCalls w.trace ∧ (ReadOk w → ReadOk w'))
      (fun _ => True) := by
  by_cases ha : ∀ x y, a ≠ .readStart x y
  · exact (apiCall_calm ha).imp (fun _ h => ⟨h.calls, h.ok⟩) (fun _ _ => trivial)
  · push_neg at ha
    obtain ⟨x, y, rfl⟩ := ha
    exact apiCall_readStart

theorem readCalm_connect {cb : Bool} {e : Int} : Spec (connect w cb e) (ReadCalm w) (fun _ => True) :=
  rKept_connect.imp (fun _ h => h.calm) (fun _ _ => trivial)

end UvStream
