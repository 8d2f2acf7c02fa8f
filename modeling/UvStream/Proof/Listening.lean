import UvStream.Proof.AcceptOrder

/-!
# A listening stream

Once `uv_listen` has installed `uv__server_io`, the watcher accepts
connections: `uv__server_io` accepts until `accept` would block, hands each new
descriptor to `connection_cb` in `accepted_fd`, and stops `POLLIN` while the
user leaves it pending; `uv_accept` takes it and starts `POLLIN` again. Out of
descriptors, `uv__emfile_trick` frees the loop's spare one, accepts and closes
the connections that wait, and reserves the spare again.

* `emfileTrick_spec`, `emfile_trick_closes_accepted`: **`uv__emfile_trick`
  closes every connection it accepts at once**, until `accept` fails with an
  error other than `EINTR`, which it returns, and reserves the spare again if
  it can.
* `Serving`: what holds of a listening stream whose user calls neither
  `uv_read_start` nor `uv_listen` again: the frames on the loop thread are
  those of `uv__server_io`, `uv__write_callbacks` and `uv__stream_destroy`,
  and `POLLIN` is active with a connection pending only inside
  `connection_cb` for that connection.
* `Machine.step_serving`, `serving_run`: every step keeps it, and handles each
  `accept` that returns a descriptor.
* `pollin_only_without_pending`: **at idle, `POLLIN` is active only with no
  connection pending, so no dispatch of `uv__server_io` fails an assertion**.
* `accepted_connection_handed_over`: **each `accept` that returns a
  descriptor is followed at once, among the events of the read side, by the
  close of the descriptor or by `connection_cb (server, 0)`, which is called
  only with that descriptor in `accepted_fd`** (`HandedOver`).
-/

namespace UvStream

variable {w w' w'' : World}

/-! ## Accepted descriptors -/

/-- Whether each `accept` of the events `l` that returned a descriptor is
followed at once by the close of that descriptor or by a call of
`connection_cb` with status 0. -/
def acceptsHandled : List Event → Bool
  | [] => true
  | .accept _ fd :: l =>
    (decide (fd < 0) || l.head? == some (.close fd) || l.head? == some (.call (.connection 0))) &&
      acceptsHandled l
  | _ :: l => acceptsHandled l

@[simp] theorem acceptsHandled_nil : acceptsHandled [] = true := rfl

theorem acceptsHandled_cons {e : Event} {l : List Event} (he : ∀ s fd, e ≠ .accept s fd) :
    acceptsHandled (e :: l) = acceptsHandled l := by
  cases e <;> simp_all [acceptsHandled]

theorem acceptsHandled_append {l l' : List Event} (h : acceptsHandled l) (h' : acceptsHandled l') :
    acceptsHandled (l ++ l') := by
  induction l with
  | nil => exact h'
  | cons e l ih =>
    by_cases he : ∃ s fd, e = .accept s fd
    · obtain ⟨s, fd, rfl⟩ := he
      simp only [acceptsHandled, Bool.and_eq_true] at h ⊢
      refine ⟨?_, ih h.2⟩
      cases l with
      | nil => have : fd < 0 := by simpa using h.1
               simp [this]
      | cons e' l => simpa using h.1
    · push_neg at he
      rw [List.cons_append, acceptsHandled_cons he]
      exact ih (by rwa [acceptsHandled_cons he] at h)

/-- Connections accepted and closed, one after another. -/
theorem acceptsHandled_closed (s : Int) (fds : List Int) (u : List Event) (hu : acceptsHandled u) :
    acceptsHandled (fds.flatMap (fun fd => [.accept s fd, .close fd]) ++ u) := by
  induction fds with
  | nil => exact hu
  | cons fd fds ih =>
    simp only [List.flatMap_cons, List.cons_append, List.nil_append, List.append_assoc] at ih ⊢
    simpa [acceptsHandled] using ih

/-- From `w` to `w'`, the events of the read side grew by events in which each
successful `accept` is handled. -/
def Handled (w w' : World) : Prop :=
  ∃ u, readLog w'.trace = readLog w.trace ++ u ∧ acceptsHandled u

theorem Handled.refl (w : World) : Handled w w := ⟨[], by simp, rfl⟩

theorem Handled.trans (h : Handled w w') (h' : Handled w' w'') : Handled w w'' :=
  let ⟨u, hu, hu'⟩ := h
  let ⟨v, hv, hv'⟩ := h'
  ⟨u ++ v, by rw [hv, hu, List.append_assoc], acceptsHandled_append hu' hv'⟩

theorem Handled.of_events {u : List Event} (ht : w'.trace = w.trace ++ u)
    (hu : acceptsHandled (readLog u)) : Handled w w' :=
  ⟨readLog u, by rw [ht, readLog_append], hu⟩

theorem Handled.of_log (h : readLog w'.trace = readLog w.trace) : Handled w w' :=
  ⟨[], by simp [h], rfl⟩

theorem Handled.of_trace (h : w'.trace = w.trace) : Handled w w' := .of_log (by rw [h])

/-- An event other than an `accept`. -/
theorem Handled.emit {e : Event} (he : ∀ s fd, e ≠ .accept s fd) : Handled w (w.emit e) :=
  .of_events rfl (by
    unfold readLog; rw [List.filter_singleton]; cases e.isRead <;> simp [acceptsHandled_cons he])

theorem acceptsHandled_closes (fds : List Int) : acceptsHandled (readLog (fds.map Event.close)) := by
  induction fds with
  | nil => rfl
  | cons fd fds ih => simpa [readLog, Event.isRead, acceptsHandled] using ih

theorem Handled.closes (fds : List Int) (ht : w'.trace = w.trace ++ fds.map Event.close) :
    Handled w w' :=
  .of_events ht (acceptsHandled_closes fds)

theorem Handled.failed {s fd : Int} (hfd : fd < 0) : Handled w (w.emit (.accept s fd)) :=
  .of_events rfl (by simp [readLog, Event.isRead, acceptsHandled, hfd])

/-- From `w` to `w'`, the events of the read side end with the `accept` that
returned the descriptor `w'` holds in `accepted_fd`, then the call of
`connection_cb` with status 0: the connection is handed over in
`accepted_fd`. -/
def HandedOver (w w' : World) : Prop :=
  0 ≤ w'.s.acceptedFd ∧ ∃ t, readLog w'.trace =
    readLog w.trace ++ t ++ [.accept w'.s.fd w'.s.acceptedFd, .call (.connection 0)]

theorem Handled.handedOver (h : Handled w w') (h' : HandedOver w' w'') : HandedOver w w'' :=
  let ⟨u, hu, _⟩ := h
  let ⟨hfd, t, ht⟩ := h'
  ⟨hfd, u ++ t, by rw [ht, hu]; simp only [List.append_assoc]⟩

/-! ## `uv__emfile_trick` -/

/-- What `uv__emfile_trick` does to the read side. -/
theorem emfileTrick_handled :
    Spec (emfileTrick w) (fun p => p.2.s = w.s ∧ p.1 < 0 ∧ Handled w p.2) (· = .stuck) := by
  refine emfileTrick_spec.imp (fun p hp => ?_) (fun _ => id)
  rcases hp with ⟨-, rfl⟩ | ⟨-, hs, hneg, -, -, fds, -, ht⟩
  · exact ⟨rfl, (by decide : -EMFILE < 0), .refl w⟩
  · refine ⟨hs, hneg, .of_events ht ?_⟩
    have hall : ∀ e ∈ Event.close w.emfileFd ::
        (fds.flatMap (fun fd => [.accept w.s.fd fd, .close fd]) ++ [.accept w.s.fd p.1]),
        e.isRead = true := by
      simp only [List.mem_cons, List.mem_append, List.mem_flatMap, List.not_mem_nil, or_false]
      rintro e (rfl | ⟨fd, -, rfl | rfl⟩ | rfl) <;> rfl
    rw [readLog, List.filter_eq_self.2 hall, acceptsHandled_cons (by simp)]
    exact acceptsHandled_closed _ _ _ (by simp [acceptsHandled, hneg])

/-! ## The pieces of a listening stream's dispatch -/

/-- `POLLIN` is active only while no connection is pending. -/
def World.paused (w : World) : Prop := w.s.pollin → w.s.acceptedFd = -1

instance (w : World) : Decidable w.paused :=
  inferInstanceAs (Decidable (w.s.pollin = true → w.s.acceptedFd = -1))

/-- The frames a listening stream's loop thread may have to resume: those of
`uv__server_io` after `connection_cb`, and those of `uv__write_callbacks` and
`uv__stream_destroy`. -/
def Frame.serves : Frame → Bool
  | .serverAfterAccept | .serverAfterError | .writeCallbacks | .destroyConnected
  | .destroyShutdown | .destroyEnd => true
  | _ => false

/-- The frames on the loop thread. -/
def Ctl.frames : Ctl → List Frame
  | .idle => []
  | .inCallback _ k => k

/-- The frames left by a piece of a dispatch that stopped at a callback. -/
def Seg.frames : World × Option (Callback × List Frame) → List Frame
  | (_, none) => []
  | (_, some (_, k)) => k

@[simp] theorem Seg.frames_none : Seg.frames (w, none) = [] := rfl
@[simp] theorem Seg.frames_some {c : Callback} {k : List Frame} :
    Seg.frames (w, some (c, k)) = k := rfl

/-- The frames `k` on the loop thread, with the world `w`, are a listening
stream's, and `POLLIN` is active with a connection pending only in
`connection_cb` for that connection, with the rest of `uv__server_io` to
resume. -/
structure Serves (w : World) (k : List Frame) : Prop where
  frames : ∀ f ∈ k, f.serves
  paused : .serverAfterAccept ∉ k → w.paused

/-- Where a piece of a listening stream's dispatch, run from `w`, stops: the
watcher's callback and `queued_fds` as they were, each successful `accept`
handled, `connection_cb` with status 0 called only to hand over a connection,
a listening stream's frames, and, if `pre` held, `POLLIN` paused as `Serves`
says. -/
structure Seg.Serves (pre : Prop) (w : World) (r : World × Option (Callback × List Frame)) :
    Prop where
  ioCb : r.1.s.ioCb = w.s.ioCb
  queued : r.1.s.queuedFds = w.s.queuedFds
  handled : Handled w (Seg.world r)
  handover : ∀ k, r.2 = some (.connection 0, k) → HandedOver w (Seg.world r)
  frames : ∀ f ∈ Seg.frames r, f.serves
  paused : pre → .serverAfterAccept ∉ Seg.frames r → r.1.paused

/-- A piece of a listening stream's dispatch. -/
abbrev ServeSeg (pre : Prop) (w : World) (x : Seg) : Prop := Spec x (Seg.Serves pre w) (fun _ => True)

/-- A piece that stops only with a listening stream's frames. -/
abbrev FramesSeg (x : Seg) : Prop := Spec x (fun r => ∀ f ∈ Seg.frames r, f.serves) (fun _ => True)

theorem Seg.Serves.weaken {pre pre' : Prop} {r : World × Option (Callback × List Frame)}
    (h : Seg.Serves pre w r) (hp : pre' → pre) : Seg.Serves pre' w r :=
  ⟨h.ioCb, h.queued, h.handled, h.handover, h.frames, fun p => h.paused (hp p)⟩

/-- A piece that calls back only for a request calls no `connection_cb`. -/
theorem Seg.reqOnly.not_connection {r : World × Option (Callback × List Frame)} (h : Seg.reqOnly r)
    {st : Int} {k : List Frame} : r.2 ≠ some (.connection st, k) := by
  rcases r with ⟨_, _ | ⟨c, _⟩⟩
  · nofun
  · rintro ⟨⟩
    simp [Callback.isReq] at h

/-- A piece that keeps the read side. -/
theorem ServeSeg.of_rKept {x : Seg} (h : RKeptSeg w x) (hf : FramesSeg x) : ServeSeg w.paused w x := by
  refine (h.and hf).imp (fun r ⟨⟨hk, hreq⟩, hfr⟩ => ?_) (fun _ _ => trivial)
  obtain ⟨-, -, -, hpollin, -, -, hacc, hq, hio, hlog⟩ := hk
  rw [Seg.world_s] at hpollin hacc hq hio
  exact ⟨hio, hq, .of_log hlog, fun _ hc => absurd hc hreq.not_connection, hfr,
    fun hp _ hpl => hacc.trans (hp (hpollin ▸ hpl))⟩

theorem framesSeg_writeCallbacks : FramesSeg (writeCallbacks w) := by
  unfold writeCallbacks
  simp only [spec_bind, spec_pure]
  exact Spec.of_forall (fun ⟨_, c⟩ => by cases c <;> simp [Frame.serves]) (fun _ => trivial)

theorem framesSeg_destroyCheck : FramesSeg (destroyCheck w) := by
  unfold destroyCheck; simp

theorem framesSeg_destroyShutdown : FramesSeg (destroyShutdown w) := by
  unfold destroyShutdown; split
  · split <;> simp [Frame.serves]
  · exact framesSeg_destroyCheck

theorem framesSeg_destroyWrites : FramesSeg (destroyWrites w) := by
  unfold destroyWrites
  simp only [spec_andThen]
  refine framesSeg_writeCallbacks.imp (fun r hr => ?_) (fun _ _ => trivial)
  rcases r with ⟨w', _ | ⟨c, k⟩⟩
  · exact framesSeg_destroyShutdown
  · simp only [Seg.frames_some, List.mem_append, List.mem_singleton] at hr ⊢
    rintro f (hf | rfl)
    exacts [hr f hf, rfl]

theorem framesSeg_streamDestroy : FramesSeg (streamDestroy w) := by
  unfold streamDestroy
  simp only [spec_bind, spec_check]
  refine ⟨fun _ => ⟨fun _ => ?_, fun _ => trivial⟩, fun _ => trivial⟩
  split
  · split <;> simp [Frame.serves]
  · exact framesSeg_destroyWrites

/-- **`uv__server_io`'s loop**: each connection it accepts is handed to
`connection_cb` in `accepted_fd`, or closed by `uv__emfile_trick`; where it
stops, `POLLIN` is paused unless it stopped in `connection_cb` for a new
connection; and started with no connection pending, it fails no assertion. -/
theorem serverLoopFuel_serves (fuel : Nat) :
    Spec (serverLoopFuel fuel w) (Seg.Serves w.paused w)
      (fun f => w.s.acceptedFd = -1 → ∀ e, f ≠ .assertion e) := by
  induction fuel generalizing w with
  | zero => simp [serverLoopFuel]
  | succ fuel ih =>
    unfold serverLoopFuel
    simp only [spec_bind, spec_check, spec_ite, spec_pure, spec_answerRetry, spec_connectionCallback,
      ne_eq, reduceCtorEq, not_false_eq_true, implies_true, and_true, true_and]
    refine ⟨fun _ => ⟨rfl, rfl, .refl w, (fun _ h => nomatch h), by simp, fun hp _ => hp⟩,
      fun _ => ⟨fun ha a as _ => ?_, fun ha h => absurd h ha⟩⟩
    generalize hw₁ : ({ w with env := as }.emit (.accept w.s.fd a.ret)) = w₁
    have hs₁ : w₁.s = w.s := by rw [← hw₁]; rfl
    have hh₁ : a.ret < 0 → Handled w w₁ := fun h => hw₁ ▸ Handled.failed h
    have hret : ∀ {w₂ : World}, w₂.s = w.s → Handled w w₂ → Seg.Serves w.paused w (w₂, none) :=
      fun hs h => ⟨by rw [hs], by rw [hs], h, (fun _ h => nomatch h), by simp, fun _ _ _ => hs ▸ ha⟩
    have herr : ∀ {w₂ : World} {st : Int}, st < 0 → w₂.s = w.s → Handled w w₂ →
        Seg.Serves w.paused w (w₂, some (.connection st, [.serverAfterError])) := fun hst hs h =>
      ⟨by rw [hs], by rw [hs], h.trans (.emit (by simp)), fun _ hc => by cases hc; omega,
        by simp [Frame.serves], fun _ _ _ => hs ▸ ha⟩
    refine ⟨fun hfd _ => ⟨by simp [hs₁], by simp [hs₁], ?_, fun _ _ => ⟨hfd, [], ?_⟩,
        by simp [Frame.serves], by simp⟩,
      fun hfd => ⟨fun _ => hret hs₁ (hh₁ (by omega)), fun _ => ⟨fun _ => ih.imp (fun r hr =>
        ⟨hr.ioCb.trans (by rw [hs₁]), hr.queued.trans (by rw [hs₁]), (hh₁ (by omega)).trans hr.handled,
          fun k hk => (hh₁ (by omega)).handedOver (hr.handover k hk), hr.frames,
          fun _ => hr.paused fun _ => hs₁ ▸ ha⟩) (fun f hf h => hf (hs₁ ▸ h)),
        fun _ => ⟨fun _ => emfileTrick_handled.imp (fun p ⟨hs, hneg, hh⟩ =>
          ⟨fun _ => hret (hs.trans hs₁) ((hh₁ (by omega)).trans hh),
            fun _ _ => herr hneg (hs.trans hs₁) ((hh₁ (by omega)).trans hh)⟩) (fun f hf _ e => by simp [hf]),
          fun _ _ => herr (by omega) hs₁ (hh₁ (by omega))⟩⟩⟩⟩
    · exact .of_events (u := [.accept w.s.fd a.ret, .call (.connection 0)]) (by rw [← hw₁]; simp)
        (by simp [readLog, Event.isRead, acceptsHandled])
    · rw [← hw₁]; simp [readLog, Event.isRead]

theorem serverLoop_serves :
    Spec (serverLoop w) (Seg.Serves w.paused w) (fun f => w.s.acceptedFd = -1 → ∀ e, f ≠ .assertion e) :=
  serverLoopFuel_serves _

/-- After `connection_cb` for a new connection: a connection left pending pauses
`POLLIN`, whatever held before. -/
theorem serverAfterAccept_serves : ServeSeg True w (serverAfterAccept w) := by
  unfold serverAfterAccept; split
  · exact ⟨rfl, rfl, .of_trace rfl, (fun _ h => nomatch h), by simp, fun _ _ h => absurd h (by simp)⟩
  next hne => exact serverLoop_serves.imp (fun _ h => h.weaken fun _ _ => not_not.1 hne) (fun _ _ => trivial)

/-- `uv__server_io` with no connection pending fails no assertion. -/
theorem serverIo_serves (ha : w.s.acceptedFd = -1) (hc : w.s.flags.closing = false) :
    Spec (serverIo w) (Seg.Serves True w) (fun f => ∀ e, f ≠ .assertion e) := by
  unfold serverIo
  simp only [spec_bind, spec_check, ha, hc, true_implies, not_true_eq_false, false_implies, and_true,
    Bool.false_eq_true, not_false_eq_true]
  exact serverLoop_serves.imp (fun _ h => ⟨h.ioCb, h.queued, h.handled, h.handover, h.frames,
    fun _ => h.paused fun _ => rfl⟩) (fun _ hf => hf rfl)

/-- **Every frame a listening stream may resume** stops with a listening
stream's frames, and with `POLLIN` paused unless in `connection_cb` for a new
connection, if it was paused or the frame is the one after such a call. -/
theorem resume_serves {buf : Buffer} {f : Frame} (hf : f.serves) :
    ServeSeg (f = .serverAfterAccept ∨ w.paused) w (resume w buf f) := by
  have hk : ∀ {x : Seg}, RKeptSeg w x → FramesSeg x → f ≠ .serverAfterAccept →
      ServeSeg (f = .serverAfterAccept ∨ w.paused) w x := fun h hfr hne =>
    (ServeSeg.of_rKept h hfr).imp (fun _ hr => hr.weaken fun hp => hp.resolve_left hne) (fun _ _ => trivial)
  cases f with
  | serverAfterAccept =>
    exact serverAfterAccept_serves.imp (fun _ h => h.weaken fun _ => trivial) (fun _ _ => trivial)
  | serverAfterError =>
    exact serverLoop_serves.imp (fun _ h => h.weaken fun hp => hp.resolve_left nofun) (fun _ _ => trivial)
  | writeCallbacks => exact hk rKeptSeg_writeCallbacks framesSeg_writeCallbacks nofun
  | destroyConnected => exact hk rKeptSeg_destroyConnected framesSeg_destroyWrites nofun
  | destroyShutdown => exact hk rKeptSeg_destroyShutdown framesSeg_destroyShutdown nofun
  | destroyEnd => exact hk rKeptSeg_destroyEnd framesSeg_destroyCheck nofun
  | _ => simp [Frame.serves] at hf

/-! ## Every step -/

/-- Where a listening stream's loop thread stops, run from `w`: the watcher's
callback and `queued_fds` as they were, each successful `accept` handled, in
`connection_cb` with status 0 only to hand over a connection, and frames as
`Serves` says. -/
structure Served (w : World) (m : Machine) : Prop where
  ioCb : m.w.s.ioCb = w.s.ioCb
  queued : m.w.s.queuedFds = w.s.queuedFds
  handled : Handled w m.w
  handover : ∀ k, m.ctl = .inCallback (.connection 0) k → HandedOver w m.w
  serves : Serves m.w m.ctl.frames

theorem settle_served {pre : Prop} {x : Seg} {F : Fault → Prop} (h : Spec x (Seg.Serves pre w) F)
    (hp : pre) : Spec (settle x) (Served w) F := by
  unfold settle
  simp only [spec_bind]
  refine h.imp (fun r hr => ?_) (fun _ => id)
  rcases r with ⟨w', _ | ⟨c, k⟩⟩
  · exact ⟨hr.ioCb, hr.queued, hr.handled, (fun _ h => nomatch h),
      ⟨by simp [Ctl.frames], fun _ => hr.paused hp (by simp)⟩⟩
  · refine ⟨hr.ioCb, hr.queued, hr.handled, fun _ hc => ?_, ⟨hr.frames, fun hk => hr.paused hp hk⟩⟩
    cases hc
    exact hr.handover k rfl

/-- **Resuming a listening stream's frames** stops as `Served` says. -/
theorem resumeAll_served {buf : Buffer} {k : List Frame} (h : Serves w k) :
    Spec (resumeAll buf k w) (Served w) (fun _ => True) := by
  induction k generalizing w with
  | nil => exact ⟨rfl, rfl, .refl w, (fun _ h => nomatch h), ⟨by simp [Ctl.frames], fun _ => h.paused (by simp)⟩⟩
  | cons f k ih =>
    rw [spec_resumeAll_cons]
    have hpre : .serverAfterAccept ∉ k → f = .serverAfterAccept ∨ w.paused := fun hk => by
      by_cases hf : f = .serverAfterAccept
      · exact .inl hf
      · exact .inr (h.paused (by simp [Ne.symm hf, hk]))
    refine (resume_serves (h.frames f (.head _))).imp (fun r hr => ?_) (fun _ _ => trivial)
    rcases r with ⟨w', _ | ⟨c, fs⟩⟩
    · refine (ih ⟨fun g hg => h.frames g (.tail _ hg), fun hk => hr.paused (hpre hk) (by simp)⟩).imp
        (fun m hm => ⟨hm.ioCb.trans hr.ioCb, hm.queued.trans hr.queued, hr.handled.trans hm.handled,
          fun k hk => hr.handled.handedOver (hm.handover k hk), hm.serves⟩) (fun _ _ => trivial)
    · refine ⟨hr.ioCb, hr.queued, hr.handled, fun _ hc => ?_, ⟨fun g hg => ?_, fun hk => ?_⟩⟩
      · cases hc
        exact hr.handover fs rfl
      · rcases List.mem_append.1 hg with hg | hg
        exacts [hr.frames g hg, h.frames g (.tail _ hg)]
      · simp only [Ctl.frames, World.enter, List.mem_append, not_or] at hk
        exact hr.paused (hpre hk.2) hk.1

/-! ## The calls of the user -/

/-- A user of a listening stream: no `uv_read_start`, and no second
`uv_listen`. -/
def serverUser : User := fun _ a => (∀ x y, a ≠ .readStart x y) ∧ ∀ cb, a ≠ .listen cb

/-- What a call of the user leaves of a listening stream: the watcher's
callback as it was, no `queued_fds`, each successful `accept` handled, and
`POLLIN` paused if it was. -/
structure ServeKept (w w' : World) : Prop where
  ioCb : w'.s.ioCb = w.s.ioCb
  queued : w'.s.queuedFds = none
  handled : Handled w w'
  paused : w.paused → w'.paused

theorem ServeKept.refl (hq : w.s.queuedFds = none) : ServeKept w w := ⟨rfl, hq, .refl w, id⟩

theorem ReadsKept.serveKept (h : ReadsKept w w') (hq : w.s.queuedFds = none) : ServeKept w w' :=
  ⟨h.ioCb, h.queuedFds.trans hq, .of_log h.log, fun hp hpl => h.acceptedFd.trans (hp (h.pollin ▸ hpl))⟩

@[simp] theorem uvReadStop_ioCb : (uvReadStop w).s.ioCb = w.s.ioCb := by
  unfold uvReadStop; split <;> rfl

@[simp] theorem closeIoFd_ioCb : w.closeIoFd.s.ioCb = w.s.ioCb := by
  unfold World.closeIoFd; split <;> (try split) <;> rfl

@[simp] theorem closeAcceptedFd_ioCb : w.closeAcceptedFd.s.ioCb = w.s.ioCb := by
  unfold World.closeAcceptedFd; split <;> rfl

@[simp] theorem closeQueuedFds_ioCb : w.closeQueuedFds.s.ioCb = w.s.ioCb := by
  unfold World.closeQueuedFds; split <;> simp

theorem handled_closeIoFd : Handled w w.closeIoFd := by
  unfold World.closeIoFd; split
  · split
    · exact Handled.emit (e := .close w.s.fd) (by simp)
    · exact .refl w
  · exact .refl w

theorem handled_closeAcceptedFd : Handled w w.closeAcceptedFd := by
  unfold World.closeAcceptedFd; split
  · exact Handled.emit (e := .close w.s.acceptedFd) (by simp)
  · exact .refl w

theorem handled_closeQueuedFds : Handled w w.closeQueuedFds := by
  unfold World.closeQueuedFds; split
  next q _ => exact .closes (q.fds.take q.offset) (by simp)
  · exact .refl w

theorem uvClose_serveKept : Spec (uvClose w) (ServeKept w) (fun _ => True) := by
  simp only [uvClose, streamClose, spec_bind, spec_check, spec_pure]
  refine ⟨fun _ => ⟨fun hp => ⟨by simp, by simp, ?_, fun _ h => absurd h hp.1⟩, fun _ => trivial⟩,
    fun _ => trivial⟩
  exact (Handled.of_trace (by simp)).trans
    (handled_closeIoFd.trans (handled_closeAcceptedFd.trans handled_closeQueuedFds))

theorem acceptOpen_handled {c : Stream} :
    Spec (acceptOpen w c) (fun o => ∀ p ∈ o, p.2.2.s = w.s ∧ Handled w p.2.2) (fun _ => True) := by
  have hopen : Spec (do
      let (err, c, w) ← streamOpen w c w.s.acceptedFd true true false
      pure (some (err, c, if err ≠ 0 then w.emit (.close w.s.acceptedFd) else w)))
      (fun o => ∀ p ∈ o, p.2.2.s = w.s ∧ Handled w p.2.2) (fun _ => True) := by
    simp only [spec_bind, spec_pure]
    refine streamOpen_read.imp (fun p h p' hp => ?_) (fun _ _ => trivial)
    cases hp
    split
    · exact ⟨h.2.2.2.1, (Handled.of_trace h.2.2.2.2).trans (.emit (by simp))⟩
    · exact ⟨h.2.2.2.1, .of_trace h.2.2.2.2⟩
  unfold acceptOpen
  split
  · exact hopen
  · exact hopen
  · simp only [spec_bind, spec_pure, spec_answer]
    refine ⟨fun _ => trivial, fun a as _ p hp => ?_⟩
    cases hp
    split
    · exact ⟨rfl, Handled.emit (by simp)⟩
    · exact ⟨rfl, .refl w⟩
  · simp

theorem uvAccept_serveKept {c : Stream} (hq : w.s.queuedFds = none) :
    Spec (uvAccept w c) (fun p => ServeKept w p.2.2) (fun _ => True) := by
  unfold uvAccept
  simp only [spec_bind, spec_ite, spec_pure]
  refine ⟨fun _ => .refl hq, fun _ => acceptOpen_handled.imp (fun o h => ?_) (fun _ _ => trivial)⟩
  rcases o with _ | ⟨err, c', w'⟩
  · exact .refl hq
  obtain ⟨hs, hh⟩ := h _ rfl
  dsimp only at hs hh ⊢
  simp only [hs, hq]
  split <;> exact ⟨by simp [hs], by simp [hs, hq], hh, fun _ _ => rfl⟩

/-- **A call of a listening stream's user** keeps what `Serving` needs. -/
theorem apiCall_serveKept {c : Option Callback} {a : Api} (ha : serverUser c a)
    (hq : w.s.queuedFds = none) : Spec (apiCall w a) (ServeKept w) (fun _ => True) := by
  cases a with
  | write2 =>
    simp only [apiCall, spec_bind, spec_pure]
    exact rKept_uvWrite2.imp (fun _ h => h.serveKept hq) (fun _ _ => trivial)
  | tryWrite =>
    simp only [apiCall, spec_bind, spec_pure]
    exact rKept_uvTryWrite.imp (fun _ h => h.serveKept hq) (fun _ _ => trivial)
  | readStart x y => exact absurd rfl (ha.1 x y)
  | readStop =>
    simp only [apiCall, spec_pure, uvReadStop]
    split
    · exact ⟨rfl, hq, .of_trace rfl, fun _ h => absurd h (by simp)⟩
    · exact .refl hq
  | shutdown =>
    simp only [apiCall, spec_bind, spec_pure]
    exact rKept_uvShutdown.imp (fun _ h => h.serveKept hq) (fun _ _ => trivial)
  | close => exact uvClose_serveKept
  | accept =>
    simp only [apiCall, spec_bind, spec_pure]
    exact uvAccept_serveKept hq
  | listen cb => exact absurd rfl (ha.2 cb)
  | streamOpen =>
    simp only [apiCall, spec_bind, spec_ite, spec_throw, spec_pure]
    refine ⟨fun _ => trivial, fun _ => (kept_streamOpen.and streamOpen_read).imp
      (fun ⟨_, s, w₁⟩ ⟨⟨hs, _⟩, _, _, _, _, ht⟩ => ?_) (fun _ _ => trivial)⟩
    rcases hs with rfl | ⟨f, rfl⟩ <;> exact ⟨rfl, hq, .of_trace ht, id⟩

/-! ## Every run -/

/-- A listening stream: its watcher calls `uv__server_io`, it holds no
`queued_fds`, and the frames on the loop thread are as `Serves` says. -/
structure Serving (m : Machine) : Prop where
  ioCb : m.w.s.ioCb = .serverIo
  queued : m.w.s.queuedFds = none
  serves : Serves m.w m.ctl.frames

theorem Serving.of_served {ctl : Ctl} {m : Machine} (h : Serving ⟨w, ctl⟩) (hm : Served w m) :
    Serving m ∧ Handled w m.w ∧ ∀ k, m.ctl = .inCallback (.connection 0) k → HandedOver w m.w :=
  ⟨⟨hm.ioCb.trans h.ioCb, hm.queued.trans h.queued, hm.serves⟩, hm.handled, hm.handover⟩

theorem Serving.of_kept {ctl : Ctl} (h : Serving ⟨w, ctl⟩) (hk : ServeKept w w') :
    Serving ⟨w', ctl⟩ ∧ Handled w w' :=
  ⟨⟨hk.ioCb.trans h.ioCb, hk.queued, h.serves.frames, fun hf => hk.paused (h.serves.paused hf)⟩,
    hk.handled⟩

/-- **One step of a listening stream** keeps `Serving` and handles each
successful `accept` it makes; a step of the loop thread that stops in
`connection_cb` with status 0 has handed a connection over in
`accepted_fd`. -/
theorem Machine.step_serving {m : Machine} {act : Action} {env : List Answer} (h : Serving m)
    (hok : ∀ a, act = .api a → serverUser m.ctl.current a) :
    Spec (m.step act env) (fun m' => Serving m' ∧ Handled m.w m'.w ∧
      ((∀ a, act ≠ .api a) → (∀ cb e, act ≠ .connect cb e) →
        ∀ k, m'.ctl = .inCallback (.connection 0) k → HandedOver m.w m'.w)) (fun _ => True) := by
  obtain ⟨w, ctl⟩ := m
  have h' : Serving ⟨{ w with env := env }, ctl⟩ := ⟨h.ioCb, h.queued, h.serves.frames, h.serves.paused⟩
  have hio : w.s.ioCb = .serverIo := h.ioCb
  have hserved : ∀ {m'}, Served { w with env := env } m' → Serving m' ∧ Handled w m'.w ∧
      ((∀ a, act ≠ .api a) → (∀ cb e, act ≠ .connect cb e) →
        ∀ k, m'.ctl = .inCallback (.connection 0) k → HandedOver w m'.w) := fun hm =>
    let ⟨h₁, h₂, h₃⟩ := h'.of_served hm
    ⟨h₁, h₂, fun _ _ => h₃⟩
  cases act with
  | api a =>
    simp only [Machine.step, spec_map]
    exact (apiCall_serveKept (hok a rfl) h'.queued).imp
      (fun _ hk => let ⟨hs, hh⟩ := h'.of_kept hk; ⟨hs, hh, fun ha => absurd rfl (ha a)⟩) (fun _ _ => trivial)
  | ret buf =>
    cases ctl with
    | idle => simp [Machine.step]
    | inCallback c k =>
      exact (resumeAll_served h'.serves).imp (fun _ hm => hserved hm) (fun _ _ => trivial)
  | dispatch d =>
    cases ctl with
    | idle =>
      have hp : w.paused := h.serves.paused (by simp [Ctl.frames])
      cases d with
      | io ev =>
        simp only [Machine.step, dispatch, hio]
        split
        · trivial
        next hc =>
          split
          next hev =>
            refine (settle_served (serverIo_serves ?_ ?_) trivial).imp (fun _ hm => hserved hm)
              (fun _ _ => trivial)
            exacts [hp hev.2, by simp at hc; exact hc.1]
          · trivial
      | finishClose =>
        simp only [Machine.step, dispatch]
        split
        · refine (settle_served (ServeSeg.of_rKept rKeptSeg_streamDestroy framesSeg_streamDestroy) ?_).imp
            (fun _ hm => hserved ⟨hm.ioCb, hm.queued, hm.handled, hm.handover, hm.serves⟩) (fun _ _ => trivial)
          exact hp
        · trivial
    | inCallback => simp [Machine.step]
  | connect cb e =>
    simp only [Machine.step, spec_map]
    exact rKept_connect.imp (fun _ hk => let ⟨hs, hh⟩ := h'.of_kept (hk.serveKept h'.queued)
      ⟨hs, hh, fun _ hc => absurd rfl (hc cb e)⟩) (fun _ _ => trivial)

/-- **Every run of a listening stream** keeps `Serving`, and handles each
successful `accept` it makes. -/
theorem serving_run {m₁ m : Machine} (h₁ : Serving m₁)
    (hrun : Relation.ReflTransGen (Step serverUser) m₁ m) : Serving m ∧ Handled m₁.w m.w := by
  induction hrun with
  | refl => exact ⟨h₁, .refl _⟩
  | tail _ hs ih =>
    obtain ⟨act, env, hok, hs⟩ := hs
    obtain ⟨h', hh, -⟩ := (Machine.step_serving ih.1 hok).of_ok hs
    exact ⟨h', ih.2.trans hh⟩

/-- At idle, no dispatch of a listening stream fails an assertion. -/
theorem Serving.dispatch_io {m : Machine} (h : Serving m) (hi : m.ctl = .idle) (ev : Events)
    (env : List Answer) :
    Spec (m.step (.dispatch (.io ev)) env) (fun _ => True) (fun f => ∀ e, f ≠ .assertion e) := by
  obtain ⟨w, ctl⟩ := m
  cases hi
  have hp : w.paused := h.serves.paused (by simp [Ctl.frames])
  have hio : w.s.ioCb = .serverIo := h.ioCb
  simp only [Machine.step, dispatch, hio]
  split
  · simp
  next hc =>
    split
    next hev =>
      refine (settle_served (serverIo_serves ?_ ?_) trivial).imp (fun _ _ => trivial) (fun _ h => h)
      exacts [hp hev.2, by simp at hc; exact hc.1]
    · simp

/-! ## What a listening stream never does -/

/-- **A listening stream pauses accepting while a connection waits**: along
every run from a listening stream that keeps `Serving`, in which the user
calls neither `uv_read_start` nor `uv_listen`, whenever the loop thread is
idle `POLLIN` is active only with no connection pending, so that no dispatch
of `uv__server_io` fails an assertion. -/
theorem pollin_only_without_pending {m₁ m : Machine} (h₁ : Serving m₁)
    (hrun : Relation.ReflTransGen (Step serverUser) m₁ m) (hi : m.ctl = .idle) :
    (m.w.s.pollin → m.w.s.acceptedFd = -1) ∧
      ∀ ev env e, m.step (.dispatch (.io ev)) env ≠ .error (.assertion e) := by
  have h := (serving_run h₁ hrun).1
  exact ⟨h.serves.paused (by simp [hi, Ctl.frames]),
    fun ev env e he => (h.dispatch_io hi ev env).of_error he e rfl⟩

/-- A TCP stream opened on descriptor 7 listens. -/
def listenOn7 : List (Action × List Answer) :=
  [(.api (.streamOpen 7 true true false), []), (.api (.listen true), [⟨0, []⟩])]

/-- A connection on descriptor 8 is left pending by `connection_cb`, then
taken by `uv_accept` into a TCP client; at the next `POLLIN` the process is out
of descriptors, and `uv__emfile_trick` accepts and closes descriptor 9 until
`accept` would block, then reserves its spare 3 again. -/
def acceptRound : List (Action × List Answer) :=
  [(.dispatch (.io ⟨true, false, false, false⟩), [⟨8, []⟩]), (.ret ⟨0, 0⟩, []),
   (.api (.accept (Stream.init .tcp false)), []),
   (.dispatch (.io ⟨true, false, false, false⟩), [⟨-EMFILE, []⟩, ⟨9, []⟩, ⟨-EAGAIN, []⟩, ⟨3, []⟩])]

theorem serving_listenOn7 : Serving (Machine.after .tcp false listenOn7) :=
  ⟨by decide, by decide, by decide, by decide⟩

theorem acceptRound_run :
    Relation.ReflTransGen (Step serverUser) (Machine.after .tcp false listenOn7)
      (Machine.after .tcp false (listenOn7 ++ acceptRound)) := by
  refine Machine.run_steps_of acceptRound (by decide) ?_
  simp only [acceptRound, List.mem_cons, List.not_mem_nil, or_false]
  rintro p (rfl | rfl | rfl | rfl) a ⟨⟩ _
  exact And.intro (fun _ _ h => nomatch h) (fun _ h => nomatch h)

/-- After `acceptRound`, the loop thread is idle with `POLLIN` active and no
connection pending. -/
theorem acceptRound_paused :
    Serving (Machine.after .tcp false listenOn7) ∧
      (Machine.after .tcp false (listenOn7 ++ acceptRound)).ctl = .idle ∧
      (Machine.after .tcp false (listenOn7 ++ acceptRound)).w.s.pollin = true ∧
      (((Machine.after .tcp false (listenOn7 ++ acceptRound)).w.s.pollin →
          (Machine.after .tcp false (listenOn7 ++ acceptRound)).w.s.acceptedFd = -1) ∧
        ∀ ev env e, (Machine.after .tcp false (listenOn7 ++ acceptRound)).step
          (.dispatch (.io ev)) env ≠ .error (.assertion e)) := by
  have hi : (Machine.after .tcp false (listenOn7 ++ acceptRound)).ctl = .idle := by decide
  exact ⟨serving_listenOn7, hi, by decide,
    pollin_only_without_pending serving_listenOn7 acceptRound_run hi⟩

/-- **A listening stream hands over or closes every connection it accepts**:
along every run from a listening stream that keeps `Serving`, in which the
user calls neither `uv_read_start` nor `uv_listen`, each `accept` that returns
a descriptor is followed at once, among the events of the read side, by the
close of that descriptor (in `uv__emfile_trick`) or by the call of
`connection_cb` with status 0. Each step of the loop thread (a return from a
callback or a dispatch) that stops in `connection_cb` with status 0 called it
right after the `accept` that returned the descriptor in `accepted_fd`. -/
theorem accepted_connection_handed_over {m₁ m : Machine} (h₁ : Serving m₁)
    (hrun : Relation.ReflTransGen (Step serverUser) m₁ m) :
    (∃ u, readLog m.w.trace = readLog m₁.w.trace ++ u ∧ acceptsHandled u = true) ∧
      ∀ act env m', (∀ a, act ≠ .api a) → (∀ cb e, act ≠ .connect cb e) → m.step act env = .ok m' →
        ∀ k, m'.ctl = .inCallback (.connection 0) k →
          0 ≤ m'.w.s.acceptedFd ∧ ∃ t, readLog m'.w.trace =
            readLog m.w.trace ++ t ++ [.accept m'.w.s.fd m'.w.s.acceptedFd, .call (.connection 0)] :=
  let ⟨hm, hh⟩ := serving_run h₁ hrun
  ⟨hh, fun _ _ _ ha hc hs => ((Machine.step_serving hm fun a h => absurd h (ha a)).of_ok hs).2.2 ha hc⟩

/-- The first step of `acceptRound`: `accept` returns 8 to `uv__server_io`. -/
def acceptRound₁ : Action × List Answer := (.dispatch (.io ⟨true, false, false, false⟩), [⟨8, []⟩])

/-- In `acceptRound`, the connection on 8 goes to `connection_cb` in
`accepted_fd`, and the one on 9 is closed by `uv__emfile_trick`. -/
theorem acceptRound_handled :
    Serving (Machine.after .tcp false listenOn7) ∧
      (∃ u, readLog (Machine.after .tcp false (listenOn7 ++ acceptRound)).w.trace =
        readLog (Machine.after .tcp false listenOn7).w.trace ++ u ∧ acceptsHandled u = true) ∧
      (Machine.after .tcp false (listenOn7 ++ [acceptRound₁])).w.s.acceptedFd = 8 ∧
      0 ≤ (Machine.after .tcp false (listenOn7 ++ [acceptRound₁])).w.s.acceptedFd ∧
      ∃ t, readLog (Machine.after .tcp false (listenOn7 ++ [acceptRound₁])).w.trace =
        readLog (Machine.after .tcp false listenOn7).w.trace ++ t ++
          [.accept (Machine.after .tcp false (listenOn7 ++ [acceptRound₁])).w.s.fd
            (Machine.after .tcp false (listenOn7 ++ [acceptRound₁])).w.s.acceptedFd,
           .call (.connection 0)] :=
  ⟨serving_listenOn7, (accepted_connection_handed_over serving_listenOn7 acceptRound_run).1, rfl,
    (accepted_connection_handed_over serving_listenOn7 .refl).2 acceptRound₁.1 acceptRound₁.2 _
      (fun _ h => Action.noConfusion h) (fun _ _ h => Action.noConfusion h) rfl [.serverAfterAccept] (by decide)⟩

end UvStream
