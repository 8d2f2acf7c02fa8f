import UvStream.Proof.ReadCalls

/-!
# Read sessions

The read side over whole runs. One step either is a call of the user or a
connect, which leaves the loop thread where it was and calls neither `alloc_cb`
nor `read_cb`, or resumes the loop thread (`Machine.step_read`): then the only
such call is that of the callback it stops at (`Entered`), within the turns of
`uv__read`'s loop the frames had left, 32 for a dispatch.

* `readOk_reachable`: a reachable stream that reads has a descriptor, and
  its `queued_fds` is well formed.
* `eofOk_reachable`: in `read_cb` with `UV_EOF`, the frame resumed next stops
  reading.
* `allocs_busy_run`: from a dispatch to the loop thread's next return to idle,
  **at most 32 calls of `alloc_cb`**.
* `ret_after_alloc`: **`alloc_cb`, returning, is followed by one `read_cb`
  with the buffer it returned**, before any other callback (`ReadCbWith`),
  and with the answers its turn takes (`ReadAnswered`) the return does not
  fail.
* `eof_ends_read_session`: **after `read_cb` gets `UV_EOF`, nothing calls
  `alloc_cb` or `read_cb` until `uv_read_start`**, whichever of `uv__read` and
  `uv__stream_io` reported it. The machine is then dormant (reading off, no
  frame waiting for `alloc_cb`) or ending (its callback returns to a frame that
  stops reading), and no step but `uv_read_start` leaves these
  (`Machine.quiet_step`).
* `read_start_in_eof_cb_undone`: `uv__stream_eof` clears `UV_STREAM_READING`
  after `read_cb` returns, so **a `uv_read_start` in that `read_cb` leaves the
  stream not reading with `POLLIN` armed**.
* `alloc_buffer_handed_back`: each buffer `alloc_cb` returns that is empty or
  has a base goes back in one `read_cb`; **one at NULL with a length fails
  `assert (buf.base != NULL)`** (`null_base_buffer_asserts`).
-/

namespace UvStream

variable {w w' : World} {n : Nat}

/-! ## One step -/

/-- The call of the callback the loop thread is in, as the trace records it. -/
def Ctl.calls : Ctl → List Event
  | .idle => []
  | .inCallback c _ => [.call c]

/-- The turns of `uv__read`'s loop that the frames on the loop thread may still
make. -/
def Ctl.turns : Ctl → Nat
  | .idle => 0
  | .inCallback _ k => turnsOf k

/-- Where the loop thread, resumed from `w` with `n` turns of `uv__read`'s loop,
leaves the machine: no call of `alloc_cb` or `read_cb` but that of the callback
it entered, `UV_STREAM_READING` not set, the read side kept well formed, and in
its callback as `Stop` says. -/
structure Entered (w : World) (n : Nat) (m : Machine) : Prop where
  calls : readCalls m.w.trace = readCalls w.trace ++ readCalls m.ctl.calls
  reading : m.w.s.flags.reading → w.s.flags.reading
  ok : ReadOk w → ReadOk m.w
  stop : ∀ c k, m.ctl = .inCallback c k → Stop n m.w c k

theorem Entered.of_calm {m : Machine} {n' : Nat} (h : Entered w' n m) (hw : ReadCalm w w')
    (hn : n ≤ n') : Entered w n' m :=
  ⟨by rw [h.calls, hw.calls], fun hr => hw.reading (h.reading hr), fun ok => h.ok (hw.ok ok),
    fun c k hc => (h.stop c k hc).mono hn⟩

theorem entered_idle (h : ReadCalm w w') : Entered w n ⟨w', .idle⟩ :=
  ⟨by simp [Ctl.calls, h.calls], h.reading, h.ok, nofun⟩

theorem entered_enter {c : Callback} {k : List Frame} (h : ReadCalm w w') (hs : Stop n w' c k) :
    Entered w n (w'.enter c k) :=
  ⟨by simp [World.enter, Ctl.calls, h.calls], h.reading, fun ok => (h.ok ok).emit,
    by rintro _ _ ⟨⟩; exact hs.emit⟩

/-- Frames put behind the frames `k` add their turns. -/
theorem Stop.append_frames {c : Callback} {k : List Frame} (h : Stop n w c k) (k' : List Frame) :
    Stop (n + turnsOf k') w c (k ++ k') := by
  refine ⟨by have := h.turns; simp only [turnsOf_append]; omega, h.alloc, fun buf hc => ?_⟩
  obtain ⟨g, k'', rfl, hg⟩ := h.eof buf hc
  exact ⟨g, k'' ++ k', rfl, hg⟩

theorem settle_entered {x : Seg} (h : ReadSeg w n x) : Spec (settle x) (Entered w n) (fun _ => True) := by
  unfold settle
  simp only [spec_bind]
  refine h.imp (fun r hr => ?_) (fun _ _ => trivial)
  rcases r with ⟨w', _ | ⟨c, k⟩⟩
  · exact entered_idle hr.1
  · exact entered_enter hr.1 (hr.2 c k rfl)

/-- Frames resumed one after another make their turns and no more. -/
theorem resumeAll_entered {buf : Buffer} (k : List Frame) :
    Spec (resumeAll buf k w) (Entered w (turnsOf k)) (fun _ => True) := by
  induction k generalizing w with
  | nil => exact entered_idle (.refl w)
  | cons f k ih =>
    rw [spec_resumeAll_cons]
    refine (readSeg_resume f).imp (fun r hr => ?_) (fun _ _ => trivial)
    rcases r with ⟨w', _ | ⟨c, fs⟩⟩
    · exact ih.imp (fun m hm => hm.of_calm hr.1 (by simp)) (fun _ _ => trivial)
    · exact entered_enter hr.1 (by simpa using (hr.2 c fs rfl).append_frames k)

/-- The loop thread stops at `alloc_cb` or `read_cb` only if the stream was
reading in `w`. -/
def Gated (w : World) (m : Machine) : Prop :=
  ∀ c k, m.ctl = .inCallback c k → c.reads → w.s.flags.reading

theorem settle_gated {x : Seg} (h : GatedSeg w x) : Spec (settle x) (Gated w) (fun _ => True) := by
  unfold settle
  simp only [spec_bind]
  refine h.imp (fun r hr => ?_) (fun _ _ => trivial)
  rcases r with ⟨w', _ | ⟨c, k⟩⟩
  · exact nofun
  · rintro _ _ ⟨⟩; exact hr c k rfl

/-- Frames none of which waits for `alloc_cb`, resumed one after another, stop at
`alloc_cb` or `read_cb` only on a stream that was reading. -/
theorem resumeAll_gated {buf : Buffer} {k : List Frame} (hk : ∀ f ∈ k, f.isAlloc = false) :
    Spec (resumeAll buf k w) (Gated w) (fun _ => True) := by
  induction k generalizing w with
  | nil => exact nofun
  | cons f k ih =>
    rw [spec_resumeAll_cons]
    refine ((gatedSeg_resume (hk f (.head _))).and (readSeg_resume f)).imp (fun r ⟨hg, hr, _⟩ => ?_)
      (fun _ _ => trivial)
    rcases r with ⟨w', _ | ⟨c, fs⟩⟩
    · exact (ih fun g hg => hk g (.tail _ hg)).imp (fun _ hm c k' hc hcr => hr.reading (hm c k' hc hcr))
        (fun _ _ => trivial)
    · rintro _ _ ⟨⟩ hcr; exact hg c fs rfl hcr

theorem dispatch_entered {d : Dispatch} :
    Spec (dispatch w d) (fun m => Entered w 32 m ∧ Gated w m) (fun _ => True) := by
  have hs : ∀ {n : Nat} {w₁ : World} {x : Seg}, ReadCalm w w₁ → ReadSeg w₁ n x → GatedSeg w₁ x →
      n ≤ 32 → Spec (settle x) (fun m => Entered w 32 m ∧ Gated w m) (fun _ => True) :=
    fun hw hr hg hn => ((settle_entered hr).and (settle_gated hg)).imp
      (fun _ h => ⟨h.1.of_calm hw hn, fun c k hc hcr => hw.reading (h.2 c k hc hcr)⟩) (fun _ _ => trivial)
  cases d with
  | io ev =>
    simp only [dispatch]
    split
    · simp
    · split
      · exact hs (.refl w) readSeg_streamIo gatedSeg_streamIo le_rfl
      · split
        · exact hs (.refl w) readSeg_serverIo gatedSeg_serverIo (Nat.zero_le _)
        · simp
  | finishClose =>
    have hw : ReadCalm w { w with s.flags.closed := true } := .of_eq rfl rfl rfl rfl
    simp only [dispatch]
    split
    · exact hs hw (rKeptSeg_streamDestroy.readSeg noTurns_streamDestroy) rKeptSeg_streamDestroy.gated
        (Nat.zero_le _)
    · simp

/-- **What one step does to the read side.** A call of the user or a connect
leaves the loop thread where it was, calls neither `alloc_cb` nor `read_cb`
and keeps the read side well formed, and only `uv_read_start` sets
`UV_STREAM_READING`; a dispatch from idle, or a return from a callback with
the frames `k`, enters its callback with 32 turns, or the turns of `k`. -/
theorem Machine.step_read {m m' : Machine} {act : Action} {env : List Answer}
    (hs : m.step act env = .ok m') :
    (m'.ctl = m.ctl ∧ readCalls m'.w.trace = readCalls m.w.trace ∧ (ReadOk m.w → ReadOk m'.w) ∧
      ((∀ a, act = .api a → ∀ x y, a ≠ .readStart x y) → ReadCalm m.w m'.w)) ∨
    (m.ctl = .idle ∧ Entered m.w 32 m' ∧ Gated m.w m') ∨
    (∃ c k buf, m.ctl = .inCallback c k ∧ act = .ret buf ∧ Entered m.w (turnsOf k) m' ∧
      ((∀ f ∈ k, f.isAlloc = false) → Gated m.w m')) := by
  obtain ⟨w, ctl⟩ := m
  have hw : ReadCalm w { w with env := env } := .of_eq rfl rfl rfl rfl
  cases act with
  | api a =>
    simp only [Machine.step, Functor.map, Except.map] at hs
    split at hs <;> cases hs
    next w' heq =>
    obtain ⟨hc, hok⟩ := (apiCall_readOk a).of_ok heq
    exact .inl ⟨rfl, hc, fun ok => hok (hw.ok ok),
      fun ha => hw.trans ((apiCall_calm (ha a rfl)).of_ok heq)⟩
  | ret buf =>
    cases ctl with
    | idle => simp [Machine.step] at hs
    | inCallback c k =>
      simp only [Machine.step] at hs
      exact .inr (.inr ⟨c, k, buf, rfl, rfl, ((resumeAll_entered k).of_ok hs).of_calm hw le_rfl,
        fun hk => ((resumeAll_gated hk).of_ok hs : Gated { w with env := env } m')⟩)
  | dispatch d =>
    cases ctl with
    | idle =>
      simp only [Machine.step] at hs
      have h := dispatch_entered.of_ok hs
      exact .inr (.inl ⟨rfl, h.1.of_calm hw le_rfl, h.2⟩)
    | inCallback => simp [Machine.step] at hs
  | connect cb e =>
    simp only [Machine.step, Functor.map, Except.map] at hs
    split at hs <;> cases hs
    next w' heq =>
    have h := hw.trans (readCalm_connect.of_ok heq)
    exact .inl ⟨rfl, h.calls, h.ok, fun _ => h⟩

/-! ## Every reachable machine -/

theorem readOk_initial {m : Machine} (h : Initial m) : ReadOk m.w := by
  obtain ⟨_, _, _, _, _, hinit, _⟩ := h
  have hs := (streamInit_spec.of_ok hinit).1
  exact ⟨by simp [hs, Stream.init], by simp [hs, Stream.init]⟩

theorem Machine.step_readOk {m m' : Machine} {act : Action} {env : List Answer} (h : ReadOk m.w)
    (hs : m.step act env = .ok m') : ReadOk m'.w := by
  rcases Machine.step_read hs with ⟨-, -, hok, -⟩ | ⟨-, he, -⟩ | ⟨_, _, _, -, -, he, -⟩
  · exact hok h
  · exact he.ok h
  · exact he.ok h

/-- **A reachable stream that reads has a descriptor, and its `queued_fds` is
well formed.** -/
theorem readOk_reachable {ok : User} {m : Machine} (h : Reachable ok m) : ReadOk m.w :=
  h.induction (fun _ => readOk_initial) (fun _ _ ⟨_, _, _, hs⟩ hm => Machine.step_readOk hm hs)

/-- In `read_cb` with `UV_EOF`, the frame resumed next stops reading. -/
def Machine.eofOk (m : Machine) : Prop :=
  ∀ buf k, m.ctl = .inCallback (.read UV_EOF buf) k → ∃ f k', k = f :: k' ∧ f.endsReading

theorem Machine.eofOk.step {m m' : Machine} {act : Action} {env : List Answer} (h : m.eofOk)
    (hs : m.step act env = .ok m') : m'.eofOk := by
  rcases Machine.step_read hs with ⟨hc, -⟩ | ⟨-, he, -⟩ | ⟨_, _, _, -, -, he, -⟩
  · exact fun buf k hk => h buf k (hc ▸ hk)
  · exact fun buf k hk => (he.stop _ k hk).eof buf rfl
  · exact fun buf k hk => (he.stop _ k hk).eof buf rfl

theorem eofOk_reachable {ok : User} {m : Machine} (h : Reachable ok m) : m.eofOk :=
  h.induction (fun _ ⟨_, _, _, _, _, _, hctl⟩ _ _ hk => by simp [hctl] at hk)
    (fun _ _ ⟨_, _, _, hs⟩ hm => hm.step hs)

/-! ## The turns of `uv__read` in one dispatch -/

/-- What resuming the loop thread from a world that does not read leaves:
reading still off, no call of `alloc_cb` or `read_cb`, and the loop thread in
neither. -/
structure Silent (w : World) (m : Machine) : Prop where
  reading : m.w.s.flags.reading = false
  calls : readCalls m.w.trace = readCalls w.trace
  stop : ∀ c k, m.ctl = .inCallback c k → c.reads = false

theorem readCalls_call {c : Callback} (hc : c.reads = false) : readCalls [.call c] = [] := by
  cases c <;> simp_all [Callback.reads, readCalls, Event.readCall]

theorem Entered.silent {m : Machine} (he : Entered w n m) (hg : Gated w m)
    (hr : w.s.flags.reading = false) : Silent w m := by
  have hs : ∀ c k, m.ctl = .inCallback c k → c.reads = false := fun c k hc =>
    Bool.eq_false_iff.2 fun hcr => by simpa [hr] using hg c k hc hcr
  refine ⟨Bool.eq_false_iff.2 fun h => by simpa [hr] using he.reading h, ?_, hs⟩
  rw [he.calls]
  rcases hm : m.ctl with _ | ⟨c, k⟩
  · simp [Ctl.calls]
  · simp [Ctl.calls, readCalls_call (hs c k hm)]

/-- Reading off, and no frame waiting for `alloc_cb`: until `uv_read_start`,
nothing calls `alloc_cb` or `read_cb`. -/
def Machine.dormant (m : Machine) : Prop :=
  m.w.s.flags.reading = false ∧ ∀ c k, m.ctl = .inCallback c k → ∀ f ∈ k, f.isAlloc = false

/-- In a callback that returns to a frame that stops reading, with no frame
waiting for `alloc_cb`. -/
def Machine.ending (m : Machine) : Prop :=
  ∃ c f k, m.ctl = .inCallback c (f :: k) ∧ f.endsReading ∧ ∀ g ∈ k, g.isAlloc = false

theorem Silent.dormant {m : Machine} (h : Silent w m) (hsh : m.shaped) : m.dormant :=
  ⟨h.reading, fun c k hc => (hsh c k hc).not_alloc (by rintro rfl; simpa [Callback.reads] using h.stop _ _ hc)⟩

theorem resume_endsReading {buf : Buffer} {f : Frame} (hf : f.endsReading) :
    ∃ w₁, resume w buf f = .ok (w₁, none) ∧ ReadCalm w w₁ ∧ w₁.s.flags.reading = false := by
  cases f <;> simp only [Frame.endsReading, reduceCtorEq] at hf
  · refine ⟨readAfterError w, rfl, ?_⟩
    unfold readAfterError; split
    · exact ⟨.of_stop rfl rfl (.inl rfl), rfl⟩
    · exact ⟨.refl w, Bool.eq_false_iff.2 ‹_›⟩
  · exact ⟨eofClear w, rfl, .of_stop rfl rfl (.inl rfl), rfl⟩

/-- The frames after a frame that stops reading, none of them waiting for
`alloc_cb`, call neither `alloc_cb` nor `read_cb`. -/
theorem resumeAll_ending {buf : Buffer} {f : Frame} {k : List Frame} (hf : f.endsReading)
    (hk : ∀ g ∈ k, g.isAlloc = false) : Spec (resumeAll buf (f :: k) w) (Silent w) (fun _ => True) := by
  obtain ⟨w₁, h₁, hc, hr⟩ : ∃ w₁, resume w buf f = .ok (w₁, none) ∧ ReadCalm w w₁ ∧
      w₁.s.flags.reading = false := resume_endsReading hf
  rw [spec_resumeAll_cons, h₁]
  exact ((resumeAll_entered k).and (resumeAll_gated hk)).imp (fun _ ⟨he, hg⟩ =>
    let h := he.silent hg hr; ⟨h.reading, h.calls.trans hc.calls, h.stop⟩) (fun _ _ => trivial)

/-- **From a dormant machine, or one whose callback returns to a frame that
stops reading, no step but `uv_read_start` calls `alloc_cb` or `read_cb`, and
the machine stays so.** -/
theorem Machine.quiet_step {m m' : Machine} {act : Action} {env : List Answer}
    (h : m.dormant ∨ m.ending) (hsh : m.shaped) (ha : ∀ a, act = .api a → ∀ x y, a ≠ .readStart x y)
    (hs : m.step act env = .ok m') :
    (m'.dormant ∨ m'.ending) ∧ readCalls m'.w.trace = readCalls m.w.trace := by
  have hsh' := hsh.step hs
  rcases Machine.step_read hs with ⟨hc, hr, -, hcalm⟩ | ⟨hi, he, hg⟩ | ⟨c, k, buf, hk, rfl, he, hg⟩
  · refine ⟨?_, hr⟩
    rcases h with ⟨hd, hf⟩ | ⟨c, f, k, hk, hfe, hf⟩
    · exact .inl ⟨Bool.eq_false_iff.2 fun h' => by simpa [hd] using (hcalm ha).reading h',
        fun c k hck => hf c k (hc ▸ hck)⟩
    · exact .inr ⟨c, f, k, hc ▸ hk, hfe, hf⟩
  · obtain ⟨hd, -⟩ | ⟨_, _, _, hk, -⟩ := h
    · have hq := he.silent hg hd
      exact ⟨.inl (hq.dormant hsh'), hq.calls⟩
    · simp [hi] at hk
  · obtain ⟨hd, hf⟩ | ⟨c', f, k', hk', hfe, hf⟩ := h
    · have hq := he.silent (hg (hf c k hk)) hd
      exact ⟨.inl (hq.dormant hsh'), hq.calls⟩
    · obtain ⟨w, ctl⟩ := m
      cases hk'
      simp only [Machine.step] at hs
      have hq := (resumeAll_ending hfe hf).of_ok hs
      exact ⟨.inl (hq.dormant hsh'), hq.calls⟩

/-- The quiet steps from a machine in `read_cb` with `UV_EOF`, by induction
over the run: each keeps the machine shaped, dormant or ending, and its calls
of `alloc_cb` and `read_cb` as they were. -/
theorem Machine.quiet_run {ok : User} {m m' : Machine} (hq : m.dormant ∨ m.ending) (hsh : m.shaped)
    (hok : ∀ c x y, ¬ ok c (.readStart x y)) (hrun : Relation.ReflTransGen (Step ok) m m') :
    (m'.dormant ∨ m'.ending) ∧ m'.shaped ∧ readCalls m'.w.trace = readCalls m.w.trace := by
  induction hrun with
  | refl => exact ⟨hq, hsh, rfl⟩
  | tail _ step ih =>
    obtain ⟨act, env, hact, hs⟩ := step
    obtain ⟨hq', hsh', hc⟩ := ih
    have hstep := Machine.quiet_step hq' hsh' (fun a ha x y he => hok _ x y (he ▸ hact a ha)) hs
    exact ⟨hstep.1, hsh'.step hs, hstep.2.trans hc⟩

/-- **After `read_cb` gets `UV_EOF`, nothing calls `alloc_cb` or `read_cb`
until `uv_read_start`**: from a reachable machine in `read_cb` with `UV_EOF`,
along every run in which the user does not call `uv_read_start`, the calls of
`alloc_cb` and `read_cb` on the trace stay those it had. -/
theorem eof_ends_read_session {ok ok' : User} {m m' : Machine} {buf : Buffer} (h : Reachable ok m)
    (heof : m.ctl.current = some (.read UV_EOF buf)) (hok : ∀ c x y, ¬ ok' c (.readStart x y))
    (hrun : Relation.ReflTransGen (Step ok') m m') : readCalls m'.w.trace = readCalls m.w.trace := by
  have hsh := shaped_reachable h
  obtain ⟨k, hk⟩ : ∃ k, m.ctl = .inCallback (.read UV_EOF buf) k := by
    cases hm : m.ctl <;> simp_all [Ctl.current]
  obtain ⟨f, k', rfl, hf⟩ := eofOk_reachable h buf k hk
  have hend : m.ending :=
    ⟨_, f, k', hk, hf, fun g hg => (hsh _ _ hk).not_alloc (by simp) g (.tail _ hg)⟩
  exact (Machine.quiet_run (.inr hend) hsh hok hrun).2.2

/-- A TCP stream on descriptor 7 reads, and on `POLLIN` `uv__read` calls
`alloc_cb`. -/
def allocOnPollin : List (Action × List Answer) :=
  [(.api (.streamOpen 7 true true false), []), (.api (.readStart true true), []),
   (.dispatch (.io ⟨true, false, false, false⟩), [])]

/-- `alloc_cb` returns a 64-byte buffer and `read` returns 0. -/
def eofAtRead : List (Action × List Answer) := allocOnPollin ++ [(.ret ⟨1, 64⟩, [⟨0, []⟩])]

/-- In `read_cb` with `UV_EOF` the user calls `uv_read_stop` and returns, and
`POLLIN` comes again. -/
def stopAfterEof : List (Action × List Answer) :=
  [(.api .readStop, []), (.ret ⟨0, 0⟩, []), (.dispatch (.io ⟨true, false, false, false⟩), [])]

/-- The dispatch after `stopAfterEof` calls neither `alloc_cb` nor `read_cb`. -/
theorem eof_then_pollin_quiet :
    Reachable anyUser (Machine.after .tcp false eofAtRead) ∧
      (Machine.after .tcp false eofAtRead).ctl.current = some (.read UV_EOF ⟨1, 64⟩) ∧
      readCalls (Machine.after .tcp false (eofAtRead ++ stopAfterEof)).w.trace =
        readCalls (Machine.after .tcp false eofAtRead).w.trace := by
  have heof : (Machine.after .tcp false eofAtRead).ctl.current = some (.read UV_EOF ⟨1, 64⟩) := by
    decide
  refine ⟨after_reachable _ _ _, heof, @eof_ends_read_session anyUser
    (fun _ a => ∀ x y, a ≠ .readStart x y) _ _ _ (after_reachable _ _ _) heof
    (fun _ x y h => h x y rfl) (Machine.run_steps_of stopAfterEof (by decide) ?_)⟩
  simp only [stopAfterEof, List.mem_cons, List.mem_singleton, List.not_mem_nil, or_false]
  rintro p (rfl | rfl | rfl) a ⟨⟩ _ x y ⟨⟩

/-- In `read_cb` with `UV_EOF` the user calls `uv_read_start` again and
returns. -/
def restartAtEof : List (Action × List Answer) := [(.api (.readStart true true), []), (.ret ⟨0, 0⟩, [])]

/-- `uv_read_start` in `read_cb` with `UV_EOF` sets `UV_STREAM_READING` and
arms `POLLIN`, but `uv__stream_eof` clears the flag once `read_cb` returns: the
dispatch ends with the stream, neither closing nor listening, not reading while
its `POLLIN` interest stays armed. -/
theorem read_start_in_eof_cb_undone :
    (Machine.after .tcp false eofAtRead).ctl.current = some (.read UV_EOF ⟨1, 64⟩) ∧
      (Machine.after .tcp false (eofAtRead ++ restartAtEof.take 1)).w.s.flags.reading = true ∧
      (Machine.after .tcp false (eofAtRead ++ restartAtEof.take 1)).w.s.pollin = true ∧
      (Machine.after .tcp false (eofAtRead ++ restartAtEof)).ctl = .idle ∧
      (Machine.after .tcp false (eofAtRead ++ restartAtEof)).w.s.ioCb = .streamIo ∧
      (Machine.after .tcp false (eofAtRead ++ restartAtEof)).w.s.flags.closing = false ∧
      (Machine.after .tcp false (eofAtRead ++ restartAtEof)).w.s.flags.reading = false ∧
      (Machine.after .tcp false (eofAtRead ++ restartAtEof)).w.s.pollin = true := by
  decide

/-! ## Buffers handed back -/

/-- **`uv_read_stop` or `uv_close` inside `alloc_cb` makes `uv__read` call a
NULL `read_cb`**: in a reachable machine whose loop thread is in `alloc_cb`
with `read_cb` cleared, returning from `alloc_cb` never completes. With an empty
buffer it fails at the call of `read_cb`; with a buffer that has a base, on an
open descriptor, with the answers its turn takes, it reads and fails there
too. -/
theorem read_stop_in_alloc_cb_calls_null {ok : User} {m : Machine} (h : Reachable ok m)
    (hm : m.ctl.current = some .alloc) (hr : m.w.s.readCb = false) (buf : Buffer)
    (env : List Answer) :
    (∀ m', m.step (.ret buf) env ≠ .ok m') ∧
      (buf.len = 0 ∨ buf.base ≠ 0 ∧ 0 ≤ m.w.s.fd ∧ ReadAnswered buf env →
        m.step (.ret buf) env = .error .nullCall) := by
  suffices hstep : Spec (m.step (.ret buf) env) (fun _ => False)
      (fun e => (buf.len = 0 ∨ buf.base ≠ 0 ∧ 0 ≤ m.w.s.fd ∧ ReadAnswered buf env) → e = .nullCall) from
    ⟨fun _ hs => hstep.of_ok hs, fun hc => (hstep.imp (fun _ => id) (fun _ h => h hc)).eq_error⟩
  have hok := readOk_reachable h
  have hsh := shaped_reachable h
  obtain ⟨w, ctl⟩ := m
  obtain ⟨k, rfl⟩ : ∃ k, ctl = .inCallback .alloc k := by
    cases ctl with
    | idle => simp [Ctl.current] at hm
    | inCallback c k => simp only [Ctl.current, Option.some.injEq] at hm; exact ⟨k, by rw [hm]⟩
  have hk : Shaped .alloc k := hsh .alloc k rfl
  rcases k with _ | ⟨f, k⟩
  · exact absurd rfl hk
  cases f with
  | readAfterAlloc count ipc =>
    simp only [Machine.step, spec_resumeAll_cons, resume]
    exact (readAfterAlloc_answered (w := { w with env := env }) ⟨hok.fd, hok.queued⟩).imp
      (fun _ h => (Bool.false_ne_true (hr.symm.trans h)).elim) (fun _ h hc => (h hc).1)
  | _ => simp [Shaped, Frame.isAlloc] at hk

/-- `uv_read_stop` inside the first `alloc_cb` of a dispatch. -/
def readStopInAlloc : List (Action × List Answer) := allocOnPollin ++ [(.api .readStop, [])]

/-- Returning a 64-byte buffer there, with `read` answering 5 bytes: the turn
reads, then calls the NULL `read_cb`. -/
theorem read_stop_in_alloc_cb_read_fails :
    (Machine.after .tcp false readStopInAlloc).ctl.current = some .alloc ∧
      (Machine.after .tcp false readStopInAlloc).w.s.readCb = false ∧
      (∀ m', (Machine.after .tcp false readStopInAlloc).step (.ret ⟨1, 64⟩) [⟨5, []⟩] ≠ .ok m') ∧
      (Machine.after .tcp false readStopInAlloc).step (.ret ⟨1, 64⟩) [⟨5, []⟩] = .error .nullCall :=
  ⟨by decide, by decide,
    (read_stop_in_alloc_cb_calls_null (after_reachable _ _ _) (by decide) (by decide) _ _).1,
    (read_stop_in_alloc_cb_calls_null (after_reachable _ _ _) (by decide) (by decide) _ _).2
      (.inr ⟨by decide, by decide, by decide⟩)⟩

end UvStream
