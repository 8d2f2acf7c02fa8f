import UvStream.Spec.Write
import UvStream.Spec.Server

/-!
# The stream as a machine

`uv__stream_io`, `uv__stream_connect`, `uv__stream_close` and
`uv__stream_destroy`, and the machine that runs them. The loop thread is idle or
inside one of the user's callbacks. When idle, the loop may dispatch the
watcher (`io_watcher.cb`) or finish a close; a dispatch runs up to its first
callback. Inside a callback the user may call into the stream; when the
callback returns, the frames below it are resumed up to the next callback. The
user may also call into the stream outside any dispatch.

Two entry points belong to `core.c`, outside the source given, and are taken
as far as they touch this stream: `uv_close` sets `UV_CLOSING` before
`uv__stream_close`, and `uv__finish_close` sets `UV_CLOSED` before
`uv__stream_destroy`. A transport's connect (`tcp.c`, `pipe.c`) is an action of
the environment that registers a connect request and starts `POLLOUT`.
-/

namespace UvStream

/-! ## Closing -/

/-- The block of `uv__stream_close` that closes the watcher's descriptor, unless
it is a standard one. -/
def World.closeIoFd (w : World) : World :=
  if w.s.fd ≠ -1 then
    { (if STDERR_FILENO < w.s.fd then w.emit (.close w.s.fd) else w) with s.fd := -1 }
  else w

/-- The block of `uv__stream_close` that closes `accepted_fd`. -/
def World.closeAcceptedFd (w : World) : World :=
  if w.s.acceptedFd ≠ -1 then { w.emit (.close w.s.acceptedFd) with s.acceptedFd := -1 } else w

/-- The block of `uv__stream_close` that closes the queued descriptors. -/
def World.closeQueuedFds (w : World) : World :=
  match w.s.queuedFds with
  | some q => { (q.fds.take q.offset).foldl (fun w fd => w.emit (.close fd)) w with
                s.queuedFds := none }
  | none => w

/-- `uv__stream_close`. -/
def streamClose (w : World) : Except Fault World := do
  let w := (uvReadStop { w with s.pollin := false, s.pollout := false }).closeIoFd.closeAcceptedFd
    |>.closeQueuedFds
  check (¬ w.s.pollin ∧ ¬ w.s.pollout)
    "!uv__io_active(&handle->io_watcher, UV__POLLIN | UV__POLLOUT)"
  pure w

/-- `uv_close` on the stream. -/
def uvClose (w : World) : Except Fault World := do
  check (¬ w.s.flags.closing) "!uv__is_closing(handle)"
  streamClose { w with s.flags.closing := true }

/-- The end of `uv__stream_destroy`. -/
def destroyCheck (w : World) : Seg := do
  check (w.s.writeQueueSize = 0) "stream->write_queue_size == 0"
  pure (w, none)

/-- `uv__stream_destroy` after a pending shutdown's callback. -/
def destroyEnd (w : World) : Seg := destroyCheck { w with s.shutdownReq := none }

/-- `uv__stream_destroy` at a pending shutdown: its callback, called whether or
not it is NULL. -/
def destroyShutdown (w : World) : Seg :=
  match w.s.shutdownReq with
  | some r =>
    let w := { w with activeReqs := w.activeReqs - 1 }
    if r.cb then pure (w, some (.shutdown r.id (-ECANCELED), [.destroyEnd])) else throw .nullCall
  | none => destroyCheck w

/-- `uv__stream_destroy` at the write queue: every request is cancelled and
completed. -/
def destroyWrites (w : World) : Seg :=
  (writeCallbacks (streamFlushWriteQueue w (-ECANCELED))).andThen .destroyShutdown destroyShutdown

/-- `uv__stream_destroy` after a pending connect's callback. -/
def destroyConnected (w : World) : Seg := destroyWrites { w with s.connectReq := none }

/-- `uv__stream_destroy`, up to its first callback; a pending connect's callback
is called whether or not it is NULL. -/
def streamDestroy (w : World) : Seg := do
  check (¬ w.s.pollin ∧ ¬ w.s.pollout)
    "!uv__io_active(&stream->io_watcher, UV__POLLIN | UV__POLLOUT)"
  check w.s.flags.closed "stream->flags & UV_CLOSED"
  match w.s.connectReq with
  | some r =>
    let w := { w with activeReqs := w.activeReqs - 1 }
    if r.cb then pure (w, some (.connect r.id (-ECANCELED), [.destroyConnected]))
    else throw .nullCall
  | none => destroyWrites w

/-! ## Connecting and the stream watcher -/

/-- `uv__stream_connect` after the connect callback: on failure the write queue
is cancelled. -/
def connectAfterCb (w : World) (error : Int) : Seg :=
  if w.s.fd = -1 then pure (w, none)
  else if error < 0 then writeCallbacks (streamFlushWriteQueue w (-ECANCELED))
  else pure (w, none)

/-- The error of the connect in `uv__stream_connect`: the delayed error, or
the value `getsockopt` stores, its answer. -/
def connectError (w : World) : Except Fault (Int × World) :=
  if w.s.delayedError ≠ 0 then pure (w.s.delayedError, { w with s.delayedError := 0 })
  else do
    check (0 ≤ w.s.fd) "uv__stream_fd(stream) >= 0"
    let (a, w) ← w.answer
    pure (-a.ret, w)

/-- `uv__stream_connect` once the connect of `req` finished with `error`, up to
its callback. -/
def connectDone (w : World) (req : ConnectReq) (error : Int) : Seg :=
  let w := { w with s.connectReq := none, activeReqs := w.activeReqs - 1 }
  let w := if error < 0 ∨ w.s.writeQueue = [] then { w with s.pollout := false } else w
  if req.cb then pure (w, some (.connect req.id error, [.connectAfterCb error]))
  else connectAfterCb w error

/-- `uv__stream_connect`, up to its callback. -/
def streamConnect (w : World) : Seg := do
  check (w.s.type = .tcp ∨ w.s.type = .namedPipe)
    "stream->type == UV_TCP || stream->type == UV_NAMED_PIPE"
  let some req := w.s.connectReq | throw (.assertion "req")
  let (error, w) ← connectError w
  if error = -EINPROGRESS then return (w, none)
  connectDone w req error

/-- `uv__stream_io` after the writes: a drained queue lets a shutdown proceed. -/
def ioDrain (w : World) : Seg := if w.s.writeQueue = [] then drain w else pure (w, none)

/-- `uv__stream_io` after the synthesized EOF: the writes and their callbacks. -/
def ioAfterEof (w : World) (ev : Events) : Seg := do
  if w.s.fd = -1 then return (w, none)
  if ev.pollout ∨ ev.pollerr ∨ ev.pollhup then
    let w ← write w
    (writeCallbacks w).andThen .ioDrain ioDrain
  else pure (w, none)

/-- `uv__stream_io` after `uv__read`: a hang-up after a short read is an EOF. -/
def ioAfterRead (w : World) (ev : Events) : Seg :=
  if w.s.fd = -1 then pure (w, none)
  else if ev.pollhup ∧ w.s.flags.reading ∧ w.s.flags.readPartial ∧ ¬ w.s.flags.readEof then
    (streamEof w ⟨0, 0⟩).andThen (.ioAfterEof ev) (ioAfterEof · ev)
  else ioAfterEof w ev

/-- `uv__stream_io`, up to its first callback. -/
def streamIo (w : World) (ev : Events) : Seg := do
  check (w.s.type = .tcp ∨ w.s.type = .namedPipe ∨ w.s.type = .tty)
    "stream->type == UV_TCP || stream->type == UV_NAMED_PIPE || stream->type == UV_TTY"
  check (¬ w.s.flags.closing) "!(stream->flags & UV_CLOSING)"
  if w.s.connectReq.isSome then return ← streamConnect w
  check (0 ≤ w.s.fd) "uv__stream_fd(stream) >= 0"
  if ev.pollin ∨ ev.pollerr ∨ ev.pollhup then
    (read w).andThen (.ioAfterRead ev) (ioAfterRead · ev)
  else ioAfterRead w ev

/-! ## The machine -/

/-- The code of frame `f`, run when the callback it waits for returns; `buf` is
what `alloc_cb` returned, and only `readAfterAlloc` reads it. -/
def resume (w : World) (buf : Buffer) : Frame → Seg
  | .readAfterAlloc count ipc => readAfterAlloc w count ipc buf
  | .readAfterData count ipc short => readAfterData w count ipc short
  | .readAfterError => pure (readAfterError w, none)
  | .eofClear => pure (eofClear w, none)
  | .ioAfterRead ev => ioAfterRead w ev
  | .ioAfterEof ev => ioAfterEof w ev
  | .writeCallbacks => writeCallbacks w
  | .ioDrain => ioDrain w
  | .connectAfterCb error => connectAfterCb w error
  | .serverAfterAccept => serverAfterAccept w
  | .serverAfterError => serverLoop w
  | .destroyConnected => destroyConnected w
  | .destroyShutdown => destroyShutdown w
  | .destroyEnd => destroyEnd w

/-- The machine: the world, and where the loop thread is. -/
structure Machine where
  w : World
  ctl : Ctl
deriving DecidableEq, Repr

/-- The loop thread enters the user's callback `c`, with `k` to resume after it. -/
def World.enter (w : World) (c : Callback) (k : List Frame) : Machine :=
  ⟨w.emit (.call c), .inCallback c k⟩

/-- Where a piece of a dispatch leaves the loop thread: in its callback, or idle. -/
def settle (x : Seg) : Except Fault Machine := do
  match ← x with
  | (w, none) => pure ⟨w, .idle⟩
  | (w, some (c, k)) => pure (w.enter c k)

/-- Resume the frames `k` in turn until one calls back. -/
def resumeAll (buf : Buffer) : List Frame → World → Except Fault Machine
  | [], w => pure ⟨w, .idle⟩
  | f :: k, w => do
    match ← resume w buf f with
    | (w, none) => resumeAll buf k w
    | (w, some (c, fs)) => pure (w.enter c (fs ++ k))

/-- A call the user makes into the stream: `write2` is `uv_write2` (`uv_write`
with no handle) with a callback or NULL, `accept` is `uv_accept` with this
stream as the server, `streamOpen` is `uv__stream_open` as a transport's
`open` makes it (a TTY's may ask for `UV_STREAM_BLOCKING`). -/
inductive Api
  | write2 (bufs : List Buf) (sendHandle : Option Int) (cb : Bool)
  | tryWrite (bufs : List Buf)
  | readStart (allocCb readCb : Bool)
  | readStop
  | shutdown (cb : Bool)
  | close
  | accept (client : Stream)
  | listen (cb : Bool)
  | streamOpen (fd : Int) (readable writable blocking : Bool)
deriving DecidableEq, Repr

/-- What the loop does between callbacks: call the watcher with the polled
events (`uv__server_io` only for `POLLIN` while it is wanted), or finish a close. -/
inductive Dispatch
  | io (ev : Events)
  | finishClose
deriving DecidableEq, Repr

/-- A step: the user calls into the stream, the running callback returns
(`alloc_cb` with a buffer), the loop dispatches, or a transport starts a
connect with the callback `cb` and the error its `connect ()` left. -/
inductive Action
  | api (a : Api)
  | ret (buf : Buffer)
  | dispatch (d : Dispatch)
  | connect (cb : Bool) (delayedError : Int)
deriving DecidableEq, Repr

/-- The stream's part of a call of the user. A transport opens or listens
only on a stream that is not closing. -/
def apiCall (w : World) : Api → Except Fault World
  | .write2 bufs h cb => do
    let (_, w) ← uvWrite2 w bufs h (if cb then .user else .null)
    pure w
  | .tryWrite bufs => do
    let (_, w) ← uvTryWrite w bufs
    pure w
  | .readStart allocCb readCb => do
    let (_, w) ← uvReadStart w allocCb readCb
    pure w
  | .readStop => pure (uvReadStop w)
  | .shutdown cb => do
    let (_, w) ← uvShutdown w cb
    pure w
  | .close => uvClose w
  | .accept c => do
    let (_, _, w) ← uvAccept w c
    pure w
  | .listen cb => do
    if w.s.flags.closing then throw .stuck
    let (_, w) ← uvListen w cb
    pure w
  | .streamOpen fd readable writable blocking => do
    if w.s.flags.closing then throw .stuck
    let (_, s, w) ← streamOpen w w.s fd readable writable blocking
    pure { w with s := s }

/-- The loop's part: it polls only the watchers of open streams that are not
closing. -/
def dispatch (w : World) : Dispatch → Except Fault Machine
  | .io ev =>
    if w.s.flags.closing ∨ w.s.fd < 0 then throw .stuck
    else match w.s.ioCb with
      | .streamIo => settle (streamIo w ev)
      | .serverIo =>
        if ev = ⟨true, false, false, false⟩ ∧ w.s.pollin then settle (serverIo w)
        else throw .stuck
  | .finishClose =>
    if w.s.flags.closing ∧ ¬ w.s.flags.closed then
      settle (streamDestroy { w with s.flags.closed := true })
    else throw .stuck

/-- A transport's connect on the open stream: the request is registered and
`POLLOUT` started; a synchronous error is delayed to the first dispatch. -/
def connect (w : World) (cb : Bool) (delayedError : Int) : Except Fault World :=
  if w.s.connectReq.isNone ∧ 0 ≤ w.s.fd ∧ ¬ w.s.flags.closing ∧ delayedError ≤ 0 then
    pure ({ w with activeReqs := w.activeReqs + 1, nextId := w.nextId + 1,
                   s.connectReq := some ⟨w.nextId, cb⟩, s.delayedError := delayedError,
                   s.pollout := true }.emit (.submitConnect ⟨w.nextId, cb⟩))
  else throw .stuck

/-- One step from `m`, with the answers `env` to the calls it makes. -/
def Machine.step (m : Machine) (act : Action) (env : List Answer) : Except Fault Machine :=
  let w := { m.w with env := env }
  match act, m.ctl with
  | .api a, ctl => (⟨·, ctl⟩) <$> apiCall w a
  | .ret buf, .inCallback _ k => resumeAll buf k w
  | .dispatch d, .idle => dispatch w d
  | .connect cb e, ctl => (⟨·, ctl⟩) <$> connect w cb e
  | _, _ => throw .stuck

/-- Whether the user may call `a` where the loop thread is (`none`: outside
any callback). -/
abbrev User := Option Callback → Api → Prop

/-- The callback the loop thread is in. -/
def Ctl.current : Ctl → Option Callback
  | .idle => none
  | .inCallback c _ => some c

/-- `m'` follows `m` in one step in which the user keeps to `ok`. -/
def Step (ok : User) (m m' : Machine) : Prop :=
  ∃ act env, (∀ a, act = .api a → ok m.ctl.current a) ∧ m.step act env = .ok m'

/-- Every call allowed. -/
def anyUser : User := fun _ _ => True

/-- A machine as `uv__stream_init` leaves it, before anything happened. -/
def Initial (m : Machine) : Prop :=
  ∃ w₀ type ipc, w₀.trace = [] ∧ w₀.nextId = 0 ∧ streamInit type ipc w₀ = .ok m.w ∧
    m.ctl = .idle

/-- The steps `acts` in turn from `m`, each with its answers. -/
def Machine.run (m : Machine) : List (Action × List Answer) → Except Fault Machine
  | [] => pure m
  | (act, env) :: acts => do (← m.step act env).run acts

/-- The machines a run from an initial one reaches, the user keeping to `ok`. -/
def Reachable (ok : User) (m : Machine) : Prop :=
  ∃ m₀, Initial m₀ ∧ Relation.ReflTransGen (Step ok) m₀ m

end UvStream
