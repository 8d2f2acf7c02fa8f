import Mathlib

/-!
# The state of a unix stream handle

The fields of `uv_stream_t` (and of its loop) that `src/unix/stream.c` reads or
writes, the requests it queues, and the world it talks to: the answers of the
system calls and allocations it makes, the user's callbacks, and a trace of what
it did.

A value of the C code is a value here. A buffer of a write request is the bytes
from `base` for `len`; `write_queue` and `write_completed_queue` are lists, head
first; a request is named by a number where the C code uses its address; a
`size_t` counter is an `Int`, so that a subtraction that would wrap shows as a
negative value. Error numbers are Linux's, and the code passes `-errno`.
-/

namespace UvStream

/-! ## Constants -/

def EINTR : Int := 4
def EBADF : Int := 9
def EAGAIN : Int := 11
def EWOULDBLOCK : Int := 11
def ENOMEM : Int := 12
def EBUSY : Int := 16
def EINVAL : Int := 22
def ENFILE : Int := 23
def EMFILE : Int := 24
def ECONNABORTED : Int := 103
def ENOTCONN : Int := 107
def EINPROGRESS : Int := 115
def ECANCELED : Int := 125
def UV_ENOBUFS : Int := -105
def UV_EOF : Int := -4095
def SCM_RIGHTS : Int := 1
def STDERR_FILENO : Int := 2

/-! ## Requests and the stream -/

/-- A `uv_buf_t` of a write request: the `len` bytes at `base`. -/
abbrev Buf := List UInt8

/-- A `uv_buf_t` handed out by `alloc_cb`: its address (0 is NULL) and length. -/
structure Buffer where
  base : Nat
  len : Nat
deriving DecidableEq, Repr

/-- What `req->cb` of a write request points to. -/
inductive WriteCb
  | null
  | user
  /-- `uv_try_write_cb`, which aborts. -/
  | tryWrite
deriving DecidableEq, Repr

/-- A `uv_write_t`. `sendHandle` is `uv__handle_fd (send_handle)`, `none` for a
NULL `send_handle`; `bufs` is `none` once the buffers are freed and set to NULL. -/
structure WriteReq where
  id : Nat
  cb : WriteCb
  error : Int
  sendHandle : Option Int
  bufs : Option (List Buf)
  writeIndex : Nat
deriving DecidableEq, Repr

/-- A `uv_connect_t`; `cb` says whether its callback is non-NULL. -/
structure ConnectReq where
  id : Nat
  cb : Bool
deriving DecidableEq, Repr

/-- A `uv_shutdown_t`; `cb` says whether its callback is non-NULL. -/
structure ShutdownReq where
  id : Nat
  cb : Bool
deriving DecidableEq, Repr

/-- `uv__stream_queued_fds_t`, with `fds` the allocated array. -/
structure QueuedFds where
  size : Nat
  offset : Nat
  fds : List Int
deriving DecidableEq, Repr

/-- The bits of `stream->flags` that the code tests. -/
structure Flags where
  closing : Bool := false
  closed : Bool := false
  reading : Bool := false
  readPartial : Bool := false
  readEof : Bool := false
  shutting : Bool := false
  shut : Bool := false
  readable : Bool := false
  writable : Bool := false
  blocking : Bool := false
  tcpNodelay : Bool := false
  tcpKeepalive : Bool := false
deriving DecidableEq, Repr

inductive HandleType
  | tcp
  | namedPipe
  | tty
  | udp
  | other
deriving DecidableEq, Repr

/-- The function `io_watcher.cb` points to. -/
inductive IoCb
  | streamIo
  | serverIo
deriving DecidableEq, Repr

/-- The poll events the loop hands to the watcher. -/
structure Events where
  pollin : Bool
  pollout : Bool
  pollerr : Bool
  pollhup : Bool
deriving DecidableEq, Repr

/-- The fields of `uv_stream_t` that `stream.c` uses. `pollin` and `pollout`
are the bits of `io_watcher.pevents`; a callback field says whether it is
non-NULL; `ipc` is the `uv_pipe_t` field. -/
structure Stream where
  type : HandleType
  ipc : Bool
  flags : Flags
  fd : Int
  pollin : Bool
  pollout : Bool
  ioCb : IoCb
  readCb : Bool
  allocCb : Bool
  connectionCb : Bool
  connectReq : Option ConnectReq
  shutdownReq : Option ShutdownReq
  acceptedFd : Int
  queuedFds : Option QueuedFds
  delayedError : Int
  writeQueue : List WriteReq
  writeCompletedQueue : List WriteReq
  writeQueueSize : Int
deriving DecidableEq, Repr

/-! ## The world around the stream -/

/-- A call of one of the user's callbacks, with its arguments. -/
inductive Callback
  | alloc
  | read (nread : Int) (buf : Buffer)
  | write (id : Nat) (status : Int)
  | connect (id : Nat) (status : Int)
  | shutdown (id : Nat) (status : Int)
  | connection (status : Int)
deriving DecidableEq, Repr

/-- What the trace records: the callbacks made, the requests started, the
system calls issued on a descriptor with their results (for a write, the bytes
the descriptor took), and a `size_t` subtraction on `write_queue_size` that went
below zero. -/
inductive Event
  | call (c : Callback)
  | submit (req : WriteReq)
  | submitShutdown (req : ShutdownReq)
  | submitConnect (req : ConnectReq)
  | sizeWrap
  | write (fd : Int) (id : Nat) (handle : Option Int) (ret : Int) (bytes : List UInt8)
  | read (fd : Int) (ret : Int)
  | accept (fd : Int) (ret : Int)
  | shutdown (fd : Int) (ret : Int)
  | close (fd : Int)
deriving DecidableEq, Repr

/-- A control message of a `recvmsg`. -/
structure Cmsg where
  type : Int
  fds : List Int
deriving DecidableEq, Repr

/-- The answer of the kernel or the allocator to one call: a return value,
negative on failure, and the control messages a `recvmsg` delivers. -/
structure Answer where
  ret : Int
  cmsgs : List Cmsg
deriving DecidableEq, Repr

/-- Where a dispatch goes on when the user's callback returns: the code after
each callback site, one constructor per site. -/
inductive Frame
  | readAfterAlloc (count : Nat) (ipc : Bool)
  | readAfterData (count : Nat) (ipc : Bool) (short : Bool)
  | readAfterError
  | eofClear
  | ioAfterRead (ev : Events)
  | ioAfterEof (ev : Events)
  | writeCallbacks
  | ioDrain
  | connectAfterCb (error : Int)
  | serverAfterAccept
  | serverAfterError
  | destroyConnected
  | destroyShutdown
  | destroyEnd
deriving DecidableEq, Repr

/-- What the loop thread is doing: nothing of this stream's, or running the
user's callback `c`, with the frames `k` to resume after it (innermost first). -/
inductive Ctl
  | idle
  | inCallback (c : Callback) (k : List Frame)
deriving DecidableEq, Repr

/-- The stream, the fields of its loop that the code uses (`active_reqs.count`,
`emfile_fd`, the platform's `uv__getiovmax ()`), the answers still to come in
the current step, the trace, and the identity of the next request object. -/
structure World where
  s : Stream
  activeReqs : Int
  emfileFd : Int
  iovmax : Nat
  env : List Answer
  trace : List Event
  nextId : Nat
deriving DecidableEq, Repr

/-- How a step can fail: an `assert` of the source, a call through a NULL
callback pointer, `abort ()`, an access outside an allocation, or an
environment that has no answer left for a call (not a run of the program). -/
inductive Fault
  | assertion (expr : String)
  | nullCall
  | abort
  | segv
  | stuck
deriving DecidableEq, Repr

/-- Results of the model compare by their constructor and contents, so that runs
can be checked by evaluation. -/
instance instDecidableEqExcept {ε : Type u} {α : Type v} [DecidableEq ε] [DecidableEq α] :
    DecidableEq (Except ε α)
  | .error a, .error b =>
    if h : a = b then isTrue (h ▸ rfl) else isFalse fun e => h (Except.error.inj e)
  | .ok a, .ok b => if h : a = b then isTrue (h ▸ rfl) else isFalse fun e => h (Except.ok.inj e)
  | .error _, .ok _ => isFalse fun e => Except.noConfusion e
  | .ok _, .error _ => isFalse fun e => Except.noConfusion e

/-! ## Primitives -/

/-- `assert (expr)`. -/
def check (c : Prop) [Decidable c] (expr : String) : Except Fault Unit :=
  if c then pure () else throw (.assertion expr)

/-- Append an event to the trace. -/
def World.emit (w : World) (e : Event) : World := { w with trace := w.trace ++ [e] }

/-- `stream->write_queue_size -= n`; a result below zero, where the `size_t`
would wrap, is recorded. -/
def World.subQueueSize (w : World) (n : Int) : World :=
  { (if w.s.writeQueueSize < n then w.emit .sizeWrap else w) with
    s.writeQueueSize := w.s.writeQueueSize - n }

/-- What running a piece of a dispatch gives: the world, and the callback it
stopped at with the frames to resume after that callback, or `none` if the
piece returned. -/
abbrev Seg := Except Fault (World × Option (Callback × List Frame))

/-- Run the piece `x`; if it returns, go on with `next`, the code of frame `f`;
if it stops at a callback, `f` is resumed after the frames it pushed. -/
def Seg.andThen (x : Seg) (f : Frame) (next : World → Seg) : Seg := do
  match ← x with
  | (w, none) => next w
  | (w, some (c, k)) => pure (w, some (c, k ++ [f]))

/-- The answer to the next call. -/
def World.answer (w : World) : Except Fault (Answer × World) :=
  match w.env with
  | [] => throw .stuck
  | a :: as => pure (a, { w with env := as })

/-- The interrupted attempts of `do … while (n == -1 && errno == EINTR)`. -/
def skipIntr : List Answer → List Answer
  | [] => []
  | a :: as => if a.ret = -EINTR then skipIntr as else a :: as

/-- The answer to a call that the code repeats while it fails with `EINTR`. -/
def World.answerRetry (w : World) : Except Fault (Answer × World) :=
  { w with env := skipIntr w.env }.answer

/-- The stream as `uv__stream_init` leaves it. -/
def Stream.init (type : HandleType) (ipc : Bool) : Stream where
  type := type
  ipc := ipc
  flags := {}
  fd := -1
  pollin := false
  pollout := false
  ioCb := .streamIo
  readCb := false
  allocCb := false
  connectionCb := false
  connectReq := none
  shutdownReq := none
  acceptedFd := -1
  queuedFds := none
  delayedError := 0
  writeQueue := []
  writeCompletedQueue := []
  writeQueueSize := 0

/-- `uv__stream_init`: a fresh stream, and the spare descriptor of the loop
reserved on `/dev/null` (or `/`) if the loop has none. -/
def streamInit (type : HandleType) (ipc : Bool) (w : World) : Except Fault World := do
  let w := { w with s := Stream.init type ipc }
  if w.emfileFd = -1 then
    let (a, w) ← w.answer
    let (a, w) ← if a.ret < 0 then w.answer else pure (a, w)
    pure (if 0 ≤ a.ret then { w with emfileFd := a.ret } else w)
  else pure w

end UvStream
