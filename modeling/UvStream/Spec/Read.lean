import UvStream.Spec.State

/-!
# The read path

`uv__read` (here `read`) runs from one user callback to the next: a turn of its
loop calls `alloc_cb`, reads into the buffer it got, and reports the result to
`read_cb`. The code after each callback is a `Frame`. Also `uv__stream_eof`,
the descriptor queue of an IPC pipe (`uv__stream_queue_fd`,
`uv__stream_recv_cmsg`), `uv_read_start` and `uv_read_stop`.
-/

namespace UvStream

/-- `uv_read_stop` (it always returns 0). -/
def uvReadStop (w : World) : World :=
  if w.s.flags.reading then
    { w with s.flags.reading := false, s.pollin := false, s.readCb := false, s.allocCb := false }
  else w

/-- `uv_read_start`. -/
def uvReadStart (w : World) (allocCb readCb : Bool) : Except Fault (Int × World) := do
  check (w.s.type = .tcp ∨ w.s.type = .namedPipe ∨ w.s.type = .tty)
    "stream->type == UV_TCP || stream->type == UV_NAMED_PIPE || stream->type == UV_TTY"
  if w.s.flags.closing then return (-EINVAL, w)
  let w := { w with s.flags.reading := true }
  check (0 ≤ w.s.fd) "uv__stream_fd(stream) >= 0"
  check allocCb "alloc_cb"
  pure (0, { w with s.readCb := readCb, s.allocCb := allocCb, s.pollin := true })

/-- A call of `read_cb (stream, nread, buf)`, then the frames `k`. -/
def readCallback (w : World) (nread : Int) (buf : Buffer) (k : List Frame) : Seg :=
  if w.s.readCb then pure (w, some (.read nread buf, k)) else throw .nullCall

/-- `uv__stream_eof` up to its `read_cb`; `eofClear` is the rest. -/
def streamEof (w : World) (buf : Buffer) : Seg :=
  readCallback { w with s.flags.readEof := true, s.pollin := false } UV_EOF buf [.eofClear]

/-- The end of `uv__stream_eof`, after its `read_cb`. -/
def eofClear (w : World) : World := { w with s.flags.reading := false }

/-- Room in `queued_fds` for one more descriptor: allocated with 8 slots, grown
by 8 when full, `none` when the allocation fails. -/
def queuedFdsRoom (w : World) : Except Fault (Option QueuedFds × World) :=
  match w.s.queuedFds with
  | none => do
    let (a, w) ← w.answer
    pure (if a.ret < 0 then none else some ⟨8, 0, List.replicate 8 (-1)⟩, w)
  | some q =>
    if q.size = q.offset then do
      let (a, w) ← w.answer
      pure (if a.ret < 0 then none
        else some { q with size := q.size + 8, fds := q.fds ++ List.replicate 8 (-1) }, w)
    else pure (some q, w)

/-- `uv__stream_queue_fd`. -/
def streamQueueFd (w : World) (fd : Int) : Except Fault (Int × World) := do
  let (q, w) ← queuedFdsRoom w
  let some q := q | return (-ENOMEM, w)
  if q.offset < q.fds.length then
    pure (0, { w with s.queuedFds := some { q with fds := q.fds.set q.offset fd,
                                                   offset := q.offset + 1 } })
  else throw .segv

/-- The loop of `uv__stream_recv_cmsg` over the descriptors `pi[i..count)` of
one `SCM_RIGHTS` message: each becomes `accepted_fd` or is queued; when queueing
fails, it and the rest are closed. -/
def recvFds : List Int → World → Except Fault (Int × World)
  | [], w => pure (0, w)
  | fd :: fds, w => do
    if w.s.acceptedFd ≠ -1 then
      let (err, w) ← streamQueueFd w fd
      if err ≠ 0 then return (err, (fd :: fds).foldl (fun w fd => w.emit (.close fd)) w)
      recvFds fds w
    else recvFds fds { w with s.acceptedFd := fd }

/-- `uv__stream_recv_cmsg`, over the control messages of a `recvmsg`. -/
def streamRecvCmsg : List Cmsg → World → Except Fault (Int × World)
  | [], w => pure (0, w)
  | c :: cs, w => do
    if c.type ≠ SCM_RIGHTS then return ← streamRecvCmsg cs w
    let (err, w) ← recvFds c.fds w
    if err ≠ 0 then return (err, w)
    streamRecvCmsg cs w

/-- The test of `uv__read`'s loop, `read_cb && READING && count-- > 0`, and the
`alloc_cb` call that opens a turn. -/
def readLoop (w : World) (count : Nat) (ipc : Bool) : Seg :=
  if w.s.readCb ∧ w.s.flags.reading ∧ 0 < count then do
    check w.s.allocCb "stream->alloc_cb != NULL"
    pure (w, some (.alloc, [.readAfterAlloc (count - 1) ipc]))
  else pure (w, none)

/-- The turn of `uv__read` after `alloc_cb` returned `buf`: the read (a
`recvmsg` on an IPC pipe) and the `read_cb` call that reports it. -/
def readAfterAlloc (w : World) (count : Nat) (ipc : Bool) (buf : Buffer) : Seg := do
  if buf.len = 0 then return ← readCallback w UV_ENOBUFS buf []
  check (buf.base ≠ 0) "buf.base != NULL"
  check (0 ≤ w.s.fd) "uv__stream_fd(stream) >= 0"
  let (a, w) ← w.answerRetry
  let nread := a.ret
  if (buf.len : Int) < nread then throw .stuck
  let w := w.emit (.read w.s.fd nread)
  if nread < 0 then
    if -nread = EAGAIN ∨ -nread = EWOULDBLOCK then
      readCallback (if w.s.flags.reading then { w with s.pollin := true } else w) 0 buf []
    else readCallback w nread buf [.readAfterError]
  else if nread = 0 then streamEof w buf
  else do
    let (err, w) ← if ipc then streamRecvCmsg a.cmsgs w else pure (0, w)
    if err ≠ 0 then readCallback w err buf []
    else readCallback w nread buf [.readAfterData count ipc (decide (nread < buf.len))]

/-- After `read_cb` reported an error: reading stops unless the callback stopped it. -/
def readAfterError (w : World) : World :=
  if w.s.flags.reading then { w with s.flags.reading := false, s.pollin := false } else w

/-- After `read_cb` reported data: a short read ends `uv__read`, a full one goes
round the loop again. -/
def readAfterData (w : World) (count : Nat) (ipc : Bool) (short : Bool) : Seg :=
  if short then pure ({ w with s.flags.readPartial := true }, none) else readLoop w count ipc

/-- `uv__read`, up to its first callback. -/
def read (w : World) : Seg :=
  readLoop { w with s.flags.readPartial := false } 32 (decide (w.s.type = .namedPipe) && w.s.ipc)

end UvStream
