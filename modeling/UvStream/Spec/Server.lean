import UvStream.Spec.Read

/-!
# Listening and accepting

`uv__server_io` runs from one `connection_cb` to the next. `uv_accept` hands
the pending descriptor `accepted_fd` to a client stream, whose opening is
`uv__stream_open` (here `streamOpen`) on that stream. `uv_listen` leaves the
listening itself to the transport, whose result is an answer of the
environment; when it succeeds, the transport has installed `uv__server_io`
with the user's `connection_cb` and started `POLLIN`.
-/

namespace UvStream

/-- A `setsockopt` made when `made` holds: its result. -/
def sockopt (w : World) (made : Bool) : Except Fault (Int × World) :=
  if made then do
    let (a, w) ← w.answer
    pure (a.ret, w)
  else pure (0, w)

/-- `uv__stream_open` on the stream `c`, with the flags it ORs into the
stream's (`UV_STREAM_READABLE`, `UV_STREAM_WRITABLE`, `UV_STREAM_BLOCKING`):
the return code, the stream after it, and the world. -/
def streamOpen (w : World) (c : Stream) (fd : Int) (readable writable blocking : Bool) :
    Except Fault (Int × Stream × World) := do
  if ¬ (c.fd = -1 ∨ c.fd = fd) then return (-EBUSY, c, w)
  check (0 ≤ fd) "fd >= 0"
  let c := { c with flags.readable := c.flags.readable || readable,
                    flags.writable := c.flags.writable || writable,
                    flags.blocking := c.flags.blocking || blocking }
  let (err, w) ← sockopt w (decide (c.type = .tcp) && c.flags.tcpNodelay)
  if err ≠ 0 then return (err, c, w)
  let (err, w) ← sockopt w (decide (c.type = .tcp) && c.flags.tcpKeepalive)
  if err ≠ 0 then return (err, c, w)
  pure (0, { c with fd := fd }, w)

/-- The `do … while (err >= 0 || err == -EINTR)` loop of `uv__emfile_trick`,
accepting and closing pending connections, for at most `fuel` rounds. -/
def emfileAcceptFuel : Nat → World → Except Fault (Int × World)
  | 0, _ => throw .stuck
  | fuel + 1, w => do
    let (a, w) ← w.answerRetry
    let w := w.emit (.accept w.s.fd a.ret)
    if 0 ≤ a.ret then emfileAcceptFuel fuel (w.emit (.close a.ret))
    else if a.ret = -EINTR then emfileAcceptFuel fuel w
    else pure (a.ret, w)

/-- `uv__emfile_trick`. -/
def emfileTrick (w : World) : Except Fault (Int × World) := do
  if w.emfileFd = -1 then return (-EMFILE, w)
  let w := { w.emit (.close w.emfileFd) with emfileFd := -1 }
  let (err, w) ← emfileAcceptFuel (w.env.length + 1) w
  let (a, w) ← w.answer
  pure (err, if 0 ≤ a.ret then { w with emfileFd := a.ret } else w)

/-- A call of `connection_cb (stream, status)`, then the frames `k`. -/
def connectionCallback (w : World) (status : Int) (k : List Frame) : Seg :=
  if w.s.connectionCb then pure (w, some (.connection status, k)) else throw .nullCall

/-- The loop of `uv__server_io`, up to its next `connection_cb`, for at most
`fuel` turns without one. -/
def serverLoopFuel : Nat → World → Seg
  | 0, _ => throw .stuck
  | fuel + 1, w => do
    if w.s.fd = -1 then return (w, none)
    check (w.s.acceptedFd = -1) "stream->accepted_fd == -1"
    let (a, w) ← w.answerRetry
    let w := w.emit (.accept w.s.fd a.ret)
    let err := a.ret
    if 0 ≤ err then return ← connectionCallback { w with s.acceptedFd := err } 0 [.serverAfterAccept]
    if -err = EAGAIN ∨ -err = EWOULDBLOCK then return (w, none)
    if -err = ECONNABORTED then return ← serverLoopFuel fuel w
    if -err = EMFILE ∨ -err = ENFILE then
      let (err, w) ← emfileTrick w
      if -err = EAGAIN ∨ -err = EWOULDBLOCK then return (w, none)
      connectionCallback w err [.serverAfterError]
    else connectionCallback w err [.serverAfterError]

/-- The loop of `uv__server_io`, up to its next `connection_cb`. -/
def serverLoop (w : World) : Seg := serverLoopFuel (w.env.length + 1) w

/-- After `connection_cb` for a new connection: if the user left it pending,
accepting pauses. -/
def serverAfterAccept (w : World) : Seg :=
  if w.s.acceptedFd ≠ -1 then pure ({ w with s.pollin := false }, none) else serverLoop w

/-- `uv__server_io`, called for `POLLIN`, up to its first callback. -/
def serverIo (w : World) : Seg := do
  check (w.s.acceptedFd = -1) "stream->accepted_fd == -1"
  check (¬ w.s.flags.closing) "!(stream->flags & UV_CLOSING)"
  serverLoop { w with s.pollin := true }

/-- The `switch (client->type)` of `uv_accept`: the client is opened on the
pending descriptor, which is closed if that fails (`uv_udp_open` is an answer of
the environment); `none` for a client type that `uv_accept` refuses. -/
def acceptOpen (w : World) (c : Stream) : Except Fault (Option (Int × Stream × World)) :=
  match c.type with
  | .namedPipe | .tcp => do
    let (err, c, w) ← streamOpen w c w.s.acceptedFd true true false
    pure (some (err, c, if err ≠ 0 then w.emit (.close w.s.acceptedFd) else w))
  | .udp => do
    let (a, w) ← w.answer
    pure (some (a.ret, c, if a.ret ≠ 0 then w.emit (.close w.s.acceptedFd) else w))
  | _ => pure none

/-- `uv_accept` from this stream, the server, into the client `c`: the return
code, the client after it, and the world. -/
def uvAccept (w : World) (c : Stream) : Except Fault (Int × Stream × World) := do
  if w.s.acceptedFd = -1 then return (-EAGAIN, c, w)
  let some (err, c, w) ← acceptOpen w c | return (-EINVAL, c, w)
  match w.s.queuedFds with
  | some q => do
    let some fd := q.fds.head? | throw .segv
    let w := { w with s.acceptedFd := fd }
    check (0 < q.offset) "queued_fds->offset > 0"
    if q.offset - 1 = 0 then pure (err, c, { w with s.queuedFds := none })
    else pure (err, c, { w with s.queuedFds := some { q with
      offset := q.offset - 1, fds := (q.fds.drop 1).take (q.offset - 1) ++ q.fds.drop (q.offset - 1) } })
  | none =>
    let w := { w with s.acceptedFd := -1 }
    pure (err, c, if err = 0 then { w with s.pollin := true } else w)

/-- `uv_listen`, with `cb` the `connection_cb` it installs. -/
def uvListen (w : World) (cb : Bool) : Except Fault (Int × World) := do
  if w.s.type ≠ .tcp ∧ w.s.type ≠ .namedPipe then return (-EINVAL, w)
  let (a, w) ← w.answer
  if a.ret ≠ 0 then return (a.ret, w)
  pure (0, { w with s.connectionCb := cb, s.ioCb := .serverIo, s.pollin := true })

end UvStream
