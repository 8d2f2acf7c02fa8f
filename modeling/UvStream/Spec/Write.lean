import UvStream.Spec.State

/-!
# The write path

`uv__write` (here `write`) and the functions around it, `uv_write2`,
`uv_write`, `uv_try_write`, `uv__drain` and `uv_shutdown`. A public function
`uv_x` of the source is `uvX` here, an internal `uv__x` is `x`.

`write` runs as long as the C function does: its `goto start` rounds are bounded
by the answers the environment has left, each round taking at least one.
-/

namespace UvStream

/-- `uv__count_bufs`. -/
def countBufs (bufs : List Buf) : Nat := (bufs.map List.length).sum

/-- `bufs[write_index..nbufs)`, the buffers a request has still to write. -/
def WriteReq.rest (r : WriteReq) : List Buf := (r.bufs.getD []).drop r.writeIndex

/-- `uv__write_req_size`. -/
def writeReqSize (w : World) (req : WriteReq) : Except Fault Nat := do
  check (req.bufs ≠ none) "req->bufs != NULL"
  let size := countBufs req.rest
  check ((size : Int) ≤ w.s.writeQueueSize) "req->handle->write_queue_size >= size"
  pure size

/-- `uv__write_req_finish` for the head `req` of the write queue, with `rest`
behind it: the buffers are freed if it ended without error, and it moves to the
completed queue. -/
def writeReqFinish (w : World) (req : WriteReq) (rest : List WriteReq) : World :=
  let req := if req.error = 0 then { req with bufs := none } else req
  { w with s.writeQueue := rest, s.writeCompletedQueue := w.s.writeCompletedQueue ++ [req] }

/-- The `while (n >= 0)` loop of `write`'s success branch, over the buffers
`bufs[write_index..nbufs)` and the count `n` of bytes written. It ends with the
buffers still to write, `none` when the request is done. -/
def writeLoop : List Buf → Nat → World → Except Fault (Option (List Buf) × World)
  | [], _, _ => throw (.assertion "req->write_index < req->nbufs")
  | b :: bs, n, w =>
    if n < b.length then pure (some (b.drop n :: bs), w.subQueueSize n)
    else do
      check ((b.length : Int) ≤ w.s.writeQueueSize) "stream->write_queue_size >= len"
      let w := w.subQueueSize b.length
      match bs with
      | [] => do
        check (n - b.length = 0) "n == 0"
        pure (none, w)
      | _ :: _ => writeLoop bs (n - b.length) w

/-- The success branch of `write` for the head request `req`, `rest` behind it,
after `n` bytes were written: the loop, then the request finished or updated to
what it has left. The flag says whether something is left. -/
def writeSucceeded (w : World) (req : WriteReq) (rest : List WriteReq) (n : Nat) :
    Except Fault (World × Bool) := do
  let bufs := req.bufs.getD []
  let iov := bufs.drop req.writeIndex
  let (rem, w) ← writeLoop iov n w
  match rem with
  | none => pure (writeReqFinish w { req with writeIndex := bufs.length } rest, false)
  | some rem =>
    let writeIndex := req.writeIndex + (iov.length - rem.length)
    let req := { req with bufs := some (bufs.take writeIndex ++ rem), writeIndex := writeIndex }
    pure ({ w with s.writeQueue := req :: rest }, true)

/-- What `uv__write` does with the result `n` of its write of the head request
`req`, with `rest` behind it, that was offered the bytes `offered`: from the
`if (n < 0)` to the end of a round. The flag says whether it goes to `start:`
again. -/
def writeResult (w : World) (req : WriteReq) (rest : List WriteReq) (offered : List UInt8)
    (n : Int) : Except Fault (World × Bool) :=
  if n < 0 then
    let w := w.emit (.write w.s.fd req.id req.sendHandle n [])
    if -n ≠ EAGAIN ∧ -n ≠ EWOULDBLOCK then
      pure ({ writeReqFinish w { req with error := n } rest with s.pollout := false }, false)
    else if w.s.flags.blocking then pure (w, true)
    else pure ({ w with s.pollout := true }, false)
  else do
    if (offered.length : Int) < n then throw .stuck
    let w := w.emit (.write w.s.fd req.id req.sendHandle n (offered.take n.toNat))
    let (w, more) ← writeSucceeded w req rest n.toNat
    if !more then pure (w, false)
    else if w.s.flags.blocking then pure (w, true)
    else pure ({ w with s.pollout := true }, false)

/-- One round of `uv__write`, from `start:` up to the next `goto start` (the
flag is `true`) or to the end: the write of the head request, offered its
buffers from `write_index` on, at most `iovmax` of them, with `send_handle`
attached if there is one. -/
def writeRound (w : World) : Except Fault (World × Bool) := do
  check (0 ≤ w.s.fd) "uv__stream_fd(stream) >= 0"
  match w.s.writeQueue with
  | [] => pure (w, false)
  | req :: rest =>
    let some bufs := req.bufs | throw .segv
    let iov := bufs.drop req.writeIndex
    check (req.sendHandle.all (0 ≤ ·)) "fd_to_send >= 0"
    let (a, w) ← w.answerRetry
    writeResult w req rest (iov.take (min iov.length w.iovmax)).flatten a.ret

/-- `uv__write`, for at most `fuel` rounds. -/
def writeFuel : Nat → World → Except Fault World
  | 0, _ => throw .stuck
  | fuel + 1, w => do
    let (w, again) ← writeRound w
    if again then writeFuel fuel w else pure w

/-- `uv__write`. -/
def write (w : World) : Except Fault World := writeFuel (w.env.length + 1) w

/-- `uv__stream_flush_write_queue`: every queued request moves to the completed
queue with `error`. -/
def streamFlushWriteQueue (w : World) (error : Int) : World :=
  { w with s.writeQueue := [],
           s.writeCompletedQueue :=
             w.s.writeCompletedQueue ++ w.s.writeQueue.map fun r => { r with error := error } }

/-- The `if (req->bufs != NULL)` block of `uv__write_callbacks`: the buffers'
bytes leave `write_queue_size` before they are freed. -/
def writeReqRelease (w : World) (req : WriteReq) : Except Fault World :=
  if req.bufs ≠ none then do
    let size ← writeReqSize w req
    pure (w.subQueueSize size)
  else pure w

/-- The loop of `uv__write_callbacks` over the completed queue `q`, up to its
next callback: each request is unregistered and its buffers released. -/
def writeCallbacksFrom : List WriteReq → World → Except Fault (World × Option Callback)
  | [], w => pure (w, none)
  | req :: rest, w => do
    let w ← writeReqRelease { w with s.writeCompletedQueue := rest, activeReqs := w.activeReqs - 1 } req
    match req.cb with
    | .null => writeCallbacksFrom rest w
    | .user => pure (w, some (.write req.id req.error))
    | .tryWrite => throw .abort

/-- `uv__write_callbacks`, up to its next callback. -/
def writeCallbacks (w : World) : Seg := do
  let (w, c) ← writeCallbacksFrom w.s.writeCompletedQueue w
  pure (w, c.map fun c => (c, [.writeCallbacks]))

/-- The allocation of the buffer array of a request in `uv_write2`, which has
room for four in `bufsml`: whether it succeeded. -/
def writeBufsAlloc (w : World) (nbufs : Nat) : Except Fault (Bool × World) :=
  if 4 < nbufs then do
    let (a, w) ← w.answer
    pure (decide (0 ≤ a.ret), w)
  else pure (true, w)

/-- `uv_write2` from the initialisation of the request on: its bytes are counted
in `write_queue_size`, and it is appended to the write queue. -/
def writeReqQueue (w : World) (bufs : List Buf) (sendHandle : Option Int) (cb : WriteCb) : World :=
  let req : WriteReq := ⟨w.nextId, cb, 0, sendHandle, some bufs, 0⟩
  { w with nextId := w.nextId + 1,
           s.writeQueueSize := w.s.writeQueueSize + countBufs bufs,
           s.writeQueue := w.s.writeQueue ++ [req] }.emit (.submit req)

/-- `uv_write2`: the return code and the world after it. -/
def uvWrite2 (w : World) (bufs : List Buf) (sendHandle : Option Int) (cb : WriteCb) :
    Except Fault (Int × World) := do
  check (bufs ≠ []) "nbufs > 0"
  check (w.s.type = .tcp ∨ w.s.type = .namedPipe ∨ w.s.type = .tty)
    "stream->type == UV_TCP || stream->type == UV_NAMED_PIPE || stream->type == UV_TTY"
  if w.s.fd < 0 then return (-EBADF, w)
  if sendHandle.isSome ∧ (w.s.type ≠ .namedPipe ∨ ¬ w.s.ipc) then return (-EINVAL, w)
  if sendHandle.any (· < 0) then return (-EBADF, w)
  let emptyQueue := decide (w.s.writeQueueSize = 0)
  let (ok, w) ← writeBufsAlloc { w with activeReqs := w.activeReqs + 1 } bufs.length
  if !ok then return (-ENOMEM, w)
  let w := writeReqQueue w bufs sendHandle cb
  if w.s.connectReq.isSome then return (0, w)
  if emptyQueue then return (0, ← write w)
  check (¬ w.s.flags.blocking) "!(stream->flags & UV_STREAM_BLOCKING)"
  return (0, { w with s.pollout := true })

/-- `uv_write`. -/
def uvWrite (w : World) (bufs : List Buf) (cb : WriteCb) : Except Fault (Int × World) :=
  uvWrite2 w bufs none cb

/-- The `int` that a `size_t` value converts to, modulo `2 ^ 32`. -/
def toCInt (x : Int) : Int := if x % 2 ^ 32 < 2 ^ 31 then x % 2 ^ 32 else x % 2 ^ 32 - 2 ^ 32

/-- `req_size` in `uv_try_write`: the bytes the request has left, 0 once its
buffers are freed. -/
def tryWriteReqSize (w : World) (req : WriteReq) : Except Fault Nat :=
  if req.bufs ≠ none then writeReqSize w req else pure 0

/-- `uv_try_write`. Its request is the one `uv_write` queued, found again by
its identity on whichever queue `write` left it. -/
def uvTryWrite (w : World) (bufs : List Buf) : Except Fault (Int × World) := do
  if w.s.connectReq.isSome ∨ w.s.writeQueueSize ≠ 0 then return (-EAGAIN, w)
  let hasPollout := w.s.pollout
  let id := w.nextId
  let (r, w) ← uvWrite w bufs .tryWrite
  if r ≠ 0 then return (r, w)
  let some req := (w.s.writeQueue ++ w.s.writeCompletedQueue).find? (·.id = id) | throw .stuck
  let reqSize ← tryWriteReqSize w req
  let written : Int := countBufs bufs - reqSize
  let w := { w.subQueueSize reqSize with
                    s.writeQueue := w.s.writeQueue.filter (·.id ≠ id),
                    s.writeCompletedQueue := w.s.writeCompletedQueue.filter (·.id ≠ id),
                    activeReqs := w.activeReqs - 1 }
  let w := if hasPollout then w else { w with s.pollout := false }
  if written = 0 then return (-EAGAIN, w) else return (toCInt written, w)

/-- `uv__drain`: with the write queue empty, a pending shutdown is carried out
unless the stream is closing or already shut. -/
def drain (w : World) : Seg := do
  check (w.s.writeQueue = []) "QUEUE_EMPTY(&stream->write_queue)"
  let w := { w with s.pollout := false }
  if w.s.flags.shutting ∧ ¬ w.s.flags.closing ∧ ¬ w.s.flags.shut then
    let some req := w.s.shutdownReq | throw (.assertion "stream->shutdown_req")
    let w := { w with s.shutdownReq := none, s.flags.shutting := false,
                      activeReqs := w.activeReqs - 1 }
    let (a, w) ← w.answer
    let w := w.emit (.shutdown w.s.fd a.ret)
    let w := if a.ret = 0 then { w with s.flags.shut := true } else w
    if req.cb then pure (w, some (.shutdown req.id a.ret, [])) else pure (w, none)
  else pure (w, none)

/-- `uv_shutdown`. -/
def uvShutdown (w : World) (cb : Bool) : Except Fault (Int × World) := do
  check (w.s.type = .tcp ∨ w.s.type = .namedPipe)
    "stream->type == UV_TCP || stream->type == UV_NAMED_PIPE"
  let f := w.s.flags
  if ¬ f.writable ∨ f.shut ∨ f.shutting ∨ f.closed ∨ f.closing then return (-ENOTCONN, w)
  check (0 ≤ w.s.fd) "uv__stream_fd(stream) >= 0"
  pure (0, { w with activeReqs := w.activeReqs + 1, nextId := w.nextId + 1,
                    s.shutdownReq := some ⟨w.nextId, cb⟩, s.flags.shutting := true,
                    s.pollout := true }.emit (.submitShutdown ⟨w.nextId, cb⟩))

end UvStream
