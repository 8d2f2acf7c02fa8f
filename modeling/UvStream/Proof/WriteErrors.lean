import UvStream.Proof.ReadSide

/-!
# When a write fails

What the write path leaves behind when it reports an error.

* `uvWrite2_failed`: every error exit of `uv_write2` leaves both write queues,
  `write_queue_size` and the watcher's interest set as they were; the loop's
  count of active requests too, except at `UV_ENOMEM`, which comes after
  `uv__req_init` has registered the request: **the count is one higher**
  (`write_enomem_leaves_request_active`).
* `blocking_write_after_error_asserts`: a failed write on a blocking stream
  completes its request with the error but leaves its bytes in
  `write_queue_size` until its callback runs; **a second `uv_write` before then
  fails the assertion `!(stream->flags & UV_STREAM_BLOCKING)`**.
* `try_write_error_reports_eagain`: `uv_try_write` derives its result from the
  bytes its request has left, and drops `req->error`: **a write that fails with
  `EPIPE` before taking a byte is reported as `UV_EAGAIN`**.
-/

namespace UvStream

variable {w : World}

/-- **Every error exit of `uv_write2`** leaves the queues, `write_queue_size` and
the interest set as they were; the request count is one higher after
`UV_ENOMEM` only. -/
theorem uvWrite2_failed {bufs : List Buf} {h : Option Int} {cb : WriteCb} :
    Spec (uvWrite2 w bufs h cb) (fun p => p.1 ≠ 0 →
      p.2.s.writeQueue = w.s.writeQueue ∧ p.2.s.writeCompletedQueue = w.s.writeCompletedQueue ∧
        p.2.s.writeQueueSize = w.s.writeQueueSize ∧ p.2.s.pollin = w.s.pollin ∧
        p.2.s.pollout = w.s.pollout ∧
        p.2.activeReqs = w.activeReqs + if p.1 = -ENOMEM then 1 else 0) (fun _ => True) := by
  unfold uvWrite2
  simp only [spec_bind, spec_check, spec_ite, spec_pure]
  refine ⟨fun _ => ⟨fun _ => ⟨fun _ => by simp [EBADF, ENOMEM], fun _ => ⟨fun _ _ => by
    simp [EINVAL, ENOMEM], fun _ => ⟨fun _ _ => by simp [EBADF, ENOMEM], fun _ =>
    writeBufsAlloc_spec.imp (fun ⟨good, w₁⟩ h₁ => ?_) (fun _ _ => trivial)⟩⟩⟩, fun _ => trivial⟩,
    fun _ => trivial⟩
  dsimp only at h₁ ⊢
  refine ⟨fun _ _ => by rw [h₁]; simp, fun _ => ⟨fun _ => by simp, fun _ => ⟨fun _ =>
    Spec.of_forall (fun _ => by simp) (fun _ => trivial), fun _ => ⟨fun _ => by simp,
    fun _ => trivial⟩⟩⟩⟩

/-- A TCP stream opened on descriptor 7. -/
def openTcp : List (Action × List Answer) := [(.api (.streamOpen 7 true true false), [])]

/-- `uv_write` of five one-byte buffers on it, more than `bufsml` holds, whose
allocation fails: `uv_write2` returns `UV_ENOMEM`, and the request it registered
with the loop stays registered. -/
theorem write_enomem_leaves_request_active :
    (Machine.after .tcp false openTcp).w.activeReqs = 0 ∧
      (uvWrite2 { (Machine.after .tcp false openTcp).w with env := [⟨-1, []⟩] }
        [[1], [2], [3], [4], [5]] none .user).map (fun p => (p.1, p.2.activeReqs)) =
        .ok (-ENOMEM, 1) := by
  obtain ⟨p, hp, he⟩ : ∃ p, uvWrite2 { (Machine.after .tcp false openTcp).w with env := [⟨-1, []⟩] }
      [[1], [2], [3], [4], [5]] none .user = .ok p ∧ p.1 = -ENOMEM := ⟨_, rfl, rfl⟩
  -- the exit at `UV_ENOMEM` leaves the request counted
  have hreq := (uvWrite2_failed.of_ok hp (by rw [he]; decide)).2.2.2.2.2
  rw [if_pos he] at hreq
  rw [hp]
  exact ⟨rfl, by simp only [Except.map, he, hreq]; rfl⟩

/-- A blocking TCP stream on descriptor 7 (as a TTY's open makes it) writes
three bytes; the `write` fails with `EPIPE`. -/
def blockingWriteError : List (Action × List Answer) :=
  [(.api (.streamOpen 7 true true true), []), (.api (.write2 [[1, 2, 3]] none true), [⟨-32, []⟩])]

/-- The failed request waits on the completed queue with its three bytes still
counted; the next `uv_write`, with no connect pending, takes the branch for a
non-empty queue and fails its assertion. -/
theorem blocking_write_after_error_asserts :
    (Machine.after .tcp false blockingWriteError).w.s.flags.blocking ∧
      (Machine.after .tcp false blockingWriteError).w.s.connectReq = none ∧
      (Machine.after .tcp false blockingWriteError).w.s.writeQueueSize = 3 ∧
      (Machine.after .tcp false blockingWriteError).step (.api (.write2 [[4]] none true)) [] =
        .error (.assertion "!(stream->flags & UV_STREAM_BLOCKING)") := by
  decide

/-- `uv_try_write` of three bytes on the open TCP stream, whose `write` fails
with `EPIPE`: no byte is taken, the failure is on the trace, and the result is
`UV_EAGAIN`. -/
theorem try_write_error_reports_eagain :
    (uvTryWrite { (Machine.after .tcp false openTcp).w with env := [⟨-32, []⟩] } [[1, 2, 3]]).map
      (fun p => (p.1, decide (Event.write 7 0 none (-32) [] ∈ p.2.trace))) = .ok (-EAGAIN, true) := by
  decide

end UvStream
