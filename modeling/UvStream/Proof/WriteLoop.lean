import UvStream.Proof.Basic

/-!
# The success branch of `uv__write`

After a `write`, `writev` or `sendmsg` took `n` bytes, the `while (n >= 0)` loop
walks the head request's buffers from `write_index`: a buffer written in full
is passed (`write_index++`), and the first one written in part has its `base`
and `len` moved past the bytes taken.

* `writeLoop_spec`: when `n` is at most the bytes left and `write_queue_size`
  holds them, the loop succeeds, takes exactly `n` off `write_queue_size`, and
  leaves the bytes left with the first `n` removed, starting with a non-empty
  buffer if any are left.
* `writeSucceeded_spec`: the same for the whole branch, with the request then
  finished or updated in place.
* `write_success_bookkeeping`: **the success branch keeps `write_index` inside
  the request, takes exactly `n` bytes off the request and off
  `write_queue_size`, and finishes the request exactly when nothing is left**,
  for every vector of buffers, zero-length ones included, and every split point.
-/

namespace UvStream

variable {w : World}

@[simp] theorem countBufs_nil : countBufs [] = 0 := rfl

@[simp] theorem countBufs_cons (b : Buf) (bs : List Buf) :
    countBufs (b :: bs) = b.length + countBufs bs := by
  simp [countBufs]

theorem countBufs_eq (bufs : List Buf) : countBufs bufs = bufs.flatten.length := by
  simp [countBufs, List.length_flatten]

@[simp] theorem WriteReq.rest_mk {id : Nat} {cb : WriteCb} {error : Int} {h : Option Int}
    {bufs : Option (List Buf)} {i : Nat} :
    WriteReq.rest ⟨id, cb, error, h, bufs, i⟩ = (bufs.getD []).drop i := rfl

@[simp] theorem setQueueSize_setQueueSize (a b : Int) :
    ({ ({ w with s.writeQueueSize := a } : World) with s.writeQueueSize := b } : World) =
      { w with s.writeQueueSize := b } := rfl

/-- **The loop of the success branch** takes exactly `n` bytes off `iov` and
off `write_queue_size`, and never fails. -/
theorem writeLoop_spec {iov : List Buf} {n : Nat} (hne : iov ≠ []) (hn : n ≤ countBufs iov)
    (hq : (countBufs iov : Int) ≤ w.s.writeQueueSize) :
    Spec (writeLoop iov n w) (fun p => p.2 = { w with s.writeQueueSize := w.s.writeQueueSize - n } ∧
      (p.1.getD []).flatten = iov.flatten.drop n ∧
      ∀ r, p.1 = some r → ∃ b bs, r = b :: bs ∧ b ≠ [] ∧ r.length ≤ iov.length) (fun _ => False) := by
  induction iov generalizing n w with
  | nil => exact absurd rfl hne
  | cons b bs ih =>
    rw [countBufs_cons] at hn hq
    by_cases hb : n < b.length
    · simp [writeLoop, hb, subQueueSize_of_le (show (n : Int) ≤ w.s.writeQueueSize by omega),
        List.drop_append_of_le_length hb.le]
    · have h₁ := subQueueSize_of_le (show (b.length : Int) ≤ w.s.writeQueueSize by omega)
      rcases bs with _ | ⟨c, cs⟩
      · -- the last buffer: `n` lands on its end
        obtain rfl : n = b.length := by simp at hn; omega
        simp [writeLoop, h₁, show (b.length : Int) ≤ w.s.writeQueueSize by simpa using hq]
      · have ih' := ih (n := n - b.length) (w := { w with s.writeQueueSize := w.s.writeQueueSize - b.length })
          (by simp) (by omega) (by simp only; omega)
        simp only [writeLoop, hb, if_false, h₁, spec_bind, spec_check]
        refine ⟨fun _ => ih'.imp (fun p hp => ?_) (fun _ => id), fun h => h (by omega)⟩
        obtain ⟨h₂, hflat, hhead⟩ := hp
        refine ⟨?_, ?_, fun r hr => ?_⟩
        · have hs : w.s.writeQueueSize - b.length - ↑(n - b.length) = w.s.writeQueueSize - n := by
            omega
          simp only [h₂, setQueueSize_setQueueSize, hs]
        · rw [hflat]
          conv_rhs => rw [List.flatten_cons, List.drop_append_eq_append_drop,
            List.drop_eq_nil_of_le (by omega), List.nil_append]
        · obtain ⟨b', bs', h, hb', hl⟩ := hhead r hr
          exact ⟨b', bs', h, hb', by simp at hl ⊢; omega⟩

/-- The success branch for a head request `req` with buffers `bufs`: it never
fails, takes `n` off `write_queue_size`, and either finishes `req` with nothing
left or puts it back with the first `n` of its bytes gone. -/
theorem writeSucceeded_spec {req : WriteReq} {rest : List WriteReq} {n : Nat} {bufs : List Buf}
    (hb : req.bufs = some bufs) (hi : req.writeIndex < bufs.length) (hn : n ≤ countBufs req.rest)
    (hq : (countBufs req.rest : Int) ≤ w.s.writeQueueSize) :
    Spec (writeSucceeded w req rest n) (fun p =>
      (p.2 = false ∧ req.rest.flatten.drop n = [] ∧
        p.1 = writeReqFinish { w with s.writeQueueSize := w.s.writeQueueSize - n }
          { req with writeIndex := bufs.length } rest) ∨
      (p.2 = true ∧ ∃ req' : WriteReq,
        p.1 = { w with s.writeQueue := req' :: rest, s.writeQueueSize := w.s.writeQueueSize - n } ∧
        req'.id = req.id ∧ req'.cb = req.cb ∧ req'.error = req.error ∧
        req'.sendHandle = req.sendHandle ∧ (∃ bufs', req'.bufs = some bufs' ∧
          bufs'.length = bufs.length ∧ req'.writeIndex < bufs'.length) ∧
        req'.rest.flatten = req.rest.flatten.drop n ∧ ∃ b bs, req'.rest = b :: bs ∧ b ≠ []))
      (fun _ => False) := by
  have hrest : req.rest = bufs.drop req.writeIndex := by simp [WriteReq.rest, hb]
  rw [hrest] at hn hq ⊢
  unfold writeSucceeded
  simp only [spec_bind, hb, Option.getD_some]
  refine (writeLoop_spec (by simpa using hi) hn hq).imp (fun ⟨rem, w₁⟩ ⟨h₁, hflat, hhead⟩ => ?_)
    (fun _ => id)
  dsimp only at h₁ hflat hhead
  subst h₁
  rcases rem with _ | rem
  · exact .inl ⟨rfl, by simpa using hflat.symm, rfl⟩
  · -- the request keeps `bufs[0..i)`, then what the loop left, with `i` the new `write_index`
    obtain ⟨b, bs, rfl, hb', hl⟩ := hhead _ rfl
    have hwi : req.writeIndex + ((bufs.drop req.writeIndex).length - (b :: bs).length) ≤
        bufs.length := by
      simp at hl ⊢; omega
    have hrem : (bufs.take (req.writeIndex + ((bufs.drop req.writeIndex).length - (b :: bs).length)) ++
        b :: bs).drop (req.writeIndex + ((bufs.drop req.writeIndex).length - (b :: bs).length)) =
        b :: bs := List.drop_left' (by rw [List.length_take]; exact Nat.min_eq_left hwi)
    refine .inr ⟨rfl, _, rfl, rfl, rfl, rfl, rfl, ⟨_, rfl, ?_, ?_⟩, ?_, b, bs, ?_, hb'⟩
    · simp at hl ⊢; omega
    · simp at hl ⊢; omega
    · simp only [WriteReq.rest_mk, Option.getD_some, hrem]; simpa using hflat
    · simp only [WriteReq.rest_mk, Option.getD_some, hrem]

/-- **Partial-write bookkeeping in `uv__write`.** Take a head request with
buffers `bufs`, `write_index < nbufs` and no error, whose bytes
`write_queue_size` counts, and any count `n` up to the bytes of the
`min (nbufs - write_index, iovmax)` buffers offered. The success branch never
fails: it reads no `bufs[nbufs]`, and `n == 0` holds at completion. It takes
exactly `n` off `write_queue_size`. It finishes the request, moved to the
completed queue with error 0, exactly when nothing is left of its bytes after
the first `n`; otherwise the request stays at the head with just those bytes
left, `write_index < nbufs`, and a non-empty buffer at `write_index`. -/
theorem write_success_bookkeeping {req : WriteReq} {rest : List WriteReq} {bufs : List Buf}
    {n : Nat} (hb : req.bufs = some bufs) (hi : req.writeIndex < bufs.length) (he : req.error = 0)
    (hq : (countBufs req.rest : Int) ≤ w.s.writeQueueSize)
    (hn : n ≤ (req.rest.take (min req.rest.length w.iovmax)).flatten.length) :
    Spec (writeSucceeded w req rest n) (fun p =>
      p.1.s.writeQueueSize = w.s.writeQueueSize - n ∧
      (p.2 = false ↔ req.rest.flatten.drop n = []) ∧
      (p.2 = false → p.1.s.writeQueue = rest ∧ p.1.s.writeCompletedQueue =
        w.s.writeCompletedQueue ++ [{ req with writeIndex := bufs.length, bufs := none }]) ∧
      (p.2 = true → ∃ req', p.1.s.writeQueue = req' :: rest ∧
        p.1.s.writeCompletedQueue = w.s.writeCompletedQueue ∧ req'.id = req.id ∧
        (∃ bufs', req'.bufs = some bufs' ∧ bufs'.length = bufs.length ∧
          req'.writeIndex < bufs'.length) ∧
        req'.rest.flatten = req.rest.flatten.drop n ∧ ∃ b bs, req'.rest = b :: bs ∧ b ≠ []))
      (fun _ => False) := by
  have hn' : n ≤ countBufs req.rest := by
    rw [countBufs_eq]
    refine hn.trans ?_
    conv_rhs => rw [← List.take_append_drop (min req.rest.length w.iovmax) req.rest,
      List.flatten_append, List.length_append]
    omega
  refine (writeSucceeded_spec hb hi hn' hq).imp (fun ⟨w', more⟩ hp => ?_) (fun _ => id)
  rcases hp with ⟨rfl, hdrop, rfl⟩ | ⟨rfl, req', rfl, hid, -, -, -, hbufs, hflat, b, bs, hr, hb'⟩
  · simp [writeReqFinish, he, hdrop]
  · refine ⟨rfl, ?_, by simp, fun _ => ⟨req', rfl, rfl, hid, hbufs, hflat, b, bs, hr, hb'⟩⟩
    simp [← hflat, hr, hb']

/-- Two buffers of two and one bytes, with two bytes written: the first buffer
is passed and the request stays with the last byte. -/
theorem write_success_bookkeeping_two_bufs :
    let w : World := ⟨{ Stream.init .tcp false with writeQueueSize := 3 }, 1, 3, 1024, [], [], 1⟩
    let req : WriteReq := ⟨0, .user, 0, none, some [[1, 2], [3]], 0⟩
    (req.bufs = some [[1, 2], [3]] ∧ req.writeIndex < 2 ∧ req.error = 0 ∧
      (countBufs req.rest : Int) ≤ w.s.writeQueueSize ∧
      2 ≤ (req.rest.take (min req.rest.length w.iovmax)).flatten.length) ∧
    Spec (writeSucceeded w req [] 2) (fun p =>
      p.1.s.writeQueueSize = w.s.writeQueueSize - 2 ∧
      (p.2 = false ↔ req.rest.flatten.drop 2 = []) ∧
      (p.2 = false → p.1.s.writeQueue = [] ∧ p.1.s.writeCompletedQueue =
        w.s.writeCompletedQueue ++ [{ req with writeIndex := 2, bufs := none }]) ∧
      (p.2 = true → ∃ req', p.1.s.writeQueue = [req'] ∧
        p.1.s.writeCompletedQueue = w.s.writeCompletedQueue ∧ req'.id = req.id ∧
        (∃ bufs', req'.bufs = some bufs' ∧ bufs'.length = 2 ∧ req'.writeIndex < bufs'.length) ∧
        req'.rest.flatten = req.rest.flatten.drop 2 ∧ ∃ b bs, req'.rest = b :: bs ∧ b ≠ []))
      (fun _ => False) := by
  intro w req
  exact ⟨by decide,
    @write_success_bookkeeping w req [] _ 2 rfl (by decide) rfl (by decide) (by decide)⟩

end UvStream
