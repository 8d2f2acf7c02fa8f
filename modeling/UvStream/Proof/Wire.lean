import UvStream.Proof.Accounting

/-!
# Write ordering on the wire

What the stream's descriptor took is the bytes of the `write` events of the
trace (`wire`), and what it took for one request the bytes of that request's
writes (`sentBy`). `uv__write` writes only the head of the write queue, offering
it a prefix of what it has left; a request that leaves the write queue never
comes back; and `uv_try_write` writes only a request alone in the queue. So the
descriptor sees, request after request in the order they were submitted, a
prefix of each one's data.

`WireOk` says so of a write side, together with what makes it inductive: a
queued request sent the part of its data before what it has left, and the
requests submitted after it sent nothing; a request that completed without
error, or was called back with status 0, sent all of its data.

* `WireOk.move`: every move keeps `WireOk`.
* `write_order_on_wire`: **in every reachable machine the bytes on the wire
  are, over the write requests in submission order, a prefix of each one's
  data, and a request called back with status 0 sent all of it.**
* `handle_sent_twice_after_short_write`: every write of a request attaches the
  request's `send_handle`, however many writes the request takes: **after a
  short write, the descriptor is passed a second time**.
-/

namespace UvStream

/-! ## The wire -/

/-- The bytes the descriptor took in `e`. -/
def Event.bytes : Event → List UInt8
  | .write _ _ _ _ b => b
  | _ => []

/-- The bytes the descriptor took in `e` for the request `i`. -/
def Event.sentFor (i : Nat) : Event → List UInt8
  | .write _ j _ _ b => if j = i then b else []
  | _ => []

/-- The write request that `e` submits. -/
def Event.submitted : Event → Option WriteReq
  | .submit r => some r
  | _ => none

/-- The bytes the descriptor took, in order. -/
def wire (l : List Event) : List UInt8 := l.flatMap Event.bytes

/-- The bytes the descriptor took for the request `i`, in order. -/
def sentBy (l : List Event) (i : Nat) : List UInt8 := l.flatMap (Event.sentFor i)

/-- The write requests, in the order they were submitted. -/
def submits (l : List Event) : List WriteReq := l.filterMap Event.submitted

/-- The data of a write request: its buffers, concatenated. -/
def WriteReq.data (r : WriteReq) : List UInt8 := (r.bufs.getD []).flatten

@[simp] theorem wire_nil : wire [] = [] := rfl
@[simp] theorem sentBy_nil (i : Nat) : sentBy [] i = [] := rfl
@[simp] theorem submits_nil : submits [] = [] := rfl

@[simp] theorem wire_append (l l' : List Event) : wire (l ++ l') = wire l ++ wire l' :=
  List.flatMap_append ..

@[simp] theorem sentBy_append (l l' : List Event) (i : Nat) :
    sentBy (l ++ l') i = sentBy l i ++ sentBy l' i :=
  List.flatMap_append ..

@[simp] theorem submits_append (l l' : List Event) : submits (l ++ l') = submits l ++ submits l' :=
  List.filterMap_append ..

@[simp] theorem wire_singleton (e : Event) : wire [e] = e.bytes := List.flatMap_singleton ..

@[simp] theorem sentBy_singleton (e : Event) (i : Nat) : sentBy [e] i = e.sentFor i :=
  List.flatMap_singleton ..

@[simp] theorem submits_singleton (e : Event) : submits [e] = e.submitted.toList := by
  cases e <;> rfl

theorem wire_cons (e : Event) (l : List Event) : wire (e :: l) = e.bytes ++ wire l :=
  List.flatMap_cons ..

theorem sentBy_cons (e : Event) (l : List Event) (i : Nat) :
    sentBy (e :: l) i = e.sentFor i ++ sentBy l i :=
  List.flatMap_cons ..

theorem submits_cons (e : Event) (l : List Event) :
    submits (e :: l) = e.submitted.toList ++ submits l := by
  rw [← List.singleton_append, submits_append, submits_singleton]

@[simp] theorem mem_submits {l : List Event} {r : WriteReq} : r ∈ submits l ↔ .submit r ∈ l := by
  simp only [submits, List.mem_filterMap]
  refine ⟨fun ⟨e, he, h⟩ => ?_, fun h => ⟨_, h, rfl⟩⟩
  cases e <;> simp only [Event.submitted, Option.some.injEq, reduceCtorEq] at h
  exact h ▸ he

theorem sentBy_eq_nil {l : List Event} {i : Nat} (h : ∀ fd hd ret b, .write fd i hd ret b ∉ l) :
    sentBy l i = [] :=
  List.flatMap_eq_nil_iff.2 fun e he => by
    cases e <;> simp only [Event.sentFor, ite_eq_right_iff]
    rintro rfl; exact absurd he (h _ _ _ _)

/-- Two requests of a list with increasing identities that share one are the same. -/
theorem eq_of_id_eq {S : List WriteReq} (hS : (S.map WriteReq.id).Pairwise (· < ·)) {r r' : WriteReq}
    (hr : r ∈ S) (hr' : r' ∈ S) (h : r.id = r'.id) : r = r' :=
  List.inj_on_of_nodup_map hS.nodup hr hr' h

/-- Bytes written for the request `i` land at the end of the wire when the
requests submitted after it sent nothing. -/
theorem flatMap_sentBy_write {S : List WriteReq} {l : List Event} {i : Nat} {e : Event}
    (hS : (S.map WriteReq.id).Pairwise (· < ·)) (hi : ∃ r ∈ S, r.id = i)
    (he : ∀ j, e.sentFor j = if i = j then e.bytes else [])
    (hl : ∀ r ∈ S, i < r.id → sentBy l r.id = []) :
    S.flatMap (fun r => sentBy (l ++ [e]) r.id) = S.flatMap (fun r => sentBy l r.id) ++ e.bytes := by
  induction S with
  | nil => simp at hi
  | cons r S ih =>
    simp only [List.map_cons, List.pairwise_cons, List.mem_map] at hS
    have hS₁ : ∀ r' ∈ S, r.id < r'.id := fun r' h' => hS.1 _ ⟨r', h', rfl⟩
    simp only [List.flatMap_cons, sentBy_append, sentBy_singleton, he]
    by_cases hr : r.id = i
    · subst hr
      have hnil : ∀ r' ∈ S, sentBy l r'.id = [] := fun r' h' => hl r' (.tail _ h') (hS₁ r' h')
      have h₁ : S.flatMap (fun r' => sentBy l r'.id ++ if r.id = r'.id then e.bytes else []) = [] :=
        List.flatMap_eq_nil_iff.2 fun r' h' => by simp [hnil r' h', (hS₁ r' h').ne]
      have h₂ : S.flatMap (fun r' => sentBy l r'.id) = [] := List.flatMap_eq_nil_iff.2 hnil
      simp [h₁, h₂]
    · obtain ⟨r', h', rfl⟩ := hi
      have hS' : r' ∈ S := (List.mem_cons.1 h').resolve_left fun h => hr (h ▸ rfl)
      have := ih hS.2 ⟨r', hS', rfl⟩ fun r h => hl r (.tail _ h)
      simp only [sentBy_append, sentBy_singleton, he] at this
      simp [Ne.symm hr, this]

/-! ## The invariant -/

/-- What holds of the wire along every run. -/
structure WireOk (ws : WriteSide) : Prop where
  ids : ((submits ws.log).map WriteReq.id).Pairwise (· < ·)
  below : ∀ r ∈ submits ws.log, r.id < ws.nextId
  onWire : wire ws.log = (submits ws.log).flatMap (fun r => sentBy ws.log r.id)
  sent : ∀ r ∈ submits ws.log, sentBy ws.log r.id <+: r.data
  queued : ∀ q ∈ ws.queue, ∃ r ∈ submits ws.log, r.id = q.id ∧ r.sendHandle = q.sendHandle ∧
    r.data = sentBy ws.log q.id ++ q.rest.flatten
  later : ∀ q ∈ ws.queue, ∀ r ∈ submits ws.log, q.id < r.id → sentBy ws.log r.id = []
  notCalled : ∀ q ∈ ws.queue, ∀ st, .call (.write q.id st) ∉ ws.log
  done : ∀ c ∈ ws.completed, c.error = 0 → ∀ r ∈ submits ws.log, r.id = c.id →
    sentBy ws.log r.id = r.data
  called : ∀ r ∈ submits ws.log, .call (.write r.id 0) ∈ ws.log → sentBy ws.log r.id = r.data
  writes : ∀ fd i hd ret b, .write fd i hd ret b ∈ ws.log →
    ∃ r ∈ submits ws.log, r.id = i ∧ r.sendHandle = hd
  uncalled : ∀ i st, .call (.write i st) ∈ ws.log → i < ws.nextId

theorem wireOk_initial : WireOk WriteSide.initial := by
  constructor <;> simp [WriteSide.initial]

variable {req r : WriteReq} {q c q' c' : List WriteReq} {z z' : Int} {l : List Event} {n n' : Nat}
  {p p' : Pending}

/-- The completed queue, then the write queue, are in the order of identities. -/
theorem WriteOk.head_id (ok : WriteOk ⟨req :: q, c, z, l, n, p⟩) :
    (∀ c' ∈ c, c'.id < req.id) ∧ ∀ q' ∈ q, req.id < q'.id := by
  have h := ok.order
  simp only [List.map_append, List.map_cons, List.pairwise_append, List.pairwise_cons,
    List.mem_map, List.mem_cons] at h
  exact ⟨fun c' hc => h.2.2 _ ⟨c', hc, rfl⟩ _ (.inl rfl),
    fun q' hq => h.2.1.1 _ ⟨q', hq, rfl⟩⟩

/-- The queues lose requests, and nothing is written. -/
theorem WireOk.shrink (h : WireOk ⟨q, c, z, l, n, p⟩) (hq : q' ⊆ q) (hc : c' ⊆ c) :
    WireOk ⟨q', c', z', l, n, p'⟩ :=
  ⟨h.ids, h.below, h.onWire, h.sent, fun x hx => h.queued x (hq hx), fun x hx => h.later x (hq hx),
    fun x hx => h.notCalled x (hq hx), fun x hx => h.done x (hc hx), h.called, h.writes, h.uncalled⟩

/-- Events that neither write nor submit nor call back a write request, and
identities handed out to other requests. -/
theorem WireOk.quiet {l' : List Event} (h : WireOk ⟨q, c, z, l, n, p⟩) (hn : n ≤ n')
    (hw : ∀ fd i hd ret b, .write fd i hd ret b ∉ l') (hs : submits l' = [])
    (hcall : ∀ i st, .call (.write i st) ∉ l') : WireOk ⟨q, c, z', l ++ l', n', p'⟩ := by
  have hsent : ∀ i, sentBy l' i = [] := fun i => sentBy_eq_nil (hw · i)
  have hwire : wire l' = [] := List.flatMap_eq_nil_iff.2 fun e he => by
    cases e <;> simp only [Event.bytes]; exact absurd he (hw _ _ _ _ _)
  obtain ⟨hids, hbelow, hwi, hsn, hqd, hlt, hnc, hdone, hcd, hwr, hunc⟩ := h
  dsimp only at *
  refine ⟨?_, ?_, ?_, ?_, ?_, ?_, ?_, ?_, ?_, ?_, ?_⟩ <;>
    simp only [submits_append, hs, List.append_nil, sentBy_append, hsent, wire_append, hwire,
      List.mem_append, hcall, or_false, hw]
  · exact hids
  · exact fun r hr => (hbelow r hr).trans_le hn
  · exact hwi
  · exact hsn
  · exact hqd
  · exact hlt
  · exact hnc
  · exact hdone
  · exact hcd
  · exact hwr
  · exact fun i st hi => (hunc i st hi).trans_le hn

/-- `uv_write2` queues a request: it sent nothing yet. -/
theorem WireOk.submit {bufs : List Buf} (h : WireOk ⟨q, c, z, l, n, p⟩)
    (ok : WriteOk ⟨q, c, z, l, n, p⟩) (hid : req.id = n) (hi : req.writeIndex = 0)
    (hb : req.bufs = some bufs) :
    WireOk ⟨q ++ [req], c, z', l ++ [.submit req], n + 1, p⟩ := by
  obtain ⟨hids, hbelow, hwi, hsn, hqd, hlt, hnc, hdone, hcd, hwr, hunc⟩ := h
  dsimp only at *
  subst hid
  have hn : sentBy l req.id = [] := sentBy_eq_nil fun fd hd ret b he => by
    obtain ⟨r, hr, hid, -⟩ := hwr fd _ hd ret b he
    exact (hbelow r hr).ne hid
  have hcn : ∀ st, .call (.write req.id st) ∉ l := fun st hc => (hunc _ st hc).false
  refine ⟨?_, ?_, ?_, ?_, ?_, ?_, ?_, ?_, ?_, ?_, ?_⟩ <;>
    simp only [submits_append, submits_singleton, Event.submitted, Option.toList_some,
      sentBy_append, sentBy_singleton, Event.sentFor, List.append_nil, wire_append, wire_singleton,
      Event.bytes, List.mem_append, List.mem_singleton, reduceCtorEq, or_false, List.flatMap_append,
      List.flatMap_singleton, List.map_append, List.map_singleton, or_imp, forall_and, forall_eq]
  · refine List.pairwise_append.2 ⟨hids, List.pairwise_singleton _ _, fun a ha b hb => ?_⟩
    obtain ⟨r, hr, rfl⟩ := List.mem_map.1 ha
    exact (List.mem_singleton.1 hb) ▸ hbelow r hr
  · exact ⟨fun r hr => (hbelow r hr).trans (Nat.lt_succ_self _), Nat.lt_succ_self _⟩
  · rw [hwi, hn, List.append_nil]
  · exact ⟨hsn, hn ▸ List.nil_prefix⟩
  · refine ⟨fun x hx => ?_, req, .inr rfl, rfl, rfl, by simp [hn, WriteReq.data, WriteReq.rest, hb, hi]⟩
    obtain ⟨r, hr, h⟩ := hqd x hx
    exact ⟨r, .inl hr, h⟩
  · exact ⟨⟨hlt, fun x hx h => absurd ((hbelow x hx).trans h) (lt_irrefl _)⟩, fun _ _ _ => hn,
      fun _ => hn⟩
  · exact ⟨hnc, hcn⟩
  · exact ⟨hdone, fun x hx _ h => absurd h (ok.fresh x (List.mem_append_left _ hx)).ne'⟩
  · exact ⟨hcd, fun h => absurd h (hcn 0)⟩
  · intro fd i hd ret b he
    obtain ⟨r, hr, h⟩ := hwr fd i hd ret b he
    exact ⟨r, .inl hr, h⟩
  · exact fun i st hi => (hunc i st hi).trans (Nat.lt_succ_self _)

/-- A write of the head request `req` that took the first `k` bytes of what it
has left (`k = 0` for a write that failed); `req₁` is the head after it, with
what is left after those bytes. -/
theorem WireOk.headWrite (fd ret : Int) (req₁ : WriteReq) (k : Nat)
    (h : WireOk ⟨req :: q, c, z, l, n, p⟩) (ok : WriteOk ⟨req :: q, c, z, l, n, p⟩)
    (hid : req₁.id = req.id) (hh : req₁.sendHandle = req.sendHandle)
    (hrest : req₁.rest.flatten = req.rest.flatten.drop k) :
    WireOk ⟨req₁ :: q, c, z, l ++ [.write fd req.id req.sendHandle ret (req.rest.flatten.take k)],
      n, p⟩ := by
  obtain ⟨hc, hq⟩ := ok.head_id
  obtain ⟨r₀, hr₀, hid₀, hh₀, hd₀⟩ := h.queued req (.head _)
  obtain ⟨hids, hbelow, hwi, hsn, hqd, hlt, hnc, hdone, hcd, hwr, hunc⟩ := h
  dsimp only at *
  have hs : submits (l ++ [.write fd req.id req.sendHandle ret (req.rest.flatten.take k)]) =
      submits l := by simp [Event.submitted]
  have hsame : ∀ i, i ≠ req.id →
      sentBy (l ++ [.write fd req.id req.sendHandle ret (req.rest.flatten.take k)]) i = sentBy l i :=
    fun i hi => by simp [Event.sentFor, Ne.symm hi]
  have hhead : sentBy (l ++ [.write fd req.id req.sendHandle ret (req.rest.flatten.take k)]) req.id =
      sentBy l req.id ++ req.rest.flatten.take k := by simp [Event.sentFor]
  have hcall : ∀ i st, Event.call (.write i st) ∈
      l ++ [.write fd req.id req.sendHandle ret (req.rest.flatten.take k)] ↔
        .call (.write i st) ∈ l := by simp
  refine ⟨hs ▸ hids, hs ▸ hbelow, ?_, ?_, ?_, ?_, ?_, ?_, ?_, ?_, fun i st hi => hunc i st ((hcall i st).1 hi)⟩
  · rw [hs, wire_append, wire_singleton, @flatMap_sentBy_write _ l req.id
      (.write fd req.id req.sendHandle ret (req.rest.flatten.take k)) hids ⟨r₀, hr₀, hid₀⟩
      (fun _ => rfl) (hlt req (.head _)), hwi]
  · intro r hr
    rw [hs] at hr
    by_cases hri : r.id = req.id
    · obtain rfl := eq_of_id_eq hids hr hr₀ (hri.trans hid₀.symm)
      rw [hri, hhead, hd₀]
      exact (List.prefix_append_right_inj _).2 (List.take_prefix _ _)
    · rw [hsame _ hri]
      exact hsn r hr
  · intro x hx
    rcases List.mem_cons.1 hx with rfl | hx
    · refine ⟨r₀, hs ▸ hr₀, hid₀.trans hid.symm, hh₀.trans hh.symm, ?_⟩
      rw [hid, hhead, hrest, hd₀, List.append_assoc, List.take_append_drop]
    · obtain ⟨r, hr, h₁, h₂, h₃⟩ := hqd x (.tail _ hx)
      exact ⟨r, hs ▸ hr, h₁, h₂, by rw [hsame _ (hq x hx).ne', h₃]⟩
  · intro x hx r hrS hlt'
    rw [hs] at hrS
    rcases List.mem_cons.1 hx with rfl | hx
    · rw [hid] at hlt'
      rw [hsame _ hlt'.ne']
      exact hlt req (.head _) r hrS hlt'
    · rw [hsame _ ((hq x hx).trans hlt').ne']
      exact hlt x (.tail _ hx) r hrS hlt'
  · intro x hx st
    rw [hcall]
    rcases List.mem_cons.1 hx with rfl | hx
    · rw [hid]; exact hnc req (.head _) st
    · exact hnc x (.tail _ hx) st
  · intro x hx he r hr hrx
    rw [hs] at hr
    rw [hsame _ (hrx ▸ (hc x hx).ne)]
    exact hdone x hx he r hr hrx
  · intro r hr hcl
    rw [hs] at hr
    rw [hcall] at hcl
    rw [hsame _ fun h => hnc req (.head _) 0 (h ▸ hcl)]
    exact hcd r hr hcl
  · intro fd' i hd ret' b' he
    rw [hs]
    rcases List.mem_append.1 he with he | he
    · exact hwr _ _ _ _ _ he
    · simp only [List.mem_singleton, Event.write.injEq] at he
      obtain ⟨-, rfl, rfl, -, -⟩ := he
      exact ⟨r₀, hr₀, hid₀, hh₀⟩

/-- The head request leaves the write queue for the completed queue, as `r`;
without error only if nothing is left of it. -/
theorem WireOk.retire (h : WireOk ⟨req :: q, c, z, l, n, p⟩) (hid : r.id = req.id)
    (he : r.error = 0 → req.rest.flatten = []) : WireOk ⟨q, c ++ [r], z', l, n, p'⟩ := by
  obtain ⟨r₀, hr₀, hid₀, -, hd₀⟩ := h.queued req (.head _)
  obtain ⟨hids, hbelow, hwi, hsn, hqd, hlt, hnc, hdone, hcd, hwr, hunc⟩ := h
  refine ⟨hids, hbelow, hwi, hsn, fun x hx => hqd x (.tail _ hx), fun x hx => hlt x (.tail _ hx),
    fun x hx => hnc x (.tail _ hx), ?_, hcd, hwr, hunc⟩
  intro x hx hxe r' hr' hrx
  rcases List.mem_append.1 hx with hx | hx
  · exact hdone x hx hxe r' hr' hrx
  · obtain rfl := List.mem_singleton.1 hx
    obtain rfl := eq_of_id_eq hids hr' hr₀ (hrx.trans (hid.trans hid₀.symm))
    rw [hd₀, he hxe, List.append_nil, hid₀]

/-- `uv__stream_flush_write_queue`: the queued requests complete with an error. -/
theorem WireOk.flush {e : Int} (h : WireOk ⟨q, c, z, l, n, p⟩) (he : e ≠ 0) :
    WireOk ⟨[], c ++ q.map (fun r => { r with error := e }), z', l, n, p'⟩ := by
  obtain ⟨hids, hbelow, hwi, hsn, -, -, -, hdone, hcd, hwr, hunc⟩ := h
  refine ⟨hids, hbelow, hwi, hsn, by simp, by simp, by simp, fun x hx hxe => ?_, hcd, hwr, hunc⟩
  rcases List.mem_append.1 hx with hx | hx
  · exact hdone x hx hxe
  · obtain ⟨r, -, rfl⟩ := List.mem_map.1 hx
    exact absurd hxe he

/-- The head of the completed queue retires with its callback. -/
theorem WireOk.complete (h : WireOk ⟨q, req :: c, z, l, n, p⟩)
    (ok : WriteOk ⟨q, req :: c, z, l, n, p⟩) :
    WireOk ⟨q, c, z', l ++ [.call (.write req.id req.error)], n, p'⟩ := by
  have hqid : ∀ x ∈ q, req.id < x.id := fun x hx =>
    List.rel_of_pairwise_cons ok.order (List.mem_map_of_mem _ (List.mem_append_right _ hx))
  obtain ⟨hids, hbelow, hwi, hsn, hqd, hlt, hnc, hdone, hcd, hwr, hunc⟩ := h
  dsimp only at *
  refine ⟨?_, ?_, ?_, ?_, ?_, ?_, ?_, ?_, ?_, ?_, ?_⟩ <;>
    simp only [submits_append, submits_singleton, Event.submitted, Option.toList_none,
      List.append_nil, sentBy_append, sentBy_singleton, Event.sentFor, wire_append, wire_singleton,
      Event.bytes, List.mem_append, List.mem_singleton, Event.call.injEq, Callback.write.injEq,
      reduceCtorEq, or_false]
  · exact hids
  · exact hbelow
  · exact hwi
  · exact hsn
  · exact hqd
  · exact hlt
  · exact fun x hx st h => h.elim (hnc x hx st) fun h => (hqid x hx).ne' h.1
  · exact fun x hx => hdone x (.tail _ hx)
  · rintro r hr (hc | ⟨hid, he⟩)
    · exact hcd r hr hc
    · exact hdone req (.head _) he.symm r hr hid
  · exact hwr
  · rintro i st (hi | ⟨rfl, -⟩)
    · exact hunc i st hi
    · exact ok.fresh req (.head _)

/-- **Every move keeps `WireOk`.** -/
theorem WireOk.move {a b : WriteSide} (hm : WriteMove a b) (ok : WriteOk a) (h : WireOk a) :
    WireOk b := by
  cases hm with
  | submit req bufs hid _ hi hb _ => exact h.submit ok hid hi hb
  | again => exact h.headWrite _ _ _ 0 ok rfl rfl rfl
  | fail _ _ hret => exact (h.headWrite _ _ _ 0 ok rfl rfl rfl).retire rfl fun he => absurd he hret.ne
  | sendPart req' _ k hid _ _ hh _ hflat _ =>
    exact (h.headWrite _ _ req' k ok hid hh hflat).shrink (List.Subset.refl _) (List.Subset.refl _)
  | @sendAll req q c z l n p fd =>
    have h' := h.headWrite fd req.pending req.finished req.rest.flatten.length ok rfl rfl
      (by simp [WriteReq.finished, WriteReq.rest])
    rw [List.take_length] at h'
    exact h'.retire rfl fun _ => by simp [WriteReq.finished, WriteReq.rest]
  | flush => exact h.flush (by decide)
  | complete => exact h.complete ok
  | completeNull => exact h.shrink (List.Subset.refl _) (List.subset_cons_self _ _)
  | withdraw => exact h.shrink (List.filter_subset' _) (List.filter_subset' _)
  | streamOpen | close | shutdownEnd | connectEnd =>
    exact h.shrink (List.Subset.refl _) (List.Subset.refl _)
  | shutdown | connect => exact h.quiet (Nat.le_succ _) (by simp) (by simp [Event.submitted]) (by simp)
  | shutdownDone s _ | connectDone s _ =>
    exact h.quiet le_rfl (by split <;> simp) (by split <;> simp [Event.submitted])
      (by split <;> simp)
  | shutdownCancel | connectCancel =>
    exact h.quiet le_rfl (by simp) (by simp [Event.submitted]) (by simp)

theorem WireOk.destroy {a : WriteSide} (h : WireOk a) : WireOk a.destroyed :=
  h.shrink (List.Subset.refl _) (List.Subset.refl _)

/-! ## Every run -/

/-- The events outside the requests write nothing and submit nothing. -/
theorem wire_reqLog (t : List Event) : wire (reqLog t) = wire t := by
  induction t with
  | nil => rfl
  | cons e t ih => cases e <;> (try cases ‹Callback›) <;> simp_all [wire_cons, Event.isReq, Event.bytes]

theorem sentBy_reqLog (t : List Event) (i : Nat) : sentBy (reqLog t) i = sentBy t i := by
  induction t with
  | nil => rfl
  | cons e t ih => cases e <;> (try cases ‹Callback›) <;> simp_all [sentBy_cons, Event.isReq, Event.sentFor]

theorem submits_reqLog (t : List Event) : submits (reqLog t) = submits t := by
  induction t with
  | nil => rfl
  | cons e t ih => cases e <;> (try cases ‹Callback›) <;> simp_all [submits_cons, Event.isReq, Event.submitted]

theorem call_write_mem_reqLog {t : List Event} {i : Nat} {st : Int} :
    Event.call (.write i st) ∈ reqLog t ↔ Event.call (.write i st) ∈ t := by
  simp [reqLog, Event.isReq]

theorem wireOk_reachable {ok : User} {m : Machine} (h : Reachable ok m) : WireOk m.w.writes :=
  reachable_writes wireOk_initial (fun _ _ ok hm h => h.move hm ok) (fun _ _ _ h => h.destroy) h

/-- **Write ordering on the wire.** In every reachable machine, the write
requests in submission order have distinct identities; the bytes the
descriptor took are, request after request, the bytes taken for each; those
are a prefix of the request's data; and a request called back with status 0
had all of its data taken. -/
theorem write_order_on_wire {ok : User} {m : Machine} (h : Reachable ok m) :
    ((submits m.w.trace).map WriteReq.id).Pairwise (· < ·) ∧
      wire m.w.trace = (submits m.w.trace).flatMap (fun r => sentBy m.w.trace r.id) ∧
      (∀ r ∈ submits m.w.trace, sentBy m.w.trace r.id <+: r.data) ∧
      ∀ r ∈ submits m.w.trace, Event.call (.write r.id 0) ∈ m.w.trace →
        sentBy m.w.trace r.id = r.data := by
  obtain ⟨hids, -, hwi, hsn, -, -, -, -, hcd, -, -⟩ := wireOk_reachable h
  simp only [writes_log, submits_reqLog, wire_reqLog, sentBy_reqLog, call_write_mem_reqLog]
    at hids hwi hsn hcd
  exact ⟨hids, hwi, hsn, hcd⟩

theorem write_order_after_short_write :
    wire (Machine.after .tcp false shortWrite).w.trace = [1] ∧
      (((submits (Machine.after .tcp false shortWrite).w.trace).map WriteReq.id).Pairwise (· < ·) ∧
      wire (Machine.after .tcp false shortWrite).w.trace =
        (submits (Machine.after .tcp false shortWrite).w.trace).flatMap
          (fun r => sentBy (Machine.after .tcp false shortWrite).w.trace r.id) ∧
      (∀ r ∈ submits (Machine.after .tcp false shortWrite).w.trace,
        sentBy (Machine.after .tcp false shortWrite).w.trace r.id <+: r.data) ∧
      ∀ r ∈ submits (Machine.after .tcp false shortWrite).w.trace,
        Event.call (.write r.id 0) ∈ (Machine.after .tcp false shortWrite).w.trace →
          sentBy (Machine.after .tcp false shortWrite).w.trace r.id = r.data) :=
  ⟨by decide, write_order_on_wire (after_reachable _ _ _)⟩

/-- An IPC pipe on descriptor 7 writes two bytes with the descriptor 5 to pass;
the kernel takes one byte, then the other at the next `POLLOUT`. -/
def shortHandleWrite : List (Action × List Answer) :=
  [(.api (.streamOpen 7 true true false), []), (.api (.write2 [[1, 2]] (some 5) false), [⟨1, []⟩]),
   (.dispatch (.io ⟨false, true, false, false⟩), [⟨1, []⟩])]

/-- Both `sendmsg` calls of the request succeed, and both attach the descriptor. -/
theorem handle_sent_twice_after_short_write :
    (Machine.after .namedPipe true shortHandleWrite).w.trace =
      [.submit ⟨0, .null, 0, some 5, some [[1, 2]], 0⟩, .write 7 0 (some 5) 1 [1],
        .write 7 0 (some 5) 1 [2]] := by
  decide

end UvStream
