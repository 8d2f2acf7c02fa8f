import UvStream.Spec.Machine

/-!
# Reading the model's code

The lemmas every proof about the model uses: how a `do` block in `Except`
succeeds, what the primitives `check`, `answer`, `emit` and `subQueueSize` do,
and the induction principle of reachable worlds.

`Spec x Q F` says that `x` returns a value satisfying `Q` or fails with a fault
satisfying `F`. Its `@[simp]` rules follow the shape of a `do` block, so that
`simp` turns a claim about a modelled function into one goal per path through
it, about the values on that path.
-/

namespace UvStream

variable {α β : Type} {w w' : World}

theorem bind_eq_ok {x : Except Fault α} {f : α → Except Fault β} {b : β} :
    x >>= f = .ok b ↔ ∃ a, x = .ok a ∧ f a = .ok b := by
  cases x <;> simp [bind, Except.bind]

theorem bind_eq_error {x : Except Fault α} {f : α → Except Fault β} {e : Fault} :
    x >>= f = .error e ↔ x = .error e ∨ ∃ a, x = .ok a ∧ f a = .error e := by
  cases x <;> simp [bind, Except.bind]

theorem map_eq_ok {f : α → β} {x : Except Fault α} {b : β} :
    f <$> x = .ok b ↔ ∃ a, x = .ok a ∧ f a = b := by
  cases x <;> simp [Functor.map, Except.map]

@[simp] theorem ok_bind {a : α} {f : α → Except Fault β} : (Except.ok a >>= f) = f a := rfl

@[simp] theorem error_bind {e : Fault} {f : α → Except Fault β} :
    (Except.error e >>= f) = .error e := rfl

@[simp] theorem pure_eq_ok {a b : α} : (pure a : Except Fault α) = .ok b ↔ a = b := by
  simp [pure, Except.pure]

@[simp] theorem throw_ne_ok {e : Fault} {b : α} : (throw e : Except Fault α) ≠ .ok b := by
  simp [throw, throwThe, MonadExceptOf.throw, Except.error]

@[simp] theorem check_eq_ok {c : Prop} [Decidable c] {e : String} {u : Unit} :
    check c e = .ok u ↔ c := by
  unfold check; split <;> simp_all [throw, throwThe, MonadExceptOf.throw]

theorem check_eq_error {c : Prop} [Decidable c] {e : String} {f : Fault} :
    check c e = .error f ↔ ¬ c ∧ f = .assertion e := by
  unfold check; split <;> simp_all [throw, throwThe, MonadExceptOf.throw, pure, Except.pure, eq_comm]

/-! ## What a computation does -/

/-- `x` returns a value that satisfies `Q`, or fails with a fault that
satisfies `F`. -/
def Spec (x : Except Fault α) (Q : α → Prop) (F : Fault → Prop) : Prop :=
  match x with
  | .ok a => Q a
  | .error e => F e

variable {x : Except Fault α} {Q : α → Prop} {F : Fault → Prop}

@[simp] theorem spec_pure {a : α} : Spec (pure a) Q F ↔ Q a := Iff.rfl

@[simp] theorem spec_bind {f : α → Except Fault β} {Q : β → Prop} :
    Spec (x >>= f) Q F ↔ Spec x (fun a => Spec (f a) Q F) F := by
  cases x <;> exact Iff.rfl

@[simp] theorem spec_map {f : α → β} {Q : β → Prop} :
    Spec (f <$> x) Q F ↔ Spec x (fun a => Q (f a)) F := by
  cases x <;> exact Iff.rfl

@[simp] theorem spec_throw {e : Fault} : Spec (throw e : Except Fault α) Q F ↔ F e := Iff.rfl

@[simp] theorem spec_check {c : Prop} [Decidable c] {s : String} {Q : Unit → Prop} :
    Spec (check c s) Q F ↔ (c → Q ()) ∧ (¬ c → F (.assertion s)) := by
  unfold check; split <;> simp_all [Spec, throw, throwThe, MonadExceptOf.throw, pure, Except.pure]

@[simp] theorem spec_ite {c : Prop} [Decidable c] {y : Except Fault α} :
    Spec (if c then x else y) Q F ↔ (c → Spec x Q F) ∧ (¬ c → Spec y Q F) := by
  split <;> simp_all

@[simp] theorem spec_answer {Q : Answer × World → Prop} :
    Spec w.answer Q F ↔ (w.env = [] → F .stuck) ∧
      ∀ a as, w.env = a :: as → Q (a, { w with env := as }) := by
  unfold World.answer; split <;> simp_all [Spec, throw, throwThe, MonadExceptOf.throw, pure, Except.pure]

@[simp] theorem spec_answerRetry {Q : Answer × World → Prop} :
    Spec w.answerRetry Q F ↔ (skipIntr w.env = [] → F .stuck) ∧
      ∀ a as, skipIntr w.env = a :: as → Q (a, { w with env := as }) := by
  unfold World.answerRetry; simp

theorem Spec.imp {P : α → Prop} {G : Fault → Prop} (h : Spec x P F) (hq : ∀ a, P a → Q a)
    (hf : ∀ e, F e → G e) : Spec x Q G := by
  cases x with
  | ok a => exact hq a h
  | error e => exact hf e h

theorem Spec.and {P : α → Prop} {G : Fault → Prop} (h : Spec x P F) (h' : Spec x Q G) :
    Spec x (fun a => P a ∧ Q a) (fun e => F e ∧ G e) := by
  cases x <;> exact ⟨h, h'⟩

theorem Spec.of_ok {a : α} (h : Spec x Q F) (hx : x = .ok a) : Q a := by
  subst hx; exact h

theorem Spec.of_error {e : Fault} (h : Spec x Q F) (hx : x = .error e) : F e := by
  subst hx; exact h

/-- A computation that cannot fail returns. -/
theorem Spec.exists_ok (h : Spec x Q (fun _ => False)) : ∃ a, x = .ok a ∧ Q a := by
  cases x with
  | error e => exact h.elim
  | ok a => exact ⟨a, rfl, h⟩

/-- A computation that cannot return fails, and with the one fault it may have. -/
theorem Spec.eq_error {e : Fault} (h : Spec x (fun _ => False) (· = e)) : x = .error e := by
  cases x with
  | ok a => exact h.elim
  | error e' => exact congrArg _ h

theorem Spec.of_eq_ok {a : α} (hx : x = .ok a) (h : Q a) : Spec x Q F := hx ▸ h

/-- The world a piece of a dispatch leaves, with the call of the callback it
stopped at recorded. -/
def Seg.world : World × Option (Callback × List Frame) → World
  | (w, none) => w
  | (w, some (c, _)) => w.emit (.call c)

@[simp] theorem Seg.world_none : Seg.world (w, none) = w := rfl
@[simp] theorem Seg.world_some {c : Callback} {k : List Frame} :
    Seg.world (w, some (c, k)) = w.emit (.call c) := rfl

theorem Seg.world_s (r : World × Option (Callback × List Frame)) : (Seg.world r).s = r.1.s := by
  rcases r with ⟨_, _ | _⟩ <;> rfl

@[simp] theorem spec_andThen {x : Seg} {f : Frame} {next : World → Seg}
    {Q : World × Option (Callback × List Frame) → Prop} :
    Spec (x.andThen f next) Q F ↔ Spec x (fun r => match r with
      | (w, none) => Spec (next w) Q F
      | (w, some (c, k)) => Q (w, some (c, k ++ [f]))) F := by
  unfold Seg.andThen; simp only [spec_bind]
  constructor <;> intro h <;> refine h.imp (fun r hr => ?_) (fun _ => id) <;>
    rcases r with ⟨w, _ | ⟨c, k⟩⟩ <;> simpa using hr

/-! ## The primitives -/

theorem answer_eq_ok {a : Answer} (h : w.answer = .ok (a, w')) :
    w' = { w with env := w'.env } := by
  unfold World.answer at h
  split at h
  · simp at h
  · simp only [pure_eq_ok, Prod.mk.injEq] at h
    obtain ⟨-, rfl⟩ := h; rfl

theorem answerRetry_eq_ok {a : Answer} (h : w.answerRetry = .ok (a, w')) :
    w' = { w with env := w'.env } := by
  unfold World.answerRetry at h
  exact (answer_eq_ok h).trans rfl

@[simp] theorem emit_s (e : Event) : (w.emit e).s = w.s := rfl
@[simp] theorem emit_trace (e : Event) : (w.emit e).trace = w.trace ++ [e] := rfl
@[simp] theorem emit_nextId (e : Event) : (w.emit e).nextId = w.nextId := rfl
@[simp] theorem emit_activeReqs (e : Event) : (w.emit e).activeReqs = w.activeReqs := rfl
@[simp] theorem emit_emfileFd (e : Event) : (w.emit e).emfileFd = w.emfileFd := rfl
@[simp] theorem emit_iovmax (e : Event) : (w.emit e).iovmax = w.iovmax := rfl
@[simp] theorem emit_env (e : Event) : (w.emit e).env = w.env := rfl

/-- Emitting one event per element of a list. -/
@[simp] theorem foldl_emit {γ : Type} (f : γ → Event) (l : List γ) :
    l.foldl (fun w a => w.emit (f a)) w = { w with trace := w.trace ++ l.map f } := by
  induction l generalizing w with
  | nil => simp
  | cons a l ih => rw [List.foldl_cons, ih]; simp [World.emit]

/-- Below its value, a subtraction on `write_queue_size` is a plain update. -/
theorem subQueueSize_of_le {n : Int} (h : n ≤ w.s.writeQueueSize) :
    w.subQueueSize n = { w with s.writeQueueSize := w.s.writeQueueSize - n } := by
  simp [World.subQueueSize, show ¬ w.s.writeQueueSize < n by omega]

/-! ## Runs -/

variable {ok : User} {m m' : Machine}

theorem Reachable.tail (h : Reachable ok m) (hs : Step ok m m') : Reachable ok m' :=
  let ⟨m₀, h₀, hrun⟩ := h
  ⟨m₀, h₀, hrun.tail hs⟩

/-- A scripted run is a sequence of steps in which the user keeps to `ok` if
every call it makes is one `ok` allows anywhere. -/
theorem Machine.run_steps_of (acts : List (Action × List Answer)) (hr : m.run acts = .ok m')
    (hok : ∀ p ∈ acts, ∀ a, p.1 = .api a → ∀ c, ok c a) : Relation.ReflTransGen (Step ok) m m' := by
  induction acts generalizing m with
  | nil => cases hr; exact .refl
  | cons p acts ih =>
    obtain ⟨m₁, h₁, hr⟩ := bind_eq_ok.1 hr
    exact .head ⟨p.1, p.2, fun a ha => hok p (.head _) a ha _, h₁⟩
      (ih hr fun q hq => hok q (.tail _ hq))

/-- A scripted run is a sequence of steps in which anyone may make the calls. -/
theorem Machine.run_steps (acts : List (Action × List Answer)) (hr : m.run acts = .ok m') :
    Relation.ReflTransGen (Step anyUser) m m' :=
  Machine.run_steps_of acts hr fun _ _ _ _ _ => trivial

/-- A scripted run of calls anyone may make stays among the reachable machines. -/
theorem Reachable.run {acts : List (Action × List Answer)}
    (h : Reachable anyUser m) (hr : m.run acts = .ok m') : Reachable anyUser m' :=
  let ⟨m₀, h₀, hrun⟩ := h
  ⟨m₀, h₀, hrun.trans (Machine.run_steps acts hr)⟩

/-- The machine `uv__stream_init` leaves on a loop that holds its spare
descriptor already, with no answer pending. -/
def Machine.initial (type : HandleType) (ipc : Bool) : Machine :=
  ⟨⟨Stream.init type ipc, 0, 3, 1024, [], [], 0⟩, .idle⟩

theorem initial_reachable (type : HandleType) (ipc : Bool) :
    Reachable ok (Machine.initial type ipc) :=
  ⟨Machine.initial type ipc, ⟨(Machine.initial type ipc).w, type, ipc, rfl, rfl, rfl, rfl⟩, .refl⟩

/-- The machine a scripted run from `Machine.initial` reaches, or the initial
machine if the run fails. -/
def Machine.after (type : HandleType) (ipc : Bool) (acts : List (Action × List Answer)) :
    Machine :=
  match (Machine.initial type ipc).run acts with
  | .ok m => m
  | .error _ => Machine.initial type ipc

theorem after_reachable (type : HandleType) (ipc : Bool) (acts : List (Action × List Answer)) :
    Reachable anyUser (Machine.after type ipc acts) := by
  unfold Machine.after
  split
  · exact (initial_reachable type ipc).run ‹_›
  · exact initial_reachable type ipc

/-- **Induction over runs**: what holds initially and is kept by every step
holds in every reachable machine. -/
theorem Reachable.induction {P : Machine → Prop} (init : ∀ m, Initial m → P m)
    (step : ∀ m m', Step ok m m' → P m → P m') (h : Reachable ok m) : P m := by
  obtain ⟨m₀, h₀, hrun⟩ := h
  induction hrun with
  | refl => exact init _ h₀
  | tail _ hs ih => exact step _ _ hs ih

end UvStream
