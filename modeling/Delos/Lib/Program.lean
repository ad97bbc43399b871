/-!
# Programs over a state that may stop

`Meets allowed x s post` is the judgment of the development: the program `x`
started in `s` either ends in a state that satisfies `post` or stops for a
reason in `allowed`. Every other reason for stopping is excluded by it.
-/
namespace Delos.Lib

abbrev Program (σ ε α : Type) := StateT σ (Except ε) α

section
variable {σ ε α β : Type} {allowed : ε → Prop} {s : σ}

def Meets (allowed : ε → Prop) (x : Program σ ε α) (s : σ) (post : α → σ → Prop) : Prop :=
  match x s with
  | .ok (a, s') => post a s'
  | .error e => allowed e

theorem meets_result {x : Program σ ε α} {post : α → σ → Prop} {a : α} {s' : σ}
    (meets : Meets allowed x s post) (run : x s = .ok (a, s')) : post a s' := by
  rw [Meets, run] at meets
  exact meets

/-- A call whose result is known. -/
theorem run_bind {x : Program σ ε α} {f : α → Program σ ε β} {a : α} {s' : σ}
    (run : x s = .ok (a, s')) : (x >>= f) s = f a s' := by
  have step : (x >>= f) s = (x s >>= fun p => f p.1 p.2) := rfl
  rw [step, run]
  rfl

theorem run_modify (f : σ → σ) (s : σ) : (modify f : Program σ ε PUnit) s = .ok (⟨⟩, f s) := rfl

/-- A sequence that ends is one of runs that end. -/
theorem bind_run {x : Program σ ε α} {f : α → Program σ ε β} {b : β} {s' : σ}
    (run : (x >>= f) s = .ok (b, s')) : ∃ a s1, x s = .ok (a, s1) ∧ f a s1 = .ok (b, s') := by
  have step : (x >>= f) s = (x s >>= fun p => f p.1 p.2) := rfl
  rw [step] at run
  cases first : x s with
  | error e =>
    rw [first] at run
    cases run
  | ok p =>
    rw [first] at run
    exact ⟨p.1, p.2, rfl, run⟩

/-- A call that stops is the last one. -/
theorem run_stop {x : Program σ ε α} {f : α → Program σ ε β} {e : ε} (stops : x s = .error e) :
    (x >>= f) s = .error e := by
  have step : (x >>= f) s = (x s >>= fun p => f p.1 p.2) := rfl
  rw [step, stops]
  rfl

theorem meets_run {x : Program σ ε α} {post : α → σ → Prop} {a : α} {s' : σ}
    (run : x s = .ok (a, s')) (meets : post a s') : Meets allowed x s post := by
  rw [Meets, run]
  exact meets

/-- The judgment moves over a call whose result is known. -/
theorem meets_next {x : Program σ ε α} {f : α → Program σ ε β} {post : β → σ → Prop} {a : α} {s' : σ}
    (run : x s = .ok (a, s')) : Meets allowed (x >>= f) s post ↔ Meets allowed (f a) s' post := by
  unfold Meets
  rw [run_bind run]

theorem meets_mono {x : Program σ ε α} {post post' : α → σ → Prop} (meets : Meets allowed x s post)
    (weaker : ∀ a s', post a s' → post' a s') : Meets allowed x s post' := by
  unfold Meets at meets ⊢
  split
  next a s' run =>
    rw [run] at meets
    exact weaker a s' meets
  next e run =>
    rw [run] at meets
    exact meets

/-- Two postconditions of one run. -/
theorem meets_and {x : Program σ ε α} {post post' : α → σ → Prop} (left : Meets allowed x s post)
    (right : Meets allowed x s post') : Meets allowed x s fun a s' => post a s' ∧ post' a s' := by
  unfold Meets at left right ⊢
  split
  next a s' run =>
    rw [run] at left right
    exact ⟨left, right⟩
  next e run =>
    rw [run] at left
    exact left

/-- The run itself may be used behind it. -/
theorem meets_traced {x : Program σ ε α} {post : α → σ → Prop} (meets : Meets allowed x s post) :
    Meets allowed x s fun a s' => x s = .ok (a, s') ∧ post a s' := by
  unfold Meets at meets ⊢
  split
  next a s' run =>
    rw [run] at meets
    exact ⟨run, meets⟩
  next e run =>
    rw [run] at meets
    exact meets

/-- More reasons to stop may be allowed. -/
theorem meets_allow {allowed' : ε → Prop} {x : Program σ ε α} {post : α → σ → Prop}
    (meets : Meets allowed x s post) (more : ∀ e, allowed e → allowed' e) : Meets allowed' x s post := by
  unfold Meets at meets ⊢
  split
  next a s' run =>
    rw [run] at meets
    exact meets
  next e run =>
    rw [run] at meets
    exact more e meets

/-- With no reason to stop the program ends. -/
theorem meets_ends {x : Program σ ε α} {post : α → σ → Prop} (meets : Meets (fun _ => False) x s post) :
    ∃ a s', x s = .ok (a, s') ∧ post a s' := by
  unfold Meets at meets
  split at meets
  next a s' run => exact ⟨a, s', run, meets⟩
  next e run => exact meets.elim

/-- Nothing is said about the result. -/
theorem meets_any {x : Program σ ε α} : Meets (fun _ => True) x s fun _ _ => True := by
  unfold Meets
  split <;> trivial

/-- Two programs that go on in the same way behind a common call. -/
theorem bind_agree {x : Program σ ε α} {f g : α → Program σ ε β}
    (same : ∀ a s', x s = .ok (a, s') → f a s' = g a s') : (x >>= f) s = (x >>= g) s := by
  have left : (x >>= f) s = (x s >>= fun p => f p.1 p.2) := rfl
  have right : (x >>= g) s = (x s >>= fun p => g p.1 p.2) := rfl
  rw [left, right]
  cases run : x s with
  | error e => rfl
  | ok p => exact same p.1 p.2 run

@[simp] theorem meets_pure {a : α} {post : α → σ → Prop} :
    Meets allowed (pure a : Program σ ε α) s post ↔ post a s := Iff.rfl

theorem meets_bind {x : Program σ ε α} {f : α → Program σ ε β} {post : β → σ → Prop} :
    Meets allowed (x >>= f) s post ↔
      Meets allowed x s fun a s' => Meets allowed (f a) s' post := by
  have step : (x >>= f) s = (x s >>= fun p => f p.1 p.2) := rfl
  unfold Meets
  rw [step]
  cases x s <;> rfl

@[simp] theorem meets_get {post : σ → σ → Prop} :
    Meets allowed (get : Program σ ε σ) s post ↔ post s s := Iff.rfl

@[simp] theorem meets_modify {f : σ → σ} {post : PUnit → σ → Prop} :
    Meets allowed (modify f : Program σ ε PUnit) s post ↔ post ⟨⟩ (f s) := Iff.rfl

@[simp] theorem meets_throw {e : ε} {post : α → σ → Prop} :
    Meets allowed (throw e : Program σ ε α) s post ↔ allowed e := Iff.rfl

/-- The rule used at every call: the specification of the callee, then the rest. -/
theorem meets_call {x : Program σ ε α} {f : α → Program σ ε β} {mid : α → σ → Prop}
    {post : β → σ → Prop} (callee : Meets allowed x s mid)
    (rest : ∀ a s', mid a s' → Meets allowed (f a) s' post) : Meets allowed (x >>= f) s post :=
  meets_bind.mpr (meets_mono callee rest)

end

end Delos.Lib
