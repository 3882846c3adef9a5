import Mathlib.Control.Basic

/-!
# How a call ends

A Rust function of the crate returns a `Result`, and may also panic (an `unwrap`, an `expect`, an
out-of-range slice or a `usize` underflow). `Outcome ε α` is the meaning of such a call: a value,
an `Err`, or a panic with its message. A fourth case, `diverge`, is used only by the fuel-indexed
models of the recursive functions: the recursion did not end within the fuel given. A recursion
that never ends in Rust (a cyclic type graph) diverges for every fuel.

`?` is `bind`: it passes on the three ways of not returning a value.
-/

namespace Roslibrust

/-- The end of a call of a Rust function returning `Result<α, ε>`. -/
inductive Outcome (ε α : Type) where
  /-- `Ok(a)`. -/
  | ok (a : α)
  /-- `Err(e)`. -/
  | err (e : ε)
  /-- A panic, with the panic message. -/
  | panic (msg : String)
  /-- The recursion did not finish within the fuel. -/
  | diverge
  deriving Repr, DecidableEq

namespace Outcome

variable {ε ε' α β γ : Type}

/-- `?`: run `f` on the value, pass on everything else. -/
def bind : Outcome ε α → (α → Outcome ε β) → Outcome ε β
  | ok a, f => f a
  | err e, _ => err e
  | panic m, _ => panic m
  | diverge, _ => diverge

instance : Monad (Outcome ε) where
  pure := ok
  bind := bind

@[simp] theorem pure_eq (a : α) : (pure a : Outcome ε α) = ok a := rfl

@[simp] theorem ok_bind (a : α) (f : α → Outcome ε β) : (ok a >>= f) = f a := rfl

@[simp] theorem err_bind (e : ε) (f : α → Outcome ε β) : (err e >>= f) = err e := rfl

@[simp] theorem panic_bind (m : String) (f : α → Outcome ε β) :
    (panic m >>= f : Outcome ε β) = panic m := rfl

@[simp] theorem diverge_bind (f : α → Outcome ε β) : (diverge >>= f : Outcome ε β) = diverge := rfl

theorem bind_assoc (x : Outcome ε α) (f : α → Outcome ε β) (g : β → Outcome ε γ) :
    (x >>= f >>= g) = x >>= fun a => f a >>= g := by
  cases x <;> rfl

instance : LawfulMonad (Outcome ε) :=
  LawfulMonad.mk' _ (fun x => by cases x <;> rfl) (fun _ _ => rfl) bind_assoc

/-- Inversion of `?` on a value. -/
theorem bind_eq_ok {x : Outcome ε α} {f : α → Outcome ε β} {b : β} :
    (x >>= f) = ok b ↔ ∃ a, x = ok a ∧ f a = ok b := by
  cases x <;> simp

/-- Inversion of `?` on a panic. -/
theorem bind_eq_panic {x : Outcome ε α} {f : α → Outcome ε β} {m : String} :
    (x >>= f) = panic m ↔ x = panic m ∨ ∃ a, x = ok a ∧ f a = panic m := by
  cases x <;> simp

/-- Inversion of `?` on an error. -/
theorem bind_eq_err {x : Outcome ε α} {f : α → Outcome ε β} {e : ε} :
    (x >>= f) = err e ↔ x = err e ∨ ∃ a, x = ok a ∧ f a = err e := by
  cases x <;> simp

/-- `?` ends in `diverge` only if one of its two parts does. -/
theorem bind_eq_diverge {x : Outcome ε α} {f : α → Outcome ε β} :
    (x >>= f) = diverge ↔ x = diverge ∨ ∃ a, x = ok a ∧ f a = diverge := by
  cases x <;> simp

/-- `Option::expect` / `Result::expect`: a value, or a panic with the message. -/
def expect (msg : String) : Outcome ε α → Outcome ε' α
  | ok a => ok a
  | err _ => panic msg
  | panic m => panic m
  | diverge => diverge

/-- `Option::ok_or(e)?`. -/
def okOr (e : ε) : Option α → Outcome ε α
  | some a => ok a
  | none => err e

/-- `Option::unwrap`: panics on `None` with the standard library's message. -/
def unwrap : Option α → Outcome ε α
  | some a => ok a
  | none => panic "called `Option::unwrap()` on a `None` value"

@[simp] theorem okOr_some (e : ε) (a : α) : okOr e (some a) = ok a := rfl
@[simp] theorem okOr_none (e : ε) : (okOr e none : Outcome ε α) = err e := rfl
@[simp] theorem unwrap_some (a : α) : (unwrap (some a) : Outcome ε α) = ok a := rfl

@[simp] theorem okOr_eq_ok {e : ε} {o : Option α} {a : α} : okOr e o = ok a ↔ o = some a := by
  cases o <;> simp [okOr]

/-- The call did not panic. -/
def NoPanic (x : Outcome ε α) : Prop := ∀ m, x ≠ panic m

theorem NoPanic.bind {x : Outcome ε α} {f : α → Outcome ε β} (hx : NoPanic x)
    (hf : ∀ a, x = ok a → NoPanic (f a)) : NoPanic (x >>= f) := by
  intro m h
  rcases bind_eq_panic.mp h with h | ⟨a, ha, h⟩
  · exact hx m h
  · exact hf a ha m h

@[simp] theorem noPanic_ok (a : α) : NoPanic (ok a : Outcome ε α) := fun _ h => by cases h

@[simp] theorem noPanic_err (e : ε) : NoPanic (err e : Outcome ε α) := fun _ h => by cases h

/-! ## Loops

A `for` loop with `?` in its body is a `List.foldlM` in `Outcome`. -/

section Loops

variable {σ : Type} {f g : σ → α → Outcome ε σ}

/-- The run rule of a loop: a property of the elements processed so far and the accumulator,
which every successful step extends, holds at the end of a successful run. -/
theorem foldlM_ok_induction (P : List α → σ → Prop)
    (hstep : ∀ pre x s s', P pre s → f s x = ok s' → P (pre ++ [x]) s') :
    ∀ (pre : List α) {xs : List α} {s r : σ}, P pre s → xs.foldlM f s = ok r → P (pre ++ xs) r
  | _, [], _, _, hs, h => by cases h; simpa using hs
  | pre, x :: _, s, _, hs, h => by
    obtain ⟨s', h1, h2⟩ := bind_eq_ok.mp h
    simpa using foldlM_ok_induction P hstep _ (hstep pre x s s' hs h1) h2

/-- A loop whose every step succeeds, keeping an invariant, succeeds. -/
theorem foldlM_ok_of_step (I : σ → Prop) :
    ∀ {xs : List α} {s : σ}, (∀ s, I s → ∀ x ∈ xs, ∃ s', f s x = ok s' ∧ I s') → I s →
      ∃ r, xs.foldlM f s = ok r ∧ I r
  | [], s, _, hs => ⟨s, rfl, hs⟩
  | x :: _, s, hstep, hs => by
    obtain ⟨s', h1, h2⟩ := hstep s hs x (List.mem_cons_self _ _)
    obtain ⟨r, hr, hI⟩ := foldlM_ok_of_step I
      (fun s hs y hy => hstep s hs y (List.mem_cons_of_mem _ hy)) h2
    exact ⟨r, by rw [List.foldlM_cons, h1, ok_bind, hr], hI⟩

/-- Two loop bodies that agree wherever the first succeeds give the same successful run. -/
theorem foldlM_ok_mono (hfg : ∀ s x s', f s x = ok s' → g s x = ok s') :
    ∀ {xs : List α} {s r : σ}, xs.foldlM f s = ok r → xs.foldlM g s = ok r
  | [], _, _, h => h
  | x :: _, s, _, h => by
    obtain ⟨s', h1, h2⟩ := bind_eq_ok.mp h
    rw [List.foldlM_cons, hfg s x s' h1, ok_bind]
    exact foldlM_ok_mono hfg h2

end Loops

end Outcome

end Roslibrust
