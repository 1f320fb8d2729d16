import Mathlib.Logic.Function.Basic
/-!
# Programs that talk to an outside

A controller is a sequential program whose every effect is a call to something it does not own:
an API server, a store, a remote service. `Prog C A ε α` is such a program as a tree. A node is
one call `c : C` with a continuation for every answer `A c` the outside may give, and a leaf is
either a value or an error. Nothing here says what the outside does; that is `FluidBG.Lib.System`.

Keeping the calls as nodes is what makes "the process may stop between any two calls" a statement
about the program: the places where it may stop are exactly the nodes.
-/

set_option autoImplicit false

namespace FluidBG.Lib

/-- A computation of two steps succeeds when both do. -/
theorem bind_eq_ok {ε α β : Type} {x : Except ε α} {f : α → Except ε β} {b : β} :
    x >>= f = .ok b ↔ ∃ a, x = .ok a ∧ f a = .ok b := by
  cases x with
  | ok a => simp [bind, Except.bind]
  | error e => simp [bind, Except.bind]

/-- It fails when its first step does, or its second one. -/
theorem bind_eq_error {ε α β : Type} {x : Except ε α} {f : α → Except ε β} {e : ε} :
    x >>= f = .error e ↔ x = .error e ∨ ∃ a, x = .ok a ∧ f a = .error e := by
  cases x with
  | ok a => simp [bind, Except.bind]
  | error e => simp [bind, Except.bind]

/-- Renaming the error leaves a success alone. -/
theorem mapError_eq_ok {ε δ α : Type} {f : ε → δ} {x : Except ε α} {a : α} :
    x.mapError f = .ok a ↔ x = .ok a := by
  cases x with
  | ok b =>
    show Except.ok b = Except.ok a ↔ _
    simp
  | error e =>
    show Except.error (f e) = Except.ok a ↔ _
    simp

/-- A program over calls `C` with answers `A`, which ends with a value of `α` or an error of `ε`. -/
inductive Prog (C : Type) (A : C → Type) (ε α : Type) where
  /-- The program has ended with a value. -/
  | pure (a : α)
  /-- The program has ended with an error. -/
  | fail (e : ε)
  /-- The program makes the call `c` and goes on with its answer. -/
  | call (c : C) (k : A c → Prog C A ε α)

namespace Prog

variable {C : Type} {A : C → Type} {ε δ α β γ : Type}

/-- Run `p`, then `f` on its value. An error of `p` ends the whole. -/
def bind : Prog C A ε α → (α → Prog C A ε β) → Prog C A ε β
  | pure a, f => f a
  | fail e, _ => fail e
  | call c k, f => call c fun a => (k a).bind f

instance : Monad (Prog C A ε) where
  pure := Prog.pure
  bind := Prog.bind

/-- One call, returning its answer. -/
def ask (c : C) : Prog C A ε (A c) :=
  call c pure

/-- Run `p` and hand its outcome to the caller as a value: the `match` on a result that the
program itself inspects. -/
def result : Prog C A ε α → Prog C A δ (Except ε α)
  | pure a => pure (.ok a)
  | fail e => pure (.error e)
  | call c k => call c fun a => (k a).result

/-- Turn a computed outcome back into control flow: the `?` operator on a plain result. -/
def ofExcept : Except ε α → Prog C A ε α
  | .ok a => pure a
  | .error e => fail e

/-- A `for` loop whose body has no value. -/
def forEach (xs : List α) (body : α → Prog C A ε Unit) : Prog C A ε Unit :=
  match xs with
  | [] => pure ()
  | x :: xs => (body x).bind fun _ => forEach xs body

/-- A `for` loop that carries an accumulator. -/
def foldEach (xs : List α) (acc : β) (body : β → α → Prog C A ε β) : Prog C A ε β :=
  match xs with
  | [] => pure acc
  | x :: xs => (body acc x).bind fun acc => foldEach xs acc body

/-- A loop that tries at most `n` times, and ends as soon as the body returns a value. -/
def retry (n : Nat) (body : Nat → Prog C A ε (Option α)) (out : Prog C A ε α) : Prog C A ε α :=
  go n 0
where
  go : Nat → Nat → Prog C A ε α
    | 0, _ => out
    | n + 1, i => (body i).bind fun
      | some a => pure a
      | none => go n (i + 1)

/-- The program, with its calls made as calls of another kind. -/
def lift {C' : Type} {A' : C' → Type} (f : C → C') (g : ∀ c, A' (f c) → A c) :
    Prog C A ε α → Prog C' A' ε α
  | pure a => pure a
  | fail e => fail e
  | call c k => call (f c) fun a => (k (g c a)).lift f g

/-! ## The monad laws -/

@[simp] theorem pure_def (a : α) : (Pure.pure a : Prog C A ε α) = .pure a := rfl

@[simp] theorem bind_def (p : Prog C A ε α) (f : α → Prog C A ε β) : (p >>= f) = p.bind f := rfl

@[simp] theorem pure_bind (a : α) (f : α → Prog C A ε β) : (pure a).bind f = f a := rfl

@[simp] theorem fail_bind (e : ε) (f : α → Prog C A ε β) : (fail e).bind f = fail e := rfl

@[simp] theorem call_bind (c : C) (k : A c → Prog C A ε α) (f : α → Prog C A ε β) :
    (call c k).bind f = call c fun a => (k a).bind f := rfl

@[simp] theorem bind_pure (p : Prog C A ε α) : p.bind pure = p := by
  induction p with
  | pure a => rfl
  | fail e => rfl
  | call c k ih => simp only [call_bind, ih]

theorem bind_assoc (p : Prog C A ε α) (f : α → Prog C A ε β) (g : β → Prog C A ε γ) :
    (p.bind f).bind g = p.bind fun a => (f a).bind g := by
  induction p with
  | pure a => rfl
  | fail e => rfl
  | call c k ih => simp only [call_bind, ih]

theorem lift_bind {C' : Type} {A' : C' → Type} (f : C → C') (g : ∀ c, A' (f c) → A c)
    (p : Prog C A ε α) (q : α → Prog C A ε β) :
    (p.bind q).lift f g = (p.lift f g).bind fun a => (q a).lift f g := by
  induction p with
  | pure a => rfl
  | fail e => rfl
  | call c k ih => simp only [call_bind, lift, ih]

instance : LawfulMonad (Prog C A ε) :=
  LawfulMonad.mk' (Prog C A ε) (fun p => bind_pure p) (fun _ _ => rfl) bind_assoc

/-! ## The calls a program can make -/

/-- Every call of the program, along every sequence of answers, is in `F`. -/
def Calls (F : C → Prop) : Prog C A ε α → Prop
  | pure _ => True
  | fail _ => True
  | call c k => F c ∧ ∀ a, (k a).Calls F

/-- Some sequence of answers leads the program to this call. -/
def Makes : Prog C A ε α → C → Prop
  | pure _, _ => False
  | fail _, _ => False
  | call c k, d => c = d ∨ ∃ a, (k a).Makes d

namespace Calls

variable {F G : C → Prop}

theorem of_makes {p : Prog C A ε α} {c : C} (hp : p.Calls F) (h : p.Makes c) : F c := by
  induction p with
  | pure a => exact h.elim
  | fail e => exact h.elim
  | call d k ih =>
    rcases h with heq | ⟨a, ha⟩
    · rw [← heq]
      exact hp.1
    · exact ih a (hp.2 a) ha

@[simp] theorem of_pure (a : α) : (pure a : Prog C A ε α).Calls F := trivial

@[simp] theorem of_fail (e : ε) : (fail e : Prog C A ε α).Calls F := trivial

theorem of_call {c : C} {k : A c → Prog C A ε α} (hc : F c) (hk : ∀ a, (k a).Calls F) :
    (call c k).Calls F :=
  ⟨hc, hk⟩

@[simp] theorem of_ask {c : C} : (ask c : Prog C A ε (A c)).Calls F ↔ F c := by
  simp [ask, Calls]

theorem bind {p : Prog C A ε α} {f : α → Prog C A ε β} (hp : p.Calls F)
    (hf : ∀ a, (f a).Calls F) : (p.bind f).Calls F := by
  induction p with
  | pure a => exact hf a
  | fail e => trivial
  | call c k ih => exact ⟨hp.1, fun a => ih a (hp.2 a)⟩

theorem result {p : Prog C A ε α} (hp : p.Calls F) : (p.result : Prog C A δ _).Calls F := by
  induction p with
  | pure a => trivial
  | fail e => trivial
  | call c k ih => exact ⟨hp.1, fun a => ih a (hp.2 a)⟩

@[simp] theorem of_ofExcept (r : Except ε α) : (ofExcept r : Prog C A ε α).Calls F := by
  cases r <;> trivial

theorem forEach {xs : List α} {body : α → Prog C A ε Unit}
    (h : ∀ x ∈ xs, (body x).Calls F) : (Prog.forEach xs body).Calls F := by
  induction xs with
  | nil => trivial
  | cons x xs ih =>
    exact (h x (by simp)).bind fun _ => ih fun y hy => h y (by simp [hy])

theorem foldEach {xs : List α} {acc : β} {body : β → α → Prog C A ε β}
    (h : ∀ b, ∀ x ∈ xs, (body b x).Calls F) : (Prog.foldEach xs acc body).Calls F := by
  induction xs generalizing acc with
  | nil => trivial
  | cons x xs ih =>
    exact (h acc x (by simp)).bind fun _ => ih fun b y hy => h b y (by simp [hy])

theorem retry {n : Nat} {body : Nat → Prog C A ε (Option α)} {out : Prog C A ε α}
    (h : ∀ i, (body i).Calls F) (ho : out.Calls F) : (Prog.retry n body out).Calls F := by
  suffices ∀ n i, (Prog.retry.go body out n i).Calls F from this n 0
  intro n
  induction n with
  | zero => intro i; exact ho
  | succ n ih =>
    intro i
    refine (h i).bind fun o => ?_
    cases o with
    | none => exact ih (i + 1)
    | some a => trivial

theorem mono {p : Prog C A ε α} (h : ∀ c, F c → G c) (hp : p.Calls F) : p.Calls G := by
  induction p with
  | pure a => trivial
  | fail e => trivial
  | call c k ih => exact ⟨h c hp.1, fun a => ih a (hp.2 a)⟩

theorem any (p : Prog C A ε α) : p.Calls fun _ => True := by
  induction p with
  | pure a => trivial
  | fail e => trivial
  | call c k ih => exact ⟨trivial, ih⟩

/-- The calls of a lifted program are those of the program. -/
theorem lift {C' : Type} {A' : C' → Type} {F' : C' → Prop} {f : C → C'}
    {g : ∀ c, A' (f c) → A c} {p : Prog C A ε α} (hp : p.Calls fun c => F' (f c)) :
    (p.lift f g).Calls F' := by
  induction p with
  | pure a => trivial
  | fail e => trivial
  | call c k ih => exact ⟨hp.1, fun a => ih (g c a) (hp.2 (g c a))⟩

end Calls

/-! ## The values a program can return -/

/-- Every value the program may end with, along every sequence of answers, is in `V`. -/
def Returns (V : α → Prop) : Prog C A ε α → Prop
  | pure a => V a
  | fail _ => True
  | call _ k => ∀ a, (k a).Returns V

namespace Returns

variable {V : α → Prop} {W : β → Prop}

theorem bind {p : Prog C A ε α} {f : α → Prog C A ε β} (hp : p.Returns V)
    (hf : ∀ a, V a → (f a).Returns W) : (p.bind f).Returns W := by
  induction p with
  | pure a => exact hf a hp
  | fail e => trivial
  | call c k ih => exact fun a => ih a (hp a)

/-- The continuation alone decides. -/
theorem of_bind {p : Prog C A ε α} {f : α → Prog C A ε β} (hf : ∀ a, (f a).Returns W) :
    (p.bind f).Returns W := by
  induction p with
  | pure a => exact hf a
  | fail e => trivial
  | call c k ih => exact ih

theorem result {p : Prog C A ε α} (hp : p.Returns V) :
    (p.result : Prog C A δ _).Returns fun r => ∀ a, r = .ok a → V a := by
  induction p with
  | pure a => intro a' h; cases h; exact hp
  | fail e => intro a' h; simp at h
  | call c k ih => exact fun a => ih a (hp a)

theorem mono {V' : α → Prop} {p : Prog C A ε α} (hp : p.Returns V) (h : ∀ a, V a → V' a) :
    p.Returns V' := by
  induction p with
  | pure a => exact h a hp
  | fail e => trivial
  | call c k ih => exact fun a => ih a (hp a)

/-- A loop with an accumulator, for an assertion about the part of the list that is done. -/
theorem foldEachDone {P : List α → β → Prop} {xs : List α} {acc : β}
    {body : β → α → Prog C A ε β} (h₀ : P [] acc)
    (h : ∀ done x rest, xs = done ++ x :: rest → ∀ b, P done b →
      (body b x).Returns (P (done ++ [x]))) : (Prog.foldEach xs acc body).Returns (P xs) := by
  suffices ∀ rest done b, xs = done ++ rest → P done b →
      (Prog.foldEach rest b body).Returns (P xs) from this xs [] acc rfl h₀
  intro rest
  induction rest with
  | nil =>
    intro done b hxs hb
    rw [hxs, List.append_nil]
    exact hb
  | cons x rest ih =>
    intro done b hxs hb
    refine (h done x rest hxs b hb).bind fun b hb => ih (done ++ [x]) b ?_ hb
    rw [hxs, List.append_assoc]
    rfl

/-- The second program is only asked about values the first one may return. -/
theorem calls_bind {F : C → Prop} {p : Prog C A ε α} {f : α → Prog C A ε β} (hv : p.Returns V)
    (hp : p.Calls F) (hf : ∀ a, V a → (f a).Calls F) : (p.bind f).Calls F := by
  induction p with
  | pure a => exact hf a hv
  | fail e => trivial
  | call c k ih => exact ⟨hp.1, fun a => ih a (hv a) (hp.2 a)⟩

end Returns

/-! ## The errors a program can end with -/

/-- Every error the program may end with, along every sequence of answers, is in `V`. -/
def Errors (V : ε → Prop) : Prog C A ε α → Prop
  | pure _ => True
  | fail e => V e
  | call _ k => ∀ a, (k a).Errors V

/-- Once the program has made a call of `T`, every error it may end with is in `V`. -/
def ErrorsAfter (T : C → Prop) (V : ε → Prop) : Prog C A ε α → Prop
  | pure _ => True
  | fail _ => True
  | call c k => (T c → ∀ a, (k a).Errors V) ∧ ∀ a, (k a).ErrorsAfter T V

namespace Errors

variable {V : ε → Prop}

theorem bind {p : Prog C A ε α} {f : α → Prog C A ε β} (hp : p.Errors V)
    (hf : ∀ a, (f a).Errors V) : (p.bind f).Errors V := by
  induction p with
  | pure a => exact hf a
  | fail e => exact hp
  | call c k ih => exact fun a => ih a (hp a)

theorem ask {c : C} : (ask c : Prog C A ε (A c)).Errors V := fun _ => trivial

theorem of_ofExcept {r : Except ε α} (h : ∀ e, r = .error e → V e) :
    (ofExcept r : Prog C A ε α).Errors V := by
  cases r with
  | ok a => trivial
  | error e => exact h e rfl

/-- A caught error is not one. -/
theorem result {V : δ → Prop} (p : Prog C A ε α) : (p.result : Prog C A δ _).Errors V := by
  induction p with
  | pure a => trivial
  | fail e => trivial
  | call c k ih => exact ih

theorem forEach {xs : List α} {body : α → Prog C A ε Unit} (h : ∀ x ∈ xs, (body x).Errors V) :
    (Prog.forEach xs body).Errors V := by
  induction xs with
  | nil => trivial
  | cons x xs ih => exact (h x (by simp)).bind fun _ => ih fun y hy => h y (by simp [hy])

theorem foldEach {xs : List α} {acc : β} {body : β → α → Prog C A ε β}
    (h : ∀ b, ∀ x ∈ xs, (body b x).Errors V) : (Prog.foldEach xs acc body).Errors V := by
  induction xs generalizing acc with
  | nil => trivial
  | cons x xs ih => exact (h acc x (by simp)).bind fun _ => ih fun b y hy => h b y (by simp [hy])

theorem retry {n : Nat} {body : Nat → Prog C A ε (Option α)} {out : Prog C A ε α}
    (h : ∀ i, (body i).Errors V) (ho : out.Errors V) : (Prog.retry n body out).Errors V := by
  suffices ∀ n i, (Prog.retry.go body out n i).Errors V from this n 0
  intro n
  induction n with
  | zero => intro i; exact ho
  | succ n ih =>
    intro i
    refine (h i).bind fun o => ?_
    cases o with
    | none => exact ih (i + 1)
    | some a => trivial

/-- Where all errors are in `V`, so are those after a call. -/
theorem after {T : C → Prop} {p : Prog C A ε α} (h : p.Errors V) : p.ErrorsAfter T V := by
  induction p with
  | pure a => trivial
  | fail e => trivial
  | call c k ih => exact ⟨fun _ => h, fun a => ih a (h a)⟩

end Errors

/-- A first part without calls of `T` may end with any error. -/
theorem ErrorsAfter.bind {T : C → Prop} {V : ε → Prop} {p : Prog C A ε α}
    {f : α → Prog C A ε β} (hp : p.Calls fun c => ¬ T c) (hf : ∀ a, (f a).ErrorsAfter T V) :
    (p.bind f).ErrorsAfter T V := by
  induction p with
  | pure a => exact hf a
  | fail e => trivial
  | call c k ih => exact ⟨fun hc => absurd hc hp.1, fun a => ih a (hp.2 a)⟩

end Prog

end FluidBG.Lib
