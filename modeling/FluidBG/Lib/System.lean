import FluidBG.Lib.Prog
import Mathlib.Logic.Relation
/-!
# Systems of a program and its outside, and how to reason about their runs

A `Machine` says what the outside does: how it serves a call, with which answers, and how it
moves on its own. A run starts attempts of a program, lets the outside answer their calls one by
one, and may drop an attempt at any node: that is a crash, or the end of the attempt.

The rules below are a Hoare logic for such runs. `Outside.Spec` says of a program that every call
it makes is allowed where it is made, that the invariant holds after each answer, and that the
postcondition holds at the end; whatever the outside does between two calls is built into the rule
for a call. Because the invariant is asked for after every call and not only at the end, an attempt
that stops half way leaves a good world behind: `Machine.Run.sound` is that argument, made once.
-/

set_option autoImplicit false

namespace FluidBG.Lib

/-- What a program may expect of the outside: which answers it gives, with which effect, and how
the world changes between two calls. -/
structure Outside (C : Type) (A : C → Type) (W : Type) where
  answers : W → (c : C) → A c → W → Prop
  moves : W → W → Prop

/-- What a run has to keep: an invariant of the world, and for each call where it may be made. -/
structure Contract (C W : Type) where
  inv : W → Prop
  may : W → C → Prop

namespace Outside

variable {C : Type} {A : C → Type} {W ε δ α β : Type}

/-- The world after any number of moves. -/
abbrev Later (O : Outside C A W) : W → W → Prop :=
  Relation.ReflTransGen O.moves

/-- `P` survives the moves of the outside. -/
def Stable (O : Outside C A W) (P : W → Prop) : Prop :=
  ∀ w w', P w → O.moves w w' → P w'

theorem Stable.later {O : Outside C A W} {P : W → Prop} (h : O.Stable P) {w w' : W} (hp : P w)
    (hw : O.Later w w') : P w' := by
  induction hw with
  | refl => exact hp
  | tail _ hm ih => exact h _ _ ih hm

theorem Stable.and {O : Outside C A W} {P Q : W → Prop} (hP : O.Stable P) (hQ : O.Stable Q) :
    O.Stable fun w => P w ∧ Q w :=
  fun w w' h hm => ⟨hP w w' h.1 hm, hQ w w' h.2 hm⟩

/-- **The specification of a program.** From `w`, every call is made where `K` allows it, the
invariant holds after every answer, and the end meets `Q` or, for an error, `E`. -/
def Spec (O : Outside C A W) (K : Contract C W) (Q : α → W → Prop) (E : ε → W → Prop) :
    Prog C A ε α → W → Prop
  | .pure a, w => Q a w
  | .fail e, w => E e w
  | .call c k, w => K.may w c ∧ ∀ a w', O.answers w c a w' →
      K.inv w' ∧ ∀ w'', O.Later w' w'' → K.inv w'' → O.Spec K Q E (k a) w''

/-- The postconditions, on how a program ended. -/
def Ends (Q : α → W → Prop) (E : ε → W → Prop) : Except ε α → W → Prop
  | .ok a, w => Q a w
  | .error e, w => E e w

namespace Spec

variable {O : Outside C A W} {K : Contract C W} {Q : α → W → Prop} {E : ε → W → Prop}

@[simp] theorem pure_iff {a : α} {w : W} : O.Spec K Q E (.pure a) w ↔ Q a w := Iff.rfl

@[simp] theorem fail_iff {e : ε} {w : W} : O.Spec K Q E (.fail e) w ↔ E e w := Iff.rfl

theorem call_iff {c : C} {k : A c → Prog C A ε α} {w : W} :
    O.Spec K Q E (.call c k) w ↔ K.may w c ∧ ∀ a w', O.answers w c a w' →
      K.inv w' ∧ ∀ w'', O.Later w' w'' → K.inv w'' → O.Spec K Q E (k a) w'' := Iff.rfl

@[simp] theorem ofExcept_iff {r : Except ε α} {w : W} :
    O.Spec K Q E (Prog.ofExcept r) w ↔ match r with | .ok a => Q a w | .error e => E e w := by
  cases r <;> rfl

/-- The rule of consequence. -/
theorem mono {Q' : α → W → Prop} {E' : ε → W → Prop} {p : Prog C A ε α} {w : W}
    (h : O.Spec K Q E p w) (hQ : ∀ a w, Q a w → Q' a w) (hE : ∀ e w, E e w → E' e w) :
    O.Spec K Q' E' p w := by
  induction p generalizing w with
  | pure a => exact hQ a w h
  | fail e => exact hE e w h
  | call c k ih =>
    refine ⟨h.1, fun a w' ha => ⟨(h.2 a w' ha).1, fun w'' hl hi => ?_⟩⟩
    exact ih a ((h.2 a w' ha).2 w'' hl hi)

/-- Two postconditions of one program hold together. -/
theorem and {Q' : α → W → Prop} {E' : ε → W → Prop} {p : Prog C A ε α} {w : W}
    (h : O.Spec K Q E p w) (h' : O.Spec K Q' E' p w) :
    O.Spec K (fun a w => Q a w ∧ Q' a w) (fun e w => E e w ∧ E' e w) p w := by
  induction p generalizing w with
  | pure a => exact ⟨h, h'⟩
  | fail e => exact ⟨h, h'⟩
  | call c k ih =>
    refine ⟨h.1, fun a w' ha => ⟨(h.2 a w' ha).1, fun w'' hl hi => ?_⟩⟩
    exact ih a ((h.2 a w' ha).2 w'' hl hi) ((h'.2 a w' ha).2 w'' hl hi)

/-- The postconditions of a family hold together. -/
theorem all {ι : Type} [Nonempty ι] {Q : ι → α → W → Prop} {p : Prog C A ε α} {w : W}
    (h : ∀ i, O.Spec K (Q i) E p w) : O.Spec K (fun a w => ∀ i, Q i a w) E p w := by
  induction p generalizing w with
  | pure a => exact h
  | fail e => exact h (Classical.arbitrary ι)
  | call c k ih =>
    refine ⟨(h (Classical.arbitrary ι)).1, fun a w' ha => ?_⟩
    refine ⟨((h (Classical.arbitrary ι)).2 a w' ha).1, fun w'' hl hi => ?_⟩
    exact ih a fun i => ((h i).2 a w' ha).2 w'' hl hi

/-- Sequential composition: the second program starts where the first one ended. -/
theorem bind_iff {Q : β → W → Prop} {p : Prog C A ε α} {f : α → Prog C A ε β} {w : W} :
    O.Spec K Q E (p.bind f) w ↔ O.Spec K (fun a w => O.Spec K Q E (f a) w) E p w := by
  induction p generalizing w with
  | pure a => rfl
  | fail e => rfl
  | call c k ih => simp only [Prog.call_bind, call_iff, ih]

/-- A program that starts from a computed value. -/
theorem ofExcept_bind {Q : β → W → Prop} {r : Except ε α} {f : α → Prog C A ε β} {w : W}
    (herror : ∀ e, r = .error e → E e w) (hok : ∀ a, r = .ok a → O.Spec K Q E (f a) w) :
    O.Spec K Q E ((Prog.ofExcept r).bind f) w := by
  cases r with
  | ok a => exact hok a rfl
  | error e => exact herror e rfl

theorem bind {Q : β → W → Prop} {R : α → W → Prop} {p : Prog C A ε α} {f : α → Prog C A ε β}
    {w : W} (hp : O.Spec K R E p w) (hf : ∀ a w, R a w → O.Spec K Q E (f a) w) :
    O.Spec K Q E (p.bind f) w :=
  bind_iff.mpr (hp.mono hf fun _ _ h => h)

/-- A caught outcome: success and error both reach the continuation. -/
theorem result {Q : Except δ α → W → Prop} {p : Prog C A δ α} {w : W}
    (h : O.Spec K (fun a => Q (.ok a)) (fun e => Q (.error e)) p w) :
    O.Spec K Q E (p.result : Prog C A ε _) w := by
  induction p generalizing w with
  | pure a => exact h
  | fail e => exact h
  | call c k ih =>
    refine ⟨h.1, fun a w' ha => ⟨(h.2 a w' ha).1, fun w'' hl hi => ?_⟩⟩
    exact ih a ((h.2 a w' ha).2 w'' hl hi)

/-- The rule for one call with nothing after it. -/
theorem ask {c : C} {Q : A c → W → Prop} {w : W} (hm : K.may w c)
    (h : ∀ a w', O.answers w c a w' → K.inv w' ∧ ∀ w'', O.Later w' w'' → K.inv w'' → Q a w'') :
    O.Spec K Q E (Prog.ask c : Prog C A ε _) w :=
  ⟨hm, h⟩

/-- The loop rule: an assertion every iteration keeps. -/
theorem forEach {P : W → Prop} {xs : List α} {body : α → Prog C A ε Unit} {w : W} (hw : P w)
    (h : ∀ x ∈ xs, ∀ w, P w → O.Spec K (fun _ => P) E (body x) w) :
    O.Spec K (fun _ => P) E (Prog.forEach xs body) w := by
  induction xs generalizing w with
  | nil => exact hw
  | cons x xs ih =>
    exact (h x (by simp) w hw).bind fun _ w hw => ih hw fun y hy => h y (by simp [hy])

/-- The loop rule for an assertion about the part of the list that is done. -/
theorem forEachDone {P : List α → W → Prop} {xs : List α} {body : α → Prog C A ε Unit} {w : W}
    (hw : P [] w)
    (h : ∀ done, ∀ x ∈ xs, ∀ w, P done w → O.Spec K (fun _ => P (done ++ [x])) E (body x) w) :
    O.Spec K (fun _ => P xs) E (Prog.forEach xs body) w := by
  suffices ∀ rest done w, (∀ x ∈ rest, x ∈ xs) → P done w →
      O.Spec K (fun _ => P (done ++ rest)) E (Prog.forEach rest body) w from
    this xs [] w (fun _ hx => hx) hw
  intro rest
  induction rest with
  | nil =>
    intro done w _ hw
    rw [List.append_nil]
    exact hw
  | cons x rest ih =>
    intro done w hsub hw
    refine (h done x (hsub x (by simp)) w hw).bind fun _ w hw => ?_
    have hrest := ih (done ++ [x]) w (fun y hy => hsub y (by simp [hy])) hw
    rwa [List.append_assoc] at hrest

/-- The loop rule with an accumulator. -/
theorem foldEach {P : β → W → Prop} {xs : List α} {body : β → α → Prog C A ε β} {acc : β} {w : W}
    (hw : P acc w) (h : ∀ x ∈ xs, ∀ b w, P b w → O.Spec K P E (body b x) w) :
    O.Spec K P E (Prog.foldEach xs acc body) w := by
  induction xs generalizing acc w with
  | nil => exact hw
  | cons x xs ih =>
    exact (h x (by simp) acc w hw).bind fun _ w hw => ih hw fun y hy => h y (by simp [hy])

/-- The rule for a bounded retry: the assertion holds at every attempt, and the body establishes
the postcondition where it returns a value. -/
theorem retry {P : W → Prop} {n : Nat} {body : Nat → Prog C A ε (Option α)}
    {out : Prog C A ε α} {w : W} (hw : P w)
    (h : ∀ i w, P w → O.Spec K (fun o w => match o with | none => P w | some a => Q a w) E
      (body i) w)
    (ho : ∀ w, P w → O.Spec K Q E out w) :
    O.Spec K Q E (Prog.retry n body out) w := by
  suffices ∀ n i w, P w → O.Spec K Q E (Prog.retry.go body out n i) w from this n 0 w hw
  intro n
  induction n with
  | zero => intro i w hw; exact ho w hw
  | succ n ih =>
    intro i w hw
    refine (h i w hw).bind fun o w ho => ?_
    cases o with
    | none => exact ih (i + 1) w ho
    | some a => exact ho

/-- The rule for a bounded retry whose last turn ends the loop itself. -/
theorem retryWithin {P : W → Prop} {n : Nat} {body : Nat → Prog C A ε (Option α)}
    {out : Prog C A ε α} {w : W} (hn : 0 < n) (hw : P w)
    (h : ∀ i w, i < n → P w → O.Spec K
      (fun o w => match o with | none => P w ∧ i + 1 < n | some a => Q a w) E (body i) w) :
    O.Spec K Q E (Prog.retry n body out) w := by
  suffices ∀ m i w, i + m = n → 0 < m → P w →
      O.Spec K Q E (Prog.retry.go body out m i) w from this n 0 w (by omega) hn hw
  intro m
  induction m with
  | zero => intro i w _ hm; omega
  | succ m ih =>
    intro i w heq _ hw
    refine (h i w (by omega) hw).bind fun o w ho => ?_
    cases o with
    | none =>
      obtain ⟨hp, hlast⟩ := ho
      exact ih (i + 1) w (by omega) (by omega) hp
    | some a => exact ho

/-- **The frame rule.** A program whose calls all lie in `F` keeps any assertion that a call of
`F` and a move of the outside keep. -/
theorem of_calls {F : C → Prop} {P : W → Prop} {p : Prog C A ε α} {w : W} (hp : p.Calls F)
    (hstable : O.Stable P) (hw : P w) (hi : K.inv w)
    (hmay : ∀ w c, F c → K.inv w → P w → K.may w c)
    (hstep : ∀ w c a w', F c → K.inv w → P w → O.answers w c a w' → K.inv w' ∧ P w') :
    O.Spec K (fun _ w => P w ∧ K.inv w) (fun _ w => P w ∧ K.inv w) p w := by
  induction p generalizing w with
  | pure a => exact ⟨hw, hi⟩
  | fail e => exact ⟨hw, hi⟩
  | call c k ih =>
    refine ⟨hmay w c hp.1 hi hw, fun a w' ha => ?_⟩
    obtain ⟨hi', hw'⟩ := hstep w c a w' hp.1 hi hw ha
    exact ⟨hi', fun w'' hl hi'' => ih a (hp.2 a) (hstable.later hw' hl) hi''⟩

/-- What a program returns is known where it ends. -/
theorem returns {V : α → Prop} {p : Prog C A ε α} {w : W} (h : O.Spec K Q E p w)
    (hv : p.Returns V) : O.Spec K (fun a w => V a ∧ Q a w) E p w := by
  induction p generalizing w with
  | pure a => exact ⟨hv, h⟩
  | fail e => exact h
  | call c k ih =>
    refine ⟨h.1, fun a w' ha => ⟨(h.2 a w' ha).1, fun w'' hl hi => ?_⟩⟩
    exact ih a ((h.2 a w' ha).2 w'' hl hi) (hv a)

end Spec

end Outside

/-- What an evaluation has come to, with what was checked of it. -/
def evaluated {α : Type} (o : Option α) (P : α → Prop) [DecidablePred P]
    (h : o.map (fun a => decide (P a)) = some true) : {a : α // o = some a ∧ P a} :=
  match o, h with
  | some a, h => ⟨a, rfl, of_decide_eq_true (Option.some.inj h)⟩

/-! ## Machines and runs -/

/-- An executable outside. Serving a call takes a choice of outcome, so that a run is a list of
choices that can be evaluated; `none` means that the outside does not offer that outcome. -/
structure Machine (C : Type) (A : C → Type) (W O V : Type) where
  serve : W → (c : C) → O → Option (A c × W)
  move : W → V → Option W
  /-- What becomes of the world when an attempt is dropped. -/
  halt : W → W

/-- A condition on the steps of a run, on the state before the step and the step's own choice. -/
structure Guard (C W O V : Type) where
  call : W → C → O → Prop
  move : W → V → Prop

/-- The guard every step meets. -/
def Guard.top {C W O V : Type} : Guard C W O V :=
  ⟨fun _ _ _ => True, fun _ _ => True⟩

instance {C W O V : Type} (w : W) (c : C) (o : O) :
    Decidable ((Guard.top : Guard C W O V).call w c o) := .isTrue trivial

instance {C W O V : Type} (w : W) (v : V) :
    Decidable ((Guard.top : Guard C W O V).move w v) := .isTrue trivial

/-- The guard under which nothing moves, and every call may end as it likes. -/
def Guard.still {C W O V : Type} : Guard C W O V :=
  ⟨fun _ _ _ => True, fun _ _ => False⟩

instance {C W O V : Type} (w : W) (c : C) (o : O) :
    Decidable ((Guard.still : Guard C W O V).call w c o) := .isTrue trivial

instance {C W O V : Type} (w : W) (v : V) :
    Decidable ((Guard.still : Guard C W O V).move w v) := .isFalse id

/-- One step of a run. -/
inductive Event (J O V : Type) where
  /-- An attempt at the job `j` begins. -/
  | start (j : J)
  /-- The pending call is answered. -/
  | answer (o : O)
  /-- The attempt is over: it has ended, or the process has crashed. -/
  | stop
  /-- The outside moves on its own. -/
  | move (v : V)
  deriving DecidableEq, Repr

/-- The world, and the attempt that is under way. -/
structure Conf (C : Type) (A : C → Type) (ε W : Type) where
  world : W
  running : Option (Prog C A ε Unit)

/-- The attempt has ended well. -/
def Conf.ended {C : Type} {A : C → Type} {ε W : Type} (s : Conf C A ε W) : Bool :=
  match s.running with
  | some (.pure _) => true
  | _ => false

theorem Conf.running_of_ended {C : Type} {A : C → Type} {ε W : Type} {s : Conf C A ε W}
    (h : s.ended = true) : s.running = some (.pure ()) := by
  unfold Conf.ended at h
  split at h
  · assumption
  · cases h

namespace Machine

variable {C : Type} {A : C → Type} {ε W O V J : Type}

/-- One step, where it is possible. -/
def step (M : Machine C A W O V) (attempt : J → Prog C A ε Unit) (s : Conf C A ε W) :
    Event J O V → Option (Conf C A ε W)
  | .start j => match s.running with
    | none => some { s with running := some (attempt j) }
    | some _ => none
  | .answer o => match s.running with
    | some (.call c k) => match M.serve s.world c o with
      | some (a, w) => some ⟨w, some (k a)⟩
      | none => none
    | _ => none
  | .stop => some ⟨M.halt s.world, none⟩
  | .move v => match M.move s.world v with
    | some w => some { s with world := w }
    | none => none

/-- The step meets the guard. -/
def Meets (G : Guard C W O V) (s : Conf C A ε W) : Event J O V → Prop
  | .answer o => match s.running with
    | some (.call c _) => G.call s.world c o
    | _ => True
  | .move v => G.move s.world v
  | .start _ => True
  | .stop => True

section Evaluation

variable (G : Guard C W O V) [∀ w c o, Decidable (G.call w c o)] [∀ w v, Decidable (G.move w v)]

instance (s : Conf C A ε W) : (e : Event J O V) → Decidable (Meets G s e)
  | .answer o => match h : s.running with
    | some (.call c _) => decidable_of_iff (G.call s.world c o) (by simp [Meets, h])
    | some (.pure _) => .isTrue (by simp [Meets, h])
    | some (.fail _) => .isTrue (by simp [Meets, h])
    | none => .isTrue (by simp [Meets, h])
  | .move v => inferInstanceAs (Decidable (G.move s.world v))
  | .start _ => .isTrue trivial
  | .stop => .isTrue trivial

/-- Where a list of events leads, as long as every step is possible and meets the guard. -/
def run (M : Machine C A W O V) (attempt : J → Prog C A ε Unit) (s : Conf C A ε W) :
    List (Event J O V) → Option (Conf C A ε W)
  | [] => some s
  | e :: es =>
    if Meets G s e then
      match M.step attempt s e with
      | some s' => run M attempt s' es
      | none => none
    else none

end Evaluation

/-- A run all of whose steps meet the guard. -/
inductive Run (M : Machine C A W O V) (attempt : J → Prog C A ε Unit) (G : Guard C W O V)
    (init : Conf C A ε W) : Conf C A ε W → Prop
  | nil : Run M attempt G init init
  | snoc {s s' : Conf C A ε W} (r : Run M attempt G init s) (e : Event J O V)
      (hg : Meets G s e) (hs : M.step attempt s e = some s') : Run M attempt G init s'

/-- What a program may expect of the machine in runs that meet the guard. -/
def outside (M : Machine C A W O V) (G : Guard C W O V) : Outside C A W where
  answers w c a w' := ∃ o, G.call w c o ∧ M.serve w c o = some (a, w')
  moves w w' := ∃ v, G.move w v ∧ M.move w v = some w'

/-- Where nothing moves the world stays. -/
theorem later_eq {M : Machine C A W O V} {G : Guard C W O V} (hG : ∀ w v, ¬ G.move w v) {w w' : W}
    (h : (M.outside G).Later w w') : w' = w := by
  induction h with
  | refl => rfl
  | tail _ hm _ => exact absurd hm.choose_spec.1 (hG _ _)

theorem later_still {M : Machine C A W O V} {w w' : W}
    (h : (M.outside Guard.still).Later w w') : w' = w :=
  later_eq (fun _ _ => id) h

variable {M : Machine C A W O V} {attempt : J → Prog C A ε Unit} {G : Guard C W O V}

/-- An evaluated run is a run. -/
theorem Run.of_run [∀ w c o, Decidable (G.call w c o)] [∀ w v, Decidable (G.move w v)]
    {init s s' : Conf C A ε W} {es : List (Event J O V)} (r : Run M attempt G init s)
    (h : run G M attempt s es = some s') : Run M attempt G init s' := by
  induction es generalizing s with
  | nil => cases h; exact r
  | cons e es ih =>
    unfold run at h
    split at h
    · rename_i hg
      cases hs : M.step attempt s e with
      | none => rw [hs] at h; simp at h
      | some t =>
        rw [hs] at h
        exact ih (r.snoc e hg hs) h
    · simp at h

/-- An evaluated run reaches a configuration of which `f` is known. -/
theorem Run.exists_of_run [∀ w c o, Decidable (G.call w c o)] [∀ w v, Decidable (G.move w v)]
    {β : Type} {f : Conf C A ε W → β} {y : β} {init : Conf C A ε W} {es : List (Event J O V)}
    (h : (run G M attempt init es).map f = some y) : ∃ s, Run M attempt G init s ∧ f s = y := by
  obtain ⟨s, hs, hf⟩ := Option.map_eq_some_iff.mp h
  exact ⟨s, .of_run .nil hs, hf⟩

/-- What one step does to the world. -/
theorem world_step {s s' : Conf C A ε W} {e : Event J O V} (h : M.step attempt s e = some s') :
    s'.world = s.world ∨ s'.world = M.halt s.world ∨
    (∃ v, e = .move v ∧ M.move s.world v = some s'.world) ∨
    ∃ c k o a, e = .answer o ∧ s.running = some (.call c k) ∧
      M.serve s.world c o = some (a, s'.world) := by
  cases e with
  | start j =>
    cases hr : s.running with
    | some p => simp [Machine.step, hr] at h
    | none =>
      simp only [Machine.step, hr, Option.some.injEq] at h
      subst h
      exact .inl rfl
  | stop =>
    cases h
    exact .inr (.inl rfl)
  | move v =>
    cases hm : M.move s.world v with
    | none => simp [Machine.step, hm] at h
    | some w =>
      simp only [Machine.step, hm, Option.some.injEq] at h
      subst h
      exact .inr (.inr (.inl ⟨v, rfl, hm⟩))
  | answer o =>
    cases hr : s.running with
    | none => simp [Machine.step, hr] at h
    | some p =>
      cases p with
      | pure a => simp [Machine.step, hr] at h
      | fail e => simp [Machine.step, hr] at h
      | call c k =>
        cases hv : M.serve s.world c o with
        | none => simp [Machine.step, hr, hv] at h
        | some aw =>
          simp only [Machine.step, hr, hv, Option.some.injEq] at h
          subst h
          exact .inr (.inr (.inr ⟨c, k, o, aw.1, rfl, rfl, hv⟩))

/-- What holds of every configuration of a run: the invariant, and of the attempt under way that
it meets its specification from wherever the outside may have moved, and ends in `Q`. -/
def GoodTo (M : Machine C A W O V) (G : Guard C W O V) (K : Contract C W) (Q : W → Prop)
    (s : Conf C A ε W) : Prop :=
  K.inv s.world ∧ ∀ p, s.running = some p → ∀ w, (M.outside G).Later s.world w → K.inv w →
    (M.outside G).Spec K (fun _ => Q) (fun _ _ => True) p w

/-- The same with nothing said of the end. -/
abbrev Good (M : Machine C A W O V) (G : Guard C W O V) (K : Contract C W)
    (s : Conf C A ε W) : Prop :=
  GoodTo M G K (fun _ => True) s

theorem GoodTo.step {K : Contract C W} {Q : W → Prop} (hmove : (M.outside G).Stable K.inv)
    (hhalt : ∀ w, K.inv w → K.inv (M.halt w))
    (hspec : ∀ j w, K.inv w →
      (M.outside G).Spec K (fun _ => Q) (fun _ _ => True) (attempt j) w)
    {s s' : Conf C A ε W} {e : Event J O V} (h : GoodTo M G K Q s) (hg : Meets G s e)
    (hs : M.step attempt s e = some s') : GoodTo M G K Q s' := by
  obtain ⟨hi, hrun⟩ := h
  cases e with
  | start j =>
    cases hr : s.running with
    | some p => simp [Machine.step, hr] at hs
    | none =>
      simp only [Machine.step, hr, Option.some.injEq] at hs
      subst hs
      refine ⟨hi, fun p hp w _ hw => ?_⟩
      cases hp
      exact hspec j w hw
  | stop =>
    cases hs
    exact ⟨hhalt _ hi, fun p hp => by simp at hp⟩
  | move v =>
    cases hm : M.move s.world v with
    | none => simp [Machine.step, hm] at hs
    | some w =>
      simp only [Machine.step, hm, Option.some.injEq] at hs
      subst hs
      have hmoved : (M.outside G).moves s.world w := ⟨v, hg, hm⟩
      exact ⟨hmove _ _ hi hmoved, fun p hp w' hw' => hrun p hp w' (.head hmoved hw')⟩
  | answer o =>
    cases hr : s.running with
    | none => simp [Machine.step, hr] at hs
    | some p =>
      cases p with
      | pure a => simp [Machine.step, hr] at hs
      | fail e => simp [Machine.step, hr] at hs
      | call c k =>
        have hcall : G.call s.world c o := by simpa only [Meets, hr] using hg
        cases hv : M.serve s.world c o with
        | none => simp [Machine.step, hr, hv] at hs
        | some aw =>
          simp only [Machine.step, hr, hv, Option.some.injEq] at hs
          subst hs
          have hnext := (hrun _ hr s.world .refl hi).2 aw.1 aw.2 ⟨o, hcall, hv⟩
          refine ⟨hnext.1, fun p hp w hw hiw => ?_⟩
          cases hp
          exact hnext.2 w hw hiw

/-- **Soundness.** When the outside and the end of an attempt keep the invariant and every attempt meets its
specification, every run that meets the guard stays good, whatever calls fail and wherever
attempts are cut off. -/
theorem Run.soundTo {K : Contract C W} {Q : W → Prop} (hmove : (M.outside G).Stable K.inv)
    (hhalt : ∀ w, K.inv w → K.inv (M.halt w))
    (hspec : ∀ j w, K.inv w →
      (M.outside G).Spec K (fun _ => Q) (fun _ _ => True) (attempt j) w)
    {init s : Conf C A ε W} (h0 : GoodTo M G K Q init) (r : Run M attempt G init s) :
    GoodTo M G K Q s := by
  induction r with
  | nil => exact h0
  | snoc r e hg hs ih => exact ih.step hmove hhalt hspec hg hs

theorem Run.sound {K : Contract C W} (hmove : (M.outside G).Stable K.inv)
    (hhalt : ∀ w, K.inv w → K.inv (M.halt w))
    (hspec : ∀ j w, K.inv w →
      (M.outside G).Spec K (fun _ _ => True) (fun _ _ => True) (attempt j) w)
    {init s : Conf C A ε W} (h0 : Good M G K init) (r : Run M attempt G init s) :
    Good M G K s :=
  r.soundTo hmove hhalt hspec h0

theorem GoodTo.of_idle {K : Contract C W} {Q : W → Prop} {w : W} (h : K.inv w) :
    GoodTo M G K Q (⟨w, none⟩ : Conf C A ε W) :=
  ⟨h, fun p hp => by simp at hp⟩

theorem Good.of_idle {K : Contract C W} {w : W} (h : K.inv w) :
    Good M G K (⟨w, none⟩ : Conf C A ε W) :=
  GoodTo.of_idle h

/-- An attempt that has ended well has reached its postcondition. -/
theorem GoodTo.ended {K : Contract C W} {Q : W → Prop} {s : Conf C A ε W}
    (h : GoodTo M G K Q s) (hr : s.running = some (.pure ())) : Q s.world :=
  h.2 _ hr s.world .refl h.1

/-- A good configuration makes its next call where the contract allows it. -/
theorem Good.may {K : Contract C W} {s : Conf C A ε W} (h : Good M G K s) {c : C}
    {k : A c → Prog C A ε Unit} (hr : s.running = some (.call c k)) : K.may s.world c :=
  (h.2 _ hr s.world .refl h.1).1

/-! ## Undisturbed programs -/

/-- The program run from `w` with every call served with the outcome `o` and no move in between. -/
def eval {α : Type} (M : Machine C A W O V) (o : O) :
    Prog C A ε α → W → Option (Except ε α × W)
  | .pure a, w => some (.ok a, w)
  | .fail e, w => some (.error e, w)
  | .call c k, w => match M.serve w c o with
    | some (a, w) => M.eval o (k a) w
    | none => none

/-- The calls of the program run from `w` undisturbed. -/
def trace {α : Type} (M : Machine C A W O V) (o : O) : Prog C A ε α → W → List C
  | .pure _, _ => []
  | .fail _, _ => []
  | .call c k, w => c :: match M.serve w c o with
    | some (a, w) => M.trace o (k a) w
    | none => []

/-- A program only makes the calls of its footprint. -/
theorem mem_trace {α : Type} {o : O} {F : C → Prop} {p : Prog C A ε α} (hp : p.Calls F) {w : W}
    {c : C} (hc : c ∈ M.trace o p w) : F c := by
  induction p generalizing w with
  | pure a => simp [trace] at hc
  | fail e => simp [trace] at hc
  | call c' k ih =>
    simp only [trace, List.mem_cons] at hc
    rcases hc with rfl | hrest
    · exact hp.1
    · cases hs : M.serve w c' o with
      | none => simp [hs] at hrest
      | some aw =>
        rw [hs] at hrest
        exact ih aw.1 (hp.2 aw.1) hrest

/-- Where a list of outcomes, one for each call, leads a program that nothing else disturbs. -/
def exec {α : Type} (M : Machine C A W O V) :
    Prog C A ε α → List O → W → Option (Except ε α × W)
  | .pure a, [], w => some (.ok a, w)
  | .fail e, [], w => some (.error e, w)
  | .call c k, o :: os, w => match M.serve w c o with
    | some (a, w) => M.exec (k a) os w
    | none => none
  | _, _, _ => none

/-- What an undisturbed execution ends with meets the specification. -/
theorem exec_spec {α : Type} {K : Contract C W} {Q : α → W → Prop} {E : ε → W → Prop}
    {p : Prog C A ε α} {os : List O} {w w' : W} {r : Except ε α}
    (h : (M.outside Guard.still).Spec K Q E p w) (hr : M.exec p os w = some (r, w')) :
    Outside.Ends Q E r w' := by
  induction p generalizing os w with
  | pure a =>
    cases os with
    | nil => cases hr; exact h
    | cons o os => simp [exec] at hr
  | fail e =>
    cases os with
    | nil => cases hr; exact h
    | cons o os => simp [exec] at hr
  | call c k ih =>
    cases os with
    | nil => simp [exec] at hr
    | cons o os =>
      rw [exec] at hr
      split at hr
      · rename_i a w₁ hs
        have hnext := h.2 a w₁ ⟨o, trivial, hs⟩
        exact ih a (hnext.2 w₁ .refl hnext.1) hr
      · simp at hr

/-- **A program that only makes calls which a projection commutes with does the same on the
projected world.** -/
theorem exec_project {α : Type} {π : W → W} {K : Contract C W} {Q : α → W → Prop}
    {E : ε → W → Prop}
    (hπ : ∀ w c o, K.inv w → K.may w c →
      M.serve (π w) c o = (M.serve w c o).map fun aw => (aw.1, π aw.2))
    {p : Prog C A ε α} {os : List O} {w : W} (hw : K.inv w)
    (h : (M.outside Guard.still).Spec K Q E p w) :
    M.exec p os (π w) = (M.exec p os w).map fun rw => (rw.1, π rw.2) := by
  induction p generalizing os w with
  | pure a => cases os <;> rfl
  | fail e => cases os <;> rfl
  | call c k ih =>
    cases os with
    | nil => rfl
    | cons o os =>
      rw [exec, exec, hπ w c o hw h.1]
      cases hs : M.serve w c o with
      | none => rfl
      | some aw =>
        have hnext := h.2 aw.1 aw.2 ⟨o, trivial, hs⟩
        exact ih aw.1 hnext.1 (hnext.2 aw.2 .refl hnext.1)

/-- The program, undisturbed, returns `a` and changes nothing. -/
def Reads {α : Type} (M : Machine C A W O V) (o : O) (p : Prog C A ε α) (w : W) (a : α) : Prop :=
  M.eval o p w = some (.ok a, w)

namespace Reads

variable {α β : Type} {o : O} {w : W}

theorem pure {a : α} : M.Reads o (.pure a : Prog C A ε α) w a := rfl

theorem bind {p : Prog C A ε α} {f : α → Prog C A ε β} {a : α} {b : β} (hp : M.Reads o p w a)
    (hf : M.Reads o (f a) w b) : M.Reads o (p.bind f) w b := by
  suffices ∀ v, M.eval o p v = some (.ok a, w) → M.eval o (p.bind f) v = some (.ok b, w) from
    this w hp
  clear hp
  induction p with
  | pure a' => intro v h; cases h; exact hf
  | fail e => intro v h; simp [eval] at h
  | call c k ih =>
    intro v h
    simp only [eval, Prog.call_bind] at h ⊢
    cases hv : M.serve v c o with
    | none => simp [hv] at h
    | some aw => rw [hv] at h; exact ih aw.1 aw.2 h

theorem ask {c : C} {a : A c} (h : M.serve w c o = some (a, w)) :
    M.Reads o (Prog.ask c : Prog C A ε _) w a := by
  simp [Reads, Prog.ask, eval, h]

/-- A loop whose turns only read computes the fold of what they return. -/
theorem foldEach {xs : List α} {acc : β} {body : β → α → Prog C A ε β} {f : β → α → β}
    (h : ∀ b, ∀ x ∈ xs, M.Reads o (body b x) w (f b x)) :
    M.Reads o (Prog.foldEach xs acc body) w (xs.foldl f acc) := by
  induction xs generalizing acc with
  | nil => rfl
  | cons x xs ih => exact (h acc x (by simp)).bind (ih fun b y hy => h b y (by simp [hy]))

/-- What a program reads is determined. -/
theorem unique {p : Prog C A ε α} {a a' : α} (h : M.Reads o p w a) (h' : M.Reads o p w a') :
    a = a' := by
  have heq := h.symm.trans h'
  simpa using heq

end Reads

/-! ## Observers -/

/-- The machine with an observer that keeps a record of what it sees. It watches the answered
calls and the ends of attempts and changes nothing. -/
def observed {X : Type} (M : Machine C A W O V) (see : X → W → (c : C) → A c → W → X)
    (halted : X → X) : Machine C A (W × X) O V where
  serve s c o := (M.serve s.1 c o).map fun aw => (aw.1, (aw.2, see s.2 s.1 c aw.1 aw.2))
  move s v := (M.move s.1 v).map fun w => (w, s.2)
  halt s := (M.halt s.1, halted s.2)

theorem observed_serve {X : Type} {see : X → W → (c : C) → A c → W → X} {halted : X → X}
    {s s' : W × X} {c : C} {o : O} {a : A c} (h : (M.observed see halted).serve s c o = some (a, s')) :
    M.serve s.1 c o = some (a, s'.1) ∧ s'.2 = see s.2 s.1 c a s'.1 := by
  simp only [observed, Option.map_eq_some_iff] at h
  obtain ⟨aw, hserve, heq⟩ := h
  cases heq
  exact ⟨hserve, rfl⟩

theorem observed_move {X : Type} {see : X → W → (c : C) → A c → W → X} {halted : X → X}
    {s s' : W × X} {v : V} (h : (M.observed see halted).move s v = some s') : M.move s.1 v = some s'.1 ∧ s'.2 = s.2 := by
  simp only [observed, Option.map_eq_some_iff] at h
  obtain ⟨w, hmove, rfl⟩ := h
  exact ⟨hmove, rfl⟩

end Machine

end FluidBG.Lib
