import FluidBG.Lib.Loops
import FluidBG.Lib.Steps
import FluidBG.Lib.Trace
/-!
# Tasks that go on for ever

A task is a loop without an end over a machine: a program for one turn, which hands a state on to the
next turn. An error of a turn is the end of the task. Between two turns, and between two calls, the
outside may move. `Task.Run.alive` is the rule that a task does not end: every turn, verified alone,
ends well. `Task.Run.of_eval` continues a run with a turn that is served with one outcome throughout.
-/

set_option autoImplicit false

namespace FluidBG.Lib

/-! ## Lifted programs -/

section Lift

variable {C C' : Type} {A : C → Type} {A' : C' → Type} {ε W α : Type}

/-- The outside as a program sees it whose calls are made as those of another kind. -/
def Outside.lifted (O : Outside C' A' W) (f : C → C') (g : ∀ c, A' (f c) → A c) : Outside C A W where
  answers w c a w' := ∃ a', O.answers w (f c) a' w' ∧ g c a' = a
  moves := O.moves

def Contract.lifted (K : Contract C' W) (f : C → C') : Contract C W :=
  ⟨K.inv, fun w c => K.may w (f c)⟩

/-- A lifted program is specified where it makes its own calls. -/
theorem Outside.Spec.lift {O : Outside C' A' W} {K : Contract C' W} {f : C → C'}
    {g : ∀ c, A' (f c) → A c} {Q : α → W → Prop} {E : ε → W → Prop} {p : Prog C A ε α} {w : W}
    (h : (O.lifted f g).Spec (K.lifted f) Q E p w) : O.Spec K Q E (p.lift f g) w := by
  induction p generalizing w with
  | pure a => exact h
  | fail e => exact h
  | call c k ih =>
    refine ⟨h.1, fun a w' ha => ?_⟩
    have hnext := h.2 (g c a) w' ⟨a, ha, rfl⟩
    exact ⟨hnext.1, fun w'' hl hi => ih (g c a) (hnext.2 w'' hl hi)⟩

end Lift

/-- A task: the world, and what is left of the turn that is under way. -/
structure Task (C : Type) (A : C → Type) (ε W L : Type) where
  world : W
  prog : Prog C A ε L

namespace Task

inductive Event (J O V : Type) where
  /-- The pending call is answered. -/
  | answer (o : O)
  /-- The turn is over, and the next one begins with this input. -/
  | again (j : J)
  /-- The outside moves on its own. -/
  | move (v : V)
  deriving DecidableEq, Repr

variable {C : Type} {A : C → Type} {ε W L O V J : Type}

section Machine

variable (M : Machine C A W O V) (turn : J → L → Prog C A ε L)

/-- One step, where it is possible. What a turn leaves behind is halted before the next one. -/
def step (s : Task C A ε W L) : Event J O V → Option (Task C A ε W L)
  | .answer o => match s.prog with
    | .call c k => (M.serve s.world c o).map fun r => ⟨r.2, k r.1⟩
    | _ => none
  | .again j => match s.prog with
    | .pure l => some ⟨M.halt s.world, turn j l⟩
    | _ => none
  | .move v => (M.move s.world v).map fun w => ⟨w, s.prog⟩

/-- The task as a transition system. -/
def steps : Steps (Task C A ε W L) (Event J O V) := ⟨step M turn⟩

/-- The step meets the condition. -/
def Meets (G : Guard C W O V) (s : Task C A ε W L) : Event J O V → Prop
  | .answer o => match s.prog with
    | .call c _ => G.call s.world c o
    | _ => True
  | .move v => G.move s.world v
  | .again _ => True

instance decidableMeets (G : Guard C W O V) [∀ w c o, Decidable (G.call w c o)]
    [∀ w v, Decidable (G.move w v)] (s : Task C A ε W L) :
    (e : Event J O V) → Decidable (Meets G s e)
  | .answer o => match h : s.prog with
    | .call c _ => decidable_of_iff (G.call s.world c o) (by simp [Meets, h])
    | .pure _ => .isTrue (by simp [Meets, h])
    | .fail _ => .isTrue (by simp [Meets, h])
  | .move v => inferInstanceAs (Decidable (G.move s.world v))
  | .again _ => .isTrue trivial

/-- The task has ended. -/
def returned (s : Task C A ε W L) : Bool :=
  match s.prog with
  | .fail _ => true
  | _ => false

end Machine

variable {M : Machine C A W O V} {turn : J → L → Prog C A ε L} {G : Guard C W O V}
  {K : Contract C W} {P : W → Prop} {R : L → Prop} {s s' : Task C A ε W L}

/-- Every step meets the condition that asks nothing. -/
theorem meets_top (s : Task C A ε W L) (e : Event J O V) :
    Meets (Guard.top : Guard C W O V) s e := by
  obtain ⟨w, p⟩ := s
  cases e with
  | answer o => cases p <;> trivial
  | again j => trivial
  | move v => trivial

/-- What holds of a task that does not end: the turn under way ends well, wherever the outside has
moved, and hands on what the next turn expects. -/
def Alive (M : Machine C A W O V) (G : Guard C W O V) (K : Contract C W) (R : L → Prop)
    (s : Task C A ε W L) : Prop :=
  K.inv s.world ∧ ∀ w, (M.outside G).Later s.world w → K.inv w →
    (M.outside G).Spec K (fun l _ => R l) (fun _ _ => False) s.prog w

theorem Alive.step (hmove : (M.outside G).Stable K.inv) (hP : (M.outside G).Stable P)
    (hhalt : ∀ w, K.inv w → K.inv (M.halt w) ∧ P (M.halt w))
    (hturn : ∀ j l w, R l → K.inv w → P w →
      (M.outside G).Spec K (fun l _ => R l) (fun _ _ => False) (turn j l) w)
    {e : Event J O V} (h : Alive M G K R s) (hg : Meets G s e) (hs : step M turn s e = some s') :
    Alive M G K R s' := by
  obtain ⟨hi, hspec⟩ := h
  obtain ⟨w, p⟩ := s
  cases e with
  | answer o =>
    cases p with
    | pure l => cases hs
    | fail e => cases hs
    | call c k =>
      obtain ⟨r, hr, rfl⟩ := Option.map_eq_some_iff.mp hs
      have hnext := (hspec w .refl hi).2 r.1 r.2 ⟨o, hg, hr⟩
      exact hnext
  | again j =>
    cases p with
    | call c k => cases hs
    | fail e => cases hs
    | pure l =>
      cases hs
      refine ⟨(hhalt w hi).1, fun w' hw' hi' => ?_⟩
      exact hturn j l w' (hspec w .refl hi) hi' (hP.later (hhalt w hi).2 hw')
  | move v =>
    obtain ⟨w', hw', rfl⟩ := Option.map_eq_some_iff.mp hs
    have hmoved : (M.outside G).moves w w' := ⟨v, hg, hw'⟩
    exact ⟨hmove w w' hi hmoved, fun w'' hl => hspec w'' (.head hmoved hl)⟩

/-- **The rule for tasks.** When every turn, from where the last one has left, ends well and makes
its calls where the contract allows them, no run of the task ends, whatever the outside does. -/
theorem Run.alive (hmove : (M.outside G).Stable K.inv) (hP : (M.outside G).Stable P)
    (hhalt : ∀ w, K.inv w → K.inv (M.halt w) ∧ P (M.halt w))
    (hturn : ∀ j l w, R l → K.inv w → P w →
      (M.outside G).Spec K (fun l _ => R l) (fun _ _ => False) (turn j l) w)
    {w : W} {l : L} (hw : K.inv w) (hl : R l)
    (r : (steps M turn).Run (Meets G) ⟨w, .pure l⟩ s) : Alive M G K R s := by
  have hinit : Alive M G K R (⟨w, .pure l⟩ : Task C A ε W L) := ⟨hw, fun _ _ _ => hl⟩
  exact r.holds hinit fun _ _ _ h hg hs => h.step hmove hP hhalt hturn hg hs

namespace Alive

theorem not_returned (h : Alive M G K R s) (e : ε) : s.prog ≠ .fail e := by
  intro hfail
  have hspec := h.2 s.world .refl h.1
  rw [hfail] at hspec
  exact hspec

theorem may (h : Alive M G K R s) {c : C} {k : A c → Prog C A ε L} (hc : s.prog = .call c k) :
    K.may s.world c := by
  have hspec := h.2 s.world .refl h.1
  rw [hc] at hspec
  exact hspec.1

theorem between (h : Alive M G K R s) {l : L} (hl : s.prog = .pure l) : R l := by
  have hspec := h.2 s.world .refl h.1
  rw [hl] at hspec
  exact hspec

end Alive

/-! ## One turn, undisturbed -/

/-- Where every call is answered, a program comes to some end. -/
theorem exists_eval {o : O} (hserve : ∀ w c, (M.serve w c o).isSome) (p : Prog C A ε L) (w : W) :
    ∃ r w', M.eval o p w = some (r, w') := by
  induction p generalizing w with
  | pure l => exact ⟨_, _, rfl⟩
  | fail e => exact ⟨_, _, rfl⟩
  | call c k ih =>
    obtain ⟨⟨a, w'⟩, hs⟩ := Option.isSome_iff_exists.mp (hserve w c)
    obtain ⟨r, w'', hr⟩ := ih a w'
    refine ⟨r, w'', ?_⟩
    rw [Machine.eval, hs]
    exact hr

theorem Run.of_eval {F : Task C A ε W L → Event J O V → Prop} {o : O} {init : Task C A ε W L}
    (hanswer : ∀ s, F s (.answer o)) {p : Prog C A ε L} {w w' : W} {l : L}
    (r : (steps M turn).Run F init ⟨w, p⟩) (h : M.eval o p w = some (.ok l, w')) :
    (steps M turn).Run F init ⟨w', .pure l⟩ := by
  induction p generalizing w with
  | pure l' =>
    cases h
    exact r
  | fail e => simp [Machine.eval] at h
  | call c k ih =>
    rw [Machine.eval] at h
    split at h
    · rename_i a w₁ hs
      refine ih a (r.snoc (.answer o) (hanswer _) ?_) h
      simp only [steps, step, hs, Option.map_some]
    · cases h

/-- The condition under which every call ends with this outcome, and nothing moves. -/
def only (o : O) : Guard C W O V := ⟨fun _ _ o' => o' = o, fun _ _ => False⟩

/-- Every call ends with this outcome, every turn begins with this input, and nothing moves. -/
def Undisturbed (o : O) (j : J) (_ : Task C A ε W L) : Event J O V → Prop
  | .answer o' => o' = o
  | .again j' => j' = j
  | .move _ => False

/-- **The next turn**, when it is undisturbed and served with one outcome, comes to where its
specification says. -/
theorem Run.next {o : O} {j : J} {init : Task C A ε W L} (hserve : ∀ w c, (M.serve w c o).isSome)
    {w : W} {l : L} {Q : L → W → Prop} (r : (steps M turn).Run (Undisturbed o j) init ⟨w, .pure l⟩)
    (h : (M.outside (only o)).Spec K Q (fun _ _ => False) (turn j l) (M.halt w)) :
    ∃ w' l', (steps M turn).Run (Undisturbed o j) init ⟨w', .pure l'⟩ ∧ Q l' w' := by
  obtain ⟨result, w', heval⟩ := exists_eval hserve (turn j l) (M.halt w)
  have hends := Machine.eval_spec (fun _ _ => rfl) h heval
  cases result with
  | error e => exact hends.elim
  | ok l' =>
    have hturn : (steps M turn).Run (Undisturbed o j) init ⟨M.halt w, turn j l⟩ :=
      r.snoc (.again j) rfl rfl
    exact ⟨w', l', Run.of_eval (F := Undisturbed o j) (fun _ => rfl) hturn heval, hends⟩

end Task

end FluidBG.Lib
