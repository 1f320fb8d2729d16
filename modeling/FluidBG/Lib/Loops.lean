import FluidBG.Lib.System
/-!
# Loops that end at once, and loops that never end well

`FluidBG.Lib.System` has the rules for loops whose body keeps an assertion. Here are those for an
outside that answers as it should: a retry ends with its first attempt, or with none of them. And
where every call is answered, what holds of every end of a program holds of one.
-/

set_option autoImplicit false

namespace FluidBG.Lib

/-- The contract that asks nothing of the calls. -/
def Contract.free {C W : Type} : Contract C W := ⟨fun _ => True, fun _ _ => True⟩

namespace Outside.Spec

variable {C : Type} {A : C → Type} {W ε α β : Type} {O : Outside C A W} {K : Contract C W}
  {Q : α → W → Prop} {E : ε → W → Prop}

/-- A retry whose first attempt returns a value. -/
theorem retryFirst {n : Nat} (hn : 0 < n) {body : Nat → Prog C A ε (Option α)}
    {out : Prog C A ε α} {w : W}
    (h : O.Spec K (fun o w => ∃ a, o = some a ∧ Q a w) E (body 0) w) :
    O.Spec K Q E (Prog.retry n body out) w := by
  obtain ⟨m, rfl⟩ := Nat.exists_eq_succ_of_ne_zero (Nat.pos_iff_ne_zero.mp hn)
  refine h.bind ?_
  rintro o w ⟨a, rfl, ha⟩
  exact ha

/-- A retry none of whose attempts returns a value. -/
theorem retryNever {P : W → Prop} {n : Nat} {body : Nat → Prog C A ε (Option α)}
    {out : Prog C A ε α} {w : W} (hw : P w)
    (h : ∀ i w, P w → O.Spec K (fun o w => o = none ∧ P w) E (body i) w)
    (ho : ∀ w, P w → O.Spec K Q E out w) : O.Spec K Q E (Prog.retry n body out) w := by
  refine retry hw ?_ ho
  intro i w hw
  refine (h i w hw).mono ?_ fun _ _ he => he
  rintro o w ⟨rfl, hp⟩
  exact hp

/-- Where every call gets some answer, sooner or later, a program comes to some end. -/
theorem absurd {Ready : W → Prop} {p : Prog C A ε α} {w : W}
    (hready : ∀ w, ∃ w', O.Later w w' ∧ Ready w')
    (hanswers : ∀ w c, Ready w → ∃ a w', O.answers w c a w') (hw : Ready w)
    (h : O.Spec .free (fun _ _ => False) (fun _ _ => False) p w) : False := by
  induction p generalizing w with
  | pure a => exact h
  | fail e => exact h
  | call c k ih =>
    obtain ⟨a, w', ha⟩ := hanswers w c hw
    obtain ⟨w'', hlater, hready'⟩ := hready w'
    exact ih a hready' ((h.2 a w' ha).2 w'' hlater trivial)

end Outside.Spec

end FluidBG.Lib
