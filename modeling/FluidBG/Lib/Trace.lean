import FluidBG.Lib.System
/-!
# The calls of an undisturbed program

`Outside.Spec` bounds what a program may do on any path. For the converse, that a program does make
a call somewhere, it is enough to follow one path: the one on which every call is served with the
same outcome and nothing happens in between. `Completes` says that this path reaches the end, and
the lemmas here find a call on it, part by part.
-/

set_option autoImplicit false

namespace FluidBG.Lib

namespace Machine

variable {C : Type} {A : C → Type} {ε α β W O V : Type} {M : Machine C A W O V} {o : O}

theorem eval_bind {p : Prog C A ε α} {f : α → Prog C A ε β} {w w' : W} {a : α}
    (h : M.eval o p w = some (.ok a, w')) : M.eval o (p.bind f) w = M.eval o (f a) w' := by
  induction p generalizing w with
  | pure b => cases h; rfl
  | fail e => simp [eval] at h
  | call c k ih =>
    simp only [eval, Prog.call_bind] at h ⊢
    cases hs : M.serve w c o with
    | none => simp [hs] at h
    | some aw =>
      rw [hs] at h
      exact ih aw.1 h

/-- The end of the path, handed to the caller as a value. -/
theorem eval_result {δ : Type} {p : Prog C A ε α} {r : Except ε α} {w w' : W}
    (h : M.eval o p w = some (r, w')) :
    M.eval o (p.result : Prog C A δ (Except ε α)) w = some (.ok r, w') := by
  induction p generalizing w with
  | pure a => cases h; rfl
  | fail e => cases h; rfl
  | call c k ih =>
    simp only [eval, Prog.result] at h ⊢
    cases hs : M.serve w c o with
    | none => simp [hs] at h
    | some aw =>
      rw [hs] at h
      exact ih aw.1 h

theorem mem_trace_bind_left {p : Prog C A ε α} {f : α → Prog C A ε β} {w : W} {c : C}
    (h : c ∈ M.trace o p w) : c ∈ M.trace o (p.bind f) w := by
  induction p generalizing w with
  | pure b => simp [trace] at h
  | fail e => simp [trace] at h
  | call c' k ih =>
    simp only [trace, Prog.call_bind, List.mem_cons] at h ⊢
    rcases h with h | h
    · exact .inl h
    · refine .inr ?_
      cases hs : M.serve w c' o with
      | none => simp [hs] at h
      | some aw =>
        rw [hs] at h
        exact ih aw.1 h

theorem mem_trace_bind_right {p : Prog C A ε α} {f : α → Prog C A ε β} {w w' : W} {a : α} {c : C}
    (hp : M.eval o p w = some (.ok a, w')) (h : c ∈ M.trace o (f a) w') :
    c ∈ M.trace o (p.bind f) w := by
  induction p generalizing w with
  | pure b => cases hp; exact h
  | fail e => simp [eval] at hp
  | call c' k ih =>
    simp only [eval, trace, Prog.call_bind, List.mem_cons] at hp ⊢
    refine .inr ?_
    cases hs : M.serve w c' o with
    | none => simp [hs] at hp
    | some aw =>
      rw [hs] at hp
      exact ih aw.1 hp

/-! ## Specifications on the path -/

section Guarded

variable {G : Guard C W O V} {K : Contract C W} {Q : α → W → Prop} {E : ε → W → Prop}
  {p : Prog C A ε α} {w : W}

/-- Every call on the path is one the contract allows somewhere. -/
theorem may_of_mem_trace (hG : ∀ w c, G.call w c o) {c : C} (h : (M.outside G).Spec K Q E p w)
    (hc : c ∈ M.trace o p w) : ∃ w', K.may w' c := by
  induction p generalizing w with
  | pure a => simp [trace] at hc
  | fail e => simp [trace] at hc
  | call c' k ih =>
    simp only [trace, List.mem_cons] at hc
    rcases hc with rfl | hc
    · exact ⟨w, h.1⟩
    · cases hs : M.serve w c' o with
      | none => simp [hs] at hc
      | some aw =>
        rw [hs] at hc
        have hnext := h.2 aw.1 aw.2 ⟨o, hG _ _, hs⟩
        exact ih aw.1 (hnext.2 aw.2 .refl hnext.1) hc

/-- The end of the path meets the postcondition. -/
theorem eval_spec (hG : ∀ w c, G.call w c o) {w' : W} {r : Except ε α}
    (h : (M.outside G).Spec K Q E p w) (hr : M.eval o p w = some (r, w')) :
    Outside.Ends Q E r w' := by
  induction p generalizing w with
  | pure a => cases hr; exact h
  | fail e => cases hr; exact h
  | call c k ih =>
    rw [eval] at hr
    split at hr
    · rename_i a w₁ hs
      have hnext := h.2 a w₁ ⟨o, hG _ _, hs⟩
      exact ih a (hnext.2 w₁ .refl hnext.1) hr
    · simp at hr

/-- What follows the path is specified from where it leads. -/
theorem spec_of_bind (hG : ∀ w c, G.call w c o) {R : β → W → Prop} {f : α → Prog C A ε β} {w' : W}
    {a : α} (h : (M.outside G).Spec K R E (p.bind f) w) (hr : M.eval o p w = some (.ok a, w')) :
    (M.outside G).Spec K R E (f a) w' :=
  eval_spec hG (Outside.Spec.bind_iff.mp h) hr

end Guarded

/-! ## Programs that complete -/

/-- Served with this outcome throughout, the program ends well wherever it starts. -/
def Completes (M : Machine C A W O V) (o : O) (p : Prog C A ε α) : Prop :=
  ∀ w, ∃ a w', M.eval o p w = some (.ok a, w')

namespace Completes

theorem pure (a : α) : M.Completes o (.pure a : Prog C A ε α) := fun w => ⟨a, w, rfl⟩

theorem bind {p : Prog C A ε α} {f : α → Prog C A ε β} (hp : M.Completes o p)
    (hf : ∀ a, M.Completes o (f a)) : M.Completes o (p.bind f) := by
  intro w
  obtain ⟨a, w', ha⟩ := hp w
  obtain ⟨b, w'', hb⟩ := hf a w'
  exact ⟨b, w'', (eval_bind ha).trans hb⟩

theorem forEach {xs : List α} {body : α → Prog C A ε Unit}
    (h : ∀ x ∈ xs, M.Completes o (body x)) : M.Completes o (Prog.forEach xs body) := by
  induction xs with
  | nil => exact pure ()
  | cons x xs ih => exact (h x (by simp)).bind fun _ => ih fun y hy => h y (by simp [hy])

end Completes

/-- A kind of call that one turn of a loop makes is on the path of the loop, when the turns
complete. -/
theorem exists_mem_trace_forEach {xs : List α} {body : α → Prog C A ε Unit} {x : α} {F : C → Prop}
    (hbody : ∀ x ∈ xs, M.Completes o (body x)) (hx : x ∈ xs)
    (hc : ∀ w, ∃ c ∈ M.trace o (body x) w, F c) (w : W) :
    ∃ c ∈ M.trace o (Prog.forEach xs body) w, F c := by
  induction xs generalizing w with
  | nil => simp at hx
  | cons y ys ih =>
    rw [List.mem_cons] at hx
    rcases hx with rfl | hx
    · obtain ⟨c, hmem, hF⟩ := hc w
      exact ⟨c, mem_trace_bind_left hmem, hF⟩
    · obtain ⟨a, w', ha⟩ := hbody y (by simp) w
      obtain ⟨c, hmem, hF⟩ := ih (fun z hz => hbody z (by simp [hz])) hx w'
      exact ⟨c, mem_trace_bind_right ha hmem, hF⟩

theorem mem_trace_forEach {xs : List α} {body : α → Prog C A ε Unit} {x : α} {w : W} {c : C}
    (hbody : ∀ x ∈ xs, M.Completes o (body x)) (hx : x ∈ xs)
    (hc : ∀ w, c ∈ M.trace o (body x) w) : c ∈ M.trace o (Prog.forEach xs body) w := by
  obtain ⟨c', hmem, rfl⟩ := exists_mem_trace_forEach (F := (· = c)) hbody hx
    (fun w => ⟨c, hc w, rfl⟩) w
  exact hmem

end Machine

/-! ## Sweeps -/

/-- Where a call removes an object, the object is one that may be removed. -/
def Contract.removing {C W N : Type} (removed : C → Option N) (may : N → Prop) : Contract C W where
  inv _ := True
  may _ c := ∀ n, removed c = some n → may n

/-- A program whose calls all stay within what may be removed, and what was known before it. -/
theorem Outside.Spec.removing {C : Type} {A : C → Type} {ε α W N : Type} {O : Outside C A W}
    {removed : C → Option N} {may : N → Prop} {P : Prop} {p : Prog C A ε α} {w : W}
    (hp : p.Calls fun c => ∀ n, removed c = some n → may n) (hP : P) :
    O.Spec (.removing removed may) (fun _ _ => P) (fun _ _ => True) p w := by
  refine (Outside.Spec.of_calls (P := fun _ => P) hp (fun _ _ h _ => h) hP trivial ?_ ?_).mono
    (fun _ _ h => h.1) fun _ _ _ => trivial
  · intro _ c hc _ _
    exact hc
  · intro _ c _ _ _ _ hP _
    exact ⟨trivial, hP⟩

/-- **A sweep removes what it matches.** A program that lists the objects there are and removes the
ones it matches stays within what may be removed exactly when every object it matches may be. -/
theorem Machine.sweep_iff {C : Type} {A : C → Type} {ε W O V N : Type} {M : Machine C A W O V}
    (o : O) {removed : C → Option N} {may : N → Prop} (matched : N → Prop) [DecidablePred matched]
    {list : Prog C A ε (List N)} (remove : N → Prog C A ε Unit) (names : List N) {w : W} (w' : W)
    (hlist : (M.outside Guard.still).Spec (.removing removed may)
      (fun found _ => ∀ n ∈ found, n ∈ names) (fun _ _ => True) list w)
    (hremove : ∀ n, (remove n).Calls fun c => ∀ m, removed c = some m → m = n)
    (hlisted : M.eval o list w = some (.ok names, w'))
    (hends : ∀ n, M.Completes o (remove n))
    (hremoves : ∀ n w, ∃ c ∈ M.trace o (remove n) w, removed c = some n) :
    (M.outside Guard.still).Spec (.removing removed may) (fun _ _ => True) (fun _ _ => True)
      (list.bind fun found => Prog.forEach found fun n =>
        if matched n then remove n else .pure ()) w ↔
      ∀ n ∈ names, matched n → may n := by
  constructor
  · intro hspec n hn hmatched
    -- the sweep goes over all of them when no call fails, and comes to this one
    have hturn : ∀ w, ∃ c ∈ M.trace o (if matched n then remove n else .pure ()) w,
        removed c = some n := by
      intro w
      rw [if_pos hmatched]
      exact hremoves n w
    have hloop := spec_of_bind (fun _ _ => trivial) hspec hlisted
    have hcomplete : ∀ x ∈ names, M.Completes o
        (if matched x then remove x else .pure () : Prog C A ε Unit) := by
      intro x _
      split
      · exact hends x
      · exact .pure ()
    obtain ⟨c, hc, hcn⟩ := exists_mem_trace_forEach hcomplete hn hturn w'
    obtain ⟨_, hmay⟩ := may_of_mem_trace (fun _ _ => trivial) hloop hc
    exact hmay n hcn
  · intro h
    refine hlist.bind fun found w hfound => ?_
    refine Outside.Spec.forEach (P := fun _ => True) trivial fun n hn w _ => ?_
    split
    · rename_i hmatched
      refine .removing (Prog.Calls.mono (fun c hc m hm => ?_) (hremove n)) trivial
      rw [hc m hm]
      exact h n (hfound n hn) hmatched
    · trivial

end FluidBG.Lib
