import FluidBG.Lib.System
import Mathlib.Data.List.InsertIdx
/-!
# Several programs over one world

A `Machine` runs one attempt at a time. Several processes that work on one world, or several tasks
of one process, have their calls interleaved in any order: a `Pool` is a world with the threads that
are under way. Each thread carries a memory of its own, which says what it has been answered so far;
the outside may look at the memory of the thread that calls, and a condition on a run may look at
the memories of the others.

`Pool.Run.sound` is the rule for such runs, in the style of rely and guarantee. What one thread may
rely on is that the others make only calls which the duty allows them; that is also what it has to
guarantee. So each program is verified alone, by `Outside.Spec`, against an outside whose moves are
the calls of others.
-/

set_option autoImplicit false

namespace FluidBG.Lib

/-- What threads share: a world that serves their calls and moves on its own. -/
structure Shared (C : Type) (A : C → Type) (X W O V : Type) where
  /-- Serve a call of a thread with this memory; the thread remembers something new. -/
  serve : X → W → (c : C) → O → Option (A c × W × X)
  move : W → V → Option W

/-- A program under way, with what it remembers. -/
structure Thread (C : Type) (A : C → Type) (ε X : Type) where
  prog : Prog C A ε Unit
  memory : X

structure Pool (C : Type) (A : C → Type) (ε X W : Type) where
  world : W
  threads : List (Thread C A ε X)

/-- A condition on the steps of a run: on the memories of the threads beside, on the memory of the
thread that calls, on the world, and on the step. -/
structure Watch (C X W O V : Type) where
  call : List X → X → W → C → O → Prop
  move : List X → W → V → Prop

/-- The condition every step meets. -/
def Watch.top {C X W O V : Type} : Watch C X W O V :=
  ⟨fun _ _ _ _ _ => True, fun _ _ _ => True⟩

instance {C X W O V : Type} (others : List X) (x : X) (w : W) (c : C) (o : O) :
    Decidable ((Watch.top : Watch C X W O V).call others x w c o) := .isTrue trivial

instance {C X W O V : Type} (all : List X) (w : W) (v : V) :
    Decidable ((Watch.top : Watch C X W O V).move all w v) := .isTrue trivial

/-- The condition under which only the threads do anything. -/
def Watch.still {C X W O V : Type} : Watch C X W O V :=
  ⟨fun _ _ _ _ _ => True, fun _ _ _ => False⟩

instance {C X W O V : Type} (others : List X) (x : X) (w : W) (c : C) (o : O) :
    Decidable ((Watch.still : Watch C X W O V).call others x w c o) := .isTrue trivial

instance {C X W O V : Type} (all : List X) (w : W) (v : V) :
    Decidable ((Watch.still : Watch C X W O V).move all w v) := .isFalse id

/-- What every thread has to keep and may rely on: an invariant of the world, and where a thread
with this memory may make which call. -/
structure Duty (C X W : Type) where
  inv : W → Prop
  may : X → W → C → Prop

/-- The duty, as the contract of a single thread. -/
def Duty.contract {C X W : Type} (D : Duty C X W) : Contract C (W × X) :=
  ⟨fun s => D.inv s.1, fun s c => D.may s.2 s.1 c⟩

namespace Pool

/-- One step of a run; threads are named by their place. -/
inductive Event (J O V : Type) where
  /-- A thread begins. -/
  | start (j : J)
  /-- The pending call of a thread is answered. -/
  | answer (i : Nat) (o : O)
  /-- A thread is over: it has ended, or its process has crashed. -/
  | stop (i : Nat)
  /-- The outside moves on its own. -/
  | move (v : V)
  deriving DecidableEq, Repr

variable {C : Type} {A : C → Type} {ε X W O V J : Type}

/-- The memories of the threads beside the one at `i`. -/
def beside (s : Pool C A ε X W) (i : Nat) : List X :=
  (s.threads.eraseIdx i).map (·.memory)

/-- The answer to the pending call of the thread at `i`. -/
def answer (S : Shared C A X W O V) (s : Pool C A ε X W) (i : Nat) (o : O) :
    Option (Pool C A ε X W) :=
  match s.threads[i]? with
  | some ⟨.call c k, x⟩ => match S.serve x s.world c o with
    | some (a, w, x') => some ⟨w, s.threads.set i ⟨k a, x'⟩⟩
    | none => none
  | _ => none

/-- One step, where it is possible. -/
def step (S : Shared C A X W O V) (jobs : J → Thread C A ε X) (s : Pool C A ε X W) :
    Event J O V → Option (Pool C A ε X W)
  | .start j => some { s with threads := s.threads ++ [jobs j] }
  | .answer i o => s.answer S i o
  | .stop i => some { s with threads := s.threads.eraseIdx i }
  | .move v => (S.move s.world v).map fun w => { s with world := w }

/-- The step meets the condition. -/
def Meets (G : Watch C X W O V) (s : Pool C A ε X W) : Event J O V → Prop
  | .answer i o => match s.threads[i]? with
    | some ⟨.call c _, x⟩ => G.call (s.beside i) x s.world c o
    | _ => True
  | .move v => G.move (s.threads.map (·.memory)) s.world v
  | .start _ => True
  | .stop _ => True

/-- A run all of whose steps meet the condition. -/
inductive Run (S : Shared C A X W O V) (jobs : J → Thread C A ε X) (G : Watch C X W O V)
    (init : Pool C A ε X W) : Pool C A ε X W → Prop
  | nil : Run S jobs G init init
  | snoc {s s' : Pool C A ε X W} (r : Run S jobs G init s) (e : Event J O V)
      (hg : Meets G s e) (hs : s.step S jobs e = some s') : Run S jobs G init s'

section Evaluation

variable (G : Watch C X W O V) [∀ others x w c o, Decidable (G.call others x w c o)]
  [∀ all w v, Decidable (G.move all w v)]

instance (s : Pool C A ε X W) : (e : Event J O V) → Decidable (Meets G s e)
  | .answer i o => match h : s.threads[i]? with
    | some ⟨.call c _, x⟩ =>
      decidable_of_iff (G.call (s.beside i) x s.world c o) (by simp [Meets, h])
    | some ⟨.pure _, _⟩ => .isTrue (by simp [Meets, h])
    | some ⟨.fail _, _⟩ => .isTrue (by simp [Meets, h])
    | none => .isTrue (by simp [Meets, h])
  | .move v => inferInstanceAs (Decidable (G.move (s.threads.map (·.memory)) s.world v))
  | .start _ => .isTrue trivial
  | .stop _ => .isTrue trivial

/-- Where a list of events leads, as long as every step is possible and meets the condition. -/
def run (S : Shared C A X W O V) (jobs : J → Thread C A ε X) (s : Pool C A ε X W) :
    List (Event J O V) → Option (Pool C A ε X W)
  | [] => some s
  | e :: es =>
    if Meets G s e then
      match s.step S jobs e with
      | some s' => run S jobs s' es
      | none => none
    else none

variable {G} {S : Shared C A X W O V} {jobs : J → Thread C A ε X}

/-- An evaluated run is a run. -/
theorem Run.of_run {init s s' : Pool C A ε X W} {es : List (Event J O V)}
    (r : Run S jobs G init s) (h : run G S jobs s es = some s') : Run S jobs G init s' := by
  induction es generalizing s with
  | nil => cases h; exact r
  | cons e es ih =>
    unfold run at h
    split at h
    · rename_i hg
      cases hs : s.step S jobs e with
      | none => rw [hs] at h; simp at h
      | some t =>
        rw [hs] at h
        exact ih (r.snoc e hg hs) h
    · simp at h

/-- An evaluated run reaches a pool of which `f` is known. -/
theorem Run.exists_of_run {β : Type} {f : Pool C A ε X W → β} {y : β} {init : Pool C A ε X W}
    {es : List (Event J O V)} (h : (run G S jobs init es).map f = some y) :
    ∃ s, Run S jobs G init s ∧ f s = y := by
  obtain ⟨s, hs, hf⟩ := Option.map_eq_some_iff.mp h
  exact ⟨s, .of_run .nil hs, hf⟩

end Evaluation

/-! ## Counting threads -/

/-- A memory that takes the place of another one counts instead of it. -/
theorem countP_set_memory {X : Type} (p : X → Bool) {xs : List X} {i : Nat} {x : X} (x' : X)
    (hx : xs[i]? = some x) :
    (xs.set i x').countP p + (p x).toNat = xs.countP p + (p x').toNat := by
  obtain ⟨hi, rfl⟩ := List.getElem?_eq_some_iff.mp hx
  rw [List.countP_set hi]
  have hle : (if p xs[i] then 1 else 0) ≤ xs.countP p := by
    by_cases hcounts : p xs[i] = true
    · rw [if_pos hcounts]
      exact List.countP_pos_iff.mpr ⟨_, List.getElem_mem hi, hcounts⟩
    · simp [hcounts]
  cases hold : p xs[i] <;> cases hnew : p x' <;>
    simp only [hold, if_true, Bool.false_eq_true, if_false, Bool.toNat_true, Bool.toNat_false]
      at hle ⊢ <;> omega

/-! ## Steps, one at a time -/

variable {S : Shared C A X W O V} {jobs : J → Thread C A ε X} {G : Watch C X W O V}

/-- **What an answer does**: some thread had the call pending, and goes on with the answer. -/
theorem answer_eq {s s' : Pool C A ε X W} {i : Nat} {o : O} (h : s.answer S i o = some s') :
    ∃ c k x a w x', s.threads[i]? = some ⟨.call c k, x⟩ ∧
      S.serve x s.world c o = some (a, w, x') ∧ s' = ⟨w, s.threads.set i ⟨k a, x'⟩⟩ := by
  unfold answer at h
  split at h
  · rename_i c k x hthread
    split at h
    · rename_i a w x' hserve
      exact ⟨c, k, x, a, w, x', hthread, hserve, (Option.some.inj h).symm⟩
    · simp at h
  · simp at h

/-- Two runs one after the other. -/
theorem Run.trans {s t u : Pool C A ε X W} (r : Run S jobs G s t) (r' : Run S jobs G t u) :
    Run S jobs G s u := by
  induction r' with
  | nil => exact r
  | snoc _ e hg hs ih => exact ih.snoc e hg hs

/-- Every other thread is beside the one at `i`. -/
theorem mem_beside {s : Pool C A ε X W} {i j : Nat} {t : Thread C A ε X} (hne : j ≠ i)
    (ht : s.threads[j]? = some t) : t.memory ∈ s.beside i := by
  refine List.mem_map_of_mem ?_
  rw [List.mem_iff_getElem?]
  rcases Nat.lt_or_gt_of_ne hne with hlt | hgt
  · exact ⟨j, by rw [List.getElem?_eraseIdx_of_lt hlt]; exact ht⟩
  · refine ⟨j - 1, ?_⟩
    rw [List.getElem?_eraseIdx_of_ge (by omega), Nat.sub_add_cancel (by omega)]
    exact ht

/-! ## Rely and guarantee -/

/-- What a thread meets: answers to its own calls, and between them the moves of the world and the
calls of the others. -/
def outside (S : Shared C A X W O V) (G : Watch C X W O V) (D : Duty C X W) :
    Outside C A (W × X) where
  answers s c a s' := ∃ others o, G.call others s.2 s.1 c o ∧
    S.serve s.2 s.1 c o = some (a, s'.1, s'.2)
  moves s s' := s'.2 = s.2 ∧
    ((∃ all v, s.2 ∈ all ∧ G.move all s.1 v ∧ S.move s.1 v = some s'.1) ∨
      ∃ others x c o a x', s.2 ∈ others ∧ D.inv s.1 ∧ D.may x s.1 c ∧ G.call others x s.1 c o ∧
        S.serve x s.1 c o = some (a, s'.1, x'))

/-- An assertion is stable when the moves of the world and the calls of others keep it. -/
theorem stable {D : Duty C X W} {P : W × X → Prop}
    (hmove : ∀ all w x v w', P (w, x) → x ∈ all → G.move all w v → S.move w v = some w' →
      P (w', x))
    (hcall : ∀ others w x y c o a w' y', P (w, x) → x ∈ others → D.inv w → D.may y w c →
      G.call others y w c o → S.serve y w c o = some (a, w', y') → P (w', x)) :
    (outside S G D).Stable P := by
  rintro ⟨w, x⟩ ⟨w', x'⟩ hp ⟨hx, hmoves⟩
  cases hx
  rcases hmoves with ⟨all, v, hall, hg, hm⟩ | ⟨others, y, c, o, a, y', hothers, hi, hmay, hg, hs⟩
  · exact hmove all w x v w' hp hall hg hm
  · exact hcall others w x y c o a w' y' hp hothers hi hmay hg hs

/-- What holds of every pool of a run: the invariant, and of each thread that it meets its
specification from wherever the others may have led. -/
def Good (S : Shared C A X W O V) (G : Watch C X W O V) (D : Duty C X W)
    (s : Pool C A ε X W) : Prop :=
  D.inv s.world ∧ ∀ t ∈ s.threads, ∀ s', (outside S G D).Later (s.world, t.memory) s' →
    D.inv s'.1 → (outside S G D).Spec D.contract (fun _ _ => True) (fun _ _ => True) t.prog s'

variable {D : Duty C X W}

/-- Whatever happens outside, a thread remembers what it remembers. -/
theorem later_memory {s s' : W × X} (h : (outside S G D).Later s s') : s'.2 = s.2 := by
  induction h with
  | refl => rfl
  | tail _ hm ih => exact hm.1.trans ih

theorem Good.answer {s s' : Pool C A ε X W} {i : Nat} {o : O} (h : Good S G D s)
    (hg : Meets G s (.answer i o : Event J O V)) (hs : s.answer S i o = some s') :
    Good S G D s' := by
  obtain ⟨hi, hthreads⟩ := h
  obtain ⟨c, k, x, a, w, x', hthread, hserve, rfl⟩ := answer_eq hs
  have hcall : G.call (s.beside i) x s.world c o := by simpa only [Meets, hthread] using hg
  have hspec := hthreads _ (List.mem_of_getElem? hthread) (s.world, x) .refl hi
  have hnext := hspec.2 a (w, x') ⟨s.beside i, o, hcall, hserve⟩
  refine ⟨hnext.1, fun t ht s' hlater hi' => ?_⟩
  obtain ⟨j, hj⟩ := List.mem_iff_getElem?.mp ht
  rw [List.getElem?_set] at hj
  by_cases hij : i = j
  · -- the thread that made the call goes on as its specification says
    rw [if_pos hij] at hj
    split at hj
    · cases hj
      exact hnext.2 s' hlater hi'
    · simp at hj
  · -- to every other thread the call was a move of the outside
    rw [if_neg hij] at hj
    have hmem : t.memory ∈ s.beside i := mem_beside (fun h => hij h.symm) hj
    have hmoved : (outside S G D).moves (s.world, t.memory) (w, t.memory) :=
      ⟨rfl, .inr ⟨s.beside i, x, c, o, a, x', hmem, hi, hspec.1, hcall, hserve⟩⟩
    exact hthreads t (List.mem_of_getElem? hj) s' (.head hmoved hlater) hi'

theorem Good.step {s s' : Pool C A ε X W} {e : Event J O V}
    (hmove : ∀ all w v w', D.inv w → G.move all w v → S.move w v = some w' → D.inv w')
    (hspec : ∀ j w, D.inv w → (outside S G D).Spec D.contract (fun _ _ => True) (fun _ _ => True)
      (jobs j).prog (w, (jobs j).memory))
    (h : Good S G D s) (hg : Meets G s e) (hs : s.step S jobs e = some s') : Good S G D s' := by
  cases e with
  | answer i o => exact h.answer hg hs
  | start j =>
    cases hs
    obtain ⟨hi, hthreads⟩ := h
    refine ⟨hi, fun t ht s' hlater hi' => ?_⟩
    rcases List.mem_append.mp ht with ht | ht
    · exact hthreads t ht s' hlater hi'
    · cases List.mem_singleton.mp ht
      obtain ⟨w', x'⟩ := s'
      cases later_memory hlater
      exact hspec j w' hi'
  | stop i =>
    cases hs
    exact ⟨h.1, fun t ht => h.2 t (List.mem_of_mem_eraseIdx ht)⟩
  | move v =>
    obtain ⟨w, hm, rfl⟩ := Option.map_eq_some_iff.mp hs
    obtain ⟨hi, hthreads⟩ := h
    refine ⟨hmove _ _ _ _ hi hg hm, fun t ht s' hlater hi' => ?_⟩
    have hmem : t.memory ∈ s.threads.map (·.memory) := List.mem_map_of_mem ht
    have hmoved : (outside S G D).moves (s.world, t.memory) (w, t.memory) :=
      ⟨rfl, .inl ⟨_, v, hmem, hg, hm⟩⟩
    exact hthreads t ht s' (.head hmoved hlater) hi'

/-- **Soundness.** When the moves of the world keep the invariant and each job meets its
specification among the others, every run that meets the condition stays good. -/
theorem Run.sound {init s : Pool C A ε X W}
    (hmove : ∀ all w v w', D.inv w → G.move all w v → S.move w v = some w' → D.inv w')
    (hspec : ∀ j w, D.inv w → (outside S G D).Spec D.contract (fun _ _ => True) (fun _ _ => True)
      (jobs j).prog (w, (jobs j).memory))
    (h0 : Good S G D init) (r : Run S jobs G init s) : Good S G D s := by
  induction r with
  | nil => exact h0
  | snoc r e hg hs ih => exact ih.step hmove hspec hg hs

theorem Good.of_idle {w : W} (h : D.inv w) : Good S G D (⟨w, []⟩ : Pool C A ε X W) :=
  ⟨h, fun t ht => by simp at ht⟩

/-- In a good pool every thread makes its next call where the duty allows it. -/
theorem Good.may {s : Pool C A ε X W} (h : Good S G D s) {t : Thread C A ε X}
    (ht : t ∈ s.threads) {c : C} {k : A c → Prog C A ε Unit} (hp : t.prog = .call c k) :
    D.may t.memory s.world c := by
  have hspec := h.2 t ht _ .refl h.1
  rw [hp] at hspec
  exact hspec.1

/-! ## Protocols

Where an invariant is about the threads together, such as a counter of those that are in a section,
no thread can be verified among anonymous others. Then each program is only held to a protocol, on
its own memory, and the invariant is about the world and all memories. -/

/-- A thread on its own, which may be answered as in any world. -/
def alone (S : Shared C A X W O V) : Outside C A X where
  answers x c a x' := ∃ w o w', S.serve x w c o = some (a, w', x')
  moves _ _ := False

/-- The calls that a thread with this memory may make. -/
def protocol (may : X → C → Prop) : Contract C X := ⟨fun _ => True, may⟩

/-- The program follows the protocol from `x` on, and has a memory of `Q` when it ends well. -/
abbrev Follows {α : Type} (S : Shared C A X W O V) (may : X → C → Prop) (Q : α → X → Prop)
    (p : Prog C A ε α) (x : X) : Prop :=
  (alone S).Spec (protocol may) Q (fun _ _ => True) p x

/-- The rule for a call of a thread on its own. -/
theorem alone_call {α : Type} {may : X → C → Prop} {Q : α → X → Prop} {E : ε → X → Prop} {x : X}
    {c : C} {k : A c → Prog C A ε α} (hmay : may x c)
    (h : ∀ w o a w' x', S.serve x w c o = some (a, w', x') →
      (alone S).Spec (protocol may) Q E (k a) x') :
    (alone S).Spec (protocol may) Q E (.call c k) x := by
  refine ⟨hmay, fun a x' hanswer => ⟨trivial, fun x'' hlater _ => ?_⟩⟩
  obtain ⟨w, o, w', hserve⟩ := hanswer
  -- nothing moves beside a thread on its own
  have hx : x'' = x' := by
    induction hlater with
    | refl => rfl
    | tail _ hm _ => exact hm.elim
  rw [hx]
  exact h w o a w' x' hserve

namespace Follows

variable {α β : Type} {may : X → C → Prop} {Q : α → X → Prop} {x : X}

/-- The rule for a call. -/
theorem call {c : C} {k : A c → Prog C A ε α} (hmay : may x c)
    (h : ∀ w o a w' x', S.serve x w c o = some (a, w', x') → Follows S may Q (k a) x') :
    Follows S may Q (.call c k) x :=
  alone_call hmay h

theorem bind {R : β → X → Prop} {p : Prog C A ε β} {f : β → Prog C A ε α}
    (hp : Follows S may R p x) (hf : ∀ b x', R b x' → Follows S may Q (f b) x') :
    Follows S may Q (p.bind f) x :=
  Outside.Spec.bind hp hf

/-- A program whose calls the protocol allows wherever `P` holds, and which keep it. -/
theorem of_calls {F : C → Prop} {P : X → Prop} {p : Prog C A ε α} (hp : p.Calls F) (hx : P x)
    (hmay : ∀ x c, F c → P x → may x c)
    (hstep : ∀ x w c o a w' x', F c → P x → S.serve x w c o = some (a, w', x') → P x') :
    Follows S may (fun _ => P) p x := by
  refine (Outside.Spec.of_calls (P := P) hp (fun _ _ _ hm => False.elim hm) hx trivial
    (fun x c hc _ hP => hmay x c hc hP) ?_).mono (fun _ _ h => h.1) fun _ _ _ => trivial
  rintro x c a x' hc - hP ⟨w, o, w', hserve⟩
  exact ⟨trivial, hstep x w c o a w' x' hc hP hserve⟩

end Follows

/-- Every step keeps `I`, when threads call as their protocol allows. -/
structure Keeps (S : Shared C A X W O V) (G : Watch C X W O V) (may : X → C → Prop) (memory : J → X)
    (I : W → List X → Prop) : Prop where
  start : ∀ w xs j, I w xs → I w (xs ++ [memory j])
  stop : ∀ w xs i, I w xs → I w (xs.eraseIdx i)
  move : ∀ w xs v w', I w xs → G.move xs w v → S.move w v = some w' → I w' xs
  call : ∀ w xs i x c o a w' x', I w xs → xs[i]? = some x → may x c →
    G.call (xs.eraseIdx i) x w c o → S.serve x w c o = some (a, w', x') → I w' (xs.set i x')

/-- The memories of the threads. -/
def memories (s : Pool C A ε X W) : List X := s.threads.map (·.memory)

theorem beside_eq (s : Pool C A ε X W) (i : Nat) : s.beside i = s.memories.eraseIdx i :=
  (List.eraseIdx_map _ _ _).symm

/-- **Soundness of protocols.** When every job follows the protocol and every step keeps `I`, every
run that meets the condition does; and what a job comes to on its own, it comes to in the run. -/
theorem Run.meets {may : X → C → Prop} {I : W → List X → Prop} {Q E : X → Prop} {w : W}
    {s : Pool C A ε X W} (h : Keeps S G may (fun j => (jobs j).memory) I)
    (hjobs : ∀ j, (alone S).Spec (protocol may) (fun _ => Q) (fun _ => E) (jobs j).prog
      (jobs j).memory)
    (h0 : I w []) (r : Run S jobs G ⟨w, []⟩ s) :
    I s.world s.memories ∧ ∀ t ∈ s.threads,
      (alone S).Spec (protocol may) (fun _ => Q) (fun _ => E) t.prog t.memory := by
  induction r with
  | nil => exact ⟨h0, fun t ht => by simp at ht⟩
  | @snoc s s' _ e hg hs ih =>
    obtain ⟨hi, hthreads⟩ := ih
    cases e with
    | start j =>
      cases hs
      refine ⟨?_, fun t ht => ?_⟩
      · simp only [memories, List.map_append, List.map_cons, List.map_nil]
        exact h.start _ _ j hi
      · rcases List.mem_append.mp ht with ht | ht
        · exact hthreads t ht
        · cases List.mem_singleton.mp ht
          exact hjobs j
    | stop i =>
      cases hs
      refine ⟨?_, fun t ht => hthreads t (List.mem_of_mem_eraseIdx ht)⟩
      show I s.world ((s.threads.eraseIdx i).map (·.memory))
      rw [← List.eraseIdx_map]
      exact h.stop _ _ i hi
    | move v =>
      obtain ⟨w', hm, rfl⟩ := Option.map_eq_some_iff.mp hs
      exact ⟨h.move _ _ v w' hi hg hm, hthreads⟩
    | answer i o =>
      obtain ⟨c, k, x, a, w', x', hthread, hserve, rfl⟩ := answer_eq hs
      have hcall : G.call (s.beside i) x s.world c o := by simpa only [Meets, hthread] using hg
      have hspec := hthreads _ (List.mem_of_getElem? hthread)
      have hnext := (hspec.2 a x' ⟨s.world, o, w', hserve⟩).2 x' .refl trivial
      refine ⟨?_, fun t ht => ?_⟩
      · simp only [memories, List.map_set]
        rw [beside_eq] at hcall
        refine h.call _ _ i x c o a w' x' hi ?_ hspec.1 hcall hserve
        simp [hthread]
      · rcases List.mem_or_eq_of_mem_set ht with ht | rfl
        · exact hthreads t ht
        · exact hnext

theorem Run.keeps {may : X → C → Prop} {I : W → List X → Prop} {w : W}
    {s : Pool C A ε X W} (h : Keeps S G may (fun j => (jobs j).memory) I)
    (hjobs : ∀ j, Follows S may (fun _ _ => True) (jobs j).prog (jobs j).memory)
    (h0 : I w []) (r : Run S jobs G ⟨w, []⟩ s) :
    I s.world s.memories ∧
      ∀ t ∈ s.threads, Follows S may (fun _ _ => True) t.prog t.memory :=
  r.meets h hjobs h0

end Pool

end FluidBG.Lib
