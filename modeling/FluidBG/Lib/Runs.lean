import FluidBG.Lib.Prog
/-!
# The runs of a program

A run of a program is the list of the calls it made with the answers it got, and its outcome. Any
answer may be given to any call, so a fact about all runs holds against every outside.
-/

set_option autoImplicit false

namespace FluidBG.Lib.Prog

variable {C : Type} {A : C → Type} {ε α β : Type}

/-- A call with its answer. -/
abbrev Event (A : C → Type) : Type := Σ c : C, A c

/-- The program makes these calls, gets these answers, and ends so. -/
inductive Run : Prog C A ε α → List (Event A) → Except ε α → Prop
  | pure (a : α) : Run (.pure a) [] (.ok a)
  | fail (e : ε) : Run (.fail e) [] (.error e)
  | call (c : C) (k : A c → Prog C A ε α) (a : A c) (trace : List (Event A)) (r : Except ε α)
      (rest : Run (k a) trace r) : Run (.call c k) (⟨c, a⟩ :: trace) r

namespace Run

variable {p : Prog C A ε α} {f : α → Prog C A ε β} {trace trace' : List (Event A)}

theorem bind {a : α} {r : Except ε β} (hp : p.Run trace (.ok a)) (hf : (f a).Run trace' r) :
    (p.bind f).Run (trace ++ trace') r := by
  generalize hok : (.ok a : Except ε α) = o at hp
  induction hp with
  | pure b =>
    cases hok
    exact hf
  | fail e => cases hok
  | call c k b trace o _ ih => exact .call c _ b _ _ (ih hok)

/-- A run of two programs in a row ends in the first one, or goes through it. -/
theorem of_bind {r : Except ε β} (h : (p.bind f).Run trace r) :
    (∃ e, p.Run trace (.error e) ∧ r = .error e) ∨
      ∃ a first rest, p.Run first (.ok a) ∧ (f a).Run rest r ∧ trace = first ++ rest := by
  induction p generalizing trace with
  | pure a => exact .inr ⟨a, [], trace, .pure a, h, rfl⟩
  | fail e =>
    cases h
    exact .inl ⟨e, .fail e, rfl⟩
  | call c k ih =>
    cases h with
    | call _ _ b trace _ rest =>
      rcases ih b rest with ⟨e, hrun, hr⟩ | ⟨a, first, second, hfirst, hsecond, htrace⟩
      · exact .inl ⟨e, .call c k b _ _ hrun, hr⟩
      · refine .inr ⟨a, ⟨c, b⟩ :: first, second, .call c k b _ _ hfirst, hsecond, ?_⟩
        rw [htrace]
        rfl

/-- The events of a run are calls the program may make. -/
theorem calls {F : C → Prop} {r : Except ε α} (h : p.Run trace r) (hp : p.Calls F) :
    ∀ e ∈ trace, F e.1 := by
  induction h with
  | pure a => simp
  | fail e => simp
  | call c k a trace r _ ih =>
    intro e he
    rcases List.mem_cons.mp he with rfl | he
    · exact hp.1
    · exact ih (hp.2 a) e he

/-- A loop that came to its end went through every turn. -/
theorem of_forEach {xs : List α} {body : α → Prog C A ε Unit}
    (h : (Prog.forEach xs body).Run trace (.ok ())) :
    ∀ x ∈ xs, ∃ turn, (body x).Run turn (.ok ()) ∧ ∀ e ∈ turn, e ∈ trace := by
  induction xs generalizing trace with
  | nil => simp
  | cons x xs ih =>
    rcases of_bind h with ⟨e, -, he⟩ | ⟨_, first, rest, hfirst, hrest, rfl⟩
    · cases he
    · intro y hy
      rcases List.mem_cons.mp hy with rfl | hy
      · exact ⟨first, hfirst, fun e he => List.mem_append_left rest he⟩
      · obtain ⟨turn, hturn, hmem⟩ := ih hrest y hy
        exact ⟨turn, hturn, fun e he => List.mem_append_right first (hmem e he)⟩

theorem forEach {xs : List α} {body : α → Prog C A ε Unit}
    (h : ∀ x ∈ xs, ∃ turn, (body x).Run turn (.ok ())) :
    ∃ trace, (Prog.forEach xs body).Run trace (.ok ()) := by
  induction xs with
  | nil => exact ⟨[], .pure ()⟩
  | cons x xs ih =>
    obtain ⟨turn, hturn⟩ := h x List.mem_cons_self
    obtain ⟨rest, hrest⟩ := ih fun y hy => h y (List.mem_cons_of_mem _ hy)
    exact ⟨turn ++ rest, hturn.bind hrest⟩

end Run

/-! ## Runs of composed programs -/

namespace Run

variable {p : Prog C A ε α} {f : α → Prog C A ε β} {trace : List (Event A)}

/-- An error of the first program ends the whole. -/
theorem bind_fail {e : ε} (hp : p.Run trace (.error e)) : (p.bind f).Run trace (.error e) := by
  generalize hfail : (.error e : Except ε α) = o at hp
  induction hp with
  | pure b => cases hfail
  | fail e' =>
    cases hfail
    exact .fail e
  | call c k b trace o _ ih => exact .call c _ b _ _ (ih hfail)

theorem bind_iff {r : Except ε β} :
    (p.bind f).Run trace r ↔ (∃ e, p.Run trace (.error e) ∧ r = .error e) ∨
      ∃ a first rest, p.Run first (.ok a) ∧ (f a).Run rest r ∧ trace = first ++ rest := by
  constructor
  · exact of_bind
  · rintro (⟨e, hp, rfl⟩ | ⟨a, first, rest, hfirst, hrest, rfl⟩)
    · exact hp.bind_fail
    · exact hfirst.bind hrest

/-- A caught outcome is a value. -/
theorem result_iff {δ : Type} {r : Except δ (Except ε α)} :
    (p.result : Prog C A δ (Except ε α)).Run trace r ↔ ∃ o, p.Run trace o ∧ r = .ok o := by
  induction p generalizing trace with
  | pure a =>
    constructor
    · intro h
      cases h
      exact ⟨.ok a, .pure a, rfl⟩
    · rintro ⟨o, ho, rfl⟩
      cases ho
      exact .pure _
  | fail e =>
    constructor
    · intro h
      cases h
      exact ⟨.error e, .fail e, rfl⟩
    · rintro ⟨o, ho, rfl⟩
      cases ho
      exact .pure _
  | call c k ih =>
    constructor
    · intro h
      cases h with
      | call _ _ a rest _ hrest =>
        obtain ⟨o, ho, hr⟩ := (ih a).mp hrest
        exact ⟨o, .call c k a rest o ho, hr⟩
    · rintro ⟨o, ho, hr⟩
      cases ho with
      | call _ _ a rest _ hrest => exact .call c _ a rest r ((ih a).mpr ⟨o, hrest, hr⟩)

/-- The runs of a lifted program are those of the program, call by call. -/
theorem lift_iff {C' : Type} {A' : C' → Type} {g : C → C'} {back : ∀ c, A' (g c) → A c}
    {trace : List (Event A')} {r : Except ε α} :
    (p.lift g back).Run trace r ↔ ∃ events : List (Σ c, A' (g c)),
      p.Run (events.map fun e => ⟨e.1, back e.1 e.2⟩) r ∧
      trace = events.map fun e => ⟨g e.1, e.2⟩ := by
  induction p generalizing trace with
  | pure a =>
    constructor
    · intro h
      cases h
      exact ⟨[], .pure a, rfl⟩
    · rintro ⟨events, hp, rfl⟩
      cases events with
      | nil =>
        cases hp
        exact .pure a
      | cons e events => cases hp
  | fail e =>
    constructor
    · intro h
      cases h
      exact ⟨[], .fail e, rfl⟩
    · rintro ⟨events, hp, rfl⟩
      cases events with
      | nil =>
        cases hp
        exact .fail e
      | cons e events => cases hp
  | call c k ih =>
    constructor
    · intro h
      cases h with
      | call _ _ a rest _ hrest =>
        obtain ⟨events, hevents, rfl⟩ := (ih (back c a)).mp hrest
        exact ⟨⟨c, a⟩ :: events, .call c k (back c a) _ r hevents, rfl⟩
    · rintro ⟨events, hp, rfl⟩
      cases events with
      | nil => cases hp
      | cons e events =>
        obtain ⟨d, a⟩ := e
        cases hp with
        | call _ _ _ _ _ hrest =>
          exact .call (g d) _ a _ r ((ih (back d a)).mpr ⟨events, hrest, rfl⟩)

theorem pure_iff {a : α} {r : Except ε α} :
    (Prog.pure a : Prog C A ε α).Run trace r ↔ trace = [] ∧ r = .ok a := by
  constructor
  · intro h
    cases h
    exact ⟨rfl, rfl⟩
  · rintro ⟨rfl, rfl⟩
    exact .pure a

theorem fail_iff {e : ε} {r : Except ε α} :
    (Prog.fail e : Prog C A ε α).Run trace r ↔ trace = [] ∧ r = .error e := by
  constructor
  · intro h
    cases h
    exact ⟨rfl, rfl⟩
  · intro h
    rw [h.1, h.2]
    exact .fail e

/-- The runs that begin with one call. -/
theorem ask_bind_iff {c : C} {f : A c → Prog C A ε β} {r : Except ε β} :
    ((ask c).bind f).Run trace r ↔ ∃ a rest, trace = ⟨c, a⟩ :: rest ∧ (f a).Run rest r := by
  constructor
  · intro h
    cases h with
    | call _ _ a rest _ hrest => exact ⟨a, rest, rfl, hrest⟩
  · rintro ⟨a, rest, rfl, hrest⟩
    exact .call c _ a rest r hrest

end Run

/-! ## Calls that are retried -/

/-- What one try of a retried call says: it ends with a value or an error, or asks for another. -/
def Leaf (p : Prog C A ε (Option α)) : Prop :=
  p = .pure none ∨ (∃ a, p = .pure (some a)) ∨ ∃ e, p = .fail e

section Retry

variable {c : C} {round : A c → Prog C A ε (Option α)} {out : Prog C A ε α}

/-- The end of a retried call on its answer `a`. -/
def Ends (round : A c → Prog C A ε (Option α)) (a : A c) (r : Except ε α) : Prop :=
  (∃ b, round a = .pure (some b) ∧ r = .ok b) ∨ ∃ e, round a = .fail e ∧ r = .error e

theorem run_retryStep_iff (hleaf : ∀ a, Leaf (round a)) {n i : Nat} {trace : List (Event A)}
    {r : Except ε α} :
    (Prog.retry.go (fun _ => (ask c).bind round) out (n + 1) i).Run trace r ↔
      ∃ a rest, trace = ⟨c, a⟩ :: rest ∧
        ((round a = .pure none ∧
            (Prog.retry.go (fun _ => (ask c).bind round) out n (i + 1)).Run rest r) ∨
          rest = [] ∧ Ends round a r) := by
  constructor
  · intro h
    cases h with
    | call _ _ a rest _ hrest =>
      refine ⟨a, rest, rfl, ?_⟩
      rcases hleaf a with hnone | ⟨b, hsome⟩ | ⟨e, hfail⟩
      · simp only [pure_bind, hnone] at hrest
        exact .inl ⟨hnone, hrest⟩
      · simp only [pure_bind, hsome] at hrest
        cases hrest
        exact .inr ⟨rfl, .inl ⟨b, hsome, rfl⟩⟩
      · simp only [pure_bind, hfail, fail_bind] at hrest
        cases hrest
        exact .inr ⟨rfl, .inr ⟨e, hfail, rfl⟩⟩
  · intro ⟨a, rest, htrace, h⟩
    rw [htrace]
    refine .call c _ a rest r ?_
    rcases h with ⟨hnone, hrest⟩ | ⟨hrest, ⟨b, hsome, hr⟩ | ⟨e, hfail, hr⟩⟩
    · simp only [pure_bind, hnone]
      exact hrest
    · simp only [pure_bind, hsome, hrest, hr]
      exact .pure b
    · simp only [pure_bind, hfail, fail_bind, hrest, hr]
      exact .fail e

/-- **The runs of a retried call**: the same call again and again as long as the answers ask for
it, at most `n` times. -/
theorem run_retry_iff (hleaf : ∀ a, Leaf (round a)) {n : Nat} {trace : List (Event A)}
    {r : Except ε α} :
    (Prog.retry n (fun _ => (ask c).bind round) out).Run trace r ↔
      ∃ again : List (A c), (∀ a ∈ again, round a = .pure none) ∧
        ((∃ last, again.length = n ∧ trace = again.map (fun a => ⟨c, a⟩) ++ last ∧
            out.Run last r) ∨
          ∃ a, again.length < n ∧ trace = again.map (fun a => ⟨c, a⟩) ++ [⟨c, a⟩] ∧
            Ends round a r) := by
  unfold Prog.retry
  generalize 0 = i
  induction n generalizing i trace with
  | zero =>
    constructor
    · intro h
      exact ⟨[], by simp, .inl ⟨trace, rfl, rfl, h⟩⟩
    · intro ⟨again, _, h⟩
      rcases h with ⟨last, hlength, rfl, hlast⟩ | ⟨a, hlt, -⟩
      · rw [List.length_eq_zero_iff.mp hlength]
        exact hlast
      · exact absurd hlt (Nat.not_lt_zero _)
  | succ n ih =>
    rw [run_retryStep_iff hleaf]
    constructor
    · intro ⟨a, rest, htrace, h⟩
      rcases h with ⟨hnone, hrest⟩ | ⟨hrest, hends⟩
      · obtain ⟨again, hagain, hcases⟩ := (ih _).mp hrest
        refine ⟨a :: again, List.forall_mem_cons.mpr ⟨hnone, hagain⟩, ?_⟩
        rcases hcases with ⟨last, hlength, hrest, hlast⟩ | ⟨b, hlt, hrest, hends⟩
        · exact .inl ⟨last, by simp [hlength], by simp [htrace, hrest], hlast⟩
        · exact .inr ⟨b, by simpa using hlt, by simp [htrace, hrest], hends⟩
      · exact ⟨[], by simp, .inr ⟨a, Nat.succ_pos n, by simp [htrace, hrest], hends⟩⟩
    · intro ⟨again, hagain, hcases⟩
      cases again with
      | nil =>
        rcases hcases with ⟨last, hlength, -⟩ | ⟨a, -, htrace, hends⟩
        · cases hlength
        · exact ⟨a, [], htrace, .inr ⟨rfl, hends⟩⟩
      | cons a again =>
        obtain ⟨hnone, hagain⟩ := List.forall_mem_cons.mp hagain
        rcases hcases with ⟨last, hlength, htrace, hlast⟩ | ⟨b, hlt, htrace, hends⟩
        · exact ⟨a, _, htrace, .inl ⟨hnone, (ih _).mpr ⟨again, hagain,
            .inl ⟨last, by simpa using hlength, rfl, hlast⟩⟩⟩⟩
        · exact ⟨a, _, htrace, .inl ⟨hnone, (ih _).mpr ⟨again, hagain,
            .inr ⟨b, by simpa using hlt, rfl, hends⟩⟩⟩⟩

end Retry

end FluidBG.Lib.Prog
