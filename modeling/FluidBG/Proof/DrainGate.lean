import FluidBG.Plugins.Http
/-!
# The drain gate

A request counts itself before it looks at the mode a second time, so no request is admitted from
the moment on at which the mode is stored and its counter is read **after** that. `drain_status`
reads in the other order: first the counter, then the mode. A counter of zero that was read while
the plugin was active says nothing about the requests that are admitted until the mode changes.

The guard is a local of the handler. It is dropped before the handler returns the response, so no
admitted request counts as active while its response is delivered.
-/

set_option autoImplicit false

namespace FluidBG.Http

open Lib

/-! ## Protocol -/

/-- Where a handler makes its calls. -/
def May (x : GateMemory) : GateCall → Prop
  | .loadMode => x = .fresh ∨ x = .counted ∨ ∃ active, x = .read active
  | .storeMode _ => x = .fresh
  | .loadActive => x = .fresh
  | .fetchAdd => x = .checked
  | .fetchSub => x = .refused ∨ x = .admitted false
  | .forward => x = .admitted false
  | .send _ => x = .fresh ∨ x = .released
  | .reply status => ∃ drained, x = .told drained ∧ status.drained = drained

abbrev GateOp.Follows {α : Type} (Q : α → GateMemory → Prop) (p : GateOp α) (x : GateMemory) :
    Prop :=
  Pool.Follows gate May Q p x

variable {α : Type} {Q : α → GateMemory → Prop} {x : GateMemory}

/-- The rule for a call, as the gate serves it. -/
theorem GateOp.Follows.ask {c : GateCall} {k : GateAnswer c → GateOp α} (hmay : May x c)
    (h : ∀ w o, GateOp.Follows Q (k (Gate.serve x w c o).1) (Gate.serve x w c o).2.2) :
    GateOp.Follows Q ((Prog.ask c : GateOp (GateAnswer c)).bind k) x := by
  refine Pool.Follows.call hmay ?_
  intro w o a w' x' hserve
  have heq : Gate.serve x w c o = (a, w', x') := Option.some.inj hserve
  have hnext := h w o
  rw [heq] at hnext
  exact hnext

theorem GateOp.Follows.last {c : GateCall} {R : GateAnswer c → GateMemory → Prop} (hmay : May x c)
    (h : ∀ w o, R (Gate.serve x w c o).1 (Gate.serve x w c o).2.2) :
    GateOp.Follows R (Prog.ask c : GateOp (GateAnswer c)) x := by
  rw [← Prog.bind_pure (Prog.ask c : GateOp (GateAnswer c))]
  exact GateOp.Follows.ask hmay h

/-- **Admission.** A guard is given exactly to a request that is admitted. -/
theorem follows_tryNew :
    GateOp.Follows (fun guard x => x = if guard.isSome then .admitted false else .fresh)
      ActiveRequestGuard.tryNew .fresh := by
  refine GateOp.Follows.ask (.inl rfl) ?_
  intro w _
  show GateOp.Follows _ (if w.mode ≠ .active then _ else _) (GateMemory.loaded w.mode .fresh)
  by_cases hactive : w.mode = .active
  · -- it counts itself, and looks again
    simp only [hactive, ne_eq, not_true_eq_false, if_false, GateMemory.loaded, if_true]
    refine GateOp.Follows.ask rfl fun _ _ => GateOp.Follows.ask (.inr (.inl rfl)) ?_
    intro w' _
    show GateOp.Follows _ (if w'.mode ≠ .active then _ else _) (GateMemory.loaded w'.mode .counted)
    by_cases hstill : w'.mode = .active
    · simp only [hstill, ne_eq, not_true_eq_false, if_false, GateMemory.loaded, if_true]
      exact rfl
    · simp only [hstill, ne_eq, not_false_eq_true, if_true, GateMemory.loaded, if_false]
      exact GateOp.Follows.ask (.inl rfl) fun _ _ => rfl
  · simp only [hactive, ne_eq, not_false_eq_true, if_true, GateMemory.loaded, if_false]
    exact rfl

/-- A handler that has returned a response holds no guard. -/
abbrev Done : Option HttpResponse → GateMemory → Prop :=
  fun _ x => x = .fresh ∨ x = .released

theorem follows_drop (response : Option HttpResponse) (guard : ActiveRequestGuard) :
    GateOp.Follows Done (guard.drop.bind fun _ => .pure response) (.admitted false) :=
  GateOp.Follows.ask (.inr rfl) fun _ _ => .inr rfl

theorem follows_forward (guard : ActiveRequestGuard) :
    GateOp.Follows Done
      ((Prog.ask GateCall.forward : GateOp (Option HttpResponse)).bind fun response =>
        guard.drop.bind fun _ => .pure response) (.admitted false) :=
  GateOp.Follows.ask rfl fun _ o => follows_drop o guard

/-- What a handler does with an answer of `try_new`. -/
theorem follows_admitted {f : Option ActiveRequestGuard → GateOp (Option HttpResponse)}
    (hnone : GateOp.Follows Done (f none) .fresh)
    (hsome : ∀ guard, GateOp.Follows Done (f (some guard)) (.admitted false)) :
    GateOp.Follows Done (ActiveRequestGuard.tryNew.bind f) .fresh := by
  refine Pool.Follows.bind follows_tryNew ?_
  intro guard x hx
  subst hx
  cases guard with
  | none => exact hnone
  | some guard => exact hsome guard

theorem follows_proxyHandler (state : AppState) :
    GateOp.Follows Done (proxyHandler state) .fresh := by
  unfold proxyHandler
  split
  · exact .inl rfl
  · exact follows_admitted (.inl rfl) follows_forward

theorem follows_writeHandler (state : AppState) (header : Option String) :
    GateOp.Follows Done (writeHandler state header) .fresh := by
  unfold writeHandler
  split
  · exact .inl rfl
  · split
    · exact .inl rfl
    · refine follows_admitted (.inl rfl) ?_
      intro guard
      cases htarget : state.writeTarget with
      | none => exact follows_drop _ guard
      | some _ => exact follows_forward guard

theorem follows_sending {handler : GateOp (Option HttpResponse)}
    (h : GateOp.Follows Done handler .fresh) :
    GateOp.Follows (fun _ _ => True) (sending handler) .fresh := by
  refine Pool.Follows.bind h ?_
  intro response x hx
  cases response with
  | none => trivial
  | some response => exact GateOp.Follows.last hx fun _ _ => trivial

theorem follows_authorizeOperator (state : AppState) (header : Option String) :
    GateOp.Follows (fun _ x => x = .fresh) (authorizeOperator state header) .fresh := by
  unfold authorizeOperator
  split
  · exact rfl
  · exact trivial

theorem follows_storingHandler (mode : RuntimeMode) (state : AppState) (header : Option String) :
    GateOp.Follows (fun _ _ => True) (storingHandler mode state header) .fresh := by
  refine Pool.Follows.bind (follows_authorizeOperator state header) ?_
  intro _ x hx
  subst hx
  exact GateOp.Follows.ask rfl fun _ _ => trivial

/-- **A drain status answers what it is decided with.** -/
theorem follows_drainStatus (state : AppState) (header : Option String) :
    GateOp.Follows (fun status x => x = .told status.drained) (drainStatus state header)
      .fresh := by
  refine Pool.Follows.bind (follows_authorizeOperator state header) ?_
  intro _ x hx
  subst hx
  refine GateOp.Follows.ask rfl fun w _ => GateOp.Follows.ask (.inr (.inr ⟨_, rfl⟩)) ?_
  intro w' _
  exact rfl

/-- Every request keeps to the protocol. -/
theorem follows_request (state : AppState) (req : HttpRequest) :
    GateOp.Follows (fun _ _ => True) (request state req).prog (request state req).memory := by
  have hstore : ∀ mode header, GateOp.Follows (fun _ _ => True)
      ((storingHandler mode state header).bind fun _ => .pure ()) .fresh :=
    fun mode header =>
      Pool.Follows.bind (follows_storingHandler mode state header) fun _ _ _ => trivial
  cases req with
  | proxy => exact follows_sending (follows_proxyHandler state)
  | write header => exact follows_sending (follows_writeHandler state header)
  | prepare header => exact hstore .idle header
  | activate header => exact hstore .active header
  | drain header => exact hstore .draining header
  | cleanup header => exact hstore .draining header
  | drainStatus header =>
    refine Pool.Follows.bind (follows_drainStatus state header) ?_
    intro status x hx
    exact GateOp.Follows.last ⟨status.drained, hx, rfl⟩ fun _ _ => trivial

/-! ## The condition -/

/-- No guard is alive. -/
def Quiet (xs : List GateMemory) : Prop := ∀ x ∈ xs, x.alive = false

instance (xs : List GateMemory) : Decidable (Quiet xs) :=
  inferInstanceAs (Decidable (∀ x ∈ xs, _))

/-- **What the gate needs of the steps of a run.** The plugin does not begin to drain between the
two loads of a drain status that has read a counter of zero, while a guard is alive. -/
def settled : Watch GateCall GateMemory Gate (Option HttpResponse) Empty where
  call others _ _ c _ := c = .storeMode .draining → .read 0 ∈ others → Quiet others
  move _ _ _ := True

/-! ## The invariant -/

/-- **The gate.** Whoever may be admitted counts as active; where a drain status has read zero and
the plugin drains, nobody is admitted; and so it stays once that has been reported. -/
structure Gated (w : Gate) (xs : List GateMemory) : Prop where
  counted : xs.countP (·.counts) ≤ w.activeRequests
  reading : .read 0 ∈ xs → w.mode = .draining → Quiet xs
  reported : w.reported = true → w.mode ≠ .active ∧ Quiet xs

variable {w : Gate} {xs : List GateMemory} {i : Nat} {x' : GateMemory}

theorem GateMemory.counts_of_alive (h : x.alive = true) : x.counts = true := by
  cases x with
  | admitted delivered => rfl
  | _ => simp [GateMemory.alive] at h

theorem quiet_of_countP (h : xs.countP (·.counts) = 0) : Quiet xs := by
  intro x hx
  by_contra halive
  have hcounts := GateMemory.counts_of_alive (by simpa using halive)
  have hpos : 0 < xs.countP (·.counts) := List.countP_pos_iff.mpr ⟨x, hx, hcounts⟩
  omega

theorem Quiet.set (h : Quiet xs) (hx' : x'.alive = false) : Quiet (xs.set i x') := by
  intro y hy
  rcases List.mem_or_eq_of_mem_set hy with hy | rfl
  · exact h y hy
  · exact hx'

theorem GateMemory.loaded_counts (mode : RuntimeMode) (x : GateMemory) :
    (x.loaded mode).counts = x.counts := by
  cases x with
  | fresh => by_cases h : mode = .active <;> simp [loaded, h, counts]
  | counted => by_cases h : mode = .active <;> simp [loaded, h, counts]
  | _ => rfl

/-- Nobody is admitted unless the plugin is active. -/
theorem GateMemory.loaded_alive {mode : RuntimeMode} (hmode : mode ≠ .active)
    (hx : x.alive = false) : (x.loaded mode).alive = false := by
  cases x with
  | fresh => simp [loaded, hmode, alive]
  | counted => simp [loaded, hmode, alive]
  | admitted delivered => simp [alive] at hx
  | _ => rfl

theorem GateMemory.loaded_ne_read (mode : RuntimeMode) (x : GateMemory) (active : Nat) :
    x.loaded mode ≠ .read active := by
  cases x with
  | fresh => by_cases h : mode = .active <;> simp [loaded, h]
  | counted => by_cases h : mode = .active <;> simp [loaded, h]
  | _ => simp [loaded]

/-- A drain status that may load the mode is decided with `drained` when the plugin drains and the
counter was zero. -/
theorem GateMemory.loaded_told {mode : RuntimeMode} (hmay : May x .loadMode)
    (h : x.loaded mode = .told true) : x = .read 0 ∧ mode = .draining := by
  rcases hmay with rfl | rfl | ⟨active, rfl⟩
  · by_cases hmode : mode = .active <;> simp [loaded, hmode] at h
  · by_cases hmode : mode = .active <;> simp [loaded, hmode] at h
  · simp only [loaded, told.injEq, Bool.and_eq_true, decide_eq_true_eq] at h
    exact ⟨by rw [h.2], h.1⟩

theorem mem_of_set {y : GateMemory} (h : y ∈ xs.set i x') (hne : y ≠ x') : y ∈ xs :=
  (List.mem_or_eq_of_mem_set h).resolve_right hne

/-! ### Steps -/

theorem Gated.begin (h : Gated w xs) : Gated w (xs ++ [.fresh]) := by
  have hquiet : Quiet xs → Quiet (xs ++ [.fresh]) := by
    intro hq y hy
    rcases List.mem_append.mp hy with hy | hy
    · exact hq y hy
    · rw [List.mem_singleton.mp hy]
      rfl
  constructor
  · simp only [List.countP_append, List.countP_cons, List.countP_nil, GateMemory.counts]
    exact h.counted
  · intro hread hmode
    rcases List.mem_append.mp hread with hread | hread
    · exact hquiet (h.reading hread hmode)
    · simp at hread
  · intro hreported
    exact ⟨(h.reported hreported).1, hquiet (h.reported hreported).2⟩

theorem Gated.stop (h : Gated w xs) (i : Nat) : Gated w (xs.eraseIdx i) := by
  have hquiet : Quiet xs → Quiet (xs.eraseIdx i) :=
    fun hq y hy => hq y (List.mem_of_mem_eraseIdx hy)
  constructor
  · exact le_trans (List.eraseIdx_sublist xs i).countP_le h.counted
  · intro hread hmode
    exact hquiet (h.reading (List.mem_of_mem_eraseIdx hread) hmode)
  · intro hreported
    exact ⟨(h.reported hreported).1, hquiet (h.reported hreported).2⟩

/-- **The mode is loaded.** A request is admitted only while the plugin is active, and a drain
status is decided on what it has read. -/
theorem Gated.load (h : Gated w xs) (hx : xs[i]? = some x) (hmay : May x .loadMode) :
    Gated { w with reported := w.reported || x.loaded w.mode = .told true }
      (xs.set i (x.loaded w.mode)) := by
  have hmem : x ∈ xs := List.mem_of_getElem? hx
  have hquiet : w.mode ≠ .active → Quiet xs → Quiet (xs.set i (x.loaded w.mode)) :=
    fun hmode hq => hq.set (GateMemory.loaded_alive hmode (hq x hmem))
  constructor
  · have hset : (xs.set i (x.loaded w.mode)).countP (·.counts) + x.counts.toNat =
        xs.countP (·.counts) + (x.loaded w.mode).counts.toNat :=
      Pool.countP_set_memory GateMemory.counts (x.loaded w.mode) hx
    rw [GateMemory.loaded_counts] at hset
    have hcounted := h.counted
    show (xs.set i (x.loaded w.mode)).countP (·.counts) ≤ w.activeRequests
    omega
  · intro hread hmode
    have hdraining : w.mode = .draining := hmode
    have hne : w.mode ≠ .active := by simp [hdraining]
    have hread' := mem_of_set hread (GateMemory.loaded_ne_read w.mode x 0).symm
    exact hquiet hne (h.reading hread' hdraining)
  · intro hreported
    rcases Bool.or_eq_true_iff.mp hreported with hreported | htold
    · exact ⟨(h.reported hreported).1, hquiet (h.reported hreported).1 (h.reported hreported).2⟩
    · obtain ⟨rfl, hdraining⟩ := GateMemory.loaded_told hmay (of_decide_eq_true htold)
      have hne : w.mode ≠ .active := by simp [hdraining]
      exact ⟨hne, hquiet hne (h.reading hmem hdraining)⟩

/-- **The mode is stored.** This is where the condition is needed: the plugin begins to drain. -/
theorem Gated.store (h : Gated w xs) (hx : xs[i]? = some .fresh) {mode : RuntimeMode}
    (hsettled : mode = .draining → .read 0 ∈ xs.eraseIdx i → Quiet (xs.eraseIdx i)) :
    Gated { w with mode := mode, reported := w.reported && decide (mode ≠ .active) } xs := by
  have hbeside : ∀ y ∈ xs, y ≠ .fresh → y ∈ xs.eraseIdx i := by
    intro y hy hne
    obtain ⟨j, hj⟩ := List.mem_iff_getElem?.mp hy
    refine List.mem_eraseIdx_iff_getElem?.mpr ⟨j, ?_, hj⟩
    rintro rfl
    exact hne (Option.some.inj (hj.symm.trans hx))
  constructor
  · exact h.counted
  · intro hread hmode y hy
    have hq := hsettled hmode (hbeside _ hread (by simp))
    by_cases hy' : y = .fresh
    · rw [hy']
      rfl
    · exact hq y (hbeside y hy hy')
  · intro hreported
    obtain ⟨hold, hmode⟩ := Bool.and_eq_true_iff.mp hreported
    exact ⟨of_decide_eq_true hmode, (h.reported hold).2⟩

/-- **The counter is read.** Where it is zero nobody is admitted. -/
theorem Gated.read (h : Gated w xs) (hx : xs[i]? = some .fresh) :
    Gated w (xs.set i (.read w.activeRequests)) := by
  have hset : (xs.set i (.read w.activeRequests)).countP (·.counts) + 0 =
      xs.countP (·.counts) + 0 := Pool.countP_set_memory GateMemory.counts _ hx
  have hcounted := h.counted
  constructor
  · omega
  · intro hread hmode
    rcases List.mem_or_eq_of_mem_set hread with hread | hzero
    · exact (h.reading hread hmode).set rfl
    · have hactive : w.activeRequests = 0 := by simpa using hzero.symm
      exact Quiet.set (quiet_of_countP (by omega)) rfl
  · intro hreported
    exact ⟨(h.reported hreported).1, (h.reported hreported).2.set rfl⟩

/-- A request counts itself. -/
theorem Gated.add (h : Gated w xs) (hx : xs[i]? = some .checked) :
    Gated { w with activeRequests := w.activeRequests + 1 } (xs.set i .counted) := by
  have hset : (xs.set i .counted).countP (·.counts) + 0 = xs.countP (·.counts) + 1 :=
    Pool.countP_set_memory GateMemory.counts _ hx
  have hcounted := h.counted
  constructor
  · show (xs.set i .counted).countP (·.counts) ≤ w.activeRequests + 1
    omega
  · intro hread hmode
    exact (h.reading (mem_of_set hread (by simp)) hmode).set rfl
  · intro hreported
    exact ⟨(h.reported hreported).1, (h.reported hreported).2.set rfl⟩

/-- A request that counted does not count any longer, and holds no guard. -/
theorem Gated.subtract (h : Gated w xs) (hx : xs[i]? = some x)
    (hmay : x = .refused ∨ x = .admitted false) (dropped early : Nat) :
    Gated { w with activeRequests := w.activeRequests - 1, dropped := dropped, early := early }
      (xs.set i x.subtracted) := by
  have hcounts : x.counts = true ∧ x.subtracted.counts = false ∧ x.subtracted.alive = false ∧
      x.subtracted ≠ .read 0 := by
    rcases hmay with rfl | rfl
    · exact ⟨rfl, rfl, rfl, by simp [GateMemory.subtracted]⟩
    · exact ⟨rfl, rfl, rfl, by simp [GateMemory.subtracted]⟩
  obtain ⟨hbefore, hafter, halive, hne⟩ := hcounts
  have hset : (xs.set i x.subtracted).countP (·.counts) + x.counts.toNat =
      xs.countP (·.counts) + x.subtracted.counts.toNat :=
    Pool.countP_set_memory GateMemory.counts x.subtracted hx
  rw [hbefore, hafter, Bool.toNat_true, Bool.toNat_false] at hset
  have hcounted := h.counted
  constructor
  · show (xs.set i x.subtracted).countP (·.counts) ≤ w.activeRequests - 1
    omega
  · intro hread hmode
    exact (h.reading (mem_of_set hread hne.symm) hmode).set halive
  · intro hreported
    exact ⟨(h.reported hreported).1, (h.reported hreported).2.set halive⟩

/-- A call that the memory does not change at leaves the memories as they are. -/
theorem set_self (hx : xs[i]? = some x) : xs.set i x = xs := by
  obtain ⟨hi, rfl⟩ := List.getElem?_eq_some_iff.mp hx
  exact List.set_getElem_self hi

theorem serve_eq {c : GateCall} {o : Option HttpResponse} {a : GateAnswer c} {w' : Gate}
    (h : gate.serve x w c o = some (a, w', x')) :
    (Gate.serve x w c o).2.1 = w' ∧ (Gate.serve x w c o).2.2 = x' := by
  have heq : Gate.serve x w c o = (a, w', x') := Option.some.inj h
  rw [heq]
  exact ⟨rfl, rfl⟩

/-- Every step of a run that meets the condition keeps the gate. -/
theorem gate_keeps (state : AppState) :
    Pool.Keeps gate settled May (fun req => (request state req).memory) Gated where
  start w xs _ h := h.begin
  stop w xs i h := h.stop i
  move _ _ v := v.elim
  call w xs i x c o a w' x' h hx hmay hsettled hserve := by
    obtain ⟨rfl, rfl⟩ := serve_eq hserve
    cases c with
    | loadMode => exact h.load hx hmay
    | storeMode mode =>
      have hfresh : x = .fresh := hmay
      subst hfresh
      show Gated _ (xs.set i .fresh)
      rw [set_self hx]
      exact h.store hx fun hmode hread => hsettled (by rw [hmode]) hread
    | loadActive =>
      have hfresh : x = .fresh := hmay
      subst hfresh
      exact h.read hx
    | fetchAdd =>
      have hchecked : x = .checked := hmay
      subst hchecked
      exact h.add hx
    | fetchSub => exact h.subtract hx hmay _ _
    | forward =>
      show Gated w (xs.set i x)
      rw [set_self hx]
      exact h
    | send response =>
      show Gated w (xs.set i x.delivered)
      have hsame : x.delivered = x := by
        rcases hmay with rfl | rfl
        · rfl
        · rfl
      rw [hsame, set_self hx]
      exact h
    | reply status =>
      show Gated w (xs.set i x)
      rw [set_self hx]
      exact h

/-! ## Delivery -/

/-- No admitted request has had its response delivered, and every guard that has been dropped was
dropped too early. -/
structure Undelivered (w : Gate) (xs : List GateMemory) : Prop where
  early : w.early = w.dropped
  admitted : .admitted true ∉ xs

theorem Undelivered.set (h : Undelivered w xs) (hx' : x' ≠ .admitted true) {w' : Gate}
    (hw' : w'.early = w'.dropped) : Undelivered w' (xs.set i x') :=
  ⟨hw', fun hmem => h.admitted (mem_of_set hmem hx'.symm)⟩

theorem GateMemory.loaded_ne_delivered (mode : RuntimeMode) (hx : x ≠ .admitted true) :
    x.loaded mode ≠ .admitted true := by
  cases x with
  | fresh => by_cases h : mode = .active <;> simp [loaded, h]
  | counted => by_cases h : mode = .active <;> simp [loaded, h]
  | read active => simp [loaded]
  | _ => exact hx

theorem May.subtracted (hmay : May x .fetchSub) :
    x.subtracted ≠ .admitted true ∧ (x.alive = true ↔ x = .admitted false) := by
  rcases hmay with rfl | rfl
  · simp [GateMemory.subtracted, GateMemory.alive]
  · simp [GateMemory.subtracted, GateMemory.alive]

theorem undelivered_keeps (state : AppState) :
    Pool.Keeps gate Watch.top May (fun req => (request state req).memory) Undelivered where
  start w xs _ h := by
    refine ⟨h.early, fun hmem => ?_⟩
    rcases List.mem_append.mp hmem with hmem | hmem
    · exact h.admitted hmem
    · simp [request] at hmem
  stop w xs i h := ⟨h.early, fun hmem => h.admitted (List.mem_of_mem_eraseIdx hmem)⟩
  move _ _ v := v.elim
  call w xs i x c o a w' x' h hx hmay _ hserve := by
    have hne : x ≠ .admitted true := by
      rintro rfl
      exact h.admitted (List.mem_of_getElem? hx)
    obtain ⟨rfl, rfl⟩ := serve_eq hserve
    cases c with
    | loadMode => exact h.set (GateMemory.loaded_ne_delivered w.mode hne) h.early
    | storeMode mode => exact h.set hne h.early
    | loadActive =>
      show Undelivered w (xs.set i (.read w.activeRequests))
      exact h.set (by simp) h.early
    | fetchAdd =>
      have hchecked : x = .checked := hmay
      subst hchecked
      show Undelivered _ (xs.set i .counted)
      exact h.set (by simp) h.early
    | fetchSub =>
      obtain ⟨hsub, halive⟩ := hmay.subtracted
      refine h.set hsub ?_
      show (if x = .admitted false then w.early + 1 else w.early) =
        if x.alive then w.dropped + 1 else w.dropped
      -- the guard of an admitted request is alive, and its response is not delivered yet
      simp only [halive, h.early]
    | forward => exact h.set hne h.early
    | send response =>
      have hnew : x.delivered ≠ .admitted true := by
        rcases hmay with rfl | rfl <;> simp [GateMemory.delivered]
      exact h.set hnew h.early
    | reply status => exact h.set hne h.early

/-! ## The gate -/

/-- A reply that is about to be given says what its drain status is decided with. -/
theorem reply_told {state : AppState} {G : Watch GateCall GateMemory Gate (Option HttpResponse)
    Empty} {I : Gate → List GateMemory → Prop}
    (h : Pool.Keeps gate G May (fun req => (request state req).memory) I) (h0 : I .init [])
    {s : Pool GateCall GateAnswer StatusCode GateMemory Gate}
    (r : Pool.Run gate (request state) G ⟨.init, []⟩ s) {t : Thread GateCall GateAnswer StatusCode
      GateMemory} (ht : t ∈ s.threads) {status : PluginDrainStatusResponse}
    {k : Unit → GateOp Unit} (hprog : t.prog = .call (.reply status) k) :
    t.memory = .told status.drained := by
  have hfollows := (r.keeps h (follows_request state) h0).2 t ht
  rw [hprog] at hfollows
  obtain ⟨drained, htold, hdrained⟩ := hfollows.1
  rw [htold, hdrained]

/-- **The drain gate.** In every run in which the plugin never begins to drain between the two
loads of a drain status that has read zero while a guard is alive: once a drain status is decided
with `drained`, no guard is alive until the plugin is activated again, and what it replies is what
it is decided with. And in every run whatever, each guard that has been dropped was dropped before
the response of its request was delivered. -/
theorem drain_gate (state : AppState) :
    (∀ s, Pool.Run gate (request state) settled ⟨.init, []⟩ s →
      (s.world.reported = true → s.world.mode ≠ .active ∧ Quiet s.memories) ∧
      ∀ t ∈ s.threads, ∀ status k, t.prog = .call (.reply status) k →
        t.memory = .told status.drained) ∧
    ∀ s, Pool.Run gate (request state) Watch.top ⟨.init, []⟩ s →
      s.world.early = s.world.dropped := by
  have hgated : Gated .init [] :=
    ⟨Nat.le_refl 0, fun hread => by simp at hread,
      fun hreported => by simp [Gate.init] at hreported⟩
  constructor
  · intro s r
    have hs := (r.keeps (gate_keeps state) (follows_request state) hgated).1
    refine ⟨hs.reported, fun t ht status k hprog => ?_⟩
    exact reply_told (gate_keeps state) hgated r ht hprog
  · intro s r
    have hundelivered : Undelivered .init [] := ⟨rfl, by simp⟩
    exact (r.keeps (undelivered_keeps state) (follows_request state) hundelivered).1.early

/-! ### Two runs -/

instance (others : List GateMemory) (x : GateMemory) (w : Gate) (c : GateCall)
    (o : Option HttpResponse) : Decidable (settled.call others x w c o) :=
  inferInstanceAs (Decidable (_ → _ → _))

instance (all : List GateMemory) (w : Gate) (v : Empty) : Decidable (settled.move all w v) :=
  .isTrue trivial

def sampleState : AppState := ⟨[.splitter], some "token", none⟩

def sampleHeader : Option String := some "Bearer token"

def samplePage : HttpResponse := ⟨200, "page"⟩

/-- The plugin is activated, serves a request, begins to drain, and reports so. -/
def drainedRun : List (Pool.Event HttpRequest (Option HttpResponse) Empty) :=
  [.start (.activate sampleHeader), .answer 0 none, .start .proxy,
    .answer 1 none, .answer 1 none, .answer 1 none, .answer 1 (some samplePage), .answer 1 none,
    .answer 1 none, .start (.drain sampleHeader), .answer 2 none,
    .start (.drainStatus sampleHeader), .answer 3 none, .answer 3 none]

def drainGateReportedRun :
    PLift ((Pool.run settled gate (request sampleState) ⟨.init, []⟩ drainedRun).map
      (fun s => s.world.reported) = some true) :=
  ⟨by decide +kernel⟩

theorem drain_gate_reported : ∃ s, Pool.Run gate (request sampleState) settled ⟨.init, []⟩ s ∧
    s.world.reported = true ∧ Quiet s.memories := by
  have hrun := drainGateReportedRun.down
  obtain ⟨s, r, hs⟩ := Pool.Run.exists_of_run hrun
  exact ⟨s, r, hs, (((drain_gate sampleState).1 s r).1 hs).2⟩

/-- A drain status reads the counter, two requests are admitted, one of them is answered, the
plugin begins to drain, and the drain status reads the mode. -/
def overlappingRun : List (Pool.Event HttpRequest (Option HttpResponse) Empty) :=
  [.start (.activate sampleHeader), .answer 0 none, .start (.drainStatus sampleHeader),
    .answer 1 none, .start .proxy, .answer 2 none, .answer 2 none, .answer 2 none,
    .start .proxy, .answer 3 none, .answer 3 none, .answer 3 none,
    .answer 3 (some samplePage), .answer 3 none, .start (.drain sampleHeader), .answer 4 none,
    .answer 1 none]

def drainedWithGuardAliveRun :
    PLift ((Pool.run Watch.top gate (request sampleState) ⟨.init, []⟩ overlappingRun).map
      (fun s => (s.world.reported, s.memories, s.world.early)) =
      some (true, [.fresh, .told true, .admitted false, .released, .fresh], 1)) :=
  ⟨by decide +kernel⟩

/-- **The loads in the other order report a drain too early**: the guard of a request is alive, and
that of another was dropped before its response was sent. -/
theorem drained_with_guard_alive :
    ∃ s, Pool.Run gate (request sampleState) Watch.top ⟨.init, []⟩ s ∧
      s.world.reported = true ∧ s.memories =
        [.fresh, .told true, .admitted false, .released, .fresh] ∧ s.world.early = 1 := by
  have hrun := drainedWithGuardAliveRun.down
  obtain ⟨s, r, hs⟩ := Pool.Run.exists_of_run hrun
  simp only [Prod.mk.injEq] at hs
  exact ⟨s, r, hs⟩

end FluidBG.Http
