import FluidBG.Proof.EnvPaths
/-!
# The environment a container is left with

Of several entries with one name the last one counts, and an entry has a value or refers to one.
Both ways of assigning write the value into the first entry of the name and keep what else that
entry has. So an assignment takes effect where its variable stands once with a value, or not at
all; a reference becomes an entry with both, and a later entry of the name goes on counting.
-/

set_option autoImplicit false

namespace FluidBG

open Lib

/-! ## What counts -/

/-- The entries of a variable, in their order. -/
def entriesOf (env : List EnvVar) (name : String) : List EnvVar := env.filter fun e => e.name = name

/-- The entry of a variable that counts. -/
def effectiveEnv (env : List EnvVar) (name : String) : Option EnvVar :=
  (entriesOf env name).getLast?

/-- The entry has this value, and nothing else. -/
def EnvVar.IsValue (e : EnvVar) (v : String) : Prop := e.value = some v ∧ e.valueFrom = none

instance (e : EnvVar) (v : String) : Decidable (e.IsValue v) := inferInstanceAs (Decidable (_ ∧ _))

/-- The entry has a value and a reference. -/
def EnvVar.Both (e : EnvVar) : Prop := e.value ≠ none ∧ e.valueFrom ≠ none

/-- **The assignments take effect in a container.** `settings` are those that are for it. -/
structure TakesEffect (settings : List (String × String)) (c c' : Container) : Prop where
  /-- Nothing but the environment changes. -/
  rest : c' = { c with env := c'.env }
  /-- A container that nothing is assigned to is left alone. -/
  untargeted : settings = [] → c' = c
  /-- An assigned variable has the value that was assigned last. -/
  assigned : ∀ x v, assigned x settings = some v → ∃ e ∈ effectiveEnv c'.env x, e.IsValue v
  /-- Any other variable is what it was. -/
  others : ∀ x, Lib.assigned x settings = none → effectiveEnv c'.env x = effectiveEnv c.env x
  /-- An entry with a value and a reference was one before. -/
  both : ∀ x (k : Nat) e, (entriesOf c'.env x)[k]? = some e → e.Both →
    ∃ old, (entriesOf c.env x)[k]? = some old ∧ old.Both

/-! ## Setting variables -/

section Entries

variable {env : List EnvVar} {x y v w : String} {es : List (String × String)}

theorem entriesOf_upsertEnv (env : List EnvVar) (x v y : String) :
    entriesOf (upsertEnv env x v) y =
      if x = y then upsertEnv (entriesOf env y) x v else entriesOf env y := by
  induction env with
  | nil =>
    by_cases h : x = y
    · simp [upsertEnv, entriesOf, EnvVar.ofValue, h]
    · simp [upsertEnv, entriesOf, EnvVar.ofValue, h]
  | cons e env ih =>
    unfold entriesOf at ih ⊢
    by_cases hx : e.name = x
    · by_cases h : x = y
      · subst h
        simp [upsertEnv, hx]
      · have hy : e.name ≠ y := by
          rw [hx]
          exact h
        simp [upsertEnv, hx, h]
    · by_cases hy : e.name = y
      · have h : x ≠ y := fun heq => hx (hy.trans heq.symm)
        rw [if_neg h] at ih
        have hy' : decide (e.name = y) = true := decide_eq_true hy
        simp only [upsertEnv, if_neg hx, List.filter_cons, hy', if_true, ih, if_neg h]
      · have hy' : decide (e.name = y) = false := decide_eq_false hy
        simp only [upsertEnv, if_neg hx, List.filter_cons, hy', Bool.false_eq_true, if_false]
        exact ih

/-- Only the last value of a variable matters, and only to its own entries. -/
theorem entriesOf_upsertAll (env : List EnvVar) (es : List (String × String)) (x : String) :
    entriesOf (upsertAll env es) x =
      (assigned x es).elim (entriesOf env x) (upsertEnv (entriesOf env x) x) := by
  induction es generalizing env with
  | nil => rfl
  | cons e es ih =>
    show entriesOf (upsertAll (upsertEnv env e.1 e.2) es) x = _
    rw [ih, assigned_cons, entriesOf_upsertEnv]
    by_cases h : e.1 = x
    · subst h
      cases assigned e.1 es with
      | none => simp
      | some v => simp [upsertEnv_twice]
    · rw [if_neg h, if_neg h, Option.or_none]

theorem name_of_mem_entriesOf {e : EnvVar} (h : e ∈ entriesOf env x) : e.name = x := by
  have hmem := (List.mem_filter.mp h).2
  simpa using hmem

/-- What the entries of a variable have to be for the value `w`, written into the first of them, to
leave the variable with the value `v`. -/
def Settable (w v : String) : List EnvVar → Prop
  | [] => w = v
  | [e] => e.valueFrom = none ∧ w = v
  | e :: e' :: rest =>
    (∃ last ∈ (e' :: rest).getLast?, last.IsValue v) ∧ (e.valueFrom ≠ none → e.value ≠ none)

/-- The entries before and after. -/
theorem settable_iff {l : List EnvVar} (hl : ∀ e ∈ l, e.name = x) : Settable w v l ↔
    (∃ e ∈ (upsertEnv l x w).getLast?, e.IsValue v) ∧
      ∀ (k : Nat) e, (upsertEnv l x w)[k]? = some e → e.Both → ∃ old, l[k]? = some old ∧ old.Both := by
  cases l with
  | nil =>
    have hnone : ∀ (k : Nat) (e : EnvVar), [EnvVar.ofValue x (some w)][k]? = some e → ¬ e.Both := by
      intro k e hk hboth
      have hmem := List.mem_of_getElem? hk
      rw [List.mem_singleton.mp hmem] at hboth
      exact hboth.2 rfl
    simp only [Settable, upsertEnv]
    constructor
    · rintro rfl
      exact ⟨⟨_, rfl, rfl, rfl⟩, fun k e hk hboth => absurd hboth (hnone k e hk)⟩
    · rintro ⟨⟨e, he, hvalue, -⟩, -⟩
      simp only [List.getLast?_singleton, Option.mem_def, Option.some.injEq] at he
      subst he
      exact Option.some.inj hvalue
  | cons e rest =>
    have hname : e.name = x := hl e List.mem_cons_self
    have hset : upsertEnv (e :: rest) x w = { e with value := some w } :: rest := by
      simp [upsertEnv, hname]
    rw [hset]
    -- only the first entry can have become one with both
    have hboth : (∀ (k : Nat) e₁, ({ e with value := some w } :: rest)[k]? = some e₁ → e₁.Both →
        ∃ old, (e :: rest)[k]? = some old ∧ old.Both) ↔ (e.valueFrom ≠ none → e.value ≠ none) := by
      constructor
      · intro h hfrom
        obtain ⟨old, hold, hvalue, -⟩ := h 0 { e with value := some w } rfl ⟨by simp, hfrom⟩
        cases hold
        exact hvalue
      · intro h k e₁ hk hboth
        cases k with
        | zero =>
          cases hk
          exact ⟨e, rfl, h hboth.2, hboth.2⟩
        | succ k => exact ⟨e₁, hk, hboth⟩
    rw [hboth]
    cases rest with
    | nil =>
      simp only [Settable, List.getLast?_singleton, Option.mem_def, Option.some.injEq,
        exists_eq_left', EnvVar.IsValue]
      constructor
      · rintro ⟨hfrom, rfl⟩
        exact ⟨⟨rfl, hfrom⟩, fun h => absurd hfrom h⟩
      · rintro ⟨⟨rfl, hfrom⟩, -⟩
        exact ⟨hfrom, rfl⟩
    | cons e' rest =>
      simp only [Settable, List.getLast?_cons_cons]

end Entries

/-! ## One container -/

/-- Every variable that is assigned can be set: `actual` is what is written, `settings` what was
asked for. -/
def Assignable (settings actual : List (String × String)) (env : List EnvVar) : Prop :=
  ∀ x, ∀ v ∈ assigned x settings, ∀ w ∈ assigned x actual, Settable w v (entriesOf env x)

theorem takesEffect_iff {settings actual : List (String × String)} (c : Container)
    (hkeys : ∀ x, (assigned x actual).isSome = (assigned x settings).isSome) :
    TakesEffect settings c { c with env := upsertAll c.env actual } ↔
      Assignable settings actual c.env := by
  have hset : ∀ {x v w}, assigned x settings = some v → assigned x actual = some w →
      (Settable w v (entriesOf c.env x) ↔
        (∃ e ∈ effectiveEnv (upsertAll c.env actual) x, e.IsValue v) ∧
        ∀ (k : Nat) e, (entriesOf (upsertAll c.env actual) x)[k]? = some e → e.Both →
          ∃ old, (entriesOf c.env x)[k]? = some old ∧ old.Both) := by
    intro x v w _ hw
    unfold effectiveEnv
    rw [entriesOf_upsertAll, hw, Option.elim_some]
    exact settable_iff fun e he => name_of_mem_entriesOf he
  have hkept : ∀ {x}, assigned x settings = none →
      entriesOf (upsertAll c.env actual) x = entriesOf c.env x := by
    intro x hx
    have hnone : assigned x actual = none := by
      have hkey := hkeys x
      rw [hx] at hkey
      simpa using hkey
    rw [entriesOf_upsertAll, hnone, Option.elim_none]
  constructor
  · intro h x v hv w hw
    exact (hset hv hw).mpr ⟨h.assigned x v hv, h.both x⟩
  · intro h
    have heach : ∀ {x v}, assigned x settings = some v →
        (∃ e ∈ effectiveEnv (upsertAll c.env actual) x, e.IsValue v) ∧
        ∀ (k : Nat) e, (entriesOf (upsertAll c.env actual) x)[k]? = some e → e.Both →
          ∃ old, (entriesOf c.env x)[k]? = some old ∧ old.Both := by
      intro x v hv
      have hsome : (assigned x actual).isSome := by
        rw [hkeys, hv]
        rfl
      obtain ⟨w, hw⟩ := Option.isSome_iff_exists.mp hsome
      exact (hset hv hw).mp (h x v hv w hw)
    refine ⟨rfl, ?_, fun x v hv => (heach hv).1, ?_, ?_⟩
    · rintro rfl
      -- nothing is asked for, so nothing is written
      have hempty : actual = [] := by
        cases actual with
        | nil => rfl
        | cons e es =>
          have hassigned : ∃ v, assigned e.1 (e :: es) = some v :=
            exists_assigned ⟨e, by simp, rfl⟩
          obtain ⟨v, hv⟩ := hassigned
          have hkey := hkeys e.1
          rw [hv] at hkey
          simp at hkey
      subst hempty
      rfl
    · intro x hx
      unfold effectiveEnv
      rw [hkept hx]
    · intro x k e hk hboth
      cases hx : assigned x settings with
      | none =>
        rw [hkept hx] at hk
        exact ⟨e, hk, hboth⟩
      | some v => exact (heach hx).2 k e hk hboth

/-! ## The ways to assign -/

/-- What a patch of one Deployment asks for in a container. -/
def patchSettings (containerName : Option String) (envOverrides : List (String × String))
    (c : Container) : List (String × String) :=
  if Admits containerName c then envOverrides else []

section Live

variable (bgd : BlueGreenDeployment) (ns : String) (greenRef : Option DeploymentRef)
  (id : DeploymentIdentity) (assignments : List PropertyAssignment)

/-- What the assignments to a Deployment ask for in a container. -/
def deploymentSettings (c : Container) : List (String × String) :=
  ((assignmentsFor bgd ns greenRef id assignments).filter fun a =>
    Admits a.containerName c).map PropertyAssignment.setting

/-- What the patches of a Deployment write into a container, group by group. -/
def groupedSettings (c : Container) : List (String × String) :=
  ((patchesFor bgd ns greenRef id assignments).filter fun e =>
    Admits e.1.containerName c).flatMap (·.2.entries)

/-- The containers of a Deployment after its patches. -/
def patchedContainers (containers : List Container) : List Container :=
  (patchesFor bgd ns greenRef id assignments).foldl (fun containers e =>
    onTargetedEnv containers e.1.containerName fun env => upsertAll env e.2.entries) containers

end Live

theorem onTargetedEnv_eq_map (containers : List Container) (containerName : Option String)
    (envOverrides : List (String × String)) :
    onTargetedEnv containers containerName (fun env => upsertAll env envOverrides) =
      containers.map fun c =>
        { c with env := upsertAll c.env (patchSettings containerName envOverrides c) } := by
  refine List.map_congr_left fun c _ => ?_
  unfold patchSettings
  by_cases h : Admits containerName c
  · rw [if_pos h, if_pos (show containerName.all (· = c.name) = true from h)]
  · rw [if_neg h, if_neg (show ¬ containerName.all (· = c.name) = true from h)]
    rfl

section Grouped

variable {bgd : BlueGreenDeployment} {ns : String} {greenRef : Option DeploymentRef}
  {id : DeploymentIdentity} {assignments : List PropertyAssignment}

theorem patchedContainers_eq (containers : List Container) :
    patchedContainers bgd ns greenRef id assignments containers = containers.map fun c =>
      { c with env := upsertAll c.env (groupedSettings bgd ns greenRef id assignments c) } :=
  foldl_patches _ containers

theorem lastValue_isSome_iff {as : List PropertyAssignment} {name : String} :
    (lastValue as name).isSome = true ↔ ∃ a ∈ as, a.name = name := by
  constructor
  · intro h
    obtain ⟨v, hv⟩ := Option.isSome_iff_exists.mp h
    exact exists_of_lastValue hv
  · rintro ⟨a, ha, hname⟩
    exact Option.isSome_iff_exists.mpr
      (exists_assigned ⟨a.setting, List.mem_map_of_mem ha, hname⟩)

/-- The groups write the variables that are asked for, and no others. -/
theorem groupedSettings_keys (c : Container) (x : String) :
    (assigned x (groupedSettings bgd ns greenRef id assignments c)).isSome =
      (assigned x (deploymentSettings bgd ns greenRef id assignments c)).isSome := by
  have hgrouped := @assigned_patchesFor bgd ns greenRef assignments id c x
  rw [groupedSettings, hgrouped, Bool.eq_iff_iff, Option.isSome_or, Bool.or_eq_true,
    lastValue_isSome_iff, lastValue_isSome_iff]
  show _ ↔ (lastValue _ x).isSome = true
  rw [lastValue_isSome_iff]
  constructor
  · rintro (⟨a, ha, hname⟩ | ⟨a, ha, hname⟩)
    · obtain ⟨hmem, hcontainer⟩ := List.mem_filter.mp ha
      refine ⟨a, List.mem_filter.mpr ⟨hmem, ?_⟩, hname⟩
      simp only [decide_eq_true_eq] at hcontainer
      simp [Admits, hcontainer]
    · obtain ⟨hmem, hcontainer⟩ := List.mem_filter.mp ha
      refine ⟨a, List.mem_filter.mpr ⟨hmem, ?_⟩, hname⟩
      simp only [decide_eq_true_eq] at hcontainer
      simp [Admits, hcontainer]
  · rintro ⟨a, ha, hname⟩
    obtain ⟨hmem, hadmits⟩ := List.mem_filter.mp ha
    cases hcontainer : a.containerName with
    | none => exact .inr ⟨a, List.mem_filter.mpr ⟨hmem, by simp [hcontainer]⟩, hname⟩
    | some containerName =>
      simp only [Admits, hcontainer, Option.all_some, decide_eq_true_eq] at hadmits
      exact .inl ⟨a, List.mem_filter.mpr ⟨hmem, by simp [hcontainer, hadmits]⟩, hname⟩

end Grouped

/-- Every container has taken its assignments. -/
abbrev TakeEffect (settings : Container → List (String × String)) (cs cs' : List Container) :
    Prop :=
  List.Forall₂ (fun c c' => TakesEffect (settings c) c c') cs cs'

theorem takeEffect_map_iff {settings actual : Container → List (String × String)}
    (cs : List Container)
    (hkeys : ∀ c x, (assigned x (actual c)).isSome = (assigned x (settings c)).isSome) :
    TakeEffect settings cs (cs.map fun c => { c with env := upsertAll c.env (actual c) }) ↔
      ∀ c ∈ cs, Assignable (settings c) (actual c) c.env := by
  unfold TakeEffect
  rw [List.forall₂_map_right_iff, List.forall₂_same]
  exact forall₂_congr fun c _ => takesEffect_iff c (hkeys c)

/-- **Assignments take effect**, on a spec, in one patch of a live Deployment, and in all patches
of one, exactly where every assigned variable can be set. -/
theorem assignments_take_effect_iff (assignments : List PropertyAssignment) :
    (∀ (spec created : DeploymentSpec) (target : AssignmentTarget),
      applyAssignmentsToDeploymentSpec spec assignments target = .ok created →
      (TakeEffect (targetSettings assignments target) spec.containers created.containers ↔
        ∀ c ∈ spec.containers, Assignable (targetSettings assignments target c)
          (targetSettings assignments target c) c.env)) ∧
    (∀ (d patched : Deployment) (name : String) (containerName : Option String)
      (envOverrides : List (String × String)) (cs cs' : List Container),
      patchedDeployment d name containerName envOverrides = .ok patched →
      d.containers = some cs → patched.containers = some cs' →
      (TakeEffect (patchSettings containerName envOverrides) cs cs' ↔
        ∀ c ∈ cs, Assignable (patchSettings containerName envOverrides c)
          (patchSettings containerName envOverrides c) c.env)) ∧
    (∀ (bgd : BlueGreenDeployment) (ns : String) (greenRef : Option DeploymentRef)
      (id : DeploymentIdentity) (cs : List Container),
      (TakeEffect (deploymentSettings bgd ns greenRef id assignments) cs
          (patchedContainers bgd ns greenRef id assignments cs) ↔
        ∀ c ∈ cs, Assignable (deploymentSettings bgd ns greenRef id assignments c)
          (groupedSettings bgd ns greenRef id assignments c) c.env)) := by
  refine ⟨?_, ?_, ?_⟩
  · intro spec created target h
    rw [containers_of_assigned h]
    exact takeEffect_map_iff _ fun _ _ => rfl
  · intro d patched name containerName envOverrides cs cs' h hcs hcs'
    have hpatched := patchedDeployment_containers hcs h
    rw [hcs', Option.some.injEq] at hpatched
    rw [hpatched, onTargetedEnv_eq_map]
    exact takeEffect_map_iff _ fun _ _ => rfl
  · intro bgd ns greenRef id cs
    rw [patchedContainers_eq]
    exact takeEffect_map_iff _ groupedSettings_keys

/-- **The live patches as they run** leave a Deployment with these containers, for the green that
they find. -/
theorem applyAssignments_leaves {bgd : BlueGreenDeployment} {ns : String}
    {assignments : List PropertyAssignment} {id : DeploymentIdentity} {cs : List Container}
    {w : World} (h : Carries id cs w) :
    quietCluster.Spec anyCall (fun _ w' => ∃ greenRef, Carries id
      (patchedContainers bgd ns greenRef id assignments cs) w') (fun _ _ => True)
      (applyAssignments bgd ns assignments false) w :=
  applyAssignments_patches h

/-- Variables that stand once, each with a value, can all be set. -/
theorem Assignable.of_plain {env : List EnvVar} {settings : List (String × String)}
    (honce : (env.map (·.name)).Nodup) (hplain : ∀ e ∈ env, e.valueFrom = none) :
    Assignable settings settings env := by
  intro x v hv w hw
  have hsame : w = v := Option.mem_unique hw hv
  cases hentries : entriesOf env x with
  | nil => exact hsame
  | cons e rest =>
    have hmem : ∀ e₁ ∈ e :: rest, e₁ ∈ env ∧ e₁.name = x := by
      intro e₁ he₁
      rw [← hentries] at he₁
      exact ⟨List.mem_of_mem_filter he₁, name_of_mem_entriesOf he₁⟩
    cases rest with
    | nil => exact ⟨hplain e (hmem e (by simp)).1, hsame⟩
    | cons e' rest =>
      -- two entries of one name
      have hnodup : ((entriesOf env x).map (·.name)).Nodup :=
        honce.sublist (List.filter_sublist.map _)
      rw [hentries, List.map_cons, List.map_cons, (hmem e (by simp)).2,
        (hmem e' (by simp)).2] at hnodup
      simp at hnodup

namespace Sample

/-- The queue of the application is to be another one. -/
def queueAssignment : List PropertyAssignment :=
  [⟨.blue, .env, "ORDERS_QUEUE", "orders-blue", none⟩]

/-- A container with this environment. -/
def containerWith (env : List EnvVar) : Container := ⟨"app", some "shop:2", env, [], []⟩

/-- The manifest with such a container. -/
def specWith (env : List EnvVar) : DeploymentSpec :=
  { deploymentSpec with template := { deploymentSpec.template with
    spec := some { podSpec with containers := [containerWith env] } } }

/-- The queue's name comes from a secret. -/
def queueFromSecret : EnvVar := ⟨"ORDERS_QUEUE", none, some ⟨"queues", "orders", none⟩⟩

end Sample

theorem assignments_take_effect_plain :
    TakeEffect (targetSettings Sample.queueAssignment .blue)
        [Sample.containerWith [.ofValue "ORDERS_QUEUE" (some "orders")]]
        [Sample.containerWith [.ofValue "ORDERS_QUEUE" (some "orders-blue")]] ∧
      TakeEffect (patchSettings none [("ORDERS_QUEUE", "orders-blue")])
        [Sample.containerWith [.ofValue "ORDERS_QUEUE" (some "orders")]]
        [Sample.containerWith [.ofValue "ORDERS_QUEUE" (some "orders-blue")]] := by
  have hplain : ∀ settings, Assignable settings settings
      [EnvVar.ofValue "ORDERS_QUEUE" (some "orders")] :=
    fun settings => .of_plain (by decide) (by decide)
  constructor
  · refine ((assignments_take_effect_iff Sample.queueAssignment).1
      (Sample.specWith [.ofValue "ORDERS_QUEUE" (some "orders")])
      (Sample.specWith [.ofValue "ORDERS_QUEUE" (some "orders-blue")]) .blue
      (by rfl)).mpr fun c hc => ?_
    rw [List.mem_singleton.mp hc]
    exact hplain _
  · refine ((assignments_take_effect_iff Sample.queueAssignment).2.1
      ⟨.new "shop" "default" .empty,
        some (Sample.specWith [.ofValue "ORDERS_QUEUE" (some "orders")]), none⟩
      ⟨.new "shop" "default" .empty,
        some (Sample.specWith [.ofValue "ORDERS_QUEUE" (some "orders-blue")]), none⟩
      "shop" none [("ORDERS_QUEUE", "orders-blue")] _ _ (by rfl) rfl rfl).mpr fun c hc => ?_
    rw [List.mem_singleton.mp hc]
    exact hplain _

/-- An assignment to a variable that refers to a secret leaves it with both. -/
theorem assignment_keeps_reference :
    ¬ ∀ (spec created : DeploymentSpec) (assignments : List PropertyAssignment)
      (target : AssignmentTarget),
      applyAssignmentsToDeploymentSpec spec assignments target = .ok created →
      TakeEffect (targetSettings assignments target) spec.containers created.containers := by
  intro h
  have heffect := h (Sample.specWith [Sample.queueFromSecret])
    (Sample.specWith [{ Sample.queueFromSecret with value := some "orders-blue" }])
    Sample.queueAssignment .blue (by rfl)
  have htakes : TakesEffect (targetSettings Sample.queueAssignment .blue
      (Sample.containerWith [Sample.queueFromSecret]))
      (Sample.containerWith [Sample.queueFromSecret])
      (Sample.containerWith [{ Sample.queueFromSecret with value := some "orders-blue" }]) := by
    cases heffect with
    | cons htakes _ => exact htakes
  obtain ⟨e, he, -, hfrom⟩ := htakes.assigned "ORDERS_QUEUE" "orders-blue" (by decide)
  cases he
  cases hfrom

end FluidBG
