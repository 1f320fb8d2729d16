import FluidBG.Controller.Resources
import FluidBG.Lib.Assigned
import FluidBG.Proof.Greens
import FluidBG.Sample
import Mathlib.Data.List.Induction
import Mathlib.Data.String.Basic
/-!
# The two ways to set the environment of the candidate

`apply_assignments_to_deployment_spec` takes the assignments one after the other;
`apply_assignments` groups them by Deployment and container and patches group by group, those for
every container before those for one. The two leave a variable with the same value unless an
assignment for every container comes after one for a container, and differs from it.
-/

set_option autoImplicit false

namespace FluidBG

open Lib

/-! ## One variable -/

/-- Variables that are set one after the other. -/
def upsertAll (env : List EnvVar) (es : List (String × String)) : List EnvVar :=
  es.foldl (fun env e => upsertEnv env e.1 e.2) env

/-- The entry of a variable, which is the first of its name. -/
def findEnv (env : List EnvVar) (name : String) : Option EnvVar :=
  env.find? fun e => e.name = name

section Env

variable {env : List EnvVar} {x y v w : String} {es : List (String × String)}

theorem findEnv_cons (e : EnvVar) (env : List EnvVar) (name : String) :
    findEnv (e :: env) name = if e.name = name then some e else findEnv env name := by
  unfold findEnv
  by_cases h : e.name = name
  · simp [h]
  · simp [h]

theorem findEnv_upsertEnv : findEnv (upsertEnv env x v) y =
    if x = y then some { (findEnv env x).getD (EnvVar.ofValue x none) with value := some v }
    else findEnv env y := by
  induction env with
  | nil =>
    by_cases h : x = y
    · simp [upsertEnv, findEnv, h, EnvVar.ofValue]
    · simp [upsertEnv, findEnv, h, EnvVar.ofValue]
  | cons e env ih =>
    unfold upsertEnv
    by_cases hx : e.name = x
    · rw [if_pos hx, findEnv_cons, findEnv_cons, if_pos hx, findEnv_cons]
      by_cases hy : x = y
      · simp [hx, hy]
      · have hne : e.name ≠ y := by rw [hx]; exact hy
        rw [if_neg hy, if_neg hne, if_neg hne]
    · rw [if_neg hx, findEnv_cons, findEnv_cons, findEnv_cons, if_neg hx, ih]
      by_cases hy : e.name = y
      · rw [if_pos hy, if_neg (fun h => hx (hy.trans h.symm)), if_pos hy]
      · rw [if_neg hy, if_neg hy]

/-- What the variables are left with. -/
theorem findEnv_upsertAll : findEnv (upsertAll env es) x =
    ((assigned x es).map fun v =>
      { (findEnv env x).getD (EnvVar.ofValue x none) with value := some v }).or
        (findEnv env x) := by
  induction es generalizing env with
  | nil => rfl
  | cons e es ih =>
    show findEnv (upsertAll (upsertEnv env e.1 e.2) es) x = _
    rw [ih, assigned_cons, findEnv_upsertEnv]
    by_cases h : e.1 = x
    · subst h
      cases assigned e.1 es <;> simp
    · cases assigned x es <;> simp [h]

theorem upsertEnv_self (h : (findEnv env x).bind (·.value) = some v) : upsertEnv env x v = env := by
  induction env with
  | nil => cases h
  | cons e env ih =>
    rw [findEnv_cons] at h
    unfold upsertEnv
    by_cases hx : e.name = x
    · rw [if_pos hx] at h ⊢
      obtain ⟨name, value, valueFrom⟩ := e
      simp only [Option.bind_some] at h
      rw [h]
    · rw [if_neg hx] at h ⊢
      rw [ih h]

theorem upsertEnv_twice : upsertEnv (upsertEnv env x v) x w = upsertEnv env x w := by
  induction env with
  | nil => simp [upsertEnv, EnvVar.ofValue]
  | cons e env ih =>
    by_cases hx : e.name = x
    · simp [upsertEnv, hx]
    · simp [upsertEnv, hx, ih]

/-- Two variables, one of which is there, can be set in either order. -/
theorem upsertEnv_comm (hne : x ≠ y) (hx : (findEnv env x).isSome) :
    upsertEnv (upsertEnv env x v) y w = upsertEnv (upsertEnv env y w) x v := by
  induction env with
  | nil => cases hx
  | cons e env ih =>
    rw [findEnv_cons] at hx
    by_cases hex : e.name = x
    · have hey : e.name ≠ y := by rw [hex]; exact hne
      simp [upsertEnv, hex, hne]
    · rw [if_neg hex] at hx
      by_cases hey : e.name = y
      · simp [upsertEnv, hey, hne.symm]
      · simp [upsertEnv, hex, hey, ih hx]

/-- A variable that is set later need not be set now. -/
theorem upsertAll_upsertEnv (hx : (findEnv env x).isSome) (h : ∃ e ∈ es, e.1 = x) :
    upsertAll (upsertEnv env x v) es = upsertAll env es := by
  induction es generalizing env with
  | nil => simp at h
  | cons e es ih =>
    show upsertAll (upsertEnv (upsertEnv env x v) e.1 e.2) es = upsertAll (upsertEnv env e.1 e.2) es
    by_cases he : e.1 = x
    · rw [he, upsertEnv_twice]
    · have hrest : ∃ e' ∈ es, e'.1 = x := by
        obtain ⟨e', he', hname⟩ := h
        rcases List.mem_cons.mp he' with rfl | hmem
        · exact absurd hname he
        · exact ⟨e', hmem, hname⟩
      rw [upsertEnv_comm (Ne.symm he) hx]
      refine ih ?_ hrest
      rw [findEnv_upsertEnv, if_neg he]
      exact hx

/-- **Setting variables changes nothing** exactly when each is left with the value it has. -/
theorem upsertAll_eq_self_iff : upsertAll env es = env ↔
    ∀ x v, assigned x es = some v → (findEnv env x).bind (·.value) = some v := by
  constructor
  · intro h x v hassigned
    have hfind := @findEnv_upsertAll env x es
    rw [h, hassigned, Option.map_some, Option.some_or] at hfind
    rw [hfind]
    rfl
  · intro h
    induction es with
    | nil => rfl
    | cons e es ih =>
      show upsertAll (upsertEnv env e.1 e.2) es = env
      have hes : ∀ x v, assigned x es = some v → (findEnv env x).bind (·.value) = some v := by
        intro x v hassigned
        refine h x v ?_
        rw [assigned_cons, hassigned]
        rfl
      cases hlater : assigned e.1 es with
      | some v =>
        -- the value that counts comes later
        have hthere : (findEnv env e.1).isSome := by
          have := hes e.1 v hlater
          cases hfind : findEnv env e.1 with
          | none => rw [hfind] at this; cases this
          | some _ => rfl
        rw [upsertAll_upsertEnv hthere ⟨(e.1, v), mem_of_assigned hlater, rfl⟩]
        exact ih hes
      | none =>
        have hhas : (findEnv env e.1).bind (·.value) = some e.2 := by
          refine h e.1 e.2 ?_
          rw [assigned_cons, hlater]
          simp
        rw [upsertEnv_self hhas]
        exact ih hes

end Env

/-! ## The containers -/

/-- An assignment, or a group of them, is for the container. -/
def Admits (containerName : Option String) (c : Container) : Prop :=
  containerName.all (· = c.name)

instance (containerName : Option String) (c : Container) : Decidable (Admits containerName c) :=
  inferInstanceAs (Decidable (_ = true))

/-- Changes to the environment, one after the other, are changes to each container. -/
theorem foldl_onTargetedEnv {ι : Type} (xs : List ι) (containerName : ι → Option String)
    (f : ι → List EnvVar → List EnvVar) (containers : List Container) :
    xs.foldl (fun containers x => onTargetedEnv containers (containerName x) (f x)) containers =
      containers.map fun c => { c with
        env := (xs.filter fun x => Admits (containerName x) c).foldl (fun env x => f x env)
          c.env } := by
  induction xs generalizing containers with
  | nil => simp
  | cons x xs ih =>
    rw [List.foldl_cons, ih, onTargetedEnv, List.map_map]
    refine List.map_congr_left fun c _ => ?_
    by_cases h : Admits (containerName x) c
    · rw [List.filter_cons_of_pos (p := fun x => decide (Admits (containerName x) c))
        (decide_eq_true h), Function.comp_apply,
        if_pos (show (containerName x).all (· = c.name) = true from h)]
      rfl
    · rw [List.filter_cons_of_neg (p := fun x => decide (Admits (containerName x) c))
        (by simpa using h), Function.comp_apply,
        if_neg (show ¬ (containerName x).all (· = c.name) = true from h)]

/-! ## The list in its order -/

def PropertyAssignment.setting (a : PropertyAssignment) : String × String := (a.name, a.value)

/-- The value that the last of these assignments gives to a variable. -/
def lastValue (assignments : List PropertyAssignment) (name : String) : Option String :=
  assigned name (assignments.map PropertyAssignment.setting)

/-- What is assigned to a container of the candidate, in the order of the list. -/
def candidateAssignments (assignments : List PropertyAssignment) (c : Container) :
    List PropertyAssignment :=
  (assignments.filter fun a => a.target = .blue).filter fun a => Admits a.containerName c

/-- What a list of assignments to a target asks for in a container. -/
def targetSettings (assignments : List PropertyAssignment) (target : AssignmentTarget)
    (c : Container) : List (String × String) :=
  ((assignments.filter fun a => a.target = target).filter fun a => Admits a.containerName c).map
    PropertyAssignment.setting

def DeploymentSpec.containers (spec : DeploymentSpec) : List Container :=
  (spec.template.spec.map (·.containers)).getD []

/-- The containers of a spec with its assignments. -/
theorem containers_of_assigned {spec created : DeploymentSpec} {target : AssignmentTarget}
    {assignments : List PropertyAssignment}
    (h : applyAssignmentsToDeploymentSpec spec assignments target = .ok created) :
    created.containers = spec.containers.map fun c =>
      { c with env := upsertAll c.env (targetSettings assignments target c) } := by
  unfold applyAssignmentsToDeploymentSpec at h
  cases hpod : spec.template.spec with
  | none =>
    rw [hpod] at h
    cases h
  | some podSpec =>
    rw [hpod] at h
    cases h
    have htarget : assignments.foldl (fun containers a => if a.target = target then
          onTargetedEnv containers a.containerName fun env => upsertEnv env a.name a.value
        else containers) podSpec.containers =
        (assignments.filter fun a => a.target = target).foldl (fun containers a =>
          onTargetedEnv containers a.containerName fun env => upsertEnv env a.name a.value)
          podSpec.containers := by
      rw [List.foldl_filter]
      simp only [decide_eq_true_eq]
    have hcontainers : spec.containers = podSpec.containers := by
      unfold DeploymentSpec.containers
      rw [hpod]
      rfl
    rw [hcontainers]
    simp only [DeploymentSpec.containers, Option.map_some, Option.getD_some, htarget]
    refine (foldl_onTargetedEnv _ (fun a : PropertyAssignment => a.containerName)
      (fun a env => upsertEnv env a.name a.value) _).trans (List.map_congr_left fun c _ => ?_)
    rw [targetSettings, upsertAll, List.foldl_map]
    rfl

/-- The containers after a list of patches. -/
theorem foldl_patches (patches : List (DeploymentPatchKey × OrdMap String String))
    (containers : List Container) :
    patches.foldl (fun containers e =>
      onTargetedEnv containers e.1.containerName fun env => upsertAll env e.2.entries) containers =
      containers.map fun c => { c with
        env := upsertAll c.env
          ((patches.filter fun e => Admits e.1.containerName c).flatMap (·.2.entries)) } := by
  refine (foldl_onTargetedEnv _
    (fun e : DeploymentPatchKey × OrdMap String String => e.1.containerName)
    (fun e env => upsertAll env e.2.entries) _).trans (List.map_congr_left fun c _ => ?_)
  simp only [upsertAll, List.foldl_flatMap]

/-! ## Group by group -/

/-! ### The order of the groups -/

theorem optionLt_trans {a b c : Option String} (hab : optionLt a b) (hbc : optionLt b c) :
    optionLt a c := by
  cases a with
  | none => cases c with
    | none => cases b <;> simp [optionLt] at hab hbc
    | some c => rfl
  | some a => cases b with
    | none => cases hab
    | some b => cases c with
      | none => cases hbc
      | some c =>
        simp only [optionLt, decide_eq_true_eq] at hab hbc ⊢
        exact hab.trans hbc

theorem optionLt_total (a b : Option String) : optionLt a b ∨ a = b ∨ optionLt b a := by
  cases a with
  | none => cases b with
    | none => exact .inr (.inl rfl)
    | some b => exact .inl rfl
  | some a => cases b with
    | none => exact .inr (.inr rfl)
    | some b =>
      simp only [optionLt, decide_eq_true_eq, Option.some.injEq]
      exact lt_trichotomy a b

theorem not_optionLt_none (a : Option String) : ¬ optionLt a none := by
  cases a <;> simp [optionLt]

theorem key_lt_iff {a b : DeploymentPatchKey} : a < b ↔
    a.ns < b.ns ∨ (a.ns = b.ns ∧ (a.name < b.name ∨ (a.name = b.name ∧
      optionLt a.containerName b.containerName))) := by
  show a.lt b = true ↔ _
  simp only [DeploymentPatchKey.lt, Bool.or_eq_true, Bool.and_eq_true, decide_eq_true_eq]

theorem key_trans {a b c : DeploymentPatchKey} (hab : a < b) (hbc : b < c) : a < c := by
  rw [key_lt_iff] at hab hbc ⊢
  rcases hab with h | ⟨h, hab⟩
  · rcases hbc with h' | ⟨h', -⟩
    · exact .inl (h.trans h')
    · exact .inl (h' ▸ h)
  · rcases hbc with h' | ⟨h', hbc⟩
    · exact .inl (h ▸ h')
    · refine .inr ⟨h.trans h', ?_⟩
      rcases hab with g | ⟨g, hab⟩
      · rcases hbc with g' | ⟨g', -⟩
        · exact .inl (g.trans g')
        · exact .inl (g' ▸ g)
      · rcases hbc with g' | ⟨g', hbc⟩
        · exact .inl (g ▸ g')
        · exact .inr ⟨g.trans g', optionLt_trans hab hbc⟩

theorem key_total {a b : DeploymentPatchKey} (hne : a ≠ b) : a < b ∨ b < a := by
  rw [key_lt_iff, key_lt_iff]
  rcases lt_trichotomy a.ns b.ns with h | h | h
  · exact .inl (.inl h)
  · rcases lt_trichotomy a.name b.name with g | g | g
    · exact .inl (.inr ⟨h, .inl g⟩)
    · rcases optionLt_total a.containerName b.containerName with k | k | k
      · exact .inl (.inr ⟨h, .inr ⟨g, k⟩⟩)
      · refine absurd ?_ hne
        obtain ⟨ns, name, containerName⟩ := a
        obtain ⟨ns', name', containerName'⟩ := b
        cases h
        cases g
        cases k
        rfl
      · exact .inr (.inr ⟨h.symm, .inr ⟨g.symm, k⟩⟩)
    · exact .inr (.inr ⟨h.symm, .inl g⟩)
  · exact .inr (.inl h)

theorem key_irrefl (a : DeploymentPatchKey) : ¬ a < a := by
  intro h
  rcases key_lt_iff.mp h with h | ⟨-, h | ⟨-, h⟩⟩
  · exact lt_irrefl _ h
  · exact lt_irrefl _ h
  · cases hname : a.containerName <;> simp [hname, optionLt] at h

/-- A patch of one container does not come before that of all containers. -/
theorem not_key_lt_none (ns name : String) (containerName : Option String) :
    ¬ (⟨ns, name, containerName⟩ : DeploymentPatchKey) < ⟨ns, name, none⟩ := by
  intro h
  rcases key_lt_iff.mp h with h | ⟨-, h | ⟨-, h⟩⟩
  · exact lt_irrefl _ h
  · exact lt_irrefl _ h
  · exact not_optionLt_none _ h

/-! ### The groups of one Deployment -/

section Groups

variable (bgd : BlueGreenDeployment) (ns : String) (greenRef : Option DeploymentRef)

/-- The assignments that are for a Deployment. -/
def assignmentsFor (id : DeploymentIdentity) (assignments : List PropertyAssignment) :
    List PropertyAssignment :=
  assignments.filter fun a => assignmentIdentity bgd ns greenRef a.target = some id

/-- The patches of a Deployment, in the order in which they are applied. -/
def patchesFor (id : DeploymentIdentity) (assignments : List PropertyAssignment) :
    List (DeploymentPatchKey × OrdMap String String) :=
  (groupAssignments bgd ns greenRef assignments).grouped.entries.filter fun e =>
    e.1.ns = id.ns ∧ e.1.name = id.name

variable {bgd ns greenRef} {assignments : List PropertyAssignment} {id : DeploymentIdentity}

theorem groupAssignments_concat (assignments : List PropertyAssignment) (a : PropertyAssignment) :
    groupAssignments bgd ns greenRef (assignments ++ [a]) =
      (assignmentIdentity bgd ns greenRef a.target).elim
        (groupAssignments bgd ns greenRef assignments)
        fun identity => (groupAssignments bgd ns greenRef assignments).add identity a := by
  unfold groupAssignments
  rw [List.foldl_append, List.foldl_cons, List.foldl_nil]
  cases assignmentIdentity bgd ns greenRef a.target <;> rfl

theorem grouped_sorted : (groupAssignments bgd ns greenRef assignments).grouped.entries.Pairwise
    fun a b => a.1 < b.1 := by
  unfold groupAssignments
  have hstart : (⟨.empty, .empty⟩ : GroupedAssignments).grouped.entries.Pairwise
      fun a b => a.1 < b.1 := .nil
  refine List.foldlRecOn (motive := fun (g : GroupedAssignments) =>
    g.grouped.entries.Pairwise fun a b => a.1 < b.1) assignments _ hstart fun g hg a _ => ?_
  cases assignmentIdentity bgd ns greenRef a.target with
  | none => exact hg
  | some identity =>
    exact OrdMap.pairwise_insert (fun _ _ _ => key_trans) (fun _ _ => key_total) hg

theorem assignmentsFor_concat (assignments : List PropertyAssignment) (a : PropertyAssignment) :
    assignmentsFor bgd ns greenRef id (assignments ++ [a]) =
      assignmentsFor bgd ns greenRef id assignments ++
        if assignmentIdentity bgd ns greenRef a.target = some id then [a] else [] := by
  unfold assignmentsFor
  rw [List.filter_append]
  by_cases h : assignmentIdentity bgd ns greenRef a.target = some id
  · simp [h]
  · simp [h]

theorem lastValue_concat (assignments : List PropertyAssignment) (a : PropertyAssignment)
    (name : String) : lastValue (assignments ++ [a]) name =
      if a.name = name then some a.value else lastValue assignments name := by
  unfold lastValue
  rw [List.map_append, assigned_append]
  by_cases h : a.name = name
  · simp [assigned_cons, PropertyAssignment.setting, h]
  · simp [assigned_cons, PropertyAssignment.setting, h]

/-- A group has the last value of each of its variables. -/
theorem get_grouped (containerName : Option String) (name : String) :
    ((groupAssignments bgd ns greenRef assignments).grouped.get
      ⟨id.ns, id.name, containerName⟩).bind (·.get name) =
      lastValue ((assignmentsFor bgd ns greenRef id assignments).filter fun a =>
        a.containerName = containerName) name := by
  induction assignments using List.reverseRecOn with
  | nil => rfl
  | append_singleton assignments a ih =>
    rw [groupAssignments_concat, assignmentsFor_concat]
    cases hid : assignmentIdentity bgd ns greenRef a.target with
    | none =>
      rw [if_neg nofun, List.append_nil]
      exact ih
    | some identity =>
      simp only [Option.elim_some, GroupedAssignments.add, OrdMap.get_insert]
      by_cases hsame : identity = id
      · subst hsame
        rw [if_pos rfl, List.filter_append]
        by_cases hcontainer : a.containerName = containerName
        · -- the group of this container takes the value
          subst hcontainer
          rw [if_pos rfl, List.filter_cons_of_pos (by simp), List.filter_nil, lastValue_concat,
            Option.bind_some, OrdMap.get_insert, ← ih]
          split
          · rfl
          · cases (groupAssignments bgd ns greenRef assignments).grouped.get _ <;> rfl
        · rw [if_neg (by simpa using hcontainer),
            List.filter_cons_of_neg (by simpa using hcontainer), List.filter_nil, List.append_nil]
          exact ih
      · have hkey : (⟨identity.ns, identity.name, a.containerName⟩ : DeploymentPatchKey) ≠
            ⟨id.ns, id.name, containerName⟩ := by
          intro heq
          obtain ⟨hns, hname, -⟩ := DeploymentPatchKey.mk.inj heq
          refine hsame ?_
          cases identity
          cases id
          cases hns
          cases hname
          rfl
        rw [if_neg hkey, if_neg (fun h => hsame (Option.some.inj h)), List.append_nil]
        exact ih

/-- What the patches of a Deployment leave in a container: the last value for it, or else the last
one for all containers. -/
theorem assigned_patchesFor (c : Container) (name : String) :
    assigned name (((patchesFor bgd ns greenRef id assignments).filter fun e =>
      Admits e.1.containerName c).flatMap (·.2.entries)) =
      (lastValue ((assignmentsFor bgd ns greenRef id assignments).filter fun a =>
        a.containerName = some c.name) name).or
      (lastValue ((assignmentsFor bgd ns greenRef id assignments).filter fun a =>
        a.containerName = none) name) := by
  rw [← get_grouped, ← get_grouped, patchesFor, List.filter_filter]
  have hkeys : ∀ key : DeploymentPatchKey, (decide (Admits key.containerName c) &&
      decide (key.ns = id.ns ∧ key.name = id.name)) = true ↔
        key = ⟨id.ns, id.name, none⟩ ∨ key = ⟨id.ns, id.name, some c.name⟩ := by
    rintro ⟨ns', name', containerName⟩
    simp only [Admits, Bool.and_eq_true, decide_eq_true_eq, DeploymentPatchKey.mk.injEq]
    cases containerName with
    | none => simp
    | some containerName =>
      simp only [Option.all_some, decide_eq_true_eq, Option.some.injEq, reduceCtorEq, and_false,
        false_or]
      tauto
  exact OrdMap.assigned_two (p := fun key => decide (Admits key.containerName c) &&
    decide (key.ns = id.ns ∧ key.name = id.name)) grouped_sorted key_irrefl
    (not_key_lt_none _ _ _) hkeys name

end Groups

/-! ## Where the two ways agree -/

/-- Each container has the same variables. -/
def SameEnv (cs cs' : List Container) : Prop :=
  List.Forall₂ (fun c c' => ∀ name, findEnv c.env name = findEnv c'.env name) cs cs'

section Agreement

variable (bgd : BlueGreenDeployment) (ns : String) (greenRef : Option DeploymentRef)
  (assignments : List PropertyAssignment)

def candidateIdentity : DeploymentIdentity :=
  ⟨deploymentNamespace (candidateRef bgd) ns, (candidateRef bgd).name⟩

/-- The containers of the candidate after its live patches. -/
def liveContainers (containers : List Container) : List Container :=
  (patchesFor bgd ns greenRef (candidateIdentity bgd ns) assignments).foldl (fun containers e =>
    onTargetedEnv containers e.1.containerName fun env => upsertAll env e.2.entries) containers

/-- The value a live patch gives to a variable of a container: the last one for the container, or
else the last one for all containers. -/
def liveValue (c : Container) (name : String) : Option String :=
  let live := assignmentsFor bgd ns greenRef (candidateIdentity bgd ns) assignments
  (lastValue (live.filter fun a => a.containerName = some c.name) name).or
    (lastValue (live.filter fun a => a.containerName = none) name)

/-- The value a variable of a container is created with: the last one that is assigned, or else the
one that it has in the manifest. -/
def createdValue (c : Container) (name : String) : Option String :=
  (lastValue (candidateAssignments assignments c) name).or ((findEnv c.env name).bind (·.value))

/-- A live patch has nothing to say about the container that its creation has not said. -/
def PathsAgree (c : Container) : Prop :=
  ∀ a ∈ assignments, ∀ v ∈ liveValue bgd ns greenRef assignments c a.name,
    createdValue assignments c a.name = some v

instance (c : Container) : Decidable (PathsAgree bgd ns greenRef assignments c) :=
  inferInstanceAs (Decidable (∀ a ∈ assignments, _))

variable {bgd ns greenRef assignments} {containers : List Container} {c : Container}

/-- The variables that the live patches set in a container. -/
def liveSettings (bgd : BlueGreenDeployment) (ns : String) (greenRef : Option DeploymentRef)
    (assignments : List PropertyAssignment) (c : Container) : List (String × String) :=
  ((patchesFor bgd ns greenRef (candidateIdentity bgd ns) assignments).filter fun e =>
    Admits e.1.containerName c).flatMap (·.2.entries)

theorem liveContainers_eq : liveContainers bgd ns greenRef assignments containers =
    containers.map fun c => { c with
      env := upsertAll c.env (liveSettings bgd ns greenRef assignments c) } :=
  foldl_patches _ containers

theorem assigned_liveSettings (name : String) :
    assigned name (liveSettings bgd ns greenRef assignments c) =
      liveValue bgd ns greenRef assignments c name :=
  assigned_patchesFor c name

theorem exists_of_lastValue {as : List PropertyAssignment} {name v : String}
    (h : lastValue as name = some v) : ∃ a ∈ as, a.name = name := by
  obtain ⟨a, ha, heq⟩ := List.mem_map.mp (mem_of_assigned h)
  exact ⟨a, ha, (Prod.mk.inj heq).1⟩

theorem pathsAgree_iff : PathsAgree bgd ns greenRef assignments c ↔ ∀ name v,
    liveValue bgd ns greenRef assignments c name = some v →
      createdValue assignments c name = some v := by
  constructor
  · intro h name v hlive
    have hassigned : ∃ a ∈ assignments, a.name = name := by
      rcases Option.or_eq_some_iff.mp hlive with hspecific | ⟨-, hglobal⟩
      · obtain ⟨a, ha, hname⟩ := exists_of_lastValue hspecific
        exact ⟨a, List.mem_of_mem_filter (List.mem_of_mem_filter ha), hname⟩
      · obtain ⟨a, ha, hname⟩ := exists_of_lastValue hglobal
        exact ⟨a, List.mem_of_mem_filter (List.mem_of_mem_filter ha), hname⟩
    obtain ⟨a, ha, rfl⟩ := hassigned
    exact h a ha v hlive
  · intro h a _ v hv
    exact h a.name v hv

/-- What the candidate is created with is in the live patches as well. -/
theorem liveValue_isSome {name : String}
    (h : (lastValue (candidateAssignments assignments c) name).isSome) :
    (liveValue bgd ns greenRef assignments c name).isSome := by
  obtain ⟨v, hv⟩ := Option.isSome_iff_exists.mp h
  obtain ⟨a, ha, hname⟩ := exists_of_lastValue hv
  obtain ⟨ha, hreaches⟩ := List.mem_filter.mp ha
  obtain ⟨ha, hblue⟩ := List.mem_filter.mp ha
  have hlive : a ∈ assignmentsFor bgd ns greenRef (candidateIdentity bgd ns) assignments := by
    refine List.mem_filter.mpr ⟨ha, ?_⟩
    rw [decide_eq_true_eq] at hblue ⊢
    rw [hblue]
    rfl
  have hsome : ∀ containerName, a.containerName = containerName →
      (lastValue ((assignmentsFor bgd ns greenRef (candidateIdentity bgd ns) assignments).filter
        fun a => a.containerName = containerName) name).isSome := by
    intro containerName hcontainer
    have hmem : a ∈ (assignmentsFor bgd ns greenRef (candidateIdentity bgd ns) assignments).filter
        fun a => a.containerName = containerName :=
      List.mem_filter.mpr ⟨hlive, decide_eq_true hcontainer⟩
    exact Option.isSome_iff_exists.mpr
      (exists_assigned ⟨a.setting, List.mem_map_of_mem hmem, hname⟩)
  simp only [liveValue, Option.isSome_or, Bool.or_eq_true]
  cases hcontainer : a.containerName with
  | none => exact .inr (hsome none hcontainer)
  | some containerName =>
    simp only [Admits, hcontainer, Option.all_some, decide_eq_true_eq] at hreaches
    exact .inl (hsome (some c.name) (hcontainer.trans (congrArg some hreaches)))

/-- The environment a container is created with. -/
def createdEnv (assignments : List PropertyAssignment) (c : Container) : List EnvVar :=
  upsertAll c.env ((candidateAssignments assignments c).map PropertyAssignment.setting)

theorem createdValue_eq (name : String) :
    (findEnv (createdEnv assignments c) name).bind (·.value) = createdValue assignments c name := by
  unfold createdEnv createdValue lastValue
  rw [findEnv_upsertAll]
  cases assigned name ((candidateAssignments assignments c).map PropertyAssignment.setting) <;> rfl

theorem containers_created {spec created : DeploymentSpec}
    (h : applyAssignmentsToDeploymentSpec spec assignments .blue = .ok created) :
    created.containers = spec.containers.map fun c =>
      { c with env := createdEnv assignments c } :=
  containers_of_assigned h

/-- A container keeps its environment exactly when the two ways agree on it. -/
theorem live_createdEnv_iff :
    upsertAll (createdEnv assignments c) (liveSettings bgd ns greenRef assignments c) =
      createdEnv assignments c ↔ PathsAgree bgd ns greenRef assignments c := by
  rw [upsertAll_eq_self_iff, pathsAgree_iff]
  simp only [assigned_liveSettings, createdValue_eq]

/-- It has the same variables on either way exactly when the two agree on it. -/
theorem live_same_iff :
    (∀ name, findEnv (upsertAll c.env (liveSettings bgd ns greenRef assignments c)) name =
      findEnv (createdEnv assignments c) name) ↔ PathsAgree bgd ns greenRef assignments c := by
  rw [pathsAgree_iff]
  refine forall_congr' fun name => ?_
  have hcreated := @liveValue_isSome bgd ns greenRef assignments c name
  rw [createdEnv, findEnv_upsertAll, findEnv_upsertAll, assigned_liveSettings]
  simp only [createdValue, lastValue] at hcreated ⊢
  cases hlive : liveValue bgd ns greenRef assignments c name with
  | none =>
    cases hset : assigned name
        ((candidateAssignments assignments c).map PropertyAssignment.setting) with
    | none => simp
    | some v => simp [hlive, hset] at hcreated
  | some v =>
    cases hset : assigned name
        ((candidateAssignments assignments c).map PropertyAssignment.setting) with
    | some v' => simp [eq_comm]
    | none =>
      -- nothing was assigned at the creation: the manifest has to have the value already
      cases hfind : findEnv c.env name with
      | none => simp
      | some e =>
        obtain ⟨n, value, valueFrom⟩ := e
        simp [eq_comm]

end Agreement

/-! ## The live patch as it runs -/

def Deployment.containers (d : Deployment) : Option (List Container) :=
  (d.spec.bind (·.template.spec)).map (·.containers)

/-- The Deployment is there, with these containers, and no other one has its identity. -/
structure Carries (id : DeploymentIdentity) (cs : List Container) (w : World) : Prop where
  distinct : (w.deployments.map Deployment.identity).Nodup
  there : ∃ d ∈ w.deployments, d.identity = id ∧ d.containers = some cs

namespace Carries

variable {id : DeploymentIdentity} {cs : List Container} {w w' : World} {o : Outcome}

theorem found (h : Carries id cs w) {d : Deployment} (hd : d ∈ w.deployments)
    (hid : d.identity = id) : d.containers = some cs := by
  obtain ⟨d', hd', hid', hcs⟩ := h.there
  rwa [List.inj_on_of_nodup_map h.distinct hd hd' (hid.trans hid'.symm)]

/-- A Deployment is replaced: the one in question, or another one. -/
theorem replace (h : Carries id cs w) {ns name : String} {d : Deployment} {cs' : List Container}
    (hd : (⟨ns, name⟩ : DeploymentIdentity) = id → d.containers = some cs')
    (hne : (⟨ns, name⟩ : DeploymentIdentity) ≠ id → cs' = cs)
    (hw : w.serve (.replaceDeployment ns name d) o = some (.ok (), w')) : Carries id cs' w' := by
  have hr := World.respond_ok hw
  unfold World.replaceDeployment at hr
  split at hr
  · cases hr
  · split at hr
    · rename_i stored hstored _
      cases hr
      have hrewrites : Rewrites ⟨ns, name⟩ (fun _ => True) w.deployments
          (World.mapDeployment w.deployments ns name fun stored =>
            World.updatedDeployment stored d.metadata.labels d.spec w.nextVersion) :=
        .map (fun _ => rfl) fun _ _ _ => trivial
      refine ⟨hrewrites.distinct h.distinct, ?_⟩
      by_cases hid : (⟨ns, name⟩ : DeploymentIdentity) = id
      · obtain ⟨hmem, hown⟩ := findDeployment_some hstored
        refine ⟨World.updatedDeployment stored d.metadata.labels d.spec w.nextVersion,
          List.mem_map.mpr ⟨stored, hmem, if_pos ?_⟩, hown.trans hid, hd hid⟩
        simpa [Deployment.identity] using hown
      · obtain ⟨d', hd', hid', hcs⟩ := h.there
        rw [hne hid]
        have hother : d'.identity ≠ ⟨ns, name⟩ := by
          rw [hid']
          exact Ne.symm hid
        exact ⟨d', (hrewrites.others d' hother).mpr hd', hid', hcs⟩
    · cases hr

end Carries

section Live

variable {id : DeploymentIdentity} {cs : List Container} {w : World}

/-- The outside while nobody else writes. -/
abbrev quietCluster : Outside Call Answer World := cluster.outside Guard.still

/-- Nothing is asked of the calls. -/
def anyCall : Contract Call World := ⟨fun _ => True, fun _ _ => True⟩

theorem spec_ask {α : Type} {c : Call} {k : Answer c → Op α} {Q : α → World → Prop}
    (h : ∀ a w' o, w.serve c o = some (a, w') →
      quietCluster.Spec anyCall Q (fun _ _ => True) (k a) w') :
    quietCluster.Spec anyCall Q (fun _ _ => True) (.call c k) w := by
  refine ⟨trivial, fun a w' ha => ⟨trivial, fun w'' hl _ => ?_⟩⟩
  obtain ⟨o, -, hw⟩ := ha
  rw [Machine.later_still hl]
  exact h a w' o hw

theorem patchedDeployment_containers {d patched : Deployment} {name : String}
    {containerName : Option String} {env : List (String × String)}
    (hcs : d.containers = some cs) (h : patchedDeployment d name containerName env = .ok patched) :
    patched.containers = some (onTargetedEnv cs containerName fun e => upsertAll e env) := by
  unfold patchedDeployment at h
  unfold Deployment.containers at hcs ⊢
  split at h
  · cases h
  · rename_i spec hspec
    split at h
    · cases h
    · rename_i podSpec hpod
      cases h
      rw [hspec, Option.bind_some, hpod] at hcs
      cases hcs
      rfl

/-- One patch. -/
theorem Carries.patch (h : Carries id cs w) (ns name : String) (containerName : Option String)
    (env : List (String × String)) :
    quietCluster.Spec anyCall (fun _ => Carries id
      (if (⟨ns, name⟩ : DeploymentIdentity) = id then
        onTargetedEnv cs containerName fun e => upsertAll e env else cs)) (fun _ _ => True)
      (patchTargetedDeploymentEnv ns name containerName env false) w := by
  refine spec_ask fun r w₁ o hget => ?_
  have hsame : w₁ = w := by
    rcases World.respond_cases hget with ⟨rfl, -⟩ | ⟨h | h, -⟩
    · rfl
    · exact h
    · exact h
  subst hsame
  cases r with
  | error e => cases e <;> trivial
  | ok d =>
    obtain ⟨hd, hid⟩ := World.serve_getDeployment hget
    refine Outside.Spec.ofExcept_bind (fun _ _ => trivial) fun patched hpatched => ?_
    refine spec_ask fun r w₂ o hreplace => ?_
    cases r with
    | error e => trivial
    | ok _ =>
      refine h.replace (fun heq => ?_) (fun hne => if_neg hne) hreplace
      rw [if_pos heq]
      exact patchedDeployment_containers (h.found hd (hid.trans heq)) hpatched

theorem setGreenLabel_containers {d adopted : Deployment} (h : setGreenLabel d true = .ok adopted) :
    adopted.containers = d.containers := by
  unfold setGreenLabel labelBoth onTemplateLabels at h
  split at h
  · cases h
  · rename_i spec hspec
    split at h
    · cases h
    · cases h
      have hspec' : d.spec = some spec := hspec
      unfold Deployment.containers
      rw [hspec']
      rfl

/-- Finding the current green may relabel a Deployment, and no more. -/
theorem Carries.resolve (h : Carries id cs w) (ns : String) (selector : DeploymentSelector) :
    quietCluster.Spec anyCall (fun _ => Carries id cs) (fun _ _ => True)
      (resolveCurrentGreen ns selector) w := by
  have hlist : ∀ {w₁ : World} {ns' : String} {labels : LabelSelector}
      {r : Except KubeError (List Deployment)} {o : Outcome},
      w.serve (.listDeployments ns' labels) o = some (r, w₁) → w₁ = w := by
    intro w₁ ns' labels r o hw
    rcases World.respond_cases hw with ⟨rfl, -⟩ | ⟨h | h, -⟩
    · rfl
    · exact h
    · exact h
  unfold resolveCurrentGreen
  split
  · trivial
  · refine spec_ask fun r w₁ o hgreens => ?_
    obtain rfl := hlist hgreens
    cases r with
    | error e => trivial
    | ok greens =>
      rcases greens with _ | ⟨green, _ | ⟨green', rest⟩⟩
      · refine spec_ask fun r w₂ o hfamily => ?_
        obtain rfl := hlist hfamily
        cases r with
        | error e => trivial
        | ok family =>
          rcases family with _ | ⟨d, _ | ⟨d', rest⟩⟩
          · trivial
          · -- the only one of the family is adopted
            refine Outside.Spec.ofExcept_bind (fun _ _ => trivial) fun adopted hadopted => ?_
            refine spec_ask fun r w₃ o hreplace => ?_
            cases r with
            | error e => trivial
            | ok _ =>
              refine h.replace (fun heq => ?_) (fun _ => rfl) hreplace
              have hd : d ∈ World.selectDeployments w₂.deployments _ _ :=
                World.serve_listDeployments hfamily ▸ List.mem_singleton_self d
              obtain ⟨hmem, hns⟩ := List.mem_filter.mp hd
              simp only [decide_eq_true_eq] at hns
              rw [setGreenLabel_containers hadopted]
              refine h.found hmem (Eq.trans ?_ heq)
              rw [Deployment.identity, hns.1]
          · trivial
      · exact h
      · trivial

/-- What some of the groups have made of the containers of a Deployment. -/
def patchesDone (id : DeploymentIdentity)
    (groups : List (DeploymentPatchKey × OrdMap String String)) (cs : List Container) :
    List Container :=
  (groups.filter fun e => e.1.ns = id.ns ∧ e.1.name = id.name).foldl (fun containers e =>
    onTargetedEnv containers e.1.containerName fun env => upsertAll env e.2.entries) cs

theorem patchesDone_concat (groups : List (DeploymentPatchKey × OrdMap String String))
    (e : DeploymentPatchKey × OrdMap String String) :
    patchesDone id (groups ++ [e]) cs =
      if (⟨e.1.ns, e.1.name⟩ : DeploymentIdentity) = id then
        onTargetedEnv (patchesDone id groups cs) e.1.containerName fun env =>
          upsertAll env e.2.entries
      else patchesDone id groups cs := by
  unfold patchesDone
  rw [List.filter_append]
  by_cases hid : (⟨e.1.ns, e.1.name⟩ : DeploymentIdentity) = id
  · subst hid
    rw [if_pos rfl, List.filter_cons_of_pos (by simp), List.filter_nil, List.foldl_append]
    rfl
  · rw [if_neg hid, List.filter_cons_of_neg, List.filter_nil, List.append_nil]
    simp only [decide_eq_true_eq]
    rintro ⟨hns, hname⟩
    exact hid (by rw [hns, hname])

/-- What a completed `apply_assignments` leaves in a Deployment, for the green that it finds. -/
theorem applyAssignments_patches {bgd : BlueGreenDeployment} {ns : String}
    {assignments : List PropertyAssignment} (h : Carries id cs w) :
    quietCluster.Spec anyCall (fun _ w' => ∃ greenRef, Carries id
      (patchesDone id (groupAssignments bgd ns greenRef assignments).grouped.entries cs) w')
      (fun _ _ => True) (applyAssignments bgd ns assignments false) w := by
  have hgreen : quietCluster.Spec anyCall (fun _ => Carries id cs)
      (fun _ _ => True) (greenForAssignments bgd ns assignments) w := by
    unfold greenForAssignments
    split
    · exact (h.resolve _ _).bind fun _ _ h => h
    · exact h
  refine hgreen.bind fun greenRef w₁ h₁ => ?_
  -- one group after the other
  have hloop : quietCluster.Spec anyCall (fun _ => Carries id
      (patchesDone id (groupAssignments bgd ns greenRef assignments).grouped.entries cs))
      (fun _ _ => True)
      (Prog.forEach (groupAssignments bgd ns greenRef assignments).grouped.entries fun entry =>
        patchTargetedDeploymentEnv entry.1.ns entry.1.name entry.1.containerName
          entry.2.entries false) w₁ := by
    refine Outside.Spec.forEachDone (P := fun done => Carries id (patchesDone id done cs)) h₁
      fun done e _ w₂ h₂ => ?_
    refine (h₂.patch e.1.ns e.1.name e.1.containerName e.2.entries).mono (fun _ w₃ h₃ => ?_)
      fun _ _ _ => trivial
    rw [patchesDone_concat]
    exact h₃
  exact hloop.bind fun _ w₂ h₂ => ⟨greenRef, h₂⟩

/-- **The live patch as it runs** leaves the candidate with the containers of `liveContainers`, for
the green that it finds. -/
theorem applyAssignments_carries {bgd : BlueGreenDeployment} {ns : String}
    {assignments : List PropertyAssignment} (h : Carries (candidateIdentity bgd ns) cs w) :
    quietCluster.Spec anyCall (fun _ w' => ∃ greenRef, Carries (candidateIdentity bgd ns)
      (liveContainers bgd ns greenRef assignments cs) w') (fun _ _ => True)
      (applyAssignments bgd ns assignments false) w :=
  applyAssignments_patches h

end Live

/-- **The two ways give every container of the candidate the same environment**, and the live patch
leaves alone what the candidate was created with, exactly when they agree on each container. -/
theorem env_paths_agree_iff (bgd : BlueGreenDeployment) (ns : String)
    (greenRef : Option DeploymentRef) (assignments : List PropertyAssignment)
    (spec created : DeploymentSpec)
    (h : applyAssignmentsToDeploymentSpec spec assignments .blue = .ok created) :
    (liveContainers bgd ns greenRef assignments created.containers = created.containers ↔
      ∀ c ∈ spec.containers, PathsAgree bgd ns greenRef assignments c) ∧
    (SameEnv (liveContainers bgd ns greenRef assignments spec.containers) created.containers ↔
      ∀ c ∈ spec.containers, PathsAgree bgd ns greenRef assignments c) := by
  rw [containers_created h, liveContainers_eq, liveContainers_eq]
  constructor
  · rw [List.map_map, List.map_inj_left]
    refine forall₂_congr fun c _ => ?_
    rw [← live_createdEnv_iff]
    constructor
    · intro heq
      exact congrArg Container.env heq
    · intro heq
      show Container.mk _ _ _ _ _ = Container.mk _ _ _ _ _
      congr 1
  · unfold SameEnv
    rw [List.forall₂_map_left_iff, List.forall₂_map_right_iff, List.forall₂_same]
    exact forall₂_congr fun c _ => live_same_iff

namespace Sample

/-- The application's container is given a queue of its own, whatever the other containers have. -/
def specificLast : List PropertyAssignment :=
  [⟨.blue, .env, "ORDERS_QUEUE", "orders", none⟩,
    ⟨.blue, .env, "ORDERS_QUEUE", "orders-blue", some "app"⟩]

/-- The same in the other order. -/
def globalLast : List PropertyAssignment :=
  [⟨.blue, .env, "ORDERS_QUEUE", "orders-blue", some "app"⟩,
    ⟨.blue, .env, "ORDERS_QUEUE", "orders", none⟩]

/-- The manifest of the candidate with its variables. -/
def created (assignments : List PropertyAssignment) : DeploymentSpec :=
  match applyAssignmentsToDeploymentSpec deploymentSpec assignments .blue with
  | .ok spec => spec
  | .error _ => deploymentSpec

end Sample

/-- The container keeps its queue. -/
theorem env_paths_agree_specific :
    liveContainers (Sample.bgd .pending) "default" none Sample.specificLast
        (Sample.created Sample.specificLast).containers =
      (Sample.created Sample.specificLast).containers :=
  (env_paths_agree_iff (Sample.bgd .pending) "default" none Sample.specificLast
    Sample.deploymentSpec (Sample.created Sample.specificLast) (by rfl)).1.mpr (by decide)

/-- The container is created with the queue of all containers, and patched to its own. -/
theorem live_patch_changes_candidate :
    ¬ ∀ (bgd : BlueGreenDeployment) (ns : String) (greenRef : Option DeploymentRef)
      (assignments : List PropertyAssignment) (spec created : DeploymentSpec),
      applyAssignmentsToDeploymentSpec spec assignments .blue = .ok created →
      liveContainers bgd ns greenRef assignments created.containers = created.containers := by
  intro hall
  have hsame := hall (Sample.bgd .pending) "default" none Sample.globalLast Sample.deploymentSpec
    (Sample.created Sample.globalLast) (by rfl)
  exact absurd hsame (by decide +kernel)

end FluidBG
