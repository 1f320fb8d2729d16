import FluidBG.Controller.Lease
/-!
# The reconcile lease is exclusive

A replica writes a Lease with the resource version it has read, so when the write succeeds the Lease
is still the one that was read: what the replica checked on its copy holds of the stored object. The
copy is known by its version for good, because versions are given out once.
-/

set_option autoImplicit false

namespace FluidBG

open Lib

/-! ## What a copy tells -/

/-- The copy was read: as long as the stored Lease has its version, it is the copy. -/
def LeaseWorld.Known (w : LeaseWorld) (name : String) (copy : Lease) : Prop :=
  ∃ version, copy.resourceVersion = some version ∧ version < w.nextVersion ∧
    ∀ stored, w.leases name = some stored → stored.resourceVersion = some version → stored = copy

/-- Nobody but the replica holds the Lease at `now`, or nobody does any more. -/
def LeaseSpec.FreeFor (spec : LeaseSpec) (config : LeaseConfig) (now : Timestamp) : Prop :=
  spec.holderIdentity = some config.holderIdentity ∨
    ∀ renewTime, spec.renewTime.or spec.acquireTime = some renewTime →
      0 < spec.leaseDurationSeconds.getD 0 →
        renewTime + spec.leaseDurationSeconds.getD 0 * 1000000000 ≤ now

/-- What the write of a replica is made from: the copy it has read, and the time it is. -/
def LeaseJob.Makes (job : LeaseJob) (now : Timestamp) (copy written : Lease) : Prop :=
  match job with
  | .acquire _ _ config =>
    (∀ spec, copy.spec = some spec → spec.FreeFor config now) ∧
      ∃ t, written.spec = some (leaseSpecAt config
        (leaseTransitions copy + transitionIncrement copy config) true t)
  | .renew _ config =>
    copy.spec.bind (·.holderIdentity) = some config.holderIdentity ∧
      ∃ t, written.spec = some (leaseSpecAt config (leaseTransitions copy) false t)

/-- Every Lease has a version, and the last write of a Lease is what is stored. -/
structure LeaseWorld.WellFormed (w : LeaseWorld) : Prop where
  versions : ∀ name lease, w.leases name = some lease →
    ∃ version, lease.resourceVersion = some version ∧ version < w.nextVersion
  written : ∀ name last, w.lastWrite name = some last → ∃ lease spec t seconds,
    w.leases name = some lease ∧ lease.spec = some spec ∧ last.spec = some spec ∧
      spec.holderIdentity = some last.writer ∧ spec.renewTime = some t ∧
      spec.leaseDurationSeconds = some seconds ∧ 0 < seconds

/-- **What a replica may ask of the server**: to replace a copy it knows, by what it makes from it,
or to create the Lease for itself. -/
def LeaseJob.May (job : LeaseJob) (w : LeaseWorld) : LeaseCall → Prop
  | .replace name lease => name = job.name ∧ ∃ copy, w.Known name copy ∧
      lease.resourceVersion = copy.resourceVersion ∧ ∃ now ≤ w.clock, job.Makes now copy lease
  | .create lease => lease.name = job.name ∧ (∃ name owner config, job = .acquire name owner config) ∧
      ∃ t, lease.spec = some (leaseSpecAt job.config 0 true t)
  | _ => True

abbrev leaseDuty : Duty LeaseCall LeaseJob LeaseWorld := ⟨LeaseWorld.WellFormed, LeaseJob.May⟩

/-! ## The server only moves on -/

/-- Time does not run back, and what is known of a copy stays known. -/
structure LeaseWorld.Grows (w w' : LeaseWorld) : Prop where
  clock : w.clock ≤ w'.clock
  known : ∀ name copy, w.Known name copy → w'.Known name copy

section Server

variable {w w' w'' : LeaseWorld} {job : LeaseJob} {c : LeaseCall} {o : LeaseOutcome}
  {name writer : String} {lease : Lease}

theorem LeaseWorld.Grows.refl (w : LeaseWorld) : w.Grows w := ⟨le_refl _, fun _ _ h => h⟩

theorem LeaseWorld.Grows.trans (h : w.Grows w') (h' : w'.Grows w'') : w.Grows w'' :=
  ⟨le_trans h.clock h'.clock, fun name copy hk => h'.known name copy (h.known name copy hk)⟩

/-- A write is under a version nobody has seen. -/
theorem LeaseWorld.write_grows : w.Grows (w.write writer name lease) := by
  refine ⟨le_refl _, ?_⟩
  rintro name' copy ⟨version, hversion, hlt, hstored⟩
  refine ⟨version, hversion, Nat.lt_succ_of_lt hlt, fun stored hs hv => ?_⟩
  by_cases hname : name' = name
  · subst hname
    simp only [write, Function.update_self, Option.some.injEq] at hs
    subst hs
    simp only [Option.some.injEq] at hv
    omega
  · simp only [write, Function.update_of_ne hname] at hs
    exact hstored stored hs hv

/-- **A served call**: the Lease it names is written, under the name of the caller, or nothing
changes. -/
theorem LeaseWorld.serve_cases (w : LeaseWorld) (job : LeaseJob) (c : LeaseCall)
    (o : LeaseOutcome) : (w.serve job c o).2 = w ∨
    (∃ name lease stored, c = .replace name lease ∧ w.leases name = some stored ∧
      (lease.resourceVersion = none ∨ lease.resourceVersion = stored.resourceVersion) ∧
      (w.serve job c o).2 = w.write job.config.holderIdentity name lease) ∨
    (∃ lease, c = .create lease ∧ w.leases lease.name = none ∧
      (w.serve job c o).2 = w.write job.config.holderIdentity lease.name lease) := by
  cases c with
  | get name => left; cases o <;> rfl
  | now => left; rfl
  | replace name lease =>
    have hreplace : (w.replace job.config.holderIdentity name lease).2 = w ∨
        ∃ stored, w.leases name = some stored ∧
          (lease.resourceVersion = none ∨ lease.resourceVersion = stored.resourceVersion) ∧
          (w.replace job.config.holderIdentity name lease).2 =
            w.write job.config.holderIdentity name lease := by
      unfold LeaseWorld.replace
      split
      · exact .inl rfl
      · rename_i stored hstored
        split
        · rename_i hversion
          exact .inr ⟨stored, hstored, hversion, rfl⟩
        · exact .inl rfl
    cases o with
    | refused text => exact .inl rfl
    | ok | lost text =>
      rcases hreplace with h | ⟨stored, hstored, hversion, h⟩
      · exact .inl h
      · exact .inr (.inl ⟨name, lease, stored, rfl, hstored, hversion, h⟩)
  | create lease =>
    have hcreate : (w.create job.config.holderIdentity lease).2 = w ∨
        w.leases lease.name = none ∧ (w.create job.config.holderIdentity lease).2 =
          w.write job.config.holderIdentity lease.name lease := by
      unfold LeaseWorld.create
      split
      · rename_i hnone
        exact .inr ⟨hnone, rfl⟩
      · exact .inl rfl
    cases o with
    | refused text => exact .inl rfl
    | ok | lost text =>
      rcases hcreate with h | ⟨hnone, h⟩
      · exact .inl h
      · exact .inr (.inr ⟨lease, rfl, hnone, h⟩)

theorem LeaseWorld.serve_grows : w.Grows (w.serve job c o).2 := by
  rcases serve_cases w job c o with h | ⟨_, _, _, _, _, _, h⟩ | ⟨_, _, _, h⟩
  · rw [h]
    exact .refl w
  · rw [h]
    exact write_grows
  · rw [h]
    exact write_grows

theorem leaseDurationSeconds_pos (seconds : Nat) : 0 < leaseDurationSeconds seconds := by
  unfold leaseDurationSeconds
  omega

/-- A write of what a replica writes keeps the server well formed. -/
theorem LeaseWorld.WellFormed.write (h : w.WellFormed) {config : LeaseConfig}
    {transitions : Int32} {acquired : Bool} {t : Timestamp}
    (hspec : lease.spec = some (leaseSpecAt config transitions acquired t)) :
    (w.write config.holderIdentity name lease).WellFormed := by
  constructor
  · intro name' lease' hlease
    by_cases hname : name' = name
    · subst hname
      simp only [LeaseWorld.write, Function.update_self, Option.some.injEq] at hlease
      subst hlease
      exact ⟨w.nextVersion, rfl, Nat.lt_succ_self _⟩
    · simp only [LeaseWorld.write, Function.update_of_ne hname] at hlease
      obtain ⟨version, hversion, hlt⟩ := h.versions name' lease' hlease
      exact ⟨version, hversion, Nat.lt_succ_of_lt hlt⟩
  · intro name' last hlast
    by_cases hname : name' = name
    · subst hname
      simp only [LeaseWorld.write, Function.update_self, Option.some.injEq] at hlast ⊢
      subst hlast
      exact ⟨_, leaseSpecAt config transitions acquired t, t, leaseDurationSeconds config.duration,
        rfl, hspec, hspec, rfl, rfl, rfl, leaseDurationSeconds_pos _⟩
    · simp only [LeaseWorld.write, Function.update_of_ne hname] at hlast ⊢
      exact h.written name' last hlast

theorem LeaseJob.Makes.spec {now : Timestamp} {copy written : Lease}
    (h : job.Makes now copy written) : ∃ transitions acquired t,
      written.spec = some (leaseSpecAt job.config transitions acquired t) := by
  cases job with
  | acquire name owner config =>
    obtain ⟨-, t, ht⟩ := h
    exact ⟨_, _, t, ht⟩
  | renew name config =>
    obtain ⟨-, t, ht⟩ := h
    exact ⟨_, _, t, ht⟩

/-- **Calls that replicas may make keep the server well formed.** -/
theorem LeaseWorld.WellFormed.serve (h : w.WellFormed) (hmay : job.May w c) :
    (w.serve job c o).2.WellFormed := by
  rcases serve_cases w job c o with
    heq | ⟨name, lease, stored, rfl, -, -, heq⟩ | ⟨lease, rfl, -, heq⟩
  · rw [heq]
    exact h
  · obtain ⟨-, copy, -, -, now, -, hmakes⟩ := hmay
    obtain ⟨transitions, acquired, t, hspec⟩ := hmakes.spec
    rw [heq]
    exact h.write hspec
  · obtain ⟨-, -, t, hspec⟩ := hmay
    rw [heq]
    exact h.write hspec

end Server

/-! ## The programs -/

/-- The replicas that work beside the one at hand. -/
abbrev leaseOutside : Outside LeaseCall LeaseAnswer (LeaseWorld × LeaseJob) :=
  Pool.outside leaseServer Watch.top leaseDuty

/-- The program of this replica keeps the duty, from `w`, and ends in `Q`. -/
abbrev LeaseOp.Keeps {α : Type} (job : LeaseJob) (p : LeaseOp α) (Q : α → LeaseWorld → Prop)
    (w : LeaseWorld) : Prop :=
  leaseOutside.Spec leaseDuty.contract (fun a s => s.2 = job ∧ s.1.WellFormed ∧ Q a s.1)
    (fun _ _ => True) p (w, job)

section Programs

variable {w : LeaseWorld} {job : LeaseJob} {α β : Type}

theorem LeaseOp.later {s s' : LeaseWorld × LeaseJob} (h : leaseOutside.Later s s') :
    s.1.Grows s'.1 ∧ s'.2 = s.2 := by
  refine ⟨?_, Pool.later_memory h⟩
  induction h with
  | refl => exact .refl _
  | @tail t u _ hmoves ih =>
    refine ih.trans ?_
    rcases hmoves.2 with ⟨all, v, -, -, hm⟩ | ⟨others, x, c, o, a, x', -, -, -, -, hserve⟩
    · have htick : u.1 = { t.1 with clock := t.1.clock + v } := (Option.some.inj hm).symm
      rw [htick]
      exact ⟨Int.le_add_of_nonneg_right (Int.natCast_nonneg v), fun _ _ h => h⟩
    · have hu : u.1 = (t.1.serve x c o).2 := by
        have hpair := Option.some.inj hserve
        exact (congrArg (fun r => r.2.1) hpair).symm
      rw [hu]
      exact LeaseWorld.serve_grows

/-- The rule for one call: the program goes on from wherever the server has moved. -/
theorem LeaseOp.Keeps.call {c : LeaseCall} {k : LeaseAnswer c → LeaseOp α}
    {Q : α → LeaseWorld → Prop} (hi : w.WellFormed) (hmay : job.May w c)
    (hk : ∀ o w'', (w.serve job c o).2.Grows w'' → w''.WellFormed →
      LeaseOp.Keeps job (k (w.serve job c o).1) Q w'') :
    LeaseOp.Keeps job (.call c k) Q w := by
  refine ⟨hmay, fun a s' hanswer => ?_⟩
  obtain ⟨others, o, -, hserve⟩ := hanswer
  have hpair := Option.some.inj hserve
  obtain ⟨w', job'⟩ := s'
  cases hpair
  refine ⟨hi.serve hmay, fun s'' hlater hi'' => ?_⟩
  obtain ⟨hgrows, hjob⟩ := LeaseOp.later hlater
  obtain ⟨w'', job''⟩ := s''
  cases hjob
  exact hk o w'' hgrows hi''

theorem LeaseOp.Keeps.bind {p : LeaseOp α} {f : α → LeaseOp β} {R : α → LeaseWorld → Prop}
    {Q : β → LeaseWorld → Prop} (hp : LeaseOp.Keeps job p R w)
    (hf : ∀ a w', w'.WellFormed → R a w' → LeaseOp.Keeps job (f a) Q w') :
    LeaseOp.Keeps job (p.bind f) Q w := by
  refine Outside.Spec.bind hp ?_
  rintro a ⟨w', job'⟩ ⟨hjob, hi, hr⟩
  cases hjob
  exact hf a w' hi hr

theorem LeaseOp.Keeps.pure {Q : α → LeaseWorld → Prop} {a : α} (hi : w.WellFormed) (h : Q a w) :
    LeaseOp.Keeps job (.pure a) Q w :=
  ⟨rfl, hi, h⟩

/-- **Whether a Lease is free**: where the answer is yes, it is free at the time it was looked at. -/
theorem leaseCanBeAcquired_keeps (config : LeaseConfig) (lease : Lease) (hi : w.WellFormed) :
    LeaseOp.Keeps job (leaseCanBeAcquired lease config) (fun free w' => w.Grows w' ∧
      (free = true → ∀ spec, lease.spec = some spec → spec.FreeFor config w'.clock)) w := by
  unfold leaseCanBeAcquired
  cases hspec : lease.spec with
  | none => exact .pure hi ⟨.refl w, fun _ spec h => by cases h⟩
  | some spec =>
    dsimp only
    split
    · rename_i hholder
      exact .pure hi ⟨.refl w, fun _ spec' h => by cases h; exact .inl hholder⟩
    · unfold leaseExpired
      split
      · rename_i hnone
        refine .pure hi ⟨.refl w, fun _ spec' h => ?_⟩
        cases h
        exact .inr fun renewTime h => by rw [hnone] at h; cases h
      · rename_i renewTime hrenew
        dsimp only
        split
        · rename_i hseconds
          refine .pure hi ⟨.refl w, fun _ spec' h => ?_⟩
          cases h
          exact .inr fun _ _ hpos => by omega
        · refine LeaseOp.Keeps.call hi trivial fun o w'' hgrows hi'' => ?_
          refine .pure hi'' ⟨hgrows, fun hfree spec' h => ?_⟩
          cases h
          refine .inr fun renewTime' h' _ => ?_
          rw [hrenew] at h'
          cases h'
          have hnow := of_decide_eq_true hfree
          have hclock : w.clock ≤ w''.clock := hgrows.clock
          have hread : (w.serve job .now o).1 = w.clock := rfl
          rw [hread] at hnow
          exact le_trans (Int.add_le_of_le_sub_left hnow) hclock

theorem leaseSpec_keeps (config : LeaseConfig) (transitions : Int32) (acquired : Bool)
    (hi : w.WellFormed) :
    LeaseOp.Keeps job (leaseSpec config transitions acquired) (fun spec w' => w.Grows w' ∧
      ∃ t, spec = leaseSpecAt config transitions acquired t) w := by
  refine LeaseOp.Keeps.call hi trivial fun o w'' hgrows hi'' => ?_
  exact .pure hi'' ⟨hgrows, w.clock, rfl⟩

theorem conflictMeansNotAcquired_keeps (answer : Except KubeError Unit) (hi : w.WellFormed) :
    LeaseOp.Keeps job (conflictMeansNotAcquired answer) (fun _ _ => True) w := by
  unfold conflictMeansNotAcquired
  split
  · exact .pure hi trivial
  · exact .pure hi trivial
  · trivial

/-- What `get` answers is known from then on. -/
theorem LeaseWorld.get_known {name : String} {o : LeaseOutcome} {lease : Lease}
    (hi : w.WellFormed) (h : (w.serve job (.get name) o).1 = .ok lease) : w.Known name lease := by
  have hstored : w.leases name = some lease := by
    cases o <;> simp only [LeaseWorld.serve, LeaseWorld.respond, reduceCtorEq] at h
    split at h
    · rename_i hfound
      rw [hfound, Except.ok.inj h]
    · cases h
  obtain ⟨version, hversion, hlt⟩ := hi.versions name lease hstored
  exact ⟨version, hversion, hlt, fun stored h _ => by rw [hstored] at h; exact (Option.some.inj h).symm⟩

theorem tryAcquireLease_keeps (name : String) (owner : Option OwnerReference)
    (config : LeaseConfig) (hi : w.WellFormed) (hjob : job = .acquire name owner config) :
    LeaseOp.Keeps job (tryAcquireLease name owner config) (fun _ _ => True) w := by
  subst hjob
  refine LeaseOp.Keeps.call hi trivial fun o w₁ hgrows hi₁ => ?_
  have hget : (w.serve (.acquire name owner config) (.get name) o).2 = w := by cases o <;> rfl
  rw [hget] at hgrows
  cases hanswer : (w.serve (.acquire name owner config) (.get name) o).1 with
  | ok lease =>
    have hknown := hgrows.known name lease (LeaseWorld.get_known hi hanswer)
    refine (leaseCanBeAcquired_keeps config lease hi₁).bind fun free w₂ hi₂ hfree => ?_
    obtain ⟨hgrows₂, hfree⟩ := hfree
    cases free with
    | false => exact .pure hi₂ trivial
    | true =>
      refine (leaseSpec_keeps config _ true hi₂).bind fun spec w₃ hi₃ hspec => ?_
      obtain ⟨hgrows₃, t, rfl⟩ := hspec
      refine LeaseOp.Keeps.call hi₃ ⟨rfl, lease, ?_, rfl, w₂.clock, hgrows₃.clock, ?_⟩
        fun o w₄ _ hi₄ => conflictMeansNotAcquired_keeps _ hi₄
      · exact hgrows₃.known name lease (hgrows₂.known name lease hknown)
      · exact ⟨hfree rfl, t, rfl⟩
  | error e =>
    cases e with
    | notFound text =>
      refine (leaseSpec_keeps config 0 true hi₁).bind fun spec w₂ hi₂ hspec => ?_
      obtain ⟨-, t, rfl⟩ := hspec
      exact LeaseOp.Keeps.call hi₂ ⟨rfl, ⟨name, owner, config, rfl⟩, t, rfl⟩
        fun o w₃ _ hi₃ => conflictMeansNotAcquired_keeps _ hi₃
    | conflict text => trivial
    | other text => trivial

theorem renewLease_keeps (name : String) (config : LeaseConfig) (hi : w.WellFormed)
    (hjob : job = .renew name config) :
    LeaseOp.Keeps job (renewLease name config) (fun _ _ => True) w := by
  subst hjob
  refine LeaseOp.Keeps.call hi trivial fun o w₁ hgrows hi₁ => ?_
  have hget : (w.serve (.renew name config) (.get name) o).2 = w := by cases o <;> rfl
  rw [hget] at hgrows
  cases hanswer : (w.serve (.renew name config) (.get name) o).1 with
  | error e => trivial
  | ok lease =>
    have hknown := hgrows.known name lease (LeaseWorld.get_known hi hanswer)
    rw [Prog.pure_bind]
    dsimp only
    split
    · rename_i hholder
      refine (leaseSpec_keeps config _ false hi₁).bind fun spec w₂ hi₂ hspec => ?_
      obtain ⟨hgrows₂, t, rfl⟩ := hspec
      refine LeaseOp.Keeps.call hi₂ ⟨rfl, lease, hgrows₂.known name lease hknown, rfl, w₂.clock,
        le_refl _, hholder, t, rfl⟩ fun o w₃ _ hi₃ => ?_
      rw [Prog.pure_bind]
      split
      · exact .pure hi₃ trivial
      · trivial
    · trivial

theorem leaseJob_keeps (job : LeaseJob) (hi : w.WellFormed) :
    leaseOutside.Spec leaseDuty.contract (fun _ _ => True) (fun _ _ => True) job.thread.prog
      (w, job.thread.memory) := by
  cases job with
  | acquire name owner config =>
    exact Outside.Spec.bind (tryAcquireLease_keeps name owner config hi rfl) fun _ _ _ => trivial
  | renew name config =>
    exact (renewLease_keeps name config hi rfl).mono (fun _ _ _ => trivial) fun _ _ h => h

end Programs

/-! ## Exclusion -/

/-- The replicas and the server before anything has been written. -/
structure LeaseWorld.Initial (w : LeaseWorld) : Prop where
  versions : ∀ name lease, w.leases name = some lease →
    ∃ version, lease.resourceVersion = some version ∧ version < w.nextVersion
  unwritten : ∀ name, w.lastWrite name = none

theorem LeaseWorld.Initial.wellFormed {w : LeaseWorld} (h : w.Initial) : w.WellFormed :=
  ⟨h.versions, fun name last hlast => by rw [h.unwritten name] at hlast; cases hlast⟩

/-- The holder a Lease names. -/
def Lease.holder (lease : Lease) : Option String := lease.spec.bind (·.holderIdentity)

/-- What a write of a replica that changes its Lease has found and has made of it. -/
structure LeaseJob.Exclusive (job : LeaseJob) (w w' : LeaseWorld) : Prop where
  /-- Where another replica wrote last, the duration it wrote has passed since the time it wrote. -/
  expired : ∀ last, w.lastWrite job.name = some last →
    last.writer ≠ job.config.holderIdentity → ∃ t₀ seconds,
      last.spec.bind (·.renewTime) = some t₀ ∧
      last.spec.bind (·.leaseDurationSeconds) = some seconds ∧
      t₀ + seconds * 1000000000 ≤ w.clock
  /-- The replica is the holder, and the transitions count the changes of holder. -/
  written : ∃ lease, w'.leases job.name = some lease ∧
    lease.holder = some job.config.holderIdentity ∧
    ∀ before, w.leases job.name = some before →
      leaseTransitions lease =
        leaseTransitions before + if before.holder = lease.holder then 0 else 1
  /-- Whoever renews is the holder already. -/
  renewed : ∀ name config, job = .renew name config → ∃ before, w.leases job.name = some before ∧
    before.holder = some job.config.holderIdentity

section Exclusion

variable {w : LeaseWorld} {job : LeaseJob} {c : LeaseCall} {o : LeaseOutcome}

/-- A copy with the version that is stored is what is stored. -/
theorem LeaseWorld.Known.eq_stored {name : String} {copy stored lease : Lease}
    (hknown : w.Known name copy) (hlease : lease.resourceVersion = copy.resourceVersion)
    (hstored : w.leases name = some stored)
    (hversion : lease.resourceVersion = none ∨ lease.resourceVersion = stored.resourceVersion) :
    stored = copy := by
  obtain ⟨version, hcopy, -, heq⟩ := hknown
  rw [hlease, hcopy] at hversion
  rcases hversion with h | h
  · cases h
  · exact heq stored hstored h.symm

/-- Taking over from another replica waits for its Lease to run out. -/
theorem LeaseSpec.FreeFor.expired {config : LeaseConfig} {now : Timestamp} {spec : LeaseSpec}
    {t₀ : Timestamp} {seconds : Int} (h : spec.FreeFor config now)
    (hholder : spec.holderIdentity ≠ some config.holderIdentity) (ht : spec.renewTime = some t₀)
    (hseconds : spec.leaseDurationSeconds = some seconds) (hpos : 0 < seconds) :
    t₀ + seconds * 1000000000 ≤ now := by
  rcases h with h | h
  · exact absurd h hholder
  · have htime := h t₀ (by rw [ht]; rfl) (by rw [hseconds]; exact hpos)
    rwa [hseconds] at htime

/-- **A write of what a replica makes from what is stored is exclusive.** -/
theorem LeaseJob.Makes.exclusive {copy lease : Lease} {now : Timestamp} (hi : w.WellFormed)
    (hstored : w.leases job.name = some copy) (hnow : now ≤ w.clock)
    (hmakes : job.Makes now copy lease) :
    job.Exclusive w (w.write job.config.holderIdentity job.name lease) := by
  have hlast (last : LeaseWrite) (hlast : w.lastWrite job.name = some last) :
      ∃ spec t seconds, copy.spec = some spec ∧ last.spec = some spec ∧
        spec.holderIdentity = some last.writer ∧ spec.renewTime = some t ∧
        spec.leaseDurationSeconds = some seconds ∧ 0 < seconds := by
    obtain ⟨lease', spec, t, seconds, hlease', hspec, hrest⟩ := hi.written _ _ hlast
    rw [hstored] at hlease'
    cases hlease'
    exact ⟨spec, t, seconds, hspec, hrest⟩
  have hnew : (w.write job.config.holderIdentity job.name lease).leases job.name =
      some { lease with name := job.name, resourceVersion := some w.nextVersion } := by
    simp [LeaseWorld.write]
  cases job with
  | acquire name owner config =>
    obtain ⟨hfree, t, hspec⟩ := hmakes
    refine ⟨fun last h hne => ?_, ⟨_, hnew, ?_, fun before hbefore => ?_⟩, fun _ _ h => by cases h⟩
    · obtain ⟨spec, t₀, seconds, hcopy, hlastSpec, hwriter, ht, hseconds, hpos⟩ := hlast last h
      have hholder : spec.holderIdentity ≠ some config.holderIdentity := by
        rw [hwriter]
        exact fun h => hne (Option.some.inj h)
      refine ⟨t₀, seconds, by rw [hlastSpec]; exact ht, by rw [hlastSpec]; exact hseconds, ?_⟩
      exact le_trans ((hfree spec hcopy).expired hholder ht hseconds hpos) hnow
    · simp [Lease.holder, hspec, leaseSpecAt, LeaseJob.config]
    · rw [hstored] at hbefore
      cases hbefore
      simp [leaseTransitions, Lease.holder, hspec, leaseSpecAt, transitionIncrement]
  | renew name config =>
    obtain ⟨hholder, t, hspec⟩ := hmakes
    refine ⟨fun last h hne => ?_, ⟨_, hnew, ?_, fun before hbefore => ?_⟩,
      fun _ _ _ => ⟨copy, hstored, hholder⟩⟩
    · obtain ⟨spec, t₀, seconds, hcopy, hlastSpec, hwriter, -⟩ := hlast last h
      rw [hcopy] at hholder
      exact absurd (Option.some.inj (hwriter.symm.trans hholder)) hne
    · simp [Lease.holder, hspec, leaseSpecAt, LeaseJob.config]
    · rw [hstored] at hbefore
      cases hbefore
      simp [leaseTransitions, Lease.holder, hspec, leaseSpecAt, hholder]

/-- Creating a Lease takes it from nobody. -/
theorem LeaseJob.exclusive_create {lease : Lease} {t : Timestamp} (hi : w.WellFormed)
    (hnone : w.leases job.name = none) (hacquire : ∃ name owner config, job = .acquire name owner config)
    (hspec : lease.spec = some (leaseSpecAt job.config 0 true t)) :
    job.Exclusive w (w.write job.config.holderIdentity job.name lease) := by
  have hnew : (w.write job.config.holderIdentity job.name lease).leases job.name =
      some { lease with name := job.name, resourceVersion := some w.nextVersion } := by
    simp [LeaseWorld.write]
  refine ⟨fun last hlast => ?_, ⟨_, hnew, ?_, fun before h => ?_⟩, fun name config hjob => ?_⟩
  · obtain ⟨stored, _, _, _, hstored, -⟩ := hi.written _ _ hlast
    rw [hnone] at hstored
    cases hstored
  · simp [Lease.holder, hspec, leaseSpecAt]
  · rw [hnone] at h
    cases h
  · obtain ⟨_, _, _, hjob'⟩ := hacquire
    rw [hjob'] at hjob
    cases hjob

/-- A call that a replica may make changes no Lease but its own, and that one exclusively. -/
theorem LeaseJob.May.exclusive (hi : w.WellFormed) (hmay : job.May w c) {name : String}
    (hchanged : (w.serve job c o).2.leases name ≠ w.leases name) :
    job.name = name ∧ job.Exclusive w (w.serve job c o).2 := by
  rcases LeaseWorld.serve_cases w job c o with
    heq | ⟨name', lease, stored, rfl, hstored, hversion, heq⟩ | ⟨lease, rfl, hnone, heq⟩
  · exact absurd (by rw [heq]) hchanged
  · obtain ⟨hname, copy, hknown, hlease, now, hnow, hmakes⟩ := hmay
    subst hname
    cases hknown.eq_stored hlease hstored hversion
    rw [heq] at hchanged ⊢
    refine ⟨?_, hmakes.exclusive hi hstored hnow⟩
    by_contra hne
    exact hchanged (by simp [LeaseWorld.write, Function.update_of_ne (Ne.symm hne)])
  · obtain ⟨hname, hacquire, t, hspec⟩ := hmay
    rw [heq, hname] at hchanged
    rw [hname] at hnone
    refine ⟨?_, ?_⟩
    · by_contra hne
      exact hchanged (by simp [LeaseWorld.write, Function.update_of_ne (Ne.symm hne)])
    · rw [heq, hname]
      exact LeaseJob.exclusive_create hi hnone hacquire hspec

/-- A write under a new version is a change. -/
theorem LeaseWorld.WellFormed.write_ne {writer name : String} {lease : Lease} (hi : w.WellFormed) :
    (w.write writer name lease).leases name ≠ w.leases name := by
  simp only [LeaseWorld.write, Function.update_self]
  intro heq
  obtain ⟨version, hversion, hlt⟩ := hi.versions name _ heq.symm
  cases hversion
  exact absurd hlt (Nat.lt_irrefl _)

/-- A replacement that is answered with success has changed the Lease. -/
theorem LeaseWorld.WellFormed.replaced {name : String} {lease : Lease} (hi : w.WellFormed)
    (h : (w.serve job (.replace name lease) o).1 = .ok ()) :
    (w.serve job (.replace name lease) o).2.leases name ≠ w.leases name := by
  cases o <;> simp only [LeaseWorld.serve, LeaseWorld.respond, reduceCtorEq] at h ⊢
  unfold LeaseWorld.replace at h ⊢
  split at h
  · cases h
  · split at h
    · rename_i hversion
      rw [if_pos hversion]
      exact hi.write_ne
    · cases h

/-- A creation that is answered with success has made the Lease. -/
theorem LeaseWorld.WellFormed.created {lease : Lease} (hi : w.WellFormed)
    (h : (w.serve job (.create lease) o).1 = .ok ()) :
    (w.serve job (.create lease) o).2.leases lease.name ≠ w.leases lease.name := by
  cases o <;> simp only [LeaseWorld.serve, LeaseWorld.respond, reduceCtorEq] at h ⊢
  unfold LeaseWorld.create at h ⊢
  split at h
  · exact hi.write_ne
  · cases h

end Exclusion

/-- Replicas that race for Leases. -/
abbrev LeasePool := Pool LeaseCall LeaseAnswer ReconcileError LeaseJob LeaseWorld

/-- In every run each replica only makes calls it may make. -/
theorem leasePool_good {init s : LeasePool} (hidle : init.threads = [])
    (hinit : init.world.Initial)
    (r : Pool.Run leaseServer LeaseJob.thread Watch.top init s) :
    Pool.Good leaseServer Watch.top leaseDuty s := by
  obtain ⟨w, threads⟩ := init
  cases hidle
  refine Pool.Run.sound ?_ (fun job w hi => leaseJob_keeps job hi) (.of_idle hinit.wellFormed) r
  intro _ w nanos w' hi _ hmove
  cases hmove
  exact ⟨hi.versions, hi.written⟩

/-- A replica that takes the Lease of the sample for 30 seconds. -/
def Sample.acquires (holder : String) : LeaseJob :=
  .acquire "bgd-shop" none ⟨holder, 30⟩

/-- Nothing has been written. -/
def Sample.leaseStart : LeasePool := ⟨⟨fun _ => none, 0, 1, fun _ => none⟩, []⟩

/-- One replica takes the Lease, and half a minute later another one is about to. -/
def Sample.takeover : List (Pool.Event LeaseJob LeaseOutcome Nat) :=
  [.start (acquires "a"), .answer 0 .ok, .answer 0 .ok, .answer 0 .ok, .stop 0,
    .move 30000000000, .start (acquires "b"), .answer 0 .ok, .answer 0 .ok, .answer 0 .ok]

def leaseExclusiveTakeoverRun :
    PLift ((Pool.run Watch.top leaseServer LeaseJob.thread Sample.leaseStart
      Sample.takeover).map (fun s => ((s.world.lastWrite "bgd-shop").map (·.writer),
        (s.world.leases "bgd-shop").bind (·.holder),
        (s.step leaseServer LeaseJob.thread (.answer 0 .ok)).bind fun s' =>
          (s'.world.leases "bgd-shop").bind (·.holder))) =
      some (some "a", some "a", some "b")) :=
  ⟨by decide +kernel⟩

end FluidBG
