import FluidBG.Controller.Guarded
import FluidBG.Proof.LeaseExclusion
/-!
# The work under a Lease is exclusive in time

A replica finds out that its Lease is lost when a renewal fails. Nothing bounds how long a renewal
takes, so the Lease can run out, and be taken over, while the work is still going on. Where no Lease
runs out under the work, it stays with its replica: whoever takes it over waits for the date of the
last write, and the dates of a replica's writes only grow.
-/

set_option autoImplicit false

namespace FluidBG

open Lib

/-! ## The condition -/

/-- `lease_expired`, at a reading of the clock. -/
def LeaseSpec.Expired (spec : LeaseSpec) (now : Timestamp) : Prop :=
  ∀ renewTime, spec.renewTime.or spec.acquireTime = some renewTime →
    0 < spec.leaseDurationSeconds.getD 0 →
      renewTime + spec.leaseDurationSeconds.getD 0 * 1000000000 ≤ now

instance (spec : LeaseSpec) (now : Timestamp) : Decidable (spec.Expired now) :=
  match h : spec.renewTime.or spec.acquireTime with
  | none => .isTrue fun renewTime hrenew => by rw [h] at hrenew; cases hrenew
  | some renewTime => decidable_of_iff (0 < spec.leaseDurationSeconds.getD 0 →
      renewTime + spec.leaseDurationSeconds.getD 0 * 1000000000 ≤ now)
      ⟨fun hover renewTime' hrenew => by rw [h] at hrenew; cases hrenew; exact hover,
        fun hall => hall renewTime h⟩

/-- **What exclusion needs of the steps of a run.** Work begins before the Lease that was written
for it runs out, and no time passes in which a Lease runs out that work goes on under. -/
def inTime : Watch RunCall RunMemory RunWorld RunOutcome RunMove where
  call _ x w c _ := match c with
    | .begin => ∀ spec, x.written = some spec → ¬ spec.Expired w.server.clock
    | _ => True
  move _ w v := match v with
    | .tick nanos => ∀ work ∈ w.work, ∀ lease, w.server.leases work.leaseName = some lease →
        ∀ spec, lease.spec = some spec → ¬ spec.Expired (w.server.clock + nanos)
    | .finish _ => True

theorem envU64_pos (env : OperatorEnv) (name : String) {default : Nat} (h : 0 < default) :
    0 < envU64 env name default := by
  unfold envU64
  cases hvalue : ((env.var name).bind parseU64).filter fun value => decide (0 < value) with
  | none => exact h
  | some value => simpa using (Option.mem_filter_iff.mp hvalue).2

/-- Of the configurations that an operator can be started with, a Lease is renewed before it runs
out in all but those with a duration of one second, and with an interval beyond what a Lease can
say. -/
theorem renewInterval_lt_iff (env : OperatorEnv) :
    (leaseConfigFromEnv env).renewInterval <
        leaseDurationSeconds (leaseConfigFromEnv env).duration ↔
      (leaseConfigFromEnv env).duration ≠ 1 ∧
        (leaseConfigFromEnv env).renewInterval < 2147483647 := by
  have hpos := envU64_pos env "FLUIDBG_RECONCILE_LEASE_DURATION_SECONDS" (show 0 < 30 by omega)
  have hpos' := envU64_pos env "FLUIDBG_RECONCILE_LEASE_RENEW_INTERVAL_SECONDS"
    (show 0 < 10 by omega)
  unfold leaseConfigFromEnv leaseDurationSeconds
  dsimp only
  split <;> split <;> omega

/-! ## Dates -/

/-- The replica was the last one to write the Lease, at `t` or later. -/
def LeaseWorld.Held (w : LeaseWorld) (name holder : String) (t : Timestamp) : Prop :=
  ∃ last t', w.lastWrite name = some last ∧ last.writer = holder ∧
    last.spec.bind (·.renewTime) = some t' ∧ t ≤ t'

/-- As long as the stored Lease is the copy, it was last written at `t` or before. -/
def LeaseWorld.Read (w : LeaseWorld) (name : String) (copy : Lease) (t : Timestamp) : Prop :=
  w.Known name copy ∧ ∀ stored last t₀, w.leases name = some stored →
    stored.resourceVersion = copy.resourceVersion → w.lastWrite name = some last →
      last.spec.bind (·.renewTime) = some t₀ → t₀ ≤ t

/-- How long a Lease lasts that the replica has written, in nanoseconds. -/
def term (seconds : String → Nat) (holder : String) : Int :=
  leaseDurationSeconds (seconds holder) * 1000000000

/-- Unless what the replica wrote at `t` has run out, it was the last one to write the Lease. -/
def LeaseWorld.Mine (seconds : String → Nat) (w : LeaseWorld) (name holder : String)
    (t : Timestamp) : Prop :=
  w.clock < t + term seconds holder → w.Held name holder t

/-- The writes of replicas have dates that are over, and last as long as their replicas want. -/
structure LeaseWorld.Dated (seconds : String → Nat) (w : LeaseWorld) : Prop where
  wellFormed : w.WellFormed
  dates : ∀ name last, w.lastWrite name = some last → ∃ t,
    last.spec.bind (·.renewTime) = some t ∧ t ≤ w.clock ∧
      last.spec.bind (·.leaseDurationSeconds) = some (leaseDurationSeconds (seconds last.writer))

/-- What is written has the date of now, or of a time since the Lease was read. -/
def LeaseJob.Stamps (job : LeaseJob) (w : LeaseWorld) : LeaseCall → Prop
  | .replace name lease => ∃ copy transitions acquired t, w.Read name copy t ∧
      lease.resourceVersion = copy.resourceVersion ∧
      lease.spec = some (leaseSpecAt job.config transitions acquired t) ∧ t ≤ w.clock
  | .create lease => ∃ transitions acquired t,
      lease.spec = some (leaseSpecAt job.config transitions acquired t) ∧ t ≤ w.clock
  | _ => True

/-- What a replica may ask of the server. -/
structure LeaseJob.MayDated (seconds : String → Nat) (job : LeaseJob) (w : LeaseWorld)
    (c : LeaseCall) : Prop where
  may : job.May w c
  stamps : job.Stamps w c
  duration : job.config.duration = seconds job.config.holderIdentity

section Server

variable {seconds : String → Nat} {w w' : LeaseWorld} {job : LeaseJob} {c : LeaseCall}
  {o : LeaseOutcome} {name holder writer : String} {lease copy : Lease} {t t' : Timestamp}

theorem LeaseWorld.Read.mono (h : w.Read name copy t) (hle : t ≤ t') : w.Read name copy t' :=
  ⟨h.1, fun stored last t₀ hstored hversion hlast ht =>
    le_trans (h.2 stored last t₀ hstored hversion hlast ht) hle⟩

/-- A write leaves what was read, since its version is new. -/
theorem LeaseWorld.Read.write (h : w.Read name copy t) {name' : String} :
    (w.write writer name' lease).Read name copy t := by
  refine ⟨LeaseWorld.write_grows.known name copy h.1, ?_⟩
  intro stored last t₀ hstored hversion hlast ht
  by_cases hname : name = name'
  · subst hname
    obtain ⟨version, hcopy, hlt, -⟩ := h.1
    simp only [LeaseWorld.write, Function.update_self, Option.some.injEq] at hstored
    rw [← hstored, hcopy] at hversion
    simp only [Option.some.injEq] at hversion
    omega
  · simp only [LeaseWorld.write, Function.update_of_ne hname] at hstored hlast
    exact h.2 stored last t₀ hstored hversion hlast ht

theorem LeaseWorld.Read.serve (h : w.Read name copy t) : (w.serve job c o).2.Read name copy t := by
  rcases serve_cases w job c o with heq | ⟨_, _, _, -, -, -, heq⟩ | ⟨_, -, -, heq⟩
  · rw [heq]
    exact h
  · rw [heq]
    exact h.write
  · rw [heq]
    exact h.write

/-- The last write of a Lease that is stored under a version is what is stored. -/
theorem LeaseJob.Stamps.date {name : String} {lease stored : Lease} {last : LeaseWrite}
    {t₀ : Timestamp} (h : job.Stamps w (.replace name lease))
    (hstored : w.leases name = some stored)
    (hversion : lease.resourceVersion = none ∨ lease.resourceVersion = stored.resourceVersion)
    (hlast : w.lastWrite name = some last) (ht : last.spec.bind (·.renewTime) = some t₀) :
    ∃ t, lease.spec.bind (·.renewTime) = some t ∧ t₀ ≤ t := by
  obtain ⟨copy, transitions, acquired, t, hread, hcopy, hspec, -⟩ := h
  obtain ⟨version, hsome, -⟩ := hread.1
  refine ⟨t, by rw [hspec]; rfl, hread.2 stored last t₀ hstored ?_ hlast ht⟩
  rcases hversion with hnone | hsame
  · rw [hcopy, hsome] at hnone
    cases hnone
  · rw [← hsame, hcopy]

/-- **A Lease that has not run out stays with its replica**, whatever replicas ask of the server. -/
theorem LeaseWorld.Held.serve (h : w.Held name holder t) (hi : w.Dated seconds)
    (hmay : job.MayDated seconds w c) (htime : w.clock < t + term seconds holder) :
    (w.serve job c o).2.Held name holder t := by
  by_cases hsame : (w.serve job c o).2.lastWrite name = w.lastWrite name
  · unfold LeaseWorld.Held
    rw [hsame]
    exact h
  obtain ⟨last, t₀, hlast, hwriter, ht₀, hle⟩ := h
  rcases serve_cases w job c o with
    heq | ⟨name', lease, stored, rfl, hstored, hversion, heq⟩ | ⟨lease, rfl, hnone, heq⟩
  · exact absurd (by rw [heq]) hsame
  · have hname : name = name' := by
      by_contra hne
      exact hsame (by rw [heq]; simp [LeaseWorld.write, Function.update_of_ne hne])
    subst hname
    have hchanged : (w.serve job (.replace name lease) o).2.leases name ≠ w.leases name := by
      rw [heq]
      exact hi.wellFormed.write_ne
    obtain ⟨hjob, hexclusive⟩ := hmay.may.exclusive hi.wellFormed hchanged
    by_cases hmine : last.writer = job.config.holderIdentity
    · -- the replica writes again, and the new date is not before the old one
      obtain ⟨t', ht', hge⟩ := hmay.stamps.date hstored hversion hlast ht₀
      refine ⟨⟨job.config.holderIdentity, lease.spec⟩, t', ?_, hmine.symm.trans hwriter, ht',
        le_trans hle hge⟩
      rw [heq]
      simp [LeaseWorld.write]
    · -- another replica has waited for the old date
      obtain ⟨t', secs, ht', hsecs, hover⟩ :=
        hexclusive.expired last (by rw [hjob]; exact hlast) hmine
      obtain ⟨-, -, -, hterm⟩ := hi.dates name last hlast
      rw [ht₀] at ht'
      cases ht'
      rw [hterm, hwriter] at hsecs
      cases hsecs
      have hclock : t + term seconds holder ≤ w.clock :=
        le_trans (Int.add_le_add_right hle _) hover
      exact absurd (lt_of_lt_of_le htime hclock) (lt_irrefl _)
  · have hname : name = lease.name := by
      by_contra hne
      exact hsame (by rw [heq]; simp [LeaseWorld.write, Function.update_of_ne hne])
    subst hname
    obtain ⟨stored, -, -, -, hstored, -⟩ := hi.wellFormed.written _ _ hlast
    rw [hnone] at hstored
    cases hstored

/-- A write of what a replica writes keeps the dates. -/
theorem LeaseWorld.Dated.write (hi : w.Dated seconds) (hduration : job.config.duration =
    seconds job.config.holderIdentity) {transitions : Int32} {acquired : Bool}
    (hspec : lease.spec = some (leaseSpecAt job.config transitions acquired t)) (ht : t ≤ w.clock) :
    (w.write job.config.holderIdentity name lease).Dated seconds := by
  refine ⟨hi.wellFormed.write hspec, fun name' last hlast => ?_⟩
  by_cases hname : name' = name
  · subst hname
    simp only [LeaseWorld.write, Function.update_self, Option.some.injEq] at hlast
    subst hlast
    refine ⟨t, by rw [hspec]; rfl, ht, ?_⟩
    rw [hspec, ← hduration]
    rfl
  · simp only [LeaseWorld.write, Function.update_of_ne hname] at hlast
    exact hi.dates name' last hlast

theorem LeaseWorld.Dated.serve (hi : w.Dated seconds) (hmay : job.MayDated seconds w c) :
    (w.serve job c o).2.Dated seconds := by
  obtain ⟨-, hstamps, hduration⟩ := hmay
  rcases serve_cases w job c o with
    heq | ⟨name, lease, stored, rfl, -, -, heq⟩ | ⟨lease, rfl, -, heq⟩
  · rw [heq]
    exact hi
  · obtain ⟨copy, transitions, acquired, t, -, -, hspec, ht⟩ := hstamps
    rw [heq]
    exact hi.write hduration hspec ht
  · obtain ⟨transitions, acquired, t, hspec, ht⟩ := hstamps
    rw [heq]
    exact hi.write hduration hspec ht

/-- What `get` answers was written before now. -/
theorem LeaseWorld.get_read {name : String} (hi : w.Dated seconds)
    (h : (w.serve job (.get name) o).1 = .ok lease) : w.Read name lease w.clock := by
  refine ⟨LeaseWorld.get_known hi.wellFormed h, fun stored last t₀ _ _ hlast ht₀ => ?_⟩
  obtain ⟨t, ht, hle, -⟩ := hi.dates name last hlast
  rw [ht₀] at ht
  cases ht
  exact hle

end Server

/-! ## The duty -/

/-- **The invariant.** Nobody has taken over a Lease that work goes on under, and it has not run
out. -/
structure RunWorld.Sound (seconds : String → Nat) (w : RunWorld) : Prop where
  dated : w.server.Dated seconds
  held : ∀ work ∈ w.work, ∃ t, w.server.Held work.leaseName work.holder t ∧
    w.server.clock < t + term seconds work.holder

/-- The replica knows what it has written. -/
def RunMemory.Wrote (seconds : String → Nat) (x : RunMemory) (w : RunWorld) : Prop :=
  ∃ spec t, x.written = some spec ∧ spec.renewTime = some t ∧
    spec.leaseDurationSeconds =
      some (leaseDurationSeconds (seconds x.job.config.holderIdentity)) ∧
    w.server.Mine seconds x.job.name x.job.config.holderIdentity t

/-- Where a replica may make which call. -/
def RunMemory.May (seconds : String → Nat) (x : RunMemory) (w : RunWorld) : RunCall → Prop
  | .lease c => x.job.MayDated seconds w.server c
  | .begin => x.Wrote seconds w
  | _ => True

abbrev runDuty (seconds : String → Nat) : Duty RunCall RunMemory RunWorld :=
  ⟨RunWorld.Sound seconds, RunMemory.May seconds⟩

/-- What replicas know of the server stays true. -/
structure RunWorld.Onward (seconds : String → Nat) (w w' : RunWorld) : Prop where
  clock : w.server.clock ≤ w'.server.clock
  read : ∀ name copy t, w.server.Read name copy t → w'.server.Read name copy t
  mine : ∀ name holder t, w.server.Mine seconds name holder t → w'.server.Mine seconds name holder t

section Duty

variable {seconds : String → Nat} {w w' w'' : RunWorld} {x x' : RunMemory} {c : RunCall}
  {o : RunOutcome} {others : List RunMemory}

/-- What only concerns the work leaves what is known. -/
theorem RunWorld.Onward.of_server (h : w'.server = w.server) : w.Onward seconds w' := by
  constructor <;> rw [h]
  · exact fun _ _ _ h => h
  · exact fun _ _ _ h => h

theorem RunWorld.Onward.refl (w : RunWorld) : w.Onward seconds w := .of_server rfl

theorem RunWorld.Onward.trans (h : w.Onward seconds w') (h' : w'.Onward seconds w'') :
    w.Onward seconds w'' :=
  ⟨le_trans h.clock h'.clock, fun name copy t hr => h'.read name copy t (h.read name copy t hr),
    fun name holder t hm => h'.mine name holder t (h.mine name holder t hm)⟩

theorem LeaseWorld.serve_clock (w : LeaseWorld) (job : LeaseJob) (c : LeaseCall)
    (o : LeaseOutcome) : (w.serve job c o).2.clock = w.clock := by
  rcases serve_cases w job c o with h | ⟨_, _, _, _, _, _, h⟩ | ⟨_, _, _, h⟩
  · rw [h]
  · rw [h]
    rfl
  · rw [h]
    rfl

/-- A call to the server keeps the invariant, and what is known. -/
theorem RunWorld.Sound.lease (h : w.Sound seconds) {job : LeaseJob} {c : LeaseCall}
    {o : LeaseOutcome} (hmay : job.MayDated seconds w.server c) :
    ({ w with server := (w.server.serve job c o).2 } : RunWorld).Sound seconds ∧
      w.Onward seconds { w with server := (w.server.serve job c o).2 } := by
  have hclock := LeaseWorld.serve_clock w.server job c o
  refine ⟨⟨h.dated.serve hmay, fun work hwork => ?_⟩, le_of_eq hclock.symm,
    fun _ _ _ hread => hread.serve, fun name holder t hmine htime => ?_⟩
  · obtain ⟨t, hheld, htime⟩ := h.held work hwork
    refine ⟨t, hheld.serve h.dated hmay htime, ?_⟩
    show (w.server.serve job c o).2.clock < _
    rw [hclock]
    exact htime
  · have hbefore : w.server.clock < t + term seconds holder := hclock ▸ htime
    exact (hmine hbefore).serve h.dated hmay hbefore

/-- The end of some work is no harm. -/
theorem RunWorld.Sound.finish (h : w.Sound seconds) (token : Nat) :
    (w.finish token).Sound seconds :=
  ⟨h.dated, fun work hwork => h.held work (List.mem_of_mem_filter hwork)⟩

/-- **Work begins** in time. -/
theorem RunWorld.Sound.begin (h : w.Sound seconds) (hwrote : x.Wrote seconds w)
    (htime : ∀ spec, x.written = some spec → ¬ spec.Expired w.server.clock) {token : Nat} :
    ({ w with
        work := ⟨token, x.job.name, x.job.config.holderIdentity⟩ :: w.work
        nextToken := token + 1 } : RunWorld).Sound seconds := by
  refine ⟨h.dated, fun work hwork => ?_⟩
  rcases List.mem_cons.mp hwork with rfl | hwork
  · obtain ⟨spec, t, hwritten, hrenew, hseconds, hmine⟩ := hwrote
    have hlasts : w.server.clock < t + term seconds x.job.config.holderIdentity := by
      by_contra hover
      refine htime spec hwritten fun renewTime ht _ => ?_
      rw [hrenew] at ht
      cases ht
      rw [hseconds]
      exact not_lt.mp hover
    exact ⟨t, hmine hlasts, hlasts⟩
  · exact h.held work hwork

/-- **A served call** keeps the invariant, and what is known. -/
theorem RunWorld.Sound.serve {a : RunAnswer c} (h : w.Sound seconds) (hmay : x.May seconds w c)
    (hguard : inTime.call others x w c o) (hserve : w.serve x o c = some (a, w', x')) :
    w'.Sound seconds ∧ w.Onward seconds w' := by
  cases c with
  | lease c =>
    cases hserve
    exact h.lease hmay
  | begin =>
    cases hserve
    exact ⟨h.begin hmay hguard, .of_server rfl⟩
  | sleep duration =>
    cases hserve
    exact ⟨h, .refl w⟩
  | wake =>
    have hw : w' = w := by
      simp only [RunWorld.serve] at hserve
      split at hserve
      · split at hserve
        · cases hserve
        · cases hserve
          rfl
      · split at hserve
        · cases hserve
          rfl
        · cases hserve
    rw [hw]
    exact ⟨h, .refl w⟩
  | abort =>
    simp only [RunWorld.serve] at hserve
    split at hserve
    · cases hserve
      exact ⟨h.finish _, .of_server rfl⟩
    · cases hserve
      exact ⟨h, .refl w⟩

/-- **Time passes**, and no Lease runs out under the work. -/
theorem RunWorld.Sound.tick (h : w.Sound seconds) {nanos : Nat} {all : List RunMemory}
    (hguard : inTime.move all w (.tick nanos)) :
    ({ w with server := { w.server with clock := w.server.clock + nanos } } : RunWorld).Sound
      seconds := by
  refine ⟨⟨⟨h.dated.wellFormed.versions, h.dated.wellFormed.written⟩, fun name last hlast => ?_⟩,
    fun work hwork => ?_⟩
  · obtain ⟨t, ht, hle, hterm⟩ := h.dated.dates name last hlast
    exact ⟨t, ht, le_trans hle (Int.le_add_of_nonneg_right (Int.natCast_nonneg nanos)), hterm⟩
  · obtain ⟨-, ⟨last, t, hlast, hwriter, ht, -⟩, -⟩ := h.held work hwork
    obtain ⟨lease, spec, t', secs, hstored, hspec, hlastSpec, -, hrenew, hsecs, hpos⟩ :=
      h.dated.wellFormed.written _ _ hlast
    obtain ⟨-, -, -, hterm⟩ := h.dated.dates _ _ hlast
    rw [hlastSpec] at ht hterm
    have hdate : spec.renewTime = some t := ht
    have hduration : spec.leaseDurationSeconds = some (leaseDurationSeconds (seconds work.holder)) :=
      hwriter ▸ hterm
    refine ⟨t, ⟨last, t, hlast, hwriter, by rw [hlastSpec]; exact hdate, le_refl t⟩, ?_⟩
    by_contra hover
    refine hguard work hwork lease hstored spec hspec fun renewTime hr _ => ?_
    rw [hdate] at hr
    cases hr
    rw [hduration]
    exact not_lt.mp hover

theorem RunWorld.tick_onward (w : RunWorld) (nanos : Nat) : w.Onward seconds
    { w with server := { w.server with clock := w.server.clock + nanos } } := by
  have hle : w.server.clock ≤ w.server.clock + nanos :=
    Int.le_add_of_nonneg_right (Int.natCast_nonneg nanos)
  exact ⟨hle, fun _ _ _ h => h, fun name holder t hmine htime => hmine (lt_of_le_of_lt hle htime)⟩

end Duty

/-! ## The programs -/

/-- The replicas that work beside the one at hand. -/
abbrev runOutside (seconds : String → Nat) : Outside RunCall RunAnswer (RunWorld × RunMemory) :=
  Pool.outside runServer inTime (runDuty seconds)

/-- The program of this replica keeps the duty, and ends in `Q` unless it fails. -/
abbrev RunOp.Keeps {α : Type} (seconds : String → Nat) (p : RunOp α)
    (Q : α → RunWorld × RunMemory → Prop) (s : RunWorld × RunMemory) : Prop :=
  (runOutside seconds).Spec (runDuty seconds).contract (fun a s' => s'.1.Sound seconds ∧ Q a s')
    (fun _ s' => s'.1.Sound seconds) p s

section Programs

variable {seconds : String → Nat} {w : RunWorld} {x : RunMemory} {α β : Type}

theorem RunOp.later {s s' : RunWorld × RunMemory} (h : (runOutside seconds).Later s s') :
    s.1.Onward seconds s'.1 ∧ s'.2 = s.2 := by
  refine ⟨?_, Pool.later_memory h⟩
  induction h with
  | refl => exact .refl _
  | @tail t u _ hmoves ih =>
    refine ih.trans ?_
    rcases hmoves.2 with
      ⟨all, v, -, -, hm⟩ | ⟨others, y, c, o, a, y', -, hi, hmay, hguard, hserve⟩
    · cases v with
      | tick nanos =>
        have hu := (Option.some.inj hm).symm
        rw [hu]
        exact RunWorld.tick_onward t.1 nanos
      | finish token =>
        have hu := (Option.some.inj hm).symm
        rw [hu]
        exact .of_server rfl
    · exact (RunWorld.Sound.serve hi hmay hguard hserve).2

/-- The rule for a call to the server. -/
theorem RunOp.Keeps.lease {c : LeaseCall} {k : LeaseAnswer c → RunOp α}
    {Q : α → RunWorld × RunMemory → Prop} (hi : w.Sound seconds)
    (hmay : x.job.MayDated seconds w.server c)
    (hk : ∀ o w'', ({ w with server := (w.server.serve x.job c o).2 } : RunWorld).Onward seconds
      w'' → w''.Sound seconds → RunOp.Keeps seconds (k (w.server.serve x.job c o).1) Q
        (w'', x.wrote c (w.server.serve x.job c o).1)) :
    RunOp.Keeps seconds (.call (.lease c) k) Q (w, x) := by
  refine ⟨hmay, fun a s' hanswer => ?_⟩
  obtain ⟨others, o, -, hserve⟩ := hanswer
  have hpair := Option.some.inj hserve
  obtain ⟨w', x'⟩ := s'
  cases hpair
  refine ⟨(hi.lease hmay).1, fun s'' hlater hi'' => ?_⟩
  obtain ⟨honward, hx⟩ := RunOp.later hlater
  obtain ⟨w'', x''⟩ := s''
  cases hx
  exact hk o.lease w'' honward hi''

/-- The rule for a call that has nothing to do with the server. -/
theorem RunOp.Keeps.local {c : RunCall} {k : RunAnswer c → RunOp α}
    {Q : α → RunWorld × RunMemory → Prop} (hi : w.Sound seconds) (hmay : x.May seconds w c)
    (hk : ∀ o a w' x' w'', w.serve x o c = some (a, w', x') → w'.Onward seconds w'' →
      w''.Sound seconds → RunOp.Keeps seconds (k a) Q (w'', x')) :
    RunOp.Keeps seconds (.call c k) Q (w, x) := by
  refine ⟨hmay, fun a s' hanswer => ?_⟩
  obtain ⟨others, o, hguard, hserve⟩ := hanswer
  obtain ⟨w', x'⟩ := s'
  refine ⟨(hi.serve hmay hguard hserve).1, fun s'' hlater hi'' => ?_⟩
  obtain ⟨honward, hx⟩ := RunOp.later hlater
  obtain ⟨w'', x''⟩ := s''
  cases hx
  exact hk o a w' x' w'' hserve honward hi''

theorem RunOp.Keeps.bind {p : RunOp α} {f : α → RunOp β} {R : α → RunWorld × RunMemory → Prop}
    {Q : β → RunWorld × RunMemory → Prop} {s : RunWorld × RunMemory}
    (hp : RunOp.Keeps seconds p R s)
    (hf : ∀ a w' x', w'.Sound seconds → R a (w', x') → RunOp.Keeps seconds (f a) Q (w', x')) :
    RunOp.Keeps seconds (p.bind f) Q s :=
  Outside.Spec.bind hp fun a s' h => hf a s'.1 s'.2 h.1 h.2

theorem RunOp.Keeps.pure {Q : α → RunWorld × RunMemory → Prop} {a : α} (hi : w.Sound seconds)
    (h : Q a (w, x)) : RunOp.Keeps seconds (.pure a) Q (w, x) := ⟨hi, h⟩

/-- **Whether a Lease is free**: where the answer is yes, it is free at the time it was looked at. -/
theorem leaseCanBeAcquired_dated (config : LeaseConfig) (lease : Lease) (hi : w.Sound seconds)
    (hduration : x.job.config.duration = seconds x.job.config.holderIdentity) :
    RunOp.Keeps seconds (leaseCanBeAcquired lease config).run (fun free s' => s'.2 = x ∧
      w.Onward seconds s'.1 ∧ (free = true → ∀ spec, lease.spec = some spec →
        spec.FreeFor config s'.1.server.clock)) (w, x) := by
  unfold leaseCanBeAcquired
  cases hspec : lease.spec with
  | none => exact .pure hi ⟨rfl, .refl w, fun _ spec h => by cases h⟩
  | some spec =>
    dsimp only
    split
    · rename_i hholder
      exact .pure hi ⟨rfl, .refl w, fun _ spec' h => by cases h; exact .inl hholder⟩
    · unfold leaseExpired
      split
      · rename_i hnone
        refine .pure hi ⟨rfl, .refl w, fun _ spec' h => ?_⟩
        cases h
        exact .inr fun renewTime h => by rw [hnone] at h; cases h
      · rename_i renewTime hrenew
        dsimp only
        split
        · rename_i hseconds
          refine .pure hi ⟨rfl, .refl w, fun _ spec' h => ?_⟩
          cases h
          exact .inr fun _ _ hpos => by omega
        · refine RunOp.Keeps.lease hi ⟨trivial, trivial, hduration⟩ fun o w'' honward hi'' => ?_
          refine .pure hi'' ⟨rfl, honward, fun hfree spec' h => ?_⟩
          cases h
          refine .inr fun renewTime' h' _ => ?_
          rw [hrenew] at h'
          cases h'
          -- the clock shows at least what it showed when it was looked at
          have hnow := of_decide_eq_true hfree
          exact le_trans (Int.add_le_of_le_sub_left hnow) honward.clock

theorem leaseSpec_dated (config : LeaseConfig) (transitions : Int32) (acquired : Bool)
    (hi : w.Sound seconds)
    (hduration : x.job.config.duration = seconds x.job.config.holderIdentity) :
    RunOp.Keeps seconds (leaseSpec config transitions acquired).run (fun spec s' => s'.2 = x ∧
      w.Onward seconds s'.1 ∧ ∃ t, spec = leaseSpecAt config transitions acquired t ∧
        w.server.clock ≤ t ∧ t ≤ s'.1.server.clock) (w, x) := by
  refine RunOp.Keeps.lease hi ⟨trivial, trivial, hduration⟩ fun o w'' honward hi'' => ?_
  exact .pure hi'' ⟨rfl, honward, w.server.clock, rfl, le_refl _, honward.clock⟩

theorem conflictMeansNotAcquired_dated (answer : Except KubeError Unit) (hi : w.Sound seconds) :
    RunOp.Keeps seconds (conflictMeansNotAcquired answer).run
      (fun acquired s' => s'.2 = x ∧ w.Onward seconds s'.1 ∧ (acquired = true → answer = .ok ()))
      (w, x) := by
  unfold conflictMeansNotAcquired
  split
  · exact .pure hi ⟨rfl, .refl w, fun _ => rfl⟩
  · exact .pure hi ⟨rfl, .refl w, fun h => by cases h⟩
  · exact hi

theorem LeaseWorld.replaced_lastWrite {w : LeaseWorld} {job : LeaseJob} {o : LeaseOutcome}
    {name : String} {lease : Lease} (h : (w.serve job (.replace name lease) o).1 = .ok ()) :
    (w.serve job (.replace name lease) o).2.lastWrite name =
      some ⟨job.config.holderIdentity, lease.spec⟩ := by
  cases o <;> simp only [LeaseWorld.serve, LeaseWorld.respond, reduceCtorEq] at h ⊢
  unfold LeaseWorld.replace at h ⊢
  split at h
  · cases h
  · split at h
    · rename_i hversion
      rw [if_pos hversion]
      simp [LeaseWorld.write]
    · cases h

theorem LeaseWorld.created_lastWrite {w : LeaseWorld} {job : LeaseJob} {o : LeaseOutcome}
    {lease : Lease} (h : (w.serve job (.create lease) o).1 = .ok ()) :
    (w.serve job (.create lease) o).2.lastWrite lease.name =
      some ⟨job.config.holderIdentity, lease.spec⟩ := by
  cases o <;> simp only [LeaseWorld.serve, LeaseWorld.respond, reduceCtorEq] at h ⊢
  unfold LeaseWorld.create at h ⊢
  split at h
  · simp [LeaseWorld.write]
  · cases h

/-- A replica that has just written a Lease knows what it has written. -/
theorem RunMemory.wrote_of_lastWrite {w' : RunWorld} {spec : LeaseSpec} {transitions : Int32}
    {acquired : Bool} {t : Timestamp}
    (hduration : x.job.config.duration = seconds x.job.config.holderIdentity)
    (hspec : spec = leaseSpecAt x.job.config transitions acquired t)
    (hlast : w.server.lastWrite x.job.name = some ⟨x.job.config.holderIdentity, some spec⟩)
    (honward : w.Onward seconds w') :
    ({ x with written := some spec } : RunMemory).Wrote seconds w' := by
  refine ⟨spec, t, rfl, by rw [hspec]; rfl, by rw [hspec, ← hduration]; rfl, ?_⟩
  refine honward.mine _ _ _ fun _ => ⟨_, t, hlast, rfl, ?_, le_refl t⟩
  rw [hspec]
  rfl

theorem RunMemory.wrote_job (x : RunMemory) (c : LeaseCall) (a : LeaseAnswer c) :
    (x.wrote c a).job = x.job := by
  unfold RunMemory.wrote
  split <;> rfl

theorem tryAcquireLease_dated (name : String) (owner : Option OwnerReference)
    (config : LeaseConfig) (hi : w.Sound seconds) (hjob : x.job = .acquire name owner config)
    (hduration : x.job.config.duration = seconds x.job.config.holderIdentity) :
    RunOp.Keeps seconds (tryAcquireLease name owner config).run (fun acquired s' =>
      s'.2.job = x.job ∧ (acquired = true → s'.2.Wrote seconds s'.1)) (w, x) := by
  have hconfig : x.job.config = config := by rw [hjob]; rfl
  have hname : x.job.name = name := by rw [hjob]; rfl
  refine RunOp.Keeps.lease hi ⟨trivial, trivial, hduration⟩ fun o w₁ honward₁ hi₁ => ?_
  have hget : (w.server.serve x.job (.get name) o).2 = w.server := by cases o <;> rfl
  have hread : ∀ lease, (w.server.serve x.job (.get name) o).1 = .ok lease →
      w₁.server.Read name lease w.server.clock := by
    intro lease hanswer
    refine honward₁.read name lease _ ?_
    show (w.server.serve x.job (.get name) o).2.Read name lease w.server.clock
    rw [hget]
    exact LeaseWorld.get_read hi.dated hanswer
  have hclock₁ : w.server.clock ≤ w₁.server.clock := by
    have hle := honward₁.clock
    rw [hget] at hle
    exact hle
  cases hanswer : (w.server.serve x.job (.get name) o).1 with
  | ok lease =>
    simp only [Prog.bind_def, Prog.pure_bind, takeOver, Prog.lift_bind]
    refine (leaseCanBeAcquired_dated config lease hi₁ hduration).bind fun free w₂ x₂ hi₂ h₂ => ?_
    obtain ⟨hx₂, honward₂, hfree⟩ := h₂
    cases hx₂
    cases free with
    | false => exact .pure hi₂ ⟨rfl, fun h => by cases h⟩
    | true =>
      rw [if_pos rfl, Prog.lift_bind]
      refine (leaseSpec_dated config _ true hi₂ hduration).bind fun spec w₃ x₃ hi₃ h₃ => ?_
      obtain ⟨hx₃, honward₃, t, hspec, hle, hge⟩ := h₃
      cases hx₃
      have hread₃ := (honward₂.trans honward₃).read _ _ _ (hread lease hanswer)
      have hdate : w.server.clock ≤ t := le_trans hclock₁ (le_trans honward₂.clock hle)
      have hmay : x₂.job.MayDated seconds w₃.server
          (.replace name { lease with spec := some spec }) := by
        refine ⟨⟨hname.symm, lease, hread₃.1, rfl, w₂.server.clock, honward₃.clock, ?_⟩,
          ⟨lease, leaseTransitions lease + transitionIncrement lease config, true, t,
            hread₃.mono hdate, rfl, ?_, hge⟩, hduration⟩
        · rw [hjob]
          exact ⟨hfree rfl, t, by rw [hspec]⟩
        · rw [hspec, hconfig]
      refine RunOp.Keeps.lease hi₃ hmay fun o w₄ honward₄ hi₄ => ?_
      refine (conflictMeansNotAcquired_dated _ hi₄).mono (fun acquired s' h => ?_) fun _ _ h => h
      obtain ⟨hi', hx', honward', hok⟩ := h
      refine ⟨hi', by rw [hx']; exact RunMemory.wrote_job _ _ _, fun hacquired => ?_⟩
      have hanswer₃ : (w₃.server.serve x₂.job
          (.replace name { lease with spec := some spec }) o).1 = .ok () := hok hacquired
      rw [hx', hanswer₃]
      refine RunMemory.wrote_of_lastWrite hduration (by rw [hspec, hconfig]) ?_
        (honward₄.trans honward')
      rw [hname]
      exact LeaseWorld.replaced_lastWrite hanswer₃
  | error e =>
    cases e with
    | notFound text =>
      simp only [Prog.bind_def, Prog.pure_bind, Prog.lift_bind]
      refine (leaseSpec_dated config 0 true hi₁ hduration).bind fun spec w₂ x₂ hi₂ h₂ => ?_
      obtain ⟨hx₂, honward₂, t, hspec, hle, hge⟩ := h₂
      cases hx₂
      have hmay : x₂.job.MayDated seconds w₂.server (.create (newLease name owner spec)) := by
        refine ⟨⟨hname.symm, ⟨name, owner, config, hjob⟩, t, ?_⟩, ⟨0, true, t, ?_, hge⟩, hduration⟩
        · rw [hconfig, ← hspec]
          rfl
        · rw [hconfig, ← hspec]
          rfl
      refine RunOp.Keeps.lease hi₂ hmay fun o w₃ honward₃ hi₃ => ?_
      refine (conflictMeansNotAcquired_dated _ hi₃).mono (fun acquired s' h => ?_) fun _ _ h => h
      obtain ⟨hi', hx', honward', hok⟩ := h
      refine ⟨hi', by rw [hx']; exact RunMemory.wrote_job _ _ _, fun hacquired => ?_⟩
      have hanswer₂ : (w₂.server.serve x₂.job (.create (newLease name owner spec)) o).1 = .ok () :=
        hok hacquired
      rw [hx', hanswer₂]
      refine RunMemory.wrote_of_lastWrite hduration (by rw [hspec, hconfig]) ?_
        (honward₃.trans honward')
      rw [hname]
      exact LeaseWorld.created_lastWrite hanswer₂
    | conflict text => exact hi₁
    | other text => exact hi₁

theorem renewLease_dated (name : String) (config : LeaseConfig) (hi : w.Sound seconds)
    (hjob : x.job = .renew name config)
    (hduration : x.job.config.duration = seconds x.job.config.holderIdentity) :
    RunOp.Keeps seconds (renewLease name config).run (fun _ s' => s'.2.job = x.job) (w, x) := by
  have hconfig : x.job.config = config := by rw [hjob]; rfl
  have hname : x.job.name = name := by rw [hjob]; rfl
  refine RunOp.Keeps.lease hi ⟨trivial, trivial, hduration⟩ fun o w₁ honward₁ hi₁ => ?_
  have hget : (w.server.serve x.job (.get name) o).2 = w.server := by cases o <;> rfl
  cases hanswer : (w.server.serve x.job (.get name) o).1 with
  | error e => exact hi₁
  | ok lease =>
    have hread : w₁.server.Read name lease w.server.clock := by
      refine honward₁.read name lease _ ?_
      show (w.server.serve x.job (.get name) o).2.Read name lease w.server.clock
      rw [hget]
      exact LeaseWorld.get_read hi.dated hanswer
    have hclock₁ : w.server.clock ≤ w₁.server.clock := by
      have hle := honward₁.clock
      rw [hget] at hle
      exact hle
    simp only [Prog.bind_def, Prog.pure_bind]
    split
    · rename_i hholder
      rw [Prog.lift_bind]
      refine (leaseSpec_dated config _ false hi₁ hduration).bind fun spec w₂ x₂ hi₂ h₂ => ?_
      obtain ⟨hx₂, honward₂, t, hspec, hle, hge⟩ := h₂
      cases hx₂
      have hmay : x₂.job.MayDated seconds w₂.server
          (.replace name { lease with spec := some spec }) := by
        have hread₂ := (honward₂.read _ _ _ hread).mono (le_trans hclock₁ hle)
        refine ⟨⟨hname.symm, lease, hread₂.1, rfl, w₂.server.clock, le_refl _, ?_⟩,
          ⟨lease, leaseTransitions lease, false, t, hread₂, rfl, ?_, hge⟩, hduration⟩
        · rw [hjob]
          exact ⟨hholder, t, by rw [hspec]⟩
        · rw [hspec, hconfig]
      refine RunOp.Keeps.lease hi₂ hmay fun o w₃ honward₃ hi₃ => ?_
      simp only [Prog.pure_bind]
      split
      · exact .pure hi₃ (RunMemory.wrote_job _ _ _)
      · exact hi₃
    · exact hi₁

/-- **The renewal** keeps the duty, however long it goes on. -/
theorem renewUntilStopped_dated (name : String) (config : RenewedLeaseConfig) (rounds : Nat)
    (hi : w.Sound seconds) (hjob : x.job = .renew name config.toLeaseConfig)
    (hduration : config.duration = seconds config.holderIdentity) :
    RunOp.Keeps seconds (renewUntilStopped name config rounds) (fun _ _ => True) (w, x) := by
  induction rounds generalizing w x with
  | zero => exact .pure hi trivial
  | succ rounds ih =>
    refine RunOp.Keeps.local hi trivial fun o a w₁ x₁ w₁' hserve₁ honward₁ hi₁ => ?_
    have hx₁ : x₁.job = x.job := by
      cases hserve₁
      rfl
    refine RunOp.Keeps.local hi₁ trivial fun o stopped w₂ x₂ w₂' hserve₂ honward₂ hi₂ => ?_
    have hx₂ : x₂.job = x₁.job := by
      simp only [RunWorld.serve] at hserve₂
      split at hserve₂
      · split at hserve₂
        · cases hserve₂
        · cases hserve₂
          rfl
      · split at hserve₂
        · cases hserve₂
          rfl
        · cases hserve₂
    have hjob₂ : x₂.job = .renew name config.toLeaseConfig := by rw [hx₂, hx₁, hjob]
    cases stopped with
    | true => exact .pure hi₂ trivial
    | false =>
      rw [Prog.pure_bind, if_neg (by simp)]
      refine RunOp.Keeps.bind (R := fun (r : Except ReconcileError Unit) s' =>
        ∀ u, r = .ok u → s'.2.job = x₂.job) ?_ fun r w₃ x₃ hi₃ h₃ => ?_
      · refine Outside.Spec.result ((renewLease_dated name config.toLeaseConfig hi₂ hjob₂ ?_).mono
          (fun _ s' h => ⟨h.1, fun _ _ => h.2⟩) fun _ s' h => ⟨h, fun u hu => by cases hu⟩)
        rw [hjob₂]
        exact hduration
      · cases r with
        | ok u => exact ih hi₃ (by rw [h₃ u rfl, hjob₂])
        | error e =>
          refine RunOp.Keeps.local hi₃ trivial fun o a w₄ x₄ w₄' _ _ hi₄ => ?_
          exact .pure hi₄ trivial

theorem runWithLease_dated (name : String) (owner : Option OwnerReference)
    (config : RenewedLeaseConfig) (rounds : Nat) (hi : w.Sound seconds)
    (hjob : x.job = .acquire name owner config.toLeaseConfig)
    (hduration : config.duration = seconds config.holderIdentity) :
    RunOp.Keeps seconds (runWithLease name owner config rounds) (fun _ _ => True) (w, x) := by
  have hduration' : x.job.config.duration = seconds x.job.config.holderIdentity := by
    rw [hjob]
    exact hduration
  refine (tryAcquireLease_dated name owner config.toLeaseConfig hi hjob hduration').bind
    fun acquired w₁ x₁ hi₁ h₁ => ?_
  obtain ⟨hx₁, hwrote⟩ := h₁
  cases acquired with
  | false => exact .pure hi₁ trivial
  | true =>
    refine RunOp.Keeps.local hi₁ (hwrote rfl) fun o a w₂ x₂ w₂' hserve _ hi₂ => ?_
    refine renewUntilStopped_dated name config rounds hi₂ ?_ hduration
    cases hserve
    show LeaseJob.renew x₁.job.name x₁.job.config = _
    rw [hx₁, hjob]
    rfl

end Programs

/-! ## Exclusion -/

/-- Replicas at work on one server. -/
abbrev RunPool := Pool RunCall RunAnswer ReconcileError RunMemory RunWorld

/-- **The work under a Lease is exclusive** in every run in which no Lease runs out under the work.
Replicas with identities of their own never work under one Lease at the same time, and whoever
works under a Lease is still named by it. -/
theorem work_exclusive {R : Type} (env : R → OperatorEnv)
    (hidentity : Function.Injective fun r => operatorIdentity (env r)) {init s : RunPool}
    (hidle : init.threads = []) (hwork : init.world.work = []) (hinit : init.world.server.Initial)
    (r : Pool.Run runServer (RunJob.thread env) inTime init s) :
    (∀ work ∈ s.world.work, ∀ work' ∈ s.world.work, work.leaseName = work'.leaseName →
      work.holder = work'.holder) ∧
    ∀ work ∈ s.world.work, ∃ lease, s.world.server.leases work.leaseName = some lease ∧
      lease.holder = some work.holder := by
  -- a replica is known by its identity, and so is the duration it asks for
  let seconds : String → Nat := Function.extend (fun r => operatorIdentity (env r))
    (fun r => (leaseConfigFromEnv (env r)).duration) fun _ => 0
  have hseconds : ∀ r, (leaseConfigFromEnv (env r)).duration =
      seconds (leaseConfigFromEnv (env r)).holderIdentity := fun r =>
    (hidentity.extend_apply (fun r => (leaseConfigFromEnv (env r)).duration) (fun _ => 0) r).symm
  have hgood : Pool.Good runServer inTime (runDuty seconds) s := by
    obtain ⟨w, threads⟩ := init
    cases hidle
    refine Pool.Run.sound ?_ (fun job w hi => ?_) (.of_idle ⟨⟨hinit.wellFormed, ?_⟩, ?_⟩) r
    · intro all w v w' hi hguard hmove
      cases v with
      | tick nanos =>
        cases hmove
        exact hi.tick hguard
      | finish token =>
        cases hmove
        exact hi.finish token
    · exact (runWithLease_dated job.leaseName job.owner _ job.rounds hi rfl
        (hseconds job.replica)).mono (fun _ _ _ => trivial) fun _ _ _ => trivial
    · intro name last hlast
      rw [hinit.unwritten name] at hlast
      cases hlast
    · intro work hmem
      rw [hwork] at hmem
      cases hmem
  obtain ⟨⟨hdated, hheld⟩, -⟩ := hgood
  refine ⟨fun work hmem work' hmem' hname => ?_, fun work hmem => ?_⟩
  · obtain ⟨-, ⟨last, -, hlast, hwriter, -⟩, -⟩ := hheld work hmem
    obtain ⟨-, ⟨last', -, hlast', hwriter', -⟩, -⟩ := hheld work' hmem'
    rw [← hname, hlast] at hlast'
    cases hlast'
    exact hwriter.symm.trans hwriter'
  · obtain ⟨-, ⟨last, -, hlast, hwriter, -⟩, -⟩ := hheld work hmem
    obtain ⟨lease, spec, -, -, hstored, hspec, -, hholder, -⟩ :=
      hdated.wellFormed.written _ _ hlast
    exact ⟨lease, hstored, by rw [Lease.holder, hspec, ← hwriter]; exact hholder⟩

/-! ## Two replicas at work -/

section Runs

instance (others : List RunMemory) (x : RunMemory) (w : RunWorld) :
    (c : RunCall) → (o : RunOutcome) → Decidable (inTime.call others x w c o)
  | .begin, _ =>
    inferInstanceAs (Decidable (∀ spec ∈ x.written, ¬ spec.Expired w.server.clock))
  | .lease _, _ => .isTrue trivial
  | .sleep _, _ => .isTrue trivial
  | .wake, _ => .isTrue trivial
  | .abort, _ => .isTrue trivial

instance (all : List RunMemory) (w : RunWorld) : (v : RunMove) → Decidable (inTime.move all w v)
  | .tick nanos => decidable_of_iff (∀ work ∈ w.work,
      ∀ lease ∈ w.server.leases work.leaseName, ∀ spec ∈ lease.spec,
        ¬ spec.Expired (w.server.clock + nanos)) Iff.rfl
  | .finish _ => .isTrue trivial

end Runs

namespace Sample

/-- An operator that goes by its host name, with the Lease timing that is the default. -/
def operatorEnv (hostname : String) : OperatorEnv :=
  ⟨fun name => if name = "HOSTNAME" then some hostname else none, 1⟩

def runStart : RunPool := ⟨⟨⟨fun _ => none, 0, 1, fun _ => none⟩, [], 0⟩, []⟩

/-- A replica reconciles the sample. -/
def reconciles (replica : String) : RunJob String := ⟨replica, "bgd-shop", none, 2⟩

/-- The calls of a replica succeed. -/
def succeeds (i n : Nat) : List (Pool.Event (RunJob String) RunOutcome RunMove) :=
  List.replicate n (.answer i ⟨.ok, false⟩)

/-- Time passes, in seconds. -/
def elapses (seconds : Nat) : List (Pool.Event (RunJob String) RunOutcome RunMove) :=
  [.move (.tick (seconds * 1000000000))]

/-- The first renewal of a replica is not answered, and another replica comes after half a
minute. -/
def hangs : List (Pool.Event (RunJob String) RunOutcome RunMove) :=
  [.start (reconciles "a")] ++ succeeds 0 5 ++ elapses 10 ++ succeeds 0 1 ++ elapses 20 ++
    [.start (reconciles "b")] ++ succeeds 1 5

/-- A replica renews its Lease and ends its work, and later another one comes. -/
def takesTurns : List (Pool.Event (RunJob String) RunOutcome RunMove) :=
  [.start (reconciles "a")] ++ succeeds 0 5 ++ elapses 10 ++ succeeds 0 5 ++ elapses 15 ++
    [.move (.finish 0)] ++ elapses 30 ++ [.start (reconciles "b")] ++ succeeds 1 5

theorem operatorEnv_injective :
    Function.Injective fun hostname => operatorIdentity (operatorEnv hostname) := by
  intro a b h
  simpa [operatorIdentity, operatorEnv] using h

end Sample

def workSharedRun :
    PLift ((Pool.run Watch.top runServer (RunJob.thread Sample.operatorEnv) Sample.runStart
      Sample.hangs).map (fun s => s.world.work.map fun work => (work.leaseName, work.holder)) =
        some [("bgd-shop", "b"), ("bgd-shop", "a")]) :=
  ⟨by decide +kernel⟩

/-- **Two replicas at work under one Lease**: a renewal that takes longer than the Lease lasts is not
a renewal that fails. -/
theorem work_shared : ∃ s, Pool.Run runServer (RunJob.thread Sample.operatorEnv) Watch.top
      Sample.runStart s ∧
    s.world.work.map (fun work => (work.leaseName, work.holder)) =
      [("bgd-shop", "b"), ("bgd-shop", "a")] := by
  have h := workSharedRun.down
  exact Pool.Run.exists_of_run h

def workExclusiveTurnsRun :
    PLift ((Pool.run inTime runServer (RunJob.thread Sample.operatorEnv) Sample.runStart
      Sample.takesTurns).map (fun s => s.world.work.map fun work => (work.leaseName, work.holder)) =
        some [("bgd-shop", "b")]) :=
  ⟨by decide +kernel⟩

/-- Two replicas work one after the other. -/
theorem work_exclusive_turns : ∃ s : RunPool,
    s.world.work.map (fun work => (work.leaseName, work.holder)) = [("bgd-shop", "b")] ∧
    ∀ work ∈ s.world.work, ∃ lease, s.world.server.leases work.leaseName = some lease ∧
      lease.holder = some work.holder := by
  have h := workExclusiveTurnsRun.down
  obtain ⟨s, r, hwork⟩ := Pool.Run.exists_of_run h
  exact ⟨s, hwork, (work_exclusive Sample.operatorEnv Sample.operatorEnv_injective rfl rfl
    ⟨fun _ _ h => (by cases h), fun _ => rfl⟩ r).2⟩

end FluidBG
