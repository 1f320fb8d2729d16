import FluidBG.Cluster
import FluidBG.HttpApi
import FluidBG.Proof.Finalization
import FluidBG.Proof.NameParts
import FluidBG.Proof.Status
/-!
# Tenants of the HTTP API

A token names one rollout, and with it one key of the store. The handlers commute with forgetting
the records of all other keys, so what they answer and what they write depends on the records of
that key alone.
-/

set_option autoImplicit false

namespace FluidBG

open Lib

/-! ## Bearer tokens -/

theorem bearerToken_eq_some {headerValue token : String} :
    bearerToken headerValue = some token ↔ headerValue = "Bearer " ++ token := by
  have hbearer : "Bearer ".toList.length = 7 := rfl
  unfold bearerToken
  constructor
  · intro h
    split at h
    · rename_i hstart
      obtain ⟨rest, hrest⟩ := List.isPrefixOf_iff_prefix.mp hstart
      have htoken := Option.some.inj h
      rw [← hrest, ← hbearer, List.drop_left] at htoken
      rw [← htoken, ← String.toList_inj, ← hrest]
      simp
    · simp at h
  · rintro rfl
    have hlist : ("Bearer " ++ token).toList = "Bearer ".toList ++ token.toList := by simp
    rw [hlist, if_pos (List.isPrefixOf_iff_prefix.mpr (List.prefix_append _ _)), ← hbearer,
      List.drop_left, String.ofList_toList]

theorem xor_eq_zero {a b : Nat} : a ^^^ b = 0 ↔ a = b := by
  constructor
  · intro h
    apply Nat.eq_of_testBit_eq
    intro i
    have hbit := congrArg (Nat.testBit · i) h
    simpa using hbit
  · rintro rfl
    exact Nat.xor_self a

theorem foldl_or_eq_zero {pairs : List (Nat × Nat)} {acc : Nat} :
    pairs.foldl (fun acc bytes => acc ||| (bytes.1 ^^^ bytes.2)) acc = 0 ↔
      acc = 0 ∧ ∀ bytes ∈ pairs, bytes.1 = bytes.2 := by
  induction pairs generalizing acc with
  | nil => simp
  | cons bytes pairs ih =>
    rw [List.foldl_cons, ih, Nat.or_eq_zero_iff, xor_eq_zero]
    simp [and_assoc]

/-- Looking at every byte decides equality. -/
theorem constantTimeEq_iff {left right : List Nat} : constantTimeEq left right ↔ left = right := by
  unfold constantTimeEq
  constructor
  · intro h
    split at h
    · simp at h
    · rename_i hlength
      have hbytes := (foldl_or_eq_zero.mp (of_decide_eq_true h)).2
      refine List.ext_getElem (not_not.mp hlength) fun i hl hr => ?_
      have hz : i < (left.zip right).length := by simp [List.length_zip, hl, hr]
      simpa using hbytes _ (List.getElem_mem hz)
  · rintro rfl
    have hbytes : ∀ bytes ∈ left.zip left, bytes.1 = bytes.2 := by
      intro bytes hmem
      obtain ⟨i, hi, rfl⟩ := List.getElem_of_mem hmem
      simp
    rw [if_neg (by simp)]
    exact decide_eq_true (foldl_or_eq_zero.mpr ⟨rfl, hbytes⟩)

/-- **A bearer token matches** when it is the expected one and that one is not empty. -/
theorem bearerMatches_iff {headerValue : Option String} {expectedToken : String} :
    bearerMatches headerValue (some expectedToken) ↔
      expectedToken ≠ "" ∧ headerValue = some ("Bearer " ++ expectedToken) := by
  unfold bearerMatches
  by_cases hempty : expectedToken = ""
  · simp [hempty]
  · simp only [hempty, if_false, ne_eq, not_false_eq_true, true_and]
    cases headerValue with
    | none => simp
    | some headerValue =>
      cases htoken : bearerToken headerValue with
      | none =>
        simp only [htoken, Option.some.injEq, Bool.false_eq_true, false_iff]
        intro heq
        rw [bearerToken_eq_some.mpr heq] at htoken
        cases htoken
      | some actual =>
        simp only [htoken]
        rw [constantTimeEq_iff, utf8Bytes_inj, bearerToken_eq_some.mp htoken]
        simp

/-! ## The records of one rollout -/

namespace MemoryStore

/-- The store without the records of other rollouts. -/
def own (store : MemoryStore) (key : String) : MemoryStore :=
  ⟨store.records.filter fun run => run.blueGreenRef = key⟩

/-- The records of other rollouts. -/
def others (store : MemoryStore) (key : String) : List TestCaseRecord :=
  store.records.filter fun run => run.blueGreenRef ≠ key

/-- The names of the rollouts do not contain the separator. -/
def Separated (store : MemoryStore) : Prop := ∀ run ∈ store.records, Separable run.blueGreenRef

instance (store : MemoryStore) : Decidable store.Separated :=
  inferInstanceAs (Decidable (∀ run ∈ store.records, _))

variable {store : MemoryStore} {key testId : String}

/-- Under a key of the rollout stand records of the rollout. -/
theorem ref_of_key (hstore : store.Separated) (hkey : Separable key) {run : TestCaseRecord}
    (hrun : run ∈ store.records) (h : run.key = recordKey key testId) : run.blueGreenRef = key :=
  ((recordKey_inj (hstore run hrun) hkey).mp h).1

theorem get_own (hstore : store.Separated) (hkey : Separable key) :
    (store.own key).get key testId = store.get key testId := by
  rw [get_eq, get_eq]
  refine Keyed.lookup_filter_of fun run hrun h => ?_
  simpa using ref_of_key hstore hkey hrun h

theorem own_modify {f : TestCaseRecord → TestCaseRecord} (hf : SameCase f) :
    (store.modify key testId f).own key = (store.own key).modify key testId f := by
  show (⟨(store.records.map _).filter _⟩ : MemoryStore) = ⟨(store.records.filter _).map _⟩
  rw [List.filter_map]
  congr 2
  apply List.filter_congr
  intro run _
  show decide ((if run.key = recordKey key testId then f run else run).blueGreenRef = key) = _
  split
  · rw [(hf run).1]
  · rfl

theorem others_modify (hstore : store.Separated) (hkey : Separable key)
    {f : TestCaseRecord → TestCaseRecord} (hf : SameCase f) :
    (store.modify key testId f).others key = store.others key := by
  show (store.records.map fun run => if run.key = recordKey key testId then f run else run).filter
    _ = store.records.filter _
  rw [List.filter_map]
  have hsame : ∀ run ∈ store.records.filter fun run => run.blueGreenRef ≠ key,
      (if run.key = recordKey key testId then f run else run) = run := by
    intro run hrun
    obtain ⟨hmem, hne⟩ := List.mem_filter.mp hrun
    refine if_neg fun h => ?_
    simp [ref_of_key hstore hkey hmem h] at hne
  rw [← List.map_id'' (fun _ => rfl) (store.records.filter fun run => run.blueGreenRef ≠ key),
    ← List.map_congr_left hsame]
  congr 1
  apply List.filter_congr
  intro run _
  show decide ((if run.key = recordKey key testId then f run else run).blueGreenRef ≠ key) = _
  split
  · rw [(hf run).1]
  · rfl

theorem separated_modify {f : TestCaseRecord → TestCaseRecord} (hstore : store.Separated)
    (hf : SameCase f) : (store.modify key testId f).Separated := by
  intro run hrun
  rw [modify_records] at hrun
  obtain ⟨run, hmem, rfl⟩ := Keyed.mem_update.mp hrun
  split
  · rw [(hf run).1]
    exact hstore run hmem
  · exact hstore run hmem

/-- **What an operation on one rollout's records has to do**: the same on these records alone, and
nothing to the others. -/
structure Local (key : String) (op : MemoryStore → MemoryStore) : Prop where
  own : ∀ store : MemoryStore, store.Separated → (op store).own key = op (store.own key)
  others : ∀ store : MemoryStore, store.Separated → (op store).others key = store.others key
  separated : ∀ store : MemoryStore, store.Separated → (op store).Separated

theorem Local.modify (hkey : Separable key) {f : TestCaseRecord → TestCaseRecord}
    (hf : SameCase f) : Local key fun store => store.modify key testId f :=
  ⟨fun _ _ => own_modify hf, fun _ hstore => others_modify hstore hkey hf,
    fun _ hstore => separated_modify hstore hf⟩

theorem Local.append {run : TestCaseRecord} (hkey : Separable key)
    (hrun : run.blueGreenRef = key) :
    Local key fun store => ⟨store.records ++ [run]⟩ := by
  refine ⟨fun store _ => ?_, fun store _ => ?_, fun store hstore => ?_⟩
  · simp [MemoryStore.own, hrun]
  · simp [MemoryStore.others, hrun]
  · intro run' hrun'
    rcases List.mem_append.mp hrun' with hmem | hmem
    · exact hstore run' hmem
    · rw [List.mem_singleton.mp hmem, hrun]
      exact hkey

theorem Local.id : Local key fun store => store :=
  ⟨fun _ _ => rfl, fun _ _ => rfl, fun _ hstore => hstore⟩

/-- A registration is local to its rollout. -/
theorem Local.register {run : TestCaseRecord} (hkey : Separable key)
    (hrun : run.blueGreenRef = key) : Local key fun store => store.register run := by
  subst hrun
  have hcases (store : MemoryStore) (hstore : store.Separated) :
      ∃ op, Local run.blueGreenRef op ∧ store.register run = op store ∧
        (store.own run.blueGreenRef).register run = op (store.own run.blueGreenRef) := by
    have hget := @get_own store _ run.testId hstore hkey
    cases h : store.get run.blueGreenRef run.testId with
    | none =>
      exact ⟨_, .append hkey rfl, register_of_none h, register_of_none (hget.trans h)⟩
    | some existing =>
      rw [register_of_get h, register_of_get (hget.trans h)]
      split
      · exact ⟨_, .id, rfl, rfl⟩
      · exact ⟨_, .modify hkey (mergeRegistration_sameCase run), rfl, rfl⟩
  refine ⟨fun store hstore => ?_, fun store hstore => ?_, fun store hstore => ?_⟩
  all_goals obtain ⟨op, hlocal, heq, hown⟩ := hcases store hstore
  · rw [heq, hown, hlocal.own store hstore]
  · rw [heq, hlocal.others store hstore]
  · rw [heq]
    exact hlocal.separated store hstore

theorem counts_own : (store.own key).counts key = store.counts key := by
  unfold counts own
  rw [List.filter_filter]
  simp

end MemoryStore

/-! ## The calls of a tenant -/

/-- The world without the records of other rollouts. -/
def World.own (w : World) (key : String) : World := { w with store := w.store.own key }

/-- A call the handlers make on behalf of the rollout of `key`. -/
def Call.OfTenant (key : String) : Call → Prop
  | .getResource _ _ _ => True
  | .getBgd _ _ => True
  | .now => True
  | .register run => run.blueGreenRef = key
  | .getCase key' _ => key' = key
  | .setVerdict key' _ _ _ => key' = key
  | .counts key' => key' = key
  | _ => False

section Tenant

variable {key : String} {w w' : World} {o : Outcome}

theorem World.respond_own {α : Type} (r : Except KubeError α) :
    (w.own key).respond o (r, w.own key) =
      (w.respond o (r, w)).map fun aw => (aw.1, aw.2.own key) := by
  cases o <;> rfl

theorem World.respondStore_own {α : Type} {r : Except StoreError α} {v : World} :
    (w.own key).respondStore o (r, v.own key) =
      (w.respondStore o (r, v)).map fun aw => (aw.1, aw.2.own key) := by
  cases o <;> rfl

/-- The verdict is taken on the rollout's own records, or refused there too. -/
theorem World.setVerdict_own (hstore : w.store.Separated) (hkey : Separable key) (testId : String)
    (passed : Bool) (failureMessage : Option String) :
    (w.own key).storeResult (((w.own key).store.setVerdict key testId passed failureMessage).map
        fun store => ((), store)) =
      ((w.storeResult ((w.store.setVerdict key testId passed failureMessage).map
          fun store => ((), store))).1,
        (w.storeResult ((w.store.setVerdict key testId passed failureMessage).map
          fun store => ((), store))).2.own key) := by
  have hget : (w.own key).store.get key testId = w.store.get key testId :=
    MemoryStore.get_own hstore hkey
  rw [MemoryStore.setVerdict_eq, MemoryStore.setVerdict_eq, hget]
  split
  · show (Except.ok (), World.mk _ _ _ _ _ _ _ ((w.store.own key).modify key testId _) _ _) = _
    rw [← MemoryStore.own_modify (MemoryStore.judged_sameCase _ _)]
    rfl
  · rfl

/-- **Serving a tenant's call commutes with forgetting the others' records.** -/
theorem World.serve_own (hstore : w.store.Separated) (hkey : Separable key) {c : Call}
    (hc : c.OfTenant key) :
    (w.own key).serve c o = (w.serve c o).map fun aw => (aw.1, aw.2.own key) := by
  cases c with
  | getResource kind ns name => exact World.respond_own _
  | getBgd ns name => exact World.respond_own _
  | now => cases o <;> rfl
  | register run =>
    have hown : (w.store.own key).register run = (w.store.register run).own key :=
      ((MemoryStore.Local.register hkey hc).own w.store hstore).symm
    show (w.own key).respondStore o (.ok (), { w with store := (w.store.own key).register run }) =
      (w.respondStore o (.ok (), { w with store := w.store.register run })).map _
    rw [hown]
    exact World.respondStore_own (v := { w with store := w.store.register run })
  | getCase key' testId =>
    cases hc
    show (w.own key).respondStore o (.ok ((w.store.own key).get key testId), w.own key) =
      (w.respondStore o (.ok (w.store.get key testId), w)).map _
    rw [MemoryStore.get_own hstore hkey]
    exact World.respondStore_own
  | setVerdict key' testId passed failureMessage =>
    cases hc
    show (w.own key).respondStore o _ = (w.respondStore o _).map _
    rw [World.setVerdict_own hstore hkey]
    exact World.respondStore_own
  | counts key' =>
    cases hc
    show (w.own key).respondStore o (.ok ((w.store.own key).counts key), w.own key) =
      (w.respondStore o (.ok (w.store.counts key), w)).map _
    rw [MemoryStore.counts_own]
    exact World.respondStore_own
  | _ => exact absurd hc id

/-- What a tenant's calls leave alone: everything but the store, and in it the others' records. -/
structure World.Confined (key : String) (w w' : World) : Prop where
  frame : w' = { w with store := w'.store }
  others : w'.store.others key = w.store.others key
  separated : w'.store.Separated

theorem World.Confined.refl (hstore : w.store.Separated) : World.Confined key w w :=
  ⟨rfl, rfl, hstore⟩

theorem World.Confined.trans {w'' : World} (h : World.Confined key w w')
    (h' : World.Confined key w' w'') : World.Confined key w w'' := by
  refine ⟨?_, h'.others.trans h.others, h'.separated⟩
  rw [h'.frame, h.frame]

theorem World.Confined.of_local {op : MemoryStore → MemoryStore} (h : MemoryStore.Local key op)
    (hstore : w.store.Separated) : World.Confined key w { w with store := op w.store } :=
  ⟨rfl, h.others _ hstore, h.separated _ hstore⟩

/-- **A tenant's call stays within its records.** -/
theorem World.serve_confined (hstore : w.store.Separated) (hkey : Separable key) {c : Call}
    (hc : c.OfTenant key) {a : Answer c} (h : w.serve c o = some (a, w')) :
    World.Confined key w w' := by
  cases c with
  | getResource kind ns name =>
    rcases World.respond_world h with rfl | rfl <;> exact .refl hstore
  | getBgd ns name => rcases World.respond_world h with rfl | rfl <;> exact .refl hstore
  | now =>
    cases o <;> simp [World.serve] at h
    rw [← h.2]
    exact .refl hstore
  | register run =>
    rcases World.respondStore_world h with rfl | rfl
    · exact .refl hstore
    · exact .of_local (.register hkey hc) hstore
  | getCase key' testId => rcases World.respondStore_world h with rfl | rfl <;> exact .refl hstore
  | setVerdict key' testId passed failureMessage =>
    cases hc
    rcases World.respondStore_world h with rfl | rfl
    · exact .refl hstore
    · rw [MemoryStore.setVerdict_eq]
      split
      · exact .of_local (.modify hkey (MemoryStore.judged_sameCase _ _)) hstore
      · exact .refl hstore
  | counts key' => rcases World.respondStore_world h with rfl | rfl <;> exact .refl hstore
  | _ => exact absurd hc id

end Tenant

/-! ## The handlers -/

/-- The key of the rollout the claims name. -/
abbrev PluginAuthClaims.stateKey (claims : PluginAuthClaims) : String :=
  blueGreenStateKey claims.ns claims.blueGreenRef

/-- The header carries a token of these claims, signed with the key in the operator's Secret. -/
def World.Verifies (w : World) (ctx : Ctx) (authHeader : Option String)
    (claims : PluginAuthClaims) : Prop :=
  ∃ token secret signingKey, authHeader.bind bearerToken = some token ∧
    w.getResource .secret ctx.auth.signingSecretNamespace ctx.auth.signingSecretName = .ok secret ∧
    secret.data.get ctx.auth.signingSecretKey = some signingKey ∧ signingKey ≠ "" ∧
    ctx.crates.verifyToken token signingKey = .ok claims

/-- The claimed object exists and takes cases. -/
def World.TakesCases (w : World) (claims : PluginAuthClaims) : Prop :=
  ∃ bgd uid, w.getBgd claims.ns claims.blueGreenRef = .ok bgd ∧ claims.blueGreenUid = some uid ∧
    uid ≠ "" ∧ bgd.metadata.uid = some uid ∧ bgd.metadata.deletionTimestamp = none ∧
    bgd.phase ≠ some .completed ∧ bgd.phase ≠ some .rolledBack

/-- When a request may change the store. -/
def ApiRequest.MayWrite (claims : PluginAuthClaims) (authHeader : Option String) (w : World) :
    ApiRequest → Prop
  | .registerTestCase req => req.blueGreenRef = claims.blueGreenRef ∧
      req.inceptionPoint = claims.inceptionPoint ∧ w.TakesCases claims
  | .setVerdict req => ∃ record,
      w.store.get claims.stateKey req.testId = some record ∧
        record.verifierAuthToken ≠ "" ∧
        authHeader = some ("Bearer " ++ record.verifierAuthToken)
  | .getCounts _ => False

/-- The contract of a handler that started in `w`. -/
abbrev tenantContract (key : String) (w : World) : Contract Call World :=
  ⟨World.Confined key w, fun _ c => c.OfTenant key⟩

/-- The postcondition of a handler: it stays within its records, and has changed them only where
it may. -/
def Answered {α : Type} (key : String) (w : World) (mayWrite : Prop) : α → World → Prop :=
  fun _ w' => World.Confined key w w' ∧ (w'.store ≠ w.store → mayWrite)

/-- A handler, run undisturbed from `w`, stays within the records of its key. -/
abbrev Op.Confined {α : Type} (key : String) (w : World) (mayWrite : Prop) (p : Op α) : Prop :=
  (cluster.outside Guard.still).Spec (tenantContract key w) (Answered key w mayWrite)
    (Answered key w mayWrite) p w

section Handlers

variable {key : String} {w : World} {α : Type}

/-- A call that only reads. -/
theorem tenant_read {c : Call} {V : Answer c → Prop} {E : ReconcileError → World → Prop}
    (hstore : w.store.Separated) (hc : c.OfTenant key)
    (hread : ∀ o a w', w.serve c o = some (a, w') → w' = w ∧ V a) :
    (cluster.outside Guard.still).Spec (tenantContract key w) (fun a v => v = w ∧ V a) E
      (Op.ask c) w := by
  refine Outside.Spec.ask hc fun a w' hanswer => ?_
  obtain ⟨o, -, hserve⟩ := hanswer
  obtain ⟨rfl, hv⟩ := hread o a w' hserve
  refine ⟨.refl hstore, fun w'' hlater _ => ?_⟩
  rw [Machine.later_still hlater]
  exact ⟨rfl, hv⟩

/-- A handler that ends without having written. -/
theorem Answered.unchanged (hstore : w.store.Separated) (mayWrite : Prop) (a : α) :
    Answered key w mayWrite a w :=
  ⟨.refl hstore, fun h => absurd rfl h⟩

theorem readOperatorSigningKey_spec {auth : AuthConfig} {secret : Resource} {signingKey : String}
    (hstore : w.store.Separated)
    (hsecret : w.getResource .secret auth.signingSecretNamespace auth.signingSecretName =
      .ok secret)
    (hkey : secret.data.get auth.signingSecretKey = some signingKey) :
    (cluster.outside Guard.still).Spec (tenantContract key w)
      (fun found v => v = w ∧ found = signingKey) (fun _ v => v = w)
      (readOperatorSigningKey auth) w := by
  refine (tenant_read
    (c := .getResource .secret auth.signingSecretNamespace auth.signingSecretName)
    (V := fun a => ∀ r, a = .ok r → r = secret) hstore trivial ?_).bind ?_
  · intro o a w' hserve
    cases o <;> simp only [World.serve, World.respond, hsecret, Option.some.injEq, Prod.mk.injEq,
      reduceCtorEq] at hserve
    all_goals
      obtain ⟨rfl, rfl⟩ := hserve
      simp
  · rintro answer v ⟨rfl, hanswer⟩
    cases answer with
    | error e => rfl
    | ok r =>
      cases hanswer r rfl
      simp only [Op.kube, Prog.bind_def, Prog.pure_bind, hkey]
      split
      · exact ⟨rfl, rfl⟩
      · rfl

/-- **The claims a handler goes on with are the token's.** -/
theorem validatePluginAuth_spec {ctx : Ctx} {authHeader : Option String}
    {claims : PluginAuthClaims} {E : ReconcileError → World → Prop} (hstore : w.store.Separated)
    (hclaims : w.Verifies ctx authHeader claims) :
    (cluster.outside Guard.still).Spec (tenantContract key w)
      (fun r v => v = w ∧ ∀ found, r = .ok (some found) → found = claims) E
      (validatePluginAuth ctx authHeader) w := by
  obtain ⟨token, secret, signingKey, htoken, hsecret, hkey, hne, hverify⟩ := hclaims
  unfold validatePluginAuth
  rw [htoken]
  have hvalidate : (cluster.outside Guard.still).Spec (tenantContract key w)
      (fun found v => v = w ∧ ∀ c, found = some c → c = claims) (fun _ v => v = w)
      (validateInceptionAuthToken ctx token) w := by
    refine (readOperatorSigningKey_spec hstore hsecret hkey).bind ?_
    rintro found v ⟨rfl, rfl⟩
    simp only [hverify]
    exact ⟨rfl, fun c hc => (Option.some.inj hc).symm⟩
  refine (Outside.Spec.result (Q := fun r v => v = w ∧ ∀ c, r = .ok (some c) → c = claims)
    (hvalidate.mono ?_ ?_)).bind ?_
  · rintro found v ⟨rfl, hfound⟩
    exact ⟨rfl, fun c hc => hfound c (Except.ok.inj hc)⟩
  · rintro e v rfl
    exact ⟨rfl, fun c hc => by cases hc⟩
  · rintro r v ⟨rfl, hr⟩
    cases r with
    | ok found => exact ⟨rfl, fun c hc => hr c (congrArg Except.ok (Except.ok.inj hc))⟩
    | error e => exact ⟨rfl, fun c hc => by cases hc⟩

/-- The store call of a handler, in a case in which it may write. -/
theorem tenant_write {c : Call} {mayWrite : Prop} {f : Answer c → Op α}
    (hstore : w.store.Separated) (hkey : Separable key) (hc : c.OfTenant key) (hmay : mayWrite)
    (hf : ∀ a, ∃ b, f a = .pure b) :
    Op.Confined key w mayWrite
      (.call c f) := by
  refine ⟨hc, fun a w' hanswer => ?_⟩
  obtain ⟨o, -, hserve⟩ := hanswer
  have hconfined := World.serve_confined hstore hkey hc hserve
  refine ⟨hconfined, fun w'' hlater _ => ?_⟩
  rw [Machine.later_still hlater]
  obtain ⟨b, hb⟩ := hf a
  rw [hb]
  exact ⟨hconfined, fun _ => hmay⟩

theorem validateRegistrationBgd_spec {claims : PluginAuthClaims} {req : RegisterTestCaseRequest}
    {E : ReconcileError → World → Prop} (hstore : w.store.Separated)
    (href : req.blueGreenRef = claims.blueGreenRef) :
    (cluster.outside Guard.still).Spec (tenantContract key w)
      (fun r v => v = w ∧ (r = .ok () → w.TakesCases claims)) E
      (validateRegistrationBgd claims req) w := by
  unfold validateRegistrationBgd
  cases huid : claims.blueGreenUid.filter fun uid => uid ≠ "" with
  | none => exact ⟨rfl, fun h => by cases h⟩
  | some uid =>
    obtain ⟨hclaim, hne⟩ := Option.filter_eq_some_iff.mp huid
    refine (tenant_read (c := .getBgd claims.ns req.blueGreenRef)
      (V := fun a => ∀ bgd, a = .ok bgd → w.getBgd claims.ns claims.blueGreenRef = .ok bgd)
      hstore trivial ?_).bind ?_
    · intro o a w' hserve
      rw [href] at hserve
      cases o <;> simp only [World.serve, World.respond, Option.some.injEq, Prod.mk.injEq,
        reduceCtorEq] at hserve
      · exact ⟨hserve.2.symm, fun bgd hbgd => hserve.1.trans hbgd⟩
      · exact ⟨hserve.2.symm, fun bgd hbgd => by cases hserve.1.trans hbgd⟩
      · exact ⟨hserve.2.symm, fun bgd hbgd => by cases hserve.1.trans hbgd⟩
    · rintro answer v ⟨rfl, hanswer⟩
      cases answer with
      | error e => cases e <;> exact ⟨rfl, fun h => by cases h⟩
      | ok bgd =>
        dsimp only
        split
        · exact ⟨rfl, fun h => by cases h⟩
        · rename_i huid'
          split
          · exact ⟨rfl, fun h => by cases h⟩
          · rename_i hopen
            refine ⟨rfl, fun _ => ⟨bgd, uid, hanswer bgd rfl, hclaim, by simpa using hne, ?_⟩⟩
            simp only [registrationClosed, Bool.or_eq_true, not_or, decide_eq_true_eq,
              Option.not_isSome_iff_eq_none] at hopen
            exact ⟨not_not.mp huid', hopen.1.1, hopen.1.2, hopen.2⟩

theorem triggerTime_spec {req : RegisterTestCaseRequest} {E : ReconcileError → World → Prop}
    (hstore : w.store.Separated) :
    (cluster.outside Guard.still).Spec (tenantContract key w) (fun _ v => v = w) E
      (triggerTime req) w := by
  unfold triggerTime
  cases req.triggeredAt with
  | some time => rfl
  | none =>
    refine (tenant_read (c := .now) (V := fun _ => True) hstore trivial ?_).mono
      (fun _ _ h => h.1) fun _ _ h => h
    intro o a w' hserve
    cases o <;> simp [World.serve] at hserve
    exact ⟨hserve.2.symm, trivial⟩

theorem storeTestCase_spec {claims : PluginAuthClaims} {authHeader : Option String}
    {req : RegisterTestCaseRequest} {mayWrite : Prop} (hstore : w.store.Separated)
    (hkey : Separable key) (href : blueGreenStateKey claims.ns req.blueGreenRef = key)
    (hmay : mayWrite) :
    Op.Confined key w mayWrite
      (storeTestCase claims authHeader req) := by
  refine (triggerTime_spec hstore).bind ?_
  rintro triggeredAt v rfl
  cases timeoutDuration (req.timeoutSeconds.getD 60) with
  | error e => exact .unchanged hstore _ e
  | ok timeout =>
    refine tenant_write hstore hkey href hmay fun a => ?_
    cases a <;> exact ⟨_, rfl⟩

variable {ctx : Ctx} {authHeader : Option String} {claims : PluginAuthClaims}

theorem registerTestCase_spec {req : RegisterTestCaseRequest} (hstore : w.store.Separated)
    (hkey : Separable claims.stateKey)
    (hclaims : w.Verifies ctx authHeader claims) :
    Op.Confined claims.stateKey w ((ApiRequest.registerTestCase req).MayWrite claims authHeader w)
      (registerTestCase ctx authHeader req) := by
  refine (validatePluginAuth_spec hstore hclaims).bind ?_
  rintro (e | found) v ⟨rfl, hfound⟩
  · exact .unchanged hstore _ _
  cases found with
  | none => exact .unchanged hstore _ _
  | some found =>
    cases hfound found rfl
    dsimp only
    split
    · rename_i hmatch
      simp only [claimsMatchRequest, Bool.and_eq_true, decide_eq_true_eq] at hmatch
      refine (validateRegistrationBgd_spec hstore hmatch.1.symm).bind ?_
      rintro (e | u) v ⟨rfl, htakes⟩
      · exact .unchanged hstore _ _
      · refine storeTestCase_spec hstore hkey (by rw [← hmatch.1]) ?_
        exact ⟨hmatch.1.symm, hmatch.2.symm, htakes rfl⟩
    · exact .unchanged hstore _ _

theorem stateKeyForAuthorizedRef_eq {requestedRef stateKey : String}
    (h : stateKeyForAuthorizedRef claims requestedRef = some stateKey) :
    stateKey = claims.stateKey := by
  unfold stateKeyForAuthorizedRef at h
  dsimp only at h
  split at h
  · exact (Option.some.inj h).symm
  · simp at h

theorem setVerdict_spec {req : VerdictRequest} (hstore : w.store.Separated)
    (hkey : Separable claims.stateKey)
    (hclaims : w.Verifies ctx authHeader claims) :
    Op.Confined claims.stateKey w ((ApiRequest.setVerdict req).MayWrite claims authHeader w)
      (setVerdict ctx authHeader req) := by
  unfold setVerdict
  cases req.blueGreenRef with
  | none => exact .unchanged hstore _ _
  | some blueGreenRef =>
    refine (validatePluginAuth_spec hstore hclaims).bind ?_
    rintro (e | found) v ⟨rfl, hfound⟩
    · exact .unchanged hstore _ _
    cases found with
    | none => exact .unchanged hstore _ _
    | some found =>
      cases hfound found rfl
      dsimp only
      cases hstateKey : stateKeyForAuthorizedRef claims blueGreenRef with
      | none => exact .unchanged hstore _ _
      | some stateKey =>
        cases stateKeyForAuthorizedRef_eq hstateKey
        refine (tenant_read
          (c := .getCase claims.stateKey req.testId)
          (V := fun a => ∀ record, a = .ok (some record) →
            v.store.get claims.stateKey req.testId =
              some record) hstore rfl ?_).bind ?_
        · intro o a w' hserve
          cases o <;> simp only [World.serve, World.respondStore, Option.some.injEq,
            Prod.mk.injEq, reduceCtorEq] at hserve
          · exact ⟨hserve.2.symm, fun record ha => Except.ok.inj (hserve.1.trans ha)⟩
          · exact ⟨hserve.2.symm, fun record ha => by cases hserve.1.trans ha⟩
          · exact ⟨hserve.2.symm, fun record ha => by cases hserve.1.trans ha⟩
        · rintro (e | record) v' ⟨rfl, hrecord⟩
          · exact .unchanged hstore _ _
          cases record with
          | none => exact .unchanged hstore _ _
          | some record =>
            show Outside.Spec _ _ _ _ (judgeRecord _ _ _ _) _
            unfold judgeRecord
            split
            · rename_i hauthorized
              obtain ⟨hne, hheader⟩ := bearerMatches_iff.mp hauthorized
              refine tenant_write hstore hkey rfl ⟨record, hrecord record rfl, hne, hheader⟩ ?_
              intro a
              cases a <;> exact ⟨_, rfl⟩
            · exact .unchanged hstore _ _

theorem getCounts_spec {bgRef : String} (hstore : w.store.Separated)
    (hclaims : w.Verifies ctx authHeader claims) :
    Op.Confined claims.stateKey w ((ApiRequest.getCounts bgRef).MayWrite claims authHeader w)
      (getCounts ctx authHeader bgRef) := by
  refine (validatePluginAuth_spec hstore hclaims).bind ?_
  rintro (e | found) v ⟨rfl, hfound⟩
  · exact .unchanged hstore _ _
  cases found with
  | none => exact .unchanged hstore _ _
  | some found =>
    cases hfound found rfl
    dsimp only
    cases hstateKey : stateKeyForAuthorizedRef claims bgRef with
    | none => exact .unchanged hstore _ _
    | some stateKey =>
      cases stateKeyForAuthorizedRef_eq hstateKey
      refine (tenant_read (c := .counts claims.stateKey)
        (V := fun _ => True) hstore rfl ?_).bind ?_
      · intro o a w' hserve
        cases o <;> simp only [World.serve, World.respondStore, Option.some.injEq,
          Prod.mk.injEq, reduceCtorEq] at hserve
        all_goals exact ⟨hserve.2.symm, trivial⟩
      · rintro (e | counts) v' ⟨rfl, -⟩ <;> exact .unchanged hstore _ _

/-- **Every handler stays within the records of its token's rollout.** -/
theorem router_spec (request : ApiRequest) (hstore : w.store.Separated)
    (hkey : Separable claims.stateKey)
    (hclaims : w.Verifies ctx authHeader claims) :
    Op.Confined claims.stateKey w (request.MayWrite claims authHeader w)
      (router ctx authHeader request) := by
  cases request with
  | registerTestCase req => exact (registerTestCase_spec hstore hkey hclaims).bind fun _ _ h => h
  | setVerdict req => exact (setVerdict_spec hstore hkey hclaims).bind fun _ _ h => h
  | getCounts bgRef => exact (getCounts_spec hstore hclaims).bind fun _ _ h => h

end Handlers

/-! ## The token of a case -/

namespace MemoryStore

/-- The record of the case of `first` was put into the store by the registration `first`, and has
been there since. -/
inductive Since (first : TestCaseRecord) : MemoryStore → Prop
  | registered {store : MemoryStore} (hwf : store.WellFormed)
      (hadmissible : (StoreOp.register first).Admissible)
      (hnew : store.get first.blueGreenRef first.testId = none) :
      Since first (store.apply (.register first))
  | later {store : MemoryStore} (h : Since first store) (op : StoreOp)
      (hadmissible : op.Admissible)
      (hkept : (store.apply op).get first.blueGreenRef first.testId ≠ none) :
      Since first (store.apply op)

variable {store : MemoryStore} {first run : TestCaseRecord}

/-- No operation replaces a token that is there. -/
theorem token_apply (hwf : store.WellFormed) {op : StoreOp} {ref testId : String}
    (h : store.get ref testId = some run) (htoken : run.verifierAuthToken ≠ "")
    (hkept : (store.apply op).get ref testId ≠ none) :
    ∃ run', (store.apply op).get ref testId = some run' ∧
      run'.verifierAuthToken = run.verifierAuthToken := by
  have heffect := apply_effect store op
  generalize store.apply op = store' at heffect hkept ⊢
  cases heffect with
  | none => exact ⟨run, h, rfl⟩
  | added run' hop hnew =>
    refine ⟨run, ?_, rfl⟩
    rw [get_append_new hnew]
    split
    · rename_i hkey
      rw [get_eq, hkey] at h
      exact absurd (h.symm.trans hnew) (by simp)
    · exact h
  | @revised ref' testId' f hop hf hpending =>
    rw [get_modify hf.same]
    split
    · exact ⟨f run, by rw [h, Option.map_some], hf.token run htoken⟩
    · exact ⟨run, h, rfl⟩
  | @dropped p hop hp =>
    have hfilter : (⟨store.records.filter p⟩ : MemoryStore).get ref testId =
        (store.get ref testId).filter p := hwf.keys.lookup_filter
    rw [hfilter, h] at hkept ⊢
    cases hpr : p run with
    | true => exact ⟨run, by simp [hpr], rfl⟩
    | false => simp [hpr] at hkept

/-- **A case keeps the token of its first registration.** -/
theorem Since.token (h : Since first store) (htoken : first.verifierAuthToken ≠ "") :
    store.WellFormed ∧ ∃ run, store.get first.blueGreenRef first.testId = some run ∧
      run.verifierAuthToken = first.verifierAuthToken := by
  induction h with
  | @registered store hwf hadmissible hnew =>
    refine ⟨hwf.apply hadmissible, first, ?_, rfl⟩
    show (store.register first).get first.blueGreenRef first.testId = some first
    rw [register_of_none hnew, get_append_new hnew]
    exact if_pos rfl
  | later _ op hadmissible hkept ih =>
    obtain ⟨hwf, run, hget, hrun⟩ := ih
    have hkeep := token_apply hwf hget (by rw [hrun]; exact htoken) hkept
    obtain ⟨run', hget', hrun'⟩ := hkeep
    exact ⟨hwf.apply hadmissible, run', hget', hrun'.trans hrun⟩

end MemoryStore

/-! ## Isolation -/

/-- The claims of the sample's inception point. -/
def Sample.claims : PluginAuthClaims :=
  .newWithUid "default" "shop" "uid-1" "orders" "rabbitmq"

/-- The operator accepts one token, and knows it to be of these claims. -/
def Sample.authCtx : Ctx :=
  { ctx with crates := { crates with
      verifyToken := fun token _ => if token = "t1" then .ok claims else .error "unknown token" } }

/-- A pending case of the sample under its token, beside the cases of another rollout. -/
def Sample.tenants (beside : List TestCaseRecord) : World :=
  { world .observing ({ triggered "case-1" with verifierAuthToken := "t1" } :: beside) with
    resources := [signingSecret] }

end FluidBG
