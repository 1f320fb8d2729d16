import FluidBG.Plugins.Drain
/-!
# What a drain status stands for

An answer that the inceptor is drained is put together from several counts, one after the other,
while the workers go on. It stands for empty temporary queues where no message can come into a queue
after it was counted: that is the barrier here, for both queue plugins. Where it is open is where
the two take messages out of one account before they are in the other.
-/

set_option autoImplicit false

namespace FluidBG

open Lib

/-! ## One call -/

section Calls

variable {P : Type} [DecidableEq P] {place : String → P} {x : InceptorMemory P}
  {w : InceptorWorld P} {o : InceptorOutcome} {p : P}

/-- Where the call sends a message. -/
def InceptorCall.sendsTo : InceptorCall P → Option String
  | .work (.publish queue _) => some queue
  | _ => none

/-- An answer is lost or not; an effect is had or not. -/
theorem CallOutcome.answer_cases {α W : Type} (o : CallOutcome) (a : α) (w after : W) :
    (o.answer a w after).2 = w ∨ (o.answer a w after).2 = after := by
  cases o
  · exact .inr rfl
  · exact .inl rfl
  · exact .inr rfl

/-- **A call** leaves a place empty where it sends no message. -/
theorem InceptorWorld.serve_empty (h : w.broker.Empty p) (c : InceptorCall P)
    (hc : ∀ queue, c.sendsTo = some queue → place queue ≠ p) :
    (w.serve place x o c).2.1.broker.Empty p := by
  cases c with
  | receive source =>
    simp only [InceptorWorld.serve]
    split
    · rename_i receipt message broker htake
      rcases CallOutcome.answer_cases o.call (some message) w.broker broker with heq | heq
      · rw [heq]
        exact h
      · rw [heq]
        exact h.take htake
    · exact h
  | disconnect =>
    simp only [InceptorWorld.serve]
    split
    · exact h.giveBack _
    · exact h
  | work c =>
    cases c with
    | publish queue message =>
      simp only [InceptorWorld.serve, serveWork]
      rcases CallOutcome.answer_cases o.call () w.broker (w.broker.put (place queue) message) with
        heq | heq
      · rw [heq]
        exact h
      · rw [heq]
        exact h.put (hc queue rfl)
    | ack =>
      simp only [InceptorWorld.serve, serveWork]
      split
      · rename_i receipt hreceipt
        rcases CallOutcome.answer_cases o.call () w.broker (w.broker.settle receipt) with heq | heq
        · rw [heq]
          exact h
        · rw [heq]
          exact h.settle receipt
      · exact h
    | requeue =>
      simp only [InceptorWorld.serve, serveWork]
      split
      · rename_i receipt hreceipt
        rcases CallOutcome.answer_cases o.call () w.broker (w.broker.giveBack receipt) with
          heq | heq
        · rw [heq]
          exact h
        · rw [heq]
          exact h.giveBack receipt
      · exact h
    | _ => exact h
  | _ => exact h

/-- The calls that only deal with messages and connections. -/
def InceptorCall.Handles : InceptorCall P → Prop
  | .connect => True
  | .disconnect => True
  | .ensureQueue _ => True
  | .receive _ => True
  | .work _ => True
  | _ => False

/-- What a call has no part in, of the world and of the memory of its thread. -/
structure Untouched (w w' : InceptorWorld P) (x x' : InceptorMemory P) : Prop where
  mode : w'.mode = w.mode
  inFlight : w'.inFlight = w.inFlight
  drained : w'.drained = w.drained
  looked : x'.looked = x.looked
  tracked : x'.tracked = x.tracked
  cleared : x'.cleared = x.cleared
  counted : x'.counted = x.counted
  grounded : x'.grounded = x.grounded

/-- A call that deals with messages and connections touches nothing else. -/
theorem InceptorWorld.serve_untouched {c : InceptorCall P} (hc : c.Handles) :
    Untouched w (w.serve place x o c).2.1 x (w.serve place x o c).2.2 := by
  cases c with
  | connect => exact ⟨rfl, rfl, rfl, rfl, rfl, rfl, rfl, rfl⟩
  | ensureQueue queue => exact ⟨rfl, rfl, rfl, rfl, rfl, rfl, rfl, rfl⟩
  | receive source =>
    simp only [InceptorWorld.serve]
    split <;> exact ⟨rfl, rfl, rfl, rfl, rfl, rfl, rfl, rfl⟩
  | disconnect =>
    simp only [InceptorWorld.serve]
    split <;> exact ⟨rfl, rfl, rfl, rfl, rfl, rfl, rfl, rfl⟩
  | work c =>
    cases c with
    | ack =>
      simp only [InceptorWorld.serve, serveWork]
      split <;> exact ⟨rfl, rfl, rfl, rfl, rfl, rfl, rfl, rfl⟩
    | requeue =>
      simp only [InceptorWorld.serve, serveWork]
      split <;> exact ⟨rfl, rfl, rfl, rfl, rfl, rfl, rfl, rfl⟩
    | _ => exact ⟨rfl, rfl, rfl, rfl, rfl, rfl, rfl, rfl⟩
  | _ => exact hc.elim

omit [DecidableEq P] in
theorem countAll_eq_zero {count : P → Nat} {places : List P} (h : countAll count places = 0) :
    ∀ p ∈ places, count p = 0 := by
  induction places with
  | nil => simp
  | cons p places ih =>
    simp only [countAll, Nat.add_eq_zero_iff] at h
    intro q hq
    rcases List.mem_cons.mp hq with rfl | hq
    · exact h.1
    · exact ih h.2 q hq

/-- A count that comes to nothing shows the places to be empty. -/
theorem depthOf_eq_zero {b : Broker P Message} {places : List P} {consumers : Nat}
    (h : (b.depthOf places consumers).ready + (b.depthOf places consumers).unacknowledged = 0) :
    ∀ p ∈ places, b.Empty p := by
  intro p hp
  simp only [Broker.depthOf, Nat.add_eq_zero_iff] at h
  exact Broker.empty_iff.mpr ⟨countAll_eq_zero h.1 p hp, countAll_eq_zero h.2 p hp⟩

end Calls

/-! ## The threads together -/

section Threads

variable {P : Type}

/-- The thread found the inceptor draining when it last looked. -/
def InceptorMemory.asked (x : InceptorMemory P) : Prop := x.looked = some .draining

instance (x : InceptorMemory P) : Decidable x.asked :=
  inferInstanceAs (Decidable (x.looked = some .draining))

/-- A place that a call of `/drain-status` has counted since the drain, or any temporary place once
the inceptor is said to be drained. -/
def Covered (temp : List P) (w : InceptorWorld P) (xs : List (InceptorMemory P)) (p : P) : Prop :=
  (∃ x ∈ xs, x.asked ∧ p ∈ x.counted) ∨ (w.drained = true ∧ p ∈ temp)

instance [DecidableEq P] (temp : List P) (w : InceptorWorld P) (xs : List (InceptorMemory P))
    (p : P) : Decidable (Covered temp w xs p) :=
  inferInstanceAs (Decidable ((∃ x ∈ xs, x.asked ∧ p ∈ x.counted) ∨ _))

/-- It has counted nothing yet. -/
def InceptorMemory.Fresh (x : InceptorMemory P) : Prop := x.counted = [] ∧ x.grounded = false

theorem InceptorMemory.fresh_start : (InceptorMemory.start : InceptorMemory P).Fresh := ⟨rfl, rfl⟩

theorem Untouched.fresh {w w' : InceptorWorld P} {x x' : InceptorMemory P}
    (h : Untouched w w' x x') (hx : x.Fresh) : x'.Fresh :=
  ⟨h.counted.trans hx.1, h.grounded.trans hx.2⟩

end Threads

/-! ## Counting -/

section Counting

variable {P : Type} {x x₁ x₂ : InceptorMemory P} {places more : List P} {n m : Nat}

/-- The messages at the places were counted; a count of nothing has found them empty. -/
structure Tally (x : InceptorMemory P) (places : List P) (n : Nat) (x' : InceptorMemory P) :
    Prop where
  grounded : x'.grounded = x.grounded
  kept : ∀ path ∈ x.counted, path ∈ x'.counted
  counted : n = 0 → ∀ path ∈ places, path ∈ x'.counted

theorem Tally.add (h : Tally x places n x₁) (h' : Tally x₁ more m x₂) :
    Tally x (places ++ more) (n + m) x₂ := by
  refine ⟨h'.grounded.trans h.grounded, fun path hpath => h'.kept path (h.kept path hpath), ?_⟩
  intro hzero path hpath
  rcases List.mem_append.mp hpath with hpath | hpath
  · exact h'.kept path (h.counted (by omega) path hpath)
  · exact h'.counted (by omega) path hpath

/-- Where an answer was not lost, the places it is about are counted. -/
theorem Tally.of_found (x : InceptorMemory P) (places : List P) (n : Nat) :
    Tally x places n (x.found places .ok n) := by
  unfold InceptorMemory.found
  split
  · exact ⟨rfl, fun path hpath => List.mem_append_right _ hpath,
      fun _ path hpath => List.mem_append_left _ hpath⟩
  · rename_i hne
    exact ⟨rfl, fun path hpath => hpath, fun hzero => absurd ⟨rfl, hzero⟩ hne⟩

end Counting

/-! ## Moving messages back -/

section Moves

variable {P D : Type} {targets : List String}

/-- The queues that messages are moved back to. -/
def backTargets (roles : List PluginRole) (config : QueueConfig D) : List String :=
  ((inputBlock roles config).bind fun block => block.bind (·.inputQueue)).toList.flatMap
      (fun base => [base, shadowTarget config base]) ++
    (config.combiner.bind (·.outputQueue)).toList.flatMap
      fun base => [base, shadowTarget config base]

theorem required_eq_ok {α : Type} {value : Option α} {a : α} :
    required value = .ok a ↔ value = some a := by
  cases value with
  | none => simp [required]
  | some b => simp [required]

theorem mem_backTargets_of_input {roles : List PluginRole} {config : QueueConfig D}
    {queues : DrainedQueues} (h : drainedInput roles config = .ok (some queues)) :
    queues.base ∈ backTargets roles config ∧
      shadowTarget config queues.base ∈ backTargets roles config := by
  unfold drainedInput at h
  split at h
  · rename_i block hblock
    obtain ⟨base, hbase, h⟩ := bind_eq_ok.mp h
    obtain ⟨green, -, h⟩ := bind_eq_ok.mp h
    obtain ⟨blue, -, h⟩ := bind_eq_ok.mp h
    cases h
    have hname : block.bind (·.inputQueue) = some base := required_eq_ok.mp hbase
    simp [backTargets, hblock, hname]
  · cases h

theorem mem_backTargets_of_output (roles : List PluginRole) {config : QueueConfig D}
    {queues : DrainedQueues} (h : drainedOutput config = .ok queues) :
    queues.base ∈ backTargets roles config ∧
      shadowTarget config queues.base ∈ backTargets roles config := by
  obtain ⟨green, -, h⟩ := bind_eq_ok.mp h
  obtain ⟨blue, -, h⟩ := bind_eq_ok.mp h
  obtain ⟨base, hbase, h⟩ := bind_eq_ok.mp h
  cases h
  have hname : config.combiner.bind (·.outputQueue) = some base := required_eq_ok.mp hbase
  simp [backTargets, hname]

/-- The calls of a drain: it sends messages to where they go back to, and counts nothing. -/
def MovesBack (targets : List String) : InceptorCall P → Prop
  | .mode => True
  | .setDraining => True
  | .connect => True
  | .disconnect => True
  | .ensureQueue _ => True
  | .receive _ => True
  | .work (.publish queue _) => queue ∈ targets
  | .work _ => True
  | _ => False

theorem MovesBack.fresh [DecidableEq P] {place : String → P} {c : InceptorCall P}
    (hc : MovesBack targets c) {x : InceptorMemory P} (hx : x.Fresh) (w : InceptorWorld P)
    (o : InceptorOutcome) : (w.serve place x o c).2.2.Fresh := by
  have hhandles : c.Handles → (w.serve place x o c).2.2.Fresh :=
    fun hc => (InceptorWorld.serve_untouched hc).fresh hx
  cases c with
  | mode => exact hx
  | setDraining => exact hx
  | connect => exact hx
  | ensureQueue queue => exact hx
  | disconnect => exact hhandles trivial
  | receive source => exact hhandles trivial
  | work c => exact hhandles trivial
  | _ => exact hc.elim

theorem movesBack_ensureQueue {queue : String} :
    (ensureQueue queue : InceptorOp P Unit).Calls (MovesBack targets) :=
  (Prog.Calls.of_ask.mpr trivial).bind fun r => Prog.Calls.of_ofExcept r

theorem movesBack_receive (place : P) :
    (receive place : InceptorOp P (Option Message)).Calls (MovesBack targets) :=
  (Prog.Calls.of_ask.mpr trivial).bind fun r => Prog.Calls.of_ofExcept r

theorem movesBack_publishTo {target : String} (ht : target ∈ targets) (message : Message) :
    (WorkerOp.run (publishTo message target) : InceptorOp P Unit).Calls (MovesBack targets) := by
  refine Prog.Calls.lift ?_
  show (Prog.bind (Prog.ask (WorkCall.publish target message)) _).Calls _
  exact Prog.Calls.bind (Prog.Calls.of_ask.mpr ht) fun r => Prog.Calls.of_ofExcept r

theorem movesBack_ack : (WorkerOp.run ack : InceptorOp P Unit).Calls (MovesBack targets) :=
  Prog.Calls.lift ((Prog.Calls.of_ask.mpr trivial).bind fun r => Prog.Calls.of_ofExcept r)

theorem movesBack_requeue :
    (WorkerOp.run requeue : InceptorOp P Unit).Calls (MovesBack targets) :=
  Prog.Calls.lift ((Prog.Calls.of_ask.mpr trivial).bind fun r => Prog.Calls.of_ofExcept r)

theorem calls_logged {α : Type} {F : InceptorCall P → Prop} {p : InceptorOp P α} (hp : p.Calls F) :
    p.logged.Calls F := hp.result.bind fun _ => trivial

end Moves

/-! ## The queues of the status -/

section Status

variable {D : Type} {roles : List PluginRole} {config : QueueConfig D}

/-- An inceptor that moves input has the temporary queues of that block only. -/
theorem managedTempQueueNames_of_input {worker : Option QueueWorkerRole}
    (h : queueWorkerRole roles = .ok worker) {block : Option InputRoleConfig}
    (hblock : inputBlock roles config = some block) :
    managedTempQueueNames roles config = (block.map (·.tempQueues)).getD [] := by
  have hcount : ¬ 1 < (([.duplicator, .splitter, .combiner, .consumer] : List PluginRole).filter
      fun role => role ∈ roles).length := by
    intro hlength
    simp [queueWorkerRole, hlength] at h
  by_cases hduplicator : PluginRole.duplicator ∈ roles
  · have hsplitter : PluginRole.splitter ∉ roles := fun hs => hcount (by
      simp [List.filter_cons, hduplicator, hs])
    have hcombiner : PluginRole.combiner ∉ roles := fun hc => hcount (by
      simp [List.filter_cons, hduplicator, hsplitter, hc])
    simp only [inputBlock, hasRole, hduplicator, decide_true, if_true, Option.some.injEq] at hblock
    simp [managedTempQueueNames, managedRoles, hasRole, hduplicator, hsplitter,
      hcombiner, QueueConfig.tempQueues, hblock]
  · by_cases hsplitter : PluginRole.splitter ∈ roles
    · have hcombiner : PluginRole.combiner ∉ roles := fun hc => hcount (by
        simp [List.filter_cons, hduplicator, hsplitter, hc])
      simp only [inputBlock, hasRole, hduplicator, hsplitter, decide_true, decide_false, if_true,
        Bool.false_eq_true, if_false, Option.some.injEq] at hblock
      simp [managedTempQueueNames, managedRoles, hasRole, hduplicator, hsplitter,
        hcombiner, QueueConfig.tempQueues, hblock]
    · simp [inputBlock, hasRole, hduplicator, hsplitter] at hblock

theorem managedTempQueueNames_of_no_input (hblock : inputBlock roles config = none) :
    managedTempQueueNames roles config =
      if hasRole roles .combiner then (config.combiner.map (·.tempQueues)).getD [] else [] := by
  by_cases hduplicator : PluginRole.duplicator ∈ roles
  · simp [inputBlock, hasRole, hduplicator] at hblock
  · by_cases hsplitter : PluginRole.splitter ∈ roles
    · simp [inputBlock, hasRole, hduplicator, hsplitter] at hblock
    · by_cases hcombiner : PluginRole.combiner ∈ roles
      · simp [managedTempQueueNames, managedRoles, hasRole, hduplicator,
          hsplitter, hcombiner, QueueConfig.tempQueues]
      · simp [managedTempQueueNames, managedRoles, hasRole, hduplicator,
          hsplitter, hcombiner]

/-- **The queues a drain status is about** are all the temporary queues there are. -/
theorem managedTempQueueNames_of_status {worker : Option QueueWorkerRole}
    (h : queueWorkerRole roles = .ok worker) {label green blue : String}
    (hs : statusQueues roles config = .ok (some (label, green, blue))) :
    managedTempQueueNames roles config = [green, blue] := by
  unfold statusQueues at hs
  split at hs
  · rename_i block hblock
    obtain ⟨g, hg, hs⟩ := bind_eq_ok.mp hs
    obtain ⟨b, hb, hs⟩ := bind_eq_ok.mp hs
    cases hs
    rw [managedTempQueueNames_of_input h hblock]
    cases block with
    | none => simp [required] at hg
    | some block =>
      have hgreen : block.greenInputQueue = some green := required_eq_ok.mp hg
      have hblue : block.blueInputQueue = some blue := required_eq_ok.mp hb
      simp [InputRoleConfig.tempQueues, hgreen, hblue]
  · rename_i hblock
    split at hs
    · rename_i hcombiner
      obtain ⟨g, hg, hs⟩ := bind_eq_ok.mp hs
      obtain ⟨b, hb, hs⟩ := bind_eq_ok.mp hs
      cases hs
      rw [managedTempQueueNames_of_no_input hblock, if_pos hcombiner]
      cases hconfig : config.combiner with
      | none => simp [required, hconfig] at hg
      | some block =>
        rw [hconfig] at hg hb
        have hgreen : block.greenOutputQueue = some green := required_eq_ok.mp hg
        have hblue : block.blueOutputQueue = some blue := required_eq_ok.mp hb
        simp [CombinerConfig.tempQueues, hgreen, hblue]
    · cases hs

/-- Without a drain-sensitive role there are none. -/
theorem managedTempQueueNames_of_no_status (hs : statusQueues roles config = .ok none) :
    managedTempQueueNames roles config = [] := by
  unfold statusQueues at hs
  split at hs
  · obtain ⟨g, -, hs⟩ := bind_eq_ok.mp hs
    obtain ⟨b, -, hs⟩ := bind_eq_ok.mp hs
    cases hs
  · rename_i hblock
    split at hs
    · obtain ⟨g, -, hs⟩ := bind_eq_ok.mp hs
      obtain ⟨b, -, hs⟩ := bind_eq_ok.mp hs
      cases hs
    · rename_i hcombiner
      rw [managedTempQueueNames_of_no_input hblock, if_neg hcombiner]

end Status

end FluidBG
