import FluidBG.Plugins.Sample
import FluidBG.Proof.Acknowledgement
import FluidBG.Proof.DrainBarrier
/-!
# The drain barrier of RabbitMQ

The RabbitMQ inceptor keeps no account of what its workers hold. An input worker does not look at
the mode again after `basic_get`, so a delivery that it took before the drain is published whenever
it gets to it; and without the management API a status call does not see what is unacknowledged. The
barrier holds in the runs in which neither matters.
-/

set_option autoImplicit false

namespace FluidBG

open Lib

namespace Rabbitmq

/-- The temporary queues of the inceptor, and their shadows. -/
def tempQueues (roles : List PluginRole) (config : Config) : List String :=
  withShadows config (managedTempQueueNames roles config)

/-- The inceptor has a worker that moves messages from a base queue to temporary queues. -/
def movesInput (roles : List PluginRole) : Bool :=
  match queueWorkerRole roles with
  | .ok (some .input) => true
  | _ => false

abbrev AmqpMemory := InceptorMemory String

abbrev AmqpWorld := InceptorWorld String

abbrev amqpProcess : Shared (InceptorCall String) InceptorAnswer AmqpMemory AmqpWorld
    InceptorOutcome (BrokerMove String Message) := inceptorProcess id

/-- The thread found the inceptor active when it last looked, and holds a delivery. -/
def Holds (x : AmqpMemory) : Prop := x.looked = some .active ∧ x.receipt ≠ none

instance (x : AmqpMemory) : Decidable (Holds x) :=
  inferInstanceAs (Decidable (x.looked = some .active ∧ x.receipt ≠ none))

/-- **What the barrier needs of the steps of a run.** No application sends to a queue that was
counted, and no message is moved back into a temporary queue. When a status call counts, no input
worker holds a delivery, and when it counts without the management API, nothing in the queue is
unacknowledged. Once it has counted a queue as empty, no input worker takes a delivery on a look at
the mode from before the drain. -/
def barrier (input : Bool) (temp targets : List String) :
    Watch (InceptorCall String) AmqpMemory AmqpWorld InceptorOutcome
      (BrokerMove String Message) where
  call others x w c o := match c with
    | .depth _ => x.asked → input = true → ∀ y ∈ others, ¬ Holds y
    | .queueState queue =>
      x.asked → (input = true → ∀ y ∈ others, ¬ Holds y) ∧ w.broker.held queue = 0
    | .receive source => input = true → x.looked = some .active → o.call = .ok →
        (w.broker.take source).isSome → w.drained = false ∧ ∀ y ∈ others, y.asked → y.counted = []
    | .work (.publish queue _) => queue ∈ targets → queue ∉ temp
    | _ => True
  move all w v := ∀ queue, v.arrival = some queue → ¬ Covered temp w all queue

/-- Where a thread may make which call. -/
def AmqpMay (input : Bool) (temp targets : List String) (x : AmqpMemory) :
    InceptorCall String → Prop
  | .mode => x.Fresh
  | .track => False
  | .release => False
  | .inFlight => False
  | .depth places => ∀ queue ∈ places, queue ∈ temp
  | .queueState queue => queue ∈ temp
  | .work (.publish queue _) => (input = true ∧ Holds x) ∨ queue ∈ targets
  | .respond status => status.drained = true → ∀ queue ∈ temp, queue ∈ x.counted
  | _ => True

/-- No input worker holds a delivery. -/
def Idle (input : Bool) (xs : List AmqpMemory) : Prop := input = true → ∀ x ∈ xs, ¬ Holds x

/-- **The invariant.** What a status call has counted stays empty, as no input worker holds a
delivery any more. -/
structure Barred (input : Bool) (temp : List String) (w : AmqpWorld) (xs : List AmqpMemory) :
    Prop where
  draining : ∀ x ∈ xs, x.asked → w.mode = .draining
  counted : ∀ x ∈ xs, ∀ queue ∈ x.counted, queue ∈ temp
  closed : ∀ x ∈ xs, x.asked → ∀ queue ∈ x.counted, Idle input xs ∧ w.broker.Empty queue
  drained : w.drained = true → w.mode = .draining ∧
    ∀ queue ∈ temp, Idle input xs ∧ w.broker.Empty queue

section Steps

variable {input : Bool} {temp targets : List String} {w w' : AmqpWorld} {xs : List AmqpMemory}
  {x x' : AmqpMemory} {i : Nat}

theorem Idle.set (h : Idle input xs) (hx : input = true → ¬ Holds x') :
    Idle input (xs.set i x') := by
  intro hinput y hy
  rcases List.mem_or_eq_of_mem_set hy with hy | rfl
  · exact h hinput y hy
  · exact hx hinput

/-- A thread that has been asked to drain does not count as one that holds a delivery. -/
theorem not_holds_of_asked (h : x.asked) : ¬ Holds x := by
  rintro ⟨hactive, -⟩
  unfold InceptorMemory.asked at h
  rw [h] at hactive
  cases hactive

/-- Fewer threads are no harm. -/
theorem Barred.subset {ys : List AmqpMemory} (h : Barred input temp w xs)
    (hsub : ∀ y ∈ ys, y ∈ xs) : Barred input temp w ys where
  draining y hy := h.draining y (hsub y hy)
  counted y hy := h.counted y (hsub y hy)
  closed y hy hasked queue hqueue :=
    ⟨fun hinput z hz => (h.closed y (hsub y hy) hasked queue hqueue).1 hinput z (hsub z hz),
      (h.closed y (hsub y hy) hasked queue hqueue).2⟩
  drained hdrained :=
    ⟨(h.drained hdrained).1, fun queue hqueue =>
      ⟨fun hinput z hz => ((h.drained hdrained).2 queue hqueue).1 hinput z (hsub z hz),
        ((h.drained hdrained).2 queue hqueue).2⟩⟩

theorem Barred.start (h : Barred input temp w xs) : Barred input temp w (xs ++ [.start]) := by
  have hidle : Idle input xs → Idle input (xs ++ [.start]) := by
    intro hi hinput y hy
    rcases List.mem_append.mp hy with hy | hy
    · exact hi hinput y hy
    · rw [List.mem_singleton.mp hy]
      rintro ⟨hactive, -⟩
      cases hactive
  constructor
  · intro y hy hasked
    rcases List.mem_append.mp hy with hy | hy
    · exact h.draining y hy hasked
    · rw [List.mem_singleton.mp hy] at hasked
      cases hasked
  · intro y hy queue hqueue
    rcases List.mem_append.mp hy with hy | hy
    · exact h.counted y hy queue hqueue
    · rw [List.mem_singleton.mp hy] at hqueue
      cases hqueue
  · intro y hy hasked queue hqueue
    rcases List.mem_append.mp hy with hy | hy
    · exact ⟨hidle (h.closed y hy hasked queue hqueue).1, (h.closed y hy hasked queue hqueue).2⟩
    · rw [List.mem_singleton.mp hy] at hqueue
      cases hqueue
  · intro hdrained
    obtain ⟨hmode, hqueues⟩ := h.drained hdrained
    exact ⟨hmode, fun queue hqueue => ⟨hidle (hqueues queue hqueue).1, (hqueues queue hqueue).2⟩⟩

/-- A step that fills no temporary queue and gives no delivery to an input worker. -/
theorem Barred.untouched (h : Barred input temp w xs) (hx : xs[i]? = some x)
    (hu : Untouched w w' x x') (hholds : input = true → Holds x' → Holds x)
    (hempty : ∀ queue ∈ temp, w.broker.Empty queue → w'.broker.Empty queue) :
    Barred input temp w' (xs.set i x') := by
  have hmem : x ∈ xs := List.mem_of_getElem? hx
  have hidle : Idle input xs → Idle input (xs.set i x') :=
    fun hi => hi.set fun hinput hx' => hi hinput x hmem (hholds hinput hx')
  have hasked' : x'.asked → x.asked := by
    intro hasked
    unfold InceptorMemory.asked at hasked ⊢
    rw [← hu.looked]
    exact hasked
  constructor
  · rw [hu.mode]
    intro y hy hasked
    rcases List.mem_or_eq_of_mem_set hy with hy | rfl
    · exact h.draining y hy hasked
    · exact h.draining x hmem (hasked' hasked)
  · intro y hy queue hqueue
    rcases List.mem_or_eq_of_mem_set hy with hy | rfl
    · exact h.counted y hy queue hqueue
    · rw [hu.counted] at hqueue
      exact h.counted x hmem queue hqueue
  · intro y hy hasked queue hqueue
    rcases List.mem_or_eq_of_mem_set hy with hy | rfl
    · obtain ⟨hi, he⟩ := h.closed y hy hasked queue hqueue
      exact ⟨hidle hi, hempty queue (h.counted y hy queue hqueue) he⟩
    · rw [hu.counted] at hqueue
      obtain ⟨hi, he⟩ := h.closed x hmem (hasked' hasked) queue hqueue
      exact ⟨hidle hi, hempty queue (h.counted x hmem queue hqueue) he⟩
  · rw [hu.drained, hu.mode]
    intro hdrained
    obtain ⟨hmode, hqueues⟩ := h.drained hdrained
    exact ⟨hmode, fun queue hqueue => ⟨hidle (hqueues queue hqueue).1,
      hempty queue hqueue (hqueues queue hqueue).2⟩⟩

/-- An input worker takes a delivery, while nothing has been counted since the drain. -/
theorem Barred.take (h : Barred input temp w xs) (hx : xs[i]? = some x)
    (hactive : x.looked = some .active)
    (hopen : w.drained = false ∧ ∀ y ∈ xs.eraseIdx i, y.asked → y.counted = [])
    {broker : Broker String Message} {receipt : Option Nat} :
    Barred input temp { w with broker := broker } (xs.set i { x with receipt := receipt }) := by
  have hmem : x ∈ xs := List.mem_of_getElem? hx
  have hnot : ¬ x.asked := fun hasked => by
    unfold InceptorMemory.asked at hasked
    rw [hactive] at hasked
    cases hasked
  constructor
  · intro y hy hasked
    rcases List.mem_or_eq_of_mem_set hy with hy | rfl
    · exact h.draining y hy hasked
    · exact absurd hasked hnot
  · intro y hy queue hqueue
    rcases List.mem_or_eq_of_mem_set hy with hy | rfl
    · exact h.counted y hy queue hqueue
    · exact h.counted x hmem queue hqueue
  · intro y hy hasked queue hqueue
    obtain ⟨j, hj⟩ := List.mem_iff_getElem?.mp hy
    rw [List.getElem?_set] at hj
    by_cases hij : i = j
    · rw [if_pos hij] at hj
      split at hj
      · cases hj
        exact absurd hasked hnot
      · simp at hj
    · rw [if_neg hij] at hj
      have hother : y ∈ xs.eraseIdx i :=
        List.mem_eraseIdx_iff_getElem?.mpr ⟨j, fun h => hij h.symm, hj⟩
      rw [hopen.2 y hother hasked] at hqueue
      cases hqueue
  · intro hdrained
    have hfalse : w.drained = false := hopen.1
    have htrue : w.drained = true := hdrained
    rw [hfalse] at htrue
    cases htrue

/-- A thread looks at the mode. While the inceptor is draining, none finds it active. -/
theorem Barred.look (h : Barred input temp w xs) (hfresh : x.Fresh) {cleared : Bool} :
    Barred input temp w (xs.set i { x with looked := some w.mode, cleared := cleared }) := by
  have hidle : w.mode = .draining → Idle input xs → Idle input (xs.set i
      { x with looked := some w.mode, cleared := cleared }) := by
    intro hmode hi
    refine hi.set fun _ hx' => ?_
    have hactive : some w.mode = some RuntimeMode.active := hx'.1
    rw [hmode] at hactive
    cases hactive
  constructor
  · intro y hy hasked
    rcases List.mem_or_eq_of_mem_set hy with hy | rfl
    · exact h.draining y hy hasked
    · exact Option.some.inj hasked
  · intro y hy queue hqueue
    rcases List.mem_or_eq_of_mem_set hy with hy | rfl
    · exact h.counted y hy queue hqueue
    · simp [hfresh.1] at hqueue
  · intro y hy hasked queue hqueue
    rcases List.mem_or_eq_of_mem_set hy with hy | rfl
    · obtain ⟨hi, he⟩ := h.closed y hy hasked queue hqueue
      exact ⟨hidle (h.draining y hy hasked) hi, he⟩
    · simp [hfresh.1] at hqueue
  · intro hdrained
    obtain ⟨hmode, hqueues⟩ := h.drained hdrained
    exact ⟨hmode, fun queue hqueue => ⟨hidle hmode (hqueues queue hqueue).1,
      (hqueues queue hqueue).2⟩⟩

/-- The drain is requested. -/
theorem Barred.setDraining (h : Barred input temp w xs) :
    Barred input temp { w with mode := .draining } xs where
  draining _ _ _ := rfl
  counted := h.counted
  closed := h.closed
  drained hdrained := ⟨rfl, (h.drained hdrained).2⟩

/-- **A status call counts** some queues as empty, while no input worker holds a delivery. -/
theorem Barred.count (h : Barred input temp w xs) (hx : xs[i]? = some x) {queues : List String}
    (hqueues : ∀ queue ∈ queues, queue ∈ temp)
    (hclosed : x.asked → (input = true → ∀ y ∈ xs.eraseIdx i, ¬ Holds y) ∧
      ∀ queue ∈ queues, w.broker.Empty queue) :
    Barred input temp w (xs.set i { x with counted := queues ++ x.counted }) := by
  have hmem : x ∈ xs := List.mem_of_getElem? hx
  have hidle : Idle input xs → Idle input (xs.set i { x with counted := queues ++ x.counted }) :=
    fun hi => hi.set fun hinput => hi hinput x hmem
  constructor
  · intro y hy hasked
    rcases List.mem_or_eq_of_mem_set hy with hy | rfl
    · exact h.draining y hy hasked
    · exact h.draining x hmem hasked
  · intro y hy queue hqueue
    rcases List.mem_or_eq_of_mem_set hy with hy | rfl
    · exact h.counted y hy queue hqueue
    · rcases List.mem_append.mp hqueue with hqueue | hqueue
      · exact hqueues queue hqueue
      · exact h.counted x hmem queue hqueue
  · intro y hy hasked queue hqueue
    rcases List.mem_or_eq_of_mem_set hy with hy | rfl
    · exact ⟨hidle (h.closed y hy hasked queue hqueue).1, (h.closed y hy hasked queue hqueue).2⟩
    · rcases List.mem_append.mp hqueue with hqueue | hqueue
      · refine ⟨?_, (hclosed hasked).2 queue hqueue⟩
        refine hidle fun hinput z hz => ?_
        -- the status call itself holds nothing as a worker
        obtain ⟨j, hj⟩ := List.mem_iff_getElem?.mp hz
        by_cases hij : j = i
        · subst hij
          rw [hx] at hj
          cases hj
          exact not_holds_of_asked hasked
        · exact (hclosed hasked).1 hinput z (List.mem_eraseIdx_iff_getElem?.mpr ⟨j, hij, hj⟩)
      · exact ⟨hidle (h.closed x hmem hasked queue hqueue).1,
          (h.closed x hmem hasked queue hqueue).2⟩
  · intro hdrained
    obtain ⟨hmode, hall⟩ := h.drained hdrained
    exact ⟨hmode, fun queue hqueue => ⟨hidle (hall queue hqueue).1, (hall queue hqueue).2⟩⟩

/-- **The status is answered.** -/
theorem Barred.respond (h : Barred input temp w xs) (hx : x ∈ xs)
    {status : PluginDrainStatusResponse}
    (hmay : status.drained = true → ∀ queue ∈ temp, queue ∈ x.counted) :
    Barred input temp
      { w with drained := w.drained || (status.drained && x.looked = some .draining) } xs where
  draining := h.draining
  counted := h.counted
  closed := h.closed
  drained hdrained := by
    simp only [Bool.or_eq_true, Bool.and_eq_true, decide_eq_true_eq] at hdrained
    rcases hdrained with hdrained | ⟨hstatus, hasked⟩
    · exact h.drained hdrained
    · exact ⟨h.draining x hx hasked, fun queue hqueue =>
        h.closed x hx hasked queue (hmay hstatus queue hqueue)⟩

/-- An input worker publishes the delivery that it holds: nothing can have been counted yet. -/
theorem Barred.publish (h : Barred input temp w xs) (hx : x ∈ xs) (hinput : input = true)
    (hholds : Holds x) (broker : Broker String Message) :
    Barred input temp { w with broker := broker } xs where
  draining := h.draining
  counted := h.counted
  closed y hy hasked queue hqueue :=
    absurd hholds ((h.closed y hy hasked queue hqueue).1 hinput x hx)
  drained hdrained :=
    ⟨(h.drained hdrained).1, fun queue hqueue =>
      absurd hholds (((h.drained hdrained).2 queue hqueue).1 hinput x hx)⟩

/-- Others move messages, but not to a queue that was counted. -/
theorem Barred.move (h : Barred input temp w xs) {v : BrokerMove String Message}
    {broker : Broker String Message} (hmove : w.broker.move v = some broker)
    (hv : ∀ queue, v.arrival = some queue → ¬ Covered temp w xs queue) :
    Barred input temp { w with broker := broker } xs where
  draining := h.draining
  counted := h.counted
  closed y hy hasked queue hqueue :=
    ⟨(h.closed y hy hasked queue hqueue).1, (h.closed y hy hasked queue hqueue).2.move
      (fun harrival => hv queue harrival (.inl ⟨y, hy, hasked, hqueue⟩)) hmove⟩
  drained hdrained :=
    ⟨(h.drained hdrained).1, fun queue hqueue => ⟨((h.drained hdrained).2 queue hqueue).1,
      ((h.drained hdrained).2 queue hqueue).2.move
        (fun harrival => hv queue harrival (.inr ⟨hdrained, hqueue⟩)) hmove⟩⟩

/-- A call other than `receive` leaves a delivery with nobody who did not hold one. -/
theorem holds_of_serve {c : InceptorCall String} (hc : c.Handles)
    (hnot : ∀ source, c ≠ .receive source) {o : InceptorOutcome}
    (h : Holds (w.serve id x o c).2.2) : Holds x := by
  have hu : Untouched w _ x (w.serve id x o c).2.2 := InceptorWorld.serve_untouched hc
  refine ⟨hu.looked ▸ h.1, fun hnone => h.2 ?_⟩
  cases c with
  | connect => exact hnone
  | ensureQueue queue => exact hnone
  | disconnect =>
    simp only [InceptorWorld.serve, hnone]
  | receive source => exact absurd rfl (hnot source)
  | work c =>
    cases c with
    | ack => simp only [InceptorWorld.serve, serveWork, hnone]
    | requeue => simp only [InceptorWorld.serve, serveWork, hnone]
    | _ => exact hnone
  | _ => exact hc.elim

/-- **A call of a thread** keeps the invariant, where the thread may make it and the barrier
holds. -/
theorem Barred.call (h : Barred input temp w xs) (hx : xs[i]? = some x) {c : InceptorCall String}
    {o : InceptorOutcome} (hmay : AmqpMay input temp targets x c)
    (hguard : (barrier input temp targets).call (xs.eraseIdx i) x w c o) :
    Barred input temp (w.serve id x o c).2.1 (xs.set i (w.serve id x o c).2.2) := by
  have hmem : x ∈ xs := List.mem_of_getElem? hx
  have hself : xs.set i x = xs := by
    obtain ⟨hi, rfl⟩ := List.getElem?_eq_some_iff.mp hx
    exact List.set_getElem_self hi
  have hhandles : c.Handles → (∀ source, c ≠ .receive source) →
      (∀ queue, c.sendsTo = some queue → queue ∉ temp) →
      Barred input temp (w.serve id x o c).2.1 (xs.set i (w.serve id x o c).2.2) := by
    intro hc hnot hsends
    refine h.untouched hx (InceptorWorld.serve_untouched hc) (fun _ => holds_of_serve hc hnot)
      fun queue hqueue hempty => ?_
    refine InceptorWorld.serve_empty hempty c fun queue' hqueue' heq => ?_
    have hsame : queue' = queue := heq
    exact hsends queue' hqueue' (hsame ▸ hqueue)
  cases c with
  | mode => exact h.look hmay
  | setDraining =>
    show Barred input temp { w with mode := .draining } (xs.set i x)
    rw [hself]
    exact h.setDraining
  | track => exact hmay.elim
  | release => exact hmay.elim
  | inFlight => exact hmay.elim
  | depth places =>
    simp only [InceptorWorld.serve, InceptorMemory.found]
    split
    · rename_i hzero
      exact h.count hx hmay fun hasked => ⟨hguard hasked, depthOf_eq_zero hzero.2⟩
    · rw [hself]
      exact h
  | queueState queue =>
    simp only [InceptorWorld.serve, InceptorMemory.found]
    split
    · rename_i hzero
      refine h.count hx (fun queue' hqueue' => ?_) fun hasked => ?_
      · rw [List.mem_singleton.mp hqueue']
        exact hmay
      · obtain ⟨hidle, hheld⟩ := hguard hasked
        refine ⟨hidle, fun queue' hqueue' => ?_⟩
        rw [List.mem_singleton.mp hqueue']
        exact Broker.empty_iff.mpr ⟨hzero.2, hheld⟩
    · rw [hself]
      exact h
  | respond status =>
    simp only [InceptorWorld.serve]
    rw [hself]
    exact h.respond hmem hmay
  | receive source =>
    have hfills : ∀ queue ∈ temp, w.broker.Empty queue →
        (w.serve id x o (.receive source)).2.1.broker.Empty queue :=
      fun queue _ hempty => InceptorWorld.serve_empty hempty _ fun queue' hqueue' => by
        cases hqueue'
    have hu : Untouched w (w.serve id x o (.receive source)).2.1 x
        (w.serve id x o (.receive source)).2.2 := InceptorWorld.serve_untouched trivial
    by_cases hworker : input = true ∧ x.looked = some .active ∧ o.call = .ok ∧
        (w.broker.take source).isSome
    · obtain ⟨hinput, hactive, hok, hsome⟩ := hworker
      have hopen := hguard hinput hactive hok hsome
      obtain ⟨⟨receipt, message, broker⟩, htake⟩ := Option.isSome_iff_exists.mp hsome
      simp only [InceptorWorld.serve, htake]
      exact h.take hx hactive hopen
    · refine h.untouched hx hu (fun hinput hholds => ?_) hfills
      -- no delivery is handed to an input worker
      have hactive : x.looked = some .active := hu.looked ▸ hholds.1
      refine ⟨hactive, fun hnone => hholds.2 ?_⟩
      cases htake : w.broker.take source with
      | none =>
        simp only [InceptorWorld.serve, htake]
        exact hnone
      | some taken =>
        obtain ⟨receipt, message, broker⟩ := taken
        have hnotok : o.call ≠ .ok := fun hok => hworker ⟨hinput, hactive, hok, by simp [htake]⟩
        simp only [InceptorWorld.serve, htake, if_neg hnotok]
        exact hnone
  | work c =>
    cases c with
    | publish queue message =>
      rcases hmay with ⟨hinput, hholds⟩ | htarget
      · simp only [InceptorWorld.serve, serveWork]
        rw [hself]
        exact h.publish hmem hinput hholds _
      · refine hhandles trivial (fun source heq => by cases heq) fun queue' hqueue => ?_
        cases hqueue
        exact hguard htarget
    | _ =>
      exact hhandles trivial (fun source heq => by cases heq) fun queue hqueue => by cases hqueue
  | connect =>
    exact hhandles trivial (fun source heq => by cases heq) fun queue hqueue => by cases hqueue
  | disconnect =>
    exact hhandles trivial (fun source heq => by cases heq) fun queue hqueue => by cases hqueue
  | ensureQueue queue =>
    exact hhandles trivial (fun source heq => by cases heq) fun queue hqueue => by cases hqueue

/-- **The steps of an inceptor keep the invariant.** -/
theorem barred_keeps (memory : InceptorJob → AmqpMemory) (hmemory : ∀ job, memory job = .start) :
    Pool.Keeps amqpProcess (barrier input temp targets) (AmqpMay input temp targets) memory
      (Barred input temp) where
  start w xs job h := by
    rw [hmemory]
    exact h.start
  stop w xs i h := h.subset fun y hy => List.mem_of_mem_eraseIdx hy
  move w xs v w' h hguard hmove := by
    obtain ⟨broker, hbroker, rfl⟩ := Option.map_eq_some_iff.mp hmove
    exact h.move hbroker hguard
  call w xs i x c o a w' x' h hx hmay hguard hserve := by
    have hpair := Option.some.inj hserve
    have hw : w' = (w.serve id x o c).2.1 := by rw [hpair]
    have hx' : x' = (w.serve id x o c).2.2 := by rw [hpair]
    rw [hw, hx']
    exact h.call hx hmay hguard

end Steps

/-! ### The programs -/

section Programs

variable {input : Bool} {temp targets : List String} {x : AmqpMemory}

/-- The protocol of the threads of an inceptor. -/
abbrev AmqpOp.Follows {α : Type} (input : Bool) (temp targets : List String)
    (Q : α → AmqpMemory → Prop) (p : AmqpOp α) (x : AmqpMemory) : Prop :=
  Pool.Follows amqpProcess (AmqpMay input temp targets) Q p x

/-- A drain may be made by every thread that has counted nothing. -/
theorem follows_back {α : Type} {p : AmqpOp α} (hp : p.Calls (MovesBack targets)) (hx : x.Fresh) :
    AmqpOp.Follows input temp targets (fun _ => InceptorMemory.Fresh) p x := by
  refine Pool.Follows.of_calls hp hx ?_ ?_
  · intro x c hc hfresh
    cases c with
    | mode => exact hfresh
    | work c =>
      cases c with
      | publish queue message => exact .inr hc
      | _ => trivial
    | track => exact hc.elim
    | release => exact hc.elim
    | inFlight => exact hc.elim
    | depth places => exact hc.elim
    | queueState queue => exact hc.elim
    | respond status => exact hc.elim
    | _ => trivial
  · intro x w c o a w' x' hc hfresh hserve
    have hx' : x' = (w.serve id x o c).2.2 := by rw [Option.some.inj hserve]
    rw [hx']
    exact hc.fresh hfresh w o

theorem follows_runtimeMode (hx : x.Fresh) : AmqpOp.Follows input temp targets
    (fun mode x' => x'.Fresh ∧ x'.looked = some mode) runtimeMode x := by
  refine Pool.Follows.call hx fun w o mode w' x' hserve => ?_
  cases hserve
  exact ⟨hx, rfl⟩

/-- What is known of a thread on a connection of its own is known when the connection is dropped. -/
theorem follows_withConnection {α : Type} {p : AmqpOp α} {Q : α → AmqpMemory → Prop} (hx : x.Fresh)
    (hp : ∀ x, x.Fresh → AmqpOp.Follows input temp targets Q p x)
    (hQ : ∀ a x, Q a x → Q a { x with receipt := none }) :
    AmqpOp.Follows input temp targets Q (withConnection p) x := by
  have hconnect : (connect : AmqpOp Unit).Calls (MovesBack targets) :=
    Prog.Calls.bind (Prog.Calls.of_ask.mpr trivial) fun r => Prog.Calls.of_ofExcept r
  refine (follows_back hconnect hx).bind fun _ x₁ hx₁ => ?_
  refine Pool.Follows.bind (R := fun r x => ∀ a, r = .ok a → Q a x) ?_ fun r x₂ hx₂ => ?_
  · refine Outside.Spec.result ((hp x₁ hx₁).mono (fun a x hQ a' heq => ?_) fun e x _ a heq => ?_)
    · cases heq
      exact hQ
    · cases heq
  · refine Pool.Follows.bind (R := fun _ x => ∀ a, r = .ok a → Q a x) ?_ fun _ x₃ hx₃ => ?_
    · refine Pool.Follows.call trivial fun w o _ w' x' hserve a heq => ?_
      have hx' : x' = (w.serve id x₂ o .disconnect).2.2 := by rw [Option.some.inj hserve]
      rw [hx']
      simp only [InceptorWorld.serve]
      split
      · exact hQ a x₂ (hx₂ a heq)
      · exact hx₂ a heq
    · cases r with
      | ok a => exact hx₃ a rfl
      | error e => trivial

theorem movesBack_withConnection {α : Type} {p : AmqpOp α} (hp : p.Calls (MovesBack targets)) :
    (withConnection p).Calls (MovesBack targets) := by
  refine Prog.Calls.bind ?_ fun _ => hp.result.bind fun r => ?_
  · exact Prog.Calls.bind (Prog.Calls.of_ask.mpr trivial) fun r => Prog.Calls.of_ofExcept r
  · exact Prog.Calls.bind (Prog.Calls.of_ask.mpr trivial) fun _ => Prog.Calls.of_ofExcept r

theorem movesBack_moveQueueMessages {source target : String} (ht : target ∈ targets)
    (moves : Nat) : (moveQueueMessages source target moves).Calls (MovesBack targets) := by
  induction moves with
  | zero => trivial
  | succ moves ih =>
    refine (movesBack_receive source).bind fun message => ?_
    cases message with
    | none => trivial
    | some message =>
      exact (movesBack_publishTo ht message).bind fun _ => movesBack_ack.bind fun _ => ih

theorem movesBack_drainQueue {state : WorkerState Config} {base : String} (hbase : base ∈ targets)
    (hshadow : shadowTarget state.config base ∈ targets) (moves : Nat) (source : String) :
    (drainQueue state base moves source).Calls (MovesBack targets) := by
  refine (movesBack_moveQueueMessages hbase moves).bind fun _ => ?_
  cases shadowQueueName state.config source with
  | none => trivial
  | some shadow => exact movesBack_moveQueueMessages hshadow moves

theorem movesBack_declareShadow (state : WorkerState Config) (base : String) :
    (declareShadow state base).Calls (MovesBack targets) := by
  unfold declareShadow
  cases shadowQueueName state.config base with
  | none => trivial
  | some shadow => exact movesBack_ensureQueue

variable (infraDisabled : Bool) (state : WorkerState Config)

theorem movesBack_drainInputQueues (moves : Nat) :
    (drainInputQueues infraDisabled state moves).Calls
      (MovesBack (backTargets state.roles state.config)) := by
  unfold drainInputQueues
  cases hqueues : drainedInput state.roles state.config with
  | error e => trivial
  | ok queues =>
    cases queues with
    | none => trivial
    | some queues =>
      obtain ⟨hbase, hshadow⟩ := mem_backTargets_of_input hqueues
      have hdeclare : (if infraDisabled then pure () else declareShadow state queues.base).Calls
          (MovesBack (backTargets state.roles state.config)) := by
        cases infraDisabled with
        | true => trivial
        | false => exact movesBack_declareShadow state queues.base
      exact hdeclare.bind fun _ =>
        Prog.Calls.forEach fun source _ => movesBack_drainQueue hbase hshadow moves source

theorem movesBack_drainOutputQueue {source result : String}
    (hresult : result ∈ backTargets state.roles state.config)
    (hshadow : shadowTarget state.config result ∈ backTargets state.roles state.config)
    (moves : Nat) : (drainOutputQueue infraDisabled state moves source result).Calls
      (MovesBack (backTargets state.roles state.config)) := by
  refine movesBack_withConnection (Prog.Calls.bind ?_ fun _ =>
    movesBack_drainQueue hresult hshadow moves source)
  cases infraDisabled with
  | true => trivial
  | false => exact movesBack_ensureQueue.bind fun _ => movesBack_declareShadow state result

theorem movesBack_drainRuntimeQueues (moves : Nat) :
    (drainRuntimeQueues infraDisabled state moves).Calls
      (MovesBack (backTargets state.roles state.config)) := by
  refine Prog.Calls.bind ?_ fun _ => ?_
  · unfold drainInputRoles
    split
    · exact movesBack_withConnection (movesBack_drainInputQueues infraDisabled state moves)
    · trivial
  · unfold drainOutputQueues
    split
    · cases hqueues : drainedOutput state.config with
      | error e => trivial
      | ok queues =>
        obtain ⟨hbase, hshadow⟩ := mem_backTargets_of_output state.roles hqueues
        exact (movesBack_drainOutputQueue infraDisabled state hbase hshadow moves).bind fun _ =>
          movesBack_drainOutputQueue infraDisabled state hbase hshadow moves
    · trivial

end Programs

/-! ### The status -/

section Counting

variable {input : Bool} {temp targets : List String} {x : AmqpMemory}
  (management infraDisabled : Bool) (state : WorkerState Config)

/-- The queue and its shadow. -/
def shadowedQueues (config : Config) (queue : String) : List String :=
  queue :: (shadowQueueName config queue).toList

theorem follows_queueDepth {queue : String} (hqueue : queue ∈ temp) :
    AmqpOp.Follows input temp targets
      (fun depth => Tally x [queue] (depth.ready + depth.unacknowledged)) (queueDepth queue) x := by
  refine Pool.Follows.call (fun q hq => List.mem_singleton.mp hq ▸ hqueue)
    fun w o a w' x' hserve => ?_
  cases hserve
  cases hcall : o.call with
  | refused => trivial
  | lost => trivial
  | ok => exact Tally.of_found x [queue] _

theorem follows_queueState {queue : String} (hqueue : queue ∈ temp) :
    AmqpOp.Follows input temp targets (fun answer => Tally x [queue] answer.1) (queueState queue)
      x := by
  refine Pool.Follows.call hqueue fun w o a w' x' hserve => ?_
  cases hserve
  cases hcall : o.call with
  | refused => trivial
  | lost => trivial
  | ok => exact Tally.of_found x [queue] _

theorem follows_managementQueueDepthWithShadow {queue : String}
    (hqueues : ∀ q ∈ shadowedQueues state.config queue, q ∈ temp) :
    AmqpOp.Follows input temp targets
      (fun depth => Tally x (shadowedQueues state.config queue)
        (depth.ready + depth.unacknowledged)) (managementQueueDepthWithShadow state queue) x := by
  unfold shadowedQueues at hqueues ⊢
  refine (follows_queueDepth (hqueues queue (by simp))).bind fun depth x₁ hdepth => ?_
  cases hshadow : shadowQueueName state.config queue with
  | none => exact hdepth
  | some shadow =>
    refine (follows_queueDepth (hqueues shadow (by simp [hshadow]))).bind fun more x₂ hmore => ?_
    have hadd := hdepth.add hmore
    have hsum : depth.ready + depth.unacknowledged + (more.ready + more.unacknowledged) =
        depth.ready + more.ready + (depth.unacknowledged + more.unacknowledged) := by omega
    rw [hsum] at hadd
    exact hadd

theorem follows_queueStateWithShadow {queue : String}
    (hqueues : ∀ q ∈ shadowedQueues state.config queue, q ∈ temp) :
    AmqpOp.Follows input temp targets
      (fun answer => Tally x (shadowedQueues state.config queue) answer.1)
      (queueStateWithShadow state queue) x := by
  unfold shadowedQueues at hqueues ⊢
  refine (follows_queueState (hqueues queue (by simp))).bind fun answer x₁ hanswer => ?_
  cases hshadow : shadowQueueName state.config queue with
  | none => exact hanswer
  | some shadow =>
    exact (follows_queueState (hqueues shadow (by simp [hshadow]))).bind
      fun more x₂ hmore => hanswer.add hmore

theorem mem_tempQueues {roles : List PluginRole} {config : Config} {queue : String} :
    queue ∈ tempQueues roles config ↔
      ∃ base ∈ managedTempQueueNames roles config, queue ∈ shadowedQueues config base := by
  simp only [tempQueues, withShadows, shadowedQueues, List.mem_append, List.mem_filterMap,
    List.mem_cons, Option.mem_toList]
  constructor
  · rintro (hqueue | ⟨base, hbase, hshadow⟩)
    · exact ⟨queue, hqueue, .inl rfl⟩
    · exact ⟨base, hbase, .inr hshadow⟩
  · rintro ⟨base, hbase, rfl | hshadow⟩
    · exact .inl hbase
    · exact .inr ⟨base, hbase, hshadow⟩

/-- **A status that says all is drained** has counted every queue. -/
theorem follows_queuePairDrainStatus {label green blue : String}
    (hqueues : ∀ queue ∈ [green, blue], ∀ q ∈ shadowedQueues state.config queue, q ∈ temp) :
    AmqpOp.Follows input temp targets (fun status x' => status.drained = true →
        ∀ queue ∈ [green, blue], ∀ q ∈ shadowedQueues state.config queue, q ∈ x'.counted)
      (queuePairDrainStatus management state label green blue) x := by
  -- both queues were counted, and the counts came to nothing
  have hboth : ∀ {n m : Nat} {x₁ x₂ : AmqpMemory},
      Tally x (shadowedQueues state.config green) n x₁ →
      Tally x₁ (shadowedQueues state.config blue) m x₂ → n = 0 → m = 0 →
      ∀ queue ∈ [green, blue], ∀ q ∈ shadowedQueues state.config queue, q ∈ x₂.counted := by
    intro n m x₁ x₂ hgreen hblue hn hm queue hqueue q hq
    rcases List.mem_cons.mp hqueue with rfl | hqueue
    · exact hblue.kept q (hgreen.counted hn q hq)
    · rw [List.mem_singleton.mp hqueue] at hq
      exact hblue.counted hm q hq
  unfold queuePairDrainStatus
  split
  · refine (follows_managementQueueDepthWithShadow state (hqueues green (by simp))).bind
      fun greenDepth x₁ hgreen => ?_
    refine (follows_managementQueueDepthWithShadow state (hqueues blue (by simp))).bind
      fun blueDepth x₂ hblue hdrained => ?_
    have hzero : greenDepth.ready + greenDepth.unacknowledged = 0 ∧
        blueDepth.ready + blueDepth.unacknowledged = 0 := by
      simpa [managementDrainStatus] using hdrained
    exact hboth hgreen hblue hzero.1 hzero.2
  · refine (follows_queueStateWithShadow state (hqueues green (by simp))).bind
      fun greenState x₁ hgreen => ?_
    refine (follows_queueStateWithShadow state (hqueues blue (by simp))).bind
      fun blueState x₂ hblue hdrained => ?_
    have hzero : greenState.1 = 0 ∧ blueState.1 = 0 := by
      simpa [readyDrainStatus] using hdrained
    exact hboth hgreen hblue hzero.1 hzero.2

theorem follows_computeDrainStatus {worker : Option QueueWorkerRole}
    (hroles : queueWorkerRole state.roles = .ok worker) (hx : x.Fresh) (moves : Nat) :
    AmqpOp.Follows input (tempQueues state.roles state.config)
      (backTargets state.roles state.config)
      (fun status x' => status.drained = true →
        ∀ queue ∈ tempQueues state.roles state.config, queue ∈ x'.counted)
      (computeDrainStatus management infraDisabled state moves) x := by
  refine (follows_runtimeMode hx).bind fun mode x₀ hx₀ => ?_
  refine Pool.Follows.bind (R := fun _ => InceptorMemory.Fresh) ?_ fun _ x₁ hx₁ => ?_
  · split
    · exact follows_back (movesBack_drainRuntimeQueues infraDisabled state moves) hx₀.1
    · exact hx₀.1
  · refine follows_withConnection hx₁ (fun x hx => ?_) fun _ _ h => h
    cases hstatus : statusQueues state.roles state.config with
    | error e => trivial
    | ok queues =>
      cases queues with
      | none =>
        intro _ queue hqueue
        obtain ⟨base, hbase, -⟩ := mem_tempQueues.mp hqueue
        rw [managedTempQueueNames_of_no_status hstatus] at hbase
        simp at hbase
      | some queues =>
        obtain ⟨label, green, blue⟩ := queues
        have hnames := managedTempQueueNames_of_status hroles hstatus
        refine (follows_queuePairDrainStatus management state fun queue hqueue q hq =>
          mem_tempQueues.mpr ⟨queue, hnames ▸ hqueue, hq⟩).mono
            (fun status x' h hdrained queue hqueue => ?_) fun _ _ h => h
        obtain ⟨base, hbase, hq⟩ := mem_tempQueues.mp hqueue
        exact h hdrained base (hnames ▸ hbase) queue hq

end Counting

/-! ### The workers -/

/-- A call to the verifier or the operator, or a look at the clock. -/
def Requests : WorkCall → Prop
  | .now => True
  | .notify _ _ _ => True
  | .register _ _ _ => True
  | _ => False

theorem requests_retryStatusRequest {request : WorkerOp (Option Nat)}
    (h : request.Calls Requests) : (retryStatusRequest request).Calls Requests := by
  refine Prog.Calls.retry (fun _ => h.bind fun answer => ?_) trivial
  unfold statusRound
  cases answer with
  | none => trivial
  | some status =>
    split
    · rename_i heq
      cases heq
      split
      · trivial
      · split
        · split <;> trivial
        · trivial
    · trivial

theorem requests_report (runtime : InceptorRuntime) (handsOn : Bool)
    (observed : Option (ObserverConfig × String)) (payload : Json) (route : TrafficRoute) :
    (report runtime handsOn observed payload route).Calls Requests := by
  have hregister : ∀ testId, (runtime.registerTestCase testId).Calls Requests := by
    intro testId
    refine Prog.Calls.bind (Prog.Calls.of_ask.mpr trivial) fun now => ?_
    exact requests_retryStatusRequest (Prog.Calls.of_ask.mpr trivial)
  cases observed with
  | none => trivial
  | some observed =>
    obtain ⟨observer, testId⟩ := observed
    refine Prog.Calls.bind ?_ fun notified => ?_
    · unfold notifyObserver
      cases observer.notifyPath with
      | none => trivial
      | some path =>
        refine Prog.Calls.bind (Prog.Calls.result (requests_retryStatusRequest
          (Prog.Calls.of_ask.mpr trivial))) fun r => ?_
        cases r <;> trivial
    · split
      · split
        · exact hregister testId
        · exact (hregister testId).result.bind fun _ => trivial
      · trivial

/-- The calls of a worker before it settles the delivery. -/
def Unsettled (c : WorkCall) : Prop := c ≠ .ack ∧ c ≠ .requeue

theorem Requests.unsettled {c : WorkCall} (h : Requests c) : Unsettled c := by
  cases c with
  | now => simp [Unsettled]
  | notify url test_id payload => simp [Unsettled]
  | register url test_id body => simp [Unsettled]
  | _ => exact h.elim

theorem Requests.movesBack {targets : List String} {c : WorkCall} (h : Requests c) :
    MovesBack targets (.work c : InceptorCall String) := by
  cases c with
  | publish queue message => exact h.elim
  | _ => trivial

theorem unsettled_publishTo (message : Message) (target : String) :
    (publishTo message target).Calls Unsettled := by
  show (Prog.bind (Prog.ask (WorkCall.publish target message)) _).Calls _
  exact Prog.Calls.bind (Prog.Calls.of_ask.mpr ⟨by simp, by simp⟩)
    fun r => Prog.Calls.of_ofExcept r

theorem unsettled_forwardInput (roles : List PluginRole) (duplicator splitter : Option TempPair)
    (sendToBlue : Bool) (message : Message) :
    (forwardInput roles duplicator splitter sendToBlue message).Calls Unsettled := by
  rw [forwardInput_eq]
  split
  · trivial
  · refine Prog.Calls.bind (Prog.Calls.forEach fun target _ => ?_) fun _ => trivial
    cases target with
    | none => trivial
    | some target => exact unsettled_publishTo message target

section Workers

variable {input : Bool} {temp targets : List String} {x : AmqpMemory} (infraDisabled : Bool)
  (state : WorkerState Config)

/-- **An input worker** publishes while it holds the delivery that it took on an active look. -/
theorem follows_processInputDelivery (message : Message) (hinput : input = true) (hx : Holds x) :
    AmqpOp.Follows input temp targets (fun _ _ => True)
      (WorkerOp.run (processInputDelivery state message)) x := by
  -- until the delivery is settled the worker holds it
  have hkeep : ∀ {α : Type} {p : WorkerOp α}, p.Calls Unsettled → ∀ {x : AmqpMemory}, Holds x →
      AmqpOp.Follows input temp targets (fun _ => Holds) (WorkerOp.run p) x := by
    intro α p hp x hx
    refine Pool.Follows.of_calls (F := fun c => ∃ work, c = .work work ∧ Unsettled work)
      (Prog.Calls.lift (hp.mono fun work hwork => ⟨work, rfl, hwork⟩)) hx ?_ ?_
    · rintro x c ⟨work, rfl, -⟩ hholds
      cases work with
      | publish queue message => exact .inl ⟨hinput, hholds⟩
      | _ => trivial
    · rintro x w c o a w' x' ⟨work, rfl, hwork⟩ hholds hserve
      have hx' : x' = (w.serve id x o (.work work)).2.2 := by rw [Option.some.inj hserve]
      rw [hx']
      cases work with
      | ack => exact absurd rfl hwork.1
      | requeue => exact absurd rfl hwork.2
      | _ => exact hholds
  unfold processInputDelivery
  simp only [Prog.bind_def, WorkerOp.run, Prog.lift_bind]
  refine (hkeep (unsettled_forwardInput _ _ _ _ message) hx).bind fun route x₁ hx₁ => ?_
  refine (hkeep ((requests_report _ _ _ _ _).mono fun _ h => h.unsettled) hx₁).bind
    fun _ x₂ hx₂ => ?_
  refine Pool.Follows.call trivial fun w o r w' x' _ => ?_
  cases r <;> trivial

theorem follows_reconnecting {p : AmqpOp Unit}
    (hp : AmqpOp.Follows input temp targets (fun _ _ => True) p x) :
    AmqpOp.Follows input temp targets (fun _ _ => True) (reconnecting p) x := by
  refine Pool.Follows.bind (R := fun _ _ => True) ?_ fun r x' _ => ?_
  · exact Outside.Spec.result (hp.mono (fun _ _ _ => trivial) fun _ _ _ => trivial)
  · cases r with
    | ok => trivial
    | error e =>
      refine Pool.Follows.call trivial fun w o _ w' x'' _ => ?_
      trivial

theorem follows_runInputPipeline (hinput : input = true) (hx : x.Fresh) (moves : Nat) :
    AmqpOp.Follows input temp (backTargets state.roles state.config) (fun _ _ => True)
      (runInputPipeline infraDisabled state moves) x := by
  unfold runInputPipeline
  cases inputQueue state.roles state.config with
  | error e => trivial
  | ok base =>
    refine (follows_runtimeMode hx).bind fun mode x₀ hx₀ => ?_
    obtain ⟨hfresh, hlooked⟩ := hx₀
    cases mode with
    | idle => trivial
    | draining =>
      refine follows_reconnecting ((follows_back ?_ hfresh).mono (fun _ _ _ => trivial)
        fun _ _ h => h)
      exact movesBack_drainInputQueues infraDisabled state moves
    | active =>
      refine follows_reconnecting ?_
      refine Pool.Follows.bind (R := fun message x => message ≠ none → Holds x) ?_
        fun message x₁ hx₁ => ?_
      · refine Pool.Follows.call trivial fun w o r w' x' hserve => ?_
        have hpair := Option.some.inj hserve
        cases htake : w.broker.take base with
        | none =>
          simp only [InceptorWorld.serve, htake] at hpair
          cases hcall : o.call <;> rw [hcall] at hpair <;> cases hpair <;>
            simp [CallOutcome.answer, Prog.ofExcept]
        | some taken =>
          obtain ⟨receipt, message, broker⟩ := taken
          simp only [InceptorWorld.serve, htake] at hpair
          cases hcall : o.call with
          | refused =>
            rw [hcall] at hpair
            cases hpair
            trivial
          | lost =>
            rw [hcall] at hpair
            cases hpair
            trivial
          | ok =>
            rw [hcall] at hpair
            cases hpair
            intro _
            exact ⟨hlooked, by simp⟩
      · cases message with
        | none => trivial
        | some message => exact follows_processInputDelivery state message hinput (hx₁ (by simp))

/-- **A combiner** only publishes to the queue that its messages go back to. -/
theorem movesBack_processOutputDelivery (message : Message) (combiner : CombinerConfig)
    (mode : RuntimeMode) {source result : String} (hresult : result ∈ targets) :
    (WorkerOp.run (processOutputDelivery state message combiner mode source result) :
      AmqpOp Unit).Calls (MovesBack targets) := by
  unfold processOutputDelivery
  split
  · simp only [Prog.bind_def, WorkerOp.run, Prog.lift_bind]
    refine (movesBack_publishTo hresult message).bind fun _ => ?_
    refine Prog.Calls.bind (Prog.Calls.lift ?_) fun _ => movesBack_ack
    exact (requests_report _ _ _ _ _).mono fun _ h => h.movesBack
  · exact movesBack_requeue

theorem movesBack_runCombineLoopOnce {source result : String} (hresult : result ∈ targets) :
    (runCombineLoopOnce infraDisabled state source result).Calls (MovesBack targets) := by
  have hmode : (runtimeMode : AmqpOp RuntimeMode).Calls (MovesBack targets) :=
    Prog.Calls.of_ask.mpr trivial
  refine movesBack_withConnection (Prog.Calls.bind ?_ fun _ => ?_)
  · cases infraDisabled with
    | true => trivial
    | false => exact movesBack_ensureQueue.bind fun _ => movesBack_ensureQueue
  · cases required state.config.combiner with
    | error e => trivial
    | ok combiner =>
      refine hmode.bind fun mode => ?_
      split
      · refine (movesBack_receive source).bind fun message => ?_
        cases message with
        | none => trivial
        | some message =>
          exact hmode.bind fun mode =>
            movesBack_processOutputDelivery state message combiner mode hresult
      · trivial

theorem movesBack_runCombineLoop (moves : Nat) {source result : String}
    (hresult : result ∈ backTargets state.roles state.config)
    (hshadow : shadowTarget state.config result ∈ backTargets state.roles state.config) :
    (runCombineLoop infraDisabled state moves source result).Calls
      (MovesBack (backTargets state.roles state.config)) := by
  refine Prog.Calls.bind (Prog.Calls.of_ask.mpr trivial) fun mode => ?_
  cases mode with
  | idle => trivial
  | draining =>
    exact calls_logged (movesBack_drainOutputQueue infraDisabled state hresult hshadow moves)
  | active => exact calls_logged (movesBack_runCombineLoopOnce infraDisabled state hresult)

/-- **Every thread of an inceptor follows the protocol.** -/
theorem follows_inceptorJobs (management : Bool) (job : InceptorJob) :
    AmqpOp.Follows (movesInput state.roles) (tempQueues state.roles state.config)
      (backTargets state.roles state.config) (fun _ _ => True)
      (inceptorJobs management infraDisabled state job).prog .start := by
  have hx : (InceptorMemory.start : AmqpMemory).Fresh := InceptorMemory.fresh_start
  unfold inceptorJobs inceptorThread
  cases hroles : queueWorkerRole state.roles with
  | error e => trivial
  | ok worker =>
    cases job with
    | input trafficPercent moves =>
      simp only [inceptorProgram]
      split
      · rename_i hworker
        have hinput : movesInput state.roles = true := by simp [movesInput, hroles, hworker]
        exact follows_runInputPipeline infraDisabled { state with trafficPercent := trafficPercent }
          hinput hx moves
      · trivial
    | combine blue moves =>
      simp only [inceptorProgram]
      split
      · cases hqueues : drainedOutput state.config with
        | error e => trivial
        | ok queues =>
          obtain ⟨hbase, hshadow⟩ := mem_backTargets_of_output state.roles hqueues
          exact (follows_back (movesBack_runCombineLoop infraDisabled state moves hbase hshadow)
            hx).mono (fun _ _ _ => trivial) fun _ _ h => h
      · trivial
    | drain moves =>
      refine Pool.Follows.call trivial fun w o _ w' x' hserve => ?_
      have hx' : x'.Fresh := by
        cases hserve
        exact hx
      exact (follows_back (movesBack_drainRuntimeQueues infraDisabled state moves) hx').mono
        (fun _ _ _ => trivial) fun _ _ h => h
    | status moves =>
      refine (follows_computeDrainStatus management infraDisabled state hroles hx moves).bind
        fun status x' hstatus => ?_
      refine Pool.Follows.call hstatus fun w o _ w' x'' hserve => ?_
      trivial

end Workers

/-- **The drain barrier.** Once a status call that found the inceptor draining has answered that it
is drained, its temporary queues and their shadows are empty, and no input worker holds a delivery
that it is going to publish, in every run whose steps keep the barrier. -/
theorem drained_means_idle (management infraDisabled : Bool) (state : WorkerState Config)
    (broker : Broker String Message) (mode : RuntimeMode)
    {s : Pool (InceptorCall String) InceptorAnswer Unit AmqpMemory AmqpWorld}
    (r : Pool.Run amqpProcess (inceptorJobs management infraDisabled state)
      (barrier (movesInput state.roles) (tempQueues state.roles state.config)
        (backTargets state.roles state.config)) ⟨.start broker mode, []⟩ s)
    (hdrained : s.world.drained = true) :
    ∀ queue ∈ tempQueues state.roles state.config, s.world.broker.Empty queue ∧
      (movesInput state.roles = true → ∀ t ∈ s.threads, ¬ Holds t.memory) := by
  have hstart : Barred (movesInput state.roles) (tempQueues state.roles state.config)
      (.start broker mode) [] := by
    constructor <;> simp [InceptorWorld.start]
  have hkeeps : Pool.Keeps amqpProcess (barrier (movesInput state.roles)
      (tempQueues state.roles state.config) (backTargets state.roles state.config))
      (AmqpMay (movesInput state.roles) (tempQueues state.roles state.config)
        (backTargets state.roles state.config))
      (fun job => (inceptorJobs management infraDisabled state job).memory)
      (Barred (movesInput state.roles) (tempQueues state.roles state.config)) :=
    barred_keeps _ fun _ => rfl
  obtain ⟨hbarred, -⟩ := Pool.Run.keeps hkeeps
    (fun job => follows_inceptorJobs infraDisabled state management job) hstart r
  intro queue hqueue
  obtain ⟨hidle, hempty⟩ := (hbarred.drained hdrained).2 queue hqueue
  exact ⟨hempty, fun hinput t ht => hidle hinput t.memory (List.mem_map_of_mem ht)⟩

section Runs

variable (input : Bool) (temp targets : List String)

instance (others : List AmqpMemory) (x : AmqpMemory) (w : AmqpWorld) : (c : InceptorCall String) →
    (o : InceptorOutcome) → Decidable ((barrier input temp targets).call others x w c o)
  | .depth _, _ =>
    inferInstanceAs (Decidable (x.asked → input = true → ∀ y ∈ others, ¬ Holds y))
  | .queueState queue, _ => inferInstanceAs (Decidable
      (x.asked → (input = true → ∀ y ∈ others, ¬ Holds y) ∧ w.broker.held queue = 0))
  | .receive source, o => inferInstanceAs (Decidable (input = true → x.looked = some .active →
      o.call = .ok → (w.broker.take source).isSome →
        w.drained = false ∧ ∀ y ∈ others, y.asked → y.counted = []))
  | .work (.publish queue _), _ => inferInstanceAs (Decidable (queue ∈ targets → queue ∉ temp))
  | .work .ack, _ => .isTrue trivial
  | .work .requeue, _ => .isTrue trivial
  | .work .now, _ => .isTrue trivial
  | .work (.notify _ _ _), _ => .isTrue trivial
  | .work (.register _ _ _), _ => .isTrue trivial
  | .mode, _ => .isTrue trivial
  | .setDraining, _ => .isTrue trivial
  | .track, _ => .isTrue trivial
  | .release, _ => .isTrue trivial
  | .inFlight, _ => .isTrue trivial
  | .connect, _ => .isTrue trivial
  | .disconnect, _ => .isTrue trivial
  | .ensureQueue _, _ => .isTrue trivial
  | .respond _, _ => .isTrue trivial

instance (all : List AmqpMemory) (w : AmqpWorld) (v : BrokerMove String Message) :
    Decidable ((barrier input temp targets).move all w v) :=
  match h : v.arrival with
  | none => .isTrue fun queue hqueue => by simp [h] at hqueue
  | some queue => decidable_of_iff (¬ Covered temp w all queue)
      ⟨fun hnot queue' hqueue' => by rw [h] at hqueue'; cases hqueue'; exact hnot,
        fun hall => hall queue h⟩

end Runs

/-! ### Runs of an inceptor -/

namespace Runs

/-- A splitter of the queue `orders`, with the names that the manager derives. -/
def splitter : WorkerState Config where
  crates := FluidBG.Sample.workerCrates
  config := {
    queueDeclaration := .empty
    shadowQueue := none
    duplicator := none
    splitter := some {
      inputQueue := some "orders"
      greenInputQueue := some "fluidbg-green-in"
      blueInputQueue := some "fluidbg-blue-in"
      greenInputQueueEnvVar := some "INPUT_QUEUE"
      blueInputQueueEnvVar := some "INPUT_QUEUE" }
    combiner := none
    writer := none
    consumer := none
    observer := none }
  roles := [.splitter]
  trafficPercent := 0
  runtime := FluidBG.Sample.workerRuntime

/-- Every call of the thread succeeds. -/
def answers (i n : Nat) :
    List (Pool.Event InceptorJob InceptorOutcome (BrokerMove String Message)) :=
  List.replicate n (.answer i ⟨.ok, some 200, 0, 0⟩)

/-- A worker takes an order before the drain, and publishes it after the status call. -/
def late : List (Pool.Event InceptorJob InceptorOutcome (BrokerMove String Message)) :=
  [.start (.input 0 2)] ++ answers 0 2 ++ [.start (.drain 2)] ++ answers 1 5 ++
    [.start (.status 2)] ++ answers 2 10 ++ answers 0 1

/-- The drain moves an order back from green. -/
def orderly : List (Pool.Event InceptorJob InceptorOutcome (BrokerMove String Message)) :=
  [.start (.drain 2)] ++ answers 0 8 ++ [.start (.status 2)] ++ answers 1 10

end Runs

def drainedWithADeliveryInHandRun :
    PLift ((Pool.run Watch.still amqpProcess (inceptorJobs true true Runs.splitter)
      ⟨.start (Broker.empty.put "orders" FluidBG.Sample.order) .active, []⟩ Runs.late).map
        (fun s => (s.world.drained, decide (s.world.broker.Empty "fluidbg-green-in"))) =
      some (true, false)) :=
  ⟨by decide +kernel⟩

/-- **A delivery that was taken before the drain** is published after the status call has counted
both queues with the management API, and has answered that all is drained. -/
theorem drained_with_a_delivery_in_hand : ∃ s,
    Pool.Run amqpProcess (inceptorJobs true true Runs.splitter) Watch.still
      ⟨.start (Broker.empty.put "orders" FluidBG.Sample.order) .active, []⟩ s ∧
    (s.world.drained, decide (s.world.broker.Empty "fluidbg-green-in")) = (true, false) := by
  have h := drainedWithADeliveryInHandRun.down
  exact Pool.Run.exists_of_run h

def drainedMeansIdleSplitterRun : PLift ((Pool.run (barrier (movesInput Runs.splitter.roles)
        (tempQueues Runs.splitter.roles Runs.splitter.config)
        (backTargets Runs.splitter.roles Runs.splitter.config)) amqpProcess
      (inceptorJobs true true Runs.splitter)
      ⟨.start (Broker.empty.put "fluidbg-green-in" FluidBG.Sample.order) .active, []⟩
      Runs.orderly).map (fun s => s.world.drained) = some true) :=
  ⟨by decide +kernel⟩

/-- A message in the temporary queue of green is moved back by the drain. -/
theorem drained_means_idle_splitter : ∃ s : Pool (InceptorCall String) InceptorAnswer Unit
      AmqpMemory AmqpWorld, s.world.drained = true ∧
    ∀ queue ∈ tempQueues Runs.splitter.roles Runs.splitter.config,
      s.world.broker.Empty queue ∧
        (movesInput Runs.splitter.roles = true → ∀ t ∈ s.threads, ¬ Holds t.memory) := by
  have h := drainedMeansIdleSplitterRun.down
  obtain ⟨s, r, hdrained⟩ := Pool.Run.exists_of_run h
  exact ⟨s, hdrained, drained_means_idle _ _ _ _ _ r hdrained⟩

end Rabbitmq

end FluidBG
