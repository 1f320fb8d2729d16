import FluidBG.Plugins.Sample
import FluidBG.Proof.DrainBarrier
/-!
# The drain barrier of Azure Service Bus

A worker counts the message it holds as one in flight and looks at the mode once more before it
forwards it, so what it forwards after the drain shows in the counter. A status call counts the
queues first and looks at the counter last: that is the right order for the messages that are still
in flight then, and leaves out those that were forwarded and let go in between.
-/

set_option autoImplicit false

namespace FluidBG

open Lib

namespace ServiceBus

/-- Where a temporary queue of the inceptor, or a shadow of one, keeps messages. -/
def tempPaths (roles : List PluginRole) (config : Config) : List BusPath :=
  (withShadows config (managedTempQueueNames roles config)).flatMap fun queue =>
    [queuePath queue, deadLetterPath queue]

abbrev BusMemory := InceptorMemory BusPath

abbrev BusWorld := InceptorWorld BusPath

abbrev busProcess : Shared (InceptorCall BusPath) InceptorAnswer BusMemory BusWorld InceptorOutcome
    (BrokerMove BusPath Message) := inceptorProcess queuePath

/-- **What the barrier needs of the steps of a run.** No application sends to a queue that was
counted, and no message is moved back into a temporary queue. The last message in flight is not let
go while a status call that has yet to look at the counter has counted a place that is no longer
empty. -/
def barrier (temp : List BusPath) (targets : List String) :
    Watch (InceptorCall BusPath) BusMemory BusWorld InceptorOutcome
      (BrokerMove BusPath Message) where
  call others _ w c _ := match c with
    | .work (.publish queue _) => queue ∈ targets → queuePath queue ∉ temp
    | .release => w.inFlight ≤ 1 → ∀ y ∈ others, y.asked → y.grounded = false →
        ∀ path ∈ y.counted, w.broker.Empty path
    | _ => True
  move all w v := ∀ path, v.arrival = some path → ¬ Covered temp w all path

/-- Where a thread may make which call. -/
def BusMay (temp : List BusPath) (targets : List String) (x : BusMemory) :
    InceptorCall BusPath → Prop
  | .mode => x.Fresh
  | .release => x.tracked = true ∧ x.Fresh
  | .inFlight => x.grounded = false
  | .depth places => ∀ path ∈ places, path ∈ temp
  | .queueState _ => False
  | .work (.publish queue _) => x.cleared = true ∨ queue ∈ targets
  | .respond status => status.drained = true → x.asked →
      ∀ path ∈ temp, path ∈ x.counted ∧ x.grounded = true
  | _ => True

/-- No thread is going to forward a message. -/
def Landed (xs : List BusMemory) : Prop := ∀ x ∈ xs, x.cleared = false

/-- **The invariant.** As long as a status call has not looked at the counter, the places it has
counted are empty unless a message is in flight; after that they stay empty, as nothing is going to
be forwarded any more. -/
structure Barred (temp : List BusPath) (w : BusWorld) (xs : List BusMemory) : Prop where
  inFlight : xs.countP (·.tracked) ≤ w.inFlight
  cleared : ∀ x ∈ xs, x.cleared = true → x.tracked = true
  draining : ∀ x ∈ xs, x.asked → w.mode = .draining
  counted : ∀ x ∈ xs, ∀ path ∈ x.counted, path ∈ temp
  flying : ∀ x ∈ xs, x.asked → x.grounded = false → w.inFlight = 0 →
    ∀ path ∈ x.counted, w.broker.Empty path
  landed : ∀ x ∈ xs, x.asked → x.grounded = true →
    Landed xs ∧ ∀ path ∈ x.counted, w.broker.Empty path
  drained : w.drained = true → w.mode = .draining ∧
    ∀ path ∈ temp, Landed xs ∧ w.broker.Empty path

section Steps

variable {temp : List BusPath} {targets : List String} {w w' : BusWorld} {xs : List BusMemory}
  {x x' : BusMemory} {i : Nat}

/-- As long as a message is in flight, the counter shows it. -/
theorem Barred.inFlight_pos (h : Barred temp w xs) (hx : x ∈ xs) (ht : x.tracked = true) :
    0 < w.inFlight :=
  lt_of_lt_of_le (List.countP_pos_iff.mpr ⟨x, hx, ht⟩) h.inFlight

/-- A counter of nothing means that nothing is going to be forwarded. -/
theorem Barred.landed_of_zero (h : Barred temp w xs) (hzero : w.inFlight = 0) : Landed xs := by
  intro y hy
  by_contra hcleared
  have hpos := h.inFlight_pos hy (h.cleared y hy (by simpa using hcleared))
  omega

theorem countP_set_of_eq {p : BusMemory → Bool} (hx : xs[i]? = some x) (heq : p x' = p x) :
    (xs.set i x').countP p = xs.countP p := by
  have hset := Pool.countP_set_memory p x' hx
  rw [heq] at hset
  omega

/-- A step that changes none of what the invariant is about, and fills no temporary place. -/
theorem Barred.untouched (h : Barred temp w xs) (hx : xs[i]? = some x)
    (hu : Untouched w w' x x')
    (hempty : ∀ path ∈ temp, w.broker.Empty path → w'.broker.Empty path) :
    Barred temp w' (xs.set i x') := by
  have hmem : x ∈ xs := List.mem_of_getElem? hx
  have hlanded : Landed xs → Landed (xs.set i x') := by
    intro hl y hy
    rcases List.mem_or_eq_of_mem_set hy with hy | rfl
    · exact hl y hy
    · rw [hu.cleared]
      exact hl x hmem
  -- what is known of every thread before is known of every thread after
  have hall : ∀ {R : BusMemory → Prop}, (∀ y ∈ xs, R y) → (R x → R x') →
      ∀ y ∈ xs.set i x', R y := by
    intro R hR hxR y hy
    rcases List.mem_or_eq_of_mem_set hy with hy | rfl
    · exact hR y hy
    · exact hxR (hR x hmem)
  constructor
  · rw [countP_set_of_eq hx hu.tracked, hu.inFlight]
    exact h.inFlight
  · refine hall h.cleared fun hr hcleared => ?_
    rw [hu.cleared] at hcleared
    rw [hu.tracked]
    exact hr hcleared
  · rw [hu.mode]
    refine hall h.draining fun hr hasked => hr ?_
    unfold InceptorMemory.asked at hasked ⊢
    rw [← hu.looked]
    exact hasked
  · refine hall h.counted fun hr => ?_
    rw [hu.counted]
    exact hr
  · rw [hu.inFlight]
    have hflying : ∀ y ∈ xs, y.asked → y.grounded = false → w.inFlight = 0 →
        ∀ path ∈ y.counted, w'.broker.Empty path := fun y hy hasked hgrounded hzero path hpath =>
      hempty path (h.counted y hy path hpath) (h.flying y hy hasked hgrounded hzero path hpath)
    refine hall hflying fun hr => ?_
    unfold InceptorMemory.asked at hr ⊢
    rw [hu.looked, hu.grounded, hu.counted]
    exact hr
  · have hland : ∀ y ∈ xs, y.asked → y.grounded = true →
        Landed (xs.set i x') ∧ ∀ path ∈ y.counted, w'.broker.Empty path :=
      fun y hy hasked hgrounded => ⟨hlanded (h.landed y hy hasked hgrounded).1, fun path hpath =>
        hempty path (h.counted y hy path hpath) ((h.landed y hy hasked hgrounded).2 path hpath)⟩
    refine hall hland fun hr => ?_
    unfold InceptorMemory.asked at hr ⊢
    rw [hu.looked, hu.grounded, hu.counted]
    exact hr
  · rw [hu.drained, hu.mode]
    intro hdrained
    obtain ⟨hmode, hpaths⟩ := h.drained hdrained
    exact ⟨hmode, fun path hpath => ⟨hlanded (hpaths path hpath).1,
      hempty path hpath (hpaths path hpath).2⟩⟩

theorem Landed.set (h : Landed xs) (hx : x'.cleared = false) : Landed (xs.set i x') := by
  intro y hy
  rcases List.mem_or_eq_of_mem_set hy with hy | rfl
  · exact h y hy
  · exact hx

/-- Fewer threads are no harm. -/
theorem Barred.subset {ys : List BusMemory} (h : Barred temp w xs) (hsub : ∀ y ∈ ys, y ∈ xs)
    (hcount : ys.countP (·.tracked) ≤ xs.countP (·.tracked)) : Barred temp w ys where
  inFlight := le_trans hcount h.inFlight
  cleared y hy := h.cleared y (hsub y hy)
  draining y hy := h.draining y (hsub y hy)
  counted y hy := h.counted y (hsub y hy)
  flying y hy := h.flying y (hsub y hy)
  landed y hy hasked hgrounded :=
    ⟨fun z hz => (h.landed y (hsub y hy) hasked hgrounded).1 z (hsub z hz),
      (h.landed y (hsub y hy) hasked hgrounded).2⟩
  drained hdrained :=
    ⟨(h.drained hdrained).1, fun path hpath =>
      ⟨fun z hz => ((h.drained hdrained).2 path hpath).1 z (hsub z hz),
        ((h.drained hdrained).2 path hpath).2⟩⟩

theorem Barred.start (h : Barred temp w xs) : Barred temp w (xs ++ [.start]) := by
  have hall : ∀ {R : BusMemory → Prop}, (∀ y ∈ xs, R y) → R .start →
      ∀ y ∈ xs ++ [InceptorMemory.start], R y := by
    intro R hR hstart y hy
    rcases List.mem_append.mp hy with hy | hy
    · exact hR y hy
    · rw [List.mem_singleton.mp hy]
      exact hstart
  have hlanded : Landed xs → Landed (xs ++ [.start]) := fun hl => hall hl rfl
  constructor
  · rw [List.countP_append]
    exact h.inFlight
  · exact hall h.cleared fun hcleared => by cases hcleared
  · exact hall h.draining fun hasked => by cases hasked
  · exact hall h.counted fun path hpath => by cases hpath
  · exact hall h.flying fun hasked => by cases hasked
  · refine hall (fun y hy hasked hgrounded => ?_) fun hasked => by cases hasked
    exact ⟨hlanded (h.landed y hy hasked hgrounded).1, (h.landed y hy hasked hgrounded).2⟩
  · intro hdrained
    obtain ⟨hmode, hpaths⟩ := h.drained hdrained
    exact ⟨hmode, fun path hpath => ⟨hlanded (hpaths path hpath).1, (hpaths path hpath).2⟩⟩

/-- A thread looks at the mode. While the inceptor is draining, none finds it active. -/
theorem Barred.look (h : Barred temp w xs) (hx : xs[i]? = some x) (hfresh : x.Fresh) :
    Barred temp w (xs.set i
      { x with looked := some w.mode, cleared := x.tracked && w.mode = .active }) := by
  obtain ⟨hcounted, hgrounded⟩ := hfresh
  have hlanded : w.mode = .draining → Landed xs → Landed (xs.set i
      { x with looked := some w.mode, cleared := x.tracked && w.mode = .active }) := by
    intro hmode hl
    exact hl.set (by simp [hmode])
  constructor
  · exact le_of_eq_of_le (countP_set_of_eq hx rfl) h.inFlight
  · intro y hy hcleared
    rcases List.mem_or_eq_of_mem_set hy with hy | rfl
    · exact h.cleared y hy hcleared
    · simp only [Bool.and_eq_true] at hcleared
      exact hcleared.1
  · intro y hy hasked
    rcases List.mem_or_eq_of_mem_set hy with hy | rfl
    · exact h.draining y hy hasked
    · exact Option.some.inj hasked
  · intro y hy path hpath
    rcases List.mem_or_eq_of_mem_set hy with hy | rfl
    · exact h.counted y hy path hpath
    · simp [hcounted] at hpath
  · intro y hy hasked hg hzero path hpath
    rcases List.mem_or_eq_of_mem_set hy with hy | rfl
    · exact h.flying y hy hasked hg hzero path hpath
    · simp [hcounted] at hpath
  · intro y hy hasked hg
    rcases List.mem_or_eq_of_mem_set hy with hy | rfl
    · obtain ⟨hl, hempty⟩ := h.landed y hy hasked hg
      exact ⟨hlanded (h.draining y hy hasked) hl, hempty⟩
    · simp [hgrounded] at hg
  · intro hdrained
    obtain ⟨hmode, hpaths⟩ := h.drained hdrained
    exact ⟨hmode, fun path hpath => ⟨hlanded hmode (hpaths path hpath).1, (hpaths path hpath).2⟩⟩

/-- The drain is requested. -/
theorem Barred.setDraining (h : Barred temp w xs) :
    Barred temp { w with mode := .draining } xs where
  inFlight := h.inFlight
  cleared := h.cleared
  draining _ _ _ := rfl
  counted := h.counted
  flying := h.flying
  landed := h.landed
  drained hdrained := ⟨rfl, (h.drained hdrained).2⟩

/-- A message is counted as in flight. It is not forwarded before the mode is looked at again. -/
theorem Barred.track (h : Barred temp w xs) (hx : xs[i]? = some x) :
    Barred temp { w with inFlight := w.inFlight + 1 }
      (xs.set i { x with tracked := true, cleared := false }) := by
  have hmem : x ∈ xs := List.mem_of_getElem? hx
  constructor
  · obtain ⟨hi, rfl⟩ := List.getElem?_eq_some_iff.mp hx
    rw [List.countP_set hi]
    have hle := h.inFlight
    simp only [if_true]
    omega
  · intro y hy hcleared
    rcases List.mem_or_eq_of_mem_set hy with hy | rfl
    · exact h.cleared y hy hcleared
    · simp at hcleared
  · intro y hy hasked
    rcases List.mem_or_eq_of_mem_set hy with hy | rfl
    · exact h.draining y hy hasked
    · exact h.draining x hmem hasked
  · intro y hy path hpath
    rcases List.mem_or_eq_of_mem_set hy with hy | rfl
    · exact h.counted y hy path hpath
    · exact h.counted x hmem path hpath
  · intro y hy hasked hgrounded hzero
    simp at hzero
  · intro y hy hasked hgrounded
    rcases List.mem_or_eq_of_mem_set hy with hy | rfl
    · exact ⟨(h.landed y hy hasked hgrounded).1.set rfl, (h.landed y hy hasked hgrounded).2⟩
    · exact ⟨(h.landed x hmem hasked hgrounded).1.set rfl,
        (h.landed x hmem hasked hgrounded).2⟩
  · intro hdrained
    obtain ⟨hmode, hpaths⟩ := h.drained hdrained
    exact ⟨hmode, fun path hpath => ⟨(hpaths path hpath).1.set rfl, (hpaths path hpath).2⟩⟩

/-- A message in flight is let go. If it was the last one, the barrier wants the places that were
counted so far to be empty still. -/
theorem Barred.release (h : Barred temp w xs) (hx : xs[i]? = some x) (htracked : x.tracked = true)
    (hlast : w.inFlight ≤ 1 → ∀ y ∈ xs.eraseIdx i, y.asked → y.grounded = false →
      ∀ path ∈ y.counted, w.broker.Empty path)
    (hself : x.Fresh) :
    Barred temp { w with inFlight := w.inFlight - 1 }
      (xs.set i { x with tracked := false, cleared := false }) := by
  have hmem : x ∈ xs := List.mem_of_getElem? hx
  constructor
  · obtain ⟨hi, rfl⟩ := List.getElem?_eq_some_iff.mp hx
    rw [List.countP_set hi, htracked]
    have hle := h.inFlight
    simp only [if_true, Bool.false_eq_true, if_false]
    omega
  · intro y hy hcleared
    rcases List.mem_or_eq_of_mem_set hy with hy | rfl
    · exact h.cleared y hy hcleared
    · simp at hcleared
  · intro y hy hasked
    rcases List.mem_or_eq_of_mem_set hy with hy | rfl
    · exact h.draining y hy hasked
    · exact h.draining x hmem hasked
  · intro y hy path hpath
    rcases List.mem_or_eq_of_mem_set hy with hy | rfl
    · exact h.counted y hy path hpath
    · exact h.counted x hmem path hpath
  · intro y hy hasked hgrounded hzero path hpath
    obtain ⟨j, hj⟩ := List.mem_iff_getElem?.mp hy
    rw [List.getElem?_set] at hj
    by_cases hij : i = j
    · rw [if_pos hij] at hj
      split at hj
      · cases hj
        simp [hself.1] at hpath
      · simp at hj
    · rw [if_neg hij] at hj
      have hother : y ∈ xs.eraseIdx i :=
        List.mem_eraseIdx_iff_getElem?.mpr ⟨j, fun h => hij h.symm, hj⟩
      exact hlast (by simp at hzero; omega) y hother hasked hgrounded path hpath
  · intro y hy hasked hgrounded
    rcases List.mem_or_eq_of_mem_set hy with hy | rfl
    · exact ⟨(h.landed y hy hasked hgrounded).1.set rfl, (h.landed y hy hasked hgrounded).2⟩
    · exact ⟨(h.landed x hmem hasked hgrounded).1.set rfl,
        (h.landed x hmem hasked hgrounded).2⟩
  · intro hdrained
    obtain ⟨hmode, hpaths⟩ := h.drained hdrained
    exact ⟨hmode, fun path hpath => ⟨(hpaths path hpath).1.set rfl, (hpaths path hpath).2⟩⟩

/-- **The counter is looked at.** If it shows nothing, what was counted is still empty, and nothing
is going to be forwarded. -/
theorem Barred.ground (h : Barred temp w xs) (hx : xs[i]? = some x)
    (hgrounded : x.grounded = false) :
    Barred temp w (xs.set i { x with grounded := w.inFlight = 0 }) := by
  have hmem : x ∈ xs := List.mem_of_getElem? hx
  have hcleared : x.cleared = true → w.inFlight ≠ 0 := by
    intro hcleared
    have hpos := h.inFlight_pos hmem (h.cleared x hmem hcleared)
    omega
  have hlanded : Landed xs → Landed (xs.set i { x with grounded := w.inFlight = 0 }) :=
    fun hl => hl.set (hl x hmem)
  constructor
  · exact le_of_eq_of_le (countP_set_of_eq hx rfl) h.inFlight
  · intro y hy hc
    rcases List.mem_or_eq_of_mem_set hy with hy | rfl
    · exact h.cleared y hy hc
    · exact h.cleared x hmem hc
  · intro y hy hasked
    rcases List.mem_or_eq_of_mem_set hy with hy | rfl
    · exact h.draining y hy hasked
    · exact h.draining x hmem hasked
  · intro y hy path hpath
    rcases List.mem_or_eq_of_mem_set hy with hy | rfl
    · exact h.counted y hy path hpath
    · exact h.counted x hmem path hpath
  · intro y hy hasked hg hzero path hpath
    rcases List.mem_or_eq_of_mem_set hy with hy | rfl
    · exact h.flying y hy hasked hg hzero path hpath
    · simp [hzero] at hg
  · intro y hy hasked hg
    rcases List.mem_or_eq_of_mem_set hy with hy | rfl
    · exact ⟨hlanded (h.landed y hy hasked hg).1, (h.landed y hy hasked hg).2⟩
    · have hzero : w.inFlight = 0 := by simpa using hg
      exact ⟨hlanded (h.landed_of_zero hzero), h.flying x hmem hasked hgrounded hzero⟩
  · intro hdrained
    obtain ⟨hmode, hpaths⟩ := h.drained hdrained
    exact ⟨hmode, fun path hpath => ⟨hlanded (hpaths path hpath).1, (hpaths path hpath).2⟩⟩

/-- Some places are counted, and are empty. -/
theorem Barred.count (h : Barred temp w xs) (hx : xs[i]? = some x) {places : List BusPath}
    (hplaces : ∀ path ∈ places, path ∈ temp ∧ w.broker.Empty path) :
    Barred temp w (xs.set i { x with counted := places ++ x.counted }) := by
  have hmem : x ∈ xs := List.mem_of_getElem? hx
  have hlanded : Landed xs → Landed (xs.set i { x with counted := places ++ x.counted }) :=
    fun hl => hl.set (hl x hmem)
  constructor
  · exact le_of_eq_of_le (countP_set_of_eq hx rfl) h.inFlight
  · intro y hy hc
    rcases List.mem_or_eq_of_mem_set hy with hy | rfl
    · exact h.cleared y hy hc
    · exact h.cleared x hmem hc
  · intro y hy hasked
    rcases List.mem_or_eq_of_mem_set hy with hy | rfl
    · exact h.draining y hy hasked
    · exact h.draining x hmem hasked
  · intro y hy path hpath
    rcases List.mem_or_eq_of_mem_set hy with hy | rfl
    · exact h.counted y hy path hpath
    · rcases List.mem_append.mp hpath with hpath | hpath
      · exact (hplaces path hpath).1
      · exact h.counted x hmem path hpath
  · intro y hy hasked hg hzero path hpath
    rcases List.mem_or_eq_of_mem_set hy with hy | rfl
    · exact h.flying y hy hasked hg hzero path hpath
    · rcases List.mem_append.mp hpath with hpath | hpath
      · exact (hplaces path hpath).2
      · exact h.flying x hmem hasked hg hzero path hpath
  · intro y hy hasked hg
    rcases List.mem_or_eq_of_mem_set hy with hy | rfl
    · exact ⟨hlanded (h.landed y hy hasked hg).1, (h.landed y hy hasked hg).2⟩
    · refine ⟨hlanded (h.landed x hmem hasked hg).1, fun path hpath => ?_⟩
      rcases List.mem_append.mp hpath with hpath | hpath
      · exact (hplaces path hpath).2
      · exact (h.landed x hmem hasked hg).2 path hpath
  · intro hdrained
    obtain ⟨hmode, hpaths⟩ := h.drained hdrained
    exact ⟨hmode, fun path hpath => ⟨hlanded (hpaths path hpath).1, (hpaths path hpath).2⟩⟩

/-- **The status is answered.** An answer that all is drained comes from a thread that has counted
every place and has looked at the counter. -/
theorem Barred.respond (h : Barred temp w xs) (hx : x ∈ xs) {status : PluginDrainStatusResponse}
    (hmay : status.drained = true → x.asked → ∀ path ∈ temp, path ∈ x.counted ∧ x.grounded = true) :
    Barred temp
      { w with drained := w.drained || (status.drained && x.looked = some .draining) } xs where
  inFlight := h.inFlight
  cleared := h.cleared
  draining := h.draining
  counted := h.counted
  flying := h.flying
  landed := h.landed
  drained hdrained := by
    simp only [Bool.or_eq_true, Bool.and_eq_true, decide_eq_true_eq] at hdrained
    rcases hdrained with hdrained | ⟨hstatus, hasked⟩
    · exact h.drained hdrained
    · refine ⟨h.draining x hx hasked, fun path hpath => ?_⟩
      obtain ⟨hcounted, hgrounded⟩ := hmay hstatus hasked path hpath
      obtain ⟨hlanded, hempty⟩ := h.landed x hx hasked hgrounded
      exact ⟨hlanded, hempty path hcounted⟩

/-- A worker that is cleared forwards a message. Its own message in flight keeps the barrier
open. -/
theorem Barred.forward (h : Barred temp w xs) (hx : x ∈ xs) (hcleared : x.cleared = true)
    (broker : Broker BusPath Message) : Barred temp { w with broker := broker } xs := by
  have hpos : 0 < w.inFlight := h.inFlight_pos hx (h.cleared x hx hcleared)
  have hnot : ¬ Landed xs := fun hl => by simp [hl x hx] at hcleared
  constructor
  · exact h.inFlight
  · exact h.cleared
  · exact h.draining
  · exact h.counted
  · intro y hy _ _ hzero
    have hzero' : w.inFlight = 0 := hzero
    omega
  · intro y hy hasked hgrounded
    exact absurd (h.landed y hy hasked hgrounded).1 hnot
  · intro hdrained
    obtain ⟨hmode, hpaths⟩ := h.drained hdrained
    exact ⟨hmode, fun path hpath => absurd (hpaths path hpath).1 hnot⟩

/-- Others move messages, but not to a place that was counted. -/
theorem Barred.move (h : Barred temp w xs) {v : BrokerMove BusPath Message}
    {broker : Broker BusPath Message} (hmove : w.broker.move v = some broker)
    (hv : ∀ path, v.arrival = some path → ¬ Covered temp w xs path) :
    Barred temp { w with broker := broker } xs where
  inFlight := h.inFlight
  cleared := h.cleared
  draining := h.draining
  counted := h.counted
  flying y hy hasked hgrounded hzero path hpath :=
    (h.flying y hy hasked hgrounded hzero path hpath).move
      (fun harrival => hv path harrival (.inl ⟨y, hy, hasked, hpath⟩)) hmove
  landed y hy hasked hgrounded :=
    ⟨(h.landed y hy hasked hgrounded).1, fun path hpath =>
      ((h.landed y hy hasked hgrounded).2 path hpath).move
        (fun harrival => hv path harrival (.inl ⟨y, hy, hasked, hpath⟩)) hmove⟩
  drained hdrained :=
    ⟨(h.drained hdrained).1, fun path hpath => ⟨((h.drained hdrained).2 path hpath).1,
      ((h.drained hdrained).2 path hpath).2.move
        (fun harrival => hv path harrival (.inr ⟨hdrained, hpath⟩)) hmove⟩⟩

/-- **A call of a thread** keeps the invariant, where the thread may make it and the barrier
holds. -/
theorem Barred.call (h : Barred temp w xs) (hx : xs[i]? = some x) {c : InceptorCall BusPath}
    {o : InceptorOutcome} (hmay : BusMay temp targets x c)
    (hguard : (barrier temp targets).call (xs.eraseIdx i) x w c o) :
    Barred temp (w.serve queuePath x o c).2.1 (xs.set i (w.serve queuePath x o c).2.2) := by
  have hmem : x ∈ xs := List.mem_of_getElem? hx
  have hself : xs.set i x = xs := by
    obtain ⟨hi, rfl⟩ := List.getElem?_eq_some_iff.mp hx
    exact List.set_getElem_self hi
  have hhandles : c.Handles → (∀ queue, c.sendsTo = some queue → queuePath queue ∉ temp) →
      Barred temp (w.serve queuePath x o c).2.1 (xs.set i (w.serve queuePath x o c).2.2) := by
    intro hc hsends
    refine h.untouched hx (InceptorWorld.serve_untouched hc) fun path hpath hempty => ?_
    refine InceptorWorld.serve_empty hempty c fun queue hqueue heq => ?_
    exact hsends queue hqueue (heq ▸ hpath)
  cases c with
  | mode => exact h.look hx hmay
  | setDraining =>
    show Barred temp { w with mode := .draining } (xs.set i x)
    rw [hself]
    exact h.setDraining
  | track => exact h.track hx
  | release => exact h.release hx hmay.1 hguard hmay.2
  | inFlight => exact h.ground hx hmay
  | depth places =>
    simp only [InceptorWorld.serve, InceptorMemory.found]
    split
    · rename_i hzero
      exact h.count hx fun path hpath => ⟨hmay path hpath, depthOf_eq_zero hzero.2 path hpath⟩
    · rw [hself]
      exact h
  | queueState queue => exact hmay.elim
  | respond status =>
    simp only [InceptorWorld.serve]
    rw [hself]
    exact h.respond hmem hmay
  | work c =>
    cases c with
    | publish queue message =>
      rcases hmay with hcleared | htarget
      · simp only [InceptorWorld.serve, serveWork]
        rw [hself]
        exact h.forward hmem hcleared _
      · refine hhandles trivial fun queue' hqueue => ?_
        cases hqueue
        exact hguard htarget
    | ack => exact hhandles trivial fun queue hqueue => by cases hqueue
    | requeue => exact hhandles trivial fun queue hqueue => by cases hqueue
    | now => exact hhandles trivial fun queue hqueue => by cases hqueue
    | notify url notification token => exact hhandles trivial fun queue hqueue => by cases hqueue
    | register url request token => exact hhandles trivial fun queue hqueue => by cases hqueue
  | connect => exact hhandles trivial fun queue hqueue => by cases hqueue
  | disconnect => exact hhandles trivial fun queue hqueue => by cases hqueue
  | ensureQueue queue => exact hhandles trivial fun queue hqueue => by cases hqueue
  | receive place => exact hhandles trivial fun queue hqueue => by cases hqueue

/-- **The steps of an inceptor keep the invariant.** -/
theorem barred_keeps (memory : InceptorJob → BusMemory) (hmemory : ∀ job, memory job = .start) :
    Pool.Keeps busProcess (barrier temp targets) (BusMay temp targets) memory (Barred temp) where
  start w xs job h := by
    rw [hmemory]
    exact h.start
  stop w xs i h :=
    h.subset (fun y hy => List.mem_of_mem_eraseIdx hy)
      ((List.eraseIdx_sublist xs i).countP_le)
  move w xs v w' h hguard hmove := by
    obtain ⟨broker, hbroker, rfl⟩ := Option.map_eq_some_iff.mp hmove
    exact h.move hbroker hguard
  call w xs i x c o a w' x' h hx hmay hguard hserve := by
    have hpair := Option.some.inj hserve
    have hw : w' = (w.serve queuePath x o c).2.1 := by rw [hpair]
    have hx' : x' = (w.serve queuePath x o c).2.2 := by rw [hpair]
    rw [hw, hx']
    exact h.call hx hmay hguard

end Steps

/-! ### The programs -/

section Programs

variable {temp : List BusPath} {targets : List String} {x : BusMemory}

/-- The protocol of the threads of an inceptor. -/
abbrev BusOp.Follows {α : Type} (temp : List BusPath) (targets : List String)
    (Q : α → BusMemory → Prop) (p : BusOp α) (x : BusMemory) : Prop :=
  Pool.Follows busProcess (BusMay temp targets) Q p x

/-- A drain may be made by every thread that has counted nothing. -/
theorem follows_back {α : Type} {p : BusOp α} (hp : p.Calls (MovesBack targets)) (hx : x.Fresh) :
    BusOp.Follows temp targets (fun _ => InceptorMemory.Fresh) p x := by
  refine Pool.Follows.of_calls hp hx ?_ ?_
  · intro x c hc hfresh
    cases c with
    | mode => exact hfresh
    | work c =>
      cases c with
      | publish queue message => exact .inr hc
      | _ => trivial
    | release => exact hc.elim
    | inFlight => exact hc.elim
    | depth places => exact hc.elim
    | queueState queue => exact hc.elim
    | respond status => exact hc.elim
    | _ => trivial
  · intro x w c o a w' x' hc hfresh hserve
    have hx' : x' = (w.serve queuePath x o c).2.2 := by rw [Option.some.inj hserve]
    rw [hx']
    exact hc.fresh hfresh w o

theorem follows_runtimeMode (hx : x.Fresh) :
    BusOp.Follows temp targets (fun _ => InceptorMemory.Fresh) runtimeMode x := by
  refine Pool.Follows.call hx fun w o mode w' x' hserve => ?_
  cases hserve
  exact hx

theorem movesBack_moveAvailable {source : BusPath} {target : String} (ht : target ∈ targets)
    (moves : Nat) : (moveAvailable source target moves).Calls (MovesBack targets) := by
  induction moves with
  | zero => trivial
  | succ moves ih =>
    refine (movesBack_receive source).bind fun message => ?_
    cases message with
    | none => trivial
    | some message =>
      refine (movesBack_publishTo ht message).result.bind fun r => ?_
      cases r with
      | ok => exact (movesBack_ack).bind fun _ => ih
      | error => exact (calls_logged movesBack_requeue).bind fun _ => Prog.Calls.of_fail ()

theorem movesBack_drainQueue {state : WorkerState Config} {base : String} (hbase : base ∈ targets)
    (hshadow : shadowTarget state.config base ∈ targets) (moves : Nat) (source : String) :
    (drainQueue state base moves source).Calls (MovesBack targets) := by
  refine Prog.Calls.bind ?_ fun _ => ?_
  · exact (movesBack_moveAvailable hbase moves).bind fun _ => movesBack_moveAvailable hbase moves
  · cases shadowQueueName state.config source with
    | none => trivial
    | some shadow =>
      exact (movesBack_moveAvailable hshadow moves).bind fun _ =>
        movesBack_moveAvailable hshadow moves

theorem movesBack_createTargets (infraDisabled : Bool) (state : WorkerState Config)
    (base : String) :
    (createTargets infraDisabled state base).Calls (MovesBack targets) := by
  cases infraDisabled with
  | true => trivial
  | false =>
    refine movesBack_ensureQueue.bind fun _ => ?_
    cases shadowQueueName state.config base with
    | none => trivial
    | some shadow => exact movesBack_ensureQueue

variable (infraDisabled : Bool) (state : WorkerState Config)

theorem movesBack_drainInputQueues (moves : Nat) :
    (drainInputQueues infraDisabled state moves).Calls
      (MovesBack (backTargets state.roles state.config)) := by
  unfold drainInputQueues
  cases hqueues : drainedInput state.roles state.config with
  | error e => trivial
  | ok queues =>
    cases queues with
    | none => trivial
    | some queues =>
      obtain ⟨hbase, hshadow⟩ := mem_backTargets_of_input hqueues
      exact (movesBack_createTargets infraDisabled state queues.base).bind fun _ =>
        Prog.Calls.forEach fun source _ => movesBack_drainQueue hbase hshadow moves source

theorem movesBack_drainOutputQueue {source result : String}
    (hresult : result ∈ backTargets state.roles state.config)
    (hshadow : shadowTarget state.config result ∈ backTargets state.roles state.config)
    (moves : Nat) : (drainOutputQueue infraDisabled state moves source result).Calls
      (MovesBack (backTargets state.roles state.config)) :=
  (movesBack_createTargets infraDisabled state result).bind fun _ =>
    movesBack_drainQueue hresult hshadow moves source

theorem movesBack_drainRuntimeQueues (moves : Nat) :
    (drainRuntimeQueues infraDisabled state moves).Calls
      (MovesBack (backTargets state.roles state.config)) := by
  refine (movesBack_drainInputQueues infraDisabled state moves).bind fun _ => ?_
  unfold drainOutputQueues
  split
  · cases hqueues : drainedOutput state.config with
    | error e => trivial
    | ok queues =>
      obtain ⟨hbase, hshadow⟩ := mem_backTargets_of_output state.roles hqueues
      exact (movesBack_drainOutputQueue infraDisabled state hbase hshadow moves).bind fun _ =>
        movesBack_drainOutputQueue infraDisabled state hbase hshadow moves
  · trivial

end Programs

/-! ### The status -/

section Counting

variable {temp : List BusPath} {targets : List String} {x : BusMemory} {places : List BusPath}

theorem follows_messageCount (hplaces : ∀ path ∈ places, path ∈ temp) :
    BusOp.Follows temp targets (Tally x places) (messageCount places) x := by
  refine Pool.Follows.call hplaces fun w o a w' x' hserve => ?_
  cases hserve
  cases hcall : o.call with
  | refused => trivial
  | lost => trivial
  | ok =>
    exact Tally.of_found x places _

variable (client : ServiceBusClient) (state : WorkerState Config)

/-- A queue and its dead letters. -/
def busPaths (queue : String) : List BusPath := [queuePath queue, deadLetterPath queue]

/-- The places of a queue and of its shadow. -/
def shadowedPaths (config : Config) (queue : String) : List BusPath :=
  busPaths queue ++ ((shadowQueueName config queue).map busPaths).getD []

theorem follows_queueDrainMessageCount {queue : String}
    (hplaces : ∀ path ∈ busPaths queue, path ∈ temp) :
    BusOp.Follows temp targets (Tally x (busPaths queue)) (queueDrainMessageCount client queue)
      x := by
  unfold queueDrainMessageCount
  split
  · exact follows_messageCount hplaces
  · refine (follows_messageCount fun path hpath => hplaces path ?_).bind fun active x₁ hactive => ?_
    · simp only [List.mem_singleton] at hpath
      simp [busPaths, hpath]
    · refine (follows_messageCount fun path hpath => hplaces path ?_).bind
        fun dead x₂ hdead => hactive.add hdead
      simp only [List.mem_singleton] at hpath
      simp [busPaths, hpath]

theorem follows_queueDrainMessageCountWithShadow {queue : String}
    (hplaces : ∀ path ∈ shadowedPaths state.config queue, path ∈ temp) :
    BusOp.Follows temp targets (Tally x (shadowedPaths state.config queue))
      (queueDrainMessageCountWithShadow client state queue) x := by
  unfold shadowedPaths at hplaces ⊢
  refine (follows_queueDrainMessageCount client fun path hpath =>
    hplaces path (List.mem_append_left _ hpath)).bind fun total x₁ htotal => ?_
  cases hshadow : shadowQueueName state.config queue with
  | none => simpa using htotal
  | some shadow =>
    refine (follows_queueDrainMessageCount client fun path hpath => hplaces path ?_).bind
      fun messages x₂ hmessages => htotal.add hmessages
    rw [hshadow]
    exact List.mem_append_right _ hpath

theorem mem_tempPaths {roles : List PluginRole} {config : Config} {path : BusPath} :
    path ∈ tempPaths roles config ↔
      ∃ queue ∈ managedTempQueueNames roles config, path ∈ shadowedPaths config queue := by
  simp only [tempPaths, withShadows, shadowedPaths, busPaths, List.mem_flatMap, List.mem_append,
    List.mem_filterMap]
  constructor
  · rintro ⟨queue, hqueue | ⟨queue', hqueue', hshadow⟩, hpath⟩
    · exact ⟨queue, hqueue, .inl hpath⟩
    · exact ⟨queue', hqueue', .inr (by simpa [hshadow, busPaths] using hpath)⟩
  · rintro ⟨queue, hqueue, hpath | hpath⟩
    · exact ⟨queue, .inl hqueue, hpath⟩
    · cases hshadow : shadowQueueName config queue with
      | none => simp [hshadow] at hpath
      | some shadow =>
        exact ⟨shadow, .inr ⟨queue, hqueue, hshadow⟩, by simpa [hshadow, busPaths] using hpath⟩

/-- **A status that says all is drained** has counted every place, and then found nothing in
flight. -/
theorem follows_computeDrainStatus (infraDisabled : Bool) {worker : Option QueueWorkerRole}
    (hroles : queueWorkerRole state.roles = .ok worker) (hx : x.Fresh) (moves : Nat) :
    BusOp.Follows (tempPaths state.roles state.config) (backTargets state.roles state.config)
      (fun status x' => status.drained = true →
        ∀ path ∈ tempPaths state.roles state.config, path ∈ x'.counted ∧ x'.grounded = true)
      (computeDrainStatus client infraDisabled state moves) x := by
  refine (follows_runtimeMode hx).bind fun mode x₀ hx₀ => ?_
  refine Pool.Follows.bind (R := fun _ => InceptorMemory.Fresh) ?_ fun _ x₁ hx₁ => ?_
  · split
    · exact follows_back (movesBack_drainRuntimeQueues infraDisabled state moves) hx₀
    · exact hx₀
  · cases hstatus : statusQueues state.roles state.config with
    | error e => trivial
    | ok queues =>
      cases queues with
      | none =>
        intro _ path hpath
        obtain ⟨queue, hqueue, -⟩ := mem_tempPaths.mp hpath
        rw [managedTempQueueNames_of_no_status hstatus] at hqueue
        simp at hqueue
      | some queues =>
        obtain ⟨label, green, blue⟩ := queues
        have hnames := managedTempQueueNames_of_status hroles hstatus
        have htemp : ∀ queue ∈ [green, blue], ∀ path ∈ shadowedPaths state.config queue,
            path ∈ tempPaths state.roles state.config := fun queue hqueue path hpath =>
          mem_tempPaths.mpr ⟨queue, hnames ▸ hqueue, hpath⟩
        refine (follows_queueDrainMessageCountWithShadow client state
          (htemp green (by simp))).bind fun greenMessages x₂ hgreen => ?_
        refine (follows_queueDrainMessageCountWithShadow client state
          (htemp blue (by simp))).bind fun blueMessages x₃ hblue => ?_
        have hgrounded : x₃.grounded = false :=
          hblue.grounded.trans (hgreen.grounded.trans hx₁.2)
        refine Pool.Follows.call hgrounded fun w o inFlight w' x₄ hserve => ?_
        cases hserve
        intro hdrained path hpath
        have hzero : greenMessages = 0 ∧ blueMessages = 0 ∧ w.inFlight = 0 := by
          simpa [queueDrainStatus] using hdrained
        obtain ⟨queue, hqueue, hpath⟩ := mem_tempPaths.mp hpath
        rw [hnames] at hqueue
        refine ⟨?_, by simpa using hzero.2.2⟩
        have hadd := (hgreen.add hblue).counted (by omega) path
        rcases List.mem_cons.mp hqueue with rfl | hqueue
        · exact hadd (List.mem_append_left _ hpath)
        · rw [List.mem_singleton.mp hqueue] at hpath
          exact hadd (List.mem_append_right _ hpath)

end Counting

/-! ### The workers -/

section Workers

variable {temp : List BusPath} {targets : List String} {x : BusMemory}

/-- **A turn that counts as a message in flight** forwards a message only after it has found the
inceptor active while it counts as one. -/
theorem follows_tracked {turn : RuntimeMode → WorkerOp Unit} (hx : x.Fresh)
    (hturn : ∀ mode, (turn mode).Calls fun c => ∀ queue message, c = .publish queue message →
      mode = .active ∨ queue ∈ targets) :
    BusOp.Follows temp targets (fun _ _ => True) (tracked turn) x := by
  refine Pool.Follows.bind (R := fun _ x => x.tracked = true ∧ x.Fresh) ?_ fun _ x₀ hx₀ => ?_
  · refine Pool.Follows.call trivial fun w₀ o₀ _ w₀' x₀ hserve₀ => ?_
    cases hserve₀
    exact ⟨rfl, hx⟩
  refine Pool.Follows.bind (R := fun mode x => x.tracked = true ∧
    (mode = .active → x.cleared = true) ∧ x.Fresh) ?_ fun mode x₁ hx₁ => ?_
  · refine Pool.Follows.call hx₀.2 fun w₁ o₁ mode w₁' x₁ hserve₁ => ?_
    cases hserve₁
    refine ⟨hx₀.1, fun hactive => ?_, hx₀.2⟩
    have hmode : w₁.mode = .active := hactive
    simp [hx₀.1, hmode]
  -- nothing the turn does changes that
  refine Pool.Follows.bind (R := fun _ x => x.tracked = true ∧ (mode = .active → x.cleared = true) ∧
    x.Fresh) ?_ ?_
  · refine Pool.Follows.of_calls (F := fun c => ∃ work, c = .work work ∧ ∀ queue message,
      work = .publish queue message → mode = .active ∨ queue ∈ targets) ?_ hx₁ ?_ ?_
    · exact calls_logged (Prog.Calls.lift ((hturn mode).mono fun work hwork => ⟨work, rfl, hwork⟩))
    · rintro x₂ c ⟨work, rfl, hwork⟩ hx₂
      cases work with
      | publish queue message =>
        rcases hwork queue message rfl with hactive | htarget
        · exact .inl (hx₂.2.1 hactive)
        · exact .inr htarget
      | _ => trivial
    · rintro x₂ w c o a w' x₃ ⟨work, rfl, -⟩ hx₂ hserve
      have hx₃ : x₃ = (w.serve queuePath x₂ o (.work work)).2.2 := by rw [Option.some.inj hserve]
      have hhandles : (InceptorCall.work work : InceptorCall BusPath).Handles := trivial
      have hu : Untouched w _ x₂ x₃ := hx₃ ▸ InceptorWorld.serve_untouched hhandles
      exact ⟨hu.tracked.trans hx₂.1, fun hactive => hu.cleared.trans (hx₂.2.1 hactive),
        hu.fresh hx₂.2.2⟩
  · intro _ x₂ hx₂
    refine Pool.Follows.call ⟨hx₂.1, hx₂.2.2⟩ fun w o _ w' x₃ hserve => ?_
    trivial

theorem calls_abandonLate : (abandonLate).Calls fun c => ∀ queue message,
    c ≠ .publish queue message := by
  refine Prog.Calls.bind (Prog.Calls.result ?_) fun _ => trivial
  exact Prog.Calls.bind (Prog.Calls.of_ask.mpr (by simp)) fun r => Prog.Calls.of_ofExcept r

variable (infraDisabled : Bool) (state : WorkerState Config)

theorem follows_runInputPipeline (hx : x.Fresh) (moves : Nat) :
    BusOp.Follows temp (backTargets state.roles state.config) (fun _ _ => True)
      (runInputPipeline infraDisabled state moves) x := by
  unfold runInputPipeline
  cases inputQueue state.roles state.config with
  | error e => trivial
  | ok input =>
    refine (follows_runtimeMode hx).bind fun mode x₀ hx₀ => ?_
    cases mode with
    | idle => trivial
    | draining =>
      refine (follows_back (calls_logged ?_) hx₀).mono (fun _ _ _ => trivial) fun _ _ h => h
      exact movesBack_drainInputQueues infraDisabled state moves
    | active =>
      refine (follows_back (movesBack_receive _).result hx₀).bind fun r x₁ hx₁ => ?_
      cases r with
      | error e => trivial
      | ok message =>
        cases message with
        | none => trivial
        | some message =>
          refine follows_tracked hx₁ fun mode => ?_
          unfold inputTurn
          split
          · rename_i hactive
            exact (Prog.Calls.any _).mono fun _ _ _ _ _ => .inl hactive
          · exact calls_abandonLate.mono fun c hc queue message heq => absurd heq (hc queue message)

theorem follows_runCombineLoop (hx : x.Fresh) (moves : Nat) {source result : String}
    (hresult : result ∈ backTargets state.roles state.config)
    (hshadow : shadowTarget state.config result ∈ backTargets state.roles state.config) :
    BusOp.Follows temp (backTargets state.roles state.config) (fun _ _ => True)
      (runCombineLoop infraDisabled state moves source result) x := by
  unfold runCombineLoop
  cases required state.config.combiner with
  | error e => trivial
  | ok combiner =>
    refine (follows_runtimeMode hx).bind fun mode x₀ hx₀ => ?_
    cases mode with
    | idle => trivial
    | draining =>
      refine (follows_back (calls_logged ?_) hx₀).mono (fun _ _ _ => trivial) fun _ _ h => h
      exact movesBack_drainOutputQueue infraDisabled state hresult hshadow moves
    | active =>
      refine (follows_back (movesBack_receive _).result hx₀).bind fun r x₁ hx₁ => ?_
      cases r with
      | error e => trivial
      | ok message =>
        cases message with
        | none => trivial
        | some message =>
          refine follows_tracked hx₁ fun mode => ?_
          unfold combineTurn
          split
          · rename_i hactive
            exact (Prog.Calls.any _).mono fun _ _ _ _ _ => .inl hactive
          · exact calls_abandonLate.mono fun c hc queue message heq => absurd heq (hc queue message)

/-- **Every thread of an inceptor follows the protocol.** -/
theorem follows_inceptorJobs (client : ServiceBusClient) (job : InceptorJob) :
    BusOp.Follows (tempPaths state.roles state.config) (backTargets state.roles state.config)
      (fun _ _ => True) (inceptorJobs client infraDisabled state job).prog .start := by
  have hx : (InceptorMemory.start : BusMemory).Fresh := InceptorMemory.fresh_start
  unfold inceptorJobs inceptorThread
  cases hroles : queueWorkerRole state.roles with
  | error e => trivial
  | ok worker =>
    cases job with
    | input trafficPercent moves =>
      simp only [inceptorProgram]
      split
      · exact follows_runInputPipeline infraDisabled { state with trafficPercent := trafficPercent }
          hx moves
      · trivial
    | combine blue moves =>
      simp only [inceptorProgram]
      split
      · cases hqueues : drainedOutput state.config with
        | error e => trivial
        | ok queues =>
          obtain ⟨hbase, hshadow⟩ := mem_backTargets_of_output state.roles hqueues
          exact follows_runCombineLoop infraDisabled state hx moves hbase hshadow
      · trivial
    | drain moves =>
      refine Pool.Follows.call trivial fun w o _ w' x' hserve => ?_
      have hx' : x'.Fresh := by
        cases hserve
        exact hx
      exact (follows_back (movesBack_drainRuntimeQueues infraDisabled state moves) hx').mono
        (fun _ _ _ => trivial) fun _ _ h => h
    | status moves =>
      refine (follows_computeDrainStatus client state infraDisabled hroles hx moves).bind
        fun status x' hstatus => ?_
      refine Pool.Follows.call (fun hdrained _ => hstatus hdrained) fun w o _ w' x'' hserve => ?_
      trivial

end Workers

/-- **The drain barrier.** Once a status call that found the inceptor draining has answered that it
is drained, its temporary queues, their shadows and the dead letters of both are empty, and no
worker is going to forward a message, in every run whose steps keep the barrier. -/
theorem drained_means_empty (client : ServiceBusClient) (infraDisabled : Bool)
    (state : WorkerState Config) (broker : Broker BusPath Message) (mode : RuntimeMode)
    {s : Pool (InceptorCall BusPath) InceptorAnswer Unit BusMemory BusWorld}
    (r : Pool.Run busProcess (inceptorJobs client infraDisabled state)
      (barrier (tempPaths state.roles state.config) (backTargets state.roles state.config))
      ⟨.start broker mode, []⟩ s)
    (hdrained : s.world.drained = true) :
    ∀ path ∈ tempPaths state.roles state.config,
      s.world.broker.Empty path ∧ ∀ t ∈ s.threads, t.memory.cleared = false := by
  have hstart : Barred (tempPaths state.roles state.config) (.start broker mode) [] := by
    constructor <;> simp [InceptorWorld.start]
  have hkeeps : Pool.Keeps busProcess
      (barrier (tempPaths state.roles state.config) (backTargets state.roles state.config))
      (BusMay (tempPaths state.roles state.config) (backTargets state.roles state.config))
      (fun job => (inceptorJobs client infraDisabled state job).memory)
      (Barred (tempPaths state.roles state.config)) :=
    barred_keeps _ fun _ => rfl
  obtain ⟨hbarred, -⟩ := Pool.Run.keeps hkeeps
    (fun job => follows_inceptorJobs infraDisabled state client job) hstart r
  intro path hpath
  obtain ⟨hlanded, hempty⟩ := (hbarred.drained hdrained).2 path hpath
  exact ⟨hempty, fun t ht => hlanded t.memory (List.mem_map_of_mem ht)⟩

section Runs

variable (temp : List BusPath) (targets : List String)

instance (others : List BusMemory) (x : BusMemory) (w : BusWorld) : (c : InceptorCall BusPath) →
    (o : InceptorOutcome) → Decidable ((barrier temp targets).call others x w c o)
  | .work (.publish queue _), _ =>
    inferInstanceAs (Decidable (queue ∈ targets → queuePath queue ∉ temp))
  | .release, _ => inferInstanceAs (Decidable (w.inFlight ≤ 1 → ∀ y ∈ others, y.asked →
      y.grounded = false → ∀ path ∈ y.counted, w.broker.Empty path))
  | .work .ack, _ => .isTrue trivial
  | .work .requeue, _ => .isTrue trivial
  | .work .now, _ => .isTrue trivial
  | .work (.notify _ _ _), _ => .isTrue trivial
  | .work (.register _ _ _), _ => .isTrue trivial
  | .mode, _ => .isTrue trivial
  | .setDraining, _ => .isTrue trivial
  | .track, _ => .isTrue trivial
  | .inFlight, _ => .isTrue trivial
  | .connect, _ => .isTrue trivial
  | .disconnect, _ => .isTrue trivial
  | .ensureQueue _, _ => .isTrue trivial
  | .receive _, _ => .isTrue trivial
  | .depth _, _ => .isTrue trivial
  | .queueState _, _ => .isTrue trivial
  | .respond _, _ => .isTrue trivial

instance (all : List BusMemory) (w : BusWorld) (v : BrokerMove BusPath Message) :
    Decidable ((barrier temp targets).move all w v) :=
  match h : v.arrival with
  | none => .isTrue fun path hpath => by simp [h] at hpath
  | some path => decidable_of_iff (¬ Covered temp w all path)
      ⟨fun hnot path' hpath => by rw [h] at hpath; cases hpath; exact hnot, fun hall => hall path h⟩

end Runs

/-! ### Runs of an inceptor -/

namespace Runs

/-- A splitter of the queue `orders`, with the names that the manager derives. -/
def splitter : WorkerState Config where
  crates := FluidBG.Sample.workerCrates
  config := {
    queueDeclaration := .empty
    shadowQueue := none
    duplicator := none
    splitter := some {
      inputQueue := some "orders"
      greenInputQueue := some "fluidbg-green-in"
      blueInputQueue := some "fluidbg-blue-in"
      greenInputQueueEnvVar := some "INPUT_QUEUE"
      blueInputQueueEnvVar := some "INPUT_QUEUE" }
    combiner := none
    writer := none
    consumer := none
    observer := none }
  roles := [.splitter]
  trafficPercent := 0
  runtime := FluidBG.Sample.workerRuntime

/-- A client with a connection string. -/
def client : ServiceBusClient := ⟨false, none⟩

/-- Every call of the thread succeeds. -/
def answers (i n : Nat) :
    List (Pool.Event InceptorJob InceptorOutcome (BrokerMove BusPath Message)) :=
  List.replicate n (.answer i ⟨.ok, some 200, 0, 0⟩)

end Runs

def drainedWithAMessageInGreenRun :
    PLift ((Pool.run Watch.still busProcess (inceptorJobs Runs.client true Runs.splitter)
      ⟨.start (Broker.empty.put (queuePath "orders") FluidBG.Sample.order) .active, []⟩
      ([.start (.input 0 2)] ++ Runs.answers 0 4 ++ [.start (.drain 2)] ++ Runs.answers 1 5 ++
        [.start (.status 2)] ++ Runs.answers 2 9 ++ Runs.answers 0 3 ++
        Runs.answers 2 2)).map (fun s => (s.world.drained,
          decide (s.world.broker.Empty (queuePath "fluidbg-green-in")))) = some (true, false)) :=
  ⟨by decide +kernel⟩

/-- **The counter is read after the queues are counted.** A worker that was cleared before the drain
forwards its message when green has been counted, and is done before the counter is looked at. -/
theorem drained_with_a_message_in_green : ∃ s,
    Pool.Run busProcess (inceptorJobs Runs.client true Runs.splitter) Watch.still
      ⟨.start (Broker.empty.put (queuePath "orders") FluidBG.Sample.order) .active, []⟩ s ∧
    (s.world.drained, decide (s.world.broker.Empty (queuePath "fluidbg-green-in"))) =
      (true, false) := by
  have h := drainedWithAMessageInGreenRun.down
  exact Pool.Run.exists_of_run h

def drainedMeansEmptySplitterRun :
    PLift ((Pool.run (barrier (tempPaths Runs.splitter.roles Runs.splitter.config)
        (backTargets Runs.splitter.roles Runs.splitter.config)) busProcess
      (inceptorJobs Runs.client true Runs.splitter)
      ⟨.start (Broker.empty.put (queuePath "fluidbg-green-in") FluidBG.Sample.order) .active, []⟩
      ([.start (.drain 2)] ++ Runs.answers 0 8 ++ [.start (.status 2)] ++
        Runs.answers 1 11)).map (fun s => s.world.drained) = some true) :=
  ⟨by decide +kernel⟩

/-- A message in the temporary queue of green is moved back by the drain. -/
theorem drained_means_empty_splitter : ∃ s : Pool (InceptorCall BusPath) InceptorAnswer Unit
      BusMemory BusWorld, s.world.drained = true ∧
    ∀ path ∈ tempPaths Runs.splitter.roles Runs.splitter.config,
      s.world.broker.Empty path ∧ ∀ t ∈ s.threads, t.memory.cleared = false := by
  have h := drainedMeansEmptySplitterRun.down
  obtain ⟨s, r, hdrained⟩ := Pool.Run.exists_of_run h
  exact ⟨s, hdrained, drained_means_empty _ _ _ _ _ r hdrained⟩

end ServiceBus

end FluidBG
