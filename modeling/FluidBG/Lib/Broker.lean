import Mathlib.Data.List.Basic
/-!
# A broker

What a queue broker keeps: messages at places, some of them handed out under a receipt and not yet
settled. A message that is handed out stays at its place until its receipt is settled, so a place is
empty only when nothing is held of it either.

Every operation says where a message may have arrived; at all other places what was empty stays
empty, and that is all one has to know about an operation to follow a place that is being drained.
-/

set_option autoImplicit false

namespace FluidBG.Lib

/-- A message at a place, and the receipt under which it is held. -/
structure Stored (P M : Type) where
  place : P
  message : M
  receipt : Option Nat
  deriving DecidableEq

structure Broker (P M : Type) where
  stored : List (Stored P M)
  /-- The number of receipts given out. -/
  receipts : Nat

/-- What others do to the messages of a broker; a message is named by its position. -/
inductive BrokerMove (P M : Type) where
  /-- A message is sent to a place. -/
  | put (place : P) (message : M)
  /-- Somebody else takes hold of a message. -/
  | hold (i : Nat)
  /-- A message is free again: it was given back, or whoever held it is gone. -/
  | free (i : Nat)
  /-- A message is settled. -/
  | drop (i : Nat)
  /-- A message goes to another place, as a dead letter does. -/
  | shift (i : Nat) (place : P)
  deriving DecidableEq

namespace Broker

variable {P M : Type}

def empty : Broker P M := ⟨[], 0⟩

def put (b : Broker P M) (place : P) (message : M) : Broker P M :=
  { b with stored := b.stored ++ [⟨place, message, none⟩] }

/-- The first message of the place that nobody holds, and the messages with that one held. -/
def takeFrom [DecidableEq P] (place : P) (receipt : Nat) :
    List (Stored P M) → Option (M × List (Stored P M))
  | [] => none
  | s :: rest =>
    if s.place = place ∧ s.receipt = none then
      some (s.message, { s with receipt := some receipt } :: rest)
    else match takeFrom place receipt rest with
      | some (message, rest') => some (message, s :: rest')
      | none => none

/-- A message of the place is handed out under a fresh receipt. -/
def take [DecidableEq P] (b : Broker P M) (place : P) : Option (Nat × M × Broker P M) :=
  match takeFrom place b.receipts b.stored with
  | some (message, stored) => some (b.receipts, message, ⟨stored, b.receipts + 1⟩)
  | none => none

def settle (b : Broker P M) (receipt : Nat) : Broker P M :=
  { b with stored := b.stored.filter fun s => s.receipt ≠ some receipt }

def giveBack (b : Broker P M) (receipt : Nat) : Broker P M :=
  { b with stored := b.stored.map fun s =>
    if s.receipt = some receipt then { s with receipt := none } else s }

/-- What is at a place: free messages, and held ones. -/
def ready [DecidableEq P] (b : Broker P M) (place : P) : Nat :=
  b.stored.countP fun s => s.place = place ∧ s.receipt = none

def held [DecidableEq P] (b : Broker P M) (place : P) : Nat :=
  b.stored.countP fun s => s.place = place ∧ s.receipt.isSome

def setReceipt (b : Broker P M) (i : Nat) (receipt : Option Nat) : Option (Broker P M) :=
  match b.stored[i]? with
  | some s => some { b with stored := b.stored.set i { s with receipt := receipt } }
  | none => none

/-- A message goes to another place, and is free there. -/
def transfer (b : Broker P M) (i : Nat) (place : P) : Option (Broker P M) :=
  match b.stored[i]? with
  | some s => some { b with stored := b.stored.set i ⟨place, s.message, none⟩ }
  | none => none

def move (b : Broker P M) : BrokerMove P M → Option (Broker P M)
  | .put place message => some (b.put place message)
  | .hold i => { b with receipts := b.receipts + 1 }.setReceipt i (some b.receipts)
  | .free i => b.setReceipt i none
  | .drop i => some { b with stored := b.stored.eraseIdx i }
  | .shift i place => b.transfer i place

/-! ## Empty places -/

def Empty (b : Broker P M) (place : P) : Prop := ∀ s ∈ b.stored, s.place ≠ place

instance [DecidableEq P] (b : Broker P M) (place : P) : Decidable (b.Empty place) :=
  inferInstanceAs (Decidable (∀ s ∈ b.stored, s.place ≠ place))

variable {b b' : Broker P M} {place other : P}

/-- A place where nothing is ready and nothing is held is empty. -/
theorem empty_iff [DecidableEq P] : b.Empty place ↔ b.ready place = 0 ∧ b.held place = 0 := by
  simp only [Empty, ready, held, List.countP_eq_zero, decide_eq_true_eq, not_and]
  constructor
  · intro h
    exact ⟨fun s hs hplace => absurd hplace (h s hs), fun s hs hplace => absurd hplace (h s hs)⟩
  · rintro ⟨hready, hheld⟩ s hs hplace
    cases hreceipt : s.receipt with
    | none => exact hready s hs hplace hreceipt
    | some receipt => exact hheld s hs hplace (by simp [hreceipt])

/-- What lies at places where something lay before leaves empty places empty. -/
theorem Empty.of_places (h : b.Empty place)
    (hplaces : ∀ s ∈ b'.stored, ∃ s₀ ∈ b.stored, s.place = s₀.place) : b'.Empty place := by
  intro s hs
  obtain ⟨s₀, hs₀, heq⟩ := hplaces s hs
  rw [heq]
  exact h s₀ hs₀

theorem Empty.put (h : b.Empty place) {message : M} (hne : other ≠ place) :
    (b.put other message).Empty place := by
  intro s hs
  rcases List.mem_append.mp hs with hs | hs
  · exact h s hs
  · rw [List.mem_singleton.mp hs]
    exact hne

theorem places_of_takeFrom [DecidableEq P] {receipt : Nat} {message : M} {xs ys : List (Stored P M)}
    (h : takeFrom other receipt xs = some (message, ys)) :
    ∀ s ∈ ys, ∃ s₀ ∈ xs, s.place = s₀.place := by
  induction xs generalizing ys with
  | nil => simp [takeFrom] at h
  | cons x xs ih =>
    unfold takeFrom at h
    split at h
    · cases h
      intro s hs
      rcases List.mem_cons.mp hs with rfl | hs
      · exact ⟨x, by simp, rfl⟩
      · exact ⟨s, List.mem_cons_of_mem _ hs, rfl⟩
    · split at h
      · rename_i rest' hrest
        cases h
        intro s hs
        rcases List.mem_cons.mp hs with rfl | hs
        · exact ⟨s, by simp, rfl⟩
        · obtain ⟨s₀, hs₀, heq⟩ := ih hrest s hs
          exact ⟨s₀, List.mem_cons_of_mem _ hs₀, heq⟩
      · simp at h

/-- The message that is taken, and what stands before and behind it. -/
theorem takeFrom_split [DecidableEq P] {receipt : Nat} {message : M} {xs ys : List (Stored P M)}
    (h : takeFrom place receipt xs = some (message, ys)) :
    ∃ bs s cs, xs = bs ++ s :: cs ∧ s.place = place ∧ s.receipt = none ∧ s.message = message ∧
      ys = bs ++ { s with receipt := some receipt } :: cs := by
  induction xs generalizing ys with
  | nil => simp [takeFrom] at h
  | cons x xs ih =>
    unfold takeFrom at h
    split at h
    · rename_i hx
      cases h
      exact ⟨[], x, xs, rfl, hx.1, hx.2, rfl, rfl⟩
    · split at h
      · rename_i rest' hrest
        cases h
        obtain ⟨bs, s, cs, rfl, hplace, hfree, hmessage, rfl⟩ := ih hrest
        exact ⟨x :: bs, s, cs, rfl, hplace, hfree, hmessage, rfl⟩
      · simp at h

/-- Where no message is taken, none is ready. -/
theorem ready_of_take [DecidableEq P] (h : b.take place = none) : b.ready place = 0 := by
  have hnone : ∀ xs : List (Stored P M), takeFrom place b.receipts xs = none →
      ∀ s ∈ xs, ¬ (s.place = place ∧ s.receipt = none) := by
    intro xs
    induction xs with
    | nil => simp
    | cons x xs ih =>
      intro hxs s hs
      unfold takeFrom at hxs
      split at hxs
      · cases hxs
      · rename_i hx
        split at hxs
        · cases hxs
        · rename_i hrest
          rcases List.mem_cons.mp hs with rfl | hs
          · exact hx
          · exact ih hrest s hs
  unfold take at h
  split at h
  · cases h
  · rename_i hstored
    rw [ready, List.countP_eq_zero]
    intro s hs
    simpa using hnone _ hstored s hs

theorem set_split {xs : List (Stored P M)} {i : Nat} {s : Stored P M} (h : xs[i]? = some s) :
    ∃ bs cs, xs = bs ++ s :: cs ∧ ∀ s', xs.set i s' = bs ++ s' :: cs := by
  induction xs generalizing i with
  | nil => simp at h
  | cons x xs ih =>
    cases i with
    | zero =>
      cases h
      exact ⟨[], xs, rfl, fun _ => rfl⟩
    | succ i =>
      obtain ⟨bs, cs, rfl, hset⟩ := ih (by simpa using h)
      exact ⟨x :: bs, cs, rfl, fun s' => by simp [hset]⟩

theorem Empty.take [DecidableEq P] (h : b.Empty place) {receipt : Nat} {message : M}
    (ht : b.take other = some (receipt, message, b')) : b'.Empty place := by
  unfold Broker.take at ht
  split at ht
  · rename_i m stored hstored
    cases ht
    exact h.of_places (places_of_takeFrom hstored)
  · simp at ht

theorem Empty.settle (h : b.Empty place) (receipt : Nat) : (b.settle receipt).Empty place :=
  h.of_places fun s hs => ⟨s, (List.mem_filter.mp hs).1, rfl⟩

theorem Empty.giveBack (h : b.Empty place) (receipt : Nat) : (b.giveBack receipt).Empty place := by
  refine h.of_places fun s hs => ?_
  obtain ⟨s₀, hs₀, rfl⟩ := List.mem_map.mp hs
  refine ⟨s₀, hs₀, ?_⟩
  split <;> rfl

theorem Empty.setReceipt (h : b.Empty place) {i : Nat} {receipt : Option Nat}
    (hs : b.setReceipt i receipt = some b') : b'.Empty place := by
  unfold Broker.setReceipt at hs
  split at hs
  · rename_i s hget
    cases hs
    refine h.of_places fun s' hs' => ?_
    rcases List.mem_or_eq_of_mem_set hs' with hs' | rfl
    · exact ⟨s', hs', rfl⟩
    · exact ⟨s, List.mem_of_getElem? hget, rfl⟩
  · simp at hs

end Broker

/-- Where a move of others brings a message. -/
def BrokerMove.arrival {P M : Type} : BrokerMove P M → Option P
  | .put place _ => some place
  | .shift _ place => some place
  | _ => none

namespace Broker

variable {P M : Type} {b b' : Broker P M} {place : P}

theorem Empty.transfer (h : b.Empty place) {i : Nat} {other : P} (hne : other ≠ place)
    (ht : b.transfer i other = some b') : b'.Empty place := by
  unfold Broker.transfer at ht
  split at ht
  · cases ht
    intro s hs
    rcases List.mem_or_eq_of_mem_set hs with hs | rfl
    · exact h s hs
    · exact hne
  · simp at ht

/-- **What others do** leaves a place empty where no message arrives. -/
theorem Empty.move (h : b.Empty place) {v : BrokerMove P M} (hv : v.arrival ≠ some place)
    (hmove : b.move v = some b') : b'.Empty place := by
  cases v with
  | put other message =>
    cases hmove
    exact h.put fun heq => hv (congrArg some heq)
  | hold i =>
    have hb : ({ b with receipts := b.receipts + 1 } : Broker P M).Empty place := h
    exact hb.setReceipt hmove
  | free i => exact h.setReceipt hmove
  | drop i =>
    cases hmove
    exact h.of_places fun s hs => ⟨s, List.mem_of_mem_eraseIdx hs, rfl⟩
  | shift i other => exact h.transfer (fun heq => hv (congrArg some heq)) hmove

end Broker

end FluidBG.Lib
