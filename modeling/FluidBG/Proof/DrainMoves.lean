import FluidBG.Plugins.Movers
import FluidBG.Plugins.Sample
import FluidBG.Proof.DrainBarrier
import Mathlib.Data.List.Perm.Basic
/-!
# Drains lose nothing

A message of a temporary queue that is being drained is taken, published where it belongs, and
settled, by whichever mover gets hold of it. Whatever fails on the way, it is in its queue or in the
one it is moved to, and a loop ends after as many turns as there are messages.
-/

set_option autoImplicit false

namespace FluidBG

open Lib

/-! ## The invariant -/

section Invariant

variable {P : Type} {L : Places P} {moves : List (String × String)}

theorem Places.Moves.source {p q : P} (h : L.Moves moves p q) : L.Source moves p := by
  obtain ⟨m, hm, hp, -⟩ := h
  exact ⟨m, hm, hp⟩

theorem Places.not_source_of_moves (hapart : Apart moves) {p q : P} (h : L.Moves moves p q) :
    ¬ L.Source moves q := by
  rintro ⟨m', hm', hq⟩
  obtain ⟨m, hm, -, rfl⟩ := h
  rw [L.queue_place] at hq
  exact hapart m hm m' hm' hq.symm

theorem Places.Source.of_queue {p q : P} (h : L.Source moves p) (hq : L.queue q = L.queue p) :
    L.Source moves q := by
  obtain ⟨m, hm, hp⟩ := h
  exact ⟨m, hm, hp.trans hq.symm⟩

theorem Places.Moves.of_queue {p p' q : P} (h : L.Moves moves p' q) (hp : L.queue p' = L.queue p) :
    L.Moves moves p q := by
  obtain ⟨m, hm, hq, rfl⟩ := h
  exact ⟨m, hm, hq.trans hp, rfl⟩

variable (L moves) in
/-- The routes of the movers. -/
def moverRoutes (hapart : Apart moves) : Routes P where
  moves := L.Moves moves
  slides := L.Slides moves
  leads := L.Leads moves
  refl _ := .inl rfl
  move {p q q'} hleads hmoves := by
    rcases hleads with rfl | ⟨-, hqueue⟩ | hmoved
    · exact .inr (.inr hmoves)
    · exact .inr (.inr (hmoves.of_queue hqueue))
    · exact absurd hmoves.source (Places.not_source_of_moves hapart hmoved)
  slide {p q q'} hleads hslides := by
    rcases hleads with rfl | ⟨hsource, hqueue⟩ | hmoved
    · exact .inr (.inl hslides)
    · exact .inr (.inl ⟨hsource, hslides.2.trans hqueue⟩)
    · exact absurd hslides.1 (Places.not_source_of_moves hapart hmoved)
  apart hmoves := by
    have hnot := Places.not_source_of_moves hapart hmoves
    exact ⟨fun q' h => hnot h.source, fun q' h => hnot h.1⟩

/-- What the threads hold. -/
def handsOf (xs : List (MoverMemory P)) : List (Hand P Message) := xs.filterMap (·.hand)

/-- **The invariant of a run.** -/
structure Moving (L : Places P) {moves : List (String × String)} (hapart : Apart moves)
    (w : MoverWorld P) (xs : List (MoverMemory P)) : Prop where
  custody : Custody (moverRoutes L moves hapart) w.arrived w.inceptor.broker.stored
    w.inceptor.broker.receipts (handsOf xs)
  quiet : w.inceptor.mode ≠ .active
  idle : ∀ x ∈ xs, x.active = false
  same : ∀ x ∈ xs, x.inceptor.receipt = x.hand.map (·.receipt)
  /-- Every message that was moved has left its source. -/
  bounded : (w.inceptor.broker.stored.countP fun s => L.Source moves s.place) +
    countAll (·.moved) xs ≤ w.arrived.countP fun e => L.Source moves e.1

/-- Where a mover may make which call. -/
def Careful (L : Places P) (moves : List (String × String)) (x : MoverMemory P) :
    InceptorCall P → Prop
  | .receive source => x.hand = none ∧ L.Source moves source
  | .work (.publish queue message) => ∃ h, x.hand = some h ∧ h.copy = none ∧
      message = h.message ∧ L.Moves moves h.place (L.place queue)
  | .work .ack => ∃ h, x.hand = some h ∧ h.copy ≠ none
  | _ => True

/-- A thread that has found the inceptor active is no mover. -/
def MoverMay (L : Places P) (moves : List (String × String)) (x : MoverMemory P)
    (c : InceptorCall P) : Prop := x.active = true ∨ Careful L moves x c

/-! ## Threads, one of them in front -/

section Lists

variable {xs : List (MoverMemory P)} {x x' : MoverMemory P} {i : Nat}

theorem handsOf_perm (h : xs[i]? = some x) :
    (handsOf xs).Perm (x.hand.toList ++ handsOf (xs.eraseIdx i)) := by
  obtain ⟨hi, rfl⟩ := List.getElem?_eq_some_iff.mp h
  have hperm := (List.getElem_cons_eraseIdx_perm hi).symm.filterMap (·.hand)
  refine hperm.trans (.of_eq ?_)
  cases hhand : xs[i].hand <;> simp [handsOf, hhand]

theorem handsOf_set_perm (h : xs[i]? = some x) (x' : MoverMemory P) :
    (handsOf (xs.set i x')).Perm (x'.hand.toList ++ handsOf (xs.eraseIdx i)) := by
  obtain ⟨hi, rfl⟩ := List.getElem?_eq_some_iff.mp h
  have hperm := (List.set_perm_cons_eraseIdx hi x').filterMap (·.hand)
  refine hperm.trans (.of_eq ?_)
  cases hhand : x'.hand <;> simp [handsOf, hhand]

theorem countAll_append {α : Type} (f : α → Nat) (xs ys : List α) :
    countAll f (xs ++ ys) = countAll f xs + countAll f ys := by
  induction xs with
  | nil => simp [countAll]
  | cons x xs ih => simp only [List.cons_append, countAll, ih, Nat.add_assoc]

theorem countAll_eraseIdx_le {α : Type} (f : α → Nat) (xs : List α) (i : Nat) :
    countAll f (xs.eraseIdx i) ≤ countAll f xs := by
  induction xs generalizing i with
  | nil => simp [countAll]
  | cons x xs ih =>
    cases i with
    | zero => simp [countAll]
    | succ i =>
      have hrest := ih i
      simp only [List.eraseIdx_cons_succ, countAll]
      omega

theorem countAll_set {α : Type} (f : α → Nat) {xs : List α} {i : Nat} {x : α}
    (h : xs[i]? = some x) (x' : α) :
    countAll f (xs.set i x') + f x = countAll f xs + f x' := by
  induction xs generalizing i with
  | nil => simp at h
  | cons y ys ih =>
    cases i with
    | zero =>
      cases h
      simp only [List.set_cons_zero, countAll]
      omega
    | succ i =>
      have hrest := ih (i := i) (by simpa using h)
      simp only [List.set_cons_succ, countAll]
      omega

theorem moved_le_countAll {xs : List (MoverMemory P)} {x : MoverMemory P} (h : x ∈ xs) :
    x.moved ≤ countAll (·.moved) xs := by
  induction xs with
  | nil => simp at h
  | cons y ys ih =>
    simp only [countAll]
    rcases List.mem_cons.mp h with rfl | h
    · omega
    · have hrest := ih h
      omega

end Lists

/-! ## Steps -/

section Steps

variable {hapart : Apart moves} {w w' : MoverWorld P} {xs : List (MoverMemory P)}
  {x x' : MoverMemory P} {i : Nat} {o : InceptorOutcome}

variable (L moves) in
/-- The messages that are still to be moved. -/
def sources (b : Broker P Message) : Nat := b.stored.countP fun s => L.Source moves s.place

theorem Moving.front (h : Moving L hapart w xs) (hx : xs[i]? = some x) :
    Custody (moverRoutes L moves hapart) w.arrived w.inceptor.broker.stored
      w.inceptor.broker.receipts (x.hand.toList ++ handsOf (xs.eraseIdx i)) :=
  h.custody.perm (.refl _) (handsOf_perm hx)

/-- One thread goes on. -/
theorem Moving.update (h : Moving L hapart w xs) (hx : xs[i]? = some x)
    (hcustody : Custody (moverRoutes L moves hapart) w.arrived w'.inceptor.broker.stored
      w'.inceptor.broker.receipts (x'.hand.toList ++ handsOf (xs.eraseIdx i)))
    (harrived : w'.arrived = w.arrived) (hquiet : w'.inceptor.mode ≠ .active)
    (hidle : x'.active = false) (hsame : x'.inceptor.receipt = x'.hand.map (·.receipt))
    (hcount : sources L moves w'.inceptor.broker + x'.moved ≤
      sources L moves w.inceptor.broker + x.moved) : Moving L hapart w' (xs.set i x') where
  custody := by
    rw [harrived]
    exact hcustody.perm (.refl _) (handsOf_set_perm hx x').symm
  quiet := hquiet
  idle y hy := by
    rcases List.mem_or_eq_of_mem_set hy with hy | rfl
    · exact h.idle y hy
    · exact hidle
  same y hy := by
    rcases List.mem_or_eq_of_mem_set hy with hy | rfl
    · exact h.same y hy
    · exact hsame
  bounded := by
    have hset := countAll_set (·.moved) hx x'
    have hbounded := h.bounded
    unfold sources at hcount
    rw [harrived]
    omega

/-- A call that leaves the messages alone. -/
theorem Moving.aside (h : Moving L hapart w xs) (hx : xs[i]? = some x)
    (hbroker : w'.inceptor.broker = w.inceptor.broker) (harrived : w'.arrived = w.arrived)
    (hquiet : w'.inceptor.mode ≠ .active) (hidle : x'.active = false) (hhand : x'.hand = x.hand)
    (hreceipt : x'.inceptor.receipt = x.inceptor.receipt) (hmoved : x'.moved = x.moved) :
    Moving L hapart w' (xs.set i x') := by
  refine h.update hx ?_ harrived hquiet hidle ?_ ?_
  · rw [hbroker, hhand]
    exact h.front hx
  · rw [hreceipt, hhand]
    exact h.same x (List.mem_of_getElem? hx)
  · rw [hbroker, hmoved]

/-! ### What is counted -/

theorem sources_of_places {b b' : Broker P Message}
    (h : b'.stored.map (·.place) = b.stored.map (·.place)) :
    sources L moves b' = sources L moves b := by
  have hmap : ∀ c : Broker P Message, sources L moves c =
      (c.stored.map (·.place)).countP fun p => L.Source moves p := by
    intro c
    rw [List.countP_map]
    rfl
  rw [hmap, hmap, h]

theorem sources_giveBack (b : Broker P Message) (receipt : Nat) :
    sources L moves (b.giveBack receipt) = sources L moves b := by
  refine sources_of_places ?_
  show (b.stored.map _).map _ = _
  rw [List.map_map]
  refine List.map_congr_left fun s _ => ?_
  by_cases hs : s.receipt = some receipt <;> simp [hs]

variable (L moves) in
theorem sources_setReceipt {b b' : Broker P Message} {j : Nat} {receipt : Option Nat}
    (h : b.setReceipt j receipt = some b') : sources L moves b' = sources L moves b := by
  unfold Broker.setReceipt at h
  split at h
  · rename_i s hs
    cases h
    obtain ⟨bs, cs, hbs, hset⟩ := Broker.set_split hs
    refine sources_of_places ?_
    show (b.stored.set j _).map _ = _
    rw [hset, hbs]
    simp
  · cases h

/-- A message that slides is to be moved still. -/
theorem sources_transfer {b b' : Broker P Message} {j : Nat} {p : P}
    (hslides : ∀ s ∈ b.stored[j]?, L.Slides moves s.place p) (h : b.transfer j p = some b') :
    sources L moves b' = sources L moves b := by
  unfold Broker.transfer at h
  split at h
  · rename_i s hs
    cases h
    obtain ⟨hsource, hqueue⟩ := hslides s (by simp [hs])
    obtain ⟨bs, cs, hbs, hset⟩ := Broker.set_split hs
    show List.countP _ (b.stored.set j _) = List.countP _ b.stored
    rw [hset, hbs]
    simp [List.countP_append, hsource, hsource.of_queue hqueue]
  · cases h

variable (L moves) in
theorem sources_settle_le (b : Broker P Message) (receipt : Nat) :
    sources L moves (b.settle receipt) ≤ sources L moves b :=
  List.Sublist.countP_le List.filter_sublist

theorem sources_put (b : Broker P Message) (p : P) (m : Message) :
    sources L moves (b.put p m) = sources L moves b + if L.Source moves p then 1 else 0 := by
  by_cases hp : L.Source moves p <;> simp [sources, Broker.put, List.countP_append, hp]

variable [DecidableEq P]

theorem sources_take {b b' : Broker P Message} {p : P} {receipt : Nat} {m : Message}
    (h : b.take p = some (receipt, m, b')) : sources L moves b' = sources L moves b := by
  unfold Broker.take at h
  split at h
  · rename_i message stored hstored
    cases h
    obtain ⟨bs, s, cs, hbs, -, -, -, rfl⟩ := Broker.takeFrom_split hstored
    exact sources_of_places (by simp [hbs])
  · cases h

/-! ### The calls of a mover -/

theorem Moving.serve_quiet (h : Moving L hapart w xs) (x : MoverMemory P) (c : InceptorCall P) :
    (w.serve L.place x o c).2.1.inceptor.mode ≠ .active := by
  have hmode : c.Handles → (w.inceptor.serve L.place x.inceptor o c).2.1.mode ≠ .active := by
    intro hc
    rw [(InceptorWorld.serve_untouched hc).mode]
    exact h.quiet
  cases c with
  | setDraining => exact fun hactive => by cases hactive
  | connect => exact hmode trivial
  | disconnect => exact hmode trivial
  | ensureQueue queue => exact hmode trivial
  | receive source => exact hmode trivial
  | work c => exact hmode trivial
  | _ => exact h.quiet

theorem Moving.receive (h : Moving L hapart w xs) (hx : xs[i]? = some x) {source : P}
    (hhand : x.hand = none) (hsource : L.Source moves source) :
    Moving L hapart (w.serve L.place x o (.receive source)).2.1
      (xs.set i (w.serve L.place x o (.receive source)).2.2) := by
  have hidle := h.idle x (List.mem_of_getElem? hx)
  have hsame := h.same x (List.mem_of_getElem? hx)
  have hfront := h.front hx
  obtain ⟨m, hm, hqueue⟩ := hsource
  have hroute : L.Moves moves source (L.place m.2) := ⟨m, hm, hqueue, rfl⟩
  cases htake : w.inceptor.broker.take source with
  | none =>
    refine h.aside hx ?_ rfl (h.serve_quiet x _) ?_ ?_ ?_ ?_ <;>
      cases hcall : o.call <;>
      simp [MoverWorld.serve, InceptorWorld.serve, MoverMemory.note, htake, hcall, hidle]
  | some taken =>
    obtain ⟨receipt, message, broker⟩ := taken
    have hnew := hfront.receive hroute htake
    rw [hhand] at hnew hsame
    cases hcall : o.call with
    | ok =>
      refine h.update hx ?_ rfl (h.serve_quiet x _) ?_ ?_ ?_
      · simpa [MoverWorld.serve, InceptorWorld.serve, MoverMemory.note, htake, hcall,
          CallOutcome.answer] using hnew
      · simp [MoverWorld.serve, MoverMemory.note, htake, hcall, hidle]
      · simp [MoverWorld.serve, InceptorWorld.serve, MoverMemory.note, htake, hcall]
      · simp [MoverWorld.serve, InceptorWorld.serve, MoverMemory.note, htake, hcall,
          CallOutcome.answer, sources_take htake]
    | refused =>
      refine h.aside hx ?_ rfl (h.serve_quiet x _) ?_ ?_ ?_ ?_ <;>
        simp [MoverWorld.serve, InceptorWorld.serve, MoverMemory.note, htake, hcall, hidle,
          CallOutcome.answer]
    | lost =>
      -- the message is held, but by nobody
      refine h.update hx ?_ rfl (h.serve_quiet x _) ?_ ?_ ?_
      · simpa [MoverWorld.serve, InceptorWorld.serve, MoverMemory.note, htake, hcall,
          CallOutcome.answer, hhand] using hnew.drop
      · simp [MoverWorld.serve, MoverMemory.note, hcall, hidle]
      · simp [MoverWorld.serve, InceptorWorld.serve, MoverMemory.note, htake, hcall, hhand, hsame]
      · simp [MoverWorld.serve, InceptorWorld.serve, MoverMemory.note, htake, hcall,
          CallOutcome.answer, sources_take htake]

theorem Moving.publish (h : Moving L hapart w xs) (hx : xs[i]? = some x) {queue : String}
    {held : Hand P Message} (hhand : x.hand = some held) (hcopy : held.copy = none)
    (hroute : L.Moves moves held.place (L.place queue)) :
    Moving L hapart (w.serve L.place x o (.work (.publish queue held.message))).2.1
      (xs.set i (w.serve L.place x o (.work (.publish queue held.message))).2.2) := by
  have hidle := h.idle x (List.mem_of_getElem? hx)
  have hsame := h.same x (List.mem_of_getElem? hx)
  have hfront := h.front hx
  rw [hhand] at hfront hsame
  have hnew := hfront.putOwn hcopy hroute
  have hnot : ¬ L.Source moves (L.place queue) := Places.not_source_of_moves hapart hroute
  by_cases hcall : o.call = .refused
  · refine h.aside hx ?_ rfl (h.serve_quiet x _) ?_ ?_ ?_ ?_ <;>
      simp [MoverWorld.serve, InceptorWorld.serve, serveWork, MoverMemory.note, hcall, hidle,
        CallOutcome.answer]
  · have hput : (o.call.answer () w.inceptor.broker
        (w.inceptor.broker.put (L.place queue) held.message)).2 =
          w.inceptor.broker.put (L.place queue) held.message := by
      cases hoc : o.call with
      | refused => exact absurd hoc hcall
      | _ => rfl
    refine h.update hx ?_ rfl (h.serve_quiet x _) ?_ ?_ ?_
    · simpa [MoverWorld.serve, InceptorWorld.serve, serveWork, MoverMemory.note, hcall, hhand,
        hput] using hnew
    · simp [MoverWorld.serve, MoverMemory.note, hidle]
    · simp [MoverWorld.serve, InceptorWorld.serve, serveWork, MoverMemory.note, hcall, hhand, hsame]
    · simp [MoverWorld.serve, InceptorWorld.serve, serveWork, MoverMemory.note, hput, sources_put,
        hnot]

omit [DecidableEq P] in
/-- What is settled under a receipt that the broker knows was a message of a source. -/
theorem Moving.settle_lt (h : Moving L hapart w xs) (hx : xs[i]? = some x) {held : Hand P Message}
    (hhand : x.hand = some held)
    (hlive : ∃ s ∈ w.inceptor.broker.stored, s.receipt = some held.receipt) :
    sources L moves (w.inceptor.broker.settle held.receipt) + 1 =
      sources L moves w.inceptor.broker := by
  have hfront := h.front hx
  rw [hhand] at hfront
  rcases Custody.settle_cases hfront.single with ⟨-, hnone⟩ | ⟨s, hs, hperm⟩
  · obtain ⟨s, hs, hreceipt⟩ := hlive
    exact absurd hreceipt (hnone s hs)
  · have hentry := hfront.held held (by simp) s (hperm.mem_iff.mpr (by simp)) hs
    have hplace : s.place = held.place := congrArg Prod.fst hentry
    obtain ⟨q, hroute⟩ := hfront.source held (by simp)
    have hsource : L.Source moves s.place := by
      rw [hplace]
      exact Places.Moves.source hroute
    show List.countP _ _ + 1 = List.countP _ _
    rw [hperm.countP_eq, List.countP_cons_of_pos (by simpa using hsource)]

theorem Moving.ack (h : Moving L hapart w xs) (hx : xs[i]? = some x) {held : Hand P Message}
    (hhand : x.hand = some held) (hcopy : held.copy ≠ none)
    (hsettles : SettlesHeld x w o (.work .ack)) :
    Moving L hapart (w.serve L.place x o (.work .ack)).2.1
      (xs.set i (w.serve L.place x o (.work .ack)).2.2) := by
  have hidle := h.idle x (List.mem_of_getElem? hx)
  have hsame := h.same x (List.mem_of_getElem? hx)
  have hfront := h.front hx
  rw [hhand] at hfront hsame
  simp only [Option.map_some] at hsame
  obtain ⟨q, hq⟩ := Option.ne_none_iff_exists'.mp hcopy
  have hnew := hfront.settled hq
  have hle := sources_settle_le L moves w.inceptor.broker held.receipt
  cases hcall : o.call with
  | ok =>
    have hlive : ∃ s ∈ w.inceptor.broker.stored, s.receipt = some held.receipt := by
      rcases hsettles with hrefused | ⟨s, hs, -, hreceipt⟩
      · rw [hcall] at hrefused
        cases hrefused
      · exact ⟨s, hs, hreceipt.trans hsame⟩
    have hlt := h.settle_lt hx hhand hlive
    refine h.update hx ?_ rfl (h.serve_quiet x _) ?_ ?_ ?_
    · simpa [MoverWorld.serve, InceptorWorld.serve, serveWork, MoverMemory.note, hcall, hsame,
        CallOutcome.answer] using hnew.drop
    · simp [MoverWorld.serve, MoverMemory.note, hcall, hsame, hidle]
    · simp [MoverWorld.serve, InceptorWorld.serve, serveWork, MoverMemory.note, hcall, hsame]
    · simp only [MoverWorld.serve, InceptorWorld.serve, serveWork, MoverMemory.note, hcall, hsame,
        CallOutcome.answer, Option.isSome_some, and_self, if_true]
      omega
  | refused =>
    refine h.aside hx ?_ rfl (h.serve_quiet x _) ?_ ?_ ?_ ?_ <;>
      simp [MoverWorld.serve, InceptorWorld.serve, serveWork, MoverMemory.note, hcall, hidle, hsame,
        CallOutcome.answer]
  | lost =>
    refine h.update hx ?_ rfl (h.serve_quiet x _) ?_ ?_ ?_
    · simpa [MoverWorld.serve, InceptorWorld.serve, serveWork, MoverMemory.note, hcall, hsame,
        CallOutcome.answer, hhand] using hnew
    · simp [MoverWorld.serve, MoverMemory.note, hcall, hidle]
    · simp [MoverWorld.serve, InceptorWorld.serve, serveWork, MoverMemory.note, hcall, hsame, hhand]
    · simpa [MoverWorld.serve, InceptorWorld.serve, serveWork, MoverMemory.note, hcall, hsame,
        CallOutcome.answer] using hle

omit [DecidableEq P] in
/-- A message that is given back is free again, and the thread holds it no more, or does not know. -/
theorem Moving.giveBack (h : Moving L hapart w xs) (hx : xs[i]? = some x) (receipt : Nat)
    (hbroker : w'.inceptor.broker = w.inceptor.broker.giveBack receipt)
    (harrived : w'.arrived = w.arrived) (hquiet : w'.inceptor.mode ≠ .active)
    (hidle : x'.active = false) (hhand : x'.hand = x.hand ∨ x'.hand = none)
    (hsame : x'.inceptor.receipt = x'.hand.map (·.receipt)) (hmoved : x'.moved = x.moved) :
    Moving L hapart w' (xs.set i x') := by
  have hnew := (h.front hx).givenBack receipt
  refine h.update hx ?_ harrived hquiet hidle hsame ?_
  · rw [hbroker]
    rcases hhand with hhand | hhand
    · rw [hhand]
      exact hnew
    · rw [hhand]
      cases hold : x.hand with
      | none =>
        rw [hold] at hnew
        exact hnew
      | some held =>
        rw [hold] at hnew
        exact hnew.drop
  · rw [hbroker, sources_giveBack, hmoved]

theorem Moving.requeue (h : Moving L hapart w xs) (hx : xs[i]? = some x) :
    Moving L hapart (w.serve L.place x o (.work .requeue)).2.1
      (xs.set i (w.serve L.place x o (.work .requeue)).2.2) := by
  have hidle := h.idle x (List.mem_of_getElem? hx)
  have hsame := h.same x (List.mem_of_getElem? hx)
  cases hreceipt : x.inceptor.receipt with
  | none =>
    have hhand : x.hand = none := by
      rw [hreceipt] at hsame
      exact Option.map_eq_none_iff.mp hsame.symm
    refine h.aside hx ?_ rfl (h.serve_quiet x _) ?_ ?_ ?_ ?_ <;>
      by_cases hcall : o.call = .ok <;>
      simp [MoverWorld.serve, InceptorWorld.serve, serveWork, MoverMemory.note, hreceipt, hidle,
        hhand, hcall]
  | some receipt =>
    cases hcall : o.call with
    | ok =>
      refine h.giveBack hx receipt ?_ rfl (h.serve_quiet x _) ?_ (.inr ?_) ?_ ?_ <;>
        simp [MoverWorld.serve, InceptorWorld.serve, serveWork, MoverMemory.note, hreceipt, hidle,
          hcall, CallOutcome.answer]
    | refused =>
      refine h.aside hx ?_ rfl (h.serve_quiet x _) ?_ ?_ ?_ ?_ <;>
        simp [MoverWorld.serve, InceptorWorld.serve, serveWork, MoverMemory.note, hreceipt, hidle,
          hcall, CallOutcome.answer]
    | lost =>
      refine h.giveBack hx receipt ?_ rfl (h.serve_quiet x _) ?_ (.inl ?_) ?_ ?_ <;>
        simp [MoverWorld.serve, InceptorWorld.serve, serveWork, MoverMemory.note, hreceipt, hidle,
          hcall, CallOutcome.answer, ← hsame]

theorem Moving.disconnect (h : Moving L hapart w xs) (hx : xs[i]? = some x) :
    Moving L hapart (w.serve L.place x o .disconnect).2.1
      (xs.set i (w.serve L.place x o .disconnect).2.2) := by
  have hidle := h.idle x (List.mem_of_getElem? hx)
  have hsame := h.same x (List.mem_of_getElem? hx)
  cases hreceipt : x.inceptor.receipt with
  | none =>
    have hhand : x.hand = none := by
      rw [hreceipt] at hsame
      exact Option.map_eq_none_iff.mp hsame.symm
    refine h.aside hx ?_ rfl (h.serve_quiet x _) ?_ ?_ ?_ ?_ <;>
      simp [MoverWorld.serve, InceptorWorld.serve, MoverMemory.note, hreceipt, hidle, hhand]
  | some receipt =>
    refine h.giveBack hx receipt ?_ rfl (h.serve_quiet x _) ?_ (.inr ?_) ?_ ?_ <;>
      simp [MoverWorld.serve, InceptorWorld.serve, MoverMemory.note, hreceipt, hidle]

/-- **A call** of a careful thread keeps the invariant. -/
theorem Moving.serve (h : Moving L hapart w xs) (hx : xs[i]? = some x) {c : InceptorCall P}
    (hmay : MoverMay L moves x c) (hsettles : SettlesHeld x w o c) :
    Moving L hapart (w.serve L.place x o c).2.1 (xs.set i (w.serve L.place x o c).2.2) := by
  have hidle := h.idle x (List.mem_of_getElem? hx)
  have hcareful : Careful L moves x c := by
    rcases hmay with hactive | hcareful
    · rw [hidle] at hactive
      cases hactive
    · exact hcareful
  have haside : (w.serve L.place x o c).2.1.inceptor.broker = w.inceptor.broker →
      (w.serve L.place x o c).2.2.active = false → (w.serve L.place x o c).2.2.hand = x.hand →
      (w.serve L.place x o c).2.2.inceptor.receipt = x.inceptor.receipt →
      (w.serve L.place x o c).2.2.moved = x.moved →
      Moving L hapart (w.serve L.place x o c).2.1 (xs.set i (w.serve L.place x o c).2.2) :=
    fun hbroker hidle hhand hreceipt hmoved =>
      h.aside hx hbroker rfl (h.serve_quiet x c) hidle hhand hreceipt hmoved
  cases c with
  | receive source => exact h.receive hx hcareful.1 hcareful.2
  | disconnect => exact h.disconnect hx
  | work c =>
    cases c with
    | publish queue message =>
      obtain ⟨held, hhand, hcopy, rfl, hroute⟩ := hcareful
      exact h.publish hx hhand hcopy hroute
    | ack =>
      obtain ⟨held, hhand, hcopy⟩ := hcareful
      exact h.ack hx hhand hcopy hsettles
    | requeue => exact h.requeue hx
    | _ => exact haside rfl hidle rfl rfl rfl
  | mode =>
    refine haside rfl ?_ rfl rfl rfl
    simp [MoverWorld.serve, MoverMemory.note, hidle, h.quiet]
  | depth places =>
    refine haside rfl hidle rfl ?_ rfl
    simp only [MoverWorld.serve, InceptorWorld.serve, InceptorMemory.found]
    split <;> rfl
  | queueState queue =>
    refine haside rfl hidle rfl ?_ rfl
    simp only [MoverWorld.serve, InceptorWorld.serve, InceptorMemory.found]
    split <;> rfl
  | _ => exact haside rfl hidle rfl rfl rfl

/-! ### What others do -/

omit [DecidableEq P] in
theorem Moving.move (h : Moving L hapart w xs) {v : MoverMove P} (hv : v.Allowed L moves w)
    (hmove : w.move v = some w') : Moving L hapart w' xs := by
  obtain ⟨hcustody, hquiet, hidle, hsame, hbounded⟩ := h
  have hsources : (w.inceptor.broker.stored.countP fun s => L.Source moves s.place) =
    sources L moves w.inceptor.broker := rfl
  cases v with
  | mode found =>
    cases hmove
    exact ⟨hcustody, hv, hidle, hsame, hbounded⟩
  | broker v =>
    obtain ⟨broker, hbroker, rfl⟩ := Option.map_eq_some_iff.mp hmove
    cases v with
    | put p m =>
      cases hbroker
      refine ⟨hcustody.putOther p m, hquiet, hidle, hsame, ?_⟩
      show sources L moves (w.inceptor.broker.put p m) + _ ≤ (w.arrived ++ [(p, m)]).countP _
      rw [sources_put, List.countP_append]
      by_cases hp : L.Source moves p <;> simp [hp] <;> omega
    | hold j =>
      have hset := hcustody.setReceipt (b := { w.inceptor.broker with
          receipts := w.inceptor.broker.receipts + 1 }) (Nat.le_succ _)
        (fun r hr => ⟨(Option.some.inj hr).symm, Nat.lt_succ_self _⟩) hbroker
      refine ⟨by simpa [sentBy] using hset, hquiet, hidle, hsame, ?_⟩
      have hcount := sources_setReceipt L moves hbroker
      show sources L moves broker + _ ≤ (w.arrived ++ []).countP _
      rw [hcount, List.append_nil]
      exact hbounded
    | free j =>
      have hset := hcustody.setReceipt (Nat.le_refl _) (fun r hr => by cases hr) hbroker
      refine ⟨by simpa [sentBy] using hset, hquiet, hidle, hsame, ?_⟩
      have hcount := sources_setReceipt L moves hbroker
      show sources L moves broker + _ ≤ (w.arrived ++ []).countP _
      rw [hcount, List.append_nil]
      exact hbounded
    | drop j => exact hv.elim
    | shift j p =>
      have hset := hcustody.transfer hv hbroker
      refine ⟨by simpa [sentBy] using hset, hquiet, hidle, hsame, ?_⟩
      have hcount := sources_transfer hv hbroker
      show sources L moves broker + _ ≤ (w.arrived ++ []).countP _
      rw [hcount, List.append_nil]
      exact hbounded

omit [DecidableEq P] in
theorem Moving.start (h : Moving L hapart w xs) (loop : Option (P × Nat)) :
    Moving L hapart w (xs ++ [.start loop]) := by
  obtain ⟨hcustody, hquiet, hidle, hsame, hbounded⟩ := h
  refine ⟨?_, hquiet, ?_, ?_, ?_⟩
  · simpa [handsOf, MoverMemory.start] using hcustody
  · intro x hx
    rcases List.mem_append.mp hx with hx | hx
    · exact hidle x hx
    · rw [List.mem_singleton.mp hx]
      rfl
  · intro x hx
    rcases List.mem_append.mp hx with hx | hx
    · exact hsame x hx
    · rw [List.mem_singleton.mp hx]
      rfl
  · rw [countAll_append]
    exact hbounded

omit [DecidableEq P] in
/-- A thread that is gone holds nothing, whatever the broker still thinks. -/
theorem Moving.stop (h : Moving L hapart w xs) (i : Nat) :
    Moving L hapart w (xs.eraseIdx i) := by
  have hsub : ∀ x ∈ xs.eraseIdx i, x ∈ xs := fun x hx => List.mem_of_mem_eraseIdx hx
  refine ⟨?_, h.quiet, fun x hx => h.idle x (hsub x hx), fun x hx => h.same x (hsub x hx), ?_⟩
  · cases hx : xs[i]? with
    | none =>
      rw [List.eraseIdx_of_length_le (List.getElem?_eq_none_iff.mp hx)]
      exact h.custody
    | some x =>
      have hfront := h.front hx
      cases hhand : x.hand with
      | none =>
        rw [hhand] at hfront
        exact hfront
      | some held =>
        rw [hhand] at hfront
        exact hfront.drop
  · have hle := countAll_eraseIdx_le (·.moved) xs i
    have hbounded := h.bounded
    omega

/-- **Every step keeps the invariant.** -/
theorem Moving.keeps {J : Type} (hapart : Apart moves) (loop : J → Option (P × Nat)) :
    Pool.Keeps (moverProcess L.place) (moverWatch L moves) (MoverMay L moves)
      (fun j => MoverMemory.start (loop j)) (Moving L hapart) where
  start _ _ j h := h.start (loop j)
  stop _ _ i h := h.stop i
  move _ _ _ _ h hv hmove := h.move hv hmove
  call _ _ i _ c o _ _ _ h hx hmay hsettles hserve := by
    cases hserve
    exact h.serve hx hmay hsettles

end Steps

/-! ## Threads on their own -/

section Threads

variable [DecidableEq P]

variable (L moves) in
/-- The thread is careful from `x` on, and how it ends. -/
abbrev Does {α : Type} (Q : α → MoverMemory P → Prop) (E : MoverMemory P → Prop)
    (p : InceptorOp P α) (x : MoverMemory P) : Prop :=
  (Pool.alone (moverProcess L.place)).Spec (Pool.protocol (MoverMay L moves)) Q (fun _ => E) p x

variable {α β : Type} {Q : α → MoverMemory P → Prop} {E : MoverMemory P → Prop}
  {x : MoverMemory P} {l : Option (P × Nat)}

theorem Does.call {c : InceptorCall P} {k : InceptorAnswer c → InceptorOp P α}
    (hmay : MoverMay L moves x c)
    (h : ∀ (w : MoverWorld P) o, Does L moves Q E (k (w.serve L.place x o c).1)
      (w.serve L.place x o c).2.2) : Does L moves Q E (.call c k) x := by
  refine Pool.alone_call hmay fun w o a w' x' hserve => ?_
  cases hserve
  exact h w o

theorem note_loop (place : String → P) (x : MoverMemory P) (w : InceptorWorld P)
    (o : InceptorOutcome) (c : InceptorCall P) : (x.note place w o c).loop = x.loop := by
  cases c with
  | receive source =>
    simp only [MoverMemory.note]
    split
    · split <;> rfl
    · rfl
  | work c =>
    cases c with
    | ack => simp only [MoverMemory.note]; split <;> rfl
    | requeue => simp only [MoverMemory.note]; split <;> rfl
    | _ => rfl
  | _ => rfl

theorem note_active (place : String → P) (w : InceptorWorld P) (o : InceptorOutcome)
    (c : InceptorCall P) (hx : x.active = true) : (x.note place w o c).active = true := by
  cases c with
  | mode => simp [MoverMemory.note, hx]
  | receive source =>
    simp only [MoverMemory.note]
    split
    · split <;> exact hx
    · exact hx
  | work c =>
    cases c with
    | ack => simp only [MoverMemory.note]; split <;> exact hx
    | requeue => simp only [MoverMemory.note]; split <;> exact hx
    | _ => exact hx
  | _ => exact hx

/-- What a thread does once it has found the inceptor active is not asked. -/
theorem Does.of_active (p : InceptorOp P α) (hx : x.active = true) :
    Does L moves (fun _ x' => x'.active = true ∧ x'.loop = x.loop)
      (fun x' => x'.active = true ∧ x'.loop = x.loop) p x := by
  induction p generalizing x with
  | pure a => exact ⟨hx, rfl⟩
  | fail e => exact ⟨hx, rfl⟩
  | call c k ih =>
    refine Does.call (.inl hx) fun w o => ?_
    have hloop : (w.serve L.place x o c).2.2.loop = x.loop := note_loop _ _ _ _ _
    rw [← hloop]
    exact ih _ (note_active _ _ _ _ hx)

/-! ### One message -/

/-- The thread can ask for a message. -/
structure Free (l : Option (P × Nat)) (x : MoverMemory P) : Prop where
  loop : x.loop = l
  hand : x.hand = none

/-- The thread holds a message of this place. -/
structure Holding (l : Option (P × Nat)) (source : P) (message : Message) (copied : Bool)
    (x : MoverMemory P) : Prop where
  loop : x.loop = l
  hand : ∃ h, x.hand = some h ∧ h.place = source ∧ h.message = message ∧ h.copy.isSome = copied

theorem receive_does {source : P} (hsource : L.Source moves source) (hx : Free l x) :
    Does L moves
      (fun r x' => x'.moved = x.moved ∧ (r = none → Free l x' ∧ source ∈ x'.emptied) ∧
        ∀ message, r = some message → Holding l source message false x')
      (fun x' => x'.loop = l ∧ x'.failed = true) (receive source) x := by
  refine Does.call (.inr ⟨hx.hand, hsource⟩) fun w o => ?_
  have hloop : (w.serve L.place x o (.receive source)).2.2.loop = l :=
    (note_loop _ _ _ _ _).trans hx.loop
  cases htake : w.inceptor.broker.take source with
  | none =>
    have hready := Broker.ready_of_take htake
    by_cases hcall : o.call = .ok
    · have hanswer : (w.serve L.place x o (.receive source)).1 = .ok none := by
        simp [MoverWorld.serve, InceptorWorld.serve, htake, hcall, CallOutcome.answer]
      rw [hanswer]
      refine ⟨?_, fun _ => ⟨⟨hloop, ?_⟩, ?_⟩, fun message h => by cases h⟩ <;>
        simp [MoverWorld.serve, MoverMemory.note, htake, hcall, hready, hx.hand]
    · have hanswer : (w.serve L.place x o (.receive source)).1 = .error () := by
        cases hoc : o.call with
        | ok => exact absurd hoc hcall
        | _ => simp [MoverWorld.serve, InceptorWorld.serve, htake, hoc, CallOutcome.answer]
      rw [hanswer]
      refine ⟨hloop, ?_⟩
      simp [MoverWorld.serve, MoverMemory.note, hcall]
  | some taken =>
    obtain ⟨receipt, message, broker⟩ := taken
    by_cases hcall : o.call = .ok
    · have hanswer : (w.serve L.place x o (.receive source)).1 = .ok (some message) := by
        simp [MoverWorld.serve, InceptorWorld.serve, htake, hcall, CallOutcome.answer]
      rw [hanswer]
      refine ⟨?_, fun h => by (cases h), fun message' h => ⟨hloop, ?_⟩⟩
      · simp [MoverWorld.serve, MoverMemory.note, htake, hcall]
      · cases h
        refine ⟨⟨receipt, source, message, none⟩, ?_, rfl, rfl, rfl⟩
        simp [MoverWorld.serve, MoverMemory.note, htake, hcall]
    · have hanswer : (w.serve L.place x o (.receive source)).1 = .error () := by
        cases hoc : o.call with
        | ok => exact absurd hoc hcall
        | _ => simp [MoverWorld.serve, InceptorWorld.serve, htake, hoc, CallOutcome.answer]
      rw [hanswer]
      refine ⟨hloop, ?_⟩
      simp [MoverWorld.serve, MoverMemory.note, hcall]

theorem publish_does {source : P} {target : String} {message : Message}
    (hroute : L.Moves moves source (L.place target)) (hx : Holding l source message false x) :
    Does L moves (fun _ x' => x'.moved = x.moved ∧ Holding l source message true x')
      (fun x' => x'.loop = l ∧ x'.failed = true) (WorkerOp.run (publishTo message target)) x := by
  obtain ⟨held, hhand, hplace, hmessage, hcopy⟩ := hx.hand
  have hnone : held.copy = none := by simpa using hcopy
  refine Does.call (.inr ⟨held, hhand, hnone, hmessage.symm, ?_⟩) fun w o => ?_
  · rw [hplace]
    exact hroute
  · have hloop : (w.serve L.place x o (.work (.publish target message))).2.2.loop = l :=
      (note_loop _ _ _ _ _).trans hx.loop
    cases hcall : o.call with
    | ok =>
      have hanswer : (w.serve L.place x o (.work (.publish target message))).1 = .ok () := by
        simp [MoverWorld.serve, InceptorWorld.serve, serveWork, hcall, CallOutcome.answer]
      rw [hanswer]
      refine ⟨rfl, hloop, ⟨{ held with copy := some (L.place target) }, ?_, hplace, hmessage, rfl⟩⟩
      simp [MoverWorld.serve, MoverMemory.note, hcall, hhand]
    | _ =>
      have hanswer : (w.serve L.place x o (.work (.publish target message))).1 = .error () := by
        simp [MoverWorld.serve, InceptorWorld.serve, serveWork, hcall, CallOutcome.answer]
      rw [hanswer]
      refine ⟨hloop, ?_⟩
      simp [MoverWorld.serve, MoverMemory.note, hcall]

theorem ack_does {source : P} {message : Message} (hx : Holding l source message true x) :
    Does L moves (fun _ x' => x'.moved = x.moved + 1 ∧ Free l x')
      (fun x' => x'.loop = l ∧ x'.failed = true) (WorkerOp.run ack) x := by
  obtain ⟨held, hhand, hplace, hmessage, hcopy⟩ := hx.hand
  have hsome : held.copy ≠ none := by
    intro hnone
    simp [hnone] at hcopy
  refine Does.call (.inr ⟨held, hhand, hsome⟩) fun w o => ?_
  have hloop : (w.serve L.place x o (.work .ack)).2.2.loop = l :=
    (note_loop _ _ _ _ _).trans hx.loop
  cases hreceipt : x.inceptor.receipt with
  | none =>
    have hanswer : (w.serve L.place x o (.work .ack)).1 = .error () := by
      simp [MoverWorld.serve, InceptorWorld.serve, serveWork, hreceipt]
    rw [hanswer]
    refine ⟨hloop, ?_⟩
    simp [MoverWorld.serve, MoverMemory.note, hreceipt]
  | some receipt =>
    cases hcall : o.call with
    | ok =>
      have hanswer : (w.serve L.place x o (.work .ack)).1 = .ok () := by
        simp [MoverWorld.serve, InceptorWorld.serve, serveWork, hreceipt, hcall,
          CallOutcome.answer]
      rw [hanswer]
      refine ⟨?_, hloop, ?_⟩ <;> simp [MoverWorld.serve, MoverMemory.note, hcall, hreceipt]
    | _ =>
      have hanswer : (w.serve L.place x o (.work .ack)).1 = .error () := by
        simp [MoverWorld.serve, InceptorWorld.serve, serveWork, hreceipt, hcall,
          CallOutcome.answer]
      rw [hanswer]
      refine ⟨hloop, ?_⟩
      simp [MoverWorld.serve, MoverMemory.note, hcall]

/-! ### The loops -/

/-- How a loop ends: it has found its source without a ready message; or a call of its has failed,
or it was cut off after this number of messages. -/
abbrev Loops (L : Places P) (moves : List (String × String)) (l : Option (P × Nat)) (source : P)
    (cut : Nat) (p : InceptorOp P Unit) (x : MoverMemory P) : Prop :=
  Does L moves (fun _ x' => Free l x' ∧ source ∈ x'.emptied)
    (fun x' => x'.loop = l ∧ (x'.failed = true ∨ cut ≤ x'.moved)) p x

/-- A step of a loop, and the rest. -/
theorem Loops.bind {source : P} {cut : Nat} {p : InceptorOp P α} {f : α → InceptorOp P Unit}
    (hp : Does L moves Q (fun x' => x'.loop = l ∧ x'.failed = true) p x)
    (hf : ∀ a x', Q a x' → Loops L moves l source cut (f a) x') :
    Loops L moves l source cut (p.bind f) x := by
  refine Outside.Spec.bind (R := Q) (Outside.Spec.mono hp (fun _ _ h => h) ?_) hf
  rintro - x' ⟨hloop, hfailed⟩
  exact ⟨hloop, .inl hfailed⟩

/-! ### What the jobs are made of -/

/-- The thread may ask for a message, or is no mover. -/
def Calm (l : Option (P × Nat)) (x : MoverMemory P) : Prop :=
  x.loop = l ∧ (x.active = true ∨ x.hand = none)

variable (L moves) in
/-- A part of a job: from a calm thread to a calm one, if it does not fail. -/
def Calms (p : InceptorOp P α) : Prop :=
  ∀ l x, Calm l x → Does L moves (fun _ x' => Calm l x') (fun x' => x'.loop = l) p x

variable (L moves) in
/-- The last part of a job. -/
def Closes (p : InceptorOp P α) : Prop :=
  ∀ l x, Calm l x → Does L moves (fun _ x' => x'.loop = l) (fun x' => x'.loop = l) p x

theorem Calms.pure (a : α) : Calms L moves (.pure a : InceptorOp P α) := fun _ _ hx => hx

theorem Calms.fail : Calms L moves (.fail () : InceptorOp P α) := fun _ _ hx => hx.1

theorem Calms.ofExcept (r : Except Unit α) : Calms L moves (Prog.ofExcept r) := by
  cases r with
  | ok a => exact .pure a
  | error e => exact .fail

theorem Calms.bind {p : InceptorOp P β} {f : β → InceptorOp P α} (hp : Calms L moves p)
    (hf : ∀ b, Calms L moves (f b)) : Calms L moves (p.bind f) := fun l x hx =>
  Outside.Spec.bind (hp l x hx) fun b x' hx' => hf b l x' hx'

theorem Calms.forEach {xs : List β} {body : β → InceptorOp P Unit}
    (h : ∀ b ∈ xs, Calms L moves (body b)) : Calms L moves (Prog.forEach xs body) := fun l _ hx =>
  Outside.Spec.forEach (P := Calm l) hx fun b hb x' hx' => h b hb l x' hx'

theorem Calms.closes {p : InceptorOp P α} (h : Calms L moves p) : Closes L moves p := fun l x hx =>
  (h l x hx).mono (fun _ _ h => h.1) fun _ _ h => h

theorem Calms.bindCloses {p : InceptorOp P β} {f : β → InceptorOp P α} (hp : Calms L moves p)
    (hf : ∀ b, Closes L moves (f b)) : Closes L moves (p.bind f) := fun l x hx =>
  Outside.Spec.bind (hp l x hx) fun b x' hx' => hf b l x' hx'

/-- A failure is the end of the job, whether or not it is told. -/
theorem Closes.logged {p : InceptorOp P α} (h : Closes L moves p) : Closes L moves p.logged := by
  intro l x hx
  refine Outside.Spec.bind (R := fun (_ : Except Unit α) x' => x'.loop = l)
    (Outside.Spec.result (h l x hx)) ?_
  intro r x' hx'
  exact hx'

/-- Once the inceptor was found active, anything may follow. -/
theorem Calms.of_active (p : InceptorOp P α) (hx : x.active = true) (hloop : x.loop = l) :
    Does L moves (fun _ x' => Calm l x') (fun x' => x'.loop = l) p x := by
  refine (Does.of_active p hx).mono ?_ ?_
  · intro _ x' h
    exact ⟨h.2.trans hloop, .inl h.1⟩
  · intro _ x' h
    exact h.2.trans hloop

/-- A loop is a part of a job. -/
theorem Calms.of_loops {source : P} (cut : Nat → Nat) {p : InceptorOp P Unit}
    (h : ∀ l (x : MoverMemory P), Free l x → Loops L moves l source (cut x.moved) p x) :
    Calms L moves p := by
  rintro l x ⟨hloop, hactive | hhand⟩
  · exact Calms.of_active p hactive hloop
  · refine (h l x ⟨hloop, hhand⟩).mono ?_ fun _ _ h => h.1
    rintro _ x' ⟨hfree, -⟩
    exact ⟨hfree.loop, .inr hfree.hand⟩

/-- The calls that are none of a message's. -/
def Mild : InceptorCall P → Prop
  | .setDraining => True
  | .inFlight => True
  | .connect => True
  | .ensureQueue _ => True
  | .depth _ => True
  | .queueState _ => True
  | .respond _ => True
  | .mode => True
  | _ => False

theorem Calms.ask {c : InceptorCall P} (hc : Mild c) :
    Calms L moves (Prog.ask c : InceptorOp P (InceptorAnswer c)) := by
  rintro l x ⟨hloop, hcalm⟩
  have hcareful : Careful L moves x c := by
    cases c <;> first | exact hc.elim | trivial
  refine Does.call (.inr hcareful) fun w o => ⟨(note_loop _ _ _ _ _).trans hloop, ?_⟩
  rcases hcalm with hactive | hhand
  · exact .inl (note_active _ _ _ _ hactive)
  · refine .inr ?_
    cases c <;> first | exact hc.elim | exact hhand

theorem Calms.answer {c : InceptorCall P} (hc : Mild c)
    {f : InceptorAnswer c → Except Unit α} :
    Calms L moves ((Prog.ask c : InceptorOp P (InceptorAnswer c)).bind fun a =>
      Prog.ofExcept (f a)) :=
  (Calms.ask hc).bind fun _ => .ofExcept _

/-- The mode, and that an active inceptor has been found active. -/
theorem runtimeMode_does (hx : Calm l x) :
    Does L moves (fun mode x' => Calm l x' ∧ (mode = .active → x'.active = true))
      (fun x' => x'.loop = l) runtimeMode x := by
  refine Does.call (.inr trivial) fun w o => ⟨⟨hx.1, ?_⟩, ?_⟩
  · rcases hx.2 with hactive | hhand
    · exact .inl (note_active L.place w.inceptor o .mode hactive)
    · exact .inr hhand
  · intro hactive
    have hmode : w.inceptor.mode = .active := hactive
    simp [MoverWorld.serve, MoverMemory.note, hmode]

/-- A program that looks at the mode first: it has nothing to answer for where it finds the inceptor
active. -/
theorem Closes.of_mode {f : RuntimeMode → InceptorOp P α}
    (hf : ∀ mode, mode ≠ .active → Closes L moves (f mode)) :
    Closes L moves (runtimeMode.bind f) := by
  intro l x hx
  refine Outside.Spec.bind (runtimeMode_does hx) ?_
  rintro mode x' ⟨hcalm, hactive⟩
  by_cases hmode : mode = .active
  · refine (Calms.of_active (f mode) (hactive hmode) hcalm.1).mono ?_ fun _ _ h => h
    exact fun _ _ h => h.1
  · exact hf mode hmode l x' hcalm

/-- The end of a connection makes any thread calm. -/
theorem disconnect_does (hloop : x.loop = l) :
    Does L moves (fun _ x' => Calm l x') (fun x' => x'.loop = l) disconnect x :=
  Does.call (.inr trivial) fun _ _ => ⟨hloop, .inr rfl⟩

theorem Calms.withConnection {p : InceptorOp P α} (hp : Closes L moves p) :
    Calms L moves (withConnection p) := by
  intro l x hx
  refine Outside.Spec.bind (Calms.answer (c := .connect) trivial l x hx) fun _ x₁ hx₁ => ?_
  refine Outside.Spec.bind (R := fun _ x' => x'.loop = l)
    (Outside.Spec.result (hp l x₁ hx₁)) fun r x₂ hx₂ => ?_
  refine Outside.Spec.bind (disconnect_does hx₂) fun _ x₃ hx₃ => ?_
  exact Calms.ofExcept r l x₃ hx₃

end Threads

end Invariant

/-! ## What the movers guarantee -/

section Guarantee

variable {P : Type} [DecidableEq P] {L : Places P} {moves : List (String × String)}

omit [DecidableEq P] in
variable (L moves) in
/-- **Every message that has arrived is accounted for**: it has a message of its own, the same one,
where it may be; and nothing else is there. -/
structure Accounted (w : MoverWorld P) : Prop where
  kept : ∃ kept, List.Subperm kept (w.inceptor.broker.stored.map (·.entry)) ∧
    List.Forall₂ (fun a e => a.2 = e.2 ∧ L.Leads moves a.1 e.1) w.arrived kept
  known : ∀ s ∈ w.inceptor.broker.stored, ∃ a ∈ w.arrived,
    a.2 = s.message ∧ L.Leads moves a.1 s.place

/-- **How the movers end.** None moves more messages than have arrived, so a loop with more turns than
that is not cut off: it has found its source without a ready message, or a call of its has failed. -/
structure Exhausts (s : Pool (InceptorCall P) InceptorAnswer Unit (MoverMemory P) (MoverWorld P)) :
    Prop where
  moved : ∀ t ∈ s.threads, t.memory.moved ≤ s.world.arrived.length
  ended : ∀ t ∈ s.threads, ∀ source turns, t.memory.loop = some (source, turns) →
    t.prog = .pure () → source ∈ t.memory.emptied
  failed : ∀ t ∈ s.threads, ∀ source turns, t.memory.loop = some (source, turns) →
    s.world.arrived.length < turns → t.prog = .fail () → t.memory.failed = true

variable (L moves) in
/-- **The drain loses nothing**, whatever the queues contain and however any number of movers are
interleaved, cut off and refused. -/
def LosesNothing (jobs : MoverJob P →
    Thread (InceptorCall P) InceptorAnswer Unit (MoverMemory P)) : Prop :=
  ∀ contents mode s, mode ≠ .active →
    Pool.Run (moverProcess L.place) jobs (moverWatch L moves) ⟨.start contents mode, []⟩ s →
    Accounted L moves s.world ∧ Exhausts s

/-- What is known of a thread that has ended well. -/
def Emptied (x : MoverMemory P) : Prop :=
  ∀ source turns, x.loop = some (source, turns) → source ∈ x.emptied

/-- And of one that has failed. -/
def Broken (x : MoverMemory P) : Prop :=
  ∀ source turns, x.loop = some (source, turns) → x.failed = true ∨ turns ≤ x.moved

theorem moverThread_memory (L : Places P) (moves : List (String × String))
    (jobs : InceptorJob → Thread (InceptorCall P) InceptorAnswer Unit (InceptorMemory P))
    (loop : P → String → Nat → InceptorOp P Unit) (job : MoverJob P) :
    (moverThread L moves jobs loop job).memory = .start (moverLoop L moves job) := by
  cases job with
  | handler job => rfl
  | loop source target turns =>
    simp only [moverThread, moverLoop]
    split <;> rfl

theorem moverThread_does
    {jobs : InceptorJob → Thread (InceptorCall P) InceptorAnswer Unit (InceptorMemory P)}
    {loop : P → String → Nat → InceptorOp P Unit}
    (hjobs : ∀ job, Closes L moves (jobs job).prog)
    (hloops : ∀ source target turns l (x : MoverMemory P), (L.queue source, target) ∈ moves →
      Free l x → Loops L moves l source (x.moved + turns) (loop source target turns) x)
    (job : MoverJob P) :
    Does L moves (fun _ => Emptied) Broken (moverThread L moves jobs loop job).prog
      (moverThread L moves jobs loop job).memory := by
  cases job with
  | handler job =>
    refine (hjobs job none (.start none) ⟨rfl, .inr rfl⟩).mono ?_ ?_
    · intro _ x' hloop source turns hsome
      rw [hloop] at hsome
      cases hsome
    · intro _ x' hloop source turns hsome
      rw [hloop] at hsome
      cases hsome
  | loop source target turns =>
    simp only [moverThread]
    split
    · rename_i hroute
      refine (hloops source target turns (some (source, turns)) (.start (some (source, turns)))
        hroute ⟨rfl, rfl⟩).mono ?_ ?_
      · rintro _ x' ⟨hfree, hemptied⟩ source' turns' hsome
        rw [hfree.loop] at hsome
        cases hsome
        exact hemptied
      · rintro _ x' ⟨hloop, hend⟩ source' turns' hsome
        rw [hloop] at hsome
        cases hsome
        rcases hend with hfailed | hcut
        · exact .inl hfailed
        · exact .inr (by simpa [MoverMemory.start] using hcut)
    · intro source' turns' hsome
      cases hsome

omit [DecidableEq P] in
theorem Moving.initial (hapart : Apart moves) (contents : List (P × Message)) {mode : RuntimeMode}
    (hmode : mode ≠ .active) : Moving L hapart (.start contents mode) [] := by
  have hfree : ∀ s ∈ (MoverWorld.start contents mode).inceptor.broker.stored, s.receipt = none := by
    intro s hs
    obtain ⟨e, -, rfl⟩ := List.mem_map.mp hs
    rfl
  have hentries : (MoverWorld.start contents mode).inceptor.broker.stored.map (·.entry) =
      contents := by
    show (contents.map _).map _ = contents
    rw [List.map_map]
    exact List.map_id contents
  have hnobody : ∀ {h : Hand P Message}, h ∉ handsOf [] := List.not_mem_nil
  refine ⟨⟨?_, ?_, fun _ h => absurd h hnobody, List.nodup_nil, fun _ h => absurd h hnobody,
    fun _ h => absurd h hnobody, fun _ h => absurd h hnobody, fun _ h => absurd h hnobody, ?_, ?_⟩,
    hmode, fun _ h => absurd h List.not_mem_nil, fun _ h => absurd h List.not_mem_nil, ?_⟩
  · intro s hs r hr
    rw [hfree s hs] at hr
    cases hr
  · rw [List.filterMap_eq_nil_iff.mpr hfree]
    exact List.nodup_nil
  · refine ⟨contents, ?_, ?_⟩
    · rw [hentries]
      show List.Subperm (contents ++ []) contents
      rw [List.append_nil]
    · exact List.forall₂_same.mpr fun e _ => ⟨rfl, .inl rfl⟩
  · intro s hs
    obtain ⟨e, he, rfl⟩ := List.mem_map.mp hs
    exact ⟨e, he, rfl, .inl rfl⟩
  · show List.countP _ (contents.map _) + 0 ≤ List.countP _ contents
    rw [List.countP_map]
    exact Nat.le_refl _

/-- **Careful movers lose nothing.** -/
theorem losesNothing_of_does {jobs : MoverJob P →
      Thread (InceptorCall P) InceptorAnswer Unit (MoverMemory P)} (hapart : Apart moves)
    (loop : MoverJob P → Option (P × Nat)) (hstart : ∀ job, (jobs job).memory = .start (loop job))
    (hjobs : ∀ job, Does L moves (fun _ => Emptied) Broken (jobs job).prog (jobs job).memory) :
    LosesNothing L moves jobs := by
  intro contents mode s hmode r
  have hkeeps : Pool.Keeps (moverProcess L.place) (moverWatch L moves) (MoverMay L moves)
      (fun job => (jobs job).memory) (Moving L hapart) := by
    simp only [hstart]
    exact Moving.keeps hapart loop
  obtain ⟨hmoving, hthreads⟩ := r.meets hkeeps hjobs (.initial hapart contents hmode)
  have hmoved : ∀ t ∈ s.threads, t.memory.moved ≤ s.world.arrived.length := by
    intro t ht
    have hone := moved_le_countAll (List.mem_map_of_mem (f := (·.memory)) ht)
    have hall := hmoving.bounded
    have hlength := List.countP_le_length (p := fun e : P × Message => L.Source moves e.1)
      (l := s.world.arrived)
    unfold Pool.memories at hall
    omega
  refine ⟨⟨?_, hmoving.custody.known⟩, hmoved, ?_, ?_⟩
  · obtain ⟨kept, hsub, hstays⟩ := hmoving.custody.kept
    exact ⟨kept, .trans (List.sublist_append_left _ _).subperm hsub, hstays⟩
  · intro t ht source turns hloop hpure
    have hdoes := hthreads t ht
    rw [hpure] at hdoes
    exact hdoes source turns hloop
  · intro t ht source turns hloop hturns hfail
    have hdoes := hthreads t ht
    rw [hfail] at hdoes
    have hbound := hmoved t ht
    rcases hdoes source turns hloop with hfailed | hcut
    · exact hfailed
    · omega

end Guarantee

/-! ## The moves of a config -/

section Configs

variable {D : Type} {roles : List PluginRole} {config : QueueConfig D} {queues : DrainedQueues}
  {source shadow : String}

theorem mem_moves (hsource : source ∈ [queues.green, queues.blue]) :
    (source, queues.base) ∈ queues.moves config :=
  List.mem_flatMap.mpr ⟨source, hsource, by simp⟩

theorem mem_moves_of_shadow (hsource : source ∈ [queues.green, queues.blue])
    (hshadow : shadowQueueName config source = some shadow) :
    (shadow, shadowTarget config queues.base) ∈ queues.moves config :=
  List.mem_flatMap.mpr ⟨source, hsource, by simp [hshadow]⟩

theorem moves_of_input (h : drainedInput roles config = .ok (some queues)) :
    ∀ m ∈ queues.moves config, m ∈ drainMoves roles config := by
  intro m hm
  refine List.mem_append_left _ ?_
  simp only [inputMoves, h]
  exact hm

theorem moves_of_output (hrole : hasRole roles .combiner = true)
    (h : drainedOutput config = .ok queues) :
    ∀ m ∈ queues.moves config, m ∈ drainMoves roles config := by
  intro m hm
  refine List.mem_append_right _ ?_
  simp only [outputMoves, hrole, h, if_true]
  exact hm

theorem hasRole_of_combiner (h : queueWorkerRole roles = .ok (some .combiner)) :
    hasRole roles .combiner = true := by
  by_contra hnot
  have hrole : PluginRole.combiner ∉ roles := by simpa [hasRole] using hnot
  by_cases hduplicator : PluginRole.duplicator ∈ roles <;>
    by_cases hsplitter : PluginRole.splitter ∈ roles <;>
    by_cases hconsumer : PluginRole.consumer ∈ roles <;>
    simp [queueWorkerRole, hrole, hduplicator, hsplitter, hconsumer] at h

end Configs

/-! ## RabbitMQ -/

namespace Rabbitmq

variable {moves : List (String × String)} {l : Option (String × Nat)} {x : MoverMemory String}

/-- **The loop of a drain.** -/
theorem moveQueueMessages_does {source target : String} (hroute : (source, target) ∈ moves)
    (turns : Nat) (hx : Free l x) :
    Loops places moves l source (x.moved + turns) (moveQueueMessages source target turns) x := by
  have hmoves : places.Moves moves source (places.place target) := ⟨_, hroute, rfl, rfl⟩
  induction turns generalizing x with
  | zero => exact ⟨hx.loop, .inr (Nat.le_refl _)⟩
  | succ turns ih =>
    refine Loops.bind (receive_does hmoves.source hx) ?_
    rintro r x₁ ⟨hmoved₁, hnone, hsome⟩
    cases r with
    | none => exact hnone rfl
    | some message =>
      refine Loops.bind (publish_does hmoves (hsome message rfl)) ?_
      rintro _ x₂ ⟨hmoved₂, hholding⟩
      refine Loops.bind (ack_does hholding) ?_
      rintro _ x₃ ⟨hmoved₃, hfree⟩
      have hcut : x.moved + (turns + 1) = x₃.moved + turns := by omega
      rw [hcut]
      exact ih hfree

/-! ### The jobs -/

section Jobs

variable {management infraDisabled : Bool} {state : WorkerState Config} {queues : DrainedQueues}

theorem moveQueueMessages_calms {source target : String} (hroute : (source, target) ∈ moves)
    (turns : Nat) : Calms places moves (moveQueueMessages source target turns) :=
  Calms.of_loops (fun moved => moved + turns) fun _ _ hx =>
    moveQueueMessages_does hroute turns hx

theorem drainQueue_calms (hmoves : ∀ m ∈ queues.moves state.config, m ∈ moves) (turns : Nat)
    {source : String} (hsource : source ∈ [queues.green, queues.blue]) :
    Calms places moves (drainQueue state queues.base turns source) := by
  refine (moveQueueMessages_calms (hmoves _ (mem_moves hsource)) turns).bind fun _ => ?_
  cases hshadow : shadowQueueName state.config source with
  | none => exact .pure ()
  | some shadow =>
    exact moveQueueMessages_calms (hmoves _ (mem_moves_of_shadow hsource hshadow)) turns

theorem declareShadow_calms (base : String) :
    Calms places moves (declareShadow state base) := by
  unfold declareShadow
  split
  · exact .answer (c := .ensureQueue _) trivial
  · exact .pure ()

theorem drainInputQueues_calms (turns : Nat) :
    Calms places (drainMoves state.roles state.config)
      (drainInputQueues infraDisabled state turns) := by
  unfold drainInputQueues
  cases hinput : drainedInput state.roles state.config with
  | error e => exact .fail
  | ok found =>
    cases found with
    | none => exact .pure ()
    | some queues =>
      simp only [Prog.ofExcept, Prog.bind_def, Prog.pure_bind]
      refine Calms.bind ?_ fun _ => ?_
      · cases infraDisabled
        · exact declareShadow_calms _
        · exact .pure ()
      · exact Calms.forEach fun source hsource =>
          drainQueue_calms (moves_of_input hinput) turns hsource

theorem drainInputRoles_calms (turns : Nat) :
    Calms places (drainMoves state.roles state.config)
      (drainInputRoles infraDisabled state turns) := by
  unfold drainInputRoles
  split
  · exact .withConnection (drainInputQueues_calms turns).closes
  · exact .pure ()

theorem drainOutputQueue_calms (hmoves : ∀ m ∈ queues.moves state.config, m ∈ moves) (turns : Nat)
    {source : String} (hsource : source ∈ [queues.green, queues.blue]) :
    Calms places moves (drainOutputQueue infraDisabled state turns source queues.base) := by
  refine .withConnection (Calms.closes (Calms.bind ?_ fun _ => ?_))
  · cases infraDisabled
    · exact Calms.bind (.answer (c := .ensureQueue _) trivial) fun _ => declareShadow_calms _
    · exact .pure ()
  · exact drainQueue_calms hmoves turns hsource

theorem drainOutputQueues_calms (turns : Nat) :
    Calms places (drainMoves state.roles state.config)
      (drainOutputQueues infraDisabled state turns) := by
  unfold drainOutputQueues
  by_cases hrole : hasRole state.roles .combiner = true
  · rw [if_pos hrole]
    cases houtput : drainedOutput state.config with
    | error e => exact .fail
    | ok queues =>
      refine (drainOutputQueue_calms (moves_of_output hrole houtput) turns (by simp)).bind
        fun _ => ?_
      exact drainOutputQueue_calms (moves_of_output hrole houtput) turns (by simp)
  · rw [if_neg hrole]
    exact .pure ()

theorem drainRuntimeQueues_calms (turns : Nat) :
    Calms places (drainMoves state.roles state.config)
      (drainRuntimeQueues infraDisabled state turns) :=
  (drainInputRoles_calms turns).bind fun _ => drainOutputQueues_calms turns

theorem queueDepth_calms (queue : String) : Calms places moves (queueDepth queue) :=
  .answer (c := .depth _) trivial

theorem queueState_calms (queue : String) : Calms places moves (queueState queue) :=
  .answer (c := .queueState _) trivial

theorem managementQueueDepthWithShadow_calms (queue : String) :
    Calms places moves (managementQueueDepthWithShadow state queue) := by
  refine (queueDepth_calms queue).bind fun depth => ?_
  split
  · exact (queueDepth_calms _).bind fun _ => .pure _
  · exact .pure _

theorem queueStateWithShadow_calms (queue : String) :
    Calms places moves (queueStateWithShadow state queue) := by
  refine (queueState_calms queue).bind fun found => ?_
  cases shadowQueueName state.config queue with
  | some shadow => exact (queueState_calms shadow).bind fun _ => .pure _
  | none => exact .pure _

theorem queuePairDrainStatus_calms (label green blue : String) :
    Calms places moves (queuePairDrainStatus management state label green blue) := by
  unfold queuePairDrainStatus
  split
  · refine (managementQueueDepthWithShadow_calms green).bind fun _ => ?_
    exact (managementQueueDepthWithShadow_calms blue).bind fun _ => .pure _
  · refine (queueStateWithShadow_calms green).bind fun _ => ?_
    exact (queueStateWithShadow_calms blue).bind fun _ => .pure _

theorem drainStatusHandler_closes (turns : Nat) :
    Closes places (drainMoves state.roles state.config)
      (drainStatusHandler management infraDisabled state turns) := by
  unfold drainStatusHandler computeDrainStatus
  rw [Prog.bind_def, Prog.bind_def, Prog.bind_assoc]
  refine Closes.of_mode fun mode hmode => ?_
  refine Calms.bindCloses (Calms.bind ?_ fun _ => ?_) fun status => ?_
  · split
    · exact drainRuntimeQueues_calms turns
    · exact .pure ()
  · refine .withConnection (Calms.closes ((Calms.ofExcept _).bind fun found => ?_))
    split
    · exact queuePairDrainStatus_calms _ _ _
    · exact .pure _
  · exact Calms.closes (Calms.ask (c := .respond status) trivial)

theorem drainHandler_closes (turns : Nat) :
    Closes places (drainMoves state.roles state.config)
      (drainHandler infraDisabled state turns) :=
  Calms.closes ((Calms.ask (c := .setDraining) trivial).bind fun _ =>
    drainRuntimeQueues_calms turns)

theorem reconnecting_closes {p : AmqpOp Unit} (hp : Closes places moves p) :
    Closes places moves (reconnecting p) := by
  intro l x hx
  refine Outside.Spec.bind (R := fun (_ : Except Unit Unit) x' => x'.loop = l)
    (Outside.Spec.result (hp l x hx)) ?_
  rintro r x' hx'
  cases r with
  | ok a => exact hx'
  | error e => exact (disconnect_does hx').mono (fun _ _ h => h.1) fun _ _ h => h

theorem runInputPipeline_closes (state : WorkerState Config) (turns : Nat) :
    Closes places (drainMoves state.roles state.config)
      (runInputPipeline infraDisabled state turns) := by
  refine (Calms.ofExcept _).bindCloses fun input => ?_
  refine Closes.of_mode fun mode hmode => ?_
  cases mode with
  | idle => exact (Calms.pure ()).closes
  | active => exact absurd rfl hmode
  | draining => exact reconnecting_closes (drainInputQueues_calms turns).closes

theorem runCombineLoop_closes (hmoves : ∀ m ∈ queues.moves state.config, m ∈ moves) (turns : Nat)
    {source : String} (hsource : source ∈ [queues.green, queues.blue]) :
    Closes places moves (runCombineLoop infraDisabled state turns source queues.base) := by
  refine Closes.of_mode fun mode hmode => ?_
  cases mode with
  | idle => exact (Calms.pure ()).closes
  | active => exact absurd rfl hmode
  | draining => exact (drainOutputQueue_calms hmoves turns hsource).closes.logged

/-- **A job** of the inceptor moves messages carefully. -/
theorem inceptorProgram_closes {worker : Option QueueWorkerRole}
    (hroles : queueWorkerRole state.roles = .ok worker) (job : InceptorJob) :
    Closes places (drainMoves state.roles state.config)
      (inceptorProgram management infraDisabled state worker job) := by
  cases job with
  | input trafficPercent turns =>
    simp only [inceptorProgram]
    split
    · -- the percentage has no part in what is moved where
      exact runInputPipeline_closes { state with trafficPercent := trafficPercent } turns
    · exact (Calms.pure ()).closes
  | combine blue turns =>
    simp only [inceptorProgram]
    by_cases hworker : worker = some .combiner
    · rw [if_pos hworker]
      subst hworker
      have hrole := hasRole_of_combiner hroles
      cases houtput : drainedOutput state.config with
      | error e => exact Calms.fail.closes
      | ok queues =>
        simp only [Prog.ofExcept, Prog.bind_def, Prog.pure_bind]
        refine runCombineLoop_closes (moves_of_output hrole houtput) turns ?_
        split <;> simp
    · rw [if_neg hworker]
      exact (Calms.pure ()).closes
  | drain turns => exact drainHandler_closes turns
  | status turns => exact drainStatusHandler_closes turns

theorem moverJobs_loseNothing (hapart : Apart (drainMoves state.roles state.config)) :
    LosesNothing places (drainMoves state.roles state.config)
      (moverJobs management infraDisabled state) := by
  refine losesNothing_of_does hapart (moverLoop places (drainMoves state.roles state.config))
    (moverThread_memory _ _ _ _) ?_
  refine moverThread_does ?_ ?_
  · intro job
    simp only [inceptorJobs, inceptorThread]
    cases hroles : queueWorkerRole state.roles with
    | ok worker => exact inceptorProgram_closes hroles job
    | error e => exact (Calms.pure ()).closes
  · intro source target turns l x hroute hx
    exact moveQueueMessages_does hroute turns hx

end Jobs

end Rabbitmq

/-! ## Azure Service Bus -/

namespace ServiceBus

variable {moves : List (String × String)} {l : Option (BusPath × Nat)} {x : MoverMemory BusPath}

theorem abandon_does (hx : x.loop = l ∧ x.failed = true) :
    Does places moves (fun _ x' => x'.loop = l ∧ x'.failed = true) (fun _ => False)
      abandon.logged x := by
  refine Does.call (.inr trivial) fun w o => ?_
  have hloop : (w.serve places.place x o (.work .requeue)).2.2.loop = l :=
    (note_loop _ _ _ _ _).trans hx.1
  have hfailed : (w.serve places.place x o (.work .requeue)).2.2.failed = true := by
    by_cases hcall : o.call = .ok <;> simp [MoverWorld.serve, MoverMemory.note, hcall, hx.2]
  cases (w.serve places.place x o (.work .requeue)).1 with
  | ok a => exact ⟨hloop, hfailed⟩
  | error e => exact ⟨hloop, hfailed⟩

/-- **The loop of a drain.** -/
theorem moveAvailable_does {source : BusPath} {target : String}
    (hroute : (source.queue, target) ∈ moves) (turns : Nat) (hx : Free l x) :
    Loops places moves l source (x.moved + turns) (moveAvailable source target turns) x := by
  have hmoves : places.Moves moves source (places.place target) := ⟨_, hroute, rfl, rfl⟩
  induction turns generalizing x with
  | zero => exact ⟨hx.loop, .inr (Nat.le_refl _)⟩
  | succ turns ih =>
    refine Loops.bind (receive_does hmoves.source hx) ?_
    rintro r x₁ ⟨hmoved₁, hnone, hsome⟩
    cases r with
    | none => exact hnone rfl
    | some message =>
      refine Outside.Spec.bind (R := fun r x' =>
        (∀ a, r = .ok a → x'.moved = x₁.moved ∧ Holding l source message true x') ∧
          ∀ e, r = .error e → x'.loop = l ∧ x'.failed = true)
        (Outside.Spec.result ((publish_does hmoves (hsome message rfl)).mono ?_ ?_)) ?_
      · intro a x' h
        exact ⟨fun _ _ => h, fun _ heq => by cases heq⟩
      · intro e x' h
        exact ⟨fun _ heq => by (cases heq), fun _ _ => h⟩
      · rintro r x₂ ⟨hok, herror⟩
        cases r with
        | ok a =>
          obtain ⟨hmoved₂, hholding⟩ := hok a rfl
          refine Loops.bind (ack_does hholding) ?_
          rintro _ x₃ ⟨hmoved₃, hfree⟩
          have hcut : x.moved + (turns + 1) = x₃.moved + turns := by omega
          rw [hcut]
          exact ih hfree
        | error e =>
          refine Outside.Spec.bind ((abandon_does (herror e rfl)).mono (fun _ _ h => h)
            fun _ _ h => h.elim) ?_
          rintro _ x' ⟨hloop, hfailed⟩
          exact ⟨hloop, .inl hfailed⟩

/-! ### The jobs -/

section Jobs

variable {client : ServiceBusClient} {infraDisabled : Bool} {state : WorkerState Config}
  {queues : DrainedQueues}

theorem moveBack_calms {source target : String} (hroute : (source, target) ∈ moves)
    (turns : Nat) : Calms places moves (moveBack source target turns) := by
  have hmove : ∀ path : BusPath, path.queue = source →
      Calms places moves (moveAvailable path target turns) := by
    rintro path rfl
    exact Calms.of_loops (fun moved => moved + turns) fun _ _ hx =>
      moveAvailable_does hroute turns hx
  exact (hmove (queuePath source) rfl).bind fun _ => hmove (deadLetterPath source) rfl

theorem drainQueue_calms (hmoves : ∀ m ∈ queues.moves state.config, m ∈ moves) (turns : Nat)
    {source : String} (hsource : source ∈ [queues.green, queues.blue]) :
    Calms places moves (drainQueue state queues.base turns source) := by
  refine (moveBack_calms (hmoves _ (mem_moves hsource)) turns).bind fun _ => ?_
  cases hshadow : shadowQueueName state.config source with
  | none => exact .pure ()
  | some shadow => exact moveBack_calms (hmoves _ (mem_moves_of_shadow hsource hshadow)) turns

theorem createTargets_calms (base : String) :
    Calms places moves (createTargets infraDisabled state base) := by
  unfold createTargets
  cases infraDisabled
  · refine Calms.bind (.answer (c := .ensureQueue _) trivial) fun _ => ?_
    cases shadowQueueName state.config base with
    | none => exact .pure ()
    | some shadow => exact .answer (c := .ensureQueue _) trivial
  · exact .pure ()

theorem drainInputQueues_calms (turns : Nat) :
    Calms places (drainMoves state.roles state.config)
      (drainInputQueues infraDisabled state turns) := by
  unfold drainInputQueues
  cases hinput : drainedInput state.roles state.config with
  | error e => exact .fail
  | ok found =>
    cases found with
    | none => exact .pure ()
    | some queues =>
      simp only [Prog.ofExcept, Prog.bind_def, Prog.pure_bind]
      refine (createTargets_calms _).bind fun _ => ?_
      exact Calms.forEach fun source hsource =>
        drainQueue_calms (moves_of_input hinput) turns hsource

theorem drainOutputQueue_calms (hmoves : ∀ m ∈ queues.moves state.config, m ∈ moves) (turns : Nat)
    {source : String} (hsource : source ∈ [queues.green, queues.blue]) :
    Calms places moves (drainOutputQueue infraDisabled state turns source queues.base) :=
  (createTargets_calms _).bind fun _ => drainQueue_calms hmoves turns hsource

theorem drainOutputQueues_calms (turns : Nat) :
    Calms places (drainMoves state.roles state.config)
      (drainOutputQueues infraDisabled state turns) := by
  unfold drainOutputQueues
  by_cases hrole : hasRole state.roles .combiner = true
  · rw [if_pos hrole]
    cases houtput : drainedOutput state.config with
    | error e => exact .fail
    | ok queues =>
      refine (drainOutputQueue_calms (moves_of_output hrole houtput) turns (by simp)).bind
        fun _ => ?_
      exact drainOutputQueue_calms (moves_of_output hrole houtput) turns (by simp)
  · rw [if_neg hrole]
    exact .pure ()

theorem drainRuntimeQueues_calms (turns : Nat) :
    Calms places (drainMoves state.roles state.config)
      (drainRuntimeQueues infraDisabled state turns) :=
  (drainInputQueues_calms turns).bind fun _ => drainOutputQueues_calms turns

theorem messageCount_calms (paths : List BusPath) : Calms places moves (messageCount paths) :=
  Calms.bind (.answer (c := .depth _) trivial) fun _ => .pure _

theorem queueDrainMessageCount_calms (queue : String) :
    Calms places moves (queueDrainMessageCount client queue) := by
  unfold queueDrainMessageCount
  split
  · exact messageCount_calms _
  · refine (messageCount_calms _).bind fun _ => ?_
    exact (messageCount_calms _).bind fun _ => .pure _

theorem queueDrainMessageCountWithShadow_calms (queue : String) :
    Calms places moves (queueDrainMessageCountWithShadow client state queue) := by
  refine (queueDrainMessageCount_calms queue).bind fun total => ?_
  cases shadowQueueName state.config queue with
  | none => exact .pure _
  | some shadow => exact (queueDrainMessageCount_calms shadow).bind fun _ => .pure _

theorem drainStatusHandler_closes (turns : Nat) :
    Closes places (drainMoves state.roles state.config)
      (drainStatusHandler client infraDisabled state turns) := by
  unfold drainStatusHandler computeDrainStatus
  rw [Prog.bind_def, Prog.bind_def, Prog.bind_assoc]
  refine Closes.of_mode fun mode hmode => ?_
  refine Calms.bindCloses (Calms.bind ?_ fun _ => ?_) fun status => ?_
  · split
    · exact drainRuntimeQueues_calms turns
    · exact .pure ()
  · refine (Calms.ofExcept _).bind fun found => ?_
    split
    · refine (queueDrainMessageCountWithShadow_calms _).bind fun _ => ?_
      refine (queueDrainMessageCountWithShadow_calms _).bind fun _ => ?_
      exact (Calms.ask (c := .inFlight) trivial).bind fun _ => .pure _
    · exact .pure _
  · exact Calms.closes (Calms.ask (c := .respond status) trivial)

theorem drainHandler_closes (turns : Nat) :
    Closes places (drainMoves state.roles state.config)
      (drainHandler infraDisabled state turns) :=
  Calms.closes ((Calms.ask (c := .setDraining) trivial).bind fun _ =>
    drainRuntimeQueues_calms turns)

theorem runInputPipeline_closes (state : WorkerState Config) (turns : Nat) :
    Closes places (drainMoves state.roles state.config)
      (runInputPipeline infraDisabled state turns) := by
  refine (Calms.ofExcept _).bindCloses fun input => ?_
  refine Closes.of_mode fun mode hmode => ?_
  cases mode with
  | idle => exact (Calms.pure ()).closes
  | active => exact absurd rfl hmode
  | draining => exact (drainInputQueues_calms turns).closes.logged

theorem runCombineLoop_closes (hmoves : ∀ m ∈ queues.moves state.config, m ∈ moves) (turns : Nat)
    {source : String} (hsource : source ∈ [queues.green, queues.blue]) :
    Closes places moves (runCombineLoop infraDisabled state turns source queues.base) := by
  refine (Calms.ofExcept _).bindCloses fun combiner => ?_
  refine Closes.of_mode fun mode hmode => ?_
  cases mode with
  | idle => exact (Calms.pure ()).closes
  | active => exact absurd rfl hmode
  | draining => exact (drainOutputQueue_calms hmoves turns hsource).closes.logged

/-- **A job** of the inceptor moves messages carefully. -/
theorem inceptorProgram_closes {worker : Option QueueWorkerRole}
    (hroles : queueWorkerRole state.roles = .ok worker) (job : InceptorJob) :
    Closes places (drainMoves state.roles state.config)
      (inceptorProgram client infraDisabled state worker job) := by
  cases job with
  | input trafficPercent turns =>
    simp only [inceptorProgram]
    split
    · -- the percentage has no part in what is moved where
      exact runInputPipeline_closes { state with trafficPercent := trafficPercent } turns
    · exact (Calms.pure ()).closes
  | combine blue turns =>
    simp only [inceptorProgram]
    by_cases hworker : worker = some .combiner
    · rw [if_pos hworker]
      subst hworker
      have hrole := hasRole_of_combiner hroles
      cases houtput : drainedOutput state.config with
      | error e => exact Calms.fail.closes
      | ok queues =>
        simp only [Prog.ofExcept, Prog.bind_def, Prog.pure_bind]
        refine runCombineLoop_closes (moves_of_output hrole houtput) turns ?_
        split <;> simp
    · rw [if_neg hworker]
      exact (Calms.pure ()).closes
  | drain turns => exact drainHandler_closes turns
  | status turns => exact drainStatusHandler_closes turns

theorem moverJobs_loseNothing (hapart : Apart (drainMoves state.roles state.config)) :
    LosesNothing places (drainMoves state.roles state.config)
      (moverJobs client infraDisabled state) := by
  refine losesNothing_of_does hapart (moverLoop places (drainMoves state.roles state.config))
    (moverThread_memory _ _ _ _) ?_
  refine moverThread_does ?_ ?_
  · intro job
    simp only [inceptorJobs, inceptorThread]
    cases hroles : queueWorkerRole state.roles with
    | ok worker => exact inceptorProgram_closes hroles job
    | error e => exact (Calms.pure ()).closes
  · intro source target turns l x hroute hx
    exact moveAvailable_does hroute turns hx

end Jobs

end ServiceBus

/-- **Drains lose nothing.** For every config in which no queue that messages are moved to is one
that they are moved from: whatever the queues contain, and however the movers' calls are interleaved,
fail, or are cut off, every message is in its queue or in the one it is moved to, and every loop ends
with no ready message found. -/
theorem drain_moves_lose_nothing :
    (∀ management infraDisabled (state : WorkerState Rabbitmq.Config),
      Apart (drainMoves state.roles state.config) →
      LosesNothing Rabbitmq.places (drainMoves state.roles state.config)
        (Rabbitmq.moverJobs management infraDisabled state)) ∧
    ∀ client infraDisabled (state : WorkerState ServiceBus.Config),
      Apart (drainMoves state.roles state.config) →
      LosesNothing ServiceBus.places (drainMoves state.roles state.config)
        (ServiceBus.moverJobs client infraDisabled state) :=
  ⟨fun _ _ _ => Rabbitmq.moverJobs_loseNothing, fun _ _ _ => ServiceBus.moverJobs_loseNothing⟩

/-! ### What a loop does not see, and names that meet -/

namespace Moved

/-- A splitter of the queue `orders` with these temporary queues, and dead letters in shadows. -/
def config {D : Type} (declaration : D) (green blue : String) : QueueConfig D where
  queueDeclaration := declaration
  shadowQueue := some ⟨"-dlq", declaration⟩
  duplicator := none
  splitter := some {
    inputQueue := some "orders"
    greenInputQueue := some green
    blueInputQueue := some blue
    greenInputQueueEnvVar := some "INPUT_QUEUE"
    blueInputQueueEnvVar := some "INPUT_QUEUE" }
  combiner := none
  writer := none
  consumer := none
  observer := none

def amqp (green blue : String) : WorkerState Rabbitmq.Config :=
  ⟨Sample.workerCrates, config .empty green blue, [.splitter], 0, Sample.workerRuntime⟩

def bus (green blue : String) : WorkerState ServiceBus.Config :=
  ⟨Sample.workerCrates, config .empty green blue, [.splitter], 0, Sample.workerRuntime⟩

/-- Every call of the thread succeeds. -/
def answers (i n : Nat) :
    List (Pool.Event (MoverJob String) InceptorOutcome (MoverMove String)) :=
  List.replicate n (.answer i ⟨.ok, none, 0, 0⟩)

/-- While one loop holds the only message, another comes to its end. -/
def beside : List (Pool.Event (MoverJob String) InceptorOutcome (MoverMove String)) :=
  [.start (.loop "green" "orders" 5), .start (.loop "green" "orders" 5)] ++ answers 0 1 ++
    answers 1 1

/-- One request to `/drain`. -/
def request : List (Pool.Event (MoverJob String) InceptorOutcome (MoverMove String)) :=
  [.start (.handler (.drain 5))] ++ answers 0 12

def finished (t : Thread (InceptorCall String) InceptorAnswer Unit (MoverMemory String)) : Bool :=
  match t.prog with
  | .pure _ => true
  | _ => false

end Moved

/-- With the names a manager derives, nothing is lost. -/
theorem drain_moves_lose_nothing_splitter :
    LosesNothing Rabbitmq.places
        (drainMoves (Moved.amqp "green" "blue").roles (Moved.amqp "green" "blue").config)
        (Rabbitmq.moverJobs true true (Moved.amqp "green" "blue")) ∧
      LosesNothing ServiceBus.places
        (drainMoves (Moved.bus "green" "blue").roles (Moved.bus "green" "blue").config)
        (ServiceBus.moverJobs ⟨false, none⟩ true (Moved.bus "green" "blue")) :=
  ⟨drain_moves_lose_nothing.1 _ _ _ (by decide +kernel),
    drain_moves_lose_nothing.2 _ _ _ (by decide +kernel)⟩

/-- **A loop that has ended well may leave a message**, which another loop holds; and where blue has
the name of the base queue's shadow, a message of green's shadow goes on to the base queue. -/
theorem drain_moves_leave_what_is_held :
    (∃ s, Pool.Run (moverProcess Rabbitmq.places.place)
        (Rabbitmq.moverJobs true true (Moved.amqp "green" "blue"))
        (moverWatch Rabbitmq.places
          (drainMoves (Moved.amqp "green" "blue").roles (Moved.amqp "green" "blue").config))
        ⟨.start [("green", Sample.order)] .draining, []⟩ s ∧
      (s.world.arrived, s.threads.map fun t => (Moved.finished t, t.memory.failed),
        s.world.inceptor.broker.stored.map (·.place)) =
        ([("green", Sample.order)], [(false, false), (true, false)], ["green"])) ∧
    ∃ s, Pool.Run (moverProcess Rabbitmq.places.place)
        (Rabbitmq.moverJobs true true (Moved.amqp "green" "orders-dlq"))
        (moverWatch Rabbitmq.places
          (drainMoves (Moved.amqp "green" "orders-dlq").roles
            (Moved.amqp "green" "orders-dlq").config))
        ⟨.start [("green-dlq", Sample.order)] .draining, []⟩ s ∧
      (shadowQueueName (Moved.amqp "green" "orders-dlq").config "orders",
        s.world.inceptor.broker.stored.map (·.place)) = (some "orders-dlq", ["orders"]) := by
  constructor
  · have h : (Pool.run (moverWatch Rabbitmq.places
          (drainMoves (Moved.amqp "green" "blue").roles (Moved.amqp "green" "blue").config))
        (moverProcess Rabbitmq.places.place)
        (Rabbitmq.moverJobs true true (Moved.amqp "green" "blue"))
        ⟨.start [("green", Sample.order)] .draining, []⟩ Moved.beside).map
          (fun s => (s.world.arrived,
            s.threads.map fun t => (Moved.finished t, t.memory.failed),
            s.world.inceptor.broker.stored.map (·.place))) =
        some ([("green", Sample.order)], [(false, false), (true, false)], ["green"]) := by
      decide +kernel
    exact Pool.Run.exists_of_run h
  · have h : (Pool.run (moverWatch Rabbitmq.places
          (drainMoves (Moved.amqp "green" "orders-dlq").roles
            (Moved.amqp "green" "orders-dlq").config))
        (moverProcess Rabbitmq.places.place)
        (Rabbitmq.moverJobs true true (Moved.amqp "green" "orders-dlq"))
        ⟨.start [("green-dlq", Sample.order)] .draining, []⟩ Moved.request).map
          (fun s => (shadowQueueName (Moved.amqp "green" "orders-dlq").config "orders",
            s.world.inceptor.broker.stored.map (·.place))) =
        some (some "orders-dlq", ["orders"]) := by
      decide +kernel
    exact Pool.Run.exists_of_run h

end FluidBG
