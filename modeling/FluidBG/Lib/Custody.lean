import FluidBG.Lib.Broker
import Mathlib.Data.List.Perm.Subperm
import Mathlib.Data.List.Forall2
/-!
# Moving messages from place to place

Several movers take messages from the places of a broker and put them at other places: each takes
hold of a message, publishes a copy where it belongs, and only then settles the one it holds. Every
one of these steps may fail, a mover may be gone between any two of them, and what it held is free
again. `Custody` is the invariant of all this: every message that has ever arrived has a message of
its own at a place it may have been moved to, and the copies of moves that are not yet settled are
none of these.
-/

set_option autoImplicit false

namespace FluidBG.Lib

open List

/-- What a mover holds: a message of a place under a receipt, and where it has put a copy. -/
structure Hand (P M : Type) where
  receipt : Nat
  place : P
  message : M
  copy : Option P
  deriving DecidableEq

/-- Where messages go. A mover takes a message from `p` to `q` where `moves p q`; the broker itself
lets one slide from `p` to `q` where `slides p q`. What has arrived at `p` may be at `q` where
`leads p q`. -/
structure Routes (P : Type) where
  moves : P → P → Prop
  slides : P → P → Prop
  leads : P → P → Prop
  refl : ∀ p, leads p p
  move : ∀ {p q q'}, leads p q → moves q q' → leads p q'
  slide : ∀ {p q q'}, leads p q → slides q q' → leads p q'
  /-- No message arrives where messages are taken from. -/
  apart : ∀ {p q}, moves p q → (∀ q', ¬ moves q q') ∧ ∀ q', ¬ slides q q'

/-- A message at a place. -/
def Stored.entry {P M : Type} (s : Stored P M) : P × M := (s.place, s.message)

/-- The message is the same, and it is where it may have been moved to. -/
def Routes.Stays {P M : Type} (R : Routes P) (a e : P × M) : Prop := a.2 = e.2 ∧ R.leads a.1 e.1

namespace Custody

variable {P M : Type}

def Live (stored : List (Stored P M)) (h : Hand P M) : Prop :=
  ∃ s ∈ stored, s.receipt = some h.receipt

instance (stored : List (Stored P M)) (h : Hand P M) : Decidable (Live stored h) :=
  inferInstanceAs (Decidable (∃ s ∈ stored, s.receipt = some h.receipt))

/-- The copy of a message that is still there. -/
def spare (stored : List (Stored P M)) (h : Hand P M) : Option (P × M) :=
  if Live stored h then h.copy.map fun q => (q, h.message) else none

def spares (stored : List (Stored P M)) (hands : List (Hand P M)) : List (P × M) :=
  hands.filterMap (spare stored)

end Custody

/-- **The invariant of movers**, about what a broker stores, the number of receipts it has given
out, what the movers hold, and everything that has arrived. -/
structure Custody {P M : Type} (R : Routes P) (arrived : List (P × M)) (stored : List (Stored P M))
    (receipts : Nat) (hands : List (Hand P M)) : Prop where
  given : ∀ s ∈ stored, ∀ r, s.receipt = some r → r < receipts
  single : (stored.filterMap (·.receipt)).Nodup
  handGiven : ∀ h ∈ hands, h.receipt < receipts
  handSingle : (hands.map (·.receipt)).Nodup
  held : ∀ h ∈ hands, ∀ s ∈ stored, s.receipt = some h.receipt → s.entry = (h.place, h.message)
  source : ∀ h ∈ hands, ∃ q, R.moves h.place q
  arrival : ∀ h ∈ hands, ∃ a ∈ arrived, R.Stays a (h.place, h.message)
  copied : ∀ h ∈ hands, ∀ q, h.copy = some q → R.moves h.place q
  kept : ∃ kept, (kept ++ Custody.spares stored hands) <+~ stored.map (·.entry) ∧
    Forall₂ R.Stays arrived kept
  known : ∀ s ∈ stored, ∃ a ∈ arrived, R.Stays a s.entry

/-! ## Lists -/

section Lists

variable {α β : Type}

theorem subperm_of_cons {a : α} {l l' : List α} (h : l <+~ a :: l') (ha : a ∉ l) : l <+~ l' := by
  classical
  have herase := h.erase a
  rwa [List.erase_of_not_mem ha, List.erase_cons_head] at herase

/-- One element of the right list, replaced. -/
theorem forall₂_replace {T : α → β → Prop} {e e' : β} (he : ∀ a, T a e → T a e') :
    ∀ {as : List α} {bs cs : List β}, Forall₂ T as (bs ++ e :: cs) →
      Forall₂ T as (bs ++ e' :: cs)
  | _, [], _, .cons h hs => .cons (he _ h) hs
  | _, _ :: _, _, .cons h hs => .cons h (forall₂_replace he hs)

/-- Where a list leads out of a list is replaced. -/
theorem filterMap_sublist {f g : α → Option β} {xs : List α}
    (h : ∀ x ∈ xs, g x = f x ∨ g x = none) : xs.filterMap g <+ xs.filterMap f := by
  induction xs with
  | nil => exact .slnil
  | cons x xs ih =>
    have hrest := ih fun y hy => h y (mem_cons_of_mem _ hy)
    simp only [filterMap_cons]
    rcases h x (by simp) with hx | hx
    · rw [hx]
      cases f x with
      | none => exact hrest
      | some b => exact hrest.cons_cons b
    · rw [hx]
      cases f x with
      | none => exact hrest
      | some b => exact hrest.cons b

end Lists

namespace Custody

variable {P M : Type} {R : Routes P} {arrived : List (P × M)} {stored stored' rest : List (Stored P M)}
  {receipts : Nat} {hands hands' others : List (Hand P M)} {s : Stored P M} {h : Hand P M} {p q : P}
  {m : M}

/-! ## Order does not matter -/

theorem live_perm (hp : stored.Perm stored') (h : Hand P M) : Live stored' h ↔ Live stored h := by
  simp only [Live, hp.mem_iff]

theorem spares_perm (hp : stored.Perm stored') (hh : hands.Perm hands') :
    (spares stored hands).Perm (spares stored' hands') := by
  have hspare : spare stored' = spare stored := by
    funext h
    simp only [spare, live_perm hp]
  rw [spares, spares, hspare]
  exact hh.filterMap _

theorem perm (hc : Custody R arrived stored receipts hands) (hp : stored.Perm stored')
    (hh : hands.Perm hands') : Custody R arrived stored' receipts hands' where
  given s hs := hc.given s (hp.mem_iff.mpr hs)
  single := (hp.filterMap _).nodup_iff.mp hc.single
  handGiven h hh' := hc.handGiven h (hh.mem_iff.mpr hh')
  handSingle := (hh.map _).nodup_iff.mp hc.handSingle
  held h hh' s hs := hc.held h (hh.mem_iff.mpr hh') s (hp.mem_iff.mpr hs)
  source h hh' := hc.source h (hh.mem_iff.mpr hh')
  arrival h hh' := hc.arrival h (hh.mem_iff.mpr hh')
  copied h hh' := hc.copied h (hh.mem_iff.mpr hh')
  kept := by
    obtain ⟨kept, hsub, hstays⟩ := hc.kept
    refine ⟨kept, ?_, hstays⟩
    have hleft := (spares_perm hp hh).append_left kept
    exact hleft.subperm_right.mp ((hp.map _).subperm_left.mp hsub)
  known s hs := hc.known s (hp.mem_iff.mpr hs)

/-! ## Fewer spares -/

/-- Where receipts are only lost, so are spares. -/
theorem spares_sublist (hlive : ∀ h ∈ hands, Live stored' h → Live stored h) :
    spares stored' hands <+ spares stored hands := by
  refine filterMap_sublist fun h hh => ?_
  by_cases hl : Live stored' h
  · exact .inl (by simp [spare, hl, hlive h hh hl])
  · exact .inr (by simp [spare, hl])

/-- A hand is lost: what it held is free for the next. -/
theorem drop (hc : Custody R arrived stored receipts (h :: hands)) :
    Custody R arrived stored receipts hands where
  given := hc.given
  single := hc.single
  handGiven h' hh' := hc.handGiven h' (mem_cons_of_mem _ hh')
  handSingle := (nodup_cons.mp hc.handSingle).2
  held h' hh' := hc.held h' (mem_cons_of_mem _ hh')
  source h' hh' := hc.source h' (mem_cons_of_mem _ hh')
  arrival h' hh' := hc.arrival h' (mem_cons_of_mem _ hh')
  copied h' hh' := hc.copied h' (mem_cons_of_mem _ hh')
  kept := by
    obtain ⟨kept, hsub, hstays⟩ := hc.kept
    refine ⟨kept, .trans ?_ hsub, hstays⟩
    exact ((sublist_cons_self h hands).filterMap _).append_left kept |>.subperm
  known := hc.known

/-- A spare is nowhere a message is taken from, or slides from. -/
theorem not_mem_spares (hc : Custody R arrived stored receipts hands) {e : P × M}
    (he : (∃ q, R.moves e.1 q) ∨ ∃ q, R.slides e.1 q) : e ∉ spares stored hands := by
  intro hmem
  obtain ⟨h, hh, hspare⟩ := mem_filterMap.mp hmem
  unfold spare at hspare
  split at hspare
  · obtain ⟨q, hq, rfl⟩ := Option.map_eq_some_iff.mp hspare
    have hapart := R.apart (hc.copied h hh q hq)
    rcases he with ⟨q', hmoves⟩ | ⟨q', hslides⟩
    · exact hapart.1 q' hmoves
    · exact hapart.2 q' hslides
  · cases hspare

/-! ## What is done to one message -/

/-- Another receipt for a message, a new one, or none. -/
theorem relabel {receipts' : Nat} (hc : Custody R arrived (s :: rest) receipts hands)
    (receipt : Option Nat) (hle : receipts ≤ receipts')
    (hreceipt : ∀ r, receipt = some r → r = receipts ∧ receipts < receipts') :
    Custody R arrived ({ s with receipt := receipt } :: rest) receipts' hands := by
  have hold : ∀ h ∈ hands, ∀ s' ∈ { s with receipt := receipt } :: rest,
      s'.receipt = some h.receipt → s' ∈ rest := by
    intro h hh s' hs' hr
    rcases mem_cons.mp hs' with rfl | hs'
    · -- no hand has a receipt that is only given now
      have hgiven := hc.handGiven h hh
      have hnew := hreceipt _ hr
      omega
    · exact hs'
  have hlive : ∀ h ∈ hands, Live ({ s with receipt := receipt } :: rest) h →
      Live (s :: rest) h :=
    fun h hh ⟨s', hs', hr⟩ => ⟨s', mem_cons_of_mem _ (hold h hh s' hs' hr), hr⟩
  refine ⟨?_, ?_, ?_, hc.handSingle, ?_, hc.source, hc.arrival, hc.copied, ?_, ?_⟩
  · intro s' hs' r hr
    rcases mem_cons.mp hs' with rfl | hs'
    · have hnew := hreceipt r hr
      omega
    · have hgiven := hc.given s' (mem_cons_of_mem _ hs') r hr
      omega
  · have hrest : (rest.filterMap (·.receipt)).Nodup :=
      hc.single.sublist ((sublist_cons_self s rest).filterMap _)
    cases receipt with
    | none => simpa [filterMap_cons] using hrest
    | some r =>
      simp only [filterMap_cons, nodup_cons]
      refine ⟨?_, hrest⟩
      intro hmem
      obtain ⟨s', hs', hr⟩ := mem_filterMap.mp hmem
      have hgiven := hc.given s' (mem_cons_of_mem _ hs') _ hr
      have hnew := hreceipt r rfl
      omega
  · intro h hh
    have hgiven := hc.handGiven h hh
    omega
  · intro h hh s' hs' hr
    exact hc.held h hh s' (mem_cons_of_mem _ (hold h hh s' hs' hr)) hr
  · obtain ⟨kept, hsub, hstays⟩ := hc.kept
    refine ⟨kept, .trans ?_ hsub, hstays⟩
    exact ((spares_sublist hlive).append_left kept).subperm
  · intro s' hs'
    rcases mem_cons.mp hs' with rfl | hs'
    · exact hc.known s (by simp)
    · exact hc.known s' (mem_cons_of_mem _ hs')

/-- A message that nobody holds is taken. -/
theorem take (hc : Custody R arrived (s :: rest) receipts hands) (hq : R.moves s.place q) :
    Custody R arrived ({ s with receipt := some receipts } :: rest) (receipts + 1)
      (⟨receipts, s.place, s.message, none⟩ :: hands) := by
  have hnew := hc.relabel (some receipts) (Nat.le_succ _)
    fun r hr => ⟨(Option.some.inj hr).symm, Nat.lt_succ_self _⟩
  refine ⟨hnew.given, hnew.single, ?_, ?_, ?_, ?_, ?_, ?_, ?_, hnew.known⟩
  · intro h hh
    rcases mem_cons.mp hh with rfl | hh
    · exact Nat.lt_succ_self _
    · exact hnew.handGiven h hh
  · simp only [map_cons, nodup_cons]
    refine ⟨?_, hc.handSingle⟩
    intro hmem
    obtain ⟨h, hh, hr⟩ := mem_map.mp hmem
    have hold := hc.handGiven h hh
    omega
  · intro h hh s' hs' hr
    rcases mem_cons.mp hh with rfl | hh
    · rcases mem_cons.mp hs' with rfl | hs'
      · rfl
      · have hold := hc.given s' (mem_cons_of_mem _ hs') _ hr
        exact absurd hold (Nat.lt_irrefl _)
    · exact hnew.held h hh s' hs' hr
  · intro h hh
    rcases mem_cons.mp hh with rfl | hh
    · exact ⟨q, hq⟩
    · exact hc.source h hh
  · intro h hh
    rcases mem_cons.mp hh with rfl | hh
    · exact hc.known s (by simp)
    · exact hc.arrival h hh
  · intro h hh q' hcopy
    rcases mem_cons.mp hh with rfl | hh
    · cases hcopy
    · exact hc.copied h hh q' hcopy
  · obtain ⟨kept, hsub, hstays⟩ := hnew.kept
    refine ⟨kept, ?_, hstays⟩
    -- the new hand has no copy yet
    have hsame : spares ({ s with receipt := some receipts } :: rest)
        (⟨receipts, s.place, s.message, none⟩ :: hands) =
          spares ({ s with receipt := some receipts } :: rest) hands := by
      simp [spares, spare]
    rw [hsame]
    exact hsub

/-- A message of a place that has arrived goes to another: one of the kept messages is this one, or
it is not among them. -/
theorem kept_replace {a e : P × M} {l : List (P × M)} {kept sp : List (P × M)}
    (hsub : (kept ++ sp) <+~ a :: l) (hstays : Forall₂ R.Stays arrived kept)
    (hnot : a ∉ sp) (he : ∀ b, R.Stays b a → R.Stays b e) :
    ∃ kept', (kept' ++ sp) <+~ e :: l ∧ Forall₂ R.Stays arrived kept' := by
  by_cases hmem : a ∈ kept
  · obtain ⟨bs, cs, rfl⟩ := append_of_mem hmem
    refine ⟨bs ++ e :: cs, ?_, forall₂_replace he hstays⟩
    have hfront : ∀ x : P × M, (bs ++ x :: cs ++ sp).Perm (x :: (bs ++ cs ++ sp)) := by
      intro x
      simp only [append_assoc, cons_append]
      exact perm_middle
    have hrest : (bs ++ cs ++ sp) <+~ l :=
      (subperm_cons a).mp ((hfront a).subperm_right.mp hsub)
    exact (hfront e).subperm_right.mpr ((subperm_cons e).mpr hrest)
  · refine ⟨kept, (subperm_of_cons hsub ?_).cons_right e, hstays⟩
    simp [hmem, hnot]

/-- The broker lets a message slide. -/
theorem slide (hc : Custody R arrived (s :: rest) receipts hands) (hq : R.slides s.place q) :
    Custody R arrived (⟨q, s.message, none⟩ :: rest) receipts hands := by
  have hlive : ∀ h ∈ hands, Live (⟨q, s.message, none⟩ :: rest) h → Live (s :: rest) h := by
    rintro h hh ⟨s', hs', hr⟩
    rcases mem_cons.mp hs' with rfl | hs'
    · cases hr
    · exact ⟨s', mem_cons_of_mem _ hs', hr⟩
  have hstays : ∀ b, R.Stays b s.entry → R.Stays b (q, s.message) :=
    fun b hb => ⟨hb.1, R.slide hb.2 hq⟩
  refine ⟨?_, ?_, hc.handGiven, hc.handSingle, ?_, hc.source, hc.arrival, hc.copied, ?_, ?_⟩
  · intro s' hs' r hr
    rcases mem_cons.mp hs' with rfl | hs'
    · cases hr
    · exact hc.given s' (mem_cons_of_mem _ hs') r hr
  · simp only [filterMap_cons]
    exact hc.single.sublist ((sublist_cons_self s rest).filterMap _)
  · intro h hh s' hs' hr
    rcases mem_cons.mp hs' with rfl | hs'
    · cases hr
    · exact hc.held h hh s' (mem_cons_of_mem _ hs') hr
  · obtain ⟨kept, hsub, hkept⟩ := hc.kept
    obtain ⟨kept', hsub', hkept'⟩ :=
      kept_replace hsub hkept (hc.not_mem_spares (.inr ⟨q, hq⟩)) hstays
    exact ⟨kept', .trans ((spares_sublist hlive).append_left kept').subperm hsub', hkept'⟩
  · intro s' hs'
    rcases mem_cons.mp hs' with rfl | hs'
    · obtain ⟨a, ha, hsame⟩ := hc.known s (by simp)
      exact ⟨a, ha, hstays a hsame⟩
    · exact hc.known s' (mem_cons_of_mem _ hs')

/-- **A mover settles what it holds**, once it has put a copy where it belongs. -/
theorem settle (hc : Custody R arrived (s :: rest) receipts (h :: hands))
    (hs : s.receipt = some h.receipt) (hcopy : h.copy = some q) :
    Custody R arrived rest receipts (h :: hands) := by
  have hentry : s.entry = (h.place, h.message) := hc.held h (by simp) s (by simp) hs
  have hmoves : R.moves h.place q := hc.copied h (by simp) q hcopy
  have hrest : ∀ s' ∈ rest, s'.receipt ≠ some h.receipt := by
    intro s' hs' hr
    have hnodup := hc.single
    simp only [filterMap_cons, hs, nodup_cons] at hnodup
    exact hnodup.1 (mem_filterMap.mpr ⟨s', hs', hr⟩)
  have hdead : ¬ Live rest h := fun ⟨s', hs', hr⟩ => hrest s' hs' hr
  refine ⟨fun s' hs' => hc.given s' (mem_cons_of_mem _ hs'), ?_, hc.handGiven, hc.handSingle,
    fun h' hh' s' hs' => hc.held h' hh' s' (mem_cons_of_mem _ hs'), hc.source, hc.arrival,
    hc.copied, ?_, fun s' hs' => hc.known s' (mem_cons_of_mem _ hs')⟩
  · exact hc.single.sublist ((sublist_cons_self s rest).filterMap _)
  · obtain ⟨kept, hsub, hkept⟩ := hc.kept
    -- the copy is no longer spare: it stands for the message now
    have hspares : spares (s :: rest) (h :: hands) =
        (q, h.message) :: spares (s :: rest) hands := by
      have hlive : Live (s :: rest) h := ⟨s, by simp, hs⟩
      simp [spares, spare, hlive, hcopy]
    have hfewer : spares rest (h :: hands) <+ spares (s :: rest) hands := by
      have hnone : spares rest (h :: hands) = spares rest hands := by
        simp [spares, spare, hdead]
      rw [hnone]
      exact spares_sublist fun h' _ ⟨s', hs', hr⟩ => ⟨s', mem_cons_of_mem _ hs', hr⟩
    have hnot : s.entry ∉ (q, h.message) :: spares (s :: rest) hands := by
      rw [← hspares]
      refine hc.not_mem_spares (.inl ⟨q, ?_⟩)
      rw [hentry]
      exact hmoves
    rw [hspares, map_cons] at hsub
    have hsub' : ((q, h.message) :: (kept ++ spares (s :: rest) hands)) <+~
        s.entry :: rest.map (·.entry) := perm_middle.subperm_right.mp hsub
    by_cases hmem : s.entry ∈ kept
    · obtain ⟨bs, cs, rfl⟩ := append_of_mem hmem
      refine ⟨bs ++ (q, h.message) :: cs, ?_, ?_⟩
      · have hone : (s.entry :: (bs ++ (q, h.message) :: cs ++ spares (s :: rest) hands)) <+~
            s.entry :: rest.map (·.entry) := by
          refine Perm.subperm_right ?_ |>.mpr hsub'
          simp only [append_assoc, cons_append]
          refine .trans (.cons _ perm_middle) (.trans (.swap _ _ _) (.cons _ perm_middle.symm))
        exact .trans (hfewer.append_left _).subperm ((subperm_cons _).mp hone)
      · refine forall₂_replace ?_ hkept
        intro a ha
        rw [hentry] at ha
        exact ⟨ha.1, R.move ha.2 hmoves⟩
    · refine ⟨kept, ?_, hkept⟩
      have hall : (kept ++ spares (s :: rest) hands) <+~ rest.map (·.entry) := by
        refine subperm_of_cons (.trans Subperm.cons_self hsub') ?_
        rw [mem_append, not_or]
        exact ⟨hmem, fun hin => hnot (mem_cons_of_mem _ hin)⟩
      exact .trans (hfewer.append_left _).subperm hall

/-! ## What is put -/

theorem live_append (x : Stored P M) (hx : x.receipt = none) (h : Hand P M) :
    Live (x :: stored) h ↔ Live stored h := by
  simp [Live, hx]

theorem spares_append (x : Stored P M) (hx : x.receipt = none) :
    spares (x :: stored) hands = spares stored hands := by
  have hspare : spare (x :: stored) = spare stored := by
    funext h
    simp only [spare, live_append x hx]
  rw [spares, spares, hspare]

/-- Somebody else sends a message. -/
theorem arrive (hc : Custody R arrived stored receipts hands) (p : P) (m : M) :
    Custody R (arrived ++ [(p, m)]) (⟨p, m, none⟩ :: stored) receipts hands := by
  have hwiden : ∀ e : P × M, (∃ a ∈ arrived, R.Stays a e) →
      ∃ a ∈ arrived ++ [(p, m)], R.Stays a e := by
    rintro e ⟨a, ha, hstays⟩
    exact ⟨a, mem_append_left _ ha, hstays⟩
  refine ⟨?_, ?_, hc.handGiven, hc.handSingle, ?_, hc.source, fun h hh => hwiden _ (hc.arrival h hh),
    hc.copied, ?_, ?_⟩
  · intro s hs r hr
    rcases mem_cons.mp hs with rfl | hs
    · cases hr
    · exact hc.given s hs r hr
  · simpa [filterMap_cons] using hc.single
  · intro h hh s hs hr
    rcases mem_cons.mp hs with rfl | hs
    · cases hr
    · exact hc.held h hh s hs hr
  · obtain ⟨kept, hsub, hkept⟩ := hc.kept
    refine ⟨kept ++ [(p, m)], ?_, ?_⟩
    · rw [spares_append _ rfl, map_cons]
      have hfront : (kept ++ [(p, m)] ++ spares stored hands).Perm
          ((p, m) :: (kept ++ spares stored hands)) := by
        simp only [append_assoc, singleton_append]
        exact perm_middle
      exact hfront.subperm_right.mpr ((subperm_cons _).mpr hsub)
    · exact rel_append hkept (.cons ⟨rfl, R.refl p⟩ .nil)
  · intro s hs
    rcases mem_cons.mp hs with rfl | hs
    · exact ⟨(p, m), by simp, rfl, R.refl p⟩
    · exact hwiden _ (hc.known s hs)

/-- **A mover publishes** the message it holds. -/
theorem publish (hc : Custody R arrived stored receipts (h :: hands)) (hcopy : h.copy = none)
    (hq : R.moves h.place q) :
    Custody R arrived (⟨q, h.message, none⟩ :: stored) receipts
      ({ h with copy := some q } :: hands) := by
  have hfirst := hc.handSingle
  refine ⟨?_, ?_, ?_, by simpa using hfirst, ?_, ?_, ?_, ?_, ?_, ?_⟩
  · intro s hs r hr
    rcases mem_cons.mp hs with rfl | hs
    · cases hr
    · exact hc.given s hs r hr
  · simpa [filterMap_cons] using hc.single
  · intro h' hh'
    rcases mem_cons.mp hh' with rfl | hh'
    · exact hc.handGiven h (by simp)
    · exact hc.handGiven h' (mem_cons_of_mem _ hh')
  · intro h' hh' s hs hr
    rcases mem_cons.mp hs with rfl | hs
    · cases hr
    · rcases mem_cons.mp hh' with rfl | hh'
      · exact hc.held h (by simp) s hs hr
      · exact hc.held h' (mem_cons_of_mem _ hh') s hs hr
  · intro h' hh'
    rcases mem_cons.mp hh' with rfl | hh'
    · exact hc.source h (by simp)
    · exact hc.source h' (mem_cons_of_mem _ hh')
  · intro h' hh'
    rcases mem_cons.mp hh' with rfl | hh'
    · exact hc.arrival h (by simp)
    · exact hc.arrival h' (mem_cons_of_mem _ hh')
  · intro h' hh' q' hcopy'
    rcases mem_cons.mp hh' with rfl | hh'
    · cases hcopy'
      exact hq
    · exact hc.copied h' (mem_cons_of_mem _ hh') q' hcopy'
  · obtain ⟨kept, hsub, hkept⟩ := hc.kept
    refine ⟨kept, ?_, hkept⟩
    rw [spares_append _ rfl, map_cons]
    have hold : spares stored (h :: hands) = spares stored hands := by
      simp [spares, spare, hcopy]
    rw [hold] at hsub
    have hnew : spares stored ({ h with copy := some q } :: hands) <+
        (q, h.message) :: spares stored hands := by
      simp only [spares, filterMap_cons, spare]
      split
      · exact (Sublist.refl _).cons _
      · rename_i e he
        split at he
        · cases he
          exact .refl _
        · cases he
    refine .trans (hnew.append_left kept).subperm ?_
    exact perm_middle.subperm_right.mpr ((subperm_cons _).mpr hsub)
  · intro s hs
    rcases mem_cons.mp hs with rfl | hs
    · obtain ⟨a, ha, hstays⟩ := hc.arrival h (by simp)
      exact ⟨a, ha, hstays.1, R.move hstays.2 hq⟩
    · exact hc.known s hs

/-! ## The operations of a broker -/

variable {b b' : Broker P M} {i : Nat}

theorem of_perm (hp : stored.Perm stored') (hc : Custody R arrived stored receipts hands) :
    Custody R arrived stored' receipts hands := hc.perm hp (.refl _)

/-- A mover is handed a message. -/
theorem receive [DecidableEq P] {r : Nat} (hc : Custody R arrived b.stored b.receipts hands)
    (hq : R.moves p q) (ht : b.take p = some (r, m, b')) :
    Custody R arrived b'.stored b'.receipts (⟨r, p, m, none⟩ :: hands) := by
  unfold Broker.take at ht
  split at ht
  · rename_i message stored hstored
    cases ht
    obtain ⟨bs, s, cs, hbs, rfl, -, rfl, rfl⟩ := Broker.takeFrom_split hstored
    rw [hbs] at hc
    exact of_perm perm_middle.symm ((of_perm perm_middle hc).take hq)
  · cases ht

theorem putOther (hc : Custody R arrived b.stored b.receipts hands) (p : P) (m : M) :
    Custody R (arrived ++ [(p, m)]) (b.put p m).stored (b.put p m).receipts hands :=
  of_perm (perm_append_singleton _ _).symm (hc.arrive p m)

theorem putOwn (hc : Custody R arrived b.stored b.receipts (h :: hands)) (hcopy : h.copy = none)
    (hq : R.moves h.place q) :
    Custody R arrived (b.put q h.message).stored (b.put q h.message).receipts
      ({ h with copy := some q } :: hands) :=
  of_perm (perm_append_singleton _ _).symm (hc.publish hcopy hq)

/-- What is settled is one message, or nothing. -/
theorem settle_cases {r : Nat} (hsingle : (b.stored.filterMap (·.receipt)).Nodup) :
    (b.settle r).stored = b.stored ∧ (∀ s ∈ b.stored, s.receipt ≠ some r) ∨
      ∃ s, s.receipt = some r ∧ b.stored.Perm (s :: (b.settle r).stored) := by
  by_cases hlive : ∃ s ∈ b.stored, s.receipt = some r
  · refine .inr ?_
    obtain ⟨s, hs, hr⟩ := hlive
    obtain ⟨bs, cs, hbs⟩ := append_of_mem hs
    have hperm : b.stored.Perm (s :: (bs ++ cs)) := by
      rw [hbs]
      exact perm_middle
    have hnodup := (hperm.filterMap (·.receipt)).nodup_iff.mp hsingle
    simp only [filterMap_cons, hr, nodup_cons] at hnodup
    have hothers : ∀ s' ∈ bs ++ cs, s'.receipt ≠ some r := by
      intro s' hs' hr'
      exact hnodup.1 (mem_filterMap.mpr ⟨s', hs', hr'⟩)
    refine ⟨s, hr, ?_⟩
    have hfilter : (b.settle r).stored = bs ++ cs := by
      show b.stored.filter (fun s' => s'.receipt ≠ some r) = bs ++ cs
      have hbs' : ∀ s' ∈ bs, decide (s'.receipt ≠ some r) = true := fun s' hs' =>
        decide_eq_true (hothers s' (mem_append_left _ hs'))
      have hcs' : ∀ s' ∈ cs, decide (s'.receipt ≠ some r) = true := fun s' hs' =>
        decide_eq_true (hothers s' (mem_append_right _ hs'))
      rw [hbs, filter_append, filter_cons, filter_eq_self.mpr hbs', filter_eq_self.mpr hcs']
      simp [hr]
    rw [hfilter]
    exact hperm
  · refine .inl ⟨?_, fun s hs hr => hlive ⟨s, hs, hr⟩⟩
    exact filter_eq_self.mpr fun s hs => decide_eq_true fun hr => hlive ⟨s, hs, hr⟩

theorem settled (hc : Custody R arrived b.stored b.receipts (h :: hands))
    (hcopy : h.copy = some q) :
    Custody R arrived (b.settle h.receipt).stored (b.settle h.receipt).receipts (h :: hands) := by
  rcases settle_cases hc.single with ⟨hsame, -⟩ | ⟨s, hs, hperm⟩
  · rw [hsame]
    exact hc
  · exact (of_perm hperm hc).settle hs hcopy

/-- A message is free again. -/
theorem givenBack (hc : Custody R arrived b.stored b.receipts hands) (r : Nat) :
    Custody R arrived (b.giveBack r).stored (b.giveBack r).receipts hands := by
  -- one message after the other
  have hfront : ∀ done todo : List (Stored P M),
      Custody R arrived (done ++ todo) b.receipts hands →
      Custody R arrived (done ++ todo.map fun s =>
        if s.receipt = some r then { s with receipt := none } else s) b.receipts hands := by
    intro done todo
    induction todo generalizing done with
    | nil => exact id
    | cons s todo ih =>
      intro hc
      have hnext : Custody R arrived
          ((done ++ [if s.receipt = some r then { s with receipt := none } else s]) ++ todo)
          b.receipts hands := by
        rw [append_assoc, singleton_append]
        split
        · exact of_perm perm_middle.symm
            ((of_perm perm_middle hc).relabel none (Nat.le_refl _) fun _ hr => by cases hr)
        · exact hc
      have hall := ih _ hnext
      rwa [append_assoc, singleton_append] at hall
  exact hfront [] b.stored hc

theorem setReceipt {receipt : Option Nat} {receipts' : Nat}
    (hc : Custody R arrived b.stored receipts' hands) (hle : receipts' ≤ b.receipts)
    (hreceipt : ∀ r, receipt = some r → r = receipts' ∧ receipts' < b.receipts)
    (hset : b.setReceipt i receipt = some b') :
    Custody R arrived b'.stored b'.receipts hands := by
  unfold Broker.setReceipt at hset
  split at hset
  · rename_i s hs
    cases hset
    obtain ⟨bs, cs, hbs, hset⟩ := Broker.set_split hs
    rw [hbs] at hc
    show Custody R arrived (b.stored.set i _) b.receipts hands
    rw [hset]
    exact of_perm perm_middle.symm ((of_perm perm_middle hc).relabel receipt hle hreceipt)
  · cases hset

theorem transfer (hc : Custody R arrived b.stored b.receipts hands)
    (hslides : ∀ s ∈ b.stored[i]?, R.slides s.place p) (hset : b.transfer i p = some b') :
    Custody R arrived b'.stored b'.receipts hands := by
  unfold Broker.transfer at hset
  split at hset
  · rename_i s hs
    cases hset
    obtain ⟨bs, cs, hbs, hset⟩ := Broker.set_split hs
    rw [hbs] at hc
    show Custody R arrived (b.stored.set i _) b.receipts hands
    rw [hset]
    exact of_perm perm_middle.symm ((of_perm perm_middle hc).slide (hslides s (by simp [hs])))
  · cases hset

end Custody

end FluidBG.Lib
