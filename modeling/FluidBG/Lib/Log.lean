import Mathlib.Data.List.Basic
/-!
# A log with durable consumers

What a streaming server keeps: messages in the order in which they came, each at a subject. A
message stays where it is. Who consumes it is known to the server by the name of a durable, and for
each durable on its own the server knows whether the message was handed out and whether it was
acknowledged. A consumer that asks under another name starts from the beginning.

A message may be handed out again as long as its durable has not acknowledged it. A limit of the
server may discard messages, acknowledged or not.
-/

set_option autoImplicit false

namespace FluidBG.Lib

/-- A message of a log, with the durables it was handed to and those that acknowledged it. -/
structure Entry (S D M : Type) where
  subject : S
  message : M
  handed : List D
  acked : List D
  /-- A limit has discarded it. -/
  gone : Bool
  deriving DecidableEq

structure Log (S D M : Type) where
  entries : List (Entry S D M)

namespace Log

variable {S D M : Type}

/-- The message was neither discarded nor acknowledged by the durable. -/
def Open (e : Entry S D M) (subject : S) (durable : D) : Prop :=
  e.subject = subject ∧ e.gone = false ∧ durable ∉ e.acked

instance [DecidableEq S] [DecidableEq D] (e : Entry S D M) (subject : S) (durable : D) :
    Decidable (Open e subject durable) :=
  inferInstanceAs (Decidable (e.subject = subject ∧ e.gone = false ∧ durable ∉ e.acked))

def append (l : Log S D M) (subject : S) (message : M) : Log S D M :=
  ⟨l.entries ++ [⟨subject, message, [], [], false⟩]⟩

def modify (l : Log S D M) (i : Nat) (f : Entry S D M → Entry S D M) : Log S D M :=
  ⟨l.entries.modify i f⟩

/-- A message of the subject is handed to the durable, for the first time or again. -/
def hand [DecidableEq S] [DecidableEq D] (l : Log S D M) (subject : S) (durable : D) (i : Nat) :
    Option (M × Log S D M) :=
  match l.entries[i]? with
  | some e =>
    if Open e subject durable then
      some (e.message, l.modify i fun e => { e with handed := durable :: e.handed })
    else none
  | none => none

def ack (l : Log S D M) (i : Nat) (durable : D) : Log S D M :=
  l.modify i fun e => { e with acked := durable :: e.acked }

def discard (l : Log S D M) (i : Nat) : Log S D M :=
  l.modify i fun e => { e with gone := true }

/-- What the durable was not handed yet. -/
def pending [DecidableEq S] [DecidableEq D] (l : Log S D M) (subject : S) (durable : D) : Nat :=
  l.entries.countP fun e => Open e subject durable ∧ durable ∉ e.handed

/-- What it was handed and has not acknowledged. -/
def ackPending [DecidableEq S] [DecidableEq D] (l : Log S D M) (subject : S) (durable : D) : Nat :=
  l.entries.countP fun e => Open e subject durable ∧ durable ∈ e.handed

/-! ## Entries, one by one -/

variable {l : Log S D M} {i j : Nat} {f : Entry S D M → Entry S D M} {e : Entry S D M}
  {subject other : S} {durable : D} {message : M}

theorem get_modify (h : (l.modify i f).entries[j]? = some e) :
    ∃ e₀, l.entries[j]? = some e₀ ∧ e = if i = j then f e₀ else e₀ := by
  simp only [modify, List.getElem?_modify] at h
  cases he : l.entries[j]? with
  | none =>
    rw [he] at h
    simp at h
  | some e₀ =>
    rw [he] at h
    refine ⟨e₀, rfl, ?_⟩
    simpa using h.symm

theorem modify_get (h : l.entries[j]? = some e) :
    (l.modify i f).entries[j]? = some (if i = j then f e else e) := by
  simp [modify, List.getElem?_modify, h]

theorem get_append (h : (l.append subject message).entries[j]? = some e) :
    l.entries[j]? = some e ∨ (j = l.entries.length ∧ e = ⟨subject, message, [], [], false⟩) := by
  simp only [append] at h
  by_cases hj : j < l.entries.length
  · rw [List.getElem?_append_left hj] at h
    exact .inl h
  · rw [List.getElem?_append_right (by omega), List.getElem?_singleton] at h
    split at h
    · rename_i hzero
      exact .inr ⟨by omega, (Option.some.inj h).symm⟩
    · cases h

theorem append_get (h : l.entries[j]? = some e) :
    (l.append subject message).entries[j]? = some e := by
  obtain ⟨hj, -⟩ := List.getElem?_eq_some_iff.mp h
  simp only [append]
  rw [List.getElem?_append_left hj]
  exact h

/-- What is handed out was open. -/
theorem open_of_hand [DecidableEq S] [DecidableEq D] {l' : Log S D M}
    (h : l.hand subject durable i = some (message, l')) :
    ∃ e, l.entries[i]? = some e ∧ Open e subject durable ∧
      l' = l.modify i fun e => { e with handed := durable :: e.handed } := by
  unfold hand at h
  split at h
  · rename_i e he
    split at h
    · rename_i hopen
      cases h
      exact ⟨e, he, hopen, rfl⟩
    · cases h
  · cases h

/-! ## Settled subjects -/

/-- Nothing of the subject is left for the durable. -/
def Settled (l : Log S D M) (subject : S) (durable : D) : Prop :=
  ∀ (i : Nat) (e : Entry S D M), l.entries[i]? = some e → e.subject = subject →
    e.gone = true ∨ durable ∈ e.acked

/-- **Two counts** say together that nothing is left. -/
theorem settled_iff [DecidableEq S] [DecidableEq D] :
    l.Settled subject durable ↔
      l.pending subject durable = 0 ∧ l.ackPending subject durable = 0 := by
  simp only [pending, ackPending, List.countP_eq_zero, decide_eq_true_eq]
  constructor
  · intro h
    have hclosed : ∀ e ∈ l.entries, ¬ Open e subject durable := by
      rintro e he ⟨hsubject, hgone, hacked⟩
      obtain ⟨i, hi⟩ := List.mem_iff_getElem?.mp he
      rcases h i e hi hsubject with h | h
      · simp [hgone] at h
      · exact hacked h
    exact ⟨fun e he hopen => absurd hopen.1 (hclosed e he),
      fun e he hopen => absurd hopen.1 (hclosed e he)⟩
  · rintro ⟨hpending, hack⟩ i e hi hsubject
    have he : e ∈ l.entries := List.mem_of_getElem? hi
    by_cases hgone : e.gone = true
    · exact .inl hgone
    · by_cases hacked : durable ∈ e.acked
      · exact .inr hacked
      · have hopen : Open e subject durable := ⟨hsubject, by simpa using hgone, hacked⟩
        have hhanded : durable ∈ e.handed := by
          by_contra hno
          exact hpending e he ⟨hopen, hno⟩
        exact absurd ⟨hopen, hhanded⟩ (hack e he)

theorem Settled.append (h : l.Settled subject durable) (hne : other ≠ subject) :
    (l.append other message).Settled subject durable := by
  intro i e he hsubject
  rcases get_append he with he | ⟨-, rfl⟩
  · exact h i e he hsubject
  · exact absurd hsubject hne

/-- An entry may only get further. -/
def Onward (f : Entry S D M → Entry S D M) : Prop :=
  ∀ e, (f e).subject = e.subject ∧ (e.gone = true → (f e).gone = true) ∧
    ∀ durable ∈ e.acked, durable ∈ (f e).acked

theorem onward_hand : Onward fun e : Entry S D M => { e with handed := durable :: e.handed } :=
  fun _ => ⟨rfl, id, fun _ h => h⟩

theorem onward_ack : Onward fun e : Entry S D M => { e with acked := durable :: e.acked } :=
  fun _ => ⟨rfl, id, fun _ h => List.mem_cons_of_mem _ h⟩

theorem onward_discard : Onward fun e : Entry S D M => { e with gone := true } :=
  fun _ => ⟨rfl, fun _ => rfl, fun _ h => h⟩

/-- Every message of the one log is in the other, and further on there. -/
def Extends (l l' : Log S D M) : Prop :=
  ∀ (i : Nat) (e : Entry S D M), l.entries[i]? = some e → ∃ e' : Entry S D M,
    l'.entries[i]? = some e' ∧ e'.subject = e.subject ∧ ∀ durable ∈ e.acked, durable ∈ e'.acked

theorem extends_append : l.Extends (l.append subject message) :=
  fun _ e h => ⟨e, append_get h, rfl, fun _ h => h⟩

theorem extends_modify (hf : Onward f) : l.Extends (l.modify i f) := by
  intro j e h
  refine ⟨_, modify_get h, ?_⟩
  by_cases hij : i = j
  · rw [if_pos hij]
    exact ⟨(hf e).1, (hf e).2.2⟩
  · rw [if_neg hij]
    exact ⟨rfl, fun _ h => h⟩

theorem Settled.modify (h : l.Settled subject durable) (hf : Onward f) :
    (l.modify i f).Settled subject durable := by
  intro j e he hsubject
  obtain ⟨e₀, he₀, rfl⟩ := get_modify he
  split at hsubject
  · rename_i hij
    rw [if_pos hij]
    obtain ⟨hs, hgone, hacked⟩ := hf e₀
    rcases h j e₀ he₀ (hs ▸ hsubject) with h | h
    · exact .inl (hgone h)
    · exact .inr (hacked durable h)
  · rename_i hij
    rw [if_neg hij]
    exact h j e₀ he₀ hsubject

end Log

end FluidBG.Lib
