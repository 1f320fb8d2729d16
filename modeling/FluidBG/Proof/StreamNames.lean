import FluidBG.Plugins.Subjects
import FluidBG.Proof.NameParts
/-!
# Names of streams and durables

A stream is named after its subject: a hint that drops every character a stream name cannot have,
and a hash of 64 bits. A durable is named like the stream of two strings with an underscore between
them. Two names are the same exactly where hint and hash are.
-/

set_option autoImplicit false

namespace FluidBG.Nats

/-- The readable part of a stream name. -/
def streamHint (subject : String) : List Char :=
  (subject.toList.filter fun c => c.isAlphanum || c = '-' || c = '_').take 24

/-- A character of a stream name. -/
def IsStreamChar (c : Char) : Prop := c.isAlphanum ∨ c = '-' ∨ c = '_'

/-- A name that the server takes for a stream. -/
structure Named (name : String) : Prop where
  length : name.length ≤ 64
  chars : ∀ c ∈ name.toList, IsStreamChar c

/-- Two subjects leave the same hint and the same hash. -/
def Alike (a b : String) : Prop := streamHint a = streamHint b ∧ subjectHash a = subjectHash b

/-! ## The two parts -/

theorem subjectHash_lt (subject : String) : subjectHash subject < 2 ^ 64 := by
  unfold subjectHash
  refine List.foldlRecOn (motive := fun hash => hash < 2 ^ 64) _ _ (by decide) ?_
  intro hash _ byte _
  exact Nat.mod_lt _ (by decide)

theorem streamName_toList (subject : String) : (streamName subject).toList =
    ("fbg_".toList ++ streamHint subject) ++
      '_' :: (hexBytes (lengthBytes (subjectHash subject)).reverse).toList := by
  simp [streamName, streamHint, toString]

theorem hash_digits_length (subject : String) :
    (hexBytes (lengthBytes (subjectHash subject)).reverse).toList.length = 16 := by
  rw [String.length_toList, hexBytes_length, List.length_reverse, lengthBytes_length]

theorem lengthBytes_lt {n byte : Nat} (h : byte ∈ (lengthBytes n).reverse) : byte < 256 := by
  obtain ⟨i, -, rfl⟩ := List.mem_map.mp (List.mem_reverse.mp h)
  exact Nat.mod_lt _ (by decide)

theorem named_streamName (subject : String) : Named (streamName subject) := by
  constructor
  · rw [← String.length_toList, streamName_toList, List.length_append, List.length_cons,
      hash_digits_length, List.length_append]
    have hhint : (streamHint subject).length ≤ 24 := List.length_take_le _ _
    have hfbg : "fbg_".toList.length = 4 := rfl
    omega
  · intro c hc
    rw [streamName_toList, List.mem_append, List.mem_append] at hc
    rcases hc with (hc | hc) | hc
    · have hfbg : ("fbg_".toList.all fun c => c.isAlphanum || c = '-' || c = '_') = true := by
        decide
      have hchar := List.all_eq_true.mp hfbg c hc
      simp only [Bool.or_eq_true, decide_eq_true_eq] at hchar
      exact or_assoc.mp hchar
    · have hkept := (List.mem_filter.mp (List.mem_of_mem_take hc)).2
      simpa [IsStreamChar, or_assoc] using hkept
    · rcases List.mem_cons.mp hc with rfl | hc
      · exact .inr (.inr rfl)
      · have hdigit := hexBytes_chars (fun _ hbyte => lengthBytes_lt hbyte) hc
        refine .inl (isAlphanum_iff.mpr (.inr ?_))
        exact hdigit

/-- **Two names are the same** exactly where the two parts are. -/
theorem streamName_eq_iff {a b : String} : streamName a = streamName b ↔ Alike a b := by
  constructor
  · intro h
    have hchars := congrArg String.toList h
    rw [streamName_toList, streamName_toList] at hchars
    obtain ⟨hfront, htail⟩ := List.append_inj' hchars (by simp [hash_digits_length])
    have hhex := String.toList_inj.mp (List.cons.inj htail).2
    have hbytes := hexBytes_inj (fun _ h => lengthBytes_lt h) (fun _ h => lengthBytes_lt h) hhex
    exact ⟨List.append_cancel_left hfront, lengthBytes_inj (subjectHash_lt a) (subjectHash_lt b)
      (List.reverse_injective hbytes)⟩
  · intro ⟨hhint, hhash⟩
    apply String.toList_inj.mp
    rw [streamName_toList, streamName_toList, hhint, hhash]

/-- What is relied on for two subjects, and two queue groups or prefixes of durables. -/
structure Separate (before other a b : String) : Prop where
  named : Named (streamName a) ∧ Named (queueGroupDurable before a) ∧ Named (durableName before a)
  streams : a ≠ b → streamName a ≠ streamName b
  queueGroups : (before, a) ≠ (other, b) →
    queueGroupDurable before a ≠ queueGroupDurable other b
  durables : (before, a) ≠ (other, b) → durableName before a ≠ durableName other b

/-- **Names separate subjects** exactly where different subjects, and different pairs with an
underscore between them, differ in the hint or in the hash. -/
theorem stream_names_separate_iff (before other a b : String) :
    Separate before other a b ↔
      (a ≠ b → ¬ Alike a b) ∧
      ((before, a) ≠ (other, b) → ¬ Alike s!"{before}_{a}" s!"{other}_{b}") := by
  constructor
  · intro h
    exact ⟨fun hne halike => h.streams hne (streamName_eq_iff.mpr halike),
      fun hne halike => h.queueGroups hne (streamName_eq_iff.mpr halike)⟩
  · intro ⟨hsubjects, hpairs⟩
    exact {
      named := ⟨named_streamName _, named_streamName _, named_streamName _⟩
      streams := fun hne heq => hsubjects hne (streamName_eq_iff.mp heq)
      queueGroups := fun hne heq => hpairs hne (streamName_eq_iff.mp heq)
      durables := fun hne heq => hpairs hne (streamName_eq_iff.mp heq) }

def subjectsAlike : PLift
    (streamHint "orders.:~" = streamHint "orders.;]" ∧ subjectHash "orders.:~" = subjectHash "orders.;]") :=
  ⟨by decide +kernel⟩

/-- Two subjects with one stream: the hint drops the characters in which they differ, and the
second of them makes up for the first in the hash. -/
theorem subjects_share_a_stream :
    ¬ ∀ before other a b : String, Separate before other a b := by
  intro h
  have halike : Alike "orders.:~" "orders.;]" := subjectsAlike.down
  exact (h "" "" "orders.:~" "orders.;]").streams (by decide) (streamName_eq_iff.mpr halike)

end FluidBG.Nats
