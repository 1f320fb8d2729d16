import FluidBG.Plugins.Subjects
/-!
# Where the messages of a temporary subject are

Two invariants of a NATS inceptor and of the applications beside it. One follows the messages, and
holds at all times: what is settled for a consumer that the drain looks at was acknowledged by an
application, or was published again. The other follows what a status call has counted, and is that
of the other two plugins: what was found without a backlog stays settled.
-/

set_option autoImplicit false

namespace FluidBG.Nats

open Lib

/-! ## What is drained -/

/-- A temporary subject, the durable that the drain looks at, and the subject its messages go back
to. -/
structure DrainTarget where
  subject : String
  durable : String
  base : String
  deriving DecidableEq

def DrainTarget.consumer (t : DrainTarget) : String × String := (t.subject, t.durable)

def DrainedSubjects.targets (q : DrainedSubjects) : List DrainTarget :=
  [⟨q.green, q.greenDurable, q.base⟩, ⟨q.blue, q.blueDurable, q.base⟩]

/-- The targets of a configuration; one that is not complete has none. -/
def drainTargets (roles : List PluginRole) (config : Config) : List DrainTarget :=
  let targetsOf := fun (r : Except Unit DrainedSubjects) => match r with
    | .ok q => q.targets
    | .error _ => []
  (if movesInputSubjects roles then targetsOf (inputDrainTargets roles config) else []) ++
    (if hasRole roles .combiner then targetsOf (outputDrainTargets config) else [])

/-- No messages go back to a temporary subject, and none of these is drained in two ways. The names
that the manager derives are such. -/
def Apart (targets : List DrainTarget) : Prop :=
  ∀ t ∈ targets, ∀ u ∈ targets, t.base ≠ u.subject ∧ (t.subject = u.subject → t = u)

instance (targets : List DrainTarget) : Decidable (Apart targets) :=
  inferInstanceAs (Decidable (∀ t ∈ targets, ∀ u ∈ targets,
    t.base ≠ u.subject ∧ (t.subject = u.subject → t = u)))

/-! ## The condition on a run -/

/-- The thread has been asked to drain when it last looked. -/
def SubjectMemory.Asked (x : SubjectMemory) : Prop := x.looked = some .draining

instance (x : SubjectMemory) : Decidable x.Asked :=
  inferInstanceAs (Decidable (x.looked = some .draining))

/-- The thread found the inceptor active when it last looked, and holds a message. -/
def Holds (x : SubjectMemory) : Prop := x.looked = some .active ∧ x.hand ≠ none

instance (x : SubjectMemory) : Decidable (Holds x) :=
  inferInstanceAs (Decidable (x.looked = some .active ∧ x.hand ≠ none))

/-- The thread holds the message, and has not published it to the subject. -/
def HoldsBack (x : SubjectMemory) (i : Nat) (base : String) : Prop :=
  ∃ hand ∈ x.hand, hand.entry = i ∧ base ∉ hand.sent

instance (x : SubjectMemory) (i : Nat) (base : String) : Decidable (HoldsBack x i base) :=
  inferInstanceAs (Decidable (∃ hand ∈ x.hand, hand.entry = i ∧ base ∉ hand.sent))

/-- A status call has found the target without a backlog, or all targets count as drained. -/
def Covered (w : SubjectWorld) (xs : List SubjectMemory) (t : DrainTarget) : Prop :=
  w.drained = true ∨ ∃ x ∈ xs, x.Asked ∧ t.consumer ∈ x.counted

instance (w : SubjectWorld) (xs : List SubjectMemory) (t : DrainTarget) :
    Decidable (Covered w xs t) :=
  inferInstanceAs (Decidable (w.drained = true ∨ ∃ x ∈ xs, x.Asked ∧ t.consumer ∈ x.counted))

/-- The message was published to the subject by a thread that held it. -/
def SubjectWorld.Republished (w : SubjectWorld) (i : Nat) (base : String) : Prop :=
  ∃ p ∈ w.published, p.entry = i ∧ p.target = base

instance (w : SubjectWorld) (i : Nat) (base : String) : Decidable (w.Republished i base) :=
  inferInstanceAs (Decidable (∃ p ∈ w.published, p.entry = i ∧ p.target = base))

/-- The message of the log is one of the target's. -/
def SubjectWorld.IsOf (w : SubjectWorld) (i : Nat) (t : DrainTarget) : Prop :=
  ∃ e ∈ w.log.entries[i]?, e.subject = t.subject

instance (w : SubjectWorld) (i : Nat) (t : DrainTarget) : Decidable (w.IsOf i t) :=
  inferInstanceAs (Decidable (∃ e ∈ w.log.entries[i]?, e.subject = t.subject))

/-- **What the account needs of the steps of a run.** An application acknowledges the messages of a
temporary subject through the durable that the drain looks at, and not while a thread of the
inceptor holds the message to publish it. No limit discards a message that is not dealt with. When a
status call looks at a backlog, no input worker holds a message; once it has found none, no input
worker fetches one on a look at the mode from before the drain, and nobody else stores a message in
the subject. -/
def account (input : Bool) (targets : List DrainTarget) :
    Watch SubjectCall SubjectMemory SubjectWorld SubjectOutcome SubjectMove where
  call others x w c o := match c with
    | .backlog _ _ => x.Asked → input = true → ∀ y ∈ others, ¬ Holds y
    | .fetch _ _ _ => input = true → x.looked = some .active → o.call = .ok → o.pick ≠ none →
        w.drained = false ∧ ∀ y ∈ others, y.Asked → y.counted = []
    | _ => True
  move all w v := match v with
    | .store subject _ => ∀ t ∈ targets, t.subject = subject → ¬ Covered w all t
    | .handOut _ _ => True
    | .acknowledge i queueGroup => ∀ t ∈ targets, w.IsOf i t →
        queueGroupDurable queueGroup t.subject = t.durable ∧ ∀ x ∈ all, ¬ HoldsBack x i t.base
    | .discard i => ∀ t ∈ targets, w.IsOf i t → i ∈ w.acknowledged ∨ w.Republished i t.base

/-- Where a thread may make which call. -/
def SubjectMay (input : Bool) (temp : List String) (targets : List DrainTarget)
    (x : SubjectMemory) : SubjectCall → Prop
  | .mode => x.counted = [] ∧ x.hand = none
  | .fetch _ subject durable => ∀ t ∈ targets, t.subject = subject → t.durable = durable
  | .work (.publish target _) => ∃ hand, x.hand = some hand ∧
      ((input = true ∧ x.looked = some .active ∧ ∀ t ∈ targets, t.subject ≠ hand.subject) ∨
        (hand.sent = [] ∧ ∃ t ∈ targets, t.subject = hand.subject ∧ t.base = target))
  | .work .ack => ∀ hand, x.hand = some hand → ∀ t ∈ targets, t.subject = hand.subject →
      t.base ∈ hand.sent
  | .respond status => x.Asked → status.drained = true →
      (∀ t ∈ targets, t.consumer ∈ x.counted) ∧ ∀ subject ∈ temp, ∃ t ∈ targets, t.subject = subject
  | _ => True

/-! ## Where the messages are -/

/-- What a thread holds is a message of the log; what it has published is written down; and what it
still may publish to the base, no application has acknowledged. -/
structure InHand (targets : List DrainTarget) (w : SubjectWorld) (hand : Hand) : Prop where
  stored : ∃ e, w.log.entries[hand.entry]? = some e ∧ e.subject = hand.subject
  sent : ∀ base ∈ hand.sent, w.Republished hand.entry base
  ontime : ∀ t ∈ targets, t.subject = hand.subject → t.base ∉ hand.sent →
    hand.entry ∉ w.acknowledged

/-- **The invariant of the messages.** -/
structure Accounted (targets : List DrainTarget) (w : SubjectWorld) (xs : List SubjectMemory) :
    Prop where
  /-- What is settled for a target was acknowledged by an application, or published again. -/
  justified : ∀ i e, w.log.entries[i]? = some e → ∀ t ∈ targets, t.subject = e.subject →
    e.gone = true ∨ t.durable ∈ e.acked → i ∈ w.acknowledged ∨ w.Republished i t.base
  /-- What an application acknowledged is settled for the target. -/
  agreed : ∀ i ∈ w.acknowledged, ∃ e, w.log.entries[i]? = some e ∧
    ∀ t ∈ targets, t.subject = e.subject → t.durable ∈ e.acked
  ontime : ∀ p ∈ w.published, ∃ e, w.log.entries[p.entry]? = some e ∧
    ∀ t ∈ targets, t.subject = e.subject → t.base = p.target → p.late = false
  hands : ∀ x ∈ xs, ∀ hand, x.hand = some hand → InHand targets w hand

section Messages

variable {input : Bool} {temp : List String} {targets : List DrainTarget} {w w' : SubjectWorld}
  {xs : List SubjectMemory} {x x' : SubjectMemory} {i : Nat} {hand : Hand}

/-- What is known of a message in hand is not lost when the log and the list of publications
grow. -/
theorem InHand.mono (h : InHand targets w hand) (hlog : w.log.Extends w'.log)
    (hpublished : ∀ p ∈ w.published, p ∈ w'.published)
    (hacknowledged : ∀ t ∈ targets, t.subject = hand.subject → t.base ∉ hand.sent →
      hand.entry ∈ w'.acknowledged → hand.entry ∈ w.acknowledged) : InHand targets w' hand := by
  constructor
  · obtain ⟨e, he, hsubject⟩ := h.stored
    obtain ⟨e', he', hsame, -⟩ := hlog _ _ he
    exact ⟨e', he', hsame.trans hsubject⟩
  · intro base hbase
    obtain ⟨p, hp, heq⟩ := h.sent base hbase
    exact ⟨p, hpublished p hp, heq⟩
  · intro t ht hsubject hsent hmem
    exact h.ontime t ht hsubject hsent (hacknowledged t ht hsubject hsent hmem)

theorem SubjectWorld.Republished.mono {base : String} (h : w.Republished i base)
    (hpublished : ∀ p ∈ w.published, p ∈ w'.published) : w'.Republished i base := by
  obtain ⟨p, hp, heq⟩ := h
  exact ⟨p, hpublished p hp, heq⟩

/-- **A step of the log.** The account is kept by a step after which every message that is settled
was so before, or is accounted for. -/
theorem Accounted.step (h : Accounted targets w xs) (hlog : w.log.Extends w'.log)
    (hacknowledged : w'.acknowledged = w.acknowledged)
    (hpublished : ∀ p ∈ w.published, p ∈ w'.published)
    (hnew : ∀ p ∈ w'.published, p ∈ w.published ∨
      ∃ e, w'.log.entries[p.entry]? = some e ∧
        ∀ t ∈ targets, t.subject = e.subject → t.base = p.target → p.late = false)
    (hsettled : ∀ i e, w'.log.entries[i]? = some e → ∀ t ∈ targets, t.subject = e.subject →
      e.gone = true ∨ t.durable ∈ e.acked → i ∈ w.acknowledged ∨ w'.Republished i t.base ∨
        ∃ e₀, w.log.entries[i]? = some e₀ ∧ e₀.subject = e.subject ∧
          (e₀.gone = true ∨ t.durable ∈ e₀.acked)) :
    Accounted targets w' xs := by
  constructor
  · intro i e he t ht hsubject hdone
    rcases hsettled i e he t ht hsubject hdone with hack | hre | ⟨e₀, he₀, hsame, hdone₀⟩
    · exact .inl (hacknowledged ▸ hack)
    · exact .inr hre
    · rcases h.justified i e₀ he₀ t ht (hsubject.trans hsame.symm) hdone₀ with hack | hre
      · exact .inl (hacknowledged ▸ hack)
      · exact .inr (hre.mono hpublished)
  · rw [hacknowledged]
    intro i hi
    obtain ⟨e, he, hacked⟩ := h.agreed i hi
    obtain ⟨e', he', hsame, hmore⟩ := hlog i e he
    exact ⟨e', he', fun t ht hsubject => hmore _ (hacked t ht (hsubject.trans hsame))⟩
  · intro p hp
    rcases hnew p hp with hp | hp
    · obtain ⟨e, he, hlate⟩ := h.ontime p hp
      obtain ⟨e', he', hsame, -⟩ := hlog _ e he
      exact ⟨e', he', fun t ht hsubject => hlate t ht (hsubject.trans hsame)⟩
    · exact hp
  · intro x hx hand hhand
    exact (h.hands x hx hand hhand).mono hlog hpublished fun _ _ _ _ hmem => hacknowledged ▸ hmem

/-- The memory of one thread changes. -/
theorem Accounted.set (h : Accounted targets w xs)
    (hx : ∀ hand, x'.hand = some hand → InHand targets w hand) :
    Accounted targets w (xs.set i x') where
  justified := h.justified
  agreed := h.agreed
  ontime := h.ontime
  hands y hy hand hhand := by
    rcases List.mem_or_eq_of_mem_set hy with hy | rfl
    · exact h.hands y hy hand hhand
    · exact hx hand hhand

theorem Accounted.subset {ys : List SubjectMemory} (h : Accounted targets w xs)
    (hsub : ∀ y ∈ ys, y ∈ xs) : Accounted targets w ys where
  justified := h.justified
  agreed := h.agreed
  ontime := h.ontime
  hands y hy := h.hands y (hsub y hy)

theorem Accounted.start (h : Accounted targets w xs) :
    Accounted targets w (xs ++ [SubjectMemory.start]) where
  justified := h.justified
  agreed := h.agreed
  ontime := h.ontime
  hands y hy hand hhand := by
    rcases List.mem_append.mp hy with hy | hy
    · exact h.hands y hy hand hhand
    · rw [List.mem_singleton.mp hy] at hhand
      cases hhand

/-- Only the log, the acknowledgements and the publications count. -/
theorem Accounted.congr (h : Accounted targets w xs) (hlog : w'.log = w.log)
    (hacknowledged : w'.acknowledged = w.acknowledged) (hpublished : w'.published = w.published) :
    Accounted targets w' xs := by
  obtain ⟨log, mode, acknowledged, published, drained⟩ := w
  obtain ⟨log', mode', acknowledged', published', drained'⟩ := w'
  cases hlog
  cases hacknowledged
  cases hpublished
  exact ⟨h.justified, h.agreed, h.ontime, fun x hx hand hhand =>
    ⟨(h.hands x hx hand hhand).stored, (h.hands x hx hand hhand).sent,
      (h.hands x hx hand hhand).ontime⟩⟩

/-- A message is handed out. -/
theorem Accounted.handOut (h : Accounted targets w xs) {subject durable : String}
    {message : Message} {log : Log String String Message}
    (hhand : w.log.hand subject durable i = some (message, log)) :
    Accounted targets { w with log := log } xs := by
  obtain ⟨e, -, -, rfl⟩ := Log.open_of_hand hhand
  refine h.step (Log.extends_modify Log.onward_hand) rfl (fun _ h => h) (fun _ h => .inl h) ?_
  intro j e' he' t _ _ hdone
  obtain ⟨e₀, he₀, rfl⟩ := Log.get_modify he'
  refine .inr (.inr ⟨e₀, he₀, ?_⟩)
  by_cases hij : i = j
  · rw [if_pos hij] at hdone ⊢
    exact ⟨rfl, hdone⟩
  · rw [if_neg hij] at hdone ⊢
    exact ⟨rfl, hdone⟩

/-- A message is stored. -/
theorem Accounted.append (h : Accounted targets w xs) (subject : String) (message : Message) :
    Accounted targets { w with log := w.log.append subject message } xs := by
  refine h.step Log.extends_append rfl (fun _ h => h) (fun _ h => .inl h) ?_
  intro j e' he' t _ _ hdone
  rcases Log.get_append he' with he' | ⟨-, rfl⟩
  · exact .inr (.inr ⟨e', he', rfl, hdone⟩)
  · -- nobody has acknowledged a new message
    simp at hdone

/-- An application acknowledges a message. -/
theorem Accounted.acknowledge (h : Accounted targets w xs) {e : Entry String String Message}
    {durable : String} (he : w.log.entries[i]? = some e)
    (hagrees : ∀ t ∈ targets, e.subject = t.subject → durable = t.durable)
    (hback : ∀ t ∈ targets, e.subject = t.subject → ∀ x ∈ xs, ¬ HoldsBack x i t.base) :
    Accounted targets
      { w with log := w.log.ack i durable, acknowledged := i :: w.acknowledged } xs := by
  have hext : w.log.Extends (w.log.ack i durable) := Log.extends_modify Log.onward_ack
  constructor
  · intro j e' he' t ht hsubject hdone
    obtain ⟨e₀, he₀, rfl⟩ := Log.get_modify he'
    by_cases hij : i = j
    · exact .inl (hij ▸ List.mem_cons_self)
    · rw [if_neg hij] at hsubject hdone
      rcases h.justified j e₀ he₀ t ht hsubject hdone with hack | hre
      · exact .inl (List.mem_cons_of_mem _ hack)
      · exact .inr hre
  · intro j hj
    rcases List.mem_cons.mp hj with rfl | hj
    · refine ⟨_, Log.modify_get he, ?_⟩
      rw [if_pos rfl]
      intro t ht hsubject
      rw [hagrees t ht hsubject.symm]
      exact List.mem_cons_self
    · obtain ⟨e₀, he₀, hacked⟩ := h.agreed j hj
      obtain ⟨e', he', hsame, hmore⟩ := hext j e₀ he₀
      exact ⟨e', he', fun t ht hsubject => hmore _ (hacked t ht (hsubject.trans hsame))⟩
  · intro p hp
    obtain ⟨e₀, he₀, hlate⟩ := h.ontime p hp
    obtain ⟨e', he', hsame, -⟩ := hext _ e₀ he₀
    exact ⟨e', he', fun t ht hsubject => hlate t ht (hsubject.trans hsame)⟩
  · intro x hx hand hhand
    refine (h.hands x hx hand hhand).mono hext (fun _ h => h) fun t ht hsubject hsent hmem => ?_
    rcases List.mem_cons.mp hmem with heq | hmem
    · -- the thread holds the very message, and has still to publish it
      obtain ⟨e₀, he₀, hsame⟩ := (h.hands x hx hand hhand).stored
      rw [heq, he] at he₀
      cases he₀
      exact absurd ⟨hand, hhand, heq, hsent⟩ (hback t ht (hsame.trans hsubject.symm) x hx)
    · exact hmem

/-- A limit discards a message that is dealt with. -/
theorem Accounted.discard (h : Accounted targets w xs)
    (hdealt : ∀ t ∈ targets, w.IsOf i t → i ∈ w.acknowledged ∨ w.Republished i t.base) :
    Accounted targets { w with log := w.log.discard i } xs := by
  refine h.step (Log.extends_modify Log.onward_discard) rfl (fun _ h => h) (fun _ h => .inl h) ?_
  intro j e' he' t ht hsubject hdone
  obtain ⟨e₀, he₀, rfl⟩ := Log.get_modify he'
  by_cases hij : i = j
  · subst hij
    rw [if_pos rfl] at hsubject
    rcases hdealt t ht ⟨e₀, he₀, hsubject.symm⟩ with hack | hre
    · exact .inl hack
    · exact .inr (.inl hre)
  · rw [if_neg hij] at hdone ⊢
    exact .inr (.inr ⟨e₀, he₀, rfl, hdone⟩)

/-- **A thread publishes** the message that it holds. -/
theorem Accounted.publish (h : Accounted targets w xs) (hx : x ∈ xs) {target : String}
    {message : Message}
    (hmay : SubjectMay input temp targets x (.work (.publish target message))) :
    Accounted targets (w.publish x target message) (xs.set i (x.publish target)) := by
  obtain ⟨hand, hhand, hwhy⟩ := hmay
  have hin := h.hands x hx hand hhand
  obtain ⟨e, he, hsubject⟩ := hin.stored
  have hpub : (w.publish x target message).published =
      ⟨hand.entry, target, hand.entry ∈ w.acknowledged⟩ :: w.published := by
    simp only [SubjectWorld.publish, hhand]
  have hmore : ∀ p ∈ w.published, p ∈ (w.publish x target message).published := by
    intro p hp
    rw [hpub]
    exact List.mem_cons_of_mem _ hp
  have hstep : Accounted targets (w.publish x target message) xs := by
    refine h.step Log.extends_append rfl hmore (fun p hp => ?_) fun j e' he' t _ _ hdone => ?_
    · rw [hpub] at hp
      rcases List.mem_cons.mp hp with rfl | hp
      · refine .inr ⟨e, Log.append_get he, fun t ht hsame hbase => ?_⟩
        rcases hwhy with ⟨-, -, hother⟩ | ⟨hsent, -⟩
        · exact absurd (hsame.trans hsubject) (hother t ht)
        · have hnot := hin.ontime t ht (hsame.trans hsubject) (by simp [hsent])
          simpa using hnot
      · exact .inl hp
    · rcases Log.get_append he' with he' | ⟨-, rfl⟩
      · exact .inr (.inr ⟨e', he', rfl, hdone⟩)
      · simp at hdone
  refine hstep.set fun hand' hhand' => ?_
  simp only [SubjectMemory.publish, hhand, Option.map_some, Option.some.injEq] at hhand'
  subst hhand'
  have hin' := hstep.hands x hx hand hhand
  refine ⟨hin'.stored, fun base hbase => ?_, fun t ht hsame hnot => ?_⟩
  · rcases List.mem_cons.mp hbase with rfl | hbase
    · exact ⟨_, by rw [hpub]; exact List.mem_cons_self, rfl, rfl⟩
    · exact hin'.sent base hbase
  · exact hin'.ontime t ht hsame fun hmem => hnot (List.mem_cons_of_mem _ hmem)

/-- A thread acknowledges the message that it holds. -/
theorem Accounted.ack (h : Accounted targets w xs) (hx : x ∈ xs) (hhand : x.hand = some hand)
    (hmay : SubjectMay input temp targets x (.work .ack)) :
    Accounted targets { w with log := w.log.ack hand.entry hand.durable } xs := by
  have hin := h.hands x hx hand hhand
  obtain ⟨e, he, hsubject⟩ := hin.stored
  refine h.step (Log.extends_modify Log.onward_ack) rfl (fun _ h => h) (fun _ h => .inl h) ?_
  intro j e' he' t ht hsame hdone
  obtain ⟨e₀, he₀, rfl⟩ := Log.get_modify he'
  by_cases hij : hand.entry = j
  · subst hij
    rw [if_pos rfl] at hsame
    rw [he] at he₀
    cases he₀
    exact .inr (.inl (hin.sent _ (hmay hand hhand t ht (hsame.trans hsubject))))
  · rw [if_neg hij] at hdone ⊢
    exact .inr (.inr ⟨e₀, he₀, rfl, hdone⟩)

/-- A thread is handed a message, for the durable that the drain looks at. -/
theorem Accounted.fetch (h : Accounted targets w xs) {subject durable : String}
    {message : Message} {log : Log String String Message}
    (hmay : ∀ t ∈ targets, t.subject = subject → t.durable = durable)
    (hhand : w.log.hand subject durable i = some (message, log)) :
    InHand targets { w with log := log } ⟨i, subject, durable, []⟩ := by
  obtain ⟨e, he, hopen, rfl⟩ := Log.open_of_hand hhand
  obtain ⟨hsubject, -, hacked⟩ := hopen
  refine ⟨⟨_, Log.modify_get he, ?_⟩, fun _ hbase => ?_, fun t ht hsame _ hmem => ?_⟩
  · rw [if_pos rfl]
    exact hsubject
  · cases hbase
  · obtain ⟨e', he', hagreed⟩ := h.agreed i hmem
    rw [he] at he'
    cases he'
    have hacked' := hagreed t ht (hsame.trans hsubject.symm)
    rw [hmay t ht hsame] at hacked'
    exact hacked hacked'

/-- What the server hands out for a call. -/
theorem handed_of_pick {l log : Log String String Message} {pick : Option Nat}
    {subject durable : String} {j : Nat} {message : Message}
    (h : (pick.bind fun i => (l.hand subject durable i).map fun handed => (i, handed)) =
      some (j, message, log)) : pick = some j ∧ l.hand subject durable j = some (message, log) := by
  obtain ⟨i, hi, h⟩ := Option.bind_eq_some_iff.mp h
  obtain ⟨rest, hrest, heq⟩ := Option.map_eq_some_iff.mp h
  cases heq
  exact ⟨hi, hrest⟩

/-- **A call of a thread** keeps the account. -/
theorem Accounted.call (h : Accounted targets w xs) (hx : xs[i]? = some x) {c : SubjectCall}
    {o : SubjectOutcome} (hmay : SubjectMay input temp targets x c) :
    Accounted targets (w.serve x o c).2.1 (xs.set i (w.serve x o c).2.2) := by
  have hmem : x ∈ xs := List.mem_of_getElem? hx
  -- where neither the messages nor the hand of the thread change
  have hsame : ∀ {w' : SubjectWorld} {x' : SubjectMemory}, Accounted targets w' xs →
      x'.hand = x.hand → Accounted targets w' (xs.set i x') :=
    fun hw' heq => hw'.set fun hand hhand => hw'.hands x hmem hand (heq ▸ hhand)
  cases c with
  | mode => exact hsame h rfl
  | setDraining => exact hsame (h.congr rfl rfl rfl) rfl
  | connect => exact hsame h rfl
  | fetch policy subject durable =>
    simp only [SubjectWorld.serve]
    split
    · rename_i j message log hpick
      have hhand := (handed_of_pick hpick).2
      cases hcall : o.call with
      | ok =>
        refine (h.handOut hhand).set fun hand heq => ?_
        cases heq
        exact h.fetch hmay hhand
      | refused => exact hsame h rfl
      | lost => exact hsame (h.handOut hhand) rfl
    · exact hsame h rfl
  | drop =>
    refine h.set fun hand heq => ?_
    cases heq
  | backlog subject durable =>
    simp only [SubjectWorld.serve]
    split
    · exact hsame h rfl
    · exact hsame h rfl
  | respond status => exact hsame (h.congr rfl rfl rfl) rfl
  | work c =>
    cases c with
    | publish target message =>
      simp only [SubjectWorld.serve, serveSubjectWork]
      cases hcall : o.call with
      | ok => exact h.publish hmem hmay
      | refused => exact hsame h rfl
      | lost => exact h.publish hmem hmay
    | ack =>
      simp only [SubjectWorld.serve, serveSubjectWork]
      split
      · rename_i hand hhand
        cases hcall : o.call with
        | ok => exact hsame (h.ack hmem hhand hmay) rfl
        | refused => exact hsame h rfl
        | lost => exact hsame (h.ack hmem hhand hmay) rfl
      · exact hsame h rfl
    | requeue => exact hsame h rfl
    | now => exact hsame h rfl
    | notify url notification token => exact hsame h rfl
    | register url request token => exact hsame h rfl

/-- What the others do keeps the account, where the condition holds. -/
theorem Accounted.move (h : Accounted targets w xs) {v : SubjectMove}
    (hguard : (account input targets).move xs w v) (hmove : w.move v = some w') :
    Accounted targets w' xs := by
  cases v with
  | store subject message =>
    cases hmove
    exact h.append subject message
  | handOut j queueGroup =>
    simp only [SubjectWorld.move] at hmove
    split at hmove
    · obtain ⟨handed, hhand, rfl⟩ := Option.map_eq_some_iff.mp hmove
      exact h.handOut hhand
    · cases hmove
  | acknowledge j queueGroup =>
    simp only [SubjectWorld.move] at hmove
    split at hmove
    · rename_i e he
      split at hmove
      · cases hmove
        refine h.acknowledge he (fun t ht hsubject => ?_) fun t ht hsubject => ?_
        · rw [hsubject]
          exact (hguard t ht ⟨e, he, hsubject⟩).1
        · exact (hguard t ht ⟨e, he, hsubject⟩).2
      · cases hmove
    · cases hmove
  | discard j =>
    cases hmove
    exact h.discard hguard

/-- **The steps of an inceptor keep the account.** -/
theorem accounted_keeps (memory : SubjectJob → SubjectMemory)
    (hmemory : ∀ job, memory job = .start) :
    Pool.Keeps subjectProcess (account input targets) (SubjectMay input temp targets) memory
      (Accounted targets) where
  start w xs job h := by
    rw [hmemory]
    exact h.start
  stop w xs i h := h.subset fun y hy => List.mem_of_mem_eraseIdx hy
  move w xs v w' h hguard hmove := h.move hguard hmove
  call w xs i x c o a w' x' h hx hmay hguard hserve := by
    have hpair := Option.some.inj hserve
    have hw : w' = (w.serve x o c).2.1 := by rw [hpair]
    have hx' : x' = (w.serve x o c).2.2 := by rw [hpair]
    rw [hw, hx']
    exact h.call hx hmay

/-- At the start nothing was acknowledged, published or discarded. -/
theorem accounted_start (messages : List (String × Message)) (mode : RuntimeMode) :
    Accounted targets (.start messages mode) [] := by
  have hfresh : ∀ (i : Nat) (e : Entry String String Message),
      (SubjectWorld.start messages mode).log.entries[i]? = some e →
        e.gone = false ∧ e.acked = [] := by
    simp only [SubjectWorld.start]
    refine List.foldlRecOn (motive := fun (log : Log String String Message) =>
      ∀ (i : Nat) (e : Entry String String Message), log.entries[i]? = some e →
        e.gone = false ∧ e.acked = []) messages _ (fun i e he => ?_) fun log hlog m _ i e he => ?_
    · simp at he
    rcases Log.get_append he with he | ⟨-, rfl⟩
    · exact hlog i e he
    · exact ⟨rfl, rfl⟩
  constructor
  · intro i e he t _ _ hdone
    obtain ⟨hgone, hacked⟩ := hfresh i e he
    simp [hgone, hacked] at hdone
  · simp [SubjectWorld.start]
  · simp [SubjectWorld.start]
  · simp

/-! ## What has been counted -/

/-- No input worker holds a message. -/
def Idle (input : Bool) (xs : List SubjectMemory) : Prop := input = true → ∀ x ∈ xs, ¬ Holds x

/-- **The invariant of the counts.** What a status call has found without a backlog stays settled,
as no input worker holds a message any more. -/
structure Counted (input : Bool) (temp : List String) (targets : List DrainTarget)
    (w : SubjectWorld) (xs : List SubjectMemory) : Prop where
  asked : ∀ x ∈ xs, x.Asked → w.mode = .draining
  drained : w.drained = true →
    w.mode = .draining ∧ ∀ subject ∈ temp, ∃ t ∈ targets, t.subject = subject
  covered : ∀ t ∈ targets, Covered w xs t → Idle input xs ∧ w.log.Settled t.subject t.durable

/-- A thread that has been asked to drain does not count as one that holds a message. -/
theorem not_holds_of_asked (h : x.Asked) : ¬ Holds x := by
  rintro ⟨hactive, -⟩
  rw [h] at hactive
  cases hactive

theorem Covered.of_subset {t : DrainTarget} {ys : List SubjectMemory} (h : Covered w ys t)
    (hsub : ∀ y ∈ ys, y.Asked → y.counted ≠ [] → y ∈ xs) : Covered w xs t := by
  rcases h with h | ⟨y, hy, hasked, hcounted⟩
  · exact .inl h
  · exact .inr ⟨y, hsub y hy hasked (List.ne_nil_of_mem hcounted), hasked, hcounted⟩

/-- **The frame of the counts**: a step that finds out nothing new about a target, gives no input
worker a message and leaves settled what is covered. -/
theorem Counted.frame (h : Counted input temp targets w xs) {ys : List SubjectMemory}
    (hmode : w.mode = .draining → w'.mode = .draining) (hdrained : w'.drained = true →
      w.drained = true) (hasked : ∀ y ∈ ys, y.Asked → w'.mode = .draining)
    (hcovered : ∀ t ∈ targets, Covered w' ys t → Covered w xs t)
    (hidle : ∀ t ∈ targets, Covered w xs t → Idle input xs → Idle input ys)
    (hsettled : ∀ t ∈ targets, Covered w xs t → w.log.Settled t.subject t.durable →
      w'.log.Settled t.subject t.durable) : Counted input temp targets w' ys where
  asked := hasked
  drained hd := ⟨hmode (h.drained (hdrained hd)).1, (h.drained (hdrained hd)).2⟩
  covered t ht hcov := by
    have hbefore := hcovered t ht hcov
    obtain ⟨hi, hs⟩ := h.covered t ht hbefore
    exact ⟨hidle t ht hbefore hi, hsettled t ht hbefore hs⟩

theorem Counted.subset {ys : List SubjectMemory} (h : Counted input temp targets w xs)
    (hsub : ∀ y ∈ ys, y ∈ xs) : Counted input temp targets w ys :=
  h.frame id id (fun y hy => h.asked y (hsub y hy))
    (fun _ _ hcov => hcov.of_subset fun y hy _ _ => hsub y hy)
    (fun _ _ _ hi hinput y hy => hi hinput y (hsub y hy)) fun _ _ _ hs => hs

theorem Counted.start (h : Counted input temp targets w xs) :
    Counted input temp targets w (xs ++ [SubjectMemory.start]) := by
  refine h.frame id id (fun y hy hasked => ?_) (fun t _ hcov => ?_) (fun _ _ _ hi hinput y hy => ?_)
    fun _ _ _ hs => hs
  · rcases List.mem_append.mp hy with hy | hy
    · exact h.asked y hy hasked
    · rw [List.mem_singleton.mp hy] at hasked
      cases hasked
  · refine hcov.of_subset fun y hy hasked _ => ?_
    rcases List.mem_append.mp hy with hy | hy
    · exact hy
    · rw [List.mem_singleton.mp hy] at hasked
      cases hasked
  · rcases List.mem_append.mp hy with hy | hy
    · exact hi hinput y hy
    · rw [List.mem_singleton.mp hy]
      rintro ⟨hactive, -⟩
      cases hactive

/-- A step of one thread that leaves the mode alone, and counts nothing. -/
theorem Counted.set (h : Counted input temp targets w xs) (hx : xs[i]? = some x)
    (hmode : w'.mode = w.mode) (hdrained : w'.drained = w.drained)
    (hlooked : x'.looked = x.looked) (hcounted : x'.counted = x.counted)
    (hholds : ∀ t ∈ targets, Covered w xs t → input = true → Holds x' → Holds x)
    (hsettled : ∀ t ∈ targets, Covered w xs t → w.log.Settled t.subject t.durable →
      w'.log.Settled t.subject t.durable) :
    Counted input temp targets w' (xs.set i x') := by
  have hmem : x ∈ xs := List.mem_of_getElem? hx
  have hasked : x'.Asked → x.Asked := by
    intro ha
    show x.looked = some .draining
    rw [← hlooked]
    exact ha
  refine h.frame (fun hd => hmode ▸ hd) (fun hd => hdrained ▸ hd) (fun y hy ha => ?_)
    (fun t _ hcov => ?_) (fun t ht hcov hi hinput y hy hy' => ?_) hsettled
  · rw [hmode]
    rcases List.mem_or_eq_of_mem_set hy with hy | rfl
    · exact h.asked y hy ha
    · exact h.asked x hmem (hasked ha)
  · rcases hcov with hd | ⟨y, hy, ha, hc⟩
    · exact .inl (hdrained ▸ hd)
    · rcases List.mem_or_eq_of_mem_set hy with hy | rfl
      · exact .inr ⟨y, hy, ha, hc⟩
      · exact .inr ⟨x, hmem, hasked ha, hcounted ▸ hc⟩
  · rcases List.mem_or_eq_of_mem_set hy with hy | rfl
    · exact hi hinput y hy hy'
    · exact hi hinput x hmem (hholds t ht hcov hinput hy')

/-- A thread looks at the mode. While the inceptor is draining, none finds it active. -/
theorem Counted.look (h : Counted input temp targets w xs) (hcounted : x.counted = [])
    (hhand : x.hand = none) :
    Counted input temp targets w (xs.set i { x with looked := some w.mode }) := by
  refine h.frame id id (fun y hy ha => ?_) (fun t _ hcov => ?_)
    (fun t ht hcov hi hinput y hy hy' => ?_) fun _ _ _ hs => hs
  · rcases List.mem_or_eq_of_mem_set hy with hy | rfl
    · exact h.asked y hy ha
    · exact Option.some.inj ha
  · refine hcov.of_subset fun y hy _ hne => ?_
    rcases List.mem_or_eq_of_mem_set hy with hy | rfl
    · exact hy
    · exact absurd hcounted hne
  · rcases List.mem_or_eq_of_mem_set hy with hy | rfl
    · exact hi hinput y hy hy'
    · exact hy'.2 hhand

/-- The drain is requested. -/
theorem Counted.setDraining (h : Counted input temp targets w xs) :
    Counted input temp targets { w with mode := .draining } xs :=
  h.frame (fun _ => rfl) id (fun _ _ _ => rfl) (fun _ _ hcov => hcov) (fun _ _ _ hi => hi)
    fun _ _ _ hs => hs

/-- **A status call finds no backlog**, while no input worker holds a message. -/
theorem Counted.backlog (h : Counted input temp targets w xs) (hx : xs[i]? = some x)
    {subject durable : String} (hsettled : w.log.Settled subject durable)
    (hidle : x.Asked → input = true → ∀ y ∈ xs.eraseIdx i, ¬ Holds y) :
    Counted input temp targets w
      (xs.set i { x with counted := (subject, durable) :: x.counted }) := by
  have hmem : x ∈ xs := List.mem_of_getElem? hx
  have hset : Idle input xs →
      Idle input (xs.set i { x with counted := (subject, durable) :: x.counted }) := by
    intro hi hinput y hy hy'
    rcases List.mem_or_eq_of_mem_set hy with hy | rfl
    · exact hi hinput y hy hy'
    · exact hi hinput x hmem hy'
  refine ⟨fun y hy ha => ?_, h.drained, fun t ht hcov => ?_⟩
  · rcases List.mem_or_eq_of_mem_set hy with hy | rfl
    · exact h.asked y hy ha
    · exact h.asked x hmem ha
  · rcases hcov with hd | ⟨y, hy, ha, hc⟩
    · obtain ⟨hi, hs⟩ := h.covered t ht (.inl hd)
      exact ⟨hset hi, hs⟩
    · rcases List.mem_or_eq_of_mem_set hy with hy | rfl
      · obtain ⟨hi, hs⟩ := h.covered t ht (.inr ⟨y, hy, ha, hc⟩)
        exact ⟨hset hi, hs⟩
      · rcases List.mem_cons.mp hc with heq | hc
        · cases heq
          refine ⟨hset fun hinput z hz => ?_, hsettled⟩
          -- the status call itself holds nothing as a worker
          obtain ⟨j, hj⟩ := List.mem_iff_getElem?.mp hz
          by_cases hij : j = i
          · subst hij
            rw [hx] at hj
            cases hj
            exact not_holds_of_asked ha
          · exact hidle ha hinput z (List.mem_eraseIdx_iff_getElem?.mpr ⟨j, hij, hj⟩)
        · obtain ⟨hi, hs⟩ := h.covered t ht (.inr ⟨x, hmem, ha, hc⟩)
          exact ⟨hset hi, hs⟩

/-- **The status is answered.** -/
theorem Counted.respond (h : Counted input temp targets w xs) (hx : x ∈ xs)
    {status : PluginDrainStatusResponse} (hmay : SubjectMay input temp targets x (.respond status)) :
    Counted input temp targets
      { w with drained := w.drained || (status.drained && x.looked = some .draining) } xs := by
  have hcases : (w.drained || (status.drained && x.looked = some .draining)) = true →
      w.drained = true ∨ (status.drained = true ∧ x.Asked) := by
    intro hd
    simp only [Bool.or_eq_true, Bool.and_eq_true, decide_eq_true_eq] at hd
    exact hd
  refine ⟨h.asked, fun hd => ?_, fun t ht hcov => ?_⟩
  · rcases hcases hd with hd | ⟨hstatus, hasked⟩
    · exact h.drained hd
    · exact ⟨h.asked x hx hasked, (hmay hasked hstatus).2⟩
  · rcases hcov with hd | hcov
    · rcases hcases hd with hd | ⟨hstatus, hasked⟩
      · exact h.covered t ht (.inl hd)
      · exact h.covered t ht (.inr ⟨x, hx, hasked, (hmay hasked hstatus).1 t ht⟩)
    · exact h.covered t ht (.inr hcov)

/-- A call that neither looks, nor counts, nor answers a status. -/
theorem serve_keeps {c : SubjectCall} {o : SubjectOutcome}
    (hc : (∃ policy subject durable, c = .fetch policy subject durable) ∨ c = .connect ∨
      c = .drop ∨ ∃ work, c = .work work) :
    (w.serve x o c).2.1.mode = w.mode ∧ (w.serve x o c).2.1.drained = w.drained ∧
      (w.serve x o c).2.2.looked = x.looked ∧ (w.serve x o c).2.2.counted = x.counted := by
  rcases hc with ⟨policy, subject, durable, rfl⟩ | rfl | rfl | ⟨work, rfl⟩
  · simp only [SubjectWorld.serve]
    split <;> exact ⟨rfl, rfl, rfl, rfl⟩
  · exact ⟨rfl, rfl, rfl, rfl⟩
  · exact ⟨rfl, rfl, rfl, rfl⟩
  · cases work with
    | publish target message =>
      simp only [SubjectWorld.serve, serveSubjectWork]
      cases o.call <;> exact ⟨rfl, rfl, rfl, rfl⟩
    | ack =>
      simp only [SubjectWorld.serve, serveSubjectWork]
      split <;> exact ⟨rfl, rfl, rfl, rfl⟩
    | _ => exact ⟨rfl, rfl, rfl, rfl⟩

/-- **A call of a thread** keeps the counts, where the condition holds. -/
theorem Counted.call (hapart : Apart targets) (h : Counted input temp targets w xs)
    (hx : xs[i]? = some x) {c : SubjectCall} {o : SubjectOutcome}
    (hmay : SubjectMay input temp targets x c)
    (hguard : (account input targets).call (xs.eraseIdx i) x w c o) :
    Counted input temp targets (w.serve x o c).2.1 (xs.set i (w.serve x o c).2.2) := by
  have hmem : x ∈ xs := List.mem_of_getElem? hx
  have hself : xs.set i x = xs := by
    obtain ⟨hi, rfl⟩ := List.getElem?_eq_some_iff.mp hx
    exact List.set_getElem_self hi
  -- a step that gives the thread nothing to hold and settles no less
  have hset : ((∃ policy subject durable, c = .fetch policy subject durable) ∨ c = .connect ∨
        c = .drop ∨ ∃ work, c = .work work) →
      (∀ t ∈ targets, Covered w xs t → input = true → Holds (w.serve x o c).2.2 → Holds x) →
      (∀ t ∈ targets, Covered w xs t → w.log.Settled t.subject t.durable →
        (w.serve x o c).2.1.log.Settled t.subject t.durable) →
      Counted input temp targets (w.serve x o c).2.1 (xs.set i (w.serve x o c).2.2) := by
    intro hc hholds hsettled
    obtain ⟨hmode, hdrained, hlooked, hcounted⟩ := serve_keeps hc
    exact h.set hx hmode hdrained hlooked hcounted hholds hsettled
  cases c with
  | mode => exact h.look hmay.1 hmay.2
  | setDraining =>
    show Counted input temp targets { w with mode := .draining } (xs.set i x)
    rw [hself]
    exact h.setDraining
  | connect => exact hset (.inr (.inl rfl)) (fun _ _ _ _ hh => hh) fun _ _ _ hs => hs
  | fetch policy subject durable =>
    refine hset (.inl ⟨_, _, _, rfl⟩) (fun t ht hcov hinput hh => ?_) fun t _ _ hs => ?_
    · have hactive : x.looked = some .active := by
        rw [← (serve_keeps (w := w) (x := x) (o := o) (.inl ⟨policy, subject, durable, rfl⟩)).2.2.1]
        exact hh.1
      by_cases htaken : o.call = .ok ∧ o.pick ≠ none
      · -- no message is handed to an input worker once a target is covered
        obtain ⟨hopen, hothers⟩ := hguard hinput hactive htaken.1 htaken.2
        rcases hcov with hd | ⟨y, hy, ha, hc⟩
        · rw [hopen] at hd
          cases hd
        · obtain ⟨j, hj⟩ := List.mem_iff_getElem?.mp hy
          by_cases hij : j = i
          · subst hij
            rw [hx] at hj
            cases hj
            rw [ha] at hactive
            cases hactive
          · rw [hothers y (List.mem_eraseIdx_iff_getElem?.mpr ⟨j, hij, hj⟩) ha] at hc
            cases hc
      · refine ⟨hactive, fun hnone => hh.2 ?_⟩
        simp only [SubjectWorld.serve]
        split
        · rename_i j message log hpick
          have hnotok : o.call ≠ .ok := by
            intro hok
            refine htaken ⟨hok, ?_⟩
            rw [(handed_of_pick hpick).1]
            simp
          simp only [if_neg hnotok]
          exact hnone
        · exact hnone
    · simp only [SubjectWorld.serve]
      split
      · rename_i j message log hpick
        obtain ⟨e, -, -, rfl⟩ := Log.open_of_hand (handed_of_pick hpick).2
        cases o.call with
        | ok => exact hs.modify Log.onward_hand
        | refused => exact hs
        | lost => exact hs.modify Log.onward_hand
      · exact hs
  | drop =>
    refine hset (.inr (.inr (.inl rfl))) (fun _ _ _ _ hh => ?_) fun _ _ _ hs => hs
    exact absurd rfl hh.2
  | backlog subject durable =>
    simp only [SubjectWorld.serve]
    split
    · rename_i hzero
      refine h.backlog hx (Log.settled_iff.mpr ⟨?_, ?_⟩) hguard
      · exact (Nat.add_eq_zero_iff.mp hzero.2).1
      · exact (Nat.add_eq_zero_iff.mp hzero.2).2
    · rw [hself]
      exact h
  | respond status =>
    simp only [SubjectWorld.serve]
    rw [hself]
    exact h.respond hmem hmay
  | work c =>
    cases c with
    | publish target message =>
      refine hset (.inr (.inr (.inr ⟨_, rfl⟩))) (fun _ _ _ _ hh => ?_) fun t ht hcov hs => ?_
      · obtain ⟨hand, hhand, -⟩ := hmay
        have hlooked := (serve_keeps (w := w) (x := x) (o := o)
          (.inr (.inr (.inr ⟨.publish target message, rfl⟩)))).2.2.1
        exact ⟨hlooked ▸ hh.1, by simp [hhand]⟩
      · have happend : (w.publish x target message).log.Settled t.subject t.durable := by
          refine hs.append ?_
          obtain ⟨hand, hhand, ⟨hinput, hactive, -⟩ | ⟨-, u, hu, -, hbase⟩⟩ := hmay
          · -- what an input worker holds, no status call has left out
            exact absurd ⟨hactive, by simp [hhand]⟩ ((h.covered t ht hcov).1 hinput x hmem)
          · rw [← hbase]
            exact (hapart u hu t ht).1
        simp only [SubjectWorld.serve, serveSubjectWork]
        cases o.call with
        | ok => exact happend
        | refused => exact hs
        | lost => exact happend
    | ack =>
      refine hset (.inr (.inr (.inr ⟨_, rfl⟩))) (fun _ _ _ _ hh => ?_) fun t _ _ hs => ?_
      · simp only [SubjectWorld.serve, serveSubjectWork] at hh
        split at hh <;> exact hh
      · simp only [SubjectWorld.serve, serveSubjectWork]
        split
        · cases o.call with
          | ok => exact hs.modify Log.onward_ack
          | refused => exact hs
          | lost => exact hs.modify Log.onward_ack
        · exact hs
    | _ => exact hset (.inr (.inr (.inr ⟨_, rfl⟩))) (fun _ _ _ _ hh => hh) fun _ _ _ hs => hs

/-- What the others do keeps the counts, where the condition holds. -/
theorem Counted.move (h : Counted input temp targets w xs) {v : SubjectMove}
    (hguard : (account input targets).move xs w v) (hmove : w.move v = some w') :
    Counted input temp targets w' xs := by
  have hkeep : ∀ {log : Log String String Message} {acknowledged : List Nat},
      (∀ t ∈ targets, Covered w xs t → w.log.Settled t.subject t.durable →
        log.Settled t.subject t.durable) →
      Counted input temp targets { w with log := log, acknowledged := acknowledged } xs :=
    fun hs => h.frame id id h.asked (fun _ _ hcov => hcov) (fun _ _ _ hi => hi) hs
  cases v with
  | store subject message =>
    cases hmove
    refine hkeep fun t ht hcov hs => hs.append fun heq => ?_
    exact hguard t ht heq.symm hcov
  | handOut j queueGroup =>
    simp only [SubjectWorld.move] at hmove
    split at hmove
    · obtain ⟨⟨message, log⟩, hhand, rfl⟩ := Option.map_eq_some_iff.mp hmove
      obtain ⟨e, -, -, rfl⟩ := Log.open_of_hand hhand
      exact hkeep fun t _ _ hs => hs.modify Log.onward_hand
    · cases hmove
  | acknowledge j queueGroup =>
    simp only [SubjectWorld.move] at hmove
    split at hmove
    · split at hmove
      · cases hmove
        exact hkeep fun t _ _ hs => hs.modify Log.onward_ack
      · cases hmove
    · cases hmove
  | discard j =>
    cases hmove
    exact hkeep fun t _ _ hs => hs.modify Log.onward_discard

/-- **The steps of an inceptor keep the counts.** -/
theorem counted_keeps (hapart : Apart targets) (memory : SubjectJob → SubjectMemory)
    (hmemory : ∀ job, memory job = .start) :
    Pool.Keeps subjectProcess (account input targets) (SubjectMay input temp targets) memory
      (Counted input temp targets) where
  start w xs job h := by
    rw [hmemory]
    exact h.start
  stop w xs i h := h.subset fun y hy => List.mem_of_mem_eraseIdx hy
  move w xs v w' h hguard hmove := h.move hguard hmove
  call w xs i x c o a w' x' h hx hmay hguard hserve := by
    have hpair := Option.some.inj hserve
    have hw : w' = (w.serve x o c).2.1 := by rw [hpair]
    have hx' : x' = (w.serve x o c).2.2 := by rw [hpair]
    rw [hw, hx']
    exact h.call hapart hx hmay hguard

end Messages

end FluidBG.Nats
