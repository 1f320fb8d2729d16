import Mathlib.Data.List.Basic
/-!
# Regular expressions with anchors

Patterns of characters, sequences, alternatives and the two anchors, where they match inside a
subject, and a reader of their usual notation: groups in parentheses, alternatives between bars, and
a backslash before a character that is meant literally. Repetitions, classes and escaped letters are
not read. The words of an alternation come back from the notation as the words that were escaped.
-/

set_option autoImplicit false

namespace FluidBG.Lib

inductive Regex (α : Type) where
  | empty
  | char (a : α)
  | seq (p q : Regex α)
  | alt (p q : Regex α)
  | start
  | stop

namespace Regex

variable {α : Type}

/-- `p` matches `word` where it stands between `before` and `after`. The end of a subject is also
before a line end that is its last character. -/
def Matches (lineEnd : α) : Regex α → List α → List α → List α → Prop
  | .empty, _, word, _ => word = []
  | .char a, _, word, _ => word = [a]
  | .seq p q, before, word, after => ∃ front back, word = front ++ back ∧
      p.Matches lineEnd before front (back ++ after) ∧
      q.Matches lineEnd (before ++ front) back after
  | .alt p q, before, word, after =>
    p.Matches lineEnd before word after ∨ q.Matches lineEnd before word after
  | .start, before, word, _ => word = [] ∧ before = []
  | .stop, _, word, after => word = [] ∧ (after = [] ∨ after = [lineEnd])

/-- A search finds `p` somewhere in the subject. -/
def Occurs (lineEnd : α) (p : Regex α) (subject : List α) : Prop :=
  ∃ before word after, subject = before ++ word ++ after ∧ p.Matches lineEnd before word after

/-- `p` matches some words, wherever they stand, and nothing else. -/
def IsWords (lineEnd : α) (p : Regex α) (words : List (List α)) : Prop :=
  ∀ before word after, p.Matches lineEnd before word after ↔ word ∈ words

/-- The characters of a word, one after the other, behind `p`. -/
def chars (p : Regex α) (word : List α) : Regex α := word.foldl (fun p a => .seq p (.char a)) p

variable {lineEnd : α} {p q : Regex α} {words : List (List α)}

theorem IsWords.empty : (Regex.empty : Regex α).IsWords lineEnd [[]] := by
  intro before word after
  rw [List.mem_singleton]
  exact Iff.rfl

theorem IsWords.char {front : List α} (h : p.IsWords lineEnd [front]) (a : α) :
    (p.seq (.char a)).IsWords lineEnd [front ++ [a]] := by
  intro before word after
  rw [List.mem_singleton]
  constructor
  · intro hmatch
    obtain ⟨front', back, rfl, hfront, hback⟩ := hmatch
    rw [List.mem_singleton.mp ((h _ _ _).mp hfront), show back = [a] from hback]
  · intro hword
    exact ⟨front, [a], hword, (h _ _ _).mpr (List.mem_singleton.mpr rfl), rfl⟩

theorem IsWords.chars (word : List α) : ∀ {front : List α} {p : Regex α},
    p.IsWords lineEnd [front] → (p.chars word).IsWords lineEnd [front ++ word] := by
  induction word with
  | nil =>
    intro front p h
    rw [List.append_nil]
    exact h
  | cons a word ih =>
    intro front p h
    have hrest := ih (h.char a)
    rw [List.append_assoc] at hrest
    exact hrest

theorem IsWords.alt {words' : List (List α)} (hp : p.IsWords lineEnd words)
    (hq : q.IsWords lineEnd words') : (p.alt q).IsWords lineEnd (words ++ words') := by
  intro before word after
  rw [List.mem_append]
  exact or_congr (hp _ _ _) (hq _ _ _)

/-- Between both anchors a pattern of words finds the subjects that are one of the words. -/
theorem IsWords.anchored (h : p.IsWords lineEnd words) (subject : List α) :
    (((Regex.empty.seq .start).seq p).seq .stop).Occurs lineEnd subject ↔
      ∃ word ∈ words, subject = word ∨ subject = word ++ [lineEnd] := by
  constructor
  · intro hoccurs
    obtain ⟨before, word, after, rfl, front, back, rfl, hfront, rfl, hafter⟩ := hoccurs
    obtain ⟨first, second, rfl, hstart, hwords⟩ := hfront
    obtain ⟨none, anchor, rfl, rfl, rfl, hbefore⟩ := hstart
    rw [List.append_nil] at hbefore
    refine ⟨second, (h _ _ _).mp hwords, ?_⟩
    rcases hafter with hnil | hend
    · exact .inl (by simp [hbefore, hnil])
    · exact .inr (by simp [hbefore, hend])
  · intro hwords
    obtain ⟨word, hword, hsubject⟩ := hwords
    rcases hsubject with rfl | rfl
    · exact ⟨[], subject, [], by simp, subject, [], by simp,
        ⟨[], subject, rfl, ⟨[], [], rfl, rfl, rfl, rfl⟩, (h _ _ _).mpr hword⟩, rfl, .inl rfl⟩
    · exact ⟨[], word, [lineEnd], by simp, word, [], by simp,
        ⟨[], word, rfl, ⟨[], [], rfl, rfl, rfl, rfl⟩, (h _ _ _).mpr hword⟩, rfl, .inr rfl⟩

/-! ## The notation -/

inductive Token where
  | lit (c : Char)
  | opening
  | closing
  | bar
  | start
  | stop
  deriving DecidableEq, Repr

/-- The characters that begin a construct the reader does not have. -/
def unread : List Char := ['.', '[', '?', '*', '+', '\x7b']

/-- A character with no backslash before it. -/
def symbol (c : Char) : Option Token :=
  if c = '(' then some .opening
  else if c = ')' then some .closing
  else if c = '|' then some .bar
  else if c = '^' then some .start
  else if c = '$' then some .stop
  else if c ∈ unread then none
  else some (.lit c)

/-- The tokens of a text, the first character of which may have a backslash before it. -/
def lex : Bool → List Char → Option (List Token)
  | true, [] => none
  | false, [] => some []
  | true, c :: rest => if c.isAlphanum then none else (lex false rest).map (.lit c :: ·)
  | false, c :: rest =>
    if c = '\\' then lex true rest
    else (symbol c).bind fun token => (lex false rest).map (token :: ·)

/-- What is read of a group: the alternatives before the last bar, and what is after it. -/
structure Group where
  done : Option (Regex Char)
  current : Regex Char

namespace Group

def new : Group := ⟨none, .empty⟩

def add (group : Group) (p : Regex Char) : Group := { group with current := .seq group.current p }

def pattern (group : Group) : Regex Char :=
  match group.done with
  | none => group.current
  | some done => .alt done group.current

end Group

/-- The rest of the tokens, in a group that is inside others, the innermost of them first. -/
def parse : List Token → Group → List Group → Option (Regex Char)
  | [], group, [] => some group.pattern
  | [], _, _ :: _ => none
  | .lit c :: rest, group, outer => parse rest (group.add (.char c)) outer
  | .opening :: rest, group, outer => parse rest .new (group :: outer)
  | .closing :: _, _, [] => none
  | .closing :: rest, group, around :: outer => parse rest (around.add group.pattern) outer
  | .bar :: rest, group, outer => parse rest ⟨some group.pattern, .empty⟩ outer
  | .start :: rest, group, outer => parse rest (group.add .start) outer
  | .stop :: rest, group, outer => parse rest (group.add .stop) outer

def read (text : List Char) : Option (Regex Char) :=
  (lex false text).bind fun tokens => parse tokens .new []

/-! ## Escaped words -/

/-- A word with a backslash before each character that `isMeta` names. -/
def escape (isMeta : Char → Bool) (word : List Char) : List Char :=
  word.flatMap fun c => if isMeta c then ['\\', c] else [c]

/-- `isMeta` names every character that the notation does not read as itself, and no letter or
digit. -/
structure EscapesAll (isMeta : Char → Bool) : Prop where
  symbols : ∀ c, isMeta c = false → c ≠ '\\' ∧ symbol c = some (.lit c)
  plain : ∀ c, isMeta c = true → c.isAlphanum = false

theorem lex_escape {isMeta : Char → Bool} (h : EscapesAll isMeta) (word rest : List Char) :
    lex false (escape isMeta word ++ rest) = (lex false rest).map (word.map .lit ++ ·) := by
  induction word with
  | nil =>
    show lex false rest = (lex false rest).map id
    rw [Option.map_id]
    rfl
  | cons c word ih =>
    have hmap : ((lex false rest).map (word.map Token.lit ++ ·)).map (Token.lit c :: ·) =
        (lex false rest).map ((c :: word).map Token.lit ++ ·) := by
      rw [Option.map_map]
      rfl
    rw [← hmap, ← ih]
    unfold escape
    rw [List.flatMap_cons, List.append_assoc]
    cases hmeta : isMeta c with
    | true =>
      show (if c.isAlphanum then none else _) = _
      rw [h.plain c hmeta]
      rfl
    | false =>
      obtain ⟨hbackslash, hsymbol⟩ := h.symbols c hmeta
      show (if c = '\\' then _ else _) = _
      rw [if_neg hbackslash, hsymbol]
      rfl

theorem EscapesAll.escape_inj {isMeta : Char → Bool} (h : EscapesAll isMeta) {a b : List Char}
    (heq : escape isMeta a = escape isMeta b) : a = b := by
  have hlex := lex_escape h a []
  rw [heq, lex_escape h b []] at hlex
  have htokens : b.map Token.lit = a.map Token.lit := by simpa [lex] using hlex
  exact ((List.map_injective_iff.mpr fun _ _ heq => Token.lit.inj heq) htokens).symm

theorem parse_lits (word : List Char) (rest : List Token) (outer : List Group) :
    ∀ group : Group, parse (word.map .lit ++ rest) group outer =
      parse rest ⟨group.done, group.current.chars word⟩ outer := by
  induction word with
  | nil =>
    intro group
    rfl
  | cons c word ih =>
    intro group
    exact ih (group.add (.char c))

/-- The words of an alternation, as tokens. -/
def alternatives : List (List Char) → List Token
  | [] => []
  | [word] => word.map .lit
  | word :: words => word.map .lit ++ .bar :: alternatives words

theorem lex_alternatives {isMeta : Char → Bool} (h : EscapesAll isMeta) (rest : List Char)
    (words : List (List Char)) :
    lex false (['|'].intercalate (words.map (escape isMeta)) ++ rest) =
      (lex false rest).map (alternatives words ++ ·) := by
  induction words with
  | nil =>
    show lex false rest = (lex false rest).map id
    rw [Option.map_id]
    rfl
  | cons word words ih =>
    cases words with
    | nil =>
      rw [List.map_singleton, List.intercalate_singleton]
      exact lex_escape h word rest
    | cons next words =>
      rw [List.map_cons] at ih
      rw [List.map_cons, List.map_cons, List.intercalate_cons_cons, List.append_assoc,
        List.append_assoc, lex_escape h]
      have hbar : lex false (['|'] ++ (['|'].intercalate (escape isMeta next ::
          words.map (escape isMeta)) ++ rest)) =
          ((lex false rest).map (alternatives (next :: words) ++ ·)).map (.bar :: ·) := by
        rw [← ih]
        rfl
      rw [hbar, Option.map_map, Option.map_map]
      refine congrArg (fun f => Option.map f (lex false rest)) (funext fun tokens => ?_)
      simp [alternatives]

variable {around : Group} {outer : List Group} {rest : List Token}

/-- The last word of a group, and the end of the group. -/
theorem parse_last {lineEnd : Char} {found : List (List Char)} {done : Option (Regex Char)}
    (hdone : done.elim (found = []) (·.IsWords lineEnd found)) (word : List Char) :
    ∃ p : Regex Char, p.IsWords lineEnd (found ++ [word]) ∧
      parse (word.map .lit ++ .closing :: rest) ⟨done, .empty⟩ (around :: outer) =
        parse rest (around.add p) outer := by
  have hword : (Regex.empty.chars word).IsWords lineEnd [word] := IsWords.empty.chars word
  rw [parse_lits]
  cases done with
  | none =>
    rw [show found = [] from hdone]
    exact ⟨_, hword, rfl⟩
  | some done => exact ⟨_, IsWords.alt hdone hword, rfl⟩

/-- What a group stands for once its words are read. -/
theorem parse_alternatives {lineEnd : Char} (words : List (List Char)) :
    ∀ (found : List (List Char)) (done : Option (Regex Char)), words ≠ [] →
      done.elim (found = []) (·.IsWords lineEnd found) →
      ∃ p : Regex Char, p.IsWords lineEnd (found ++ words) ∧
        parse (alternatives words ++ .closing :: rest) ⟨done, .empty⟩ (around :: outer) =
          parse rest (around.add p) outer := by
  induction words with
  | nil =>
    intro found done hne
    exact absurd rfl hne
  | cons word words ih =>
    intro found done _ hdone
    cases words with
    | nil => exact parse_last hdone word
    | cons next words =>
      have hword : (Regex.empty.chars word).IsWords lineEnd [word] := IsWords.empty.chars word
      have hread : (Group.pattern ⟨done, Regex.empty.chars word⟩).IsWords lineEnd
          (found ++ [word]) := by
        cases done with
        | none =>
          rw [show found = [] from hdone]
          exact hword
        | some done => exact IsWords.alt hdone hword
      -- the bar closes the word and leaves the group with one alternative more
      obtain ⟨p, hp, hparse⟩ := ih (found ++ [word])
        (some (Group.pattern ⟨done, Regex.empty.chars word⟩)) (List.cons_ne_nil _ _) hread
      refine ⟨p, by simpa using hp, ?_⟩
      rw [show alternatives (word :: next :: words) =
        word.map .lit ++ .bar :: alternatives (next :: words) from rfl, List.append_assoc,
        parse_lits]
      exact hparse

/-- **An anchored alternation of escaped words finds just these words**, with or without a line end
behind them. -/
theorem read_alternation {isMeta : Char → Bool} (h : EscapesAll isMeta) (lineEnd : Char)
    {words : List (List Char)} (hwords : words ≠ []) : ∃ p,
      read (['^', '('] ++ ['|'].intercalate (words.map (escape isMeta)) ++ [')', '$']) = some p ∧
      ∀ subject, p.Occurs lineEnd subject ↔
        ∃ word ∈ words, subject = word ∨ subject = word ++ [lineEnd] := by
  have hgroup : ∃ p : Regex Char, p.IsWords lineEnd ([] ++ words) ∧
      parse (alternatives words ++ .closing :: [.stop]) .new [Group.new.add .start] =
        parse [.stop] ((Group.new.add .start).add p) [] :=
    parse_alternatives words [] none hwords (rfl : ([] : List (List Char)) = [])
  obtain ⟨p, hp, hparse⟩ := hgroup
  refine ⟨((Regex.empty.seq .start).seq p).seq .stop, ?_, IsWords.anchored hp⟩
  have hlex : lex false (['^', '('] ++ ['|'].intercalate (words.map (escape isMeta)) ++
      [')', '$']) = some (.start :: .opening :: (alternatives words ++ [.closing, .stop])) := by
    show ((lex false (['|'].intercalate (words.map (escape isMeta)) ++ [')', '$'])).map
      (Token.opening :: ·)).map (Token.start :: ·) = _
    rw [lex_alternatives h]
    rfl
  unfold read
  rw [hlex]
  exact hparse

/-- The two anchors alone find the empty subject. -/
theorem read_anchors (lineEnd : Char) : ∃ p, read ['^', '$'] = some p ∧
    ∀ subject, p.Occurs lineEnd subject ↔ subject = [] ∨ subject = [lineEnd] := by
  refine ⟨(Regex.empty.seq .start).seq .stop, rfl, fun subject => ?_⟩
  constructor
  · intro hoccurs
    obtain ⟨before, word, after, rfl, front, back, rfl, hstart, rfl, hafter⟩ := hoccurs
    obtain ⟨first, second, rfl, rfl, rfl, hbefore⟩ := hstart
    rw [List.append_nil] at hbefore
    rcases hafter with hnil | hend
    · exact .inl (by simp [hbefore, hnil])
    · exact .inr (by simp [hbefore, hend])
  · intro hsubject
    rcases hsubject with rfl | rfl
    · exact ⟨[], [], [], rfl, [], [], rfl, ⟨[], [], rfl, rfl, rfl, rfl⟩, rfl, .inl rfl⟩
    · exact ⟨[], [], [lineEnd], rfl, [], [], rfl, ⟨[], [], rfl, rfl, rfl, rfl⟩, rfl, .inr rfl⟩

end Regex

end FluidBG.Lib
