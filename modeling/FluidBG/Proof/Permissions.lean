import FluidBG.Lib.Regex
import FluidBG.Proof.ScopedUsers
/-!
# What a scoped user may read and write

`create_inceptor_user` hands its permissions over as regular expressions. Here the broker reads them
back: an inceptor's user reads the queues of its inceptor, writes to the default exchange, and that
is all. A dollar also stands before a line end that ends the name, so each name is also granted with
a line end behind it.
-/

set_option autoImplicit false

namespace FluidBG.Rabbitmq

open Lib

/-! ## The expressions -/

/-- `regex::escape`, which has a backslash for each character that `isMeta` names. -/
def regexEscape (isMeta : Char → Bool) (name : String) : String :=
  String.ofList (Regex.escape isMeta name.toList)

def queuePermissionRegex (isMeta : Char → Bool) (queueNames : List String) : String :=
  let names := (((queueNames.filter (· ≠ "")).map (regexEscape isMeta)).insertionSort
    (· ≤ ·)).dedup
  if names.isEmpty then "^$" else "^(" ++ "|".intercalate names ++ ")$"

def defaultExchangePermissionRegex : String := "^(amq\\.default|)$"

/-- The permissions of a user, as `create_inceptor_user` sends them. -/
structure Permissions where
  configure : String
  write : String
  read : String

def inceptorPermissions (isMeta : Char → Bool) (queueNames : List String) : Permissions where
  configure := ""
  write := defaultExchangePermissionRegex
  read := queuePermissionRegex isMeta queueNames

/-! ## Their meaning to the broker -/

/-- The broker takes an empty expression for `^$`, and searches a resource's name for the pattern. -/
def Grants (expression name : String) : Prop :=
  ∃ p, Regex.read (if expression = "" then "^$" else expression).toList = some p ∧
    p.Occurs '\n' name.toList

/-- The names that a list of queues grants; the name without characters stands for no queue. -/
def granted (queueNames : List String) : List String :=
  if queueNames.filter (· ≠ "") = [] then [""] else queueNames.filter (· ≠ "")

/-- A granted name, or one with a line end behind it. -/
def GrantedBy (names : List String) (name : String) : Prop :=
  ∃ grant ∈ names, name = grant ∨ name = grant ++ "\n"

/-! ## Reading them back -/

variable {isMeta : Char → Bool}

theorem regexEscape_inj (h : Regex.EscapesAll isMeta) {a b : String}
    (heq : regexEscape isMeta a = regexEscape isMeta b) : a = b := by
  have hescape : Regex.escape isMeta a.toList = Regex.escape isMeta b.toList := by
    rw [← String.toList_inj] at heq
    simpa [regexEscape] using heq
  exact String.toList_inj.mp (h.escape_inj hescape)

/-- What is sorted and without repetitions is still the escapes of the same names. -/
theorem exists_words (isMeta : Char → Bool) (names : List String) : ∃ words : List String,
    ((names.map (regexEscape isMeta)).insertionSort (· ≤ ·)).dedup =
      words.map (regexEscape isMeta) ∧ ∀ word ∈ words, word ∈ names := by
  have hmem : ∀ text ∈ ((names.map (regexEscape isMeta)).insertionSort (· ≤ ·)).dedup,
      ∃ name ∈ names, regexEscape isMeta name = text := by
    intro text htext
    rw [List.mem_dedup, List.mem_insertionSort] at htext
    exact List.mem_map.mp htext
  generalize ((names.map (regexEscape isMeta)).insertionSort (· ≤ ·)).dedup = texts at hmem
  induction texts with
  | nil => exact ⟨[], rfl, fun _ h => absurd h List.not_mem_nil⟩
  | cons text texts ih =>
    obtain ⟨words, hwords, hnames⟩ := ih fun text' h => hmem text' (List.mem_cons_of_mem _ h)
    obtain ⟨name, hname, htext⟩ := hmem text List.mem_cons_self
    refine ⟨name :: words, by rw [List.map_cons, htext, hwords], ?_⟩
    intro word hword
    rcases List.mem_cons.mp hword with rfl | hword
    · exact hname
    · exact hnames word hword

theorem grantedBy_empty (name : String) :
    GrantedBy [""] name ↔ name.toList = [] ∨ name.toList = ['\n'] := by
  have hnil : name = "" ↔ name.toList = [] := String.toList_inj.symm
  have hend : name = "" ++ "\n" ↔ name.toList = ['\n'] := String.toList_inj.symm
  rw [← hnil, ← hend]
  constructor
  · intro h
    obtain ⟨grant, hgrant, hname⟩ := h
    rwa [List.mem_singleton.mp hgrant] at hname
  · intro h
    exact ⟨"", List.mem_singleton_self _, h⟩

theorem grants_anchors (name : String) : Grants "^$" name ↔ GrantedBy [""] name := by
  obtain ⟨p, hread, hoccurs⟩ := Regex.read_anchors '\n'
  rw [grantedBy_empty, ← hoccurs]
  constructor
  · intro hgrants
    obtain ⟨p', hread', hp'⟩ := hgrants
    rw [if_neg (by decide)] at hread'
    rwa [Option.some.inj (hread'.symm.trans hread)] at hp'
  · intro hp
    refine ⟨p, ?_, hp⟩
    rw [if_neg (by decide)]
    exact hread

/-- What no expression grants is what the anchors grant. -/
theorem grants_nothing (name : String) : Grants "" name ↔ GrantedBy [""] name := by
  rw [← grants_anchors]
  unfold Grants
  rw [if_pos rfl, if_neg (by decide)]

/-- An expression of alternatives grants the names it was made of. -/
theorem grants_alternatives (h : Regex.EscapesAll isMeta) {words : List String}
    (hwords : words ≠ []) (name : String) :
    Grants ("^(" ++ "|".intercalate (words.map (regexEscape isMeta)) ++ ")$") name ↔
      GrantedBy words name := by
  have hne : ("^(" ++ "|".intercalate (words.map (regexEscape isMeta)) ++ ")$") ≠ "" := by
    intro heq
    have hlist := congrArg String.toList heq
    simp at hlist
  have htext : ("^(" ++ "|".intercalate (words.map (regexEscape isMeta)) ++ ")$").toList =
      ['^', '('] ++ ['|'].intercalate ((words.map String.toList).map (Regex.escape isMeta)) ++
        [')', '$'] := by
    simp [String.toList_intercalate, List.map_map, Function.comp_def, regexEscape]
  have hwords' : words.map String.toList ≠ [] := fun hnil => hwords (List.map_eq_nil_iff.mp hnil)
  obtain ⟨p, hread, hoccurs⟩ := Regex.read_alternation h '\n' hwords'
  have hgranted : GrantedBy words name ↔ p.Occurs '\n' name.toList := by
    rw [hoccurs]
    simp [GrantedBy, ← String.toList_inj]
  rw [hgranted]
  constructor
  · intro hgrants
    obtain ⟨p', hread', hp'⟩ := hgrants
    rw [if_neg hne, htext] at hread'
    rwa [Option.some.inj (hread'.symm.trans hread)] at hp'
  · intro hp
    refine ⟨p, ?_, hp⟩
    rw [if_neg hne, htext]
    exact hread

/-- **The read permission is exact**: it grants the queues it was made for, each also with a line
end behind it. -/
theorem grants_queuePermissionRegex (h : Regex.EscapesAll isMeta) (queueNames : List String)
    (name : String) :
    Grants (queuePermissionRegex isMeta queueNames) name ↔
      GrantedBy (granted queueNames) name := by
  obtain ⟨words, htexts, hnames⟩ := exists_words isMeta (queueNames.filter (· ≠ ""))
  unfold queuePermissionRegex granted
  simp only [htexts, List.isEmpty_iff, List.map_eq_nil_iff]
  have hempty : words = [] ↔ queueNames.filter (· ≠ "") = [] := by
    constructor
    · intro hwords
      rw [hwords, List.map_nil] at htexts
      have hlength : ∀ text, text ∉ (queueNames.filter (· ≠ "")).map (regexEscape isMeta) := by
        intro text htext
        rw [← List.mem_insertionSort (r := (· ≤ ·)), ← List.mem_dedup, htexts] at htext
        exact List.not_mem_nil htext
      exact List.map_eq_nil_iff.mp (List.eq_nil_iff_forall_not_mem.mpr hlength)
    · intro hnil
      rw [hnil] at hnames
      exact List.eq_nil_iff_forall_not_mem.mpr fun word hword =>
        List.not_mem_nil (hnames word hword)
  by_cases hwords : words = []
  · rw [if_pos hwords, if_pos (hempty.mp hwords)]
    exact grants_anchors name
  · rw [if_neg hwords, if_neg fun hnil => hwords (hempty.mpr hnil), grants_alternatives h hwords]
    have hmem : ∀ grant, grant ∈ words ↔ grant ∈ queueNames.filter (· ≠ "") := by
      intro grant
      constructor
      · exact hnames grant
      · intro hgrant
        have htext := List.mem_map_of_mem (f := regexEscape isMeta) hgrant
        rw [← List.mem_insertionSort (r := (· ≤ ·)), ← List.mem_dedup, htexts] at htext
        obtain ⟨word, hword, heq⟩ := List.mem_map.mp htext
        exact regexEscape_inj h heq ▸ hword
    simp only [GrantedBy, hmem]

/-- Letters and digits are read as themselves, so a backslash before everything else escapes it. -/
theorem escapesAll_of_plain : Regex.EscapesAll fun c => !c.isAlphanum where
  symbols c hc := by
    have hplain : c.isAlphanum = true := by simpa using hc
    have hne : ∀ special : Char, special.isAlphanum = false → c ≠ special := by
      intro special hspecial heq
      rw [heq, hspecial] at hplain
      cases hplain
    refine ⟨hne _ (by decide), ?_⟩
    unfold Regex.symbol Regex.unread
    rw [if_neg (hne _ (by decide)), if_neg (hne _ (by decide)), if_neg (hne _ (by decide)),
      if_neg (hne _ (by decide)), if_neg (hne _ (by decide)), if_neg]
    intro hmem
    have hspecial : ['.', '[', '?', '*', '+', '\x7b'].all fun special => !special.isAlphanum := by
      decide
    have hfalse := List.all_eq_true.mp hspecial c hmem
    rw [hplain] at hfalse
    cases hfalse
  plain c hc := by simpa using hc

def defaultExchangeText : PLift (defaultExchangePermissionRegex =
    "^(" ++ "|".intercalate (["amq.default", ""].map (regexEscape fun c => !c.isAlphanum)) ++
      ")$") := ⟨by decide +kernel⟩

/-- The write permission names the default exchange, by its name and by none. -/
theorem grants_defaultExchange (name : String) :
    Grants defaultExchangePermissionRegex name ↔ GrantedBy ["amq.default", ""] name := by
  rw [defaultExchangeText.down]
  exact grants_alternatives escapesAll_of_plain (List.cons_ne_nil _ _) name

/-! ## What the manager sends -/

/-- The user is the one of the claims, and may do with the broker what its inceptor needs: write to
the default exchange, and read the queues in its configuration. -/
structure LeastPrivilege (isMeta : Char → Bool) (claims : PluginAuthClaims)
    (req : PluginManagerLifecycleRequest) (username : String) (queueNames : List String) :
    Prop where
  own : username = scopedUsername claims
  configure : ∀ name, Grants (inceptorPermissions isMeta queueNames).configure name ↔
    GrantedBy [""] name
  write : ∀ name, Grants (inceptorPermissions isMeta queueNames).write name ↔
    GrantedBy ["amq.default", ""] name
  read : ∀ name, Grants (inceptorPermissions isMeta queueNames).read name ↔
    GrantedBy (granted (inceptorQueueNames (parseRoles req.roles)
      (securedConfigFromClaims claims req).2)) name

theorem leastPrivilege (h : Regex.EscapesAll isMeta) (claims : PluginAuthClaims)
    (req : PluginManagerLifecycleRequest) :
    LeastPrivilege isMeta claims req (scopedUsername claims)
      (inceptorQueueNames (parseRoles req.roles) (securedConfigFromClaims claims req).2) := by
  generalize hqueues : inceptorQueueNames (parseRoles req.roles)
    (securedConfigFromClaims claims req).2 = queueNames
  refine ⟨rfl, grants_nothing, grants_defaultExchange, fun name => ?_⟩
  rw [hqueues]
  exact grants_queuePermissionRegex h queueNames name

/-- A call for permissions is `P`. -/
def SetsPermissions (P : String → List String → Prop) : BrokerCall → Prop
  | .putPermissions username queueNames => P username queueNames
  | _ => True

section Calls

variable {P : String → List String → Prop} {lib : ManagerCrates} {state : ManagerState}

theorem SetsPermissions.of_queueCall {c : BrokerCall} (h : QueueCall c) : SetsPermissions P c := by
  cases c with
  | putPermissions username queueNames => exact h.elim
  | _ => trivial

theorem permissions_of_createInceptorUser {username password : String} {queueNames : List String}
    (h : P username queueNames) :
    (createInceptorUser username password queueNames).Calls (SetsPermissions P) :=
  (calls_ask (Prog.Calls.of_ask.mpr trivial)).bind fun _ => calls_ask (Prog.Calls.of_ask.mpr h)

theorem permissions_of_deleteUser (username : String) :
    (deleteUser username).Calls (SetsPermissions P) :=
  calls_ask (Prog.Calls.of_ask.mpr trivial)

theorem permissions_of_sweep (activeInceptions : List ActiveInception) :
    (garbageCollectScopedIdentities lib state activeInceptions).Calls (SetsPermissions P) := by
  refine (Prog.Calls.of_ofExcept _).bind fun _ => ?_
  refine (calls_ask (Prog.Calls.of_ask.mpr trivial)).bind fun users => ?_
  refine Prog.Calls.forEach fun user _ => ?_
  split
  · exact permissions_of_deleteUser user
  · trivial

theorem calls_ofExcept_bind {α β : Type} {F : BrokerCall → Prop} {r : Except StatusCode α}
    {f : α → ManagerOp β} (h : ∀ a, r = .ok a → (f a).Calls F) :
    ((Prog.ofExcept r).bind f : ManagerOp β).Calls F := by
  cases r with
  | error status => trivial
  | ok a => exact h a rfl

theorem permissions_of_prepareScopedInceptorEnv (claims : PluginAuthClaims) (roles : List String)
    (config : Config)
    (h : P (scopedUsername claims) (inceptorQueueNames (parseRoles roles) config)) :
    (prepareScopedInceptorEnv lib state claims roles config).Calls (SetsPermissions P) := by
  refine (Prog.Calls.of_ofExcept _).bind fun client => ?_
  refine (Prog.Calls.of_ofExcept _).bind fun password => ?_
  exact (permissions_of_createInceptorUser h).bind fun _ => trivial

theorem permissions_of_prepareHandler (header : Option String)
    (req : PluginManagerLifecycleRequest)
    (h : ∀ claims, Accepts lib state header req claims → P (scopedUsername claims)
      (inceptorQueueNames (parseRoles req.roles) (securedConfigFromClaims claims req).2)) :
    (prepareHandler lib state header req).Calls (SetsPermissions P) := by
  refine calls_ofExcept_bind fun claims hclaims => calls_ofExcept_bind fun _ hmatch => ?_
  refine (Prog.Calls.of_ofExcept _).bind fun _ => ?_
  refine ((calls_reconcileQueues _ _ _).mono fun c => .of_queueCall).bind fun _ => ?_
  refine (permissions_of_prepareScopedInceptorEnv _ _ _ (h claims ⟨hclaims, hmatch⟩)).bind
    fun _ => ?_
  exact (permissions_of_sweep _).bind fun _ => trivial

theorem permissions_of_cleanupHandler (header : Option String)
    (req : PluginManagerLifecycleRequest) :
    (cleanupHandler lib state header req).Calls (SetsPermissions P) := by
  refine (Prog.Calls.of_ofExcept _).bind fun claims => (Prog.Calls.of_ofExcept _).bind fun _ => ?_
  refine ((calls_reconcileQueues _ _ _).mono fun c => .of_queueCall).bind fun _ => ?_
  refine Prog.Calls.bind ?_ fun _ => permissions_of_sweep _
  exact (Prog.Calls.of_ofExcept _).bind fun _ => permissions_of_deleteUser _

end Calls

/-- **A scoped user is granted what its inceptor needs and no more.** Whatever the broker answers,
each user that a manager's request gives permissions to is the one of the claims it carries, and
reads just the queues of its configuration. -/
theorem users_have_least_privilege (h : Regex.EscapesAll isMeta) (lib : ManagerCrates)
    (state : ManagerState) (kind : LifecycleRequest) (header : Option String)
    (req : PluginManagerLifecycleRequest) :
    (handle lib state kind header req).Calls (SetsPermissions fun username queueNames =>
      ∃ claims, Accepts lib state header req claims ∧
        LeastPrivilege isMeta claims req username queueNames) := by
  cases kind with
  | prepare =>
    refine (permissions_of_prepareHandler header req fun claims hclaims => ?_).bind fun _ => trivial
    exact ⟨claims, hclaims, leastPrivilege h claims req⟩
  | cleanup => exact permissions_of_cleanupHandler header req

/-- The characters that `regex::escape` has a backslash for. -/
def regexMeta : List Char :=
  ['\\', '.', '+', '*', '?', '(', ')', '|', '[', ']', '\x7b', '\x7d', '^', '$', '#', '&', '-',
    '~']

theorem escapesAll_regexMeta : Regex.EscapesAll fun c => decide (c ∈ regexMeta) where
  symbols c hc := by
    have hne : ∀ special ∈ regexMeta, c ≠ special := by
      intro special hspecial heq
      rw [heq, decide_eq_true hspecial] at hc
      cases hc
    refine ⟨hne _ (by decide), ?_⟩
    unfold Regex.symbol
    rw [if_neg (hne _ (by decide)), if_neg (hne _ (by decide)), if_neg (hne _ (by decide)),
      if_neg (hne _ (by decide)), if_neg (hne _ (by decide)), if_neg]
    intro hunread
    have hmeta : Regex.unread.all fun special => decide (special ∈ regexMeta) := by decide
    exact hne c (of_decide_eq_true (List.all_eq_true.mp hmeta c hunread)) rfl
  plain c hc := by
    have hall : regexMeta.all fun special => !special.isAlphanum := by decide
    simpa using List.all_eq_true.mp hall c (of_decide_eq_true hc)

/-- The request of an inceptor that observes. -/
theorem orders_have_least_privilege :
    (handle sampleCrates sampleState .prepare (some "Bearer orders")
      (Sample.request ["observer"] .null [])).Calls (SetsPermissions fun username queueNames =>
        ∃ claims, Accepts sampleCrates sampleState (some "Bearer orders")
          (Sample.request ["observer"] .null []) claims ∧
          LeastPrivilege (fun c => decide (c ∈ regexMeta)) claims
            (Sample.request ["observer"] .null []) username queueNames) :=
  users_have_least_privilege escapesAll_regexMeta sampleCrates sampleState .prepare _ _

example : queuePermissionRegex (fun c => decide (c ∈ regexMeta)) ["orders", "orders.dlq"] =
    "^(orders|orders\\.dlq)$" := by decide +kernel

end FluidBG.Rabbitmq
