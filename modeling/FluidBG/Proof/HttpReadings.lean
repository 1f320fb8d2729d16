import FluidBG.Plugins.HttpFilters
import FluidBG.Proof.Documents
import Mathlib.Data.List.TakeWhile
/-!
# What the HTTP plugin can read of a request

A condition of an HTTP filter reads one slot of a request: its method, its path, a pair of its
query, one of its headers, or its body along a JSON path. A request can be made up for any values
that the slots can take, as long as the paths into the body go together.
-/

set_option autoImplicit false

namespace FluidBG

open Lib

theorem not_mem_of_mem_splitOn {sep : Char} {cs part : List Char} (h : part ∈ cs.splitOn sep) :
    sep ∉ part := by
  induction cs generalizing part with
  | nil =>
    rw [List.splitOn_nil, List.mem_singleton] at h
    simp [h]
  | cons c cs ih =>
    rw [List.splitOn_cons_eq_if_modifyHead] at h
    split at h
    · rcases List.mem_cons.mp h with rfl | h
      · simp
      · exact ih h
    · rename_i hne
      have hc : sep ≠ c := by
        intro heq
        simp [heq] at hne
      obtain ⟨first, rest, hsplit⟩ := List.exists_cons_of_ne_nil (List.splitOn_ne_nil sep cs)
      rw [hsplit, List.modifyHead_cons] at h
      rcases List.mem_cons.mp h with rfl | h
      · intro hmem
        rcases List.mem_cons.mp hmem with heq | hmem
        · exact hc heq
        · exact ih (hsplit ▸ List.mem_cons_self) hmem
      · exact ih (hsplit ▸ List.mem_cons_of_mem _ h)

theorem takeWhile_ne_append {sep : Char} {cs : List Char} (h : sep ∉ cs) (rest : List Char) :
    (cs ++ sep :: rest).takeWhile (· ≠ sep) = cs := by
  rw [List.takeWhile_append_of_pos]
  · simp
  · intro c hc
    have hne : c ≠ sep := fun heq => h (heq ▸ hc)
    simpa using hne

theorem not_mem_takeWhile_ne (sep : Char) (cs : List Char) : sep ∉ cs.takeWhile (· ≠ sep) := by
  intro h
  simpa using List.mem_takeWhile_imp h

/-- What comes before a separator is everything, or is followed by one. -/
theorem dropWhile_ne_cases (sep : Char) (cs : List Char) :
    cs.dropWhile (· ≠ sep) = [] ∨ ∃ rest, cs.dropWhile (· ≠ sep) = sep :: rest := by
  cases hrest : cs.dropWhile (· ≠ sep) with
  | nil => exact .inl rfl
  | cons c rest =>
    right
    have hne : cs.dropWhile (· ≠ sep) ≠ [] := by
      rw [hrest]
      exact List.cons_ne_nil c rest
    have hhead := List.head_dropWhile_not (· ≠ sep) hne
    simp only [hrest, List.head_cons] at hhead
    exact ⟨rest, by simpa using hhead⟩

namespace Http

/-! ## The parts of a path with a query -/

/-- The path comes back from a path with a query, -/
theorem splitPathQuery_append {path : List Char} (h : '?' ∉ path) (query : List Char) :
    splitPathQuery (String.ofList (path ++ '?' :: query)) =
      (String.ofList path, String.ofList query) := by
  simp only [splitPathQuery, String.toList_ofList, takeWhile_ne_append h, List.drop_append]
  simp

theorem question_not_mem_path (path : String) : '?' ∉ (splitPathQuery path).1.toList := by
  rw [splitPathQuery, String.toList_ofList]
  exact not_mem_takeWhile_ne '?' _

/-- and a pair of the query as its key and its value. -/
theorem splitPair_append {key : List Char} (h : '=' ∉ key) (value : List Char) :
    splitPair (key ++ '=' :: value) = some (String.ofList key, String.ofList value) := by
  simp only [splitPair, takeWhile_ne_append h, List.drop_left]

theorem eq_of_splitPair {pair : List Char} {key value : String}
    (h : splitPair pair = some (key, value)) :
    '=' ∉ key.toList ∧ pair = key.toList ++ '=' :: value.toList := by
  have hdrop : pair.drop (pair.takeWhile (· ≠ '=')).length = pair.dropWhile (· ≠ '=') := by
    nth_rewrite 2 [← List.takeWhile_append_dropWhile (p := (· ≠ '=')) (l := pair)]
    exact List.drop_left
  have hpair := List.takeWhile_append_dropWhile (p := (· ≠ '=')) (l := pair)
  rw [splitPair, hdrop] at h
  rcases dropWhile_ne_cases '=' pair with hrest | ⟨rest, hrest⟩
  · rw [hrest] at h
    simp at h
  · rw [hrest] at h hpair
    simp only [Option.some.injEq, Prod.mk.injEq] at h
    obtain ⟨rfl, rfl⟩ := h
    rw [String.toList_ofList, String.toList_ofList]
    exact ⟨not_mem_takeWhile_ne '=' pair, hpair.symm⟩

/-- The query with these pairs. -/
def queryText (pairs : List (String × String)) : List Char :=
  ['&'].intercalate (pairs.map fun pair => pair.1.toList ++ '=' :: pair.2.toList)

theorem queryValue_queryText {pairs : List (String × String)} (hne : pairs ≠ [])
    (h : ∀ pair ∈ pairs, '&' ∉ pair.1.toList ∧ '=' ∉ pair.1.toList ∧ '&' ∉ pair.2.toList)
    (key : String) : queryValue key (String.ofList (queryText pairs)) = pairs.lookup key := by
  have hsplit : (queryText pairs).splitOn '&' =
      pairs.map fun pair => pair.1.toList ++ '=' :: pair.2.toList := by
    refine List.splitOn_intercalate '&' ?_ (by simpa using hne)
    intro part hpart
    obtain ⟨pair, hpair, rfl⟩ := List.mem_map.mp hpart
    obtain ⟨hkey, _, hvalue⟩ := h pair hpair
    simp [hkey, hvalue]
  have hpairs : (pairs.map fun pair => pair.1.toList ++ '=' :: pair.2.toList).filterMap splitPair =
      pairs := by
    rw [List.filterMap_map]
    refine (List.filterMap_congr fun pair hpair => ?_).trans List.filterMap_some
    simp [splitPair_append (h pair hpair).2.1]
  rw [queryValue, String.toList_ofList, hsplit, hpairs]

/-- A key that has a value, and the value, are free of the characters that end them. -/
theorem not_mem_of_queryValue {key query value : String} (h : queryValue key query = some value) :
    '&' ∉ key.toList ∧ '=' ∉ key.toList ∧ '&' ∉ value.toList := by
  obtain ⟨before, after, hpairs, _⟩ := List.lookup_eq_some_iff.mp h
  have hmem : (key, value) ∈ (query.toList.splitOn '&').filterMap splitPair := by
    simp [hpairs]
  obtain ⟨pair, hpair, hsplit⟩ := List.mem_filterMap.mp hmem
  obtain ⟨hkey, rfl⟩ := eq_of_splitPair hsplit
  have hamp := not_mem_of_mem_splitOn hpair
  simp only [List.mem_append, List.mem_cons, not_or] at hamp
  exact ⟨hamp.1, hkey, hamp.2.2⟩

/-! ## Slots -/

/-- A request, as a filter sees it. -/
structure Incoming (crate : HttpCrate) where
  method : String
  path : String
  headers : HeaderMap crate
  body : Json

/-- What a condition reads of a request. -/
inductive HttpSlot where
  | method
  | path
  | query (key : String)
  | header (name : String)
  | body (keys : List String)
  deriving DecidableEq

namespace HttpSlot

/-- The keys of a query and the names of headers have to be what they can be. -/
def WellFormed (crate : HttpCrate) : HttpSlot → Prop
  | .query key => '&' ∉ key.toList ∧ '=' ∉ key.toList
  | .header name => ∃ s, crate.headerName s = some name
  | _ => True

/-- The values a well-formed slot can take. -/
def Takes (crate : HttpCrate) : HttpSlot → String → Prop
  | .path, value => '?' ∉ value.toList
  | .query _, value => '&' ∉ value.toList
  | .header _, value => crate.isText value = true
  | _, _ => True

def Compatible : HttpSlot → HttpSlot → Prop
  | .body keys, .body keys' => keys <+: keys' → keys = keys'
  | _, _ => True

variable {crate : HttpCrate}

def read : HttpSlot → Incoming crate → Option String
  | .method, request => some request.method
  | .path, request => some (splitPathQuery request.path).1
  | .query key, request => queryValue key (splitPathQuery request.path).2
  | .header name, request => (request.headers.entries.lookup name).bind id
  | .body keys, request => request.body.readAt keys

theorem takes_of_read {slot : HttpSlot} {request : Incoming crate} {value : String}
    (h : slot.read request = some value) : slot.WellFormed crate ∧ slot.Takes crate value := by
  cases slot with
  | method => exact ⟨trivial, trivial⟩
  | path =>
    cases h
    exact ⟨trivial, question_not_mem_path request.path⟩
  | query key =>
    obtain ⟨hamp, heq, hvalue⟩ := not_mem_of_queryValue h
    exact ⟨⟨hamp, heq⟩, hvalue⟩
  | header name =>
    obtain ⟨entry, hentry, rfl⟩ := Option.bind_eq_some_iff.mp h
    obtain ⟨before, after, hentries, _⟩ := List.lookup_eq_some_iff.mp hentry
    have hmem : (name, some value) ∈ request.headers.entries := by simp [hentries]
    exact ⟨request.headers.name_of_mem _ hmem, request.headers.text_of_mem _ hmem value rfl⟩
  | body keys => exact ⟨trivial, trivial⟩

theorem compatible_of_read {slot slot' : HttpSlot} {request : Incoming crate} {v w : String}
    (h : slot.read request = some v) (h' : slot'.read request = some w) :
    slot.Compatible slot' := by
  cases slot with
  | body keys => cases slot' with
    | body keys' => exact Json.eq_of_prefix h h'
    | _ => exact trivial
  | _ => exact trivial

def queryKey : HttpSlot → Option String
  | .query key => some key
  | _ => none

def headerName : HttpSlot → Option String
  | .header name => some name
  | _ => none

def bodyKeys : HttpSlot → Option (List String)
  | .body keys => some keys
  | _ => none

theorem mem_queryKeys {slots : List HttpSlot} {key : String} :
    key ∈ slots.filterMap queryKey ↔ .query key ∈ slots :=
  Readings.mem_filterMap_mk fun slot key => by cases slot <;> simp [queryKey]

theorem mem_headerNames {slots : List HttpSlot} {name : String} :
    name ∈ slots.filterMap headerName ↔ .header name ∈ slots :=
  Readings.mem_filterMap_mk fun slot name => by cases slot <;> simp [headerName]

theorem mem_bodyKeys {slots : List HttpSlot} {keys : List String} :
    keys ∈ slots.filterMap bodyKeys ↔ .body keys ∈ slots :=
  Readings.mem_filterMap_mk fun slot keys => by cases slot <;> simp [bodyKeys]

/-- The headers with these names and values. -/
def headersOf (names : List String) (value : String → String)
    (h : ∀ name ∈ names, (∃ s, crate.headerName s = some name) ∧ crate.isText (value name) = true) :
    HeaderMap crate where
  entries := names.map fun name => (name, some (value name))
  name_of_mem entry hentry := by
    obtain ⟨name, hname, rfl⟩ := List.mem_map.mp hentry
    exact (h name hname).1
  text_of_mem entry hentry v hv := by
    obtain ⟨name, hname, rfl⟩ := List.mem_map.mp hentry
    cases hv
    exact (h name hname).2

/-- **A request for any values** that the slots can take. -/
theorem exists_request (slots : List HttpSlot) (value : HttpSlot → String)
    (hcompatible : ∀ s ∈ slots, ∀ t ∈ slots, s.Compatible t)
    (hvalue : ∀ s ∈ slots, s.WellFormed crate ∧ s.Takes crate (value s)) :
    ∃ request : Incoming crate, ∀ s ∈ slots, s.read request = some (value s) := by
  obtain ⟨body, hbody⟩ := Json.exists_readAt (slots.filterMap bodyKeys)
    (fun keys => value (.body keys)) fun s hs t ht =>
      hcompatible _ (mem_bodyKeys.mp hs) _ (mem_bodyKeys.mp ht)
  let keys := slots.filterMap queryKey
  let pairs := keys.map fun key => (key, value (.query key))
  have hpairs : ∀ pair ∈ pairs,
      '&' ∉ pair.1.toList ∧ '=' ∉ pair.1.toList ∧ '&' ∉ pair.2.toList := by
    intro pair hpair
    obtain ⟨key, hkey, rfl⟩ := List.mem_map.mp hpair
    have h := hvalue _ (mem_queryKeys.mp hkey)
    exact ⟨h.1.1, h.1.2, h.2⟩
  -- a path that no filter reads may be empty
  let path := if .path ∈ slots then (value .path).toList else []
  have hpath : '?' ∉ path := by
    by_cases h : HttpSlot.path ∈ slots
    · have htakes : '?' ∉ (value .path).toList := (hvalue _ h).2
      simpa [path, h] using htakes
    · simp [path, h]
  have hnames : ∀ name ∈ slots.filterMap headerName,
      (∃ s, crate.headerName s = some name) ∧ crate.isText (value (.header name)) = true :=
    fun name hname => hvalue _ (mem_headerNames.mp hname)
  refine ⟨⟨value .method, String.ofList (path ++ '?' :: queryText pairs),
    headersOf (slots.filterMap headerName) (fun name => value (.header name)) hnames, body⟩,
    fun slot hslot => ?_⟩
  cases slot with
  | method => rfl
  | path =>
    simp only [read, splitPathQuery_append hpath]
    simp [path, hslot]
  | query key =>
    have hkey : key ∈ keys := mem_queryKeys.mpr hslot
    have hne : pairs ≠ [] := by
      simpa [pairs] using List.ne_nil_of_mem hkey
    simp only [read, splitPathQuery_append hpath, queryValue_queryText hne hpairs]
    exact lookup_map_of_mem (fun key => value (.query key)) hkey
  | header name =>
    have hname := mem_headerNames.mpr hslot
    have hlookup := lookup_map_of_mem (fun name => some (value (.header name))) hname
    simp only [read, headersOf, hlookup, Option.bind_some, id]
  | body keys => exact hbody keys (mem_bodyKeys.mpr hslot)

end HttpSlot

def readings (crate : HttpCrate) : Readings (Incoming crate) HttpSlot String where
  read := HttpSlot.read
  Range s v := s.WellFormed crate ∧ s.Takes crate v
  Compatible := HttpSlot.Compatible
  range_of_read := HttpSlot.takes_of_read
  compatible_of_read := HttpSlot.compatible_of_read
  compatible_self s := by
    cases s with
    | body keys => exact fun _ => rfl
    | _ => exact trivial
  exists_input := HttpSlot.exists_request

/-! ## Conditions -/

section Conditions

variable (crate : HttpCrate)

/-- The slot a condition reads. -/
def slotOf (condition : FilterCondition) : Option HttpSlot :=
  if condition.field = "http.method" then some .method
  else if condition.field = "http.path" then some .path
  else if condition.field = "http.body" then some (.body (FluidBG.bodyKeys condition.jsonPath))
  else if (stripStart "http.header." condition.field).isSome then
    ((stripStart "http.header." condition.field).bind crate.headerName).map .header
  else (stripStart "http.query." condition.field).map .query

variable {crate}

/-- **A condition reads its slot**, and nothing else. -/
theorem resolveHttpField_eq (request : Incoming crate) (c : FilterCondition) :
    resolveHttpField request.method request.path request.body request.headers.get c =
      (readings crate).value (slotOf crate) c request := by
  unfold resolveHttpField Readings.value slotOf
  by_cases hmethod : c.field = "http.method"
  · simp [hmethod, readings, HttpSlot.read]
  by_cases hpath : c.field = "http.path"
  · simp [hpath, readings, HttpSlot.read]
  by_cases hbody : c.field = "http.body"
  · cases hjson : c.jsonPath with
    | none => simp [hbody, readings, HttpSlot.read, FluidBG.bodyKeys, Json.readAt]
    | some path => simp [hbody, readings, HttpSlot.read, FluidBG.bodyKeys, extractJsonPath_eq]
  rw [if_neg hmethod, if_neg hpath, if_neg hbody, if_neg hmethod, if_neg hpath, if_neg hbody]
  cases hheader : stripStart "http.header." c.field with
  | some key =>
    cases hname : crate.headerName key with
    | none => simp [HeaderMap.get, hname]
    | some name => simp [HeaderMap.get, hname, readings, HttpSlot.read]
  | none =>
    cases hquery : stripStart "http.query." c.field with
    | none => simp
    | some key => simp [readings, HttpSlot.read]

/-- A condition can have a value: it has a slot, and one that can be filled. -/
def ConditionReads (crate : HttpCrate) (c : FilterCondition) : Prop :=
  ∃ slot, slotOf crate c = some slot ∧ slot.WellFormed crate

theorem HttpSlot.takes_empty (slot : HttpSlot) : slot.Takes crate "" := by
  cases slot with
  | method => exact trivial
  | path => exact List.not_mem_nil
  | query key => exact List.not_mem_nil
  | header name => exact crate.isText_empty
  | body keys => exact trivial

theorem conditionReads_iff {c : FilterCondition} :
    (∃ (method path : String) (headers : HeaderMap crate) (body : Json),
      (resolveHttpField method path body headers.get c).isSome) ↔ ConditionReads crate c := by
  have hvalue : (∃ (method path : String) (headers : HeaderMap crate) (body : Json),
      (resolveHttpField method path body headers.get c).isSome) ↔
      ∃ request v, (readings crate).value (slotOf crate) c request = some v := by
    constructor
    · intro h
      obtain ⟨method, path, headers, body, h⟩ := h
      obtain ⟨v, hv⟩ := Option.isSome_iff_exists.mp h
      exact ⟨⟨method, path, headers, body⟩, v, by rw [← resolveHttpField_eq, hv]⟩
    · intro h
      obtain ⟨request, v, hv⟩ := h
      refine ⟨request.method, request.path, request.headers, request.body, ?_⟩
      rw [resolveHttpField_eq, hv]
      rfl
  rw [hvalue, Readings.exists_value_iff]
  constructor
  · intro h
    obtain ⟨slot, hslot, _, hwell, _⟩ := h
    exact ⟨slot, hslot, hwell⟩
  · intro h
    obtain ⟨slot, hslot, hwell⟩ := h
    exact ⟨slot, hslot, "", hwell, slot.takes_empty⟩

end Conditions

/-! ## Test ids -/

section Selectors

variable {crate : HttpCrate}

theorem splitOn_segments (n : Nat) :
    ((List.replicate n ['/', 'a']).flatten).splitOn '/' = [] :: List.replicate n ['a'] := by
  induction n with
  | zero => rfl
  | succ n ih =>
    have hslash : (('/' : Char) == '/') = true := rfl
    have ha : (('a' : Char) == '/') = false := rfl
    simp only [List.replicate_succ, List.flatten_cons, List.cons_append, List.nil_append,
      List.splitOn_cons_eq_if_modifyHead, hslash, ha, if_true, Bool.false_eq_true, if_false, ih,
      List.modifyHead_cons]

/-- A path has a segment at every index. -/
theorem exists_segment (index : Nat) : ∃ path : List Char, '?' ∉ path ∧
    ((path.splitOn '/').filter (· ≠ []))[index]? = some ['a'] := by
  refine ⟨(List.replicate (index + 1) ['/', 'a']).flatten, ?_, ?_⟩
  · intro h
    obtain ⟨part, hpart, hmem⟩ := List.mem_flatten.mp h
    rw [(List.mem_replicate.mp hpart).2] at hmem
    simp at hmem
  · rw [splitOn_segments]
    simp

/-- A test id can be read: it is given, or its field is the body, the path, a segment of it that is
counted from one, or a header. The least `i32` counts as the greatest. -/
def SelectorReads (crate : HttpCrate) (selector : TestIdSelector) : Prop :=
  selector.value.isSome ∨ selector.field = some "http.body" ∨
    (selector.field = some "http.path" ∧
      ∀ segment ∈ selector.pathSegment, 1 ≤ segment ∨ segment = -2147483648) ∨
    ∃ field ∈ selector.field, ∃ key ∈ stripStart "http.header." field, (crate.headerName key).isSome

theorem segmentIndex_isSome {segment : Int} :
    (segmentIndex segment).isSome ↔ 1 ≤ segment ∨ segment = -2147483648 := by
  unfold segmentIndex
  split
  · rename_i h
    simp [h]
  · rename_i h
    split
    · rename_i h'
      simp [h']
    · rename_i h'
      simp [h, h']

theorem exists_pathSegment {segment : Int} (h : 1 ≤ segment ∨ segment = -2147483648) :
    ∃ path : List Char, '?' ∉ path ∧ (pathSegment (String.ofList path) segment).isSome := by
  obtain ⟨index, hindex⟩ := Option.isSome_iff_exists.mp (segmentIndex_isSome.mpr h)
  obtain ⟨path, hpath, hsegment⟩ := exists_segment index
  refine ⟨path, hpath, ?_⟩
  simp only [pathSegment, hindex, Option.bind_some, String.toList_ofList, hsegment]
  rfl

/-- The headers with one of them. -/
def oneHeader {key name : String} (h : crate.headerName key = some name) : HeaderMap crate :=
  HttpSlot.headersOf [name] (fun _ => "") fun _ hname => by
    rw [List.mem_singleton.mp hname]
    exact ⟨⟨key, h⟩, crate.isText_empty⟩

theorem get_oneHeader {key name : String} (h : crate.headerName key = some name) :
    (oneHeader h).get key = some "" := by
  simp [HeaderMap.get, oneHeader, HttpSlot.headersOf, h]

/-- No headers at all. -/
def noHeaders : HeaderMap crate where
  entries := []
  name_of_mem _ h := absurd h List.not_mem_nil
  text_of_mem _ h := absurd h List.not_mem_nil

theorem selectorReads_of_isSome {selector : TestIdSelector} {body : Json} {path : String}
    {headers : HeaderMap crate} (h : (extractTestId selector body path headers).isSome) :
    SelectorReads crate selector := by
  unfold extractTestId extractHttpTestId at h
  cases hvalue : selector.value with
  | some value => exact .inl (by rw [hvalue]; rfl)
  | none =>
    rw [hvalue] at h
    cases hfield : selector.field with
    | none => simp [hfield] at h
    | some field =>
      simp only [hfield, Option.bind_some] at h
      by_cases hbody : field = "http.body"
      · exact .inr (.inl (by rw [hfield, hbody]))
      by_cases hpath : field = "http.path"
      · refine .inr (.inr (.inl ⟨by rw [hfield, hpath], fun segment hsegment => ?_⟩))
        rw [if_neg hbody, if_pos hpath, hsegment] at h
        simp only [pathSegment] at h
        obtain ⟨v, hv⟩ := Option.isSome_iff_exists.mp h
        obtain ⟨index, hindex, _⟩ := Option.bind_eq_some_iff.mp hv
        exact segmentIndex_isSome.mp (by rw [hindex]; rfl)
      · rw [if_neg hbody, if_neg hpath] at h
        obtain ⟨v, hv⟩ := Option.isSome_iff_exists.mp h
        obtain ⟨key, hkey, hget⟩ := Option.bind_eq_some_iff.mp hv
        obtain ⟨name, hname, _⟩ := Option.bind_eq_some_iff.mp hget
        exact .inr (.inr (.inr ⟨field, hfield, key, hkey, by rw [hname]; rfl⟩))

section Readable

variable {selector : TestIdSelector} (hvalue : selector.value = none)

include hvalue

variable (crate) in
theorem exists_testId_body (h : selector.field = some "http.body") :
    ∃ body, ∀ (path : String) (headers : HeaderMap crate),
      (extractTestId selector body path headers).isSome := by
  obtain ⟨body, hread⟩ := Json.exists_readAt_one (FluidBG.bodyKeys selector.jsonPath)
  refine ⟨body, fun path headers => ?_⟩
  cases hjson : selector.jsonPath with
  | none =>
    rw [hjson] at hread
    simp [extractTestId, extractHttpTestId, hvalue, h, hjson, asStr_eq, hread]
  | some path =>
    rw [hjson] at hread
    simp [extractTestId, extractHttpTestId, hvalue, h, hjson, extractJsonPath_eq_bodyKeys, hread]

variable (crate) in
theorem exists_testId_path (h : selector.field = some "http.path")
    (hsegment : ∀ segment ∈ selector.pathSegment, 1 ≤ segment ∨ segment = -2147483648) :
    ∃ path, ∀ (body : Json) (headers : HeaderMap crate),
      (extractTestId selector body path headers).isSome := by
  cases hpart : selector.pathSegment with
  | none =>
    refine ⟨"", fun body headers => ?_⟩
    simp [extractTestId, extractHttpTestId, hvalue, h, hpart]
  | some segment =>
    obtain ⟨path, hquestion, hread⟩ := exists_pathSegment (hsegment segment hpart)
    refine ⟨String.ofList (path ++ '?' :: []), fun body headers => ?_⟩
    simp only [extractTestId, extractHttpTestId, hvalue, h, hpart, Option.bind_some,
      splitPathQuery_append hquestion]
    exact hread

theorem exists_testId_header {field key : String} (h : selector.field = some field)
    (hkey : stripStart "http.header." field = some key) (hname : (crate.headerName key).isSome) :
    ∃ headers : HeaderMap crate, ∀ (body : Json) (path : String),
      (extractTestId selector body path headers).isSome := by
  obtain ⟨name, hname⟩ := Option.isSome_iff_exists.mp hname
  refine ⟨oneHeader hname, fun body path => ?_⟩
  have hbody : field ≠ "http.body" := by
    intro heq
    have hstrip : stripStart "http.header." "http.body" = none := by decide
    rw [heq, hstrip] at hkey
    simp at hkey
  have hpath : field ≠ "http.path" := by
    intro heq
    have hstrip : stripStart "http.header." "http.path" = none := by decide
    rw [heq, hstrip] at hkey
    simp at hkey
  simp only [extractTestId, extractHttpTestId, hvalue, h, Option.bind_some, if_neg hbody,
    if_neg hpath, hkey, get_oneHeader hname]
  rfl

end Readable

theorem selectorReads_iff {selector : TestIdSelector} :
    (∃ (body : Json) (path : String) (headers : HeaderMap crate),
      (extractTestId selector body path headers).isSome) ↔ SelectorReads crate selector := by
  constructor
  · intro h
    obtain ⟨body, path, headers, h⟩ := h
    exact selectorReads_of_isSome h
  · intro h
    cases hvalue : selector.value with
    | some value =>
      exact ⟨.null, "", noHeaders, by simp [extractTestId, extractHttpTestId, hvalue]⟩
    | none =>
      rcases h with h | hbody | ⟨hpath, hsegment⟩ | ⟨field, hfield, key, hkey, hname⟩
      · simp [hvalue] at h
      · obtain ⟨body, hread⟩ := exists_testId_body crate hvalue hbody
        exact ⟨body, "", noHeaders, hread "" noHeaders⟩
      · obtain ⟨path, hread⟩ := exists_testId_path crate hvalue hpath hsegment
        exact ⟨.null, path, noHeaders, hread .null noHeaders⟩
      · obtain ⟨headers, hread⟩ := exists_testId_header hvalue hfield hkey hname
        exact ⟨.null, "", headers, hread .null ""⟩

end Selectors

/-! ## Filters -/

/-- The conditions that a request has to meet together: those of the root, with those of one of the
other filters, if there are any. -/
def Config.alternatives (config : Config) : List (List FilterCondition) :=
  if config.allFilters = [] then [config.conditions]
  else config.allFilters.map fun filter => config.conditions ++ filter.conditions

section Matched

variable {crate : HttpCrate} {isMatch : String → String → Option Bool} {config : Config}
  {method path : String} {headers : HeaderMap crate} {body : Json}

theorem matchesFilter_append {conditions conditions' : List FilterCondition} :
    matchesFilter isMatch (conditions ++ conditions') method path headers body =
      (matchesFilter isMatch conditions method path headers body &&
        matchesFilter isMatch conditions' method path headers body) :=
  List.all_append

theorem matched_iff : matched isMatch config method path headers body = true ↔
    ∃ conditions ∈ config.alternatives,
      matchesFilter isMatch conditions method path headers body = true := by
  unfold matched matchingFilter hasAnyFilters Config.alternatives
  by_cases hnone : config.allFilters = []
  · simp [hnone]
  · have hany : (!decide (config.allFilters ≠ [])) = false := by simp [hnone]
    rw [if_neg hnone, hany, Bool.false_or, Bool.and_eq_true, List.find?_isSome]
    constructor
    · intro h
      obtain ⟨hroot, filter, hfilter, hmatches⟩ := h
      refine ⟨_, List.mem_map_of_mem hfilter, ?_⟩
      rw [matchesFilter_append, hroot, hmatches, Bool.and_self]
    · intro h
      obtain ⟨conditions, hmem, hmatches⟩ := h
      obtain ⟨filter, hfilter, rfl⟩ := List.mem_map.mp hmem
      rw [matchesFilter_append, Bool.and_eq_true] at hmatches
      exact ⟨hmatches.1, filter, hfilter, hmatches.2⟩

theorem exists_matched_iff :
    (∃ (method path : String) (headers : HeaderMap crate) (body : Json),
      matched isMatch config method path headers body = true) ↔
    ∃ conditions ∈ config.alternatives,
      (readings crate).Satisfiable (slotOf crate) (FilterCondition.accepts isMatch) conditions := by
  simp only [matched_iff, ← exists_match_iff]
  constructor
  · intro h
    obtain ⟨method, path, headers, body, conditions, hmem, h⟩ := h
    refine ⟨conditions, hmem, ⟨method, path, headers, body⟩, ?_⟩
    simp only [← resolveHttpField_eq]
    exact h
  · intro h
    obtain ⟨conditions, hmem, request, h⟩ := h
    simp only [← resolveHttpField_eq] at h
    exact ⟨request.method, request.path, request.headers, request.body, conditions, hmem, h⟩

end Matched

end Http

end FluidBG
