import FluidBG.Plugins.BusClient
import FluidBG.Proof.NameParts
/-!
# What is forwarded of a message

The REST API of Service Bus carries a custom property as a header, a string in double quotes and a
number without them, and the broker properties as one header with a JSON text. An inceptor that moves
a message reads these headers with the properties of HTTP (names in lower case, values of visible
characters), takes the quotes off, leaves out the headers it knows, and sends the others again.
-/

set_option autoImplicit false

namespace FluidBG.ServiceBus

open Lib

/-! ## The API -/

/-- The text of a number. -/
structure Numeral where
  text : String
  numeral : text ≠ "" ∧ ∀ c ∈ text.toList, c ∈ "0123456789+-.eE".toList

inductive PropertyValue where
  | text (value : String)
  | number (value : Numeral)

/-- The header of a property. -/
def PropertyValue.header : PropertyValue → List UInt8
  | .text value => asBytes (String.ofList (quote :: (value.toList ++ [quote])))
  | .number value => asBytes value.text

/-- A message in a queue; the broker properties are the text of their object. -/
structure BusMessage where
  body : List Nat
  properties : OrdMap String PropertyValue
  brokerProperties : Option (List UInt8)

/-- The other headers of a response with a locked message, with their names in lower case. -/
structure Transport where
  location : List UInt8
  others : List Header
  visible : (toStr location).isSome
  named : ∀ h ∈ others, headerName h.1 = some h.1 ∧ isHeaderValue h.2 ∧ h.1 ≠ "brokerproperties"

/-- A header that comes in, which is an error of the connection where it is not one. -/
def receivedHeader (header : String × List UInt8) : Option Header :=
  (headerName header.1).bind fun name =>
    if isHeaderValue header.2 then some (name, header.2) else none

/-- The headers of the response with a message. -/
def Transport.response (transport : Transport) (message : BusMessage) : Option (List Header) := do
  let broker ← (message.brokerProperties.map (Prod.mk "BrokerProperties")).toList.mapM receivedHeader
  let properties ← (message.properties.entries.map fun e => (e.1, e.2.header)).mapM receivedHeader
  some (("location", transport.location) :: (transport.others ++ (broker ++ properties)))

/-- `receive_peek_lock` and then `forward_message`: the request to the target queue. -/
def forwarded (lib : BusCrates) (transport : Transport) (message : BusMessage) :
    Option SendRequest :=
  (transport.response message).bind fun headers =>
    (LockedMessage.ofResponse lib headers message.body).bind (forwardMessage lib)

/-- The request stores the message again: its body, the headers of its properties and no others, and
the broker properties that can be sent. -/
structure Preserves (lib : BusCrates) (message : BusMessage) (request : SendRequest) : Prop where
  body : request.body = message.body
  properties : ∀ header, header ∈ request.headers ↔
    ∃ e ∈ message.properties.entries, header = (e.1, e.2.header)
  brokerProperties : sendableBrokerProperties (request.brokerProperties.bind lib.parseJson) =
    sendableBrokerProperties (message.brokerProperties.bind lib.parseJson)

/-! ## Visible text -/

def visibleChar (c : Char) : Prop := 32 ≤ c.toNat ∧ c.toNat < 127 ∨ c.toNat = 9

/-- A visible character is one byte. -/
theorem encode_visible {c : Char} (h : visibleChar c) :
    String.utf8EncodeChar c = [UInt8.ofNat c.toNat] := by
  have hlt : c.toNat < 128 := by
    rcases h with h | h <;> omega
  have hsize : c.utf8Size = 1 := by
    rw [Char.utf8Size_eq_one_iff, UInt32.le_iff_toNat_le]
    exact Nat.le_of_lt_succ hlt
  rw [String.utf8EncodeChar_eq_singleton hsize]
  rfl

theorem asBytes_visible {s : String} (h : ∀ c ∈ s.toList, visibleChar c) :
    asBytes s = s.toList.map fun c => UInt8.ofNat c.toNat := by
  rw [← String.ofList_toList (s := s), asBytes_ofList, String.toList_ofList, List.map_eq_flatMap]
  apply List.flatMap_congr
  intro c hc
  exact encode_visible (h c hc)

theorem toNat_ofNat_visible {c : Char} (h : visibleChar c) :
    (UInt8.ofNat c.toNat).toNat = c.toNat := by
  have hlt : c.toNat < 128 := by
    rcases h with h | h <;> omega
  rw [UInt8.toNat_ofNat', Nat.mod_eq_of_lt (by omega)]

/-- **What is read of a value** is its text, where all of it is visible. -/
theorem toStr_eq_some_iff {value : List UInt8} {s : String} :
    toStr value = some s ↔ (∀ c ∈ s.toList, visibleChar c) ∧ value = asBytes s := by
  unfold toStr
  constructor
  · intro h
    split at h
    · rename_i hall
      obtain rfl := Option.some.inj h
      have hnat : ∀ byte ∈ value, (Char.ofNat byte.toNat).toNat = byte.toNat := by
        intro byte _
        have hlt := byte.toNat_lt
        rw [Char.ofNat, dif_pos (.inl (by omega))]
        rfl
      have hvisible : ∀ c ∈ (String.ofList (value.map fun byte => Char.ofNat byte.toNat)).toList,
          visibleChar c := by
        intro c hc
        rw [String.toList_ofList, List.mem_map] at hc
        obtain ⟨byte, hbyte, rfl⟩ := hc
        have hok := List.all_eq_true.mp hall byte hbyte
        rw [visibleChar, hnat byte hbyte]
        simpa [UInt8.le_iff_toNat_le, UInt8.lt_iff_toNat_lt, ← UInt8.toNat_inj] using hok
      refine ⟨hvisible, ?_⟩
      rw [asBytes_visible hvisible, String.toList_ofList, List.map_map]
      conv_lhs => rw [← List.map_id value]
      apply List.map_congr_left
      intro byte hbyte
      rw [Function.comp_apply, hnat byte hbyte, UInt8.ofNat_toNat]
      rfl
    · cases h
  · rintro ⟨hvisible, rfl⟩
    rw [asBytes_visible hvisible, if_pos, List.map_map]
    · conv_rhs => rw [← String.ofList_toList (s := s), ← List.map_id s.toList]
      refine congrArg (fun cs => some (String.ofList cs)) (List.map_congr_left fun c hc => ?_)
      rw [Function.comp_apply, toNat_ofNat_visible (hvisible c hc), Char.ofNat_toNat]
      rfl
    · rw [List.all_eq_true]
      intro byte hbyte
      obtain ⟨c, hc, rfl⟩ := List.mem_map.mp hbyte
      have hok := hvisible c hc
      rw [visibleChar, ← toNat_ofNat_visible hok] at hok
      simpa [UInt8.le_iff_toNat_le, UInt8.lt_iff_toNat_lt, ← UInt8.toNat_inj] using hok

/-- What is visible can be sent. -/
theorem isHeaderValue_visible {s : String} (h : ∀ c ∈ s.toList, visibleChar c) :
    isHeaderValue (asBytes s) := by
  unfold isHeaderValue
  rw [asBytes_visible h, List.all_eq_true]
  intro byte hbyte
  obtain ⟨c, hc, rfl⟩ := List.mem_map.mp hbyte
  have hok := h c hc
  rw [visibleChar, ← toNat_ofNat_visible hok] at hok
  have hsent : 32 ≤ (UInt8.ofNat c.toNat).toNat ∧ (UInt8.ofNat c.toNat).toNat ≠ 127 ∨
      (UInt8.ofNat c.toNat).toNat = 9 := by omega
  simpa [UInt8.le_iff_toNat_le, ← UInt8.toNat_inj] using hsent

theorem mem_trimQuotes {s : String} {c : Char} (h : c ∈ (trimQuotes s).toList) : c ∈ s.toList := by
  unfold trimQuotes at h
  rw [String.toList_ofList, List.mem_reverse] at h
  have hmem := (List.dropWhile_sublist _).subset h
  exact (List.dropWhile_sublist _).subset (List.mem_reverse.mp hmem)

/-- Trimmed text does not begin with a quote. -/
theorem head_trimQuotes (s : String) : (trimQuotes s).toList.head? ≠ some quote := by
  unfold trimQuotes
  rw [String.toList_ofList]
  intro h
  have hpre : ((s.toList.dropWhile (· = quote)).reverse.dropWhile (· = quote)).reverse <+:
      s.toList.dropWhile (· = quote) := by
    rw [← List.reverse_suffix, List.reverse_reverse]
    exact List.dropWhile_suffix _
  obtain ⟨rest, hrest⟩ := hpre
  have hnot := List.head?_dropWhile_not (fun c => decide (c = quote)) s.toList
  rw [← hrest, List.head?_append, h] at hnot
  simp at hnot

theorem asBytes_inj {a b : String} (h : asBytes a = asBytes b) : a = b :=
  String.toByteArray_inj.mp (ByteArray.ext (Array.toList_inj.mp h))

/-- A number is visible, and nothing is trimmed of it. -/
theorem Numeral.visible (n : Numeral) :
    (∀ c ∈ n.text.toList, visibleChar c) ∧ quote ∉ n.text.toList := by
  have hall : "0123456789+-.eE".toList.all fun c =>
      decide ((32 ≤ c.toNat ∧ c.toNat < 127 ∨ c.toNat = 9) ∧ quote ≠ c) := by decide
  have hchars : ∀ c ∈ "0123456789+-.eE".toList,
      (32 ≤ c.toNat ∧ c.toNat < 127 ∨ c.toNat = 9) ∧ quote ≠ c :=
    fun c hc => of_decide_eq_true (List.all_eq_true.mp hall c hc)
  refine ⟨fun c hc => (hchars c (n.numeral.2 c hc)).1, fun hquote => ?_⟩
  exact (hchars quote (n.numeral.2 quote hquote)).2 rfl

/-- Nothing is trimmed of a text without quotes. -/
theorem trimQuotes_eq {s : String} (h : quote ∉ s.toList) : trimQuotes s = s := by
  have hkeep : ∀ cs : List Char, quote ∉ cs → cs.dropWhile (· = quote) = cs := by
    intro cs hcs
    cases cs with
    | nil => rfl
    | cons c cs =>
      apply List.dropWhile_cons_of_neg
      intro hc
      exact hcs (of_decide_eq_true hc ▸ List.mem_cons_self)
  unfold trimQuotes
  rw [hkeep _ h, hkeep _ (fun hmem => h (List.mem_reverse.mp hmem)), List.reverse_reverse,
    String.ofList_toList]

/-! ## Names -/

def toLowerTokenAscii : PLift (∀ n < 128, isTokenChar (Char.ofNat n) →
      isTokenChar (Char.ofNat n).toLower ∧
        (Char.ofNat n).toLower.toLower = (Char.ofNat n).toLower) :=
  ⟨by decide +kernel⟩

theorem toLower_token {c : Char} (h : isTokenChar c) :
    isTokenChar c.toLower ∧ c.toLower.toLower = c.toLower := by
  have hascii := toLowerTokenAscii.down
  have hlt : c.toNat < 128 := by
    have hall : "!#$%&*+-.^_|~".toList.all fun d => decide (d.toNat < 128) := by decide
    have hothers : ∀ d ∈ "!#$%&*+-.^_|~".toList, d.toNat < 128 :=
      fun d hd => of_decide_eq_true (List.all_eq_true.mp hall d hd)
    unfold isTokenChar at h
    simp only [Bool.or_eq_true, decide_eq_true_eq, List.contains_iff_mem] at h
    rcases h with ((h | h) | h) | h
    · rw [isAlphanum_iff, isUpper_iff, isLower_iff, isDigit_iff] at h
      omega
    · exact hothers c h
    · omega
    · omega
  have hc := hascii c.toNat hlt
  rw [Char.ofNat_toNat] at hc
  exact hc h

/-- A name in lower case stays as it is. -/
theorem headerName_headerName {name lower : String} (h : headerName name = some lower) :
    headerName lower = some lower := by
  unfold headerName at h
  split at h
  · rename_i hname
    obtain rfl := Option.some.inj h
    have htoken := List.all_eq_true.mp hname.2
    unfold headerName
    rw [if_pos]
    · rw [String.toList_ofList, List.map_map, Option.some.injEq]
      refine congrArg String.ofList (List.map_congr_left fun c hc => ?_)
      exact (toLower_token (htoken c hc)).2
    · refine ⟨fun hempty => hname.1 ?_, List.all_eq_true.mpr fun c hc => ?_⟩
      · have hlist := congrArg String.toList hempty
        rw [String.toList_ofList, String.toList_empty, List.map_eq_nil_iff] at hlist
        exact String.toList_eq_nil_iff.mp hlist
      · rw [String.toList_ofList] at hc
        obtain ⟨d, hd, rfl⟩ := List.mem_map.mp hc
        exact (toLower_token (htoken d hd)).1
  · cases h

/-! ## The properties that are read -/

/-- What a header adds to the properties under this name. -/
def readAs (name : String) (header : Header) : Option String :=
  if header.1 = name ∧ isStandardHeader name = false then (toStr header.2).map trimQuotes else none

/-- **The properties of a message** are those of its last readable headers. -/
theorem get_customProperties (headers : List Header) (name : String) :
    (customProperties headers).get name = headers.reverse.findSome? (readAs name) := by
  unfold customProperties
  induction headers using List.reverseRecOn with
  | nil => rfl
  | append_singleton headers header ih =>
    rw [List.foldl_append, List.foldl_cons, List.foldl_nil, List.reverse_append,
      List.reverse_singleton, List.singleton_append, List.findSome?_cons, ← ih]
    by_cases hstandard : isStandardHeader header.1
    · have hnone : readAs name header = none := by
        apply if_neg
        rintro ⟨rfl, hnot⟩
        rw [hstandard] at hnot
        cases hnot
      rw [if_pos hstandard, hnone]
    · rw [if_neg hstandard]
      cases hvalue : toStr header.2 with
      | none =>
        have hnone : readAs name header = none := by
          rw [readAs, hvalue, Option.map_none, ite_self]
        rw [hnone]
      | some value =>
        by_cases hname : header.1 = name
        · have hsome : readAs name header = some (trimQuotes value) := by
            rw [readAs, hvalue, if_pos ⟨hname, by rw [← hname]; simpa using hstandard⟩]
            rfl
          rw [hsome]
          simp [hname]
        · have hnone : readAs name header = none := if_neg fun h => hname h.1
          rw [hnone]
          simp [OrdMap.get_insert, hname]

/-! ## The broker properties that can be sent -/

/-- What is taken of a field: a value, unless it is null. -/
def sendableField (input : List (String × Json)) (key : String) : Option Json :=
  (input.lookup key).filter fun value => !value.isNull

theorem sendableFields_eq (input : List (String × Json)) : sendableFields input =
    sendableNames.foldl (fun out key => (sendableField input key).elim out fun value =>
      Json.insertField key value out) [] := by
  unfold sendableFields sendableField
  apply List.foldl_ext
  intro out key _
  cases input.lookup key with
  | none => rfl
  | some value => cases value <;> rfl

theorem lookup_sendableFields (input : List (String × Json)) {key : String}
    (hkey : key ∈ sendableNames) :
    (sendableFields input).lookup key = sendableField input key := by
  have hfold : ∀ (names : List String) (out : List (String × Json)),
      (names.foldl (fun out key => (sendableField input key).elim out fun value =>
        Json.insertField key value out) out).lookup key =
      if key ∈ names then (sendableField input key).or (out.lookup key) else out.lookup key := by
    intro names
    induction names with
    | nil =>
      intro out
      rfl
    | cons name names ih =>
      intro out
      rw [List.foldl_cons, ih]
      by_cases hname : key = name
      · subst hname
        cases sendableField input key with
        | none => simp
        | some value => simp [Json.lookup_insertField]
      · cases sendableField input name with
        | none => simp [hname]
        | some value => simp [hname, Json.lookup_insertField]
  rw [sendableFields_eq, hfold, if_pos hkey, List.lookup_nil, Option.or_none]

/-- **The sendable properties** of what was sent are all of it. -/
theorem sendableBrokerProperties_idem (value : Option Json) :
    sendableBrokerProperties (sendableBrokerProperties value) = sendableBrokerProperties value := by
  have hfields : ∀ input, sendableFields (sendableFields input) = sendableFields input := by
    intro input
    rw [sendableFields_eq (sendableFields input), sendableFields_eq input]
    apply List.foldl_ext
    intro out key hkey
    rw [← sendableFields_eq, sendableField, lookup_sendableFields input hkey, sendableField,
      Option.filter_filter]
    simp only [Bool.and_self]
  cases value with
  | none => rfl
  | some value =>
    cases value with
    | obj input =>
      by_cases hempty : sendableFields input = []
      · simp [sendableBrokerProperties, hempty]
      · simp [sendableBrokerProperties, hempty, hfields]
    | _ => rfl

section Forward

variable {lib : BusCrates} {transport : Transport} {message : BusMessage}

theorem mapM_eq_some_iff {α β : Type} {f : α → Option β} :
    ∀ {l : List α} {ys : List β}, l.mapM f = some ys ↔
      (∀ a ∈ l, (f a).isSome) ∧ ys = l.filterMap f := by
  intro l
  induction l with
  | nil =>
    intro ys
    constructor
    · intro h
      cases h
      exact ⟨by simp, rfl⟩
    · intro hin
      obtain ⟨_, h⟩ := hin
      rw [h]
      rfl
  | cons a l ih =>
    intro ys
    rw [List.mapM_cons]
    simp only [Option.bind_eq_bind, Option.bind_eq_some_iff, Option.pure_def, Option.some.injEq, ih]
    constructor
    · intro hin
      obtain ⟨b, hb, bs, ⟨hall, hbs⟩, hys⟩ := hin
      refine ⟨fun c hc => ?_, by rw [List.filterMap_cons_some hb, ← hbs, hys]⟩
      rcases List.mem_cons.mp hc with rfl | hc
      · rw [hb]
        rfl
      · exact hall c hc
    · intro hin
      obtain ⟨hall, hys⟩ := hin
      obtain ⟨b, hb⟩ := Option.isSome_iff_exists.mp (hall a List.mem_cons_self)
      refine ⟨b, hb, _, ⟨fun c hc => hall c (List.mem_cons_of_mem _ hc), rfl⟩, ?_⟩
      rw [hys, List.filterMap_cons_some hb]

/-- The header of a property of the message. -/
theorem receivedHeader_eq_some_iff {name : String} {value : List UInt8} {header : Header} :
    receivedHeader (name, value) = some header ↔
      headerName name = some header.1 ∧ isHeaderValue value ∧ header.2 = value := by
  unfold receivedHeader
  rw [Option.bind_eq_some_iff]
  constructor
  · intro hin
    obtain ⟨lower, hname, h⟩ := hin
    split at h
    · rename_i hvalue
      obtain rfl := Option.some.inj h
      exact ⟨hname, hvalue, rfl⟩
    · cases h
  · intro hin
    obtain ⟨hname, hvalue, heq⟩ := hin
    refine ⟨header.1, hname, ?_⟩
    rw [if_pos hvalue, ← heq]

/-- The headers of a response, where the connection takes all of them. -/
theorem response_eq_some_iff {headers : List Header} :
    transport.response message = some headers ↔
      (∀ broker, message.brokerProperties = some broker → isHeaderValue broker) ∧
      (∀ e ∈ message.properties.entries, (headerName e.1).isSome ∧ isHeaderValue e.2.header) ∧
      headers = ("location", transport.location) :: (transport.others ++
        ((message.brokerProperties.map (Prod.mk "brokerproperties")).toList ++
          message.properties.entries.filterMap fun e => receivedHeader (e.1, e.2.header))) := by
  have hbroker : headerName "BrokerProperties" = some "brokerproperties" := by decide
  unfold Transport.response
  simp only [Option.bind_eq_bind, Option.bind_eq_some_iff, mapM_eq_some_iff, Option.some.injEq,
    List.filterMap_map, List.forall_mem_map, Function.comp_def]
  have hreceived : (∀ broker, message.brokerProperties = some broker → isHeaderValue broker) →
      ((message.brokerProperties.map (Prod.mk "BrokerProperties")).toList.filterMap
        receivedHeader) = (message.brokerProperties.map (Prod.mk "brokerproperties")).toList := by
    intro h
    cases hsome : message.brokerProperties with
    | none => rfl
    | some broker =>
      have hheader : receivedHeader ("BrokerProperties", broker) =
          some ("brokerproperties", broker) :=
        receivedHeader_eq_some_iff.mpr ⟨hbroker, h broker hsome, rfl⟩
      simp [hheader]
  have hsome : ∀ e ∈ message.properties.entries, (receivedHeader (e.1, e.2.header)).isSome ↔
      (headerName e.1).isSome ∧ isHeaderValue e.2.header := by
    intro e _
    simp only [Option.isSome_iff_exists, receivedHeader_eq_some_iff]
    constructor
    · intro hin
      obtain ⟨header, hname, hvalue, _⟩ := hin
      exact ⟨⟨_, hname⟩, hvalue⟩
    · intro hin
      obtain ⟨⟨lower, hname⟩, hvalue⟩ := hin
      exact ⟨(lower, e.2.header), hname, hvalue, rfl⟩
  constructor
  · intro hin
    obtain ⟨_, ⟨hall, rfl⟩, _, ⟨hproperties, rfl⟩, h⟩ := hin
    have hvalue : ∀ broker, message.brokerProperties = some broker → isHeaderValue broker := by
      intro broker hmem
      have hisSome := hall ("BrokerProperties", broker) (by simp [hmem])
      obtain ⟨header, hheader⟩ := Option.isSome_iff_exists.mp hisSome
      exact (receivedHeader_eq_some_iff.mp hheader).2.1
    rw [hreceived hvalue] at h
    exact ⟨hvalue, fun e he => (hsome e he).mp (hproperties e he), h.symm⟩
  · intro hin
    obtain ⟨hvalue, hproperties, h⟩ := hin
    refine ⟨_, ⟨fun header hheader => ?_, rfl⟩, _,
      ⟨fun e he => (hsome e he).mpr (hproperties e he), rfl⟩, ?_⟩
    · cases hmem : message.brokerProperties with
      | none => simp [hmem] at hheader
      | some broker =>
        rw [hmem, Option.map_some, Option.toList_some, List.mem_singleton] at hheader
        rw [hheader, receivedHeader_eq_some_iff.mpr
          (show headerName "BrokerProperties" = some ("brokerproperties", broker).1 ∧ _ ∧ _ from
            ⟨hbroker, hvalue broker hmem, rfl⟩)]
        rfl
    · rw [hreceived hvalue]
      exact h.symm

/-! ## The theorem -/

/-- A header of a response is in lower case. -/
theorem lower_of_response {headers : List Header}
    (h : transport.response message = some headers) :
    ∀ header ∈ headers, headerName header.1 = some header.1 := by
  obtain ⟨_, _, rfl⟩ := response_eq_some_iff.mp h
  intro header hmem
  have hlocation : headerName "location" = some "location" := by decide
  have hbroker : headerName "brokerproperties" = some "brokerproperties" := by decide
  rcases List.mem_cons.mp hmem with rfl | hmem
  · exact hlocation
  · rcases List.mem_append.mp hmem with hmem | hmem
    · exact (transport.named header hmem).1
    · rcases List.mem_append.mp hmem with hmem | hmem
      · obtain ⟨raw, _, rfl⟩ := Option.map_eq_some_iff.mp (Option.mem_toList.mp hmem)
        exact hbroker
      · obtain ⟨e, _, he⟩ := List.mem_filterMap.mp hmem
        exact headerName_headerName (receivedHeader_eq_some_iff.mp he).1

/-- What is read as a property. -/
theorem of_customProperties {headers : List Header} {name value : String}
    (h : (customProperties headers).get name = some value) :
    isStandardHeader name = false ∧ (∀ c ∈ value.toList, visibleChar c) ∧
      value.toList.head? ≠ some quote ∧
      ∃ header ∈ headers, header.1 = name ∧ (toStr header.2).isSome := by
  rw [get_customProperties] at h
  obtain ⟨header, hmem, hread⟩ := List.exists_of_findSome?_eq_some h
  unfold readAs at hread
  split at hread
  · rename_i hname
    obtain ⟨text, htext, rfl⟩ := Option.map_eq_some_iff.mp hread
    have hvisible := (toStr_eq_some_iff.mp htext).1
    exact ⟨hname.2, fun c hc => hvisible c (mem_trimQuotes hc), head_trimQuotes text,
      header, List.mem_reverse.mp hmem, hname.1, htext ▸ rfl⟩
  · cases hread

/-- The broker properties that are read of a response, when no property goes by their name. -/
theorem brokerPropertiesOf_response {headers : List Header}
    (h : transport.response message = some headers)
    (hnames : ∀ e ∈ message.properties.entries,
      headerName e.1 = some e.1 ∧ isStandardHeader e.1 = false) :
    brokerPropertiesOf lib headers =
      (message.brokerProperties.filter fun raw => (toStr raw).isSome).bind fun raw =>
        sendableBrokerProperties (lib.parseJson raw) := by
  have hlookup : headers.lookup "brokerproperties" = message.brokerProperties := by
    obtain ⟨_, _, rfl⟩ := response_eq_some_iff.mp h
    have hothers : transport.others.lookup "brokerproperties" = none := by
      rw [List.lookup_eq_none_iff]
      intro header hmem
      simpa using (transport.named header hmem).2.2.symm
    have hproperties : (message.properties.entries.filterMap fun e =>
        receivedHeader (e.1, e.2.header)).lookup "brokerproperties" = none := by
      rw [List.lookup_eq_none_iff]
      intro header hmem
      obtain ⟨e, he, hreceived⟩ := List.mem_filterMap.mp hmem
      have hname := (receivedHeader_eq_some_iff.mp hreceived).1
      rw [(hnames e he).1, Option.some.injEq] at hname
      rw [bne_iff_ne, ← hname]
      intro heq
      have hstandard := (hnames e he).2
      rw [← heq] at hstandard
      exact absurd hstandard (by decide)
    have hlocation : ("brokerproperties" == "location") = false := by decide
    rw [List.lookup_cons, hlocation]
    simp only [List.lookup_append, hothers, hproperties, Option.none_or, Option.or_none]
    cases message.brokerProperties with
    | none => rfl
    | some raw => simp
  unfold brokerPropertiesOf
  rw [hlookup]
  cases message.brokerProperties with
  | none => rfl
  | some raw =>
    rw [Option.filter_some]
    cases htext : toStr raw with
    | none => simp [htext]
    | some text =>
      cases hparsed : lib.parseJson raw with
      | none => simp [htext, hparsed, sendableBrokerProperties]
      | some parsed => simp [htext, hparsed]

/-- **The request** that comes of a response: all the properties that are read can be sent. -/
theorem forwarded_eq_some_iff {request : SendRequest} :
    forwarded lib transport message = some request ↔
      ∃ headers, transport.response message = some headers ∧
        request = ⟨"application/octet-stream", message.body,
          (sendableBrokerProperties (brokerPropertiesOf lib headers)).map
            fun value => asBytes (lib.jsonText value),
          (customProperties headers).entries.map fun e => (e.1, asBytes e.2)⟩ ∧
        request.brokerProperties.all isHeaderValue := by
  unfold forwarded
  rw [Option.bind_eq_some_iff]
  apply exists_congr
  intro headers
  apply and_congr_right
  intro hresponse
  have hlocation : headers.lookup "location" = some transport.location := by
    obtain ⟨_, _, rfl⟩ := response_eq_some_iff.mp hresponse
    exact List.lookup_cons_self
  obtain ⟨location, htext⟩ := Option.isSome_iff_exists.mp transport.visible
  have hentries : (customProperties headers).entries.mapM (fun entry =>
      (headerName entry.1).bind fun name =>
        if isHeaderValue (asBytes entry.2) then some (name, asBytes entry.2) else none) =
      some ((customProperties headers).entries.map fun e => (e.1, asBytes e.2)) := by
    have hsent : ∀ entry ∈ (customProperties headers).entries,
        ((headerName entry.1).bind fun name =>
          if isHeaderValue (asBytes entry.2) then some (name, asBytes entry.2) else none) =
        some (entry.1, asBytes entry.2) := by
      intro entry hentry
      obtain ⟨_, hvisible, _, header, hmem, hname, _⟩ :=
        of_customProperties (OrdMap.get_of_mem hentry)
      have hlower := lower_of_response hresponse header hmem
      rw [hname] at hlower
      rw [hlower, Option.bind_some, if_pos (isHeaderValue_visible hvisible)]
    refine mapM_eq_some_iff.mpr ⟨fun entry hentry => ?_, ?_⟩
    · rw [hsent entry hentry]
      rfl
    · rw [List.filterMap_congr hsent, List.filterMap_eq_map']
  unfold LockedMessage.ofResponse forwardMessage sendRequest
  simp only [Option.bind_eq_bind, hlocation, Option.bind_some, htext, Option.pure_def, hentries]
  constructor
  · intro hsent
    split at hsent
    · rename_i hall
      obtain rfl := Option.some.inj hsent
      exact ⟨rfl, hall⟩
    · cases hsent
  · intro hin
    obtain ⟨heq, hall⟩ := hin
    subst heq
    exact if_pos hall

/-- What is sent of the broker properties is read again from its text. -/
def BusCrates.ReadsBack (lib : BusCrates) : Prop :=
  ∀ raw value, sendableBrokerProperties (lib.parseJson raw) = some value →
    sendableBrokerProperties (lib.parseJson (asBytes (lib.jsonText value))) = some value

variable (lib transport message) in
/-- The messages that are forwarded as they are. -/
structure Forwardable : Prop where
  /-- All custom properties are numbers. -/
  numbers : ∀ e ∈ message.properties.entries, ∃ n, e.2 = .number n
  /-- Their names are those of headers in lower case that HTTP has no use for. -/
  names : ∀ e ∈ message.properties.entries, headerName e.1 = some e.1 ∧ isStandardHeader e.1 = false
  /-- The service adds no other header that could be read. -/
  others : ∀ h ∈ transport.others, isStandardHeader h.1 = false → (toStr h.2).isSome →
    ∃ e ∈ message.properties.entries, h.1 = e.1
  /-- The broker properties can be received. -/
  received : ∀ raw, message.brokerProperties = some raw → isHeaderValue raw
  /-- What is sent of them is visible, and a header again. -/
  sent : ∀ raw value, message.brokerProperties = some raw →
    sendableBrokerProperties (lib.parseJson raw) = some value →
      (toStr raw).isSome ∧ isHeaderValue (asBytes (lib.jsonText value))

/-- A header that can be read is read, or another one of its name. -/
theorem exists_of_header {headers : List Header} {header : Header} (hmem : header ∈ headers)
    (hstandard : isStandardHeader header.1 = false) (hvisible : (toStr header.2).isSome) :
    ∃ value, (customProperties headers).get header.1 = some value := by
  rw [get_customProperties, ← Option.isSome_iff_exists, List.findSome?_isSome_iff]
  refine ⟨header, List.mem_reverse.mpr hmem, ?_⟩
  rw [readAs, if_pos ⟨rfl, hstandard⟩, Option.isSome_map]
  exact hvisible

/-- A number that a message has for a property is read. -/
theorem get_number {headers : List Header} (h : transport.response message = some headers)
    {name : String} {n : Numeral} (he : (name, .number n) ∈ message.properties.entries)
    (hnames : ∀ e ∈ message.properties.entries,
      headerName e.1 = some e.1 ∧ isStandardHeader e.1 = false) :
    (customProperties headers).get name = some n.text := by
  obtain ⟨_, hreceived, rfl⟩ := response_eq_some_iff.mp h
  have hread : readAs name (name, asBytes n.text) = some n.text := by
    have htext := toStr_eq_some_iff.mpr ⟨n.visible.1, rfl⟩
    rw [readAs, if_pos ⟨rfl, (hnames _ he).2⟩, htext, Option.map_some,
      trimQuotes_eq n.visible.2]
  -- the headers of the properties come last, and there is one with the name
  have hlast : (message.properties.entries.filterMap fun e =>
      receivedHeader (e.1, e.2.header)).reverse.findSome? (readAs name) = some n.text := by
    have hsome : ((message.properties.entries.filterMap fun e =>
        receivedHeader (e.1, e.2.header)).reverse.findSome? (readAs name)).isSome := by
      rw [List.findSome?_isSome_iff]
      refine ⟨(name, asBytes n.text), List.mem_reverse.mpr (List.mem_filterMap.mpr
        ⟨_, he, receivedHeader_eq_some_iff.mpr ⟨(hnames _ he).1, (hreceived _ he).2, rfl⟩⟩), ?_⟩
      rw [hread]
      rfl
    obtain ⟨value, hvalue⟩ := Option.isSome_iff_exists.mp hsome
    obtain ⟨header, hmem, hheader⟩ := List.exists_of_findSome?_eq_some hvalue
    obtain ⟨e, he', hreceived'⟩ := List.mem_filterMap.mp (List.mem_reverse.mp hmem)
    obtain ⟨hlower, _, hvalue'⟩ := receivedHeader_eq_some_iff.mp hreceived'
    have hname : header.1 = name := by
      by_contra hne
      rw [readAs, if_neg fun hand => hne hand.1] at hheader
      cases hheader
    rw [(hnames e he').1, Option.some.injEq, hname] at hlower
    have hsame : some e.2 = some (PropertyValue.number n) := by
      rw [← OrdMap.get_of_mem he', hlower]
      exact OrdMap.get_of_mem he
    have hheaders : header = (name, asBytes n.text) := by
      refine Prod.ext hname ?_
      rw [hvalue', Option.some.inj hsame]
      rfl
    rw [hvalue, ← hread, ← hheaders, hheader]
  rw [get_customProperties, List.reverse_cons, List.reverse_append, List.reverse_append,
    List.append_assoc, List.append_assoc, List.findSome?_append, hlast, Option.some_or]

/-- **The properties of a message** are preserved where they are numbers under names in lower case
and the service sends no header that would be taken for one. -/
theorem properties_preserved_iff {headers : List Header}
    (h : transport.response message = some headers) :
    (∀ header, header ∈ (customProperties headers).entries.map (fun e => (e.1, asBytes e.2)) ↔
      ∃ e ∈ message.properties.entries, header = (e.1, e.2.header)) ↔
    (∀ e ∈ message.properties.entries, ∃ n, e.2 = .number n) ∧
    (∀ e ∈ message.properties.entries,
      headerName e.1 = some e.1 ∧ isStandardHeader e.1 = false) ∧
    ∀ h ∈ transport.others, isStandardHeader h.1 = false → (toStr h.2).isSome →
      ∃ e ∈ message.properties.entries, h.1 = e.1 := by
  constructor
  · intro hsame
    have hread : ∀ e ∈ message.properties.entries, ∃ value,
        (customProperties headers).get e.1 = some value ∧ e.2.header = asBytes value := by
      intro e he
      obtain ⟨entry, hentry, heq⟩ := List.mem_map.mp ((hsame (e.1, e.2.header)).mpr ⟨e, he, rfl⟩)
      obtain ⟨hname, hvalue⟩ := Prod.mk.inj heq
      exact ⟨entry.2, hname ▸ OrdMap.get_of_mem hentry, hvalue.symm⟩
    refine ⟨fun e he => ?_, fun e he => ?_, fun header hmem hstandard hvisible => ?_⟩
    · obtain ⟨value, hget, hheader⟩ := hread e he
      cases hkind : e.2 with
      | number n => exact ⟨n, rfl⟩
      | text v =>
        rw [hkind] at hheader
        have hquoted := asBytes_inj hheader
        have hhead := (of_customProperties hget).2.2.1
        rw [← hquoted, String.toList_ofList] at hhead
        exact absurd rfl hhead
    · obtain ⟨value, hget, _⟩ := hread e he
      obtain ⟨hstandard, _, _, header, hmem, hname, _⟩ := of_customProperties hget
      have hlower := lower_of_response h header hmem
      rw [hname] at hlower
      exact ⟨hlower, hstandard⟩
    · have hin : header ∈ headers := by
        obtain ⟨_, _, rfl⟩ := response_eq_some_iff.mp h
        exact List.mem_cons_of_mem _ (List.mem_append_left _ hmem)
      obtain ⟨value, hget⟩ := exists_of_header hin hstandard hvisible
      obtain ⟨e, he, heq⟩ := (hsame (header.1, asBytes value)).mp
        (List.mem_map.mpr ⟨_, OrdMap.mem_of_get hget, rfl⟩)
      exact ⟨e, he, (Prod.mk.inj heq).1⟩
  · intro hin header
    obtain ⟨hnumbers, hnames, hothers⟩ := hin
    rw [List.mem_map]
    constructor
    · intro hin
      obtain ⟨entry, hentry, heq⟩ := hin
      have hget := OrdMap.get_of_mem hentry
      have hkey : ∃ e ∈ message.properties.entries, entry.1 = e.1 := by
        obtain ⟨hstandard, _, _, source, hmem, hname, hvisible⟩ := of_customProperties hget
        rw [← hname] at hstandard ⊢
        obtain ⟨_, _, rfl⟩ := response_eq_some_iff.mp h
        have hlocation : isStandardHeader "location" := by decide
        have hbroker : isStandardHeader "brokerproperties" := by decide
        rcases List.mem_cons.mp hmem with rfl | hmem
        · rw [hlocation] at hstandard
          cases hstandard
        · rcases List.mem_append.mp hmem with hmem | hmem
          · exact hothers source hmem hstandard hvisible
          · rcases List.mem_append.mp hmem with hmem | hmem
            · obtain ⟨raw, _, rfl⟩ := Option.map_eq_some_iff.mp (Option.mem_toList.mp hmem)
              rw [hbroker] at hstandard
              cases hstandard
            · obtain ⟨e, he, hreceived⟩ := List.mem_filterMap.mp hmem
              have hlower := (receivedHeader_eq_some_iff.mp hreceived).1
              rw [(hnames e he).1, Option.some.injEq] at hlower
              exact ⟨e, he, hlower.symm⟩
      obtain ⟨e, he, hname⟩ := hkey
      obtain ⟨n, hn⟩ := hnumbers e he
      have hnumber := get_number h (hn ▸ he : (e.1, PropertyValue.number n) ∈ _) hnames
      rw [← hname, hget, Option.some.injEq] at hnumber
      refine ⟨e, he, ?_⟩
      rw [← heq, hnumber, hname, hn]
      rfl
    · intro hin
      obtain ⟨e, he, heq⟩ := hin
      obtain ⟨n, hn⟩ := hnumbers e he
      have hnumber := get_number h (hn ▸ he : (e.1, PropertyValue.number n) ∈ _) hnames
      exact ⟨(e.1, n.text), OrdMap.mem_of_get hnumber, by rw [heq, hn]; rfl⟩

/-- What holds of a message whose properties are preserved. -/
theorem Preserves.readable {request : SendRequest}
    (hforwarded : forwarded lib transport message = some request)
    (h : Preserves lib message request) :
    (∀ e ∈ message.properties.entries, ∃ n, e.2 = .number n) ∧
    (∀ e ∈ message.properties.entries,
      headerName e.1 = some e.1 ∧ isStandardHeader e.1 = false) ∧
    ∀ h ∈ transport.others, isStandardHeader h.1 = false → (toStr h.2).isSome →
      ∃ e ∈ message.properties.entries, h.1 = e.1 := by
  obtain ⟨headers, hresponse, rfl, _⟩ := forwarded_eq_some_iff.mp hforwarded
  exact (properties_preserved_iff hresponse).mp h.properties

/-- **Forwarding preserves a message** exactly when its properties and its headers are of a kind. -/
theorem forward_preserves_iff (hlib : lib.ReadsBack) (transport : Transport)
    (message : BusMessage) :
    (∃ request, forwarded lib transport message = some request ∧
      Preserves lib message request) ↔ Forwardable lib transport message := by
  constructor
  · intro hin
    obtain ⟨request, hforwarded, hpreserves⟩ := hin
    obtain ⟨headers, hresponse, rfl, hall⟩ := forwarded_eq_some_iff.mp hforwarded
    obtain ⟨hnumbers, hnames, hothers⟩ := hpreserves.readable hforwarded
    refine ⟨hnumbers, hnames, hothers, (response_eq_some_iff.mp hresponse).1,
      fun raw value hraw hvalue => ?_⟩
    have hbroker := hpreserves.brokerProperties
    simp only [brokerPropertiesOf_response hresponse hnames, hraw, Option.filter_some,
      Option.bind_some, hvalue] at hbroker hall
    cases hvisible : (toStr raw).isSome with
    | true =>
      rw [hvisible, if_pos rfl, Option.bind_some, hvalue, ← hvalue,
        sendableBrokerProperties_idem, hvalue] at hall
      exact ⟨rfl, hall⟩
    | false =>
      -- nothing is read of them, and nothing is sent
      rw [hvisible] at hbroker
      simp [sendableBrokerProperties] at hbroker
  · intro h
    have hnumber : ∀ e ∈ message.properties.entries,
        (headerName e.1).isSome ∧ isHeaderValue e.2.header := by
      intro e he
      obtain ⟨n, hn⟩ := h.numbers e he
      rw [hn, (h.names e he).1]
      exact ⟨rfl, isHeaderValue_visible n.visible.1⟩
    obtain ⟨headers, hresponse⟩ : ∃ headers, transport.response message = some headers :=
      ⟨_, response_eq_some_iff.mpr ⟨h.received, hnumber, rfl⟩⟩
    -- all of the broker properties that can be sent are read
    have hread : sendableBrokerProperties (brokerPropertiesOf lib headers) =
        sendableBrokerProperties (message.brokerProperties.bind lib.parseJson) := by
      rw [brokerPropertiesOf_response hresponse h.names]
      cases hraw : message.brokerProperties with
      | none => rfl
      | some raw =>
        rw [Option.filter_some, Option.bind_some]
        cases hvalue : sendableBrokerProperties (lib.parseJson raw) with
        | none =>
          split
          · rw [Option.bind_some, hvalue]
            rfl
          · rfl
        | some value =>
          rw [if_pos (h.sent raw value hraw hvalue).1, Option.bind_some, ← hvalue,
            sendableBrokerProperties_idem]
    refine ⟨_, forwarded_eq_some_iff.mpr ⟨headers, hresponse, rfl, ?_⟩, rfl,
      (properties_preserved_iff hresponse).mpr ⟨h.numbers, h.names, h.others⟩, ?_⟩
    · rw [hread]
      cases hraw : message.brokerProperties with
      | none => rfl
      | some raw =>
        rw [Option.bind_some]
        cases hvalue : sendableBrokerProperties (lib.parseJson raw) with
        | none => rfl
        | some value => exact (h.sent raw value hraw hvalue).2
    · rw [hread]
      cases hraw : message.brokerProperties with
      | none => rfl
      | some raw =>
        rw [Option.bind_some]
        cases hvalue : sendableBrokerProperties (lib.parseJson raw) with
        | none => rfl
        | some value => exact hlib raw value hvalue

end Forward

/-! ### Messages with a property -/

section Sample

/-- The text of the broker properties with the name of the message. -/
def messageIdText : String :=
  String.ofList ("\x7b~MessageId~:~order-1~\x7d".toList.map fun c => if c = '~' then quote else c)

/-- The libraries for the broker properties of one message. -/
def messageCrates : BusCrates where
  validateHttpsBaseUrl _ := true
  base64 _ := ""
  parseI64 _ := none
  tokensText _ := ""
  parseTokens _ := none
  jsonText _ := messageIdText
  parseJson text :=
    if text = asBytes messageIdText then some (.obj [("MessageId", .str "order-1")]) else none

theorem messageCrates_readsBack : messageCrates.ReadsBack := by
  intro raw value h
  have htext : raw = asBytes messageIdText := by
    by_contra hne
    simp [messageCrates, hne, sendableBrokerProperties] at h
  rw [htext] at h
  exact h

/-- A response with nothing but what is known of it. -/
def plainTransport : Transport where
  location := asBytes "https://shop.servicebus.windows.net/orders/messages/1/lock"
  others := [("content-type", asBytes "application/json")]
  visible := by decide +kernel
  named := by decide +kernel

/-- A message with one property. -/
def orderMessage (name : String) (value : PropertyValue) : BusMessage where
  body := [52, 50]
  properties := .ofList [(name, value)]
  brokerProperties := some (asBytes messageIdText)

def three : Numeral where
  text := "3"
  numeral := by
    have hall : "3".toList.all fun c => decide (c ∈ "0123456789+-.eE".toList) := by decide
    exact ⟨by decide, fun c hc => of_decide_eq_true (List.all_eq_true.mp hall c hc)⟩

def forwardPreservesAttemptValue : PLift (isHeaderValue (asBytes messageIdText)) :=
  ⟨by decide +kernel⟩

/-- The number of an attempt is preserved, with the name of its message. -/
theorem forward_preserves_attempt : ∃ request,
    forwarded messageCrates plainTransport (orderMessage "attempt" (.number three)) =
      some request ∧ Preserves messageCrates (orderMessage "attempt" (.number three)) request := by
  refine (forward_preserves_iff messageCrates_readsBack _ _).mpr
    ⟨fun e he => ?_, fun e he => ?_, fun header hmem hstandard => ?_, fun raw hraw => ?_,
      fun raw value hraw _ => ?_⟩
  · rw [List.mem_singleton.mp he]
    exact ⟨three, rfl⟩
  · rw [List.mem_singleton.mp he]
    decide +kernel
  · rw [List.mem_singleton.mp hmem] at hstandard
    exact absurd hstandard (by decide +kernel)
  · rw [← Option.some.inj hraw]
    decide +kernel
  · rw [← Option.some.inj hraw]
    have hvalue := forwardPreservesAttemptValue.down
    exact ⟨by decide +kernel, hvalue⟩

/-- A string goes without its quotes, a name in lower case, and what the service says of its
transport becomes a property. -/
theorem forward_loses_properties :
    (¬ ∃ request, forwarded messageCrates plainTransport (orderMessage "kind" (.text "order")) =
      some request ∧ Preserves messageCrates (orderMessage "kind" (.text "order")) request) ∧
    (¬ ∃ request, forwarded messageCrates plainTransport
        (orderMessage "Attempt" (.number three)) = some request ∧
      Preserves messageCrates (orderMessage "Attempt" (.number three)) request) ∧
    ∀ transport : Transport, transport.others =
        [("strict-transport-security", asBytes "max-age=31536000")] → ¬ ∃ request,
      forwarded messageCrates transport (orderMessage "attempt" (.number three)) = some request ∧
        Preserves messageCrates (orderMessage "attempt" (.number three)) request := by
  refine ⟨fun hexists => ?_, fun hexists => ?_, fun transport hothers hexists => ?_⟩
  · obtain ⟨request, hforwarded, h⟩ := hexists
    obtain ⟨n, hn⟩ := (h.readable hforwarded).1 _ (List.mem_singleton_self _)
    cases hn
  · obtain ⟨request, hforwarded, h⟩ := hexists
    have hname := ((h.readable hforwarded).2.1 _ (List.mem_singleton_self _)).1
    exact absurd hname (by decide +kernel)
  · obtain ⟨request, hforwarded, h⟩ := hexists
    have hmem : ("strict-transport-security", asBytes "max-age=31536000") ∈ transport.others := by
      rw [hothers]
      exact List.mem_singleton_self _
    obtain ⟨e, he, heq⟩ := (h.readable hforwarded).2.2 _ hmem (by decide +kernel)
      (by decide +kernel)
    rw [List.mem_singleton.mp he] at heq
    exact absurd heq (by decide)

end Sample

end FluidBG.ServiceBus
