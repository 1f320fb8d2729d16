import FluidBG.Lib.PrefixCode
import FluidBG.Plugins.BusClient
import FluidBG.Proof.AmqpBarrier
/-!
# The tokens of an inceptor

The manager signs one token for every queue that the roles of an inceptor name, and the inceptor
takes for a request the token of the longest resource that the URL begins with. URLs are encoded
character by character with a prefix code, so both can be read off the names themselves. What the
threads of an inceptor access is listed; what goes wrong is a matter of the names.
-/

set_option autoImplicit false

namespace FluidBG.ServiceBus

open Lib

/-! ## Encoded paths -/

/-- One character of an encoded path. -/
def encodePathChar (c : Char) : List Char :=
  if c = '/' then ['/'] else (String.utf8EncodeChar c).flatMap percentEncodeByte

/-- No code of a character begins the one of another. -/
theorem prefixCode_utf8 : PrefixCode String.utf8EncodeChar where
  ne_nil c hnil := by
    have hlen := String.length_utf8EncodeChar c
    rw [hnil] at hlen
    exact absurd hlen (Nat.ne_of_lt c.utf8Size_pos)
  eq_of_prefix a b hp := by
    obtain ⟨rest, hrest⟩ := hp
    have hbytes : [a].utf8Encode ++ rest.toByteArray = [b].utf8Encode := by
      rw [List.utf8Encode_singleton, List.utf8Encode_singleton, ← hrest, List.toByteArray_append]
    have hpre := List.isPrefix_of_utf8Encode_append_eq_utf8Encode _ hbytes
    rw [List.cons_prefix_cons] at hpre
    exact hpre.1

theorem upperHexDigit_inj : ∀ a < 16, ∀ b < 16, upperHexDigit a = upperHexDigit b → a = b := by
  decide

/-- What is kept is neither an escape nor a slash. -/
theorem not_isUnreserved {byte : UInt8} (h : isUnreserved byte) :
    Char.ofNat byte.toNat ≠ '%' ∧ Char.ofNat byte.toNat ≠ '/' := by
  unfold isUnreserved at h
  constructor <;> intro heq <;> rw [heq] at h <;> exact absurd h (by decide)

theorem toNat_of_char {a b : UInt8} (h : Char.ofNat a.toNat = Char.ofNat b.toNat) : a = b := by
  have hvalid : ∀ byte : UInt8, (Char.ofNat byte.toNat).toNat = byte.toNat := by
    intro byte
    have hlt := byte.toNat_lt
    have hvalid : byte.toNat.isValidChar := .inl (by omega)
    rw [Char.ofNat, dif_pos hvalid]
    rfl
  exact UInt8.toNat_inj.mp (by rw [← hvalid a, h, hvalid b])

theorem prefixCode_percent : PrefixCode percentEncodeByte where
  ne_nil byte := by
    unfold percentEncodeByte
    split <;> simp
  eq_of_prefix a b hp := by
    unfold percentEncodeByte at hp
    by_cases ha : isUnreserved a
    · by_cases hb : isUnreserved b
      · rw [if_pos ha, if_pos hb, List.cons_prefix_cons] at hp
        exact toNat_of_char hp.1
      · rw [if_pos ha, if_neg hb, List.cons_prefix_cons] at hp
        exact absurd hp.1 (not_isUnreserved ha).1
    · by_cases hb : isUnreserved b
      · rw [if_neg ha, if_pos hb, List.cons_prefix_cons] at hp
        exact absurd hp.1.symm (not_isUnreserved hb).1
      · rw [if_neg ha, if_neg hb] at hp
        simp only [List.cons_prefix_cons, true_and] at hp
        have hlta := a.toNat_lt
        have hltb := b.toNat_lt
        have hhigh := upperHexDigit_inj _ (by omega) _ (by omega) hp.1
        have hlow := upperHexDigit_inj _ (by omega) _ (by omega) hp.2.1
        exact UInt8.toNat_inj.mp (by omega)

theorem slash_not_mem_percent (byte : UInt8) : '/' ∉ percentEncodeByte byte := by
  have hdigit : ∀ n < 16, upperHexDigit n ≠ '/' := by decide
  have hlt := byte.toNat_lt
  unfold percentEncodeByte
  split
  · rename_i h
    simpa using (not_isUnreserved h).2.symm
  · simp only [List.mem_cons, List.not_mem_nil, or_false, not_or]
    exact ⟨by decide, (hdigit _ (by omega)).symm, (hdigit _ (by omega)).symm⟩

/-- Only a slash is encoded with a slash, and as nothing else. -/
theorem slash_mem_path {c : Char} : '/' ∈ encodePathChar c ↔ c = '/' := by
  unfold encodePathChar
  split
  · rename_i h
    simp [h]
  · rename_i h
    refine iff_of_false (fun hmem => ?_) h
    obtain ⟨byte, _, hbyte⟩ := List.mem_flatMap.mp hmem
    exact slash_not_mem_percent byte hbyte

theorem prefixCode_path : PrefixCode encodePathChar := by
  have hcode := prefixCode_percent.flatMap prefixCode_utf8
  have hslash : ∀ c, '/' ∉ (String.utf8EncodeChar c).flatMap percentEncodeByte := by
    intro c hmem
    obtain ⟨byte, _, hbyte⟩ := List.mem_flatMap.mp hmem
    exact slash_not_mem_percent byte hbyte
  refine hcode.update (by simp) (fun c hp => ?_) fun c hp => ?_
  · exact hslash c (hp.subset List.mem_cons_self)
  · obtain ⟨d, rest, hd⟩ := List.exists_cons_of_ne_nil (hcode.ne_nil c)
    have hd' : d = '/' := by simpa using hp.subset (hd ▸ List.mem_cons_self)
    exact hslash c (hd ▸ hd' ▸ List.mem_cons_self)

/-- A path is encoded character by character. -/
theorem percentEncodePath_toList (value : String) :
    (percentEncodePath value).toList = value.toList.flatMap encodePathChar := by
  have hsegment : ∀ cs : List Char, (percentEncodeSegment (String.ofList cs)).toList =
      cs.flatMap fun c => (String.utf8EncodeChar c).flatMap percentEncodeByte := by
    intro cs
    rw [percentEncodeSegment, String.toList_ofList, asBytes_ofList, List.flatMap_assoc]
  unfold percentEncodePath
  rw [String.toList_ofList]
  simp only [hsegment, List.splitOn]
  induction value.toList with
  | nil => rfl
  | cons c cs ih =>
    rw [List.splitOnP_cons_eq_if_modifyHead, List.flatMap_cons, ← ih, encodePathChar]
    obtain ⟨segment, segments, hsplit⟩ :=
      List.exists_cons_of_ne_nil (List.splitOnP_ne_nil (· == '/') cs)
    rw [hsplit]
    by_cases hc : c = '/'
    · rw [if_pos (by simpa using hc), if_pos hc, List.map_cons, List.map_cons,
        List.intercalate_cons_cons]
      rfl
    · rw [if_neg (by simpa using hc), if_neg hc, List.modifyHead_cons, List.map_cons, List.map_cons,
        List.flatMap_cons]
      cases segments with
      | nil => simp
      | cons other others =>
        rw [List.map_cons, List.intercalate_cons_cons, List.intercalate_cons_cons]
        simp only [List.append_assoc]

theorem percentEncodePath_prefix_iff {a b : String} :
    (percentEncodePath a).toList <+: (percentEncodePath b).toList ↔ a.toList <+: b.toList := by
  rw [percentEncodePath_toList, percentEncodePath_toList, prefixCode_path.flatMap_prefix_iff]

/-! ## What a token authorizes -/

/-- A token signed for `resource` is good for `other`: it is the resource itself or lies below it,
where a segment of the path ends. -/
def Authorizes (resource other : String) : Prop :=
  ∃ rest, other.toList = resource.toList ++ rest ∧
    (rest = [] ∨ rest.head? = some '/' ∨ resource.toList.getLast? = some '/')

/-- The URL of a path at an endpoint. -/
def resourceAt (endpoint path : String) : String := s!"{endpoint}/{percentEncodePath path}"

theorem resourceAt_toList (endpoint path : String) : (resourceAt endpoint path).toList =
    endpoint.toList ++ ("/" ++ path).toList.flatMap encodePathChar := by
  unfold resourceAt
  simp only [toString, String.toList_append, percentEncodePath_toList, List.append_assoc]
  rfl

theorem slash_append_inj {a b : String} : "/" ++ a = "/" ++ b ↔ a = b := by
  rw [← String.toList_inj, String.toList_append, String.toList_append, List.append_cancel_left_eq,
    String.toList_inj]

theorem resourceAt_prefix_iff {endpoint a b : String} :
    (resourceAt endpoint a).toList <+: (resourceAt endpoint b).toList ↔ a.toList <+: b.toList := by
  rw [resourceAt_toList, resourceAt_toList, List.prefix_append_right_inj,
    prefixCode_path.flatMap_prefix_iff, String.toList_append, String.toList_append,
    List.prefix_append_right_inj]

theorem resourceAt_inj {endpoint a b : String} :
    resourceAt endpoint a = resourceAt endpoint b ↔ a = b := by
  rw [← String.toList_inj, resourceAt_toList, resourceAt_toList, List.append_cancel_left_eq,
    prefixCode_path.flatMap_inj, String.toList_inj, slash_append_inj]

theorem head_flatMap_path {cs : List Char} :
    (cs.flatMap encodePathChar).head? = some '/' ↔ cs.head? = some '/' := by
  cases cs with
  | nil => simp
  | cons c cs =>
    obtain ⟨d, rest, hd⟩ := List.exists_cons_of_ne_nil (prefixCode_path.ne_nil c)
    rw [List.flatMap_cons, hd, List.cons_append, List.head?_cons, List.head?_cons,
      Option.some.injEq, Option.some.injEq]
    constructor
    · rintro rfl
      exact slash_mem_path.mp (hd ▸ List.mem_cons_self)
    · rintro rfl
      exact ((List.cons.inj hd).1).symm

theorem getLast_flatMap_path {cs : List Char} :
    (cs.flatMap encodePathChar).getLast? = some '/' ↔ cs.getLast? = some '/' := by
  induction cs using List.reverseRecOn with
  | nil => simp
  | append_singleton cs c =>
    rw [List.flatMap_append, List.flatMap_singleton, List.getLast?_append_of_ne_nil _
      (prefixCode_path.ne_nil c), List.getLast?_concat, Option.some.injEq]
    constructor
    · intro h
      exact slash_mem_path.mp (List.mem_of_getLast? h)
    · rintro rfl
      rfl

/-- **A token for a path** is good for what lies below the path. -/
theorem authorizes_resourceAt_iff {endpoint a b : String} :
    Authorizes (resourceAt endpoint a) (resourceAt endpoint b) ↔
      Authorizes ("/" ++ a) ("/" ++ b) := by
  unfold Authorizes
  simp only [resourceAt_toList, List.append_assoc, List.append_cancel_left_eq]
  have hne : ("/" ++ a).toList.flatMap encodePathChar ≠ [] := by
    rw [String.toList_append]
    simp [encodePathChar]
  rw [List.getLast?_append_of_ne_nil _ hne, getLast_flatMap_path]
  constructor
  · intro ⟨rest, hrest, hboundary⟩
    obtain ⟨more, hmore⟩ := prefixCode_path.flatMap_prefix_iff.mp ⟨rest, hrest.symm⟩
    rw [← hmore, List.flatMap_append, List.append_cancel_left_eq] at hrest
    rw [← hrest, head_flatMap_path] at hboundary
    refine ⟨more, hmore.symm, hboundary.imp_left fun hnil => ?_⟩
    exact prefixCode_path.flatMap_inj.mp hnil
  · intro ⟨more, hmore, hboundary⟩
    refine ⟨more.flatMap encodePathChar, by rw [hmore, List.flatMap_append], ?_⟩
    rw [head_flatMap_path]
    refine hboundary.imp_left fun hnil => ?_
    rw [hnil]
    rfl

/-! ## The token for a resource -/

theorem utf8ByteSize_le_of_start {a b : String} (h : a.toList <+: b.toList) :
    a.utf8ByteSize ≤ b.utf8ByteSize ∧ (b.utf8ByteSize ≤ a.utf8ByteSize → b = a) := by
  obtain ⟨rest, hrest⟩ := h
  have hb : b = a ++ String.ofList rest := by
    rw [← String.toList_inj, String.toList_append, String.toList_ofList, hrest]
  rw [hb, String.utf8ByteSize_append]
  refine ⟨by omega, fun hle => ?_⟩
  have hempty : String.ofList rest = "" := String.utf8ByteSize_eq_zero_iff.mp (by omega)
  rw [hempty, String.append_empty]

/-- **The token for a resource** is the one of the longest listed resource that it begins with. -/
theorem tokenFor_eq_some_iff {tokens : OrdMap String String} {resource key token : String} :
    tokenFor tokens resource = some (key, token) ↔
      tokens.get key = some token ∧ key.toList <+: resource.toList ∧
      ∀ other ∈ tokens.keys, other.toList <+: resource.toList → other.toList <+: key.toList := by
  unfold tokenFor longest
  constructor
  · intro h
    have hmem := List.argmax_mem h
    rw [List.mem_reverse, List.mem_filter, List.isPrefixOf_iff_prefix] at hmem
    refine ⟨OrdMap.get_of_mem hmem.1, hmem.2, fun other hother hp => ?_⟩
    obtain ⟨entry, hentry, rfl⟩ := List.mem_map.mp hother
    have hle := List.le_of_mem_argmax (a := entry) (by
      rw [List.mem_reverse, List.mem_filter, List.isPrefixOf_iff_prefix]
      exact ⟨hentry, hp⟩) h
    rcases List.prefix_or_prefix_of_prefix hp hmem.2 with hshort | hlong
    · exact hshort
    · rw [(utf8ByteSize_le_of_start hlong).2 hle]
  · rintro ⟨hget, hp, hmax⟩
    have hmem : (key, token) ∈ (tokens.entries.filter fun entry =>
        entry.1.toList.isPrefixOf resource.toList).reverse := by
      rw [List.mem_reverse, List.mem_filter, List.isPrefixOf_iff_prefix]
      exact ⟨OrdMap.mem_of_get hget, hp⟩
    cases hlongest : List.argmax (fun entry : String × String => entry.1.utf8ByteSize)
        (tokens.entries.filter fun entry =>
          entry.1.toList.isPrefixOf resource.toList).reverse with
    | none =>
      rw [List.argmax_eq_none.mp hlongest] at hmem
      simp at hmem
    | some best =>
      -- the best one is as long as ours, and begins ours
      have hbest := List.argmax_mem hlongest
      rw [List.mem_reverse, List.mem_filter, List.isPrefixOf_iff_prefix] at hbest
      have hle := List.le_of_mem_argmax hmem hlongest
      have hkey := (utf8ByteSize_le_of_start
        (hmax best.1 (List.mem_map_of_mem hbest.1) hbest.2)).2 hle
      have htoken := OrdMap.get_of_mem hbest.1
      rw [← hkey, hget, Option.some.injEq] at htoken
      exact congrArg some (Prod.ext hkey.symm htoken.symm)

/-! ## The tokens the manager signs -/

/-- An endpoint is a scheme and a host. -/
theorem endpoint_of_namespace {ns : String} {endpoint : String × String}
    (h : serviceBusEndpointFromNamespace ns = some endpoint) :
    ∃ host : List Char, endpoint.1.toList = "https://".toList ++ host ∧ '/' ∉ host := by
  unfold serviceBusEndpointFromNamespace at h
  simp only at h
  split at h
  · simp at h
  · rename_i hhost
    split at h
    · simp at h
    · rw [Option.some.injEq] at h
      subst h
      refine ⟨(stripScheme (trim ns)).toList, ?_, fun hslash => hhost (.inr ?_)⟩
      · simp only [toString, String.toList_append]
      · simpa using Or.inl hslash

/-- The resources of one endpoint begin no others than its own. -/
theorem endpoint_eq_of_start {ns ns' : String} {endpoint endpoint' : String × String}
    (h : serviceBusEndpointFromNamespace ns = some endpoint)
    (h' : serviceBusEndpointFromNamespace ns' = some endpoint') {a b : String}
    (hp : (resourceAt endpoint.1 a).toList <+: (resourceAt endpoint'.1 b).toList) :
    endpoint.1 = endpoint'.1 := by
  obtain ⟨host, hend, hhost⟩ := endpoint_of_namespace h
  obtain ⟨host', hend', hhost'⟩ := endpoint_of_namespace h'
  have hpath : ∀ path : String, ∃ rest,
      ("/" ++ path).toList.flatMap encodePathChar = '/' :: rest := by
    intro path
    rw [String.toList_append]
    exact ⟨_, rfl⟩
  obtain ⟨rest, hrest⟩ := hpath a
  obtain ⟨rest', hrest'⟩ := hpath b
  rw [resourceAt_toList, resourceAt_toList, hend, hend', hrest, hrest', List.append_assoc,
    List.append_assoc, List.prefix_append_right_inj] at hp
  -- the hosts end at the first slash
  have htake : ∀ (host rest : List Char), '/' ∉ host →
      (host ++ '/' :: rest).takeWhile (· ≠ '/') = host := by
    intro host rest hhost
    rw [List.takeWhile_append_of_pos fun c hc => by
      simpa using fun heq : c = '/' => hhost (heq ▸ hc)]
    simp
  obtain ⟨more, hmore⟩ := hp
  have heq : host = host' := by
    rw [← htake host (rest ++ more) hhost, ← htake host' rest' hhost', ← hmore, List.append_assoc]
    rfl
  rw [← String.toList_inj, hend, hend', heq]

section Tokens

variable {lib : BusCrates} {now : Int} {runtime : ServiceBusRuntimeConfig}
  {roles : List PluginRole} {config : Config} {connection : ParsedConnectionString}
  {endpoint : String × String}

theorem serviceBusResourceUrl_eq
    (h : serviceBusEndpointFromNamespace connection.fullyQualifiedNamespace = some endpoint)
    (queue : String) : serviceBusResourceUrl connection.fullyQualifiedNamespace queue =
      some (resourceAt endpoint.1 queue) := by
  unfold serviceBusResourceUrl
  rw [h]
  rfl

/-- The tokens, one for every queue of the inceptor. -/
theorem staticSasTokens_eq
    (h : serviceBusEndpointFromNamespace connection.fullyQualifiedNamespace = some endpoint) :
    staticSasTokens lib now runtime roles config connection =
      some (.ofList ((inceptorQueueNames roles config).map fun queue =>
        (resourceAt endpoint.1 queue, sasToken lib now (resourceAt endpoint.1 queue)
          connection.sharedAccessKeyName connection.sharedAccessKey
          ((runtime.auth.bind (·.sasTokenTtlSeconds)).getD 3600)))) := by
  unfold staticSasTokens OrdMap.ofList OrdMap.insertAll
  generalize OrdMap.empty = tokens
  induction inceptorQueueNames roles config generalizing tokens with
  | nil => rfl
  | cons queue queues ih =>
    rw [List.foldlM_cons, serviceBusResourceUrl_eq h, List.map_cons, List.foldl_cons]
    exact ih _

/-- What the manager hands over of the map of tokens is what the inceptor reads. -/
structure BusCrates.Lawful (lib : BusCrates) : Prop where
  parseTokens_tokensText : ∀ tokens, lib.parseTokens (lib.tokensText tokens) = some tokens
  tokensText_ne : ∀ tokens, lib.tokensText tokens ≠ ""

theorem find_optionalEnv (name other : String) (value : Option String) :
    (optionalEnv name value).find? (·.name = other) =
      if name = other then (value.filter (· ≠ "")).map (InceptorEnvVar.mk name) else none := by
  unfold optionalEnv
  cases value.filter (· ≠ "") with
  | none => simp
  | some value =>
    by_cases h : name = other
    · simp [h]
    · simp [h]

/-- The tokens in the environment of the inceptor. -/
theorem environment_tokens (hlib : lib.Lawful) (hparsed : runtime.parsed = some connection)
    {tokens : OrdMap String String}
    (htokens : staticSasTokens lib now runtime roles config connection = some tokens)
    (podEnv : String → Option String) :
    inceptorEnvironment lib now runtime roles config podEnv
      "FLUIDBG_AZURE_SERVICEBUS_SAS_TOKENS_JSON" = some (lib.tokensText tokens) := by
  unfold inceptorEnvironment inceptorEnv staticSasTokensJson
  rw [List.find?_append, List.find?_append, find_optionalEnv, find_optionalEnv, hparsed,
    if_neg (by decide), if_pos rfl, Option.bind_some, htokens, Option.map_some, Option.filter_some,
    if_pos (by simpa using hlib.tokensText_ne tokens)]
  rfl

/-- The namespace in the environment of the inceptor. -/
theorem environment_namespace {ns : String}
    (h : (runtime.fullyQualifiedNamespace.or (runtime.parsed.map (·.fullyQualifiedNamespace))).filter
      (· ≠ "") = some ns) (podEnv : String → Option String) :
    inceptorEnvironment lib now runtime roles config podEnv "AZURE_SERVICEBUS_NAMESPACE" =
      some ns := by
  unfold inceptorEnvironment inceptorEnv
  rw [List.find?_append, List.find?_append, find_optionalEnv, if_pos rfl, h]
  rfl

/-- The client of an inceptor talks to the namespace in its environment. -/
theorem namespace_of_inceptorClient {podEnv : String → Option String} {client : BusClient}
    (hclient : inceptorClient lib now runtime roles config podEnv = some client) {ns : String}
    (hns : inceptorEnvironment lib now runtime roles config podEnv "AZURE_SERVICEBUS_NAMESPACE" =
      some ns) :
    serviceBusEndpointFromNamespace ns = some (client.endpoint, client.namespaceName) := by
  unfold inceptorClient BusClient.fromRuntimeConfig at hclient
  simp only [Option.bind_eq_bind, Option.bind_eq_some_iff, Option.pure_def,
    Option.some.injEq] at hclient
  obtain ⟨conn, _, ns', hns', end', hend, auth, _, rfl⟩ := hclient
  have hgiven : (ServiceBusRuntimeConfig.fromEnv lib
      (inceptorEnvironment lib now runtime roles config podEnv)).fullyQualifiedNamespace =
        some ns := hns
  rw [hgiven, Option.some_or, Option.some.injEq] at hns'
  rw [hns', hend]

/-- **The client of an inceptor** takes its tokens from the manager, when there is one. -/
theorem auth_of_inceptorClient (hlib : lib.Lawful) (hparsed : runtime.parsed = some connection)
    {tokens : OrdMap String String}
    (htokens : staticSasTokens lib now runtime roles config connection = some tokens)
    {podEnv : String → Option String} {client : BusClient}
    (hclient : inceptorClient lib now runtime roles config podEnv = some client) :
    (∃ ns, serviceBusEndpointFromNamespace ns = some (client.endpoint, client.namespaceName)) ∧
    (∀ other, client.auth = .staticSasTokens other ↔ tokens.isEmpty = false ∧ other = tokens) := by
  have henv : (ServiceBusRuntimeConfig.fromEnv lib
      (inceptorEnvironment lib now runtime roles config podEnv)).staticSasTokens = tokens := by
    unfold ServiceBusRuntimeConfig.fromEnv
    rw [environment_tokens hlib hparsed htokens, Option.bind_some, hlib.parseTokens_tokensText]
    rfl
  unfold inceptorClient BusClient.fromRuntimeConfig at hclient
  simp only [Option.bind_eq_bind, Option.bind_eq_some_iff, Option.pure_def,
    Option.some.injEq] at hclient
  obtain ⟨conn, _, ns, _, end', hend, auth, hauth, rfl⟩ := hclient
  refine ⟨⟨ns, hend⟩, fun other => ?_⟩
  unfold authProvider at hauth
  rw [henv] at hauth
  cases hempty : tokens.isEmpty with
  | false =>
    rw [hempty, if_pos (by decide), Option.some.injEq] at hauth
    subst hauth
    simp [eq_comm]
  | true =>
    rw [hempty, if_neg (by decide)] at hauth
    refine iff_of_false (fun heq => ?_) (by simp)
    -- without tokens the provider is one of the other two
    subst heq
    split at hauth
    · rw [Option.map_eq_some_iff] at hauth
      obtain ⟨_, _, heq⟩ := hauth
      cases heq
    · simp only [Option.bind_eq_bind, Option.bind_eq_some_iff] at hauth
      obtain ⟨_, _, _, _, _, _, _, _, heq⟩ := hauth
      split at heq <;> cases heq

end Tokens

/-! ## The queues an inceptor accesses -/

/-- The paths that a call goes to. -/
def pathsOf : InceptorCall BusPath → List BusPath
  | .ensureQueue queue => [queuePath queue]
  | .receive path => [path]
  | .depth paths => paths
  | .queueState path => [path]
  | .work (.publish queue _) => [queuePath queue]
  | _ => []

/-- The path is one that the pipeline, the drain or the write handler of an inceptor goes to; its
client is not one for the ARM API. -/
def Accesses (roles : List PluginRole) (config : Config) (path : BusPath) : Prop :=
  (∃ (client : ServiceBusClient) (infraDisabled : Bool) (state : WorkerState Config)
      (job : InceptorJob) (c : InceptorCall BusPath),
    client.usesWorkloadIdentity = false ∧ state.roles = roles ∧ state.config = config ∧
      (inceptorJobs client infraDisabled state job).prog.Makes c ∧ path ∈ pathsOf c) ∨
  ∃ message c, (writeHandler config message).Makes c ∧ path ∈ pathsOf c

section Footprint

/-- All paths of the call are those of the listed queues. -/
def Within (names : List String) (c : InceptorCall BusPath) : Prop :=
  ∀ path ∈ pathsOf c, path.queue ∈ names

/-- The queue is listed, and its shadow is. -/
def Named (names : List String) (config : Config) (queue : String) : Prop :=
  queue ∈ names ∧ ∀ shadow, shadowQueueName config queue = some shadow → shadow ∈ names

variable {names : List String} {config : Config}

theorem within_nil {c : InceptorCall BusPath} (h : pathsOf c = []) : Within names c := by
  intro path hpath
  rw [h] at hpath
  simp at hpath

theorem within_single {c : InceptorCall BusPath} {path : BusPath} (h : pathsOf c = [path])
    (hpath : path.queue ∈ names) : Within names c := by
  intro other hother
  rw [h, List.mem_singleton] at hother
  exact hother ▸ hpath

theorem within_receive (path : BusPath) (h : path.queue ∈ names) :
    (receive path).Calls (Within names) :=
  Prog.Calls.bind (Prog.Calls.of_ask.mpr (within_single rfl h)) fun r => Prog.Calls.of_ofExcept r

theorem within_publish {α : Type} {turn : WorkerOp α}
    (h : turn.Calls fun c => ∀ queue message, c = .publish queue message → queue ∈ names) :
    (WorkerOp.run (P := BusPath) turn).Calls (Within names) := by
  refine Prog.Calls.lift (Prog.Calls.mono (fun c hc => ?_) h)
  cases c with
  | publish queue message => exact within_single rfl (hc queue message rfl)
  | _ => exact within_nil rfl

theorem publishes_publishTo {message : Message} {target : String} (h : target ∈ names) :
    (publishTo message target).Calls fun c =>
      ∀ queue message, c = .publish queue message → queue ∈ names := by
  refine Prog.Calls.bind (Prog.Calls.of_ask.mpr fun queue message heq => ?_) fun r =>
    Prog.Calls.of_ofExcept r
  cases heq
  exact h

theorem within_settled {c : WorkCall} (h : ∀ queue message, c ≠ .publish queue message)
    {β : Type} (f : WorkAnswer c → WorkerOp β) (hf : ∀ a, (f a).Calls fun c =>
      ∀ queue message, c = .publish queue message → queue ∈ names) :
    ((Prog.ask c).bind f).Calls fun c =>
      ∀ queue message, c = .publish queue message → queue ∈ names :=
  Prog.Calls.bind (Prog.Calls.of_ask.mpr fun queue message heq => absurd heq (h queue message)) hf

theorem publishes_ack : ack.Calls fun c =>
    ∀ queue message, c = .publish queue message → queue ∈ names :=
  within_settled (by simp) _ fun r => Prog.Calls.of_ofExcept r

theorem publishes_requeue : requeue.Calls fun c =>
    ∀ queue message, c = .publish queue message → queue ∈ names :=
  within_settled (by simp) _ fun r => Prog.Calls.of_ofExcept r

theorem within_moveAvailable {source : BusPath} {target : String} (hs : source.queue ∈ names)
    (ht : target ∈ names) (moves : Nat) :
    (moveAvailable source target moves).Calls (Within names) := by
  induction moves with
  | zero => trivial
  | succ moves ih =>
    refine (within_receive source hs).bind fun message => ?_
    cases message with
    | none => trivial
    | some message =>
      refine (within_publish (publishes_publishTo ht)).result.bind fun r => ?_
      cases r with
      | ok => exact (within_publish publishes_ack).bind fun _ => ih
      | error =>
        exact (calls_logged (within_publish publishes_requeue)).bind fun _ => Prog.Calls.of_fail ()

theorem within_drainQueue {state : WorkerState Config} {base source : String}
    (hbase : Named names state.config base) (hsource : Named names state.config source)
    (moves : Nat) : (drainQueue state base moves source).Calls (Within names) := by
  refine Prog.Calls.bind ?_ fun _ => ?_
  · exact (within_moveAvailable hsource.1 hbase.1 moves).bind fun _ =>
      within_moveAvailable hsource.1 hbase.1 moves
  · cases hshadow : shadowQueueName state.config source with
    | none => trivial
    | some shadow =>
      have htarget : shadowTarget state.config base ∈ names := by
        unfold shadowTarget
        cases htarget : shadowQueueName state.config base with
        | none => exact hbase.1
        | some target => exact hbase.2 target htarget
      have hmem := hsource.2 shadow hshadow
      exact (within_moveAvailable hmem htarget moves).bind fun _ =>
        within_moveAvailable hmem htarget moves

theorem within_ensureQueue {queue : String} (h : queue ∈ names) :
    (ensureQueue (P := BusPath) queue).Calls (Within names) :=
  Prog.Calls.bind (Prog.Calls.of_ask.mpr (within_single rfl h)) fun r => Prog.Calls.of_ofExcept r

theorem within_createTargets (infraDisabled : Bool) {state : WorkerState Config} {base : String}
    (hbase : Named names state.config base) :
    (createTargets infraDisabled state base).Calls (Within names) := by
  cases infraDisabled with
  | true => trivial
  | false =>
    refine (within_ensureQueue hbase.1).bind fun _ => ?_
    cases hshadow : shadowQueueName state.config base with
    | none => trivial
    | some shadow => exact within_ensureQueue (hbase.2 shadow hshadow)

theorem within_messageCount {client : ServiceBusClient} (hclient : client.arm.isSome = false)
    {queue : String} (h : queue ∈ names) :
    (queueDrainMessageCount client queue).Calls (Within names) := by
  have hone : ∀ path : BusPath, path.queue ∈ names →
      (messageCount [path]).Calls (Within names) := by
    intro path hpath
    refine Prog.Calls.bind ?_ fun _ => trivial
    exact Prog.Calls.bind (Prog.Calls.of_ask.mpr (within_single rfl hpath)) fun r =>
      Prog.Calls.of_ofExcept r
  unfold queueDrainMessageCount
  rw [hclient, if_neg (by decide)]
  exact (hone _ h).bind fun _ => (hone _ h).bind fun _ => trivial

theorem within_messageCountWithShadow {client : ServiceBusClient}
    (hclient : client.arm.isSome = false) (state : WorkerState Config) {queue : String}
    (h : Named names state.config queue) :
    (queueDrainMessageCountWithShadow client state queue).Calls (Within names) := by
  refine (within_messageCount hclient h.1).bind fun total => ?_
  cases hshadow : shadowQueueName state.config queue with
  | none => trivial
  | some shadow =>
    exact (within_messageCount hclient (h.2 shadow hshadow)).bind fun _ => trivial

end Footprint

section Names

variable {roles : List PluginRole} {config : Config} {queue : String}

theorem mem_inceptorQueueNames :
    queue ∈ inceptorQueueNames roles config ↔ queue ∈ inceptorQueues roles config := by
  unfold inceptorQueueNames
  rw [List.mem_dedup, List.mem_insertionSort]

/-- The queues a configuration names for its roles, before the last shadows are added. -/
def directQueues (roles : List PluginRole) (config : Config) : List String :=
  managedTempQueueNames roles config ++
    (baseShadowQueueNames roles config).flatMap (fun queue =>
      queue :: (shadowQueueName config queue).toList) ++
    (if hasRole roles .writer then (config.writer.bind (·.targetQueue)).toList else []) ++
    (if hasRole roles .consumer then (config.consumer.bind (·.inputQueue)).toList else [])

theorem named_of_direct (h : queue ∈ directQueues roles config) :
    Named (inceptorQueueNames roles config) config queue := by
  have hall : inceptorQueues roles config = directQueues roles config ++
      (directQueues roles config).filterMap (shadowQueueName config) := rfl
  refine ⟨mem_inceptorQueueNames.mpr ?_, fun shadow hshadow => mem_inceptorQueueNames.mpr ?_⟩
  · rw [hall]
    exact List.mem_append_left _ h
  · rw [hall]
    exact List.mem_append_right _ (List.mem_filterMap.mpr ⟨queue, h, hshadow⟩)

theorem named_of_temp (h : queue ∈ managedTempQueueNames roles config) :
    Named (inceptorQueueNames roles config) config queue :=
  named_of_direct (by simp [directQueues, h])

theorem named_of_base (role : PluginRole) (hmanaged : role ∈ managedRoles)
    (hrole : hasRole roles role) (h : config.baseQueue role = some queue) :
    Named (inceptorQueueNames roles config) config queue := by
  refine named_of_direct ?_
  have hbase : queue ∈ baseShadowQueueNames roles config :=
    List.mem_filterMap.mpr ⟨role, List.mem_filter.mpr ⟨hmanaged, hrole⟩, h⟩
  simp only [directQueues, List.mem_append, List.mem_flatMap]
  exact .inl (.inl (.inr ⟨queue, hbase, List.mem_cons_self⟩))

theorem named_of_consumer (hrole : hasRole roles .consumer)
    (h : config.consumer.bind (·.inputQueue) = some queue) :
    Named (inceptorQueueNames roles config) config queue :=
  named_of_direct (by simp [directQueues, hrole, h])

/-- A temporary queue of a managed role. -/
theorem named_of_role (role : PluginRole) (hmanaged : role ∈ managedRoles)
    (hrole : hasRole roles role) (h : queue ∈ config.tempQueues role) :
    Named (inceptorQueueNames roles config) config queue :=
  named_of_temp (List.mem_flatMap.mpr ⟨role, List.mem_filter.mpr ⟨hmanaged, hrole⟩, h⟩)

/-- What the block of the role that moves input names. -/
theorem named_of_inputBlock {block : Option InputRoleConfig}
    (hblock : inputBlock roles config = some block) {name : InputRoleConfig → Option String}
    (hname : name = (·.inputQueue) ∨ name = (·.greenInputQueue) ∨ name = (·.blueInputQueue))
    (h : block.bind name = some queue) :
    Named (inceptorQueueNames roles config) config queue := by
  obtain ⟨b, rfl, hb⟩ := Option.bind_eq_some_iff.mp h
  have hfound : ∀ role ∈ managedRoles, hasRole roles role →
      (name = (·.inputQueue) → config.baseQueue role = some queue) →
      (name ≠ (·.inputQueue) → queue ∈ config.tempQueues role) →
      Named (inceptorQueueNames roles config) config queue := by
    intro role hmanaged hrole hbase htemp
    by_cases hinput : name = (·.inputQueue)
    · exact named_of_base role hmanaged hrole (hbase hinput)
    · exact named_of_role role hmanaged hrole (htemp hinput)
  have htemp : name ≠ (·.inputQueue) → queue ∈ b.tempQueues := by
    intro hinput
    unfold InputRoleConfig.tempQueues
    rcases hname with hn | hn | hn
    · exact absurd hn hinput
    · subst hn
      simp [hb]
    · subst hn
      simp [hb]
  have hbase : name = (·.inputQueue) → b.inputQueue = some queue := by
    rintro rfl
    exact hb
  unfold inputBlock at hblock
  split at hblock
  · rename_i hrole
    have hconfig : config.duplicator = some b := Option.some.inj hblock
    exact hfound .duplicator (by decide) hrole
      (fun hn => by simp [QueueConfig.baseQueue, hconfig, hbase hn])
      fun hn => by simpa [QueueConfig.tempQueues, hconfig] using htemp hn
  · split at hblock
    · rename_i hrole
      have hconfig : config.splitter = some b := Option.some.inj hblock
      exact hfound .splitter (by decide) hrole
        (fun hn => by simp [QueueConfig.baseQueue, hconfig, hbase hn])
        fun hn => by simpa [QueueConfig.tempQueues, hconfig] using htemp hn
    · cases hblock

theorem named_of_drainedInput {queues : DrainedQueues}
    (h : drainedInput roles config = .ok (some queues)) :
    Named (inceptorQueueNames roles config) config queues.base ∧
      Named (inceptorQueueNames roles config) config queues.green ∧
      Named (inceptorQueueNames roles config) config queues.blue := by
  unfold drainedInput at h
  split at h
  · rename_i block hblock
    obtain ⟨base, hbase, h⟩ := bind_eq_ok.mp h
    obtain ⟨green, hgreen, h⟩ := bind_eq_ok.mp h
    obtain ⟨blue, hblue, h⟩ := bind_eq_ok.mp h
    cases h
    exact ⟨named_of_inputBlock hblock (.inl rfl) (required_eq_ok.mp hbase),
      named_of_inputBlock hblock (.inr (.inl rfl)) (required_eq_ok.mp hgreen),
      named_of_inputBlock hblock (.inr (.inr rfl)) (required_eq_ok.mp hblue)⟩
  · cases h

theorem named_of_combiner {block : CombinerConfig} (hrole : hasRole roles .combiner)
    (hblock : config.combiner = some block) :
    (block.outputQueue = some queue → Named (inceptorQueueNames roles config) config queue) ∧
    (block.greenOutputQueue = some queue →
      Named (inceptorQueueNames roles config) config queue) ∧
    (block.blueOutputQueue = some queue →
      Named (inceptorQueueNames roles config) config queue) := by
  refine ⟨fun h => ?_, fun h => ?_, fun h => ?_⟩
  · exact named_of_base .combiner (by decide) hrole
      (by simp [QueueConfig.baseQueue, hblock, h])
  · exact named_of_role .combiner (by decide) hrole
      (by simp [QueueConfig.tempQueues, CombinerConfig.tempQueues, hblock, h])
  · exact named_of_role .combiner (by decide) hrole
      (by simp [QueueConfig.tempQueues, CombinerConfig.tempQueues, hblock, h])

theorem named_of_drainedOutput {queues : DrainedQueues} (hrole : hasRole roles .combiner)
    (h : drainedOutput config = .ok queues) :
    Named (inceptorQueueNames roles config) config queues.base ∧
      Named (inceptorQueueNames roles config) config queues.green ∧
      Named (inceptorQueueNames roles config) config queues.blue := by
  unfold drainedOutput at h
  obtain ⟨green, hgreen, h⟩ := bind_eq_ok.mp h
  obtain ⟨blue, hblue, h⟩ := bind_eq_ok.mp h
  obtain ⟨base, hbase, h⟩ := bind_eq_ok.mp h
  cases h
  obtain ⟨block, hblock, hgreen⟩ := Option.bind_eq_some_iff.mp (required_eq_ok.mp hgreen)
  have hbase := required_eq_ok.mp hbase
  have hblue := required_eq_ok.mp hblue
  rw [hblock, Option.bind_some] at hbase hblue
  exact ⟨(named_of_combiner hrole hblock).1 hbase, (named_of_combiner hrole hblock).2.1 hgreen,
    (named_of_combiner hrole hblock).2.2 hblue⟩

end Names

section Roles

variable {roles : List PluginRole} {worker : Option QueueWorkerRole}

/-- A worker of input that neither duplicates nor splits is a consumer. -/
theorem consumer_of_input {config : Config} (h : queueWorkerRole roles = .ok worker)
    (hinput : worker = some .input) (hblock : inputBlock roles config = none) :
    hasRole roles .consumer := by
  by_cases hduplicator : PluginRole.duplicator ∈ roles
  · simp [inputBlock, hasRole, hduplicator] at hblock
  · by_cases hsplitter : PluginRole.splitter ∈ roles
    · simp [inputBlock, hasRole, hduplicator, hsplitter] at hblock
    · by_cases hconsumer : PluginRole.consumer ∈ roles
      · simpa [hasRole] using hconsumer
      · subst hinput
        by_cases hcombiner : PluginRole.combiner ∈ roles
        · simp [queueWorkerRole, hduplicator, hsplitter, hcombiner, hconsumer] at h
        · simp [queueWorkerRole, hduplicator, hsplitter, hcombiner, hconsumer] at h

theorem combiner_of_combiner (h : queueWorkerRole roles = .ok worker)
    (hcombiner : worker = some .combiner) : hasRole roles .combiner := by
  subst hcombiner
  unfold queueWorkerRole at h
  simp only at h
  split at h
  · cases h
  · rw [Except.ok.injEq] at h
    split at h
    · rename_i hhead
      have hmem := List.mem_of_mem_head? hhead
      simpa [hasRole] using (List.mem_filter.mp hmem).2
    · cases h
    · cases h

end Roles

section Programs

variable (infraDisabled : Bool) (state : WorkerState Config)

theorem within_drainInputQueues (moves : Nat) : (drainInputQueues infraDisabled state moves).Calls
    (Within (inceptorQueueNames state.roles state.config)) := by
  unfold drainInputQueues
  cases hqueues : drainedInput state.roles state.config with
  | error e => trivial
  | ok queues =>
    cases queues with
    | none => trivial
    | some queues =>
      obtain ⟨hbase, hgreen, hblue⟩ := named_of_drainedInput hqueues
      refine (within_createTargets infraDisabled hbase).bind fun _ =>
        Prog.Calls.forEach fun source hsource => ?_
      simp only [List.mem_cons, List.not_mem_nil, or_false] at hsource
      rcases hsource with rfl | rfl
      · exact within_drainQueue hbase hgreen moves
      · exact within_drainQueue hbase hblue moves

theorem within_drainOutputQueue {source result : String}
    (hresult : Named (inceptorQueueNames state.roles state.config) state.config result)
    (hsource : Named (inceptorQueueNames state.roles state.config) state.config source)
    (moves : Nat) : (drainOutputQueue infraDisabled state moves source result).Calls
      (Within (inceptorQueueNames state.roles state.config)) :=
  (within_createTargets infraDisabled hresult).bind fun _ =>
    within_drainQueue hresult hsource moves

theorem within_drainRuntimeQueues (moves : Nat) :
    (drainRuntimeQueues infraDisabled state moves).Calls
      (Within (inceptorQueueNames state.roles state.config)) := by
  refine (within_drainInputQueues infraDisabled state moves).bind fun _ => ?_
  unfold drainOutputQueues
  split
  · rename_i hrole
    cases hqueues : drainedOutput state.config with
    | error e => trivial
    | ok queues =>
      obtain ⟨hbase, hgreen, hblue⟩ := named_of_drainedOutput hrole hqueues
      exact (within_drainOutputQueue infraDisabled state hbase hgreen moves).bind fun _ =>
        within_drainOutputQueue infraDisabled state hbase hblue moves
  · trivial

theorem within_computeDrainStatus {client : ServiceBusClient}
    (hclient : client.arm.isSome = false) {worker : Option QueueWorkerRole}
    (hworker : queueWorkerRole state.roles = .ok worker) (moves : Nat) :
    (computeDrainStatus client infraDisabled state moves).Calls
      (Within (inceptorQueueNames state.roles state.config)) := by
  unfold computeDrainStatus
  refine Prog.Calls.bind (Prog.Calls.of_ask.mpr (within_nil rfl)) fun mode => ?_
  refine Prog.Calls.bind ?_ fun _ => ?_
  · split
    · exact within_drainRuntimeQueues infraDisabled state moves
    · trivial
  · cases hstatus : statusQueues state.roles state.config with
    | error e => trivial
    | ok status =>
      cases status with
      | none => trivial
      | some queues =>
        obtain ⟨label, green, blue⟩ := queues
        have hall := managedTempQueueNames_of_status hworker hstatus
        have hgreen := within_messageCountWithShadow hclient state
          (named_of_temp (hall ▸ List.mem_cons_self))
        have hblue := within_messageCountWithShadow hclient state
          (named_of_temp (hall ▸ List.mem_cons_of_mem _ List.mem_cons_self))
        refine hgreen.bind fun _ => hblue.bind fun _ => ?_
        exact Prog.Calls.bind (Prog.Calls.of_ask.mpr (within_nil rfl)) fun _ => trivial

theorem within_tracked {names : List String} {turn : RuntimeMode → WorkerOp Unit}
    (h : ∀ mode, (turn mode).Calls fun c =>
      ∀ queue message, c = .publish queue message → queue ∈ names) :
    (tracked turn).Calls (Within names) := by
  refine Prog.Calls.bind (Prog.Calls.of_ask.mpr (within_nil rfl)) fun _ => ?_
  refine Prog.Calls.bind (Prog.Calls.of_ask.mpr (within_nil rfl)) fun mode => ?_
  exact (calls_logged (within_publish (h mode))).bind fun _ =>
    Prog.Calls.of_ask.mpr (within_nil rfl)

theorem publishes_settle {names : List String} {work : WorkerOp Unit}
    (h : work.Calls fun c => ∀ queue message, c = .publish queue message → queue ∈ names) :
    (settle work).Calls fun c => ∀ queue message, c = .publish queue message → queue ∈ names := by
  refine h.result.bind fun r => ?_
  cases r with
  | ok => exact publishes_ack.result.bind fun _ => trivial
  | error => exact publishes_requeue.result.bind fun _ => trivial

theorem publishes_report {names : List String} (runtime : InceptorRuntime) (handsOn : Bool)
    (observed : Option (ObserverConfig × String)) (payload : Json) (route : TrafficRoute) :
    (report runtime handsOn observed payload route).Calls fun c =>
      ∀ queue message, c = .publish queue message → queue ∈ names := by
  refine Prog.Calls.mono (fun c hc queue message heq => ?_)
    (Rabbitmq.requests_report runtime handsOn observed payload route)
  subst heq
  exact hc.elim

/-- The queues an input role forwards to. -/
theorem publishes_forwardInput (sendToBlue : Bool) (message : Message) :
    (forwardInput state.roles
      (state.config.duplicator.map fun block => (block.greenInputQueue, block.blueInputQueue))
      (state.config.splitter.map fun block => (block.greenInputQueue, block.blueInputQueue))
      sendToBlue message).Calls fun c => ∀ queue message, c = .publish queue message →
        queue ∈ inceptorQueueNames state.roles state.config := by
  have hpair : ∀ (block : Option InputRoleConfig) (queue : String),
      inputBlock state.roles state.config = some block →
      ((block.map fun b => (b.greenInputQueue, b.blueInputQueue)).bind (·.1) = some queue ∨
        (block.map fun b => (b.greenInputQueue, b.blueInputQueue)).bind (·.2) = some queue) →
      queue ∈ inceptorQueueNames state.roles state.config := by
    intro block queue hblock h
    rw [Option.bind_map, Option.bind_map] at h
    rcases h with h | h
    · exact (named_of_inputBlock hblock (.inr (.inl rfl)) h).1
    · exact (named_of_inputBlock hblock (.inr (.inr rfl)) h).1
  rw [forwardInput_eq]
  split
  · trivial
  · refine Prog.Calls.bind (Prog.Calls.forEach fun target htarget => ?_) fun _ => trivial
    cases target with
    | none => trivial
    | some target =>
      refine publishes_publishTo ?_
      unfold inputTargets at htarget
      split at htarget
      · rename_i hrole
        have hblock : inputBlock state.roles state.config = some state.config.duplicator := by
          rw [inputBlock, if_pos hrole]
        simp only [List.mem_cons, List.not_mem_nil, or_false] at htarget
        exact hpair _ target hblock (htarget.imp Eq.symm Eq.symm)
      · rename_i hdup
        split at htarget
        · rename_i hrole
          have hblock : inputBlock state.roles state.config = some state.config.splitter := by
            rw [inputBlock, if_neg hdup, if_pos hrole]
          rw [List.mem_singleton] at htarget
          refine hpair _ target hblock ?_
          split at htarget
          · exact .inr htarget.symm
          · exact .inl htarget.symm
        · simp at htarget

theorem publishes_abandonLate {names : List String} : abandonLate.Calls fun c =>
    ∀ queue message, c = .publish queue message → queue ∈ names :=
  publishes_requeue.result.bind fun _ => trivial

theorem within_runInputPipeline {worker : Option QueueWorkerRole}
    (hworker : queueWorkerRole state.roles = .ok worker) (hinput : worker = some .input)
    (moves : Nat) : (runInputPipeline infraDisabled state moves).Calls
      (Within (inceptorQueueNames state.roles state.config)) := by
  unfold runInputPipeline
  cases hqueue : inputQueue state.roles state.config with
  | error e => trivial
  | ok input =>
    have hnamed : input ∈ inceptorQueueNames state.roles state.config := by
      unfold inputQueue at hqueue
      split at hqueue
      · rename_i block hblock
        exact (named_of_inputBlock hblock (.inl rfl) (required_eq_ok.mp hqueue)).1
      · rename_i hblock
        -- a worker of input without a block of its own is a consumer
        refine (named_of_consumer ?_ (required_eq_ok.mp hqueue)).1
        exact consumer_of_input hworker hinput hblock
    have hmode : runtimeMode.Calls (Within (inceptorQueueNames state.roles state.config)) :=
      Prog.Calls.of_ask.mpr (within_nil rfl)
    refine hmode.bind fun mode => ?_
    cases mode with
    | idle => trivial
    | draining => exact calls_logged (within_drainInputQueues infraDisabled state moves)
    | active =>
      refine (within_receive (queuePath input) hnamed).result.bind fun r => ?_
      cases r with
      | error e => trivial
      | ok message =>
        cases message with
        | none => trivial
        | some message =>
          refine within_tracked fun mode => ?_
          unfold inputTurn
          split
          · refine publishes_settle ?_
            exact (publishes_forwardInput state _ _).bind fun route =>
              publishes_report _ _ _ _ _
          · exact publishes_abandonLate

theorem within_runCombineLoop {source result : String}
    (hresult : Named (inceptorQueueNames state.roles state.config) state.config result)
    (hsource : Named (inceptorQueueNames state.roles state.config) state.config source)
    (moves : Nat) : (runCombineLoop infraDisabled state moves source result).Calls
      (Within (inceptorQueueNames state.roles state.config)) := by
  unfold runCombineLoop
  cases required state.config.combiner with
  | error e => trivial
  | ok combiner =>
    have hmode : runtimeMode.Calls (Within (inceptorQueueNames state.roles state.config)) :=
      Prog.Calls.of_ask.mpr (within_nil rfl)
    refine hmode.bind fun mode => ?_
    cases mode with
    | idle => trivial
    | draining =>
      exact calls_logged (within_drainOutputQueue infraDisabled state hresult hsource moves)
    | active =>
      refine (within_receive (queuePath source) hsource.1).result.bind fun r => ?_
      cases r with
      | error e => trivial
      | ok message =>
        cases message with
        | none => trivial
        | some message =>
          refine within_tracked fun mode => ?_
          unfold combineTurn
          split
          · refine publishes_settle ?_
            exact (publishes_publishTo hresult.1).bind fun _ => publishes_report _ _ _ _ _
          · exact publishes_abandonLate

/-- **Every thread of an inceptor** stays within the queues its roles name. -/
theorem within_inceptorJobs {client : ServiceBusClient} (hclient : client.arm.isSome = false)
    (job : InceptorJob) : (inceptorJobs client infraDisabled state job).prog.Calls
      (Within (inceptorQueueNames state.roles state.config)) := by
  unfold inceptorJobs inceptorThread
  cases hworker : queueWorkerRole state.roles with
  | error e => trivial
  | ok worker =>
    cases job with
    | input trafficPercent moves =>
      unfold inceptorProgram
      simp only
      split
      · rename_i hinput
        exact within_runInputPipeline infraDisabled
          { state with trafficPercent := trafficPercent } hworker hinput moves
      · trivial
    | combine blue moves =>
      unfold inceptorProgram
      simp only
      split
      · rename_i hcombiner
        cases hqueues : drainedOutput state.config with
        | error e => trivial
        | ok queues =>
          obtain ⟨hbase, hgreen, hblue⟩ :=
            named_of_drainedOutput (combiner_of_combiner hworker hcombiner) hqueues
          cases blue with
          | true => exact within_runCombineLoop infraDisabled state hbase hblue moves
          | false => exact within_runCombineLoop infraDisabled state hbase hgreen moves
      · trivial
    | drain moves =>
      exact Prog.Calls.bind (Prog.Calls.of_ask.mpr (within_nil rfl)) fun _ =>
        within_drainRuntimeQueues infraDisabled state moves
    | status moves =>
      exact (within_computeDrainStatus infraDisabled state hclient hworker moves).bind fun _ =>
        Prog.Calls.of_ask.mpr (within_nil rfl)

end Programs

/-! ## The theorem -/

section Scope

variable {roles : List PluginRole} {config : Config}

/-- What is accessed is listed, or it is where the write handler sends to. -/
theorem named_of_accesses {path : BusPath} (h : Accesses roles config path) :
    path.queue ∈ inceptorQueueNames roles config ∨
      path.dead = false ∧ config.writer.bind (·.targetQueue) = some path.queue := by
  rcases h with ⟨client, infraDisabled, state, job, c, hclient, rfl, rfl, hmakes, hpath⟩ |
    ⟨message, c, hmakes, hpath⟩
  · have harm : client.arm.isSome = false := by
      unfold ServiceBusClient.arm
      rw [hclient]
      cases client.management <;> simp
    exact .inl ((within_inceptorJobs infraDisabled state harm job).of_makes hmakes path hpath)
  · refine .inr ?_
    have htarget : (writeHandler config message).Calls fun c => ∀ path ∈ pathsOf c,
        path.dead = false ∧ config.writer.bind (·.targetQueue) = some path.queue := by
      unfold writeHandler
      cases hwriter : config.writer.bind (·.targetQueue) with
      | none => trivial
      | some queue =>
        refine Prog.Calls.bind (Prog.Calls.result (Prog.Calls.lift ?_)) fun r => ?_
        · refine Prog.Calls.bind (Prog.Calls.of_ask.mpr fun path hpath => ?_) fun r =>
            Prog.Calls.of_ofExcept r
          rw [List.mem_singleton.mp hpath]
          exact ⟨rfl, rfl⟩
        · cases r <;> trivial
    exact htarget.of_makes hmakes path hpath

/-- The write handler sends to its target, whatever the roles are. -/
theorem accesses_target {queue : String}
    (h : config.writer.bind (·.targetQueue) = some queue) :
    Accesses roles config (queuePath queue) := by
  refine .inr ⟨⟨[], []⟩, .work (.publish queue ⟨[], []⟩), ?_, List.mem_singleton_self _⟩
  unfold writeHandler
  rw [h]
  exact .inl rfl

variable (lib : BusCrates) (now : Int) (runtime : ServiceBusRuntimeConfig)
  (connection : ParsedConnectionString) (endpoint : String × String)
  (podEnv : String → Option String) (roles config) (queues : Set String)

/-- The tokens cover what the inceptor accesses, each path with the token of its very queue, and
none is good for the root of the namespace or for another of its queues. -/
structure Scoped : Prop where
  covers : ∀ client, inceptorClient lib now runtime roles config podEnv = some client →
    ∀ path, Accesses roles config path → ∃ tokens resource token,
      client.auth = .staticSasTokens tokens ∧
      serviceBusResourceUrl connection.fullyQualifiedNamespace path.queue = some resource ∧
      tokenFor tokens (client.queueUrl path.path) = some (resource, token)
  confined : ∀ tokens, staticSasTokens lib now runtime roles config connection = some tokens →
    ∀ signed ∈ tokens.keys, ∀ queue ∈ queues, queue ∉ inceptorQueueNames roles config →
      ∀ resource, serviceBusResourceUrl connection.fullyQualifiedNamespace queue =
        some resource → ¬ Authorizes signed resource
  apart : ∀ tokens, staticSasTokens lib now runtime roles config connection = some tokens →
    ∀ signed ∈ tokens.keys, ¬ Authorizes signed (endpoint.1 ++ "/")

/-- How the names have to be for that. -/
structure WellNamed : Prop where
  /-- The inceptor talks to the namespace of the connection string, unless it accesses nothing. -/
  endpoint : ∀ client, inceptorClient lib now runtime roles config podEnv = some client →
    (∃ path, Accesses roles config path) → client.endpoint = endpoint.1
  /-- The target of the write handler is listed, which it is for a writer. -/
  target : (inceptorClient lib now runtime roles config podEnv).isSome → ∀ queue,
    config.writer.bind (·.targetQueue) = some queue → queue ∈ inceptorQueueNames roles config
  /-- The path of the dead letters continues the name of its queue, and no other listed name that it
  continues is longer. -/
  deadLetters : (inceptorClient lib now runtime roles config podEnv).isSome → ∀ queue,
    Accesses roles config (deadLetterPath queue) →
      queue.toList <+: (deadLetterName queue).toList ∧
      ∀ other ∈ inceptorQueueNames roles config,
        other.toList <+: (deadLetterName queue).toList → other.toList <+: queue.toList
  /-- No name is empty. -/
  nonempty : "" ∉ inceptorQueueNames roles config
  /-- No other queue of the namespace lies below a listed one. -/
  others : ∀ queue ∈ queues, queue ∉ inceptorQueueNames roles config →
    ∀ name ∈ inceptorQueueNames roles config, ¬ Authorizes ("/" ++ name) ("/" ++ queue)

end Scope

section Iff

variable {lib : BusCrates} {now : Int} {runtime : ServiceBusRuntimeConfig}
  {connection : ParsedConnectionString} {endpoint : String × String}
  {podEnv : String → Option String} {roles : List PluginRole} {config : Config}
  {tokens : OrdMap String String}

/-- The resources of the tokens are those of the listed queues. -/
theorem mem_keys_staticSasTokens
    (hend : serviceBusEndpointFromNamespace connection.fullyQualifiedNamespace = some endpoint)
    (htokens : staticSasTokens lib now runtime roles config connection = some tokens)
    {resource : String} : resource ∈ tokens.keys ↔
      ∃ queue ∈ inceptorQueueNames roles config, resource = resourceAt endpoint.1 queue := by
  rw [staticSasTokens_eq hend, Option.some.injEq] at htokens
  rw [← htokens, OrdMap.mem_keys_ofList]
  simp only [List.map_map, List.mem_map, Function.comp_def]
  constructor
  · rintro ⟨queue, hqueue, rfl⟩
    exact ⟨queue, hqueue, rfl⟩
  · rintro ⟨queue, hqueue, rfl⟩
    exact ⟨queue, hqueue, rfl⟩

/-- **The token that is chosen** for a path at the endpoint of the connection string. -/
theorem tokenFor_resourceAt_iff
    (hend : serviceBusEndpointFromNamespace connection.fullyQualifiedNamespace = some endpoint)
    (htokens : staticSasTokens lib now runtime roles config connection = some tokens)
    {queue path : String} :
    (∃ token, tokenFor tokens (resourceAt endpoint.1 path) =
      some (resourceAt endpoint.1 queue, token)) ↔
    queue ∈ inceptorQueueNames roles config ∧ queue.toList <+: path.toList ∧
      ∀ other ∈ inceptorQueueNames roles config,
        other.toList <+: path.toList → other.toList <+: queue.toList := by
  have hkeys : ∀ resource, resource ∈ tokens.keys ↔ _ := fun _ =>
    mem_keys_staticSasTokens hend htokens
  constructor
  · intro ⟨token, htoken⟩
    obtain ⟨hget, hp, hmax⟩ := tokenFor_eq_some_iff.mp htoken
    have hkey : resourceAt endpoint.1 queue ∈ tokens.keys := by
      rw [OrdMap.mem_keys_iff, hget]
      rfl
    obtain ⟨listed, hlisted, heq⟩ := (hkeys _).mp hkey
    refine ⟨resourceAt_inj.mp heq ▸ hlisted, resourceAt_prefix_iff.mp hp,
      fun other hother hpath => ?_⟩
    exact resourceAt_prefix_iff.mp (hmax _ ((hkeys _).mpr ⟨other, hother, rfl⟩)
      (resourceAt_prefix_iff.mpr hpath))
  · intro ⟨hqueue, hp, hmax⟩
    have hkey : resourceAt endpoint.1 queue ∈ tokens.keys :=
      (hkeys _).mpr ⟨queue, hqueue, rfl⟩
    obtain ⟨token, htoken⟩ := Option.isSome_iff_exists.mp (OrdMap.mem_keys_iff.mp hkey)
    refine ⟨token, tokenFor_eq_some_iff.mpr ⟨htoken, resourceAt_prefix_iff.mpr hp,
      fun other hother hpath => ?_⟩⟩
    obtain ⟨name, hname, rfl⟩ := (hkeys _).mp hother
    exact resourceAt_prefix_iff.mpr (hmax name hname (resourceAt_prefix_iff.mp hpath))

/-- Only the empty name has the root of the namespace for a resource. -/
theorem authorizes_root_iff {name : String} :
    Authorizes (resourceAt endpoint.1 name) (endpoint.1 ++ "/") ↔ name = "" := by
  have hroot : endpoint.1 ++ "/" = resourceAt endpoint.1 "" := by
    rw [← String.toList_inj, resourceAt_toList, String.toList_append]
    rfl
  rw [hroot, authorizes_resourceAt_iff]
  constructor
  · intro ⟨rest, hrest, _⟩
    have hlen := congrArg List.length hrest
    simp only [String.toList_append, List.length_append, String.length_toList] at hlen
    have hzero : name.length = 0 := by
      have : "".length = 0 := rfl
      omega
    exact String.length_eq_zero_iff.mp hzero
  · rintro rfl
    exact ⟨[], by simp, .inl rfl⟩

/-- **A path is covered** where its queue is listed and begins the path, no longer listed name begins
it, and the client talks to the namespace of the connection string. -/
theorem covered_iff (hlib : lib.Lawful) (hparsed : runtime.parsed = some connection)
    (hend : serviceBusEndpointFromNamespace connection.fullyQualifiedNamespace = some endpoint)
    {client : BusClient}
    (hclient : inceptorClient lib now runtime roles config podEnv = some client)
    (path : BusPath) :
    (∃ tokens resource token, client.auth = .staticSasTokens tokens ∧
      serviceBusResourceUrl connection.fullyQualifiedNamespace path.queue = some resource ∧
      tokenFor tokens (client.queueUrl path.path) = some (resource, token)) ↔
    client.endpoint = endpoint.1 ∧ path.queue ∈ inceptorQueueNames roles config ∧
      path.queue.toList <+: path.path.toList ∧
      ∀ other ∈ inceptorQueueNames roles config,
        other.toList <+: path.path.toList → other.toList <+: path.queue.toList := by
  have htokens : staticSasTokens lib now runtime roles config connection = some _ :=
    staticSasTokens_eq hend
  obtain ⟨⟨ns, hns⟩, hauth⟩ := auth_of_inceptorClient hlib hparsed htokens hclient
  have hurl : client.queueUrl path.path = resourceAt client.endpoint path.path := rfl
  rw [serviceBusResourceUrl_eq hend, hurl]
  constructor
  · intro ⟨tokens, resource, token, htoken, hresource, hchosen⟩
    obtain rfl := Option.some.inj hresource
    have hp := (tokenFor_eq_some_iff.mp hchosen).2.1
    have heq : client.endpoint = endpoint.1 := (endpoint_eq_of_start hend hns hp).symm
    obtain ⟨_, rfl⟩ := (hauth tokens).mp htoken
    rw [heq] at hchosen
    exact ⟨heq, (tokenFor_resourceAt_iff hend htokens).mp ⟨token, hchosen⟩⟩
  · intro ⟨heq, hnamed⟩
    obtain ⟨token, hchosen⟩ := (tokenFor_resourceAt_iff hend htokens).mpr hnamed
    refine ⟨_, _, token, (hauth _).mpr ⟨?_, rfl⟩, rfl, by rw [heq]; exact hchosen⟩
    -- the token that is chosen is one of the tokens
    have hget := (tokenFor_eq_some_iff.mp hchosen).1
    rw [Bool.eq_false_iff]
    intro hempty
    have hmem := OrdMap.mem_of_get hget
    rw [List.isEmpty_iff.mp hempty] at hmem
    simp at hmem

/-- The names whose tokens leave the queues they are signed for. -/
theorem Scoped.well_signed
    (hend : serviceBusEndpointFromNamespace connection.fullyQualifiedNamespace = some endpoint)
    {queues : Set String}
    (h : Scoped roles config lib now runtime connection endpoint podEnv queues) {name : String}
    (hname : name ∈ inceptorQueueNames roles config) :
    name ≠ "" ∧ ∀ queue ∈ queues, queue ∉ inceptorQueueNames roles config →
      ¬ Authorizes ("/" ++ name) ("/" ++ queue) := by
  have htokens : staticSasTokens lib now runtime roles config connection = some _ :=
    staticSasTokens_eq hend
  have hkey := (mem_keys_staticSasTokens hend htokens).mpr ⟨name, hname, rfl⟩
  refine ⟨fun hempty => ?_, fun queue hqueue hother hbelow => ?_⟩
  · exact h.apart _ htokens _ hkey (authorizes_root_iff.mpr hempty)
  · exact h.confined _ htokens _ hkey queue hqueue hother _ (serviceBusResourceUrl_eq hend queue)
      (authorizes_resourceAt_iff.mpr hbelow)

/-- **The tokens of an inceptor** cover exactly what it accesses in its queues, and nothing else,
where the names it is given are well chosen. -/
theorem tokens_scoped_iff (hlib : lib.Lawful) (hparsed : runtime.parsed = some connection)
    (hend : serviceBusEndpointFromNamespace connection.fullyQualifiedNamespace = some endpoint)
    (podEnv : String → Option String) (roles : List PluginRole) (config : Config)
    (now : Int) (queues : Set String) :
    Scoped roles config lib now runtime connection endpoint podEnv queues ↔
      WellNamed roles config lib now runtime endpoint podEnv queues := by
  have htokens : staticSasTokens lib now runtime roles config connection = some _ :=
    staticSasTokens_eq hend
  have hcovered := fun client (hclient : inceptorClient lib now runtime roles config podEnv =
      some client) => covered_iff hlib hparsed hend hclient
  constructor
  · intro h
    refine ⟨fun client hclient hpath => ?_, fun hsome queue hqueue => ?_,
      fun hsome queue hqueue => ?_, fun hempty => ?_, fun queue hqueue hother name hname => ?_⟩
    · obtain ⟨path, hpath⟩ := hpath
      exact ((hcovered client hclient path).mp (h.covers client hclient path hpath)).1
    · obtain ⟨client, hclient⟩ := Option.isSome_iff_exists.mp hsome
      have hcover := h.covers client hclient (queuePath queue) (accesses_target hqueue)
      exact ((hcovered client hclient _).mp hcover).2.1
    · obtain ⟨client, hclient⟩ := Option.isSome_iff_exists.mp hsome
      have hcover := h.covers client hclient (deadLetterPath queue) hqueue
      exact ((hcovered client hclient _).mp hcover).2.2
    · exact (h.well_signed hend hempty).1 rfl
    · exact (h.well_signed hend hname).2 queue hqueue hother
  · intro h
    refine ⟨fun client hclient path hpath => ?_, fun tokens hsigned signed hkey queue hqueue hother
      resource hresource hbelow => ?_, fun tokens hsigned signed hkey hroot => ?_⟩
    · have hsome : (inceptorClient lib now runtime roles config podEnv).isSome := by
        rw [hclient]
        rfl
      have hlisted : path.queue ∈ inceptorQueueNames roles config := by
        rcases named_of_accesses hpath with hlisted | ⟨_, htarget⟩
        · exact hlisted
        · exact h.target hsome _ htarget
      refine (hcovered client hclient path).mpr
        ⟨h.endpoint client hclient ⟨path, hpath⟩, hlisted, ?_⟩
      cases path with
      | mk queue dead =>
        cases dead with
        | true => exact h.deadLetters hsome queue hpath
        | false => exact ⟨List.prefix_rfl, fun other _ hp => hp⟩
    · obtain ⟨name, hname, rfl⟩ := (mem_keys_staticSasTokens hend hsigned).mp hkey
      rw [serviceBusResourceUrl_eq hend, Option.some.injEq] at hresource
      subst hresource
      exact h.others queue hqueue hother name hname (authorizes_resourceAt_iff.mp hbelow)
    · obtain ⟨name, hname, rfl⟩ := (mem_keys_staticSasTokens hend hsigned).mp hkey
      exact h.nonempty (authorizes_root_iff.mp hroot ▸ hname)

end Iff

/-! ### An inceptor that writes -/

section Sample

/-- The backslash. -/
def escape : Char := Char.ofNat 92

/-- A string of an object, from behind its opening quote. -/
def quoted (value : List Char) : List Char :=
  value.flatMap (fun c => if c = quote ∨ c = escape then [escape, c] else [c]) ++ [quote]

/-- What stands before the closing quote, and what comes after it. -/
def unquoted : Bool → List Char → Option (List Char × List Char)
  | _, [] => none
  | true, c :: cs => (unquoted false cs).map fun r => (c :: r.1, r.2)
  | false, c :: cs =>
    if c = quote then some ([], cs)
    else if c = escape then unquoted true cs
    else (unquoted false cs).map fun r => (c :: r.1, r.2)

theorem unquoted_quoted (value rest : List Char) :
    unquoted false (quoted value ++ rest) = some (value, rest) := by
  have hne : escape ≠ quote := by decide
  induction value with
  | nil => simp [quoted, unquoted]
  | cons c cs ih =>
    by_cases hc : c = quote ∨ c = escape
    · have hcons : quoted (c :: cs) ++ rest = escape :: c :: (quoted cs ++ rest) := by
        simp [quoted, hc]
      rw [hcons, unquoted, if_neg hne, if_pos rfl, unquoted, ih]
      rfl
    · have hcons : quoted (c :: cs) ++ rest = c :: (quoted cs ++ rest) := by
        simp [quoted, hc]
      rw [not_or] at hc
      rw [hcons, unquoted, if_neg hc.1, if_neg hc.2, ih]
      rfl

/-- The members of an object, with a comma between them. -/
def membersText : List (String × String) → List Char
  | [] => ['}']
  | entry :: rest =>
    quote :: (quoted entry.1.toList ++ ([':', quote] ++ (quoted entry.2.toList ++
      ((if rest = [] then [] else [',']) ++ membersText rest))))

/-- What `membersText` writes, read again; the number bounds the members. -/
def parseMembers : Nat → List Char → Option (List (String × String))
  | 0, cs => if cs = ['}'] then some [] else none
  | n + 1, cs =>
    if cs = ['}'] then some []
    else (unquoted false (cs.drop 1)).bind fun key =>
      (unquoted false (key.2.drop 2)).bind fun value =>
        (parseMembers n (if value.2.head? = some ',' then value.2.drop 1 else value.2)).map
          fun rest => (String.ofList key.1, String.ofList value.1) :: rest

theorem parseMembers_membersText (entries : List (String × String)) :
    ∀ n, entries.length ≤ n → parseMembers n (membersText entries) = some entries := by
  induction entries with
  | nil =>
    intro n _
    cases n <;> rfl
  | cons entry rest ih =>
    intro n hn
    cases n with
    | zero => simp at hn
    | succ n =>
      have hne : quote ≠ '}' := by decide
      have hcomma : quote ≠ ',' := by decide
      have hafter : (if ((if rest = [] then [] else [',']) ++ membersText rest).head? = some ','
          then ((if rest = [] then [] else [',']) ++ membersText rest).drop 1
          else (if rest = [] then [] else [',']) ++ membersText rest) = membersText rest := by
        by_cases hrest : rest = []
        · rw [hrest]
          rfl
        · simp [hrest]
      rw [membersText, parseMembers, if_neg (by simp [hne]), List.drop_one, List.tail_cons,
        unquoted_quoted, Option.bind_some, List.cons_append, List.cons_append, List.nil_append,
        List.drop_succ_cons, List.drop_succ_cons, List.drop_zero, unquoted_quoted,
        Option.bind_some, hafter, ih n (Nat.le_of_succ_le_succ hn), Option.map_some,
        String.ofList_toList, String.ofList_toList]

theorem length_le_membersText (entries : List (String × String)) :
    entries.length ≤ (membersText entries).length := by
  induction entries with
  | nil => simp
  | cons entry rest ih =>
    simp only [membersText, List.length_cons, List.length_append]
    omega

/-- The libraries, with base64 left out of the signature. -/
def busCrates : BusCrates where
  validateHttpsBaseUrl _ := true
  base64 bytes := String.ofList (bytes.flatMap fun byte =>
    [Nat.digitChar (byte / 16), Nat.digitChar (byte % 16)])
  parseI64 _ := none
  tokensText tokens := String.ofList ('\x7b' :: membersText tokens.entries)
  parseTokens text :=
    (parseMembers text.length (text.toList.drop 1)).bind fun entries =>
      if h : (entries.map Prod.fst).Nodup then some ⟨entries, h⟩ else none
  jsonText _ := ""
  parseJson _ := none

theorem busCrates_lawful : busCrates.Lawful where
  parseTokens_tokensText tokens := by
    have hlen := length_le_membersText tokens.entries
    simp only [busCrates, String.toList_ofList, List.drop_one, List.tail_cons]
    rw [parseMembers_membersText _ _ (by simp; omega), Option.bind_some, dif_pos tokens.nodup]
  tokensText_ne tokens := by
    intro h
    have hlist := congrArg String.toList h
    simp [busCrates] at hlist

/-- A manager with the connection string of the namespace `shop`. -/
def runtime : ServiceBusRuntimeConfig where
  connectionString := some ("Endpoint=sb://shop.servicebus.windows.net/;" ++
    "SharedAccessKeyName=manager;SharedAccessKey=secret")
  fullyQualifiedNamespace := none
  auth := none
  management := none
  staticSasTokens := .empty

def connection : ParsedConnectionString :=
  ⟨"shop.servicebus.windows.net", "manager", "secret"⟩

def shop : String × String := ("https://shop.servicebus.windows.net", "shop")

/-- The configuration of a writer to `queue`. -/
def writerTo (queue : String) : Config where
  queueDeclaration := .empty
  shadowQueue := none
  duplicator := none
  splitter := none
  combiner := none
  writer := some ⟨some queue⟩
  consumer := none
  observer := none

theorem runtime_parsed : runtime.parsed = some connection := by
  decide +kernel

theorem endpoint_connection :
    serviceBusEndpointFromNamespace connection.fullyQualifiedNamespace = some shop := by
  decide +kernel

def tokensScopedWriterNames :
    PLift (inceptorQueueNames [.writer] (writerTo "orders") = ["orders"]) :=
  ⟨by decide +kernel⟩

/-- The tokens of a writer to `orders`, in a namespace with one other queue. -/
theorem tokens_scoped_writer : Scoped [.writer] (writerTo "orders") busCrates 0 runtime connection
    shop (fun _ => none) {"orders", "payments"} := by
  have hnames := tokensScopedWriterNames.down
  refine (tokens_scoped_iff busCrates_lawful runtime_parsed endpoint_connection _ _ _ _ _).mpr
    ⟨fun client hsome _ => ?_, fun _ queue hqueue => ?_, fun _ queue hqueue => ?_, ?_,
      fun queue hqueue hother name hname hbelow => ?_⟩
  · have hns := namespace_of_inceptorClient hsome
      (environment_namespace (show _ = some connection.fullyQualifiedNamespace by decide +kernel) _)
    rw [endpoint_connection, Option.some.injEq] at hns
    exact (congrArg Prod.fst hns).symm
  · rw [hnames, List.mem_singleton]
    exact (Option.some.inj hqueue).symm
  · rw [hnames]
    rcases named_of_accesses hqueue with hlisted | ⟨hdead, _⟩
    · rw [hnames, List.mem_singleton] at hlisted
      have hlisted : queue = "orders" := hlisted
      subst hlisted
      refine ⟨by decide +kernel, fun other hother _ => ?_⟩
      rw [List.mem_singleton.mp hother]
    · cases hdead
  · rw [hnames]
    decide
  · rw [hnames, List.mem_singleton] at hname
    rw [hnames, List.mem_singleton] at hother
    subst hname
    obtain ⟨rest, hrest, _⟩ := hbelow
    have hpayments : queue = "payments" := hqueue.resolve_left hother
    rw [hpayments] at hrest
    simp at hrest

def tokensLeaveTheirQueuesNames : PLift (inceptorQueueNames [] (writerTo "orders") = []) :=
  ⟨by decide +kernel⟩

/-- A writer without a name for its queue has a token for the root of the namespace, the token for
`orders` is good for `orders/refunds`, and the write handler sends where no role asks for it. -/
theorem tokens_leave_their_queues :
    (¬ Scoped [.writer] (writerTo "") busCrates 0 runtime connection shop (fun _ => none) ∅) ∧
    (¬ Scoped [.writer] (writerTo "orders") busCrates 0 runtime connection shop (fun _ => none)
      {"orders/refunds"}) ∧
    ¬ Scoped [] (writerTo "orders") busCrates 0 runtime connection shop
      (fun name => if name = "AZURE_SERVICEBUS_CONNECTION_STRING" then runtime.connectionString
        else none) ∅ := by
  refine ⟨fun h => ?_, fun h => ?_, fun h => ?_⟩
  · have hempty : "" ∈ inceptorQueueNames [.writer] (writerTo "") := by decide +kernel
    exact (h.well_signed endpoint_connection hempty).1 rfl
  · have horders : "orders" ∈ inceptorQueueNames [.writer] (writerTo "orders") := by
      decide +kernel
    exact (h.well_signed endpoint_connection horders).2 "orders/refunds" rfl (by decide +kernel)
      ⟨"/refunds".toList, by decide, .inr (.inl rfl)⟩
  · have hclient : (inceptorClient busCrates 0 runtime [] (writerTo "orders")
        fun name => if name = "AZURE_SERVICEBUS_CONNECTION_STRING" then runtime.connectionString
          else none).isSome := by decide +kernel
    obtain ⟨client, hclient⟩ := Option.isSome_iff_exists.mp hclient
    have hcover := h.covers client hclient (queuePath "orders") (accesses_target rfl)
    have hlisted := ((covered_iff busCrates_lawful runtime_parsed endpoint_connection hclient
      _).mp hcover).2.1
    have hnames := tokensLeaveTheirQueuesNames.down
    rw [hnames] at hlisted
    simp at hlisted

end Sample

end FluidBG.ServiceBus
