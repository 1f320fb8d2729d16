import FluidBG.Lib.Percent
import FluidBG.Plugins.ApiUrls
import FluidBG.Proof.BusMessages
/-!
# What the URLs and forms say

A URL is read back as the names it was made of, and a form as its fields, whatever characters stand
in them. The encoding leaves dots alone, so the two names that a path takes for steps are lost.
-/

set_option autoImplicit false

namespace FluidBG

open Lib ServiceBus

/-! ## The bytes that are kept -/

theorem percentEncodeByte_eq : percentEncodeByte = Percent.encodeByte isUnreserved := rfl

theorem encodePathByte_eq : Rabbitmq.encodePathByte = percentEncodeByte := by
  have hsame : ∀ byte : UInt8, ((65 ≤ byte && byte ≤ 90) || (97 ≤ byte && byte ≤ 122) ||
      (48 ≤ byte && byte ≤ 57) || byte = 45 || byte = 46 || byte = 95 || byte = 126) =
        isUnreserved byte := by
    have hall : ∀ n < 256, ((65 ≤ UInt8.ofNat n && UInt8.ofNat n ≤ 90) ||
        (97 ≤ UInt8.ofNat n && UInt8.ofNat n ≤ 122) ||
        (48 ≤ UInt8.ofNat n && UInt8.ofNat n ≤ 57) || UInt8.ofNat n = 45 || UInt8.ofNat n = 46 ||
        UInt8.ofNat n = 95 || UInt8.ofNat n = 126) = isUnreserved (UInt8.ofNat n) := by
      decide +kernel
    intro byte
    have hbyte := hall byte.toNat byte.toNat_lt
    rwa [UInt8.ofNat_toNat] at hbyte
  funext byte
  unfold Rabbitmq.encodePathByte percentEncodeByte
  rw [hsame]

/-- What is kept is ASCII and no syntax of a URL. -/
theorem isUnreserved_plain {byte : UInt8} (h : isUnreserved byte = true) :
    byte.toNat < 128 ∧
      Char.ofNat byte.toNat ∉ ['%', '&', '=', '+', '/', '?', '#'] := by
  have hall : ∀ n < 256, isUnreserved (UInt8.ofNat n) = true →
      n < 128 ∧ Char.ofNat n ∉ ['%', '&', '=', '+', '/', '?', '#'] := by
    decide +kernel
  exact hall byte.toNat byte.toNat_lt (by rwa [UInt8.ofNat_toNat])

theorem plain_isUnreserved : Percent.Plain isUnreserved := by
  intro byte h
  refine ⟨(isUnreserved_plain h).1, fun heq => (isUnreserved_plain h).2 ?_⟩
  rw [heq]
  decide

theorem formSafe_isUnreserved : Percent.FormSafe isUnreserved where
  plain := plain_isUnreserved
  ampersand byte h heq := (isUnreserved_plain h).2 (by simp [heq])
  equals byte h heq := (isUnreserved_plain h).2 (by simp [heq])
  plus byte h heq := (isUnreserved_plain h).2 (by simp [heq])

theorem pathSafe_isUnreserved : Percent.PathSafe isUnreserved where
  plain := plain_isUnreserved
  slash byte h heq := (isUnreserved_plain h).2 (by simp [heq])
  query byte h heq := (isUnreserved_plain h).2 (by simp [heq])
  fragment byte h heq := (isUnreserved_plain h).2 (by simp [heq])

theorem percentEncodeSegment_toList (value : String) :
    (percentEncodeSegment value).toList = Percent.encode isUnreserved (asBytes value) := by
  rw [percentEncodeSegment, String.toList_ofList]
  rfl

/-! ## Forms -/

/-- **A form is read back as its fields**: what a parser of
`application/x-www-form-urlencoded` makes of a token request is the names and the values, in their
order, whatever characters they have. -/
theorem form_read_back (fields : List (String × String)) :
    Percent.parseForm (Identity.formUrlencoded fields).toList =
      fields.map fun field => (asBytes field.1, asBytes field.2) := by
  rw [← Percent.parseForm_form formSafe_isUnreserved (fields.map fun field =>
    (asBytes field.1, asBytes field.2))]
  congr 1
  rw [Identity.formUrlencoded, String.toList_intercalate, Percent.form, List.map_map, List.map_map]
  congr 1
  refine List.map_congr_left fun field _ => ?_
  simp [percentEncodeSegment_toList]

/-! ## Paths -/

/-- The URL is read as these names under the base. -/
def ReadsAs (url base : String) (names : List String) : Prop :=
  ∃ text, url.toList = base.toList ++ text ∧ Percent.readPath text = names.map asBytes

/-- No name is one of the two that are steps. -/
def NoSteps (names : List String) : Prop := ∀ name ∈ names, name ≠ "." ∧ name ≠ ".."

theorem isDots_iff {name : String} : Percent.IsDots (asBytes name) ↔ name = "." ∨ name = ".." := by
  have hone : asBytes "." = [46] := by decide +kernel
  have htwo : asBytes ".." = [46, 46] := by decide +kernel
  unfold Percent.IsDots
  rw [← htwo, ← hone]
  constructor
  · intro h
    exact h.imp asBytes_inj asBytes_inj
  · intro h
    exact h.imp (congrArg asBytes) (congrArg asBytes)

/-- The text of a path, where the segments are names. -/
theorem path_names (names : List String) :
    Percent.path isUnreserved (names.map asBytes) =
      ("/".intercalate (names.map percentEncodeSegment)).toList := by
  rw [String.toList_intercalate, Percent.path, List.map_map, List.map_map]
  congr 1
  exact List.map_congr_left fun name _ => (percentEncodeSegment_toList name).symm

theorem readsAs_iff {url base : String} {names : List String} (rest : List Char)
    (hne : names ≠ []) (hrest : rest.head? = none ∨ rest.head? = some '?' ∨ rest.head? = some '#')
    (hurl : url.toList =
      base.toList ++ (("/".intercalate (names.map percentEncodeSegment)).toList ++ rest)) :
    ReadsAs url base names ↔ NoSteps names := by
  have hbytes : names.map asBytes ≠ [] := by simpa using hne
  have hread := Percent.readPath_path_iff pathSafe_isUnreserved hbytes hrest
  have hsteps : (∀ name ∈ names.map asBytes, ¬ Percent.IsDots name) ↔ NoSteps names := by
    unfold NoSteps
    simp [isDots_iff]
  rw [← hsteps, ← hread, path_names]
  constructor
  · intro h
    obtain ⟨text, htext, hnames⟩ := h
    rw [hurl] at htext
    rw [List.append_cancel_left htext]
    exact hnames
  · intro h
    exact ⟨_, hurl, h⟩

/-- The fixed words of the URLs stand for themselves. -/
theorem percentEncodeSegment_words : ∀ word ∈ ["api", "users", "permissions", "queues",
    "subscriptions", "resourceGroups", "providers", "Microsoft.ServiceBus", "namespaces", "oauth2",
    "v2.0", "token"], percentEncodeSegment word = word := by
  decide +kernel

theorem encodePathSegment_eq (value : String) :
    Rabbitmq.encodePathSegment value = percentEncodeSegment value := by
  unfold Rabbitmq.encodePathSegment percentEncodeSegment
  rw [encodePathByte_eq]

theorem noSteps_cons {name : String} {names : List String} (h : name ≠ "." ∧ name ≠ "..") :
    NoSteps (name :: names) ↔ NoSteps names := by
  simp [NoSteps, h]

section Rabbit

variable (client : Rabbitmq.ManagementClient)

theorem userUrl_readsAs_iff (username : String) :
    ReadsAs (client.userUrl username) client.baseUrl ["api", "users", username] ↔
      NoSteps [username] := by
  rw [readsAs_iff [] (by simp) (.inl rfl), noSteps_cons (by decide),
    noSteps_cons (by decide)]
  have hwords := percentEncodeSegment_words
  simp only [Rabbitmq.ManagementClient.userUrl, encodePathSegment_eq]
  simp [hwords]

theorem permissionsUrl_readsAs_iff (username : String) :
    ReadsAs (client.permissionsUrl username) client.baseUrl
        ["api", "permissions", client.vhost, username] ↔ NoSteps [client.vhost, username] := by
  rw [readsAs_iff [] (by simp) (.inl rfl), noSteps_cons (by decide),
    noSteps_cons (by decide)]
  have hwords := percentEncodeSegment_words
  simp only [Rabbitmq.ManagementClient.permissionsUrl, encodePathSegment_eq]
  simp [hwords]

theorem queueUrl_readsAs_iff (queue : String) :
    ReadsAs (client.queueUrl queue) client.baseUrl ["api", "queues", client.vhost, queue] ↔
      NoSteps [client.vhost, queue] := by
  rw [readsAs_iff [] (by simp) (.inl rfl), noSteps_cons (by decide),
    noSteps_cons (by decide)]
  have hwords := percentEncodeSegment_words
  simp only [Rabbitmq.ManagementClient.queueUrl, encodePathSegment_eq]
  simp [hwords]

theorem queuesUrl_readsAs_iff :
    ReadsAs client.queuesUrl client.baseUrl ["api", "queues", client.vhost] ↔
      NoSteps [client.vhost] := by
  rw [readsAs_iff [] (by simp) (.inl rfl), noSteps_cons (by decide),
    noSteps_cons (by decide)]
  have hwords := percentEncodeSegment_words
  simp only [Rabbitmq.ManagementClient.queuesUrl, encodePathSegment_eq]
  simp [hwords]

end Rabbit

theorem eq_some_of_required {value : Option String} {name found : String}
    (h : ServiceBus.BusClient.required value name = .ok found) : value = some found := by
  cases value with
  | none => cases h
  | some value => rw [Except.ok.inj h]

/-- Where the ARM API is. -/
def armBase : String := "https://management.azure.com/"

/-- The names in the path of a queue of a namespace. -/
def armQueueNames (subscription resourceGroup ns : String) : List String :=
  ["subscriptions", subscription, "resourceGroups", resourceGroup, "providers",
    "Microsoft.ServiceBus", "namespaces", ns, "queues"]

theorem noSteps_armQueueNames (subscription resourceGroup ns : String) (more : List String) :
    NoSteps (armQueueNames subscription resourceGroup ns ++ more) ↔
      NoSteps (subscription :: resourceGroup :: ns :: more) := by
  simp [NoSteps, armQueueNames]

theorem armQueuesPath_eq (subscription resourceGroup ns : String) :
    armQueuesPath subscription resourceGroup ns = armBase ++
      "/".intercalate ((armQueueNames subscription resourceGroup ns).map percentEncodeSegment) := by
  have hword : ∀ word : String, word ∈ ["api", "users", "permissions", "queues",
      "subscriptions", "resourceGroups", "providers", "Microsoft.ServiceBus", "namespaces",
      "oauth2", "v2.0", "token"] → percentEncodeSegment word = word :=
    percentEncodeSegment_words
  have hbase : "https://management.azure.com/subscriptions/" =
      armBase ++ "subscriptions" ++ "/" := by decide +kernel
  have hgroups : "/resourceGroups/" = "/" ++ "resourceGroups" ++ "/" := by decide +kernel
  have hproviders : "/providers/Microsoft.ServiceBus/namespaces/" =
      "/" ++ "providers" ++ "/" ++ "Microsoft.ServiceBus" ++ "/" ++ "namespaces" ++ "/" := by
    decide +kernel
  have hqueues : "/queues" = "/" ++ "queues" := by decide +kernel
  unfold armQueuesPath
  rw [hbase, hgroups, hproviders, hqueues]
  simp only [armQueueNames, List.map_cons, List.map_nil, String.intercalate_cons_cons,
    String.intercalate_singleton, String.append_assoc]
  rw [hword "subscriptions" (by simp), hword "resourceGroups" (by simp),
    hword "providers" (by simp), hword "Microsoft.ServiceBus" (by simp),
    hword "namespaces" (by simp), hword "queues" (by simp)]

/-- What stands after the base, where more names follow. -/
theorem intercalate_append_singleton (names : List String) (hne : names ≠ []) (name : String) :
    "/".intercalate ((names ++ [name]).map percentEncodeSegment) =
      "/".intercalate (names.map percentEncodeSegment) ++ "/" ++ percentEncodeSegment name := by
  induction names with
  | nil => exact absurd rfl hne
  | cons first names ih =>
    cases names with
    | nil => simp
    | cons second names =>
      have htail := ih (by simp)
      simp only [List.cons_append, List.map_cons, String.intercalate_cons_cons] at htail ⊢
      rw [htail]
      simp only [String.append_assoc]

theorem armQueuesUrl_readsAs_iff {client : BusClient} {management : ManagementConfig}
    {url : String} (h : client.armQueuesUrl management = .ok url) :
    ∃ subscription resourceGroup, management.subscriptionId = some subscription ∧
      management.resourceGroup = some resourceGroup ∧
      (ReadsAs url armBase (armQueueNames subscription resourceGroup
          (management.namespaceName.getD client.namespaceName)) ↔
        NoSteps [subscription, resourceGroup,
          management.namespaceName.getD client.namespaceName]) := by
  unfold BusClient.armQueuesUrl at h
  obtain ⟨subscription, hsubscription, h⟩ := bind_eq_ok.mp h
  obtain ⟨resourceGroup, hgroup, h⟩ := bind_eq_ok.mp h
  refine ⟨subscription, resourceGroup, eq_some_of_required hsubscription,
    eq_some_of_required hgroup, ?_⟩
  have hsteps := noSteps_armQueueNames subscription resourceGroup
    (management.namespaceName.getD client.namespaceName) []
  rw [List.append_nil] at hsteps
  rw [← hsteps]
  refine readsAs_iff armApiVersion.toList (by simp [armQueueNames])
    (.inr (.inl (by decide))) ?_
  rw [← Except.ok.inj h, armQueuesPath_eq]
  simp only [String.toList_append, List.append_assoc]

theorem armQueueUrl_readsAs_iff {client : BusClient} {management : ManagementConfig}
    {queue url : String} (h : client.armQueueUrl management queue = .ok url) :
    ∃ subscription resourceGroup, management.subscriptionId = some subscription ∧
      management.resourceGroup = some resourceGroup ∧
      (ReadsAs url armBase (armQueueNames subscription resourceGroup
          (management.namespaceName.getD client.namespaceName) ++ [queue]) ↔
        NoSteps [subscription, resourceGroup,
          management.namespaceName.getD client.namespaceName, queue]) := by
  unfold BusClient.armQueueUrl at h
  obtain ⟨subscription, hsubscription, h⟩ := bind_eq_ok.mp h
  obtain ⟨resourceGroup, hgroup, h⟩ := bind_eq_ok.mp h
  refine ⟨subscription, resourceGroup, eq_some_of_required hsubscription,
    eq_some_of_required hgroup, ?_⟩
  rw [← noSteps_armQueueNames]
  refine readsAs_iff armApiVersion.toList (by simp [armQueueNames])
    (.inr (.inl (by decide))) ?_
  rw [intercalate_append_singleton _ (by simp [armQueueNames]), ← Except.ok.inj h,
    armQueuesPath_eq]
  simp only [String.toList_append, List.append_assoc]

/-! ## Token requests -/

/-- Under the authority of a workload identity. -/
def authorityBase (config : Identity.WorkloadIdentityConfig) : String :=
  trimEndSlashes config.authorityHost ++ "/"

theorem tokenUrl_readsAs_iff (config : Identity.WorkloadIdentityConfig) :
    ReadsAs config.tokenUrl (authorityBase config) [config.tenantId, "oauth2", "v2.0", "token"] ↔
      NoSteps [config.tenantId] := by
  have hsteps : NoSteps [config.tenantId, "oauth2", "v2.0", "token"] ↔
      NoSteps [config.tenantId] := by
    simp [NoSteps]
  rw [← hsteps]
  refine readsAs_iff [] (by simp) (.inl rfl) ?_
  have hpath : "/oauth2/v2.0/token" = "/" ++ "oauth2" ++ "/" ++ "v2.0" ++ "/" ++ "token" := by
    decide +kernel
  rw [Identity.WorkloadIdentityConfig.tokenUrl, hpath]
  simp only [List.map_cons, List.map_nil, String.intercalate_cons_cons,
    String.intercalate_singleton, percentEncodeSegment_words "oauth2" (by simp),
    percentEncodeSegment_words "v2.0" (by simp), percentEncodeSegment_words "token" (by simp),
    String.toList_append, authorityBase, List.append_assoc, List.append_nil]

/-- **The URLs of the management APIs name what they are made for**, whatever characters the names
have, unless one of them is a dot or two: those are steps to whoever reads the URL, and the request
is one for another resource. -/
theorem urls_name_resources (rabbit : Rabbitmq.ManagementClient) (username queue : String)
    (bus : BusClient) (management : ManagementConfig) (config : Identity.WorkloadIdentityConfig) :
    (ReadsAs (rabbit.userUrl username) rabbit.baseUrl ["api", "users", username] ↔
      NoSteps [username]) ∧
    (ReadsAs (rabbit.permissionsUrl username) rabbit.baseUrl
      ["api", "permissions", rabbit.vhost, username] ↔ NoSteps [rabbit.vhost, username]) ∧
    (ReadsAs (rabbit.queueUrl queue) rabbit.baseUrl ["api", "queues", rabbit.vhost, queue] ↔
      NoSteps [rabbit.vhost, queue]) ∧
    (ReadsAs rabbit.queuesUrl rabbit.baseUrl ["api", "queues", rabbit.vhost] ↔
      NoSteps [rabbit.vhost]) ∧
    (∀ url, bus.armQueuesUrl management = .ok url → ∃ subscription resourceGroup,
      management.subscriptionId = some subscription ∧
      management.resourceGroup = some resourceGroup ∧
      (ReadsAs url armBase (armQueueNames subscription resourceGroup
          (management.namespaceName.getD bus.namespaceName)) ↔
        NoSteps [subscription, resourceGroup, management.namespaceName.getD bus.namespaceName])) ∧
    (∀ url, bus.armQueueUrl management queue = .ok url → ∃ subscription resourceGroup,
      management.subscriptionId = some subscription ∧
      management.resourceGroup = some resourceGroup ∧
      (ReadsAs url armBase (armQueueNames subscription resourceGroup
          (management.namespaceName.getD bus.namespaceName) ++ [queue]) ↔
        NoSteps [subscription, resourceGroup, management.namespaceName.getD bus.namespaceName,
          queue])) ∧
    (ReadsAs config.tokenUrl (authorityBase config)
      [config.tenantId, "oauth2", "v2.0", "token"] ↔ NoSteps [config.tenantId]) :=
  ⟨userUrl_readsAs_iff rabbit username, permissionsUrl_readsAs_iff rabbit username,
    queueUrl_readsAs_iff rabbit queue, queuesUrl_readsAs_iff rabbit,
    fun _ => armQueuesUrl_readsAs_iff, fun _ => armQueueUrl_readsAs_iff,
    tokenUrl_readsAs_iff config⟩

end FluidBG
