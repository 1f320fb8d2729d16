import FluidBG.Plugin
import FluidBG.Plugins.ServiceBus
/-!
# Queue descriptions

The two encodings of a queue declaration in `plugins/azure_servicebus/src/servicebus.rs`: the Atom
entry of the data plane, and the properties of the resource manager.
-/

set_option autoImplicit false

namespace FluidBG.ServiceBus

/-! ## Texts in markup -/

/-- `str::replace`. -/
def replaced (pat rep value : String) : String :=
  String.ofList (replaceChars pat.toList rep.toList 0 value.toList)

def xmlEscape (value : String) : String :=
  replaced "'" "&apos;" (replaced "\"" "&quot;" (replaced ">" "&gt;" (replaced "<" "&lt;"
    (replaced "&" "&amp;" value))))

def xmlUnescape (value : String) : String :=
  replaced "&amp;" "&" (replaced "&apos;" "'" (replaced "&quot;" "\"" (replaced "&gt;" ">"
    (replaced "&lt;" "<" value))))

/-! ## The Atom entry -/

def pushXmlField {α : Type} [ToString α] (name : String) (value : Option α)
    (target : List (String × String)) : List (String × String) :=
  match value with
  | some value => target ++ [(name, toString value)]
  | none => target

def queueDescriptionFields (declaration : QueueDeclarationConfig) : List (String × String) :=
  let fields := [("LockDuration", declaration.lockDuration.getD "PT1M"),
    ("EnableBatchedOperations", toString (declaration.enableBatchedOperations.getD true))]
  let fields := pushXmlField "MaxSizeInMegabytes" declaration.maxSizeInMegabytes fields
  let fields :=
    pushXmlField "MaxMessageSizeInKilobytes" declaration.maxMessageSizeInKilobytes fields
  let fields :=
    pushXmlField "RequiresDuplicateDetection" declaration.requiresDuplicateDetection fields
  let fields := pushXmlField "RequiresSession" declaration.requiresSession fields
  let fields :=
    pushXmlField "DefaultMessageTimeToLive" declaration.defaultMessageTimeToLive fields
  let fields := pushXmlField "DeadLetteringOnMessageExpiration"
    declaration.deadLetteringOnMessageExpiration fields
  let fields := pushXmlField "DuplicateDetectionHistoryTimeWindow"
    declaration.duplicateDetectionHistoryTimeWindow fields
  let fields := pushXmlField "MaxDeliveryCount" declaration.maxDeliveryCount fields
  let fields := pushXmlField "AutoDeleteOnIdle" declaration.autoDeleteOnIdle fields
  let fields := pushXmlField "EnablePartitioning" declaration.enablePartitioning fields
  let fields := pushXmlField "EnableExpress" declaration.enableExpress fields
  let fields := pushXmlField "ForwardTo" declaration.forwardTo fields
  let fields := pushXmlField "ForwardDeadLetteredMessagesTo"
    declaration.forwardDeadLetteredMessagesTo fields
  pushXmlField "Status" declaration.status fields

/-- The entry before the properties. -/
def entryStart : String :=
  "<?xml version=\"1.0\" encoding=\"utf-8\"?>\n" ++
  "<entry xmlns=\"http://www.w3.org/2005/Atom\">\n" ++
  "  <content type=\"application/xml\">\n" ++
  "    <QueueDescription " ++
  "xmlns=\"http://schemas.microsoft.com/netservices/2010/10/servicebus/connect\">"

/-- The entry after them. -/
def entryEnd : String := "</QueueDescription>\n  </content>\n</entry>"

def queueDescriptionXml (declaration : QueueDeclarationConfig) : String :=
  let properties := "\n".intercalate ((queueDescriptionFields declaration).map fun field =>
    "      <" ++ field.1 ++ ">" ++ xmlEscape field.2 ++ "</" ++ field.1 ++ ">")
  entryStart ++ "\n" ++ properties ++ "\n    " ++ entryEnd

/-! ## The properties of the resource manager -/

/-- `insert_json_property`; `toValue` is `serde_json::to_value`. -/
def insertJsonProperty {α : Type} (toValue : α → Json) (name : String) (value : Option α)
    (target : List (String × Json)) : List (String × Json) :=
  match value with
  | some value => Json.insertField name (toValue value) target
  | none => target

def queueDescriptionArmProperties (declaration : QueueDeclarationConfig) : Json :=
  let i64 := fun n : Int => Json.num (.int n)
  let properties := Json.insertField "lockDuration" (.str (declaration.lockDuration.getD "PT1M")) []
  let properties := Json.insertField "enableBatchedOperations"
    (.bool (declaration.enableBatchedOperations.getD true)) properties
  let properties :=
    insertJsonProperty i64 "maxSizeInMegabytes" declaration.maxSizeInMegabytes properties
  let properties := insertJsonProperty i64 "maxMessageSizeInKilobytes"
    declaration.maxMessageSizeInKilobytes properties
  let properties := insertJsonProperty .bool "requiresDuplicateDetection"
    declaration.requiresDuplicateDetection properties
  let properties :=
    insertJsonProperty .bool "requiresSession" declaration.requiresSession properties
  let properties := insertJsonProperty .str "defaultMessageTimeToLive"
    declaration.defaultMessageTimeToLive properties
  let properties := insertJsonProperty .bool "deadLetteringOnMessageExpiration"
    declaration.deadLetteringOnMessageExpiration properties
  let properties := insertJsonProperty .str "duplicateDetectionHistoryTimeWindow"
    declaration.duplicateDetectionHistoryTimeWindow properties
  let properties := insertJsonProperty i64 "maxDeliveryCount" declaration.maxDeliveryCount properties
  let properties := insertJsonProperty .str "autoDeleteOnIdle" declaration.autoDeleteOnIdle properties
  let properties :=
    insertJsonProperty .bool "enablePartitioning" declaration.enablePartitioning properties
  let properties := insertJsonProperty .bool "enableExpress" declaration.enableExpress properties
  let properties := insertJsonProperty .str "forwardTo" declaration.forwardTo properties
  let properties := insertJsonProperty .str "forwardDeadLetteredMessagesTo"
    declaration.forwardDeadLetteredMessagesTo properties
  let properties := insertJsonProperty .str "status" declaration.status properties
  .obj properties

end FluidBG.ServiceBus
