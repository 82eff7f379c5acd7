import PubSub.Endpoint.Basic
/-!
# Errors of the library as they are made

An error of the library is made of what it is about and keeps most of it under the names of its class. A message can be
made of any values, so any may stand where the library itself puts texts and numbers.
-/
namespace PubSub

/-- What an error may be made of. -/
inductive Ingredient
  | value (v : Value)
  | key (k : TopicKey)
  | rule (r : RoutingRule)

/-- The ingredient as a value, if it is one. -/
def Ingredient.value? : Ingredient → Option Value
  | .value v => some v
  | .key _ | .rule _ => none

inductive LibraryError
  | library (parts : List Value)
  | config (parts : List Value)
  | manifestDecode (parts : List Value)
  | conflict (key : TopicKey) (message : Value)
  | defaultRoute (key : TopicKey) (current supplied : Value)
  | deadLetter (key : TopicKey) (current supplied : Value)
  | priority (key : TopicKey) (rank : Value) (existing supplied : RoutingRule)
  | badBound (field value reason : Value)
  | badName (field value : Value)
  | unreadableMetadata (handler raw reason : Value)
  | unresolved (placeholder : Value)
  | unavailable

/-- The names of what an error of a class is made of. The errors of other classes are made of anything. -/
def ErrorClass.ingredients? : ErrorClass → Option (List Text)
  | .conflict => some [lit "key", lit "message"]
  | .defaultRouteConflict | .deadLetterConflict => some [lit "key", lit "current", lit "supplied"]
  | .duplicatePriority => some [lit "key", lit "priority", lit "existing_rule", lit "supplied_rule"]
  | .invalidBulk => some [lit "field", lit "value", lit "constraint"]
  | .invalidKey => some [lit "field", lit "value"]
  | .metadataParse => some [lit "handler_name", lit "raw", lit "reason"]
  | .placeholder => some [lit "placeholder"]
  | .endpointUnavailable => some []
  | _ => none

namespace LibraryError

def errorClass : LibraryError → ErrorClass
  | .library _ => .library
  | .config _ => .config
  | .manifestDecode _ => .manifestDecode
  | .conflict .. => .conflict
  | .defaultRoute .. => .defaultRouteConflict
  | .deadLetter .. => .deadLetterConflict
  | .priority .. => .duplicatePriority
  | .badBound .. => .invalidBulk
  | .badName .. => .invalidKey
  | .unreadableMetadata .. => .metadataParse
  | .unresolved _ => .placeholder
  | .unavailable => .endpointUnavailable

def ingredients : LibraryError → List Ingredient
  | .library parts | .config parts | .manifestDecode parts => parts.map .value
  | .conflict key message => [.key key, .value message]
  | .defaultRoute key current supplied => [.key key, .value current, .value supplied]
  | .deadLetter key current supplied => [.key key, .value current, .value supplied]
  | .priority key rank existing supplied => [.key key, .value rank, .rule existing, .rule supplied]
  | .badBound field value reason => [.value field, .value value, .value reason]
  | .badName field value => [.value field, .value value]
  | .unreadableMetadata handler raw reason => [.value handler, .value raw, .value reason]
  | .unresolved placeholder => [.value placeholder]
  | .unavailable => []

/-- What only the message is made of. -/
def wordedOnly : List Text := [lit "message", lit "constraint", lit "reason"]

/-- What an error keeps. -/
def fields (e : LibraryError) : List (Text × Ingredient) :=
  ((e.errorClass.ingredients?.getD []).zip e.ingredients).filter fun f => f.1 ∉ wordedOnly

/-- The message of an error that is made of anything. -/
def wordingOf : List Value → Text
  | [] => []
  | [v] => v.display
  | vs => Value.literal (.tuple vs)

def message : LibraryError → Text
  | .library parts | .config parts | .manifestDecode parts => wordingOf parts
  | .conflict _ message => message.display
  | .defaultRoute key current supplied => (Conflict.defaultRoute current.display supplied.display).message key
  | .deadLetter key current supplied => (Conflict.deadLetter current.display supplied.display).message key
  | .priority key rank existing supplied => priorityClash key rank.display existing supplied
  | .badBound field value reason => boundRefusal field.display value reason.display
  | .badName field value => (ConfigError.badName field.display value).message
  | .unreadableMetadata handler raw reason =>
    (ConfigError.unreadableMetadata handler.display raw reason.display).message
  | .unresolved placeholder => (ConfigError.unresolved placeholder.display).message
  | .unavailable => EndpointError.unavailable.message

/-- The error of a class, made of these ingredients in the order of their names. -/
def make? : ErrorClass → List Ingredient → Option LibraryError
  | .library, parts => (parts.mapM Ingredient.value?).map .library
  | .config, parts => (parts.mapM Ingredient.value?).map .config
  | .manifestDecode, parts => (parts.mapM Ingredient.value?).map .manifestDecode
  | .conflict, [.key key, .value message] => some (.conflict key message)
  | .defaultRouteConflict, [.key key, .value current, .value supplied] => some (.defaultRoute key current supplied)
  | .deadLetterConflict, [.key key, .value current, .value supplied] => some (.deadLetter key current supplied)
  | .duplicatePriority, [.key key, .value rank, .rule existing, .rule supplied] =>
    some (.priority key rank existing supplied)
  | .invalidBulk, [.value field, .value value, .value reason] => some (.badBound field value reason)
  | .invalidKey, [.value field, .value value] => some (.badName field value)
  | .metadataParse, [.value handler, .value raw, .value reason] => some (.unreadableMetadata handler raw reason)
  | .placeholder, [.value placeholder] => some (.unresolved placeholder)
  | .endpointUnavailable, [] => some .unavailable
  | _, _ => none

end LibraryError

/-- The error that a refusal of a declaration is made as. -/
def ConfigError.made : ConfigError → LibraryError
  | .badName field value => .badName (.text field) value
  | .badBound field value problem => .badBound (.text field) value (.text problem.message)
  | .conflict key (.defaultRoute current supplied) => .defaultRoute key (.text current) (.text supplied)
  | .conflict key (.deadLetter current supplied) => .deadLetter key (.text current) (.text supplied)
  | .conflict key (.priority existing supplied) => .priority key (.int supplied.priority) existing supplied
  | .unreadableMetadata handler raw reason => .unreadableMetadata (.text handler) raw (.text reason)
  | .unresolved placeholder => .unresolved (.text placeholder)
  | e => .config [.text e.message]

end PubSub
