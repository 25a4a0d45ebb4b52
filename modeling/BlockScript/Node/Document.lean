import BlockScript.Block.Registry
import BlockScript.Json.Parser
import BlockScript.Json.Printer
import BlockScript.Node.Basic
import BlockScript.Value.Literal

/-!
Programs as documents.

A list of nodes is an array of objects with one field each: the code of the kind and what the node
holds.  Previews and markers are not written: lists leave them out, and a preview in a slot is
written as the input that it covers.  `toDocument` and `ofDocument` are the two directions.
-/

namespace BlockScript

inductive Malformation where
  | invalidJson
  | listNotArray (document : Json)
  | nodeNotObject (document : Json)
  | nodeNotSingleField (document : Json)
  | nameNotString (payload : Json)
  | controlNotObject (payload : Json)
  | missingField (name : String) (payload : Json)
  | inputsNotArray (payload : Json)
  | inputCount (summary : String) (expected found : Nat)
  | notLoadable (document : Json)
  | misfit (payload : Json)
  | literal (error : ValueError)
  | notPersistent (category : Category)

def Malformation.message : Malformation → String
  | invalidJson => "invalid JSON"
  | listNotArray document => "node list must be an array: " ++ document.compact
  | nodeNotObject document => "node must be an object: " ++ document.compact
  | nodeNotSingleField document => "node must have exactly one key: " ++ document.compact
  | nameNotString payload => "variable name must be a string: " ++ payload.compact
  | controlNotObject payload => "control block payload must be an object: " ++ payload.compact
  | missingField name payload => "missing '" ++ name ++ "': " ++ payload.compact
  | inputsNotArray payload => "inputs must be an array: " ++ payload.compact
  | inputCount summary expected found =>
    "'" ++ summary ++ "' takes " ++ toString expected ++ " inputs, document has " ++
      toString found
  | notLoadable document => "block cannot be loaded: " ++ document.compact
  | misfit payload => "payload does not fit block: " ++ payload.compact
  | literal error => error.message
  | notPersistent category => category.name ++ " node cannot be persisted"

inductive DocumentError where
  | unknownCode (code : String)
  | unregistered (summary : String)
  | malformed (cause : Malformation)

def DocumentError.message : DocumentError → String
  | unknownCode code => "unknown block code: " ++ code
  | unregistered summary => "unknown block code: unregistered block '" ++ summary ++ "'"
  | malformed cause => "malformed program: " ++ cause.message

namespace Document

abbrev Result (α : Type) := Except DocumentError α

def inputField : String := "input"

def bodyFields : List String := ["body1", "body2"]

variable {κ : Type} [Vocabulary κ]

/-! ## Writing -/

section
variable [DecidableEq κ]

def code (registry : Registry κ) (k : κ) : Result String :=
  match registry.codeOf? k with
  | some code => .ok code
  | none => .error (.unregistered (describe k).summary)

def isPersistent : Node κ → Bool
  | .shadow .. | .declaration _ => false
  | _ => true

def defaultLiteral (slot : Option SlotKind) : Json :=
  ((slot.map SlotKind.default).getD (.text "")).toJson

mutual

def writeNode (registry : Registry κ) : Node κ → Result Json
  | .block k inputs => do
    let code ← code registry k
    let items ← writeInputs registry (describe k).slots inputs
    return .object [(code, .array items)]
  | .control k inputs bodies => do
    let items ← writeInputs registry (describe k).slots inputs
    let lists ← writeBodies registry bodyFields bodies
    let code ← code registry k
    return .object [(code, .object (setEntry inputField (.array items) lists))]
  | .reference _ name => return .object [(Registry.referenceCode, .string name)]
  | .declaration k => .error (.malformed (.notPersistent (describe k).category))
  | .shadow k _ _ => .error (.malformed (.notPersistent (describe k).category))

/-- The document of an input of a slot. A preview is written as what it covers, or as the slot's
default literal. -/
def writeInput (registry : Registry κ) (slot : Option SlotKind) : Input κ → Result Json
  | .literal value => return value.toJson
  | .node (.shadow _ _ (some covered)) => writeInput registry slot covered
  | .node (.shadow _ _ none) => return defaultLiteral slot
  | .node n => writeNode registry n

def writeInputs (registry : Registry κ) (slots : List SlotKind) :
    List (Input κ) → Result (List Json)
  | [] => return []
  | input :: rest => do
    let item ← writeInput registry slots.head? input
    let items ← writeInputs registry slots.tail rest
    return item :: items

def writeList (registry : Registry κ) : List (Node κ) → Result (List Json)
  | [] => return []
  | n :: rest =>
    if isPersistent n then do
      let item ← writeNode registry n
      let items ← writeList registry rest
      return item :: items
    else writeList registry rest

def writeBodies (registry : Registry κ) (fields : List String) :
    List (List (Node κ)) → Result (List (String × Json))
  | [] => return []
  | body :: rest =>
    match fields with
    | [] => return []
    | field :: fields => do
      let items ← writeList registry body
      let lists ← writeBodies registry fields rest
      return (field, .array items) :: lists

end

def toDocument (registry : Registry κ) (nodes : List (Node κ)) : Result Json :=
  return .array (← writeList registry nodes)

def toText (registry : Registry κ) (nodes : List (Node κ)) : Result String :=
  return (← toDocument registry nodes).compact

end

/-! ## Reading -/

def malformed {α : Type} (cause : Malformation) : Result α := .error (.malformed cause)

def checked (payload : Json) (n : Node κ) : Result (Node κ) :=
  match n.checked? with
  | some n => .ok n
  | none => malformed (.misfit payload)

def fitting (k : Kind) (items : List Json) : Result Unit :=
  if items.length = k.slots.length then .ok ()
  else malformed (.inputCount k.summary k.slots.length items.length)

def required {α : Type} (name : String) (payload : Json) : Option (Result α) → Result α
  | some result => result
  | none => malformed (.missingField name payload)

mutual

def readNode (registry : Registry κ) : Json → Result (Node κ)
  | .object [(code, payload)] =>
    match registry.resolve? code with
    | some k => readPayload registry k code payload
    | none => .error (.unknownCode code)
  | .object fields => malformed (.nodeNotSingleField (.object fields))
  | document => malformed (.nodeNotObject document)

def readPayload (registry : Registry κ) (k : κ) (code : String) (payload : Json) :
    Result (Node κ) :=
  match (describe k).category with
  | .reference =>
    match payload with
    | .string name => .ok (.reference k name)
    | _ => malformed (.nameNotString payload)
  | .control flow =>
    match payload with
    | .object fields => do
      let inputs ← required inputField payload (readInputsIn registry (describe k) fields)
      let bodies ← (bodyFields.take flow.bodyCount).mapM fun field =>
        required field payload (readListIn registry field fields)
      checked payload (.control k inputs bodies)
    | _ => malformed (.controlNotObject payload)
  | .statement | .expression =>
    match payload with
    | .array items => do
      fitting (describe k) items
      checked payload (.block k (← readItems registry items))
    | _ => malformed (.inputsNotArray payload)
  | .declaration | .shadow => malformed (.notLoadable (.object [(code, payload)]))

def readInputs (registry : Registry κ) (k : Kind) : Json → Result (List (Input κ))
  | .array items => do
    fitting k items
    readItems registry items
  | payload => malformed (.inputsNotArray payload)

/-- An object is a node and everything else a literal. -/
def readItems (registry : Registry κ) : List Json → Result (List (Input κ))
  | [] => return []
  | item :: rest => do
    let input ← match item with
      | .object _ => (readNode registry item).map Input.node
      | _ => match Value.ofJson item with
        | .ok value => .ok (.literal value)
        | .error e => malformed (.literal e)
    let inputs ← readItems registry rest
    return input :: inputs

def readList (registry : Registry κ) : Json → Result (List (Node κ))
  | .array items => readNodes registry items
  | document => malformed (.listNotArray document)

def readNodes (registry : Registry κ) : List Json → Result (List (Node κ))
  | [] => return []
  | item :: rest => do
    let n ← readNode registry item
    let nodes ← readNodes registry rest
    return n :: nodes

def readInputsIn (registry : Registry κ) (k : Kind) :
    List (String × Json) → Option (Result (List (Input κ)))
  | [] => none
  | (name, value) :: rest =>
    if name = inputField then some (readInputs registry k value)
    else readInputsIn registry k rest

def readListIn (registry : Registry κ) (field : String) :
    List (String × Json) → Option (Result (List (Node κ)))
  | [] => none
  | (name, value) :: rest =>
    if name = field then some (readList registry value)
    else readListIn registry field rest

end

def ofDocument (registry : Registry κ) (document : Json) : Result (List (Node κ)) :=
  readList registry document

def ofText (registry : Registry κ) (text : String) : Result (List (Node κ)) :=
  match Json.parse? text with
  | some document => ofDocument registry document
  | none => malformed .invalidJson

end Document

end BlockScript
