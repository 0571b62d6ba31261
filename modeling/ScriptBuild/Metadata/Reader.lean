import ScriptBuild.Metadata.Quoted

/-!
# Reading module images

A module image is a JSON value with the fields `name` and `types`; each type has the fields `name`
and `namespace`. Both may be written as an object, or as an array of their fields in order. Other
fields of objects are payload: they have to be JSON values, and nothing else is asked of them.

The image is read octet by octet. `step` takes in one octet, and `finish` decides when there are no
more; so the answer for an image that is refused midway does not depend on what comes after. A value
of the wrong type is refused when it has been read, if it is a scalar, and at its opening bracket
otherwise.
-/

namespace ScriptBuild.Metadata

set_option autoImplicit false

inductive Form
  | object
  | array
  deriving DecidableEq, Repr

structure ModuleDraft where
  name : Option (Option String) := none
  types : Option (List TypeDeclaration) := none
  deriving DecidableEq, Repr

structure TypeDraft where
  name : Option String := none
  space : Option (Option String) := none
  deriving DecidableEq, Repr

/-- The metadata that the fields of a module give; both fields may be missing. -/
def ModuleDraft.metadata (draft : ModuleDraft) : Metadata :=
  ⟨draft.name.join, draft.types.getD []⟩

/-- The type that its fields give; the name may not be missing. -/
def TypeDraft.declaration? (draft : TypeDraft) : Option TypeDeclaration :=
  draft.name.map fun name => ⟨name, draft.space.join⟩

/-- The values that reading is within. Types that have been read are listed from the last back. -/
inductive Context
  | outside
  | module (form : Form) (draft : ModuleDraft)
  | types (form : Form) (draft : ModuleDraft) (listed : List TypeDeclaration)
  | type (form : Form) (draft : ModuleDraft) (listed : List TypeDeclaration) (inner : Form)
      (entry : TypeDraft)
  | finished (metadata : Metadata)
  deriving DecidableEq, Repr

inductive Slot
  | image
  | moduleName
  | moduleTypes
  | typeValue
  | typeName
  | typeSpace
  | payload
  deriving DecidableEq, Repr

inductive Scalar
  | null
  | boolean
  | number (tooLarge : Bool)
  | text (s : String)
  deriving DecidableEq, Repr

inductive Mode
  /-- A value, or the end of the array if it may be empty. -/
  | value (slot : Slot) (orEnd : Bool)
  /-- The rest of `null`, `true` or `false`. -/
  | literal (slot : Slot) (scalar : Scalar) (next : UInt8) (rest : Bytes)
  /-- The rest of a numeral; its octets are listed from the last back. -/
  | numeral (slot : Slot) (part : Numeral.Part) (text : Bytes)
  /-- The rest of a string. -/
  | quoted (slot : Slot) (position : Quoted.Position) (text : Bytes)
  /-- A key, or the end of the object if it may be empty. -/
  | key (orEnd : Bool)
  /-- The rest of a key. -/
  | quotedKey (position : Quoted.Position) (text : Bytes)
  | colon (slot : Slot)
  /-- A comma or the end of what surrounds the value that was read. -/
  | after
  deriving DecidableEq, Repr

/-- How far reading has come. The arrays and objects of the payload that reading is within are
listed by their forms, the innermost first. -/
structure State where
  context : Context
  skipping : List Form
  mode : Mode
  deriving DecidableEq, Repr

namespace Context

def accept : Context → Slot → Scalar → Except Fault Context
  | context, .payload, _ => .ok context
  | _, _, .number true => .error .malformed
  | .module form draft, .moduleName, .null => .ok (.module form { draft with name := some none })
  | .module form draft, .moduleName, .text s =>
    .ok (.module form { draft with name := some (some s) })
  | .type form draft listed inner entry, .typeName, .text s =>
    .ok (.type form draft listed inner { entry with name := some s })
  | .type form draft listed inner entry, .typeSpace, .null =>
    .ok (.type form draft listed inner { entry with space := some none })
  | .type form draft listed inner entry, .typeSpace, .text s =>
    .ok (.type form draft listed inner { entry with space := some (some s) })
  | _, _, _ => .error .mismatched

def openArray : Context → Slot → Except Fault (Context × Mode)
  | .outside, .image => .ok (.module .array {}, .value .moduleName true)
  | .module form draft, .moduleTypes => .ok (.types form draft [], .value .typeValue true)
  | .types form draft listed, .typeValue =>
    .ok (.type form draft listed .array {}, .value .typeName true)
  | _, _ => .error .mismatched

def openObject : Context → Slot → Except Fault (Context × Mode)
  | .outside, .image => .ok (.module .object {}, .key true)
  | .types form draft listed, .typeValue => .ok (.type form draft listed .object {}, .key true)
  | _, _ => .error .mismatched

def closeType (form : Form) (draft : ModuleDraft) (listed : List TypeDeclaration)
    (entry : TypeDraft) : Except Fault Context :=
  match entry.declaration? with
  | some declaration => .ok (.types form draft (declaration :: listed))
  | none => .error .mismatched

def closeArray : Context → Except Fault Context
  | .module .array draft => .ok (.finished draft.metadata)
  | .types form draft listed => .ok (.module form { draft with types := some listed.reverse })
  | .type form draft listed .array entry => closeType form draft listed entry
  | _ => .error .malformed

def closeObject : Context → Except Fault Context
  | .module .object draft => .ok (.finished draft.metadata)
  | .type form draft listed .object entry => closeType form draft listed entry
  | _ => .error .malformed

/-- What a comma asks for. An array of fields that are all there has no more. -/
def afterComma : Context → Except Fault Mode
  | .module .object _ => .ok (.key false)
  | .module .array draft =>
    if draft.types.isNone then .ok (.value .moduleTypes false) else .error .malformed
  | .types _ _ _ => .ok (.value .typeValue false)
  | .type _ _ _ .object _ => .ok (.key false)
  | .type _ _ _ .array entry =>
    if entry.space.isNone then .ok (.value .typeSpace false) else .error .malformed
  | _ => .error .malformed

/-- What the value after a key stands for. A known field may not be given twice. -/
def slotOf (context : Context) (key : String) : Except Fault Slot :=
  match context with
  | .module _ draft =>
    if key = "name" then if draft.name.isSome then .error .mismatched else .ok .moduleName
    else if key = "types" then if draft.types.isSome then .error .mismatched else .ok .moduleTypes
    else .ok .payload
  | .type _ _ _ _ entry =>
    if key = "name" then if entry.name.isSome then .error .mismatched else .ok .typeName
    else if key = "namespace" then if entry.space.isSome then .error .mismatched else .ok .typeSpace
    else .ok .payload
  | _ => .ok .payload

end Context

def isSpace (b : UInt8) : Bool :=
  b = octet ' ' || b = octet '\t' || b = octet '\n' || b = octet '\r'

namespace State

def initial : State := ⟨.outside, [], .value .image false⟩

def onScalar (s : State) (slot : Slot) (scalar : Scalar) : Except Fault State := do
  return { s with context := ← s.context.accept slot scalar, mode := .after }

def skipInto (s : State) (form : Form) : State :=
  { s with
    skipping := form :: s.skipping
    mode := match form with
      | .array => .value .payload true
      | .object => .key true }

def onOpenArray (s : State) (slot : Slot) : Except Fault State :=
  if slot = .payload then .ok (s.skipInto .array)
  else do
    let (context, mode) ← s.context.openArray slot
    return { s with context, mode }

def onOpenObject (s : State) (slot : Slot) : Except Fault State :=
  if slot = .payload then .ok (s.skipInto .object)
  else do
    let (context, mode) ← s.context.openObject slot
    return { s with context, mode }

def onCloseArray (s : State) : Except Fault State :=
  match s.skipping with
  | .array :: outer => .ok { s with skipping := outer, mode := .after }
  | .object :: _ => .error .malformed
  | [] => do return { s with context := ← s.context.closeArray, mode := .after }

def onCloseObject (s : State) : Except Fault State :=
  match s.skipping with
  | .object :: outer => .ok { s with skipping := outer, mode := .after }
  | .array :: _ => .error .malformed
  | [] => do return { s with context := ← s.context.closeObject, mode := .after }

def onComma (s : State) : Except Fault State :=
  match s.skipping with
  | .array :: _ => .ok { s with mode := .value .payload false }
  | .object :: _ => .ok { s with mode := .key false }
  | [] => do return { s with mode := ← s.context.afterComma }

def onValue (s : State) (slot : Slot) (b : UInt8) : Except Fault State :=
  if b = octet '[' then s.onOpenArray slot
  else if b = octet '\x7b' then s.onOpenObject slot
  else if b = octet '"' then .ok { s with mode := .quoted slot .plain [] }
  else if b = octet 'n' then
    .ok { s with mode := .literal slot .null (octet 'u') [octet 'l', octet 'l'] }
  else if b = octet 't' then
    .ok { s with mode := .literal slot .boolean (octet 'r') [octet 'u', octet 'e'] }
  else if b = octet 'f' then
    .ok { s with mode := .literal slot .boolean (octet 'a') [octet 'l', octet 's', octet 'e'] }
  else
    match Numeral.begin? b with
    | some part => .ok { s with mode := .numeral slot part [b] }
    | none => .error .malformed

def onAfter (s : State) (b : UInt8) : Except Fault State :=
  if isSpace b then .ok { s with mode := .after }
  else if b = octet ',' then s.onComma
  else if b = octet ']' then s.onCloseArray
  else if b = octet '\x7d' then s.onCloseObject
  else .error .malformed

def onKey (s : State) (text : Bytes) : Except Fault State :=
  if s.skipping.isEmpty then
    match Quoted.string? text with
    | some key => do return { s with mode := .colon (← s.context.slotOf key) }
    | none => .error .malformed
  else .ok { s with mode := .colon .payload }

def onText (s : State) (slot : Slot) (text : Bytes) : Except Fault State :=
  if slot = .payload then .ok { s with mode := .after }
  else
    match Quoted.string? text with
    | some string => s.onScalar slot (.text string)
    | none => .error .malformed

def onNumeral (s : State) (slot : Slot) (text : Bytes) : Except Fault State :=
  if slot = .payload then .ok { s with mode := .after }
  else s.onScalar slot (.number (Numeral.isTooLarge text.reverse))

def step (s : State) (b : UInt8) : Except Fault State :=
  match s.mode with
  | .value slot orEnd =>
    if isSpace b then .ok s
    else if orEnd && b = octet ']' then s.onCloseArray
    else s.onValue slot b
  | .literal slot scalar next rest =>
    if b = next then
      match rest with
      | [] => s.onScalar slot scalar
      | c :: cs => .ok { s with mode := .literal slot scalar c cs }
    else .error .malformed
  | .numeral slot part text =>
    match Numeral.step part b with
    | .more part' => .ok { s with mode := .numeral slot part' (b :: text) }
    | .ended => do (← s.onNumeral slot text).onAfter b
    | .refused => .error .malformed
  | .quoted slot position text =>
    match Quoted.step (slot != .payload) text position b with
    | .more position' text' => .ok { s with mode := .quoted slot position' text' }
    | .closed text' => s.onText slot text'
    | .refused => .error .malformed
  | .key orEnd =>
    if isSpace b then .ok s
    else if orEnd && b = octet '\x7d' then s.onCloseObject
    else if b = octet '"' then .ok { s with mode := .quotedKey .plain [] }
    else .error .malformed
  | .quotedKey position text =>
    match Quoted.step s.skipping.isEmpty text position b with
    | .more position' text' => .ok { s with mode := .quotedKey position' text' }
    | .closed text' => s.onKey text'
    | .refused => .error .malformed
  | .colon slot =>
    if isSpace b then .ok s
    else if b = octet ':' then .ok { s with mode := .value slot false }
    else .error .malformed
  | .after => s.onAfter b

/-- The fault of a numeral at the end of the image. A numeral of the payload that is cut off is not
told from one that goes wrong. -/
def endedNumeral (slot : Slot) (part : Numeral.Part) (text : Bytes) : Fault :=
  if slot = .payload then if part.isComplete then .truncated else .malformed
  else if part.isComplete then
    if Numeral.isTooLarge text.reverse then .malformed else .mismatched
  else .truncated

def finish (s : State) : Except Fault Metadata :=
  match s.context, s.mode with
  | .finished metadata, _ => .ok metadata
  | _, .numeral slot part text => .error (endedNumeral slot part text)
  | _, _ => .error .truncated

def run (s : State) (bytes : Bytes) : Except Fault State := bytes.foldlM step s

end State

def ofImage (image : Bytes) : Except Fault Metadata := do
  (← State.initial.run image).finish

@[simp] theorem State.run_nil (s : State) : s.run [] = .ok s := rfl

theorem State.run_cons (s : State) (b : UInt8) (rest : Bytes) :
    s.run (b :: rest) = (s.step b).bind fun t => t.run rest := rfl

theorem State.run_append (s : State) (a b : Bytes) :
    s.run (a ++ b) = (s.run a).bind fun t => t.run b := by
  simp only [State.run, List.foldlM_append]
  rfl

end ScriptBuild.Metadata
