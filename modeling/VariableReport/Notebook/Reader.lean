import VariableReport.Files
import VariableReport.Json.Reader
import VariableReport.Notebook.Node
import VariableReport.Value.Printer

/-!
# Reading notebooks

A notebook file holds a JSON object of format version 4. Texts that were saved as lists
are joined, and marks that do not belong in a file are taken out. Both steps look at
every cell, so a file without the keys they need is refused.

The reader stands for a library of notebooks, whose schema is left out: what else it would ask
for is not looked at. No result is about what is read here; the cells and outputs of a notebook
are arbitrary wherever something is proved of them.
-/

namespace VariableReport.Notebook

/-- Whether content of a media type is JSON itself, so that its lists are not lines. -/
def isJsonMedia (media : Text) : Bool :=
  media = "application/json".toList ||
    (Text.startsWith media "application/".toList && Text.endsWith media "+json".toList)

def joinMedia (media : Text) (content : Json) : Json :=
  match content with
  | .array items =>
    if isJsonMedia media then content
    else
      match Json.texts? items with
      | some ts => .str ts.flatten
      | none => content
  | _ => content

/-- A bundle of content by media type with its lists of lines joined. -/
def joinBundle : Json → Except Failure Json
  | .object members => .ok (.object (members.map fun (k, v) => (k, joinMedia k v)))
  | j => .error (.noMember j.typeName "items".toList)

/-- Change the value of a key, if the node has it. -/
def modify (key : Text) (f : Json → Except Failure Json) :
    List (Text × Json) → Except Failure (List (Text × Json))
  | [] => .ok []
  | (k, v) :: members =>
    if k = key then do .ok ((k, ← f v) :: members)
    else do .ok ((k, v) :: (← modify key f members))

/-- Whether a value counts as given: neither empty nor zero nor false. -/
def isGiven : Json → Bool
  | .null => false
  | .bool b => b
  | .int n => n ≠ 0
  | .float d => !d.isZero
  | .str t => !t.isEmpty
  | .array items => !items.isEmpty
  | .object members => !members.isEmpty

def isHashable : Json → Bool
  | .array _ => false
  | .object _ => false
  | _ => true

/-- An output of a code cell with its lists of lines joined. -/
def joinOutput (output : Json) : Except Failure Json := do
  let type ← get output "output_type".toList (.str [])
  if !isHashable type then .error (.notHashable (typeName type))
  else
    match output with
    | .object members =>
      if isText type "display_data".toList || isText type "execute_result".toList then
        .ok (.object (← modify "data".toList joinBundle members))
      else if isGiven type then .ok (.object (← modify "text".toList joined members))
      else .ok output
    | j => .ok j

/-- The outputs of a code cell. Only a list of them is changed. -/
def joinOutputs : Json → Except Failure Json
  | .array outputs => do .ok (.array (← outputs.mapM joinOutput))
  | j => do
    let _ ← (← items j).mapM joinOutput
    .ok j

def joinAttachments : Json → Except Failure Json
  | .object members => do
    .ok (.object (← members.mapM fun (k, v) => do .ok (k, ← joinBundle v)))
  | j => .error (.noMember j.typeName "items".toList)

/-- A cell with its lists of lines joined. -/
def joinCell : Json → Except Failure Json
  | .object members => do
    let members ← modify "source".toList joined members
    let members ← modify "attachments".toList joinAttachments members
    let isCode := ((Json.find? "cell_type".toList members).map (isText · "code".toList)).getD false
    if isCode then .ok (.object (← modify "outputs".toList joinOutputs members))
    else .ok (.object members)
  | .array items =>
    let member := if items.any (isText · "source".toList) then "source" else "get"
    .error (lacks (.array items) member.toList)
  | .str t =>
    let member := if Text.occursIn "source".toList t then "source" else "get"
    .error (lacks (.str t) member.toList)
  | j => .error (.notContainer j.typeName)

/-- Metadata from which marks can be taken out. -/
def checkMetadata (node : Json) : Except Failure Unit := do
  match ← demand node "metadata".toList with
  | .object _ => .ok ()
  | .array _ => .error .listWithoutNames
  | j => .error (.noMember j.typeName "pop".toList)

/-- The cells of a notebook, joined and checked. -/
def tidyCells : Json → Except Failure Json
  | .array cells => do .ok (.array (← cells.mapM joinCell))
  | j => do
    let _ ← (← items j).mapM joinCell
    .ok j

/-- The notebook of an object: its cells are joined, and it and they have metadata. -/
def tidy (members : List (Text × Json)) : Except Failure Json := do
  let cells ← tidyCells (← demand (.object members) "cells".toList)
  checkMetadata (.object members)
  let _ ← (← items cells).mapM checkMetadata
  .ok (.object (← modify "cells".toList (fun _ => .ok cells) members))

/-- Whether a failure says that something is missing from a notebook. -/
def isLack : Failure → Bool
  | .noKey _ => true
  | .noMember _ _ => true
  | _ => false

/-- Whether a number is four, written as a whole number or not. -/
def isFour (version : Json) : Bool :=
  match version with
  | .int n => n = 4
  | .float d => (Value.float d).sameKey (.int 4)
  | _ => false

/-- The format version must be four. -/
def checkVersion (version : Json) : Except Failure Unit :=
  if isFour version then .ok ()
  else if !isHashable version then .error (.notHashable version.typeName)
  else
    match version.toValue.text? with
    | some t => .error (.notebookVersion t)
    | none => .error .integerTooLong

/-- The whole number that a version is written as; a truth value is zero or one. -/
def wholeVersion (version : Json) : Except Failure Int :=
  match version with
  | .int n => .ok n
  | .bool b => .ok (if b then 1 else 0)
  | _ => .error .versionNotWhole

/-- The names of cells are compared with each other. -/
def checkNames (cells : Json) : Except Failure Unit := do
  for cell in ← items cells do
    let name ← get cell "id".toList .null
    if !isHashable name then throw (.notHashable (typeName name))

/-- Both parts of the version must be whole numbers. From version 4.5 on cells have names. -/
def checkTidied (notebook : Json) : Except Failure Unit := do
  let _ ← wholeVersion (← get notebook "nbformat".toList (.int 1))
  let minor ← wholeVersion (← get notebook "nbformat_minor".toList (.int 0))
  if 5 ≤ minor then checkNames (← demand notebook "cells".toList)

/-- The notebook of a JSON value. -/
def ofJson (j : Json) : Except Failure Json := do
  checkVersion (← get j "nbformat".toList (.int 1))
  match j with
  | .object members =>
    match tidy members with
    | .ok notebook =>
      checkTidied notebook
      .ok notebook
    | .error e => .error (if isLack e then .notebookIncomplete e else e)
  | j => .error (.noMember j.typeName "get".toList)

/-- The JSON value of a notebook file. -/
def jsonOf [Host] (t : Text) : Except Failure Json :=
  match Json.read t .notebook with
  | .ok j => .ok j
  | .error (.tooDeep c) => .error (.json (.tooDeep c))
  | .error _ => .error (.notebookNotJson t)

/-- Whether a failure is one of reading, which is told with the path of the notebook. -/
def isUnreadable : Failure → Bool
  | .file _ => true
  | .utf8 _ => true
  | .notebookNotJson _ => true
  | .notebookVersion _ => true
  | .integerTooLong => true
  | _ => false

/-- The notebook of a file. -/
def read [Host] (fs : Files) (p : Path) : Except Failure Json :=
  match (do ofJson (← jsonOf (← fs.readText p))) with
  | .ok notebook => .ok notebook
  | .error e => .error (if isUnreadable e then .notebookUnreadable p.text e else e)

end VariableReport.Notebook
