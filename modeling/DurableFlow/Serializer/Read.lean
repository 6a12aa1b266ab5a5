import DurableFlow.Envelope
import DurableFlow.Serializer.Setting

/-!
# Reading values

The type that is asked for picks the serializer or the object type, and the descriptor in the data has to
agree. Where no type is known the descriptor decides: a registered serializer, then an object type of the
scope, then the type that the descriptor spells out. Fields are found by name.
-/

namespace DurableFlow

/-- What an element is read as. -/
inductive Goal where
  | value (type : Ty)
  /-- A list of parts. -/
  | parts (what : String) (backward : Bool) (parts : List Part)
  /-- The list of field values of an object. -/
  | fields (type : ObjectType)

/-- How to read an element. -/
abbrev Reader := Goal → Except Abort Value

/-- Reads an offset from UTC. -/
def readOffset (e : Element) : Except Abort Value := do
  let n := (← e.asLong "offset seconds").toInt
  if IntKind.int.holds n then return .int (← InvalidValue.lift (Offset.check n))
  else Abort.mismatch "valid offset" s!"{n}"

namespace Setting

/-- Reads a simple value or a collection whose members are read by `items` or `entries`. -/
def readPlain (t : Ty) (e : Element) (items : List Reader) (entries : List (Reader × Reader)) :
    Except Abort Value :=
  match t with
  | .list item => do
    let _ ← e.asList "list"
    return .seq (← items.mapM fun r => r (.value item))
  | .set item => do
    let _ ← e.asList "set"
    return .seq (Ordered.ofList Value.compare (← items.mapM fun r => r (.value item)))
  | .optional item =>
    match e with
    | .null => return .none
    | e => do
      let _ ← e.asTuple "optional value" 1
      return .seq (← items.mapM fun r => r (.value item))
  | .pair first second => do
    let _ ← e.asTuple "pair" 2
    match items with
    | [r, r'] => return .seq [← r (.value first), ← r' (.value second)]
    | _ => wrongValue t.label
  | .map key value | .hashmap key value =>
    match e with
    | .map _ => do
      let es ← entries.mapM fun r => do return (← r.1 (.value key), ← r.2 (.value value))
      return .entries (Ordered.ofEntries Value.compare es)
    | e => Abort.mismatch "map" e.kind
  | t => readSimple t e

def readPart (p : Part) (e : Element) (r : Reader) : Except Abort Value :=
  match p with
  | .text what => do return .text (← e.asText what)
  | .offset => readOffset e
  | .value t => r (.value t)

def readParts (backward : Bool) : List Part → List Element → List Reader → Except Abort (List Value)
  | p :: ps, e :: es, r :: rs =>
    if backward then do
      let vs ← readParts backward ps es rs
      return (← readPart p e r) :: vs
    else do
      let v ← readPart p e r
      return v :: (← readParts backward ps es rs)
  | _, _, _ => .ok []

/-- Reads the fields of an object from values that have these names. -/
def readFields (type : String) (names : List String) (values : List Reader) :
    List Field → Except Abort (List Value)
  | [] => .ok []
  | f :: fs => do
    let v ← match (names.zip values).find? (·.1 = f.name) with
      | some (_, r) =>
        if f.required then r (.value f.type) else do pure (.some (← r (.value f.type)))
      | none =>
        if f.required then Abort.mismatch s!"field {f.name} of {type}" "absent" else .ok .none
    return v :: (← readFields type names values fs)

variable (c : Setting) (schema : Schema)

/-- Reads an object whose field values `body` reads. -/
def readObject (o : ObjectType) (body : Reader) : Except Abort Value := do
  c.policy.check o.name
  body (.fields o)

/-- Reads a body as its serializer writes it. -/
def readBody (s : Serializer) (body : Element) (r : Reader) : Except Abort Value :=
  s.guard "read" <|
    match s.codec with
    | .single _ read => read c.knows body
    | .composite what backward parts check => do
      match ← r (.parts what backward parts) with
      | .seq vs => do
        check vs
        return .seq vs
      | v => return v
    | .proxy standIn _ fromProxy => do s.report (fromProxy (← r (.value standIn)))

/-- Reads a described value of a type that is not known. -/
def readDynamic (descriptor : String) (body : Element) (r : Reader) : Except Abort Value :=
  match c.registry.byDescriptor.get? descriptor with
  | some s => do return .erased s.target descriptor false (← c.readBody s body r)
  | none =>
    match c.scope.resolve? descriptor with
    | some o => do return .erased o.type descriptor false (← c.readObject o r)
    | none =>
      match Ty.ofDescriptor? c.natives descriptor with
      | some t => do return .erased t descriptor true (← r (.value t))
      | none => .error (.error (.unknownType descriptor))

/-- Reads a described value of a type that is neither simple nor a collection. -/
def readTyped (t : Ty) (descriptor : String) (body : Element) (r : Reader) : Except Abort Value :=
  match c.registry.byType.get? t with
  | some s =>
    if s.descriptor = descriptor then c.readBody s body r
    else Abort.mismatch s.descriptor descriptor
  | none =>
    match c.scope.objectType? t with
    | none => .error (.error (.unknownType t.label))
    | some o =>
      if o.name = descriptor then c.readObject o r else Abort.mismatch o.name descriptor

/-- Reads an element whose members are read by `items` or `entries`. -/
def readNode (e : Element) (items : List Reader) (entries : List (Reader × Reader)) : Reader
  | .value t =>
    if t.isPlain then readPlain t e items entries
    else Abort.mismatch (if t = .any then "described value" else t.label) e.kind
  | .parts what backward parts => do
    let es ← e.asTuple what parts.length
    return .seq (← readParts backward parts es items)
  | .fields o =>
    match schema.fields? o.name with
    | none => Abort.mismatch s!"schema entry for {o.name}" "no entry"
    | some names => do
      let es ← e.asList o.name
      if es.length ≠ names.length then
        Abort.mismatch s!"{names.length} fields" s!"{es.length} values"
      else return .seq (← readFields o.name names items o.fields)

mutual

/-- Reads an element of an envelope with this schema. -/
def readElement : Element → Reader
  | .list es => readNode schema (.list es) (elementReaders es) []
  | .map es => readNode schema (.map es) [] (entryReaders es)
  | .described d body => fun
    | .value t =>
      if t.isPlain then readNode schema (.described d body) [] [] (.value t)
      else if t = .any then c.readDynamic d body (readElement body)
      else c.readTyped t d body (readElement body)
    | goal => readNode schema (.described d body) [] [] goal
  | e => readNode schema e [] []

def elementReaders : List Element → List Reader
  | [] => []
  | e :: es => readElement e :: elementReaders es

def entryReaders : List (Element × Element) → List (Reader × Reader)
  | [] => []
  | (k, v) :: es => (readElement k, readElement v) :: entryReaders es

end

/-- Reads an element by the serializer or the object type that `t` has. -/
def readAs (t : Ty) : Element → Except Abort Value
  | .described d body => c.readTyped t d body (c.readElement schema body)
  | e => Abort.mismatch t.label e.kind

/-- The value of type `t` in the body of an envelope. -/
def read (env : Envelope) (t : Ty) : Except Abort Value := c.readElement env.schema env.body (.value t)

end Setting

end DurableFlow
