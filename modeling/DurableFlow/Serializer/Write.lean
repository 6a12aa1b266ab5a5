import DurableFlow.Schema
import DurableFlow.Serializer.Setting

/-!
# Writing values

Simple values and collections are written as they are. Any other value is described: by the descriptor of
the serializer registered for its type, or else by the name of its object type, which the policy has to
admit, or else, in a slot of unknown type only, by the descriptor of its own type. The schema collects how
the described values are encoded.
-/

namespace DurableFlow

/-- How the type of a value is known to the reader. -/
inductive Slot where
  | typed
  /-- By its descriptor only; the type goes by this name, and may lend its descriptor or not. -/
  | erased (name : String) (native : Bool)

/-- A step of writing extends the schema. -/
abbrev Writing (α : Type) := Schema → Except Abort (α × Schema)

namespace Writing

variable {α β : Type}

protected def pure (a : α) : Writing α := fun s => .ok (a, s)

protected def bind (x : Writing α) (f : α → Writing β) : Writing β := fun s =>
  match x s with
  | .ok (a, s) => f a s
  | .error e => .error e

instance : Monad Writing where
  pure := Writing.pure
  bind := Writing.bind

def fail (e : Abort) : Writing α := fun _ => .error e

def lift (r : Except Abort α) : Writing α := fun s =>
  match r with
  | .ok a => .ok (a, s)
  | .error e => .error e

def note (n : TypeNotation) : Writing Unit := fun s => .ok ((), s.add n)

end Writing

/-- How to write a value, given its type and slot. -/
abbrev Writer := Ty → Slot → Writing Element

namespace Setting

/-- Writes a simple value or a collection whose members are written by `items` or `entries`. -/
def writePlain (t : Ty) (v : Value) (items : List Writer) (entries : List (Writer × Writer)) :
    Writing Element :=
  match t, v with
  | .list item, .seq _ | .set item, .seq _ => do
    return .list (← items.mapM fun w => w item .typed)
  | .optional item, .seq _ =>
    match items with
    | [] => return .null
    | [w] => do return .list [← w item .typed]
    | _ => .lift (wrongValue t.label)
  | .pair first second, .seq _ =>
    match items with
    | [v, w] => do return .list [← v first .typed, ← w second .typed]
    | _ => .lift (wrongValue t.label)
  | .map key value, .entries _ | .hashmap key value, .entries _ => do
    return .map (← entries.mapM fun w => do return (← w.1 key .typed, ← w.2 value .typed))
  | t, v => .lift (writeSimple t v)

def writePart (label : String) (p : Part) (v : Value) (w : Writer) : Writing Element :=
  match p, v with
  | .text _, .text s => return .text s
  | .offset, .int n => return .long (Int64.ofInt n)
  | .value t, _ => w t .typed
  | _, _ => .lift (wrongValue label)

def writeParts (label : String) : List Part → List Value → List Writer → Writing (List Element)
  | [], [], [] => return []
  | p :: ps, v :: vs, w :: ws => do
    let e ← writePart label p v w
    return e :: (← writeParts label ps vs ws)
  | _, _, _ => .lift (wrongValue label)

/-- Writes the body of a value that has a serializer; `standIns` writes the stand-ins of values. -/
def writeBody (standIns : Value → Writer) (s : Serializer) (v : Value) (items : List Writer) :
    Writing Element :=
  match s.codec with
  | .single write _ => .lift (write v)
  | .composite _ _ parts _ =>
    match v with
    | .seq vs => do return .list (← writeParts s.target.label parts vs items)
    | _ => .lift (wrongValue s.target.label)
  | .proxy standIn toProxy _ => do standIns (← .lift (s.report (toProxy v))) standIn .typed

/-- Writes the fields after those already written, of which `names` are the names. -/
def writeFields (label : String) (names : List String) (values : List Element) :
    List Field → List Value → List Writer → Writing (List String × List Element)
  | [], [], [] => return (names, values)
  | f :: fs, v :: vs, w :: ws =>
    let present (write : Writing Element) : Writing (List String × List Element) := do
      if names.contains f.name then
        .lift (Abort.mismatch "unique field names" s!"field {f.name} written twice")
      else
        let e ← write
        writeFields label (names ++ [f.name]) (values ++ [e]) fs vs ws
    if f.required then present (w f.type .typed)
    else match v with
      | .seq [] => writeFields label names values fs vs ws
      | _ => present do
        match ← w (.optional f.type) .typed with
        | .list [e] => return e
        | _ => .lift (wrongValue label)
  | _, _, _ => .lift (wrongValue label)

/-- Objects of one name must have one list of fields throughout an envelope. -/
def noteFields (name : String) (fields : List String) : Writing Unit := fun s =>
  match s.fields? name with
  | some known =>
    if known = fields then .ok ((), s)
    else Abort.mismatch s!"consistent field layout for {name}" "a different layout"
  | none => .ok ((), s.add (.composite name fields))

variable (c : Setting) (standIns : Value → Writer)

/-- Writes a value that has to be described. -/
def writeDescribed (v : Value) (items : List Writer) (entries : List (Writer × Writer)) : Writer :=
  fun t slot =>
    match c.registry.byType.get? t with
    | some s => do
      let body ← fun schema => s.guard "write" (writeBody standIns s v items schema)
      .note (.restricted s.descriptor s.id)
      return .described s.descriptor body
    | none =>
      match c.scope.objectType? t, slot with
      | some o, _ => do
        .lift (c.policy.check o.name)
        match v with
        | .seq vs => do
          let (names, values) ← writeFields o.name [] [] o.fields vs items
          noteFields o.name names
          return .described o.name (.list values)
        | _ => .lift (wrongValue o.name)
      | none, .typed => .fail (.error (.unknownType t.label))
      | none, .erased name native =>
        match native, t.nativeDescriptor with
        | true, some descriptor => do return .described descriptor (← writePlain t v items entries)
        | _, _ => .fail (.error (.unknownType name))

/-- Writes a value whose members are written by `items` or `entries`. -/
def writeNode (v : Value) (items : List Writer) (entries : List (Writer × Writer)) : Writer :=
  fun t slot =>
    match slot with
    | .typed =>
      if t.isPlain then writePlain t v items entries
      else if t = .any then .lift (wrongValue t.label)
      else c.writeDescribed standIns v items entries t slot
    | .erased _ _ => c.writeDescribed standIns v items entries t slot

mutual

/-- Writes a value; stand-ins of values are written by `standIns`. -/
def writeOver : Value → Writer
  | .seq vs => c.writeNode standIns (.seq vs) (writersOver vs) []
  | .entries es => c.writeNode standIns (.entries es) [] (entryWritersOver es)
  | .erased type name native v => fun t slot =>
    match t, slot with
    | .any, .typed => writeOver v type (.erased name native)
    | _, _ => c.writeNode standIns (.erased type name native v) [] [] t slot
  | v => c.writeNode standIns v [] []

def writersOver : List Value → List Writer
  | [] => []
  | v :: vs => writeOver v :: writersOver vs

def entryWritersOver : List (Value × Value) → List (Writer × Writer)
  | [] => []
  | (k, v) :: es => (writeOver k, writeOver v) :: entryWritersOver es

end

/-- Writes a value in which stand-ins may stand within stand-ins `nesting` deep. A conversion that goes on
for longer has no end for all that is known, and the host breaks it off. -/
def writeWithin : Nat → Value → Writer
  | 0, _, _, _ => .fail .panic
  | nesting + 1, v, t, slot => c.writeOver (writeWithin nesting) v t slot

/-- How deep stand-ins may nest. -/
def maxStandIns : Nat := 1000

/-- The body for a value of type `t` and the schema for it. -/
def write (t : Ty) (v : Value) : Except Abort (Element × Schema) :=
  c.writeWithin maxStandIns v t .typed Schema.empty

end Setting

end DurableFlow
