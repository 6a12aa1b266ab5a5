import DurableFlow.Environment.Routing
import DurableFlow.Failure.Throwable

/-!
# Snapshots of suspended flows

A suspended flow is captured as the point where it goes on and the values of its local variables. Frozen,
it is the bytes of the captured snapshot in the context for checkpoints.
-/

namespace DurableFlow

/-- A throwable as a value: its parts are its type name, its message and its cause. -/
def Throwable.toValue (t : Throwable) : Value := link t.outer (ofLinks t.causes)
where
  link (l : ThrowableLink) (cause : Value) : Value :=
    .seq [.text l.typeName, .ofOption (l.message.map .text), cause]
  ofLinks : List ThrowableLink → Value
    | [] => .none
    | l :: ls => .some (link l (ofLinks ls))

/-- The link that a type name and an optional message make. -/
def ThrowableLink.ofValues? (typeName : String) : Value → Option ThrowableLink
  | .seq [] => some ⟨typeName, none⟩
  | .seq [.text m] => some ⟨typeName, some m⟩
  | _ => none

/-- The throwable that a value is. -/
def Throwable.ofValue? : Value → Option Throwable
  | .seq [.text typeName, message, .seq []] => do
    return ⟨← ThrowableLink.ofValues? typeName message, []⟩
  | .seq [.text typeName, message, .seq [cause]] => do
    return ⟨← ThrowableLink.ofValues? typeName message, (← ofValue? cause).chain⟩
  | _ => none

/-- Where a suspended flow goes on. -/
structure ResumePoint where
  label : String
  step : UInt32
  deriving DecidableEq

namespace ResumePoint

def type : Ty := .named "flow.ResumePoint" "ledgerflow_statemachine::state::ResumePoint"

def objectType : ObjectType where
  type := type
  name := "flow.ResumePoint"
  fields := [⟨"label", .string, true⟩, ⟨"step", .uint, true⟩]

def toValue (p : ResumePoint) : Value := .seq [.text p.label, .int p.step.toNat]

def ofValue? : Value → Option ResumePoint
  | .seq [.text label, .int step] => some ⟨label, UInt32.ofNat step.toNat⟩
  | _ => none

end ResumePoint

structure Snapshot where
  flowId : FlowId
  flowClass : String
  resumePoint : ResumePoint
  /-- Local variables, which are erased values, in the order of their names. -/
  locals : List (String × Value)

namespace Snapshot

def type : Ty := .named "flow.FiberSnapshot" "ledgerflow_statemachine::state::FiberSnapshot"

def objectType : ObjectType where
  type := type
  name := "flow.FiberSnapshot"
  fields := [⟨"flowId", .builtin .flowId, true⟩, ⟨"flowClass", .string, true⟩,
    ⟨"resumePoint", ResumePoint.type, true⟩, ⟨"locals", .map .string .any, true⟩]

def new (flowId : FlowId) (flowClass : String) (resumePoint : ResumePoint) : Snapshot :=
  ⟨flowId, flowClass, resumePoint, []⟩

/-- Captures a local variable, in place of an earlier one of its name. -/
def withLocal (s : Snapshot) (name : String) (type : Ty) (v : Value) : Snapshot :=
  { s with locals := Ordered.put compare name (v.erase type) s.locals }

def toValue (s : Snapshot) : Value :=
  .seq [.atom (.flowId s.flowId), .text s.flowClass, s.resumePoint.toValue,
    .entries (s.locals.map fun (name, v) => (.text name, v))]

def localOf? : Value × Value → Option (String × Value)
  | (.text name, v) => some (name, v)
  | _ => none

def ofValue? : Value → Option Snapshot
  | .seq [.atom (.flowId id), .text flowClass, point, .entries es] => do
    return ⟨id, flowClass, ← ResumePoint.ofValue? point, ← es.mapM localOf?⟩
  | _ => none

/-- The object types of the library itself. -/
def objectTypes : List ObjectType := [objectType, ResumePoint.objectType]

end Snapshot

namespace Call

/-- The snapshot in bytes that are read with this context. -/
def thawWith (e : Nat) (c : Context) (bs : Bytes) : Call Snapshot := do
  match Snapshot.ofValue? (← deserialize e c Snapshot.type bs) with
  | some s => return s
  | none => lift (wrongValue Snapshot.type.label)

def freeze (e : Nat) (s : Snapshot) : Call Bytes := checkpointSerialize e Snapshot.type s.toValue

def thaw (e : Nat) (bs : Bytes) : Call Snapshot := do thawWith e (← checkpointContextOf e) bs

end Call

end DurableFlow
