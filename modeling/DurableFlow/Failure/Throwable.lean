import DurableFlow.Text.Quoted

/-!
# Portable error values

An error crosses process boundaries as a chain of links, outermost first: its type name and message, and
those of its causes.
-/

namespace DurableFlow

structure ThrowableLink where
  typeName : String
  message : Option String
  deriving DecidableEq

def ThrowableLink.text (l : ThrowableLink) : String :=
  match l.message with
  | some m => s!"{l.typeName}: {m}"
  | none => l.typeName

structure Throwable where
  outer : ThrowableLink
  causes : List ThrowableLink
  deriving DecidableEq

namespace Throwable

/-- A throwable that nothing caused. -/
def new (typeName : String) (message : Option String) : Throwable := ⟨⟨typeName, message⟩, []⟩

/-- All links, outermost first. -/
def chain (t : Throwable) : List ThrowableLink := t.outer :: t.causes

/-- The throwable with this cause in place of its own. -/
def withCause (t cause : Throwable) : Throwable := { t with causes := cause.chain }

/-- The throwables that are left when outer links are taken off. -/
def suffixes : List ThrowableLink → List Throwable
  | [] => []
  | l :: ls => ⟨l, ls⟩ :: suffixes ls

def text (t : Throwable) : String := "; caused by ".intercalate (t.chain.map ThrowableLink.text)

/-- The form that shows every part of a chain, which is nothing where the chain is empty. -/
def describeChain : List ThrowableLink → String
  | [] => "None"
  | l :: ls => "Some(" ++ describeLink l (describeChain ls) ++ ")"
where
  describeLink (l : ThrowableLink) (cause : String) : String :=
    let message := match l.message with
      | some m => "Some(" ++ Text.quoted m ++ ")"
      | none => "None"
    "ThrowableValue \x7b type_name: " ++ Text.quoted l.typeName ++ ", message: " ++ message ++
      ", cause: " ++ cause ++ " \x7d"

def describe (t : Throwable) : String := describeChain.describeLink t.outer (describeChain t.causes)

end Throwable

end DurableFlow
