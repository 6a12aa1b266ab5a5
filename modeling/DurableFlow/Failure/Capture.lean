import DurableFlow.Failure.Throwable
import DurableFlow.Text.Alphabetic
import DurableFlow.Values.Invalid

/-!
# Errors of the host and how they are captured

An error of the host is known by two texts, one for people and one that shows its structure, and by the
errors behind it. A captured error is labelled by the word its structural text starts with.
-/

namespace DurableFlow

/-- The texts of one error. -/
structure ErrorText where
  /-- The text for people. -/
  shown : String
  /-- The text that shows the structure. -/
  structural : String
  deriving DecidableEq

/-- An error and the errors behind it, outermost first. -/
structure HostError where
  outer : ErrorText
  sources : List ErrorText
  deriving DecidableEq

namespace HostError

def links (e : HostError) : List ErrorText := e.outer :: e.sources

/-- An error that is a plain message. -/
def ofMessage (message : String) : HostError := ⟨⟨message, Text.quoted message⟩, []⟩

/-- A value that cannot be built, as an error. -/
def ofInvalid (e : InvalidValue) : HostError := ⟨⟨e.message, e.kind ++ "("⟩, []⟩

/-- Puts an explanation in front. -/
def withContext (e : HostError) (context : String) : HostError := ⟨⟨context, "Error \x7b"⟩, e.links⟩

/-- A throwable as an error: behind it are the throwables that it was caused by. -/
def ofThrowable (t : Throwable) : HostError :=
  let texts (u : Throwable) : ErrorText := ⟨u.text, u.describe⟩
  ⟨texts t, (Throwable.suffixes t.causes).map texts⟩

/-- All messages in one line. -/
def line (e : HostError) : String := ": ".intercalate (e.links.map ErrorText.shown)

def isLabelChar (c : Char) : Bool := Text.isAlphanumeric c || c = '_' || c = ':'

/-- The leading word of a structural text: letters, digits, underscores and colons. -/
def label (structural : String) : String :=
  match structural.toList.takeWhile isLabelChar with
  | [] => "error"
  | cs => String.ofList cs

/-- What is captured of one error without those behind it. -/
def alone (text : ErrorText) : Throwable := .new (label text.structural) (some text.shown)

/-- Walks from error to error and puts what is captured of each behind what is there. -/
def collect (captured : List Throwable) : List ErrorText → List Throwable
  | [] => captured
  | source :: behind => collect (captured ++ [alone source]) behind

/-- Makes each throwable the cause of the next one. -/
def enclose : List Throwable → Throwable
  | [] => .new "unknown" none
  | innermost :: outers => outers.foldl (fun cause outer => outer.withCause cause) innermost

/-- The throwable for an error whose own type is known. -/
def captureAs (typeName : String) (e : HostError) : Throwable :=
  enclose (collect [.new typeName (some e.outer.shown)] e.sources).reverse

/-- The throwable for an error of unknown type. -/
def capture (e : HostError) : Throwable := e.captureAs (label e.outer.structural)

/-- Does the name of a type leave open which errors are of that type? -/
def isOpen (typeName : String) : Bool := "dyn ".toList.isPrefixOf typeName.toList

/-- The throwable for an error that is handed over as one of the type of this name. -/
def captureOf (typeName : String) (e : HostError) : Throwable :=
  if isOpen typeName then e.capture else e.captureAs typeName

end HostError

end DurableFlow
