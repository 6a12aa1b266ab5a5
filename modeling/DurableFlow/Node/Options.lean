import DurableFlow.Machine.Executor

/-!
# The options of a node and the text they are read from

The text is a document in TOML in which at most the four options are set, each once: a name, an equals
sign and `true`, `false` or an integer on a line. Names may be quoted. Every option has a default.
-/

namespace DurableFlow

structure NodeOptions where
  devMode : Bool
  /-- Follows development mode if it is not set. -/
  verifyCheckpoints : Option Bool
  traceTransitions : Bool
  historyLimit : Nat
  deriving DecidableEq

namespace NodeOptions

def default : NodeOptions := ⟨false, none, false, 64⟩

def development : NodeOptions := { default with devMode := true, traceTransitions := true }

def production : NodeOptions := default

def verifiesCheckpoints (o : NodeOptions) : Bool := o.verifyCheckpoints.getD o.devMode

def machine (o : NodeOptions) : MachineOptions :=
  ⟨o.devMode, o.verifiesCheckpoints, o.traceTransitions, o.historyLimit⟩

end NodeOptions

namespace OptionsText

def isBlank (c : Char) : Bool := c = ' ' || c = '\t'

def skipBlanks (cs : List Char) : List Char := cs.dropWhile isBlank

/-- Characters that may stand in comments and in quoted names. -/
def isVisible (c : Char) : Bool := c = '\t' || (' ' ≤ c && c ≠ '\x7f')

/-- Is this the end of a line, up to blanks and a comment? -/
def isLineEnd (cs : List Char) : Bool :=
  match skipBlanks cs with
  | [] => true
  | c :: comment => c = '#' && comment.all isVisible

def isBare (c : Char) : Bool := c.isAlphanum || c = '_' || c = '-'

def hexValue? (ds : List Char) : Option Nat :=
  ds.foldl (fun n d => do return 16 * (← n) + (← Hex.value? d)) (some 0)

/-- The character with this code, spelled by hexadecimal digits. -/
def charOf? (ds : List Char) : Option Char := do
  let n ← hexValue? ds
  if h : n.isValidChar then some (Char.ofNatAux n h) else none

/-- The rest of a name between double quotes, after the characters read so far, and what follows. -/
def quotedName (done : List Char) : List Char → Option (List Char × List Char)
  | [] => none
  | '"' :: rest => some (done.reverse, rest)
  | '\\' :: 'u' :: a :: b :: c :: d :: rest => do quotedName ((← charOf? [a, b, c, d]) :: done) rest
  | '\\' :: 'U' :: a :: b :: c :: d :: e :: f :: g :: h :: rest => do
    quotedName ((← charOf? [a, b, c, d, e, f, g, h]) :: done) rest
  | '\\' :: c :: rest => do
    let plain ← [('b', '\x08'), ('t', '\t'), ('n', '\n'), ('f', '\x0c'), ('r', '\r'), ('"', '"'),
      ('\\', '\\')].lookup c
    quotedName (plain :: done) rest
  | c :: rest => if isVisible c then quotedName (c :: done) rest else none

/-- A name and what follows. -/
def name? : List Char → Option (List Char × List Char)
  | '"' :: rest => quotedName [] rest
  | '\'' :: rest =>
    let name := rest.takeWhile (· ≠ '\'')
    match rest.dropWhile (· ≠ '\'') with
    | _ :: rest => if name.all isVisible then some (name, rest) else none
    | [] => none
  | cs => some (cs.takeWhile isBare, cs.dropWhile isBare)

inductive Literal where
  | boolean (b : Bool)
  | integer (n : Int)

def digit? (base : Nat) (c : Char) : Option Nat := do
  let n ← Hex.value? c
  if n < base then some n else none

/-- Digits, between any two of which an underscore may stand, after those that give `n`. -/
def digits (base n : Nat) : List Char → Nat × List Char
  | '_' :: c :: rest =>
    match digit? base c with
    | some d => digits base (base * n + d) rest
    | none => (n, '_' :: c :: rest)
  | c :: rest =>
    match digit? base c with
    | some d => digits base (base * n + d) rest
    | none => (n, c :: rest)
  | [] => (n, [])

/-- One or more digits. -/
def number? (base : Nat) : List Char → Option (Nat × List Char)
  | [] => none
  | c :: rest => (digit? base c).map fun d => digits base d rest

/-- A decimal number, which has no zero in front. -/
def decimal? : List Char → Option (Nat × List Char)
  | '0' :: rest => some (0, rest)
  | cs => number? 10 cs

def integer? : List Char → Option (Int × List Char)
  | '0' :: 'x' :: cs => natural (number? 16 cs)
  | '0' :: 'o' :: cs => natural (number? 8 cs)
  | '0' :: 'b' :: cs => natural (number? 2 cs)
  | '+' :: cs => natural (decimal? cs)
  | '-' :: cs => (decimal? cs).map fun r => (-(r.1 : Int), r.2)
  | cs => natural (decimal? cs)
where
  natural (r : Option (Nat × List Char)) : Option (Int × List Char) := r.map fun r => (r.1, r.2)

def literal? : List Char → Option (Literal × List Char)
  | 't' :: 'r' :: 'u' :: 'e' :: rest => some (.boolean true, rest)
  | 'f' :: 'a' :: 'l' :: 's' :: 'e' :: rest => some (.boolean false, rest)
  | cs => do
    let (n, rest) ← integer? cs
    if IntKind.long.holds n then some (.integer n, rest) else none

/-- A line that sets an option or, if it is blank, nothing. -/
def line? (cs : List Char) : Option (Option (String × Literal)) :=
  if isLineEnd cs then some none
  else do
    let (name, rest) ← name? (skipBlanks cs)
    match skipBlanks rest with
    | '=' :: rest => do
      let (literal, rest) ← literal? (skipBlanks rest)
      if isLineEnd rest then some (some (String.ofList name, literal)) else none
    | _ => none

/-- The lines of a text, which end in a line feed, with or without a carriage return before it. -/
def splitLines : List Char → List (List Char)
  | [] => [[]]
  | '\r' :: '\n' :: cs => [] :: splitLines cs
  | '\n' :: cs => [] :: splitLines cs
  | c :: cs =>
    match splitLines cs with
    | [] => [[c]]
    | l :: ls => (c :: l) :: ls

/-- Sets an option by its name. -/
def apply (o : NodeOptions) : String × Literal → Option NodeOptions
  | ("dev_mode", .boolean b) => some { o with devMode := b }
  | ("verify_checkpoints", .boolean b) => some { o with verifyCheckpoints := some b }
  | ("trace_transitions", .boolean b) => some { o with traceTransitions := b }
  | ("history_limit", .integer n) => if 0 ≤ n then some { o with historyLimit := n.toNat } else none
  | _ => none

end OptionsText

open OptionsText in
/-- The options that a text sets, if it is a document that sets options only and none twice. A byte order
mark at its start is passed over. -/
def NodeOptions.parse? (text : String) : Option NodeOptions := do
  let cs := match text.toList with
    | '\ufeff' :: cs => cs
    | cs => cs
  let settings := (← (splitLines cs).mapM line?).filterMap id
  if (settings.map Prod.fst).Nodup then settings.foldlM apply .default else none

end DurableFlow
