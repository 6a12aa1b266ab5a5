import DurableFlow.Machine.Snapshot

/-!
# A sample application: its types

Payments in several versions, orders and other object types, and a few types that have no fields of their
own and are written by contributed serializers only. A value of the latter is the sequence of one value of
another type.
-/

namespace DurableFlow.Sample

def type (name label : String) : Ty := .named name ("driver::app::" ++ label)

def payment : Ty := type "app.Payment" "Payment"
def paymentMemo : Ty := type "app.Payment@memo" "PaymentMemo"
def paymentStrict : Ty := type "app.Payment@strict" "PaymentStrict"
def paymentNarrow : Ty := type "app.Payment@narrow" "PaymentNarrow"
def paymentReordered : Ty := type "app.Payment@reordered" "PaymentReordered"
def foo : Ty := type "app.Foo" "Foo"
def bar : Ty := type "app.Bar" "Bar"
def order : Ty := type "app.Order" "Order"
def basket : Ty := type "app.Basket" "Basket"
def tree : Ty := type "app.Tree" "Tree"
def holder : Ty := type "app.Holder" "Holder"
def unit : Ty := type "app.Unit" "Unit"
def invoice : Ty := type "app.Invoice" "Invoice"
def fakeInstant : Ty := type "time.Instant@fake" "FakeInstant"
def twice : Ty := type "app.Twice" "Twice"

def ticket : Ty := type "app.Ticket" "Ticket"
def temperature : Ty := type "app.Temperature" "Temperature"
def celsius : Ty := type "app.Celsius" "Celsius"
def hidden : Ty := type "app.Hidden" "Hidden"
def receipt : Ty := type "app.Receipt" "Receipt"

/-- A field that is always written and has to be there. -/
def field (name : String) (type : Ty) : Field := ⟨name, type, true⟩

/-- A field that is written only if there is something to write. -/
def optionalField (name : String) (type : Ty) : Field := ⟨name, type, false⟩

def objectTypes : List ObjectType := [
  ⟨payment, "app.Payment", [field "payee" .string, field "cents" .long]⟩,
  ⟨paymentMemo, "app.Payment",
    [field "payee" .string, field "cents" .long, optionalField "memo" .string]⟩,
  ⟨paymentStrict, "app.Payment", [field "payee" .string, field "cents" .long, field "memo" .string]⟩,
  ⟨paymentNarrow, "app.Payment", [field "payee" .string, field "cents" (.int .int)]⟩,
  ⟨paymentReordered, "app.Payment", [field "cents" .long, field "payee" .string]⟩,
  ⟨foo, "app.Foo", [field "name" .string, field "amount" .long, field "tags" (.list .string)]⟩,
  ⟨bar, "app.Bar", [field "foo" foo, optionalField "note" .string]⟩,
  ⟨order, "app.Order", [field "id" .ulong, field "memo" .string]⟩,
  ⟨basket, "app.Basket", [field "items" (.map .string .uint)]⟩,
  ⟨tree, "app.Tree", [field "label" .string, field "children" (.list tree)]⟩,
  ⟨holder, "app.Holder", [field "slot" .any]⟩,
  ⟨unit, "app.Unit", []⟩,
  ⟨invoice, "app.Invoice", [field "total" (.builtin .decimal), field "currency" (.builtin .currency),
    field "due" (.builtin .localDate), field "payments" (.list payment)]⟩,
  ⟨fakeInstant, "time.Instant", [field "seconds" .long]⟩,
  ⟨twice, "app.Twice", [field "n" .long, field "n" .long]⟩]

/-- The types of the application with the type of the one value that each stands for. -/
def wrappers : List (Ty × Ty) :=
  [(ticket, .uint), (temperature, .uint), (celsius, .long), (hidden, .long), (receipt, payment)]

/-- Every type without parameters. -/
def baseTypes : List Ty :=
  IntKind.all.map .int ++ [.boolean, .char, .double, .string] ++ Builtin.all.map .builtin ++
    [ResumePoint.type, Snapshot.type, .any] ++ objectTypes.map (·.type) ++ wrappers.map (·.1)

/-- Simple types that can be keys. -/
def keyTypes : List Ty := IntKind.all.map .int ++ [.boolean, .char, .string]

/-- The types that values may have. -/
def types : List Ty :=
  baseTypes ++ baseTypes.flatMap (fun t => [.list t, .optional t]) ++
    keyTypes.flatMap (fun t =>
      [.set t, .map .string t, .map t .long, .pair t .string, .hashmap t .long]) ++
    [.list (.list .long), .optional (.optional .string), .list (.optional (.int .int)),
      .set (.list (.int .short)), .map .string (.optional .uint), .map .string (.list foo),
      .map .long (.map .string .boolean), .map (.pair (.int .int) .string) (.list (.optional .double)),
      .map .string .any, .map (.builtin .currency) (.builtin .decimal),
      .hashmap (.int .int) (.pair .boolean .char), .pair (.map .string (.list foo)) (.optional .uint),
      .pair .any .any, .pair payment order]

def type? (name : String) : Option Ty := types.find? (·.name == name)

/-- The object types that a scope may hold. -/
def loadable : List ObjectType := objectTypes ++ Snapshot.objectTypes

def objectType? (name : String) : Option ObjectType := loadable.find? (·.type.name == name)

end DurableFlow.Sample
