import DurableFlow.Proofs.Environment.Setups
import DurableFlow.Sample.Serializers

/-!
# Reading by type and by descriptor

A described value is read by the serializer or the object type of the type that is asked for, or, where no
type is asked for, of the descriptor. Both come to the same one, and to the same value.
-/

namespace DurableFlow

namespace Setting

variable {c : Setting} {schema : Schema} {t : Ty} {v : Value} {e body : Element} {d : String}

/-- This is how values are read where a type is asked for that is neither simple nor a collection. Simple
types are read without descriptors there, also those that have a serializer. -/
theorem readElement_eq_readAs (hplain : t.isPlain = false) (hany : t ≠ .any) (e : Element) :
    c.readElement schema e (.value t) = c.readAs schema t e := by
  have hnode : ∀ items entries, readNode schema e items entries (.value t) =
      Abort.mismatch t.label e.kind := by
    intro items entries
    rw [readNode, if_neg (Bool.eq_false_iff.1 hplain), if_neg hany]
  cases e with
  | described d body =>
    rw [readElement_described, if_neg (Bool.eq_false_iff.1 hplain), if_neg hany]
    rfl
  | list es =>
    rw [readElement_list]
    exact hnode _ _
  | map es =>
    rw [readElement_map]
    exact hnode _ _
  | null | bool | long | ulong | double | char | text | binary => exact hnode [] []

theorem readDynamic_of_readTyped (hr : c.registry.Consistent) (hs : c.scope.Coherent)
    (hfree : ∀ t o, c.scope.objectType? t = some o → c.registry.byDescriptor.get? o.name = none)
    {r : Reader} (h : c.readTyped t d body r = .ok v) :
    c.readDynamic d body r = .ok (.erased t d false v) := by
  rw [readTyped] at h
  cases hbound : c.registry.byType.get? t with
  | some s =>
    rw [hbound] at h
    by_cases hd : s.descriptor = d
    · simp only [if_pos hd] at h
      have hdescriptor := hr.byDescriptor_of_byType hbound
      rw [hd] at hdescriptor
      rw [readDynamic, hdescriptor]
      simp only [h, hr.target t s hbound]
      rfl
    · simp only [if_neg hd] at h
      cases h
  | none =>
    rw [hbound] at h
    cases ho : c.scope.objectType? t with
    | none =>
      rw [ho] at h
      cases h
    | some o =>
      rw [ho] at h
      by_cases hd : o.name = d
      · simp only [if_pos hd] at h
        have hdescriptor := hfree t o ho
        have hresolve := hs.resolve t o ho
        rw [hd] at hdescriptor hresolve
        rw [readDynamic, hdescriptor, hresolve]
        simp only [h, hs.type t o ho]
        rfl
      · simp only [if_neg hd] at h
        cases h

theorem readElement_any_of_readAs (hr : c.registry.Consistent) (hs : c.scope.Coherent)
    (hfree : ∀ t o, c.scope.objectType? t = some o → c.registry.byDescriptor.get? o.name = none)
    (h : c.readAs schema t e = .ok v) :
    ∃ d body, e = .described d body ∧
      c.readElement schema e (.value .any) = .ok (.erased t d false v) := by
  cases e with
  | described d body =>
    refine ⟨d, body, rfl, ?_⟩
    rw [readElement_described]
    exact readDynamic_of_readTyped hr hs hfree h
  | _ => cases h

/-- Whatever object types a scope has loaded and whatever serializers have been registered, with names that
go with one type each and of which none is a descriptor: an element that is read by what a type has is read
as the same value of that type, under the name of its descriptor, where no type is asked for. Asking for a
type that is neither simple nor a collection comes to reading by what it has. -/
theorem read_any_of_read (natives : List Ty) (id : Nat) (label : String) (policy : Policy)
    (events : List SetupEvent)
    (hnames : ∀ o ∈ SetupEvent.loads events, ∀ o' ∈ SetupEvent.loads events,
      o.name = o'.name → o.type = o'.type)
    (hfree : ∀ o ∈ SetupEvent.loads events,
      (SetupEvent.leaveAll events (blank natives id label policy)).registry.byDescriptor.get? o.name =
        none)
    (schema : Schema) (t : Ty) (e : Element) :
    let c := SetupEvent.leaveAll events (blank natives id label policy)
    (∀ v, c.readAs schema t e = .ok v → ∃ d body, e = .described d body ∧
      c.readElement schema e (.value .any) = .ok (.erased t d false v)) ∧
    (t.isPlain = false → t ≠ .any → c.readElement schema e (.value t) = c.readAs schema t e) := by
  intro c
  have hgrown : c.Grown := SetupEvent.grown_leaveAll (.empty natives id label policy) events
  have hscope : c.scope = (SetupEvent.loads events).foldl Scope.load (.new id label) :=
    SetupEvent.scope_leaveAll events _
  have hcoherent : c.scope.Coherent := hscope ▸ Scope.coherent_foldl_load id label hnames
  have hunregistered : ∀ t o, c.scope.objectType? t = some o →
      c.registry.byDescriptor.get? o.name = none := by
    intro t o ho
    rw [hscope] at ho
    exact hfree o ((Scope.mem_of_loadAll ho).resolve_right fun h => nomatch h)
  exact ⟨fun v => readElement_any_of_readAs hgrown.consistent hcoherent hunregistered,
    fun hplain hany => readElement_eq_readAs hplain hany e⟩

section

open Sample

/-- Payments are loaded, and a serializer of receipts is registered that writes them as payments. Another
one claims the name of the first and fails. -/
def deskEvents : List SetupEvent :=
  [.loaded plainType, .registered false (Builtin.boxed .long), .registered true (receiptSerializer "app"),
    .registered true { ticketSerializer "app" with descriptor := "app.Receipt" }]

def desk : Setting := SetupEvent.leaveAll deskEvents (blank [] 1 "desk" (.new 1 true))

def paymentSchema : Schema := ⟨[.composite "app.Payment" ["payee", "cents"]]⟩

def receiptElement : Element :=
  .described "app.Receipt" (.described "app.Payment" (.list [.text "bob", .long 7]))

theorem read_any_of_read_receipt :
    (∀ o ∈ SetupEvent.loads deskEvents, ∀ o' ∈ SetupEvent.loads deskEvents,
      o.name = o'.name → o.type = o'.type) ∧
    (∀ o ∈ SetupEvent.loads deskEvents, desk.registry.byDescriptor.get? o.name = none) ∧
    ∃ d v, desk.readElement paymentSchema receiptElement (.value receipt) = .ok v ∧
      desk.readElement paymentSchema receiptElement (.value .any) = .ok (.erased receipt d false v) := by
  have hnames : ∀ o ∈ SetupEvent.loads deskEvents, ∀ o' ∈ SetupEvent.loads deskEvents,
      o.name = o'.name → o.type = o'.type := by
    simp [SetupEvent.loads, deskEvents]
  have hfree : ∀ o ∈ SetupEvent.loads deskEvents, desk.registry.byDescriptor.get? o.name = none := by
    have hpayment : (desk.registry.byDescriptor.get? "app.Payment").isNone = true := by decide +kernel
    simpa [SetupEvent.loads, deskEvents, plainType] using hpayment
  have hok : (desk.readElement paymentSchema receiptElement (.value receipt)).isOk = true := by
    decide +kernel
  obtain ⟨hread, hsame⟩ := read_any_of_read [] 1 "desk" (.new 1 true) deskEvents hnames hfree
    paymentSchema receipt receiptElement
  cases h : desk.readElement paymentSchema receiptElement (.value receipt) with
  | error e =>
    rw [h] at hok
    cases hok
  | ok v =>
    obtain ⟨d, body, -, hany⟩ := hread v ((hsame rfl (by decide)).symm.trans h)
    exact ⟨hnames, hfree, d, v, rfl, hany⟩

end

end Setting

end DurableFlow
