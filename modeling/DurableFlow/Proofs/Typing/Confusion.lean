import DurableFlow.Proofs.Environment.Calls
import DurableFlow.Proofs.Reading.Dynamic
import DurableFlow.Proofs.Typing.Reading
import DurableFlow.Proofs.Typing.Writing

/-!
# No value is taken for one of another type

Values go through writing and reading without their types, by way of what is bound to a type or to a text.
However a factory is set up with typed serializers, whatever is on the way of a value is made for its type.
Serializers could as well break off when they are given other values: nobody would see a difference.
-/

namespace DurableFlow.Setting

variable {H : Host} {c c' : Setting} {events events' : List SetupEvent}

/-- No value is taken for one of another type. The second setting may differ from the first one in what its
serializers do with values of other types than their own. -/
structure Unconfused (H : Host) (c c' : Setting) : Prop where
  byType : ∀ t s, c.registry.byType.get? t = some s → s.target = t
  byDescriptor : ∀ d s, c.registry.byDescriptor.get? d = some s → s.descriptor = d
  objectType : ∀ t o, c.scope.objectType? t = some o → o.type = t
  resolve : ∀ d o, c.scope.resolve? d = some o → o.name = d
  native : ∀ d t t', Ty.ofDescriptor? c.natives d = some t → t'.nativeDescriptor = some d → t' = t
  serialize : ∀ m t v, Value.Of H t v → c.serialize m t v = c'.serialize m t v
  /-- Nothing but the own code of a contributed serializer may call a value one of another type. -/
  foreign : ∀ m t v e, Value.Of H t v → c.serialize m t v = .error e → e.isForeign = true →
    c.Reports H e
  body : ∀ s, c.registry.Binds s → ∀ schema e,
    Gives (Value.Of H s.target) (c.readBody s e (c.readElement schema e))
  object : ∀ o, ((∃ t, c.scope.objectType? t = some o) ∨ ∃ d, c.scope.resolve? d = some o) →
    ∀ schema e, Gives (Value.Of H o.type) (c.readObject o (c.readElement schema e))
  element : ∀ schema e t, Gives (Value.Of H t) (c.readElement schema e (.value t))
  deserialize : ∀ m t bs, c.deserialize m t bs = c'.deserialize m t bs ∧
    Gives (Value.Of H t) (c.deserialize m t bs)

theorem serialize_agrees (hc : c.Typed H) (hcc : c.Agrees H c') {t : Ty} {v : Value}
    (hv : Value.Of H t v) (m : Magic) : c.serialize m t v = c'.serialize m t v := by
  obtain ⟨hwrite, -⟩ := write_alike (P := fun _ => True) (fun _ _ => trivial) (fun _ _ => trivial) hc hcc hv
  rw [Setting.serialize, hwrite, ← Setting.serialize]

theorem foreign_of_serialize (hc : c.Typed H) (hcc : c.Agrees H c') {t : Ty} {v : Value}
    (hv : Value.Of H t v) {m : Magic} {e : Abort} (h : c.serialize m t v = .error e)
    (he : e.isForeign = true) : c.Reports H e := by
  obtain ⟨-, hfails⟩ := write_alike (P := fun e => e.isForeign = true → c.Reports H e)
    (fun _ hnot he => absurd he (Bool.eq_false_iff.1 hnot)) (fun _ hreports _ => hreports) hc hcc hv
  cases hw : c.write t v with
  | error e' =>
    rw [serialize_of_write_error hw] at h
    obtain rfl := Except.error.inj h
    exact hfails _ hw he
  | ok r =>
    rw [serialize_of_write hw, Envelope.encode] at h
    split at h
    · cases h
    · obtain rfl := Except.error.inj h
      cases he

theorem read_deserialize (hc : c.Typed H) (hcc : c.Agrees H c') (m : Magic) (t : Ty) (bs : Bytes) :
    c.deserialize m t bs = c'.deserialize m t bs ∧ Gives (Value.Of H t) (c.deserialize m t bs) := by
  cases hdecode : Envelope.decode m bs with
  | error e =>
    rw [deserialize_of_decode_error hdecode, deserialize_of_decode_error hdecode]
    exact ⟨rfl, .error _⟩
  | ok env =>
    rw [deserialize_of_decode hdecode, deserialize_of_decode hdecode, read, read,
      ← readElement_agrees hc hcc]
    exact ⟨rfl, (readElement_typed hc env.schema env.body).value t⟩

theorem Typed.unconfused (hc : c.Typed H) (hcc : c.Agrees H c') : c.Unconfused H c' where
  byType := hc.grown.consistent.target
  byDescriptor d s h := ((hc.grown.consistent.byDescriptor_iff d s).1 h).1
  objectType t o h := (hc.objects t o h).1
  resolve d o h := hc.grown.name_of_resolve? h
  native d t t' ht ht' := by
    have hfound := List.find?_some ht
    rw [Bool.and_eq_true, beq_iff_eq] at hfound
    rw [Ty.nativeDescriptor] at ht'
    split_ifs at ht' with hnative
    exact Ty.eq_of_name_eq hnative hfound.1 ((Option.some.inj ht').trans hfound.2.symm)
  serialize m t v hv := serialize_agrees hc hcc hv m
  foreign m t v e hv h he := foreign_of_serialize hc hcc hv h he
  body s hs schema e := readBody_gives hc hs e (readElement_typed hc schema e)
  object o ho schema e := by
    have hr := readElement_typed hc schema e
    rcases ho with ⟨t, ho⟩ | ⟨d, ho⟩
    · obtain ⟨rfl, hnamed, hobject⟩ := hc.objects t o ho
      exact readObject_gives hnamed hobject hr
    · obtain ⟨hnamed, hobject⟩ := hc.resolved d o ho
      exact readObject_gives hnamed hobject hr
  element schema e t := (readElement_typed hc schema e).value t
  deserialize := read_deserialize hc hcc

/-- However a factory is set up with typed serializers, it takes no value for one of another type. What the
serializers of the second factory do with values of other types is left open, and they may as well break off:
none of them is ever given one. -/
theorem unconfused_of_typed (natives : List Ty) (id : Nat) (label : String) (policy : Policy)
    (htyped : ∀ event ∈ events, event.Typed H)
    (hagrees : List.Forall₂ (SetupEvent.Agrees H) events events') :
    (SetupEvent.leaveAll events (blank natives id label policy)).Unconfused H
      (SetupEvent.leaveAll events' (blank natives id label policy)) :=
  ((typed_blank natives id label policy).leaveAll htyped).unconfused
    ((agrees_blank natives id label policy).leaveAll hagrees)

section

open Sample

/-- The types of payments, receipts and tickets: a payment has fields, the others are the one value that
they stand for. -/
def deskHost : Host where
  object? t := if t = payment then some plainType else none
  holds t v := (t = ticket ∧ ∃ n, IntKind.uint.holds n = true ∧ v = .seq [.int n]) ∨
    (t = receipt ∧ ∃ payee cents, IntKind.long.holds cents = true ∧
      v = .seq [.seq [.text payee, .int cents]])

theorem object?_payment : deskHost.object? payment = some plainType := by
  change (if payment = payment then some plainType else none) = some plainType
  rw [if_pos rfl]

theorem of_receipt_iff {v : Value} :
    Value.Of deskHost receipt v ↔ ∃ v', v = .seq [v'] ∧ Value.Of deskHost payment v' := by
  refine (Value.of_host_iff (H := deskHost) (if_neg (by decide))).trans ⟨?_, ?_⟩
  · rintro (⟨hticket, -⟩ | ⟨-, payee, cents, hcents, rfl⟩)
    · exact absurd hticket (by decide)
    · refine ⟨_, rfl, (Value.of_named_iff object?_payment).2 ⟨_, rfl, ?_⟩⟩
      exact .cons (.string payee) (.cons (.int hcents) .nil)
  · rintro ⟨v', rfl, hv⟩
    obtain ⟨vs, rfl, hvs⟩ := (Value.of_named_iff object?_payment).1 hv
    cases hvs with
    | cons hpayee hvs =>
      cases hvs with
      | cons hcents hvs =>
        cases hvs
        cases hpayee with
        | string payee =>
          cases hcents with
          | @int _ cents hcents => exact .inr ⟨rfl, payee, cents, hcents, rfl⟩

theorem of_ticket_iff {v : Value} :
    Value.Of deskHost ticket v ↔ ∃ v', v = .seq [v'] ∧ Value.Of deskHost .uint v' := by
  refine (Value.of_host_iff (H := deskHost) (if_neg (by decide))).trans ⟨?_, ?_⟩
  · rintro (⟨-, n, hn, rfl⟩ | ⟨hreceipt, -⟩)
    · exact ⟨_, rfl, .int hn⟩
    · exact absurd hreceipt (by decide)
  · rintro ⟨v', rfl, hv⟩
    cases hv with
    | int hn => exact .inl ⟨rfl, _, hn, rfl⟩

theorem unwrapping_typed (source descriptor : String) {target standIn : Ty}
    (h : ∀ v, Value.Of H target v ↔ ∃ v', v = .seq [v'] ∧ Value.Of H standIn v') :
    (unwrapping source descriptor target standIn).Typed H := by
  refine ⟨fun v v' hv hto => ?_, fun v' v hv hfrom => ?_⟩
  · obtain ⟨x, rfl, hx⟩ := (h v).1 hv
    obtain rfl := Except.ok.inj hto
    exact hx
  · obtain rfl := Except.ok.inj hfrom
    exact (h _).2 ⟨v', rfl, hv⟩

def counterEvents : List SetupEvent := Registry.library.map (.registered false) ++ deskEvents

theorem typed_counterEvents : ∀ event ∈ counterEvents, event.Typed deskHost := by
  intro event hevent
  rcases List.mem_append.1 hevent with hlibrary | hdesk
  · obtain ⟨s, hs, rfl⟩ := List.mem_map.1 hlibrary
    exact Registry.typed_of_mem_library deskHost hs
  · simp only [deskEvents, List.mem_cons, List.not_mem_nil, or_false] at hdesk
    rcases hdesk with rfl | rfl | rfl | rfl
    · exact ⟨⟨_, _, rfl⟩, object?_payment⟩
    · exact Registry.typed_of_mem_library deskHost (Registry.boxed_mem (by simp [Builtin.boxedTypes]))
    · exact unwrapping_typed "app" "app.Receipt" fun v => of_receipt_iff
    · exact unwrapping_typed "app" "app.Ticket" fun v => of_ticket_iff

/-- A receipt is written also where serializers break off if they are given values of other types. -/
theorem unconfused_of_typed_receipt :
    (∀ event ∈ counterEvents, event.Typed deskHost) ∧
      List.Forall₂ (SetupEvent.Agrees deskHost) counterEvents (counterEvents.map (.strict deskHost)) ∧
      ((SetupEvent.leaveAll (counterEvents.map (.strict deskHost))
        (blank [] 1 "desk" (.new 1 true))).serialize ⟨1, 0⟩ receipt
          (.seq [.seq [.text "bob", .int 7]])).isOk = true := by
  have hagrees : List.Forall₂ (SetupEvent.Agrees deskHost) counterEvents
      (counterEvents.map (.strict deskHost)) := by
    rw [List.forall₂_map_right_iff, List.forall₂_same]
    exact fun event _ => event.agrees_strict deskHost
  have hvalue : Value.Of deskHost receipt (.seq [.seq [.text "bob", .int 7]]) := by
    refine of_receipt_iff.2 ⟨_, rfl, (Value.of_named_iff object?_payment).2 ⟨_, rfl, ?_⟩⟩
    exact .cons (.string "bob") (.cons (.int rfl) .nil)
  have hok : ((SetupEvent.leaveAll counterEvents (blank [] 1 "desk" (.new 1 true))).serialize
      ⟨1, 0⟩ receipt (.seq [.seq [.text "bob", .int 7]])).isOk = true := by decide +kernel
  have hsame := unconfused_of_typed [] 1 "desk" (.new 1 true) typed_counterEvents hagrees
  refine ⟨typed_counterEvents, hagrees, ?_⟩
  rw [← hsame.serialize ⟨1, 0⟩ receipt _ hvalue]
  exact hok

end

end DurableFlow.Setting
