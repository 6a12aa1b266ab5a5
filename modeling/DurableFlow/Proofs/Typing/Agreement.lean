import DurableFlow.Proofs.Environment.Setups
import DurableFlow.Proofs.Reading.Failing
import DurableFlow.Proofs.Typing.Values

/-!
# Serializers that agree on values of their types

Two serializers agree if they do the same with values of their type, whatever they do with other values.
Factories that are set up with serializers that agree are bound alike, one step at a time, and what is
bound is typed if everything that is registered is.
-/

namespace DurableFlow

variable {H : Host}

/-- The codecs do the same with values of this type, and with parts and stand-ins of the right types. -/
inductive Codec.Agrees (H : Host) (t : Ty) : Codec → Codec → Prop
  | single {write write' : Value → Except Abort Element}
    {read : (String → Bool) → Element → Except Abort Value} :
    (∀ v, Value.Of H t v → write v = write' v) → Agrees H t (.single write read) (.single write' read)
  | composite {what : String} {backward : Bool} {parts : List Part}
    {check check' : List Value → Except Abort Unit} :
    (∀ vs, PartsOf H parts vs → check vs = check' vs) →
      Agrees H t (.composite what backward parts check) (.composite what backward parts check')
  | proxy {standIn : Ty} {toProxy toProxy' fromProxy fromProxy' : Value → Except HostFault Value} :
    (∀ v, Value.Of H t v → toProxy v = toProxy' v) →
      (∀ v, Value.Of H standIn v → fromProxy v = fromProxy' v) →
        Agrees H t (.proxy standIn toProxy fromProxy) (.proxy standIn toProxy' fromProxy')

/-- The serializers differ at most in what they do with values of other types than their own. -/
structure Serializer.Agrees (H : Host) (s s' : Serializer) : Prop where
  id : s.id = s'.id
  descriptor : s.descriptor = s'.descriptor
  target : s.target = s'.target
  isolated : s.isolated = s'.isolated
  codec : s.codec.Agrees H s.target s'.codec

open Classical in
/-- The codec, made to break off where it is given anything but values of the right types. -/
noncomputable def Codec.strict (H : Host) (t : Ty) : Codec → Codec
  | .single write read => .single (fun v => if Value.Of H t v then write v else .error .panic) read
  | .composite what backward parts check =>
    .composite what backward parts fun vs => if PartsOf H parts vs then check vs else .error .panic
  | .proxy standIn toProxy fromProxy =>
    .proxy standIn (fun v => if Value.Of H t v then toProxy v else .error .panic)
      (fun v => if Value.Of H standIn v then fromProxy v else .error .panic)

noncomputable def Serializer.strict (H : Host) (s : Serializer) : Serializer :=
  { s with codec := s.codec.strict H s.target }

theorem Codec.agrees_strict (H : Host) (t : Ty) (k : Codec) : k.Agrees H t (k.strict H t) := by
  cases k with
  | single write read => exact .single fun v hv => (if_pos hv).symm
  | composite what backward parts check => exact .composite fun vs hvs => (if_pos hvs).symm
  | proxy standIn toProxy fromProxy =>
    exact .proxy (fun v hv => (if_pos hv).symm) fun v hv => (if_pos hv).symm

theorem Serializer.agrees_strict (H : Host) (s : Serializer) : s.Agrees H (s.strict H) :=
  ⟨rfl, rfl, rfl, rfl, s.codec.agrees_strict H s.target⟩

theorem Serializer.Agrees.guard_eq {s s' : Serializer} (h : s.Agrees H s') {α : Type} (operation : String)
    (x : Except Abort α) : s.guard operation x = s'.guard operation x := by
  rw [Serializer.guard.eq_def, Serializer.guard.eq_def, h.id, h.isolated]

theorem Serializer.Agrees.report_eq {s s' : Serializer} (h : s.Agrees H s') {α : Type}
    (x : Except HostFault α) : s.report x = s'.report x := by
  rw [Serializer.report.eq_def, Serializer.report.eq_def, h.id]

theorem Serializer.report_gives {α : Type} {Q : α → Prop} (s : Serializer) {x : Except HostFault α}
    (h : ∀ a, x = .ok a → Q a) : Gives Q (s.report x) := by
  cases x with
  | ok a => exact .ok (h a rfl)
  | error e => cases e <;> exact .error _

namespace Registry

variable {r r' : Registry} {s s' : Serializer}

/-- The same is bound, up to what it does with values of other types. -/
structure Agrees (H : Host) (r r' : Registry) : Prop where
  byType : ∀ t, Option.Rel (Serializer.Agrees H) (r.byType.get? t) (r'.byType.get? t)
  byDescriptor : ∀ d, Option.Rel (Serializer.Agrees H) (r.byDescriptor.get? d) (r'.byDescriptor.get? d)

theorem Agrees.bind (h : r.Agrees H r') (hs : s.Agrees H s') : (r.bind s).Agrees H (r'.bind s') where
  byType t := by
    rw [byType_bind, byType_bind, ← hs.target]
    by_cases ht : s.target = t
    · rw [if_pos ht, if_pos ht]
      exact .some hs
    · rw [if_neg ht, if_neg ht]
      exact h.byType t
  byDescriptor d := by
    have hgiven : (r.byType.get? s.target).any (·.descriptor = d) =
        (r'.byType.get? s'.target).any (·.descriptor = d) := by
      rw [← hs.target]
      have hbound := h.byType s.target
      revert hbound
      generalize r.byType.get? s.target = a
      generalize r'.byType.get? s.target = b
      rintro (hcurrent | -)
      · rw [Option.any_some, Option.any_some, hcurrent.descriptor]
      · rfl
    rw [byDescriptor_bind, byDescriptor_bind, ← hs.descriptor, hgiven]
    by_cases hd : s.descriptor = d
    · rw [if_pos hd, if_pos hd]
      exact .some hs
    · rw [if_neg hd, if_neg hd]
      by_cases hc : (r'.byType.get? s'.target).any (·.descriptor = d) = true
      · rw [if_pos hc, if_pos hc]
        exact .none
      · rw [if_neg hc, if_neg hc]
        exact h.byDescriptor d

theorem Agrees.conflicts (h : r.Agrees H r') (hs : s.Agrees H s') : r.conflicts s = r'.conflicts s' := by
  rw [Registry.conflicts, Registry.conflicts, ← hs.descriptor, ← hs.target]
  have hbound := h.byDescriptor s.descriptor
  revert hbound
  generalize r.byDescriptor.get? s.descriptor = a
  generalize r'.byDescriptor.get? s.descriptor = b
  rintro (hcurrent | -)
  · rw [Option.any_some, Option.any_some, hcurrent.target]
  · rfl

/-- The registry that a registration leaves, also if it fails. -/
def after (r : Registry) (replace : Bool) (s : Serializer) : Registry :=
  match r.add replace s with
  | .ok (r, _) => r
  | .error _ => r

theorem after_eq (r : Registry) (replace : Bool) (s : Serializer) :
    r.after replace s =
      if r.conflicts s then r
      else match r.byType.get? s.target with
        | none => r.bind s
        | some current => if current.id = s.id ∨ replace = false then r else r.bind s := by
  rw [after, add]
  cases r.conflicts s with
  | true => rfl
  | false =>
    cases r.byType.get? s.target with
    | none => rfl
    | some current =>
      by_cases hid : current.id = s.id
      · simp [hid]
      · cases replace <;> simp [hid]

theorem Agrees.after (h : r.Agrees H r') (hs : s.Agrees H s') (replace : Bool) :
    (r.after replace s).Agrees H (r'.after replace s') := by
  have hbind := h.bind hs
  have hbound := h.byType s.target
  rw [after_eq, after_eq, ← h.conflicts hs, ← hs.target, ← hs.id]
  by_cases hc : r.conflicts s = true
  · rw [if_pos hc, if_pos hc]
    exact h
  · rw [if_neg hc, if_neg hc]
    revert hbound
    generalize r.byType.get? s.target = a
    generalize r'.byType.get? s.target = b
    rintro (hcurrent | -)
    · simp only [← hcurrent.id]
      split
      · exact h
      · exact hbind
    · exact hbind

theorem binds_bind {x : Serializer} (h : (r.bind s).Binds x) : x = s ∨ r.Binds x := by
  rcases h with ⟨t, h⟩ | ⟨d, h⟩
  · rw [byType_bind] at h
    split_ifs at h
    · exact .inl (Option.some.inj h).symm
    · exact .inr (.inl ⟨t, h⟩)
  · rw [byDescriptor_bind] at h
    split_ifs at h
    · exact .inl (Option.some.inj h).symm
    · exact .inr (.inr ⟨d, h⟩)

theorem binds_after {replace : Bool} {x : Serializer} (h : (r.after replace s).Binds x) :
    x = s ∨ r.Binds x := by
  rw [Registry.after] at h
  cases hadd : r.add replace s with
  | error e =>
    rw [hadd] at h
    exact .inr h
  | ok r' =>
    rw [hadd] at h
    rcases (add_eq_ok hadd).2 with ⟨hsame, -⟩ | hbound
    · exact .inr (hsame ▸ h)
    · exact binds_bind (hbound ▸ h)

end Registry

/-- What is loaded is what the host knows of a type of its own; what is registered is typed. -/
def SetupEvent.Typed (H : Host) : SetupEvent → Prop
  | .loaded o => (∃ name label, o.type = .named name label) ∧ H.object? o.type = some o
  | .registered _ s => s.Typed H

/-- The same happens, up to what a serializer does with values of other types than its own. -/
inductive SetupEvent.Agrees (H : Host) : SetupEvent → SetupEvent → Prop
  | loaded (o : ObjectType) : Agrees H (.loaded o) (.loaded o)
  | registered (replace : Bool) {s s' : Serializer} :
    s.Agrees H s' → Agrees H (.registered replace s) (.registered replace s')

/-- The same event, where a serializer is registered that breaks off if it is given values of other types. -/
noncomputable def SetupEvent.strict (H : Host) : SetupEvent → SetupEvent
  | .loaded o => .loaded o
  | .registered replace s => .registered replace (s.strict H)

theorem SetupEvent.agrees_strict (H : Host) (event : SetupEvent) : event.Agrees H (event.strict H) := by
  cases event with
  | loaded o => exact .loaded o
  | registered replace s => exact .registered replace (s.agrees_strict H)

namespace Setting

variable {c c' : Setting} {events events' : List SetupEvent}

structure Agrees (H : Host) (c c' : Setting) : Prop where
  natives : c.natives = c'.natives
  registry : c.registry.Agrees H c'.registry
  scope : c.scope = c'.scope
  policy : c.policy = c'.policy

/-- Everything that is bound is typed, and bound to its own type. -/
structure Typed (H : Host) (c : Setting) : Prop where
  grown : c.Grown
  serializers : ∀ s, c.registry.Binds s → s.Typed H
  objects : ∀ t o, c.scope.objectType? t = some o →
    o.type = t ∧ (∃ name label, t = .named name label) ∧ H.object? t = some o
  resolved : ∀ d o, c.scope.resolve? d = some o →
    (∃ name label, o.type = .named name label) ∧ H.object? o.type = some o

theorem agrees_blank (natives : List Ty) (id : Nat) (label : String) (policy : Policy) :
    (blank natives id label policy).Agrees H (blank natives id label policy) :=
  ⟨rfl, ⟨fun _ => .none, fun _ => .none⟩, rfl, rfl⟩

theorem leave_registered (c : Setting) (replace : Bool) (s : Serializer) :
    SetupEvent.leave c (.registered replace s) = { c with registry := c.registry.after replace s } := by
  rw [SetupEvent.leave, Registry.after]
  cases c.registry.add replace s <;> rfl

theorem Agrees.leave (h : c.Agrees H c') {event event' : SetupEvent} (he : event.Agrees H event') :
    (event.leave c).Agrees H (event'.leave c') := by
  cases he with
  | loaded o => exact ⟨h.natives, h.registry, congrArg (·.load o) h.scope, h.policy⟩
  | registered replace hs =>
    rw [leave_registered, leave_registered]
    exact ⟨h.natives, h.registry.after hs replace, h.scope, h.policy⟩

theorem Agrees.leaveAll (h : c.Agrees H c') (he : List.Forall₂ (SetupEvent.Agrees H) events events') :
    (SetupEvent.leaveAll events c).Agrees H (SetupEvent.leaveAll events' c') := by
  induction he generalizing c c' with
  | nil => exact h
  | cons he _ ih => exact ih (h.leave he)

theorem typed_blank (natives : List Ty) (id : Nat) (label : String) (policy : Policy) :
    (blank natives id label policy).Typed H where
  grown := .empty natives id label policy
  serializers s h := by rcases h with ⟨t, h⟩ | ⟨d, h⟩ <;> cases h
  objects _ _ h := nomatch h
  resolved _ _ h := nomatch h

theorem Typed.leave (h : c.Typed H) {event : SetupEvent} (he : event.Typed H) :
    (event.leave c).Typed H := by
  have hgrown := SetupEvent.grown_leave h.grown event
  cases event with
  | loaded o =>
    refine ⟨hgrown, h.serializers, fun t o' ho' => ?_, fun d o' ho' => ?_⟩
    · obtain ho' := (Scope.objectType?_load t).symm.trans ho'
      split_ifs at ho' with ht
      · obtain rfl := Option.some.inj ho'
        subst ht
        exact ⟨rfl, he⟩
      · exact h.objects t o' ho'
    · obtain ho' := (Scope.resolve?_load d).symm.trans ho'
      split_ifs at ho' with hd
      · obtain rfl := Option.some.inj ho'
        exact he
      · exact h.resolved d o' ho'
  | registered replace s =>
    rw [leave_registered] at hgrown ⊢
    refine ⟨hgrown, fun x hx => ?_, h.objects, h.resolved⟩
    rcases Registry.binds_after hx with rfl | hx
    · exact he
    · exact h.serializers x hx

theorem Typed.leaveAll (h : c.Typed H) (he : ∀ event ∈ events, event.Typed H) :
    (SetupEvent.leaveAll events c).Typed H := by
  induction events generalizing c with
  | nil => exact h
  | cons event events ih =>
    exact ih (h.leave (he event List.mem_cons_self)) fun event' h' => he event' (List.mem_cons_of_mem _ h')

end Setting

end DurableFlow
