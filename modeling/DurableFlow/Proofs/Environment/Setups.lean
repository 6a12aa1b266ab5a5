import DurableFlow.Proofs.RoundTrip.Recovered
import Mathlib.Data.List.Induction

/-!
# How factories are set up

A factory is set up by object types that its scope loads and by serializers that are registered with it,
some of them without success. Whatever the order, its bindings by type and by descriptor correspond, and
so do those of its scope unless two types of one name are loaded.
-/

namespace DurableFlow

/-- What may happen to a factory and its scope. -/
inductive SetupEvent where
  | loaded (o : ObjectType)
  /-- A serializer is registered; `replace` tells if another one of its type gives way. -/
  | registered (replace : Bool) (s : Serializer)

namespace SetupEvent

variable {c : Setting}

def leave (c : Setting) : SetupEvent → Setting
  | loaded o => { c with scope := c.scope.load o }
  | registered replace s =>
    match c.registry.add replace s with
    | .ok (r, _) => { c with registry := r }
    | .error _ => c

def leaveAll (events : List SetupEvent) (c : Setting) : Setting := events.foldl leave c

def loads : List SetupEvent → List ObjectType
  | [] => []
  | loaded o :: events => o :: loads events
  | registered _ _ :: events => loads events

theorem grown_leave (hc : c.Grown) (event : SetupEvent) : (leave c event).Grown := by
  cases event with
  | loaded o => exact hc.load o
  | registered replace s =>
    rw [leave]
    cases hadd : c.registry.add replace s with
    | error e => exact hc
    | ok r => exact hc.add hadd

theorem grown_leaveAll (hc : c.Grown) (events : List SetupEvent) : (leaveAll events c).Grown := by
  induction events generalizing c with
  | nil => exact hc
  | cons event events ih => exact ih (grown_leave hc event)

theorem scope_leave_registered (c : Setting) (replace : Bool) (s : Serializer) :
    (leave c (registered replace s)).scope = c.scope := by
  rw [leave]
  cases c.registry.add replace s <;> rfl

theorem scope_leaveAll (events : List SetupEvent) (c : Setting) :
    (leaveAll events c).scope = (loads events).foldl Scope.load c.scope := by
  induction events generalizing c with
  | nil => rfl
  | cons event events ih =>
    refine (ih (leave c event)).trans ?_
    cases event with
    | loaded o => rfl
    | registered replace s =>
      rw [scope_leave_registered]
      rfl

end SetupEvent

namespace Setting

/-- A factory that nothing has happened to. -/
def blank (natives : List Ty) (id : Nat) (label : String) (policy : Policy) : Setting :=
  ⟨natives, .empty, .new id label, policy⟩

end Setting

/-- Names that go with one type each lead to the object type of their type. -/
theorem Scope.coherent_foldl_load {os : List ObjectType} (id : Nat) (label : String)
    (hnames : ∀ o ∈ os, ∀ o' ∈ os, o.name = o'.name → o.type = o'.type) :
    (os.foldl Scope.load (.new id label)).Coherent := by
  induction os using List.reverseRecOn with
  | nil => exact coherent_new id label
  | append_singleton os o ih =>
    have hcoherent := ih fun o₁ h₁ o₂ h₂ =>
      hnames o₁ (List.mem_append_left _ h₁) o₂ (List.mem_append_left _ h₂)
    rw [List.foldl_concat]
    refine hcoherent.load fun t o' ho' hname => ?_
    have hmem := (mem_of_loadAll ho').resolve_right fun h => nomatch h
    rw [← hcoherent.type t o' ho']
    exact hnames o' (List.mem_append_left _ hmem) o (List.mem_append_right _ List.mem_cons_self) hname

end DurableFlow
