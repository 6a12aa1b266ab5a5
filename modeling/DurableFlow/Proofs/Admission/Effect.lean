import DurableFlow.Proofs.Admission.Reading
import DurableFlow.Proofs.Admission.Writing
import DurableFlow.Proofs.Environment.Calls
import DurableFlow.Sample.Types

/-!
# What a policy has an effect on

A factory refuses object types that its policy does not admit. Apart from that it writes and reads what a
factory with any wider policy does, and the fields of the refused types have no part in what succeeds.
-/

namespace DurableFlow

namespace Setting

variable {c : Setting} {p : Policy} {fields : ObjectType → List Field}

theorem serialize_gated (hp : c.Widens p fields) (m : Magic) (t : Ty) (v : Value) :
    c.Gated (c.serialize m t v) ((c.under p fields).serialize m t v) :=
  .bind_left (write_gated hp t v)

theorem deserialize_gated (hp : c.Widens p fields) (m : Magic) (t : Ty) (bs : Bytes) :
    c.Gated (c.deserialize m t bs) ((c.under p fields).deserialize m t bs) :=
  .bind_right _ fun env => read_gated hp env t

theorem widens_of_admits (h : ∀ name, c.policy.isAdmitted name = true → p.isAdmitted name = true) :
    c.Widens p ObjectType.fields :=
  ⟨h, fun _ _ => rfl⟩

theorem widens_of_admitsAll (h : p.admitsAll = true) : c.Widens p ObjectType.fields :=
  widens_of_admits fun name _ => by rw [Policy.isAdmitted, h, Bool.true_or]

end Setting

namespace Call

variable {st st' : Store} {f f' : Nat} {p : Policy} {fields : ObjectType → List Field}

theorem serializeWith_gated (hp : (st.setting f).Widens p fields)
    (h : st'.setting f' = (st.setting f).under p fields) (m : Magic) (t : Ty) (v : Value) :
    (st.setting f).Gated (runOn (serializeWith f m t v) st).1 (runOn (serializeWith f' m t v) st').1 := by
  rw [runOn_serializeWith, runOn_serializeWith, h]
  exact Setting.serialize_gated hp m t v

theorem deserializeWith_gated (hp : (st.setting f).Widens p fields)
    (h : st'.setting f' = (st.setting f).under p fields) (m : Magic) (t : Ty) (bs : Bytes) :
    (st.setting f).Gated (runOn (deserializeWith f m t bs) st).1
      (runOn (deserializeWith f' m t bs) st').1 := by
  rw [runOn_deserializeWith, runOn_deserializeWith, h]
  exact Setting.deserialize_gated hp m t bs

/-- Under a policy a factory comes to what it comes to under a policy that admits everything, or it refuses
an object type of its scope that the policy does not admit. What succeeds comes to the same under every
wider policy, and even then if the object types that the policy does not admit have any other fields. -/
theorem policy_only_refuses (st : Store) (f : Nat) (m : Magic) (t : Ty) (v : Value) (bs : Bytes) :
    (∀ p st' f', p.admitsAll = true → st'.setting f' = { st.setting f with policy := p } →
      (st.setting f).Gated (runOn (serializeWith f m t v) st).1 (runOn (serializeWith f' m t v) st').1 ∧
      (st.setting f).Gated (runOn (deserializeWith f m t bs) st).1
        (runOn (deserializeWith f' m t bs) st').1) ∧
    (∀ p st' f', (∀ name, (st.setting f).policy.isAdmitted name = true → p.isAdmitted name = true) →
      st'.setting f' = { st.setting f with policy := p } →
      (∀ out, (runOn (serializeWith f m t v) st).1 = .ok out →
        (runOn (serializeWith f' m t v) st').1 = .ok out) ∧
      ∀ out, (runOn (deserializeWith f m t bs) st).1 = .ok out →
        (runOn (deserializeWith f' m t bs) st').1 = .ok out) ∧
    ∀ p fields st' f', (st.setting f).Widens p fields →
      st'.setting f' = (st.setting f).under p fields →
      (∀ out, (runOn (serializeWith f m t v) st).1 = .ok out →
        (runOn (serializeWith f' m t v) st').1 = .ok out) ∧
      ∀ out, (runOn (deserializeWith f m t bs) st).1 = .ok out →
        (runOn (deserializeWith f' m t bs) st').1 = .ok out := by
  have hkept : ∀ p fields st' f', (st.setting f).Widens p fields →
      st'.setting f' = (st.setting f).under p fields →
      (∀ out, (runOn (serializeWith f m t v) st).1 = .ok out →
        (runOn (serializeWith f' m t v) st').1 = .ok out) ∧
      ∀ out, (runOn (deserializeWith f m t bs) st).1 = .ok out →
        (runOn (deserializeWith f' m t bs) st').1 = .ok out := by
    intro p fields st' f' hp h
    have hs := serializeWith_gated hp h m t v
    have hd := deserializeWith_gated hp h m t bs
    exact ⟨fun out ho => (ho ▸ hs).eq_of_ok, fun out ho => (ho ▸ hd).eq_of_ok⟩
  refine ⟨?_, ?_, hkept⟩
  · intro p st' f' hall h
    have hp := Setting.widens_of_admitsAll (c := st.setting f) hall
    rw [← Setting.under_fields] at h
    exact ⟨serializeWith_gated hp h m t v, deserializeWith_gated hp h m t bs⟩
  · intro p st' f' hadmits h
    rw [← Setting.under_fields] at h
    exact hkept p _ st' f' (Setting.widens_of_admits hadmits) h

section

open Sample

/-- A store with one factory, whose scope holds holders and units. -/
def gateStore (p : Policy) (unitFields : List Field) : Store :=
  { Store.empty [.string] with
    policies := [p]
    scopes := [((Scope.new 1 "gate").load ⟨holder, "app.Holder", [field "slot" .any]⟩).load
      ⟨unit, "app.Unit", unitFields⟩]
    factories := [⟨1, 1, .empty⟩] }

def gate : Policy := ⟨1, false, ["app.Holder"]⟩

def twiceFields (o : ObjectType) : List Field :=
  if o.name = "app.Holder" then o.fields else [field "n" .long, field "n" .long]

theorem widens_gate : ((gateStore gate []).setting 0).Widens (.new 2 true) twiceFields := by
  refine ⟨fun _ _ => rfl, fun o ho => if_pos ?_⟩
  change ["app.Holder"].contains o.name = true at ho
  rw [List.contains_eq_mem, decide_eq_true_iff, List.mem_singleton] at ho
  exact ho

/-- A holder of a unit is refused and a holder of a text is written. -/
theorem policy_only_refuses_gate :
    (runOn (serializeWith 0 ⟨1, 0⟩ holder (.seq [.erase unit (.seq [])])) (gateStore gate [])).1.isOk =
        false ∧
      (runOn (serializeWith 0 ⟨1, 0⟩ holder (.seq [.erase unit (.seq [])]))
        (gateStore (.new 1 true) [])).1.isOk = true ∧
      ((gateStore gate []).setting 0).Gated
        (runOn (serializeWith 0 ⟨1, 0⟩ holder (.seq [.erase unit (.seq [])])) (gateStore gate [])).1
        (runOn (serializeWith 0 ⟨1, 0⟩ holder (.seq [.erase unit (.seq [])]))
          (gateStore (.new 1 true) [])).1 ∧
      ∃ out, (runOn (serializeWith 0 ⟨1, 0⟩ holder (.seq [.erase .string (.text "a")]))
          (gateStore gate [])).1 = .ok out ∧
        (runOn (serializeWith 0 ⟨1, 0⟩ holder (.seq [.erase .string (.text "a")]))
          (gateStore (.new 1 true) [])).1 = .ok out ∧
        (runOn (serializeWith 0 ⟨1, 0⟩ holder (.seq [.erase .string (.text "a")]))
          (gateStore (.new 2 true) (twiceFields ⟨unit, "app.Unit", []⟩))).1 = .ok out := by
  obtain ⟨hall, -, -⟩ := policy_only_refuses (gateStore gate []) 0 ⟨1, 0⟩ holder
    (.seq [.erase unit (.seq [])]) []
  obtain ⟨-, hwider, hother⟩ := policy_only_refuses (gateStore gate []) 0 ⟨1, 0⟩ holder
    (.seq [.erase .string (.text "a")]) []
  have hok : (runOn (serializeWith 0 ⟨1, 0⟩ holder (.seq [.erase .string (.text "a")]))
      (gateStore gate [])).1.isOk = true := by decide +kernel
  have hother := (hother _ _ (gateStore (.new 2 true) (twiceFields ⟨unit, "app.Unit", []⟩)) 0
    widens_gate rfl).1
  have hwider := (hwider (.new 1 true) (gateStore (.new 1 true) []) 0 (fun _ _ => rfl) rfl).1
  refine ⟨by decide +kernel, by decide +kernel,
    (hall (.new 1 true) (gateStore (.new 1 true) []) 0 rfl rfl).1, ?_⟩
  revert hok hother hwider
  cases (runOn (serializeWith 0 ⟨1, 0⟩ holder (.seq [.erase .string (.text "a")]))
      (gateStore gate [])).1 with
  | error e => intro hok; cases hok
  | ok out => exact fun _ hother hwider => ⟨out, rfl, hwider out rfl, hother out rfl⟩

end

end Call

end DurableFlow
