import DurableFlow.Proofs.Admission.Gated

/-!
# Writing under two policies

Whatever is written under the narrower policy is written under the wider one in the same way, since every way
to the fields of an object leads past the check of its type.
-/

namespace DurableFlow.Setting

variable {c : Setting} {p : Policy} {fields : ObjectType → List Field}

theorem lift_bind_apply {α β : Type} (r : Except Abort α) (f : α → Writing β) (s : Schema) :
    (Writing.lift r >>= f) s = r >>= fun a => f a s := by
  cases r <;> rfl

theorem Widens.writesObjects (hp : c.Widens p fields) :
    c.WritesObjectsUnless (c.under p fields) c.Refusal where
  registry := rfl
  loaded t v items items' hi := by
    have hscope : (c.under p fields).scope.objectType? t = (c.scope.objectType? t).map (.recast fields) :=
      c.scope.objectType?_recast fields t
    rw [hscope]
    cases ho : c.scope.objectType? t with
    | none => exact .none
    | some o =>
      refine .some fun s => ?_
      rw [writeLoaded, writeLoaded, lift_bind_apply, lift_bind_apply]
      exact Gated.check (x := fun o => writeObject v items o s) (y := fun o => writeObject v items' o s) hp
        (.inl ⟨t, ho⟩) (writeObject_unless v o hi s)

theorem writeWithin_gated (hp : c.Widens p fields) (nesting : Nat) (v : Value) :
    (c.writeWithin nesting v).Unless c.Refusal ((c.under p fields).writeWithin nesting v) := by
  induction nesting generalizing v with
  | zero => exact fun _ _ => .refl _
  | succ nesting ih => exact writeOver_unless unguarded_refusal hp.writesObjects ih v

theorem write_gated (hp : c.Widens p fields) (t : Ty) (v : Value) :
    c.Gated (c.write t v) ((c.under p fields).write t v) :=
  writeWithin_gated hp maxStandIns v t .typed Schema.empty

end DurableFlow.Setting
