import DurableFlow.Environment.Store
import DurableFlow.Proofs.Environment.Runs

/-!
# Writing and reading by a factory

What a factory writes and reads depends on its setting alone, and neither changes the store.
-/

namespace DurableFlow

namespace Setting

variable (c : Setting)

def serialize (m : Magic) (t : Ty) (v : Value) : Except Abort Bytes := do
  let (body, schema) ← c.write t v
  (Envelope.encode ⟨schema, body⟩ m).mapError .error

def deserialize (m : Magic) (t : Ty) (bs : Bytes) : Except Abort Value := do
  c.read (← (Envelope.decode m bs).mapError .error) t

variable {c} {m : Magic} {t : Ty} {v : Value} {bs : Bytes}

theorem mapError_eq_ok_iff {α ε ε' : Type} {x : Except ε α} {f : ε → ε'} {a : α} :
    x.mapError f = .ok a ↔ x = .ok a := by
  cases x with
  | error e =>
    constructor <;>
    · intro h
      cases h
  | ok b =>
    constructor <;>
    · intro h
      cases h
      rfl

theorem serialize_of_write {body : Element} {schema : Schema}
    (h : c.write t v = .ok (body, schema)) :
    c.serialize m t v = (Envelope.encode ⟨schema, body⟩ m).mapError .error := by
  rw [serialize, h]
  rfl

theorem serialize_of_write_error {e : Abort} (h : c.write t v = .error e) :
    c.serialize m t v = .error e := by
  rw [serialize, h]
  rfl

theorem serialize_eq_ok_iff :
    c.serialize m t v = .ok bs ↔
      ∃ env : Envelope, c.write t v = .ok (env.body, env.schema) ∧ env.encode m = .ok bs := by
  constructor
  · intro h
    cases hw : c.write t v with
    | error e =>
      rw [serialize_of_write_error hw] at h
      cases h
    | ok p =>
      rw [serialize_of_write hw, mapError_eq_ok_iff] at h
      exact ⟨⟨p.2, p.1⟩, rfl, h⟩
  · rintro ⟨env, hw, he⟩
    rw [serialize_of_write hw, mapError_eq_ok_iff]
    exact he

theorem deserialize_of_decode {env : Envelope} (h : Envelope.decode m bs = .ok env) :
    c.deserialize m t bs = c.read env t := by
  rw [deserialize, h]
  rfl

theorem deserialize_of_decode_error {e : SerializationError} (h : Envelope.decode m bs = .error e) :
    c.deserialize m t bs = .error (.error e) := by
  rw [deserialize, h]
  rfl

end Setting

namespace Call

variable {α : Type}

theorem runOn_lift (x : Except Abort α) (st : Store) : runOn (lift x) st = (x, st) := by
  cases x <;> rfl

theorem runOn_liftError (x : Except SerializationError α) (st : Store) :
    runOn (liftError x) st = (x.mapError .error, st) := by
  cases x <;> rfl

theorem runOn_serializeWith (f : Nat) (m : Magic) (t : Ty) (v : Value) (st : Store) :
    runOn (serializeWith f m t v) st = ((st.setting f).serialize m t v, st) := by
  rw [serializeWith, runOn_get_bind, runOn_bind, runOn_lift]
  cases h : (st.setting f).write t v with
  | error e => rw [Setting.serialize_of_write_error h]
  | ok p =>
    rw [Setting.serialize_of_write h]
    exact runOn_liftError _ _

theorem runOn_deserializeWith (f : Nat) (m : Magic) (t : Ty) (bs : Bytes) (st : Store) :
    runOn (deserializeWith f m t bs) st = ((st.setting f).deserialize m t bs, st) := by
  rw [deserializeWith, runOn_bind, runOn_liftError, Setting.deserialize]
  cases Envelope.decode m bs with
  | error e => rfl
  | ok env => exact runOn_lift _ _

end Call

end DurableFlow
