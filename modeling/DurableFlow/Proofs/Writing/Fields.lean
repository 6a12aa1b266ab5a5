import DurableFlow.Serializer.Write

/-!
# Writing the fields of an object

Nothing is written for a field that is absent. Any other field is written by itself, and its name must not have
been written before.
-/

namespace DurableFlow

namespace Field

/-- The type under which the value of the field is held. -/
def slot (f : Field) : Ty := if f.required then f.type else .optional f.type

/-- Is nothing written for the field? -/
def skips (f : Field) : Value → Bool
  | .seq [] => !f.required
  | _ => false

theorem of_skips {f : Field} {v : Value} (h : f.skips v = true) :
    f.required = false ∧ v = .none := by
  unfold skips at h
  split at h
  · exact ⟨by simpa using h, rfl⟩
  · cases h

end Field

namespace Setting

/-- How the value of a field is written where it is not skipped. -/
def writeField (label : String) (f : Field) (x : Writer) : Writing Element :=
  if f.required then x f.type .typed
  else do
    match ← x (.optional f.type) .typed with
    | .list [e] => return e
    | _ => .lift (wrongValue label)

theorem writeFields_cons_of_skips {f : Field} {v : Value} (h : f.skips v = true) (label : String)
    (names : List String) (values : List Element) (fs : List Field) (vs : List Value) (x : Writer)
    (xs : List Writer) :
    writeFields label names values (f :: fs) (v :: vs) (x :: xs) =
      writeFields label names values fs vs xs := by
  obtain ⟨hf, rfl⟩ := Field.of_skips h
  rw [Value.none, writeFields, hf]
  rfl

theorem writeFields_cons {f : Field} {v : Value} (h : f.skips v = false) (label : String)
    (names : List String) (values : List Element) (fs : List Field) (vs : List Value) (x : Writer)
    (xs : List Writer) :
    writeFields label names values (f :: fs) (v :: vs) (x :: xs) =
      if names.contains f.name then
        .lift (Abort.mismatch "unique field names" s!"field {f.name} written twice")
      else (do
        let e ← writeField label f x
        writeFields label (names ++ [f.name]) (values ++ [e]) fs vs xs) := by
  rw [writeFields.eq_def, writeField]
  cases hf : f.required with
  | true =>
    simp only [hf, if_true]
  | false =>
    simp only [hf, Bool.false_eq_true, if_false]
    cases v with
    | seq vs =>
      cases vs with
      | nil => simp [Field.skips, hf] at h
      | cons v vs => rfl
    | _ => rfl

end Setting

end DurableFlow
