import DurableFlow.Serializer.Write

/-!
# Values and their members

What holds of a value whenever it holds of its members holds of every value. The writers of the members
are those that the writer of the value works with.
-/

namespace DurableFlow

def Value.IsLeaf : Value → Prop
  | .seq _ | .entries _ | .erased _ _ _ _ => False
  | _ => True

theorem Value.member_induction {P : Value → Prop} (leaf : ∀ v : Value, v.IsLeaf → P v)
    (seq : ∀ vs, (∀ v ∈ vs, P v) → P (.seq vs))
    (entries : ∀ es, (∀ e ∈ es, P e.1 ∧ P e.2) → P (.entries es))
    (erased : ∀ type name native v, P v → P (.erased type name native v)) (v : Value) : P v :=
  @Value.rec P (fun vs => ∀ v ∈ vs, P v) (fun es => ∀ e ∈ es, P e.1 ∧ P e.2)
    (fun e => P e.1 ∧ P e.2) (fun _ => leaf _ trivial) (fun _ => leaf _ trivial)
    (fun _ => leaf _ trivial) (fun _ => leaf _ trivial) (fun _ => leaf _ trivial)
    (fun _ => leaf _ trivial) (fun vs h => seq vs h) (fun es h => entries es h)
    (fun type name native v h => erased type name native v h) (by simp)
    (fun _ _ h hs => List.forall_mem_cons.2 ⟨h, hs⟩) (by simp)
    (fun _ _ h hs => List.forall_mem_cons.2 ⟨h, hs⟩) (fun _ _ h h' => ⟨h, h'⟩) v

namespace Writing

instance : LawfulMonad Writing :=
  LawfulMonad.mk' Writing
    (fun x => by
      funext s
      change (match x s with | .ok (a, s) => Except.ok (a, s) | .error e => .error e) = x s
      cases x s <;> rfl)
    (fun a f => rfl)
    (fun x f g => by
      funext s
      change (match (match x s with | .ok (a, s) => f a s | .error e => .error e) with
          | .ok (b, s) => g b s | .error e => .error e) =
        match x s with
        | .ok (a, s) => (match f a s with | .ok (b, s) => g b s | .error e => .error e)
        | .error e => .error e
      cases x s <;> rfl)

variable {α β : Type} {s s' : Schema}

theorem pure_apply (a : α) (s : Schema) : (pure a : Writing α) s = .ok (a, s) := rfl

theorem bind_apply_ok {x : Writing α} {f : α → Writing β} {a : α} (h : x s = .ok (a, s')) :
    (x >>= f) s = f a s' := by
  change (match x s with | .ok (a, s) => f a s | .error e => .error e) = f a s'
  rw [h]

theorem bind_apply_error {x : Writing α} {f : α → Writing β} {e : Abort} (h : x s = .error e) :
    (x >>= f) s = .error e := by
  change (match x s with | .ok (a, s) => f a s | .error e => .error e) = .error e
  rw [h]

theorem bind_eq_ok {x : Writing α} {f : α → Writing β} {b : β} :
    (x >>= f) s = .ok (b, s') ↔ ∃ a s₁, x s = .ok (a, s₁) ∧ f a s₁ = .ok (b, s') := by
  constructor
  · intro h
    cases hx : x s with
    | error e =>
      rw [bind_apply_error hx] at h
      cases h
    | ok p =>
      rw [bind_apply_ok hx] at h
      exact ⟨p.1, p.2, rfl, h⟩
  · rintro ⟨a, s₁, hx, hf⟩
    rw [bind_apply_ok hx, hf]

end Writing

namespace Setting

variable (c : Setting) (standIns : Value → Writer)

theorem writersOver_eq (vs : List Value) :
    c.writersOver standIns vs = vs.map (c.writeOver standIns) := by
  induction vs with
  | nil => rfl
  | cons v vs ih => rw [writersOver, ih, List.map_cons]

theorem entryWritersOver_eq (es : List (Value × Value)) :
    c.entryWritersOver standIns es =
      es.map fun e => (c.writeOver standIns e.1, c.writeOver standIns e.2) := by
  induction es with
  | nil => rfl
  | cons e es ih => rw [entryWritersOver, ih, List.map_cons]

theorem writeOver_leaf {v : Value} (h : v.IsLeaf) :
    c.writeOver standIns v = c.writeNode standIns v [] [] := by
  cases v <;> first | exact h.elim | rfl

theorem writeOver_seq (vs : List Value) :
    c.writeOver standIns (.seq vs) =
      c.writeNode standIns (.seq vs) (vs.map (c.writeOver standIns)) [] := by
  rw [writeOver, writersOver_eq]

theorem writeOver_entries (es : List (Value × Value)) :
    c.writeOver standIns (.entries es) =
      c.writeNode standIns (.entries es) []
        (es.map fun e => (c.writeOver standIns e.1, c.writeOver standIns e.2)) := by
  rw [writeOver, entryWritersOver_eq]

theorem writeOver_erased (type : Ty) (name : String) (native : Bool) (v : Value) :
    c.writeOver standIns (.erased type name native v) .any .typed =
      c.writeOver standIns v type (.erased name native) := by
  rw [writeOver]

end Setting

end DurableFlow
