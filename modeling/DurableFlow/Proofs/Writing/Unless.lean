import DurableFlow.Proofs.Writing.Fields
import DurableFlow.Proofs.Writing.Members
import Mathlib.Data.List.Forall2

/-!
# Writing that may break off earlier

`Unless P x y` says that `x` comes to what `y` comes to, unless it fails for a reason in `P`. It holds of a
sequence of steps if it holds of each step, and of two ways to write a value if it holds of how its members, its
stand-ins and the objects of loaded types are written.
-/

namespace DurableFlow

/-- The first outcome is the second one, or an error of this kind. -/
def Unless {α : Type} (P : Abort → Prop) (x y : Except Abort α) : Prop := x = y ∨ ∃ e, P e ∧ x = .error e

namespace Unless

variable {α β : Type} {P : Abort → Prop} {x y : Except Abort α}

theorem refl (x : Except Abort α) : Unless P x x := .inl rfl

theorem eq_of_ok {a : α} (h : Unless P (.ok a) y) : y = .ok a := by
  rcases h with h | ⟨e, -, h⟩
  · exact h.symm
  · cases h

theorem bind {f g : α → Except Abort β} (h : Unless P x y) (hfg : ∀ a, Unless P (f a) (g a)) :
    Unless P (x >>= f) (y >>= g) := by
  rcases h with rfl | ⟨e, he, rfl⟩
  · cases x with
    | error e => exact refl _
    | ok a => exact hfg a
  · exact .inr ⟨e, he, rfl⟩

theorem bind_right {f g : α → Except Abort β} (x : Except Abort α) (hfg : ∀ a, Unless P (f a) (g a)) :
    Unless P (x >>= f) (x >>= g) := bind (refl x) hfg

theorem bind_left {f : α → Except Abort β} (h : Unless P x y) : Unless P (x >>= f) (y >>= f) :=
  bind h fun _ => refl _

theorem mapM {as bs : List α} {f : α → Except Abort β}
    (h : List.Forall₂ (fun a b => Unless P (f a) (f b)) as bs) : Unless P (as.mapM f) (bs.mapM f) := by
  induction h with
  | nil => exact refl _
  | cons hab _ ih =>
    rw [List.mapM_cons, List.mapM_cons]
    exact bind hab fun _ => bind_left ih

end Unless

/-- Whatever guards a serializer puts around an error of this kind, it stays one of the kind. -/
def Unguarded (P : Abort → Prop) : Prop :=
  ∀ {α : Type} (s : Serializer) (operation : String) (e : Abort), P e →
    ∃ e', P e' ∧ s.guard operation (.error e : Except Abort α) = .error e'

theorem Unless.guard {α : Type} {P : Abort → Prop} (hP : Unguarded P) {x y : Except Abort α} (s : Serializer)
    (operation : String) (h : Unless P x y) : Unless P (s.guard operation x) (s.guard operation y) := by
  rcases h with rfl | ⟨e, he, rfl⟩
  · exact refl _
  · exact .inr (hP s operation e he)

namespace Writing

/-- The same for steps of writing, whatever schema they start with. -/
def Unless {α : Type} (P : Abort → Prop) (x y : Writing α) : Prop := ∀ s, DurableFlow.Unless P (x s) (y s)

namespace Unless

variable {α β : Type} {P : Abort → Prop} {x y : Writing α}

theorem refl (x : Writing α) : Unless P x x := fun _ => .refl _

theorem bind {f g : α → Writing β} (h : Unless P x y) (hfg : ∀ a, Unless P (f a) (g a)) :
    Unless P (x >>= f) (y >>= g) := by
  intro s
  rcases h s with hs | ⟨e, he, hs⟩
  · cases hy : y s with
    | error e =>
      rw [bind_apply_error hy, bind_apply_error (hs.trans hy)]
      exact .refl _
    | ok r =>
      rw [bind_apply_ok hy, bind_apply_ok (hs.trans hy)]
      exact hfg r.1 r.2
  · rw [bind_apply_error hs]
    exact .inr ⟨e, he, rfl⟩

theorem bind_right {f g : α → Writing β} (x : Writing α) (hfg : ∀ a, Unless P (f a) (g a)) :
    Unless P (x >>= f) (x >>= g) := bind (refl x) hfg

theorem bind_left {f : α → Writing β} (h : Unless P x y) : Unless P (x >>= f) (y >>= f) :=
  bind h fun _ => refl _

theorem mapM {as bs : List α} {f : α → Writing β} (h : List.Forall₂ (fun a b => Unless P (f a) (f b)) as bs) :
    Unless P (as.mapM f) (bs.mapM f) := by
  induction h with
  | nil => exact refl _
  | cons hab _ ih =>
    rw [List.mapM_cons, List.mapM_cons]
    exact bind hab fun _ => bind_left ih

theorem fail {e : Abort} (he : P e) (y : Writing α) : Unless P (.fail e) y := fun _ => .inr ⟨e, he, rfl⟩

end Unless

end Writing

/-- The same for two ways to write a value, under every type and in every slot. -/
def Writer.Unless (P : Abort → Prop) (x y : Writer) : Prop := ∀ t slot, Writing.Unless P (x t slot) (y t slot)

namespace Setting

variable {P : Abort → Prop} {items items' : List Writer} {entries entries' : List (Writer × Writer)}

theorem writePlain_unless (t : Ty) (v : Value) (hi : List.Forall₂ (Writer.Unless P) items items')
    (he : List.Forall₂ (fun x y => x.1.Unless P y.1 ∧ x.2.Unless P y.2) entries entries') :
    Writing.Unless P (writePlain t v items entries) (writePlain t v items' entries') := by
  have hlist : ∀ item : Ty, Writing.Unless P (items.mapM fun w => w item .typed)
      (items'.mapM fun w => w item .typed) :=
    fun item => .mapM (hi.imp fun _ _ h => h item .typed)
  have hmap : ∀ key value : Ty, Writing.Unless P
      (entries.mapM fun w => do return (← w.1 key .typed, ← w.2 value .typed))
      (entries'.mapM fun w => do return (← w.1 key .typed, ← w.2 value .typed)) :=
    fun key value => .mapM (he.imp fun _ _ h => .bind (h.1 key .typed) fun _ => .bind_left (h.2 value .typed))
  rw [writePlain.eq_def, writePlain.eq_def]
  split
  · exact .bind_left (hlist _)
  · exact .bind_left (hlist _)
  · cases hi with
    | nil => exact .refl _
    | cons hw hi =>
      cases hi with
      | nil => exact .bind_left (hw _ _)
      | cons _ _ => exact .refl _
  · cases hi with
    | nil => exact .refl _
    | cons hv hi =>
      cases hi with
      | nil => exact .refl _
      | cons hw hi =>
        cases hi with
        | nil => exact .bind (hv _ _) fun _ => .bind_left (hw _ _)
        | cons _ _ => exact .refl _
  · exact .bind_left (hmap _ _)
  · exact .bind_left (hmap _ _)
  · exact .refl _

theorem writePart_unless (label : String) (part : Part) (v : Value) {x y : Writer} (h : x.Unless P y) :
    Writing.Unless P (writePart label part v x) (writePart label part v y) := by
  rw [writePart.eq_def, writePart.eq_def]
  split
  · exact .refl _
  · exact .refl _
  · exact h _ _
  · exact .refl _

theorem writeParts_unless (label : String) (parts : List Part) (vs : List Value)
    (hi : List.Forall₂ (Writer.Unless P) items items') :
    Writing.Unless P (writeParts label parts vs items) (writeParts label parts vs items') := by
  induction hi generalizing parts vs with
  | nil => exact .refl _
  | cons hw _ ih =>
    cases parts with
    | nil => cases vs <;> exact .refl _
    | cons part parts =>
      cases vs with
      | nil => exact .refl _
      | cons v vs =>
        rw [writeParts, writeParts]
        exact .bind (writePart_unless label part v hw) fun _ => .bind_left (ih parts vs)

theorem writeBody_unless {w w' : Value → Writer} (hw : ∀ v, (w v).Unless P (w' v)) (s : Serializer) (v : Value)
    (hi : List.Forall₂ (Writer.Unless P) items items') :
    Writing.Unless P (writeBody w s v items) (writeBody w' s v items') := by
  rw [writeBody, writeBody]
  cases s.codec with
  | single write read => exact .refl _
  | composite what backward parts check =>
    cases v with
    | seq vs => exact .bind_left (writeParts_unless s.target.label parts vs hi)
    | _ => exact .refl _
  | proxy standIn toProxy fromProxy => exact .bind_right _ fun _ => hw _ _ _

theorem writeField_unless (label : String) (f : Field) {x y : Writer} (h : x.Unless P y) :
    Writing.Unless P (writeField label f x) (writeField label f y) := by
  rw [writeField, writeField]
  cases f.required with
  | true => exact h _ _
  | false => exact .bind_left (h _ _)

theorem writeFields_unless (label : String) (names : List String) (values : List Element)
    (fs : List Field) (vs : List Value) (hi : List.Forall₂ (Writer.Unless P) items items') :
    Writing.Unless P (writeFields label names values fs vs items)
      (writeFields label names values fs vs items') := by
  induction hi generalizing names values fs vs with
  | nil => exact .refl _
  | cons hw _ ih =>
    cases fs with
    | nil => cases vs <;> exact .refl _
    | cons f fs =>
      cases vs with
      | nil => exact .refl _
      | cons v vs =>
        cases hskip : f.skips v with
        | true =>
          rw [writeFields_cons_of_skips hskip, writeFields_cons_of_skips hskip]
          exact ih names values fs vs
        | false =>
          rw [writeFields_cons hskip, writeFields_cons hskip]
          split
          · exact .refl _
          · exact .bind (writeField_unless label f hw) fun _ => ih _ _ _ _

/-- Writes an object of an admitted type. -/
def writeObject (v : Value) (items : List Writer) (o : ObjectType) : Writing Element :=
  match v with
  | .seq vs => do
    let (names, values) ← writeFields o.name [] [] o.fields vs items
    noteFields o.name names
    return .described o.name (.list values)
  | _ => .lift (wrongValue o.name)

theorem writeObject_unless (v : Value) (o : ObjectType) (hi : List.Forall₂ (Writer.Unless P) items items') :
    Writing.Unless P (writeObject v items o) (writeObject v items' o) := by
  cases v with
  | seq vs => exact .bind_left (writeFields_unless o.name [] [] o.fields vs hi)
  | _ => exact .refl _

/-- Writes an object of a loaded type. -/
def writeLoaded (c : Setting) (v : Value) (items : List Writer) (o : ObjectType) : Writing Element := do
  .lift (c.policy.check o.name)
  writeObject v items o

/-- Two settings with the same serializers, in which objects of the same types are written alike. -/
structure WritesObjectsUnless (c c' : Setting) (P : Abort → Prop) : Prop where
  registry : c'.registry = c.registry
  loaded : ∀ t v items items', List.Forall₂ (Writer.Unless P) items items' →
    Option.Rel (fun o o' => Writing.Unless P (c.writeLoaded v items o) (c'.writeLoaded v items' o'))
      (c.scope.objectType? t) (c'.scope.objectType? t)

variable {c c' : Setting} {w w' : Value → Writer}

theorem writeDescribed_unless (hP : Unguarded P) (hc : c.WritesObjectsUnless c' P)
    (hw : ∀ v, (w v).Unless P (w' v)) (v : Value) (hi : List.Forall₂ (Writer.Unless P) items items')
    (he : List.Forall₂ (fun x y => x.1.Unless P y.1 ∧ x.2.Unless P y.2) entries entries') :
    Writer.Unless P (c.writeDescribed w v items entries) (c'.writeDescribed w' v items' entries') := by
  intro t slot
  have hloaded := hc.loaded t v items items' hi
  simp only [writeDescribed, hc.registry]
  cases c.registry.byType.get? t with
  | some s =>
    refine .bind_left fun schema => ?_
    exact .guard hP s "write" (writeBody_unless hw s v hi schema)
  | none =>
    generalize c.scope.objectType? t = o, c'.scope.objectType? t = o' at hloaded
    cases hloaded with
    | some h => exact h
    | none =>
      cases slot with
      | typed => exact .refl _
      | erased name native =>
        cases native with
        | false => exact .refl _
        | true =>
          cases t.nativeDescriptor with
          | none => exact .refl _
          | some descriptor => exact .bind_left (writePlain_unless t v hi he)

theorem writeNode_unless (hP : Unguarded P) (hc : c.WritesObjectsUnless c' P)
    (hw : ∀ v, (w v).Unless P (w' v)) (v : Value) (hi : List.Forall₂ (Writer.Unless P) items items')
    (he : List.Forall₂ (fun x y => x.1.Unless P y.1 ∧ x.2.Unless P y.2) entries entries') :
    Writer.Unless P (c.writeNode w v items entries) (c'.writeNode w' v items' entries') := by
  intro t slot
  have hdescribed := writeDescribed_unless hP hc hw v hi he t slot
  cases slot with
  | erased name native => exact hdescribed
  | typed =>
    rw [writeNode.eq_def, writeNode.eq_def]
    dsimp only
    split
    · exact writePlain_unless t v hi he
    · split
      · exact .refl _
      · exact hdescribed

/-- Two settings write a value alike if they write the stand-ins and the objects of loaded types alike. -/
theorem writeOver_unless (hP : Unguarded P) (hc : c.WritesObjectsUnless c' P)
    (hw : ∀ v, (w v).Unless P (w' v)) (v : Value) : (c.writeOver w v).Unless P (c'.writeOver w' v) := by
  induction v using Value.member_induction with
  | leaf v h =>
    rw [writeOver_leaf c w h, writeOver_leaf _ w' h]
    exact writeNode_unless hP hc hw v .nil .nil
  | seq vs ih =>
    rw [writeOver_seq, writeOver_seq]
    refine writeNode_unless hP hc hw _ ?_ .nil
    rw [List.forall₂_map_left_iff, List.forall₂_map_right_iff, List.forall₂_same]
    exact ih
  | entries es ih =>
    rw [writeOver_entries, writeOver_entries]
    refine writeNode_unless hP hc hw _ .nil ?_
    rw [List.forall₂_map_left_iff, List.forall₂_map_right_iff, List.forall₂_same]
    exact ih
  | erased type name native v ih =>
    have hnode := writeNode_unless hP hc hw (.erased type name native v) .nil .nil
    intro t slot
    cases t with
    | any =>
      cases slot with
      | typed =>
        rw [writeOver_erased, writeOver_erased]
        exact ih _ _
      | erased name native => exact hnode .any (.erased name native)
    | _ => exact hnode _ _

end Setting

end DurableFlow
