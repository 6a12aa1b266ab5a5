import DurableFlow.Serializer.Read

/-!
# Elements and their members

What holds of an element whenever it holds of its members holds of every element. The readers of the
members are those that the reader of the element works with.
-/

namespace DurableFlow

def Element.IsLeaf : Element → Prop
  | .list _ | .map _ | .described _ _ => False
  | _ => True

theorem Element.member_induction {P : Element → Prop} (leaf : ∀ e : Element, e.IsLeaf → P e)
    (list : ∀ es, (∀ e ∈ es, P e) → P (.list es))
    (map : ∀ es, (∀ e ∈ es, P e.1 ∧ P e.2) → P (.map es))
    (described : ∀ d body, P body → P (.described d body)) (e : Element) : P e :=
  @Element.rec P (fun es => ∀ e ∈ es, P e) (fun es => ∀ e ∈ es, P e.1 ∧ P e.2)
    (fun e => P e.1 ∧ P e.2) (leaf _ trivial) (fun _ => leaf _ trivial) (fun _ => leaf _ trivial)
    (fun _ => leaf _ trivial) (fun _ => leaf _ trivial) (fun _ => leaf _ trivial)
    (fun _ => leaf _ trivial) (fun _ => leaf _ trivial) (fun es h => list es h)
    (fun es h => map es h) (fun d body h => described d body h) (by simp)
    (fun _ _ h hs => List.forall_mem_cons.2 ⟨h, hs⟩) (by simp)
    (fun _ _ h hs => List.forall_mem_cons.2 ⟨h, hs⟩) (fun _ _ h h' => ⟨h, h'⟩) e

def Ty.members : Ty → List Ty
  | list t | set t | optional t => [t]
  | pair t t' | map t t' | hashmap t t' => [t, t']
  | _ => []

namespace Element

mutual

/-- The descriptors in the element. -/
def descriptors : Element → List String
  | list items => descriptorsAll items
  | map entries => descriptorsEntries entries
  | described d body => d :: body.descriptors
  | _ => []

def descriptorsAll : List Element → List String
  | [] => []
  | e :: es => e.descriptors ++ descriptorsAll es

def descriptorsEntries : List (Element × Element) → List String
  | [] => []
  | (k, v) :: es => k.descriptors ++ v.descriptors ++ descriptorsEntries es

end

theorem descriptors_list (es : List Element) : (list es).descriptors = es.flatMap descriptors := by
  rw [descriptors]
  induction es with
  | nil => rfl
  | cons e es ih => rw [descriptorsAll, ih, List.flatMap_cons]

theorem descriptors_map (es : List (Element × Element)) :
    (map es).descriptors = es.flatMap fun e => e.1.descriptors ++ e.2.descriptors := by
  rw [descriptors]
  induction es with
  | nil => rfl
  | cons e es ih => rw [descriptorsEntries, ih, List.flatMap_cons]

end Element

namespace Setting

variable (c : Setting) (schema : Schema)

theorem elementReaders_eq (es : List Element) :
    c.elementReaders schema es = es.map (c.readElement schema) := by
  induction es with
  | nil => rfl
  | cons e es ih => rw [elementReaders, ih, List.map_cons]

theorem entryReaders_eq (es : List (Element × Element)) :
    c.entryReaders schema es =
      es.map fun e => (c.readElement schema e.1, c.readElement schema e.2) := by
  induction es with
  | nil => rfl
  | cons e es ih => rw [entryReaders, ih, List.map_cons]

theorem readElement_leaf {e : Element} (h : e.IsLeaf) :
    c.readElement schema e = readNode schema e [] [] := by
  cases e <;> first | exact h.elim | rfl

theorem readElement_list (es : List Element) :
    c.readElement schema (.list es) =
      readNode schema (.list es) (es.map (c.readElement schema)) [] := by
  rw [readElement, elementReaders_eq]

theorem readElement_map (es : List (Element × Element)) :
    c.readElement schema (.map es) =
      readNode schema (.map es) []
        (es.map fun e => (c.readElement schema e.1, c.readElement schema e.2)) := by
  rw [readElement, entryReaders_eq]

theorem readElement_described (d : String) (body : Element) (t : Ty) :
    c.readElement schema (.described d body) (.value t) =
      if t.isPlain then readNode schema (.described d body) [] [] (.value t)
      else if t = .any then c.readDynamic d body (c.readElement schema body)
      else c.readTyped t d body (c.readElement schema body) := by
  rw [readElement]

theorem readElement_described_parts (d : String) (body : Element) (what : String) (backward : Bool)
    (parts : List Part) :
    c.readElement schema (.described d body) (.parts what backward parts) =
      readNode schema (.described d body) [] [] (.parts what backward parts) := rfl

theorem readElement_described_fields (d : String) (body : Element) (o : ObjectType) :
    c.readElement schema (.described d body) (.fields o) =
      readNode schema (.described d body) [] [] (.fields o) := rfl

/-- One field of an object, found by its name. -/
def readField (type : String) (names : List String) (values : List Reader) (f : Field) :
    Except Abort Value :=
  match (names.zip values).find? (·.1 = f.name) with
  | some (_, r) => if f.required then r (.value f.type) else do return .some (← r (.value f.type))
  | none => if f.required then Abort.mismatch s!"field {f.name} of {type}" "absent" else .ok .none

theorem readFields_cons (type : String) (names : List String) (values : List Reader) (f : Field)
    (fs : List Field) :
    readFields type names values (f :: fs) = do
      let v ← readField type names values f
      return v :: (← readFields type names values fs) := by
  rw [readFields, readField]
  generalize (names.zip values).find? _ = found
  cases f.required with
  | true => cases found <;> rfl
  | false =>
    cases found with
    | none => rfl
    | some r => simp only [Bool.false_eq_true, if_false, bind_assoc, pure_bind]

end Setting

end DurableFlow
